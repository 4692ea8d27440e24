import TinySox.ProgramGate

/-!
# In what order the program does things

Clients are accepted only behind the calls that change what the process may do, and only if all of
them have succeeded or a shutdown is requested. The calls themselves are made in a fixed order, each
once, and none after one that has failed. All this holds whatever the system calls return and however
the threads are scheduled; it rests on `ShutdownHandler` being among the subscribers.
-/

namespace TinySox

open TinySox.Common

/-- The calls in the order of their blocks. -/
def PrivilegedCall.place : PrivilegedCall → ℕ
  | .setns => 0
  | .chdir => 1
  | .setgid => 2
  | .setuid => 3

/-- How many blocks are behind `main`. -/
def StartupPc.place : StartupPc → ℕ
  | .startListener _ | .wait | .openNetNS | .recheck => 0
  | .guard call | .perform call | .sending call _ => call.place
  | .secondStage => 4

/-- How many blocks are behind `main`. -/
def LifePc.place : LifePc → ℕ
  | .signals => 0
  | .first pc => pc.place
  | _ => 4

/-- No two calls have one place. -/
theorem PrivilegedCall.eq_of_place {call call' : PrivilegedCall} (h : call.place = call'.place) :
    call = call' := by
  cases call <;> cases call' <;> first | rfl | contradiction

/-- Behind the block of a call, one more block is behind `main`. -/
theorem LifePc.place_next (call : PrivilegedCall) :
    (LifePc.ofStartup call.next).place = call.place + 1 := by
  cases call <;> rfl

/-- The call that `main` has decided to make. -/
def LifePc.enters : LifePc → Option PrivilegedCall
  | .first .openNetNS | .first .recheck => some .setns
  | .first (.perform call) => some call
  | _ => none

/-- `main` is ahead of all blocks. -/
inductive LifePc.Ahead : LifePc → Prop
  | signals : Ahead .signals
  | startListener (i : ℕ) : Ahead (.first (.startListener i))
  | wait : Ahead (.first .wait)
  | guard : Ahead (.first (.guard .setns))

/-- All calls that are configured have succeeded. -/
def MainState.Changed (m : MainState) (trace : List LifeEvent) : Prop :=
  ∀ call, m.configured call = true → .performed call true ∈ trace

/-- What may happen after this: a call is one that is configured, in its turn, and a client is accepted
behind the startup. -/
def LifeFits (m : MainState) (past : List LifeEvent) : LifeEvent → Prop
  | .performed call _ =>
    m.configured call = true ∧ m.rejected call = false ∧ .continued ∉ past ∧
      (∀ call', call'.place < call.place → m.configured call' = true → .performed call' true ∈ past) ∧
      ∀ call' ok, .performed call' ok ∈ past → call'.place < call.place ∧ ok = true
  | .accepted _ _ => .continued ∈ past ∧ (.requested ∈ past ∨ m.Changed past)
  | _ => True

/-- What has happened agrees with where `main` is. -/
structure LifeOrdered (m : MainState) (pc : LifePc) (requested : Bool) (trace : List LifeEvent) :
    Prop where
  flag : requested = true ↔ .requested ∈ trace
  early : pc.isEarly = true → .continued ∉ trace
  done : (∀ code, pc ≠ .returned code) → ∀ call, call.place < pc.place → m.configured call = true →
    .requested ∈ trace ∨ .performed call true ∈ trace
  made : ∀ call ok, .performed call ok ∈ trace →
    call.place < pc.place ∨ ∃ left, pc = .first (.sending call left)
  failed : ∀ call, .performed call false ∈ trace →
    .requested ∈ trace ∨ ∃ left, pc = .first (.sending call left)
  sending : ∀ call left, pc = .first (.sending call left) →
    .requested ∈ trace ∨ .shutdownHandler ∈ left
  entered : ∀ call, pc.enters = some call → m.configured call = true ∧ m.rejected call = false ∧
    (∀ call', call'.place < call.place → m.configured call' = true → .performed call' true ∈ trace) ∧
    ∀ call', .performed call' false ∉ trace
  settled : .continued ∈ trace → .requested ∈ trace ∨ m.Changed trace
  fits : ∀ past e later, trace = past ++ e :: later → LifeFits m past e

namespace LifeOrdered

variable {m : MainState} {settings : ListenerSettings} {pc pc' : LifePc} {requested requested' : Bool}
  {trace : List LifeEvent}

/-- Something happens that is neither one of the calls nor the start of the second stage. -/
theorem note (h : LifeOrdered m pc requested trace) {e : LifeEvent}
    (hcall : ∀ call ok, e ≠ .performed call ok) (hcontinued : e ≠ .continued)
    (hflag : requested' = true ↔ requested = true ∨ e = .requested) (hfits : LifeFits m trace e) :
    LifeOrdered m pc requested' (trace ++ [e]) := by
  have hmem {x : LifeEvent} (hx : x ∈ trace) : x ∈ trace ++ [e] := List.mem_append_left _ hx
  have hcalls {call : PrivilegedCall} {ok : Bool} (hx : .performed call ok ∈ trace ++ [e]) :
      .performed call ok ∈ trace :=
    (List.mem_append.mp hx).resolve_right fun hlast =>
      hcall call ok (List.mem_singleton.mp hlast).symm
  have hsent (hx : .continued ∈ trace ++ [e]) : .continued ∈ trace :=
    (List.mem_append.mp hx).resolve_right fun hlast => hcontinued (List.mem_singleton.mp hlast).symm
  constructor
  · rw [hflag, h.flag, List.mem_append, List.mem_singleton, eq_comm (a := e)]
  · exact fun hpc hx => h.early hpc (hsent hx)
  · exact fun hpc call hplace hm => (h.done hpc call hplace hm).imp hmem hmem
  · exact fun call ok hx => h.made call ok (hcalls hx)
  · exact fun call hx => (h.failed call (hcalls hx)).imp_left hmem
  · exact fun call left hpc => (h.sending call left hpc).imp_left hmem
  · intro call hpc
    obtain ⟨hm, hr, hbefore, hnone⟩ := h.entered call hpc
    exact ⟨hm, hr, fun call' hlt hm' => hmem (hbefore call' hlt hm'), fun call' hx => hnone call' (hcalls hx)⟩
  · exact fun hx => (h.settled (hsent hx)).imp hmem fun hall call hm => hmem (hall call hm)
  · exact forall_split_concat h.fits hfits

/-- `main` goes on, past these blocks or into one. -/
theorem goto (h : LifeOrdered m pc requested trace) (hearly : pc'.isEarly = true → pc.isEarly = true)
    (hreturned : ∀ code, pc ≠ .returned code) (hsent : ∀ call left, pc ≠ .first (.sending call left))
    (hplace : pc.place ≤ pc'.place)
    (hdone : ∀ call, pc.place ≤ call.place → call.place < pc'.place → m.configured call = true →
      .requested ∈ trace)
    (hsending : ∀ call left, pc' = .first (.sending call left) →
      .requested ∈ trace ∨ .shutdownHandler ∈ left)
    (hentered : ∀ call, pc'.enters = some call → m.configured call = true ∧ m.rejected call = false ∧
      (∀ call', call'.place < call.place → m.configured call' = true → .performed call' true ∈ trace) ∧
      ∀ call', .performed call' false ∉ trace) : LifeOrdered m pc' requested trace := by
  refine ⟨h.flag, fun hpc => h.early (hearly hpc), fun _ call hlt hm => ?_, fun call ok hx => ?_,
    fun call hx => ?_, hsending, hentered, h.settled, h.fits⟩
  · rcases Nat.lt_or_ge call.place pc.place with hbefore | hafter
    · exact h.done hreturned call hbefore hm
    · exact .inl (hdone call hafter hlt hm)
  · rcases h.made call ok hx with hlt | ⟨left, hleft⟩
    · exact .inl (hlt.trans_le hplace)
    · exact absurd hleft (hsent call left)
  · exact (h.failed call hx).imp_right fun ⟨left, hleft⟩ => absurd hleft (hsent call left)

/-- `main` goes on ahead of the blocks. -/
theorem ahead (h : LifeOrdered m pc requested trace) (hpc : pc.Ahead) (hpc' : pc'.Ahead) :
    LifeOrdered m pc' requested trace := by
  have hplace : pc'.place = 0 := by cases hpc' <;> rfl
  refine h.goto (fun _ => ?_) (fun code heq => ?_) (fun call left heq => ?_) ?_ (fun call _ hlt => ?_)
    (fun call left heq => ?_) fun call heq => ?_
  · cases hpc <;> rfl
  · rw [heq] at hpc
    cases hpc
  · rw [heq] at hpc
    cases hpc
  · cases hpc <;> exact Nat.zero_le _
  · rw [hplace] at hlt
    exact absurd hlt (Nat.not_lt_zero _)
  · rw [heq] at hpc'
    cases hpc'
  · cases hpc' <;> contradiction

/-- `main` goes on behind the blocks. -/
theorem behind (h : LifeOrdered m pc requested trace) (hearly : pc'.isEarly = true → pc.isEarly = true)
    (hreturned : ∀ code, pc ≠ .returned code) (hpc : pc.atGate = none) (hpc' : pc'.atGate = none) :
    LifeOrdered m pc' requested trace := by
  have hfour : pc.place = 4 := by cases pc <;> first | rfl | contradiction
  have hfour' : pc'.place = 4 := by cases pc' <;> first | rfl | contradiction
  refine h.goto hearly hreturned (fun call left heq => ?_) (by rw [hfour, hfour'])
    (fun call hge hlt => ?_) (fun call left heq => ?_) fun call heq => ?_
  · rw [heq] at hpc
    contradiction
  · omega
  · rw [heq] at hpc'
    contradiction
  · cases pc' <;> contradiction

end LifeOrdered

namespace Program

/-- The same of the program. -/
def Ordered (m : MainState) (s : Program) : Prop :=
  LifeOrdered m s.pc s.isShutdownRequested s.trace

namespace Ordered

variable {m : MainState} {settings : ListenerSettings} {s s' : Program}

/-- What is noted of the other threads fits. -/
theorem notes (h : s.Ordered m) (hgating : s.Gating) {requested : Bool} {trace : List LifeEvent}
    (hnotes : s.Notes requested trace) : LifeOrdered m s.pc requested trace := by
  cases hnotes with
  | nothing => exact h
  | requested hbefore => exact h.note nofun nofun (by simp) trivial
  | ready i => exact h.note nofun nofun (by simp) trivial
  | failed i => exact h.note nofun nofun (by simp) trivial
  | accepted i client fd l hi hpc =>
    have hl := List.mem_of_getElem? hi
    have hsent := hgating.allowed l hl (hgating.released l hl (by rw [hpc]; rfl))
    exact h.note nofun nofun (by simp) ⟨hsent, h.settled hsent⟩

/-- Whoever tells `ShutdownHandler` of a failure has requested the shutdown. -/
theorem requested_visit (s : Program) (source : Option ℕ) (ec : Int) :
    (s.visit source (.startup (.shutdown ec)) .shutdownHandler).isShutdownRequested = true := by
  cases hrequested : s.shutdownHandler.shutdownRequested <;>
    simp [visit, ProgramMessage.msgType, StartupMessage.msgType, StartupSubscriber.readyForMessage,
      ShutdownHandler.onMessage, emit, isShutdownRequested, hrequested]

/-- Who is told to continue notes nothing. -/
theorem visit_continue_notes (s : Program) (subscriber : StartupSubscriber) :
    (s.visit none .startupContinue subscriber).isShutdownRequested = s.isShutdownRequested ∧
      (s.visit none .startupContinue subscriber).trace = s.trace := by
  unfold visit
  split
  · cases subscriber <;> exact ⟨rfl, rfl⟩
  · exact ⟨rfl, rfl⟩

/-- `main` tells a subscriber that a call has failed. -/
theorem tells (h : s.Ordered m) (hgating : s.Gating) {call : PrivilegedCall}
    {subscriber : StartupSubscriber} {left : List StartupSubscriber}
    (hpc : s.pc = .first (.sending call (subscriber :: left))) :
    LifeOrdered m (.first (.sending call left))
      (s.visit none (.startup (.shutdown 1)) subscriber).isShutdownRequested
      (s.visit none (.startup (.shutdown 1)) subscriber).trace := by
  have htold := h.notes hgating (s.visit_startup none (.shutdown 1) subscriber).notes
  rw [hpc] at htold
  refine ⟨htold.flag, htold.early, fun _ => htold.done nofun, fun call' ok hx => ?_, fun call' hx => ?_,
    ?_, nofun, htold.settled, htold.fits⟩
  · rcases htold.made call' ok hx with hlt | ⟨left', hleft⟩
    · exact .inl hlt
    · cases hleft
      exact .inr ⟨left, rfl⟩
  · rcases htold.failed call' hx with hrequested | ⟨left', hleft⟩
    · exact .inl hrequested
    · cases hleft
      exact .inr ⟨left, rfl⟩
  · rintro call' left' heq
    cases heq
    rcases htold.sending call _ rfl with hrequested | hmem
    · exact .inl hrequested
    · rcases List.mem_cons.mp hmem with heq | hmem
      · subst heq
        exact .inl (htold.flag.mp (requested_visit s none 1))
      · exact .inr hmem

/-- `main` has told all subscribers that a call has failed. -/
theorem told (h : s.Ordered m) {call : PrivilegedCall} (hpc : s.pc = .first (.sending call [])) :
    LifeOrdered m (.ofStartup call.next) s.isShutdownRequested s.trace := by
  have hrequested : .requested ∈ s.trace :=
    (h.sending call [] hpc).resolve_right List.not_mem_nil
  refine ⟨h.flag, fun _ => h.early (by rw [hpc]; rfl), fun _ call' _ _ => .inl hrequested,
    fun call' ok hx => ?_, fun call' hx => .inl hrequested, fun call' left heq => .inl hrequested, ?_,
    h.settled, h.fits⟩
  · rw [LifePc.place_next]
    rcases h.made call' ok hx with hlt | ⟨left, hleft⟩
    · rw [hpc] at hlt
      exact .inl (Nat.lt_succ_of_lt hlt)
    · rw [hpc] at hleft
      cases hleft
      exact .inl (Nat.lt_succ_self _)
  · intro call' heq
    cases call <;> contradiction

/-- `main` enters the block of a call, or passes it. -/
theorem guard (h : s.Ordered m) (horder : .shutdownHandler ∈ settings.order) {call : PrivilegedCall}
    (hpc : s.pc = .first (.guard call)) {pc : StartupPc}
    (hnext : pc = if !s.isShutdownRequested && m.configured call then m.enterBlock settings.order call
      else call.next) : LifeOrdered m (.ofStartup pc) s.isShutdownRequested s.trace := by
  have hplace : s.pc.place = call.place := by rw [hpc]; rfl
  have hearly : (LifePc.ofStartup pc).isEarly = true → s.pc.isEarly = true := by
    rw [hpc]
    exact fun _ => rfl
  have hreturned (code : Int) : s.pc ≠ .returned code := by rw [hpc]; exact nofun
  have hsent (call' : PrivilegedCall) (left : List StartupSubscriber) :
      s.pc ≠ .first (.sending call' left) := by rw [hpc]; exact nofun
  split_ifs at hnext with henters
  · obtain ⟨hquiet, hconfigured⟩ := Bool.and_eq_true_iff.mp henters
    have hnot : .requested ∉ s.trace := by
      rw [← h.flag]
      exact (Bool.not_eq_true' _).mp hquiet ▸ Bool.false_ne_true
    have hbefore : ∀ call', call'.place < call.place → m.configured call' = true →
        .performed call' true ∈ s.trace := fun call' hlt hm =>
      (h.done hreturned call' (hplace ▸ hlt) hm).resolve_left hnot
    have hnone : ∀ call', .performed call' false ∉ s.trace := by
      intro call' hx
      rcases h.failed call' hx with hrequested | ⟨left, hleft⟩
      · exact hnot hrequested
      · exact hsent call' left hleft
    have hsame (hpc' : (LifePc.ofStartup pc).place = call.place)
        (hsending : ∀ call' left, LifePc.ofStartup pc = .first (.sending call' left) →
          .shutdownHandler ∈ left)
        (henters : ∀ call', (LifePc.ofStartup pc).enters = some call' →
          call' = call ∧ m.rejected call = false) :
        LifeOrdered m (.ofStartup pc) s.isShutdownRequested s.trace := by
      refine h.goto hearly hreturned hsent (by rw [hplace, hpc']) (fun call' hge hlt => ?_)
        (fun call' left heq => .inr (hsending call' left heq)) fun call' heq => ?_
      · omega
      · obtain ⟨rfl, hr⟩ := henters call' heq
        exact ⟨hconfigured, hr, hbefore, hnone⟩
    rw [MainState.enterBlock] at hnext
    split_ifs at hnext with hsetns hrejected
    · subst hnext hsetns
      refine hsame rfl (by rintro _ _ ⟨⟩) fun call' heq => ?_
      cases heq
      exact ⟨rfl, rfl⟩
    · subst hnext
      refine hsame rfl (fun call' left heq => ?_) (by rintro _ ⟨⟩)
      cases heq
      exact horder
    · subst hnext
      refine hsame rfl (by rintro _ _ ⟨⟩) fun call' heq => ?_
      cases heq
      exact ⟨rfl, (Bool.not_eq_true _).mp hrejected⟩
  · subst hnext
    have hnext := LifePc.place_next call
    refine h.goto hearly hreturned hsent (by rw [hplace, hnext]; omega) (fun call' hge hlt hm => ?_)
      (fun call' left heq => ?_) fun call' heq => ?_
    · obtain rfl : call' = call := PrivilegedCall.eq_of_place (by omega)
      rw [hm, Bool.and_true, Bool.not_eq_true', Bool.not_eq_false] at henters
      exact h.flag.mp henters
    · cases call <;> cases heq
    · cases call <;> cases heq

/-- `main` makes a call. -/
theorem performs (h : s.Ordered m) (horder : .shutdownHandler ∈ settings.order) {call : PrivilegedCall}
    (hpc : s.pc = .first (.perform call)) (result : Int) :
    LifeOrdered m (.ofStartup (if result < 0 then .sending call settings.order else call.next))
      s.isShutdownRequested (s.trace ++ [.performed call (0 ≤ result)]) := by
  obtain ⟨hconfigured, hrejected, hbefore, hnone⟩ := h.entered call (by rw [hpc]; rfl)
  have hunsent : .continued ∉ s.trace := h.early (by rw [hpc]; rfl)
  have hmem {x : LifeEvent} (hx : x ∈ s.trace) : x ∈ s.trace ++ [.performed call (0 ≤ result)] :=
    List.mem_append_left _ hx
  have hbehind (call' : PrivilegedCall) (ok : Bool) (hx : .performed call' ok ∈ s.trace) :
      call'.place < call.place := by
    rcases h.made call' ok hx with hlt | ⟨left, hleft⟩
    · rwa [hpc] at hlt
    · rw [hpc] at hleft
      cases hleft
  have hrequested : s.isShutdownRequested = true ↔
      .requested ∈ s.trace ++ [.performed call (0 ≤ result)] := by
    rw [h.flag, List.mem_append, List.mem_singleton]
    exact ⟨.inl, fun hx => hx.resolve_right nofun⟩
  have hstill : .continued ∉ s.trace ++ [.performed call (0 ≤ result)] := by
    rw [List.mem_append, List.mem_singleton, not_or]
    exact ⟨hunsent, nofun⟩
  have hfits : LifeFits m s.trace (.performed call (0 ≤ result)) := by
    refine ⟨hconfigured, hrejected, hunsent, hbefore, fun call' ok hx => ⟨hbehind call' ok hx, ?_⟩⟩
    cases ok with
    | true => rfl
    | false => exact absurd hx (hnone call')
  have hcases (call' : PrivilegedCall) (ok : Bool)
      (hx : .performed call' ok ∈ s.trace ++ [.performed call (0 ≤ result)]) :
      .performed call' ok ∈ s.trace ∨ call' = call ∧ ok = decide (0 ≤ result) := by
    rw [List.mem_append, List.mem_singleton, LifeEvent.performed.injEq] at hx
    exact hx
  split_ifs with hfails
  · refine ⟨hrequested, fun _ => hstill, fun _ call' hlt hm => .inr (hmem (hbefore call' hlt hm)),
      fun call' ok hx => ?_, fun call' hx => ?_, fun call' left heq => ?_, nofun,
      fun hx => absurd hx hstill, forall_split_concat h.fits hfits⟩
    · rcases hcases call' ok hx with hold | ⟨rfl, -⟩
      · exact .inl (hbehind call' ok hold)
      · exact .inr ⟨_, rfl⟩
    · rcases hcases call' false hx with hold | ⟨rfl, -⟩
      · exact absurd hold (hnone call')
      · exact .inr ⟨_, rfl⟩
    · cases heq
      exact .inr horder
  · have hgood : decide (0 ≤ result) = true := decide_eq_true (Int.not_lt.mp hfails)
    refine ⟨hrequested, fun _ => hstill, fun _ call' hlt hm => .inr ?_, fun call' ok hx => .inl ?_,
      fun call' hx => ?_, fun call' left heq => ?_, fun call' heq => ?_, fun hx => absurd hx hstill,
      forall_split_concat h.fits hfits⟩
    · rw [LifePc.place_next] at hlt
      rcases Nat.lt_or_ge call'.place call.place with hold | hge
      · exact hmem (hbefore call' hold hm)
      · obtain rfl : call' = call := PrivilegedCall.eq_of_place (by omega)
        rw [hgood]
        exact List.mem_append_right _ (List.mem_singleton_self _)
    · rw [LifePc.place_next]
      rcases hcases call' ok hx with hold | ⟨rfl, -⟩
      · exact Nat.lt_succ_of_lt (hbehind call' ok hold)
      · exact Nat.lt_succ_self _
    · rcases hcases call' false hx with hold | ⟨-, hbad⟩
      · exact absurd hold (hnone call')
      · rw [hgood] at hbad
        contradiction
    · cases call <;> cases heq
    · cases call <;> cases heq

/-- `StartupContinueMessage` is sent. -/
theorem continues (h : s.Ordered m) (hpc : s.pc.atGate = none) (hearly : s.pc.isEarly = true)
    (left : List StartupSubscriber) :
    LifeOrdered m (.continuing left) s.isShutdownRequested (s.trace ++ [.continued]) := by
  have hfour : s.pc.place = 4 := by cases hs : s.pc <;> rw [hs] at hpc <;> first | rfl | contradiction
  have hreturned (code : Int) : s.pc ≠ .returned code := by
    intro heq
    rw [heq] at hearly
    contradiction
  have hmem {x : LifeEvent} (hx : x ∈ s.trace) : x ∈ s.trace ++ [.continued] :=
    List.mem_append_left _ hx
  have hold {x : LifeEvent} (hx : x ∈ s.trace ++ [.continued]) (hne : x ≠ .continued) : x ∈ s.trace :=
    (List.mem_append.mp hx).resolve_right fun hlast => hne (List.mem_singleton.mp hlast)
  have hlt (call : PrivilegedCall) : call.place < 4 := by cases call <;> decide
  have hdone (call : PrivilegedCall) (hm : m.configured call = true) :=
    h.done hreturned call (by rw [hfour]; exact hlt call) hm
  refine ⟨?_, nofun, fun _ call _ hm => (hdone call hm).imp hmem hmem, fun call _ _ => .inl (hlt call),
    fun call hx => ?_, nofun, nofun, fun _ => ?_, forall_split_concat h.fits trivial⟩
  · rw [h.flag]
    exact ⟨hmem, fun hx => hold hx nofun⟩
  · rcases h.failed call (hold hx nofun) with hrequested | ⟨left, hleft⟩
    · exact .inl (hmem hrequested)
    · rw [hleft] at hpc
      contradiction
  · by_cases hrequested : .requested ∈ s.trace
    · exact .inl (hmem hrequested)
    · exact .inr fun call hm => hmem ((hdone call hm).resolve_left hrequested)

/-- The next step of `main`. -/
theorem mainStep (h : s.Ordered m) (hgating : s.Gating) (horder : .shutdownHandler ∈ settings.order)
    {result : Int} {error : ℕ} (hstep : s.mainStep m settings result error = some s') :
    s'.Ordered m := by
  have htold (subscriber : StartupSubscriber) :=
    h.notes hgating (s.visit_startup none (.shutdown 1) subscriber).notes
  cases hpc : s.pc with
  | signals =>
    simp only [Program.mainStep, hpc, Option.some.injEq] at hstep
    subst hstep
    have hready : LifeOrdered m .signals s.isShutdownRequested s.trace := hpc ▸ h
    split_ifs
    · refine ⟨h.flag, (by rintro ⟨⟩), fun hno => absurd rfl (hno 1), fun call ok hx => ?_,
        fun call hx => ?_, (by rintro _ _ ⟨⟩), (by rintro _ ⟨⟩), fun hx => absurd hx (hready.early rfl),
        h.fits⟩
      · rcases hready.made call ok hx with hlt | ⟨left, hleft⟩
        · exact absurd hlt (Nat.not_lt_zero _)
        · cases hleft
      · rcases hready.failed call hx with hrequested | ⟨left, hleft⟩
        · exact .inl hrequested
        · cases hleft
    · exact hready.ahead .signals (.startListener 0)
  | first pc =>
    have hready : LifeOrdered m (.first pc) s.isShutdownRequested s.trace := hpc ▸ h
    cases pc with
    | startListener i =>
      simp only [Program.mainStep, hpc] at hstep
      cases hi : s.listeners[i]? with
      | none =>
        simp only [hi, Option.some.injEq] at hstep
        subst hstep
        exact hready.ahead (.startListener i) .wait
      | some l =>
        simp only [hi, Option.some.injEq] at hstep
        subst hstep
        exact hready.ahead (.startListener i) (.startListener (i + 1))
    | wait =>
      simp only [Program.mainStep, hpc] at hstep
      split_ifs at hstep
      cases hstep
      exact hready.ahead .wait .guard
    | guard call =>
      simp only [Program.mainStep, hpc, Option.some.injEq] at hstep
      subst hstep
      exact h.guard horder hpc rfl
    | openNetNS =>
      simp only [Program.mainStep, hpc, Option.some.injEq] at hstep
      subst hstep
      split_ifs
      · refine hready.goto (fun _ => rfl) (by rintro _ ⟨⟩) (by rintro _ _ ⟨⟩) (Nat.zero_le _)
          (fun call _ hlt => absurd hlt (Nat.not_lt_zero _)) (fun call left heq => ?_) (by rintro _ ⟨⟩)
        cases heq
        exact .inr horder
      · refine hready.goto (fun _ => rfl) (by rintro _ ⟨⟩) (by rintro _ _ ⟨⟩) (Nat.zero_le _)
          (fun call _ hlt => absurd hlt (Nat.not_lt_zero _)) (by rintro _ _ ⟨⟩) fun call heq => ?_
        exact hready.entered call heq
    | recheck =>
      simp only [Program.mainStep, hpc, Option.some.injEq] at hstep
      subst hstep
      split_ifs with hrequested
      · exact hready.goto (fun _ => rfl) (by rintro _ ⟨⟩) (by rintro _ _ ⟨⟩) (Nat.zero_le _)
          (fun _ _ _ _ => h.flag.mp hrequested) (by rintro _ _ ⟨⟩) (by rintro _ ⟨⟩)
      · refine hready.goto (fun _ => rfl) (by rintro _ ⟨⟩) (by rintro _ _ ⟨⟩) (Nat.zero_le _)
          (fun call _ hlt => absurd hlt (Nat.not_lt_zero _)) (by rintro _ _ ⟨⟩) fun call heq => ?_
        exact hready.entered call heq
    | perform call =>
      simp only [Program.mainStep, hpc, Option.some.injEq] at hstep
      subst hstep
      exact h.performs horder hpc result
    | sending call left =>
      cases left with
      | nil =>
        simp only [Program.mainStep, hpc, Option.some.injEq] at hstep
        subst hstep
        exact h.told hpc
      | cons subscriber left =>
        simp only [Program.mainStep, hpc, Option.some.injEq] at hstep
        subst hstep
        exact h.tells hgating hpc
    | secondStage =>
      simp only [Program.mainStep, hpc] at hstep
      contradiction
  | dns =>
    have hready : LifeOrdered m .dns s.isShutdownRequested s.trace := hpc ▸ h
    simp only [Program.mainStep, hpc, Option.some.injEq] at hstep
    subst hstep
    split_ifs <;> exact hready.behind (fun _ => rfl) (by rintro _ ⟨⟩) rfl rfl
  | addServ =>
    have hready : LifeOrdered m .addServ s.isShutdownRequested s.trace := hpc ▸ h
    simp only [Program.mainStep, hpc, Option.some.injEq] at hstep
    subst hstep
    split_ifs <;> exact hready.behind (fun _ => rfl) (by rintro _ ⟨⟩) rfl rfl
  | addServFailed left =>
    have hready : LifeOrdered m (.addServFailed left) s.isShutdownRequested s.trace := hpc ▸ h
    cases left with
    | nil =>
      simp only [Program.mainStep, hpc, Option.some.injEq] at hstep
      subst hstep
      exact hready.behind (fun _ => rfl) (by rintro _ ⟨⟩) rfl rfl
    | cons subscriber left =>
      simp only [Program.mainStep, hpc, Option.some.injEq] at hstep
      subst hstep
      have hnoted := htold subscriber
      rw [hpc] at hnoted
      exact hnoted.behind (fun _ => rfl) (by rintro _ ⟨⟩) rfl rfl
  | search =>
    have hready : LifeOrdered m .search s.isShutdownRequested s.trace := hpc ▸ h
    simp only [Program.mainStep, hpc] at hstep
    split_ifs at hstep
    · cases hstep
      exact hready.behind (fun _ => rfl) (by rintro _ ⟨⟩) rfl rfl
    · cases hstep
      exact h.continues (by rw [hpc]; rfl) (by rw [hpc]; rfl) _
  | addSrch =>
    have hready : LifeOrdered m .addSrch s.isShutdownRequested s.trace := hpc ▸ h
    simp only [Program.mainStep, hpc] at hstep
    split_ifs at hstep
    · cases hstep
      exact hready.behind (fun _ => rfl) (by rintro _ ⟨⟩) rfl rfl
    · cases hstep
      exact h.continues (by rw [hpc]; rfl) (by rw [hpc]; rfl) _
  | addSrchFailed left =>
    cases left with
    | nil =>
      simp only [Program.mainStep, hpc, Option.some.injEq] at hstep
      subst hstep
      exact h.continues (by rw [hpc]; rfl) (by rw [hpc]; rfl) _
    | cons subscriber left =>
      simp only [Program.mainStep, hpc, Option.some.injEq] at hstep
      subst hstep
      have hnoted := htold subscriber
      rw [hpc] at hnoted
      exact hnoted.behind (fun _ => rfl) (by rintro _ ⟨⟩) rfl rfl
  | continuing left =>
    have hready : LifeOrdered m (.continuing left) s.isShutdownRequested s.trace := hpc ▸ h
    cases left with
    | nil =>
      simp only [Program.mainStep, hpc, Option.some.injEq] at hstep
      subst hstep
      exact hready.behind (by rintro ⟨⟩) (by rintro _ ⟨⟩) rfl rfl
    | cons subscriber left =>
      simp only [Program.mainStep, hpc, Option.some.injEq] at hstep
      subst hstep
      have hsame := visit_continue_notes s subscriber
      have hnext : LifeOrdered m (.continuing left) s.isShutdownRequested s.trace :=
        hready.behind (by rintro ⟨⟩) (by rintro _ ⟨⟩) rfl rfl
      rw [← hsame.1, ← hsame.2] at hnext
      exact hnext
  | startup component =>
    have hready : LifeOrdered m (.startup component) s.isShutdownRequested s.trace := hpc ▸ h
    simp only [Program.mainStep, hpc, Option.some.injEq] at hstep
    subst hstep
    cases component <;> exact hready.behind (by rintro ⟨⟩) (by rintro _ ⟨⟩) rfl rfl
  | sigtimedwait =>
    have hready : LifeOrdered m .sigtimedwait s.isShutdownRequested s.trace := hpc ▸ h
    simp only [Program.mainStep, hpc, Option.some.injEq] at hstep
    subst hstep
    have hwaited : LifeOrdered m .sigtimedwait s.isShutdownRequested (s.trace ++ [.waited]) :=
      hready.note (by rintro _ _ ⟨⟩) (by rintro ⟨⟩) (by simp) trivial
    split_ifs <;> exact hwaited.behind (by rintro ⟨⟩) (by rintro _ ⟨⟩) rfl rfl
  | check =>
    have hready : LifeOrdered m .check s.isShutdownRequested s.trace := hpc ▸ h
    simp only [Program.mainStep, hpc, Option.some.injEq] at hstep
    subst hstep
    split_ifs <;> exact hready.behind (by rintro ⟨⟩) (by rintro _ ⟨⟩) rfl rfl
  | requestListener i =>
    have hready : LifeOrdered m (.requestListener i) s.isShutdownRequested s.trace := hpc ▸ h
    simp only [Program.mainStep, hpc] at hstep
    cases hi : s.listeners[i]? with
    | none =>
      simp only [hi, Option.some.injEq] at hstep
      subst hstep
      exact hready.behind (by rintro ⟨⟩) (by rintro _ ⟨⟩) rfl rfl
    | some l =>
      simp only [hi, Option.some.injEq] at hstep
      subst hstep
      have htold : LifeOrdered m (.requestListener i) s.isShutdownRequested (s.trace ++ [.told i]) :=
        hready.note (by rintro _ _ ⟨⟩) (by rintro ⟨⟩) (by simp) trivial
      exact htold.behind (by rintro ⟨⟩) (by rintro _ ⟨⟩) rfl rfl
  | requestComponent component =>
    have hready : LifeOrdered m (.requestComponent component) s.isShutdownRequested s.trace := hpc ▸ h
    simp only [Program.mainStep, hpc, Option.some.injEq] at hstep
    subst hstep
    cases component <;> exact hready.behind (by rintro ⟨⟩) (by rintro _ ⟨⟩) rfl rfl
  | joinListener i =>
    have hready : LifeOrdered m (.joinListener i) s.isShutdownRequested s.trace := hpc ▸ h
    simp only [Program.mainStep, hpc] at hstep
    cases hi : s.listeners[i]? with
    | none =>
      simp only [hi, Option.some.injEq] at hstep
      subst hstep
      exact hready.behind (by rintro ⟨⟩) (by rintro _ ⟨⟩) rfl rfl
    | some l =>
      simp only [hi] at hstep
      split_ifs at hstep
      cases hstep
      exact hready.behind (by rintro ⟨⟩) (by rintro _ ⟨⟩) rfl rfl
  | joinComponent component =>
    have hready : LifeOrdered m (.joinComponent component) s.isShutdownRequested s.trace := hpc ▸ h
    simp only [Program.mainStep, hpc] at hstep
    split_ifs at hstep
    cases hstep
    cases component <;> exact hready.behind (by rintro ⟨⟩) (by rintro _ ⟨⟩) rfl rfl
  | returned code =>
    simp only [Program.mainStep, hpc] at hstep
    contradiction

/-- One step. -/
theorem step (h : s.Ordered m) (hgating : s.Gating) (horder : .shutdownHandler ∈ settings.order)
    {a : ProgramAction} (hstep : s.step m settings a = some s') : s'.Ordered m := by
  by_cases ha : ∃ result error, a = .main result error
  · obtain ⟨result, error, rfl⟩ := ha
    exact h.mainStep hgating horder hstep
  · obtain ⟨hsame, hnotes⟩ := outside hgating (fun result error heq => ha ⟨result, error, heq⟩) hstep
    rw [Ordered, hsame]
    exact h.notes hgating hnotes

/-- Nothing has happened at the start. -/
theorem initial (m : MainState) : (Program.initial m).Ordered m where
  flag := by simp [Program.initial, isShutdownRequested]
  early _ := List.not_mem_nil
  done _ call hlt := absurd hlt (Nat.not_lt_zero _)
  made call ok hx := absurd hx List.not_mem_nil
  failed call hx := absurd hx List.not_mem_nil
  sending call left hno := nomatch hno
  entered call hno := nomatch hno
  settled hx := absurd hx List.not_mem_nil
  fits past e later heq := by simp [Program.initial] at heq

end Ordered

variable {m : MainState} {settings : ListenerSettings} {s : Program}

/-- Whatever the system calls return, in every run the calls that change what the process may do come
in their order, each at most once, each only if all earlier ones that are configured have succeeded,
and all of them before the startup goes on. Behind that, a client is accepted, and at that time all
of them have succeeded or a shutdown has been requested. -/
theorem life_ordered (horder : .shutdownHandler ∈ settings.order) {actions : List ProgramAction}
    (hrun : runActions (Program.step m settings) (initial m) actions = some s) :
    ∀ past e later, s.trace = past ++ e :: later → LifeFits m past e := by
  have hstep : ∀ (u : Program) (a : ProgramAction) (u' : Program), (u.Gating ∧ u.Ordered m) →
      u.step m settings a = some u' → u'.Gating ∧ u'.Ordered m :=
    fun u a u' h hstep => ⟨h.1.step hstep, h.2.step h.1 horder hstep⟩
  have hinitial : (initial m).Gating ∧ (initial m).Ordered m := ⟨Gating.initial m, Ordered.initial m⟩
  exact (runActions_invariant hstep hinitial hrun).2.fits

/-- After the startup, the listener accepts a client. -/
def servesClient : List ProgramAction :=
  startsUp ++ [.listener 0 0 0, .listener 0 0 0, .listener 0 1 0, .listener 0 5 0]

/-- The directory is changed, the startup goes on, and then the client is accepted. -/
theorem life_ordered_servesClient :
    ∃ s, runActions (step StartupGate.directoryMain directorySettings)
        (initial StartupGate.directoryMain) servesClient = some s ∧
      s.trace = [.ready 0, .performed .chdir true, .continued, .accepted 0 5] ∧
      ∀ past e later, s.trace = past ++ e :: later → LifeFits StartupGate.directoryMain past e := by
  have hsome : (runActions (step StartupGate.directoryMain directorySettings)
    (initial StartupGate.directoryMain) servesClient).isSome = true := rfl
  have hrun := (Option.some_get hsome).symm
  exact ⟨_, hrun, rfl, life_ordered (by decide) hrun⟩

end Program

end TinySox
