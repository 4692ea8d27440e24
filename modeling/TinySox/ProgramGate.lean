import TinySox.Common.Simulation
import TinySox.ProgramLife
import TinySox.StartupGateRuns

/-!
# The whole program passes the startup gate

Until `main` has left the first stage of the startup, the program does what the startup gate does: a
listener that opens its socket in several calls is one that is set up in one step, and no listener
goes on behind the spin. So every run of the program has a run of the gate beside it, with the same
calls that change what the process may do.
-/

namespace TinySox

open TinySox.Common

/-- Where the first stage goes on to, no other thread is there yet. -/
@[simp] theorem LifePc.isSecond_ofStartup (pc : StartupPc) : (LifePc.ofStartup pc).isSecond = false := by
  cases pc <;> rfl

/-- Where the gate sees a listener. -/
def ServerListenerPc.atGate : ServerListenerPc → StartupListener
  | .unborn => .unborn
  | .socket | .setsockopt _ _ | .bind _ | .listen _ => .setup
  | .sending _ (.startup message) left => .sending message left
  | .sending _ _ _ | .waiting _ | .loop _ | .poll _ | .accept _ | .create _ _ | .close _ => .waiting
  | .returned => .failed

/-- What the gate records of an event. -/
def LifeEvent.atGate : LifeEvent → Option StartupEvent
  | .ready i => some (.ready i)
  | .failed i => some (.failed i)
  | .performed call ok => some (.performed call ok)
  | .requested | .continued | .waited | .told _ | .accepted _ _ => none

/-- The calls that were made, and whether they succeeded. -/
def performedCalls (trace : List StartupEvent) : List (PrivilegedCall × Bool) :=
  trace.filterMap fun
    | .performed call ok => some (call, ok)
    | _ => none

/-- Where the gate sees `main` in the first stage, and right before it. -/
def LifePc.atGate : LifePc → Option StartupPc
  | .signals => some (.startListener 0)
  | .first pc => some pc
  | _ => none

namespace Program

/-- What the gate knows of the program, with `main` at this place. -/
def gate (s : Program) (pc : StartupPc) : StartupGate where
  startupHandler := s.startupHandler
  shutdownHandler := s.shutdownHandler
  pc := pc
  listeners := s.listeners.map fun l => l.pc.atGate
  trace := s.trace.filterMap LifeEvent.atGate

/-- No listener is let out of the spin before `StartupContinueMessage` is sent, and no other thread
is there. -/
structure Gating (s : Program) : Prop where
  honest : ∀ l ∈ s.listeners, ∀ fd left, l.pc ≠ .sending fd .startupContinue left
  released : ∀ l ∈ s.listeners, l.pc.isReleased = true → l.startupAllowed = true
  allowed : ∀ l ∈ s.listeners, l.startupAllowed = true → .continued ∈ s.trace
  others : .continued ∉ s.trace → s.others = []
  unborn : .continued ∉ s.trace → ∀ component, (s.components component).pc = .unborn
  early : s.pc.isEarly = true → .continued ∉ s.trace
  second : s.pc.isSecond = true → .continued ∈ s.trace

variable {m : MainState} {settings : ListenerSettings} {s s' : Program} {g : StartupGate}

/-- What a subscriber does with a report or with the request of a shutdown: the handlers change, and
the first request is noted. -/
inductive Hears (s : Program) (source : Option ℕ) : Program → Prop
  | quiet (startupHandler : StartupHandler) (shutdownHandler : ShutdownHandler)
    (hflag : shutdownHandler.shutdownRequested = s.isShutdownRequested) :
    Hears s source { s with startupHandler, shutdownHandler }
  | requested (shutdownHandler : ShutdownHandler) (hbefore : s.isShutdownRequested = false)
    (hflag : shutdownHandler.shutdownRequested = true) :
    Hears s source { s with shutdownHandler, trace := s.trace ++ [.requested] }
  | ready (startupHandler : StartupHandler) (i : ℕ) (hsource : source = some i) :
    Hears s source { s with startupHandler, trace := s.trace ++ [.ready i] }

/-- Each subscriber does that. -/
theorem visit_startup (s : Program) (source : Option ℕ) (message : StartupMessage)
    (subscriber : StartupSubscriber) :
    s.Hears source (s.visit source (.startup message) subscriber) := by
  have hnothing : s.Hears source s := .quiet s.startupHandler s.shutdownHandler rfl
  unfold visit
  split
  · cases subscriber with
    | shutdownHandler =>
      cases message with
      | startupReady => contradiction
      | shutdown ec =>
        cases hrequested : s.isShutdownRequested with
        | true =>
          have hsame : s.shutdownHandler.onMessage (.shutdown ec) = s.shutdownHandler := if_pos hrequested
          have hquiet : s.Hears source _ := .quiet s.startupHandler
            (s.shutdownHandler.onMessage (.shutdown ec)) (by rw [hsame]; rfl)
          simpa [emit] using hquiet
        | false =>
          exact .requested _ hrequested (by simp [ShutdownHandler.onMessage, apply_ite])
    | startupHandler =>
      have hquiet : s.Hears source _ :=
        .quiet (s.startupHandler.onMessage source message) s.shutdownHandler rfl
      cases source with
      | none => simpa [emit] using hquiet
      | some i =>
        cases message with
        | startupReady => exact .ready _ i rfl
        | shutdown ec => simpa [emit] using hquiet
    | jobDispatcher | listener i => exact hnothing
  · exact hnothing

/-- And the gate sees the same. -/
theorem gate_visit (s : Program) (pc : StartupPc) (source : Option ℕ) (message : StartupMessage)
    (subscriber : StartupSubscriber) :
    (s.visit source (.startup message) subscriber).gate pc =
      (s.gate pc).visit source message subscriber := by
  unfold visit StartupGate.visit
  cases subscriber with
  | shutdownHandler =>
    cases message with
    | startupReady => rfl
    | shutdown ec =>
      cases hrequested : s.isShutdownRequested <;>
        simp [ProgramMessage.msgType, StartupMessage.msgType, StartupSubscriber.readyForMessage, gate,
          emit, LifeEvent.atGate]
  | startupHandler =>
    cases source <;> cases message <;>
      simp [ProgramMessage.msgType, StartupMessage.msgType, StartupSubscriber.readyForMessage, gate,
        emit, LifeEvent.atGate]
  | jobDispatcher | listener i => cases message <;> rfl

/-- The message of a new client changes neither the handlers nor the listeners. -/
theorem visit_newClient (s : Program) (source : Option ℕ) (id : ℕ) (subscriber : StartupSubscriber) :
    s.visit source (.newClient id) subscriber = s := by
  unfold visit
  cases subscriber <;> simp [ProgramMessage.msgType, StartupSubscriber.readyForMessage]

/-- What a step of a listener can do. -/
inductive ListenerMoves (settings : ListenerSettings) (s : Program) (i : ℕ) : Program → Prop
  | tells (l : ServerListener) (fd : Int) (message : StartupMessage) (subscriber : StartupSubscriber)
    (left : List StartupSubscriber) (hi : s.listeners[i]? = some l)
    (hpc : l.pc = .sending fd (.startup message) (subscriber :: left)) :
    ListenerMoves settings s i { s.visit (some i) (.startup message) subscriber with
      listeners := s.listeners.set i { l with pc := .sending fd (.startup message) left } }
  | announces (l : ServerListener) (fd : Int) (id : ℕ) (left : List StartupSubscriber)
    (subscriber : StartupSubscriber) (hi : s.listeners[i]? = some l)
    (hpc : l.pc = .sending fd (.newClient id) (subscriber :: left)) :
    ListenerMoves settings s i
      { s with listeners := s.listeners.set i { l with pc := .sending fd (.newClient id) left } }
  | moves (l l' : ServerListener) (hi : s.listeners[i]? = some l) (hmoves : l.Moves settings l')
    (hpc : ∀ fd message subscriber left, l.pc ≠ .sending fd message (subscriber :: left)) :
    ListenerMoves settings s i { s with
      listeners := s.listeners.set i l'
      trace := s.trace ++ listenerEvents i l.pc l'.pc }

/-- `main` stays where it is when the handlers hear something. -/
theorem Hears.pc_eq {source : Option ℕ} (h : s.Hears source s') : s'.pc = s.pc := by
  cases h <;> rfl

/-- So do the components. -/
theorem Hears.components_eq {source : Option ℕ} (h : s.Hears source s') :
    s'.components = s.components := by
  cases h <;> rfl

/-- What has happened stays so. -/
theorem Hears.subset {source : Option ℕ} (h : s.Hears source s') : s.trace ⊆ s'.trace := by
  cases h with
  | quiet => exact List.Subset.refl _
  | requested | ready => exact List.subset_append_left _ _

/-- Who is told to continue does not move `main`. -/
theorem visit_continue_pc (s : Program) (subscriber : StartupSubscriber) :
    (s.visit none .startupContinue subscriber).pc = s.pc := by
  unfold visit
  split
  · cases subscriber <;> rfl
  · rfl

/-- The listeners stay as they are when the handlers hear something. -/
theorem Hears.listeners_eq {source : Option ℕ} (h : s.Hears source s') :
    s'.listeners = s.listeners := by
  cases h <;> rfl

/-- Every step of a listener does one of these things. -/
theorem listenerStep_moves (h : s.Gating) {i : ℕ} {result : Int} {error : ℕ}
    (hstep : s.listenerStep settings i result error = some s') : s.ListenerMoves settings i s' := by
  simp only [listenerStep, Option.bind_eq_some_iff, Option.map_eq_some_iff] at hstep
  obtain ⟨l, hi, l', hl', rfl⟩ := hstep
  by_cases hsending : ∃ fd message subscriber left, l.pc = .sending fd message (subscriber :: left)
  · obtain ⟨fd, message, subscriber, left, hpc⟩ := hsending
    simp only [ServerListener.workerStep, hpc, Option.some.injEq] at hl'
    subst hl'
    simp only [hpc, emit, listenerEvents, List.append_nil]
    cases message with
    | startup message =>
      rw [(s.visit_startup (some i) message subscriber).listeners_eq]
      exact .tells l fd message subscriber left hi hpc
    | startupContinue => exact absurd hpc (h.honest l (List.mem_of_getElem? hi) fd _)
    | newClient id =>
      rw [visit_newClient]
      exact .announces l fd id left subscriber hi hpc
  · have hnot : ∀ fd message subscriber left, l.pc ≠ .sending fd message (subscriber :: left) :=
      fun fd message subscriber left hpc => hsending ⟨fd, message, subscriber, left, hpc⟩
    have hmoves := ListenerMoves.moves l l' hi (ServerListener.workerStep_moves hl') hnot
    cases hpc : l.pc with
    | sending fd message left =>
      cases left with
      | nil => simpa [hpc, emit] using hmoves
      | cons subscriber left => exact absurd hpc (hnot fd message subscriber left)
    | _ => simpa [hpc, emit] using hmoves

namespace Gating

/-- The listeners and the other threads stay as they are. -/
theorem keep (h : s.Gating) (hlisteners : s'.listeners = s.listeners) (hothers : s'.others = s.others)
    (hcomponents : s'.components = s.components) (htrace : s.trace ⊆ s'.trace)
    (hearly : s'.pc.isEarly = true → .continued ∉ s'.trace)
    (hsecond : s'.pc.isSecond = true → .continued ∈ s'.trace) : s'.Gating := by
  constructor
  · rw [hlisteners]
    exact h.honest
  · rw [hlisteners]
    exact h.released
  · rw [hlisteners]
    exact fun l hl hallowed => htrace (h.allowed l hl hallowed)
  · rw [hothers]
    exact fun hnot => h.others fun hmem => hnot (htrace hmem)
  · rw [hcomponents]
    exact fun hnot => h.unborn fun hmem => hnot (htrace hmem)
  · exact hearly
  · exact hsecond

/-- `main` goes on. -/
theorem goto (h : s.Gating) {pc : LifePc} {events : List LifeEvent}
    (hearly : pc.isEarly = true → s.pc.isEarly = true ∧ .continued ∉ events)
    (hsecond : pc.isSecond = true → s.pc.isSecond = true ∨ .continued ∈ events) :
    ({ s with pc, trace := s.trace ++ events } : Program).Gating := by
  refine h.keep rfl rfl rfl (List.subset_append_left _ _) (fun hpc => ?_) fun hpc => ?_
  · rw [List.mem_append, not_or]
    exact ⟨h.early (hearly hpc).1, (hearly hpc).2⟩
  · exact List.mem_append.mpr ((hsecond hpc).imp_left h.second)

/-- The handlers hear something. -/
theorem hears {source : Option ℕ} (h : s.Gating) (hhears : s.Hears source s') : s'.Gating := by
  have hemit {e : LifeEvent} (he : e ≠ .continued) :
      ({ s with trace := s.trace ++ [e] } : Program).Gating :=
    h.goto (fun hpc => ⟨hpc, by simpa using he.symm⟩) .inl
  cases hhears with
  | quiet => exact h.keep rfl rfl rfl (List.Subset.refl _) h.early h.second
  | requested => exact { hemit (e := .requested) nofun with }
  | ready startupHandler i => exact { hemit (e := .ready i) nofun with }

/-- A listener goes on. -/
theorem replace (h : s.Gating) {i : ℕ} {l l' : ServerListener} (hi : s.listeners[i]? = some l)
    (hhonest : ∀ fd left, l'.pc ≠ .sending fd .startupContinue left)
    (hreleased : l'.pc.isReleased = true → l'.startupAllowed = true)
    (hallowed : l'.startupAllowed = l.startupAllowed) :
    ({ s with listeners := s.listeners.set i l' } : Program).Gating := by
  have hold := List.mem_of_getElem? hi
  have hcases {P : ServerListener → Prop} (hP : ∀ k ∈ s.listeners, P k) (hl' : P l') :
      ∀ k ∈ s.listeners.set i l', P k := by
    intro k hk
    rcases List.mem_or_eq_of_mem_set hk with hk | rfl
    · exact hP k hk
    · exact hl'
  refine { h with honest := hcases h.honest hhonest, released := hcases h.released hreleased, allowed := ?_ }
  exact hcases h.allowed fun hl' => h.allowed l hold (hallowed ▸ hl')

/-- A listener is let out of the spin only if it is allowed to. -/
theorem moves (h : s.Gating) {l l' : ServerListener} (hl : l ∈ s.listeners)
    (hmoves : l.Moves settings l') :
    (∀ fd left, l'.pc ≠ .sending fd .startupContinue left) ∧
      (l'.pc.isReleased = true → l'.startupAllowed = true) ∧ l'.startupAllowed = l.startupAllowed := by
  have hreleased := h.released l hl
  have hhonest := h.honest l hl
  cases hmoves with
  | option fd option trace hpc =>
    refine ⟨?_, ?_, rfl⟩ <;> cases option <;> simp [ListenOption.next, ServerListenerPc.isReleased]
  | sent fd message hpc =>
    rw [hpc] at hreleased hhonest
    refine ⟨?_, ?_, rfl⟩
    · cases message with
      | startup message => cases message <;> simp [ProgramMessage.next]
      | _ => simp [ProgramMessage.next]
    · cases message with
      | startup message => cases message <;> simp [ProgramMessage.next, ServerListenerPc.isReleased]
      | startupContinue => exact absurd rfl (hhonest fd [])
      | newClient id => exact fun _ => hreleased rfl
  | told fd message subscriber left hpc =>
    rw [hpc] at hreleased hhonest
    refine ⟨?_, ?_, rfl⟩
    · rintro fd' left' heq
      cases heq
      exact hhonest fd _ rfl
    · cases message with
      | startup message => simp [ServerListenerPc.isReleased]
      | startupContinue => exact absurd rfl (hhonest fd _)
      | newClient id => exact fun _ => hreleased rfl
  | allowed fd hpc hallowed => exact ⟨by simp, fun _ => hallowed, rfl⟩
  | idle fd trace hpc =>
    refine ⟨by simp, fun _ => hreleased ?_, rfl⟩
    rcases hpc with hpc | hpc <;> rw [hpc] <;> rfl
  | polls _ hpc | leaves _ hpc | interrupted _ _ hpc | arrived _ _ hpc | accepted _ _ _ hpc
  | created _ _ _ _ hpc =>
    rw [hpc] at hreleased
    exact ⟨by simp, fun _ => hreleased rfl, rfl⟩
  | socket | bound | ready | givesUp | closed => exact ⟨by simp, by simp [ServerListenerPc.isReleased], rfl⟩

/-- A listener is allowed to go on once `StartupContinueMessage` is sent. -/
theorem visit_continue (h : s.Gating) (hsecond : s.pc.isSecond = true)
    (subscriber : StartupSubscriber) : (s.visit none .startupContinue subscriber).Gating := by
  unfold visit
  split
  · cases subscriber with
    | listener i =>
      have hmodified {P : ServerListener → Prop} (hP : ∀ l ∈ s.listeners, P l)
          (hallow : ∀ l, P l → P l.onMessage) :
          ∀ l ∈ s.listeners.modify i ServerListener.onMessage, P l := by
        intro l hl
        obtain ⟨j, hj⟩ := List.mem_iff_getElem?.mp hl
        rw [List.getElem?_modify] at hj
        obtain ⟨k, hk, rfl⟩ := Option.map_eq_some_iff.mp hj
        split
        · exact hallow k (hP k (List.mem_of_getElem? hk))
        · exact hP k (List.mem_of_getElem? hk)
      exact { h with
        honest := hmodified h.honest fun _ hl => hl
        released := hmodified h.released fun _ _ _ => rfl
        allowed := hmodified h.allowed fun _ _ _ => h.second hsecond }
    | shutdownHandler | startupHandler | jobDispatcher => exact h
  · exact h

/-- The next step of `main`. -/
theorem mainStep (h : s.Gating) {result : Int} {error : ℕ}
    (hstep : s.mainStep m settings result error = some s') : s'.Gating := by
  have hstay {pc : LifePc} (hearly : pc.isEarly = true → s.pc.isEarly = true)
      (hsecond : pc.isSecond = true → s.pc.isSecond = true) : ({ s with pc } : Program).Gating :=
    h.keep rfl rfl rfl (List.Subset.refl _) (fun hpc => h.early (hearly hpc))
      fun hpc => h.second (hsecond hpc)
  have htold (subscriber : StartupSubscriber) {pc : LifePc} (hearly : s.pc.isEarly = true)
      (hsecond : pc.isSecond = false) :
      ({ s.visit none (.startup (.shutdown 1)) subscriber with pc } : Program).Gating := by
    have hhears := s.visit_startup none (.shutdown 1) subscriber
    have hgating := h.hears hhears
    refine hgating.keep rfl rfl rfl (List.Subset.refl _) (fun _ => hgating.early ?_) fun hno => ?_
    · rw [hhears.pc_eq]
      exact hearly
    · exact absurd hno (by rw [hsecond]; exact Bool.false_ne_true)
  have hcontinue : (s.continueStartup settings).Gating :=
    h.goto (fun hno => absurd hno Bool.false_ne_true) fun _ => .inr (List.mem_singleton_self _)
  have hreplace (i : ℕ) (l l' : ServerListener) (hi : s.listeners[i]? = some l)
      (hpc : l'.pc = l.pc ∨ l'.pc = .socket) (hallowed : l'.startupAllowed = l.startupAllowed) :
      ({ s with listeners := s.listeners.set i l' } : Program).Gating := by
    have hl := List.mem_of_getElem? hi
    refine h.replace hi (fun fd left => ?_) (fun hreleased => ?_) hallowed
    · rcases hpc with hpc | hpc
      · rw [hpc]
        exact h.honest l hl fd left
      · rw [hpc]
        exact nofun
    · rcases hpc with hpc | hpc
      · rw [hpc] at hreleased
        rw [hallowed]
        exact h.released l hl hreleased
      · rw [hpc] at hreleased
        contradiction
  have hcomponent (component : Component) (thread : ComponentThread) (hsecond : s.pc.isSecond = true)
      {pc : LifePc} (hafter : pc.isEarly = false) :
      ({ s.setComponent component thread with pc } : Program).Gating :=
    { h with
      others := fun hnot => absurd (h.second hsecond) hnot
      unborn := fun hnot => absurd (h.second hsecond) hnot
      early := fun hno => absurd hno (by rw [hafter]; exact Bool.false_ne_true)
      second := fun _ => h.second hsecond }
  cases hpc : s.pc with
  | signals =>
    simp only [Program.mainStep, hpc, Option.some.injEq] at hstep
    subst hstep
    split_ifs <;> exact hstay (fun _ => by rw [hpc]; rfl) nofun
  | first pc =>
    have hfirst {pc' : LifePc} (hsecond : pc'.isSecond = false) : ({ s with pc := pc' } : Program).Gating :=
      hstay (fun _ => by rw [hpc]; rfl) fun hno => absurd hno (by rw [hsecond]; exact Bool.false_ne_true)
    cases pc with
    | startListener i =>
      simp only [Program.mainStep, hpc] at hstep
      cases hi : s.listeners[i]? with
      | none =>
        simp only [hi, Option.some.injEq] at hstep
        subst hstep
        exact hfirst rfl
      | some l =>
        simp only [hi, Option.some.injEq] at hstep
        subst hstep
        have hstarted := hreplace i l { l with pc := .socket } hi (.inr rfl) rfl
        exact hstarted.keep rfl rfl rfl (List.Subset.refl _)
          (fun _ => h.early (by rw [hpc]; rfl)) nofun
    | wait =>
      simp only [Program.mainStep, hpc] at hstep
      split_ifs at hstep
      cases hstep
      exact hfirst rfl
    | guard call =>
      simp only [Program.mainStep, hpc, Option.some.injEq] at hstep
      subst hstep
      exact hfirst (LifePc.isSecond_ofStartup _)
    | openNetNS =>
      simp only [Program.mainStep, hpc, Option.some.injEq] at hstep
      subst hstep
      exact hfirst rfl
    | recheck =>
      simp only [Program.mainStep, hpc, Option.some.injEq] at hstep
      subst hstep
      exact hfirst (LifePc.isSecond_ofStartup _)
    | perform call =>
      simp only [Program.mainStep, hpc, Option.some.injEq] at hstep
      subst hstep
      refine h.goto (fun _ => ⟨by rw [hpc]; rfl, by simp⟩) fun hno => ?_
      rw [LifePc.isSecond_ofStartup] at hno
      contradiction
    | sending call left =>
      cases left with
      | nil =>
        simp only [Program.mainStep, hpc, Option.some.injEq] at hstep
        subst hstep
        exact hfirst (LifePc.isSecond_ofStartup _)
      | cons subscriber left =>
        simp only [Program.mainStep, hpc, Option.some.injEq] at hstep
        subst hstep
        exact htold subscriber (by rw [hpc]; rfl) rfl
    | secondStage =>
      simp only [Program.mainStep, hpc] at hstep
      contradiction
  | dns | addServ =>
    simp only [Program.mainStep, hpc, Option.some.injEq] at hstep
    subst hstep
    split_ifs <;> exact hstay (fun _ => by rw [hpc]; rfl) nofun
  | addServFailed left =>
    cases left with
    | nil =>
      simp only [Program.mainStep, hpc, Option.some.injEq] at hstep
      subst hstep
      exact hstay (fun _ => by rw [hpc]; rfl) nofun
    | cons subscriber left =>
      simp only [Program.mainStep, hpc, Option.some.injEq] at hstep
      subst hstep
      exact htold subscriber (by rw [hpc]; rfl) rfl
  | search | addSrch =>
    simp only [Program.mainStep, hpc] at hstep
    split_ifs at hstep
    · cases hstep
      exact hstay (fun _ => by rw [hpc]; rfl) nofun
    · cases hstep
      exact hcontinue
  | addSrchFailed left =>
    cases left with
    | nil =>
      simp only [Program.mainStep, hpc, Option.some.injEq] at hstep
      subst hstep
      exact hcontinue
    | cons subscriber left =>
      simp only [Program.mainStep, hpc, Option.some.injEq] at hstep
      subst hstep
      exact htold subscriber (by rw [hpc]; rfl) rfl
  | continuing left =>
    cases left with
    | nil =>
      simp only [Program.mainStep, hpc, Option.some.injEq] at hstep
      subst hstep
      exact hstay nofun fun _ => by rw [hpc]; rfl
    | cons subscriber left =>
      simp only [Program.mainStep, hpc, Option.some.injEq] at hstep
      subst hstep
      have hvisit := h.visit_continue (by rw [hpc]; rfl) subscriber
      refine hvisit.keep rfl rfl rfl (List.Subset.refl _) nofun fun _ => hvisit.second ?_
      rw [visit_continue_pc, hpc]
      rfl
  | startup component =>
    simp only [Program.mainStep, hpc, Option.some.injEq] at hstep
    subst hstep
    exact hcomponent component _ (by rw [hpc]; rfl) (by cases component <;> rfl)
  | sigtimedwait =>
    simp only [Program.mainStep, hpc, Option.some.injEq] at hstep
    subst hstep
    refine h.goto (fun hno => ?_) fun _ => .inl (by rw [hpc]; rfl)
    split_ifs at hno <;> contradiction
  | check =>
    simp only [Program.mainStep, hpc, Option.some.injEq] at hstep
    subst hstep
    split_ifs <;> exact hstay nofun fun _ => by rw [hpc]; rfl
  | requestListener i =>
    simp only [Program.mainStep, hpc] at hstep
    cases hi : s.listeners[i]? with
    | none =>
      simp only [hi, Option.some.injEq] at hstep
      subst hstep
      exact hstay nofun fun _ => by rw [hpc]; rfl
    | some l =>
      simp only [hi, Option.some.injEq] at hstep
      subst hstep
      have htold := hreplace i l { l with shutdownPending := true } hi (.inl rfl) rfl
      exact htold.goto nofun fun _ => .inl (by rw [hpc]; rfl)
  | requestComponent component =>
    simp only [Program.mainStep, hpc, Option.some.injEq] at hstep
    subst hstep
    exact hcomponent component _ (by rw [hpc]; rfl) (by cases component <;> rfl)
  | joinListener i =>
    simp only [Program.mainStep, hpc] at hstep
    cases hi : s.listeners[i]? with
    | none =>
      simp only [hi, Option.some.injEq] at hstep
      subst hstep
      exact hstay nofun fun _ => by rw [hpc]; rfl
    | some l =>
      simp only [hi] at hstep
      split_ifs at hstep
      cases hstep
      exact hstay nofun fun _ => by rw [hpc]; rfl
  | joinComponent component =>
    simp only [Program.mainStep, hpc] at hstep
    split_ifs at hstep
    cases hstep
    refine hstay (fun hno => ?_) fun _ => by rw [hpc]; rfl
    cases component <;> contradiction
  | returned code =>
    simp only [Program.mainStep, hpc] at hstep
    contradiction

/-- The next step of a listener. -/
theorem listenerMoves (h : s.Gating) {i : ℕ} (hmoves : s.ListenerMoves settings i s') : s'.Gating := by
  cases hmoves with
  | tells l fd message subscriber left hi hpc =>
    have hhears := s.visit_startup (some i) message subscriber
    have htold : l.Moves settings { l with pc := .sending fd (.startup message) left } :=
      .told fd (.startup message) subscriber left hpc
    have hmoved := h.moves (List.mem_of_getElem? hi) htold
    have hgating := h.hears hhears
    rw [← hhears.listeners_eq] at hi ⊢
    exact hgating.replace hi hmoved.1 hmoved.2.1 hmoved.2.2
  | announces l fd id left subscriber hi hpc =>
    have htold : l.Moves settings { l with pc := .sending fd (.newClient id) left } :=
      .told fd (.newClient id) subscriber left hpc
    have hmoved := h.moves (List.mem_of_getElem? hi) htold
    exact h.replace hi hmoved.1 hmoved.2.1 hmoved.2.2
  | moves l l' hi hmoves hpc =>
    have hmoved := h.moves (List.mem_of_getElem? hi) hmoves
    have hreplaced := h.replace hi hmoved.1 hmoved.2.1 hmoved.2.2
    have hevents : .continued ∉ listenerEvents i l.pc l'.pc := by
      unfold listenerEvents
      split <;> simp
    exact hreplaced.goto (fun hpc => ⟨hpc, hevents⟩) .inl

/-- A component goes on. -/
theorem setComponent (h : s.Gating) {component : Component} {thread : ComponentThread}
    (hborn : (s.components component).pc ≠ .unborn) : (s.setComponent component thread).Gating :=
  { h with
    others := h.others
    unborn := fun hnot => absurd (h.unborn hnot component) hborn }

/-- One step. -/
theorem step (h : s.Gating) {a : ProgramAction} (hstep : s.step m settings a = some s') : s'.Gating := by
  cases a with
  | main result error => exact h.mainStep hstep
  | listener i result error => exact h.listenerMoves (listenerStep_moves h hstep)
  | component component error =>
    simp only [Program.step, componentStep] at hstep
    cases hpc : (s.components component).pc with
    | unborn | ended =>
      simp only [hpc] at hstep
      contradiction
    | running =>
      have hborn : (s.components component).pc ≠ .unborn := by rw [hpc]; exact nofun
      simp only [hpc] at hstep
      cases error with
      | some ec =>
        cases hstep
        exact h.setComponent hborn
      | none =>
        simp only at hstep
        split_ifs at hstep
        cases hstep
        exact h.setComponent hborn
    | sending ec left =>
      have hborn : (s.components component).pc ≠ .unborn := by rw [hpc]; exact nofun
      cases left with
      | nil =>
        simp only [hpc, Option.some.injEq] at hstep
        subst hstep
        exact h.setComponent hborn
      | cons subscriber left =>
        simp only [hpc, Option.some.injEq] at hstep
        subst hstep
        have hhears := s.visit_startup none (.shutdown ec) subscriber
        refine (h.hears hhears).setComponent ?_
        rwa [hhears.components_eq]
  | other ec =>
    simp only [Program.step] at hstep
    split_ifs at hstep with hsecond
    cases hstep
    exact { h with others := fun hnot => absurd (h.second hsecond) hnot }
  | deliver k =>
    simp only [Program.step, deliverStep, Option.map_eq_some_iff] at hstep
    obtain ⟨other, hk, rfl⟩ := hstep
    have hsent : .continued ∈ s.trace := by
      by_contra hnot
      rw [h.others hnot] at hk
      contradiction
    cases hleft : other.left with
    | nil => exact { h with others := fun hnot => absurd hsent hnot }
    | cons subscriber left =>
      have hhears := s.visit_startup none (.shutdown other.ec) subscriber
      exact { h.hears hhears with others := fun hnot => absurd (hhears.subset hsent) hnot }

/-- No thread is there at the start. -/
theorem initial (m : MainState) : (Program.initial m).Gating where
  honest l hl := by
    obtain ⟨endpoint, -, rfl⟩ := List.mem_map.mp hl
    exact nofun
  released l hl := by
    obtain ⟨endpoint, -, rfl⟩ := List.mem_map.mp hl
    exact nofun
  allowed l hl := by
    obtain ⟨endpoint, -, rfl⟩ := List.mem_map.mp hl
    exact nofun
  others _ := rfl
  unborn _ _ := rfl
  early _ := List.not_mem_nil
  second hno := nomatch hno

end Gating

/-- What is noted of a step that `main` does not make. -/
inductive Notes (s : Program) : Bool → List LifeEvent → Prop
  | nothing : Notes s s.isShutdownRequested s.trace
  | requested (hbefore : s.isShutdownRequested = false) : Notes s true (s.trace ++ [.requested])
  | ready (i : ℕ) : Notes s s.isShutdownRequested (s.trace ++ [.ready i])
  | failed (i : ℕ) : Notes s s.isShutdownRequested (s.trace ++ [.failed i])
  | accepted (i : ℕ) (client fd : Int) (l : ServerListener) (hi : s.listeners[i]? = some l)
    (hpc : l.pc = .accept fd) : Notes s s.isShutdownRequested (s.trace ++ [.accepted i client])

/-- Who hears something notes at most the first request, or a report. -/
theorem Hears.notes {source : Option ℕ} (h : s.Hears source s') :
    s.Notes s'.isShutdownRequested s'.trace := by
  cases h with
  | quiet startupHandler shutdownHandler hflag =>
    rw [isShutdownRequested, hflag]
    exact .nothing
  | requested shutdownHandler hbefore hflag =>
    rw [isShutdownRequested, hflag]
    exact .requested hbefore
  | ready startupHandler i => exact .ready i

/-- So does a listener, and it notes a failure or a client. -/
theorem ListenerMoves.notes {i : ℕ} (h : s.ListenerMoves settings i s') :
    s.Notes s'.isShutdownRequested s'.trace := by
  cases h with
  | tells l fd message subscriber left => exact (s.visit_startup (some i) message subscriber).notes
  | announces => exact .nothing
  | moves l l' hi hmoves hpc =>
    have hnothing (hevents : listenerEvents i l.pc l'.pc = []) :
        s.Notes s.isShutdownRequested (s.trace ++ listenerEvents i l.pc l'.pc) := by
      rw [hevents, List.append_nil]
      exact .nothing
    cases hmoves with
    | givesUp fd ec trace hmay =>
      cases hpc' : l.pc with
      | socket | setsockopt | bind | listen | poll | create | close =>
        simp only [listenerEvents]
        exact .failed i
      | unborn | sending | waiting | loop | accept | returned =>
        rw [hpc'] at hmay
        contradiction
    | accepted fd client trace hpc' =>
      simp only [listenerEvents, hpc']
      exact .accepted i client fd l hi hpc'
    | option fd option trace hpc' =>
      refine hnothing ?_
      rw [hpc']
      cases option <;> rfl
    | sent fd message hpc' | told fd message _ _ hpc' =>
      refine hnothing ?_
      rw [hpc']
      rfl
    | idle fd trace hpc' =>
      refine hnothing ?_
      rcases hpc' with hpc' | hpc' <;> rw [hpc'] <;> rfl
    | socket _ _ hpc' | bound _ _ hpc' | ready _ _ hpc' | allowed _ hpc' | polls _ hpc' | leaves _ hpc'
    | interrupted _ _ hpc' | arrived _ _ hpc' | created _ _ _ _ hpc' | closed _ _ hpc' =>
      refine hnothing ?_
      rw [hpc']
      rfl

/-- A listener does not move `main`. -/
theorem ListenerMoves.pc_eq {i : ℕ} (h : s.ListenerMoves settings i s') : s'.pc = s.pc := by
  cases h with
  | tells l fd message subscriber left => exact (s.visit_startup (some i) message subscriber).pc_eq
  | announces | moves => rfl

/-- `main` stays where it is while another thread makes a step. -/
theorem outside (h : s.Gating) {a : ProgramAction} (ha : ∀ result error, a ≠ .main result error)
    (hstep : s.step m settings a = some s') :
    s'.pc = s.pc ∧ s.Notes s'.isShutdownRequested s'.trace := by
  cases a with
  | main result error => exact absurd rfl (ha result error)
  | listener i result error =>
    have hmoves := listenerStep_moves h hstep
    exact ⟨hmoves.pc_eq, hmoves.notes⟩
  | component component error =>
    simp only [Program.step, componentStep] at hstep
    cases hpc : (s.components component).pc with
    | unborn | ended =>
      simp only [hpc] at hstep
      contradiction
    | running =>
      simp only [hpc] at hstep
      cases error with
      | some ec =>
        cases hstep
        exact ⟨rfl, .nothing⟩
      | none =>
        simp only at hstep
        split_ifs at hstep
        cases hstep
        exact ⟨rfl, .nothing⟩
    | sending ec left =>
      cases left with
      | nil =>
        simp only [hpc, Option.some.injEq] at hstep
        subst hstep
        exact ⟨rfl, .nothing⟩
      | cons subscriber left =>
        simp only [hpc, Option.some.injEq] at hstep
        subst hstep
        have hhears := s.visit_startup none (.shutdown ec) subscriber
        exact ⟨hhears.pc_eq, hhears.notes⟩
  | other ec =>
    simp only [Program.step] at hstep
    split_ifs at hstep
    cases hstep
    exact ⟨rfl, .nothing⟩
  | deliver k =>
    simp only [Program.step, deliverStep, Option.map_eq_some_iff] at hstep
    obtain ⟨other, hk, rfl⟩ := hstep
    cases hleft : other.left with
    | nil => exact ⟨rfl, .nothing⟩
    | cons subscriber left =>
      have hhears := s.visit_startup none (.shutdown other.ec) subscriber
      exact ⟨hhears.pc_eq, hhears.notes⟩

/-- A run of the gate beside the program: it is in the same state up to the end of the first stage,
and the same calls were made, with the same outcomes. -/
structure Follows (s : Program) (g : StartupGate) : Prop where
  first : ∀ pc, s.pc.atGate = some pc → g = s.gate pc
  performed : performedCalls g.trace = performedCalls (s.trace.filterMap LifeEvent.atGate)
  left : s.pc.atGate = none → s.pc = .returned 1 ∨ g.pc = .secondStage

/-- `main` is seen where it goes on, unless it leaves the first stage. -/
theorem atGate_ofStartup {pc pc' : StartupPc} (h : (LifePc.ofStartup pc).atGate = some pc') :
    pc' = pc := by
  cases pc <;> simp_all [LifePc.ofStartup, LifePc.atGate]

/-- In the first stage, the gate makes the step of `main` too. -/
theorem gate_main {pc : StartupPc} (hpc : s.pc = .first pc) {result : Int} {error : ℕ}
    (hstep : s.mainStep m settings result error = some s') :
    ∃ ok pc', (s.gate pc).mainStep m settings.order ok = some (s'.gate pc') ∧ s'.pc = .ofStartup pc' := by
  cases pc with
  | startListener i =>
    simp only [mainStep, hpc] at hstep
    cases hi : s.listeners[i]? with
    | none =>
      simp only [hi, Option.some.injEq] at hstep
      subst hstep
      exact ⟨true, .wait, by simp [StartupGate.mainStep, gate, hi], rfl⟩
    | some l =>
      simp only [hi, Option.some.injEq] at hstep
      subst hstep
      refine ⟨true, .startListener (i + 1), ?_, rfl⟩
      simp [StartupGate.mainStep, gate, hi, List.map_set, ServerListenerPc.atGate]
  | wait =>
    simp only [mainStep, hpc] at hstep
    split_ifs at hstep with hready
    cases hstep
    exact ⟨true, .guard .setns, if_pos hready, rfl⟩
  | guard call =>
    simp only [mainStep, hpc, Option.some.injEq] at hstep
    subst hstep
    exact ⟨true, _, rfl, rfl⟩
  | openNetNS =>
    simp only [mainStep, hpc, Option.some.injEq] at hstep
    subst hstep
    by_cases hfails : result < 0
    · refine ⟨false, .sending .setns settings.order, by simp [StartupGate.mainStep, gate], ?_⟩
      simp [hfails, LifePc.ofStartup]
    · refine ⟨true, .recheck, by simp [StartupGate.mainStep, gate], ?_⟩
      simp [hfails, LifePc.ofStartup]
  | recheck =>
    simp only [mainStep, hpc, Option.some.injEq] at hstep
    subst hstep
    exact ⟨true, _, rfl, rfl⟩
  | perform call =>
    simp only [mainStep, hpc, Option.some.injEq] at hstep
    subst hstep
    by_cases hfails : result < 0
    · refine ⟨false, .sending call settings.order, ?_, by simp [hfails, emit]⟩
      simp [StartupGate.mainStep, gate, emit, LifeEvent.atGate, hfails]
    · refine ⟨true, call.next, ?_, by simp [hfails, emit]⟩
      simp [StartupGate.mainStep, gate, emit, LifeEvent.atGate, Int.not_lt.mp hfails]
  | sending call left =>
    cases left with
    | nil =>
      simp only [mainStep, hpc, Option.some.injEq] at hstep
      subst hstep
      exact ⟨true, call.next, rfl, rfl⟩
    | cons subscriber left =>
      simp only [mainStep, hpc, Option.some.injEq] at hstep
      subst hstep
      refine ⟨true, .sending call left, ?_, rfl⟩
      rw [StartupGate.mainStep]
      exact congrArg some (congrArg (fun g : StartupGate => { g with pc := .sending call left })
        (s.gate_visit _ none (.shutdown 1) subscriber)).symm
  | secondStage =>
    simp only [mainStep, hpc] at hstep
    contradiction

/-- The gate sees the listener in its new place. -/
theorem gate_set (s : Program) (pc : StartupPc) (i : ℕ) (l' : ServerListener)
    (events : List LifeEvent) :
    ({ s with listeners := s.listeners.set i l', trace := s.trace ++ events } : Program).gate pc =
      { s.gate pc with
        listeners := (s.gate pc).listeners.set i l'.pc.atGate
        trace := (s.gate pc).trace ++ events.filterMap LifeEvent.atGate } := by
  simp [gate, List.map_set]

/-- And in its old one. -/
theorem gate_listener {i : ℕ} {l : ServerListener} (hi : s.listeners[i]? = some l) (pc : StartupPc) :
    (s.gate pc).listeners[i]? = some l.pc.atGate := by
  simp [gate, hi]

/-- A listener that stays where the gate sees it makes no step there. -/
theorem gate_set_same {i : ℕ} {l l' : ServerListener} {events : List LifeEvent}
    (hi : s.listeners[i]? = some l) (hsame : l'.pc.atGate = l.pc.atGate)
    (hevents : events.filterMap LifeEvent.atGate = []) (pc : StartupPc) :
    ({ s with listeners := s.listeners.set i l', trace := s.trace ++ events } : Program).gate pc =
      s.gate pc := by
  have hset : (s.gate pc).listeners.set i l'.pc.atGate = (s.gate pc).listeners := by
    obtain ⟨hlt, hget⟩ := List.getElem?_eq_some_iff.mp (gate_listener hi pc)
    rw [hsame, ← hget, List.set_getElem_self]
  rw [gate_set, hset, hevents, List.append_nil]

/-- Before `StartupContinueMessage` is sent, the gate answers what a listener does. -/
theorem gate_moves (h : s.Gating) (hearly : .continued ∉ s.trace) {i : ℕ}
    (hmoves : s.ListenerMoves settings i s') (pc : StartupPc) :
    s'.gate pc = s.gate pc ∨
      ∃ ec, (s.gate pc).listenerStep settings.order i ec = some (s'.gate pc) := by
  have hlocked (l : ServerListener) (hi : s.listeners[i]? = some l) : l.startupAllowed = false := by
    by_contra hallowed
    exact hearly (h.allowed l (List.mem_of_getElem? hi) ((Bool.not_eq_false _).mp hallowed))
  have hinside (l : ServerListener) (hi : s.listeners[i]? = some l) : l.pc.isReleased = false := by
    by_contra hreleased
    have hallowed := h.released l (List.mem_of_getElem? hi) ((Bool.not_eq_false _).mp hreleased)
    rw [hlocked l hi] at hallowed
    contradiction
  cases hmoves with
  | tells l fd message subscriber left hi hpc =>
    have hgate := gate_listener hi pc
    rw [hpc] at hgate
    refine .inr ⟨none, ?_⟩
    simp only [StartupGate.listenerStep, hgate, ServerListenerPc.atGate, ← gate_visit]
    simp [gate, List.map_set, ServerListenerPc.atGate, (s.visit_startup (some i) message subscriber).listeners_eq]
  | announces l fd id left subscriber hi hpc =>
    have hreleased := hinside l hi
    rw [hpc] at hreleased
    contradiction
  | moves l l' hi hmoves hpc =>
    have hgate := gate_listener hi pc
    have hreleased := hinside l hi
    have hlocked := hlocked l hi
    have habsurd (hpc : l.pc.isReleased = true) {P : Prop} : P := by
      rw [hreleased] at hpc
      contradiction
    cases hmoves with
    | socket fd trace hpc => exact .inl (gate_set_same hi (by rw [hpc]; rfl) (by rw [hpc]; rfl) pc)
    | option fd option trace hpc =>
      cases option <;> exact .inl (gate_set_same hi (by rw [hpc]; rfl) (by rw [hpc]; rfl) pc)
    | bound fd trace hpc => exact .inl (gate_set_same hi (by rw [hpc]; rfl) (by rw [hpc]; rfl) pc)
    | ready fd trace hpc =>
      rw [hpc] at hgate
      refine .inr ⟨none, ?_⟩
      rw [StartupGate.listenerStep, hgate, gate_set, hpc]
      simp [ServerListenerPc.atGate, listenerEvents]
    | givesUp fd ec trace hmay =>
      have hsetup (hsetup : l.pc.atGate = .setup)
          (hevents : listenerEvents i l.pc (.sending fd (.startup (.shutdown ec)) settings.order) =
            [.failed i]) :
          (s.gate pc).listenerStep settings.order i (some ec) = some (gate { s with
            listeners := s.listeners.set i { l with
              pc := .sending fd (.startup (.shutdown ec)) settings.order, trace }
            trace := s.trace ++ listenerEvents i l.pc
              (.sending fd (.startup (.shutdown ec)) settings.order) } pc) := by
        rw [hsetup] at hgate
        rw [StartupGate.listenerStep, hgate, gate_set, hevents]
        rfl
      cases hpc' : l.pc with
      | socket | setsockopt | bind | listen =>
        exact .inr ⟨some ec, hpc' ▸ hsetup (by rw [hpc']; rfl) (by rw [hpc']; rfl)⟩
      | poll | create | close => exact habsurd (by rw [hpc']; rfl)
      | unborn | sending | waiting | loop | accept | returned =>
        rw [hpc'] at hmay
        contradiction
    | sent fd message hpc =>
      have hevents : listenerEvents i l.pc (message.next fd) = [] := by rw [hpc]; rfl
      rw [hpc] at hgate
      cases message with
      | startup message =>
        refine .inr ⟨none, ?_⟩
        rw [hevents, gate_set, StartupGate.listenerStep, hgate]
        cases message <;> simp [ServerListenerPc.atGate, ProgramMessage.next]
      | startupContinue | newClient id => exact habsurd (by rw [hpc]; rfl)
    | told fd message subscriber left hpc' => exact absurd hpc' (hpc fd message subscriber left)
    | allowed fd hpc hallowed =>
      rw [hlocked] at hallowed
      contradiction
    | idle fd trace hpc =>
      rcases hpc with hpc | hpc <;> exact habsurd (by rw [hpc]; rfl)
    | polls _ hpc | leaves _ hpc | interrupted _ _ hpc | arrived _ _ hpc | accepted _ _ _ hpc
    | created _ _ _ _ hpc | closed _ _ hpc => exact habsurd (by rw [hpc]; rfl)

/-- The calls that were made so far, with their outcomes. -/
def performed (s : Program) : List (PrivilegedCall × Bool) :=
  performedCalls (s.trace.filterMap LifeEvent.atGate)

/-- Only `main` makes such a call. -/
theorem Notes.performed_eq {requested : Bool} {trace : List LifeEvent} (h : s.Notes requested trace) :
    performedCalls (trace.filterMap LifeEvent.atGate) = s.performed := by
  cases h with
  | nothing => rfl
  | _ => simp [performed, performedCalls, LifeEvent.atGate]

/-- Nobody makes such a call while it is told to continue. -/
theorem visit_continue_performed (s : Program) (subscriber : StartupSubscriber) :
    (s.visit none .startupContinue subscriber).performed = s.performed := by
  unfold visit
  split
  · cases subscriber <;> rfl
  · rfl

/-- Behind the first stage, `main` makes none, and it does not come back. -/
theorem mainStep_behind (hpc : s.pc.atGate = none) {result : Int} {error : ℕ}
    (hstep : s.mainStep m settings result error = some s') :
    s'.pc.atGate = none ∧ s'.performed = s.performed := by
  have htold (subscriber : StartupSubscriber) :=
    (s.visit_startup none (.shutdown 1) subscriber).notes.performed_eq
  have hemit (e : LifeEvent) (he : ∀ call ok, e ≠ .performed call ok) :
      performedCalls ((s.trace ++ [e]).filterMap LifeEvent.atGate) = s.performed := by
    cases e <;> simp_all [performed, performedCalls, LifeEvent.atGate]
  have hcontinue : (s.continueStartup settings).pc.atGate = none ∧
      (s.continueStartup settings).performed = s.performed := ⟨rfl, hemit _ nofun⟩
  cases hpc' : s.pc with
  | signals | first =>
    rw [hpc'] at hpc
    contradiction
  | dns | addServ | check =>
    simp only [mainStep, hpc', Option.some.injEq] at hstep
    subst hstep
    split_ifs <;> exact ⟨rfl, rfl⟩
  | addServFailed left =>
    cases left with
    | nil =>
      simp only [mainStep, hpc', Option.some.injEq] at hstep
      subst hstep
      exact ⟨rfl, rfl⟩
    | cons subscriber left =>
      simp only [mainStep, hpc', Option.some.injEq] at hstep
      subst hstep
      exact ⟨rfl, htold subscriber⟩
  | search | addSrch =>
    simp only [mainStep, hpc'] at hstep
    split_ifs at hstep
    · cases hstep
      exact ⟨rfl, rfl⟩
    · cases hstep
      exact hcontinue
  | addSrchFailed left =>
    cases left with
    | nil =>
      simp only [mainStep, hpc', Option.some.injEq] at hstep
      subst hstep
      exact hcontinue
    | cons subscriber left =>
      simp only [mainStep, hpc', Option.some.injEq] at hstep
      subst hstep
      exact ⟨rfl, htold subscriber⟩
  | continuing left =>
    cases left with
    | nil =>
      simp only [mainStep, hpc', Option.some.injEq] at hstep
      subst hstep
      exact ⟨rfl, rfl⟩
    | cons subscriber left =>
      simp only [mainStep, hpc', Option.some.injEq] at hstep
      subst hstep
      exact ⟨rfl, s.visit_continue_performed subscriber⟩
  | startup component | requestComponent component =>
    simp only [mainStep, hpc', Option.some.injEq] at hstep
    subst hstep
    cases component <;> exact ⟨rfl, rfl⟩
  | sigtimedwait =>
    simp only [mainStep, hpc', Option.some.injEq] at hstep
    subst hstep
    split_ifs <;> exact ⟨rfl, hemit _ nofun⟩
  | requestListener i =>
    simp only [mainStep, hpc'] at hstep
    cases hi : s.listeners[i]? with
    | none =>
      simp only [hi, Option.some.injEq] at hstep
      subst hstep
      exact ⟨rfl, rfl⟩
    | some l =>
      simp only [hi, Option.some.injEq] at hstep
      subst hstep
      exact ⟨rfl, hemit (.told i) nofun⟩
  | joinListener i =>
    simp only [mainStep, hpc'] at hstep
    cases hi : s.listeners[i]? with
    | none =>
      simp only [hi, Option.some.injEq] at hstep
      subst hstep
      exact ⟨rfl, rfl⟩
    | some l =>
      simp only [hi] at hstep
      split_ifs at hstep
      cases hstep
      exact ⟨rfl, rfl⟩
  | joinComponent component =>
    simp only [mainStep, hpc'] at hstep
    split_ifs at hstep
    cases hstep
    cases component <;> exact ⟨rfl, rfl⟩
  | returned code =>
    simp only [mainStep, hpc'] at hstep
    contradiction

/-- Behind the first stage, the gate stands still. -/
theorem Follows.behind (h : s.Follows g) (hgating : s.Gating) (hpc : s.pc.atGate = none)
    {a : ProgramAction} (hstep : s.step m settings a = some s') : s'.Follows g := by
  have hbehind : s'.pc.atGate = none ∧ s'.performed = s.performed ∧ (s.pc = .returned 1 → s'.pc = s.pc) := by
    by_cases ha : ∃ result error, a = .main result error
    · obtain ⟨result, error, rfl⟩ := ha
      obtain ⟨hnone, hperformed⟩ := mainStep_behind hpc hstep
      refine ⟨hnone, hperformed, fun hreturned => ?_⟩
      simp only [step, mainStep, hreturned] at hstep
      contradiction
    · obtain ⟨hsame, hnotes⟩ := outside hgating (fun result error heq => ha ⟨result, error, heq⟩) hstep
      exact ⟨hsame ▸ hpc, hnotes.performed_eq, fun _ => hsame⟩
  obtain ⟨hnone, hperformed, hreturned⟩ := hbehind
  refine ⟨fun pc hno => ?_, h.performed.trans hperformed.symm, fun _ => ?_⟩
  · rw [hnone] at hno
    contradiction
  · exact (h.left hpc).imp_left fun hone => (hreturned hone).trans hone

/-- Whatever the program does, the gate answers with a step, or stands still. -/
theorem simulates_gate : Simulates (step m settings) (StartupGate.step m settings.order)
    fun s g => s.Gating ∧ s.Follows g := by
  rintro s g a s' ⟨hgating, hfollows⟩ hstep
  have hgating' := hgating.step hstep
  cases hat : s.pc.atGate with
  | none => exact .stay ⟨hgating', hfollows.behind hgating hat hstep⟩
  | some pc =>
    obtain rfl := hfollows.first pc hat
    have hearly : .continued ∉ s.trace := by
      refine hgating.early ?_
      cases hpc : s.pc <;> rw [hpc] at hat <;> first | rfl | contradiction
    have hsame (hpc : s'.pc = s.pc) : s'.Follows (s'.gate pc) := by
      refine ⟨fun pc' hpc' => ?_, rfl, fun hnone => ?_⟩
      · rw [hpc, hat] at hpc'
        exact congrArg s'.gate (Option.some.inj hpc')
      · rw [hpc, hat] at hnone
        contradiction
    cases a with
    | main result error =>
      cases hpc : s.pc with
      | signals =>
        rw [hpc] at hat
        cases hat
        simp only [step, mainStep, hpc, Option.some.injEq] at hstep
        subst hstep
        refine .stay ⟨hgating', ?_⟩
        split_ifs
        · exact ⟨nofun, rfl, fun _ => .inl rfl⟩
        · refine ⟨fun pc' hpc' => ?_, rfl, nofun⟩
          cases hpc'
          rfl
      | first pc' =>
        rw [hpc] at hat
        cases hat
        obtain ⟨ok, pc', hanswer, hnext⟩ := gate_main hpc hstep
        refine .one (b := .main ok) hanswer ⟨hgating', fun pc'' hpc'' => ?_, rfl, fun hnone => .inr ?_⟩
        · rw [hnext] at hpc''
          rw [atGate_ofStartup hpc'']
        · rw [hnext] at hnone
          cases pc' <;> first | rfl | contradiction
      | _ =>
        rw [hpc] at hat
        contradiction
    | listener i result error =>
      have hmoves := listenerStep_moves hgating hstep
      rcases gate_moves hgating hearly hmoves pc with hstill | ⟨ec, hanswer⟩
      · rw [← hstill]
        exact .stay ⟨hgating', hsame hmoves.pc_eq⟩
      · exact .one (b := .listener i ec) hanswer ⟨hgating', hsame hmoves.pc_eq⟩
    | component component error =>
      simp only [step, componentStep, hgating.unborn hearly component] at hstep
      contradiction
    | other ec =>
      simp only [step] at hstep
      split_ifs at hstep with hsecond
      exact absurd (hgating.second hsecond) hearly
    | deliver k =>
      simp only [step, deliverStep, hgating.others hearly] at hstep
      contradiction

/-- The gate starts as the program does. -/
theorem follows_initial (m : MainState) : (initial m).Follows (StartupGate.initial m) where
  first pc hpc := by
    cases hpc
    simp [StartupGate.initial, initial, gate, Function.comp_def, ServerListener.initial,
      ServerListenerPc.atGate, List.map_const']
  performed := rfl
  left hno := nomatch hno

/-- Every run of the program has a run of the startup gate beside it. Up to the end of the first stage
the handlers, `main` and the listeners are where they are there, and the calls that change what the
process may do are the same throughout, and so is whether they succeed. -/
theorem passes_startup_gate {actions : List ProgramAction}
    (hrun : runActions (step m settings) (initial m) actions = some s) :
    ∃ gateActions g, runActions (StartupGate.step m settings.order) (StartupGate.initial m)
      gateActions = some g ∧ s.Follows g := by
  obtain ⟨gateActions, g, hgate, -, hfollows⟩ :=
    simulates_gate.run ⟨Gating.initial m, follows_initial m⟩ hrun
  exact ⟨gateActions, g, hgate, hfollows⟩

/-- `StartupHandler` is told first. -/
def directorySettings : ListenerSettings := ⟨.little, 500, StartupGate.startupHandlerFirst⟩

/-- The listener opens its socket and reports, and `main` goes through both stages. -/
def startsUp : List ProgramAction :=
  List.replicate 3 (.main 0 0) ++ [.listener 0 3 0] ++ List.replicate 10 (.listener 0 0 0) ++
    List.replicate 15 (.main 0 0)

/-- The gate has made the call there too. -/
theorem passes_startup_gate_startsUp :
    ∃ s, runActions (step StartupGate.directoryMain directorySettings) (initial StartupGate.directoryMain)
        startsUp = some s ∧ s.pc = .sigtimedwait ∧
      ∃ gateActions g, runActions (StartupGate.step StartupGate.directoryMain directorySettings.order)
        (StartupGate.initial StartupGate.directoryMain) gateActions = some g ∧
          performedCalls g.trace = [(.chdir, true)] := by
  have hsome : (runActions (step StartupGate.directoryMain directorySettings)
    (initial StartupGate.directoryMain) startsUp).isSome = true := rfl
  have hrun := (Option.some_get hsome).symm
  obtain ⟨gateActions, g, hgate, hfollows⟩ := passes_startup_gate hrun
  exact ⟨_, hrun, rfl, gateActions, g, hgate, hfollows.performed.trans rfl⟩

end Program

end TinySox
