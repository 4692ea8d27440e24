import TinySox.TransferFailure

/-!
# The life of a communication helper

One thread calls `Transfer`, `GetStatus` and `Shutdown` of a helper, one after another. Other
threads send notices at any time. The end of the use of a helper is recorded twice: by the reserved
values of the counter, which the notices set, and by the status, which the calling thread sets.
Neither record is ever taken back, and every call respects it.

The log and the mark of a delivered cancel record what has happened. They are not part of the
program.
-/

namespace TinySox

open TinySox.Common

/-- What the calls of the thread show. -/
inductive HelperEvent
  /-- `Transfer` takes a snapshot of the counter, before or after a cancel was delivered -/
  | snapshot (cancelled : Bool)
  /-- `read` or `write` returns -/
  | systemCall (tSz : Int)
  /-- `Transfer` returns -/
  | returned (v : Int)
  /-- `GetStatus` returns -/
  | statusRead (v : Int)
  /-- `Shutdown` calls `shutdown(2)` -/
  | shutdownCalled
  deriving DecidableEq, Repr

/-- A helper, the thread that drives it and what the thread has done. -/
structure HelperSession where
  helper : TCPCommHelper
  errno : ℕ
  frame : Option TransferFrame
  cancelled : Bool
  log : List HelperEvent
  deriving DecidableEq, Repr

/-- What can happen next to a helper. -/
inductive HelperAction
  | notice (n : Notice)
  /-- the thread calls `Transfer`, with `err` left in `errno` by earlier calls -/
  | enter (len : Int) (allowPartial : Bool) (err : ℕ)
  | transfer (a : TransferAction)
  | getStatus
  | shutdown
  deriving DecidableEq, Repr

namespace HelperEvent

/-- Whether the second event may come later than the first. After a snapshot that follows a cancel,
and after a negative result, no system call is made and every result is negative. -/
def Allows : HelperEvent → HelperEvent → Prop
  | snapshot true, systemCall _ => False
  | snapshot true, returned v => v < 0
  | returned r, systemCall _ => 0 ≤ r
  | returned r, returned v => r < 0 → v < 0
  | returned r, shutdownCalled => r ≠ -2
  | statusRead r, statusRead v => r < 0 → v < 0
  | shutdownCalled, shutdownCalled => False
  | _, _ => True

/-- What an event leaves behind in the helper. -/
def Leaves (h : TCPCommHelper) : HelperEvent → Prop
  | snapshot true => h.status < 0
  | returned v => (v < 0 → h.status < 0) ∧ (v = -2 → h.status < -1)
  | statusRead v => v < 0 → h.status < 0 ∨ nHup ≤ h.extCnt
  | shutdownCalled => h.status < -1
  | _ => True

/-- What the helper is like when the event happens. -/
def Needs (h : TCPCommHelper) : HelperEvent → Prop
  | systemCall _ => 0 ≤ h.status
  | returned v => h.status < 0 → v < 0
  | statusRead v => h.status < 0 ∨ nHup ≤ h.extCnt → v < 0
  | shutdownCalled => -1 ≤ h.status
  | snapshot _ => True

/-- What an event has left behind decides what may follow. -/
theorem allows_of_leaves {h : TCPCommHelper} {e e' : HelperEvent} (hleaves : e.Leaves h)
    (hneeds : e'.Needs h) : e.Allows e' := by
  cases e with
  | snapshot cancelled =>
    cases cancelled with
    | false => cases e' <;> trivial
    | true =>
      have hneg : h.status < 0 := hleaves
      cases e' with
      | systemCall tSz => exact Int.not_le.mpr hneg hneeds
      | returned v => exact hneeds hneg
      | snapshot | statusRead | shutdownCalled => trivial
  | systemCall tSz => cases e' <;> trivial
  | returned r =>
    have hneg := hleaves.1
    have hterm := hleaves.2
    cases e' with
    | systemCall tSz =>
      have hpos : 0 ≤ h.status := hneeds
      change 0 ≤ r
      omega
    | returned v => exact fun hr => hneeds (hneg hr)
    | shutdownCalled =>
      have hopen : -1 ≤ h.status := hneeds
      intro hr
      have := hterm hr
      omega
    | snapshot | statusRead => trivial
  | statusRead r =>
    cases e' with
    | statusRead v => exact fun hr => hneeds (hleaves hr)
    | snapshot | systemCall | returned | shutdownCalled => trivial
  | shutdownCalled =>
    cases e' with
    | shutdownCalled =>
      have hterm : h.status < -1 := hleaves
      have hopen : -1 ≤ h.status := hneeds
      change False
      omega
    | snapshot | systemCall | returned | statusRead => trivial

/-- What an event has left behind stays, when neither record of the end is taken back. -/
theorem Leaves.mono {h h' : TCPCommHelper} {e : HelperEvent} (hleaves : e.Leaves h)
    (hneg : h.status < 0 → h'.status < 0) (hterm : h.status < -1 → h'.status < -1)
    (hext : h.extCnt ≤ h'.extCnt) : e.Leaves h' := by
  cases e with
  | snapshot cancelled =>
    cases cancelled with
    | false => trivial
    | true => exact hneg hleaves
  | systemCall tSz => trivial
  | returned v => exact ⟨fun hv => hneg (hleaves.1 hv), fun hv => hterm (hleaves.2 hv)⟩
  | statusRead v => exact fun hv => (hleaves hv).imp hneg (Nat.le_trans · hext)
  | shutdownCalled => exact hterm hleaves

end HelperEvent

namespace HelperSession

/-- What a step of `Transfer` shows before it returns. -/
def observe (s : HelperSession) : TransferAction → List HelperEvent
  | .look => if s.helper.extCnt ≤ s.helper.intCnt then [] else [.snapshot s.cancelled]
  | .call tSz _ => [.systemCall tSz]
  | _ => []

/-- Continue with the outcome of a step of `Transfer`; a return leaves no frame. -/
def resume (s : HelperSession) (h : TCPCommHelper) (errno : ℕ) (shown : List HelperEvent) :
    TransferOutcome → HelperSession
  | .running f =>
    { s with helper := h, errno := errno, frame := some f, log := s.log ++ shown }
  | .returned v =>
    { s with helper := h, errno := errno, frame := none, log := s.log ++ (shown ++ [.returned v]) }

/-- One step of the thread, or a notice. -/
def step (s : HelperSession) : HelperAction → Option HelperSession
  | .notice n =>
    some { s with helper := s.helper.notify n, cancelled := s.cancelled || n == .cancel }
  | .enter len allowPartial err =>
    if s.frame = none ∧ 1 ≤ len then
      some (s.resume s.helper err [] (transferEnter s.helper len allowPartial))
    else none
  | .transfer a =>
    match s.frame with
    | some f =>
      (transferStep s.helper s.errno f a).map fun r =>
        s.resume r.helper r.errno (s.observe a) r.outcome
    | none => none
  | .getStatus =>
    if s.frame = none then some { s with log := s.log ++ [.statusRead s.helper.getStatus] }
    else none
  | .shutdown =>
    if s.frame = none then
      some { s with
        helper := s.helper.shutdown.1
        log := s.log ++ if s.helper.shutdown.2 then [.shutdownCalled] else [] }
    else none

/-- The helper has just been created. -/
def Fresh (s : HelperSession) : Prop :=
  s.helper = newTCPCommHelper s.helper.fd s.helper.isReader ∧ s.frame = none ∧
    s.cancelled = false ∧ s.log = []

/-- What holds between any two steps: a `Transfer` only runs while the status is not negative, and
each event has left its mark. -/
structure Sticky (s : HelperSession) : Prop where
  word : s.helper.extCnt ≤ nCancel
  stored : s.helper.intCnt < nHup
  cancelled : s.cancelled = true → s.helper.extCnt = nCancel
  running : ∀ f, s.frame = some f → f.Sound ∧ 0 ≤ s.helper.status
  leaves : ∀ e ∈ s.log, e.Leaves s.helper
  ordered : s.log.Pairwise HelperEvent.Allows

variable {s t : HelperSession}

/-- A fresh helper has an empty log. -/
theorem Fresh.sticky (h : s.Fresh) : s.Sticky := by
  obtain ⟨hhelper, hframe, hcancelled, hlog⟩ := h
  have hext : s.helper.extCnt = 1 := by rw [hhelper]; rfl
  have hint : s.helper.intCnt = 0 := by rw [hhelper]; rfl
  constructor
  · rw [hext]
    decide
  · rw [hint]
    decide
  · intro hdone
    rw [hcancelled] at hdone
    contradiction
  · intro f hf
    rw [hframe] at hf
    contradiction
  · simp [hlog]
  · simp [hlog]

/-- The thread has made a step with the shown events: they follow on what the log has left behind,
and they leave their own marks. -/
theorem Sticky.append (hs : s.Sticky) {h' : TCPCommHelper} {errno : ℕ} {frame : Option TransferFrame}
    {shown : List HelperEvent} (hext : h'.extCnt = s.helper.extCnt) (hint : h'.intCnt < nHup)
    (hneg : s.helper.status < 0 → h'.status < 0) (hterm : s.helper.status < -1 → h'.status < -1)
    (hrunning : ∀ f, frame = some f → f.Sound ∧ 0 ≤ h'.status)
    (hpair : shown.Pairwise HelperEvent.Allows) (hneeds : ∀ e ∈ shown, e.Needs s.helper)
    (hleaves : ∀ e ∈ shown, e.Leaves h') :
    ({ s with helper := h', errno := errno, frame := frame, log := s.log ++ shown } :
      HelperSession).Sticky := by
  constructor
  · exact hext ▸ hs.word
  · exact hint
  · exact fun hdone => hext.trans (hs.cancelled hdone)
  · exact hrunning
  · intro e he
    rcases List.mem_append.mp he with hold | hnew
    · exact (hs.leaves e hold).mono hneg hterm (Nat.le_of_eq hext.symm)
    · exact hleaves e hnew
  · apply List.pairwise_append.mpr
    exact ⟨hs.ordered, hpair, fun e he e' he' =>
      HelperEvent.allows_of_leaves (hs.leaves e he) (hneeds e' he')⟩

/-- A notice never takes back the end of the use of a helper. -/
theorem Sticky.notice (hs : s.Sticky) (n : Notice) :
    ({ s with helper := s.helper.notify n, cancelled := s.cancelled || n == .cancel } :
      HelperSession).Sticky := by
  have hmono := s.helper.extCnt_le_notify n
  have hword := TransferCall.notify_word hs.word n
  constructor
  · exact hword
  · simpa only [TCPCommHelper.notify_intCnt] using hs.stored
  · intro hdone
    simp only [Bool.or_eq_true, beq_iff_eq] at hdone
    dsimp only
    rcases hdone with hbefore | rfl
    · have := hs.cancelled hbefore
      omega
    · simp only [TCPCommHelper.notify, TCPCommHelper.cancel] at hword ⊢
      split
      · rfl
      · have := hs.word
        omega
  · simpa only [TCPCommHelper.notify_status] using hs.running
  · intro e he
    apply (hs.leaves e he).mono
    · simp
    · simp
    · exact hmono
  · exact hs.ordered

end HelperSession

namespace TransferMoves

variable {h : TCPCommHelper} {errno : ℕ} {f : TransferFrame} {a : TransferAction}
  {r : TransferResult}

/-- Only an unreserved snapshot is stored. -/
theorem intCnt_lt (hmoves : TransferMoves h errno f a r) (hint : h.intCnt < nHup) :
    r.helper.intCnt < nHup := by
  have hseen (curCnt : ℕ) : (h.markSeen curCnt).intCnt < nHup := by
    unfold TCPCommHelper.markSeen
    split
    · assumption
    · exact hint
  cases hmoves with
  | partialDone curCnt => exact hseen curCnt
  | failed curCnt | again curCnt =>
    rw [TCPCommHelper.markError_intCnt]
    exact hseen curCnt
  | _ => exact hint

/-- A call that goes on has left the status as it was, or has found it usable. -/
theorem status_running {f' : TransferFrame} (hmoves : TransferMoves h errno f a r)
    (hstatus : 0 ≤ h.status) (hout : r.outcome = .running f') : 0 ≤ r.helper.status := by
  cases hmoves with
  | blocked | snapshot | woken | called => exact hstatus
  | again curCnt tSz hpc hleft hwhole hok => exact hok
  | cancelled | timedOut | complete | partialDone | failed => cases hout

/-- A call that returns a negative value has stored it as the status. -/
theorem status_returned {v : Int} (hmoves : TransferMoves h errno f a r) (hf : f.Sound)
    (hout : r.outcome = .returned v) (hneg : v < 0) : r.helper.status = v := by
  cases hmoves with
  | cancelled => cases hout; rfl
  | failed => cases hout; rfl
  | timedOut => cases hout; contradiction
  | complete =>
    cases hout
    omega
  | partialDone =>
    cases hout
    have := hf.left_le
    omega
  | blocked | snapshot | woken | called | again => cases hout

end TransferMoves

namespace HelperSession

variable {s t : HelperSession}

/-- A `Transfer` that is called runs only if the status is not negative, and otherwise returns
it. -/
theorem Sticky.enter (hs : s.Sticky) {len : Int} (allowPartial : Bool) (err : ℕ) (hlen : 1 ≤ len) :
    (s.resume s.helper err [] (transferEnter s.helper len allowPartial)).Sticky := by
  cases henter : transferEnter s.helper len allowPartial with
  | running f =>
    have hsound := (transferEnter_running henter).1
    have hstatus : 0 ≤ s.helper.status := by
      unfold transferEnter at henter
      split at henter
      · contradiction
      · omega
    apply hs.append rfl hs.stored id id
    · intro g hg
      cases hg
      exact ⟨hsound, hstatus⟩
    · simp
    · simp
    · simp
  | returned v =>
    have hv : v < 0 ∧ v = s.helper.status := by
      rcases transferEnter_returned henter with hneg | hzero
      · exact hneg
      · omega
    apply hs.append rfl hs.stored id id
    · intro g hg
      contradiction
    · simp
    · simp only [List.nil_append, List.mem_singleton, forall_eq]
      exact fun _ => hv.1
    · simp only [List.nil_append, List.mem_singleton, forall_eq]
      constructor
      · omega
      · omega

/-- What a step of `Transfer` shows fits to what was shown before, and leaves its mark if the call
returns `-2` for it. -/
theorem Sticky.observed (hs : s.Sticky) {f : TransferFrame} {a : TransferAction}
    {r : TransferResult} (hf : s.frame = some f)
    (hmoves : TransferMoves s.helper s.errno f a r) :
    ∀ e ∈ s.observe a, e.Needs s.helper ∧ e.Leaves r.helper := by
  have hstatus := (hs.running f hf).2
  intro e he
  cases hmoves with
  | blocked hpc hle =>
    rw [observe, if_pos hle] at he
    contradiction
  | cancelled hpc hlt hcancel =>
    rw [observe, if_neg (by omega), List.mem_singleton] at he
    subst he
    refine ⟨trivial, ?_⟩
    cases s.cancelled with
    | false => trivial
    | true => exact (by decide : (-2 : Int) < 0)
  | snapshot hpc hlt hcancel =>
    rw [observe, if_neg (by omega), List.mem_singleton] at he
    subst he
    refine ⟨trivial, ?_⟩
    cases hdone : s.cancelled with
    | false => trivial
    | true => exact (hcancel (hs.cancelled hdone)).elim
  | called curCnt tSz err =>
    rw [observe, List.mem_singleton] at he
    subst he
    exact ⟨hstatus, trivial⟩
  | woken | timedOut | complete | partialDone | failed | again => contradiction

/-- What a returning step shows before the return does not forbid the result. -/
theorem observe_pairwise {a : TransferAction} {v : Int} {f : TransferFrame} {r : TransferResult}
    (hmoves : TransferMoves s.helper s.errno f a r)
    (hout : r.outcome = .returned v) :
    (s.observe a ++ [HelperEvent.returned v]).Pairwise HelperEvent.Allows := by
  cases hmoves with
  | cancelled hpc hlt hcancel =>
    cases hout
    rw [observe, if_neg (by omega)]
    cases s.cancelled <;> simp [HelperEvent.Allows]
  | timedOut | complete | partialDone | failed => simp [observe]
  | blocked | snapshot | woken | called | again => cases hout

/-- The steps of `Transfer` keep the invariant. -/
theorem Sticky.transfer (hs : s.Sticky) {f : TransferFrame} {a : TransferAction}
    {r : TransferResult} (hf : s.frame = some f)
    (hmoves : TransferMoves s.helper s.errno f a r) :
    (s.resume r.helper r.errno (s.observe a) r.outcome).Sticky := by
  obtain ⟨hsound, hstatus⟩ := hs.running f hf
  have hobserved := hs.observed hf hmoves
  have hint := hmoves.intCnt_lt hs.stored
  cases hout : r.outcome with
  | running g =>
    apply hs.append hmoves.extCnt_eq hint
    · omega
    · omega
    · intro g' hg
      cases hg
      exact ⟨(hmoves.sound_running hsound hout).1, hmoves.status_running hstatus hout⟩
    · cases a <;> simp [observe, apply_ite (List.Pairwise HelperEvent.Allows)]
    · exact fun e he => (hobserved e he).1
    · exact fun e he => (hobserved e he).2
  | returned v =>
    have hvalue := hmoves.status_returned hsound hout
    apply hs.append hmoves.extCnt_eq hint
    · omega
    · omega
    · intro g hg
      contradiction
    · exact observe_pairwise hmoves hout
    · intro e he
      rcases List.mem_append.mp he with hshown | hlast
      · exact (hobserved e hshown).1
      · rw [List.mem_singleton.mp hlast]
        exact fun hneg => absurd hneg (by omega)
    · intro e he
      rcases List.mem_append.mp he with hshown | hlast
      · exact (hobserved e hshown).2
      · rw [List.mem_singleton.mp hlast]
        constructor
        · intro hneg
          rw [hvalue hneg]
          exact hneg
        · intro hterm
          rw [hvalue (by omega)]
          omega

/-- The status that is read is negative as soon as one of the two records says so. -/
theorem getStatus_neg {h : TCPCommHelper} (hword : h.extCnt ≤ nCancel) :
    h.getStatus < 0 ↔ h.status < 0 ∨ nHup ≤ h.extCnt := by
  have hnext := nHup_succ
  unfold TCPCommHelper.getStatus
  split_ifs <;> omega

/-- Every step keeps the invariant. -/
theorem sticky_step {act : HelperAction} (hs : s.Sticky) (hstep : s.step act = some t) :
    t.Sticky := by
  cases act with
  | notice n =>
    cases hstep
    exact hs.notice n
  | enter len allowPartial err =>
    simp only [step, Option.ite_none_right_eq_some, Option.some.injEq] at hstep
    obtain ⟨⟨hframe, hlen⟩, rfl⟩ := hstep
    exact hs.enter allowPartial err hlen
  | transfer a =>
    simp only [step] at hstep
    split at hstep
    · rename_i f hf
      simp only [Option.map_eq_some_iff] at hstep
      obtain ⟨r, hr, rfl⟩ := hstep
      exact hs.transfer hf (transferStep_moves hr)
    · contradiction
  | getStatus =>
    simp only [step, Option.ite_none_right_eq_some, Option.some.injEq] at hstep
    obtain ⟨hframe, rfl⟩ := hstep
    have hread := getStatus_neg hs.word
    apply hs.append rfl hs.stored id id hs.running
    · simp
    · simp only [List.mem_singleton, forall_eq]
      exact hread.mpr
    · simp only [List.mem_singleton, forall_eq]
      exact hread.mp
  | shutdown =>
    simp only [step, Option.ite_none_right_eq_some, Option.some.injEq] at hstep
    obtain ⟨hframe, rfl⟩ := hstep
    have hidle (f : TransferFrame) (hf : s.frame = some f) : False := by
      rw [hframe] at hf
      contradiction
    unfold TCPCommHelper.shutdown
    split
    · rename_i hterm
      apply hs.append rfl hs.stored id id hs.running
      · simp
      · simp
      · simp
    · rename_i hopen
      have hnegative : (-2 : Int) < 0 := by decide
      have hfinal : (-2 : Int) < -1 := by decide
      have hcounted : ({ s.helper with status := -2 } : TCPCommHelper).extCnt = s.helper.extCnt := rfl
      exact hs.append hcounted hs.stored (fun _ => hnegative)
        (fun _ => hfinal) (fun f hf => (hidle f hf).elim) (List.pairwise_singleton _ _)
        (List.forall_mem_singleton.mpr (Int.not_lt.mp hopen))
        (List.forall_mem_singleton.mpr hfinal)

/-- The end of the use of a helper is final. The events of every run come in an allowed order; a
`Transfer` that looks at the counter after a cancel returns `-2` at once, and one that is called
after a negative result returns at once with a negative result again. -/
theorem terminal_sticky {s₀ s : HelperSession} {actions : List HelperAction} (hfresh : s₀.Fresh)
    (hrun : runActions step s₀ actions = some s) :
    s.log.Pairwise HelperEvent.Allows ∧
      (∀ f, s.cancelled = true → s.frame = some f → f.pc = .look →
        ∃ t, s.step (.transfer .look) = some t ∧ t.frame = none ∧
          t.log = s.log ++ [.snapshot true, .returned (-2)]) ∧
      (∀ v len allowPartial err, HelperEvent.returned v ∈ s.log → v < 0 → 1 ≤ len →
        ∃ t w, s.step (.enter len allowPartial err) = some t ∧ t.frame = none ∧ w < 0 ∧
          t.log = s.log ++ [.returned w]) := by
  have hs : s.Sticky := runActions_invariant (fun _ _ _ h hstep => sticky_step h hstep)
    hfresh.sticky hrun
  refine ⟨hs.ordered, ?_, ?_⟩
  · intro f hdone hf hpc
    have hext := hs.cancelled hdone
    have hnew : ¬s.helper.extCnt ≤ s.helper.intCnt := by
      have hstored := hs.stored
      have hnext := nHup_succ
      omega
    have hlook : transferLook s.helper f = ({ s.helper with status := -2 }, .returned (-2)) := by
      rw [transferLook, if_neg hnew, if_pos hext]
    refine ⟨s.resume { s.helper with status := -2 } s.errno (s.observe .look) (.returned (-2)),
      ?_, rfl, ?_⟩
    · simp only [step, hf, transferStep, hpc, hlook, reduceIte, Option.map_some]
    · simp only [resume, observe, if_neg hnew, hdone, List.cons_append, List.nil_append]
  · intro v len allowPartial err hmem hv hlen
    have hneg : s.helper.status < 0 := (hs.leaves _ hmem).1 hv
    have hframe : s.frame = none := by
      by_contra hsome
      obtain ⟨f, hf⟩ := Option.ne_none_iff_exists'.mp hsome
      have hpos := (hs.running f hf).2
      omega
    have henter : transferEnter s.helper len allowPartial = .returned s.helper.status := by
      rw [transferEnter, if_pos hneg]
    refine ⟨s.resume s.helper err [] (.returned s.helper.status), s.helper.status, ?_, rfl, hneg,
      rfl⟩
    rw [step, if_pos ⟨hframe, hlen⟩, henter]

/-- A helper that has just been created for a connection. -/
def created : HelperSession := ⟨newTCPCommHelper 5 true, 0, none, false, []⟩

/-- One transfer, then a cancel, and three more calls. -/
def cancelledAfterRead : List HelperAction :=
  [.enter 4 true 0, .transfer .look, .transfer (.call 2 0), .transfer .settle, .notice .cancel,
    .enter 4 true 0, .transfer .look, .enter 4 true 0, .getStatus, .shutdown]

/-- The transfer after the cancel returns `-2`, and so does everything that follows; the socket is
not shut down by the helper. -/
theorem terminal_sticky_cancelledAfterRead :
    ∃ s : HelperSession, runActions step created cancelledAfterRead = some s ∧
      s.log = [.snapshot false, .systemCall 2, .returned 2, .snapshot true, .returned (-2),
        .returned (-2), .statusRead (-2)] ∧ s.log.Pairwise HelperEvent.Allows := by
  have hfresh : created.Fresh := ⟨rfl, rfl, rfl, rfl⟩
  have hrun : runActions step created cancelledAfterRead =
      some ⟨⟨5, true, nCancel, 1, -2⟩, 0, none, true, [.snapshot false, .systemCall 2, .returned 2,
        .snapshot true, .returned (-2), .returned (-2), .statusRead (-2)]⟩ := by decide
  exact ⟨_, hrun, rfl, (terminal_sticky hfresh hrun).1⟩

end HelperSession

end TinySox
