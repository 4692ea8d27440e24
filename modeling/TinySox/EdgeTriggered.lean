import TinySox.CommHelper
import TinySox.Common.LabelledRun

/-!
# Edge-triggered readiness of one direction

One direction of a socket as its helper sees it. The kernel queue holds `avail` units,
data to read or space to write into, and raises an edge whenever it gains some. The
epoll worker first fetches the edge and later reports it, and the calling thread runs
between any two of these. An edge for the other direction of the same descriptor, or a
cancel, may notify the helper at any time.
-/

namespace TinySox

open TinySox.Common

/-- One direction of a registered socket, and the thread that drives its helper. -/
structure Direction where
  helper : TCPCommHelper
  errno : ℕ
  frame : Option TransferFrame
  avail : ℕ
  /-- the kernel has put the descriptor on the ready list -/
  raised : Bool
  /-- the event is in the batch that `epoll_wait` returned -/
  fetched : Bool
  deriving DecidableEq, Repr

/-- An edge event is still on its way to the helper. -/
def Direction.EdgePending (s : Direction) : Prop := s.raised = true ∨ s.fetched = true

/-- What can happen next to the direction. -/
inductive DirectionAction
  | arrive (n : ℕ)
  | fetch
  | deliver (n : Notice)
  | notify (n : Notice)
  /-- the caller starts a `Transfer`, with `err` left in `errno` by earlier calls -/
  | enter (len : Int) (allowPartial : Bool) (err : ℕ)
  | transfer (a : TransferAction)
  deriving DecidableEq, Repr

/-- The system call moves what is requested and available, and would block on nothing. -/
def Direction.kernelAllows (s : Direction) (f : TransferFrame) : TransferAction → Bool
  | .call tSz err =>
    if s.avail = 0 then tSz = -1 ∧ err = eagain else tSz = (min f.dataLeft s.avail : ℕ)
  | _ => true

/-- Continue with the outcome of a step of `Transfer`; a return leaves no frame. -/
def Direction.resume (s : Direction) (h : TCPCommHelper) (errno : ℕ) :
    TransferOutcome → Direction
  | .running f => { s with helper := h, errno := errno, frame := some f }
  | .returned _ => { s with helper := h, errno := errno, frame := none }

/-- One step of the direction. -/
def Direction.step (s : Direction) : DirectionAction → Option Direction
  | .arrive n =>
    if 0 < n then some { s with avail := s.avail + n, raised := true } else none
  | .fetch =>
    -- the mask that `epoll_wait` reports is computed when the event is fetched
    if s.raised ∧ !s.fetched then some { s with raised := false, fetched := 0 < s.avail } else none
  | .deliver n =>
    if s.fetched then some { s with helper := s.helper.notify n, fetched := false } else none
  | .notify n => some { s with helper := s.helper.notify n }
  | .enter len allowPartial err =>
    match s.frame with
    | none => some (s.resume s.helper err (transferEnter s.helper len allowPartial))
    | some _ => none
  | .transfer a =>
    match s.frame with
    | none => none
    | some f =>
      if s.kernelAllows f a then
        (transferStep s.helper s.errno f a).map fun r =>
          { s.resume r.helper r.errno r.outcome with avail := s.avail - a.size }
      else none

/-- A direction whose helper has just been created; data may already wait in the kernel. -/
def Direction.Fresh (s : Direction) : Prop :=
  s.helper = newTCPCommHelper s.helper.fd s.helper.isReader ∧ s.frame = none

/-- If the counter is still at `c`, nothing is available or an edge is on its way. -/
def Direction.Covered (s : Direction) (c : ℕ) : Prop :=
  s.helper.extCnt ≤ c → s.avail = 0 ∨ s.EdgePending

/-- What holds between any two steps. A snapshot is newer than `intCnt`; after the system
call, the snapshot that is about to be stored is already covered. -/
structure Direction.Awake (s : Direction) : Prop where
  int_le_ext : s.helper.intCnt ≤ s.helper.extCnt
  int_lt_hup : s.helper.intCnt < nHup
  covered : s.Covered s.helper.intCnt
  snapshot : ∀ f c, s.frame = some f → f.pc = .call c →
    s.helper.intCnt < c ∧ c ≤ s.helper.extCnt
  settled : ∀ f c tSz, s.frame = some f → f.pc = .settle c tSz →
    s.helper.intCnt < c ∧ c ≤ s.helper.extCnt ∧ (c < nHup → 0 < f.dataLeft → s.Covered c)

namespace Direction

/-- A notice uncovers nothing: the counter is past every value it had reached. -/
theorem Awake.notify {s : Direction} (hs : s.Awake) (n : Notice) (fetched : Bool) :
    ({ s with helper := s.helper.notify n, fetched := fetched } : Direction).Awake := by
  have hmono := s.helper.extCnt_le_notify n
  refine ⟨?_, ?_, fun hle => ?_, fun f c hf hpc => ?_, fun f c tSz hf hpc => ?_⟩
  · simpa only [TCPCommHelper.notify_intCnt] using Nat.le_trans hs.int_le_ext hmono
  · simpa only [TCPCommHelper.notify_intCnt] using hs.int_lt_hup
  · have := s.helper.lt_extCnt_notify n hs.int_lt_hup hs.int_le_ext
    simp only [TCPCommHelper.notify_intCnt] at hle
    omega
  · have := hs.snapshot f c hf hpc
    simp only [TCPCommHelper.notify_intCnt]
    omega
  · have hset := hs.settled f c tSz hf hpc
    refine ⟨by simpa only [TCPCommHelper.notify_intCnt] using hset.1, Nat.le_trans hset.2.1 hmono, ?_⟩
    intro hc _ hle
    have := s.helper.lt_extCnt_notify n hc hset.2.1
    dsimp only at hle
    omega

/-- Between calls, or before the counters are compared, only `intCnt` has to be covered. -/
theorem Awake.of_look {s : Direction} (hle : s.helper.intCnt ≤ s.helper.extCnt)
    (hlt : s.helper.intCnt < nHup) (hcov : s.Covered s.helper.intCnt)
    (hpc : ∀ f, s.frame = some f → f.pc = .look ∨ f.pc = .waiting) : s.Awake := by
  refine ⟨hle, hlt, hcov, fun f c hf h => ?_, fun f c tSz hf h => ?_⟩ <;>
    rcases hpc f hf with hf' | hf' <;> rw [hf'] at h <;> contradiction

/-- An incomplete system call leaves the queue empty. -/
theorem avail_after_call {s : Direction} {f : TransferFrame} {tSz : Int} {err : ℕ} (curCnt : ℕ)
    (hallow : s.kernelAllows f (.call tSz err) = true)
    (hleft : 0 < (transferCall f curCnt tSz).dataLeft) : s.avail - tSz.toNat = 0 := by
  simp only [kernelAllows, Bool.ite_eq_true_distrib, decide_eq_true_eq] at hallow
  simp only [transferCall] at hleft
  split at hallow <;> omega

/-- Storing the snapshot after an incomplete system call keeps `intCnt` covered. -/
theorem Awake.settle {s t : Direction} (hs : s.Awake) {f : TransferFrame} {curCnt : ℕ} {tSz : Int}
    (hf : s.frame = some f) (hpc : f.pc = .settle curCnt tSz) (hleft : 0 < f.dataLeft)
    (hext : t.helper.extCnt = s.helper.extCnt)
    (hint : t.helper.intCnt = (s.helper.markSeen curCnt).intCnt) (havail : t.avail = s.avail)
    (hedge : s.EdgePending → t.EdgePending)
    (hframe : ∀ g, t.frame = some g → g.pc = .look ∨ g.pc = .waiting) : t.Awake := by
  have hset := hs.settled f curCnt tSz hf hpc
  have hseen : (s.helper.markSeen curCnt).intCnt ≤ s.helper.extCnt ∧
      (s.helper.markSeen curCnt).intCnt < nHup ∧
      s.Covered (s.helper.markSeen curCnt).intCnt := by
    unfold TCPCommHelper.markSeen
    split
    · rename_i hc
      exact ⟨hset.2.1, hc, hset.2.2 hc hleft⟩
    · exact ⟨hs.int_le_ext, hs.int_lt_hup, hs.covered⟩
  refine of_look (by rw [hext, hint]; exact hseen.1) (hint ▸ hseen.2.1) (fun hle => ?_) hframe
  rw [hext, hint] at hle
  rw [havail]
  exact (hseen.2.2 hle).imp_right hedge

/-- The steps of `Transfer` keep the invariant. -/
theorem Awake.transfer {s : Direction} {f : TransferFrame} {a : TransferAction}
    {r : TransferResult} (hs : s.Awake) (hf : s.frame = some f)
    (hallow : s.kernelAllows f a = true) (hmoves : TransferMoves s.helper s.errno f a r) :
    ({ s.resume r.helper r.errno r.outcome with avail := s.avail - a.size } : Direction).Awake := by
  cases hmoves with
  | blocked hpc hle =>
    refine of_look hs.int_le_ext hs.int_lt_hup hs.covered fun g hg => ?_
    cases hg
    exact .inr rfl
  | cancelled hpc hlt hcancel =>
    refine of_look hs.int_le_ext hs.int_lt_hup hs.covered fun g hg => ?_
    cases hg
  | snapshot hpc hlt hcancel =>
    refine ⟨hs.int_le_ext, hs.int_lt_hup, hs.covered, fun g c hg hc => ?_, fun g c tSz hg hc => ?_⟩
    · cases hg
      cases hc
      exact ⟨hlt, Nat.le_refl _⟩
    · cases hg
      cases hc
  | woken hpc =>
    refine of_look hs.int_le_ext hs.int_lt_hup hs.covered fun g hg => ?_
    cases hg
    exact .inl rfl
  | timedOut hpc =>
    refine of_look hs.int_le_ext hs.int_lt_hup hs.covered fun g hg => ?_
    cases hg
  | called curCnt tSz err hpc hge hle =>
    have hsnap := hs.snapshot f curCnt hf hpc
    refine ⟨hs.int_le_ext, hs.int_lt_hup, fun hblock => ?_, fun g c hg hc => ?_,
      fun g c sz hg hc => ?_⟩
    · -- a newer snapshot exists, so the counters cannot be level
      have : s.helper.extCnt ≤ s.helper.intCnt := hblock
      omega
    · cases hg
      cases hc
    · cases hg
      cases hc
      exact ⟨hsnap.1, hsnap.2, fun _ hleft _ => .inl (avail_after_call curCnt hallow hleft)⟩
  | complete curCnt tSz hpc hdone =>
    refine of_look hs.int_le_ext hs.int_lt_hup hs.covered fun g hg => ?_
    cases hg
  | partialDone curCnt tSz hpc hleft hwhole hpos =>
    refine hs.settle hf hpc hleft ?_ rfl rfl id fun g hg => ?_
    · exact TCPCommHelper.markSeen_extCnt _ _
    · cases hg
  | failed curCnt tSz hpc hleft hwhole hneg =>
    refine hs.settle hf hpc hleft ?_ ?_ rfl id fun g hg => ?_
    · simp only [resume, TCPCommHelper.markError_extCnt, TCPCommHelper.markSeen_extCnt]
    · exact TCPCommHelper.markError_intCnt _ _
    · cases hg
  | again curCnt tSz hpc hleft hwhole hok =>
    refine hs.settle hf hpc hleft ?_ ?_ rfl id fun g hg => ?_
    · simp only [resume, TCPCommHelper.markError_extCnt, TCPCommHelper.markSeen_extCnt]
    · exact TCPCommHelper.markError_intCnt _ _
    · cases hg
      exact .inl rfl

/-- Starting a call changes no counter. -/
theorem Awake.enter {s : Direction} (hs : s.Awake) (len : Int) (allowPartial : Bool) (err : ℕ) :
    (s.resume s.helper err (transferEnter s.helper len allowPartial)).Awake := by
  unfold transferEnter
  split_ifs
  · exact of_look hs.int_le_ext hs.int_lt_hup hs.covered fun g hg => by cases hg
  · exact of_look hs.int_le_ext hs.int_lt_hup hs.covered fun g hg => by cases hg
  · refine of_look hs.int_le_ext hs.int_lt_hup hs.covered fun g hg => ?_
    cases hg
    exact .inl rfl

/-- Every step keeps the invariant. -/
theorem awake_step {s t : Direction} {a : DirectionAction} (hs : s.Awake)
    (hstep : s.step a = some t) : t.Awake := by
  cases a with
  | arrive n =>
    simp only [step, Option.ite_none_right_eq_some, Option.some.injEq] at hstep
    obtain ⟨hn, rfl⟩ := hstep
    refine ⟨hs.int_le_ext, hs.int_lt_hup, fun _ => .inr (.inl rfl), hs.snapshot, ?_⟩
    intro f c tSz hf hpc
    have hset := hs.settled f c tSz hf hpc
    exact ⟨hset.1, hset.2.1, fun _ _ _ => .inr (.inl rfl)⟩
  | fetch =>
    simp only [step, Option.ite_none_right_eq_some, Option.some.injEq] at hstep
    obtain ⟨hraised, rfl⟩ := hstep
    have hcov : ∀ c, Covered { s with raised := false, fetched := decide (0 < s.avail) } c := by
      intro c _
      by_cases havail : s.avail = 0
      · exact .inl havail
      · exact .inr (.inr (by simpa using Nat.pos_of_ne_zero havail))
    refine ⟨hs.int_le_ext, hs.int_lt_hup, hcov _, hs.snapshot, ?_⟩
    intro f c tSz hf hpc
    have hset := hs.settled f c tSz hf hpc
    exact ⟨hset.1, hset.2.1, fun _ _ => hcov c⟩
  | deliver n =>
    simp only [step, Option.ite_none_right_eq_some, Option.some.injEq] at hstep
    obtain ⟨hfetched, rfl⟩ := hstep
    exact hs.notify n false
  | notify n =>
    simp only [step, Option.some.injEq] at hstep
    subst hstep
    exact hs.notify n s.fetched
  | enter len allowPartial err =>
    simp only [step] at hstep
    split at hstep
    · simp only [Option.some.injEq] at hstep
      subst hstep
      exact hs.enter len allowPartial err
    · contradiction
  | transfer a =>
    simp only [step] at hstep
    split at hstep
    · contradiction
    · rename_i f hf
      simp only [Option.ite_none_right_eq_some, Option.map_eq_some_iff] at hstep
      obtain ⟨hallow, r, hr, rfl⟩ := hstep
      exact hs.transfer hf hallow (transferStep_moves hr)

/-- A fresh helper has one notification counted and none consumed. -/
theorem Fresh.awake {s : Direction} (h : s.Fresh) : s.Awake := by
  obtain ⟨hhelper, hframe⟩ := h
  have hext : s.helper.extCnt = 1 := by rw [hhelper]; rfl
  have hint : s.helper.intCnt = 0 := by rw [hhelper]; rfl
  refine .of_look (by omega) (by rw [hint]; decide) (fun hle => ?_) fun f hf => ?_
  · omega
  · rw [hframe] at hf
    contradiction

/-- No lost wakeup. In every state of every run, if the next step of `Transfer` would block,
then nothing is available in the kernel or an edge event is still on its way. -/
theorem no_lost_wakeup {s₀ s : Direction} {actions : List DirectionAction} (hfresh : s₀.Fresh)
    (hrun : runActions step s₀ actions = some s) (hblock : s.helper.extCnt ≤ s.helper.intCnt) :
    s.avail = 0 ∨ s.EdgePending := by
  have hawake : s.Awake := runActions_invariant (fun _ _ _ h hstep => awake_step h hstep)
    hfresh.awake hrun
  exact hawake.covered hblock

/-- A short read drains the queue and consumes the notification; the next call would block,
and the data that arrives meanwhile has an edge on its way. -/
theorem no_lost_wakeup_short_read :
    let s₀ : Direction := ⟨newTCPCommHelper 5 true, 0, none, 3, false, false⟩
    let actions : List DirectionAction := [.enter 8 true 0, .transfer .look, .transfer (.call 3 0),
      .arrive 2, .transfer .settle]
    ∃ s, runActions step s₀ actions = some s ∧ s.helper.extCnt ≤ s.helper.intCnt ∧
      (s.avail = 0 ∨ s.EdgePending) := by
  intro s₀ actions
  have hrun : runActions step s₀ actions =
      some ⟨⟨5, true, 1, 1, 0⟩, 0, none, 2, true, false⟩ := by decide
  exact ⟨_, hrun, by decide, no_lost_wakeup ⟨rfl, rfl⟩ hrun (by decide)⟩

end Direction

end TinySox
