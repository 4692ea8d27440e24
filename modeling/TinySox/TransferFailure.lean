import TinySox.TransferCall

/-!
# When a call of `Transfer` fails

A call may fail for a cancel, for a HUP that leaves data behind, for an end of the stream, or for an
error of the system call. It also fails without any of these: after a system call that moved only a
part of a transfer that may not be partial, `errno` is tested although nothing has set it. A call
fails for a reason exactly if it does not come to that.
-/

namespace TinySox

open TinySox.Common

/-- The next statement tests an `errno` that this call has not set, and fails. -/
def TransferFrame.failsShort (f : TransferFrame) (errno : ℕ) : Bool :=
  match f.pc with
  | .settle curCnt _ => decide (curCnt < nHup) && f.misreadsErrno errno
  | _ => false

/-- The snapshot was a HUP, and there is data left after the system call. -/
def TransferFrame.leavesData (f : TransferFrame) : Bool :=
  match f.pc with
  | .settle curCnt _ => decide (curCnt = nHup ∧ 0 < f.dataLeft)
  | _ => false

namespace TransferCall

/-- The step fails because of a stale `errno`. -/
def misjudges (c : TransferCall) (act : CallAction) : Bool :=
  match c.outcome, act with
  | .running f, .transfer .settle _ => f.failsShort c.errno
  | _, _ => false

/-- The step shows a reason for a failure: a snapshot of a cancel, a HUP with data left, a system
call that returns 0, or one that fails with an error. -/
def justifies (c : TransferCall) (act : CallAction) : Bool :=
  match c.outcome, act with
  | .running _, .transfer .look _ =>
    decide (c.helper.intCnt < c.helper.extCnt ∧ c.helper.extCnt = nCancel)
  | .running _, .transfer (.call tSz err) _ => decide (tSz = 0 ∨ (tSz = -1 ∧ err ≠ eagain))
  | .running f, .transfer .settle _ => f.leavesData
  | _, _ => false

/-- The call has returned a negative value, or has made the status negative. -/
def Failed (c : TransferCall) : Prop :=
  c.helper.status < 0 ∨ ∃ v, c.outcome = .returned v ∧ v < 0

/-- Where a call stands that has seen no reason for a failure. -/
def TransferPc.Unblamed (errno : ℕ) : TransferPc → Prop
  | .call curCnt => curCnt ≤ nHup
  | .settle curCnt tSz => curCnt ≤ nHup ∧ (tSz ≤ 0 → errno = eagain)
  | _ => True

/-- Nothing has failed, and there was no reason for it. -/
structure Healthy (c : TransferCall) : Prop where
  word : c.helper.extCnt ≤ nCancel
  status : 0 ≤ c.helper.status
  value : ∀ v, c.outcome = .returned v → 0 ≤ v
  running : ∀ f, c.outcome = .running f → f.Sound ∧ TransferPc.Unblamed c.errno f.pc

variable {c c' : TransferCall} {act : CallAction}

/-- A notice leaves the counter a 64-bit word. -/
theorem notify_word {h : TCPCommHelper} (hword : h.extCnt ≤ nCancel) (n : Notice) :
    (h.notify n).extCnt ≤ nCancel := by
  have hnext := nHup_succ
  cases n <;>
    simp only [TCPCommHelper.notify, TCPCommHelper.notifyDataAvail, TCPCommHelper.notifyHUP,
      TCPCommHelper.cancel] <;> grind

/-- After a system call of a healthy call, its snapshot was no HUP unless that is a reason. -/
theorem Healthy.snapshot_lt (h : c.Healthy) {f : TransferFrame} {block : Bytes} {curCnt : ℕ}
    {tSz : Int} (hrunning : c.outcome = .running f) (hpc : f.pc = .settle curCnt tSz)
    (hleft : 1 ≤ f.dataLeft) (hreason : c.justifies (.transfer .settle block) = false) :
    curCnt < nHup ∧ (tSz ≤ 0 → c.errno = eagain) := by
  have hunblamed := (h.running f hrunning).2
  rw [hpc] at hunblamed
  simp only [justifies, hrunning, TransferFrame.leavesData, hpc, decide_eq_false_iff_not] at hreason
  have hne : curCnt ≠ nHup := fun heq => hreason ⟨heq, hleft⟩
  exact ⟨Nat.lt_of_le_of_ne hunblamed.1 hne, hunblamed.2⟩

/-- A step without a reason for a failure, and without a stale `errno`, does not fail. -/
theorem Healthy.step (h : c.Healthy) (hreason : c.justifies act = false)
    (hjudged : c.misjudges act = false) (hstep : c.step act = some c') : c'.Healthy := by
  cases step_moves hstep with
  | notice n =>
    constructor
    · exact notify_word h.word n
    · dsimp only
      rw [TCPCommHelper.notify_status]
      exact h.status
    · exact h.value
    · exact h.running
  | transfer f a block r hrunning hlen hwrite hmoves =>
    obtain ⟨hsound, hunblamed⟩ := h.running f hrunning
    have hkeeps (g : TransferFrame) (hg : r.outcome = .running g) : g.Sound :=
      (hmoves.sound_running hsound hg).1
    cases hmoves with
    | blocked | woken =>
      refine ⟨h.word, h.status, (fun v hv => by cases hv), fun g hg => ⟨hkeeps g hg, ?_⟩⟩
      cases hg
      trivial
    | cancelled hpc hlt hcancel =>
      unfold justifies at hreason
      rw [hrunning] at hreason
      replace hreason := of_decide_eq_false hreason
      exact (hreason ⟨hlt, hcancel⟩).elim
    | snapshot hpc hlt hcancel =>
      refine ⟨h.word, h.status, (fun v hv => by cases hv), fun g hg => ⟨hkeeps g hg, ?_⟩⟩
      cases hg
      have hword := h.word
      have hnext := nHup_succ
      change c.helper.extCnt ≤ nHup
      omega
    | timedOut =>
      refine ⟨h.word, h.status, fun v hv => ?_, fun g hg => by cases hg⟩
      cases hv
      exact Int.le_refl 0
    | called curCnt tSz err hpc hge hle =>
      refine ⟨h.word, h.status, (fun v hv => by cases hv), fun g hg => ⟨hkeeps g hg, ?_⟩⟩
      cases hg
      unfold justifies at hreason
      rw [hrunning] at hreason
      replace hreason := of_decide_eq_false hreason
      rw [hpc] at hunblamed
      refine ⟨hunblamed, fun htSz => ?_⟩
      by_cases hneg : tSz < 0
      · rw [if_pos hneg]
        by_contra herr
        exact hreason (.inr ⟨by omega, herr⟩)
      · exact (hreason (.inl (by omega))).elim
    | complete curCnt tSz hpc hdone =>
      refine ⟨h.word, h.status, fun v hv => ?_, fun g hg => by cases hg⟩
      cases hv
      exact Int.natCast_nonneg f.len
    | partialDone curCnt tSz hpc hleft hwhole hpos =>
      obtain ⟨hlt, -⟩ := h.snapshot_lt hrunning hpc hleft hreason
      have hsame : (c.helper.markSeen curCnt).status = c.helper.status :=
        TCPCommHelper.markSeen_status hlt
      have hword := TCPCommHelper.markSeen_extCnt c.helper curCnt
      refine ⟨?_, ?_, fun v hv => ?_, fun g hg => by cases hg⟩
      · dsimp only
        rw [hword]
        exact h.word
      · dsimp only
        rw [hsame]
        exact h.status
      · cases hv
        have hle := hsound.left_le
        omega
    | failed curCnt tSz hpc hleft hwhole hneg =>
      obtain ⟨hlt, herrno⟩ := h.snapshot_lt hrunning hpc hleft hreason
      rcases TCPCommHelper.markError_status_neg hneg with hseen | herr
      · rw [TCPCommHelper.markSeen_status hlt] at hseen
        exact absurd h.status (by omega)
      · have hpos : 0 < tSz := by
          by_contra hnot
          exact herr (herrno (by omega))
        have hshort : f.allowPartial = false := by
          by_contra htrue
          have hle := hwhole (Bool.of_not_eq_false htrue)
          omega
        have hleft' : 0 < f.dataLeft := hleft
        have htrue : c.misjudges (.transfer .settle block) = true := by
          simp [misjudges, hrunning, TransferFrame.failsShort, hpc, TransferFrame.misreadsErrno,
            hshort, hlt, hpos, hleft', herr]
        rw [htrue] at hjudged
        contradiction
    | again curCnt tSz hpc hleft hwhole hok =>
      refine ⟨?_, hok, (fun v hv => by cases hv), fun g hg => ⟨hkeeps g hg, ?_⟩⟩
      · dsimp only
        rw [TCPCommHelper.markError_extCnt, TCPCommHelper.markSeen_extCnt]
        exact h.word
      · cases hg
        trivial

/-- A call that starts on a helper that works is healthy. -/
theorem healthy_start {helper : TCPCommHelper} {errno : ℕ} {target : Bytes} {len : Int}
    {allowPartial : Bool} (hword : helper.extCnt ≤ nCancel) (hstatus : 0 ≤ helper.status) :
    (start helper errno target len allowPartial).Healthy := by
  refine ⟨hword, hstatus, fun v hv => ?_, fun f hf => ?_⟩
  · rcases transferEnter_returned hv with hneg | hzero
    · omega
    · omega
  · obtain ⟨hsound, hpc, -⟩ := transferEnter_running hf
    rw [hpc]
    exact ⟨hsound, trivial⟩

/-- The call has no stale `errno`, or it will not look at it any more. -/
def Clear (c : TransferCall) : Prop :=
  ∀ f, c.outcome = .running f → c.errno = eagain ∨ ∃ curCnt tSz, f.pc = .settle curCnt tSz ∧ tSz ≤ 0

/-- A clear call does not misjudge. -/
theorem Clear.not_misjudges (h : c.Clear) (act : CallAction) : c.misjudges act = false := by
  have hframe (f : TransferFrame) (hrunning : c.outcome = .running f) :
      f.failsShort c.errno = false := by
    rcases h f hrunning with herrno | ⟨curCnt, tSz, hpc, htSz⟩
    · cases hpc : f.pc <;>
        simp [TransferFrame.failsShort, TransferFrame.misreadsErrno, hpc, herrno]
    · have hnot : ¬0 < tSz := by omega
      simp [TransferFrame.failsShort, TransferFrame.misreadsErrno, hpc, hnot]
  unfold misjudges
  split
  · rename_i f block hrunning
    exact hframe f hrunning
  · rfl

/-- A call that goes round again has found `errno` as it should be. -/
theorem errno_of_again {h : TCPCommHelper} {errno : ℕ}
    (hok : 0 ≤ (h.markError errno).status) : errno = eagain := by
  by_contra herr
  rw [TCPCommHelper.markError, if_pos herr] at hok
  dsimp only at hok
  omega

/-- A clear call stays clear, and a call that shows a reason for a failure becomes clear. -/
theorem Clear.of_step (h : c.Clear ∨ c.justifies act = true) (hstep : c.step act = some c') :
    c'.Clear := by
  cases step_moves hstep with
  | notice n =>
    rcases h with h | hreason
    · exact h
    · unfold justifies at hreason
      split at hreason <;> contradiction
  | transfer f a block r hrunning hlen hwrite hmoves =>
    have herrno (hpc : f.pc.idle = true) (hclear : c.Clear) : c.errno = eagain := by
      rcases hclear f hrunning with herrno | ⟨curCnt, tSz, hsettle, -⟩
      · exact herrno
      · rw [hsettle] at hpc
        contradiction
    intro g hg
    cases hmoves with
    | blocked hpc hle =>
      rcases h with h | hreason
      · exact .inl (herrno (by rw [hpc]; rfl) h)
      · unfold justifies at hreason
        rw [hrunning] at hreason
        replace hreason := of_decide_eq_true hreason
        omega
    | snapshot hpc hlt hcancel =>
      rcases h with h | hreason
      · exact .inl (herrno (by rw [hpc]; rfl) h)
      · unfold justifies at hreason
        rw [hrunning] at hreason
        replace hreason := of_decide_eq_true hreason
        exact (hcancel hreason.2).elim
    | woken hpc =>
      rcases h with h | hreason
      · exact .inl (herrno (by rw [hpc]; rfl) h)
      · unfold justifies at hreason
        rw [hrunning] at hreason
        contradiction
    | called curCnt tSz err hpc hge hle =>
      cases hg
      by_cases hpos : tSz ≤ 0
      · exact .inr ⟨curCnt, tSz, rfl, hpos⟩
      · rcases h with h | hreason
        · have hnot : ¬tSz < 0 := by omega
          dsimp only
          rw [if_neg hnot]
          exact .inl (herrno (by rw [hpc]; rfl) h)
        · unfold justifies at hreason
          rw [hrunning] at hreason
          replace hreason := of_decide_eq_true hreason
          omega
    | again curCnt tSz hpc hleft hwhole hok => exact .inl (errno_of_again hok)
    | cancelled | timedOut | complete | partialDone | failed => contradiction

/-- A clear call never misjudges. -/
theorem Clear.never_misjudges {actions : List CallAction} (h : c.Clear) :
    ¬RunShows step (fun c act => c.misjudges act = true) c actions := by
  induction actions generalizing c with
  | nil => exact fun hshows => hshows
  | cons act rest ih =>
    intro hshows
    rcases hshows with hnow | hlater
    · rw [h.not_misjudges act] at hnow
      contradiction
    · cases hstep : c.step act with
      | none =>
        rw [hstep] at hlater
        exact hlater
      | some t =>
        rw [hstep] at hlater
        exact ih (.of_step (.inl h) hstep) hlater

/-- The system call moved a part of a transfer that may not be partial, and `errno` is stale. -/
theorem TransferFrame.failsShort_iff {f : TransferFrame} {errno : ℕ} :
    f.failsShort errno = true ↔ ∃ curCnt tSz, f.pc = .settle curCnt tSz ∧ curCnt < nHup ∧
      f.allowPartial = false ∧ 0 < tSz ∧ 0 < f.dataLeft ∧ errno ≠ eagain := by
  cases hpc : f.pc <;> simp [TransferFrame.failsShort, TransferFrame.misreadsErrno, hpc]

/-- The call that misjudges fails, and has no reason for that at this step. -/
theorem failed_of_misjudges (hjudged : c.misjudges act = true) (hstep : c.step act = some c') :
    c.justifies act = false ∧ c'.helper.status < 0 ∧ ∃ v, c'.outcome = .returned v := by
  unfold misjudges at hjudged
  split at hjudged
  · rename_i f block hrunning
    obtain ⟨curCnt, tSz, hpc, hlt, hshort, hpos, hleft, herr⟩ :=
      TransferFrame.failsShort_iff.mp hjudged
    have hreason : c.justifies (.transfer .settle block) = false := by
      unfold justifies
      rw [hrunning]
      simp only [TransferFrame.leavesData, hpc, decide_eq_false_iff_not]
      omega
    apply And.intro hreason
    cases step_moves hstep with
    | transfer f' a block r hrunning' hlen hwrite hmoves =>
      rw [hrunning] at hrunning'
      cases hrunning'
      cases hmoves with
      | complete curCnt' tSz' hpc' hdone => omega
      | partialDone curCnt' tSz' hpc' hleft' hwhole =>
        rw [hshort] at hwhole
        contradiction
      | failed curCnt' tSz' hpc' hleft' hwhole hneg => exact ⟨hneg, _, rfl⟩
      | again curCnt' tSz' hpc' hleft' hwhole hok => exact (herr (errno_of_again hok)).elim
  · contradiction

/-- A call that has returned shows no further reason, and its status stays as it is. -/
theorem returned_stays (actions : List CallAction) {v : Int} (hout : c.outcome = .returned v) :
    ¬RunShows step (fun c act => c.justifies act = true) c actions ∧
      ∀ c', runActions step c actions = some c' → c'.helper.status = c.helper.status := by
  induction actions generalizing c with
  | nil =>
    refine ⟨fun hshows => hshows, fun c' hrun => ?_⟩
    cases hrun
    rfl
  | cons act rest ih =>
    cases act with
    | notice n =>
      have hout' : ({ c with helper := c.helper.notify n } : TransferCall).outcome =
          .returned v := hout
      obtain ⟨hnever, hstatus⟩ := ih hout'
      constructor
      · rintro (hnow | hlater)
        · unfold justifies at hnow
          rw [hout] at hnow
          contradiction
        · exact hnever hlater
      · intro c' hrun
        rw [hstatus c' hrun, TCPCommHelper.notify_status]
    | transfer a block =>
      have hnone : c.step (.transfer a block) = none := by
        rw [step, hout]
      constructor
      · rintro (hnow | hlater)
        · unfold justifies at hnow
          rw [hout] at hnow
          contradiction
        · rw [hnone] at hlater
          exact hlater
      · intro c' hrun
        rw [runActions, hnone] at hrun
        contradiction

/-- A call that misjudges fails without a reason. -/
theorem unjustified_of_misjudges {actions : List CallAction}
    (hshows : RunShows step (fun c act => c.misjudges act = true) c actions)
    (hrun : runActions step c actions = some c') :
    c'.helper.status < 0 ∧ ¬RunShows step (fun c act => c.justifies act = true) c actions := by
  induction actions generalizing c with
  | nil => exact hshows.elim
  | cons act rest ih =>
    obtain ⟨t, hstep, hrest⟩ := (runActions_cons_eq_some _ _ _ _ _).mp hrun
    rw [RunShows, hstep, Option.elim_some] at hshows ⊢
    rcases hshows with hnow | hlater
    · obtain ⟨hreason, hneg, v, hout⟩ := failed_of_misjudges hnow hstep
      obtain ⟨hnever, hstatus⟩ := returned_stays rest hout
      refine ⟨by rw [hstatus c' hrest]; exact hneg, ?_⟩
      rintro (hreason' | hlater)
      · rw [hreason] at hreason'
        contradiction
      · exact hnever hlater
    · obtain ⟨hneg, hnever⟩ := ih hlater hrest
      refine ⟨hneg, ?_⟩
      rintro (hreason | hlater')
      · exact Clear.never_misjudges (.of_step (.inr hreason) hstep) hlater
      · exact hnever hlater'

/-- On a helper that works, every failure of a call has a reason if and only if the call does not
look at a stale `errno`. -/
theorem justified_iff_not_misjudged (helper : TCPCommHelper) (errno : ℕ) (target : Bytes)
    (len : Int) (allowPartial : Bool) (hword : helper.extCnt ≤ nCancel)
    (hstatus : 0 ≤ helper.status) (actions : List CallAction) (c : TransferCall)
    (hrun : runActions step (start helper errno target len allowPartial) actions = some c) :
    (c.Failed → RunShows step (fun c act => c.justifies act = true)
        (start helper errno target len allowPartial) actions) ↔
      RunMeets step (fun c act => ¬c.misjudges act = true)
        (start helper errno target len allowPartial) actions := by
  constructor
  · intro hclaim
    apply not_runShows.mp
    intro hshows
    obtain ⟨hneg, hnever⟩ := unjustified_of_misjudges hshows hrun
    exact hnever (hclaim (.inl hneg))
  · intro hmeets hfailed
    by_contra hnever
    have hboth := hmeets.and (not_runShows.mp hnever)
    have hhealthy : c.Healthy := by
      apply runActions_invariant_of_meets _ (healthy_start hword hstatus) hboth hrun
      intro s a t hs hcond hstep
      exact hs.step (Bool.eq_false_iff.mpr hcond.2) (Bool.eq_false_iff.mpr hcond.1) hstep
    rcases hfailed with hneg | ⟨v, hout, hneg⟩
    · exact absurd hhealthy.status (by omega)
    · exact absurd (hhealthy.value v hout) (by omega)

/-- A write of two bytes in two pieces does not fail where `errno` is left at `EAGAIN`. -/
theorem justified_iff_not_misjudged_wouldBlock :
    ∃ c, runActions step (start (newTCPCommHelper 5 false) eagain [1, 2] 2 false)
        (writeFirst ++ writeSecond) = some c ∧ c.outcome = .returned 2 ∧
      (c.Failed → RunShows step (fun c act => c.justifies act = true)
        (start (newTCPCommHelper 5 false) eagain [1, 2] 2 false) (writeFirst ++ writeSecond)) :=
  ⟨_, rfl, rfl, (justified_iff_not_misjudged (newTCPCommHelper 5 false) eagain [1, 2] 2 false
    (by decide) (by decide) (writeFirst ++ writeSecond) _ rfl).mpr (by decide)⟩

/-- The same write fails after its first byte where another value was left. -/
theorem short_write_fails :
    ∃ c, runActions step (start (newTCPCommHelper 5 false) 104 [1, 2] 2 false)
        [.transfer .look [], .transfer (.call 1 0) [1], .transfer .settle []] = some c ∧
      c.outcome = .returned (-1) ∧ c.helper.status = -1 ∧
      ¬RunShows step (fun c act => c.justifies act = true)
        (start (newTCPCommHelper 5 false) 104 [1, 2] 2 false)
        [.transfer .look [], .transfer (.call 1 0) [1], .transfer .settle []] :=
  ⟨_, rfl, rfl, rfl, not_runShows.mpr (by decide)⟩

end TransferCall

end TinySox
