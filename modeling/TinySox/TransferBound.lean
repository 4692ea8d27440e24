import TinySox.TransferCall

/-!
# A call of `Transfer` does not spin

Every iteration that ends without a result has stored its snapshot, so the next system call needs a
notification that came after the snapshot. A potential that counts what the call can still do
without one bounds its system calls, and its steps as long as a wait without notification ends by
its timeout.
-/

namespace TinySox

open TinySox.Common

namespace TransferCall

/-- There was a notification after the snapshot, which is no reserved value. -/
abbrev Outdated (c : TransferCall) (curCnt : ℕ) : Prop :=
  curCnt < nHup ∧ curCnt < c.helper.extCnt

/-- The system calls that are possible without a further notification. -/
def callsLeft (c : TransferCall) : ℕ :=
  match c.outcome with
  | .returned _ => 0
  | .running f =>
    match f.pc with
    | .look | .waiting => if c.helper.extCnt ≤ c.helper.intCnt then 0 else 1
    | .call curCnt => if c.Outdated curCnt then 2 else 1
    | .settle curCnt _ => if c.Outdated curCnt then 1 else 0

/-- The steps that are possible without a further notification. -/
def stepsLeft (c : TransferCall) : ℕ :=
  match c.outcome with
  | .returned _ => 0
  | .running f =>
    match f.pc with
    | .look => if c.helper.extCnt ≤ c.helper.intCnt then 2 else 5
    | .waiting => if c.helper.extCnt ≤ c.helper.intCnt then 1 else 6
    | .call curCnt => if c.Outdated curCnt then 7 else 4
    | .settle curCnt _ => if c.Outdated curCnt then 6 else 3

/-- A wait ends by its timeout, if there was no notification. -/
def WaitsTimeOut (c : TransferCall) : CallAction → Prop
  | .transfer .wake _ => c.helper.intCnt < c.helper.extCnt
  | _ => True

instance (c : TransferCall) (act : CallAction) : Decidable (c.WaitsTimeOut act) :=
  match act with
  | .transfer .wake _ => inferInstanceAs (Decidable (c.helper.intCnt < c.helper.extCnt))
  | .notice _ | .transfer .look _ | .transfer .timeout _ | .transfer (.call _ _) _
  | .transfer .settle _ => isTrue trivial

variable {c c' : TransferCall} {act : CallAction}

/-- A notification allows for one more system call and five more steps. -/
theorem notice_adds (c : TransferCall) (n : Notice) :
    callsLeft { c with helper := c.helper.notify n } ≤ c.callsLeft + 1 ∧
      stepsLeft { c with helper := c.helper.notify n } ≤ c.stepsLeft + 5 := by
  have hmono := c.helper.extCnt_le_notify n
  have hint := c.helper.notify_intCnt n
  unfold callsLeft stepsLeft
  cases c.outcome with
  | returned v => exact ⟨Nat.zero_le _, Nat.zero_le _⟩
  | running f =>
    dsimp only
    cases hpc : f.pc with
    | look =>
      dsimp only
      split_ifs <;> omega
    | waiting =>
      dsimp only
      split_ifs <;> omega
    | call curCnt =>
      dsimp only [Outdated]
      split_ifs <;> omega
    | settle curCnt tSz =>
      dsimp only [Outdated]
      split_ifs <;> omega

/-- A call that goes round again has stored its snapshot. -/
theorem stored_of_again {h : TCPCommHelper} {errno curCnt : ℕ}
    (hok : 0 ≤ ((h.markSeen curCnt).markError errno).status) :
    curCnt < nHup ∧ ((h.markSeen curCnt).markError errno).intCnt = curCnt := by
  have hlt : curCnt < nHup := by
    by_contra hhup
    have hseen : (h.markSeen curCnt).status = -1 := by
      rw [TCPCommHelper.markSeen, if_neg hhup]
    unfold TCPCommHelper.markError at hok
    split at hok
    · dsimp only at hok
      omega
    · omega
  rw [TCPCommHelper.markError_intCnt, TCPCommHelper.markSeen, if_pos hlt]
  exact ⟨hlt, rfl⟩

/-- A system call uses up one of those that were left, and no step adds to them. -/
theorem callsLeft_step (hstep : c.step act = some c') :
    c'.callsLeft + (if act.isSystemCall then 1 else 0) ≤
      c.callsLeft + if act.isNotice then 1 else 0 := by
  cases step_moves hstep with
  | notice n => exact (c.notice_adds n).1
  | transfer f a block r hrunning hlen hwrite hmoves =>
    unfold callsLeft
    rw [hrunning]
    cases hmoves with
    | blocked hpc hle | snapshot hpc hlt hcancel | woken hpc | called curCnt tSz err hpc hge hle =>
      simp only [hpc, CallAction.isSystemCall, CallAction.isNotice, Outdated, transferCall]
      split_ifs <;> omega
    | again curCnt tSz hpc hleft hwhole hok =>
      obtain ⟨hlt, hint⟩ := stored_of_again hok
      simp only [hpc, CallAction.isSystemCall, CallAction.isNotice, Outdated, hint,
        TCPCommHelper.markError_extCnt, TCPCommHelper.markSeen_extCnt]
      split_ifs <;> omega
    | cancelled | timedOut | complete | partialDone | failed => exact Nat.zero_le _

/-- A running call has a step left. -/
theorem stepsLeft_pos {f : TransferFrame} (hrunning : c.outcome = .running f) :
    1 ≤ c.stepsLeft := by
  rw [stepsLeft, hrunning]
  dsimp only
  cases f.pc with
  | look | waiting | call | settle =>
    dsimp only
    split_ifs <;> decide

/-- A step of the thread uses up one of those that were left, and no step adds to them. -/
theorem stepsLeft_step (hwaits : c.WaitsTimeOut act) (hstep : c.step act = some c') :
    c'.stepsLeft + (if act.isStep then 1 else 0) ≤
      c.stepsLeft + if act.isNotice then 5 else 0 := by
  cases step_moves hstep with
  | notice n => exact (c.notice_adds n).2
  | transfer f a block r hrunning hlen hwrite hmoves =>
    have hpos := stepsLeft_pos hrunning
    unfold stepsLeft
    rw [hrunning]
    cases hmoves with
    | woken hpc =>
      have hlt : c.helper.intCnt < c.helper.extCnt := hwaits
      simp only [hpc, CallAction.isStep, CallAction.isNotice]
      split_ifs <;> omega
    | again curCnt tSz hpc hleft hwhole hok =>
      obtain ⟨hlt, hint⟩ := stored_of_again hok
      simp only [hpc, CallAction.isStep, CallAction.isNotice, Outdated, hint,
        TCPCommHelper.markError_extCnt, TCPCommHelper.markSeen_extCnt]
      split_ifs <;> omega
    | blocked hpc | snapshot hpc | called curCnt tSz err hpc =>
      simp only [hpc, CallAction.isStep, CallAction.isNotice, Outdated, transferCall]
      split_ifs <;> omega
    | cancelled | timedOut | complete | partialDone | failed =>
      rw [stepsLeft, hrunning] at hpos
      exact hpos

/-- A call that has not returned can go on, and where it waits without a notification, this is the
timeout. -/
theorem can_step {f : TransferFrame} (hrunning : c.outcome = .running f) :
    ∃ act, act.isStep = true ∧ c.WaitsTimeOut act ∧ (c.step act).isSome = true := by
  have hmove (a : TransferAction) (hsize : a.size = 0) (hwaits : c.WaitsTimeOut (.transfer a []))
      (hstep : (transferStep c.helper c.errno f a).isSome = true) :
      ∃ act, act.isStep = true ∧ c.WaitsTimeOut act ∧ (c.step act).isSome = true := by
    refine ⟨.transfer a [], rfl, hwaits, ?_⟩
    have hcan : c.canMove f a [] = true := by simp [canMove, hsize]
    rw [step, hrunning]
    dsimp only
    rw [if_pos hcan, Option.isSome_map]
    exact hstep
  cases hpc : f.pc with
  | look =>
    apply hmove .look rfl trivial
    simp [transferStep, hpc]
  | waiting =>
    apply hmove .timeout rfl trivial
    simp [transferStep, hpc]
  | call curCnt =>
    apply hmove (.call (-1) eagain) rfl trivial
    simp only [transferStep, hpc]
    rw [if_pos ⟨Int.le_refl _, by omega⟩]
    rfl
  | settle curCnt tSz =>
    apply hmove .settle rfl trivial
    simp [transferStep, hpc]

/-- With `k` notices during the call, it makes at most `k + 1` system calls. If its waits time out
where there was no notification, it takes a bounded number of steps, and it can always take one
until it has returned. -/
theorem transfer_bounded (helper : TCPCommHelper) (errno : ℕ) (target : Bytes) (len : Int)
    (allowPartial : Bool) (actions : List CallAction) (c : TransferCall)
    (hrun : runActions step (start helper errno target len allowPartial) actions = some c) :
    actions.countP CallAction.isSystemCall ≤ actions.countP CallAction.isNotice + 1 ∧
    (RunMeets step WaitsTimeOut (start helper errno target len allowPartial) actions →
      actions.countP CallAction.isStep ≤ 5 * actions.countP CallAction.isNotice + 5) ∧
    ((∃ v, c.outcome = .returned v) ∨
      ∃ act, act.isStep = true ∧ c.WaitsTimeOut act ∧ (c.step act).isSome = true) := by
  have hbegin : (start helper errno target len allowPartial).callsLeft ≤ 1 ∧
      (start helper errno target len allowPartial).stepsLeft ≤ 5 := by
    rw [callsLeft, stepsLeft]
    cases hout : (start helper errno target len allowPartial).outcome with
    | returned v => exact ⟨Nat.zero_le _, Nat.zero_le _⟩
    | running f =>
      obtain ⟨-, hlook, -⟩ := transferEnter_running hout
      dsimp only
      rw [hlook]
      dsimp only
      split_ifs <;> decide
  refine ⟨?_, fun hwaits => ?_, ?_⟩
  · have hmeets : RunMeets step (fun _ _ => True) _ actions :=
      RunMeets.of_forall (fun _ _ => trivial) (start helper errno target len allowPartial) actions
    have hcount : c.callsLeft + actions.countP CallAction.isSystemCall ≤
        (start helper errno target len allowPartial).callsLeft +
          1 * actions.countP CallAction.isNotice :=
      runActions_countP_le (fun _ _ _ _ hstep => callsLeft_step hstep) hmeets hrun
    omega
  · have hcount : c.stepsLeft + actions.countP CallAction.isStep ≤
        (start helper errno target len allowPartial).stepsLeft +
          5 * actions.countP CallAction.isNotice :=
      runActions_countP_le (fun _ _ _ hmeets hstep => stepsLeft_step hmeets hstep) hwaits hrun
    omega
  · cases hout : c.outcome with
    | returned v => exact .inl ⟨v, rfl⟩
    | running f => exact .inr (can_step hout)

/-- A write of two bytes in two pieces makes two system calls, with one notice in between. -/
theorem transfer_bounded_twoPieces :
    let actions := writeFirst ++ writeSecond
    actions.countP CallAction.isNotice = 1 ∧ actions.countP CallAction.isSystemCall = 2 ∧
      actions.countP CallAction.isSystemCall ≤ actions.countP CallAction.isNotice + 1 ∧
      actions.countP CallAction.isStep ≤ 5 * actions.countP CallAction.isNotice + 5 := by
  have hbounded := transfer_bounded (newTCPCommHelper 5 false) eagain [1, 2] 2 false
    (writeFirst ++ writeSecond) _ rfl
  exact ⟨rfl, rfl, hbounded.1, hbounded.2.1 (by decide)⟩

end TransferCall

end TinySox
