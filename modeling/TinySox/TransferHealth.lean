import TinySox.CommHelper

/-!
# A transfer on a connection that works

While no HUP and no cancel is recorded, and a system call without bytes means that it would
block, a `Transfer` fails in one way only: after a short system call that succeeded, it
tests an `errno` that no call of this transfer has set. If it does not come to that, the
helper stays usable and no result is negative.
-/

namespace TinySox

/-- The next statement tests `errno` after a system call that moved some bytes, and finds
another value than "would block". -/
def TransferFrame.misreadsErrno (f : TransferFrame) (errno : ℕ) : Bool :=
  match f.pc with
  | .settle _ tSz => !f.allowPartial && decide (0 < tSz ∧ 0 < f.dataLeft ∧ errno ≠ eagain)
  | _ => false

/-- The snapshot is no reserved value, and a system call without bytes would have blocked. -/
def TransferPc.Usable (errno : ℕ) : TransferPc → Prop
  | .call c => c < nHup
  | .settle c tSz => c < nHup ∧ (tSz ≤ 0 → errno = eagain)
  | _ => True

namespace TCPCommHelper

/-- Only a snapshot of a HUP makes the status negative after a short transfer. -/
theorem markSeen_status_neg {h : TCPCommHelper} {c : ℕ} (hneg : (h.markSeen c).status < 0) :
    h.status < 0 ∨ nHup ≤ c := by
  unfold markSeen at hneg
  split at hneg
  · exact .inl hneg
  · exact .inr (by omega)

/-- Only an error other than "would block" makes the status negative after that. -/
theorem markError_status_neg {h : TCPCommHelper} {errno : ℕ}
    (hneg : (h.markError errno).status < 0) : h.status < 0 ∨ errno ≠ eagain := by
  unfold markError at hneg
  split at hneg
  · exact .inr ‹_›
  · exact .inl hneg

/-- An unreserved snapshot leaves the status alone. -/
theorem markSeen_status {h : TCPCommHelper} {c : ℕ} (hc : c < nHup) :
    (h.markSeen c).status = h.status := by
  rw [markSeen, if_pos hc]

/-- The notice is one of data, and lifts the counter to `N_HUP`. -/
def overcounts (h : TCPCommHelper) : Notice → Bool
  | .dataAvail => h.extCnt + 1 = nHup
  | _ => false

/-- Counting a notification stays below the reserved values, as long as it does not reach one. -/
theorem notifyDataAvail_lt {h : TCPCommHelper} (hfew : h.overcounts .dataAvail = false) :
    h.notifyDataAvail.extCnt < nHup ↔ h.extCnt < nHup := by
  have hne : h.extCnt + 1 ≠ nHup := of_decide_eq_false hfew
  unfold notifyDataAvail
  split_ifs with hlt
  · have hnext : h.extCnt + 1 < nHup := Nat.lt_of_le_of_ne hlt hne
    exact ⟨fun _ => hlt, fun _ => hnext⟩
  · exact Iff.rfl

end TCPCommHelper

namespace TransferMoves

variable {h : TCPCommHelper} {errno : ℕ} {f f' : TransferFrame} {a : TransferAction}
  {r : TransferResult} {v : Int}

/-- `Transfer` only reads the counter of the notifications. -/
theorem extCnt_eq (hmoves : TransferMoves h errno f a r) : r.helper.extCnt = h.extCnt := by
  cases hmoves with
  | partialDone c => exact h.markSeen_extCnt c
  | failed c | again c => exact ((h.markSeen c).markError_extCnt errno).trans (h.markSeen_extCnt c)
  | _ => rfl

/-- On a connection that works, a step fails only by misreading `errno`. -/
theorem not_failed {c : ℕ} {tSz : Int} (hc : f.pc = .settle c tSz)
    (husable : f.pc.Usable errno) (hread : f.misreadsErrno errno = false) (hleft : 1 ≤ f.dataLeft)
    (hwhole : f.allowPartial = true → tSz ≤ 0) : errno = eagain ∧ c < nHup := by
  rw [hc] at husable
  refine ⟨?_, husable.1⟩
  by_cases hpos : 0 < tSz
  · have hnot : f.allowPartial = false := by
      by_contra hpart
      have hle := hwhole ((Bool.not_eq_false _).mp hpart)
      omega
    by_contra herror
    simp [TransferFrame.misreadsErrno, hc, hnot, hpos, herror] at hread
    omega
  · exact husable.2 (by omega)

/-- On a connection that works, the helper stays usable. -/
theorem status_eq_zero (hcnt : h.extCnt < nHup) (hstatus : h.status = 0)
    (husable : f.pc.Usable errno) (hread : f.misreadsErrno errno = false)
    (hmoves : TransferMoves h errno f a r) : r.helper.status = 0 := by
  cases hmoves with
  | cancelled hpc hlt hcancel =>
    have hsucc := nHup_succ
    omega
  | partialDone c tSz hpc hleft hpart hpos =>
    rw [hpc] at husable
    exact (TCPCommHelper.markSeen_status husable.1).trans hstatus
  | failed c tSz hpc hleft hwhole hneg | again c tSz hpc hleft hwhole hneg =>
    obtain ⟨rfl, hc⟩ := not_failed hpc husable hread hleft hwhole
    exact (TCPCommHelper.markSeen_status hc).trans hstatus
  | _ => exact hstatus

/-- On a connection that works, what a step leaves running is on such a connection too. -/
theorem usable_running (hcnt : h.extCnt < nHup) (husable : f.pc.Usable errno)
    (hcall : ∀ tSz err, a = .call tSz err → tSz ≤ 0 → tSz < 0 ∧ err = eagain)
    (hmoves : TransferMoves h errno f a r) (hout : r.outcome = .running f') :
    f'.pc.Usable r.errno := by
  cases hmoves with
  | blocked | woken | again =>
    cases hout
    trivial
  | snapshot =>
    cases hout
    exact hcnt
  | called c tSz err hpc =>
    cases hout
    rw [hpc] at husable
    refine ⟨husable, fun hnone => ?_⟩
    obtain ⟨hneg, rfl⟩ := hcall tSz err rfl hnone
    exact if_pos hneg
  | cancelled | timedOut | complete | partialDone | failed => cases hout

/-- On a connection that works, no result is negative. -/
theorem returned_nonneg (hcnt : h.extCnt < nHup) (hstatus : h.status = 0) (hf : f.Sound)
    (husable : f.pc.Usable errno) (hread : f.misreadsErrno errno = false)
    (hmoves : TransferMoves h errno f a r) (hout : r.outcome = .returned v) : 0 ≤ v := by
  cases hmoves with
  | blocked | snapshot | woken | called | again => cases hout
  | cancelled hpc hlt hcancel =>
    have hsucc := nHup_succ
    omega
  | timedOut =>
    cases hout
    exact Int.le_refl 0
  | complete =>
    cases hout
    exact Int.natCast_nonneg _
  | partialDone =>
    cases hout
    have hle := hf.left_le
    omega
  | failed c tSz hpc hleft hwhole hneg =>
    have hzero := status_eq_zero hcnt hstatus husable hread (.failed c tSz hpc hleft hwhole hneg)
    dsimp only at hzero
    omega

/-- On a connection that works, a transfer that may not be partial returns when it is complete, or
when its wait has timed out. -/
theorem returned_whole (hcnt : h.extCnt < nHup) (hstatus : h.status = 0) (hf : f.Sound)
    (husable : f.pc.Usable errno) (hread : f.misreadsErrno errno = false)
    (hmoves : TransferMoves h errno f a r) (hout : r.outcome = .returned v)
    (hwhole : f.allowPartial = false) :
    (v = f.len ∧ f.moved = f.len) ∨ (v = 0 ∧ a = .timeout ∧ f.moved < f.len) := by
  have hnonneg := returned_nonneg hcnt hstatus hf husable hread hmoves hout
  by_cases hpos : 0 < v
  · obtain ⟨-, hreturns⟩ := hmoves.sound_returned hf hout
    have hmoved := hreturns.whole hpos hwhole
    exact .inl ⟨(hreturns.pos hpos).trans (by rw [hmoved]), hmoved⟩
  · refine .inr ⟨by omega, ?_⟩
    cases hmoves with
    | timedOut hpc =>
      have hleft := hf.left_pos (by rw [hpc]; rfl)
      have hle := hf.left_le
      refine ⟨rfl, ?_⟩
      unfold TransferFrame.moved
      omega
    | cancelled hpc hlt hcancel =>
      have hsucc := nHup_succ
      omega
    | complete c tSz hpc hdone =>
      cases hout
      have hlen := hf.len_pos
      omega
    | partialDone c tSz hpc hleft hpart hgt =>
      rw [hwhole] at hpart
      contradiction
    | failed c tSz hpc hleft hpart hneg =>
      cases hout
      omega
    | blocked | snapshot | woken | called | again => cases hout

end TransferMoves

end TinySox
