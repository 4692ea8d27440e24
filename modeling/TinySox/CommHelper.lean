import Mathlib.Algebra.Group.Int.Defs
import Mathlib.Algebra.GroupWithZero.Nat
import Mathlib.Data.Int.Basic
import Mathlib.Tactic.Common

/-!
# The communication helper

`TCPCommHelper` drives one direction of a non-blocking socket for one thread. Other
threads only touch `extCnt`, through the notifications. `Transfer` is cut where another
thread can run in between: at the lock, inside the wait, and on both sides of the system
call. A step gets the result of the wait or of the system call as an action; what the
socket accepts or delivers is decided by the system the helper is put into.
-/

namespace TinySox

/-- `N_HUP (UINT64_MAX-1)`: the peer has closed or reset the connection. -/
def nHup : ℕ := 2 ^ 64 - 2

/-- `N_CANCEL (UINT64_MAX)`: no further transfer is allowed. -/
def nCancel : ℕ := 2 ^ 64 - 1

/-- The `errno` value of a call that would block. -/
def eagain : ℕ := 11

/-- The two reserved counter values are adjacent. -/
theorem nHup_succ : nHup + 1 = nCancel := by decide

/-- The fields of `TCPCommHelper` that its methods read or write. -/
structure TCPCommHelper where
  fd : Int
  isReader : Bool
  extCnt : ℕ
  intCnt : ℕ
  status : Int
  deriving DecidableEq, Repr

/-- The constructor: the first transfer tries the socket, and only a later one blocks. -/
def newTCPCommHelper (sockFD : Int) (isReader : Bool) : TCPCommHelper :=
  ⟨sockFD, isReader, 1, 0, 0⟩

namespace TCPCommHelper

/-- Count one readiness notification, unless a reserved value is set. -/
def notifyDataAvail (h : TCPCommHelper) : TCPCommHelper :=
  if h.extCnt < nHup then { h with extCnt := h.extCnt + 1 } else h

/-- Record that the peer is gone, unless a cancel is already recorded. -/
def notifyHUP (h : TCPCommHelper) : TCPCommHelper :=
  if h.extCnt < nHup then { h with extCnt := nHup } else h

/-- Record a cancel. -/
def cancel (h : TCPCommHelper) : TCPCommHelper :=
  if h.extCnt < nCancel then { h with extCnt := nCancel } else h

/-- A recorded reserved value overrides the status of the last transfer. -/
def getStatus (h : TCPCommHelper) : Int :=
  if h.extCnt = nHup then -1 else if h.extCnt = nCancel then -2 else h.status

/-- The helper afterwards, and whether `shutdown(2)` was called on the socket. -/
def shutdown (h : TCPCommHelper) : TCPCommHelper × Bool :=
  if h.status < -1 then (h, false) else ({ h with status := -2 }, true)

end TCPCommHelper

/-- What the epoll worker or a shutdown reports to a helper. -/
inductive Notice
  | dataAvail
  | hup
  | cancel
  deriving DecidableEq, Repr

namespace TCPCommHelper

/-- The method of the helper that the notice calls. -/
def notify (h : TCPCommHelper) : Notice → TCPCommHelper
  | .dataAvail => h.notifyDataAvail
  | .hup => h.notifyHUP
  | .cancel => h.cancel

@[simp] theorem notify_intCnt (h : TCPCommHelper) (n : Notice) :
    (h.notify n).intCnt = h.intCnt := by
  cases n <;> simp only [notify, notifyDataAvail, notifyHUP, cancel] <;> split <;> rfl

@[simp] theorem notify_status (h : TCPCommHelper) (n : Notice) :
    (h.notify n).status = h.status := by
  cases n <;> simp only [notify, notifyDataAvail, notifyHUP, cancel] <;> split <;> rfl

/-- A notice never lowers the counter. -/
theorem extCnt_le_notify (h : TCPCommHelper) (n : Notice) : h.extCnt ≤ (h.notify n).extCnt := by
  have := nHup_succ
  cases n <;> simp only [notify, notifyDataAvail, notifyHUP, cancel] <;> grind

/-- A notice lifts the counter above every unreserved value it had reached. -/
theorem lt_extCnt_notify (h : TCPCommHelper) (n : Notice) {c : ℕ} (hc : c < nHup)
    (hle : c ≤ h.extCnt) : c < (h.notify n).extCnt := by
  have := nHup_succ
  cases n <;> simp only [notify, notifyDataAvail, notifyHUP, cancel] <;> grind

/-- After an incomplete transfer: remember the snapshot, or that the peer is gone. -/
def markSeen (h : TCPCommHelper) (curCnt : ℕ) : TCPCommHelper :=
  if curCnt < nHup then { h with intCnt := curCnt } else { h with status := -1 }

/-- An error other than "would block" ends the use of the helper. -/
def markError (h : TCPCommHelper) (errno : ℕ) : TCPCommHelper :=
  if errno ≠ eagain then { h with status := -1 } else h

@[simp] theorem markSeen_extCnt (h : TCPCommHelper) (curCnt : ℕ) :
    (h.markSeen curCnt).extCnt = h.extCnt := by
  unfold markSeen
  split <;> rfl

@[simp] theorem markError_extCnt (h : TCPCommHelper) (errno : ℕ) :
    (h.markError errno).extCnt = h.extCnt := by
  unfold markError
  split <;> rfl

@[simp] theorem markError_intCnt (h : TCPCommHelper) (errno : ℕ) :
    (h.markError errno).intCnt = h.intCnt := by
  unfold markError
  split <;> rfl

end TCPCommHelper

/-- Where a running `Transfer` stands between two of its steps. -/
inductive TransferPc
  /-- about to take `notifyLock` and compare the counters -/
  | look
  /-- blocked in `wait_for` -/
  | waiting
  /-- the lock is released with this snapshot of `extCnt`; the system call is next -/
  | call (curCnt : ℕ)
  /-- the system call has returned `tSz` -/
  | settle (curCnt : ℕ) (tSz : Int)
  deriving DecidableEq, Repr

/-- The locals of a running `Transfer`. -/
structure TransferFrame where
  len : ℕ
  allowPartial : Bool
  dataLeft : ℕ
  pc : TransferPc
  deriving DecidableEq, Repr

/-- The number of bytes this call has moved so far. -/
def TransferFrame.moved (f : TransferFrame) : ℕ := f.len - f.dataLeft

/-- A step either leaves the call running or returns from it. -/
inductive TransferOutcome
  | running (f : TransferFrame)
  | returned (r : Int)
  deriving DecidableEq, Repr

/-- The two early returns, and otherwise the first iteration. -/
def transferEnter (h : TCPCommHelper) (len : Int) (allowPartial : Bool) : TransferOutcome :=
  if h.status < 0 then .returned h.status
  else if len < 1 then .returned 0
  else .running ⟨len.toNat, allowPartial, len.toNat, .look⟩

/-- Under the lock: block while no notification is new, else take the snapshot and release.
A snapshot of `N_CANCEL` ends the call before it touches the socket. -/
def transferLook (h : TCPCommHelper) (f : TransferFrame) : TCPCommHelper × TransferOutcome :=
  if h.extCnt ≤ h.intCnt then (h, .running { f with pc := .waiting })
  else if h.extCnt = nCancel then ({ h with status := -2 }, .returned (-2))
  else (h, .running { f with pc := .call h.extCnt })

/-- The system call has returned `tSz`: a positive result reduces `dataLeft`. -/
def transferCall (f : TransferFrame) (curCnt : ℕ) (tSz : Int) : TransferFrame :=
  { f with dataLeft := f.dataLeft - tSz.toNat, pc := .settle curCnt tSz }

/-- The rest of the iteration. `errno` is whatever the thread has there: a system call that
succeeded has not set it. -/
def transferSettle (h : TCPCommHelper) (errno : ℕ) (f : TransferFrame) (curCnt : ℕ) (tSz : Int) :
    TCPCommHelper × TransferOutcome :=
  if f.dataLeft < 1 then (h, .returned f.len)
  else
    let h₁ := h.markSeen curCnt
    if f.allowPartial ∧ 0 < tSz then (h₁, .returned ((f.len : Int) - f.dataLeft))
    else
      let h₂ := h₁.markError errno
      if h₂.status < 0 then (h₂, .returned h₂.status)
      else (h₂, .running { f with pc := .look })

/-- One step of the thread inside `Transfer`. -/
inductive TransferAction
  | look
  /-- `wait_for` ends without a timeout: a notification, or a spurious wake-up -/
  | wake
  | timeout
  /-- `read` or `write` returns `tSz`, and leaves `err` in `errno` if it failed -/
  | call (tSz : Int) (err : ℕ)
  | settle
  deriving DecidableEq, Repr

/-- The bytes the action moves between the buffer and the socket. -/
def TransferAction.size : TransferAction → ℕ
  | .call tSz _ => tSz.toNat
  | _ => 0

/-- What follows a step: the helper, the thread's `errno` and the call. -/
structure TransferResult where
  helper : TCPCommHelper
  errno : ℕ
  outcome : TransferOutcome
  deriving DecidableEq, Repr

/-- Perform an action of the calling thread, if the call stands where it can happen. -/
def transferStep (h : TCPCommHelper) (errno : ℕ) (f : TransferFrame) :
    TransferAction → Option TransferResult
  | .look =>
    if f.pc = .look then
      let r := transferLook h f
      some ⟨r.1, errno, r.2⟩
    else none
  | .wake => if f.pc = .waiting then some ⟨h, errno, .running { f with pc := .look }⟩ else none
  | .timeout => if f.pc = .waiting then some ⟨h, errno, .returned 0⟩ else none
  | .call tSz err =>
    match f.pc with
    | .call curCnt =>
      if -1 ≤ tSz ∧ tSz ≤ f.dataLeft then
        some ⟨h, if tSz < 0 then err else errno, .running (transferCall f curCnt tSz)⟩
      else none
    | _ => none
  | .settle =>
    match f.pc with
    | .settle curCnt tSz =>
      let r := transferSettle h errno f curCnt tSz
      some ⟨r.1, errno, r.2⟩
    | _ => none

/-- Everything a step of `Transfer` can do, guards included. -/
inductive TransferMoves (h : TCPCommHelper) (errno : ℕ) (f : TransferFrame) :
    TransferAction → TransferResult → Prop
  | blocked (hpc : f.pc = .look) (hle : h.extCnt ≤ h.intCnt) :
      TransferMoves h errno f .look ⟨h, errno, .running { f with pc := .waiting }⟩
  | cancelled (hpc : f.pc = .look) (hlt : h.intCnt < h.extCnt) (hcancel : h.extCnt = nCancel) :
      TransferMoves h errno f .look ⟨{ h with status := -2 }, errno, .returned (-2)⟩
  | snapshot (hpc : f.pc = .look) (hlt : h.intCnt < h.extCnt) (hcancel : h.extCnt ≠ nCancel) :
      TransferMoves h errno f .look ⟨h, errno, .running { f with pc := .call h.extCnt }⟩
  | woken (hpc : f.pc = .waiting) :
      TransferMoves h errno f .wake ⟨h, errno, .running { f with pc := .look }⟩
  | timedOut (hpc : f.pc = .waiting) : TransferMoves h errno f .timeout ⟨h, errno, .returned 0⟩
  | called (curCnt : ℕ) (tSz : Int) (err : ℕ) (hpc : f.pc = .call curCnt) (hge : -1 ≤ tSz)
      (hle : tSz ≤ f.dataLeft) :
      TransferMoves h errno f (.call tSz err)
        ⟨h, if tSz < 0 then err else errno, .running (transferCall f curCnt tSz)⟩
  | complete (curCnt : ℕ) (tSz : Int) (hpc : f.pc = .settle curCnt tSz) (hdone : f.dataLeft < 1) :
      TransferMoves h errno f .settle ⟨h, errno, .returned f.len⟩
  | partialDone (curCnt : ℕ) (tSz : Int) (hpc : f.pc = .settle curCnt tSz) (hleft : 1 ≤ f.dataLeft)
      (hwhole : f.allowPartial = true) (hpos : 0 < tSz) :
      TransferMoves h errno f .settle
        ⟨h.markSeen curCnt, errno, .returned ((f.len : Int) - f.dataLeft)⟩
  | failed (curCnt : ℕ) (tSz : Int) (hpc : f.pc = .settle curCnt tSz) (hleft : 1 ≤ f.dataLeft)
      (hwhole : f.allowPartial = true → tSz ≤ 0)
      (hneg : ((h.markSeen curCnt).markError errno).status < 0) :
      TransferMoves h errno f .settle ⟨(h.markSeen curCnt).markError errno, errno,
        .returned ((h.markSeen curCnt).markError errno).status⟩
  | again (curCnt : ℕ) (tSz : Int) (hpc : f.pc = .settle curCnt tSz) (hleft : 1 ≤ f.dataLeft)
      (hwhole : f.allowPartial = true → tSz ≤ 0)
      (hok : 0 ≤ ((h.markSeen curCnt).markError errno).status) :
      TransferMoves h errno f .settle
        ⟨(h.markSeen curCnt).markError errno, errno, .running { f with pc := .look }⟩

/-- The step function does nothing but what the relation lists. -/
theorem transferStep_moves {h : TCPCommHelper} {errno : ℕ} {f : TransferFrame}
    {a : TransferAction} {r : TransferResult} (hstep : transferStep h errno f a = some r) :
    TransferMoves h errno f a r := by
  cases a with
  | look =>
    simp only [transferStep, Option.ite_none_right_eq_some, Option.some.injEq] at hstep
    obtain ⟨hpc, rfl⟩ := hstep
    unfold transferLook
    split_ifs with hle hcancel
    · exact .blocked hpc hle
    · exact .cancelled hpc (by omega) hcancel
    · exact .snapshot hpc (by omega) hcancel
  | wake =>
    simp only [transferStep, Option.ite_none_right_eq_some, Option.some.injEq] at hstep
    obtain ⟨hpc, rfl⟩ := hstep
    exact .woken hpc
  | timeout =>
    simp only [transferStep, Option.ite_none_right_eq_some, Option.some.injEq] at hstep
    obtain ⟨hpc, rfl⟩ := hstep
    exact .timedOut hpc
  | call tSz err =>
    simp only [transferStep] at hstep
    split at hstep
    · rename_i curCnt hpc
      simp only [Option.ite_none_right_eq_some, Option.some.injEq] at hstep
      obtain ⟨⟨hge, hle⟩, rfl⟩ := hstep
      exact .called curCnt tSz err hpc hge hle
    · contradiction
  | settle =>
    simp only [transferStep] at hstep
    split at hstep
    · rename_i curCnt tSz hpc
      simp only [Option.some.injEq] at hstep
      subst hstep
      unfold transferSettle
      dsimp only
      split_ifs with hdone hwhole hneg
      · exact .complete curCnt tSz hpc hdone
      · exact .partialDone curCnt tSz hpc (by omega) hwhole.1 hwhole.2
      · exact .failed curCnt tSz hpc (by omega) (by grind) hneg
      · exact .again curCnt tSz hpc (by omega) (by grind) (by omega)
    · contradiction

/-- Before the system call of an iteration. -/
def TransferPc.idle : TransferPc → Bool
  | .settle _ _ => false
  | _ => true

/-- What the locals of a running call satisfy. A partial transfer ends with its first
successful system call, so before that call it has moved nothing. -/
structure TransferFrame.Sound (f : TransferFrame) : Prop where
  len_pos : 1 ≤ f.len
  left_le : f.dataLeft ≤ f.len
  left_pos : f.pc.idle = true → 1 ≤ f.dataLeft
  unmoved : f.allowPartial = true → f.pc.idle = true → f.moved = 0
  counted : ∀ c tSz, f.pc = .settle c tSz → f.allowPartial = true → f.moved = tSz.toNat

/-- What a return value says about the bytes moved by the call. A return of 0 from a
transfer that may not be partial says nothing: the wait can time out after some pieces. -/
structure TransferFrame.Returns (f : TransferFrame) (v : Int) : Prop where
  pos : 0 < v → v = f.moved
  whole : 0 < v → f.allowPartial = false → f.moved = f.len
  unmoved : v ≤ 0 → f.allowPartial = true → f.moved = 0

/-- A call that starts has moved nothing. -/
theorem transferEnter_running {h : TCPCommHelper} {len : Int} {allowPartial : Bool}
    {f : TransferFrame} (henter : transferEnter h len allowPartial = .running f) :
    f.Sound ∧ f.pc = .look ∧ f.len = len.toNat ∧ f.allowPartial = allowPartial ∧ f.moved = 0 := by
  unfold transferEnter at henter
  split_ifs at henter with hstatus hlen
  cases henter
  have hpos : 1 ≤ len.toNat := by omega
  have hmoved : len.toNat - len.toNat = 0 := Nat.sub_self _
  exact ⟨⟨hpos, Nat.le_refl _, fun _ => hpos, fun _ _ => hmoved, fun c tSz hpc => by cases hpc⟩,
    rfl, rfl, rfl, hmoved⟩

/-- An early return never claims that bytes were moved. -/
theorem transferEnter_returned {h : TCPCommHelper} {len v : Int} {allowPartial : Bool}
    (henter : transferEnter h len allowPartial = .returned v) :
    (v < 0 ∧ v = h.status) ∨ (v = 0 ∧ len < 1 ∧ 0 ≤ h.status) := by
  unfold transferEnter at henter
  split_ifs at henter with hstatus hlen
  · cases henter
    exact .inl ⟨hstatus, rfl⟩
  · cases henter
    exact .inr ⟨rfl, hlen, by omega⟩

/-- A step that leaves the call running moves exactly the bytes of its system call. -/
theorem TransferMoves.sound_running {h : TCPCommHelper} {errno : ℕ} {f f' : TransferFrame}
    {a : TransferAction} {r : TransferResult} (hf : f.Sound) (hmoves : TransferMoves h errno f a r)
    (hout : r.outcome = .running f') :
    f'.Sound ∧ f'.len = f.len ∧ f'.allowPartial = f.allowPartial ∧
      f'.moved = f.moved + a.size := by
  obtain ⟨hlen, hleft, hpos, hun, hcount⟩ := hf
  cases hmoves with
  | blocked hpc hle =>
    cases hout
    rw [hpc] at hpos hun
    exact ⟨⟨hlen, hleft, hpos, hun, fun c tSz hc => by cases hc⟩, rfl, rfl, rfl⟩
  | cancelled hpc hlt hcancel => cases hout
  | snapshot hpc hlt hcancel =>
    cases hout
    rw [hpc] at hpos hun
    exact ⟨⟨hlen, hleft, hpos, hun, fun c tSz hc => by cases hc⟩, rfl, rfl, rfl⟩
  | woken hpc =>
    cases hout
    rw [hpc] at hpos hun
    exact ⟨⟨hlen, hleft, hpos, hun, fun c tSz hc => by cases hc⟩, rfl, rfl, rfl⟩
  | timedOut hpc => cases hout
  | called curCnt tSz err hpc hge hle =>
    cases hout
    rw [hpc] at hun
    have hmoved : f.len - (f.dataLeft - tSz.toNat) = f.moved + tSz.toNat := by
      unfold TransferFrame.moved
      omega
    refine ⟨⟨hlen, Nat.le_trans (Nat.sub_le _ _) hleft, (fun h => nomatch h), (fun _ h => nomatch h), ?_⟩,
      rfl, rfl, hmoved⟩
    intro c sz hc hwhole
    cases hc
    have := hun hwhole rfl
    exact hmoved.trans (by omega)
  | complete curCnt tSz hpc hdone => cases hout
  | partialDone curCnt tSz hpc hmore hwhole hgt => cases hout
  | failed curCnt tSz hpc hmore hwhole hneg => cases hout
  | again curCnt tSz hpc hmore hwhole hok =>
    cases hout
    refine ⟨⟨hlen, hleft, fun _ => hmore, fun hp _ => ?_, fun c sz hc => by cases hc⟩, rfl, rfl, rfl⟩
    have hzero := hwhole hp
    exact (hcount curCnt tSz hpc hp).trans (by omega)

/-- The step that returns moves no byte, and its value accounts for the call. -/
theorem TransferMoves.sound_returned {h : TCPCommHelper} {errno : ℕ} {f : TransferFrame}
    {a : TransferAction} {r : TransferResult} {v : Int} (hf : f.Sound)
    (hmoves : TransferMoves h errno f a r) (hout : r.outcome = .returned v) :
    a.size = 0 ∧ f.Returns v := by
  obtain ⟨hlen, hleft, hpos, hun, hcount⟩ := hf
  cases hmoves with
  | blocked hpc hle => cases hout
  | cancelled hpc hlt hcancel =>
    cases hout
    rw [hpc] at hun
    exact ⟨rfl, ⟨by omega, by omega, fun _ hp => hun hp rfl⟩⟩
  | snapshot hpc hlt hcancel => cases hout
  | woken hpc => cases hout
  | timedOut hpc =>
    cases hout
    rw [hpc] at hun
    exact ⟨rfl, ⟨by omega, by omega, fun _ hp => hun hp rfl⟩⟩
  | called curCnt tSz err hpc hge hle => cases hout
  | complete curCnt tSz hpc hdone =>
    cases hout
    have hmoved : f.moved = f.len := by
      unfold TransferFrame.moved
      omega
    exact ⟨rfl, ⟨fun _ => by rw [hmoved], fun _ _ => hmoved, by omega⟩⟩
  | partialDone curCnt tSz hpc hmore hwhole hgt =>
    cases hout
    have hmoved : ((f.len : Int) - f.dataLeft) = f.moved := by
      unfold TransferFrame.moved
      omega
    have hsize := hcount curCnt tSz hpc hwhole
    exact ⟨rfl, ⟨fun _ => hmoved, fun _ h => by rw [hwhole] at h; contradiction, by omega⟩⟩
  | failed curCnt tSz hpc hmore hwhole hneg =>
    cases hout
    refine ⟨rfl, ⟨by omega, by omega, fun _ hp => ?_⟩⟩
    have hzero := hwhole hp
    exact (hcount curCnt tSz hpc hp).trans (by omega)
  | again curCnt tSz hpc hmore hwhole hok => cases hout

end TinySox
