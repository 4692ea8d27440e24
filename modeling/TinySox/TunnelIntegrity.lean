import TinySox.TunnelJob
import TinySox.Common.LabelledRun
import Mathlib.Data.List.Infix

/-!
# The stream through a tunnel

The bytes in the tunnel's hands are a piece of its buffer, of which the current write may
have sent a part. What was read before that piece is related to what was accepted before
it. As long as no write is repeated after it sent a part of the buffer, the relation is
equality, and the destination has accepted a prefix of the input at every moment.

A writer's `Transfer` that times out after it sent a part returns 0, and the loop then
repeats the whole buffer. The last theorem shows the duplicated byte.
-/

namespace TinySox

open TinySox.Common

/-- The next statement repeats a write that had already sent a part of the buffer: the writer
timed out in between, and the reader's status is 0. -/
def Tunnel.repeatsBytes (t : Tunnel) : Bool :=
  match t.pc with
  | .readerStatus dr left => left < dr ∧ t.reader.getStatus = 0
  | _ => false

/-- The bytes read and not yet settled are `x`, and the destination has accepted `y` of them. -/
def Tunnel.InHand (t : Tunnel) (x y : Bytes) : Prop :=
  match t.pc with
  | .loop | .writerStatus | .read => x = [] ∧ y = []
  | .reading f => x = t.buff.take f.moved ∧ y = []
  | .write dr => x = t.buff.take dr ∧ y = []
  | .writing dr f => x = t.buff.take dr ∧ y = t.buff.take f.moved
  | .readerStatus dr left => x = t.buff.take dr ∧ y = t.buff.take (dr - left)
  | .shutdownReader | .shutdownWriter | .done => y <+: x

/-- The sizes that the loop has checked before it gets to this place. -/
def TunnelPc.Sound (buffSz : ℕ) : TunnelPc → Prop
  | .reading f => f.Sound ∧ f.allowPartial = true ∧ f.len = buffSz
  | .write dr => dr ≤ buffSz
  | .writing dr f => f.Sound ∧ f.allowPartial = false ∧ f.len = dr ∧ dr ≤ buffSz
  | .readerStatus dr _ => dr ≤ buffSz
  | _ => True

/-- What was read before the bytes in hand is related to what was accepted before them. -/
structure Tunnel.Carries (R : Bytes → Bytes → Prop) (buffSz : ℕ) (t : Tunnel) : Prop where
  status : t.reader.status ≤ 0
  buff : t.buff.length = buffSz
  pc : t.pc.Sound buffSz
  stream : ∃ r a x y, R r a ∧ t.InHand x y ∧ t.input = r ++ x ∧ t.accepted = a ++ y

/-- The steps of `Transfer` never make the status positive. -/
theorem TransferMoves.status_nonpos {h : TCPCommHelper} {errno : ℕ} {f : TransferFrame}
    {a : TransferAction} {r : TransferResult} (hmoves : TransferMoves h errno f a r)
    (hstatus : h.status ≤ 0) : r.helper.status ≤ 0 := by
  have hseen : ∀ c, (h.markSeen c).status ≤ 0 := by
    intro c
    unfold TCPCommHelper.markSeen
    split
    · exact hstatus
    · exact (by decide : (-1 : Int) ≤ 0)
  have herror : ∀ c, ((h.markSeen c).markError errno).status ≤ 0 := by
    intro c
    unfold TCPCommHelper.markError
    split
    · exact (by decide : (-1 : Int) ≤ 0)
    · exact hseen c
  cases hmoves with
  | cancelled => exact (by decide : (-2 : Int) ≤ 0)
  | partialDone c => exact hseen c
  | failed c => exact herror c
  | again c => exact herror c
  | _ => exact hstatus

/-- A call that moved `f.moved` bytes stands inside its buffer. -/
theorem TransferFrame.moved_le (f : TransferFrame) : f.moved ≤ f.len := Nat.sub_le _ _

namespace Tunnel

variable {R : Bytes → Bytes → Prop} {buffSz : ℕ} {t u : Tunnel}

/-- The destination has accepted a prefix of the bytes in hand. -/
theorem InHand.accepted_le {x y : Bytes} (h : t.InHand x y) (hpc : t.pc.Sound buffSz) : y <+: x := by
  cases hplace : t.pc with
  | loop | writerStatus | read | reading | write =>
    simp only [InHand, hplace] at h
    exact h.2 ▸ List.nil_prefix
  | writing dr f =>
    simp only [InHand, hplace] at h
    rw [hplace] at hpc
    rw [h.1, h.2]
    exact List.take_prefix_take_left (hpc.2.2.1 ▸ f.moved_le)
  | readerStatus dr left =>
    simp only [InHand, hplace] at h
    rw [h.1, h.2]
    exact List.take_prefix_take_left (Nat.sub_le _ _)
  | shutdownReader | shutdownWriter | done =>
    simp only [InHand, hplace] at h
    exact h

/-- A step that touches neither the place in the loop nor the bytes keeps the stream. -/
theorem Carries.of_eq (h : t.Carries R buffSz) (hstatus : u.reader.status ≤ 0) (hpc : u.pc = t.pc)
    (hbuff : u.buff = t.buff) (hinput : u.input = t.input) (haccepted : u.accepted = t.accepted) :
    u.Carries R buffSz := by
  obtain ⟨r, a, x, y, hR, hhand, hin, hacc⟩ := h.stream
  refine ⟨hstatus, hbuff ▸ h.buff, hpc ▸ h.pc, r, a, x, y, hR, ?_, hinput ▸ hin, haccepted ▸ hacc⟩
  simpa only [InHand, hpc, hbuff] using hhand

/-- Nothing is in hand at the places of the loop where no buffer is pending. -/
theorem Carries.of_empty {r a : Bytes} (hR : R r a) (hstatus : u.reader.status ≤ 0)
    (hbuff : u.buff.length = buffSz) (hinput : u.input = r) (haccepted : u.accepted = a)
    (hpc : u.pc = .loop ∨ u.pc = .writerStatus ∨ u.pc = .read ∨ u.pc = .shutdownReader) :
    u.Carries R buffSz := by
  have hhand : u.InHand [] [] ∧ u.pc.Sound buffSz := by
    rcases hpc with hpc | hpc | hpc | hpc <;> simp [InHand, TunnelPc.Sound, hpc]
  exact ⟨hstatus, hbuff, hhand.2, r, a, [], [], hR, hhand.1, by simpa using hinput,
    by simpa using haccepted⟩

/-- Entering the read keeps the stream: no byte has been stored yet. -/
theorem Carries.enterRead (h : t.Carries R buffSz) (hpc : t.pc = .read) :
    Carries R buffSz { t with pc := readPc (transferEnter t.reader buffSz true) } := by
  obtain ⟨hstatus, hbuff, -, r, a, x, y, hR, hhand, hin, hacc⟩ := h
  simp only [InHand, hpc] at hhand
  obtain ⟨rfl, rfl⟩ := hhand
  cases henter : transferEnter t.reader buffSz true with
  | running f =>
    obtain ⟨hf, -, hlen, hpart, hmoved⟩ := transferEnter_running henter
    refine ⟨hstatus, hbuff, ⟨hf, hpart, hlen⟩, r, a, [], [], hR, ?_, hin, hacc⟩
    simp [InHand, readPc, hmoved]
  | returned dr =>
    refine .of_empty hR hstatus hbuff (by simpa using hin) (by simpa using hacc) ?_
    rcases transferEnter_returned henter with ⟨hneg, -⟩ | ⟨rfl, -⟩
    · simp [readPc, afterRead, hneg]
    · simp [readPc, afterRead]

/-- Entering the write keeps the stream: no byte of this attempt has been sent yet. -/
theorem Carries.enterWrite {dr : ℕ} (h : t.Carries R buffSz) (hpc : t.pc = .write dr) :
    Carries R buffSz { t with pc := writePc dr dr (transferEnter t.writer dr false) } := by
  obtain ⟨hstatus, hbuff, hsound, r, a, x, y, hR, hhand, hin, hacc⟩ := h
  rw [hpc] at hsound
  simp only [InHand, hpc] at hhand
  obtain ⟨rfl, rfl⟩ := hhand
  cases henter : transferEnter t.writer dr false with
  | running f =>
    obtain ⟨hf, -, hlen, hpart, hmoved⟩ := transferEnter_running henter
    refine ⟨hstatus, hbuff, ⟨hf, hpart, hlen, hsound⟩, r, a, t.buff.take dr, [], hR, ?_, hin,
      hacc⟩
    simp [InHand, writePc, hmoved]
  | returned v =>
    rcases transferEnter_returned henter with ⟨hneg, -⟩ | ⟨rfl, -⟩
    · have hpc' : writePc dr dr (.returned v) = .shutdownReader := by
        simp [writePc, afterWrite, hneg, Int.ne_of_lt hneg]
      refine ⟨hstatus, hbuff, by rw [hpc']; trivial, r, a, t.buff.take dr, [], hR, ?_, hin, hacc⟩
      simp [InHand, hpc']
    · refine ⟨hstatus, hbuff, hsound, r, a, t.buff.take dr, [], hR, ?_, hin, hacc⟩
      simp [InHand, writePc, afterWrite]

/-- The reader's status after a write that timed out keeps the stream, if the relation survives a
repeated write. -/
theorem Carries.checkReader {dr left : ℕ}
    (hrepeat : t.repeatsBytes = true → ∀ r a y, R r a → R r (a ++ y)) (h : t.Carries R buffSz)
    (hpc : t.pc = .readerStatus dr left) :
    Carries R buffSz { t with pc := afterReaderStatus dr t.reader.getStatus } := by
  obtain ⟨hstatus, hbuff, hsound, r, a, x, y, hR, hhand, hin, hacc⟩ := h
  rw [hpc] at hsound
  simp only [InHand, hpc] at hhand
  obtain ⟨rfl, rfl⟩ := hhand
  have hle : t.reader.getStatus ≤ 0 := by
    unfold TCPCommHelper.getStatus
    split_ifs <;> omega
  rcases Int.lt_or_eq_of_le hle with hneg | hzero
  · have hpc' : afterReaderStatus dr t.reader.getStatus = .shutdownReader := by
      simp [afterReaderStatus, hneg, Int.ne_of_lt hneg]
    refine ⟨hstatus, hbuff, by rw [hpc']; trivial, r, a, t.buff.take dr,
      t.buff.take (dr - left), hR, ?_, hin, hacc⟩
    simp only [InHand, hpc']
    exact List.take_prefix_take_left (Nat.sub_le dr left)
  · have hpc' : afterReaderStatus dr t.reader.getStatus = .write dr := by
      simp [afterReaderStatus, hzero]
    by_cases hsent : left < dr
    · -- the part that was sent joins what was accepted before the buffer
      have hR' := hrepeat (by simp [repeatsBytes, hpc, hsent, hzero]) r a
        (t.buff.take (dr - left)) hR
      refine ⟨hstatus, hbuff, by rw [hpc']; exact hsound, r, _, t.buff.take dr, [], hR', ?_, hin,
        by simpa using hacc⟩
      simp [InHand, hpc']
    · have hnone : dr - left = 0 := by omega
      rw [hnone] at hacc
      refine ⟨hstatus, hbuff, by rw [hpc']; exact hsound, r, a, t.buff.take dr, [], hR, ?_, hin,
        by simpa using hacc⟩
      simp [InHand, hpc']

/-- The statements where nothing is in hand keep the stream. -/
theorem Carries.idle {pc : TunnelPc} (h : t.Carries R buffSz)
    (hpc : t.pc = .loop ∨ t.pc = .writerStatus)
    (hnext : pc = .loop ∨ pc = .writerStatus ∨ pc = .read ∨ pc = .shutdownReader) :
    Carries R buffSz { t with pc := pc } := by
  obtain ⟨hstatus, hbuff, -, r, a, x, y, hR, hhand, hin, hacc⟩ := h
  have hnone : x = [] ∧ y = [] := by
    rcases hpc with hpc | hpc <;> simpa only [InHand, hpc] using hhand
  obtain ⟨rfl, rfl⟩ := hnone
  exact .of_empty hR hstatus hbuff (by simpa using hin) (by simpa using hacc) hnext

/-- A step inside the reader's `Transfer` keeps the stream: what it stores is in hand. -/
theorem Carries.reading {f : TransferFrame} {a : TransferAction} {block : Bytes}
    {res : TransferResult} (h : t.Carries R buffSz) (hpc : t.pc = .reading f)
    (hblock : block.length = a.size) (hmoves : TransferMoves t.reader t.errno f a res) :
    Carries R buffSz { t with
      pc := readPc res.outcome, errno := res.errno, reader := res.helper,
      buff := storeAt t.buff f.moved block, input := t.input ++ block } := by
  obtain ⟨hstatus, hbuff, hsound, r, acc, x, y, hR, hhand, hin, hacc⟩ := h
  have hstatus' := hmoves.status_nonpos hstatus
  rw [hpc] at hsound
  obtain ⟨hf, hpart, hlen⟩ := hsound
  simp only [InHand, hpc] at hhand
  obtain ⟨rfl, rfl⟩ := hhand
  have hmoved : f.moved ≤ t.buff.length := by
    rw [hbuff, ← hlen]
    exact f.moved_le
  cases hout : res.outcome with
  | running g =>
    obtain ⟨hg, hglen, hgpart, hgmoved⟩ := hmoves.sound_running hf hout
    have hfit : f.moved + block.length ≤ t.buff.length := by
      rw [hblock, ← hgmoved, hbuff, ← hlen, ← hglen]
      exact g.moved_le
    refine ⟨hstatus', (length_storeAt _ _ _ hfit).trans hbuff, ⟨hg, hgpart.trans hpart,
      hglen.trans hlen⟩, r, acc, t.buff.take f.moved ++ block, [], hR, ?_, ?_, hacc⟩
    · simp only [InHand, readPc, and_true]
      rw [hgmoved, ← hblock, take_storeAt _ _ _ hmoved]
    · rw [hin, List.append_assoc]
  | returned v =>
    obtain ⟨hsize, hret⟩ := hmoves.sound_returned hf hout
    obtain rfl : block = [] := List.eq_nil_of_length_eq_zero (hblock.trans hsize)
    simp only [storeAt_nil, List.append_nil]
    by_cases hpos : 0 < v
    · obtain rfl := hret.pos hpos
      have hpc' : readPc (.returned f.moved) = .write f.moved := by
        simp [readPc, afterRead, show f.moved ≠ 0 by omega]
      refine ⟨hstatus', hbuff, ?_, r, acc, t.buff.take f.moved, [], hR, ?_, hin, hacc⟩
      · rw [hpc']
        exact hbuff ▸ hmoved
      · simp [InHand, hpc']
    · have hnone := hret.unmoved (by omega) hpart
      refine .of_empty hR hstatus' hbuff (by simpa [hnone] using hin) (by simpa using hacc) ?_
      by_cases hneg : v < 0
      · simp [readPc, afterRead, hneg]
      · simp [readPc, afterRead, show v = 0 by omega]

/-- A step inside the writer's `Transfer` keeps the stream: what it sends joins what was accepted. -/
theorem Carries.writing {dr : ℕ} {f : TransferFrame} {a : TransferAction} {res : TransferResult}
    (happend : ∀ r a x, R r a → R (r ++ x) (a ++ x)) (h : t.Carries R buffSz)
    (hpc : t.pc = .writing dr f) (hmoves : TransferMoves t.writer t.errno f a res) :
    Carries R buffSz { t with
      pc := writePc dr f.dataLeft res.outcome, errno := res.errno, writer := res.helper,
      accepted := t.accepted ++ (t.buff.drop f.moved).take a.size } := by
  obtain ⟨hstatus, hbuff, hsound, r, acc, x, y, hR, hhand, hin, hacc⟩ := h
  rw [hpc] at hsound
  obtain ⟨hf, hpart, hlen, hdr⟩ := hsound
  simp only [InHand, hpc] at hhand
  obtain ⟨rfl, rfl⟩ := hhand
  cases hout : res.outcome with
  | running g =>
    obtain ⟨hg, hglen, hgpart, hgmoved⟩ := hmoves.sound_running hf hout
    refine ⟨hstatus, hbuff, ⟨hg, hgpart.trans hpart, hglen.trans hlen, hdr⟩, r, acc,
      t.buff.take dr, t.buff.take g.moved, hR, ?_, hin, ?_⟩
    · simp only [InHand, writePc, and_self]
    · rw [hacc, hgmoved, List.append_assoc, take_append_take_drop]
  | returned v =>
    obtain ⟨hsize, hret⟩ := hmoves.sound_returned hf hout
    simp only [hsize, List.take_zero, List.append_nil]
    rcases Int.lt_trichotomy v 0 with hneg | rfl | hpos
    · have hpc' : writePc dr f.dataLeft (.returned v) = .shutdownReader := by
        simp [writePc, afterWrite, hneg, Int.ne_of_lt hneg]
      refine ⟨hstatus, hbuff, by rw [hpc']; trivial, r, acc, _, _, hR, ?_, hin, hacc⟩
      simp only [InHand, hpc']
      exact List.take_prefix_take_left (hlen ▸ f.moved_le)
    · refine ⟨hstatus, hbuff, hdr, r, acc, _, _, hR, ?_, hin, hacc⟩
      simp [InHand, writePc, afterWrite, TransferFrame.moved, hlen]
    · have hmoved : f.moved = dr := (hret.whole hpos hpart).trans hlen
      refine .of_empty (happend r acc (t.buff.take dr) hR) hstatus hbuff hin (hmoved ▸ hacc) ?_
      simp [writePc, afterWrite, Int.ne_of_gt hpos, Int.not_lt.mpr (Int.le_of_lt hpos)]

/-- Every step keeps the stream, if the relation survives a repeated write. -/
theorem Carries.step {act : TunnelAction} (happend : ∀ r a x, R r a → R (r ++ x) (a ++ x))
    (hrepeat : t.repeatsBytes = true → ∀ r a y, R r a → R r (a ++ y)) (h : t.Carries R buffSz)
    (hstep : t.step buffSz act = some u) : u.Carries R buffSz := by
  cases step_moves hstep with
  | notice side n =>
    cases side with
    | reader => exact h.of_eq (by simpa [Tunnel.notice] using h.status) rfl rfl rfl rfl
    | writer => exact h.of_eq h.status rfl rfl rfl rfl
  | cancel => exact h.of_eq h.status rfl rfl rfl rfl
  | loop hpc =>
    refine h.idle (.inl hpc) ?_
    cases t.cancel <;> simp
  | writerStatus hpc =>
    refine h.idle (.inr hpc) ?_
    by_cases hgone : t.writer.getStatus < 0 <;> simp [hgone]
  | read hpc => exact h.enterRead hpc
  | write dr hpc => exact h.enterWrite hpc
  | readerStatus dr left hpc => exact h.checkReader hrepeat hpc
  | shutdownReader hpc =>
    obtain ⟨hstatus, hbuff, -, r, a, x, y, hR, hhand, hin, hacc⟩ := h
    simp only [InHand, hpc] at hhand
    refine ⟨?_, hbuff, trivial, r, a, x, y, hR, hhand, hin, hacc⟩
    simp only [TCPCommHelper.shutdown]
    split <;> dsimp only <;> omega
  | shutdownWriter hpc =>
    obtain ⟨hstatus, hbuff, -, r, a, x, y, hR, hhand, hin, hacc⟩ := h
    simp only [InHand, hpc] at hhand
    exact ⟨hstatus, hbuff, trivial, r, a, x, y, hR, hhand, hin, hacc⟩
  | reading f a block res hpc hblock hmoves => exact h.reading hpc hblock hmoves
  | writing dr f a block res hpc hmoves => exact h.writing happend hpc hmoves

/-- At the start nothing has been read or accepted. -/
theorem Started.carries (h : t.Started buffSz) (hR : R [] []) : t.Carries R buffSz := by
  refine .of_empty hR h.status h.buff h.input h.accepted (.inl h.pc)

/-- Tunnel stream integrity. In every run that repeats no write after a part of the buffer was
sent, the accepted bytes are a prefix of the bytes read, in every state. -/
theorem accepted_prefix_input {actions : List TunnelAction} (hstart : t.Started buffSz)
    (hmeets : RunMeets (Tunnel.step buffSz) (fun s _ => s.repeatsBytes = false) t actions)
    (hrun : runActions (Tunnel.step buffSz) t actions = some u) : u.accepted <+: u.input := by
  have hcarries : u.Carries Eq buffSz := by
    refine runActions_invariant_of_meets (fun s act s' hs hcond hstep => ?_)
      (hstart.carries rfl) hmeets hrun
    refine hs.step (fun r a x hra => by rw [hra]) (fun hbad => ?_) hstep
    rw [hcond] at hbad
    contradiction
  obtain ⟨r, a, x, y, rfl, hhand, hin, hacc⟩ := hcarries.stream
  rw [hin, hacc]
  exact (List.prefix_append_right_inj r).mpr (hhand.accepted_le hcarries.pc)

/-- A tunnel between two new helpers, with a buffer of two bytes. -/
def fresh : Tunnel :=
  ⟨.loop, false, 0, newTCPCommHelper 5 true, newTCPCommHelper 6 false, [0, 0], [], []⟩

/-- The source first has nothing to read, then two bytes; the destination takes one of them. -/
def partialWrite : List TunnelAction :=
  [.control, .control, .control, .transfer .look [], .transfer (.call (-1) eagain) [],
    .transfer .settle [], .transfer .look [], .notice .reader .dataAvail, .transfer .wake [],
    .transfer .look [], .transfer (.call 2 0) [65, 66], .transfer .settle [], .control,
    .transfer .look [], .transfer (.call 1 0) [], .transfer .settle [], .transfer .look []]

/-- The destination is notified before the wait times out, and takes the second byte. -/
def timelyNotice : List TunnelAction :=
  [.notice .writer .dataAvail, .transfer .wake [], .transfer .look [], .transfer (.call 1 0) [],
    .transfer .settle []]

/-- The destination is notified only after the wait has timed out. -/
def lateNotice : List TunnelAction :=
  [.transfer .timeout [], .control, .control, .transfer .look [], .notice .writer .dataAvail,
    .transfer .wake [], .transfer .look [], .transfer (.call 1 0) []]

/-- The helpers of a fresh tunnel have not been used. -/
theorem fresh_started : fresh.Started 2 := ⟨rfl, Int.le_refl 0, rfl, rfl, rfl⟩

/-- A partial write that is continued in time sends every byte once. -/
theorem accepted_prefix_input_timely :
    ∃ u, runActions (Tunnel.step 2) fresh (partialWrite ++ timelyNotice) = some u ∧
      u.accepted = [65, 66] ∧ u.accepted <+: u.input := by
  have hmeets : RunMeets (Tunnel.step 2) (fun s _ => s.repeatsBytes = false) fresh
      (partialWrite ++ timelyNotice) := by decide +kernel
  refine ⟨_, rfl, rfl, ?_⟩
  exact accepted_prefix_input fresh_started hmeets rfl

/-- The first byte, which the destination has already accepted, is sent again. -/
theorem timeout_repeats_sent_byte :
    fresh.Started 2 ∧ ∃ u, runActions (Tunnel.step 2) fresh (partialWrite ++ lateNotice) = some u ∧
      u.input = [65, 66] ∧ u.accepted = [65, 65] ∧ ¬ u.accepted <+: u.input :=
  ⟨fresh_started, _, rfl, rfl, rfl, by decide⟩

end Tunnel

end TinySox
