import TinySox.TunnelIntegrity
import TinySox.TransferHealth

/-!
# A tunnel on normal close

The tunnel next to the receiving end of its source's connection. The peer sends a finite
stream and then its FIN, which the epoll worker reports to the reader as a HUP. Nobody
cancels, the writer gets no HUP, and the destination accepts some bytes or would block.

The loop then ends only after the reader has met the end of the stream with nothing in
hand, provided that three steps do not occur. A short write fails if `errno` still has
the value of an older error. A write that timed out is given up once the FIN has been
reported, with the rest of the buffer unsent. And so many notifications of data lift a
counter to `N_HUP` although nothing was closed.
-/

namespace TinySox

open TinySox.Common

/-- The receiving end of the source's connection. -/
structure SourceSocket where
  /-- sent by the peer, and not yet in the receive queue -/
  arriving : Bytes
  queue : Bytes
  /-- the peer's FIN has arrived -/
  fin : Bool
  deriving DecidableEq, Repr

namespace SourceSocket

/-- There is nothing to read, now or later. -/
def Drained (k : SourceSocket) : Prop := k.fin = true ∧ k.queue = []

/-- The next bytes reach the receive queue. -/
def arrive (k : SourceSocket) (n : ℕ) : SourceSocket :=
  { k with arriving := k.arriving.drop n, queue := k.queue ++ k.arriving.take n }

/-- What `read` can return: bytes from the front of the queue, the end of the stream, or an
error that says that it would block. -/
def reads (k : SourceSocket) (len : ℕ) (tSz : Int) (err : ℕ) (block : Bytes) : Bool :=
  if k.queue ≠ [] then tSz = (min len k.queue.length : ℕ) ∧ block = k.queue.take len
  else if k.fin then tSz = 0 ∧ block = []
  else tSz = -1 ∧ err = eagain ∧ block = []

/-- A read removes its bytes from the queue. -/
def consume (k : SourceSocket) (n : ℕ) : SourceSocket := { k with queue := k.queue.drop n }

end SourceSocket

/-- One direction of a connection pair. -/
structure Session where
  tunnel : Tunnel
  source : SourceSocket
  deriving DecidableEq, Repr

/-- What can happen next. -/
inductive SessionAction
  | arrive (n : ℕ)
  | fin
  | job (a : TunnelAction)
  deriving DecidableEq, Repr

/-- What a normal close lets happen to the tunnel: notifications of data, a HUP for the reader
after the FIN, no cancel, no HUP for the writer, a kernel that reads from the queue, and a
destination without errors. -/
def Session.permits (s : Session) : TunnelAction → Bool
  | .notice _ .dataAvail => true
  | .notice .reader .hup => s.source.fin
  | .notice _ _ | .cancel => false
  | .control => true
  | .transfer (.call tSz err) block =>
    match s.tunnel.pc with
    | .reading f => s.source.reads f.dataLeft tSz err block
    | _ => 0 < tSz ∨ tSz = -1 ∧ err = eagain
  | .transfer _ _ => true

/-- The number of bytes that the action reads from the source. -/
def Tunnel.consumed (t : Tunnel) : TunnelAction → ℕ
  | .transfer a _ =>
    match t.pc with
    | .reading _ => a.size
    | _ => 0
  | _ => 0

/-- One step of the source's connection or of the tunnel. -/
def Session.step (buffSz : ℕ) (s : Session) : SessionAction → Option Session
  | .arrive n => some { s with source := s.source.arrive n }
  | .fin =>
    if s.source.arriving = [] then some { s with source := { s.source with fin := true } } else none
  | .job a =>
    if s.permits a then
      (s.tunnel.step buffSz a).map fun t => ⟨t, s.source.consume (s.tunnel.consumed a)⟩
    else none

/-- The next statement of the writer's `Transfer` takes a short write for an error. -/
def Tunnel.misreadsErrno (t : Tunnel) : Bool :=
  match t.pc with
  | .writing _ f => f.misreadsErrno t.errno
  | _ => false

/-- The next statement gives up a write that timed out, because the reader is at its end. -/
def Tunnel.abandonsWrite (t : Tunnel) : Bool :=
  match t.pc with
  | .readerStatus _ _ => t.reader.getStatus < 0
  | _ => false

/-- The next statement drops bytes that were read and not yet accepted. -/
def Tunnel.losesBytes (t : Tunnel) : Bool := t.misreadsErrno || t.abandonsWrite

/-- The next step is a notification of data that lifts a helper's counter to `N_HUP`. -/
def Session.overcounts (s : Session) : SessionAction → Bool
  | .job (.notice .reader n) => s.tunnel.reader.overcounts n
  | .job (.notice .writer n) => s.tunnel.writer.overcounts n
  | _ => false

/-- `Execute` has left its main loop. -/
def TunnelPc.left : TunnelPc → Bool
  | .shutdownReader | .shutdownWriter | .done => true
  | _ => false

/-- What the snapshot and the result of a system call say about the source. -/
def TunnelPc.Informed (k : SourceSocket) (errno : ℕ) : TunnelPc → Prop
  | .reading f =>
    match f.pc with
    | .call c => nHup ≤ c → k.fin = true
    | .settle c tSz =>
      1 ≤ f.dataLeft → (nHup ≤ c ∨ tSz = 0 → k.Drained) ∧ (tSz < 0 → errno = eagain)
    | _ => True
  | .writing _ f => f.pc.Usable errno
  | _ => True

/-- The part of the invariant that is about the peer's stream and the notifications. -/
structure Session.Sourced (stream : Bytes) (s : Session) : Prop where
  stream : s.tunnel.input ++ s.source.queue ++ s.source.arriving = stream
  fin : s.source.fin = true → s.source.arriving = []
  cancel : s.tunnel.cancel = false
  readerCnt : s.tunnel.reader.extCnt ≤ nHup
  hup : nHup ≤ s.tunnel.reader.extCnt → s.source.fin = true
  writerCnt : s.tunnel.writer.extCnt < nHup

/-- The part that is about the loop: its helpers are usable until the source is drained, and
it is left only then, with nothing in hand. -/
structure Session.Looping (R : Bytes → Bytes → Prop) (s : Session) : Prop where
  writer : s.tunnel.pc.left = false → s.tunnel.writer.status = 0
  reader : s.tunnel.pc.left = false → s.tunnel.reader.status < 0 → s.source.Drained
  informed : s.tunnel.pc.Informed s.source s.tunnel.errno
  finished : s.tunnel.pc.left = true → R s.tunnel.input s.tunnel.accepted ∧ s.source.Drained

/-- The invariant of a session that closes normally. -/
structure Session.Flows (R : Bytes → Bytes → Prop) (buffSz : ℕ) (stream : Bytes) (s : Session) :
    Prop where
  carries : s.tunnel.Carries R buffSz
  sourced : s.Sourced stream
  looping : s.Looping R

/-- `Execute` is about to enter its main loop with helpers on which nothing has failed. -/
structure Session.Started (buffSz : ℕ) (s : Session) : Prop where
  tunnel : s.tunnel.Started buffSz
  cancel : s.tunnel.cancel = false
  reader : s.tunnel.reader.status = 0
  writer : s.tunnel.writer.status = 0
  readerCnt : s.tunnel.reader.extCnt ≤ nHup
  hup : nHup ≤ s.tunnel.reader.extCnt → s.source.fin = true
  writerCnt : s.tunnel.writer.extCnt < nHup
  fin : s.source.fin = true → s.source.arriving = []

/-- What has been read and what the queue keeps make up the queue before. -/
theorem SourceSocket.reads_append {k : SourceSocket} {len : ℕ} {tSz : Int} {err : ℕ} {block : Bytes}
    (hreads : k.reads len tSz err block = true) :
    block ++ (k.consume tSz.toNat).queue = k.queue := by
  unfold reads at hreads
  unfold consume
  split_ifs at hreads with hqueue hfin
  · simp only [Bool.decide_and, Bool.and_eq_true, decide_eq_true_eq] at hreads
    rw [hreads.1, hreads.2, Int.toNat_natCast]
    rcases Nat.le_total len k.queue.length with hle | hle
    · rw [Nat.min_eq_left hle, List.take_append_drop]
    · rw [Nat.min_eq_right hle, List.take_of_length_le hle, List.drop_length, List.append_nil]
  · simp only [Bool.decide_and, Bool.and_eq_true, decide_eq_true_eq] at hreads
    simp [hreads.1, hreads.2]
  · simp only [Bool.decide_and, Bool.and_eq_true, decide_eq_true_eq] at hreads
    simp [hreads.1, hreads.2.2]

/-- A read that leaves room in the buffer has emptied the queue. At the end of the stream it
returns 0, and an error says that it would block. -/
theorem SourceSocket.reads_short {k : SourceSocket} {len : ℕ} {tSz : Int} {err : ℕ} {block : Bytes}
    (hreads : k.reads len tSz err block = true) (hshort : 1 ≤ len - tSz.toNat) :
    (k.consume tSz.toNat).queue = [] ∧ (tSz = 0 → k.fin = true) ∧ (tSz < 0 → err = eagain) := by
  unfold reads at hreads
  unfold consume
  split_ifs at hreads with hqueue hfin
  · simp only [Bool.decide_and, Bool.and_eq_true, decide_eq_true_eq] at hreads
    have hpos : 0 < k.queue.length := List.length_pos_iff.mpr hqueue
    have hsize : tSz.toNat = k.queue.length := by omega
    exact ⟨by rw [hsize, List.drop_length], by omega, by omega⟩
  · simp only [Bool.decide_and, Bool.and_eq_true, decide_eq_true_eq] at hreads
    simp_all
  · simp only [Bool.decide_and, Bool.and_eq_true, decide_eq_true_eq] at hreads
    simp_all

/-- The source stays drained. -/
theorem SourceSocket.Drained.consume {k : SourceSocket} (h : k.Drained) (n : ℕ) :
    (k.consume n).Drained :=
  ⟨h.1, by rw [SourceSocket.consume, h.2, List.drop_nil]⟩

/-- Neither a notification nor a HUP exceeds the value of a HUP. -/
theorem TCPCommHelper.notify_le {h : TCPCommHelper} {n : Notice} (hn : n ≠ .cancel)
    (hle : h.extCnt ≤ nHup) : (h.notify n).extCnt ≤ nHup := by
  cases n with
  | dataAvail =>
    simp only [notify, notifyDataAvail]
    split_ifs with hlt
    · exact hlt
    · exact hle
  | hup =>
    simp only [notify, notifyHUP]
    split_ifs with hlt
    · exact Nat.le_refl nHup
    · exact hle
  | cancel => contradiction

/-- What is known about the source stays true as its connection goes on. -/
theorem TunnelPc.Informed.mono {k k' : SourceSocket} {errno : ℕ} {pc : TunnelPc}
    (h : pc.Informed k errno) (hfin : k.fin = true → k'.fin = true)
    (hdrained : k.Drained → k'.Drained) : pc.Informed k' errno := by
  cases pc with
  | reading f =>
    simp only [Informed] at h ⊢
    cases hpc : f.pc with
    | call c =>
      rw [hpc] at h
      exact fun hc => hfin (h hc)
    | settle c tSz =>
      rw [hpc] at h
      exact fun hleft => ⟨fun hend => hdrained ((h hleft).1 hend), (h hleft).2⟩
    | look | waiting => trivial
  | writing dr f => exact h
  | _ => trivial

namespace Session

variable {R : Bytes → Bytes → Prop} {buffSz : ℕ} {stream : Bytes} {s u : Session}

/-- The loop does not depend on how the source's connection goes on. -/
theorem Looping.of_source {k : SourceSocket} (h : s.Looping R)
    (hfin : s.source.fin = true → k.fin = true) (hdrained : s.source.Drained → k.Drained) :
    Looping R ⟨s.tunnel, k⟩ :=
  ⟨h.writer, fun hpc hneg => hdrained (h.reader hpc hneg), h.informed.mono hfin hdrained,
    fun hleft => ⟨(h.finished hleft).1, hdrained (h.finished hleft).2⟩⟩

/-- Bytes that reach the receive queue are those that the peer has sent. -/
theorem Flows.arrive (h : s.Flows R buffSz stream) (n : ℕ) :
    Flows R buffSz stream { s with source := s.source.arrive n } := by
  obtain ⟨hcarries, hsourced, hlooping⟩ := h
  have hdrained : s.source.Drained → (s.source.arrive n).Drained := by
    intro hdr
    have hnone := hsourced.fin hdr.1
    exact ⟨hdr.1, by simp [SourceSocket.arrive, hdr.2, hnone]⟩
  refine ⟨hcarries, ?_, hlooping.of_source id hdrained⟩
  refine ⟨?_, fun hfin => ?_, hsourced.cancel, hsourced.readerCnt, hsourced.hup, hsourced.writerCnt⟩
  · rw [← hsourced.stream]
    simp [SourceSocket.arrive]
  · have hnone := hsourced.fin hfin
    simp [SourceSocket.arrive, hnone]

/-- The FIN follows the last byte. -/
theorem Flows.fin (h : s.Flows R buffSz stream) (hnone : s.source.arriving = []) :
    Flows R buffSz stream { s with source := { s.source with fin := true } } := by
  obtain ⟨hcarries, hsourced, hlooping⟩ := h
  refine ⟨hcarries, ?_, hlooping.of_source (fun _ => rfl) (fun hdr => ⟨rfl, hdr.2⟩)⟩
  exact ⟨hsourced.stream, fun _ => hnone, hsourced.cancel, hsourced.readerCnt, fun _ => rfl,
    hsourced.writerCnt⟩

/-- While the loop is running, the helpers need only be usable. -/
theorem Looping.of_running (hpc : u.tunnel.pc.left = false) (hwriter : u.tunnel.writer.status = 0)
    (hreader : u.tunnel.reader.status < 0 → u.source.Drained)
    (hinformed : u.tunnel.pc.Informed u.source u.tunnel.errno) : u.Looping R :=
  ⟨fun _ => hwriter, fun _ => hreader, hinformed, fun hleft => by rw [hpc] at hleft; contradiction⟩

/-- The loop is left for good once the source is drained and everything was accepted. -/
theorem Looping.of_left (hpc : u.tunnel.pc.left = true)
    (hR : R u.tunnel.input u.tunnel.accepted) (hdrained : u.source.Drained) : u.Looping R := by
  refine ⟨fun h => ?_, fun h => ?_, ?_, fun _ => ⟨hR, hdrained⟩⟩
  · rw [hpc] at h
    contradiction
  · rw [hpc] at h
    contradiction
  · revert hpc
    cases u.tunnel.pc <;> simp [TunnelPc.left, TunnelPc.Informed]

end Session

/-- With nothing in hand, what was read is related to what was accepted. -/
theorem Tunnel.Carries.related {R : Bytes → Bytes → Prop} {buffSz : ℕ} {t : Tunnel}
    (h : t.Carries R buffSz) (hempty : ∀ x y, t.InHand x y → x = [] ∧ y = []) :
    R t.input t.accepted := by
  obtain ⟨r, a, x, y, hR, hhand, hin, hacc⟩ := h.stream
  obtain ⟨rfl, rfl⟩ := hempty x y hhand
  rw [hin, hacc, List.append_nil, List.append_nil]
  exact hR

namespace Session

variable {R : Bytes → Bytes → Prop} {buffSz : ℕ} {stream : Bytes} {s u : Session}

/-- A statement of the loop that does not give up a write keeps the loop going until the source
is drained. -/
theorem Flows.looping_control {t : Tunnel} (h : s.Flows R buffSz stream)
    (hcond : s.tunnel.abandonsWrite = false) (hstep : s.tunnel.step buffSz .control = some t) :
    Looping R ⟨t, s.source⟩ := by
  obtain ⟨hcarries, hsourced, hlooping⟩ := h
  have hwriter := hlooping.writer
  have hreader := hlooping.reader
  cases Tunnel.step_moves hstep with
  | loop hpc =>
    rw [hpc] at hwriter hreader
    rw [hsourced.cancel]
    exact .of_running rfl (hwriter rfl) (hreader rfl) trivial
  | writerStatus hpc =>
    rw [hpc] at hwriter hreader
    have hstatus : s.tunnel.writer.getStatus = 0 := by
      have hlt := hsourced.writerCnt
      have hsucc := nHup_succ
      unfold TCPCommHelper.getStatus
      rw [if_neg (by omega), if_neg (by omega), hwriter rfl]
    rw [hstatus]
    exact .of_running rfl (hwriter rfl) (hreader rfl) trivial
  | read hpc =>
    have hR := hcarries.related (fun x y hxy => by simpa only [Tunnel.InHand, hpc] using hxy)
    rw [hpc] at hwriter hreader
    cases henter : transferEnter s.tunnel.reader buffSz true with
    | running f =>
      obtain ⟨-, hlook, -⟩ := transferEnter_running henter
      refine .of_running rfl (hwriter rfl) (hreader rfl) ?_
      simp [TunnelPc.Informed, readPc, hlook]
    | returned v =>
      rcases transferEnter_returned henter with ⟨hneg, rfl⟩ | ⟨rfl, -⟩
      · refine .of_left ?_ hR (hreader rfl hneg)
        simp [readPc, afterRead, hneg, TunnelPc.left]
      · exact .of_running rfl (hwriter rfl) (hreader rfl) trivial
  | write dr hpc =>
    rw [hpc] at hwriter hreader
    cases henter : transferEnter s.tunnel.writer dr false with
    | running f =>
      obtain ⟨-, hlook, -⟩ := transferEnter_running henter
      refine .of_running rfl (hwriter rfl) (hreader rfl) ?_
      simp [TunnelPc.Informed, writePc, hlook, TransferPc.Usable]
    | returned v =>
      rcases transferEnter_returned henter with ⟨hneg, rfl⟩ | ⟨rfl, -⟩
      · have hzero := hwriter rfl
        omega
      · exact .of_running rfl (hwriter rfl) (hreader rfl) trivial
  | readerStatus dr left hpc =>
    rw [hpc] at hwriter hreader
    have hstatus : s.tunnel.reader.getStatus = 0 := by
      have hle := hcarries.status
      simp only [Tunnel.abandonsWrite, hpc, decide_eq_false_iff_not] at hcond
      unfold TCPCommHelper.getStatus at hcond ⊢
      split_ifs at hcond ⊢ <;> omega
    have hpc' : afterReaderStatus dr s.tunnel.reader.getStatus = .write dr := by
      simp [afterReaderStatus, hstatus]
    rw [hpc']
    exact .of_running rfl (hwriter rfl) (hreader rfl) trivial
  | shutdownReader hpc | shutdownWriter hpc =>
    have hend := hlooping.finished (by rw [hpc]; rfl)
    exact .of_left rfl hend.1 hend.2

/-- A step inside the reader's `Transfer` keeps the loop going until the source is drained. -/
theorem Flows.looping_reading {f : TransferFrame} {a : TransferAction} {block : Bytes}
    {res : TransferResult} (h : s.Flows R buffSz stream) (hpc : s.tunnel.pc = .reading f)
    (hblock : block.length = a.size) (hpermit : s.permits (.transfer a block) = true)
    (hmoves : TransferMoves s.tunnel.reader s.tunnel.errno f a res) :
    Looping R ⟨{ s.tunnel with
      pc := readPc res.outcome, errno := res.errno, reader := res.helper,
      buff := storeAt s.tunnel.buff f.moved block, input := s.tunnel.input ++ block },
      s.source.consume a.size⟩ := by
  obtain ⟨hcarries, hsourced, hlooping⟩ := h
  have hwriter := hlooping.writer (by rw [hpc]; rfl)
  have hreader := hlooping.reader (by rw [hpc]; rfl)
  have hinformed := hlooping.informed
  have hsound := hcarries.pc
  rw [hpc] at hinformed hsound
  have hkept : ∀ n, s.tunnel.reader.status < 0 → (s.source.consume n).Drained :=
    fun n hneg => (hreader hneg).consume n
  cases hmoves with
  | blocked hlook hle => exact .of_running rfl hwriter (hkept 0) trivial
  | cancelled hlook hlt hcancel =>
    have hle := hsourced.readerCnt
    have hsucc := nHup_succ
    omega
  | snapshot hlook hlt hcancel => exact .of_running rfl hwriter (hkept 0) hsourced.hup
  | woken hwait => exact .of_running rfl hwriter (hkept 0) trivial
  | timedOut hwait => exact .of_running rfl hwriter (hkept 0) trivial
  | called c tSz err hcall hge hle =>
    simp only [permits, hpc] at hpermit
    simp only [TunnelPc.Informed, hcall] at hinformed
    refine .of_running rfl hwriter (hkept _) ?_
    intro hleft
    obtain ⟨hqueue, hend, hblocked⟩ := SourceSocket.reads_short hpermit hleft
    refine ⟨fun hdr => ⟨?_, hqueue⟩, fun hneg => ?_⟩
    · exact hdr.elim hinformed hend
    · simpa only [if_pos hneg] using hblocked hneg
  | complete c tSz hsettle hdone =>
    have hpc' : readPc (.returned f.len) = .write f.len := by
      have hlen := hsound.1.len_pos
      simp [readPc, afterRead, show f.len ≠ 0 by omega]
    refine .of_running ?_ hwriter (hkept 0) ?_
    · simp only [hpc', TunnelPc.left]
    · simp only [hpc', TunnelPc.Informed]
  | partialDone c tSz hsettle hleft hwhole hpos =>
    simp only [TunnelPc.Informed, hsettle] at hinformed
    have hmoved := hsound.1.counted c tSz hsettle hwhole
    have hpc' : readPc (.returned ((f.len : Int) - f.dataLeft)) = .write f.moved := by
      have hle := hsound.1.left_le
      have hval : (f.len : Int) - f.dataLeft = f.moved := by
        unfold TransferFrame.moved
        omega
      rw [hval]
      simp [readPc, afterRead, show f.moved ≠ 0 by omega]
    refine .of_running ?_ hwriter (fun hneg => ?_) ?_
    · simp only [hpc', TunnelPc.left]
    · rcases TCPCommHelper.markSeen_status_neg hneg with hbefore | hhup
      · exact hkept 0 hbefore
      · exact ((hinformed hleft).1 (.inl hhup)).consume 0
    · simp only [hpc', TunnelPc.Informed]
  | failed c tSz hsettle hleft hwhole hneg =>
    simp only [TunnelPc.Informed, hsettle] at hinformed
    obtain ⟨hend, hblocked⟩ := hinformed hleft
    have hnone : tSz ≤ 0 := hwhole hsound.2.1
    have hmoved : f.moved = 0 := by
      have := hsound.1.counted c tSz hsettle hsound.2.1
      omega
    have hdrained : s.source.Drained := by
      rcases TCPCommHelper.markError_status_neg hneg with hseen | herror
      · exact (TCPCommHelper.markSeen_status_neg hseen).elim hreader fun hhup => hend (.inl hhup)
      · refine hend (.inr ?_)
        by_contra hzero
        exact herror (hblocked (by omega))
    refine .of_left ?_ ?_ (hdrained.consume 0)
    · simp [readPc, afterRead, hneg, TunnelPc.left]
    · obtain rfl : block = [] := List.eq_nil_of_length_eq_zero hblock
      have hR := hcarries.related (fun x y hxy => by
        simpa only [Tunnel.InHand, hpc, hmoved, List.take_zero] using hxy)
      simpa using hR
  | again c tSz hsettle hleft hwhole hok =>
    exact .of_running rfl hwriter (fun hneg => absurd hneg (Int.not_lt.mpr hok)) trivial

/-- A step inside the writer's `Transfer` that takes no short write for an error keeps the loop
going. -/
theorem Flows.looping_writing {dr : ℕ} {f : TransferFrame} {a : TransferAction} {block : Bytes}
    {res : TransferResult} (h : s.Flows R buffSz stream) (hpc : s.tunnel.pc = .writing dr f)
    (hcond : s.tunnel.misreadsErrno = false) (hpermit : s.permits (.transfer a block) = true)
    (hmoves : TransferMoves s.tunnel.writer s.tunnel.errno f a res) :
    Looping R ⟨{ s.tunnel with
      pc := writePc dr f.dataLeft res.outcome, errno := res.errno, writer := res.helper,
      accepted := s.tunnel.accepted ++ (s.tunnel.buff.drop f.moved).take a.size }, s.source⟩ := by
  obtain ⟨hcarries, hsourced, hlooping⟩ := h
  have hwriter := hlooping.writer (by rw [hpc]; rfl)
  have hreader := hlooping.reader (by rw [hpc]; rfl)
  have husable := hlooping.informed
  have hsound := hcarries.pc
  rw [hpc] at husable hsound
  have hread : f.misreadsErrno s.tunnel.errno = false := by
    simpa only [Tunnel.misreadsErrno, hpc] using hcond
  have hcall : ∀ tSz err, a = .call tSz err → tSz ≤ 0 → tSz < 0 ∧ err = eagain := by
    rintro tSz err rfl hnone
    have hresult : 0 < tSz ∨ tSz = -1 ∧ err = eagain := by simpa [permits, hpc] using hpermit
    omega
  have hstatus := hmoves.status_eq_zero hsourced.writerCnt hwriter husable hread
  cases hout : res.outcome with
  | running g =>
    exact .of_running rfl hstatus hreader (hmoves.usable_running hsourced.writerCnt husable hcall hout)
  | returned v =>
    have hnonneg := hmoves.returned_nonneg hsourced.writerCnt hwriter hsound.1 husable hread hout
    by_cases hzero : v = 0
    · subst hzero
      exact .of_running rfl hstatus hreader trivial
    · have hpc' : writePc dr f.dataLeft (.returned v) = .loop := by
        simp [writePc, afterWrite, hzero, Int.not_lt.mpr hnonneg]
      refine .of_running ?_ hstatus hreader ?_
      · simp only [hpc', TunnelPc.left]
      · simp only [hpc', TunnelPc.Informed]

/-- What a step inside the reader's `Transfer` delivers was at the front of the queue. -/
theorem permits_append {f : TransferFrame} {a : TransferAction} {block : Bytes}
    (hpc : s.tunnel.pc = .reading f) (hblock : block.length = a.size)
    (hpermit : s.permits (.transfer a block) = true) :
    block ++ (s.source.consume a.size).queue = s.source.queue := by
  cases a with
  | call tSz err =>
    simp only [permits, hpc] at hpermit
    exact SourceSocket.reads_append hpermit
  | look | wake | timeout | settle =>
    obtain rfl : block = [] := List.eq_nil_of_length_eq_zero hblock
    rfl

/-- A statement of the loop reads nothing and leaves the counters alone. -/
theorem Sourced.control {t : Tunnel} (h : s.Sourced stream)
    (hstep : s.tunnel.control buffSz = some t) : Sourced stream ⟨t, s.source⟩ := by
  obtain ⟨hstream, hfin, hcancel, hreader, hhup, hwriter⟩ := h
  have hshut : ∀ g : TCPCommHelper, g.shutdown.1.extCnt = g.extCnt := by
    intro g
    unfold TCPCommHelper.shutdown
    split <;> rfl
  unfold Tunnel.control at hstep
  split at hstep <;> cases hstep <;>
    exact ⟨hstream, hfin, hcancel, by simpa only [hshut] using hreader,
      by simpa only [hshut] using hhup, by simpa only [hshut] using hwriter⟩

/-- The notices of a normal close keep the invariant. -/
theorem Flows.notice {side : Side} {n : Notice} (h : s.Flows R buffSz stream)
    (hcarries : (s.tunnel.notice side n).Carries R buffSz)
    (hfew : s.overcounts (.job (.notice side n)) = false)
    (hpermit : s.permits (.notice side n) = true) :
    Flows R buffSz stream ⟨s.tunnel.notice side n, s.source⟩ := by
  obtain ⟨-, ⟨hstream, hfin, hcancel, hreader, hhup, hwriter⟩, hlooping⟩ := h
  refine ⟨hcarries, ?_, ?_⟩
  · cases side with
    | reader =>
      cases n with
      | dataAvail =>
        have hlt := TCPCommHelper.notifyDataAvail_lt hfew
        refine ⟨hstream, hfin, hcancel, TCPCommHelper.notify_le (by decide) hreader, ?_, hwriter⟩
        intro hc
        exact hhup (Nat.le_of_not_lt fun hbelow => Nat.not_lt.mpr hc (hlt.mpr hbelow))
      | hup =>
        have hend : s.source.fin = true := by simpa [permits] using hpermit
        exact ⟨hstream, hfin, hcancel, TCPCommHelper.notify_le (by decide) hreader, fun _ => hend,
          hwriter⟩
      | cancel => simp [permits] at hpermit
    | writer =>
      cases n with
      | dataAvail =>
        exact ⟨hstream, hfin, hcancel, hreader, hhup,
          (TCPCommHelper.notifyDataAvail_lt hfew).mpr hwriter⟩
      | hup => simp [permits] at hpermit
      | cancel => simp [permits] at hpermit
  · cases side with
    | reader =>
      refine ⟨hlooping.writer, fun hpc hneg => hlooping.reader hpc ?_, hlooping.informed,
        hlooping.finished⟩
      simpa [Tunnel.notice] using hneg
    | writer =>
      refine ⟨fun hpc => ?_, hlooping.reader, hlooping.informed, hlooping.finished⟩
      simpa [Tunnel.notice] using hlooping.writer hpc

/-- Every step of a normal close that loses no byte and leaves the counters below `N_HUP` keeps
the invariant, if the relation survives a repeated write. -/
theorem Flows.step {act : SessionAction} (happend : ∀ r a x, R r a → R (r ++ x) (a ++ x))
    (hrepeat : s.tunnel.repeatsBytes = true → ∀ r a y, R r a → R r (a ++ y))
    (hcond : s.tunnel.losesBytes = false) (hfew : s.overcounts act = false)
    (h : s.Flows R buffSz stream) (hstep : s.step buffSz act = some u) : u.Flows R buffSz stream := by
  simp only [Tunnel.losesBytes, Bool.or_eq_false_iff] at hcond
  cases act with
  | arrive n =>
    simp only [Session.step, Option.some.injEq] at hstep
    exact hstep ▸ h.arrive n
  | fin =>
    simp only [Session.step, Option.ite_none_right_eq_some, Option.some.injEq] at hstep
    exact hstep.2 ▸ h.fin hstep.1
  | job a =>
    simp only [Session.step, Option.ite_none_right_eq_some, Option.map_eq_some_iff] at hstep
    obtain ⟨hpermit, t, ht, rfl⟩ := hstep
    have hcarries := h.carries.step happend hrepeat ht
    cases a with
    | notice side n =>
      simp only [Tunnel.step, Option.some.injEq] at ht
      subst ht
      exact h.notice hcarries hfew hpermit
    | cancel => simp [permits] at hpermit
    | control => exact ⟨hcarries, h.sourced.control ht, h.looping_control hcond.2 ht⟩
    | transfer a block =>
      obtain ⟨hstream, hfin, hcancel, hreader, hhup, hwriter⟩ := h.sourced
      cases Tunnel.step_moves ht with
      | reading f a block res hpc hblock hmoves =>
        have hcnt := hmoves.extCnt_eq
        simp only [Tunnel.consumed, hpc]
        refine ⟨hcarries, ?_, h.looping_reading hpc hblock hpermit hmoves⟩
        refine ⟨?_, hfin, hcancel, hcnt ▸ hreader, hcnt ▸ hhup, hwriter⟩
        rw [← hstream, ← permits_append hpc hblock hpermit]
        simp only [SourceSocket.consume, List.append_assoc]
      | writing dr f a block res hpc hmoves =>
        have hcnt := hmoves.extCnt_eq
        simp only [Tunnel.consumed, hpc]
        refine ⟨hcarries, ⟨hstream, hfin, hcancel, hreader, hhup, hcnt ▸ hwriter⟩, ?_⟩
        exact h.looping_writing hpc hcond.1 hpermit hmoves

/-- The invariant holds at the start. -/
theorem Started.flows (h : s.Started buffSz) (hR : R [] []) :
    s.Flows R buffSz (s.source.queue ++ s.source.arriving) := by
  refine ⟨h.tunnel.carries hR, ?_, ?_⟩
  · refine ⟨?_, h.fin, h.cancel, h.readerCnt, h.hup, h.writerCnt⟩
    rw [h.tunnel.input, List.nil_append]
  · have hrunning : s.tunnel.pc.left = false := by rw [h.tunnel.pc]; rfl
    refine .of_running hrunning h.writer (fun hneg => ?_) (by rw [h.tunnel.pc]; trivial)
    rw [h.reader] at hneg
    contradiction

/-- Once the loop is left, the whole stream has been read, and is related to what was accepted. -/
theorem Flows.related (h : s.Flows R buffSz stream) (hleft : s.tunnel.pc.left = true) :
    R stream s.tunnel.accepted := by
  obtain ⟨hR, hdrained⟩ := h.looping.finished hleft
  have hstream := h.sourced.stream
  rw [hdrained.2, h.sourced.fin hdrained.1, List.append_nil, List.append_nil] at hstream
  exact hstream ▸ hR

/-- Completeness on normal close. In every run of a normal close whose steps lose no byte, and none
of whose notifications of data lifts a counter to `N_HUP`, the destination has accepted every
byte of the stream, in order, when `Execute` returns. If no step repeats bytes either, it has
accepted exactly the stream. -/
theorem accepted_of_done {actions : List SessionAction} (hstart : s.Started buffSz)
    (hmeets : RunMeets (Session.step buffSz)
      (fun v act => v.tunnel.losesBytes = false ∧ v.overcounts act = false) s actions)
    (hrun : runActions (Session.step buffSz) s actions = some u) (hdone : u.tunnel.pc = .done) :
    (s.source.queue ++ s.source.arriving).Sublist u.tunnel.accepted ∧
      (RunMeets (Session.step buffSz) (fun v _ => v.tunnel.repeatsBytes = false) s actions →
        u.tunnel.accepted = s.source.queue ++ s.source.arriving) := by
  have hleft : u.tunnel.pc.left = true := by rw [hdone]; rfl
  constructor
  · have hflows : u.Flows List.Sublist buffSz (s.source.queue ++ s.source.arriving) := by
      refine runActions_invariant_of_meets (fun v act v' hv hcond hstep => ?_)
        (hstart.flows (List.Sublist.refl [])) hmeets hrun
      refine hv.step (fun r a x hra => hra.append_right x) (fun _ r a y hra => ?_) hcond.1 hcond.2 hstep
      exact hra.trans (List.sublist_append_left a y)
    exact hflows.related hleft
  · intro hnorepeat
    have hflows : u.Flows Eq buffSz (s.source.queue ++ s.source.arriving) := by
      refine runActions_invariant_of_meets (fun v act v' hv hcond hstep => ?_)
        (hstart.flows rfl) (hmeets.and hnorepeat) hrun
      refine hv.step (fun r a x hra => by rw [hra]) (fun hbad => ?_) hcond.1.1 hcond.1.2 hstep
      rw [hcond.2] at hbad
      contradiction
    exact (hflows.related hleft).symm

/-- Two bytes wait in the receive queue of a fresh tunnel's source. -/
def twoBytes : Session := ⟨Tunnel.fresh, ⟨[], [65, 66], false⟩⟩

/-- The tunnel reads the two bytes. -/
def readBoth : List SessionAction :=
  [.job .control, .job .control, .job .control, .job (.transfer .look []),
    .job (.transfer (.call 2 0) [65, 66]), .job (.transfer .settle [])]

/-- The write begins, and the system call returns `tSz`. -/
def writeOnce (tSz : Int) : List SessionAction :=
  [.job .control, .job (.transfer .look []), .job (.transfer (.call tSz eagain) []),
    .job (.transfer .settle [])]

/-- The FIN arrives and is reported. -/
def close : List SessionAction := [.fin, .job (.notice .reader .hup)]

/-- The destination takes both bytes, and then the tunnel meets the end of the stream. -/
def inTime : List SessionAction :=
  readBoth ++ writeOnce 2 ++ [.job .control, .job .control, .job .control,
    .job (.transfer .look []), .job (.transfer (.call (-1) eagain) []), .job (.transfer .settle []),
    .job (.transfer .look [])] ++ close ++ [.job (.transfer .wake []), .job (.transfer .look []),
    .job (.transfer (.call 0 0) []), .job (.transfer .settle []), .job .control, .job .control]

/-- The destination has no space until the wait times out, and the FIN is reported meanwhile. -/
def tooSlow : List SessionAction :=
  readBoth ++ writeOnce (-1) ++ [.job (.transfer .look [])] ++ close ++
    [.job (.transfer .timeout []), .job .control, .job .control, .job .control]

/-- The destination has space for one byte, and no call has ever set `errno`. -/
def oneByte : List SessionAction :=
  readBoth ++ writeOnce 1 ++ close ++ [.job .control, .job .control]

/-- Two bytes in the queue are a start. -/
theorem twoBytes_started : twoBytes.Started 2 :=
  ⟨Tunnel.fresh_started, rfl, rfl, rfl, by decide, by decide, by decide, by decide⟩

/-- A destination that takes the bytes in time has them all at the end. -/
theorem accepted_of_done_inTime :
    ∃ u, runActions (Session.step 2) twoBytes inTime = some u ∧ u.tunnel.pc = .done ∧
      [65, 66].Sublist u.tunnel.accepted ∧ u.tunnel.accepted = [65, 66] := by
  have hmeets : RunMeets (Session.step 2)
      (fun v act => v.tunnel.losesBytes = false ∧ v.overcounts act = false) twoBytes inTime := by
    decide +kernel
  have hnorepeat : RunMeets (Session.step 2) (fun v _ => v.tunnel.repeatsBytes = false) twoBytes
      inTime := by decide +kernel
  refine ⟨_, rfl, rfl, ?_⟩
  have hall := accepted_of_done twoBytes_started hmeets rfl rfl
  exact ⟨hall.1, hall.2 hnorepeat⟩

/-- Bytes are lost when the FIN is reported before a stalled write times out, and when a short
write meets an `errno` that no call has set. -/
theorem close_loses_bytes :
    twoBytes.Started 2 ∧
      (∃ u, runActions (Session.step 2) twoBytes tooSlow = some u ∧ u.tunnel.pc = .done ∧
        u.tunnel.accepted = [] ∧
        ¬ (twoBytes.source.queue ++ twoBytes.source.arriving).Sublist u.tunnel.accepted) ∧
      ∃ u, runActions (Session.step 2) twoBytes oneByte = some u ∧ u.tunnel.pc = .done ∧
        u.tunnel.accepted = [65] ∧
        ¬ (twoBytes.source.queue ++ twoBytes.source.arriving).Sublist u.tunnel.accepted := by
  refine ⟨twoBytes_started, ⟨_, rfl, rfl, rfl, by decide⟩, _, rfl, rfl, rfl, by decide⟩

end Session

end TinySox
