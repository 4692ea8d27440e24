import TinySox.ByteBuffer
import TinySox.CommHelper

/-!
# The tunnel job

`Job_TCPTunnel::Execute` from its main loop on: the copy loop between the reader of one
handler and the writer of the other, and the two shutdowns after it. Each step is one
statement of the loop, or one step of a `Transfer` it is in. Other threads may notify
either helper or cancel the job between any two steps.

`input` and `accepted` record what the source socket has delivered and what the
destination socket has accepted. They are not part of the program.
-/

namespace TinySox

/-- Where `Execute` stands between two steps. -/
inductive TunnelPc
  /-- `while(!cancel.load())` -/
  | loop
  /-- `wHandler.writer->GetStatus()` -/
  | writerStatus
  /-- about to call `rHandler.reader->Transfer` -/
  | read
  | reading (f : TransferFrame)
  /-- about to call `wHandler.writer->Transfer` with the `dr` bytes that were read -/
  | write (dr : ℕ)
  | writing (dr : ℕ) (f : TransferFrame)
  /-- `rHandler.reader->GetStatus()`, after a write that returned 0 and left `left` bytes -/
  | readerStatus (dr left : ℕ)
  | shutdownReader
  | shutdownWriter
  | done
  deriving DecidableEq, Repr

/-- The state of one tunnel direction. -/
structure Tunnel where
  pc : TunnelPc
  cancel : Bool
  errno : ℕ
  reader : TCPCommHelper
  writer : TCPCommHelper
  buff : Bytes
  input : Bytes
  accepted : Bytes
  deriving DecidableEq, Repr

/-- Which of the two helpers is meant. -/
inductive Side
  | reader
  | writer
  deriving DecidableEq, Repr

/-- What can happen next. -/
inductive TunnelAction
  | notice (side : Side) (n : Notice)
  /-- `Job_TCPTunnel::Cancel` -/
  | cancel
  /-- the next statement of `Execute` -/
  | control
  /-- the next step inside `Transfer`; `block` is what a read delivers -/
  | transfer (a : TransferAction) (block : Bytes)
  deriving DecidableEq, Repr

/-- A notice reaches one of the helpers. -/
def Tunnel.notice (t : Tunnel) (side : Side) (n : Notice) : Tunnel :=
  match side with
  | .reader => { t with reader := t.reader.notify n }
  | .writer => { t with writer := t.writer.notify n }

/-- `dr` is negative, zero or positive: leave the loop, go round again, or write. -/
def afterRead (dr : Int) : TunnelPc :=
  if dr < 0 then .shutdownReader else if dr = 0 then .loop else .write dr.toNat

/-- A write that returned 0 is followed by the check of the reader, any other ends the inner
loop, and a failed one the outer loop too. -/
def afterWrite (dr left : ℕ) (status : Int) : TunnelPc :=
  if status = 0 then .readerStatus dr left else if status < 0 then .shutdownReader else .loop

/-- The inner loop repeats the write as long as the reader's status is 0. -/
def afterReaderStatus (dr : ℕ) (status : Int) : TunnelPc :=
  if status = 0 then .write dr else if status < 0 then .shutdownReader else .loop

/-- Where `Execute` stands after a step of the reader's `Transfer`. -/
def readPc : TransferOutcome → TunnelPc
  | .running f => .reading f
  | .returned dr => afterRead dr

/-- Where `Execute` stands after a step of the writer's `Transfer`, which had `left` bytes to go. -/
def writePc (dr left : ℕ) : TransferOutcome → TunnelPc
  | .running f => .writing dr f
  | .returned status => afterWrite dr left status

/-- The next statement of `Execute`. -/
def Tunnel.control (buffSz : ℕ) (t : Tunnel) : Option Tunnel :=
  match t.pc with
  | .loop => some { t with pc := if t.cancel then .shutdownReader else .writerStatus }
  | .writerStatus =>
    some { t with pc := if t.writer.getStatus < 0 then .shutdownReader else .read }
  | .read => some { t with pc := readPc (transferEnter t.reader buffSz true) }
  | .write dr => some { t with pc := writePc dr dr (transferEnter t.writer dr false) }
  | .readerStatus dr _ => some { t with pc := afterReaderStatus dr t.reader.getStatus }
  | .shutdownReader => some { t with reader := t.reader.shutdown.1, pc := .shutdownWriter }
  | .shutdownWriter => some { t with writer := t.writer.shutdown.1, pc := .done }
  | .reading _ | .writing _ _ | .done => none

/-- The next step of the `Transfer` that `Execute` is in. A read stores its block behind what
the call has already stored, a write sends from behind what the call has already sent. -/
def Tunnel.transfer (t : Tunnel) (a : TransferAction) (block : Bytes) : Option Tunnel :=
  match t.pc with
  | .reading f =>
    if block.length = a.size then
      (transferStep t.reader t.errno f a).map fun r =>
        { t with
          pc := readPc r.outcome
          errno := r.errno
          reader := r.helper
          buff := storeAt t.buff f.moved block
          input := t.input ++ block }
    else none
  | .writing dr f =>
    (transferStep t.writer t.errno f a).map fun r =>
      { t with
        pc := writePc dr f.dataLeft r.outcome
        errno := r.errno
        writer := r.helper
        accepted := t.accepted ++ (t.buff.drop f.moved).take a.size }
  | _ => none

/-- One step of the job or of the threads around it. -/
def Tunnel.step (buffSz : ℕ) (t : Tunnel) : TunnelAction → Option Tunnel
  | .notice side n => some (t.notice side n)
  | .cancel => some { t with cancel := true }
  | .control => t.control buffSz
  | .transfer a block => t.transfer a block

/-- Everything that a tunnel and the threads around it can do, with what each needs. -/
inductive Tunnel.Moves (buffSz : ℕ) (t : Tunnel) : TunnelAction → Tunnel → Prop
  | notice (side : Side) (n : Notice) : Moves buffSz t (.notice side n) (t.notice side n)
  | cancel : Moves buffSz t .cancel { t with cancel := true }
  | loop (hpc : t.pc = .loop) :
      Moves buffSz t .control { t with pc := if t.cancel then .shutdownReader else .writerStatus }
  | writerStatus (hpc : t.pc = .writerStatus) :
      Moves buffSz t .control
        { t with pc := if t.writer.getStatus < 0 then .shutdownReader else .read }
  | read (hpc : t.pc = .read) :
      Moves buffSz t .control { t with pc := readPc (transferEnter t.reader buffSz true) }
  | write (dr : ℕ) (hpc : t.pc = .write dr) :
      Moves buffSz t .control { t with pc := writePc dr dr (transferEnter t.writer dr false) }
  | readerStatus (dr left : ℕ) (hpc : t.pc = .readerStatus dr left) :
      Moves buffSz t .control { t with pc := afterReaderStatus dr t.reader.getStatus }
  | shutdownReader (hpc : t.pc = .shutdownReader) :
      Moves buffSz t .control { t with reader := t.reader.shutdown.1, pc := .shutdownWriter }
  | shutdownWriter (hpc : t.pc = .shutdownWriter) :
      Moves buffSz t .control { t with writer := t.writer.shutdown.1, pc := .done }
  | reading (f : TransferFrame) (a : TransferAction) (block : Bytes) (res : TransferResult)
      (hpc : t.pc = .reading f) (hblock : block.length = a.size)
      (hmoves : TransferMoves t.reader t.errno f a res) :
      Moves buffSz t (.transfer a block)
        { t with
          pc := readPc res.outcome
          errno := res.errno
          reader := res.helper
          buff := storeAt t.buff f.moved block
          input := t.input ++ block }
  | writing (dr : ℕ) (f : TransferFrame) (a : TransferAction) (block : Bytes) (res : TransferResult)
      (hpc : t.pc = .writing dr f) (hmoves : TransferMoves t.writer t.errno f a res) :
      Moves buffSz t (.transfer a block)
        { t with
          pc := writePc dr f.dataLeft res.outcome
          errno := res.errno
          writer := res.helper
          accepted := t.accepted ++ (t.buff.drop f.moved).take a.size }

/-- The step function does nothing but what the relation lists. -/
theorem Tunnel.step_moves {buffSz : ℕ} {t t' : Tunnel} {act : TunnelAction}
    (hstep : t.step buffSz act = some t') : t.Moves buffSz act t' := by
  cases act with
  | notice side n =>
    cases hstep
    exact .notice side n
  | cancel =>
    cases hstep
    exact .cancel
  | control =>
    simp only [step, control] at hstep
    split at hstep
    · rename_i hpc
      cases hstep
      exact .loop hpc
    · rename_i hpc
      cases hstep
      exact .writerStatus hpc
    · rename_i hpc
      cases hstep
      exact .read hpc
    · rename_i dr hpc
      cases hstep
      exact .write dr hpc
    · rename_i dr left hpc
      cases hstep
      exact .readerStatus dr left hpc
    · rename_i hpc
      cases hstep
      exact .shutdownReader hpc
    · rename_i hpc
      cases hstep
      exact .shutdownWriter hpc
    all_goals cases hstep
  | transfer a block =>
    simp only [step, transfer] at hstep
    split at hstep
    · rename_i f hpc
      simp only [Option.ite_none_right_eq_some, Option.map_eq_some_iff] at hstep
      obtain ⟨hblock, res, hres, rfl⟩ := hstep
      exact .reading f a block res hpc hblock (transferStep_moves hres)
    · rename_i dr f hpc
      obtain ⟨res, hres, rfl⟩ := Option.map_eq_some_iff.mp hstep
      exact .writing dr f a block res hpc (transferStep_moves hres)
    · cases hstep

/-- `Execute` is about to enter its main loop. The helpers may have been used before; every
status a helper stores is 0, -1 or -2. -/
structure Tunnel.Started (buffSz : ℕ) (t : Tunnel) : Prop where
  pc : t.pc = .loop
  status : t.reader.status ≤ 0
  buff : t.buff.length = buffSz
  input : t.input = []
  accepted : t.accepted = []

end TinySox
