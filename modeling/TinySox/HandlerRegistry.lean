import TinySox.Common.LabelledRun
import TinySox.Common.ThreadPool
import TinySox.JobProgram
import TinySox.TunnelJob

/-!
# The registry of handlers

`TCPCommService` with the kernel below it. Any number of threads create, look up and dispose of
handlers, while the worker thread fetches events from epoll and passes them on. Every method is cut
at its system calls and at the lock, and the calls may fail. The kernel hands out a number again as
soon as the descriptor that had it is closed.

The serial number of a descriptor, the origin of an event and the logs are not part of the program.
What jobs do with a helper is left out, and so is the message that an error sends.
-/

namespace TinySox

open TinySox.Common

/-- An open file descriptor. The serial number tells it from others with the same number. -/
structure Descriptor where
  fd : ℕ
  serial : ℕ
  deriving DecidableEq, Repr

/-- `TCPCommHandler` -/
structure TCPCommHandler where
  reader : TCPCommHelper
  writer : TCPCommHelper
  fd : Descriptor
  deriving DecidableEq, Repr

/-- The flags of an event that the worker looks at. -/
structure EpollFlags where
  err : Bool
  hup : Bool
  rdHup : Bool
  canRead : Bool
  canWrite : Bool
  deriving DecidableEq, Repr

/-- `epoll_event`, with the descriptor that it came from. -/
structure EpollEvent where
  id : ℕ
  flags : EpollFlags
  origin : Descriptor
  deriving DecidableEq, Repr

/-- The notices that the worker makes of an event. -/
def EpollFlags.notices (ev : EpollFlags) : List (Side × Notice) :=
  if ev.err || ev.hup then [(.reader, .hup), (.writer, .hup)]
  else
    (if ev.rdHup then [(.reader, .hup)] else if ev.canRead then [(.reader, .dataAvail)] else []) ++
      if ev.canWrite then [(.writer, .dataAvail)] else []

/-- A notice reaches one of the helpers. -/
def TCPCommHandler.notify (h : TCPCommHandler) : Side × Notice → TCPCommHandler
  | (.reader, n) => { h with reader := h.reader.notify n }
  | (.writer, n) => { h with writer := h.writer.notify n }

/-- The end of the worker: both helpers are cancelled. -/
def TCPCommHandler.cancel (h : TCPCommHandler) : TCPCommHandler :=
  { h with reader := h.reader.cancel, writer := h.writer.cancel }

/-- What a thread is about to do inside a method. -/
inductive CommOp
  /-- the socket is created, `connect` is next -/
  | connect (fd : Descriptor)
  /-- `connect` has failed with this error, `close` is next -/
  | closeFailed (fd : Descriptor) (error : ℕ)
  /-- `CreateHandlerFromSocket` waits for the lock -/
  | create (fd : Descriptor)
  /-- the handler is inserted under the lock, `epoll_ctl` is next -/
  | register (fd : Descriptor) (id : ℕ)
  /-- `DisposeHandler` waits for the lock -/
  | dispose (id : ℕ)
  /-- the handler is erased under the lock, `epoll_ctl` is next -/
  | deregister (fd : Descriptor)
  /-- and then `close` -/
  | closeDisposed (fd : Descriptor)
  /-- `GetHandler` waits for the lock -/
  | get (id : ℕ)
  deriving DecidableEq, Repr

/-- The descriptor that the method has to close or to register. -/
def CommOp.holds : CommOp → List Descriptor
  | connect fd | closeFailed fd _ | create fd | deregister fd | closeDisposed fd => [fd]
  | register _ _ | dispose _ | get _ => []

/-- Where the worker stands. -/
inductive CommWorkerPc
  /-- about to check the flag and to call `epoll_wait` -/
  | waiting
  /-- with events from `epoll_wait`, about to lock -/
  | fetched (events : List EpollEvent)
  /-- in the loop over the events, under the lock -/
  | handling (events : List EpollEvent)
  | done
  deriving DecidableEq, Repr

/-- The events that are still to be passed on. -/
def CommWorkerPc.events : CommWorkerPc → List EpollEvent
  | fetched events | handling events => events
  | waiting | done => []

/-- A call of `close` by the service, and whether a handler had the descriptor then. -/
structure CloseCall where
  fd : Descriptor
  registered : Bool
  deriving DecidableEq, Repr

/-- An event that was passed on, and the handler that got it. -/
structure Notification where
  event : EpollEvent
  id : ℕ
  fd : Descriptor
  deriving DecidableEq, Repr

/-- The service, the threads inside its methods, and the kernel. -/
structure TCPCommService where
  handlerIdCounter : ℕ
  commHandlers : List (ℕ × TCPCommHandler)
  /-- `manageLock` -/
  locked : Bool
  shutdownPending : Bool
  ops : List CommOp
  worker : CommWorkerPc
  /-- the open descriptors of the process -/
  opened : List Descriptor
  /-- what epoll watches, with the id that its events carry -/
  interest : List (Descriptor × ℕ)
  /-- the descriptors that other code has opened -/
  foreign : List Descriptor
  serials : ℕ
  /-- the descriptors that `ConnectAndCreateHandler` has opened -/
  dialled : List Descriptor
  /-- the descriptors for which `connect` has failed -/
  failed : List Descriptor
  /-- the descriptors of the handlers that were disposed of -/
  disposed : List Descriptor
  /-- the ids of the handlers that were created -/
  created : List ℕ
  /-- what the two creating methods have returned -/
  returned : List ℕ
  closes : List CloseCall
  notified : List Notification
  deriving DecidableEq, Repr

/-- How a system call ends. A `close` that fails may have released the descriptor or not. -/
structure CallResult where
  ok : Bool
  error : ℕ
  released : Bool
  deriving DecidableEq, Repr

/-- What can happen next. -/
inductive CommAction
  /-- other code opens a descriptor, `accept` for one -/
  | acquire (fd : ℕ)
  /-- and closes one of its own -/
  | release (fd : Descriptor)
  | createHandlerFromSocket (fd : Descriptor)
  /-- `socket` returns a descriptor, or fails -/
  | connectAndCreateHandler (socket : Option ℕ)
  | disposeHandler (id : ℕ)
  | getHandler (id : ℕ)
  /-- a thread inside a method goes on -/
  | op (i : ℕ) (r : CallResult)
  | requestShutdown
  /-- `epoll_wait` returns these events -/
  | fetch (events : List EpollEvent)
  /-- `epoll_wait` fails, and the worker ends -/
  | fetchFails
  /-- the worker goes on -/
  | worker
  deriving DecidableEq, Repr

/-- `HANDLER_ERROR_OTHER (UINT64_MAX)` -/
def handlerErrorOther : ℕ := 2 ^ 64 - 1

/-- The `errno` values that a failed `connect` is classified by. -/
def enetunreach : ℕ := 101

/-- See `enetunreach`. -/
def econnrefused : ℕ := 111

/-- See `enetunreach`. -/
def einprogress : ℕ := 115

/-- The error code of a failed `connect`. -/
def connectError (error : ℕ) : ℕ :=
  if error = econnrefused ∨ error = einprogress then handlerErrorConnRefused
  else if error = enetunreach then handlerErrorNetUnavail
  else handlerErrorOther

/-- An error code is none that a handler can have. -/
theorem handlerError_lt_connectError (error : ℕ) : handlerError < connectError error := by
  unfold connectError
  split_ifs <;> decide

namespace TCPCommService

/-- `commHandlers.find(id)` -/
def find (s : TCPCommService) (id : ℕ) : Option TCPCommHandler :=
  (s.commHandlers.find? fun e => e.1 = id).map Prod.snd

/-- Some handler has the descriptor. -/
def isRegistered (s : TCPCommService) (fd : Descriptor) : Bool :=
  s.commHandlers.any fun e => e.2.fd = fd

/-- The kernel opens a descriptor, with a number that no open descriptor has. -/
def allot (s : TCPCommService) (fd : ℕ) : Option (Descriptor × TCPCommService) :=
  if fd ∈ s.opened.map Descriptor.fd then none
  else
    some (⟨fd, s.serials⟩,
      { s with opened := ⟨fd, s.serials⟩ :: s.opened, serials := s.serials + 1 })

/-- The kernel has released a descriptor, and epoll forgets it. -/
def released (s : TCPCommService) (fd : Descriptor) : TCPCommService :=
  { s with
    opened := s.opened.filter (· ≠ fd)
    interest := s.interest.filter fun e => e.1 ≠ fd }

/-- `close(fd)` -/
def close (s : TCPCommService) (fd : Descriptor) (r : CallResult) : TCPCommService :=
  let s' := if r.ok || r.released then s.released fd else s
  { s' with closes := s.closes ++ [⟨fd, s.isRegistered fd⟩] }

/-- `++handlerIdCounter` -/
def nextId (s : TCPCommService) : ℕ := (s.handlerIdCounter + 1) % 2 ^ 64

/-- The part of `CreateHandlerFromSocket` under the lock, up to `epoll_ctl`. -/
def insert (s : TCPCommService) (fd : Descriptor) : TCPCommService :=
  let handler : TCPCommHandler :=
    ⟨newTCPCommHelper fd.fd true, newTCPCommHelper fd.fd false, fd⟩
  { s with
    handlerIdCounter := s.nextId
    -- `insert` keeps a handler that has the id already
    commHandlers :=
      if (s.find s.nextId).isSome then s.commHandlers else s.commHandlers ++ [(s.nextId, handler)]
    locked := true
    created := s.created ++ [s.nextId] }

/-- `commHandlers.erase(h)` under the lock, for the handler `x` with this id. -/
def erase (s : TCPCommService) (id : ℕ) (x : TCPCommHandler) : TCPCommService :=
  { s with
    commHandlers := s.commHandlers.eraseP fun e => e.1 = id
    locked := true
    disposed := x.fd :: s.disposed }

/-- The next step of a method, and what is left of the method. -/
def advance (s : TCPCommService) (r : CallResult) : CommOp → Option (TCPCommService × List CommOp)
  | .connect fd =>
    if r.ok then some (s, [.create fd])
    else some ({ s with failed := fd :: s.failed }, [.closeFailed fd r.error])
  | .closeFailed fd error =>
    let value := if r.ok then connectError error else handlerErrorOther
    let s' := s.close fd r
    some ({ s' with returned := s.returned ++ [value] }, [])
  | .create fd => if s.locked then none else some (s.insert fd, [.register fd s.nextId])
  | .register fd id =>
    let interest := if r.ok then (fd, id) :: s.interest else s.interest
    some ({ s with interest := interest, locked := false, returned := s.returned ++ [id] }, [])
  | .dispose id =>
    if s.locked then none
    else
      match s.find id with
      | some h => some (s.erase id h, [.deregister h.fd])
      | none => some (s, [])
  | .deregister fd =>
    let interest := if r.ok then s.interest.filter fun e => e.1 ≠ fd else s.interest
    some ({ s with interest := interest }, [.closeDisposed fd])
  | .closeDisposed fd =>
    let s' := s.close fd r
    some ({ s' with locked := false }, [])
  | .get _ => if s.locked then none else some (s, [])

/-- One event of the batch: it is passed on if its id has a handler. -/
def handle (s : TCPCommService) (e : EpollEvent) : TCPCommService :=
  match s.find e.id with
  | none => s
  | some h =>
    { s with
      commHandlers := s.commHandlers.map fun entry =>
        if entry.1 = e.id then (entry.1, e.flags.notices.foldl TCPCommHandler.notify entry.2)
        else entry
      notified := s.notified ++ [⟨e, e.id, h.fd⟩] }

/-- The next step of the worker, apart from `epoll_wait`. -/
def workerStep (s : TCPCommService) : Option TCPCommService :=
  match s.worker with
  | .waiting =>
    if s.shutdownPending ∧ s.locked = false then
      some { s with
        commHandlers := s.commHandlers.map fun entry => (entry.1, entry.2.cancel)
        worker := .done }
    else none
  | .fetched events =>
    if s.locked then none else some { s with locked := true, worker := .handling events }
  | .handling [] => some { s with locked := false, worker := .waiting }
  | .handling (e :: rest) =>
    let s' := s.handle e
    some { s' with worker := .handling rest }
  | .done => none

/-- One step of the service, of another thread or of the kernel. -/
def step (s : TCPCommService) : CommAction → Option TCPCommService
  | .acquire fd => (s.allot fd).map fun r => { r.2 with foreign := r.1 :: s.foreign }
  | .release fd =>
    if fd ∈ s.foreign then
      let s' := s.released fd
      some { s' with foreign := s.foreign.erase fd }
    else none
  | .createHandlerFromSocket fd =>
    if fd ∈ s.foreign then
      some { s with foreign := s.foreign.erase fd, ops := s.ops ++ [.create fd] }
    else none
  | .connectAndCreateHandler none =>
    some { s with returned := s.returned ++ [handlerErrorOther] }
  | .connectAndCreateHandler (some fd) =>
    (s.allot fd).map fun r =>
      { r.2 with dialled := r.1 :: s.dialled, ops := s.ops ++ [.connect r.1] }
  | .disposeHandler id => some { s with ops := s.ops ++ [.dispose id] }
  | .getHandler id => some { s with ops := s.ops ++ [.get id] }
  | .op i r =>
    (s.ops[i]?).bind fun op =>
      (s.advance r op).map fun t => { t.1 with ops := replaceAt s.ops i t.2 }
  | .requestShutdown => some { s with shutdownPending := true }
  | .fetch events =>
    -- the flag may have been set since it was checked
    if s.worker = .waiting ∧ ∀ e ∈ events, (e.origin, e.id) ∈ s.interest then
      some { s with worker := .fetched events }
    else none
  | .fetchFails => if s.worker = .waiting then some { s with worker := .done } else none
  | .worker => s.workerStep

/-- The service before its first call; other code may have opened some descriptors. -/
structure Fresh (s : TCPCommService) : Prop where
  counter : s.handlerIdCounter = 0
  handlers : s.commHandlers = []
  ops : s.ops = []
  worker : s.worker = .waiting
  interest : s.interest = []
  foreign : s.foreign = s.opened
  numbers : (s.opened.map Descriptor.fd).Nodup
  serials : ∀ d ∈ s.opened, d.serial < s.serials
  dialled : s.dialled = []
  failed : s.failed = []
  disposed : s.disposed = []
  created : s.created = []
  returned : s.returned = []
  closes : s.closes = []
  notified : s.notified = []

/-- The descriptors of the handlers. -/
def registered (s : TCPCommService) : List Descriptor := s.commHandlers.map fun e => e.2.fd

/-- The descriptors that some method is working on. -/
def held (s : TCPCommService) : List Descriptor := s.ops.flatMap CommOp.holds

/-- The descriptors that the service has closed. -/
def closed (s : TCPCommService) : List Descriptor := s.closes.map CloseCall.fd

/-- The descriptors that somebody has to close. -/
def owned (s : TCPCommService) : List Descriptor := s.held ++ s.registered ++ s.foreign

/-- Every descriptor has one owner, until it is closed once. -/
structure Custody (s : TCPCommService) : Prop where
  once : (s.closed ++ s.owned).Nodup
  dialled : ∀ d ∈ s.dialled, d ∈ s.closed ++ s.owned ∧ d ∉ s.foreign
  opened : ∀ d ∈ s.owned, d ∈ s.opened
  numbers : (s.opened.map Descriptor.fd).Nodup
  fresh : ∀ d, d ∈ s.closed ++ s.owned ∨ d ∈ s.opened → d.serial < s.serials
  unregistered : ∀ c ∈ s.closes, c.registered = false

variable {s t : TCPCommService}

/-- What the next step of a method does to the service, and what is left of the method. -/
inductive OpMoves (s : TCPCommService) (r : CallResult) :
    CommOp → TCPCommService → List CommOp → Prop
  | connected {fd : Descriptor} (hok : r.ok = true) : OpMoves s r (.connect fd) s [.create fd]
  | refused {fd : Descriptor} (hok : ¬r.ok = true) :
    OpMoves s r (.connect fd) { s with failed := fd :: s.failed } [.closeFailed fd r.error]
  | closedFailed {fd : Descriptor} {error : ℕ} :
    OpMoves s r (.closeFailed fd error)
      { s.close fd r with
        returned := s.returned ++ [if r.ok then connectError error else handlerErrorOther] } []
  | created {fd : Descriptor} (hfree : ¬s.locked = true) :
    OpMoves s r (.create fd) (s.insert fd) [.register fd s.nextId]
  | registered {fd : Descriptor} {id : ℕ} :
    OpMoves s r (.register fd id)
      { s with
        interest := if r.ok then (fd, id) :: s.interest else s.interest
        locked := false
        returned := s.returned ++ [id] } []
  | erased {id : ℕ} {x : TCPCommHandler} (hfree : ¬s.locked = true) (hfind : s.find id = some x) :
    OpMoves s r (.dispose id) (s.erase id x) [.deregister x.fd]
  | unknown {id : ℕ} (hfree : ¬s.locked = true) (hfind : s.find id = none) :
    OpMoves s r (.dispose id) s []
  | deregistered {fd : Descriptor} :
    OpMoves s r (.deregister fd)
      { s with interest := if r.ok then s.interest.filter fun e => e.1 ≠ fd else s.interest }
      [.closeDisposed fd]
  | closedDisposed {fd : Descriptor} :
    OpMoves s r (.closeDisposed fd) { s.close fd r with locked := false } []
  | got {id : ℕ} (hfree : ¬s.locked = true) : OpMoves s r (.get id) s []

/-- Every step of a method is one of these. -/
theorem advance_moves {op : CommOp} {r : CallResult} {s' : TCPCommService} {news : List CommOp}
    (hadvance : s.advance r op = some (s', news)) : OpMoves s r op s' news := by
  cases op with
  | connect fd =>
    simp only [advance] at hadvance
    split at hadvance
    · rename_i hok
      cases hadvance
      exact .connected hok
    · rename_i hok
      cases hadvance
      exact .refused hok
  | closeFailed fd error =>
    cases hadvance
    exact .closedFailed
  | create fd =>
    simp only [advance, Option.ite_none_left_eq_some] at hadvance
    obtain ⟨hfree, hadvance⟩ := hadvance
    cases hadvance
    exact .created hfree
  | register fd id =>
    cases hadvance
    exact .registered
  | dispose id =>
    simp only [advance, Option.ite_none_left_eq_some] at hadvance
    obtain ⟨hfree, hadvance⟩ := hadvance
    split at hadvance
    · rename_i x hfind
      cases hadvance
      exact .erased hfree hfind
    · rename_i hfind
      cases hadvance
      exact .unknown hfree hfind
  | deregister fd =>
    cases hadvance
    exact .deregistered
  | closeDisposed fd =>
    cases hadvance
    exact .closedDisposed
  | get id =>
    simp only [advance, Option.ite_none_left_eq_some] at hadvance
    obtain ⟨hfree, hadvance⟩ := hadvance
    cases hadvance
    exact .got hfree

/-- What the next step of the worker does. -/
inductive WorkerMoves (s : TCPCommService) : TCPCommService → Prop
  | stopped :
    WorkerMoves s { s with
      commHandlers := s.commHandlers.map fun entry => (entry.1, entry.2.cancel)
      worker := .done }
  | locked {events : List EpollEvent} (hpc : s.worker = .fetched events) :
    WorkerMoves s { s with locked := true, worker := .handling events }
  | unlocked : WorkerMoves s { s with locked := false, worker := .waiting }
  | handled {e : EpollEvent} {rest : List EpollEvent} (hpc : s.worker = .handling (e :: rest)) :
    WorkerMoves s { s.handle e with worker := .handling rest }

/-- Every step of the worker is one of these. -/
theorem workerStep_moves (hstep : s.workerStep = some t) : s.WorkerMoves t := by
  unfold workerStep at hstep
  split at hstep
  · simp only [Option.ite_none_right_eq_some, Option.some.injEq] at hstep
    obtain ⟨-, rfl⟩ := hstep
    exact .stopped
  · rename_i events hpc
    simp only [Option.ite_none_left_eq_some, Option.some.injEq] at hstep
    obtain ⟨-, rfl⟩ := hstep
    exact .locked hpc
  · cases hstep
    exact .unlocked
  · rename_i e rest hpc
    cases hstep
    exact .handled hpc
  · contradiction

/-- Descriptors pass from one owner to another. -/
theorem Custody.move (h : s.Custody) (hcloses : t.closes = s.closes) (howned : t.owned.Perm s.owned)
    (hforeign : ∀ d ∈ t.foreign, d ∈ s.foreign) (hopened : t.opened = s.opened)
    (hserials : t.serials = s.serials) (hdialled : t.dialled = s.dialled) : t.Custody := by
  have hclosed : t.closed = s.closed := congrArg (List.map CloseCall.fd) hcloses
  have hall : (t.closed ++ t.owned).Perm (s.closed ++ s.owned) := by
    rw [hclosed]
    exact howned.append_left s.closed
  constructor
  · exact hall.nodup_iff.mpr h.once
  · intro d hd
    rw [hdialled] at hd
    obtain ⟨hmem, hnot⟩ := h.dialled d hd
    exact ⟨hall.mem_iff.mpr hmem, fun hd' => hnot (hforeign d hd')⟩
  · intro d hd
    rw [hopened]
    exact h.opened d (howned.mem_iff.mp hd)
  · rw [hopened]
    exact h.numbers
  · intro d hd
    rw [hserials]
    rw [hall.mem_iff, hopened] at hd
    exact h.fresh d hd
  · rw [hcloses]
    exact h.unregistered

/-- A descriptor is opened, and gets an owner. -/
theorem Custody.allot (h : s.Custody) {fd : ℕ} {d : Descriptor} {s' : TCPCommService}
    (hallot : s.allot fd = some (d, s')) (hcloses : t.closes = s.closes)
    (howned : t.owned.Perm (d :: s.owned)) (hopened : t.opened = s'.opened)
    (hserials : t.serials = s'.serials)
    (hdialled : ∀ e ∈ t.dialled, e ∉ t.foreign ∧ (e = d ∨ e ∈ s.dialled)) : t.Custody := by
  unfold TCPCommService.allot at hallot
  split at hallot
  · contradiction
  · rename_i hnew
    simp only [Option.some.injEq, Prod.mk.injEq] at hallot
    obtain ⟨rfl, rfl⟩ := hallot
    have hclosed : t.closed = s.closed := congrArg (List.map CloseCall.fd) hcloses
    have hall : (t.closed ++ t.owned).Perm (⟨fd, s.serials⟩ :: (s.closed ++ s.owned)) := by
      rw [hclosed]
      exact (howned.append_left s.closed).trans List.perm_middle
    constructor
    · rw [hall.nodup_iff, List.nodup_cons]
      refine ⟨fun hmem => ?_, h.once⟩
      exact absurd (h.fresh _ (.inl hmem)) (Nat.lt_irrefl _)
    · intro e he
      obtain ⟨hnot, rfl | hold⟩ := hdialled e he
      · exact ⟨hall.mem_iff.mpr List.mem_cons_self, hnot⟩
      · exact ⟨hall.mem_iff.mpr (List.mem_cons_of_mem _ (h.dialled e hold).1), hnot⟩
    · intro e he
      rw [hopened]
      rcases List.mem_cons.mp (howned.mem_iff.mp he) with rfl | hold
      · exact List.mem_cons_self
      · exact List.mem_cons_of_mem _ (h.opened e hold)
    · rw [hopened, List.map_cons, List.nodup_cons]
      exact ⟨hnew, h.numbers⟩
    · intro e he
      rw [hserials]
      apply Nat.lt_succ_of_le
      rw [hall.mem_iff, hopened] at he
      have hcase : e = ⟨fd, s.serials⟩ ∨ e ∈ s.closed ++ s.owned ∨ e ∈ s.opened := by
        rcases he with he | he
        · exact (List.mem_cons.mp he).imp_right .inl
        · exact (List.mem_cons.mp he).imp_right .inr
      rcases hcase with rfl | hold
      · exact Nat.le_refl _
      · exact Nat.le_of_lt (h.fresh e hold)
    · rw [hcloses]
      exact h.unregistered

/-- An owner gives up a descriptor: the service by closing it, other code on its own account. -/
theorem Custody.giveUp (h : s.Custody) {d : Descriptor} {more : List CloseCall}
    (howned : s.owned.Perm (d :: t.owned)) (hcloses : t.closes = s.closes ++ more)
    (hmore : (more = [] ∧ d ∈ s.foreign) ∨ more = [⟨d, false⟩])
    (hopened : t.opened = s.opened ∨ t.opened = s.opened.filter (· ≠ d))
    (hforeign : ∀ e ∈ t.foreign, e ∈ s.foreign) (hserials : t.serials = s.serials)
    (hdialled : t.dialled = s.dialled) : t.Custody := by
  have hclosed : t.closed = s.closed ++ more.map CloseCall.fd := by
    rw [closed, hcloses, List.map_append]
    rfl
  have hbefore : (s.closed ++ (d :: t.owned)).Nodup :=
    (howned.append_left s.closed).nodup_iff.mp h.once
  have hother : ∀ e ∈ t.owned, e ≠ d := by
    rintro e he rfl
    exact (List.nodup_cons.mp (List.nodup_append.mp hbefore).2.1).1 he
  have hsub : ∀ e ∈ t.opened, e ∈ s.opened := by
    intro e he
    rcases hopened with hsame | hless
    · rwa [hsame] at he
    · rw [hless] at he
      exact (List.mem_filter.mp he).1
  have hmem : ∀ e, e ∈ t.closed ++ t.owned ↔ e ∈ s.closed ∨ e ∈ more.map CloseCall.fd ∨ e ∈ t.owned := by
    intro e
    rw [hclosed, List.mem_append, List.mem_append, or_assoc]
  have hin : ∀ e, e ∈ t.closed ++ t.owned → e ∈ s.closed ++ s.owned := by
    intro e he
    rw [List.mem_append, howned.mem_iff, List.mem_cons]
    rcases (hmem e).mp he with hold | hnew | hstill
    · exact .inl hold
    · rcases hmore with ⟨rfl, -⟩ | rfl
      · contradiction
      · exact .inr (.inl (List.mem_singleton.mp hnew))
    · exact .inr (.inr hstill)
  constructor
  · rcases hmore with ⟨rfl, -⟩ | rfl
    · rw [hclosed, List.map_nil, List.append_nil]
      exact hbefore.sublist (List.Sublist.append_left (List.sublist_cons_self d t.owned) s.closed)
    · rw [hclosed, List.map_singleton, List.append_assoc]
      exact hbefore
  · intro e he
    rw [hdialled] at he
    obtain ⟨hkept, hnot⟩ := h.dialled e he
    refine ⟨?_, fun hf => hnot (hforeign e hf)⟩
    rw [hmem]
    rw [List.mem_append, howned.mem_iff, List.mem_cons] at hkept
    rcases hkept with hold | rfl | hstill
    · exact .inl hold
    · rcases hmore with ⟨-, hd⟩ | rfl
      · exact absurd hd hnot
      · exact .inr (.inl (List.mem_singleton_self _))
    · exact .inr (.inr hstill)
  · intro e he
    have hopen : e ∈ s.opened := h.opened e (howned.mem_iff.mpr (List.mem_cons_of_mem d he))
    rcases hopened with hsame | hless
    · rwa [hsame]
    · rw [hless, List.mem_filter]
      exact ⟨hopen, decide_eq_true (hother e he)⟩
  · rcases hopened with hsame | hless
    · rw [hsame]
      exact h.numbers
    · rw [hless]
      exact h.numbers.sublist (List.filter_sublist.map Descriptor.fd)
  · intro e he
    rw [hserials]
    exact h.fresh e (he.imp (hin e) (hsub e))
  · intro c hc
    rw [hcloses] at hc
    rcases List.mem_append.mp hc with hold | hnew
    · exact h.unregistered c hold
    · rcases hmore with ⟨rfl, -⟩ | rfl
      · contradiction
      · rw [List.mem_singleton.mp hnew]

/-- What a method is working on belongs to no handler. -/
theorem Custody.not_registered (h : s.Custody) {d : Descriptor} (hd : d ∈ s.held) :
    s.isRegistered d = false := by
  by_contra hreg
  have hmem : d ∈ s.registered := by
    simp only [isRegistered, Bool.not_eq_false, List.any_eq_true, decide_eq_true_eq] at hreg
    obtain ⟨e, he, rfl⟩ := hreg
    exact List.mem_map_of_mem he
  have howned := (List.nodup_append.mp h.once).2.1
  rw [owned, List.append_assoc] at howned
  exact (List.nodup_append.mp howned).2.2 d hd d (List.mem_append_left _ hmem) rfl

/-- The first element with a property is the one that is erased. -/
theorem perm_cons_eraseP {α : Type} {p : α → Bool} {l : List α} {a : α}
    (hfind : l.find? p = some a) : l.Perm (a :: l.eraseP p) := by
  induction l with
  | nil => contradiction
  | cons b rest ih =>
    by_cases hb : p b = true
    · rw [List.find?_cons_of_pos hb] at hfind
      cases hfind
      rw [List.eraseP_cons_of_pos hb]
    · rw [List.find?_cons_of_neg hb] at hfind
      rw [List.eraseP_cons_of_neg hb]
      exact ((ih hfind).cons b).trans (List.Perm.swap a b _)

/-- The handler with an id, and the others. -/
theorem perm_of_find {id : ℕ} {x : TCPCommHandler} (hfind : s.find id = some x) :
    s.commHandlers.Perm ((id, x) :: s.commHandlers.eraseP fun e => e.1 = id) := by
  unfold find at hfind
  rw [Option.map_eq_some_iff] at hfind
  obtain ⟨⟨id', x'⟩, hentry, rfl⟩ := hfind
  obtain rfl : id' = id := by simpa using List.find?_some hentry
  exact perm_cons_eraseP hentry

/-- A step of one method changes what this method is working on, and nothing else that is held. -/
theorem held_split {i : ℕ} {op : CommOp} (hop : s.ops[i]? = some op) :
    ∃ rest : List Descriptor, s.held.Perm (op.holds ++ rest) ∧
      ∀ (u : TCPCommService) (news : List CommOp), u.ops = replaceAt s.ops i news →
        u.held.Perm (news.flatMap CommOp.holds ++ rest) := by
  obtain ⟨l, r, hops, hreplace⟩ := exists_split hop
  refine ⟨l.flatMap CommOp.holds ++ r.flatMap CommOp.holds, ?_, ?_⟩
  · rw [held, hops, List.flatMap_append, List.flatMap_cons]
    exact List.perm_append_comm_assoc _ _ _
  · intro u news hu
    rw [held, hu, hreplace, List.flatMap_append, List.flatMap_append]
    exact List.perm_append_comm_assoc _ _ _

/-- The descriptors that `close` gives up. -/
theorem close_opened (s : TCPCommService) (fd : Descriptor) (r : CallResult) :
    (s.close fd r).opened = s.opened ∨ (s.close fd r).opened = s.opened.filter (· ≠ fd) := by
  unfold close
  split
  · exact .inr rfl
  · exact .inl rfl

/-- `close` concerns the kernel only. -/
theorem close_frame (s : TCPCommService) (fd : Descriptor) (r : CallResult) :
    (s.close fd r).commHandlers = s.commHandlers ∧ (s.close fd r).foreign = s.foreign ∧
      (s.close fd r).serials = s.serials ∧ (s.close fd r).dialled = s.dialled ∧
        (s.close fd r).closes = s.closes ++ [⟨fd, s.isRegistered fd⟩] := by
  unfold close
  split <;> exact ⟨rfl, rfl, rfl, rfl, rfl⟩

/-- `close` is about no id. -/
theorem close_ids (s : TCPCommService) (fd : Descriptor) (r : CallResult) :
    (s.close fd r).handlerIdCounter = s.handlerIdCounter ∧ (s.close fd r).created = s.created ∧
      (s.close fd r).commHandlers = s.commHandlers ∧ (s.close fd r).notified = s.notified ∧
        (s.close fd r).worker = s.worker ∧ (s.close fd r).returned = s.returned := by
  unfold close
  split <;> exact ⟨rfl, rfl, rfl, rfl, rfl, rfl⟩

/-- A method that closes its descriptor gives it up. -/
theorem Custody.close {d : Descriptor} {rest : List Descriptor} {r : CallResult} (h : s.Custody)
    (hheld : s.held.Perm (d :: rest)) (hheld' : t.held.Perm rest)
    (hclose : t.commHandlers = s.commHandlers ∧ t.foreign = s.foreign ∧ t.serials = s.serials ∧
      t.dialled = s.dialled ∧ t.closes = s.closes ++ [⟨d, s.isRegistered d⟩])
    (hopened : t.opened = (s.close d r).opened) : t.Custody := by
  obtain ⟨hhandlers, hforeign, hserials, hdialled, hcloses⟩ := hclose
  have hnot : s.isRegistered d = false :=
    h.not_registered (hheld.mem_iff.mpr List.mem_cons_self)
  have howned : s.owned.Perm (d :: t.owned) := by
    have hreg : t.registered = s.registered := by rw [registered, hhandlers, registered]
    rw [owned, owned, hreg, hforeign, List.append_assoc, List.append_assoc]
    exact (hheld.append_right _).trans ((hheld'.symm.append_right _).cons d)
  rw [hnot] at hcloses
  apply h.giveUp howned hcloses (.inr rfl)
  · rw [hopened]
    exact s.close_opened d r
  · rw [hforeign]
    exact fun e he => he
  · exact hserials
  · exact hdialled

/-- A descriptor passes between a method and a handler, or stays where it is. -/
theorem Custody.pass (h : s.Custody) (hheld : (t.held ++ t.registered).Perm (s.held ++ s.registered))
    (hframe : t.foreign = s.foreign ∧ t.opened = s.opened ∧ t.serials = s.serials ∧
      t.dialled = s.dialled ∧ t.closes = s.closes) : t.Custody := by
  obtain ⟨hforeign, hopened, hserials, hdialled, hcloses⟩ := hframe
  have howned : t.owned.Perm s.owned := by
    rw [owned, owned, hforeign]
    exact hheld.append_right s.foreign
  have hsub : ∀ d ∈ t.foreign, d ∈ s.foreign := by
    rw [hforeign]
    exact fun d hd => hd
  exact h.move hcloses howned hsub hopened hserials hdialled

/-- A step inside a method keeps the custody of every descriptor, if the next id is a new one. -/
theorem Custody.op {i : ℕ} {op : CommOp} {r : CallResult} {s' : TCPCommService}
    {news : List CommOp} (h : s.Custody) (hnew : s.find s.nextId = none)
    (hop : s.ops[i]? = some op) (hadvance : s.advance r op = some (s', news)) :
    Custody { s' with ops := replaceAt s.ops i news } := by
  obtain ⟨rest, hbefore, hafter⟩ := held_split hop
  replace hafter := hafter { s' with ops := replaceAt s.ops i news } news rfl
  cases advance_moves hadvance with
  | connected | refused | registered | unknown | deregistered | got =>
    exact h.pass ((hafter.trans hbefore.symm).append_right _) ⟨rfl, rfl, rfl, rfl, rfl⟩
  | @closedFailed fd | @closedDisposed fd => exact h.close hbefore hafter (s.close_frame fd r) rfl
  | @created fd =>
    have hinsert : (s.insert fd).registered = s.registered ++ [fd] := by
      simp [insert, registered, hnew]
    have hmoved : (rest ++ (s.registered ++ [fd])).Perm (fd :: (rest ++ s.registered)) := by
      rw [← List.append_assoc]
      exact List.perm_append_singleton fd _
    have hpassed := hafter.append_right (s.registered ++ [fd])
    rw [← hinsert] at hpassed hmoved
    exact h.pass (hpassed.trans (hmoved.trans (hbefore.symm.append_right _)))
      ⟨rfl, rfl, rfl, rfl, rfl⟩
  | @erased id x _ hfind =>
    have hreg : s.registered.Perm (x.fd :: (s.erase id x).registered) :=
      (perm_of_find hfind).map fun e : ℕ × TCPCommHandler => e.2.fd
    have hback : (x.fd :: rest ++ (s.erase id x).registered).Perm (rest ++ s.registered) :=
      (List.perm_middle.symm.trans (hreg.symm.append_left rest))
    exact h.pass ((hafter.append_right _).trans (hback.trans (hbefore.symm.append_right _)))
      ⟨rfl, rfl, rfl, rfl, rfl⟩

/-- Opening a descriptor concerns the kernel only, and it is a new one. -/
theorem allot_frame {fd : ℕ} {d : Descriptor} {s' : TCPCommService}
    (hallot : s.allot fd = some (d, s')) : d.serial = s.serials ∧ s'.ops = s.ops ∧
      s'.commHandlers = s.commHandlers ∧ s'.foreign = s.foreign ∧ s'.closes = s.closes ∧
        s'.dialled = s.dialled := by
  unfold allot at hallot
  split at hallot
  · contradiction
  · simp only [Option.some.injEq, Prod.mk.injEq] at hallot
    obtain ⟨rfl, rfl⟩ := hallot
    exact ⟨rfl, rfl, rfl, rfl, rfl, rfl⟩

/-- Another method is called. -/
theorem held_append (s : TCPCommService) (op : CommOp) :
    ({ s with ops := s.ops ++ [op] } : TCPCommService).held = s.held ++ op.holds := by
  simp [held]

/-- Notices leave the descriptor of a handler as it is. -/
theorem foldl_notify_fd (x : TCPCommHandler) (l : List (Side × Notice)) :
    (l.foldl TCPCommHandler.notify x).fd = x.fd := by
  induction l generalizing x with
  | nil => rfl
  | cons n rest ih =>
    rw [List.foldl_cons, ih]
    obtain ⟨side, n⟩ := n
    cases side <;> rfl

/-- Passing an event on changes no descriptor. -/
theorem handle_frame (s : TCPCommService) (e : EpollEvent) :
    (s.handle e).registered = s.registered ∧ (s.handle e).held = s.held ∧
      (s.handle e).foreign = s.foreign ∧ (s.handle e).opened = s.opened ∧
        (s.handle e).serials = s.serials ∧ (s.handle e).dialled = s.dialled ∧
          (s.handle e).closes = s.closes := by
  unfold handle
  split
  · exact ⟨rfl, rfl, rfl, rfl, rfl, rfl, rfl⟩
  · refine ⟨?_, rfl, rfl, rfl, rfl, rfl, rfl⟩
    rw [registered, registered, List.map_map]
    apply List.map_congr_left
    intro entry _
    simp only [Function.comp_apply]
    split
    · exact foldl_notify_fd entry.2 _
    · rfl

/-- Passing events on keeps the ids of the handlers. -/
theorem handle_keys (s : TCPCommService) (e : EpollEvent) :
    (s.handle e).commHandlers.map Prod.fst = s.commHandlers.map Prod.fst := by
  unfold TCPCommService.handle
  split
  · rfl
  · rw [List.map_map]
    apply List.map_congr_left
    intro entry _
    simp only [Function.comp_apply]
    split <;> rfl

/-- And so does the end of the worker. -/
theorem cancel_keys (s : TCPCommService) :
    (s.commHandlers.map fun entry => (entry.1, entry.2.cancel)).map Prod.fst =
      s.commHandlers.map Prod.fst := by
  rw [List.map_map]
  rfl

/-- The worker changes no descriptor. -/
theorem Custody.worker (h : s.Custody) (hstep : s.workerStep = some t) : t.Custody := by
  cases workerStep_moves hstep with
  | stopped =>
    have hreg : (s.commHandlers.map fun entry => (entry.1, entry.2.cancel)).map (fun e => e.2.fd) =
        s.commHandlers.map fun e => e.2.fd := by
      rw [List.map_map]
      rfl
    have hsame : (s.held ++ (s.commHandlers.map fun entry => (entry.1, entry.2.cancel)).map
        fun e => e.2.fd).Perm (s.held ++ s.registered) := by
      rw [hreg]
      exact List.Perm.refl _
    exact h.pass hsame ⟨rfl, rfl, rfl, rfl, rfl⟩
  | locked | unlocked => exact h.pass (List.Perm.refl _) ⟨rfl, rfl, rfl, rfl, rfl⟩
  | @handled e =>
    obtain ⟨hreg, hheld, hframe⟩ := s.handle_frame e
    have hsame : ((s.handle e).held ++ (s.handle e).registered).Perm (s.held ++ s.registered) := by
      rw [hreg, hheld]
    exact h.pass hsame hframe

/-- Every step keeps the custody of every descriptor, if the next id is a new one. -/
theorem custody_step {act : CommAction} (h : s.Custody) (hnew : s.find s.nextId = none)
    (hstep : s.step act = some t) : t.Custody := by
  have hknown (d : Descriptor) (hd : d ∈ s.dialled) : d.serial < s.serials :=
    h.fresh d (.inl (h.dialled d hd).1)
  cases act with
  | acquire fd =>
    simp only [step, Option.map_eq_some_iff] at hstep
    obtain ⟨⟨d, s'⟩, hallot, rfl⟩ := hstep
    obtain ⟨hserial, hops, hhandlers, hforeign, hcloses, hdialled⟩ := allot_frame hallot
    refine h.allot hallot hcloses ?_ rfl rfl fun e he => ⟨?_, .inr (hdialled ▸ he)⟩
    · simp only [owned, held, registered, hops, hhandlers]
      exact List.perm_middle
    · dsimp only at he
      rw [hdialled] at he
      intro hmem
      rcases List.mem_cons.mp hmem with rfl | hold
      · have := hknown e he
        omega
      · exact (h.dialled e he).2 hold
  | release fd =>
    simp only [step, Option.ite_none_right_eq_some, Option.some.injEq] at hstep
    obtain ⟨hmem, rfl⟩ := hstep
    have howned : s.owned.Perm (fd :: (s.held ++ s.registered ++ s.foreign.erase fd)) :=
      ((List.perm_cons_erase hmem).append_left _).trans List.perm_middle
    exact h.giveUp howned (List.append_nil _).symm (.inl ⟨rfl, hmem⟩) (.inr rfl)
      (fun e he => List.mem_of_mem_erase he) rfl rfl
  | createHandlerFromSocket fd =>
    simp only [step, Option.ite_none_right_eq_some, Option.some.injEq] at hstep
    obtain ⟨hmem, rfl⟩ := hstep
    refine h.move rfl ?_ (fun e he => List.mem_of_mem_erase he) rfl rfl rfl
    rw [List.perm_iff_count]
    intro d
    have hcount := (List.perm_cons_erase hmem).count_eq d
    simp only [owned, held, registered, List.flatMap_append, List.flatMap_singleton, CommOp.holds,
      List.count_append, List.count_cons, List.count_nil] at hcount ⊢
    omega
  | connectAndCreateHandler socket =>
    cases socket with
    | none =>
      cases hstep
      exact h.pass (List.Perm.refl _) ⟨rfl, rfl, rfl, rfl, rfl⟩
    | some fd =>
      simp only [step, Option.map_eq_some_iff] at hstep
      obtain ⟨⟨d, s'⟩, hallot, rfl⟩ := hstep
      obtain ⟨hserial, hops, hhandlers, hforeign, hcloses, hdialled⟩ := allot_frame hallot
      refine h.allot hallot hcloses ?_ rfl rfl fun e he => ⟨?_, List.mem_cons.mp he⟩
      · rw [List.perm_iff_count]
        intro e
        simp only [owned, held, registered, hhandlers, hforeign, List.flatMap_append,
          List.flatMap_singleton, CommOp.holds, List.count_append, List.count_cons, List.count_nil]
        omega
      · intro hmem
        dsimp only at hmem
        rw [hforeign] at hmem
        rcases List.mem_cons.mp he with rfl | hold
        · have hopen := h.opened e (List.mem_append_right _ hmem)
          have := h.fresh e (.inr hopen)
          omega
        · exact (h.dialled e hold).2 hmem
  | disposeHandler id =>
    cases hstep
    have hsame := s.held_append (.dispose id)
    rw [CommOp.holds, List.append_nil] at hsame
    exact h.pass (by rw [hsame]; exact List.Perm.refl _) ⟨rfl, rfl, rfl, rfl, rfl⟩
  | getHandler id =>
    cases hstep
    have hsame := s.held_append (.get id)
    rw [CommOp.holds, List.append_nil] at hsame
    exact h.pass (by rw [hsame]; exact List.Perm.refl _) ⟨rfl, rfl, rfl, rfl, rfl⟩
  | op i r =>
    simp only [step, Option.bind_eq_some_iff, Option.map_eq_some_iff] at hstep
    obtain ⟨op, hop, ⟨s', news⟩, hadvance, rfl⟩ := hstep
    exact h.op hnew hop hadvance
  | requestShutdown =>
    cases hstep
    exact h.pass (List.Perm.refl _) ⟨rfl, rfl, rfl, rfl, rfl⟩
  | fetch events =>
    simp only [step, Option.ite_none_right_eq_some, Option.some.injEq] at hstep
    obtain ⟨-, rfl⟩ := hstep
    exact h.pass (List.Perm.refl _) ⟨rfl, rfl, rfl, rfl, rfl⟩
  | fetchFails =>
    simp only [step, Option.ite_none_right_eq_some, Option.some.injEq] at hstep
    obtain ⟨-, rfl⟩ := hstep
    exact h.pass (List.Perm.refl _) ⟨rfl, rfl, rfl, rfl, rfl⟩
  | worker => exact h.worker hstep

end TCPCommService

end TinySox
