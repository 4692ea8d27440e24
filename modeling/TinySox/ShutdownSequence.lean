import TinySox.HelperRefinement

/-!
# The shutdown of the program

`main` with the listeners, the worker of `TCPCommService`, the dispatcher, and all that is in the
pipeline. `main` first sets the flags of all components and then waits for their threads, each in
the same order: the listeners, the service, the dispatcher. The service cancels the helpers of the
handlers that it finds registered, under the lock of the registry, and the dispatcher cancels the
jobs whose workers are active.

`main` may leave its signal loop at any time, for a signal or for the failure of a component. A
listener creates the handler of a client and announces it later; its message is processed in its own
thread. The pools of the dispatcher are left
out, apart from the jobs: those that are not finished are the active ones. The list of the handlers
that were told to stop, and the counts of what a job has done since, are not part of the program.
-/

namespace TinySox

open TinySox.Common

/-- Where `main` stands. -/
inductive MainPc
  /-- in the signal loop -/
  | serving
  /-- `RequestShutdown` of this listener, and of the service after the last one -/
  | requestListener (i : ℕ)
  | requestDispatcher
  /-- `Shutdown` of this listener -/
  | joinListener (i : ℕ)
  | joinService
  | joinDispatcher
  | returned
  deriving DecidableEq, Repr

/-- Where `TCPServerListener::Worker` stands, once it listens. -/
inductive ListenerPc
  /-- `while (!shutdownPending.load())` -/
  | loop
  /-- `poll`, and `accept` after it -/
  | polling
  /-- after `CreateHandlerFromSocket`, until `SendMessage` has returned for this handler -/
  | sending (id : ℕ)
  | ended
  deriving DecidableEq, Repr

/-- A listener, with its thread. -/
structure TCPServerListener where
  shutdownPending : Bool
  pc : ListenerPc
  deriving DecidableEq, Repr

/-- How `poll` and `accept` end. -/
inductive PollResult
  /-- no connection, or none that can be accepted -/
  | nothing
  /-- `poll` fails, or is interrupted by a signal -/
  | failed
  | accepted (fd : Int)
  deriving DecidableEq, Repr

/-- Where `TCPCommService::Worker` stands. -/
inductive ServicePc
  /-- the loop around `epoll_wait` -/
  | serving
  /-- in the loop over the handlers, under the lock, with these helpers to go -/
  | cancelling (left : List HelperKey)
  /-- all handlers were told to stop -/
  | terminated
  /-- `epoll_wait` has failed -/
  | failed
  deriving DecidableEq, Repr

/-- The helpers that are still to be cancelled, once the worker has begun to. -/
def ServicePc.left : ServicePc → Option (List HelperKey)
  | .serving | .failed => none
  | .cancelling left => some left
  | .terminated => some []

/-- The worker holds `manageLock` while it cancels. -/
def ServicePc.holdsLock : ServicePc → Bool
  | .cancelling _ => true
  | _ => false

/-- Where the dispatcher stands. -/
inductive StopStage
  /-- the loop of `Worker`, and the wait until no message is processed -/
  | running
  /-- it stops the active workers, and waits for them -/
  | stopping
  | returned
  deriving DecidableEq, Repr

/-- What is known of a job besides its task: its flag `cancel`, and what its main loop has done since
both the flag was set and the service was done. -/
structure JobMark where
  cancelled : Bool
  /-- statements outside of `Transfer` -/
  statements : ℕ
  /-- calls of the reader's `Transfer` that have started -/
  reads : ℕ
  /-- calls of the writer's `Transfer` that have started -/
  writes : ℕ
  deriving DecidableEq, Repr

namespace JobMark

/-- `cancel.store(false)` -/
def fresh : JobMark := ⟨false, 0, 0, 0⟩

/-- One more statement, which may start a `Transfer`. -/
def count (m : JobMark) : Option Side → JobMark
  | some .reader => { m with statements := m.statements + 1, reads := m.reads + 1 }
  | some .writer => { m with statements := m.statements + 1, writes := m.writes + 1 }
  | none => { m with statements := m.statements + 1 }

end JobMark

/-- The `Transfer` that the next statement of the main loop starts. -/
def TunnelPc.starts : TunnelPc → Option Side
  | .read => some .reader
  | .write _ => some .writer
  | _ => none

/-- The statement of the main loop that a move of the task is, with the `Transfer` that it starts. -/
def Task.statement : Task → TaskMove → Option (Option Side)
  | .copying _ _ _ t, .copy .control => some t.pc.starts
  | _, _ => none

/-- The mark of the tasks that take the place of this one. -/
def JobMark.after (ended : Bool) (m : JobMark) (task : Task) : TaskMove → JobMark
  | .process | .discard | .finish | .spawn _ => .fresh
  | move =>
    match task.statement move with
    | some starts => if ended && m.cancelled then m.count starts else m
    | none => m

/-- The operation ends under `manageLock`. -/
def eventLocks : Event JobOp.Answer → Bool
  | ⟨.getHandler _, _⟩ | ⟨.disposeHandler _, _⟩ => true
  | ⟨.connectAndCreateHandler _ _, (id : ℕ)⟩ => decide (id ≤ handlerError)
  | _ => false

/-- A listener is to send its message, or `OnMessage` for it is not over. -/
def Tracked.announces (tr : Tracked) : Bool :=
  match tr.role, tr.task with
  | .factory (.newClient _), _ => true
  | .result, .accepted _ => true
  | .result, .result (.newClient _) => true
  | _, _ => false

/-- `CreateJobsFromResult` and what follows in `OnMessageInternal` are not over. -/
def Tracked.isProcessed (tr : Tracked) : Bool :=
  match tr.role with
  | .factory _ => true
  | _ => false

/-- The whole program. -/
structure ShutdownSequence where
  pipeline : HelperPipeline
  /-- one for each task -/
  marks : List JobMark
  main : MainPc
  listeners : List TCPServerListener
  /-- `shutdownPending` of the service -/
  serviceFlag : Bool
  service : ServicePc
  /-- the handlers that were registered when the service began to cancel -/
  told : List ℕ
  /-- `shutdownPending` of the dispatcher -/
  dispatcherFlag : Bool
  dispatcher : StopStage

/-- What can happen next. -/
inductive ShutdownAction
  | main
  | listener (i : ℕ) (result : PollResult)
  /-- the worker of the service passes on an event -/
  | notice (key : HelperKey) (n : Notice)
  /-- it finds its flag set and goes through the handlers in this order -/
  | broadcast (order : List ℕ)
  /-- it goes on to cancel -/
  | service
  | serviceFails
  | dispatcher
  /-- the dispatcher calls `Cancel` on the job of this task -/
  | cancelJob (i : ℕ)
  /-- a task makes a move; a `Transfer` leaves these two fields behind -/
  | task (i : ℕ) (move : TaskMove) (status : Int) (intCnt : ℕ)

namespace ShutdownSequence

variable (env : Settings)

/-- The components were started, and nobody has connected yet. -/
def initial (openFds : Int → Bool) (listeners : ℕ) : ShutdownSequence where
  pipeline := .initial openFds fun _ => newTCPCommHelper 0 false
  marks := []
  main := .serving
  listeners := List.replicate listeners ⟨false, .loop⟩
  serviceFlag := false
  service := .serving
  told := []
  dispatcherFlag := false
  dispatcher := .running

/-- The ids of the handlers in `commHandlers`. -/
def registered (s : ShutdownSequence) : List ℕ :=
  (List.range (s.pipeline.shared.handlerIdCounter + 1)).filter s.pipeline.shared.isRegistered

/-- The next step of `main`. -/
def mainStep (s : ShutdownSequence) : Option ShutdownSequence :=
  match s.main with
  | .serving => some { s with main := .requestListener 0 }
  | .requestListener i =>
    match s.listeners[i]? with
    | some l => some { s with
        listeners := s.listeners.set i { l with shutdownPending := true }
        main := .requestListener (i + 1) }
    | none => some { s with serviceFlag := true, main := .requestDispatcher }
  | .requestDispatcher => some { s with dispatcherFlag := true, main := .joinListener 0 }
  | .joinListener i =>
    match s.listeners[i]? with
    | some l => if l.pc = .ended then some { s with main := .joinListener (i + 1) } else none
    | none => some { s with main := .joinService }
  | .joinService =>
    if s.service = .terminated ∨ s.service = .failed then some { s with main := .joinDispatcher }
    else none
  | .joinDispatcher => if s.dispatcher = .returned then some { s with main := .returned } else none
  | .returned => none

/-- The listener goes on from there. -/
def setListener (s : ShutdownSequence) (i : ℕ) (l : TCPServerListener) (pc : ListenerPc) :
    ShutdownSequence :=
  { s with listeners := s.listeners.set i { l with pc := pc } }

/-- The next step of a listener. -/
def listenerStep (s : ShutdownSequence) (i : ℕ) (result : PollResult) : Option ShutdownSequence :=
  s.listeners[i]?.bind fun l =>
    match l.pc with
    | .loop => some (s.setListener i l (if l.shutdownPending then .ended else .polling))
    | .polling =>
      match result with
      | .nothing => some (s.setListener i l .loop)
      | .failed => some (s.setListener i l .ended)
      | .accepted fd =>
        -- `CreateHandlerFromSocket` takes the lock
        if s.service.holdsLock then none
        else
          (s.pipeline.step env (.accept fd)).map fun next =>
            { s.setListener i l (.sending next.shared.handlerIdCounter) with
              pipeline := next
              marks := .fresh :: s.marks }
    | .sending id =>
      if s.pipeline.tasks.any fun tr => tr.announces && tr.client = id then none
      else some (s.setListener i l (if handlerError < id then .ended else .loop))
    | .ended => none

/-- The next handler is told to stop, one helper after the other. -/
def serviceStep (s : ShutdownSequence) : Option ShutdownSequence :=
  match s.service with
  | .cancelling (key :: left) =>
    (s.pipeline.step env (.notice key .cancel)).map fun next =>
      { s with pipeline := next, service := .cancelling left }
  | .cancelling [] => some { s with service := .terminated }
  | _ => none

/-- The dispatcher goes on when no message is processed, and when no job is left. -/
def dispatcherStep (s : ShutdownSequence) : Option ShutdownSequence :=
  match s.dispatcher with
  | .running =>
    if s.dispatcherFlag = true ∧ s.pipeline.tasks.all (fun tr => !tr.isProcessed) = true then
      some { s with dispatcher := .stopping }
    else none
  | .stopping =>
    if s.pipeline.tasks.all Tracked.announces = true then some { s with dispatcher := .returned }
    else none
  | .returned => none

/-- `JobWorker::OnShutdown`, for a worker whose job has not returned. -/
def cancelJob (s : ShutdownSequence) (i : ℕ) : Option ShutdownSequence :=
  s.pipeline.tasks[i]?.bind fun tr => s.marks[i]?.bind fun m =>
    let next := match tr.role, tr.task with
      | .job _ _, .copying _ _ _ _ => s.pipeline.step env (.task i (.copy .cancel) 0 0)
      -- the main loop is yet to start, or has ended, or there is none
      | .job _ _, _ => some s.pipeline
      | _, _ => none
    next.map fun next =>
      { s with pipeline := next, marks := s.marks.set i { m with cancelled := true } }

/-- What has to hold for a move of a task: a message is processed unless the flag of the dispatcher
is set, the lock is free where it is taken, and the main loop starts with the flag of its job. -/
def permits (s : ShutdownSequence) (m : JobMark) : TaskMove → Bool
  | .process => !s.dispatcherFlag
  | .discard => s.dispatcherFlag
  | .call e _ => !(s.service.holdsLock && eventLocks e)
  | .enter t => t.cancel = m.cancelled
  | .copy .cancel => false
  | _ => true

/-- A task makes a move. A `Transfer` stores only values of the counter that are not reserved. -/
def taskStep (s : ShutdownSequence) (i : ℕ) (move : TaskMove) (status : Int) (intCnt : ℕ) :
    Option ShutdownSequence :=
  s.pipeline.tasks[i]?.bind fun tr => s.marks[i]?.bind fun m =>
    if s.permits m move = true ∧ intCnt < nHup then
      (s.pipeline.step env (.task i move status intCnt)).map fun next =>
        let successors := next.tasks.length + 1 - s.pipeline.tasks.length
        { s with
          pipeline := next
          marks := replaceAt s.marks i (List.replicate successors
            (m.after (s.service = .terminated) tr.task move)) }
    else none

/-- One step of any thread. -/
def step (s : ShutdownSequence) : ShutdownAction → Option ShutdownSequence
  | .main => s.mainStep
  | .listener i result => s.listenerStep env i result
  | .notice key n =>
    if s.service = .serving ∧ n ≠ .cancel ∧ s.pipeline.shared.isRegistered key.1 = true then
      (s.pipeline.step env (.notice key n)).map fun next => { s with pipeline := next }
    else none
  | .broadcast order =>
    if s.service = .serving ∧ s.serviceFlag = true ∧ order.Perm s.registered then
      some { s with service := .cancelling (order.flatMap bothSides), told := order }
    else none
  | .service => s.serviceStep env
  | .serviceFails => if s.service = .serving then some { s with service := .failed } else none
  | .dispatcher => s.dispatcherStep
  | .cancelJob i => if s.dispatcher = .stopping then s.cancelJob env i else none
  | .task i move status intCnt => s.taskStep env i move status intCnt

/-- The tasks with their marks. -/
def jobs (s : ShutdownSequence) : List (Tracked × JobMark) := s.pipeline.tasks.zip s.marks

end ShutdownSequence

end TinySox
