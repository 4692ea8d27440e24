import Mathlib.Logic.Function.Basic
import TinySox.Common.LabelledRun
import TinySox.Common.ThreadPool

/-!
# The job dispatcher

`JobDispatcher` with its own thread, the threads of the workers, and the calls of `OnMessage` in
the threads that deliver messages. Sections under a lock are one step, except those in which the
dispatcher waits for threads: it keeps the lock from step to step there, and a call that needs the
lock has to wait. Workers start without failure. A worker is named by its number, a job by the
order of creation, and the message of a listener has no worker as its source. What a job does and
what `RequestShutdown` does to it is left out: a job may end at any time, or never.

`msgProcCount` is an integer without bound. The atomic one cannot wrap, as every unit of it is a
thread that is inside `OnMessage`.

`retired` keeps the workers that the dispatcher has taken out of the pools, and `handed` the calls
of `SetJob` with a job. They are not part of the program.
-/

namespace TinySox

open TinySox.Common

/-- Where `JobWorker::Worker` stands. -/
inductive JobWorkerPc
  /-- `jobTrigger.wait(lock)` -/
  | waiting
  | executing
  /-- inside `SendMessage` -/
  | sending
  | exited
  deriving DecidableEq, Repr

/-- The fields of `WorkerBase` and `JobWorker`, with the worker's thread. -/
structure JobWorker where
  workerStarted : Bool
  jobSet : Bool
  job : Option ℕ
  pc : JobWorkerPc
  deriving DecidableEq, Repr

namespace JobWorker

/-- `CreateWorker` and `Startup` -/
def started : JobWorker := ⟨true, false, none, .waiting⟩

/-- `SetJob`: the worker, and what is returned. -/
def setJob (worker : JobWorker) (job : Option ℕ) : JobWorker × Bool :=
  if worker.jobSet then (worker, false) else ({ worker with job := job, jobSet := true }, true)

end JobWorker

/-- The vectors and the map of workers that the dispatcher goes through to shut them down. -/
inductive Pool
  | tmp
  | free
  | active
  | finished
  deriving DecidableEq, Repr

/-- Where `JobDispatcher::Worker` stands. -/
inductive DispatcherPc
  /-- `while(!shutdownPending.load())` -/
  | loop
  | takeFinished
  /-- `instance->Shutdown()` for the workers of this pool that are left -/
  | joining (pool : Pool) (left : List ℕ)
  | refill
  /-- the first `while(msgProcCount.load()>0)` -/
  | spinPre
  /-- before the section that stops the workers of this pool -/
  | stop (pool : Pool)
  /-- `SetJob` without a job, for the free workers that are left -/
  | dismiss (left : List ℕ)
  /-- the second `while(msgProcCount.load()>0)` -/
  | spinPost
  | returned
  deriving DecidableEq, Repr

namespace DispatcherPc

/-- `freeLock` is held. -/
def holdsFree : DispatcherPc → Bool
  | .dismiss _ | .joining .free _ => true
  | _ => false

/-- `activeLock` is held. -/
def holdsActive : DispatcherPc → Bool
  | .joining .active _ => true
  | _ => false

/-- `disposeLock` is held. -/
def holdsDispose : DispatcherPc → Bool
  | .joining .finished _ => true
  | _ => false

end DispatcherPc

/-- Where a call of `OnMessage` stands. -/
inductive MessagePc
  /-- `msgProcCount.fetch_add(1)` -/
  | entered
  /-- `shutdownPending.load()` -/
  | counted
  /-- locks `activeLock`, and `disposeLock` inside -/
  | lookup
  /-- `CreateJobsFromResult` -/
  | create
  /-- locks `freeLock`, and `activeLock` inside, once for each of these jobs -/
  | assign (jobs : List ℕ)
  /-- `msgProcCount.fetch_sub(1)` -/
  | leaving
  | left
  deriving DecidableEq, Repr

/-- A call of `OnMessage`, and the worker that is the source of the message. -/
structure MessageCall where
  source : Option ℕ
  pc : MessagePc
  deriving DecidableEq, Repr

/-- A call of `SetJob`. -/
structure Handover where
  job : ℕ
  worker : ℕ
  accepted : Bool
  deriving DecidableEq, Repr

/-- The dispatcher with everything around it. -/
structure JobDispatcher where
  shutdownPending : Bool
  msgProcCount : Int
  workerID : ℕ
  freeWorkers : List ℕ
  activeWorkers : List ℕ
  finishedWorkers : List ℕ
  tmp : List ℕ
  pc : DispatcherPc
  workers : ℕ → JobWorker
  calls : List MessageCall
  nextJob : ℕ
  retired : List ℕ
  handed : List Handover

/-- `GetWorkersCount` and `GetWorkersSpawnCount` -/
structure Limits where
  workersCount : ℕ
  workersSpawnCount : ℕ
  deriving DecidableEq, Repr

namespace JobDispatcher

/-- The constructor. -/
def initial : JobDispatcher :=
  ⟨false, 0, 0, [], [], [], [], .loop, fun _ => .started, [], 0, [], []⟩

/-- `_SpawnWorkers` -/
def spawnWorkers (s : JobDispatcher) : ℕ → JobDispatcher
  | 0 => s
  | count + 1 =>
    spawnWorkers { s with
      workerID := s.workerID + 1
      workers := Function.update s.workers s.workerID .started
      freeWorkers := s.freeWorkers ++ [s.workerID] } count

/-- `_CreateWorkerInstance`: the last free worker, after one was spawned if there was none. -/
def createWorkerInstance (s : JobDispatcher) : Option (ℕ × JobDispatcher) :=
  let s' := if s.freeWorkers.length < 1 then s.spawnWorkers 1 else s
  s'.freeWorkers.getLast?.map fun w => (w, { s' with freeWorkers := s'.freeWorkers.dropLast })

/-- A worker becomes active and gets the job. -/
def assignJob (s : JobDispatcher) (job : ℕ) : Option JobDispatcher :=
  s.createWorkerInstance.map fun created =>
    let w := created.1
    let s' := created.2
    let set := (s'.workers w).setJob (some job)
    { s' with
      activeWorkers := if w ∈ s'.activeWorkers then s'.activeWorkers else s'.activeWorkers ++ [w]
      workers := Function.update s'.workers w set.1
      handed := s'.handed ++ [⟨job, w, set.2⟩] }

/-- The worker that sent the message has finished, if it is active. -/
def finishWorker (s : JobDispatcher) : Option ℕ → JobDispatcher
  | some w =>
    if w ∈ s.activeWorkers then
      { s with
        finishedWorkers := s.finishedWorkers ++ [w]
        activeWorkers := s.activeWorkers.erase w }
    else s
  | none => s

/-- The thread of a worker ends after its message was delivered. -/
def endThread (s : JobDispatcher) : Option ℕ → JobDispatcher
  | some w => { s with workers := Function.update s.workers w { s.workers w with pc := .exited } }
  | none => s

/-- The next step of a call of `OnMessage`, and the call afterwards, if it has not returned.
`CreateJobsFromResult` returns `created` jobs. -/
def callStep (s : JobDispatcher) (c : MessageCall) (created : ℕ) :
    Option (JobDispatcher × List MessageCall) :=
  match c.pc with
  | .entered => some ({ s with msgProcCount := s.msgProcCount + 1 }, [{ c with pc := .counted }])
  | .counted => some (s, [{ c with pc := if s.shutdownPending then .leaving else .lookup }])
  | .lookup =>
    if s.pc.holdsActive || s.pc.holdsDispose then none
    else some (s.finishWorker c.source, [{ c with pc := .create }])
  | .create =>
    some ({ s with nextJob := s.nextJob + created },
      [{ c with pc := .assign (List.range' s.nextJob created) }])
  | .assign (job :: rest) =>
    if s.pc.holdsFree || s.pc.holdsActive then none
    else (s.assignJob job).map fun s' => (s', [{ c with pc := .assign rest }])
  | .assign [] => some (s, [{ c with pc := .leaving }])
  | .leaving => some ({ s with msgProcCount := s.msgProcCount - 1 }, [{ c with pc := .left }])
  | .left => some (s.endThread c.source, [])

/-- The next step of a worker's thread. A job that has ended is reported; that it ends is not said. -/
def workerStep (s : JobDispatcher) (w : ℕ) : Option JobDispatcher :=
  let worker := s.workers w
  match worker.pc with
  | .waiting =>
    if w < s.workerID ∧ worker.jobSet = true then
      some { s with
        workers := Function.update s.workers w
          { worker with pc := if worker.job.isSome then .executing else .exited } }
    else none
  | .executing =>
    some { s with
      workers := Function.update s.workers w { worker with job := none, pc := .sending }
      calls := ⟨some w, .entered⟩ :: s.calls }
  | .sending | .exited => none

/-- `WorkerBase::Shutdown` waits for the thread of the worker to end. -/
def join (s : JobDispatcher) (w : ℕ) : Option JobDispatcher :=
  if (s.workers w).workerStarted then
    if (s.workers w).pc = .exited then
      some { s with
        workers := Function.update s.workers w { s.workers w with workerStarted := false } }
    else none
  else some s

/-- The workers of a pool. -/
def pool (s : JobDispatcher) : Pool → List ℕ
  | .tmp => s.tmp
  | .free => s.freeWorkers
  | .active => s.activeWorkers
  | .finished => s.finishedWorkers

/-- The end of a section that shuts down the workers of a pool. The batch of a round is only
replaced in the next round. -/
def clearPool (s : JobDispatcher) : Pool → JobDispatcher
  | .tmp => { s with pc := .refill }
  | .free => { s with freeWorkers := [], retired := s.retired ++ s.freeWorkers, pc := .stop .active }
  | .active =>
    { s with activeWorkers := [], retired := s.retired ++ s.activeWorkers, pc := .stop .finished }
  | .finished =>
    { s with finishedWorkers := [], retired := s.retired ++ s.finishedWorkers, pc := .spinPost }

/-- The workers that a round spawns. -/
def spawnCount (limits : Limits) (free : ℕ) : ℕ :=
  if free < limits.workersCount then
    let spawnCount := limits.workersCount - free
    if spawnCount > limits.workersSpawnCount then limits.workersSpawnCount else spawnCount
  else 0

/-- The next step of `JobDispatcher::Worker`. -/
def dispatcherStep (limits : Limits) (s : JobDispatcher) : Option JobDispatcher :=
  match s.pc with
  | .loop => some { s with pc := if s.shutdownPending then .spinPre else .takeFinished }
  | .takeFinished =>
    some { s with
      tmp := s.finishedWorkers
      finishedWorkers := []
      retired := s.retired ++ s.finishedWorkers
      pc := .joining .tmp s.finishedWorkers }
  | .joining p (w :: rest) => (s.join w).map fun s' => { s' with pc := .joining p rest }
  | .joining p [] => some (s.clearPool p)
  | .refill =>
    some { s.spawnWorkers (spawnCount limits s.freeWorkers.length) with pc := .loop }
  | .spinPre => if s.msgProcCount > 0 then none else some { s with pc := .stop .free }
  | .stop .free => some { s with pc := .dismiss s.freeWorkers }
  | .dismiss (w :: rest) =>
    some { s with
      workers := Function.update s.workers w ((s.workers w).setJob none).1
      pc := .dismiss rest }
  | .dismiss [] => some { s with pc := .joining .free s.freeWorkers }
  | .stop p => some { s with pc := .joining p (s.pool p) }
  | .spinPost => if s.msgProcCount > 0 then none else some { s with pc := .returned }
  | .returned => none

end JobDispatcher

/-- What can happen next. -/
inductive DispatcherAction
  /-- a listener delivers a message -/
  | message
  /-- a call of `OnMessage` goes on; if it creates jobs, so many -/
  | call (i created : ℕ)
  | worker (w : ℕ)
  | dispatcher
  /-- `OnShutdown` -/
  | shutdown
  deriving DecidableEq, Repr

namespace JobDispatcher

/-- One step of any thread. -/
def step (limits : Limits) (s : JobDispatcher) : DispatcherAction → Option JobDispatcher
  | .message => some { s with calls := ⟨none, .entered⟩ :: s.calls }
  | .call i created =>
    s.calls[i]?.bind fun c => (s.callStep c created).map fun next =>
      { next.1 with calls := replaceAt s.calls i next.2 }
  | .worker w => s.workerStep w
  | .dispatcher => s.dispatcherStep limits
  | .shutdown => some { s with shutdownPending := true }

end JobDispatcher

end TinySox
