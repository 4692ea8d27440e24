import TinySox.Common.LabelledRun
import TinySox.Common.Mutex

/-!
# A worker and its callers

`JobWorker` with the locks that it shares with its callers. `jobLock` guards the job and the flag
that says whether one was set; `workerLock`, of the base class, serializes the calls that start and
stop the thread. Every access is a step of its own, any number of calls of the four functions may be
under way, and the thread that waits for a job may wake up without being notified.

The trace says what has happened. It is not part of the program.
-/

namespace TinySox

open TinySox.Common

variable {Job : Type}

/-- What happens to a worker. -/
inductive WorkerEvent (Job : Type)
  /-- `SetJob` has set the job -/
  | accepted (job : Option Job)
  /-- `curJob->Execute` is called -/
  | execute (job : Job)
  | executeReturned (job : Job)
  /-- `job=nullptr` -/
  | cleared
  /-- `JobCompleteMessage` is sent -/
  | jobComplete
  /-- `job->Cancel`, by the call with this number -/
  | cancel (caller : ℕ) (job : Job)
  /-- `OnShutdown` is over, and has cancelled this job or none -/
  | onShutdown (caller : ℕ) (cancelled : Option Job)
  deriving DecidableEq, Repr

/-- Where `JobWorker::Worker` stands. -/
inductive WorkerPc (Job : Type)
  /-- the thread does not exist -/
  | unborn
  /-- before it has `jobLock`, at the start or after it woke up -/
  | lock
  /-- `while(!jobSet)` -/
  | test
  /-- inside `jobTrigger.wait(lock)` -/
  | wait
  /-- `auto curJob=job` -/
  | take
  | unlock (curJob : Option Job)
  /-- `if(curJob==nullptr)` -/
  | check (curJob : Option Job)
  /-- inside `curJob->Execute(logger)` -/
  | running (curJob : Job)
  | clearLock
  /-- `job=nullptr` -/
  | clear
  | clearUnlock
  /-- `sender.SendMessage(this, JobCompleteMessage(*result))` -/
  | send
  | returned
  deriving DecidableEq, Repr

/-- Where a call of one of the functions stands. -/
inductive WorkerCallPc (Job : Type)
  /-- `SetJob(_job)` -/
  | setJobLock (job : Option Job)
  /-- `if(jobSet)` -/
  | setJobTest (job : Option Job)
  /-- `job=_job` -/
  | setJobWrite (job : Option Job)
  /-- `jobSet=true` -/
  | setJobFlag (job : Option Job)
  | setJobUnlock (ok : Bool)
  /-- `jobTrigger.notify_one()` -/
  | setJobNotify
  | setJobReturned (ok : Bool)
  /-- `Startup()` -/
  | startupLock
  /-- `if(workerStarted)`, the new thread, and `workerStarted=true` -/
  | startupTest
  /-- `RequestShutdown()`, or `Shutdown()` if it joins -/
  | shutdownLock (joins : Bool)
  /-- `if(!workerStarted)` -/
  | shutdownTest (joins : Bool)
  | onShutdownLock (joins : Bool)
  /-- `if(jobSet && job!=nullptr)` -/
  | onShutdownTest (joins : Bool)
  /-- `job->Cancel(logger)` -/
  | onShutdownCancel (joins : Bool)
  | onShutdownUnlock (joins : Bool) (cancelled : Option Job)
  /-- `worker->join()` and `workerStarted=false` -/
  | join
  /-- the end of a function that has `workerLock` -/
  | unlock (ok : Bool)
  | returned (ok : Bool)
  deriving DecidableEq, Repr

/-- The functions that others call. -/
inductive WorkerCall (Job : Type)
  | setJob (job : Option Job)
  | startup
  | requestShutdown
  | shutdown

/-- Where a call starts. -/
def WorkerCall.entry : WorkerCall Job → WorkerCallPc Job
  | .setJob job => .setJobLock job
  | .startup => .startupLock
  | .requestShutdown => .shutdownLock false
  | .shutdown => .shutdownLock true

/-- Who may hold `jobLock`. -/
inductive Party
  | worker
  | caller (i : ℕ)
  deriving DecidableEq, Repr

/-- The fields of `WorkerBase` and `JobWorker`, the worker's thread, and the calls. -/
structure LockedWorker (Job : Type) where
  workerLock : Option ℕ
  workerStarted : Bool
  jobLock : Option Party
  job : Option Job
  jobSet : Bool
  worker : WorkerPc Job
  callers : List (WorkerCallPc Job)
  trace : List (WorkerEvent Job)

/-- What can happen next. -/
inductive LockedWorkerAction (Job : Type)
  | call (function : WorkerCall Job)
  | caller (i : ℕ)
  | worker
  /-- `wait` may return without a notification -/
  | spuriousWakeup

namespace LockedWorker

/-- The constructor. -/
def initial : LockedWorker Job := ⟨none, false, none, none, false, .unborn, [], []⟩

/-- The call goes on here. -/
def goto (s : LockedWorker Job) (i : ℕ) (pc : WorkerCallPc Job) : LockedWorker Job :=
  { s with callers := s.callers.set i pc }

/-- Something happens. -/
def emit (s : LockedWorker Job) (e : WorkerEvent Job) : LockedWorker Job :=
  { s with trace := s.trace ++ [e] }

/-- `jobLock.lock()` -/
def lockJob (s : LockedWorker Job) (p : Party) : Option (LockedWorker Job) :=
  if s.jobLock = none then some { s with jobLock := some p } else none

/-- `jobLock.unlock()` -/
def unlockJob (s : LockedWorker Job) : LockedWorker Job := { s with jobLock := none }

/-- The next step of a call. -/
def callStep (s : LockedWorker Job) (i : ℕ) : WorkerCallPc Job → Option (LockedWorker Job)
  | .setJobLock job => (s.lockJob (.caller i)).map fun t => t.goto i (.setJobTest job)
  | .setJobTest job => some (s.goto i (if s.jobSet then .setJobUnlock false else .setJobWrite job))
  | .setJobWrite job => some ({ s with job }.goto i (.setJobFlag job))
  | .setJobFlag job =>
    some (({ s with jobSet := true }.emit (.accepted job)).goto i (.setJobUnlock true))
  | .setJobUnlock ok =>
    some (s.unlockJob.goto i (if ok then .setJobNotify else .setJobReturned false))
  | .setJobNotify =>
    match s.worker with
    | .wait => some ({ s with worker := .lock }.goto i (.setJobReturned true))
    | _ => some (s.goto i (.setJobReturned true))
  | .startupLock =>
    if s.workerLock = none then some ({ s with workerLock := some i }.goto i .startupTest) else none
  | .startupTest =>
    if s.workerStarted then some (s.goto i (.unlock false))
    else some ({ s with worker := .lock, workerStarted := true }.goto i (.unlock true))
  | .shutdownLock joins =>
    if s.workerLock = none then some ({ s with workerLock := some i }.goto i (.shutdownTest joins))
    else none
  | .shutdownTest joins =>
    some (s.goto i (if s.workerStarted then .onShutdownLock joins else .unlock false))
  | .onShutdownLock joins => (s.lockJob (.caller i)).map fun t => t.goto i (.onShutdownTest joins)
  | .onShutdownTest joins =>
    some (s.goto i
      (if s.jobSet && s.job.isSome then .onShutdownCancel joins else .onShutdownUnlock joins none))
  | .onShutdownCancel joins =>
    s.job.map fun job => (s.emit (.cancel i job)).goto i (.onShutdownUnlock joins (some job))
  | .onShutdownUnlock joins cancelled =>
    some ((s.unlockJob.emit (.onShutdown i cancelled)).goto i (if joins then .join else .unlock true))
  | .join =>
    match s.worker with
    | .returned => some ({ s with workerStarted := false }.goto i (.unlock true))
    | _ => none
  | .unlock ok => some ({ s with workerLock := none }.goto i (.returned ok))
  | .setJobReturned _ | .returned _ => none

/-- The next step of the worker's thread. -/
def workerStep (s : LockedWorker Job) : Option (LockedWorker Job) :=
  match s.worker with
  | .unborn | .wait | .returned => none
  | .lock => (s.lockJob .worker).map fun t => { t with worker := .test }
  | .test =>
    if s.jobSet then some { s with worker := .take } else some { s.unlockJob with worker := .wait }
  | .take => some { s with worker := .unlock s.job }
  | .unlock curJob => some { s.unlockJob with worker := .check curJob }
  | .check none => some { s with worker := .returned }
  | .check (some job) => some { s.emit (.execute job) with worker := .running job }
  | .running job => some { s.emit (.executeReturned job) with worker := .clearLock }
  | .clearLock => (s.lockJob .worker).map fun t => { t with worker := .clear }
  | .clear => some { s.emit .cleared with job := none, worker := .clearUnlock }
  | .clearUnlock => some { s.unlockJob with worker := .send }
  | .send => some { s.emit .jobComplete with worker := .returned }

/-- One step. -/
def step (s : LockedWorker Job) : LockedWorkerAction Job → Option (LockedWorker Job)
  | .call function => some { s with callers := s.callers ++ [function.entry] }
  | .caller i => s.callers[i]?.bind (s.callStep i)
  | .worker => s.workerStep
  | .spuriousWakeup =>
    match s.worker with
    | .wait => some { s with worker := .lock }
    | _ => none

end LockedWorker

end TinySox
