import TinySox.Common.Simulation
import TinySox.DispatcherPools
import TinySox.LockedWorkerProtocol

/-!
# A worker with its locks does what an atomic worker does

The dispatcher is modelled with workers whose functions are one step each. Here the functions with
their locks, access by access, are shown to do the same: every run of the worker and its callers has
a run of the atomic worker beside it, in which each call takes effect at one moment between its start
and its end, with the result that it returns. `Shutdown` alone takes effect at two moments, as it has
to cancel the job before it waits for the thread; no other call starts or stops the thread in between.
What happens to the jobs is the same in both.
-/

namespace TinySox

open TinySox.Common

/-- A worker that takes one step for each function, with the results of the calls so far. -/
structure AtomicWorker where
  worker : JobWorker
  /-- the call of `Shutdown` that waits for the thread -/
  stopping : Option ℕ
  /-- by whom the function was called, and what it returns -/
  results : List (ℕ × Bool)
  trace : List (WorkerEvent ℕ)

/-- What an atomic worker and its callers do. A call is named by its number. -/
inductive AtomicAction
  | startup (caller : ℕ)
  | setJob (caller : ℕ) (job : Option ℕ)
  | requestShutdown (caller : ℕ)
  /-- `Shutdown` cancels the job -/
  | shutdown (caller : ℕ)
  /-- and has waited for the thread -/
  | join (caller : ℕ)
  /-- the thread finds that a job was set -/
  | begin
  /-- and clears the job after it was executed -/
  | clear
  /-- and sends its report -/
  | report
  deriving DecidableEq, Repr

namespace AtomicWorker

/-- The constructor. The thread is not there yet. -/
def initial : AtomicWorker := ⟨⟨false, false, none, .exited⟩, none, [], []⟩

/-- The call is over, but for its return. -/
def answer (a : AtomicWorker) (i : ℕ) (ok : Bool) : AtomicWorker :=
  { a with results := a.results ++ [(i, ok)] }

/-- The results of this call. -/
def resultsOf (a : AtomicWorker) (i : ℕ) : List Bool :=
  (a.results.filter fun r => r.1 = i).map Prod.snd

/-- `OnShutdown` -/
def onShutdown (a : AtomicWorker) (i : ℕ) : AtomicWorker :=
  { a with trace := a.trace ++ (a.worker.job.map (.cancel i)).toList }

/-- One step. While a call of `Shutdown` waits, it has `workerLock`. -/
def step (a : AtomicWorker) : AtomicAction → Option AtomicWorker
  | .startup i =>
    if a.stopping.isSome then none
    else if a.worker.workerStarted then some (a.answer i false)
    else
      some (answer { a with worker := { a.worker with workerStarted := true, pc := .waiting } } i true)
  | .setJob i job =>
    let set := a.worker.setJob job
    some (answer { a with
      worker := set.1
      trace := a.trace ++ if set.2 then [.accepted job] else [] } i set.2)
  | .requestShutdown i =>
    if a.stopping.isSome then none
    else if a.worker.workerStarted then some ((a.onShutdown i).answer i true)
    else some (a.answer i false)
  | .shutdown i =>
    if a.stopping.isSome then none
    else if a.worker.workerStarted then some { a.onShutdown i with stopping := some i }
    else some (a.answer i false)
  | .join i =>
    if a.stopping = some i ∧ a.worker.pc = .exited then
      some (answer { a with
        worker := { a.worker with workerStarted := false }
        stopping := none } i true)
    else none
  | .begin =>
    if a.worker.pc = .waiting ∧ a.worker.jobSet = true then
      some { a with
        worker := { a.worker with pc := if a.worker.job.isSome then .executing else .exited }
        trace := a.trace ++ (a.worker.job.map .execute).toList }
    else none
  | .clear =>
    if a.worker.pc = .executing then
      some { a with
        worker := { a.worker with job := none, pc := .sending }
        trace := a.trace ++ [.cleared] }
    else none
  | .report =>
    if a.worker.pc = .sending then
      some { a with
        worker := { a.worker with pc := .exited }
        trace := a.trace ++ [.jobComplete] }
    else none

/-- A call that returns has one more result. -/
theorem resultsOf_answer (a : AtomicWorker) (i : ℕ) (ok : Bool) :
    (a.answer i ok).resultsOf i = a.resultsOf i ++ [ok] := by
  simp [answer, resultsOf]

/-- The others have those they had. -/
theorem resultsOf_answer_of_ne {i j : ℕ} (hij : j ≠ i) (a : AtomicWorker) (ok : Bool) :
    (a.answer i ok).resultsOf j = a.resultsOf j := by
  simp [answer, resultsOf, Ne.symm hij]

end AtomicWorker

/-- The event belongs to one of the steps of an atomic worker. -/
def WorkerEvent.isAtomic {Job : Type} : WorkerEvent Job → Bool
  | .accepted _ | .execute _ | .cleared | .jobComplete | .cancel _ _ => true
  | .executeReturned _ | .onShutdown _ _ => false

/-- The atomic worker has this event too. -/
theorem WorkerEvent.filter_atomic {Job : Type} (trace : List (WorkerEvent Job)) {e : WorkerEvent Job}
    (he : e.isAtomic = true) :
    (trace ++ [e]).filter isAtomic = trace.filter isAtomic ++ [e] := by
  rw [List.filter_append, List.filter_cons_of_pos he, List.filter_nil]

/-- It does not have this one. -/
theorem WorkerEvent.filter_other {Job : Type} (trace : List (WorkerEvent Job)) {e : WorkerEvent Job}
    (he : e.isAtomic = false) : (trace ++ [e]).filter isAtomic = trace.filter isAtomic := by
  rw [List.filter_append, List.filter_cons_of_neg (by rw [he]; exact Bool.false_ne_true), List.filter_nil,
    List.append_nil]

/-- Where the thread is seen by the dispatcher. -/
def WorkerPc.atomic {Job : Type} : WorkerPc Job → JobWorkerPc
  | .lock | .test | .wait | .take | .unlock _ | .check _ => .waiting
  | .running _ | .clearLock | .clear => .executing
  | .clearUnlock | .send => .sending
  | .unborn | .returned => .exited

namespace WorkerCallPc

/-- What the call has decided to return. -/
def result {Job : Type} : WorkerCallPc Job → Option Bool
  | setJobUnlock ok | setJobReturned ok | unlock ok | returned ok => some ok
  | setJobNotify | onShutdownUnlock false _ => some true
  | _ => none

/-- The call is one of `Shutdown`, and has cancelled the job. -/
def joining {Job : Type} : WorkerCallPc Job → Bool
  | onShutdownUnlock true _ | join => true
  | _ => false

/-- The call has found that there is a thread. -/
def stops {Job : Type} : WorkerCallPc Job → Bool
  | onShutdownLock _ | onShutdownTest _ | onShutdownCancel _ | onShutdownUnlock _ _ | join => true
  | _ => false

/-- The call holds `workerLock`. -/
def serving {Job : Type} : WorkerCallPc Job → Bool
  | startupTest | shutdownTest _ | unlock _ => true
  | pc => pc.stops

end WorkerCallPc

/-- What a call of `Shutdown` or `RequestShutdown` does first. -/
def AtomicAction.stop (i : ℕ) (joins : Bool) : AtomicAction :=
  if joins then .shutdown i else .requestShutdown i

/-- What the next step of the thread does. -/
def WorkerPc.answers : WorkerPc ℕ → List AtomicAction
  | .check _ => [.begin]
  | .clear => [.clear]
  | .send => [.report]
  | _ => []

namespace LockedWorker

/-- What a step of the call `i` does. A call takes effect where it is decided what it returns, and one
of `Shutdown` also where it has cancelled the job. -/
def callAnswers (s : LockedWorker ℕ) (i : ℕ) : WorkerCallPc ℕ → List AtomicAction
  | .setJobTest job => if s.jobSet then [.setJob i job] else []
  | .setJobFlag job => [.setJob i job]
  | .startupTest => [.startup i]
  | .shutdownTest joins => if s.workerStarted then [] else [.stop i joins]
  | .onShutdownTest joins => if s.jobSet && s.job.isSome then [] else [.stop i joins]
  | .onShutdownCancel joins => [.stop i joins]
  | .join => [.join i]
  | _ => []

/-- What the atomic worker does beside the action. -/
def atomicAnswers (s : LockedWorker ℕ) : LockedWorkerAction ℕ → List AtomicAction
  | .call _ | .spuriousWakeup => []
  | .caller i => (s.callers[i]?.map (s.callAnswers i)).getD []
  | .worker => s.worker.answers

variable {s t : LockedWorker ℕ} {st : WorkerStage ℕ} {a a' : AtomicWorker} {i : ℕ}
  {pc pc' : WorkerCallPc ℕ} {p : WorkerCallPc ℕ → Bool} {lock lock' : Option ℕ}

/-- The call stands at such a place. -/
def Standing (s : LockedWorker ℕ) (p : WorkerCallPc ℕ → Bool) (i : ℕ) : Prop :=
  ∃ pc, s.callers[i]? = some pc ∧ p pc = true

/-- It stands where it stands. -/
theorem standing_iff (hpc : s.callers[i]? = some pc) : s.Standing p i ↔ p pc = true := by
  constructor
  · rintro ⟨pc', hpc', hp⟩
    cases hpc.symm.trans hpc'
    exact hp
  · exact fun hp => ⟨pc, hpc, hp⟩

/-- A lock that is held by the call that stands at such a place, after a step of a call. -/
theorem mutex_standing (h : Mutex lock (s.Standing p)) (hpc : s.callers[i]? = some pc)
    (hcallers : t.callers = s.callers.set i pc') (hlock : LockMove (p pc) (p pc') lock i lock') :
    Mutex lock' (t.Standing p) := by
  have hother (j : ℕ) (hij : j ≠ i) : t.Standing p j ↔ s.Standing p j := by
    rw [Standing, Standing, getElem?_goto_ne hij hcallers]
  exact h.move (standing_iff hpc) (standing_iff (getElem?_goto hpc hcallers)) hother hlock

/-- After a call has begun. -/
theorem mutex_standing_call {function : WorkerCall ℕ} (h : Mutex lock (s.Standing p))
    (hentry : p function.entry = false) :
    Mutex lock (({ s with callers := s.callers ++ [function.entry] } : LockedWorker ℕ).Standing p) := by
  refine h.keep fun j => ⟨?_, ?_⟩
  · rintro ⟨pc, hpc, hp⟩
    rcases getElem?_call hpc with hold | rfl
    · exact ⟨pc, hold, hp⟩
    · rw [hentry] at hp
      contradiction
  · rintro ⟨pc, hpc, hp⟩
    obtain ⟨hj, -⟩ := List.getElem?_eq_some_iff.mp hpc
    exact ⟨pc, (List.getElem?_append_left hj).trans hpc, hp⟩

/-- `workerLock` is held by the call that is inside, and a call that stops the thread has found one. -/
structure Serialized (s : LockedWorker ℕ) : Prop where
  mutex : Mutex s.workerLock (s.Standing WorkerCallPc.serving)
  started : ∀ i, s.Standing WorkerCallPc.stops i → s.workerStarted = true

namespace Serialized

/-- Who stops the thread is inside. -/
theorem serving_of_stops (hstops : s.Standing WorkerCallPc.stops i) :
    s.Standing WorkerCallPc.serving i := by
  obtain ⟨pc, hpc, hstops⟩ := hstops
  refine ⟨pc, hpc, ?_⟩
  cases pc <;> first | rfl | contradiction

/-- A step of a call that leaves no other call without its thread. -/
theorem move (h : s.Serialized) (hpc : s.callers[i]? = some pc)
    (hcallers : t.callers = s.callers.set i pc')
    (hlock : LockMove pc.serving pc'.serving s.workerLock i t.workerLock)
    (hstarted : t.workerStarted = s.workerStarted ∨ t.workerStarted = true ∨ pc.stops = true)
    (hstops : pc'.stops = true → t.workerStarted = true) : t.Serialized := by
  refine ⟨mutex_standing h.mutex hpc hcallers hlock, ?_⟩
  rintro j ⟨pc'', hj, hstops''⟩
  by_cases hij : j = i
  · subst hij
    cases (getElem?_goto hpc hcallers).symm.trans hj
    exact hstops hstops''
  · rw [getElem?_goto_ne hij hcallers] at hj
    rcases hstarted with hsame | hset | hmine
    · rw [hsame]
      exact h.started j ⟨pc'', hj, hstops''⟩
    · exact hset
    · have htheirs := serving_of_stops ⟨pc'', hj, hstops''⟩
      exact absurd (h.mutex.unique htheirs (serving_of_stops ⟨pc, hpc, hmine⟩)) hij

/-- A call that stops the thread goes on without releasing the lock. -/
theorem proceed (h : s.Serialized) (hpc : s.callers[i]? = some pc)
    (hcallers : t.callers = s.callers.set i pc') (hlock : t.workerLock = s.workerLock)
    (hserving : pc'.serving = pc.serving) (hstarted : t.workerStarted = s.workerStarted)
    (hstops : pc'.stops = true → pc.stops = true) : t.Serialized := by
  refine h.move hpc hcallers (hlock ▸ .keep hserving) (.inl hstarted) fun hlater => ?_
  rw [hstarted]
  exact h.started i ⟨pc, hpc, hstops hlater⟩

/-- A step of a call keeps `workerLock` in agreement with who is inside. -/
theorem callStep (h : s.Serialized) (hpc : s.callers[i]? = some pc)
    (hstep : s.callStep i pc = some t) : t.Serialized := by
  cases pc with
  | setJobLock job =>
    obtain ⟨-, rfl⟩ := map_lockJob hstep
    exact h.proceed hpc rfl rfl rfl rfl id
  | setJobTest job =>
    cases hstep
    cases s.jobSet <;> exact h.proceed hpc rfl rfl rfl rfl id
  | setJobWrite | setJobFlag =>
    cases hstep
    exact h.proceed hpc rfl rfl rfl rfl id
  | setJobUnlock ok =>
    cases hstep
    cases ok <;> exact h.proceed hpc rfl rfl rfl rfl id
  | setJobNotify =>
    rw [LockedWorker.callStep] at hstep
    split at hstep <;> cases hstep <;> exact h.proceed hpc rfl rfl rfl rfl id
  | startupLock =>
    obtain ⟨hfree, hstep⟩ := Option.ite_none_right_eq_some.mp hstep
    cases hstep
    exact h.move hpc rfl (.acquire hfree rfl) (.inl rfl) fun hno => absurd hno Bool.false_ne_true
  | startupTest =>
    rw [LockedWorker.callStep] at hstep
    split_ifs at hstep
    · cases hstep
      exact h.proceed hpc rfl rfl rfl rfl id
    · cases hstep
      exact h.move hpc rfl (.keep rfl) (.inr (.inl rfl)) fun _ => rfl
  | shutdownLock joins =>
    obtain ⟨hfree, hstep⟩ := Option.ite_none_right_eq_some.mp hstep
    cases hstep
    exact h.move hpc rfl (.acquire hfree rfl) (.inl rfl) fun hno => absurd hno Bool.false_ne_true
  | shutdownTest joins =>
    cases hstep
    cases hstarted : s.workerStarted with
    | false => exact h.proceed hpc rfl rfl rfl rfl id
    | true => exact h.move hpc rfl (.keep rfl) (.inl rfl) fun _ => hstarted
  | onShutdownLock joins =>
    obtain ⟨-, rfl⟩ := map_lockJob hstep
    exact h.proceed hpc rfl rfl rfl rfl id
  | onShutdownTest joins =>
    cases hstep
    cases s.jobSet && s.job.isSome <;> exact h.proceed hpc rfl rfl rfl rfl id
  | onShutdownCancel joins =>
    obtain ⟨job, hjob, rfl⟩ := Option.map_eq_some_iff.mp hstep
    exact h.proceed hpc rfl rfl rfl rfl id
  | onShutdownUnlock joins cancelled =>
    cases hstep
    cases joins with
    | true => exact h.proceed hpc rfl rfl rfl rfl id
    | false => exact h.proceed hpc rfl rfl rfl rfl fun _ => rfl
  | join =>
    rw [LockedWorker.callStep] at hstep
    split at hstep
    · cases hstep
      exact h.move hpc rfl (.keep rfl) (.inr (.inr rfl)) fun hno => absurd hno Bool.false_ne_true
    · contradiction
  | unlock ok =>
    cases hstep
    exact h.move hpc rfl (.release rfl rfl) (.inl rfl) fun hno => absurd hno Bool.false_ne_true
  | setJobReturned | returned => contradiction

/-- Every step does. -/
theorem step {action : LockedWorkerAction ℕ} (h : s.Serialized) (hstep : s.step action = some t) :
    t.Serialized := by
  have hframe (hlock : t.workerLock = s.workerLock) (hstarted : t.workerStarted = s.workerStarted)
      (hcallers : t.callers = s.callers) : t.Serialized := by
    have hstanding (p : WorkerCallPc ℕ → Bool) (i : ℕ) : t.Standing p i ↔ s.Standing p i := by
      rw [Standing, Standing, hcallers]
    exact ⟨hlock ▸ h.mutex.keep (hstanding _),
      fun i hi => hstarted.trans (h.started i ((hstanding _ i).mp hi))⟩
  cases action with
  | call function =>
    cases hstep
    refine ⟨mutex_standing_call h.mutex (by cases function <;> rfl), ?_⟩
    rintro i ⟨pc, hpc, hstops⟩
    rcases getElem?_call hpc with hold | rfl
    · exact h.started i ⟨pc, hold, hstops⟩
    · cases function <;> contradiction
  | caller i =>
    obtain ⟨pc, hpc, hstep⟩ := Option.bind_eq_some_iff.mp hstep
    exact h.callStep hpc hstep
  | worker =>
    change s.workerStep = some t at hstep
    unfold workerStep at hstep
    split at hstep <;> first
      | contradiction
      | (obtain ⟨-, rfl⟩ := map_lockJob hstep; exact hframe rfl rfl rfl)
      | (cases hstep; exact hframe rfl rfl rfl)
      | (split_ifs at hstep <;> cases hstep <;> exact hframe rfl rfl rfl)
  | spuriousWakeup =>
    rw [LockedWorker.step] at hstep
    split at hstep
    · cases hstep
      exact hframe rfl rfl rfl
    · contradiction

/-- There are no calls at the start. -/
theorem initial : (initial : LockedWorker ℕ).Serialized := by
  have hnobody (p : WorkerCallPc ℕ → Bool) (i : ℕ) :
      ¬(LockedWorker.initial : LockedWorker ℕ).Standing p i := by
    rintro ⟨pc, hpc, -⟩
    cases hpc
  refine ⟨fun i => iff_of_false (fun hheld => ?_) (hnobody _ i), fun i hi => absurd hi (hnobody _ i)⟩
  cases hheld

end Serialized

/-- The worker looks like this atomic worker. Each call has its result once, if it has one. -/
structure Refines (s : LockedWorker ℕ) (a : AtomicWorker) : Prop where
  workerStarted : a.worker.workerStarted = s.workerStarted
  jobSet : a.worker.jobSet = s.jobSet
  job : a.worker.job = s.heldJob
  pc : a.worker.pc = s.worker.atomic
  stopping : Mutex a.stopping (s.Standing WorkerCallPc.joining)
  results : ∀ i, a.resultsOf i = (s.callers[i]?.bind WorkerCallPc.result).toList
  trace : a.trace = s.trace.filter WorkerEvent.isAtomic

namespace Refines

/-- The result of a call that goes on without one. -/
theorem results_same (h : s.Refines a) (hpc : s.callers[i]? = some pc)
    (hcallers : t.callers = s.callers.set i pc') (hresult : pc'.result = pc.result) (j : ℕ) :
    a.resultsOf j = (t.callers[j]?.bind WorkerCallPc.result).toList := by
  rw [h.results]
  by_cases hij : j = i
  · subst hij
    rw [getElem?_goto hpc hcallers, hpc, Option.bind_some, Option.bind_some, hresult]
  · rw [getElem?_goto_ne hij hcallers]

/-- A call that gets its result. -/
theorem results_answer {ok : Bool} (h : s.Refines a) (hpc : s.callers[i]? = some pc)
    (hcallers : t.callers = s.callers.set i pc') (hnone : pc.result = none)
    (hresult : pc'.result = some ok) (hsame : a'.results = a.results) (j : ℕ) :
    (a'.answer i ok).resultsOf j = (t.callers[j]?.bind WorkerCallPc.result).toList := by
  have hresults (k : ℕ) : a'.resultsOf k = a.resultsOf k := by
    rw [AtomicWorker.resultsOf, AtomicWorker.resultsOf, hsame]
  by_cases hij : j = i
  · subst hij
    rw [AtomicWorker.resultsOf_answer, hresults, h.results, hpc, Option.bind_some, hnone,
      getElem?_goto hpc hcallers, Option.bind_some, hresult]
    rfl
  · rw [AtomicWorker.resultsOf_answer_of_ne hij, hresults, h.results, getElem?_goto_ne hij hcallers]

/-- The call of `Shutdown` that waits is still the same one. -/
theorem stopping_same (h : s.Refines a) (hpc : s.callers[i]? = some pc)
    (hcallers : t.callers = s.callers.set i pc') (hjoining : pc'.joining = pc.joining) :
    Mutex a.stopping (t.Standing WorkerCallPc.joining) :=
  mutex_standing h.stopping hpc hcallers (.keep hjoining)

/-- While another call is inside, no call of `Shutdown` waits. -/
theorem stopping_none (h : s.Refines a) (hserialized : s.Serialized) (hpc : s.callers[i]? = some pc)
    (hserving : pc.serving = true) (hjoining : pc.joining = false) : a.stopping = none := by
  cases hstopping : a.stopping with
  | none => rfl
  | some j =>
    obtain ⟨pc'', hj, hjoins⟩ := (h.stopping j).mp hstopping
    have hserves : pc''.serving = true := by
      cases pc'' <;> first | rfl | contradiction
    obtain rfl : j = i := hserialized.mutex.unique ⟨pc'', hj, hserves⟩ ⟨pc, hpc, hserving⟩
    cases hpc.symm.trans hj
    rw [hjoins] at hjoining
    contradiction

/-- A step of a call that the atomic worker does not see. -/
theorem stay (h : s.Refines a) (hpc : s.callers[i]? = some pc)
    (hcallers : t.callers = s.callers.set i pc') (hresult : pc'.result = pc.result)
    (hjoining : pc'.joining = pc.joining) (hstarted : t.workerStarted = s.workerStarted)
    (hset : t.jobSet = s.jobSet) (hjob : t.heldJob = s.heldJob)
    (hworker : t.worker.atomic = s.worker.atomic)
    (htrace : t.trace.filter WorkerEvent.isAtomic = s.trace.filter WorkerEvent.isAtomic) :
    t.Refines a :=
  ⟨h.workerStarted.trans hstarted.symm, h.jobSet.trans hset.symm, h.job.trans hjob.symm,
    h.pc.trans hworker.symm, h.stopping_same hpc hcallers hjoining,
    h.results_same hpc hcallers hresult, h.trace.trans htrace.symm⟩

/-- A call that finds the flag set is refused there. -/
theorem refused (h : s.Refines a) {job : Option ℕ} (hpc : s.callers[i]? = some (.setJobTest job))
    (hset : s.jobSet = true) :
    AnsweredBy AtomicWorker.step Refines a [.setJob i job] (s.goto i (.setJobUnlock false)) := by
  have hsame : a.worker.setJob job = (a.worker, false) := if_pos (h.jobSet.trans hset)
  have hstep : a.step (.setJob i job) = some (a.answer i false) := by
    simp [AtomicWorker.step, hsame]
  exact .one hstep ⟨h.workerStarted, h.jobSet, h.job, h.pc, h.stopping_same hpc rfl rfl,
    h.results_answer hpc rfl rfl rfl rfl, h.trace⟩

/-- The other one sets the job with the flag. -/
theorem accepted (h : s.Refines a) {job : Option ℕ} (hpc : s.callers[i]? = some (.setJobFlag job))
    (hunset : s.jobSet = false) (hjob : s.job = job) :
    AnsweredBy AtomicWorker.step Refines a [.setJob i job]
      ((({ s with jobSet := true } : LockedWorker ℕ).emit (.accepted job)).goto i (.setJobUnlock true)) := by
  have hflag : a.worker.jobSet = false := h.jobSet.trans hunset
  have hset : a.worker.setJob job = ({ a.worker with job := job, jobSet := true }, true) :=
    if_neg (by rw [hflag]; exact Bool.false_ne_true)
  have hstep : a.step (.setJob i job) = some (.answer { a with
      worker := { a.worker with job := job, jobSet := true }
      trace := a.trace ++ [.accepted job] } i true) := by
    simp [AtomicWorker.step, hset]
  refine .one hstep ⟨h.workerStarted, rfl, ?_, h.pc, h.stopping_same hpc rfl rfl,
    h.results_answer hpc rfl rfl rfl rfl, ?_⟩
  · simp [heldJob, goto, emit, hjob, AtomicWorker.answer]
  · exact (congrArg (· ++ [.accepted job]) h.trace).trans (WorkerEvent.filter_atomic s.trace rfl).symm

/-- A call of `Startup` takes effect where it tests for the thread. -/
theorem startup (h : s.Refines a) (hserialized : s.Serialized)
    (hpc : s.callers[i]? = some .startupTest) (hstep : s.callStep i .startupTest = some t) :
    AnsweredBy AtomicWorker.step Refines a [.startup i] t := by
  have hnone := h.stopping_none hserialized hpc rfl rfl
  have hsame := h.workerStarted
  rw [LockedWorker.callStep] at hstep
  split_ifs at hstep with hstarted
  · cases hstep
    have hstep : a.step (.startup i) = some (a.answer i false) := by
      simp [AtomicWorker.step, hnone, hsame, hstarted]
    exact .one hstep ⟨h.workerStarted, h.jobSet, h.job, h.pc, h.stopping_same hpc rfl rfl,
      h.results_answer hpc rfl rfl rfl rfl, h.trace⟩
  · cases hstep
    have hstep : a.step (.startup i) = some (.answer { a with
        worker := { a.worker with workerStarted := true, pc := .waiting } } i true) := by
      simp [AtomicWorker.step, hnone, hsame, hstarted]
    exact .one hstep ⟨rfl, h.jobSet, h.job, rfl, h.stopping_same hpc rfl rfl,
      h.results_answer hpc rfl rfl rfl rfl, h.trace⟩

/-- A call that finds no thread to stop is over. -/
theorem unstarted (h : s.Refines a) (hserialized : s.Serialized) {joins : Bool}
    (hpc : s.callers[i]? = some (.shutdownTest joins)) (hstarted : s.workerStarted = false) :
    AnsweredBy AtomicWorker.step Refines a [.stop i joins] (s.goto i (.unlock false)) := by
  have hnone := h.stopping_none hserialized hpc rfl rfl
  have hsame := h.workerStarted
  have hrefines : (s.goto i (.unlock false)).Refines (a.answer i false) :=
    ⟨h.workerStarted, h.jobSet, h.job, h.pc, h.stopping_same hpc rfl rfl,
      h.results_answer hpc rfl rfl rfl rfl, h.trace⟩
  cases joins with
  | true =>
    have hstep : a.step (.shutdown i) = some (a.answer i false) := by
      simp [AtomicWorker.step, hnone, hsame, hstarted]
    exact .one hstep hrefines
  | false =>
    have hstep : a.step (.requestShutdown i) = some (a.answer i false) := by
      simp [AtomicWorker.step, hnone, hsame, hstarted]
    exact .one hstep hrefines

/-- The section of `OnShutdown` takes effect where it cancels the job, or finds none. -/
theorem onShutdown (h : s.Refines a) (hserialized : s.Serialized) {joins : Bool}
    {cancelled : Option ℕ} (hpc : s.callers[i]? = some pc) (hstops : pc.stops = true)
    (hjoining : pc.joining = false) (hnone : pc.result = none)
    (hcallers : t.callers = s.callers.set i (.onShutdownUnlock joins cancelled))
    (hstarted : t.workerStarted = s.workerStarted) (hset : t.jobSet = s.jobSet)
    (hjob : t.heldJob = s.heldJob) (hworker : t.worker.atomic = s.worker.atomic)
    (htrace : t.trace.filter WorkerEvent.isAtomic =
      s.trace.filter WorkerEvent.isAtomic ++ (s.heldJob.map (.cancel i)).toList) :
    AnsweredBy AtomicWorker.step Refines a [.stop i joins] t := by
  have hserving : pc.serving = true := by
    cases pc <;> first | rfl | contradiction
  have hfree := h.stopping_none hserialized hpc hserving hjoining
  have hthread : a.worker.workerStarted = true :=
    h.workerStarted.trans (hserialized.started i ⟨pc, hpc, hstops⟩)
  have htrace' : (a.onShutdown i).trace = t.trace.filter WorkerEvent.isAtomic := by
    rw [htrace, AtomicWorker.onShutdown, h.trace, h.job]
  have hstarted' := h.workerStarted.trans hstarted.symm
  have hset' := h.jobSet.trans hset.symm
  have hjob' := h.job.trans hjob.symm
  have hworker' := h.pc.trans hworker.symm
  cases joins with
  | true =>
    have hstep : a.step (.shutdown i) = some { a.onShutdown i with stopping := some i } := by
      simp [AtomicWorker.step, hfree, hthread]
    have hstopping := h.stopping
    refine .one hstep ⟨hstarted', hset', hjob', hworker', ?_, ?_, htrace'⟩
    · exact mutex_standing h.stopping hpc hcallers (.acquire hfree rfl)
    · exact h.results_same hpc hcallers hnone.symm
  | false =>
    have hstep : a.step (.requestShutdown i) = some ((a.onShutdown i).answer i true) := by
      simp [AtomicWorker.step, hfree, hthread]
    refine .one hstep ⟨hstarted', hset', hjob', hworker', ?_, ?_, htrace'⟩
    · exact h.stopping_same hpc hcallers hjoining.symm
    · exact h.results_answer hpc hcallers hnone rfl rfl

/-- A call of `Shutdown` has waited for the thread. -/
theorem joined (h : s.Refines a) (hpc : s.callers[i]? = some .join) (hreturned : s.worker = .returned) :
    AnsweredBy AtomicWorker.step Refines a [.join i]
      (({ s with workerStarted := false } : LockedWorker ℕ).goto i (.unlock true)) := by
  have hstopping : a.stopping = some i := (h.stopping i).mpr ⟨_, hpc, rfl⟩
  have hexited : a.worker.pc = .exited := by
    rw [h.pc, hreturned]
    rfl
  have hstep : a.step (.join i) = some (.answer { a with
      worker := { a.worker with workerStarted := false }
      stopping := none } i true) := by
    simp [AtomicWorker.step, hstopping, hexited]
  refine .one hstep ⟨rfl, h.jobSet, h.job, h.pc, ?_, h.results_answer hpc rfl rfl rfl rfl, h.trace⟩
  exact mutex_standing h.stopping hpc rfl (.release rfl rfl)

/-- A step of a call is answered by the atomic worker. -/
theorem callStep (h : s.Refines a) (hsound : s.Sound st) (hserialized : s.Serialized)
    (hpc : s.callers[i]? = some pc) (hstep : s.callStep i pc = some t) :
    AnsweredBy AtomicWorker.step Refines a (s.callAnswers i pc) t := by
  have hknows := hsound.knows i pc hpc
  cases pc with
  | setJobLock job =>
    obtain ⟨-, rfl⟩ := map_lockJob hstep
    exact .stay (h.stay hpc rfl rfl rfl rfl rfl rfl rfl rfl)
  | setJobTest job =>
    cases hstep
    rw [callAnswers]
    cases hset : s.jobSet with
    | true => exact h.refused hpc hset
    | false => exact .stay (h.stay hpc rfl rfl rfl rfl rfl rfl rfl rfl)
  | setJobWrite job =>
    cases hstep
    have hunset : s.jobSet = false := hknows
    refine .stay (h.stay hpc rfl rfl rfl rfl rfl ?_ rfl rfl)
    simp [heldJob, goto, hunset]
  | setJobFlag job =>
    cases hstep
    exact h.accepted hpc hknows.1 hknows.2
  | setJobUnlock ok =>
    cases hstep
    cases ok with
    | true => exact .stay (h.stay hpc rfl rfl rfl rfl rfl rfl rfl rfl)
    | false => exact .stay (h.stay hpc rfl rfl rfl rfl rfl rfl rfl rfl)
  | setJobNotify =>
    rw [LockedWorker.callStep] at hstep
    by_cases hwait : s.worker = .wait
    · rw [hwait] at hstep
      cases hstep
      exact .stay (h.stay hpc rfl rfl rfl rfl rfl rfl (by rw [hwait]; rfl) rfl)
    · split at hstep
      · contradiction
      · cases hstep
        exact .stay (h.stay hpc rfl rfl rfl rfl rfl rfl rfl rfl)
  | startupLock | shutdownLock =>
    obtain ⟨-, hstep⟩ := Option.ite_none_right_eq_some.mp hstep
    cases hstep
    exact .stay (h.stay hpc rfl rfl rfl rfl rfl rfl rfl rfl)
  | startupTest => exact h.startup hserialized hpc hstep
  | shutdownTest joins =>
    cases hstep
    rw [callAnswers]
    cases hstarted : s.workerStarted with
    | true => exact .stay (h.stay hpc rfl rfl rfl rfl rfl rfl rfl rfl)
    | false => exact h.unstarted hserialized hpc hstarted
  | onShutdownLock joins =>
    obtain ⟨-, rfl⟩ := map_lockJob hstep
    exact .stay (h.stay hpc rfl rfl rfl rfl rfl rfl rfl rfl)
  | onShutdownTest joins =>
    cases hstep
    rw [callAnswers]
    split_ifs with hjob
    · exact .stay (h.stay hpc rfl rfl rfl rfl rfl rfl rfl rfl)
    · have hnone : s.heldJob = none := by
        rw [heldJob]
        cases hset : s.jobSet <;> simp_all
      refine h.onShutdown hserialized hpc rfl rfl rfl rfl rfl rfl rfl rfl ?_
      rw [hnone]
      exact (List.append_nil _).symm
  | onShutdownCancel joins =>
    obtain ⟨job, hjob, rfl⟩ := Option.map_eq_some_iff.mp hstep
    have hheld : s.heldJob = some job := by rw [heldJob, if_pos hknows.1, hjob]
    refine h.onShutdown hserialized hpc rfl rfl rfl rfl rfl rfl rfl rfl ?_
    rw [hheld]
    exact WorkerEvent.filter_atomic s.trace rfl
  | onShutdownUnlock joins cancelled =>
    cases hstep
    have htrace := WorkerEvent.filter_other s.trace (e := .onShutdown i cancelled) rfl
    cases joins with
    | true => exact .stay (h.stay hpc rfl rfl rfl rfl rfl rfl rfl htrace)
    | false => exact .stay (h.stay hpc rfl rfl rfl rfl rfl rfl rfl htrace)
  | join =>
    rw [LockedWorker.callStep] at hstep
    split at hstep
    · rename_i hreturned
      cases hstep
      exact h.joined hpc hreturned
    · contradiction
  | unlock ok =>
    cases hstep
    exact .stay (h.stay hpc rfl rfl rfl rfl rfl rfl rfl rfl)
  | setJobReturned | returned => contradiction

/-- A step of the thread that the atomic worker does not see. -/
theorem pass (h : s.Refines a) (hstarted : t.workerStarted = s.workerStarted)
    (hset : t.jobSet = s.jobSet) (hjob : t.job = s.job) (hworker : t.worker.atomic = s.worker.atomic)
    (hcallers : t.callers = s.callers)
    (htrace : t.trace.filter WorkerEvent.isAtomic = s.trace.filter WorkerEvent.isAtomic) :
    t.Refines a := by
  refine ⟨h.workerStarted.trans hstarted.symm, h.jobSet.trans hset.symm, ?_, h.pc.trans hworker.symm,
    h.stopping.keep fun i => ?_, fun i => ?_, h.trace.trans htrace.symm⟩
  · rw [h.job, heldJob, heldJob, hset, hjob]
  · rw [Standing, Standing, hcallers]
  · rw [h.results, hcallers]

/-- A step of the thread is answered by the atomic worker. -/
theorem workerStep (h : s.Refines a) (hsound : s.Sound st) (hstep : s.workerStep = some t) :
    AnsweredBy AtomicWorker.step Refines a s.worker.answers t := by
  have hfits := hsound.worker
  have hpc := h.pc
  cases hworker : s.worker with
  | unborn | wait | returned =>
    rw [LockedWorker.workerStep, hworker] at hstep
    contradiction
  | lock | clearLock =>
    rw [LockedWorker.workerStep, hworker] at hstep
    obtain ⟨-, rfl⟩ := map_lockJob hstep
    exact .stay (h.pass rfl rfl rfl (by rw [hworker]; rfl) rfl rfl)
  | test =>
    rw [LockedWorker.workerStep, hworker] at hstep
    dsimp only at hstep
    split_ifs at hstep
    · cases hstep
      exact .stay (h.pass rfl rfl rfl (by rw [hworker]; rfl) rfl rfl)
    · cases hstep
      exact .stay (h.pass rfl rfl rfl (by rw [hworker]; rfl) rfl rfl)
  | take | unlock | clearUnlock =>
    rw [LockedWorker.workerStep, hworker] at hstep
    cases hstep
    exact .stay (h.pass rfl rfl rfl (by rw [hworker]; rfl) rfl rfl)
  | check curJob =>
    rw [hworker] at hfits hpc
    obtain ⟨-, hset, hcurrent⟩ := hfits
    have hwaiting : a.worker.pc = .waiting := hpc
    have hjobSet : a.worker.jobSet = true := h.jobSet.trans (hsound.jobSet.mpr hset)
    have hjob : a.worker.job = curJob := by rw [h.job, hsound.current, hcurrent]
    have hstep' : a.step .begin = some { a with
        worker := { a.worker with pc := if curJob.isSome then .executing else .exited }
        trace := a.trace ++ (curJob.map .execute).toList } := by
      rw [AtomicWorker.step, if_pos ⟨hwaiting, hjobSet⟩, hjob]
    rw [LockedWorker.workerStep, hworker] at hstep
    cases curJob with
    | none =>
      cases hstep
      exact .one hstep' ⟨h.workerStarted, h.jobSet, h.job, rfl, h.stopping, h.results,
        (List.append_nil _).trans h.trace⟩
    | some job =>
      cases hstep
      refine .one hstep' ⟨h.workerStarted, h.jobSet, h.job, rfl, h.stopping, h.results, ?_⟩
      exact (congrArg (· ++ [.execute job]) h.trace).trans (WorkerEvent.filter_atomic s.trace rfl).symm
  | running job =>
    rw [LockedWorker.workerStep, hworker] at hstep
    cases hstep
    exact .stay (h.pass rfl rfl rfl (by rw [hworker]; rfl) rfl (WorkerEvent.filter_other s.trace rfl))
  | clear =>
    rw [LockedWorker.workerStep, hworker] at hstep
    cases hstep
    rw [hworker] at hpc
    have hstep' : a.step .clear = some { a with
        worker := { a.worker with job := none, pc := .sending }
        trace := a.trace ++ [.cleared] } := if_pos hpc
    refine .one hstep' ⟨h.workerStarted, h.jobSet, ?_, rfl, h.stopping, h.results, ?_⟩
    · rw [heldJob]
      exact (ite_self none).symm
    · exact (congrArg (· ++ [.cleared]) h.trace).trans (WorkerEvent.filter_atomic s.trace rfl).symm
  | send =>
    rw [LockedWorker.workerStep, hworker] at hstep
    cases hstep
    rw [hworker] at hpc
    have hstep' : a.step .report = some { a with
        worker := { a.worker with pc := .exited }
        trace := a.trace ++ [.jobComplete] } := if_pos hpc
    refine .one hstep' ⟨h.workerStarted, h.jobSet, h.job, rfl, h.stopping, h.results, ?_⟩
    exact (congrArg (· ++ [.jobComplete]) h.trace).trans (WorkerEvent.filter_atomic s.trace rfl).symm

end Refines

/-- Every step of the worker and its callers is answered by the atomic worker. -/
theorem simulates_atomic :
    SimulatesBy LockedWorker.step AtomicWorker.step (fun _ _ => True) atomicAnswers
      fun s a => (∃ st, s.Sound st) ∧ s.Serialized ∧ s.Refines a := by
  rintro s a action t ⟨⟨st, hsound⟩, hserialized, h⟩ - hstep
  have hsound' : ∃ st', t.Sound st' := hsound.step hstep
  have hserialized' : t.Serialized := hserialized.step hstep
  have hanswered : AnsweredBy AtomicWorker.step Refines a (s.atomicAnswers action) t := by
    cases action with
    | call function =>
      cases hstep
      have hentry : function.entry.result = none ∧ function.entry.joining = false := by
        cases function <;> exact ⟨rfl, rfl⟩
      refine .stay ⟨h.workerStarted, h.jobSet, h.job, h.pc, mutex_standing_call h.stopping hentry.2,
        fun i => ?_, h.trace⟩
      rw [h.results, List.getElem?_append]
      split_ifs with hi
      · rfl
      · rw [List.getElem?_eq_none_iff.mpr (Nat.le_of_not_lt hi), List.getElem?_singleton]
        split_ifs
        · rw [Option.bind_some, hentry.1]
          rfl
        · rfl
    | caller i =>
      obtain ⟨pc, hpc, hstep⟩ := Option.bind_eq_some_iff.mp hstep
      rw [atomicAnswers, hpc, Option.map_some, Option.getD_some]
      exact h.callStep hsound hserialized hpc hstep
    | worker => exact h.workerStep hsound hstep
    | spuriousWakeup =>
      rw [LockedWorker.step] at hstep
      split at hstep
      · rename_i hwait
        cases hstep
        exact .stay (h.pass rfl rfl rfl (by rw [hwait]; rfl) rfl rfl)
      · contradiction
  obtain ⟨a', hrun, hrefines⟩ := hanswered
  exact ⟨a', hrun, hsound', hserialized', hrefines⟩

/-- They are alike at the start. -/
theorem refines_initial : (initial : LockedWorker ℕ).Refines AtomicWorker.initial := by
  refine ⟨rfl, rfl, rfl, rfl, fun i => iff_of_false (fun hstopping => ?_) ?_, fun _ => rfl, rfl⟩
  · cases hstopping
  · rintro ⟨pc, hpc, -⟩
    cases hpc

/-- Every run of the worker with its locks and its callers has a run of the atomic worker beside it,
step by step, with the same fields, the same place of the thread, the same results of all calls, and
the same events in the same order. -/
theorem linearizes {actions : List (LockedWorkerAction ℕ)}
    (hrun : runActions LockedWorker.step initial actions = some s) :
    ∃ a, runActions AtomicWorker.step AtomicWorker.initial
        (answersOf LockedWorker.step atomicAnswers initial actions) = some a ∧ s.Refines a := by
  have hmeets : RunMeets LockedWorker.step (fun _ _ => True) initial actions :=
    RunMeets.of_forall (fun _ _ => trivial) initial actions
  obtain ⟨a, hanswers, -, -, hrefines⟩ :=
    simulates_atomic.run ⟨⟨_, sound_initial⟩, .initial, refines_initial⟩ hmeets hrun
  exact ⟨a, hanswers, hrefines⟩

/-- Two calls set a job at the same time, and the second one gets the lock first. The thread is started,
and a request to shut down comes before it has seen the job. -/
def contended : List (LockedWorkerAction ℕ) :=
  [.call (.setJob (some 1)), .call (.setJob (some 2)), .caller 1, .caller 1, .caller 1, .caller 1,
    .caller 1, .caller 0, .caller 0, .caller 0, .caller 1, .call .startup, .caller 2, .caller 2,
    .call .requestShutdown, .caller 2, .caller 3, .caller 3, .caller 3, .caller 3, .caller 3,
    .caller 3]

/-- The second job is accepted and cancelled, and the first one is refused. -/
theorem linearizes_contended :
    ∃ s, runActions LockedWorker.step initial contended = some s ∧
      ∃ a, runActions AtomicWorker.step AtomicWorker.initial
          [.setJob 1 (some 2), .setJob 0 (some 1), .startup 2, .requestShutdown 3] = some a ∧
        a.resultsOf 0 = [false] ∧ a.resultsOf 1 = [true] ∧ a.resultsOf 2 = [true] ∧
        a.resultsOf 3 = [true] ∧ a.trace = [.accepted (some 2), .cancel 3 2] := by
  have hsome : (runActions LockedWorker.step (initial : LockedWorker ℕ) contended).isSome = true := rfl
  have hrun := (Option.some_get hsome).symm
  obtain ⟨a, hanswers, hrefines⟩ := linearizes hrun
  exact ⟨_, hrun, a, hanswers, hrefines.results 0, hrefines.results 1, hrefines.results 2,
    hrefines.results 3, hrefines.trace⟩

end LockedWorker

namespace JobDispatcher

variable {limits : Limits} {s s' : JobDispatcher} {a : AtomicWorker} {w : ℕ}

/-- What a step of a call of `OnMessage` does to the worker `w`. It is the last free worker that gets
a job, or a new one. -/
def callAnswers (w : ℕ) (s : JobDispatcher) (c : MessageCall) : List AtomicAction :=
  match c.pc with
  | .assign (job :: _) =>
    if s.freeWorkers.getLast?.getD s.workerID = w then [.setJob 0 (some job)] else []
  | .left => if c.source = some w then [.report] else []
  | _ => []

/-- What a step of the thread of the worker `v` does to the worker `w`. -/
def threadAnswers (w : ℕ) (s : JobDispatcher) (v : ℕ) : List AtomicAction :=
  if v = w then if (s.workers v).pc = .waiting then [.begin] else [.clear] else []

/-- What a step of the dispatcher's thread does to the worker `w`. -/
def dispatcherAnswers (w : ℕ) (s : JobDispatcher) : List AtomicAction :=
  match s.pc with
  | .joining _ (v :: _) =>
    if v = w then .shutdown 0 :: if (s.workers v).workerStarted then [.join 0] else [] else []
  | .dismiss (v :: _) => if v = w then [.setJob 0 none] else []
  | _ => []

/-- The worker of the dispatcher is this one. -/
structure Follows (w : ℕ) (s : JobDispatcher) (a : AtomicWorker) : Prop where
  worker : a.worker = s.workers w
  stopping : a.stopping = none

namespace Follows

/-- Nothing happens to the worker. -/
theorem stay (h : Follows w s a) (hsame : s'.workers w = s.workers w) :
    AnsweredBy AtomicWorker.step (Follows w) a [] s' :=
  .stay ⟨h.worker.trans hsame.symm, h.stopping⟩

/-- Something happens to another worker, or to this one. -/
theorem update (h : Follows w s a) {v : ℕ} {later : JobWorker} {answers : List AtomicAction}
    (hworkers : s'.workers = Function.update s.workers v later)
    (hmine : v = w → ∃ a', runActions AtomicWorker.step a answers = some a' ∧ a'.worker = later ∧
      a'.stopping = none) :
    AnsweredBy AtomicWorker.step (Follows w) a (if v = w then answers else []) s' := by
  split_ifs with hvw
  · obtain ⟨a', hrun, hlater, hstopping⟩ := hmine hvw
    subst hvw
    refine ⟨a', hrun, ?_, hstopping⟩
    rw [hlater, hworkers, Function.update_self]
  · refine h.stay ?_
    rw [hworkers, Function.update_of_ne (Ne.symm hvw)]

/-- One step of the atomic worker. -/
theorem one {a' : AtomicWorker} {action : AtomicAction} (hstep : a.step action = some a') :
    runActions AtomicWorker.step a [action] = some a' :=
  (runActions_cons_eq_some AtomicWorker.step a a' action []).mpr ⟨a', hstep, rfl⟩

/-- A step of a call. -/
theorem callMoves (h : Follows w s a) (hsound : s.Sound limits) {c : MessageCall} (hc : c ∈ s.calls)
    {n : ℕ} {next : JobDispatcher × List MessageCall} (hmoves : CallMoves s c.source c.pc n next)
    {calls : List MessageCall} :
    AnsweredBy AtomicWorker.step (Follows w) a (callAnswers w s c) { next.1 with calls := calls } := by
  obtain ⟨source, pc⟩ := c
  cases hmoves with
  | enter | refused | admitted | create | assigned | leave => exact h.stay rfl
  | lookup =>
    refine h.stay ?_
    unfold finishWorker
    split
    · split <;> rfl
    · rfl
  | assign _ job rest s' _ _ hassign =>
    have hspin : s.pc.afterSpin = false := by
      by_contra hafter
      have hquiet := hsound.quiet.quiet (Bool.of_not_eq_false hafter) _ hc
      contradiction
    have hfresh (v : ℕ) (hv : v ∈ s.freeWorkers) := (hsound.threads.workers v).fresh hspin (.inl hv)
    obtain ⟨id, free, v, hsupply, rfl⟩ := assignJob_eq hsound.pools.partition hfresh hassign
    have hstarted := (hsound.threads.workers v).fresh hspin hsupply.free_or_new
    have hlast : s.freeWorkers.getLast?.getD s.workerID = v := by
      cases hsupply with
      | free _ _ hfree => rw [hfree, List.getLast?_concat, Option.getD_some]
      | spawned hfree => rw [hfree, List.getLast?_nil, Option.getD_none]
    rw [callAnswers, hlast]
    refine h.update rfl fun hvw => ?_
    subst hvw
    refine ⟨_, one rfl, ?_, h.stopping⟩
    have hset : (a.worker.setJob (some job)).1 = givenJob job := by
      rw [h.worker, hstarted]
      rfl
    exact hset
  | finish =>
    cases source with
    | none => exact h.stay rfl
    | some v =>
      simp only [callAnswers, Option.some.injEq]
      refine h.update rfl fun hvw => ?_
      subst hvw
      have hsending : a.worker.pc = .sending := by
        rw [h.worker]
        exact (hsound.threads.calls _ hc v rfl).1
      refine ⟨_, one (if_pos hsending), ?_, h.stopping⟩
      rw [h.worker]

/-- A step of the thread of a worker. -/
theorem workerMoves (h : Follows w s a) {v : ℕ} (hmoves : WorkerMoves s v s') :
    AnsweredBy AtomicWorker.step (Follows w) a (threadAnswers w s v) s' := by
  cases hmoves with
  | start hpc hlt hset =>
    rw [threadAnswers, if_pos hpc]
    refine h.update rfl fun hvw => ?_
    subst hvw
    refine ⟨_, one (if_pos ⟨by rw [h.worker]; exact hpc, by rw [h.worker]; exact hset⟩), ?_, h.stopping⟩
    rw [h.worker]
  | report hpc =>
    have hbusy : ¬(s.workers v).pc = .waiting := by
      rw [hpc]
      exact JobWorkerPc.noConfusion
    rw [threadAnswers, if_neg hbusy]
    refine h.update rfl fun hvw => ?_
    subst hvw
    refine ⟨_, one (if_pos (by rw [h.worker]; exact hpc)), ?_, h.stopping⟩
    rw [h.worker]

/-- `Shutdown` has waited for the thread. -/
theorem shutdown (h : Follows w s a) (hexited : a.worker.workerStarted = true → a.worker.pc = .exited) :
    ∃ a', runActions AtomicWorker.step a
        (.shutdown 0 :: if a.worker.workerStarted then [.join 0] else []) = some a' ∧
      a'.worker = { a.worker with workerStarted := false } ∧ a'.stopping = none := by
  cases hstarted : a.worker.workerStarted with
  | false =>
    have hstep : a.step (.shutdown 0) = some (a.answer 0 false) := by
      simp [AtomicWorker.step, h.stopping, hstarted]
    refine ⟨_, one hstep, ?_, h.stopping⟩
    rw [← hstarted]
    rfl
  | true =>
    have hcancel : a.step (.shutdown 0) = some { a.onShutdown 0 with stopping := some 0 } := by
      simp [AtomicWorker.step, h.stopping, hstarted]
    have hjoin : AtomicWorker.step { a.onShutdown 0 with stopping := some 0 } (.join 0) =
        some (.answer { a.onShutdown 0 with
          worker := { a.worker with workerStarted := false }
          stopping := none } 0 true) := if_pos ⟨rfl, hexited hstarted⟩
    have hrun := (runActions_cons_eq_some AtomicWorker.step a _ _ _).mpr ⟨_, hcancel, one hjoin⟩
    exact ⟨_, hrun, rfl, rfl⟩

/-- A step of the dispatcher. -/
theorem dispatcherMoves (h : Follows w s a) (hsound : s.Sound limits)
    (hmoves : DispatcherMoves limits s s') :
    AnsweredBy AtomicWorker.step (Follows w) a (dispatcherAnswers w s) s' := by
  cases hmoves with
  | stopLoop hpc | round hpc | takeFinished hpc | idle hpc | stopFree hpc | dismissed hpc | stop _ _ hpc
  | done hpc =>
    rw [dispatcherAnswers, hpc]
    exact h.stay rfl
  | cleared p hpc =>
    rw [dispatcherAnswers, hpc]
    cases p <;> exact h.stay rfl
  | joined p v rest hpc hexited =>
    rw [dispatcherAnswers, hpc]
    refine h.update rfl fun hvw => ?_
    subst hvw
    rw [← h.worker] at hexited ⊢
    exact h.shutdown hexited
  | refill hpc =>
    have hspin : s.pc.afterSpin = false := by rw [hpc]; rfl
    have hfresh (v : ℕ) (hv : s.workerID ≤ v) := (hsound.threads.workers v).fresh hspin (.inr hv)
    have hspawn := spawnWorkers_spawned s (spawnCount limits s.freeWorkers.length) hfresh
    rw [dispatcherAnswers, hpc]
    exact h.stay (congrFun hspawn.workers w)
  | dismiss v rest hpc =>
    rw [dispatcherAnswers, hpc]
    refine h.update rfl fun hvw => ?_
    subst hvw
    refine ⟨_, one rfl, ?_, h.stopping⟩
    exact congrArg (fun worker => (JobWorker.setJob worker none).1) h.worker

end Follows

end JobDispatcher

end TinySox
