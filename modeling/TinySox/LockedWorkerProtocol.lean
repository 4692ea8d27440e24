import TinySox.LockedWorker

/-!
# The protocol of a worker

Whatever the interleaving, the life of a worker has one course: a job is accepted, executed, cleared
and reported, each once and in this order, and nothing happens after a null job. A shutdown request
that gets `jobLock` between the acceptance and the clearing cancels the job, and no other does. If
nobody can go on, an accepted job has been reported.
-/

namespace TinySox

open TinySox.Common

variable {Job : Type}

namespace WorkerEvent

/-- The event is none of a shutdown request. -/
def isLife : WorkerEvent Job → Bool
  | .cancel _ _ | .onShutdown _ _ => false
  | _ => true

/-- All that happens to a worker with this job, but for shutdown requests. -/
def life : Option Job → List (WorkerEvent Job)
  | none => [.accepted none]
  | some job => [.accepted (some job), .execute job, .executeReturned job, .cleared, .jobComplete]

/-- What a shutdown request does fits to what has happened before. It cancels the job that was
accepted, while it is not cleared, and it does not fail to do so. -/
def Timely (past : List (WorkerEvent Job)) : WorkerEvent Job → Prop
  | .cancel _ job => .accepted (some job) ∈ past ∧ .cleared ∉ past
  | .onShutdown i (some job) => .cancel i job ∈ past
  | .onShutdown _ none => ∀ job, .accepted (some job) ∈ past → .cleared ∈ past
  | _ => True

end WorkerEvent

/-- Every shutdown request has come in time. -/
def AllTimely (trace : List (WorkerEvent Job)) : Prop :=
  ∀ past e later, trace = past ++ e :: later → e.Timely past

/-- One more event. -/
theorem AllTimely.concat {trace : List (WorkerEvent Job)} {e : WorkerEvent Job}
    (h : AllTimely trace) (he : e.Timely trace) : AllTimely (trace ++ [e]) :=
  forall_split_concat (P := fun past e => WorkerEvent.Timely past e) h he

/-- The protocol of a worker, over the events so far. -/
structure WorkerProtocol (trace : List (WorkerEvent Job)) : Prop where
  life : ∃ job, trace.filter WorkerEvent.isLife <+: WorkerEvent.life job
  timely : AllTimely trace

/-- How far the life of a worker has got. -/
inductive WorkerStage (Job : Type)
  | empty
  /-- a null job was accepted -/
  | void
  | pending (job : Job)
  | running (job : Job)
  | ran (job : Job)
  | cleared (job : Job)
  | complete (job : Job)

namespace WorkerStage

/-- The events so far. -/
def history : WorkerStage Job → List (WorkerEvent Job)
  | empty => []
  | void => (WorkerEvent.life none).take 1
  | pending job => (WorkerEvent.life (some job)).take 1
  | running job => (WorkerEvent.life (some job)).take 2
  | ran job => (WorkerEvent.life (some job)).take 3
  | cleared job => (WorkerEvent.life (some job)).take 4
  | complete job => WorkerEvent.life (some job)

/-- The job that the worker holds. -/
def current : WorkerStage Job → Option Job
  | pending job | running job | ran job => some job
  | _ => none

/-- The worker is not busy with a job. -/
def Idle : WorkerStage Job → Prop
  | running _ | ran _ | cleared _ => False
  | _ => True

/-- The stage after a job was set. -/
def ofJob : Option Job → WorkerStage Job
  | none => void
  | some job => pending job

/-- They are the beginning of a life. -/
theorem history_prefix (st : WorkerStage Job) : ∃ job, st.history <+: WorkerEvent.life job := by
  cases st with
  | empty => exact ⟨none, List.nil_prefix⟩
  | void => exact ⟨none, List.take_prefix _ _⟩
  | pending job | running job | ran job | cleared job => exact ⟨some job, List.take_prefix _ _⟩
  | complete job => exact ⟨some job, List.prefix_refl _⟩

/-- A job that the worker holds was accepted, and is not cleared. -/
theorem mem_history_of_current {st : WorkerStage Job} {job : Job} (h : st.current = some job) :
    .accepted (some job) ∈ st.history ∧ .cleared ∉ st.history := by
  cases st <;> simp_all [current, history, WorkerEvent.life]

/-- If it holds none, those that were accepted have been cleared. -/
theorem mem_history_of_none {st : WorkerStage Job} (h : st.current = none) (job : Job)
    (haccepted : .accepted (some job) ∈ st.history) : .cleared ∈ st.history := by
  cases st <;> simp_all [current, history, WorkerEvent.life]

end WorkerStage

/-- The thread holds `jobLock`. -/
def WorkerPc.inside : WorkerPc Job → Bool
  | .test | .take | .unlock _ | .clear | .clearUnlock => true
  | _ => false

/-- The thread stands where it may in this stage. -/
def WorkerPc.Fits (st : WorkerStage Job) : WorkerPc Job → Prop
  | .unborn | .lock | .test | .wait => st.Idle
  | .take => st.Idle ∧ st ≠ .empty
  | .unlock curJob | .check curJob => st.Idle ∧ st ≠ .empty ∧ curJob = st.current
  | .running job => st = .running job
  | .clearLock | .clear => ∃ job, st = .ran job
  | .clearUnlock | .send => ∃ job, st = .cleared job
  | .returned => st = .void ∨ ∃ job, st = .complete job

namespace WorkerCallPc

/-- The call holds `jobLock`. -/
def inside : WorkerCallPc Job → Bool
  | setJobTest _ | setJobWrite _ | setJobFlag _ | setJobUnlock _ | onShutdownTest _
  | onShutdownCancel _ | onShutdownUnlock _ _ => true
  | _ => false

/-- The call has set the job. -/
def accepts : WorkerCallPc Job → Bool
  | setJobUnlock true | setJobNotify | setJobReturned true => true
  | _ => false

/-- The call will notify the thread of the job. -/
def notifies : WorkerCallPc Job → Bool
  | setJobUnlock true | setJobNotify => true
  | _ => false

end WorkerCallPc

namespace LockedWorker

/-- The job, if it was set. -/
def heldJob (s : LockedWorker Job) : Option Job := if s.jobSet then s.job else none

/-- The party holds `jobLock`. -/
def inside (s : LockedWorker Job) : Party → Prop
  | .worker => s.worker.inside = true
  | .caller i => ∃ pc, s.callers[i]? = some pc ∧ pc.inside = true

/-- What a call knows, where it stands. -/
def Knows (s : LockedWorker Job) (i : ℕ) : WorkerCallPc Job → Prop
  | .setJobWrite _ => s.jobSet = false
  | .setJobFlag job => s.jobSet = false ∧ s.job = job
  | .setJobUnlock true | .setJobNotify | .setJobReturned true => s.jobSet = true
  | .onShutdownCancel _ => s.jobSet = true ∧ s.job.isSome = true
  | .onShutdownUnlock _ cancelled =>
    cancelled = s.heldJob ∧ ∀ job, cancelled = some job → .cancel i job ∈ s.trace
  | _ => True

/-- The state agrees with the stage that its events have led to. -/
structure Sound (s : LockedWorker Job) (st : WorkerStage Job) : Prop where
  mutex : Mutex s.jobLock s.inside
  knows : ∀ i pc, s.callers[i]? = some pc → s.Knows i pc
  acceptsOnce : ∀ (i j : ℕ) (pc pc' : WorkerCallPc Job), s.callers[i]? = some pc → s.callers[j]? = some pc' →
    pc.accepts = true → pc'.accepts = true → i = j
  waits : s.worker = .wait → s.jobSet = true →
    ∃ (i : ℕ) (pc : WorkerCallPc Job), s.callers[i]? = some pc ∧ pc.notifies = true
  started : s.workerStarted = false → s.worker = .unborn ∨ s.worker = .returned
  current : s.heldJob = st.current
  jobSet : s.jobSet = true ↔ st ≠ .empty
  worker : s.worker.Fits st
  history : s.trace.filter WorkerEvent.isLife = st.history
  timely : AllTimely s.trace

section Caller

variable {s t : LockedWorker Job} {st st' : WorkerStage Job} {i : ℕ} {pc pc' : WorkerCallPc Job}

/-- What a call knows stays true: the flag is never reset, and the job changes only while no other
party holds `jobLock`. -/
theorem Knows.mono (h : s.Knows i pc) (hset : s.jobSet = true → t.jobSet = true)
    (hinside : pc.inside = true → t.jobSet = s.jobSet ∧ t.job = s.job)
    (htrace : s.trace ⊆ t.trace) : t.Knows i pc := by
  cases pc with
  | setJobWrite job => exact (hinside rfl).1.trans h
  | setJobFlag job =>
    obtain ⟨hflag, hjob⟩ := hinside rfl
    exact ⟨hflag.trans h.1, hjob.trans h.2⟩
  | setJobUnlock ok =>
    cases ok with
    | true => exact hset h
    | false => trivial
  | setJobReturned ok =>
    cases ok with
    | true => exact hset h
    | false => trivial
  | setJobNotify => exact hset h
  | onShutdownCancel joins =>
    obtain ⟨hflag, hjob⟩ := hinside rfl
    exact ⟨hflag.trans h.1, by rw [hjob]; exact h.2⟩
  | onShutdownUnlock joins cancelled =>
    obtain ⟨hflag, hjob⟩ := hinside rfl
    refine ⟨?_, fun job hcancelled => htrace (h.2 job hcancelled)⟩
    rw [heldJob, hflag, hjob]
    exact h.1
  | _ => trivial

/-- A call is inside where it stands. -/
theorem inside_caller (hpc : s.callers[i]? = some pc) : s.inside (.caller i) ↔ pc.inside = true := by
  constructor
  · rintro ⟨pc', hpc', hinside⟩
    cases hpc.symm.trans hpc'
    exact hinside
  · exact fun hinside => ⟨pc, hpc, hinside⟩

/-- A call that goes on stands at its new place. -/
theorem getElem?_goto (hpc : s.callers[i]? = some pc) (hcallers : t.callers = s.callers.set i pc') :
    t.callers[i]? = some pc' := by
  obtain ⟨hi, -⟩ := List.getElem?_eq_some_iff.mp hpc
  rw [hcallers, List.getElem?_set_self hi]

/-- The others stand where they stood. -/
theorem getElem?_goto_ne {j : ℕ} (hij : j ≠ i) (hcallers : t.callers = s.callers.set i pc') :
    t.callers[j]? = s.callers[j]? := by
  rw [hcallers, List.getElem?_set_ne (Ne.symm hij)]

/-- The step of a call keeps `jobLock` in agreement with who is inside. -/
theorem mutex_caller (h : Mutex s.jobLock s.inside) (hpc : s.callers[i]? = some pc)
    (hcallers : t.callers = s.callers.set i pc') (hworker : t.worker.inside = s.worker.inside)
    (hlock : LockMove pc.inside pc'.inside s.jobLock (.caller i) t.jobLock) :
    Mutex t.jobLock t.inside := by
  have hmine := inside_caller hpc
  have hmine' := inside_caller (getElem?_goto hpc hcallers)
  have hother : ∀ q, q ≠ .caller i → (t.inside q ↔ s.inside q) := by
    intro q hq
    cases q with
    | worker => rw [inside, inside, hworker]
    | caller j =>
      have hij : j ≠ i := fun hji => hq (by rw [hji])
      rw [inside, inside, getElem?_goto_ne hij hcallers]
  exact h.move hmine hmine' hother hlock

/-- The step of a call keeps what all calls know. -/
theorem knows_caller (h : s.Sound st) (hpc : s.callers[i]? = some pc)
    (hcallers : t.callers = s.callers.set i pc') (hset : s.jobSet = true → t.jobSet = true)
    (hdata : pc.inside = true ∨ t.jobSet = s.jobSet ∧ t.job = s.job) (htrace : s.trace ⊆ t.trace)
    (hknows : t.Knows i pc') (j : ℕ) (pc'' : WorkerCallPc Job) (hj : t.callers[j]? = some pc'') :
    t.Knows j pc'' := by
  by_cases hij : j = i
  · subst hij
    rw [getElem?_goto hpc hcallers] at hj
    cases hj
    exact hknows
  · rw [getElem?_goto_ne hij hcallers] at hj
    refine Knows.mono (h.knows j pc'' hj) hset (fun hinside => ?_) htrace
    refine hdata.resolve_left fun hmine => hij ?_
    exact Party.caller.inj (h.mutex.unique ((inside_caller hj).mpr hinside) ((inside_caller hpc).mpr hmine))

/-- A call that has set the job knows it. -/
theorem jobSet_of_accepts (h : s.Knows i pc) (haccepts : pc.accepts = true) : s.jobSet = true := by
  cases pc with
  | setJobUnlock ok | setJobReturned ok =>
    cases ok with
    | true => exact h
    | false => contradiction
  | setJobNotify => exact h
  | _ => contradiction

/-- No second call sets the job. -/
theorem acceptsOnce_caller (h : s.Sound st) (hpc : s.callers[i]? = some pc)
    (hcallers : t.callers = s.callers.set i pc')
    (haccepts : pc'.accepts = true → pc.accepts = true ∨ s.jobSet = false) (j k : ℕ)
    (pc₁ pc₂ : WorkerCallPc Job) (hj : t.callers[j]? = some pc₁) (hk : t.callers[k]? = some pc₂)
    (haccepts₁ : pc₁.accepts = true) (haccepts₂ : pc₂.accepts = true) : j = k := by
  -- the call that has made the step is the only one
  have hnew (k : ℕ) (pc'' : WorkerCallPc Job) (hki : k ≠ i) (hk : t.callers[k]? = some pc'')
      (hmine : pc'.accepts = true) (htheirs : pc''.accepts = true) : i = k := by
    rw [getElem?_goto_ne hki hcallers] at hk
    rcases haccepts hmine with hbefore | hunset
    · exact h.acceptsOnce i k pc pc'' hpc hk hbefore htheirs
    · rw [jobSet_of_accepts (h.knows k pc'' hk) htheirs] at hunset
      contradiction
  by_cases hji : j = i
  · by_cases hki : k = i
    · rw [hji, hki]
    · subst hji
      cases (getElem?_goto hpc hcallers).symm.trans hj
      exact hnew k pc₂ hki hk haccepts₁ haccepts₂
  · by_cases hki : k = i
    · subst hki
      cases (getElem?_goto hpc hcallers).symm.trans hk
      exact (hnew j pc₁ hji hj haccepts₂ haccepts₁).symm
    · rw [getElem?_goto_ne hji hcallers] at hj
      rw [getElem?_goto_ne hki hcallers] at hk
      exact h.acceptsOnce j k pc₁ pc₂ hj hk haccepts₁ haccepts₂

/-- A thread that starts, or wakes up, is where it may be. -/
theorem fits_lock {worker : WorkerPc Job} (hfits : worker.Fits st)
    (hidle : worker = .wait ∨ worker = .unborn ∨ worker = .returned) : WorkerPc.lock.Fits st := by
  rcases hidle with rfl | rfl | rfl
  · exact hfits
  · exact hfits
  · rcases hfits with rfl | ⟨job, rfl⟩ <;> trivial

/-- It does not hold the lock, nor did it before. -/
theorem inside_lock {worker : WorkerPc Job}
    (hidle : worker = .wait ∨ worker = .unborn ∨ worker = .returned) :
    (WorkerPc.lock : WorkerPc Job).inside = worker.inside := by
  rcases hidle with rfl | rfl | rfl <;> rfl

/-- A call makes a step that sets no job. It may start or wake the thread, write the job while the
flag is not set, or make an event of a shutdown request. -/
theorem Sound.move (h : s.Sound st) (hpc : s.callers[i]? = some pc)
    (hcallers : t.callers = s.callers.set i pc')
    (hlock : LockMove pc.inside pc'.inside s.jobLock (.caller i) t.jobLock)
    (hworker : t.worker = s.worker ∨
      t.worker = .lock ∧ (s.worker = .wait ∨ s.worker = .unborn ∨ s.worker = .returned))
    (hstarted : t.workerStarted = false → t.worker = .unborn ∨ t.worker = .returned)
    (hjobSet : t.jobSet = s.jobSet) (hjob : t.job = s.job ∨ pc.inside = true ∧ s.jobSet = false)
    {e : Option (WorkerEvent Job)} (htrace : t.trace = s.trace ++ e.toList)
    (hevent : ∀ x ∈ e, x.isLife = false ∧ x.Timely s.trace) (hknows : t.Knows i pc')
    (haccepts : pc'.accepts = true → pc.accepts = true)
    (hnotifies : pc.notifies = true → pc'.notifies = true ∨ t.worker ≠ .wait) : t.Sound st := by
  have hinside : t.worker.inside = s.worker.inside := by
    rcases hworker with hsame | ⟨hwoken, hidle⟩
    · rw [hsame]
    · rw [hwoken, inside_lock hidle]
  have hcurrent : t.heldJob = s.heldJob := by
    rw [heldJob, heldJob, hjobSet]
    rcases hjob with hsame | ⟨-, hunset⟩
    · rw [hsame]
    · rw [hunset]
      rfl
  constructor
  · exact mutex_caller h.mutex hpc hcallers hinside hlock
  · refine knows_caller h hpc hcallers (fun hset => hjobSet.trans hset) ?_ ?_ hknows
    · exact hjob.symm.imp And.left fun hsame => ⟨hjobSet, hsame⟩
    · rw [htrace]
      exact List.subset_append_left _ _
  · exact acceptsOnce_caller h hpc hcallers fun haccepted => .inl (haccepts haccepted)
  · intro hwait hset
    have hwait' : s.worker = .wait := by
      rcases hworker with hsame | ⟨hwoken, -⟩
      · rw [← hsame, hwait]
      · rw [hwoken] at hwait
        contradiction
    obtain ⟨j, pc'', hj, hnotifier⟩ := h.waits hwait' (hjobSet ▸ hset)
    by_cases hij : j = i
    · subst hij
      cases hpc.symm.trans hj
      have hstill := (hnotifies hnotifier).resolve_right fun hno => hno hwait
      exact ⟨j, pc', getElem?_goto hpc hcallers, hstill⟩
    · exact ⟨j, pc'', by rw [getElem?_goto_ne hij hcallers, hj], hnotifier⟩
  · exact hstarted
  · rw [hcurrent, h.current]
  · rw [hjobSet]
    exact h.jobSet
  · rcases hworker with hsame | ⟨hwoken, hidle⟩
    · rw [hsame]
      exact h.worker
    · rw [hwoken]
      exact fits_lock h.worker hidle
  · cases e with
    | none => rw [htrace, Option.toList_none, List.append_nil, h.history]
    | some x =>
      rw [htrace, Option.toList_some, List.filter_append, h.history, List.filter_singleton,
        (hevent x rfl).1]
      exact List.append_nil _
  · rw [htrace]
    cases e with
    | none =>
      rw [Option.toList_none, List.append_nil]
      exact h.timely
    | some x => exact h.timely.concat (hevent x rfl).2

/-- Wherever the thread may be before a job is set, it may be after. -/
theorem fits_ofJob {worker : WorkerPc Job} (hfits : worker.Fits .empty) (job : Option Job) :
    worker.Fits (.ofJob job) := by
  cases worker with
  | unborn | lock | test | wait => cases job <;> trivial
  | take => exact absurd rfl hfits.2
  | unlock curJob | check curJob => exact absurd rfl hfits.2.1
  | running j => cases hfits
  | clearLock | clear | clearUnlock | send =>
    obtain ⟨j, hj⟩ := hfits
    cases hj
  | returned =>
    rcases hfits with hvoid | ⟨j, hj⟩
    · cases hvoid
    · cases hj

/-- A call sets the job. -/
theorem Sound.accept (h : s.Sound st) {job : Option Job}
    (hpc : s.callers[i]? = some (.setJobFlag job)) :
    ((({ s with jobSet := true } : LockedWorker Job).emit (.accepted job)).goto i
      (.setJobUnlock true)).Sound (.ofJob job) := by
  obtain ⟨hunset, hjob⟩ := h.knows i _ hpc
  have hempty : st = .empty := by
    by_contra hne
    rw [h.jobSet.mpr hne] at hunset
    contradiction
  subst hempty
  generalize ht : (({ s with jobSet := true } : LockedWorker Job).emit (.accepted job)).goto i
    (.setJobUnlock true) = t
  have hcallers : t.callers = s.callers.set i (.setJobUnlock true) := by rw [← ht]; rfl
  have hlock : LockMove true true s.jobLock (.caller i) t.jobLock := by rw [← ht]; exact .keep rfl
  have hmutex := mutex_caller h.mutex hpc hcallers (by rw [← ht]; rfl) hlock
  rw [← ht] at hmutex ⊢
  constructor
  · exact hmutex
  · exact knows_caller h hpc rfl (fun _ => rfl) (.inl rfl) (List.subset_append_left _ _) rfl
  · exact acceptsOnce_caller h hpc rfl fun _ => .inr hunset
  · intro _ _
    exact ⟨i, _, getElem?_goto hpc rfl, rfl⟩
  · exact h.started
  · change s.job = _
    rw [hjob]
    cases job <;> rfl
  · cases job <;> simp [emit, goto, WorkerStage.ofJob]
  · exact fits_ofJob h.worker job
  · change (s.trace ++ [WorkerEvent.accepted job]).filter _ = _
    rw [List.filter_append, h.history]
    cases job <;> rfl
  · exact h.timely.concat trivial

/-- A call makes a step that changes nothing but who holds the locks. -/
theorem Sound.silent (h : s.Sound st) (hpc : s.callers[i]? = some pc)
    (hcallers : t.callers = s.callers.set i pc')
    (hlock : LockMove pc.inside pc'.inside s.jobLock (.caller i) t.jobLock)
    (hworker : t.worker = s.worker) (hstarted : t.workerStarted = s.workerStarted)
    (hjobSet : t.jobSet = s.jobSet) (hjob : t.job = s.job) (htrace : t.trace = s.trace)
    (hknows : t.Knows i pc') (haccepts : pc'.accepts = true → pc.accepts = true)
    (hnotifies : pc.notifies = true → pc'.notifies = true) : t.Sound st := by
  refine h.move hpc hcallers hlock (.inl hworker) ?_ hjobSet (.inl hjob) (e := none) ?_ ?_ hknows
    haccepts fun hnotifier => .inl (hnotifies hnotifier)
  · rw [hstarted, hworker]
    exact h.started
  · rw [htrace, Option.toList_none, List.append_nil]
  · exact fun x hx => nomatch hx

/-- Only a free lock is taken. -/
theorem map_lockJob {p : Party} {f : LockedWorker Job → LockedWorker Job}
    (h : (s.lockJob p).map f = some t) : s.jobLock = none ∧ t = f { s with jobLock := some p } := by
  rw [lockJob, Option.map_eq_some_iff] at h
  obtain ⟨u, hu, rfl⟩ := h
  obtain ⟨hfree, hu⟩ := Option.ite_none_right_eq_some.mp hu
  cases hu
  exact ⟨hfree, rfl⟩

/-- The thread is woken, if it waits. -/
theorem Sound.notify (h : s.Sound st) (hpc : s.callers[i]? = some .setJobNotify)
    (hstep : s.callStep i .setJobNotify = some t) : t.Sound st := by
  have hknows : s.jobSet = true := h.knows i _ hpc
  have hnone : ∀ x ∈ (none : Option (WorkerEvent Job)), x.isLife = false ∧ x.Timely s.trace :=
    fun x hx => nomatch hx
  rw [callStep] at hstep
  by_cases hwait : s.worker = .wait
  · rw [hwait] at hstep
    cases hstep
    refine h.move hpc rfl (.keep rfl) (.inr ⟨rfl, .inl hwait⟩) ?_ rfl (.inl rfl)
      (List.append_nil _).symm hnone hknows (fun _ => rfl) fun _ => .inr ?_
    · intro hstopped
      rcases h.started hstopped with hunborn | hreturned
      · rw [hwait] at hunborn
        contradiction
      · rw [hwait] at hreturned
        contradiction
    · exact fun hno => nomatch hno
  · have ht : t = s.goto i (.setJobReturned true) := by
      split at hstep
      · contradiction
      · exact (Option.some.inj hstep).symm
    rw [ht]
    exact h.move hpc rfl (.keep rfl) (.inl rfl) h.started rfl (.inl rfl) (List.append_nil _).symm
      hnone hknows (fun _ => rfl) fun _ => .inr hwait

/-- `Startup` starts the thread if there is none. -/
theorem Sound.startup (h : s.Sound st) (hpc : s.callers[i]? = some .startupTest)
    (hstep : s.callStep i .startupTest = some t) : t.Sound st := by
  rw [callStep] at hstep
  split_ifs at hstep with hstarted
  · cases hstep
    exact h.silent hpc rfl (.keep rfl) rfl rfl rfl rfl rfl trivial (fun hno => nomatch hno)
      fun hno => nomatch hno
  · cases hstep
    have hidle := h.started ((Bool.not_eq_true _).mp hstarted)
    exact h.move hpc rfl (.keep rfl) (.inr ⟨rfl, .inr hidle⟩) (fun hno => nomatch hno) rfl (.inl rfl)
      (e := none) (List.append_nil _).symm (fun x hx => nomatch hx) trivial (fun hno => nomatch hno)
      fun hno => nomatch hno

/-- `Shutdown` ends with the thread. -/
theorem Sound.join (h : s.Sound st) (hpc : s.callers[i]? = some .join)
    (hstep : s.callStep i .join = some t) : t.Sound st := by
  rw [callStep] at hstep
  split at hstep
  · rename_i hreturned
    cases hstep
    exact h.move hpc rfl (.keep rfl) (.inl rfl) (fun _ => .inr hreturned) rfl (.inl rfl) (e := none)
      (List.append_nil _).symm (fun x hx => nomatch hx) trivial (fun hno => nomatch hno)
      fun hno => nomatch hno
  · contradiction

/-- `OnShutdown` cancels the job that the worker holds. -/
theorem Sound.cancel (h : s.Sound st) {joins : Bool}
    (hpc : s.callers[i]? = some (.onShutdownCancel joins))
    (hstep : s.callStep i (.onShutdownCancel joins) = some t) : t.Sound st := by
  obtain ⟨hset, -⟩ : s.jobSet = true ∧ s.job.isSome = true := h.knows i _ hpc
  rw [callStep, Option.map_eq_some_iff] at hstep
  obtain ⟨job, hjob, rfl⟩ := hstep
  have hheld : s.heldJob = some job := by rw [heldJob, if_pos hset, hjob]
  have hcurrent : st.current = some job := h.current ▸ hheld
  have htimely : (WorkerEvent.cancel i job).Timely s.trace := by
    obtain ⟨haccepted, hcleared⟩ := WorkerStage.mem_history_of_current hcurrent
    rw [← h.history, List.mem_filter] at haccepted hcleared
    exact ⟨haccepted.1, fun hmem => hcleared ⟨hmem, rfl⟩⟩
  refine h.move hpc rfl (.keep rfl) (.inl rfl) h.started rfl (.inl rfl) (e := some (.cancel i job)) rfl
    ?_ ⟨hheld.symm, ?_⟩ (fun hno => nomatch hno) fun hno => nomatch hno
  · rintro x hx
    cases hx
    exact ⟨rfl, htimely⟩
  · rintro _ hcancelled
    cases hcancelled
    exact List.mem_append_right _ (List.mem_singleton_self _)

/-- `OnShutdown` has done what it should. -/
theorem Sound.leave (h : s.Sound st) {joins : Bool} {cancelled : Option Job}
    (hpc : s.callers[i]? = some (.onShutdownUnlock joins cancelled))
    (hstep : s.callStep i (.onShutdownUnlock joins cancelled) = some t) : t.Sound st := by
  obtain ⟨hheld, hcancelled⟩ :
      cancelled = s.heldJob ∧ ∀ job, cancelled = some job → WorkerEvent.cancel i job ∈ s.trace :=
    h.knows i _ hpc
  have htimely : (WorkerEvent.onShutdown i cancelled).Timely s.trace := by
    cases cancelled with
    | some job => exact hcancelled job rfl
    | none =>
      intro job haccepted
      have hcurrent : st.current = none := h.current ▸ hheld.symm
      have hhistory := WorkerStage.mem_history_of_none hcurrent job
      rw [← h.history, List.mem_filter, List.mem_filter] at hhistory
      exact (hhistory ⟨haccepted, rfl⟩).1
  have hevent : ∀ x ∈ some (WorkerEvent.onShutdown i cancelled), x.isLife = false ∧ x.Timely s.trace := by
    rintro x hx
    cases hx
    exact ⟨rfl, htimely⟩
  cases hstep
  cases joins with
  | true =>
    exact h.move hpc rfl (.release rfl rfl) (.inl rfl) h.started rfl (.inl rfl)
      (e := some (.onShutdown i cancelled)) rfl hevent trivial (fun hno => nomatch hno)
      fun hno => nomatch hno
  | false =>
    exact h.move hpc rfl (.release rfl rfl) (.inl rfl) h.started rfl (.inl rfl)
      (e := some (.onShutdown i cancelled)) rfl hevent trivial (fun hno => nomatch hno)
      fun hno => nomatch hno

/-- The next step of a call. -/
theorem Sound.callStep (h : s.Sound st) (hpc : s.callers[i]? = some pc)
    (hstep : s.callStep i pc = some t) : ∃ st', t.Sound st' := by
  have hknows := h.knows i pc hpc
  cases pc with
  | setJobLock job =>
    obtain ⟨hfree, rfl⟩ := map_lockJob hstep
    exact ⟨st, h.silent hpc rfl (.acquire hfree rfl) rfl rfl rfl rfl rfl trivial
      (fun hno => nomatch hno) fun hno => nomatch hno⟩
  | setJobTest job =>
    cases hstep
    cases hset : s.jobSet with
    | true =>
      exact ⟨st, h.silent hpc rfl (.keep rfl) rfl rfl rfl rfl rfl trivial
        (fun hno => nomatch hno) fun hno => nomatch hno⟩
    | false =>
      exact ⟨st, h.silent hpc rfl (.keep rfl) rfl rfl rfl rfl rfl hset
        (fun hno => nomatch hno) fun hno => nomatch hno⟩
  | setJobWrite job =>
    cases hstep
    exact ⟨st, h.move hpc rfl (.keep rfl) (.inl rfl) h.started rfl (.inr ⟨rfl, hknows⟩) (e := none)
      (List.append_nil _).symm (fun x hx => nomatch hx) ⟨hknows, rfl⟩ (fun hno => nomatch hno)
      fun hno => nomatch hno⟩
  | setJobFlag job =>
    cases hstep
    exact ⟨_, h.accept hpc⟩
  | setJobUnlock ok =>
    cases hstep
    cases ok with
    | true =>
      exact ⟨st, h.silent hpc rfl (.release rfl rfl) rfl rfl rfl rfl rfl hknows (fun _ => rfl)
        fun _ => rfl⟩
    | false =>
      exact ⟨st, h.silent hpc rfl (.release rfl rfl) rfl rfl rfl rfl rfl trivial
        (fun hno => nomatch hno) fun hno => nomatch hno⟩
  | setJobNotify => exact ⟨st, h.notify hpc hstep⟩
  | startupLock =>
    obtain ⟨-, hstep⟩ := Option.ite_none_right_eq_some.mp hstep
    cases hstep
    exact ⟨st, h.silent hpc rfl (.keep rfl) rfl rfl rfl rfl rfl trivial (fun hno => nomatch hno)
      fun hno => nomatch hno⟩
  | startupTest => exact ⟨st, h.startup hpc hstep⟩
  | shutdownLock joins =>
    obtain ⟨-, hstep⟩ := Option.ite_none_right_eq_some.mp hstep
    cases hstep
    exact ⟨st, h.silent hpc rfl (.keep rfl) rfl rfl rfl rfl rfl trivial (fun hno => nomatch hno)
      fun hno => nomatch hno⟩
  | shutdownTest joins =>
    cases hstep
    cases s.workerStarted with
    | true =>
      exact ⟨st, h.silent hpc rfl (.keep rfl) rfl rfl rfl rfl rfl trivial (fun hno => nomatch hno)
        fun hno => nomatch hno⟩
    | false =>
      exact ⟨st, h.silent hpc rfl (.keep rfl) rfl rfl rfl rfl rfl trivial (fun hno => nomatch hno)
        fun hno => nomatch hno⟩
  | onShutdownLock joins =>
    obtain ⟨hfree, rfl⟩ := map_lockJob hstep
    exact ⟨st, h.silent hpc rfl (.acquire hfree rfl) rfl rfl rfl rfl rfl trivial
      (fun hno => nomatch hno) fun hno => nomatch hno⟩
  | onShutdownTest joins =>
    rw [LockedWorker.callStep] at hstep
    split_ifs at hstep with hjob
    · cases hstep
      exact ⟨st, h.silent hpc rfl (.keep rfl) rfl rfl rfl rfl rfl (Bool.and_eq_true_iff.mp hjob)
        (fun hno => nomatch hno) fun hno => nomatch hno⟩
    · cases hstep
      have hheld : s.heldJob = none := by
        rw [heldJob]
        split_ifs with hset
        · rw [hset, Bool.true_and] at hjob
          exact Option.not_isSome_iff_eq_none.mp hjob
        · rfl
      exact ⟨st, h.silent hpc rfl (.keep rfl) rfl rfl rfl rfl rfl
        ⟨hheld.symm, fun job hno => nomatch hno⟩ (fun hno => nomatch hno) fun hno => nomatch hno⟩
  | onShutdownCancel joins => exact ⟨st, h.cancel hpc hstep⟩
  | onShutdownUnlock joins cancelled => exact ⟨st, h.leave hpc hstep⟩
  | join => exact ⟨st, h.join hpc hstep⟩
  | unlock ok =>
    cases hstep
    exact ⟨st, h.silent hpc rfl (.keep rfl) rfl rfl rfl rfl rfl trivial (fun hno => nomatch hno)
      fun hno => nomatch hno⟩
  | setJobReturned ok => cases hstep
  | returned ok => cases hstep

end Caller

section Worker

variable {s t : LockedWorker Job} {st st' : WorkerStage Job}

/-- The step of the thread keeps `jobLock` in agreement with who is inside. -/
theorem mutex_worker (h : Mutex s.jobLock s.inside) (hcallers : t.callers = s.callers)
    (hlock : LockMove s.worker.inside t.worker.inside s.jobLock .worker t.jobLock) :
    Mutex t.jobLock t.inside := by
  have hother : ∀ q, q ≠ .worker → (t.inside q ↔ s.inside q) := by
    intro q hq
    cases q with
    | worker => contradiction
    | caller j => rw [inside, inside, hcallers]
  exact h.move Iff.rfl Iff.rfl hother hlock

/-- The thread makes a step. It may change the job while it holds `jobLock`, and make an event of
the life of the worker. -/
theorem Sound.work (h : s.Sound st) (hcallers : t.callers = s.callers)
    (hlock : LockMove s.worker.inside t.worker.inside s.jobLock .worker t.jobLock)
    (hlive : s.worker ≠ .unborn ∧ s.worker ≠ .returned) (hstarted : t.workerStarted = s.workerStarted)
    (hjobSet : t.jobSet = s.jobSet) (hjob : t.job = s.job ∨ s.worker.inside = true)
    (hwait : t.worker = .wait → s.jobSet = false) (hcurrent : t.heldJob = st'.current)
    (hstage : st ≠ .empty ↔ st' ≠ .empty) (hfits : t.worker.Fits st')
    {e : Option (WorkerEvent Job)} (htrace : t.trace = s.trace ++ e.toList)
    (hlife : ∀ x ∈ e, x.isLife = true ∧ x.Timely s.trace)
    (hhistory : st'.history = st.history ++ e.toList) : t.Sound st' := by
  constructor
  · exact mutex_worker h.mutex hcallers hlock
  · intro i pc hpc
    rw [hcallers] at hpc
    refine Knows.mono (h.knows i pc hpc) (fun hset => hjobSet.trans hset) (fun hinside => ?_) ?_
    · refine ⟨hjobSet, hjob.resolve_right fun hmine => ?_⟩
      have hworker : s.inside .worker := hmine
      have hsame := h.mutex.unique ((inside_caller hpc).mpr hinside) hworker
      contradiction
    · rw [htrace]
      exact List.subset_append_left _ _
  · rw [hcallers]
    exact h.acceptsOnce
  · intro hwaits hset
    rw [hjobSet, hwait hwaits] at hset
    contradiction
  · intro hstopped
    rw [hstarted] at hstopped
    exact absurd (h.started hstopped) (not_or.mpr hlive)
  · exact hcurrent
  · rw [hjobSet, h.jobSet, hstage]
  · exact hfits
  · rw [htrace, hhistory, List.filter_append, h.history]
    cases e with
    | none => rfl
    | some x => rw [Option.toList_some, List.filter_singleton, (hlife x rfl).1]; rfl
  · rw [htrace]
    cases e with
    | none =>
      rw [Option.toList_none, List.append_nil]
      exact h.timely
    | some x => exact h.timely.concat (hlife x rfl).2

/-- The thread makes a step that changes nothing but where it is and who holds `jobLock`. -/
theorem Sound.pass (h : s.Sound st) (hcallers : t.callers = s.callers)
    (hlock : LockMove s.worker.inside t.worker.inside s.jobLock .worker t.jobLock)
    (hlive : s.worker ≠ .unborn ∧ s.worker ≠ .returned) (hstarted : t.workerStarted = s.workerStarted)
    (hjobSet : t.jobSet = s.jobSet) (hjob : t.job = s.job) (htrace : t.trace = s.trace)
    (hwait : t.worker = .wait → s.jobSet = false) (hfits : t.worker.Fits st) : t.Sound st := by
  refine h.work hcallers hlock hlive hstarted hjobSet (.inl hjob) hwait ?_ Iff.rfl hfits (e := none) ?_
    (fun x hx => nomatch hx) (List.append_nil _).symm
  · rw [heldJob, hjobSet, hjob]
    exact h.current
  · rw [htrace, Option.toList_none, List.append_nil]

/-- The thread goes on where it may be after one more event of the life of the worker. -/
theorem Sound.live (h : s.Sound st) {pc : WorkerPc Job} {e : WorkerEvent Job}
    (hlive : s.worker ≠ .unborn ∧ s.worker ≠ .returned) (hinside : pc.inside = s.worker.inside)
    (hwait : pc ≠ .wait) (hfits : pc.Fits st') (hstage : st ≠ .empty ∧ st' ≠ .empty)
    (hcurrent : st'.current = st.current) (hlife : e.isLife = true) (htimely : e.Timely s.trace)
    (hhistory : st'.history = st.history ++ [e]) :
    ({ s.emit e with worker := pc } : LockedWorker Job).Sound st' := by
  refine h.work rfl (.keep hinside) hlive rfl rfl (.inl rfl) (fun hno => absurd hno hwait) ?_
    (iff_of_true hstage.1 hstage.2) hfits (e := some e) rfl ?_ hhistory
  · rw [hcurrent]
    exact h.current
  · rintro x hx
    cases hx
    exact ⟨hlife, htimely⟩

/-- The thread goes on inside or outside `jobLock`, as before. -/
theorem Sound.stay (h : s.Sound st) {pc : WorkerPc Job}
    (hlive : s.worker ≠ .unborn ∧ s.worker ≠ .returned) (hinside : pc.inside = s.worker.inside)
    (hwait : pc ≠ .wait) (hfits : pc.Fits st) : ({ s with worker := pc } : LockedWorker Job).Sound st :=
  h.pass rfl (.keep hinside) hlive rfl rfl rfl rfl (fun hno => absurd hno hwait) hfits

/-- The thread takes `jobLock`. -/
theorem Sound.enter (h : s.Sound st) {pc : WorkerPc Job} (hfree : s.jobLock = none)
    (hlive : s.worker ≠ .unborn ∧ s.worker ≠ .returned) (hinside : pc.inside = true)
    (hwait : pc ≠ .wait) (hfits : pc.Fits st) :
    ({ s with jobLock := some .worker, worker := pc } : LockedWorker Job).Sound st :=
  h.pass rfl (.acquire hfree hinside) hlive rfl rfl rfl rfl (fun hno => absurd hno hwait) hfits

/-- The thread gives `jobLock` back, perhaps to wait for a job. -/
theorem Sound.exit (h : s.Sound st) {pc : WorkerPc Job}
    (hlive : s.worker ≠ .unborn ∧ s.worker ≠ .returned) (hbefore : s.worker.inside = true)
    (hafter : pc.inside = false) (hwait : pc = .wait → s.jobSet = false) (hfits : pc.Fits st) :
    ({ s.unlockJob with worker := pc } : LockedWorker Job).Sound st :=
  h.pass rfl (.release hbefore hafter) hlive rfl rfl rfl rfl hwait hfits

/-- The thread executes the job that it has taken, or returns if there is none. -/
theorem Sound.check (h : s.Sound st) {curJob : Option Job} (hworker : s.worker = .check curJob)
    (hstep : s.workerStep = some t) : ∃ st', t.Sound st' := by
  have hlive : s.worker ≠ .unborn ∧ s.worker ≠ .returned := by simp [hworker]
  have hfits := h.worker
  rw [LockedWorker.workerStep, hworker] at hstep
  rw [hworker] at hfits
  obtain ⟨hidle, hset, hcurJob⟩ := hfits
  cases curJob with
  | none =>
    cases hstep
    refine ⟨st, h.stay hlive (by rw [hworker]; rfl) (fun hno => nomatch hno) ?_⟩
    cases st with
    | empty => contradiction
    | void => exact .inl rfl
    | pending job => contradiction
    | running job | ran job | cleared job => exact hidle.elim
    | complete job => exact .inr ⟨job, rfl⟩
  | some job =>
    cases hstep
    have hpending : st = .pending job := by
      cases st with
      | pending job' => rw [Option.some.inj hcurJob]
      | empty | void | complete job' => contradiction
      | running job' | ran job' | cleared job' => exact hidle.elim
    subst hpending
    exact ⟨.running job, h.live hlive (by rw [hworker]; rfl) (fun hno => nomatch hno) rfl (by simp) rfl
      rfl trivial rfl⟩

/-- The thread clears the job. -/
theorem Sound.clear (h : s.Sound st) (hworker : s.worker = .clear) (hstep : s.workerStep = some t) :
    ∃ st', t.Sound st' := by
  have hfits := h.worker
  rw [LockedWorker.workerStep, hworker] at hstep
  rw [hworker] at hfits
  cases hstep
  obtain ⟨job, rfl⟩ := hfits
  have hinside : s.worker.inside = true := by rw [hworker]; rfl
  have hset : s.jobSet = true := h.jobSet.mpr (by simp)
  refine ⟨.cleared job, h.work rfl (.keep hinside.symm) (by simp [hworker]) rfl rfl (.inr hinside)
    (fun hno => nomatch hno) ?_ (by simp) ⟨job, rfl⟩ (e := some .cleared) rfl ?_ rfl⟩
  · change (if s.jobSet then none else none) = _
    rw [if_pos hset]
    rfl
  · rintro x hx
    cases hx
    exact ⟨rfl, trivial⟩

/-- The next step of the thread. -/
theorem Sound.workerStep (h : s.Sound st) (hstep : s.workerStep = some t) : ∃ st', t.Sound st' := by
  have hsame := hstep
  have hfits := h.worker
  rw [LockedWorker.workerStep] at hstep
  cases hworker : s.worker with
  | check curJob => exact h.check hworker hsame
  | clear => exact h.clear hworker hsame
  | unborn | wait | returned =>
    rw [hworker] at hstep
    contradiction
  | lock | clearLock =>
    rw [hworker] at hstep hfits
    obtain ⟨hfree, rfl⟩ := map_lockJob hstep
    exact ⟨st, h.enter hfree (by simp [hworker]) rfl (fun hno => nomatch hno) hfits⟩
  | unlock | clearUnlock =>
    rw [hworker] at hstep hfits
    cases hstep
    exact ⟨st, h.exit (by simp [hworker]) (by rw [hworker]; rfl) rfl (fun hno => nomatch hno) hfits⟩
  | test =>
    rw [hworker] at hstep hfits
    dsimp only at hstep
    split_ifs at hstep with hset
    · cases hstep
      exact ⟨st, h.stay (by simp [hworker]) (by rw [hworker]; rfl) (fun hno => nomatch hno)
        ⟨hfits, h.jobSet.mp hset⟩⟩
    · cases hstep
      exact ⟨st, h.exit (by simp [hworker]) (by rw [hworker]; rfl) rfl
        (fun _ => (Bool.not_eq_true _).mp hset) hfits⟩
  | take =>
    rw [hworker] at hstep hfits
    cases hstep
    have hjob : s.job = st.current := by
      rw [← h.current, heldJob, if_pos (h.jobSet.mpr hfits.2)]
    exact ⟨st, h.stay (by simp [hworker]) (by rw [hworker]; rfl) (fun hno => nomatch hno)
      ⟨hfits.1, hfits.2, hjob⟩⟩
  | running job =>
    rw [hworker] at hstep hfits
    cases hstep
    obtain rfl : st = .running job := hfits
    exact ⟨.ran job, h.live (by simp [hworker]) (by rw [hworker]; rfl) (fun hno => nomatch hno)
      ⟨job, rfl⟩ (by simp) rfl rfl trivial rfl⟩
  | send =>
    rw [hworker] at hstep hfits
    cases hstep
    obtain ⟨job, rfl⟩ := hfits
    exact ⟨.complete job, h.live (by simp [hworker]) (by rw [hworker]; rfl) (fun hno => nomatch hno)
      (.inr ⟨job, rfl⟩) (by simp) rfl rfl trivial rfl⟩

end Worker

section Run

variable {s t : LockedWorker Job} {st : WorkerStage Job}

/-- Nothing has happened to a new worker. -/
theorem sound_initial : (initial : LockedWorker Job).Sound .empty where
  mutex p := by cases p <;> simp [initial, inside, WorkerPc.inside]
  knows _ _ h := nomatch h
  acceptsOnce _ _ _ _ h := nomatch h
  waits h := nomatch h
  started _ := .inl rfl
  current := rfl
  jobSet := by simp [initial]
  worker := trivial
  history := rfl
  timely past e later h := by simp [initial] at h

/-- A new call is the last one, or one that was there. -/
theorem getElem?_call {function : WorkerCall Job} {i : ℕ} {pc : WorkerCallPc Job}
    (h : (s.callers ++ [function.entry])[i]? = some pc) :
    s.callers[i]? = some pc ∨ pc = function.entry := by
  rw [List.getElem?_append] at h
  split_ifs at h
  · exact .inl h
  · exact .inr (List.mem_singleton.mp (List.mem_of_getElem? h))

/-- A call begins. -/
theorem Sound.call (h : s.Sound st) (function : WorkerCall Job) :
    ({ s with callers := s.callers ++ [function.entry] } : LockedWorker Job).Sound st := by
  have hentry : function.entry.inside = false ∧ function.entry.accepts = false := by
    cases function <;> exact ⟨rfl, rfl⟩
  have hkeep {i : ℕ} {pc : WorkerCallPc Job} (hpc : s.callers[i]? = some pc) :
      (s.callers ++ [function.entry])[i]? = some pc := by
    obtain ⟨hi, -⟩ := List.getElem?_eq_some_iff.mp hpc
    rw [List.getElem?_append_left hi, hpc]
  constructor
  · refine h.mutex.keep fun q => ?_
    cases q with
    | worker => exact Iff.rfl
    | caller i =>
      constructor
      · rintro ⟨pc, hpc, hinside⟩
        rcases getElem?_call hpc with hold | rfl
        · exact ⟨pc, hold, hinside⟩
        · rw [hentry.1] at hinside
          contradiction
      · rintro ⟨pc, hpc, hinside⟩
        exact ⟨pc, hkeep hpc, hinside⟩
  · intro i pc hpc
    rcases getElem?_call hpc with hold | rfl
    · exact Knows.mono (h.knows i pc hold) id (fun _ => ⟨rfl, rfl⟩) (List.Subset.refl _)
    · cases function <;> trivial
  · intro i j pc pc' hi hj haccepts haccepts'
    rcases getElem?_call hi with hi | rfl
    · rcases getElem?_call hj with hj | rfl
      · exact h.acceptsOnce i j pc pc' hi hj haccepts haccepts'
      · rw [hentry.2] at haccepts'
        contradiction
    · rw [hentry.2] at haccepts
      contradiction
  · intro hwait hset
    obtain ⟨i, pc, hpc, hnotifies⟩ := h.waits hwait hset
    exact ⟨i, pc, hkeep hpc, hnotifies⟩
  · exact h.started
  · exact h.current
  · exact h.jobSet
  · exact h.worker
  · exact h.history
  · exact h.timely

/-- The thread wakes up by itself. -/
theorem Sound.wake (h : s.Sound st) (hwait : s.worker = .wait) :
    ({ s with worker := .lock } : LockedWorker Job).Sound st := by
  have hfits := h.worker
  rw [hwait] at hfits
  exact h.stay (by simp [hwait]) (by rw [hwait]; rfl) (fun hno => nomatch hno) hfits

/-- Every step leads from a sound state to a sound state. -/
theorem Sound.step {a : LockedWorkerAction Job} (h : s.Sound st) (hstep : s.step a = some t) :
    ∃ st', t.Sound st' := by
  cases a with
  | call function =>
    cases hstep
    exact ⟨st, h.call function⟩
  | caller i =>
    obtain ⟨pc, hpc, hstep⟩ := Option.bind_eq_some_iff.mp hstep
    exact h.callStep hpc hstep
  | worker => exact h.workerStep hstep
  | spuriousWakeup =>
    rw [LockedWorker.step] at hstep
    split at hstep
    · rename_i hwait
      cases hstep
      exact ⟨st, h.wake hwait⟩
    · contradiction

/-- Every state that can be reached is sound. -/
theorem sound_of_run {actions : List (LockedWorkerAction Job)}
    (hrun : runActions LockedWorker.step initial actions = some s) : ∃ st, s.Sound st := by
  have hstep : ∀ (u : LockedWorker Job) (a : LockedWorkerAction Job) (u' : LockedWorker Job),
      (∃ st, u.Sound st) → u.step a = some u' → ∃ st, u'.Sound st := by
    rintro u a u' ⟨st, hsound⟩ hstep
    exact hsound.step hstep
  exact runActions_invariant hstep ⟨_, sound_initial⟩ hrun

/-- Nobody who is under way can go on. -/
def Quiet (s : LockedWorker Job) : Prop := s.step .worker = none ∧ ∀ i, s.step (.caller i) = none

/-- Whoever holds `jobLock` can go on. -/
theorem Sound.jobLock_free (h : s.Sound st) (hquiet : s.Quiet) : s.jobLock = none := by
  obtain ⟨hworker, hcallers⟩ := hquiet
  cases hlock : s.jobLock with
  | none => rfl
  | some p =>
    exfalso
    have hinside := (h.mutex p).mp hlock
    cases p with
    | worker =>
      have hpc : s.worker.inside = true := hinside
      rw [LockedWorker.step, LockedWorker.workerStep] at hworker
      cases hstands : s.worker with
      | test =>
        rw [hstands] at hworker
        dsimp only at hworker
        split at hworker <;> contradiction
      | take | unlock | clear | clearUnlock =>
        rw [hstands] at hworker
        contradiction
      | _ =>
        rw [hstands] at hpc
        contradiction
    | caller i =>
      obtain ⟨pc, hpc, hin⟩ := hinside
      have hcall := hcallers i
      rw [LockedWorker.step, hpc, Option.bind_some] at hcall
      cases pc with
      | onShutdownCancel joins =>
        obtain ⟨-, hjob⟩ : s.jobSet = true ∧ s.job.isSome = true := h.knows i _ hpc
        rw [LockedWorker.callStep, Option.map_eq_none_iff] at hcall
        rw [hcall] at hjob
        contradiction
      | setJobTest | setJobWrite | setJobFlag | setJobUnlock | onShutdownTest | onShutdownUnlock =>
        contradiction
      | _ => contradiction

/-- A call that will notify the thread can go on. -/
theorem not_notifies_of_quiet (hquiet : s.Quiet) {i : ℕ} {pc : WorkerCallPc Job}
    (hpc : s.callers[i]? = some pc) : pc.notifies = false := by
  have hcall := hquiet.2 i
  rw [LockedWorker.step, hpc, Option.bind_some] at hcall
  cases pc with
  | setJobUnlock ok => contradiction
  | setJobNotify =>
    rw [LockedWorker.callStep] at hcall
    split at hcall <;> contradiction
  | _ => rfl

/-- A thread that cannot go on, though a job was set, was never started or is done. -/
theorem Sound.stopped (h : s.Sound st) (hquiet : s.Quiet) (hset : s.jobSet = true) :
    s.worker = .unborn ∨ s.worker = .returned := by
  have hfree := h.jobLock_free hquiet
  have hworker := hquiet.1
  rw [LockedWorker.step, LockedWorker.workerStep] at hworker
  cases hstands : s.worker with
  | unborn => exact .inl rfl
  | returned => exact .inr rfl
  | wait =>
    obtain ⟨i, pc, hpc, hnotifies⟩ := h.waits hstands hset
    rw [not_notifies_of_quiet hquiet hpc] at hnotifies
    contradiction
  | test =>
    rw [hstands] at hworker
    dsimp only at hworker
    split at hworker <;> contradiction
  | lock | clearLock =>
    rw [hstands] at hworker
    dsimp only at hworker
    rw [lockJob, if_pos hfree] at hworker
    contradiction
  | check curJob =>
    rw [hstands] at hworker
    cases curJob <;> contradiction
  | take | unlock | running | clear | clearUnlock | send =>
    rw [hstands] at hworker
    contradiction

/-- An accepted job was reported, if nobody can go on and the thread was started. -/
theorem Sound.complete (h : s.Sound st) (hquiet : s.Quiet) (hstarted : s.worker ≠ .unborn) {job : Job}
    (haccepted : .accepted (some job) ∈ s.trace) :
    s.trace.filter WorkerEvent.isLife = WorkerEvent.life (some job) := by
  have hmem : WorkerEvent.accepted (some job) ∈ st.history := by
    rw [← h.history]
    exact List.mem_filter.mpr ⟨haccepted, rfl⟩
  have hset : s.jobSet = true := by
    rw [h.jobSet]
    rintro rfl
    exact List.not_mem_nil hmem
  have hreturned := (h.stopped hquiet hset).resolve_left hstarted
  have hfits := h.worker
  rw [hreturned] at hfits
  rw [h.history]
  rcases hfits with rfl | ⟨job', rfl⟩
  · simp [WorkerStage.history, WorkerEvent.life] at hmem
  · have hjob : job = job' := by simpa [WorkerStage.history, WorkerEvent.life] using hmem
    rw [hjob]
    rfl

end Run

/-- The protocol of a worker, over every run. One call of `SetJob` at most returns `true`; what
happens to the worker keeps to the protocol; and a job that was accepted has gone through all of its
life if nobody can go on, provided that the thread was started. -/
theorem worker_protocol {actions : List (LockedWorkerAction Job)} {s : LockedWorker Job}
    (hrun : runActions LockedWorker.step initial actions = some s) :
    (∀ (i j : ℕ), s.callers[i]? = some (.setJobReturned true) →
      s.callers[j]? = some (.setJobReturned true) → i = j) ∧
    WorkerProtocol s.trace ∧
    (s.Quiet → s.worker ≠ .unborn → ∀ job, .accepted (some job) ∈ s.trace →
      s.trace.filter WorkerEvent.isLife = WorkerEvent.life (some job)) := by
  obtain ⟨st, hsound⟩ := sound_of_run hrun
  refine ⟨fun i j hi hj => hsound.acceptsOnce i j _ _ hi hj rfl rfl, ⟨?_, hsound.timely⟩, ?_⟩
  · rw [hsound.history]
    exact st.history_prefix
  · exact fun hquiet hstarted job haccepted => hsound.complete hquiet hstarted haccepted

/-- The thread waits for a job, gets one, and a shutdown request comes before it executes it. A
second job is refused. -/
def cancelledEarly : List (LockedWorkerAction ℕ) :=
  ([.call .startup, .call (.setJob (some 7)), .call .requestShutdown,
    .call (.setJob (some 8))] : List (LockedWorkerAction ℕ)) ++
  List.replicate 3 (LockedWorkerAction.caller 0) ++ List.replicate 2 LockedWorkerAction.worker ++
  List.replicate 6 (LockedWorkerAction.caller 1) ++ List.replicate 7 (LockedWorkerAction.caller 2) ++
  List.replicate 3 (LockedWorkerAction.caller 3) ++ List.replicate 10 LockedWorkerAction.worker

/-- How that ends. -/
def cancelledEarlyEnd : LockedWorker ℕ where
  workerLock := none
  workerStarted := true
  jobLock := none
  job := none
  jobSet := true
  worker := .returned
  callers := [.returned true, .setJobReturned true, .returned true, .setJobReturned false]
  trace := [.accepted (some 7), .cancel 2 7, .onShutdown 2 (some 7), .execute 7, .executeReturned 7,
    .cleared, .jobComplete]

/-- Nobody can go on at the end. -/
theorem cancelledEarlyEnd_quiet : cancelledEarlyEnd.Quiet := by
  refine ⟨rfl, fun i => ?_⟩
  match i with
  | 0 | 1 | 2 | 3 | _ + 4 => rfl

/-- Such a run keeps to the protocol, and the job is reported. -/
theorem worker_protocol_cancelled_early :
    runActions LockedWorker.step initial cancelledEarly = some cancelledEarlyEnd ∧
    WorkerProtocol cancelledEarlyEnd.trace ∧
    cancelledEarlyEnd.trace.filter WorkerEvent.isLife = WorkerEvent.life (some 7) := by
  have hrun : runActions LockedWorker.step initial cancelledEarly = some cancelledEarlyEnd := rfl
  obtain ⟨-, hprotocol, hcomplete⟩ := worker_protocol hrun
  have haccepted : WorkerEvent.accepted (some 7) ∈ cancelledEarlyEnd.trace := List.mem_cons_self
  have hstarted : cancelledEarlyEnd.worker ≠ .unborn := fun hno => nomatch hno
  exact ⟨hrun, hprotocol, hcomplete cancelledEarlyEnd_quiet hstarted 7 haccepted⟩

end LockedWorker

end TinySox
