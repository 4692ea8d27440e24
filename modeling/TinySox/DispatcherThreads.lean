import Mathlib.Data.List.Nodup
import Mathlib.Data.List.Range
import TinySox.DispatcherShutdown

/-!
# The threads of the workers

What holds of the dispatcher at all times: of its pools, of the threads of the workers with the
messages they send, and of the jobs. This module shows that every step keeps the part about the
threads. A worker that has a job is in the pool of the active workers, it stays there until its own
report was looked up, and a worker in no pool but that of the free ones has never had a job.
-/

namespace TinySox

open TinySox.Common

namespace DispatcherPc

/-- The workers of the last batch that are not yet shut down. -/
def batch : DispatcherPc → List ℕ
  | .joining .tmp left => left
  | _ => []

/-- The section that stops the free workers is over. -/
def freeStopped : DispatcherPc → Bool
  | .stop .active | .joining .active _ | .stop .finished | .joining .finished _ => true
  | .spinPost | .returned => true
  | _ => false

/-- The section that stops the active workers is over. -/
def activeStopped : DispatcherPc → Bool
  | .stop .finished | .joining .finished _ | .spinPost | .returned => true
  | _ => false

/-- The section that stops the finished workers is over. -/
def finishedStopped : DispatcherPc → Bool
  | .spinPost | .returned => true
  | _ => false

end DispatcherPc

namespace MessagePc

/-- The jobs that the call has created and not yet given to a worker. -/
def jobs : MessagePc → List ℕ
  | .assign jobs => jobs
  | _ => []

/-- The worker that sent the message was not looked up yet. -/
def beforeLookup : MessagePc → Bool
  | .entered | .counted | .lookup => true
  | _ => false

end MessagePc

namespace JobWorker

/-- What the fields of a worker tell about its thread. -/
def Sound (worker : JobWorker) : Prop :=
  match worker.pc with
  | .waiting => worker.jobSet = false → worker.job = none
  | .executing => worker.jobSet = true ∧ worker.job.isSome = true
  | .sending | .exited => worker.jobSet = true ∧ worker.job = none

/-- The worker was shut down. -/
def ShutDown (worker : JobWorker) : Prop := worker.workerStarted = false ∧ worker.pc = .exited

/-- What stays once it has happened to a worker. -/
structure Later (worker later : JobWorker) : Prop where
  shutDown : worker.ShutDown → later.ShutDown
  jobSet : worker.jobSet = true → later.jobSet = true

/-- Nothing happened. -/
theorem Later.refl (worker : JobWorker) : worker.Later worker := ⟨fun h => h, fun h => h⟩

/-- Something happened to one worker. -/
theorem Later.update {workers : ℕ → JobWorker} {w : ℕ} {later : JobWorker}
    (h : (workers w).Later later) (w' : ℕ) :
    (workers w').Later (Function.update workers w later w') := by
  by_cases heq : w' = w
  · rw [heq, Function.update_self]
    exact h
  · rw [Function.update_of_ne heq]
    exact .refl _

end JobWorker

namespace JobDispatcher

variable {limits : Limits} {s s' : JobDispatcher}

/-- All workers, pool by pool, and those that were taken out of the pools. -/
def allWorkers (s : JobDispatcher) : List ℕ :=
  s.freeWorkers ++ (s.activeWorkers ++ (s.finishedWorkers ++ s.retired))

/-- What the pools satisfy. -/
structure PoolsSound (limits : Limits) (s : JobDispatcher) : Prop where
  partition : s.allWorkers.Perm (List.range s.workerID)
  bound : s.freeWorkers.length ≤ limits.workersCount
  free : s.pc.freeStopped = true → s.freeWorkers = []
  active : s.pc.activeStopped = true → s.activeWorkers = []
  finished : s.pc.finishedStopped = true → s.finishedWorkers = []
  retired : ∀ w ∈ s.retired, w ∈ s.pc.batch ∨ (s.workers w).ShutDown
  batch : ∀ w ∈ s.pc.batch, w ∈ s.tmp
  stopping : ∀ p left, s.pc = .joining p left → p ≠ .tmp →
    ∀ w ∈ s.pool p, w ∈ left ∨ (s.workers w).ShutDown

/-- What the thread of a worker satisfies. -/
structure WorkerSound (s : JobDispatcher) (w : ℕ) : Prop where
  fields : (s.workers w).Sound
  stopped : (s.workers w).workerStarted = false → (s.workers w).pc = .exited
  unspawned : s.workerID ≤ w → (s.workers w).pc = .waiting ∧ (s.workers w).job = none
  fresh : s.pc.afterSpin = false → w ∈ s.freeWorkers ∨ s.workerID ≤ w → s.workers w = .started
  busy : (s.workers w).job.isSome = true → w ∈ s.activeWorkers

/-- What a call satisfies whose message a worker has sent. -/
def CallSound (s : JobDispatcher) (c : MessageCall) : Prop :=
  ∀ w, c.source = some w →
    (s.workers w).pc = .sending ∧ (c.pc.beforeLookup = true → w ∈ s.activeWorkers)

/-- What the threads satisfy. -/
structure ThreadsSound (s : JobDispatcher) : Prop where
  workers : ∀ w, s.WorkerSound w
  calls : ∀ c ∈ s.calls, s.CallSound c
  distinct : (s.calls.filterMap MessageCall.source).Nodup

/-- The jobs that were created and have no worker yet. -/
def pendingJobs (calls : List MessageCall) : List ℕ := calls.flatMap fun c => c.pc.jobs

/-- What the jobs satisfy. -/
structure JobsSound (s : JobDispatcher) : Prop where
  jobs : (s.handed.map Handover.job ++ pendingJobs s.calls).Perm (List.range s.nextJob)
  accepted : ∀ h ∈ s.handed, h.accepted = true
  given : ∀ h ∈ s.handed, (s.workers h.worker).jobSet = true
  once : (s.handed.map Handover.worker).Nodup

/-- What holds of the dispatcher at all times. -/
structure Sound (limits : Limits) (s : JobDispatcher) : Prop where
  quiet : s.Quiet
  pools : s.PoolsSound limits
  threads : s.ThreadsSound
  jobs : s.JobsSound

/-- Spawning adds new workers to the free ones. -/
theorem spawnWorkers_eq (s : JobDispatcher) (count : ℕ) :
    s.spawnWorkers count = { s with
      workerID := s.workerID + count
      workers := fun w =>
        if s.workerID ≤ w ∧ w < s.workerID + count then .started else s.workers w
      freeWorkers := s.freeWorkers ++ List.range' s.workerID count } := by
  induction count generalizing s with
  | zero =>
    have hnone (w : ℕ) : ¬(s.workerID ≤ w ∧ w < s.workerID) := by omega
    simp only [spawnWorkers, Nat.add_zero, hnone, if_false, List.range'_zero, List.append_nil]
  | succ count ih =>
    have hcount : s.workerID + 1 + count = s.workerID + (count + 1) := by omega
    rw [spawnWorkers, ih]
    dsimp only
    rw [hcount, List.append_assoc, List.singleton_append, ← List.range'_succ]
    congr 1
    funext w
    by_cases hw : w = s.workerID
    · subst hw
      rw [Function.update_self, if_neg (by omega), if_pos (by omega)]
    · rw [Function.update_of_ne hw]
      by_cases hnew : s.workerID ≤ w ∧ w < s.workerID + (count + 1)
      · rw [if_pos hnew, if_pos (by omega)]
      · rw [if_neg hnew, if_neg (by omega)]

/-- What spawning does to the threads, when no worker with a new number was touched. -/
structure Spawned (s s' : JobDispatcher) : Prop where
  workers : s'.workers = s.workers
  workerID : s.workerID ≤ s'.workerID
  free : ∀ w ∈ s'.freeWorkers, w ∈ s.freeWorkers ∨ s.workerID ≤ w
  active : s'.activeWorkers = s.activeWorkers
  calls : s'.calls = s.calls

/-- A new worker is as it was before it was spawned. -/
theorem spawnWorkers_spawned (s : JobDispatcher) (count : ℕ)
    (hfresh : ∀ w, s.workerID ≤ w → s.workers w = .started) :
    Spawned s (s.spawnWorkers count) := by
  rw [spawnWorkers_eq]
  constructor
  · funext w
    by_cases hnew : s.workerID ≤ w ∧ w < s.workerID + count
    · dsimp only
      rw [if_pos hnew, hfresh w hnew.1]
    · dsimp only
      rw [if_neg hnew]
  · exact Nat.le_add_right _ _
  · intro w hw
    rcases List.mem_append.mp hw with hold | hnew
    · exact .inl hold
    · exact .inr (List.mem_range'_1.mp hnew).1
  · rfl
  · rfl

/-- A worker that has just been given its job. -/
def givenJob (job : ℕ) : JobWorker := ⟨true, true, some job, .waiting⟩

/-- The dispatcher after the job was given to the worker. -/
def give (s : JobDispatcher) (workerID : ℕ) (free : List ℕ) (w job : ℕ) : JobDispatcher :=
  { s with
    workerID := workerID
    freeWorkers := free
    activeWorkers := s.activeWorkers ++ [w]
    workers := Function.update s.workers w (givenJob job)
    handed := s.handed ++ [⟨job, w, true⟩] }

/-- The worker is the last free one, or it was spawned because there was none. -/
inductive Supplies (s : JobDispatcher) : ℕ → List ℕ → ℕ → Prop
  | free (free : List ℕ) (w : ℕ) (hfree : s.freeWorkers = free ++ [w]) :
      Supplies s s.workerID free w
  | spawned (hfree : s.freeWorkers = []) : Supplies s (s.workerID + 1) [] s.workerID

/-- A worker is known to the dispatcher if it is in a pool or was taken out of one. -/
theorem mem_allWorkers (h : s.allWorkers.Perm (List.range s.workerID)) {w : ℕ} :
    w ∈ s.allWorkers ↔ w < s.workerID := by
  rw [h.mem_iff, List.mem_range]

/-- A free worker is in no other place. -/
theorem not_mem_active_of_free (h : s.allWorkers.Perm (List.range s.workerID)) {w : ℕ}
    (hw : w ∈ s.freeWorkers) : w ∉ s.activeWorkers := by
  have hnodup : s.allWorkers.Nodup := h.nodup_iff.mpr List.nodup_range
  rw [allWorkers, List.nodup_append] at hnodup
  exact fun hactive => hnodup.2.2 w hw w (List.mem_append_left _ hactive) rfl

/-- The supplied worker is not known to have had a job. -/
theorem Supplies.free_or_new {id w : ℕ} {free : List ℕ} (hsupply : Supplies s id free w) :
    w ∈ s.freeWorkers ∨ s.workerID ≤ w := by
  cases hsupply with
  | free _ _ hfree =>
    apply Or.inl
    rw [hfree]
    exact List.mem_append_right _ (List.mem_singleton_self w)
  | spawned => exact .inr (Nat.le_refl _)

/-- No worker is added to the free ones by the supply. -/
theorem Supplies.mem_free {id w w' : ℕ} {free : List ℕ} (hsupply : Supplies s id free w)
    (hw' : w' ∈ free) : w' ∈ s.freeWorkers := by
  cases hsupply with
  | free _ _ hfree =>
    rw [hfree]
    exact List.mem_append_left _ hw'
  | spawned => contradiction

/-- Numbers of workers are not used again. -/
theorem Supplies.workerID_le {id w : ℕ} {free : List ℕ} (hsupply : Supplies s id free w) :
    s.workerID ≤ id := by
  cases hsupply with
  | free => exact Nat.le_refl _
  | spawned => exact Nat.le_succ _

/-- The supplied worker was spawned. -/
theorem Supplies.lt (hpartition : s.allWorkers.Perm (List.range s.workerID)) {id w : ℕ}
    {free : List ℕ} (hsupply : Supplies s id free w) : w < id := by
  cases hsupply with
  | free _ _ hfree =>
    apply (mem_allWorkers hpartition).mp
    rw [allWorkers, hfree]
    exact List.mem_append_left _ (List.mem_append_right _ (List.mem_singleton_self w))
  | spawned => exact Nat.lt_succ_self _

/-- Every job goes to a worker that has never had one. -/
theorem assignJob_eq {job : ℕ} (hpartition : s.allWorkers.Perm (List.range s.workerID))
    (hfresh : ∀ w ∈ s.freeWorkers, s.workers w = .started)
    (hassign : s.assignJob job = some s') :
    ∃ id free w, Supplies s id free w ∧ s' = s.give id free w job := by
  obtain ⟨created, hcreated, rfl⟩ := Option.map_eq_some_iff.mp hassign
  unfold createWorkerInstance at hcreated
  rcases List.eq_nil_or_concat s.freeWorkers with hnil | ⟨free, w, hfree⟩
  · rw [hnil, if_pos (by decide), spawnWorkers_eq] at hcreated
    simp only [hnil, List.nil_append, List.range'_one, List.getLast?_singleton, Option.map_some,
      Option.some.injEq, List.dropLast_singleton] at hcreated
    subst hcreated
    refine ⟨s.workerID + 1, [], s.workerID, .spawned hnil, ?_⟩
    have hnot : s.workerID ∉ s.activeWorkers := by
      intro hmem
      have hall : s.workerID ∈ s.allWorkers :=
        List.mem_append_right _ (List.mem_append_left _ hmem)
      exact Nat.lt_irrefl _ ((mem_allWorkers hpartition).mp hall)
    dsimp only
    rw [if_neg hnot, if_pos ⟨Nat.le_refl _, Nat.lt_succ_self _⟩, give]
    congr 1
    funext w
    by_cases hw : w = s.workerID
    · rw [hw, Function.update_self, Function.update_self]
      rfl
    · rw [Function.update_of_ne hw, Function.update_of_ne hw, if_neg (by omega)]
  · rw [List.concat_eq_append] at hfree
    have hlen : ¬s.freeWorkers.length < 1 := by
      rw [hfree, List.length_append, List.length_singleton]
      omega
    rw [if_neg hlen] at hcreated
    simp only [hfree] at hcreated
    simp only [List.getLast?_append, List.getLast?_singleton, Option.some_or, Option.map_some,
      Option.some.injEq, List.dropLast_concat] at hcreated
    subst hcreated
    have hw : w ∈ s.freeWorkers := by
      rw [hfree]
      exact List.mem_append_right _ (List.mem_singleton_self w)
    refine ⟨s.workerID, free, w, .free free w hfree, ?_⟩
    dsimp only
    rw [if_neg (not_mem_active_of_free hpartition hw), hfresh w hw]
    rfl

/-- The supplied worker is not free any more. -/
theorem Supplies.not_mem_free (hpartition : s.allWorkers.Perm (List.range s.workerID)) {id w : ℕ}
    {free : List ℕ} (hsupply : Supplies s id free w) : w ∉ free := by
  cases hsupply with
  | free _ _ hfree =>
    have hnodup : s.allWorkers.Nodup := hpartition.nodup_iff.mpr List.nodup_range
    rw [allWorkers, hfree, List.nodup_append, List.nodup_append] at hnodup
    intro hmem
    exact hnodup.1.2.2 w hmem w (List.mem_singleton_self w) rfl
  | spawned => exact List.not_mem_nil

/-- A worker without a job to do has none. -/
theorem WorkerSound.job_none {w : ℕ} (h : s.WorkerSound w)
    (hw : (s.workers w).pc = .sending ∨ (s.workers w).pc = .exited) :
    (s.workers w).job = none := by
  have hsound := h.fields
  unfold JobWorker.Sound at hsound
  rcases hw with hw | hw
  · rw [hw] at hsound
    exact hsound.2
  · rw [hw] at hsound
    exact hsound.2

/-- Nothing changes for a worker, except that the pools of the others do. -/
theorem WorkerSound.frame {w : ℕ} (h : s.WorkerSound w) (hsame : s'.workers w = s.workers w)
    (hid : s.workerID ≤ s'.workerID)
    (hspin : s'.pc.afterSpin = false → s.pc.afterSpin = false)
    (hfree : w ∈ s'.freeWorkers → w ∈ s.freeWorkers ∨ s.workerID ≤ w)
    (hactive : (s.workers w).job.isSome = true → w ∈ s.activeWorkers → w ∈ s'.activeWorkers) :
    s'.WorkerSound w := by
  constructor
  · rw [hsame]
    exact h.fields
  · rw [hsame]
    exact h.stopped
  · intro hw
    rw [hsame]
    exact h.unspawned (Nat.le_trans hid hw)
  · intro hpc hw
    rw [hsame]
    apply h.fresh (hspin hpc)
    rcases hw with hw | hw
    · exact hfree hw
    · exact .inr (Nat.le_trans hid hw)
  · intro hjob
    rw [hsame] at hjob
    exact hactive hjob (h.busy hjob)

/-- Nothing changes for the threads and the pool of the active workers. -/
theorem ThreadsSound.frame (h : s.ThreadsSound) (hworkers : s'.workers = s.workers)
    (hid : s.workerID ≤ s'.workerID)
    (hspin : s'.pc.afterSpin = false → s.pc.afterSpin = false)
    (hfree : ∀ w ∈ s'.freeWorkers, w ∈ s.freeWorkers ∨ s.workerID ≤ w)
    (hactive : s'.activeWorkers = s.activeWorkers) (hcalls : s'.calls = s.calls) :
    s'.ThreadsSound := by
  constructor
  · intro w
    apply (h.workers w).frame (congrFun hworkers w) hid hspin (hfree w)
    intro _ hw
    rw [hactive]
    exact hw
  · intro c hc w hw
    rw [hcalls] at hc
    rw [hworkers, hactive]
    exact h.calls c hc w hw
  · rw [hcalls]
    exact h.distinct

/-- A message of a listener has nothing to do with the workers. -/
theorem ThreadsSound.message (h : s.ThreadsSound) :
    ThreadsSound { s with calls := ⟨none, .entered⟩ :: s.calls } := by
  constructor
  · intro w
    exact (h.workers w).frame rfl (Nat.le_refl _) (fun hpc => hpc) .inl fun _ hw => hw
  · intro c hc w hw
    rcases List.mem_cons.mp hc with rfl | hmem
    · contradiction
    · exact h.calls c hmem w hw
  · exact h.distinct

/-- What the thread of a worker does keeps the threads sound, if it has not sent its message. -/
theorem ThreadsSound.update (h : s.ThreadsSound) {w : ℕ} {later : JobWorker}
    (hnot : (s.workers w).pc ≠ .sending)
    (hw : WorkerSound { s with workers := Function.update s.workers w later } w) :
    ThreadsSound { s with workers := Function.update s.workers w later } := by
  constructor
  · intro w'
    by_cases heq : w' = w
    · rw [heq]
      exact hw
    · exact (h.workers w').frame (Function.update_of_ne heq _ _) (Nat.le_refl _)
        (fun hpc => hpc) .inl fun _ hw' => hw'
  · intro c hc w' hw'
    have hcall := h.calls c hc w' hw'
    have hne : w' ≠ w := by
      rintro rfl
      exact hnot hcall.1
    dsimp only
    rw [Function.update_of_ne hne]
    exact hcall
  · exact h.distinct

/-- The thread of a worker goes on. -/
theorem ThreadsSound.worker (h : s.ThreadsSound) {w : ℕ} (hmoves : WorkerMoves s w s') :
    s'.ThreadsSound := by
  have hw := h.workers w
  cases hmoves with
  | start hpc hlt hset =>
    apply h.update (by rw [hpc]; decide)
    constructor
    · dsimp only
      rw [Function.update_self]
      cases hjob : (s.workers w).job with
      | none => exact ⟨hset, rfl⟩
      | some job => exact ⟨hset, rfl⟩
    · dsimp only
      rw [Function.update_self]
      intro hstopped
      have hexited := hw.stopped hstopped
      rw [hpc] at hexited
      contradiction
    · intro hle
      exact (Nat.not_le_of_lt hlt hle).elim
    · intro hspin hfree
      rw [hw.fresh hspin hfree] at hset
      contradiction
    · dsimp only
      rw [Function.update_self]
      exact hw.busy
  | report hpc =>
    have hsound := hw.fields
    unfold JobWorker.Sound at hsound
    rw [hpc] at hsound
    constructor
    · intro w'
      by_cases heq : w' = w
      · subst heq
        constructor
        · dsimp only
          rw [Function.update_self]
          exact ⟨hsound.1, rfl⟩
        · dsimp only
          rw [Function.update_self]
          intro hstopped
          have hexited := hw.stopped hstopped
          rw [hpc] at hexited
          contradiction
        · intro hle
          have hwaiting := (hw.unspawned hle).1
          rw [hpc] at hwaiting
          contradiction
        · intro hspin hfree
          rw [hw.fresh hspin hfree] at hpc
          contradiction
        · dsimp only
          rw [Function.update_self]
          intro hjob
          contradiction
      · exact (h.workers w').frame (Function.update_of_ne heq _ _) (Nat.le_refl _)
          (fun hspin => hspin) .inl fun _ hactive => hactive
    · intro c hc w' hw'
      rcases List.mem_cons.mp hc with rfl | hmem
      · cases hw'
        dsimp only
        rw [Function.update_self]
        exact ⟨rfl, fun _ => hw.busy hsound.2⟩
      · have hcall := h.calls c hmem w' hw'
        have hne : w' ≠ w := by
          rintro rfl
          rw [hpc] at hcall
          exact nomatch hcall.1
        dsimp only
        rw [Function.update_of_ne hne]
        exact hcall
    · change (w :: s.calls.filterMap MessageCall.source).Nodup
      apply List.nodup_cons.mpr
      apply And.intro _ h.distinct
      intro hmem
      obtain ⟨c, hc, hsource⟩ := List.mem_filterMap.mp hmem
      have hsending := (h.calls c hc w hsource).1
      rw [hpc] at hsending
      contradiction

/-- The thread of a worker has been joined. -/
theorem ThreadsSound.join (h : s.ThreadsSound) {w : ℕ}
    (hexited : (s.workers w).workerStarted = true → (s.workers w).pc = .exited) :
    ThreadsSound { s with
      workers := Function.update s.workers w { s.workers w with workerStarted := false } } := by
  have hw := h.workers w
  have hpc : (s.workers w).pc = .exited := by
    cases hstarted : (s.workers w).workerStarted with
    | false => exact hw.stopped hstarted
    | true => exact hexited hstarted
  apply h.update (by rw [hpc]; decide)
  constructor
  · dsimp only
    rw [Function.update_self]
    exact hw.fields
  · dsimp only
    rw [Function.update_self]
    exact fun _ => hpc
  · intro hle
    have hwaiting := (hw.unspawned hle).1
    rw [hpc] at hwaiting
    contradiction
  · intro hspin hfree
    rw [hw.fresh hspin hfree] at hpc
    contradiction
  · dsimp only
    rw [Function.update_self]
    exact hw.busy

/-- A worker that has no job yet is waiting for one. -/
theorem JobWorker.Sound.waiting_of_not_set {w : JobWorker} (h : w.Sound)
    (hset : ¬w.jobSet = true) : w.pc = .waiting := by
  unfold JobWorker.Sound at h
  cases hpc : w.pc with
  | waiting => rfl
  | executing | sending | exited =>
    rw [hpc] at h
    exact (hset h.1).elim

/-- The stopping dispatcher has sent a worker away. -/
theorem ThreadsSound.dismiss (h : s.ThreadsSound) (hspin : s.pc.afterSpin = true) (w : ℕ) :
    ThreadsSound { s with
      workers := Function.update s.workers w ((s.workers w).setJob none).1 } := by
  have hw := h.workers w
  by_cases hset : (s.workers w).jobSet = true
  · rw [JobWorker.setJob, if_pos hset, Function.update_eq_self]
    exact h
  · have hwaiting := JobWorker.Sound.waiting_of_not_set hw.fields hset
    rw [JobWorker.setJob, if_neg hset]
    apply h.update (by rw [hwaiting]; decide)
    constructor
    · dsimp only
      rw [Function.update_self]
      unfold JobWorker.Sound
      dsimp only
      rw [hwaiting]
      exact fun _ => rfl
    · dsimp only
      rw [Function.update_self]
      exact hw.stopped
    · dsimp only
      rw [Function.update_self]
      exact fun hle => ⟨(hw.unspawned hle).1, rfl⟩
    · intro hnot
      rw [hspin] at hnot
      contradiction
    · dsimp only
      rw [Function.update_self]
      intro hjob
      contradiction

/-- The pool of the active workers is given up once their threads are down. -/
theorem ThreadsSound.clear_active (h : s.ThreadsSound)
    (hexited : ∀ w ∈ s.activeWorkers, (s.workers w).pc = .exited)
    (hworkers : s'.workers = s.workers) (hid : s'.workerID = s.workerID)
    (hspin : s'.pc.afterSpin = true) (hfree : s'.freeWorkers = s.freeWorkers)
    (hcalls : s'.calls = s.calls) : s'.ThreadsSound := by
  constructor
  · intro w
    apply (h.workers w).frame (congrFun hworkers w) (Nat.le_of_eq hid.symm)
    · intro hnot
      rw [hspin] at hnot
      contradiction
    · rw [hfree]
      exact .inl
    · intro hjob hw
      rw [(h.workers w).job_none (.inr (hexited w hw))] at hjob
      contradiction
  · intro c hc w hw
    rw [hcalls] at hc
    have hcall := h.calls c hc w hw
    rw [hworkers]
    apply And.intro hcall.1
    intro hbefore
    have hsending := hcall.1
    rw [hexited w (hcall.2 hbefore)] at hsending
    contradiction
  · rw [hcalls]
    exact h.distinct

/-- The dispatcher goes on. -/
theorem ThreadsSound.dispatcher (h : s.ThreadsSound) (hpools : s.PoolsSound limits)
    (hmoves : DispatcherMoves limits s s') : s'.ThreadsSound := by
  cases hmoves with
  | stopLoop hpc | round hpc | takeFinished hpc =>
    exact h.frame rfl (Nat.le_refl _) (fun _ => by rw [hpc]; rfl) (fun _ => .inl) rfl rfl
  | joined p w rest hpc hexited =>
    have hspin : DispatcherPc.afterSpin (.joining p rest) = false → s.pc.afterSpin = false := by
      rw [hpc]
      cases p <;> exact fun hx => hx
    exact (h.join hexited).frame rfl (Nat.le_refl _) hspin (fun _ => .inl) rfl rfl
  | cleared p hpc =>
    cases p with
    | tmp => exact h.frame rfl (Nat.le_refl _) (fun _ => by rw [hpc]; rfl) (fun _ => .inl) rfl rfl
    | free =>
      exact h.frame rfl (Nat.le_refl _) (fun hx => nomatch hx) (fun _ hx => nomatch hx) rfl rfl
    | active =>
      have hexited (w : ℕ) (hw : w ∈ s.activeWorkers) : (s.workers w).pc = .exited := by
        rcases hpools.stopping .active [] hpc (by decide) w hw with hnil | hdown
        · contradiction
        · exact hdown.2
      exact h.clear_active hexited rfl rfl rfl rfl rfl
    | finished => exact h.frame rfl (Nat.le_refl _) (fun hx => nomatch hx) (fun _ => .inl) rfl rfl
  | refill hpc =>
    have hspin : s.pc.afterSpin = false := by rw [hpc]; rfl
    have hfresh (w : ℕ) (hw : s.workerID ≤ w) := (h.workers w).fresh hspin (.inr hw)
    have hspawn := spawnWorkers_spawned s (spawnCount limits s.freeWorkers.length) hfresh
    exact h.frame hspawn.workers hspawn.workerID (fun _ => hspin) hspawn.free hspawn.active
      hspawn.calls
  | dismiss w rest hpc =>
    have hspin : s.pc.afterSpin = true := by rw [hpc]; rfl
    exact (h.dismiss hspin w).frame rfl (Nat.le_refl _) (fun hx => nomatch hx) (fun _ => .inl)
      rfl rfl
  | idle hpc | stopFree hpc | dismissed hpc | done hpc =>
    exact h.frame rfl (Nat.le_refl _) (fun hx => nomatch hx) (fun _ => .inl) rfl rfl
  | stop p hp hpc =>
    have hspin : DispatcherPc.afterSpin (.joining p (s.pool p)) = false →
        s.pc.afterSpin = false := by
      rw [hpc]
      cases p <;> exact fun hx => hx
    exact h.frame rfl (Nat.le_refl _) hspin (fun _ => .inl) rfl rfl

/-- Two messages are not from the same worker. -/
theorem ThreadsSound.source_ne (h : s.ThreadsSound) {l r : List MessageCall} {c u : MessageCall}
    (hsplit : s.calls = l ++ c :: r) (hu : u ∈ l ++ r) {w : ℕ} (hw : u.source = some w) :
    c.source ≠ some w := by
  intro hc
  have hperm : (s.calls.filterMap MessageCall.source).Perm
      (w :: (l ++ r).filterMap MessageCall.source) := by
    rw [hsplit, ← List.filterMap_cons_some hc]
    exact List.perm_middle.filterMap _
  have hnodup := hperm.nodup_iff.mp h.distinct
  exact (List.nodup_cons.mp hnodup).1 (List.mem_filterMap.mpr ⟨u, hu, hw⟩)

/-- A call goes on, if the workers that have sent the other messages are not changed. -/
theorem ThreadsSound.call (h : s.ThreadsSound) {i : ℕ} {c : MessageCall} {news : List MessageCall}
    (hi : s.calls[i]? = some c) (hcalls : s'.calls = replaceAt s.calls i news)
    (hsources : (news.filterMap MessageCall.source).Sublist ([c].filterMap MessageCall.source))
    (hworkers : ∀ w, s'.WorkerSound w)
    (hothers : ∀ w, (s.workers w).pc = .sending → c.source ≠ some w →
      s'.workers w = s.workers w ∧ (w ∈ s.activeWorkers → w ∈ s'.activeWorkers))
    (hnews : ∀ u ∈ news, s'.CallSound u) : s'.ThreadsSound := by
  obtain ⟨l, r, hsplit, hreplace⟩ := exists_split hi
  rw [hreplace] at hcalls
  apply ThreadsSound.mk hworkers
  · rw [hcalls]
    apply forall_mem_replaced hsplit h.calls _ hnews
    intro u hu hsound w hw
    have hsending := hsound w hw
    have hkeep := hothers w hsending.1 (h.source_ne hsplit hu hw)
    rw [hkeep.1]
    exact ⟨hsending.1, fun hbefore => hkeep.2 (hsending.2 hbefore)⟩
  · rw [hcalls]
    apply List.Nodup.sublist _ h.distinct
    rw [hsplit, ← List.singleton_append]
    simp only [List.filterMap_append]
    exact (List.Sublist.refl _).append (hsources.append (List.Sublist.refl _))

/-- A call goes on, and nothing changes that it has to do with. -/
theorem ThreadsSound.call_frame (h : s.ThreadsSound) {i : ℕ} {c : MessageCall} {pc : MessagePc}
    (hi : s.calls[i]? = some c) (hworkers : s'.workers = s.workers)
    (hid : s'.workerID = s.workerID) (hpc : s'.pc = s.pc) (hfree : s'.freeWorkers = s.freeWorkers)
    (hactive : s'.activeWorkers = s.activeWorkers)
    (hcalls : s'.calls = replaceAt s.calls i [⟨c.source, pc⟩])
    (hbefore : pc.beforeLookup = true → c.pc.beforeLookup = true) : s'.ThreadsSound := by
  apply h.call hi hcalls (List.Sublist.refl _)
  · intro w
    apply (h.workers w).frame (congrFun hworkers w) (Nat.le_of_eq hid.symm)
    · rw [hpc]
      exact fun hx => hx
    · rw [hfree]
      exact .inl
    · rw [hactive]
      exact fun _ hx => hx
  · intro w _ _
    rw [hworkers, hactive]
    exact ⟨rfl, fun hx => hx⟩
  · intro u hu w hw
    cases List.mem_singleton.mp hu
    have hcall := h.calls c (List.mem_of_getElem? hi) w hw
    rw [hworkers, hactive]
    exact ⟨hcall.1, fun hx => hcall.2 (hbefore hx)⟩

/-- The worker that has sent the message leaves the pool of the active workers. -/
theorem ThreadsSound.lookup (h : s.ThreadsSound) {i : ℕ} {source : Option ℕ}
    (hi : s.calls[i]? = some ⟨source, .lookup⟩) :
    ThreadsSound { s.finishWorker source with
      calls := replaceAt s.calls i [⟨source, .create⟩] } := by
  cases source with
  | none => exact h.call_frame hi rfl rfl rfl rfl rfl rfl fun hx => nomatch hx
  | some w =>
    by_cases hmem : w ∈ s.activeWorkers
    · rw [finishWorker, if_pos hmem]
      have hsending := (h.calls _ (List.mem_of_getElem? hi) w rfl).1
      have hsources : ([⟨some w, .create⟩].filterMap MessageCall.source).Sublist
          ([⟨some w, .lookup⟩].filterMap MessageCall.source) := List.Sublist.refl _
      apply h.call hi rfl hsources
      · intro w'
        have hkeep (hjob : (s.workers w').job.isSome = true) (hactive : w' ∈ s.activeWorkers) :
            w' ∈ s.activeWorkers.erase w := by
          have hne : w' ≠ w := by
            rintro rfl
            rw [(h.workers w').job_none (.inl hsending)] at hjob
            contradiction
          exact (List.mem_erase_of_ne hne).mpr hactive
        exact (h.workers w').frame rfl (Nat.le_refl _) (fun hx => hx) .inl hkeep
      · intro w' _ hsource
        apply And.intro rfl
        intro hactive
        have hne : w' ≠ w := by
          rintro rfl
          exact hsource rfl
        exact (List.mem_erase_of_ne hne).mpr hactive
      · intro u hu w' hw'
        cases List.mem_singleton.mp hu
        cases hw'
        exact ⟨hsending, fun hbefore => nomatch hbefore⟩
    · rw [finishWorker, if_neg hmem]
      exact h.call_frame hi rfl rfl rfl rfl rfl rfl fun hx => nomatch hx

/-- A worker gets a job. -/
theorem ThreadsSound.give (h : s.ThreadsSound)
    (hpartition : s.allWorkers.Perm (List.range s.workerID)) (hspin : s.pc.afterSpin = false)
    {i id w job : ℕ} {free rest : List ℕ} {source : Option ℕ}
    (hi : s.calls[i]? = some ⟨source, .assign (job :: rest)⟩) (hsupply : Supplies s id free w) :
    ThreadsSound { s.give id free w job with
      calls := replaceAt s.calls i [⟨source, .assign rest⟩] } := by
  have hstarted := (h.workers w).fresh hspin hsupply.free_or_new
  have hne (w' : ℕ) (hw' : (s.workers w').pc = .sending) : w' ≠ w := by
    rintro rfl
    rw [hstarted] at hw'
    contradiction
  have hsources : ([⟨source, .assign rest⟩].filterMap MessageCall.source).Sublist
      ([⟨source, .assign (job :: rest)⟩].filterMap MessageCall.source) := List.Sublist.refl _
  apply h.call hi rfl hsources
  · intro w'
    by_cases heq : w' = w
    · subst heq
      constructor
      · dsimp only [JobDispatcher.give]
        rw [Function.update_self]
        intro hset
        contradiction
      · dsimp only [JobDispatcher.give]
        rw [Function.update_self]
        intro hstopped
        contradiction
      · intro hle
        exact (Nat.not_le_of_lt (hsupply.lt hpartition) hle).elim
      · intro _ hfree
        rcases hfree with hfree | hle
        · exact (hsupply.not_mem_free hpartition hfree).elim
        · exact (Nat.not_le_of_lt (hsupply.lt hpartition) hle).elim
      · intro _
        exact List.mem_append_right _ (List.mem_singleton_self w')
    · exact (h.workers w').frame (Function.update_of_ne heq _ _) hsupply.workerID_le
        (fun hx => hx) (fun hw' => .inl (hsupply.mem_free hw'))
        fun _ hactive => List.mem_append_left _ hactive
  · intro w' hw' _
    exact ⟨Function.update_of_ne (hne w' hw') _ _, fun hactive => List.mem_append_left _ hactive⟩
  · intro u hu w' hw'
    cases List.mem_singleton.mp hu
    have hsending := (h.calls _ (List.mem_of_getElem? hi) w' hw').1
    dsimp only [JobDispatcher.give]
    rw [Function.update_of_ne (hne w' hsending)]
    exact ⟨hsending, fun hbefore => nomatch hbefore⟩

/-- The thread of the worker whose message was delivered ends. -/
theorem ThreadsSound.finish (h : s.ThreadsSound) {i : ℕ} {source : Option ℕ}
    (hi : s.calls[i]? = some ⟨source, .left⟩) :
    ThreadsSound { s.endThread source with calls := replaceAt s.calls i [] } := by
  have hsources : (([] : List MessageCall).filterMap MessageCall.source).Sublist
      ([⟨source, .left⟩].filterMap MessageCall.source) := List.nil_sublist _
  cases source with
  | none =>
    apply h.call hi rfl hsources
    · intro w
      exact (h.workers w).frame rfl (Nat.le_refl _) (fun hx => hx) .inl fun _ hx => hx
    · exact fun _ _ _ => ⟨rfl, fun hx => hx⟩
    · exact fun _ hu => nomatch hu
  | some w =>
    have hw := h.workers w
    have hsending := (h.calls _ (List.mem_of_getElem? hi) w rfl).1
    have hsound := hw.fields
    unfold JobWorker.Sound at hsound
    rw [hsending] at hsound
    rw [endThread]
    apply h.call hi rfl hsources
    · intro w'
      by_cases heq : w' = w
      · subst heq
        constructor
        · dsimp only
          rw [Function.update_self]
          exact hsound
        · dsimp only
          rw [Function.update_self]
          exact fun _ => rfl
        · intro hle
          have hwaiting := (hw.unspawned hle).1
          rw [hsending] at hwaiting
          contradiction
        · intro hspin hfree
          rw [hw.fresh hspin hfree] at hsending
          contradiction
        · dsimp only
          rw [Function.update_self]
          exact hw.busy
      · exact (h.workers w').frame (Function.update_of_ne heq _ _) (Nat.le_refl _)
          (fun hx => hx) .inl fun _ hx => hx
    · intro w' _ hsource
      have hne : w' ≠ w := by
        rintro rfl
        exact hsource rfl
      exact ⟨Function.update_of_ne hne _ _, fun hx => hx⟩
    · exact fun _ hu => nomatch hu

/-- A call of `OnMessage` goes on. -/
theorem ThreadsSound.callMoves (h : s.ThreadsSound)
    (hpartition : s.allWorkers.Perm (List.range s.workerID)) {i n : ℕ} {source : Option ℕ}
    {pc : MessagePc} {next : JobDispatcher × List MessageCall}
    (hi : s.calls[i]? = some ⟨source, pc⟩) (hspin : pc.isQuiet = false → s.pc.afterSpin = false)
    (hmoves : CallMoves s source pc n next) :
    ThreadsSound { next.1 with calls := replaceAt s.calls i next.2 } := by
  cases hmoves with
  | enter | refused | admitted =>
    exact h.call_frame hi rfl rfl rfl rfl rfl rfl fun _ => rfl
  | create | assigned | leave =>
    exact h.call_frame hi rfl rfl rfl rfl rfl rfl fun hx => nomatch hx
  | lookup => exact h.lookup hi
  | assign _ job rest s' _ _ hassign =>
    have hfresh (w : ℕ) (hw : w ∈ s.freeWorkers) :=
      (h.workers w).fresh (hspin rfl) (.inl hw)
    obtain ⟨id, free, w, hsupply, rfl⟩ := assignJob_eq hpartition hfresh hassign
    exact h.give hpartition (hspin rfl) hi hsupply
  | finish => exact h.finish hi

/-- A worker stays shut down, and a worker that was given a job stays so, when a call goes on. -/
theorem CallMoves.later (h : s.ThreadsSound)
    (hpartition : s.allWorkers.Perm (List.range s.workerID)) {c : MessageCall} (hc : c ∈ s.calls)
    (hspin : c.pc.isQuiet = false → s.pc.afterSpin = false) {n : ℕ}
    {next : JobDispatcher × List MessageCall} (hmoves : CallMoves s c.source c.pc n next) (w : ℕ) :
    (s.workers w).Later (next.1.workers w) := by
  obtain ⟨source, pc⟩ := c
  cases hmoves with
  | enter | refused | admitted | create | assigned | leave => exact .refl _
  | lookup =>
    cases source with
    | none => exact .refl _
    | some w' =>
      dsimp only
      rw [finishWorker]
      split <;> exact .refl _
  | assign _ job rest s' _ _ hassign =>
    have hfresh (w' : ℕ) (hw' : w' ∈ s.freeWorkers) := (h.workers w').fresh (hspin rfl) (.inl hw')
    obtain ⟨id, free, w', hsupply, rfl⟩ := assignJob_eq hpartition hfresh hassign
    have hstarted := (h.workers w').fresh (hspin rfl) hsupply.free_or_new
    apply JobWorker.Later.update
    rw [hstarted]
    exact ⟨fun hdown => (nomatch hdown.1), fun hset => nomatch hset⟩
  | finish =>
    cases source with
    | none => exact .refl _
    | some w' =>
      apply JobWorker.Later.update
      exact ⟨fun hdown => ⟨hdown.1, rfl⟩, fun hset => hset⟩

/-- The same when the thread of a worker goes on. -/
theorem WorkerMoves.later {w : ℕ} (hmoves : WorkerMoves s w s') (w' : ℕ) :
    (s.workers w').Later (s'.workers w') := by
  cases hmoves with
  | start hpc | report hpc =>
    apply JobWorker.Later.update
    constructor
    · intro hdown
      have hexited := hdown.2
      rw [hpc] at hexited
      contradiction
    · exact fun hset => hset

/-- The same when the dispatcher goes on. -/
theorem DispatcherMoves.later (h : s.ThreadsSound) (hmoves : DispatcherMoves limits s s') (w : ℕ) :
    (s.workers w).Later (s'.workers w) := by
  cases hmoves with
  | stopLoop | round | takeFinished | idle | stopFree | dismissed | stop | done => exact .refl _
  | joined p w' =>
    apply JobWorker.Later.update
    exact ⟨fun hdown => ⟨rfl, hdown.2⟩, fun hset => hset⟩
  | cleared p =>
    cases p <;> exact .refl _
  | refill hpc =>
    have hspin : s.pc.afterSpin = false := by rw [hpc]; rfl
    have hfresh (w : ℕ) (hw : s.workerID ≤ w) := (h.workers w).fresh hspin (.inr hw)
    have hspawn := spawnWorkers_spawned s (spawnCount limits s.freeWorkers.length) hfresh
    dsimp only
    rw [hspawn.workers]
    exact .refl _
  | dismiss w' rest =>
    apply JobWorker.Later.update
    unfold JobWorker.setJob
    split
    · exact .refl _
    · exact ⟨fun hdown => hdown, fun _ => rfl⟩

end JobDispatcher

end TinySox
