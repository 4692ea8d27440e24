import Mathlib.Algebra.BigOperators.Group.Finset.Basic
import TinySox.DispatcherPools

/-!
# The shutdown of the dispatcher comes to an end

Once the flag is set, a call that has not read it yet does nothing, so the work that is left is that
of the calls that were admitted before, of the jobs that they create, and of the shutdown itself. It
is bounded, and if the jobs return, no thread waits for something that does not come: a worker that
the dispatcher waits for has a job or was dismissed, and a call that holds it up can always go on.
-/

namespace TinySox

open TinySox.Common

/-- The most steps that the thread of a worker still makes, with those of the call for its report. -/
def JobWorker.stepsLeft (worker : JobWorker) : ℕ :=
  match worker.pc with
  | .waiting => if worker.job.isSome then 6 else 1
  | .executing => 5
  | .sending | .exited => 0

/-- A worker that is dismissed has not more to do. -/
theorem JobWorker.stepsLeft_setJob (worker : JobWorker) :
    (worker.setJob none).1.stepsLeft ≤ worker.stepsLeft := by
  unfold setJob
  split_ifs
  · exact Nat.le_refl _
  · unfold stepsLeft
    cases worker.pc with
    | waiting =>
      dsimp only
      rw [if_neg nofun]
      split_ifs <;> decide
    | executing | sending | exited => exact Nat.le_refl _

/-- The most steps that a call still makes once the flag is set, if it creates at most `K` jobs. A job
that is given to a worker is one for the dispatcher to wait for. -/
def MessagePc.stepsLeft (K : ℕ) : MessagePc → ℕ
  | .entered => 4
  | .counted => 3
  | .lookup => 8 * K + 5
  | .create => 8 * K + 4
  | .assign jobs => 8 * jobs.length + 3
  | .leaving => 2
  | .left => 1

namespace DispatcherAction

/-- A thread that is there makes a step. -/
def isStep : DispatcherAction → Bool
  | .call _ _ | .worker _ | .dispatcher => true
  | .message | .shutdown => false

/-- A listener delivers a message. -/
def isMessage : DispatcherAction → Bool
  | .message => true
  | .call _ _ | .worker _ | .dispatcher | .shutdown => false

end DispatcherAction

/-- The dispatcher has nobody to tell or to join yet, or not any more. -/
def DispatcherPc.isPlain : DispatcherPc → Bool
  | .dismiss _ | .joining _ _ | .stop .tmp => false
  | _ => true

namespace JobDispatcher

variable {limits : Limits} {s s' : JobDispatcher}

/-- The most steps that the dispatcher still makes once the flag is set. A round that is under way
may spawn workers. -/
def dispatcherLeft (limits : Limits) (s : JobDispatcher) : ℕ :=
  let free := s.freeWorkers.length
  let busy := s.activeWorkers.length + s.finishedWorkers.length
  match s.pc with
  | .returned => 0
  | .spinPost => 1
  | .joining .finished left => left.length + 2
  | .stop .finished => s.finishedWorkers.length + 3
  | .joining .active left => left.length + s.finishedWorkers.length + 4
  | .stop .active => busy + 5
  | .joining .free left => left.length + busy + 6
  | .dismiss left => left.length + free + busy + 7
  | .stop .free => 2 * free + busy + 8
  | .spinPre => 2 * free + busy + 9
  | .loop => 2 * free + busy + 10
  | .refill => 2 * free + busy + 3 * limits.workersSpawnCount + 11
  | .joining .tmp left => left.length + 2 * free + busy + 3 * limits.workersSpawnCount + 12
  | .takeFinished => 2 * free + busy + 3 * limits.workersSpawnCount + 13
  | .stop .tmp => s.tmp.length + 2 * free + busy + 3 * limits.workersSpawnCount + 13

/-- The same of the workers. -/
def workersLeft (s : JobDispatcher) : ℕ := ∑ w ∈ Finset.range s.workerID, (s.workers w).stepsLeft

/-- The same of the calls. -/
def callsLeft (K : ℕ) (s : JobDispatcher) : ℕ := (s.calls.map fun c => c.pc.stepsLeft K).sum

/-- The most steps that all threads still make. -/
def stepsLeft (limits : Limits) (K : ℕ) (s : JobDispatcher) : ℕ :=
  s.dispatcherLeft limits + s.workersLeft + s.callsLeft K

/-- A worker is replaced. -/
theorem sum_update {n w : ℕ} (hw : w < n) (workers : ℕ → JobWorker) (later : JobWorker) :
    (∑ v ∈ Finset.range n, (Function.update workers w later v).stepsLeft) + (workers w).stepsLeft =
      (∑ v ∈ Finset.range n, (workers v).stepsLeft) + later.stepsLeft := by
  have hmem : w ∈ Finset.range n := Finset.mem_range.mpr hw
  have hrest : (∑ v ∈ (Finset.range n).erase w, (Function.update workers w later v).stepsLeft) =
      ∑ v ∈ (Finset.range n).erase w, (workers v).stepsLeft := by
    refine Finset.sum_congr rfl fun v hv => ?_
    rw [Function.update_of_ne (Finset.ne_of_mem_erase hv)]
  rw [← Finset.add_sum_erase _ _ hmem, ← Finset.add_sum_erase _ _ hmem, hrest, Function.update_self]
  omega

/-- A worker that has not more to do than before adds nothing. -/
theorem sum_update_le (n w : ℕ) (workers : ℕ → JobWorker) {later : JobWorker}
    (hle : later.stepsLeft ≤ (workers w).stepsLeft) :
    (∑ v ∈ Finset.range n, (Function.update workers w later v).stepsLeft) ≤
      ∑ v ∈ Finset.range n, (workers v).stepsLeft := by
  by_cases hw : w < n
  · have hsum := sum_update hw workers later
    omega
  · refine (Finset.sum_congr rfl fun v hv => ?_).le
    rw [Function.update_of_ne]
    rintro rfl
    exact hw (Finset.mem_range.mp hv)

/-- New workers have one step each. -/
theorem workersLeft_spawn (s : JobDispatcher) (count : ℕ) :
    (s.spawnWorkers count).workersLeft = s.workersLeft + count := by
  rw [spawnWorkers_eq, workersLeft, workersLeft, Finset.sum_range_add]
  have hold : (∑ w ∈ Finset.range s.workerID, (if s.workerID ≤ w ∧ w < s.workerID + count then
      JobWorker.started else s.workers w).stepsLeft) = ∑ w ∈ Finset.range s.workerID,
        (s.workers w).stepsLeft := by
    refine Finset.sum_congr rfl fun w hw => ?_
    have hlt := Finset.mem_range.mp hw
    rw [if_neg (by omega)]
  have hnew : (∑ v ∈ Finset.range count, (if s.workerID ≤ s.workerID + v ∧
      s.workerID + v < s.workerID + count then JobWorker.started else
        s.workers (s.workerID + v)).stepsLeft) = count := by
    rw [Finset.sum_congr rfl (g := fun _ => 1), ← Finset.card_eq_sum_ones, Finset.card_range]
    intro v hv
    have hlt := Finset.mem_range.mp hv
    rw [if_pos (by omega)]
    rfl
  exact congrArg₂ (· + ·) hold hnew

/-- A job costs six steps, five if the worker is a free one. -/
theorem workersLeft_give {id w job : ℕ} {free : List ℕ} (hsupply : Supplies s id free w)
    (hpartition : s.allWorkers.Perm (List.range s.workerID)) :
    (s.give id free w job).workersLeft ≤ s.workersLeft + 6 := by
  cases hsupply with
  | free _ _ hfree =>
    have hw : w < s.workerID := Supplies.lt hpartition (.free free w hfree)
    have hsum := sum_update hw s.workers (givenJob job)
    have hsix : (givenJob job).stepsLeft = 6 := rfl
    change (∑ v ∈ Finset.range s.workerID, (Function.update s.workers w (givenJob job) v).stepsLeft) ≤ _
    rw [workersLeft]
    omega
  | spawned hfree =>
    change (∑ v ∈ Finset.range (s.workerID + 1),
      (Function.update s.workers s.workerID (givenJob job) v).stepsLeft) ≤ _
    have hold : (∑ v ∈ Finset.range s.workerID,
        (Function.update s.workers s.workerID (givenJob job) v).stepsLeft) = s.workersLeft := by
      refine Finset.sum_congr rfl fun v hv => ?_
      rw [Function.update_of_ne (Finset.mem_range.mp hv).ne]
    rw [Finset.sum_range_succ, hold, Function.update_self]
    exact Nat.le_refl _

/-- A round does not spawn more than that. -/
theorem spawnCount_le_spawn (limits : Limits) (free : ℕ) :
    spawnCount limits free ≤ limits.workersSpawnCount := by
  unfold spawnCount
  dsimp only
  split_ifs <;> omega

/-- A worker that has reported only moves from one pool to another. -/
theorem dispatcherLeft_finish (hspin : s.pc.afterSpin = false) (source : Option ℕ) :
    (s.finishWorker source).dispatcherLeft limits = s.dispatcherLeft limits := by
  cases source with
  | none => rfl
  | some w =>
    rw [finishWorker]
    split_ifs with hw
    · have hpos : 0 < s.activeWorkers.length := List.length_pos_of_mem hw
      have herase := List.length_erase_of_mem hw
      simp only [dispatcherLeft, List.length_append, List.length_singleton, herase]
      cases hpc : s.pc with
      | joining p left =>
        rw [hpc] at hspin
        cases p with
        | tmp => simp only; omega
        | free | active | finished => contradiction
      | stop p =>
        rw [hpc] at hspin
        cases p with
        | tmp => simp only; omega
        | free | active | finished => contradiction
      | dismiss | spinPost | returned => exact absurd hspin (by rw [hpc]; rintro ⟨⟩)
      | loop | takeFinished | refill | spinPre => simp only; omega
    · rfl

/-- A worker that gets a job is one more to wait for. -/
theorem dispatcherLeft_give (hspin : s.pc.afterSpin = false) {id w job : ℕ} {free : List ℕ}
    (hsupply : Supplies s id free w) :
    (s.give id free w job).dispatcherLeft limits ≤ s.dispatcherLeft limits + 1 := by
  have hfree := hsupply.length_le
  simp only [dispatcherLeft, give, List.length_append, List.length_singleton]
  cases hpc : s.pc with
  | joining p left =>
    rw [hpc] at hspin
    cases p with
    | tmp => simp only; omega
    | free | active | finished => contradiction
  | stop p =>
    rw [hpc] at hspin
    cases p with
    | tmp => simp only; omega
    | free | active | finished => contradiction
  | dismiss | spinPost | returned =>
    rw [hpc] at hspin
    contradiction
  | loop | takeFinished | refill | spinPre => simp only; omega

/-- Each step of the dispatcher leaves less to do. -/
theorem DispatcherMoves.stepsLeft (hmoves : DispatcherMoves limits s s')
    (hflag : s.shutdownPending = true) :
    s'.dispatcherLeft limits + s'.workersLeft < s.dispatcherLeft limits + s.workersLeft := by
  cases hmoves with
  | round hpc hnot =>
    rw [hflag] at hnot
    contradiction
  | stopLoop hpc | idle hpc | stopFree hpc | dismissed hpc | done hpc =>
    simp only [dispatcherLeft, workersLeft, hpc]
    omega
  | takeFinished hpc =>
    simp only [dispatcherLeft, workersLeft, hpc, List.length_nil]
    omega
  | joined p w rest hpc =>
    have hworkers : (∑ v ∈ Finset.range s.workerID,
        (Function.update s.workers w { s.workers w with workerStarted := false } v).stepsLeft) ≤
          s.workersLeft := sum_update_le s.workerID w s.workers (Nat.le_refl _)
    refine Nat.add_lt_add_of_lt_of_le ?_ hworkers
    cases p <;> simp only [dispatcherLeft, hpc, List.length_cons] <;> omega
  | cleared p hpc =>
    cases p <;> simp only [dispatcherLeft, workersLeft, clearPool, hpc, List.length_nil] <;> omega
  | refill hpc =>
    have hspawn := workersLeft_spawn s (spawnCount limits s.freeWorkers.length)
    have hcount := spawnCount_le_spawn limits s.freeWorkers.length
    rw [spawnWorkers_eq] at hspawn ⊢
    simp only [dispatcherLeft, workersLeft, hpc, List.length_append, List.length_range'] at hspawn ⊢
    omega
  | dismiss w rest hpc =>
    have hsum := sum_update_le s.workerID w s.workers ((s.workers w).stepsLeft_setJob)
    simp only [dispatcherLeft, workersLeft, hpc, List.length_cons]
    omega
  | stop p hp hpc =>
    cases p with
    | free => exact absurd rfl hp
    | tmp | active | finished =>
      simp only [dispatcherLeft, workersLeft, hpc, pool]
      omega

/-- So does each step of a call. -/
theorem CallMoves.stepsLeft (h : s.Sound limits) (hflag : s.shutdownPending = true) {c : MessageCall}
    (hc : c ∈ s.calls) {n K : ℕ} (hn : n ≤ K) {next : JobDispatcher × List MessageCall}
    (hmoves : CallMoves s c.source c.pc n next) :
    next.1.dispatcherLeft limits + next.1.workersLeft + (next.2.map fun c => c.pc.stepsLeft K).sum <
      s.dispatcherLeft limits + s.workersLeft + c.pc.stepsLeft K := by
  have hspin : c.pc.isQuiet = false → s.pc.afterSpin = false := by
    intro hloud
    by_contra hafter
    rw [h.quiet.quiet (Bool.of_not_eq_false hafter) c hc] at hloud
    contradiction
  obtain ⟨source, pc⟩ := c
  cases hmoves with
  | enter | refused | assigned | leave =>
    simp [dispatcherLeft, workersLeft, MessagePc.stepsLeft]
  | admitted _ hnot =>
    rw [hflag] at hnot
    contradiction
  | lookup =>
    have hsame : (s.finishWorker source).dispatcherLeft limits = s.dispatcherLeft limits :=
      dispatcherLeft_finish (hspin rfl) source
    have hworkers : (s.finishWorker source).workersLeft = s.workersLeft := by
      unfold finishWorker
      split
      · split <;> rfl
      · rfl
    simp only [hsame, hworkers, List.map_singleton, List.sum_singleton, MessagePc.stepsLeft]
    omega
  | create =>
    have hcreated : 8 * n ≤ 8 * K := Nat.mul_le_mul_left 8 hn
    simp only [dispatcherLeft, workersLeft, List.map_singleton, List.sum_singleton, MessagePc.stepsLeft,
      List.length_range']
    omega
  | assign _ job rest s' _ _ hassign =>
    have hfresh (w : ℕ) (hw : w ∈ s.freeWorkers) :=
      (h.threads.workers w).fresh (hspin rfl) (.inl hw)
    obtain ⟨id, free, w, hsupply, rfl⟩ := assignJob_eq h.pools.partition hfresh hassign
    have hdispatcher : (s.give id free w job).dispatcherLeft limits ≤ s.dispatcherLeft limits + 1 :=
      dispatcherLeft_give (hspin rfl) hsupply
    have hworkers : (s.give id free w job).workersLeft ≤ s.workersLeft + 6 :=
      workersLeft_give hsupply h.pools.partition
    simp only [List.map_singleton, List.sum_singleton, MessagePc.stepsLeft, List.length_cons]
    omega
  | finish =>
    have hdispatcher : (s.endThread source).dispatcherLeft limits = s.dispatcherLeft limits := by
      cases source <;> rfl
    have hworkers : (s.endThread source).workersLeft ≤ s.workersLeft := by
      cases source with
      | none => exact Nat.le_refl _
      | some w =>
        have hle : ({ s.workers w with pc := .exited } : JobWorker).stepsLeft ≤ (s.workers w).stepsLeft :=
          Nat.zero_le _
        exact sum_update_le s.workerID w s.workers hle
    simp only [hdispatcher, List.map_nil, List.sum_nil, MessagePc.stepsLeft]
    omega

/-- So does each step of a worker, with the call for its report. -/
theorem WorkerMoves.stepsLeft (h : s.Sound limits) (K : ℕ) {w : ℕ} (hmoves : WorkerMoves s w s') :
    s'.stepsLeft limits K < s.stepsLeft limits K := by
  cases hmoves with
  | start hpc hw hset =>
    have hless : ({ s.workers w with
        pc := if (s.workers w).job.isSome then .executing else .exited } : JobWorker).stepsLeft <
          (s.workers w).stepsLeft := by
      unfold JobWorker.stepsLeft
      rw [hpc]
      by_cases hjob : (s.workers w).job.isSome = true <;> simp [hjob]
    have hsum := sum_update hw s.workers { s.workers w with
      pc := if (s.workers w).job.isSome then .executing else .exited }
    have hworkers : (∑ v ∈ Finset.range s.workerID, (Function.update s.workers w { s.workers w with
        pc := if (s.workers w).job.isSome then .executing else .exited } v).stepsLeft) <
          s.workersLeft := by
      rw [workersLeft]
      omega
    exact Nat.add_lt_add_right (Nat.add_lt_add_left hworkers _) _
  | report hpc =>
    have hw : w < s.workerID := by
      by_contra hge
      have hwaiting := ((h.threads.workers w).unspawned (Nat.le_of_not_lt hge)).1
      rw [hpc] at hwaiting
      contradiction
    have hfive : (s.workers w).stepsLeft = 5 := by
      unfold JobWorker.stepsLeft
      rw [hpc]
    have hsum := sum_update hw s.workers { s.workers w with job := none, pc := .sending }
    have hworkers : (∑ v ∈ Finset.range s.workerID,
        (Function.update s.workers w { s.workers w with job := none, pc := .sending } v).stepsLeft) + 5 =
          s.workersLeft := by
      rw [← hfive]
      exact hsum
    have hcalls : callsLeft K { s with
        workers := Function.update s.workers w { s.workers w with job := none, pc := .sending }
        calls := ⟨some w, .entered⟩ :: s.calls } = s.callsLeft K + 4 := Nat.add_comm _ _
    have hall : s.dispatcherLeft limits + (∑ v ∈ Finset.range s.workerID,
        (Function.update s.workers w { s.workers w with job := none, pc := .sending } v).stepsLeft) +
          (s.callsLeft K + 4) < s.stepsLeft limits K := by
      rw [stepsLeft]
      omega
    rw [stepsLeft, hcalls]
    exact hall

/-- The dispatcher's thread changes neither the flag nor the calls. -/
theorem DispatcherMoves.same (hmoves : DispatcherMoves limits s s') :
    s'.shutdownPending = s.shutdownPending ∧ s'.calls = s.calls := by
  cases hmoves with
  | cleared p => cases p <;> exact ⟨rfl, rfl⟩
  | refill =>
    have hspawn := sameControl_spawnWorkers s (spawnCount limits s.freeWorkers.length)
    exact ⟨hspawn.shutdownPending, hspawn.calls⟩
  | _ => exact ⟨rfl, rfl⟩

/-- The flag stays set. -/
theorem shutdownPending_of_step {a : DispatcherAction} (hstep : s.step limits a = some s')
    (hflag : s.shutdownPending = true) : s'.shutdownPending = true := by
  cases a with
  | message =>
    cases hstep
    exact hflag
  | call i created =>
    obtain ⟨c, -, hrest⟩ := Option.bind_eq_some_iff.mp hstep
    obtain ⟨next, hnext, rfl⟩ := Option.map_eq_some_iff.mp hrest
    exact (callStep_moves hnext).keeps.shutdownPending.trans hflag
  | worker w =>
    have hmoves : WorkerMoves s w s' := workerStep_moves hstep
    cases hmoves <;> exact hflag
  | dispatcher => exact (dispatcherStep_moves hstep).same.1.trans hflag
  | shutdown =>
    cases hstep
    rfl

/-- Each step of a thread leaves less to do, and a message adds four steps. -/
theorem stepsLeft_of_step (h : s.Sound limits) (hflag : s.shutdownPending = true)
    {a : DispatcherAction} {K : ℕ} (hcreated : ∀ i created, a = .call i created → created ≤ K)
    (hstep : s.step limits a = some s') :
    s'.stepsLeft limits K + (if a.isStep then 1 else 0) ≤
      s.stepsLeft limits K + if a.isMessage then 4 else 0 := by
  cases a with
  | message =>
    cases hstep
    have hcalls : callsLeft K { s with calls := ⟨none, .entered⟩ :: s.calls } = s.callsLeft K + 4 :=
      Nat.add_comm _ _
    rw [stepsLeft, hcalls]
    exact Nat.le_refl _
  | call i created =>
    obtain ⟨c, hi, hrest⟩ := Option.bind_eq_some_iff.mp hstep
    obtain ⟨next, hnext, rfl⟩ := Option.map_eq_some_iff.mp hrest
    have hless := (callStep_moves hnext).stepsLeft h hflag (List.mem_of_getElem? hi) (hcreated i created rfl)
    have hsum := sum_map_replaceAt hi (fun c => c.pc.stepsLeft K) next.2
    have hcalls : callsLeft K { next.1 with calls := replaceAt s.calls i next.2 } =
        ((replaceAt s.calls i next.2).map fun c => c.pc.stepsLeft K).sum := rfl
    rw [stepsLeft, stepsLeft, hcalls, callsLeft]
    change next.1.dispatcherLeft limits + next.1.workersLeft + _ + 1 ≤ _
    omega
  | worker w => exact (workerStep_moves hstep).stepsLeft h K
  | dispatcher =>
    have hmoves : DispatcherMoves limits s s' := dispatcherStep_moves hstep
    have hless := hmoves.stepsLeft hflag
    rw [stepsLeft, stepsLeft, callsLeft, callsLeft, hmoves.same.2]
    change _ + _ + _ + 1 ≤ _
    omega
  | shutdown =>
    cases hstep
    exact Nat.le_refl _

/-- What the threads wait for is on its way: a worker that has sent its report has a call for it, and a
worker that the dispatcher waits for has a job or was dismissed. -/
structure Expecting (s : JobDispatcher) : Prop where
  reports : ∀ w, (s.workers w).pc = .sending → ∃ c ∈ s.calls, c.source = some w
  busy : ∀ w, w ∈ s.activeWorkers ∨ w ∈ s.finishedWorkers → (s.workers w).jobSet = true
  dismissing : ∀ left, s.pc = .dismiss left →
    ∀ w ∈ s.freeWorkers, w ∈ left ∨ (s.workers w).jobSet = true
  joining : ∀ p left, s.pc = .joining p left →
    ∀ w ∈ left, (s.workers w).jobSet = true ∧ w < s.workerID
  stop : s.pc ≠ .stop .tmp

namespace Expecting

/-- The dispatcher stays where it is. -/
theorem frame (h : s.Expecting) (hlater : ∀ w, (s.workers w).Later (s'.workers w))
    (hreports : ∀ w, (s'.workers w).pc = .sending → ∃ c ∈ s'.calls, c.source = some w)
    (hbusy : ∀ w, w ∈ s'.activeWorkers ∨ w ∈ s'.finishedWorkers →
      (w ∈ s.activeWorkers ∨ w ∈ s.finishedWorkers) ∨ (s'.workers w).jobSet = true)
    (hpc : s'.pc = s.pc) (hfree : s.pc.afterSpin = true → s'.freeWorkers = s.freeWorkers)
    (hid : s.workerID ≤ s'.workerID) : s'.Expecting := by
  refine ⟨hreports, fun w hw => ?_, fun left hleft w hw => ?_, fun p left hleft w hw => ?_, ?_⟩
  · exact (hbusy w hw).elim (fun hold => (hlater w).jobSet (h.busy w hold)) id
  · rw [hpc] at hleft
    rw [hfree (by rw [hleft]; rfl)] at hw
    exact (h.dismissing left hleft w hw).imp_right (hlater w).jobSet
  · rw [hpc] at hleft
    obtain ⟨hset, hlt⟩ := h.joining p left hleft w hw
    exact ⟨(hlater w).jobSet hset, hlt.trans_le hid⟩
  · rw [hpc]
    exact h.stop

/-- The call for a report stays until the thread of the worker has ended. -/
theorem reports_replaced (h : s.Expecting) {i : ℕ} {c : MessageCall} {news : List MessageCall} {w : ℕ}
    (hi : s.calls[i]? = some c) (hw : (s.workers w).pc = .sending)
    (hnews : c.source = some w → ∃ c' ∈ news, c'.source = some w) :
    ∃ c' ∈ replaceAt s.calls i news, c'.source = some w := by
  obtain ⟨c', hc', hsource⟩ := h.reports w hw
  obtain ⟨l, r, hsplit, hreplace⟩ := exists_split hi
  rw [hreplace]
  rw [hsplit] at hc'
  rcases List.mem_append.mp hc' with hl | hrest
  · exact ⟨c', List.mem_append_left _ hl, hsource⟩
  · rcases List.mem_cons.mp hrest with rfl | hr
    · obtain ⟨c'', hmem, hnew⟩ := hnews hsource
      exact ⟨c'', List.mem_append_right _ (List.mem_append_left _ hmem), hnew⟩
    · exact ⟨c', List.mem_append_right _ (List.mem_append_right _ hr), hsource⟩

/-- A call goes on. -/
theorem callMoves (h : s.Expecting) (hsound : s.Sound limits) {i : ℕ} {c : MessageCall}
    (hi : s.calls[i]? = some c) {n : ℕ} {next : JobDispatcher × List MessageCall}
    (hmoves : CallMoves s c.source c.pc n next) :
    Expecting { next.1 with calls := replaceAt s.calls i next.2 } := by
  have hspin : c.pc.isQuiet = false → s.pc.afterSpin = false := by
    intro hloud
    by_contra hafter
    rw [hsound.quiet.quiet (Bool.of_not_eq_false hafter) c (List.mem_of_getElem? hi)] at hloud
    contradiction
  have hlater := hmoves.later hsound.threads hsound.pools.partition (List.mem_of_getElem? hi) hspin
  obtain ⟨source, pc⟩ := c
  have hreports {pc' : MessagePc} (w : ℕ) (hw : (s.workers w).pc = .sending) :
      ∃ c ∈ replaceAt s.calls i [⟨source, pc'⟩], c.source = some w :=
    h.reports_replaced hi hw fun hsource => ⟨_, List.mem_singleton_self _, hsource⟩
  cases hmoves with
  | enter | refused | admitted | create | assigned | leave =>
    exact h.frame hlater hreports (fun w hw => .inl hw) rfl (fun _ => rfl) (Nat.le_refl _)
  | lookup =>
    cases source with
    | none => exact h.frame hlater hreports (fun w hw => .inl hw) rfl (fun _ => rfl) (Nat.le_refl _)
    | some w =>
      rw [finishWorker]
      split_ifs with hw
      · refine h.frame (fun _ => .refl _) ?_ (fun v hv => .inl ?_) rfl (fun _ => rfl) (Nat.le_refl _)
        · exact hreports
        · rcases hv with hactive | hfinished
          · exact .inl (List.mem_of_mem_erase hactive)
          · rcases List.mem_append.mp hfinished with hold | hnew
            · exact .inr hold
            · rw [List.mem_singleton.mp hnew]
              exact .inl hw
      · exact h.frame (fun _ => .refl _) hreports (fun v hv => .inl hv) rfl (fun _ => rfl) (Nat.le_refl _)
  | assign _ job rest s' _ _ hassign =>
    have hfresh (w : ℕ) (hw : w ∈ s.freeWorkers) :=
      (hsound.threads.workers w).fresh (hspin rfl) (.inl hw)
    obtain ⟨id, free, w, hsupply, rfl⟩ := assignJob_eq hsound.pools.partition hfresh hassign
    refine h.frame hlater (fun v hv => ?_) (fun v hv => ?_) rfl (fun hafter => ?_) hsupply.workerID_le
    · have hv' : (Function.update s.workers w (givenJob job) v).pc = .sending := hv
      by_cases hvw : v = w
      · rw [hvw, Function.update_self] at hv'
        contradiction
      · rw [Function.update_of_ne hvw] at hv'
        exact hreports v hv'
    · rcases hv with hactive | hfinished
      · rcases List.mem_append.mp hactive with hold | hnew
        · exact .inl (.inl hold)
        · refine .inr ?_
          rw [List.mem_singleton.mp hnew]
          change (Function.update s.workers w (givenJob job) w).jobSet = true
          rw [Function.update_self]
          rfl
      · exact .inl (.inr hfinished)
    · rw [hspin rfl] at hafter
      contradiction
  | finish =>
    cases source with
    | none =>
      refine h.frame hlater (fun w hw => ?_) (fun w hw => .inl hw) rfl (fun _ => rfl) (Nat.le_refl _)
      exact h.reports_replaced hi hw (by rintro ⟨⟩)
    | some w' =>
      refine h.frame hlater (fun w hw => ?_) (fun w hw => .inl hw) rfl (fun _ => rfl) (Nat.le_refl _)
      have hw' : (Function.update s.workers w' { s.workers w' with pc := .exited } w).pc = .sending := hw
      by_cases heq : w = w'
      · rw [heq, Function.update_self] at hw'
        contradiction
      · rw [Function.update_of_ne heq] at hw'
        refine h.reports_replaced hi hw' fun hsource => ?_
        cases hsource
        exact absurd rfl heq

/-- The thread of a worker goes on. -/
theorem workerMoves (h : s.Expecting) {w : ℕ} (hmoves : WorkerMoves s w s') : s'.Expecting := by
  have hlater := hmoves.later
  cases hmoves with
  | start hpc hw hset =>
    refine h.frame hlater (fun v hv => ?_) (fun v hv => .inl hv) rfl (fun _ => rfl) (Nat.le_refl _)
    by_cases hvw : v = w
    · subst hvw
      dsimp only at hv
      rw [Function.update_self] at hv
      dsimp only at hv
      split_ifs at hv
    · dsimp only at hv
      rw [Function.update_of_ne hvw] at hv
      exact h.reports v hv
  | report hpc =>
    refine h.frame hlater (fun v hv => ?_) (fun v hv => .inl hv) rfl (fun _ => rfl) (Nat.le_refl _)
    by_cases hvw : v = w
    · subst hvw
      exact ⟨_, List.mem_cons_self, rfl⟩
    · dsimp only at hv
      rw [Function.update_of_ne hvw] at hv
      obtain ⟨c, hc, hsource⟩ := h.reports v hv
      exact ⟨c, List.mem_cons_of_mem _ hc, hsource⟩

/-- The dispatcher goes on with its pools as they are, or a part of them. -/
theorem goto (h : s.Expecting) {workers : ℕ → JobWorker} {pc : DispatcherPc}
    (hlater : ∀ w, (s.workers w).Later (workers w))
    (hsending : ∀ w, (workers w).pc = .sending → (s.workers w).pc = .sending)
    (hdismissing : ∀ left, pc = .dismiss left →
      ∀ w ∈ s.freeWorkers, w ∈ left ∨ (workers w).jobSet = true)
    (hjoining : ∀ p left, pc = .joining p left →
      ∀ w ∈ left, (workers w).jobSet = true ∧ w < s.workerID)
    (hstop : pc ≠ .stop .tmp) : Expecting { s with workers, pc } :=
  ⟨fun w hw => h.reports w (hsending w hw), fun w hw => (hlater w).jobSet (h.busy w hw), hdismissing,
    hjoining, hstop⟩

/-- Where the dispatcher has nobody to tell or to join, less is expected. -/
theorem of_plain (hpc : s.pc.isPlain = true)
    (hreports : ∀ w, (s.workers w).pc = .sending → ∃ c ∈ s.calls, c.source = some w)
    (hbusy : ∀ w, w ∈ s.activeWorkers ∨ w ∈ s.finishedWorkers → (s.workers w).jobSet = true) :
    s.Expecting := by
  refine ⟨hreports, hbusy, fun left heq => ?_, fun p left heq => ?_, fun heq => ?_⟩
  all_goals
    rw [heq] at hpc
    contradiction

/-- The dispatcher goes on. -/
theorem dispatcherMoves (h : s.Expecting) (hsound : s.Sound limits)
    (hmoves : DispatcherMoves limits s s') : s'.Expecting := by
  have hlater := hmoves.later hsound.threads
  have hknown {w : ℕ} (hw : w ∈ s.freeWorkers ∨ w ∈ s.activeWorkers ∨ w ∈ s.finishedWorkers) :
      w < s.workerID := by
    refine (mem_allWorkers hsound.pools.partition).mp ?_
    rw [allWorkers, List.mem_append, List.mem_append, List.mem_append]
    exact hw.imp_right fun hw => hw.imp_right .inl
  cases hmoves with
  | stopLoop | round | idle | done =>
    exact of_plain rfl h.reports h.busy
  | takeFinished hpc =>
    refine ⟨h.reports, fun w hw => ?_, (by rintro _ ⟨⟩), fun p left hleft w hw => ?_,
      (by rintro ⟨⟩)⟩
    · exact h.busy w (hw.imp_right fun hno => absurd hno List.not_mem_nil)
    · cases hleft
      exact ⟨h.busy w (.inr hw), hknown (.inr (.inr hw))⟩
  | joined p w rest hpc hexited =>
    refine h.goto hlater (fun v hv => ?_) (by rintro _ ⟨⟩) (fun p' left hleft v hv => ?_) (by rintro ⟨⟩)
    · by_cases hvw : v = w
      · subst hvw
        rw [Function.update_self] at hv
        exact hv
      · rw [Function.update_of_ne hvw] at hv
        exact hv
    · cases hleft
      obtain ⟨hset, hlt⟩ := h.joining p (w :: rest) hpc v (List.mem_cons_of_mem _ hv)
      exact ⟨(hlater v).jobSet hset, hlt⟩
  | cleared p hpc =>
    cases p with
    | tmp | free => exact of_plain rfl h.reports h.busy
    | active =>
      refine of_plain rfl h.reports fun w hw => ?_
      exact h.busy w (.inr (hw.resolve_left List.not_mem_nil))
    | finished =>
      refine of_plain rfl h.reports fun w hw => ?_
      exact h.busy w (.inl (hw.resolve_right List.not_mem_nil))
  | refill hpc =>
    rw [spawnWorkers_eq] at hlater ⊢
    refine of_plain rfl (fun w hw => h.reports w ?_) fun w hw => (hlater w).jobSet (h.busy w hw)
    dsimp only at hw
    split_ifs at hw
    · contradiction
    · exact hw
  | stopFree hpc =>
    refine h.goto hlater (fun _ hw => hw) (fun left hleft w hw => ?_) (by rintro _ _ ⟨⟩) (by rintro ⟨⟩)
    cases hleft
    exact .inl hw
  | dismiss w rest hpc =>
    refine h.goto hlater (fun v hv => ?_) (fun left hleft v hv => ?_) (by rintro _ _ ⟨⟩) (by rintro ⟨⟩)
    · by_cases hvw : v = w
      · subst hvw
        rw [Function.update_self, JobWorker.setJob] at hv
        split_ifs at hv <;> exact hv
      · rw [Function.update_of_ne hvw] at hv
        exact hv
    · cases hleft
      by_cases hvw : v = w
      · subst hvw
        rw [Function.update_self, JobWorker.setJob]
        split_ifs with hset
        · exact .inr hset
        · exact .inr rfl
      · rcases h.dismissing (w :: rest) hpc v hv with hmem | hset
        · exact .inl ((List.mem_cons.mp hmem).resolve_left hvw)
        · exact .inr ((hlater v).jobSet hset)
  | dismissed hpc =>
    refine h.goto hlater (fun _ hw => hw) (by rintro _ ⟨⟩) (fun p left hleft w hw => ?_) (by rintro ⟨⟩)
    cases hleft
    exact ⟨(h.dismissing [] hpc w hw).resolve_left List.not_mem_nil, hknown (.inl hw)⟩
  | stop p hp hpc =>
    refine h.goto hlater (fun _ hw => hw) (by rintro _ ⟨⟩) (fun p' left hleft w hw => ?_) (by rintro ⟨⟩)
    cases hleft
    cases p with
    | tmp => exact absurd hpc h.stop
    | free => exact absurd rfl hp
    | active => exact ⟨h.busy w (.inl hw), hknown (.inr (.inl hw))⟩
    | finished => exact ⟨h.busy w (.inr hw), hknown (.inr (.inr hw))⟩

/-- One step. -/
theorem step (h : s.Expecting) (hsound : s.Sound limits) {a : DispatcherAction}
    (hstep : s.step limits a = some s') : s'.Expecting := by
  cases a with
  | message =>
    cases hstep
    refine h.frame (fun _ => .refl _) (fun w hw => ?_) (fun _ hw => .inl hw) rfl (fun _ => rfl)
      (Nat.le_refl _)
    obtain ⟨c, hc, hsource⟩ := h.reports w hw
    exact ⟨c, List.mem_cons_of_mem _ hc, hsource⟩
  | call i created =>
    obtain ⟨c, hi, hrest⟩ := Option.bind_eq_some_iff.mp hstep
    obtain ⟨next, hnext, rfl⟩ := Option.map_eq_some_iff.mp hrest
    exact h.callMoves hsound hi (callStep_moves hnext)
  | worker w => exact h.workerMoves (workerStep_moves hstep)
  | dispatcher => exact h.dispatcherMoves hsound (dispatcherStep_moves hstep)
  | shutdown =>
    cases hstep
    exact { h with }

/-- Nobody waits at the start. -/
theorem initial : Expecting initial where
  reports w hw := nomatch hw
  busy w hw := absurd hw (by simp [JobDispatcher.initial])
  dismissing left hleft := nomatch hleft
  joining p left hleft := nomatch hleft
  stop := nofun

end Expecting

/-- A call can always go on: while it may need a lock, the dispatcher holds none. -/
theorem Sound.call_isSome (h : s.Sound limits) {i : ℕ} {c : MessageCall} (hi : s.calls[i]? = some c) :
    (s.step limits (.call i 0)).isSome = true := by
  obtain ⟨source, pc⟩ := c
  cases pc with
  | assign jobs =>
    cases jobs with
    | nil =>
      rw [JobDispatcher.step, hi]
      rfl
    | cons job rest => exact h.call_of_assign hi
  | lookup =>
    have hrunning : s.pc.afterSpin = false := by
      by_contra hafter
      have hquiet := h.quiet.quiet (Bool.of_not_eq_false hafter) _ (List.mem_of_getElem? hi)
      contradiction
    have hlocks : (s.pc.holdsActive || s.pc.holdsDispose) = false := by
      cases hpc : s.pc with
      | joining p left =>
        rw [hpc] at hrunning
        cases p with
        | tmp => rfl
        | free | active | finished => contradiction
      | _ => rfl
    rw [JobDispatcher.step, hi, Option.bind_some, Option.isSome_map]
    simp only [callStep, hlocks]
    rfl
  | entered | counted | create | leaving | left =>
    rw [JobDispatcher.step, hi]
    rfl

/-- The job of a worker returns from `Execute`. -/
def endsJob (s : JobDispatcher) : DispatcherAction → Bool
  | .worker w => (s.workers w).pc = .executing
  | .message | .call _ _ | .dispatcher | .shutdown => false

/-- No job is inside `Execute`: the jobs that were begun have returned. -/
def JobsReturned (s : JobDispatcher) : Prop := ∀ w, (s.workers w).pc ≠ .executing

/-- A worker that is known to the dispatcher and has a job or was dismissed can go on until its thread
has ended, if its job returns and its report is taken. -/
theorem exited_of_stuck (hexpecting : s.Expecting) (hcalls : s.calls = [])
    {w : ℕ} (hstuck : s.endsJob (.worker w) = false → s.step limits (.worker w) = none)
    (hjob : (s.workers w).pc ≠ .executing) (hset : (s.workers w).jobSet = true)
    (hw : w < s.workerID) : (s.workers w).pc = .exited := by
  replace hstuck := hstuck (decide_eq_false hjob)
  cases hpc : (s.workers w).pc with
  | exited => rfl
  | sending =>
    obtain ⟨c, hc, -⟩ := hexpecting.reports w hpc
    rw [hcalls] at hc
    contradiction
  | waiting =>
    simp only [JobDispatcher.step, workerStep, hpc, hw, hset, and_self, if_true] at hstuck
    contradiction
  | executing => exact absurd hpc hjob

/-- Where the jobs have returned and no thread can go on, the shutdown is done. -/
theorem Sound.returned_of_stuck (h : s.Sound limits) (hexpecting : s.Expecting)
    (hstuck : ∀ a : DispatcherAction, a.isStep = true → s.endsJob a = false → s.step limits a = none)
    (hjobs : s.JobsReturned) :
    s.pc = .returned ∧ s.calls = [] := by
  have hcalls : s.calls = [] := by
    by_contra hsome
    obtain ⟨c, rest, heq⟩ := List.exists_cons_of_ne_nil hsome
    have hi : s.calls[0]? = some c := by rw [heq]; rfl
    have henabled := h.call_isSome hi
    rw [hstuck (.call 0 0) rfl rfl] at henabled
    contradiction
  have hcount : ¬s.msgProcCount > 0 := by
    rw [h.quiet.count, hcalls]
    decide
  have hdispatcher : s.dispatcherStep limits = none := hstuck .dispatcher rfl rfl
  refine ⟨?_, hcalls⟩
  cases hpc : s.pc with
  | returned => rfl
  | joining p left =>
    cases left with
    | nil =>
      simp only [dispatcherStep, hpc] at hdispatcher
      contradiction
    | cons w rest =>
      obtain ⟨hset, hw⟩ := hexpecting.joining p (w :: rest) hpc w List.mem_cons_self
      have hexited := exited_of_stuck hexpecting hcalls (hstuck (.worker w) rfl) (hjobs w) hset hw
      simp only [dispatcherStep, hpc, join, hexited, if_true, Option.map_eq_none_iff] at hdispatcher
      split_ifs at hdispatcher
  | stop p =>
    cases p <;> simp only [dispatcherStep, hpc] at hdispatcher <;> contradiction
  | dismiss left =>
    cases left <;> simp only [dispatcherStep, hpc] at hdispatcher <;> contradiction
  | spinPre | spinPost =>
    simp only [dispatcherStep, hpc, hcount, if_false] at hdispatcher
    contradiction
  | loop | takeFinished | refill =>
    simp only [dispatcherStep, hpc] at hdispatcher
    contradiction

/-- Once the flag is set, the threads make a bounded number of steps in every run, four more for each
message that still comes, if no call creates more than `K` jobs. Where the jobs have returned and none
of the threads can go on, the thread of the dispatcher has ended, no call is left, and all workers were
shut down. -/
theorem shutdown_completes (limits : Limits) (K : ℕ) {before later : List DispatcherAction}
    {s t : JobDispatcher} (hbefore : runActions (JobDispatcher.step limits) initial before = some s)
    (hflag : s.shutdownPending = true)
    (hcreated : ∀ i created, .call i created ∈ later → created ≤ K)
    (hlater : runActions (JobDispatcher.step limits) s later = some t) :
    later.countP DispatcherAction.isStep ≤
        s.stepsLeft limits K + 4 * later.countP DispatcherAction.isMessage ∧
      ((∀ a : DispatcherAction, a.isStep = true → t.endsJob a = false → t.step limits a = none) →
        t.JobsReturned → t.pc = .returned ∧ t.calls = [] ∧ ∀ w < t.workerID, (t.workers w).ShutDown) := by
  have hkept : ∀ (u : JobDispatcher) (a : DispatcherAction) (u' : JobDispatcher),
      u.Sound limits ∧ u.Expecting → u.step limits a = some u' → u'.Sound limits ∧ u'.Expecting :=
    fun u a u' h hstep => ⟨h.1.step hstep, h.2.step h.1 hstep⟩
  have hready : s.Sound limits ∧ s.Expecting :=
    runActions_invariant hkept ⟨sound_initial limits, Expecting.initial⟩ hbefore
  constructor
  · have hflagged : ∀ (u : JobDispatcher) (a : DispatcherAction) (u' : JobDispatcher),
        u.Sound limits ∧ u.shutdownPending = true → u.step limits a = some u' →
          u'.Sound limits ∧ u'.shutdownPending = true :=
      fun u a u' h hstep => ⟨h.1.step hstep, shutdownPending_of_step hstep h.2⟩
    have hmeets : RunMeets (JobDispatcher.step limits)
        (fun u a => (u.Sound limits ∧ u.shutdownPending = true) ∧
          ∀ i created, a = .call i created → created ≤ K) s later := by
      refine (RunMeets.of_invariant hflagged (fun _ _ h => h) ⟨hready.1, hflag⟩ later).and
        (RunMeets.of_mem (fun a ha i created heq => hcreated i created ?_) s)
      rw [← heq]
      exact ha
    have hless : ∀ (u : JobDispatcher) (a : DispatcherAction) (u' : JobDispatcher),
        ((u.Sound limits ∧ u.shutdownPending = true) ∧ ∀ i created, a = .call i created → created ≤ K) →
          u.step limits a = some u' → u'.stepsLeft limits K + (if a.isStep then 1 else 0) ≤
            u.stepsLeft limits K + if a.isMessage then 4 else 0 :=
      fun u a u' h hstep => stepsLeft_of_step h.1.1 h.1.2 h.2 hstep
    exact (Nat.le_add_left _ _).trans (runActions_countP_le hless hmeets hlater)
  · intro hstuck hjobs
    obtain ⟨hsound, hexpecting⟩ := runActions_invariant hkept hready hlater
    obtain ⟨hpc, hcalls⟩ := hsound.returned_of_stuck hexpecting hstuck hjobs
    exact ⟨hpc, hcalls, (hsound.returned hpc).2.2.2.1⟩

/-- The shutdown of a busy dispatcher is done after these steps. -/
def finishesShutdown : List DispatcherAction :=
  lateReport ++ ([.call 0 0, .call 0 0, .call 0 0, .dispatcher, .dispatcher, .dispatcher, .dispatcher,
    .dispatcher] : List DispatcherAction)

/-- They are fewer than the bound, and no thread can go on then. -/
theorem shutdown_completes_busyShutdown :
    ∃ s t, runActions (JobDispatcher.step ⟨2, 2⟩) initial busyShutdown = some s ∧
      runActions (JobDispatcher.step ⟨2, 2⟩) s finishesShutdown = some t ∧ t.pc = .returned ∧
      finishesShutdown.countP DispatcherAction.isStep ≤
        s.stepsLeft ⟨2, 2⟩ 0 + 4 * finishesShutdown.countP DispatcherAction.isMessage ∧
      ((∀ a : DispatcherAction, a.isStep = true → t.endsJob a = false → t.step ⟨2, 2⟩ a = none) →
        t.JobsReturned → t.pc = .returned ∧ t.calls = [] ∧ ∀ w < t.workerID, (t.workers w).ShutDown) := by
  have hcreated : ∀ i created, .call i created ∈ finishesShutdown → created ≤ 0 := by
    intro i created hmem
    simp [finishesShutdown, lateReport] at hmem
    omega
  have hbefore : (runActions (JobDispatcher.step ⟨2, 2⟩) initial busyShutdown).isSome = true := rfl
  have hbusy := (Option.some_get hbefore).symm
  have hlater : (runActions (JobDispatcher.step ⟨2, 2⟩)
    ((runActions (JobDispatcher.step ⟨2, 2⟩) initial busyShutdown).get hbefore)
      finishesShutdown).isSome = true := rfl
  have hdone := (Option.some_get hlater).symm
  exact ⟨_, _, hbusy, hdone, rfl, shutdown_completes ⟨2, 2⟩ 0 hbusy rfl hcreated hdone⟩

end JobDispatcher

end TinySox
