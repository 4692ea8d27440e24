import TinySox.DispatcherThreads

/-!
# Every worker is in one pool, and every job goes to one new worker

The pools of the dispatcher, with the workers that it has taken out of them, divide up the workers
that were ever spawned. A job is given to one worker, which gets no other. When the shutdown is
done, the pools are empty and every worker was shut down.
-/

namespace TinySox

open TinySox.Common

namespace JobDispatcher

variable {limits : Limits} {s s' : JobDispatcher}

/-- The pools stay as they are, and so does the dispatcher. -/
theorem PoolsSound.frame (h : s.PoolsSound limits) (hid : s'.workerID = s.workerID)
    (hfree : s'.freeWorkers = s.freeWorkers) (hactive : s'.activeWorkers = s.activeWorkers)
    (hfinished : s'.finishedWorkers = s.finishedWorkers) (hretired : s'.retired = s.retired)
    (htmp : s'.tmp = s.tmp) (hpc : s'.pc = s.pc)
    (hlater : ∀ w, (s.workers w).Later (s'.workers w)) : s'.PoolsSound limits := by
  have hpool (p : Pool) : s'.pool p = s.pool p := by
    cases p with
    | tmp => exact htmp
    | free => exact hfree
    | active => exact hactive
    | finished => exact hfinished
  constructor
  · rw [allWorkers, hfree, hactive, hfinished, hretired, hid]
    exact h.partition
  · rw [hfree]
    exact h.bound
  · rw [hpc, hfree]
    exact h.free
  · rw [hpc, hactive]
    exact h.active
  · rw [hpc, hfinished]
    exact h.finished
  · intro w hw
    rw [hretired] at hw
    rw [hpc]
    exact (h.retired w hw).imp_right (hlater w).shutDown
  · rw [hpc, htmp]
    exact h.batch
  · intro p left hjoining hp w hw
    rw [hpc] at hjoining
    rw [hpool] at hw
    exact (h.stopping p left hjoining hp w hw).imp_right (hlater w).shutDown

/-- Before the dispatcher stops the workers, only the partition and the bound are at stake. -/
theorem PoolsSound.running (hspin : s.pc.afterSpin = false)
    (hpartition : s.allWorkers.Perm (List.range s.workerID))
    (hbound : s.freeWorkers.length ≤ limits.workersCount)
    (hretired : ∀ w ∈ s.retired, w ∈ s.pc.batch ∨ (s.workers w).ShutDown)
    (hbatch : ∀ w ∈ s.pc.batch, w ∈ s.tmp) : s.PoolsSound limits := by
  apply PoolsSound.mk hpartition hbound _ _ _ hretired hbatch
  · intro p left hpc hp
    rw [hpc] at hspin
    cases p with
    | tmp => exact (hp rfl).elim
    | free | active | finished => contradiction
  all_goals
    intro hstopped
    cases hpc : s.pc with
    | loop | takeFinished | refill | spinPre | dismiss | spinPost | returned =>
      rw [hpc] at hspin hstopped
      contradiction
    | stop p | joining p =>
      rw [hpc] at hspin hstopped
      cases p <;> contradiction

/-- The dispatcher goes on without a change of the pools. -/
theorem PoolsSound.advance {workers : ℕ → JobWorker} {pc : DispatcherPc} (h : s.PoolsSound limits)
    (hfree : pc.freeStopped = true → s.pc.freeStopped = true)
    (hactive : pc.activeStopped = true → s.pc.activeStopped = true)
    (hfinished : pc.finishedStopped = true → s.pc.finishedStopped = true)
    (hretired : ∀ w ∈ s.retired, w ∈ pc.batch ∨ (workers w).ShutDown)
    (hbatch : ∀ w ∈ pc.batch, w ∈ s.tmp)
    (hstopping : ∀ p left, pc = .joining p left → p ≠ .tmp →
      ∀ w ∈ s.pool p, w ∈ left ∨ (workers w).ShutDown) :
    PoolsSound limits { s with workers := workers, pc := pc } :=
  ⟨h.partition, h.bound, fun hx => h.free (hfree hx), fun hx => h.active (hactive hx),
    fun hx => h.finished (hfinished hx), hretired, hbatch, hstopping⟩

/-- The workers that were taken out of the pools are shut down, if the batch is done. -/
theorem PoolsSound.shutDown_of_retired (h : s.PoolsSound limits) (hbatch : s.pc.batch = [])
    (w : ℕ) (hw : w ∈ s.retired) : (s.workers w).ShutDown := by
  rcases h.retired w hw with hleft | hdown
  · rw [hbatch] at hleft
    contradiction
  · exact hdown

/-- The dispatcher goes on, and there is no worker it waits for. -/
theorem PoolsSound.advance_pc {pc : DispatcherPc} (h : s.PoolsSound limits)
    (hfree : pc.freeStopped = true → s.pc.freeStopped = true)
    (hactive : pc.activeStopped = true → s.pc.activeStopped = true)
    (hfinished : pc.finishedStopped = true → s.pc.finishedStopped = true)
    (hdone : s.pc.batch = []) (hbatch : ∀ w ∈ pc.batch, w ∈ s.tmp)
    (hstopping : ∀ p left, pc = .joining p left → left = s.pool p) :
    PoolsSound limits { s with pc := pc } := by
  apply h.advance hfree hactive hfinished _ hbatch
  · intro p left hpc _ w hw
    rw [hstopping p left hpc]
    exact .inl hw
  · intro w hw
    exact .inr (h.shutDown_of_retired hdone w hw)

/-- A worker that sends its report moves between the pools. -/
theorem perm_finish {free active finished retired : List ℕ} {w : ℕ} (hw : w ∈ active) :
    (free ++ (active.erase w ++ ((finished ++ [w]) ++ retired))).Perm
      (free ++ (active ++ (finished ++ retired))) := by
  apply List.Perm.append_left
  have hmiddle : (active.erase w ++ ((finished ++ [w]) ++ retired)).Perm
      (w :: (active.erase w ++ (finished ++ retired))) := by
    rw [List.append_assoc, List.singleton_append, ← List.append_assoc, ← List.append_assoc]
    exact List.perm_middle
  exact hmiddle.trans ((List.perm_cons_erase hw).symm.append_right _)

/-- A worker that gets a job moves between the pools. -/
theorem Supplies.perm {id w : ℕ} {free : List ℕ} (hsupply : Supplies s id free w)
    (hpartition : s.allWorkers.Perm (List.range s.workerID)) :
    (free ++ ((s.activeWorkers ++ [w]) ++ (s.finishedWorkers ++ s.retired))).Perm
      (List.range id) := by
  cases hsupply with
  | free _ _ hfree =>
    have hswap : ((s.activeWorkers ++ [w]) ++ (s.finishedWorkers ++ s.retired)).Perm
        ([w] ++ (s.activeWorkers ++ (s.finishedWorkers ++ s.retired))) := by
      rw [← List.append_assoc [w]]
      exact List.perm_append_comm.append_right _
    rw [allWorkers, hfree, List.append_assoc free] at hpartition
    exact (hswap.append_left free).trans hpartition
  | spawned hfree =>
    rw [allWorkers, hfree, List.nil_append] at hpartition
    rw [List.nil_append, List.range_succ, List.append_assoc]
    have hlast : (s.activeWorkers ++ ([s.workerID] ++ (s.finishedWorkers ++ s.retired))).Perm
        ((s.activeWorkers ++ (s.finishedWorkers ++ s.retired)) ++ [s.workerID]) := by
      rw [List.append_assoc]
      exact List.perm_append_comm.append_left _
    exact hlast.trans (hpartition.append_right _)

/-- A supplied worker leaves room in the pool of the free workers. -/
theorem Supplies.length_le {id w : ℕ} {free : List ℕ} (hsupply : Supplies s id free w) :
    free.length ≤ s.freeWorkers.length := by
  cases hsupply with
  | free _ _ hfree =>
    rw [hfree, List.length_append]
    exact Nat.le_add_right _ _
  | spawned => exact Nat.zero_le _

/-- The pools stay sound when a call goes on. -/
theorem PoolsSound.callMoves (h : s.PoolsSound limits) (hthreads : s.ThreadsSound) {c : MessageCall}
    (hc : c ∈ s.calls) (hspin : c.pc.isQuiet = false → s.pc.afterSpin = false) {n : ℕ}
    {next : JobDispatcher × List MessageCall} (hmoves : CallMoves s c.source c.pc n next)
    (calls : List MessageCall) : PoolsSound limits { next.1 with calls := calls } := by
  have hlater := hmoves.later hthreads h.partition hc hspin
  obtain ⟨source, pc⟩ := c
  cases hmoves with
  | enter | refused | admitted | create | assigned | leave =>
    exact h.frame rfl rfl rfl rfl rfl rfl rfl hlater
  | lookup =>
    cases source with
    | none => exact h.frame rfl rfl rfl rfl rfl rfl rfl hlater
    | some w =>
      by_cases hmem : w ∈ s.activeWorkers
      · rw [finishWorker, if_pos hmem]
        exact .running (hspin rfl) ((perm_finish hmem).trans h.partition) h.bound h.retired h.batch
      · rw [finishWorker, if_neg hmem]
        exact h.frame rfl rfl rfl rfl rfl rfl rfl fun _ => .refl _
  | assign _ job rest s' _ _ hassign =>
    have hfresh (w : ℕ) (hw : w ∈ s.freeWorkers) :=
      (hthreads.workers w).fresh (hspin rfl) (.inl hw)
    obtain ⟨id, free, w, hsupply, rfl⟩ := assignJob_eq h.partition hfresh hassign
    have hretired (w' : ℕ) (hw' : w' ∈ s.retired) :=
      (h.retired w' hw').imp_right (hlater w').shutDown
    exact .running (hspin rfl) (hsupply.perm h.partition)
      (Nat.le_trans hsupply.length_le h.bound) hretired h.batch
  | finish =>
    cases source with
    | none => exact h.frame rfl rfl rfl rfl rfl rfl rfl hlater
    | some w => exact h.frame rfl rfl rfl rfl rfl rfl rfl hlater

/-- The pools stay sound when the thread of a worker goes on. -/
theorem PoolsSound.worker (h : s.PoolsSound limits) {w : ℕ} (hmoves : WorkerMoves s w s') :
    s'.PoolsSound limits := by
  have hlater := hmoves.later
  cases hmoves with
  | start | report => exact h.frame rfl rfl rfl rfl rfl rfl rfl hlater

/-- A round does not spawn more workers than there is room for. -/
theorem spawnCount_le (limits : Limits) {free : ℕ} (hfree : free ≤ limits.workersCount) :
    free + spawnCount limits free ≤ limits.workersCount := by
  unfold spawnCount
  dsimp only
  split_ifs <;> omega

/-- The numbers that come after the first ones. -/
theorem range_add (id count : ℕ) :
    List.range (id + count) = List.range id ++ List.range' id count := by
  rw [List.range_eq_range', List.range_eq_range', ← List.range'_append_1, Nat.zero_add]

/-- New workers are a new part of the partition. -/
theorem perm_spawn {id count : ℕ} {free others : List ℕ}
    (hpartition : (free ++ others).Perm (List.range id)) :
    ((free ++ List.range' id count) ++ others).Perm (List.range (id + count)) := by
  have hswap : ((free ++ List.range' id count) ++ others).Perm
      ((free ++ others) ++ List.range' id count) := by
    rw [List.append_assoc, List.append_assoc]
    exact List.perm_append_comm.append_left free
  rw [range_add]
  exact hswap.trans (hpartition.append_right _)

/-- The pools stay sound when the dispatcher spawns workers. -/
theorem PoolsSound.refill (h : s.PoolsSound limits) (hthreads : s.ThreadsSound)
    (hpc : s.pc = .refill) :
    PoolsSound limits
      { s.spawnWorkers (spawnCount limits s.freeWorkers.length) with pc := .loop } := by
  have hmoves : DispatcherMoves limits s _ := .refill hpc
  have hlater := hmoves.later hthreads
  rw [spawnWorkers_eq] at hlater ⊢
  apply PoolsSound.running
  · rfl
  · exact perm_spawn h.partition
  · rw [List.length_append, List.length_range']
    exact spawnCount_le limits h.bound
  · intro w hw
    exact .inr ((hlater w).shutDown (h.shutDown_of_retired (by rw [hpc]; rfl) w hw))
  · intro w hw
    contradiction

/-- The pools stay sound when the dispatcher takes the next batch. -/
theorem PoolsSound.takeFinished (h : s.PoolsSound limits) (hpc : s.pc = .takeFinished) :
    PoolsSound limits { s with
      tmp := s.finishedWorkers
      finishedWorkers := []
      retired := s.retired ++ s.finishedWorkers
      pc := .joining .tmp s.finishedWorkers } := by
  apply PoolsSound.running
  · rfl
  · have hswap : (s.retired ++ s.finishedWorkers).Perm (s.finishedWorkers ++ s.retired) :=
      List.perm_append_comm
    exact ((hswap.append_left _).append_left _).trans h.partition
  · exact h.bound
  · intro w hw
    rcases List.mem_append.mp hw with hold | hnew
    · exact .inr (h.shutDown_of_retired (by rw [hpc]; rfl) w hold)
    · exact .inl hnew
  · exact fun w hw => hw

/-- The pools stay sound when the dispatcher has waited for a worker. -/
theorem PoolsSound.joined (h : s.PoolsSound limits) (hthreads : s.ThreadsSound) {p : Pool} {w : ℕ}
    {rest : List ℕ} (hpc : s.pc = .joining p (w :: rest))
    (hexited : (s.workers w).workerStarted = true → (s.workers w).pc = .exited) :
    PoolsSound limits { s with
      workers := Function.update s.workers w { s.workers w with workerStarted := false }
      pc := .joining p rest } := by
  have hmoves : DispatcherMoves limits s _ := .joined p w rest hpc hexited
  have hlater := hmoves.later hthreads
  have hdown (w' : ℕ) (hw' : w' ∈ w :: rest ∨ (s.workers w').ShutDown) : w' ∈ rest ∨
      (Function.update s.workers w { s.workers w with workerStarted := false } w').ShutDown := by
    rcases hw' with hmem | hold
    · rcases List.mem_cons.mp hmem with rfl | hrest
      · apply Or.inr
        rw [Function.update_self]
        apply And.intro rfl
        cases hstarted : (s.workers w').workerStarted with
        | false => exact (hthreads.workers w').stopped hstarted
        | true => exact hexited hstarted
      · exact .inl hrest
    · exact .inr ((hlater w').shutDown hold)
  have hretired := h.retired
  have hbatch := h.batch
  rw [hpc] at hretired hbatch
  apply h.advance
  · rw [hpc]
    cases p <;> exact fun hx => hx
  · rw [hpc]
    cases p <;> exact fun hx => hx
  · rw [hpc]
    cases p <;> exact fun hx => hx
  · intro w' hw'
    cases p with
    | tmp => exact hdown w' (hretired w' hw')
    | free | active | finished => exact .inr ((hlater w').shutDown
        ((hretired w' hw').resolve_left List.not_mem_nil))
  · intro w' hw'
    cases p with
    | tmp => exact hbatch w' (List.mem_cons_of_mem w hw')
    | free | active | finished => contradiction
  · intro p' left hjoining hp w' hw'
    cases hjoining
    exact hdown w' (h.stopping p (w :: rest) hpc hp w' hw')

/-- The workers of a pool that the dispatcher has waited for are shut down. -/
theorem PoolsSound.shutDown_of_cleared (h : s.PoolsSound limits) {p : Pool}
    (hpc : s.pc = .joining p []) (hp : p ≠ .tmp) (w : ℕ) (hw : w ∈ s.pool p ∨ w ∈ s.retired) :
    (s.workers w).ShutDown := by
  rcases hw with hpool | hretired
  · exact (h.stopping p [] hpc hp w hpool).resolve_left List.not_mem_nil
  · apply h.shutDown_of_retired _ w hretired
    rw [hpc]
    cases p <;> rfl

/-- The pools stay sound when the dispatcher is done with one of them. -/
theorem PoolsSound.cleared (h : s.PoolsSound limits) {p : Pool} (hpc : s.pc = .joining p []) :
    (s.clearPool p).PoolsSound limits := by
  have hdown := h.shutDown_of_cleared hpc
  have hfree := h.free
  have hactive := h.active
  have hpartition := h.partition
  unfold allWorkers at hpartition
  rw [hpc] at hfree hactive
  have hmoved (hp : p ≠ .tmp) (w : ℕ) (hw : w ∈ s.retired ++ s.pool p) : (s.workers w).ShutDown :=
    hdown hp w (List.mem_append.mp hw).symm
  cases p with
  | tmp =>
    exact h.advance_pc (fun hx => nomatch hx) (fun hx => nomatch hx) (fun hx => nomatch hx)
      (by rw [hpc]; rfl) (fun _ hx => nomatch hx) fun _ _ hx => nomatch hx
  | free =>
    have hswap : ((s.activeWorkers ++ (s.finishedWorkers ++ s.retired)) ++ s.freeWorkers).Perm
        (s.freeWorkers ++ (s.activeWorkers ++ (s.finishedWorkers ++ s.retired))) :=
      List.perm_append_comm
    rw [List.append_assoc, List.append_assoc] at hswap
    constructor
    · exact hswap.trans hpartition
    · exact Nat.zero_le _
    · exact fun _ => rfl
    · exact fun hx => nomatch hx
    · exact fun hx => nomatch hx
    · exact fun w hw => .inr (hmoved (by decide) w hw)
    · exact fun _ hx => nomatch hx
    · exact fun _ _ hx => nomatch hx
  | active =>
    have hswap : ((s.finishedWorkers ++ s.retired) ++ s.activeWorkers).Perm
        (s.activeWorkers ++ (s.finishedWorkers ++ s.retired)) := List.perm_append_comm
    rw [List.append_assoc] at hswap
    constructor
    · exact (hswap.append_left _).trans hpartition
    · exact h.bound
    · exact fun _ => hfree rfl
    · exact fun _ => rfl
    · exact fun hx => nomatch hx
    · exact fun w hw => .inr (hmoved (by decide) w hw)
    · exact fun _ hx => nomatch hx
    · exact fun _ _ hx => nomatch hx
  | finished =>
    have hswap : (s.retired ++ s.finishedWorkers).Perm (s.finishedWorkers ++ s.retired) :=
      List.perm_append_comm
    constructor
    · exact ((hswap.append_left _).append_left _).trans hpartition
    · exact h.bound
    · exact fun _ => hfree rfl
    · exact fun _ => hactive rfl
    · exact fun _ => rfl
    · exact fun w hw => .inr (hmoved (by decide) w hw)
    · exact fun _ hx => nomatch hx
    · exact fun _ _ hx => nomatch hx

/-- The pools stay sound when the dispatcher goes on. -/
theorem PoolsSound.dispatcher (h : s.PoolsSound limits) (hthreads : s.ThreadsSound)
    (hmoves : DispatcherMoves limits s s') : s'.PoolsSound limits := by
  cases hmoves with
  | stopLoop hpc | round hpc =>
    exact h.advance_pc (fun hx => nomatch hx) (fun hx => nomatch hx) (fun hx => nomatch hx)
      (by rw [hpc]; rfl) (fun _ hx => nomatch hx) fun _ _ hx => nomatch hx
  | takeFinished hpc => exact h.takeFinished hpc
  | joined p w rest hpc hexited => exact h.joined hthreads hpc hexited
  | cleared p hpc => exact h.cleared hpc
  | refill hpc => exact h.refill hthreads hpc
  | idle hpc | stopFree hpc =>
    exact h.advance_pc (fun hx => nomatch hx) (fun hx => nomatch hx) (fun hx => nomatch hx)
      (by rw [hpc]; rfl) (fun _ hx => nomatch hx) fun _ _ hx => nomatch hx
  | dismiss w rest hpc =>
    have hmoves : DispatcherMoves limits s _ := .dismiss w rest hpc
    have hlater := hmoves.later hthreads
    have hretired (w' : ℕ) (hw' : w' ∈ s.retired) : w' ∈ DispatcherPc.batch (.dismiss rest) ∨
        (Function.update s.workers w ((s.workers w).setJob none).1 w').ShutDown :=
      .inr ((hlater w').shutDown (h.shutDown_of_retired (by rw [hpc]; rfl) w' hw'))
    exact h.advance (fun hx => nomatch hx) (fun hx => nomatch hx) (fun hx => nomatch hx) hretired
      (fun _ hx => nomatch hx) fun _ _ hx => nomatch hx
  | dismissed hpc =>
    have hpool (p : Pool) (left : List ℕ)
        (hjoining : DispatcherPc.joining .free s.freeWorkers = .joining p left) :
        left = s.pool p := by
      cases hjoining
      rfl
    exact h.advance_pc (fun hx => nomatch hx) (fun hx => nomatch hx) (fun hx => nomatch hx)
      (by rw [hpc]; rfl) (fun _ hx => nomatch hx) hpool
  | stop p hp hpc =>
    have hpool (p' : Pool) (left : List ℕ)
        (hjoining : DispatcherPc.joining p (s.pool p) = .joining p' left) : left = s.pool p' := by
      cases hjoining
      rfl
    apply h.advance_pc _ _ _ (by rw [hpc]; rfl) _ hpool
    · rw [hpc]
      cases p <;> exact fun hx => hx
    · rw [hpc]
      cases p <;> exact fun hx => hx
    · rw [hpc]
      cases p <;> exact fun hx => hx
    · intro w hw
      cases p with
      | tmp => exact hw
      | free | active | finished => contradiction
  | done hpc =>
    exact h.advance_pc (fun _ => by rw [hpc]; rfl) (fun _ => by rw [hpc]; rfl)
      (fun _ => by rw [hpc]; rfl) (by rw [hpc]; rfl) (fun _ hx => nomatch hx)
      fun _ _ hx => nomatch hx

/-- The jobs stay as they are, and no worker loses its job. -/
theorem JobsSound.frame (h : s.JobsSound)
    (hcalls : (pendingJobs s'.calls).Perm (pendingJobs s.calls))
    (hnext : s'.nextJob = s.nextJob) (hhanded : s'.handed = s.handed)
    (hlater : ∀ w, (s.workers w).Later (s'.workers w)) : s'.JobsSound := by
  constructor
  · rw [hnext, hhanded]
    exact (hcalls.append_left _).trans h.jobs
  · rw [hhanded]
    exact h.accepted
  · intro handover hmem
    rw [hhanded] at hmem
    exact (hlater handover.worker).jobSet (h.given handover hmem)
  · rw [hhanded]
    exact h.once

/-- The jobs that a call has created, or has given away. -/
theorem jobs_replaced {calls news : List MessageCall} {i : ℕ} {c : MessageCall} {old new : List ℕ}
    (hi : calls[i]? = some c)
    (hmoved : (old ++ pendingJobs news).Perm (c.pc.jobs ++ new)) :
    (old ++ pendingJobs (replaceAt calls i news)).Perm (pendingJobs calls ++ new) := by
  obtain ⟨l, r, rfl, hreplace⟩ := exists_split hi
  rw [hreplace]
  apply List.perm_iff_count.mpr
  intro job
  have hcount := hmoved.count_eq job
  simp only [pendingJobs, List.flatMap_append, List.flatMap_cons, List.count_append] at hcount ⊢
  omega

/-- A call that neither creates jobs nor gives one away. -/
theorem jobs_kept {calls news : List MessageCall} {i : ℕ} {c : MessageCall}
    (hi : calls[i]? = some c) (hsame : pendingJobs news = c.pc.jobs) :
    (pendingJobs (replaceAt calls i news)).Perm (pendingJobs calls) := by
  have hmoved : ([] ++ pendingJobs news).Perm (c.pc.jobs ++ []) := by
    rw [hsame, List.nil_append, List.append_nil]
  have hreplaced := jobs_replaced hi hmoved
  rw [List.nil_append, List.append_nil] at hreplaced
  exact hreplaced

/-- A worker gets a job that a call has created. -/
theorem JobsSound.give (h : s.JobsSound) (hthreads : s.ThreadsSound)
    (hspin : s.pc.afterSpin = false) {i id w job : ℕ} {free rest : List ℕ} {source : Option ℕ}
    (hi : s.calls[i]? = some ⟨source, .assign (job :: rest)⟩) (hsupply : Supplies s id free w) :
    JobsSound { s.give id free w job with
      calls := replaceAt s.calls i [⟨source, .assign rest⟩] } := by
  have hstarted := (hthreads.workers w).fresh hspin hsupply.free_or_new
  constructor
  · have hmoved : ([job] ++ pendingJobs [⟨source, .assign rest⟩]).Perm
        (MessagePc.jobs (.assign (job :: rest)) ++ []) := by
      simp [pendingJobs, MessagePc.jobs]
    have hreplaced := jobs_replaced hi hmoved
    rw [List.append_nil] at hreplaced
    dsimp only [JobDispatcher.give]
    rw [List.map_append, List.append_assoc]
    exact (hreplaced.append_left _).trans h.jobs
  · intro handover hmem
    rcases List.mem_append.mp hmem with hold | hnew
    · exact h.accepted handover hold
    · cases List.mem_singleton.mp hnew
      rfl
  · intro handover hmem
    dsimp only [JobDispatcher.give]
    by_cases heq : handover.worker = w
    · rw [heq, Function.update_self]
      rfl
    · rw [Function.update_of_ne heq]
      rcases List.mem_append.mp hmem with hold | hnew
      · exact h.given handover hold
      · cases List.mem_singleton.mp hnew
        exact (heq rfl).elim
  · dsimp only [JobDispatcher.give]
    rw [List.map_append, List.map_singleton]
    apply h.once.append (List.nodup_singleton w)
    intro w' hold hnew
    cases List.mem_singleton.mp hnew
    obtain ⟨handover, hmem, heq⟩ := List.mem_map.mp hold
    have hset := h.given handover hmem
    rw [heq, hstarted] at hset
    contradiction

/-- The jobs stay sound when a call goes on. -/
theorem JobsSound.callMoves (h : s.JobsSound) (hthreads : s.ThreadsSound)
    (hpartition : s.allWorkers.Perm (List.range s.workerID)) {i n : ℕ} {source : Option ℕ}
    {pc : MessagePc} {next : JobDispatcher × List MessageCall}
    (hi : s.calls[i]? = some ⟨source, pc⟩) (hspin : pc.isQuiet = false → s.pc.afterSpin = false)
    (hmoves : CallMoves s source pc n next) :
    JobsSound { next.1 with calls := replaceAt s.calls i next.2 } := by
  have hc : ⟨source, pc⟩ ∈ s.calls := List.mem_of_getElem? hi
  have hlater := CallMoves.later hthreads hpartition hc hspin hmoves
  cases hmoves with
  | enter | refused | admitted | assigned | leave =>
    exact h.frame (jobs_kept hi rfl) rfl rfl hlater
  | lookup =>
    have hsame : (s.finishWorker source).nextJob = s.nextJob ∧
        (s.finishWorker source).handed = s.handed := by
      unfold finishWorker
      split
      · split <;> exact ⟨rfl, rfl⟩
      · exact ⟨rfl, rfl⟩
    exact h.frame (jobs_kept hi rfl) hsame.1 hsame.2 hlater
  | create =>
    have hmoved : ([] ++ pendingJobs [⟨source, .assign (List.range' s.nextJob n)⟩]).Perm
        (MessagePc.jobs .create ++ List.range' s.nextJob n) := by
      simp [pendingJobs, MessagePc.jobs]
    have hreplaced := jobs_replaced hi hmoved
    rw [List.nil_append] at hreplaced
    have hjobs := h.jobs.append_right (List.range' s.nextJob n)
    rw [List.append_assoc, ← range_add] at hjobs
    exact ⟨(hreplaced.append_left _).trans hjobs, h.accepted, h.given, h.once⟩
  | assign _ job rest s' _ _ hassign =>
    have hfresh (w : ℕ) (hw : w ∈ s.freeWorkers) :=
      (hthreads.workers w).fresh (hspin rfl) (.inl hw)
    obtain ⟨id, free, w, hsupply, rfl⟩ := assignJob_eq hpartition hfresh hassign
    exact h.give hthreads (hspin rfl) hi hsupply
  | finish =>
    cases source with
    | none => exact h.frame (jobs_kept hi rfl) rfl rfl hlater
    | some w => exact h.frame (jobs_kept hi rfl) rfl rfl hlater

/-- The jobs stay sound when the dispatcher goes on. -/
theorem JobsSound.dispatcher (h : s.JobsSound) (hthreads : s.ThreadsSound)
    (hmoves : DispatcherMoves limits s s') : s'.JobsSound := by
  have hlater := hmoves.later hthreads
  cases hmoves with
  | cleared p => cases p <;> exact h.frame (.refl _) rfl rfl hlater
  | refill =>
    rw [spawnWorkers_eq] at hlater ⊢
    exact h.frame (.refl _) rfl rfl hlater
  | _ => exact h.frame (.refl _) rfl rfl hlater

/-- Every step keeps the dispatcher sound. -/
theorem Sound.step {a : DispatcherAction} (h : s.Sound limits)
    (hstep : s.step limits a = some s') : s'.Sound limits := by
  have hquiet := h.quiet.step hstep
  cases a with
  | message =>
    cases hstep
    have hpools : PoolsSound limits { s with calls := ⟨none, .entered⟩ :: s.calls } :=
      h.pools.frame rfl rfl rfl rfl rfl rfl rfl fun _ => .refl _
    exact ⟨hquiet, hpools, h.threads.message, h.jobs.frame (.refl _) rfl rfl fun _ => .refl _⟩
  | call i created =>
    obtain ⟨c, hi, hrest⟩ := Option.bind_eq_some_iff.mp hstep
    obtain ⟨next, hnext, rfl⟩ := Option.map_eq_some_iff.mp hrest
    have hmoves := callStep_moves hnext
    have hc : c ∈ s.calls := List.mem_of_getElem? hi
    have hspin : c.pc.isQuiet = false → s.pc.afterSpin = false := by
      intro hloud
      by_contra hafter
      rw [h.quiet.quiet (Bool.of_not_eq_false hafter) c hc] at hloud
      contradiction
    exact ⟨hquiet, h.pools.callMoves h.threads hc hspin hmoves _,
      h.threads.callMoves h.pools.partition hi hspin hmoves,
      h.jobs.callMoves h.threads h.pools.partition hi hspin hmoves⟩
  | worker w =>
    have hmoves := workerStep_moves hstep
    have hjobs : s'.JobsSound := by
      have hlater := hmoves.later
      cases hmoves with
      | start | report => exact h.jobs.frame (.refl _) rfl rfl hlater
    exact ⟨hquiet, h.pools.worker hmoves, h.threads.worker hmoves, hjobs⟩
  | dispatcher =>
    have hmoves := dispatcherStep_moves hstep
    exact ⟨hquiet, h.pools.dispatcher h.threads hmoves, h.threads.dispatcher h.pools hmoves,
      h.jobs.dispatcher h.threads hmoves⟩
  | shutdown =>
    cases hstep
    have hpools : PoolsSound limits { s with shutdownPending := true } :=
      h.pools.frame rfl rfl rfl rfl rfl rfl rfl fun _ => .refl _
    have hthreads : ThreadsSound { s with shutdownPending := true } :=
      h.threads.frame rfl (Nat.le_refl _) (fun hpc => hpc) (fun _ => .inl) rfl rfl
    exact ⟨hquiet, hpools, hthreads, h.jobs.frame (.refl _) rfl rfl fun _ => .refl _⟩

/-- The dispatcher is sound before the first step. -/
theorem sound_initial (limits : Limits) : initial.Sound limits := by
  constructor
  · exact quiet_of_run (show runActions (JobDispatcher.step limits) initial [] = some initial from rfl)
  · apply PoolsSound.running
    · rfl
    · exact List.Perm.refl _
    · exact Nat.zero_le _
    · exact fun _ hw => nomatch hw
    · exact fun _ hw => nomatch hw
  · constructor
    · intro w
      exact ⟨fun _ => rfl, fun hx => (nomatch hx), fun _ => ⟨rfl, rfl⟩, fun _ _ => rfl,
        fun hx => nomatch hx⟩
    · exact fun _ hc => nomatch hc
    · exact List.nodup_nil
  · constructor
    · exact List.Perm.refl _
    · exact fun _ hh => nomatch hh
    · exact fun _ hh => nomatch hh
    · exact List.nodup_nil

/-- The dispatcher is sound in every state it reaches. -/
theorem sound_of_run {actions : List DispatcherAction}
    (hrun : runActions (JobDispatcher.step limits) initial actions = some s) : s.Sound limits :=
  runActions_invariant (fun _ _ _ h hstep => h.step hstep) (sound_initial limits) hrun

/-- Calls that are quiet have no jobs left to give away. -/
theorem pendingJobs_of_quiet {calls : List MessageCall}
    (hquiet : ∀ c ∈ calls, c.pc.isQuiet = true) : pendingJobs calls = [] := by
  apply List.flatMap_eq_nil_iff.mpr
  intro c hc
  have hpc := hquiet c hc
  cases h : c.pc with
  | assign jobs =>
    rw [h] at hpc
    contradiction
  | _ => rfl

/-- There is always a worker for a job. -/
theorem assignJob_isSome (s : JobDispatcher) (job : ℕ) : (s.assignJob job).isSome = true := by
  unfold assignJob createWorkerInstance
  rw [Option.isSome_map, Option.isSome_map, List.getLast?_isSome]
  by_cases hempty : s.freeWorkers.length < 1
  · rw [if_pos hempty, spawnWorkers_eq]
    simp
  · rw [if_neg hempty]
    intro hnil
    rw [hnil] at hempty
    exact hempty Nat.zero_lt_one

/-- A call that has jobs to give away does not wait for the dispatcher. -/
theorem Sound.call_of_assign (h : s.Sound limits) {i created job : ℕ} {rest : List ℕ}
    {source : Option ℕ} (hi : s.calls[i]? = some ⟨source, .assign (job :: rest)⟩) :
    (s.step limits (.call i created)).isSome = true := by
  have hrunning : s.pc.afterSpin = false := by
    by_contra hafter
    have hquiet := h.quiet.quiet (Bool.of_not_eq_false hafter) _ (List.mem_of_getElem? hi)
    contradiction
  have hlocks : s.pc.holdsFree = false ∧ s.pc.holdsActive = false := by
    cases hpc : s.pc with
    | joining p left =>
      rw [hpc] at hrunning
      cases p with
      | tmp => exact ⟨rfl, rfl⟩
      | free | active | finished => contradiction
    | dismiss left =>
      rw [hpc] at hrunning
      contradiction
    | _ => exact ⟨rfl, rfl⟩
  rw [JobDispatcher.step, hi, Option.bind_some, Option.isSome_map]
  unfold callStep
  dsimp only
  rw [hlocks.1, hlocks.2, if_neg (by decide), Option.isSome_map]
  exact assignJob_isSome s job

/-- When the shutdown is done, no worker is left. -/
theorem Sound.returned (h : s.Sound limits) (hpc : s.pc = .returned) :
    s.freeWorkers = [] ∧ s.activeWorkers = [] ∧ s.finishedWorkers = [] ∧
      (∀ w < s.workerID, (s.workers w).ShutDown) ∧
      (s.handed.map Handover.job).Perm (List.range s.nextJob) := by
  have hfree := h.pools.free (by rw [hpc]; rfl)
  have hactive := h.pools.active (by rw [hpc]; rfl)
  have hfinished := h.pools.finished (by rw [hpc]; rfl)
  have hdown (w : ℕ) (hw : w < s.workerID) : (s.workers w).ShutDown := by
    have hall := (mem_allWorkers h.pools.partition).mpr hw
    rw [allWorkers, hfree, hactive, hfinished] at hall
    exact h.pools.shutDown_of_retired (by rw [hpc]; rfl) w hall
  have hjobs := h.jobs.jobs
  rw [pendingJobs_of_quiet (h.quiet.quiet (by rw [hpc]; rfl)), List.append_nil] at hjobs
  exact ⟨hfree, hactive, hfinished, hdown, hjobs⟩

/-- Every worker is in one pool or was taken out of the pools, and then it was shut down or is one
of the batch; the free workers are not too many; every job was given to one worker, which had none
before, or a call has it, which can give it away at once; a worker is active until its report is
looked up; and when the shutdown is done, the pools are empty, no worker is left, and all jobs were
given away. -/
theorem workers_and_jobs_accounted (limits : Limits) (actions : List DispatcherAction)
    (s : JobDispatcher) (hrun : runActions (JobDispatcher.step limits) initial actions = some s) :
    (s.allWorkers.Perm (List.range s.workerID) ∧
      ∀ w ∈ s.retired, w ∈ s.pc.batch ∨ (s.workers w).ShutDown) ∧
    s.freeWorkers.length ≤ limits.workersCount ∧
    ((s.handed.map Handover.job ++ pendingJobs s.calls).Perm (List.range s.nextJob) ∧
      (s.handed.map Handover.worker).Nodup ∧ (∀ h ∈ s.handed, h.accepted = true) ∧
      ∀ i created source job rest, s.calls[i]? = some ⟨source, .assign (job :: rest)⟩ →
        (s.step limits (.call i created)).isSome = true) ∧
    (∀ c ∈ s.calls, ∀ w, c.source = some w → c.pc.beforeLookup = true → w ∈ s.activeWorkers) ∧
    (s.pc = .returned →
      s.freeWorkers = [] ∧ s.activeWorkers = [] ∧ s.finishedWorkers = [] ∧
        (∀ w < s.workerID, (s.workers w).ShutDown) ∧
        (s.handed.map Handover.job).Perm (List.range s.nextJob)) := by
  have h := sound_of_run hrun
  have hlooked (c : MessageCall) (hc : c ∈ s.calls) (w : ℕ) (hw : c.source = some w)
      (hbefore : c.pc.beforeLookup = true) : w ∈ s.activeWorkers :=
    (h.threads.calls c hc w hw).2 hbefore
  exact ⟨⟨h.pools.partition, h.pools.retired⟩, h.pools.bound,
    ⟨h.jobs.jobs, h.jobs.once, h.jobs.accepted, fun _ _ _ _ _ hi => h.call_of_assign hi⟩,
    hlooked, h.returned⟩

/-- A client is served by a free worker, and its report leads to a job for a new one, which is
still busy when the shutdown starts. -/
def servedClient : List DispatcherAction :=
  ([.dispatcher, .dispatcher, .dispatcher, .dispatcher] : List DispatcherAction) ++
  ([.message, .call 0 0, .call 0 0, .call 0 0, .call 0 1, .call 0 0, .call 0 0, .call 0 0,
    .call 0 0] : List DispatcherAction) ++
  ([.worker 0, .worker 0, .call 0 0, .call 0 0, .call 0 0, .call 0 1, .call 0 0, .call 0 0, .call 0 0,
    .call 0 0] : List DispatcherAction) ++
  ([.dispatcher, .dispatcher, .dispatcher, .dispatcher, .dispatcher] : List DispatcherAction) ++
  ([.shutdown, .worker 1, .dispatcher, .dispatcher, .dispatcher, .dispatcher, .dispatcher, .worker 2,
    .dispatcher, .dispatcher, .dispatcher, .worker 1, .call 0 0, .call 0 0, .call 0 0, .call 0 0,
    .dispatcher, .dispatcher, .dispatcher, .dispatcher, .dispatcher] : List DispatcherAction)

/-- After the shutdown, the workers and the jobs are accounted for. -/
theorem workers_and_jobs_accounted_servedClient :
    ∃ s, runActions (JobDispatcher.step ⟨2, 1⟩) initial servedClient = some s ∧
      s.pc = .returned ∧ s.workerID = 3 ∧ s.retired = [0, 2, 1] ∧
      s.handed = [⟨0, 0, true⟩, ⟨1, 1, true⟩] ∧ s.freeWorkers = [] ∧ s.activeWorkers = [] ∧
      s.finishedWorkers = [] ∧ ∀ w < 3, (s.workers w).ShutDown :=
  have haccounted := workers_and_jobs_accounted ⟨2, 1⟩ servedClient _ rfl
  have hreturned := haccounted.2.2.2.2 rfl
  ⟨_, rfl, rfl, rfl, rfl, rfl, hreturned.1, hreturned.2.1, hreturned.2.2.1, hreturned.2.2.2.1⟩

end JobDispatcher

end TinySox
