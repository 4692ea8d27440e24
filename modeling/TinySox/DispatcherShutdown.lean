import TinySox.JobDispatcher

/-!
# The shutdown of the dispatcher is quiet

A call of `OnMessage` is counted before it reads the flag, and the dispatcher reads the count after
the flag is set. So once it has read a count of zero, every call there is will find the flag set,
and none of them touches a pool, creates a job or waits for a lock any more.
-/

namespace TinySox

open TinySox.Common

namespace DispatcherPc

/-- The dispatcher has read a count of zero. -/
def afterSpin : DispatcherPc → Bool
  | .loop | .takeFinished | .joining .tmp _ | .refill | .spinPre | .stop .tmp => false
  | .stop _ | .dismiss _ | .joining _ _ | .spinPost | .returned => true

/-- The dispatcher has found the flag set. -/
def afterFlag : DispatcherPc → Bool
  | .spinPre => true
  | pc => pc.afterSpin

/-- The worker whose thread the dispatcher waits for under a lock. -/
def joinsLocked : DispatcherPc → Option ℕ
  | .joining .free (w :: _) | .joining .active (w :: _) | .joining .finished (w :: _) => some w
  | _ => none

end DispatcherPc

namespace MessagePc

/-- The call is counted. -/
def isCounted : MessagePc → Bool
  | .entered | .left => false
  | .counted | .lookup | .create | .assign _ | .leaving => true

/-- The call has not passed the check of the flag, or it has found the flag set. -/
def isQuiet : MessagePc → Bool
  | .entered | .counted | .leaving | .left => true
  | .lookup | .create | .assign _ => false

/-- The next step needs one of the dispatcher's locks. -/
def waitsForLock : MessagePc → Bool
  | .lookup | .assign (_ :: _) => true
  | .entered | .counted | .create | .assign [] | .leaving | .left => false

end MessagePc

namespace JobDispatcher

/-- Everything a call of `OnMessage` can do, with what it needs. -/
inductive CallMoves (s : JobDispatcher) (source : Option ℕ) :
    MessagePc → ℕ → JobDispatcher × List MessageCall → Prop
  | enter (n : ℕ) :
      CallMoves s source .entered n
        ({ s with msgProcCount := s.msgProcCount + 1 }, [⟨source, .counted⟩])
  | refused (n : ℕ) (hflag : s.shutdownPending = true) :
      CallMoves s source .counted n (s, [⟨source, .leaving⟩])
  | admitted (n : ℕ) (hflag : s.shutdownPending = false) :
      CallMoves s source .counted n (s, [⟨source, .lookup⟩])
  | lookup (n : ℕ) (hactive : s.pc.holdsActive = false) (hdispose : s.pc.holdsDispose = false) :
      CallMoves s source .lookup n (s.finishWorker source, [⟨source, .create⟩])
  | create (n : ℕ) :
      CallMoves s source .create n
        ({ s with nextJob := s.nextJob + n }, [⟨source, .assign (List.range' s.nextJob n)⟩])
  | assign (n job : ℕ) (rest : List ℕ) (s' : JobDispatcher) (hfree : s.pc.holdsFree = false)
      (hactive : s.pc.holdsActive = false) (hassign : s.assignJob job = some s') :
      CallMoves s source (.assign (job :: rest)) n (s', [⟨source, .assign rest⟩])
  | assigned (n : ℕ) : CallMoves s source (.assign []) n (s, [⟨source, .leaving⟩])
  | leave (n : ℕ) :
      CallMoves s source .leaving n
        ({ s with msgProcCount := s.msgProcCount - 1 }, [⟨source, .left⟩])
  | finish (n : ℕ) : CallMoves s source .left n (s.endThread source, [])

/-- A call does nothing else. -/
theorem callStep_moves {s : JobDispatcher} {c : MessageCall} {n : ℕ}
    {next : JobDispatcher × List MessageCall} (hstep : s.callStep c n = some next) :
    CallMoves s c.source c.pc n next := by
  obtain ⟨source, pc⟩ := c
  cases pc with
  | entered =>
    cases hstep
    exact .enter n
  | counted =>
    cases hstep
    cases hflag : s.shutdownPending with
    | true => exact .refused n hflag
    | false => exact .admitted n hflag
  | lookup =>
    simp only [callStep, Bool.or_eq_true, Option.ite_none_left_eq_some, Option.some.injEq,
      not_or, Bool.not_eq_true] at hstep
    obtain ⟨⟨hactive, hdispose⟩, rfl⟩ := hstep
    exact .lookup n hactive hdispose
  | create =>
    cases hstep
    exact .create n
  | assign jobs =>
    cases jobs with
    | nil =>
      cases hstep
      exact .assigned n
    | cons job rest =>
      simp only [callStep, Bool.or_eq_true, Option.ite_none_left_eq_some, not_or,
        Bool.not_eq_true] at hstep
      obtain ⟨⟨hfree, hactive⟩, hassign⟩ := hstep
      obtain ⟨s', hs', rfl⟩ := Option.map_eq_some_iff.mp hassign
      exact .assign n job rest s' hfree hactive hs'
  | leaving =>
    cases hstep
    exact .leave n
  | left =>
    cases hstep
    exact .finish n

/-- Everything the dispatcher's thread can do, with what it needs. -/
inductive DispatcherMoves (limits : Limits) (s : JobDispatcher) : JobDispatcher → Prop
  | stopLoop (hpc : s.pc = .loop) (hflag : s.shutdownPending = true) :
      DispatcherMoves limits s { s with pc := .spinPre }
  | round (hpc : s.pc = .loop) (hflag : s.shutdownPending = false) :
      DispatcherMoves limits s { s with pc := .takeFinished }
  | takeFinished (hpc : s.pc = .takeFinished) :
      DispatcherMoves limits s { s with
        tmp := s.finishedWorkers
        finishedWorkers := []
        retired := s.retired ++ s.finishedWorkers
        pc := .joining .tmp s.finishedWorkers }
  | joined (p : Pool) (w : ℕ) (rest : List ℕ) (hpc : s.pc = .joining p (w :: rest))
      (hexited : (s.workers w).workerStarted = true → (s.workers w).pc = .exited) :
      DispatcherMoves limits s { s with
        workers := Function.update s.workers w { s.workers w with workerStarted := false }
        pc := .joining p rest }
  | cleared (p : Pool) (hpc : s.pc = .joining p []) : DispatcherMoves limits s (s.clearPool p)
  | refill (hpc : s.pc = .refill) :
      DispatcherMoves limits s
        { s.spawnWorkers (spawnCount limits s.freeWorkers.length) with pc := .loop }
  | idle (hpc : s.pc = .spinPre) (hcount : s.msgProcCount ≤ 0) :
      DispatcherMoves limits s { s with pc := .stop .free }
  | stopFree (hpc : s.pc = .stop .free) :
      DispatcherMoves limits s { s with pc := .dismiss s.freeWorkers }
  | dismiss (w : ℕ) (rest : List ℕ) (hpc : s.pc = .dismiss (w :: rest)) :
      DispatcherMoves limits s { s with
        workers := Function.update s.workers w ((s.workers w).setJob none).1
        pc := .dismiss rest }
  | dismissed (hpc : s.pc = .dismiss []) :
      DispatcherMoves limits s { s with pc := .joining .free s.freeWorkers }
  | stop (p : Pool) (hp : p ≠ .free) (hpc : s.pc = .stop p) :
      DispatcherMoves limits s { s with pc := .joining p (s.pool p) }
  | done (hpc : s.pc = .spinPost) (hcount : s.msgProcCount ≤ 0) :
      DispatcherMoves limits s { s with pc := .returned }

/-- A worker that was shut down before is not changed by the second call. -/
theorem join_eq {s s' : JobDispatcher} {w : ℕ} (hjoin : s.join w = some s') :
    s' = { s with
      workers := Function.update s.workers w { s.workers w with workerStarted := false } } ∧
      ((s.workers w).workerStarted = true → (s.workers w).pc = .exited) := by
  unfold join at hjoin
  split_ifs at hjoin with hstarted hexited
  · cases hjoin
    exact ⟨rfl, fun _ => hexited⟩
  · cases hjoin
    refine ⟨?_, fun h => (hstarted h).elim⟩
    have hsame : { s.workers w with workerStarted := false } = s.workers w := by
      rw [Bool.not_eq_true] at hstarted
      rw [← hstarted]
    rw [hsame, Function.update_eq_self]

/-- The dispatcher's thread does nothing else. -/
theorem dispatcherStep_moves {limits : Limits} {s s' : JobDispatcher}
    (hstep : s.dispatcherStep limits = some s') : DispatcherMoves limits s s' := by
  unfold dispatcherStep at hstep
  split at hstep
  · rename_i hpc
    by_cases hflag : s.shutdownPending = true
    · rw [if_pos hflag] at hstep
      cases hstep
      exact .stopLoop hpc hflag
    · rw [if_neg hflag] at hstep
      cases hstep
      exact .round hpc (Bool.not_eq_true _ ▸ hflag)
  · rename_i hpc
    cases hstep
    exact .takeFinished hpc
  · rename_i p w rest hpc
    obtain ⟨t, ht, rfl⟩ := Option.map_eq_some_iff.mp hstep
    obtain ⟨rfl, hexited⟩ := join_eq ht
    exact .joined p w rest hpc hexited
  · rename_i p hpc
    cases hstep
    exact .cleared p hpc
  · rename_i hpc
    cases hstep
    exact .refill hpc
  · rename_i hpc
    simp only [Option.ite_none_left_eq_some, Option.some.injEq, gt_iff_lt] at hstep
    obtain ⟨hcount, rfl⟩ := hstep
    exact .idle hpc (Int.not_lt.mp hcount)
  · rename_i hpc
    cases hstep
    exact .stopFree hpc
  · rename_i w rest hpc
    cases hstep
    exact .dismiss w rest hpc
  · rename_i hpc
    cases hstep
    exact .dismissed hpc
  · rename_i p hp hpc
    cases hstep
    exact .stop p hp hpc
  · rename_i hpc
    simp only [Option.ite_none_left_eq_some, Option.some.injEq, gt_iff_lt] at hstep
    obtain ⟨hcount, rfl⟩ := hstep
    exact .done hpc (Int.not_lt.mp hcount)
  · cases hstep

/-- The number of counted calls. -/
def countedCalls (calls : List MessageCall) : ℕ := calls.countP fun c => c.pc.isCounted

@[simp] theorem countedCalls_append (l r : List MessageCall) :
    countedCalls (l ++ r) = countedCalls l + countedCalls r := List.countP_append

@[simp] theorem countedCalls_cons (c : MessageCall) (l : List MessageCall) :
    countedCalls (c :: l) = countedCalls l + if c.pc.isCounted then 1 else 0 := List.countP_cons

@[simp] theorem countedCalls_nil : countedCalls [] = 0 := rfl

/-- The count is right, the flag stays set, and after a count of zero the calls are quiet. -/
structure Quiet (s : JobDispatcher) : Prop where
  count : s.msgProcCount = countedCalls s.calls
  flag : s.pc.afterFlag = true → s.shutdownPending = true
  quiet : s.pc.afterSpin = true → ∀ c ∈ s.calls, c.pc.isQuiet = true

/-- Before the check of the count comes the check of the flag. -/
theorem afterFlag_of_afterSpin {pc : DispatcherPc} (h : pc.afterSpin = true) :
    pc.afterFlag = true := by
  cases pc with
  | spinPre => rfl
  | _ => exact h

/-- Nothing changes that the shutdown depends on. -/
structure SameControl (s s' : JobDispatcher) : Prop where
  shutdownPending : s'.shutdownPending = s.shutdownPending
  msgProcCount : s'.msgProcCount = s.msgProcCount
  pc : s'.pc = s.pc
  calls : s'.calls = s.calls

/-- One change after another. -/
theorem SameControl.trans {s s' s'' : JobDispatcher} (h : SameControl s s')
    (h' : SameControl s' s'') : SameControl s s'' :=
  ⟨h'.shutdownPending.trans h.shutdownPending, h'.msgProcCount.trans h.msgProcCount,
    h'.pc.trans h.pc, h'.calls.trans h.calls⟩

/-- Spawning workers only adds free workers. -/
theorem sameControl_spawnWorkers (s : JobDispatcher) (count : ℕ) :
    SameControl s (s.spawnWorkers count) := by
  induction count generalizing s with
  | zero => exact ⟨rfl, rfl, rfl, rfl⟩
  | succ count ih =>
    have hrest := ih { s with
      workerID := s.workerID + 1
      workers := Function.update s.workers s.workerID .started
      freeWorkers := s.freeWorkers ++ [s.workerID] }
    exact ⟨hrest.shutdownPending, hrest.msgProcCount, hrest.pc, hrest.calls⟩

/-- Giving a job to a worker only changes workers and pools. -/
theorem sameControl_assignJob {s s' : JobDispatcher} {job : ℕ}
    (hassign : s.assignJob job = some s') : SameControl s s' := by
  obtain ⟨created, hcreated, rfl⟩ := Option.map_eq_some_iff.mp hassign
  unfold createWorkerInstance at hcreated
  obtain ⟨w, hw, rfl⟩ := Option.map_eq_some_iff.mp hcreated
  have hspawn : SameControl s (if s.freeWorkers.length < 1 then s.spawnWorkers 1 else s) := by
    split
    · exact sameControl_spawnWorkers s 1
    · exact ⟨rfl, rfl, rfl, rfl⟩
  exact hspawn.trans ⟨rfl, rfl, rfl, rfl⟩

/-- Moving a worker to the finished ones only changes the pools. -/
theorem sameControl_finishWorker (s : JobDispatcher) (source : Option ℕ) :
    SameControl s (s.finishWorker source) := by
  unfold finishWorker
  split
  · split <;> exact ⟨rfl, rfl, rfl, rfl⟩
  · exact ⟨rfl, rfl, rfl, rfl⟩

/-- The end of a worker's thread only changes the worker. -/
theorem sameControl_endThread (s : JobDispatcher) (source : Option ℕ) :
    SameControl s (s.endThread source) := by
  unfold endThread
  split <;> exact ⟨rfl, rfl, rfl, rfl⟩

/-- What a move of a call does to the count, and that it stays quiet once the flag is set. -/
structure CallMoves.Keeps (s : JobDispatcher) (c : MessageCall)
    (next : JobDispatcher × List MessageCall) : Prop where
  shutdownPending : next.1.shutdownPending = s.shutdownPending
  dispatcher : next.1.pc = s.pc
  count : next.1.msgProcCount + countedCalls [c] = s.msgProcCount + countedCalls next.2
  quiet : s.shutdownPending = true → c.pc.isQuiet = true → ∀ c' ∈ next.2, c'.pc.isQuiet = true

/-- A move that changes no control, of a call that stays counted. -/
theorem CallMoves.keeps_of_same {s s' : JobDispatcher} {source : Option ℕ} {pc pc' : MessagePc}
    (h : SameControl s s') (hcounted : pc'.isCounted = pc.isCounted)
    (hquiet : s.shutdownPending = true → pc.isQuiet = true → pc'.isQuiet = true) :
    CallMoves.Keeps s ⟨source, pc⟩ (s', [⟨source, pc'⟩]) := by
  refine ⟨h.shutdownPending, h.pc, ?_, fun hflag hpc c hc => ?_⟩
  · rw [countedCalls_cons, countedCalls_cons, hcounted, h.msgProcCount]
  · cases List.mem_singleton.mp hc
    exact hquiet hflag hpc

/-- The moves of a call. -/
theorem CallMoves.keeps {s : JobDispatcher} {source : Option ℕ} {pc : MessagePc} {n : ℕ}
    {next : JobDispatcher × List MessageCall} (hmoves : CallMoves s source pc n next) :
    CallMoves.Keeps s ⟨source, pc⟩ next := by
  cases hmoves with
  | enter =>
    refine ⟨rfl, rfl, ?_, fun _ _ c hc => ?_⟩
    · simp [MessagePc.isCounted]
    · cases List.mem_singleton.mp hc
      rfl
  | refused => exact keeps_of_same ⟨rfl, rfl, rfl, rfl⟩ rfl fun _ _ => rfl
  | admitted _ hflag =>
    refine keeps_of_same ⟨rfl, rfl, rfl, rfl⟩ rfl fun hset _ => ?_
    rw [hflag] at hset
    contradiction
  | lookup => exact keeps_of_same (sameControl_finishWorker s source) rfl fun _ h => nomatch h
  | create => exact keeps_of_same ⟨rfl, rfl, rfl, rfl⟩ rfl fun _ h => nomatch h
  | assign _ job rest s' _ _ hassign =>
    exact keeps_of_same (sameControl_assignJob hassign) rfl fun _ h => nomatch h
  | assigned => exact keeps_of_same ⟨rfl, rfl, rfl, rfl⟩ rfl fun _ h => nomatch h
  | leave =>
    refine ⟨rfl, rfl, ?_, fun _ _ c hc => ?_⟩
    · simp [MessagePc.isCounted]
    · cases List.mem_singleton.mp hc
      rfl
  | finish =>
    have h := sameControl_endThread s source
    refine ⟨h.shutdownPending, h.pc, ?_, fun _ _ c hc => nomatch hc⟩
    rw [h.msgProcCount]
    rfl

/-- A move of a call keeps the shutdown quiet. -/
theorem Quiet.call {s : JobDispatcher} (h : s.Quiet) {i : ℕ} {c : MessageCall}
    (hi : s.calls[i]? = some c) {next : JobDispatcher × List MessageCall}
    (hkeeps : CallMoves.Keeps s c next) :
    Quiet { next.1 with calls := replaceAt s.calls i next.2 } := by
  obtain ⟨l, r, hsplit, hreplace⟩ := exists_split hi
  rw [hreplace]
  refine ⟨?_, fun hpc => ?_, fun hpc => ?_⟩
  · have hcount := h.count
    have hmove := hkeeps.count
    rw [hsplit, ← List.singleton_append, countedCalls_append, countedCalls_append] at hcount
    rw [countedCalls_append, countedCalls_append]
    push_cast at hcount ⊢
    omega
  · rw [hkeeps.dispatcher] at hpc
    rw [hkeeps.shutdownPending]
    exact h.flag hpc
  · rw [hkeeps.dispatcher] at hpc
    have hquiet := h.quiet hpc
    have hflag := h.flag (afterFlag_of_afterSpin hpc)
    exact forall_mem_replaced hsplit hquiet (fun _ _ hu => hu)
      (hkeeps.quiet hflag (hquiet c (mem_of_split hsplit)))

/-- A message that arrives keeps the shutdown quiet. -/
theorem Quiet.deliver {s : JobDispatcher} (h : s.Quiet) (source : Option ℕ)
    (workers : ℕ → JobWorker) :
    Quiet { s with workers := workers, calls := ⟨source, .entered⟩ :: s.calls } := by
  refine ⟨?_, h.flag, fun hpc c hc => ?_⟩
  · rw [countedCalls_cons, h.count]
    simp [MessagePc.isCounted]
  · rcases List.mem_cons.mp hc with rfl | hmem
    · rfl
    · exact h.quiet hpc c hmem

/-- Where no call is counted, every call is before the check of the flag, or past everything. -/
theorem isQuiet_of_countedCalls {calls : List MessageCall} (hzero : countedCalls calls = 0)
    (c : MessageCall) (hc : c ∈ calls) : c.pc.isQuiet = true := by
  have hnot := List.countP_eq_zero.mp hzero c hc
  cases hpc : c.pc with
  | entered => rfl
  | left => rfl
  | counted => rfl
  | leaving => rfl
  | lookup => exact (hnot (by rw [hpc]; rfl)).elim
  | create => exact (hnot (by rw [hpc]; rfl)).elim
  | assign jobs => exact (hnot (by rw [hpc]; rfl)).elim

/-- A step of the dispatcher keeps the shutdown quiet. -/
theorem Quiet.dispatcher {limits : Limits} {s s' : JobDispatcher} (h : s.Quiet)
    (hmoves : DispatcherMoves limits s s') : s'.Quiet := by
  have hsame {t : JobDispatcher} (hcount : t.msgProcCount = s.msgProcCount)
      (hcalls : t.calls = s.calls) (hflag : t.shutdownPending = s.shutdownPending)
      (hafterFlag : t.pc.afterFlag = true → s.pc.afterFlag = true)
      (hafterSpin : t.pc.afterSpin = true → s.pc.afterSpin = true) : t.Quiet := by
    refine ⟨?_, fun hpc => ?_, fun hpc => ?_⟩
    · rw [hcount, hcalls]
      exact h.count
    · rw [hflag]
      exact h.flag (hafterFlag hpc)
    · rw [hcalls]
      exact h.quiet (hafterSpin hpc)
  cases hmoves with
  | stopLoop hpc hflag => exact ⟨h.count, fun _ => hflag, fun hspin => nomatch hspin⟩
  | round => exact hsame rfl rfl rfl (fun hx => nomatch hx) fun hx => nomatch hx
  | takeFinished => exact hsame rfl rfl rfl (fun hx => nomatch hx) fun hx => nomatch hx
  | joined p w rest hpc =>
    rw [hpc] at hsame
    cases p <;> exact hsame rfl rfl rfl (fun hx => hx) fun hx => hx
  | cleared p hpc =>
    cases p with
    | tmp => exact hsame rfl rfl rfl (fun hx => nomatch hx) fun hx => nomatch hx
    | free => exact hsame rfl rfl rfl (fun _ => by rw [hpc]; rfl) fun _ => by rw [hpc]; rfl
    | active => exact hsame rfl rfl rfl (fun _ => by rw [hpc]; rfl) fun _ => by rw [hpc]; rfl
    | finished => exact hsame rfl rfl rfl (fun _ => by rw [hpc]; rfl) fun _ => by rw [hpc]; rfl
  | refill hpc =>
    have hspawn := sameControl_spawnWorkers s (spawnCount limits s.freeWorkers.length)
    exact hsame hspawn.msgProcCount hspawn.calls hspawn.shutdownPending (fun hx => nomatch hx)
      fun hx => nomatch hx
  | idle hpc hcount =>
    have hzero : countedCalls s.calls = 0 := by
      have := h.count
      omega
    exact ⟨h.count, fun _ => h.flag (by rw [hpc]; rfl), fun _ => isQuiet_of_countedCalls hzero⟩
  | stopFree hpc => exact hsame rfl rfl rfl (fun _ => by rw [hpc]; rfl) fun _ => by rw [hpc]; rfl
  | dismiss w rest hpc =>
    exact hsame rfl rfl rfl (fun _ => by rw [hpc]; rfl) fun _ => by rw [hpc]; rfl
  | dismissed hpc => exact hsame rfl rfl rfl (fun _ => by rw [hpc]; rfl) fun _ => by rw [hpc]; rfl
  | stop p hp hpc =>
    rw [hpc] at hsame
    cases p <;> exact hsame rfl rfl rfl (fun hx => hx) fun hx => hx
  | done hpc => exact hsame rfl rfl rfl (fun _ => by rw [hpc]; rfl) fun _ => by rw [hpc]; rfl

/-- Everything the thread of a worker can do, with what it needs. -/
inductive WorkerMoves (s : JobDispatcher) (w : ℕ) : JobDispatcher → Prop
  | start (hpc : (s.workers w).pc = .waiting) (hw : w < s.workerID)
      (hset : (s.workers w).jobSet = true) :
      WorkerMoves s w { s with
        workers := Function.update s.workers w { s.workers w with
          pc := if (s.workers w).job.isSome then .executing else .exited } }
  | report (hpc : (s.workers w).pc = .executing) :
      WorkerMoves s w { s with
        workers := Function.update s.workers w { s.workers w with job := none, pc := .sending }
        calls := ⟨some w, .entered⟩ :: s.calls }

/-- The thread of a worker does nothing else. -/
theorem workerStep_moves {s s' : JobDispatcher} {w : ℕ} (hstep : s.workerStep w = some s') :
    WorkerMoves s w s' := by
  unfold workerStep at hstep
  dsimp only at hstep
  split at hstep
  · rename_i hpc
    simp only [Option.ite_none_right_eq_some, Option.some.injEq] at hstep
    obtain ⟨⟨hw, hset⟩, rfl⟩ := hstep
    exact .start hpc hw hset
  · rename_i hpc
    cases hstep
    exact .report hpc
  · cases hstep
  · cases hstep

/-- Every step keeps the shutdown quiet. -/
theorem Quiet.step {limits : Limits} {s s' : JobDispatcher} {a : DispatcherAction} (h : s.Quiet)
    (hstep : s.step limits a = some s') : s'.Quiet := by
  cases a with
  | message =>
    cases hstep
    exact h.deliver none s.workers
  | call i created =>
    obtain ⟨c, hi, hrest⟩ := Option.bind_eq_some_iff.mp hstep
    obtain ⟨next, hnext, rfl⟩ := Option.map_eq_some_iff.mp hrest
    exact h.call hi (callStep_moves hnext).keeps
  | worker w =>
    cases workerStep_moves hstep with
    | start => exact ⟨h.count, h.flag, h.quiet⟩
    | report => exact h.deliver (some w) _
  | dispatcher => exact h.dispatcher (dispatcherStep_moves hstep)
  | shutdown =>
    cases hstep
    exact ⟨h.count, fun _ => rfl, h.quiet⟩

/-- The shutdown is quiet in every state that the dispatcher reaches. -/
theorem quiet_of_run {limits : Limits} {actions : List DispatcherAction} {s : JobDispatcher}
    (hrun : runActions (JobDispatcher.step limits) initial actions = some s) : s.Quiet := by
  have hinitial : initial.Quiet :=
    ⟨rfl, (fun hpc => nomatch hpc), fun hpc => nomatch hpc⟩
  exact runActions_invariant (fun _ _ _ h hstep => h.step hstep) hinitial hrun

/-- The dispatcher does not go back behind the check of the count. -/
theorem afterSpin_of_step {limits : Limits} {s s' : JobDispatcher} {a : DispatcherAction}
    (hstep : s.step limits a = some s') (hspin : s.pc.afterSpin = true) :
    s'.pc.afterSpin = true := by
  cases a with
  | message =>
    cases hstep
    exact hspin
  | call i created =>
    obtain ⟨c, -, hrest⟩ := Option.bind_eq_some_iff.mp hstep
    obtain ⟨next, hnext, rfl⟩ := Option.map_eq_some_iff.mp hrest
    have hsame := (callStep_moves hnext).keeps.dispatcher
    change next.1.pc.afterSpin = true
    rw [hsame]
    exact hspin
  | worker w =>
    cases workerStep_moves hstep with
    | start => exact hspin
    | report => exact hspin
  | dispatcher =>
    cases dispatcherStep_moves hstep with
    | stopLoop hpc | round hpc | takeFinished hpc | refill hpc | idle hpc =>
      rw [hpc] at hspin
      contradiction
    | joined p w rest hpc =>
      rw [hpc] at hspin
      cases p <;> exact hspin
    | cleared p hpc =>
      rw [hpc] at hspin
      cases p with
      | tmp => contradiction
      | _ => rfl
    | stop p hp hpc =>
      rw [hpc] at hspin
      cases p <;> exact hspin
    | _ => rfl
  | shutdown =>
    cases hstep
    exact hspin

/-- A quiet call neither changes a pool nor creates a job. -/
theorem CallMoves.pools_eq {s : JobDispatcher} {source : Option ℕ} {pc : MessagePc} {n : ℕ}
    {next : JobDispatcher × List MessageCall} (hmoves : CallMoves s source pc n next)
    (hquiet : pc.isQuiet = true) :
    next.1.freeWorkers = s.freeWorkers ∧ next.1.activeWorkers = s.activeWorkers ∧
      next.1.finishedWorkers = s.finishedWorkers ∧ next.1.nextJob = s.nextJob := by
  cases hmoves with
  | lookup | create | assign | assigned => contradiction
  | finish =>
    unfold endThread
    split <;> exact ⟨rfl, rfl, rfl, rfl⟩
  | _ => exact ⟨rfl, rfl, rfl, rfl⟩

/-- A quiet call waits for no lock. -/
theorem waitsForLock_of_isQuiet {pc : MessagePc} (hquiet : pc.isQuiet = true) :
    pc.waitsForLock = false := by
  cases pc with
  | lookup => contradiction
  | assign jobs => contradiction
  | _ => rfl

/-- Once the dispatcher has read a count of zero, no call of `OnMessage` waits for a lock, changes
a pool or creates a job any more. So the thread of a worker that the dispatcher waits for under a
lock does not wait for a lock either. -/
theorem shutdown_quiescent (limits : Limits) (before after : List DispatcherAction)
    (s t : JobDispatcher) (hbefore : runActions (JobDispatcher.step limits) initial before = some s)
    (hobserved : s.pc.afterSpin = true)
    (hafter : runActions (JobDispatcher.step limits) s after = some t) :
    (∀ c ∈ t.calls, c.pc.waitsForLock = false) ∧
    (∀ i created u, t.step limits (.call i created) = some u →
      u.freeWorkers = t.freeWorkers ∧ u.activeWorkers = t.activeWorkers ∧
        u.finishedWorkers = t.finishedWorkers ∧ u.nextJob = t.nextJob) ∧
    ∀ w, t.pc.joinsLocked = some w → ∀ c ∈ t.calls, c.source = some w →
      c.pc.waitsForLock = false := by
  have hrun : runActions (JobDispatcher.step limits) initial (before ++ after) = some t := by
    rw [runActions_append, hbefore]
    exact hafter
  have hspin : t.pc.afterSpin = true :=
    runActions_invariant (fun _ _ _ hs hstep => afterSpin_of_step hstep hs) hobserved hafter
  have hquiet := (quiet_of_run hrun).quiet hspin
  have hfree (c : MessageCall) (hc : c ∈ t.calls) : c.pc.waitsForLock = false :=
    waitsForLock_of_isQuiet (hquiet c hc)
  refine ⟨hfree, fun i created u hstep => ?_, fun _ _ c hc _ => hfree c hc⟩
  obtain ⟨c, hi, hrest⟩ := Option.bind_eq_some_iff.mp hstep
  obtain ⟨next, hnext, rfl⟩ := Option.map_eq_some_iff.mp hrest
  exact (callStep_moves hnext).pools_eq (hquiet c (List.mem_of_getElem? hi))

/-- A client is served by a worker, which is still busy when the shutdown starts. -/
def busyShutdown : List DispatcherAction :=
  [.message, .call 0 0, .call 0 0, .call 0 0, .call 0 1, .call 0 0, .call 0 0, .call 0 0, .call 0 0,
    .shutdown, .dispatcher, .dispatcher]

/-- The worker reports while the dispatcher waits for it. -/
def lateReport : List DispatcherAction :=
  [.dispatcher, .dispatcher, .dispatcher, .dispatcher, .worker 0, .worker 0, .call 0 0]

/-- The report of the last job waits for no lock. -/
theorem shutdown_quiescent_lateReport :
    ∃ s t, runActions (JobDispatcher.step ⟨2, 2⟩) initial busyShutdown = some s ∧
      s.pc.afterSpin = true ∧
      runActions (JobDispatcher.step ⟨2, 2⟩) s lateReport = some t ∧
      t.pc.joinsLocked = some 0 ∧ t.calls = [⟨some 0, .counted⟩] ∧
      ∀ c ∈ t.calls, c.pc.waitsForLock = false :=
  ⟨_, _, rfl, rfl, rfl, rfl, rfl,
    (shutdown_quiescent ⟨2, 2⟩ busyShutdown lateReport _ _ rfl rfl rfl).1⟩

end JobDispatcher

end TinySox
