import TinySox.HandlerIds

/-!
# Every method of the registry comes to its end

The methods of `TCPCommService` and the worker share one lock, and some of them make system calls while
they hold it. Whoever holds it can always go on, and nobody makes more than a few steps, so no call
waits forever for another one or for the worker.
-/

namespace TinySox

open TinySox.Common

/-- Who holds the lock at this point of a method. -/
def CommOp.inside : CommOp → ℕ
  | .register _ _ | .deregister _ | .closeDisposed _ => 1
  | .connect _ | .closeFailed _ _ | .create _ | .dispose _ | .get _ => 0

/-- The most steps that a method still makes. -/
def CommOp.stepsLeft : CommOp → ℕ
  | .connect _ | .dispose _ => 3
  | .create _ | .deregister _ => 2
  | .closeFailed _ _ | .register _ _ | .closeDisposed _ | .get _ => 1

/-- No method makes more than three steps. -/
theorem CommOp.stepsLeft_le (op : CommOp) : op.stepsLeft ≤ 3 := by
  cases op <;> simp [stepsLeft]

/-- The worker holds the lock while it passes events on. -/
def CommWorkerPc.inside : CommWorkerPc → ℕ
  | .handling _ => 1
  | .waiting | .fetched _ | .done => 0

/-- The most steps that the worker still makes before it waits for events again, or ends. -/
def CommWorkerPc.stepsLeft : CommWorkerPc → ℕ
  | .waiting => 1
  | .fetched events => events.length + 3
  | .handling events => events.length + 2
  | .done => 0

namespace CommAction

/-- A thread inside a method goes on, or the worker does. -/
def isStep : CommAction → Bool
  | .op _ _ | .worker => true
  | _ => false

/-- A call begins, or the worker gets events. -/
def bringsWork : CommAction → Bool
  | .createHandlerFromSocket _ | .connectAndCreateHandler _ | .disposeHandler _ | .getHandler _
  | .fetch _ => true
  | _ => false

end CommAction

namespace TCPCommService

variable {s t : TCPCommService}

/-- The lock is taken if and only if one of the methods holds it, or the worker. -/
def LockHeld (s : TCPCommService) : Prop :=
  (s.ops.map CommOp.inside).sum + s.worker.inside = if s.locked then 1 else 0

/-- The most steps that the methods and the worker still make. -/
def stepsLeft (s : TCPCommService) : ℕ := (s.ops.map CommOp.stepsLeft).sum + s.worker.stepsLeft

/-- `close` takes place under the lock or without it. -/
theorem close_lock (s : TCPCommService) (fd : Descriptor) (r : CallResult) :
    (s.close fd r).locked = s.locked ∧ (s.close fd r).worker = s.worker := by
  unfold close
  split <;> exact ⟨rfl, rfl⟩

/-- Passing an event on does not concern the lock. -/
theorem handle_lock (s : TCPCommService) (e : EpollEvent) :
    (s.handle e).ops = s.ops ∧ (s.handle e).locked = s.locked := by
  unfold TCPCommService.handle
  split <;> exact ⟨rfl, rfl⟩

/-- Opening a descriptor does not, either. -/
theorem allot_lock {fd : ℕ} {d : Descriptor} {s' : TCPCommService} (hallot : s.allot fd = some (d, s')) :
    s'.ops = s.ops ∧ s'.locked = s.locked ∧ s'.worker = s.worker := by
  unfold TCPCommService.allot at hallot
  split at hallot
  · contradiction
  · cases hallot
    exact ⟨rfl, rfl, rfl⟩

/-- A step of a method leaves it less to do. -/
theorem OpMoves.less {op : CommOp} {r : CallResult} {s' : TCPCommService} {news : List CommOp}
    (hmoves : OpMoves s r op s' news) : (news.map CommOp.stepsLeft).sum + 1 ≤ op.stepsLeft := by
  cases hmoves <;> simp [CommOp.stepsLeft]

/-- What a step of a method does to the lock. -/
theorem OpMoves.lock {op : CommOp} {r : CallResult} {s' : TCPCommService} {news : List CommOp}
    (hmoves : OpMoves s r op s' news) :
    s'.worker = s.worker ∧
      (s'.locked = s.locked ∧ (news.map CommOp.inside).sum = op.inside ∨
        s.locked = false ∧ s'.locked = true ∧ op.inside = 0 ∧ (news.map CommOp.inside).sum = 1 ∨
        s'.locked = false ∧ op.inside = 1 ∧ (news.map CommOp.inside).sum = 0) := by
  cases hmoves with
  | connected | refused | unknown | deregistered | got => exact ⟨rfl, .inl ⟨rfl, rfl⟩⟩
  | @closedFailed fd =>
    obtain ⟨hlocked, hworker⟩ := s.close_lock fd r
    exact ⟨hworker, .inl ⟨hlocked, rfl⟩⟩
  | created hfree | erased hfree =>
    exact ⟨rfl, .inr (.inl ⟨Bool.of_not_eq_true hfree, rfl, rfl, rfl⟩)⟩
  | registered => exact ⟨rfl, .inr (.inr ⟨rfl, rfl, rfl⟩)⟩
  | @closedDisposed fd => exact ⟨(s.close_lock fd r).2, .inr (.inr ⟨rfl, rfl, rfl⟩)⟩

/-- A step of a method keeps the lock in agreement with who holds it. -/
theorem LockHeld.op (h : s.LockHeld) {i : ℕ} {op : CommOp} {r : CallResult} {s' : TCPCommService}
    {news : List CommOp} (hop : s.ops[i]? = some op) (hmoves : OpMoves s r op s' news) :
    LockHeld { s' with ops := replaceAt s.ops i news } := by
  obtain ⟨hworker, hlock⟩ := hmoves.lock
  have hsum := sum_map_replaceAt hop CommOp.inside news
  unfold LockHeld at h ⊢
  dsimp only
  rw [hworker]
  rcases hlock with ⟨hsame, hinside⟩ | ⟨hfree, htaken, hbefore, hafter⟩ | ⟨hfree, hbefore, hafter⟩
  · rw [hsame]
    omega
  · rw [hfree, if_neg Bool.false_ne_true] at h
    rw [htaken, if_pos rfl]
    omega
  · rw [hfree, if_neg Bool.false_ne_true]
    split_ifs at h <;> omega

/-- A step of the worker, too. -/
theorem LockHeld.worker (h : s.LockHeld) (hstep : s.workerStep = some t) : t.LockHeld := by
  unfold LockHeld at h ⊢
  cases hpc : s.worker with
  | waiting =>
    rw [workerStep, hpc] at hstep
    obtain ⟨-, hstep⟩ := Option.ite_none_right_eq_some.mp hstep
    cases hstep
    rw [hpc] at h
    exact h
  | fetched events =>
    rw [workerStep, hpc] at hstep
    obtain ⟨hfree, hstep⟩ := Option.ite_none_left_eq_some.mp hstep
    cases hstep
    rw [hpc, if_neg hfree] at h
    exact congrArg (· + 1) h
  | handling events =>
    rw [hpc] at h
    cases events with
    | nil =>
      rw [workerStep, hpc] at hstep
      cases hstep
      simp only [CommWorkerPc.inside, Bool.false_eq_true, if_false] at h ⊢
      split_ifs at h
      exact Nat.succ.inj h
    | cons e rest =>
      rw [workerStep, hpc] at hstep
      cases hstep
      obtain ⟨hops, hlocked⟩ := s.handle_lock e
      rw [hops, hlocked]
      exact h
  | done =>
    rw [workerStep, hpc] at hstep
    contradiction

/-- What other steps do: a call begins, a batch of events arrives, or nothing happens to the threads. -/
inductive OtherMoves (s : TCPCommService) (act : CommAction) : TCPCommService → Prop
  | begins {op : CommOp} {t : TCPCommService} (hops : t.ops = s.ops ++ [op])
      (hsame : t.locked = s.locked ∧ t.worker = s.worker) (hinside : op.inside = 0)
      (hwork : act.bringsWork = true) : OtherMoves s act t
  | fetched {events : List EpollEvent} (hact : act = .fetch events) (hpc : s.worker = .waiting) :
    OtherMoves s act { s with worker := .fetched events }
  | ended (hpc : s.worker = .waiting) : OtherMoves s act { s with worker := .done }
  | none {t : TCPCommService}
      (hsame : t.ops = s.ops ∧ t.locked = s.locked ∧ t.worker = s.worker) : OtherMoves s act t

/-- Every step that is none of a method or of the worker is one of these. -/
theorem step_otherMoves {act : CommAction} (hother : act.isStep = false) (hstep : s.step act = some t) :
    OtherMoves s act t := by
  cases act with
  | op | worker => contradiction
  | acquire fd =>
    obtain ⟨⟨d, s'⟩, hallot, rfl⟩ := Option.map_eq_some_iff.mp hstep
    obtain ⟨hops, hlocked, hworker⟩ := allot_lock hallot
    exact .none ⟨hops, hlocked, hworker⟩
  | release fd =>
    obtain ⟨-, hstep⟩ := Option.ite_none_right_eq_some.mp hstep
    cases hstep
    exact .none ⟨rfl, rfl, rfl⟩
  | createHandlerFromSocket fd =>
    obtain ⟨-, hstep⟩ := Option.ite_none_right_eq_some.mp hstep
    cases hstep
    exact .begins rfl ⟨rfl, rfl⟩ rfl rfl
  | connectAndCreateHandler socket =>
    cases socket with
    | none =>
      cases hstep
      exact .none ⟨rfl, rfl, rfl⟩
    | some fd =>
      obtain ⟨⟨d, s'⟩, hallot, rfl⟩ := Option.map_eq_some_iff.mp hstep
      exact .begins rfl (allot_lock hallot).2 rfl rfl
  | disposeHandler | getHandler =>
    cases hstep
    exact .begins rfl ⟨rfl, rfl⟩ rfl rfl
  | requestShutdown =>
    cases hstep
    exact .none ⟨rfl, rfl, rfl⟩
  | fetch events =>
    obtain ⟨⟨hpc, -⟩, hstep⟩ := Option.ite_none_right_eq_some.mp hstep
    cases hstep
    exact .fetched rfl hpc
  | fetchFails =>
    obtain ⟨hpc, hstep⟩ := Option.ite_none_right_eq_some.mp hstep
    cases hstep
    exact .ended hpc

/-- No other step takes the lock or gives it back. -/
theorem LockHeld.other (h : s.LockHeld) {act : CommAction} (hmoves : OtherMoves s act t) : t.LockHeld := by
  unfold LockHeld at h ⊢
  cases hmoves with
  | begins hops hsame hinside =>
    rw [hops, hsame.1, hsame.2, List.map_append, List.sum_append, List.map_singleton, List.sum_singleton,
      hinside]
    exact h
  | fetched _ hpc | ended hpc =>
    rw [hpc] at h
    exact h
  | none hsame =>
    rw [hsame.1, hsame.2.1, hsame.2.2]
    exact h

/-- The lock is in agreement with who holds it after every step. -/
theorem LockHeld.step (h : s.LockHeld) {act : CommAction} (hstep : s.step act = some t) : t.LockHeld := by
  cases hact : act.isStep with
  | false => exact h.other (step_otherMoves hact hstep)
  | true =>
    cases act with
    | op i r =>
      obtain ⟨op, hop, hrest⟩ := Option.bind_eq_some_iff.mp hstep
      obtain ⟨⟨s', news⟩, hadvance, rfl⟩ := Option.map_eq_some_iff.mp hrest
      exact h.op hop (advance_moves hadvance)
    | worker => exact h.worker hstep
    | _ => contradiction

/-- A step of the worker leaves it less to do. -/
theorem worker_less (hstep : s.workerStep = some t) :
    t.ops = s.ops ∧ t.worker.stepsLeft + 1 ≤ s.worker.stepsLeft := by
  cases hpc : s.worker with
  | waiting =>
    rw [workerStep, hpc] at hstep
    obtain ⟨-, hstep⟩ := Option.ite_none_right_eq_some.mp hstep
    cases hstep
    exact ⟨rfl, Nat.le_refl _⟩
  | fetched events =>
    rw [workerStep, hpc] at hstep
    obtain ⟨-, hstep⟩ := Option.ite_none_left_eq_some.mp hstep
    cases hstep
    exact ⟨rfl, Nat.le_refl _⟩
  | handling events =>
    cases events with
    | nil =>
      rw [workerStep, hpc] at hstep
      cases hstep
      exact ⟨rfl, Nat.le_refl _⟩
    | cons e rest =>
      rw [workerStep, hpc] at hstep
      cases hstep
      exact ⟨(s.handle_lock e).1, Nat.le_refl _⟩
  | done =>
    rw [workerStep, hpc] at hstep
    contradiction

/-- What a step leaves to do: less if it is one of a method or of the worker, and more only if it brings
work, if a batch has at most `K` events. -/
theorem stepsLeft_of_step {K : ℕ} {act : CommAction}
    (hbatch : ∀ events, act = .fetch events → events.length ≤ K) (hstep : s.step act = some t) :
    t.stepsLeft + (if act.isStep then 1 else 0) ≤ s.stepsLeft + if act.bringsWork then K + 3 else 0 := by
  unfold stepsLeft
  cases hact : act.isStep with
  | false =>
    rw [if_neg Bool.false_ne_true]
    cases step_otherMoves hact hstep with
    | @begins op _ hops hsame _ hwork =>
      have hfew := op.stepsLeft_le
      rw [hops, hsame.2, hwork, if_pos rfl, List.map_append, List.sum_append, List.map_singleton,
        List.sum_singleton]
      omega
    | fetched hevents hpc =>
      have hfew := hbatch _ hevents
      rw [hevents, hpc, CommAction.bringsWork, if_pos rfl]
      simp only [CommWorkerPc.stepsLeft]
      omega
    | ended hpc =>
      rw [hpc]
      simp only [CommWorkerPc.stepsLeft]
      omega
    | none hsame =>
      rw [hsame.1, hsame.2.2]
      exact Nat.le_add_right _ _
  | true =>
    rw [if_pos rfl]
    cases act with
    | op i r =>
      obtain ⟨op, hop, hrest⟩ := Option.bind_eq_some_iff.mp hstep
      obtain ⟨⟨s', news⟩, hadvance, rfl⟩ := Option.map_eq_some_iff.mp hrest
      have hmoves := advance_moves hadvance
      have hsum := sum_map_replaceAt hop CommOp.stepsLeft news
      have hless := hmoves.less
      have hworker := hmoves.lock.1
      dsimp only
      rw [hworker]
      omega
    | worker =>
      obtain ⟨hops, hless⟩ := worker_less hstep
      rw [hops]
      omega
    | _ => contradiction

/-- A method that cannot go on waits for the lock. -/
theorem waits_of_stuck {i : ℕ} {op : CommOp} (hop : s.ops[i]? = some op)
    (hstuck : s.step (.op i ⟨true, 0, true⟩) = none) : op.inside = 0 ∧ s.locked = true := by
  rw [step, hop, Option.bind_some, Option.map_eq_none_iff] at hstuck
  cases op with
  | connect | closeFailed | register | deregister | closeDisposed => contradiction
  | create | get =>
    refine ⟨rfl, ?_⟩
    by_contra hfree
    rw [advance, if_neg hfree] at hstuck
    contradiction
  | dispose id =>
    refine ⟨rfl, ?_⟩
    by_contra hfree
    rw [advance, if_neg hfree] at hstuck
    split at hstuck <;> contradiction

/-- A worker that cannot go on does not hold the lock, and waits for events unless it waits for the
lock. -/
theorem worker_of_stuck (hstuck : s.step .worker = none) :
    s.worker.inside = 0 ∧ (s.locked = false → s.worker = .waiting ∨ s.worker = .done) := by
  rw [step] at hstuck
  cases hpc : s.worker with
  | waiting => exact ⟨rfl, fun _ => .inl rfl⟩
  | done => exact ⟨rfl, fun _ => .inr rfl⟩
  | fetched events =>
    refine ⟨rfl, fun hfree => ?_⟩
    rw [workerStep, hpc] at hstuck
    dsimp only at hstuck
    rw [hfree, if_neg Bool.false_ne_true] at hstuck
    contradiction
  | handling events => cases events <;> rw [workerStep, hpc] at hstuck <;> contradiction

/-- Where nobody can go on, no method is under way, and the lock is free. -/
theorem LockHeld.idle (h : s.LockHeld)
    (hstuck : ∀ act : CommAction, act.isStep = true → s.step act = none) :
    s.ops = [] ∧ s.locked = false ∧ (s.worker = .waiting ∨ s.worker = .done) := by
  have hwaits (op : CommOp) (hop : op ∈ s.ops) : op.inside = 0 ∧ s.locked = true := by
    obtain ⟨i, hi⟩ := List.mem_iff_getElem?.mp hop
    exact waits_of_stuck hi (hstuck _ rfl)
  obtain ⟨hworker, hrests⟩ := worker_of_stuck (hstuck .worker rfl)
  have hnobody : (s.ops.map CommOp.inside).sum = 0 :=
    List.sum_eq_zero fun n hn => by
      obtain ⟨op, hop, rfl⟩ := List.mem_map.mp hn
      exact (hwaits op hop).1
  have hfree : s.locked = false := by
    by_contra htaken
    unfold LockHeld at h
    rw [hnobody, hworker, if_pos (Bool.of_not_eq_false htaken)] at h
    omega
  refine ⟨List.eq_nil_iff_forall_not_mem.mpr fun op hop => ?_, hfree, hrests hfree⟩
  have htaken := (hwaits op hop).2
  rw [hfree] at htaken
  contradiction

/-- If the lock is free at the start, then from every state that the service reaches the methods and the
worker make a bounded number of steps, `K + 3` more for each call that begins and for each batch of at
most `K` events; and where none of them can go on, no method is under way, the lock is free, and the
worker waits for events or has ended. -/
theorem methods_complete {s₀ : TCPCommService} {before later : List CommAction} {K : ℕ}
    (hfresh : s₀.Fresh) (hunlocked : s₀.locked = false) (hbefore : runActions step s₀ before = some s)
    (hbatch : ∀ events, .fetch events ∈ later → events.length ≤ K)
    (hlater : runActions step s later = some t) :
    later.countP CommAction.isStep ≤ s.stepsLeft + (K + 3) * later.countP CommAction.bringsWork ∧
      ((∀ act : CommAction, act.isStep = true → t.step act = none) →
        t.ops = [] ∧ t.locked = false ∧ (t.worker = .waiting ∨ t.worker = .done)) := by
  have hheld₀ : s₀.LockHeld := by
    rw [LockHeld, hfresh.ops, hfresh.worker, hunlocked]
    rfl
  have hkept : ∀ (u : TCPCommService) (act : CommAction) (u' : TCPCommService),
      u.LockHeld → u.step act = some u' → u'.LockHeld := fun u act u' h hstep => h.step hstep
  have hheld : t.LockHeld := runActions_invariant hkept (runActions_invariant hkept hheld₀ hbefore) hlater
  have hmeets : RunMeets step (fun _ act => ∀ events, act = .fetch events → events.length ≤ K) s later := by
    refine RunMeets.of_mem (fun act hact events heq => hbatch events ?_) s
    rw [← heq]
    exact hact
  have hless : ∀ (u : TCPCommService) (act : CommAction) (u' : TCPCommService),
      (∀ events, act = .fetch events → events.length ≤ K) → u.step act = some u' →
        u'.stepsLeft + (if act.isStep then 1 else 0) ≤
          u.stepsLeft + if act.bringsWork then K + 3 else 0 :=
    fun u act u' hfew hstep => stepsLeft_of_step hfew hstep
  exact ⟨(Nat.le_add_left _ _).trans (runActions_countP_le hless hmeets hlater), hheld.idle⟩

/-- After a batch with a stale event, no method is under way. -/
theorem methods_complete_staleEvent :
    ∃ t, runActions step listening staleEvent = some t ∧
      staleEvent.countP CommAction.isStep ≤
        listening.stepsLeft + (1 + 3) * staleEvent.countP CommAction.bringsWork ∧
      ((∀ act : CommAction, act.isStep = true → t.step act = none) →
        t.ops = [] ∧ t.locked = false ∧ (t.worker = .waiting ∨ t.worker = .done)) := by
  have hfresh : listening.Fresh :=
    ⟨rfl, rfl, rfl, rfl, rfl, rfl, by decide, by decide, rfl, rfl, rfl, rfl, rfl, rfl, rfl⟩
  have hbatch : ∀ events, .fetch events ∈ staleEvent → events.length ≤ 1 := by
    intro events hmem
    simp [staleEvent] at hmem
    rw [hmem]
    exact Nat.le_refl _
  have hsome : (runActions step listening staleEvent).isSome = true := rfl
  have hrun := (Option.some_get hsome).symm
  exact ⟨_, hrun, methods_complete hfresh rfl (runActions_nil step listening) hbatch hrun⟩

end TCPCommService

end TinySox
