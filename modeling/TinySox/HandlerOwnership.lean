import TinySox.HandlerAccounts
import TinySox.HandshakeTranscript

/-!
# Every handler is in somebody's hands, and in use only while it is registered

Every move of a task keeps the accounts of the handlers, so they hold in every state that the
system reaches. From this it follows that no helper is used after its handler was disposed of, that
no handler is disposed of twice, and that no handler is left when there is no task left.
-/

namespace TinySox

open TinySox.Common

/-- A helper keeps its descriptor. -/
theorem TransferMoves.fd_eq {helper : TCPCommHelper} {errno : ℕ} {f : TransferFrame}
    {a : TransferAction} {res : TransferResult} (hmoves : TransferMoves helper errno f a res) :
    res.helper.fd = helper.fd := by
  have hseen (c : ℕ) : (helper.markSeen c).fd = helper.fd := by
    unfold TCPCommHelper.markSeen
    split <;> rfl
  have herror (g : TCPCommHelper) : (g.markError errno).fd = g.fd := by
    unfold TCPCommHelper.markError
    split <;> rfl
  cases hmoves with
  | partialDone c => exact hseen c
  | failed c | again c => exact (herror _).trans (hseen c)
  | _ => rfl

/-- A notice changes no descriptor. -/
theorem TCPCommHelper.notify_fd (helper : TCPCommHelper) (n : Notice) :
    (helper.notify n).fd = helper.fd := by
  cases n <;> simp only [notify, notifyDataAvail, notifyHUP, cancel] <;> split <;> rfl

/-- Shutting a helper down changes no descriptor. -/
theorem TCPCommHelper.shutdown_fd (helper : TCPCommHelper) :
    helper.shutdown.1.fd = helper.fd := by
  unfold shutdown
  split <;> rfl

/-- The helpers of a tunnel keep their descriptors. -/
theorem Tunnel.step_fd {buffSz : ℕ} {t t' : Tunnel} {a : TunnelAction}
    (hstep : t.step buffSz a = some t') :
    t'.reader.fd = t.reader.fd ∧ t'.writer.fd = t.writer.fd := by
  cases step_moves hstep with
  | notice side n =>
    cases side with
    | reader => exact ⟨t.reader.notify_fd n, rfl⟩
    | writer => exact ⟨rfl, t.writer.notify_fd n⟩
  | cancel | loop | writerStatus | read | write | readerStatus => exact ⟨rfl, rfl⟩
  | shutdownReader => exact ⟨t.reader.shutdown_fd, rfl⟩
  | shutdownWriter => exact ⟨rfl, t.writer.shutdown_fd⟩
  | reading f a block res hpc hblock hmoves => exact ⟨hmoves.fd_eq, rfl⟩
  | writing dr f a block res hpc hmoves => exact ⟨rfl, hmoves.fd_eq⟩

/-- Everything a task can do, with what it needs. -/
inductive TaskMoves (env : Settings) (sh : Shared) :
    Task → TaskMove → Shared × List Task × List Task → Prop
  | announce (id : ℕ) (hvalid : id ≤ handlerError) :
      TaskMoves env sh (.accepted id) .announce (sh, [.result (.newClient id)], [])
  | failed (id : ℕ) (hfailed : handlerError < id) :
      TaskMoves env sh (.accepted id) .announce (sh, [], [.accepted id])
  | process (r : JobResult) :
      TaskMoves env sh (.result r) .process (sh, [.program (do
        let jobs ← JobFactory.createJobsFromResult r
        pure (.spawn jobs)) r.holdings], [])
  | discard (r : JobResult) : TaskMoves env sh (.result r) .discard (sh, [], [.result r])
  | call (p q : JobProg JobResult Next) (held : Custodian) (e : Event JobOp.Answer) (fd : Int)
      (sh' : Shared) (hfollow : p.follow [e] = some q) (hperform : sh.perform fd e.1 e.2 = some sh') :
      TaskMoves env sh (.program p held) (.call e fd)
        (sh', [.program q (recordHoldings held e.1 e.2)], [])
  | finish (r : JobResult) (held : Custodian) :
      TaskMoves env sh (.program (.exit r) held) .finish (sh, [.result r], [])
  | spawn (jobs : List Job) (held : Custodian) (workers : ℕ) :
      TaskMoves env sh (.program (.pure (.spawn jobs)) held) (.spawn workers)
        (sh, (jobs.take workers).map (Job.start env), (jobs.drop workers).map (Job.start env))
  | enter (state : State) (reader writer : ℕ) (held : Custodian) (t : Tunnel)
      (hpc : t.pc = .loop) :
      TaskMoves env sh
        (.program (.pure (.copy state reader writer t.reader.fd t.writer.fd)) held) (.enter t)
        (sh, [.copying state reader writer t], [])
  | copy (state : State) (reader writer : ℕ) (t t' : Tunnel) (a : TunnelAction)
      (hstep : t.step env.tcpBuffSz a = some t') :
      TaskMoves env sh (.copying state reader writer t) (.copy a)
        (sh, [.copying state reader writer t'], [])
  | leave (state : State) (reader writer : ℕ) (t : Tunnel) (hpc : t.pc = .done) :
      TaskMoves env sh (.copying state reader writer t) .leave
        (sh, [.program (TCPTunnel.terminalResultDisclaim state)
          (Task.copying state reader writer t).holdings], [])

/-- The step function does nothing else. -/
theorem Task.step_moves {env : Settings} {sh : Shared} {task : Task} {move : TaskMove}
    {next : Shared × List Task × List Task} (hstep : task.step env sh move = some next) :
    TaskMoves env sh task move next := by
  unfold step at hstep
  split at hstep
  · split_ifs at hstep with hfailed
    · cases hstep
      exact .failed _ hfailed
    · cases hstep
      exact .announce _ (Nat.not_lt.mp hfailed)
  · cases hstep
    exact .process _
  · cases hstep
    exact .discard _
  · obtain ⟨q, hfollow, hrest⟩ := Option.bind_eq_some_iff.mp hstep
    obtain ⟨sh', hperform, rfl⟩ := Option.map_eq_some_iff.mp hrest
    exact .call _ q _ _ _ sh' hfollow hperform
  · cases hstep
    exact .finish _ _
  · cases hstep
    exact .spawn _ _ _
  · simp only [Option.ite_none_right_eq_some, Option.some.injEq] at hstep
    obtain ⟨⟨hpc, rfl, rfl⟩, rfl⟩ := hstep
    exact .enter _ _ _ _ _ hpc
  · obtain ⟨t', ht', rfl⟩ := Option.map_eq_some_iff.mp hstep
    exact .copy _ _ _ _ t' _ ht'
  · simp only [Option.ite_none_right_eq_some, Option.some.injEq] at hstep
    obtain ⟨hpc, rfl⟩ := hstep
    exact .leave _ _ _ _ hpc
  · cases hstep

/-- The descriptors in the helpers that exist so far. -/
def Shared.Knows (sh : Shared) (fds : ℕ → Option Int) : Prop :=
  ∀ id fd, sh.helperFds id = some fd → fds id = some fd

/-- A task keeps the contract from here on. -/
def Task.Sound (sh : Shared) : Task → Prop
  | .accepted _ => True
  | .result r => r.WellFormed
  | .program p held => ∀ fds, sh.Knows fds → (custody fds).wp Returned (Continues fds) p held
  | .copying state reader writer t => state.ids.Nodup ∧ reader ∈ state.ids ∧ writer ∈ state.ids ∧
      sh.helperFds reader = some t.reader.fd ∧ sh.helperFds writer = some t.writer.fd

/-- A task does not depend on what other tasks do. -/
theorem Task.Sound.mono {sh sh' : Shared} {task : Task} (h : task.Sound sh)
    (hfds : ∀ id fd, sh.helperFds id = some fd → sh'.helperFds id = some fd) : task.Sound sh' := by
  cases task with
  | accepted id => trivial
  | result r => exact h
  | program p held => exact fun fds hknows => h fds fun id fd hfd => hknows id fd (hfds id fd hfd)
  | copying state reader writer t =>
    obtain ⟨hnodup, hreader, hwriter, hr, hw⟩ := h
    exact ⟨hnodup, hreader, hwriter, hfds _ _ hr, hfds _ _ hw⟩

/-- A new job keeps the contract. -/
theorem Job.sound_start {env : Settings} {sh : Shared} {job : Job} (hjob : job.WellFormed) :
    (job.start env).Sound sh := fun _ _ => job.wp_execute hjob

/-- What holds after a move of a task, with the others on both sides. -/
structure TaskMoves.Keeps (sh : Shared) (l r : List Custodian)
    (next : Shared × List Task × List Task) : Prop where
  sound : next.1.Sound
  custody : Custody next.1.objects next.1.Live
    (l ++ ((next.2.1 ++ next.2.2).map Task.holdings ++ r))
  tasks : ∀ task ∈ next.2.1, task.Sound next.1
  helperFds : ∀ id fd, sh.helperFds id = some fd → next.1.helperFds id = some fd

/-- No move takes a handler's number back. -/
theorem TaskMoves.counter_le {env : Settings} {sh : Shared} {task : Task} {move : TaskMove}
    {next : Shared × List Task × List Task} (hmoves : TaskMoves env sh task move next) :
    sh.handlerIdCounter ≤ next.1.handlerIdCounter := by
  cases hmoves with
  | call p q held e fd sh' hfollow hperform =>
    rcases Shared.perform_numbers hperform with hsame | hnext
    · exact hsame.ge
    · exact hnext.ge.trans' (Nat.le_succ _)
  | _ => exact Nat.le_refl _

/-- A move of a task that keeps the contract keeps the accounts, as long as there are few handlers. -/
theorem TaskMoves.keeps {env : Settings} {sh : Shared} {l r : List Custodian} {task : Task}
    {move : TaskMove} {next : Shared × List Task × List Task}
    (hmoves : TaskMoves env sh task move next) (h : sh.Sound)
    (hcustody : Custody sh.objects sh.Live (l ++ task.holdings :: r)) (htask : task.Sound sh)
    (hfew : next.1.FewHandlers) : TaskMoves.Keeps sh l r next := by
  cases hmoves with
  | announce id hvalid =>
    refine ⟨h, hcustody, fun task hmem => ?_, fun _ _ hfd => hfd⟩
    cases List.mem_singleton.mp hmem
    trivial
  | failed id hfailed =>
    exact ⟨h, hcustody, (fun task hmem => nomatch hmem), fun _ _ hfd => hfd⟩
  | process res =>
    refine ⟨h, hcustody, fun task hmem => ?_, fun _ _ hfd => hfd⟩
    cases List.mem_singleton.mp hmem
    intro fds _
    rw [Contract.wp_bind]
    exact JobFactory.wp_createJobsFromResult htask
  | discard res => exact ⟨h, hcustody, (fun task hmem => nomatch hmem), fun _ _ hfd => hfd⟩
  | call p q held e fd sh' hfollow hperform =>
    cases p with
    | pure a => cases hfollow
    | exit res => cases hfollow
    | call o k =>
      have hmay (fds : ℕ → Option Int) (hknows : sh.Knows fds) : (custody fds).may held e.1 := by
        have hwp := htask fds hknows
        simp only [Prog.follow, Option.dite_none_right_eq_some] at hfollow
        obtain ⟨ho, -⟩ := hfollow
        rw [ho]
        exact hwp.1
      have hserves (fds : ℕ → Option Int) (hknows : sh.Knows fds) :
          Shared.Serves fds sh sh' l r held e.1 e.2 :=
        Shared.serves_perform h hcustody hknows (hmay fds hknows) hperform hfew
      have hself : sh.Knows sh.helperFds := fun _ _ hfd => hfd
      have hfds := (hserves _ hself).helperFds
      refine ⟨(hserves _ hself).sound, (hserves _ hself).custody, fun task hmem => ?_, hfds⟩
      cases List.mem_singleton.mp hmem
      intro fds hknows
      have hknows' : sh.Knows fds := fun id fd hfd => hknows id fd (hfds id fd hfd)
      exact Contract.wp_follow hfollow (htask fds hknows') ⟨(hserves fds hknows').gives, trivial⟩
  | finish res held =>
    obtain ⟨hres, rfl⟩ := htask sh.helperFds fun _ _ hfd => hfd
    refine ⟨h, hcustody, fun task hmem => ?_, fun _ _ hfd => hfd⟩
    cases List.mem_singleton.mp hmem
    exact hres
  | spawn jobs held workers =>
    obtain ⟨hjobs, hsplit⟩ := htask sh.helperFds fun _ _ hfd => hfd
    refine ⟨h, ?_, fun task hmem => ?_, fun _ _ hfd => hfd⟩
    · rw [← List.map_append, List.take_append_drop, List.map_map]
      apply hcustody.split
      intro id
      rw [List.map_map]
      exact hsplit id
    · obtain ⟨job, hjob, rfl⟩ := List.mem_map.mp hmem
      exact Job.sound_start (hjobs job (List.mem_of_mem_take hjob))
  | enter state reader writer held t hpc =>
    obtain ⟨⟨hnodup, rfl⟩, hreader, hwriter, hr, hw⟩ := htask sh.helperFds fun _ _ hfd => hfd
    refine ⟨h, hcustody, fun task hmem => ?_, fun _ _ hfd => hfd⟩
    cases List.mem_singleton.mp hmem
    exact ⟨hnodup, hreader, hwriter, hr, hw⟩
  | copy state reader writer t t' a hstep =>
    obtain ⟨hnodup, hreader, hwriter, hr, hw⟩ := htask
    obtain ⟨hreaderFd, hwriterFd⟩ := Tunnel.step_fd hstep
    refine ⟨h, hcustody, fun task hmem => ?_, fun _ _ hfd => hfd⟩
    cases List.mem_singleton.mp hmem
    refine ⟨hnodup, hreader, hwriter, ?_, ?_⟩
    · rw [hreaderFd]
      exact hr
    · rw [hwriterFd]
      exact hw
  | leave state reader writer t hpc =>
    refine ⟨h, hcustody, fun task hmem => ?_, fun _ _ hfd => hfd⟩
    cases List.mem_singleton.mp hmem
    intro fds _
    exact wp_disclaimAll_terminal converts_disclaim_shared ⟨htask.1, rfl⟩

/-- The helper whose method `Execute` is in. -/
def TunnelPc.calls : TunnelPc → Option Side
  | .writerStatus | .write _ | .writing _ _ | .shutdownWriter => some .writer
  | .read | .reading _ | .readerStatus _ _ | .shutdownReader => some .reader
  | .loop | .done => none

/-- The handler whose helper the task is using, in `Transfer`, `GetStatus` or `Shutdown`. -/
def Task.uses : Task → Option ℕ
  | .program (.call (.transferIn id _ _) _) _ => some id
  | .program (.call (.transferOut id _) _) _ => some id
  | .copying _ reader writer t =>
    match t.pc.calls with
    | some .reader => some reader
    | some .writer => some writer
    | none => none
  | _ => none

/-- The handler that the task is about to dispose of. -/
def Task.disposes : Task → Option ℕ
  | .program (.call (.disposeHandler id) _) _ => some id
  | _ => none

/-- A tunnel has a claim on the handlers it lists. -/
theorem State.isClaim_shared {state : State} (hnodup : state.ids.Nodup) {id : ℕ}
    (hid : id ∈ state.ids) : (state.holdings (fun c _ => .shared c) id).isClaim := by
  obtain ⟨e, he, rfl⟩ := List.mem_map.mp hid
  rw [holdings_of_mem hnodup he]
  trivial

/-- A task has claimed what it uses. -/
theorem Task.Sound.isClaim_of_uses {sh : Shared} {task : Task} (h : task.Sound sh) {id : ℕ}
    (huses : task.uses = some id) : (task.holdings id).isClaim := by
  unfold uses at huses
  split at huses
  · cases huses
    exact (h sh.helperFds fun _ _ hfd => hfd).1
  · cases huses
    exact (h sh.helperFds fun _ _ hfd => hfd).1
  · obtain ⟨hnodup, hreader, hwriter, -⟩ := h
    split at huses
    · cases huses
      exact State.isClaim_shared hnodup hreader
    · cases huses
      exact State.isClaim_shared hnodup hwriter
    · cases huses
  · cases huses

/-- A task owes what it disposes of. -/
theorem Task.Sound.owes_of_disposes {sh : Shared} {task : Task} (h : task.Sound sh) {id : ℕ}
    (hdisposes : task.disposes = some id) : ∃ ref, task.holdings id = .owes ref := by
  unfold disposes at hdisposes
  split at hdisposes
  · cases hdisposes
    exact (h sh.helperFds fun _ _ hfd => hfd).1
  · cases hdisposes

namespace Pipeline

/-- What holds of the whole system at all times. -/
structure Sound (s : Pipeline) : Prop where
  shared : s.shared.Sound
  custody : Custody s.shared.objects s.shared.Live ((s.tasks ++ s.discarded).map Task.holdings)
  tasks : ∀ task ∈ s.tasks, task.Sound s.shared

/-- Before anybody has connected there is nothing to account for. -/
theorem sound_initial (openFds : Int → Bool) : (initial openFds).Sound := by
  refine ⟨⟨?_, ?_, ?_, ?_, ?_, ?_, ?_, List.nodup_nil, ?_⟩, fun id => ?_, ?_⟩
  · exact fun id fd hid => nomatch hid
  · exact fun id fd hid => nomatch hid
  · exact fun c st hst => nomatch hst
  · exact fun c st hst => nomatch hst
  · exact fun id fd hid => nomatch hid
  · exact fun id fd hid => nomatch hid
  · exact fun id id' fd hid => nomatch hid
  · exact fun id hid => nomatch hid
  · exact Accounted.of_nothing (fun hlive => nomatch hlive) (fun x hx => nomatch hx)
      fun r r' n n' hr => nomatch hr
  · exact fun task htask => nomatch htask

/-- An accepted client is in the hands of the listener that is to announce it. -/
theorem sound_accept {s : Pipeline} (h : s.Sound) {fd : Int} (hopen : s.shared.canOpen fd = true) :
    Sound { s with
      shared := s.shared.createHandlerFromSocket fd
      tasks := .accepted (s.shared.handlerIdCounter + 1) :: s.tasks } := by
  have hjoin : Custody s.shared.objects s.shared.Live
      ([] ++ (fun _ => .nothing) :: (s.tasks ++ s.discarded).map Task.holdings) :=
    Custody.join h.custody
  refine ⟨h.shared.create hopen, Shared.custody_create h.shared hjoin, fun task htask => ?_⟩
  · rcases List.mem_cons.mp htask with rfl | hmem
    · trivial
    · refine (h.tasks task hmem).mono fun id fd' hfd' => ?_
      change Function.update _ _ _ _ = _
      have hlt := h.shared.helpers id fd' hfd'
      rw [Function.update_of_ne (by omega)]
      exact hfd'

/-- A move of one task keeps the system sound. -/
theorem sound_task {env : Settings} {s : Pipeline} (h : s.Sound) {i : ℕ} {task : Task}
    (hi : s.tasks[i]? = some task) {move : TaskMove} {next : Shared × List Task × List Task}
    (hmoves : TaskMoves env s.shared task move next) (hfew : next.1.FewHandlers) :
    Sound {
      shared := next.1
      tasks := replaceAt s.tasks i next.2.1
      discarded := s.discarded ++ next.2.2 } := by
  obtain ⟨l, r, hsplit, hreplace⟩ := exists_split hi
  have hcustody := h.custody
  rw [hsplit, List.append_assoc, List.cons_append, List.map_append, List.map_cons] at hcustody
  have hkeeps := hmoves.keeps h.shared hcustody (h.tasks task (mem_of_split hsplit)) hfew
  rw [hreplace]
  refine ⟨hkeeps.sound, hkeeps.custody.perm ?_, ?_⟩
  · rw [← List.map_append, ← List.map_append]
    apply List.Perm.map
    simp only [List.append_assoc]
    apply List.Perm.append_left
    apply List.Perm.append_left
    rw [← List.append_assoc r]
    exact List.perm_append_comm
  · exact forall_mem_replaced hsplit h.tasks (fun other _ hother => hother.mono hkeeps.helperFds)
      hkeeps.tasks

/-- There have been few handlers if there are few after one more step. -/
theorem few_of_step {env : Settings} (s : Pipeline) (a : PipelineAction) (s' : Pipeline)
    (hstep : s.step env a = some s') (hfew : s'.shared.FewHandlers) : s.shared.FewHandlers := by
  refine Nat.le_trans ?_ hfew
  cases a with
  | accept fd =>
    simp only [Pipeline.step, Option.ite_none_right_eq_some, Option.some.injEq] at hstep
    obtain ⟨-, rfl⟩ := hstep
    exact Nat.le_succ _
  | task i move =>
    obtain ⟨task, -, hrest⟩ := Option.bind_eq_some_iff.mp hstep
    obtain ⟨next, hnext, rfl⟩ := Option.map_eq_some_iff.mp hrest
    exact (Task.step_moves hnext).counter_le

/-- Every step keeps the system sound, as long as there are few handlers. -/
theorem Sound.step {env : Settings} {s s' : Pipeline} {a : PipelineAction} (h : s.Sound)
    (hstep : s.step env a = some s') (hfew : s'.shared.FewHandlers) : s'.Sound := by
  cases a with
  | accept fd =>
    simp only [Pipeline.step, Option.ite_none_right_eq_some, Option.some.injEq] at hstep
    obtain ⟨hopen, rfl⟩ := hstep
    exact sound_accept h hopen
  | task i move =>
    obtain ⟨task, hi, hrest⟩ := Option.bind_eq_some_iff.mp hstep
    obtain ⟨next, hnext, rfl⟩ := Option.map_eq_some_iff.mp hrest
    exact sound_task h hi (Task.step_moves hnext) hfew

/-- And so does a run that ends with few handlers. -/
theorem Sound.run {env : Settings} {s s' : Pipeline} {actions : List PipelineAction} (h : s.Sound)
    (hrun : runActions (Pipeline.step env) s actions = some s') (hfew : s'.shared.FewHandlers) :
    s'.Sound :=
  runActions_within few_of_step (fun _ _ _ hu => hu.step) h hrun hfew

/-- The system is sound in every state that it reaches with few handlers. -/
theorem sound_of_run {env : Settings} {openFds : Int → Bool} {actions : List PipelineAction}
    {s : Pipeline} (hrun : runActions (Pipeline.step env) (initial openFds) actions = some s)
    (hfew : s.shared.FewHandlers) : s.Sound :=
  (sound_initial openFds).run hrun hfew

/-- What a task has to do with is registered, with the descriptor of its helpers, which is open. -/
theorem Sound.registered {s : Pipeline} (h : s.Sound) {task : Task} (htask : task ∈ s.tasks) {id : ℕ}
    (hid : task.holdings id ≠ .nothing) :
    ∃ fd, s.shared.helperFds id = some fd ∧ s.shared.commHandlers id = some fd ∧
      s.shared.openFds fd = true := by
  have hmem : task.holdings ∈ (s.tasks ++ s.discarded).map Task.holdings :=
    List.mem_map_of_mem (List.mem_append_left _ htask)
  obtain ⟨fd, hfd⟩ := Shared.live_iff.mp (h.custody.live_of_mem hmem hid)
  exact ⟨fd, h.shared.helper id fd hfd, hfd, (h.shared.opened id fd hfd).2⟩

/-- As long as no handler has the number of an error, a helper is only used while its handler is
registered and its descriptor is open, the helpers of a tunnel have the descriptors of their handlers,
only registered handlers are disposed of, and none is disposed of twice. -/
theorem no_use_after_dispose (env : Settings) (openFds : Int → Bool)
    (actions : List PipelineAction) (s : Pipeline)
    (hrun : runActions (Pipeline.step env) (initial openFds) actions = some s)
    (hfew : s.shared.FewHandlers) :
    (∀ task ∈ s.tasks, ∀ id, task.uses = some id → ∃ fd, s.shared.helperFds id = some fd ∧
      s.shared.commHandlers id = some fd ∧ s.shared.openFds fd = true) ∧
    (∀ state reader writer t, .copying state reader writer t ∈ s.tasks →
      s.shared.helperFds reader = some t.reader.fd ∧
        s.shared.helperFds writer = some t.writer.fd) ∧
    (∀ task ∈ s.tasks, ∀ id, task.disposes = some id → s.shared.isRegistered id = true) ∧
    s.shared.disposals.Nodup := by
  have h := sound_of_run hrun hfew
  refine ⟨fun task htask id huses => ?_, fun state reader writer t htask => ?_,
    fun task htask id hdisposes => ?_, h.shared.once⟩
  · exact h.registered htask ((h.tasks task htask).isClaim_of_uses huses).ne_nothing
  · obtain ⟨-, -, -, hr, hw⟩ := h.tasks _ htask
    exact ⟨hr, hw⟩
  · obtain ⟨ref, howes⟩ := (h.tasks task htask).owes_of_disposes hdisposes
    obtain ⟨fd, -, hfd, -⟩ := h.registered htask (by rw [howes]; exact fun hx => nomatch hx)
    exact Shared.live_iff.mpr ⟨fd, hfd⟩

/-- Nobody may log in, and buffers are small. -/
def bareSettings : Settings := ⟨⟨5, 20, false, []⟩, .little, Handshake.noLiterals, 4⟩

/-- Only the three standard descriptors are open. -/
def standardFds (fd : Int) : Bool := decide (0 ≤ fd ∧ fd < 3)

/-- The first task performs an operation. -/
def call (o : JobOp) (a : o.Answer) : PipelineAction := .task 0 (.call ⟨o, a⟩ 0)

/-- A client connects, and its handshake is about to read the first byte. -/
def connected : List PipelineAction :=
  [.accept 5, .task 0 .announce, .task 0 .process, call (.newClaim 1) (0 : ℕ), call (.getState 0) ⟨0, 1⟩,
    call (.claim 0) ⟨1, 1⟩, .task 0 (.spawn 1), call (.getHandler 1) (some 5)]

/-- The client hangs up, and its handler is about to be disposed of. -/
def hungUp : List PipelineAction :=
  [call (.transferIn 1 1 false) ⟨-1, []⟩, call (.disclaim 0) ⟨0, 1⟩, .task 0 .finish,
    .task 0 .process]

/-- The handler is disposed of, and no job is created. -/
def disposedOf : List PipelineAction := [call (.disposeHandler 1) (), .task 0 (.spawn 0)]

/-- The first byte is read from a registered handler, and the handler is there to be disposed of. -/
theorem no_use_after_dispose_client :
    (∃ s, runActions (Pipeline.step bareSettings) (initial standardFds) connected = some s ∧
      (∃ task ∈ s.tasks, task.uses = some 1) ∧
      ∀ task ∈ s.tasks, ∀ id, task.uses = some id → ∃ fd, s.shared.helperFds id = some fd ∧
        s.shared.commHandlers id = some fd ∧ s.shared.openFds fd = true) ∧
    ∃ s, runActions (Pipeline.step bareSettings) (initial standardFds) (connected ++ hungUp) =
        some s ∧ (∃ task ∈ s.tasks, task.disposes = some 1) ∧
      ∀ task ∈ s.tasks, ∀ id, task.disposes = some id → s.shared.isRegistered id = true := by
  constructor
  · exact ⟨_, rfl, ⟨_, List.mem_cons_self, rfl⟩,
      (no_use_after_dispose bareSettings standardFds connected _ rfl (by decide)).1⟩
  · exact ⟨_, rfl, ⟨_, List.mem_cons_self, rfl⟩,
      (no_use_after_dispose bareSettings standardFds (connected ++ hungUp) _ rfl
        (by decide)).2.2.1⟩

/-- The handler is in the hands of the task: a listener has created it and is to announce it; a result
announces it as a new client, lists it as unclaimed or hands it on; a job or a call of `CreateJobsFromResult` has claims that the counter
shows, or is the only one to know the handler, between creating and claiming it or between giving
it up and returning the result that lists it; a tunnel has a claim that the counter shows. -/
def HasInHand (sh : Shared) (id : ℕ) : Task → Prop
  | .accepted handlerID => handlerID = id
  | .result (.newClient handlerID) => handlerID = id
  | .result (.terminal state) => ∃ st ∈ state.handlerClaimStates, st.handlerID = id ∧ st.counter < 1
  | .result (.modeConnect state) => ∃ st ∈ state.handlerClaimStates, st.handlerID = id
  | .program _ held =>
    ((held id).isClaim ∧ ∃ c n, (held id).ref = some c ∧ 1 ≤ n ∧ sh.claims c = some ⟨n, id⟩) ∨
      ∃ ref, held id = .owes ref
  | .copying state _ _ _ => ∃ e ∈ state.entries, e.2.handlerID = id ∧
      ∃ n, 1 ≤ n ∧ sh.claims e.1 = some ⟨n, id⟩

/-- The counter of a claimed handler shows at least one claim. -/
theorem Sound.counted {s : Pipeline} (h : s.Sound) {task : Task} (htask : task ∈ s.tasks) {id : ℕ}
    (hclaim : (task.holdings id).isClaim) :
    ∃ c n, (task.holdings id).ref = some c ∧ 1 ≤ n ∧ s.shared.claims c = some ⟨n, id⟩ := by
  have hmem : task.holdings id ∈ ((s.tasks ++ s.discarded).map Task.holdings).map fun p => p id :=
    List.mem_map_of_mem (List.mem_map_of_mem (List.mem_append_left _ htask))
  have hbacked := (h.custody id).backed _ hmem
  obtain ⟨c, href⟩ := hclaim.exists_ref
  cases hstake : task.holdings id with
  | nothing =>
    rw [hstake] at hclaim
    exact hclaim.elim
  | owes ref =>
    rw [hstake] at hclaim
    exact hclaim.elim
  | alone c' n =>
    rw [hstake] at hbacked
    exact ⟨c', n, rfl, by exact_mod_cast hbacked.1, Shared.claims_of_objects hbacked.2⟩
  | shared c' =>
    rw [hstake] at hbacked hmem
    obtain ⟨l, r, hl⟩ := List.append_of_mem hmem
    refine ⟨c', _, rfl, ?_, Shared.claims_of_objects hbacked⟩
    rw [hl, Stake.sharers_append, Stake.sharers_cons, Stake.sharing]
    omega

/-- A task that has to do with a handler has it in its hands. -/
theorem Sound.hasInHand {s : Pipeline} (h : s.Sound) {task : Task} (htask : task ∈ s.tasks) {id : ℕ}
    (hid : task.holdings id ≠ .nothing) : HasInHand s.shared id task := by
  cases task with
  | accepted handlerID =>
    by_contra hne
    apply hid
    rw [Task.holdings, JobResult.holdings, Function.update_of_ne fun heq => hne heq.symm]
  | result r =>
    cases r with
    | newClient handlerID =>
      by_contra hne
      apply hid
      rw [Task.holdings, JobResult.holdings, Function.update_of_ne fun heq => hne heq.symm]
    | terminal state =>
      rw [Task.holdings, JobResult.holdings] at hid
      obtain ⟨e, he, rfl, hstake⟩ := State.exists_of_holdings hid
      refine ⟨e.2, List.mem_map_of_mem he, rfl, ?_⟩
      by_contra hcounter
      rw [if_neg hcounter] at hstake
      exact hid hstake
    | modeConnect state =>
      rw [Task.holdings, JobResult.holdings] at hid
      obtain ⟨e, he, rfl, -⟩ := State.exists_of_holdings hid
      exact ⟨e.2, List.mem_map_of_mem he, rfl⟩
  | program p held =>
    cases hstake : held id with
    | nothing => exact (hid hstake).elim
    | owes ref => exact .inr ⟨ref, hstake⟩
    | alone c n =>
      have hclaim : (held id).isClaim := by
        rw [hstake]
        trivial
      exact .inl ⟨hclaim, h.counted htask hclaim⟩
    | shared c =>
      have hclaim : (held id).isClaim := by
        rw [hstake]
        trivial
      exact .inl ⟨hclaim, h.counted htask hclaim⟩
  | copying state reader writer t =>
    rw [Task.holdings] at hid
    obtain ⟨e, he, rfl, hstake⟩ := State.exists_of_holdings hid
    have hclaim : ((Task.copying state reader writer t).holdings e.2.handlerID).isClaim := by
      rw [Task.holdings, hstake]
      trivial
    obtain ⟨c, n, href, hpos, hcount⟩ := h.counted htask hclaim
    rw [Task.holdings, hstake] at href
    cases href
    exact ⟨e, he, rfl, n, hpos, hcount⟩

/-- As long as nothing was discarded and no handler has the number of an error, every registered handler
is in the hands of a task, and where no task is left, no handler is. -/
theorem no_handler_leak (env : Settings) (openFds : Int → Bool)
    (actions : List PipelineAction) (s : Pipeline)
    (hrun : runActions (Pipeline.step env) (initial openFds) actions = some s)
    (hfew : s.shared.FewHandlers) (hserved : s.discarded = []) :
    (∀ id, s.shared.isRegistered id = true → ∃ task ∈ s.tasks, HasInHand s.shared id task) ∧
      (s.tasks = [] → ∀ id, s.shared.commHandlers id = none) := by
  have h := sound_of_run hrun hfew
  have hcustody := h.custody
  rw [hserved, List.append_nil] at hcustody
  have hkept (id : ℕ) (hid : s.shared.isRegistered id = true) :
      ∃ task ∈ s.tasks, HasInHand s.shared id task := by
    obtain ⟨held, hheld, hne⟩ := hcustody.exists_of_live hid
    obtain ⟨task, htask, rfl⟩ := List.mem_map.mp hheld
    exact ⟨task, htask, h.hasInHand htask hne⟩
  refine ⟨hkept, fun hnone id => ?_⟩
  by_contra hid
  obtain ⟨task, htask, -⟩ := hkept id (Option.isSome_iff_ne_none.mpr hid)
  rw [hnone] at htask
  exact nomatch htask

/-- A connected client is in the hands of its handshake, and when it has hung up, nothing is left. -/
theorem no_handler_leak_client :
    (∃ s, runActions (Pipeline.step bareSettings) (initial standardFds) connected = some s ∧
      s.shared.isRegistered 1 = true ∧ ∃ task ∈ s.tasks, HasInHand s.shared 1 task) ∧
    ∃ s, runActions (Pipeline.step bareSettings) (initial standardFds)
        (connected ++ hungUp ++ disposedOf) = some s ∧
      ∀ id, s.shared.commHandlers id = none := by
  constructor
  · exact ⟨_, rfl, rfl, (no_handler_leak bareSettings standardFds connected _ rfl (by decide) rfl).1 1
      rfl⟩
  · exact ⟨_, rfl, (no_handler_leak bareSettings standardFds (connected ++ hungUp ++ disposedOf) _ rfl
      (by decide) rfl).2 rfl⟩

/-- Right after `CreateHandlerFromSocket` there is neither a result nor a job: only the listener knows
the handler. -/
theorem unannounced_client_registered :
    ∃ s, runActions (Pipeline.step bareSettings) (initial standardFds) [.accept 5] = some s ∧
      s.discarded = [] ∧ s.shared.isRegistered 1 = true ∧ s.shared.commHandlers 1 = some 5 ∧
      s.tasks = [.accepted 1] :=
  ⟨_, rfl, rfl, rfl, rfl, rfl⟩

end Pipeline

end TinySox
