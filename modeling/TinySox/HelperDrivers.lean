import Mathlib.Data.List.Flatten
import TinySox.HandlerOwnership
import TinySox.TunnelWiring

/-!
# One driver for every helper

The pipeline with the helpers that its jobs share. A helper belongs to a handler and a direction; the
jobs reach it through the pointers that `GetHandler` returns, and so does the service, which notifies
it. Every task knows the client it descends from, what its thread is busy with, and the connections
that its job has made; these are not part of the program.
-/

namespace TinySox

open TinySox.Common

/-- What the thread of a task is busy with. -/
inductive Role
  /-- a result waits to be sent, or to be processed -/
  | result
  /-- `CreateJobsFromResult` for this result -/
  | factory (r : JobResult)
  /-- a job, with the handlers of the connections it has made -/
  | job (j : Job) (targets : List ℕ)
  deriving DecidableEq, Repr

/-- A task, with the client that it descends from. -/
structure Tracked where
  client : ℕ
  role : Role
  task : Task

/-- All the helpers that were created. -/
abbrev Helpers := HelperKey → TCPCommHelper

namespace Helpers

/-- The helpers of a new handler. -/
def create (helpers : Helpers) (id : ℕ) (fd : Int) : Helpers :=
  Function.update (Function.update helpers (id, .reader) (newTCPCommHelper fd true)) (id, .writer)
    (newTCPCommHelper fd false)

/-- The two helpers that a tunnel works with are written back. -/
def store (helpers : Helpers) (reader writer : ℕ) (t : Tunnel) : Helpers :=
  Function.update (Function.update helpers (reader, .reader) t.reader) (writer, .writer) t.writer

/-- What a `Transfer` of a handshake leaves behind. -/
def used (helpers : Helpers) (key : HelperKey) (status : Int) (intCnt : ℕ) : Helpers :=
  Function.update helpers key { helpers key with status := status, intCnt := intCnt }

/-- The tunnel with the helpers that its pointers lead to. -/
def see (helpers : Helpers) (reader writer : ℕ) (t : Tunnel) : Tunnel :=
  { t with reader := helpers (reader, .reader), writer := helpers (writer, .writer) }

end Helpers

/-- The task with the helpers that its pointers lead to. -/
def Task.view (helpers : Helpers) : Task → Task
  | .copying state reader writer t => .copying state reader writer (helpers.see reader writer t)
  | task => task

/-- A tunnel enters its main loop with the helpers that its pointers lead to. -/
def Task.viewMove (helpers : Helpers) : Task → TaskMove → TaskMove
  | .program (.pure (.copy _ reader writer _ _)) _, .enter t => .enter (helpers.see reader writer t)
  | _, move => move

/-- The notices are the business of the service. -/
def TaskMove.isNotice : TaskMove → Bool
  | .copy (.notice _ _) => true
  | _ => false

/-- What the thread is busy with after a move. -/
def Role.after (role : Role) : Task → TaskMove → Role
  | .result r, .process => .factory r
  | _, .finish => .result
  | _, .call ⟨.connectAndCreateHandler _ _, (id : ℕ)⟩ _ =>
    match role with
    | .job j targets => if handlerError < id then role else .job j (targets ++ [id])
    | _ => role
  | _, _ => role

/-- The new jobs, each with a thread of its own. -/
def Tracked.start (env : Settings) (client : ℕ) (job : Job) : Tracked :=
  ⟨client, .job job [], job.start env⟩

/-- The tasks that take the place of this one. -/
def Tracked.successors (env : Settings) (tr : Tracked) (move : TaskMove) (tasks : List Task) :
    List Tracked :=
  match tr.task, move with
  | .program (.pure (.spawn jobs)) _, .spawn workers =>
    (jobs.take workers).map (Tracked.start env tr.client)
  | _, _ => tasks.map fun task => ⟨tr.client, tr.role.after tr.task move, task⟩

/-- The helpers after a move of a task, with what the tasks shared before it. -/
def Helpers.after (helpers : Helpers) (sh : Shared) (status : Int) (intCnt : ℕ)
    (next : Shared × List Task × List Task) : TaskMove → Helpers
  | .call ⟨.transferIn id _ _, _⟩ _ => helpers.used (id, .reader) status intCnt
  | .call ⟨.transferOut id _, _⟩ _ => helpers.used (id, .writer) status intCnt
  | .call ⟨.connectAndCreateHandler _ _, _⟩ fd =>
    if sh.handlerIdCounter < next.1.handlerIdCounter then helpers.create next.1.handlerIdCounter fd
    else helpers
  | .copy _ =>
    match next.2.1 with
    | [.copying _ reader writer t] => helpers.store reader writer t
    | _ => helpers
  | _ => helpers

/-- The connection that a move makes, unless it is taken for an error. -/
def TaskMove.connects : TaskMove → Option ℕ
  | .call ⟨.connectAndCreateHandler _ _, (id : ℕ)⟩ _ => if handlerError < id then none else some id
  | _ => none

/-- The whole system with its helpers. -/
structure HelperPipeline where
  shared : Shared
  tasks : List Tracked
  discarded : List Task
  helpers : Helpers
  /-- the connections that were made: the client of the job, and the target -/
  connected : List (ℕ × ℕ)

/-- What can happen next. -/
inductive DriverAction
  /-- a listener accepts a client on this descriptor, and creates its handler -/
  | accept (fd : Int)
  /-- the service notifies a helper, or cancels it -/
  | notice (key : HelperKey) (n : Notice)
  /-- the task with this number makes a move; a `Transfer` leaves these two fields behind -/
  | task (i : ℕ) (move : TaskMove) (status : Int) (intCnt : ℕ)

namespace HelperPipeline

/-- Nobody has connected yet. -/
def initial (openFds : Int → Bool) (helpers : Helpers) : HelperPipeline :=
  ⟨(Pipeline.initial openFds).shared, [], [], helpers, []⟩

/-- One step of the system. -/
def step (env : Settings) (s : HelperPipeline) : DriverAction → Option HelperPipeline
  | .accept fd =>
    if s.shared.canOpen fd then
      let id := s.shared.handlerIdCounter + 1
      some { s with
        shared := s.shared.createHandlerFromSocket fd
        tasks := ⟨id, .result, .accepted id⟩ :: s.tasks
        helpers := s.helpers.create id fd }
    else none
  | .notice key n =>
    some { s with helpers := Function.update s.helpers key ((s.helpers key).notify n) }
  | .task i move status intCnt =>
    s.tasks[i]?.bind fun tr =>
      if move.isNotice then none
      else
        ((tr.task.view s.helpers).step env s.shared (tr.task.viewMove s.helpers move)).map
          fun next =>
            { shared := next.1
              tasks := replaceAt s.tasks i (tr.successors env move next.2.1)
              discarded := s.discarded ++ next.2.2
              helpers := s.helpers.after s.shared status intCnt next move
              connected := s.connected ++ (move.connects.toList.map fun id => (tr.client, id)) }

/-- The targets that the handshake of a client has connected. -/
def dialled (s : HelperPipeline) (client : ℕ) : List ℕ :=
  (s.connected.filter fun c => c.1 = client).map Prod.snd

end HelperPipeline

/-- The jobs of a task that have not returned yet. -/
def Tracked.jobs (tr : Tracked) : List Job :=
  match tr.role, tr.task with
  | .job j _, _ => [j]
  | .factory _, .program (.pure (.spawn jobs)) _ => jobs
  | _, _ => []

/-- The helpers that these jobs drive. -/
def Tracked.drives (tr : Tracked) : List HelperKey := tr.jobs.flatMap Job.helpers

/-- The claim objects that a program has made were made for the handlers it thinks. -/
def Wires.Known (g : Wires) (sh : Shared) : Prop :=
  ∀ c id, g.owner c = some id → ∃ n, sh.claims c = some ⟨n, id⟩

/-- The helpers that the jobs made of a result may drive. -/
def JobResult.rights : JobResult → List HelperKey
  | .terminal _ => []
  | .newClient id => bothSides id
  | .modeConnect s => s.ids.flatMap bothSides

/-- The helpers that a task may drive, now or after it has handed them on. -/
def Tracked.rights (tr : Tracked) : List HelperKey :=
  match tr.role, tr.task with
  | .result, .accepted id => bothSides id
  | .result, .result r => r.rights
  | .result, _ => []
  | .factory r, _ => r.rights
  | .job j targets, _ => j.helpers ++ targets.flatMap bothSides

/-- A result names its own client and the target that the handshake of this client has dialled. -/
def JobResult.Placed (client : ℕ) (dialled : List ℕ) : JobResult → Prop
  | .terminal _ => True
  | .newClient id => id = client ∧ dialled = []
  | .modeConnect s => ∃ target, dialled = [target] ∧ s.ids = [client, target]

/-- And so does a job. -/
def Job.Placed (client : ℕ) (dialled targets : List ℕ) : Job → Prop
  | .clientHandshake s => s.ids = [client] ∧ dialled = targets
  | .tcpTunnel s _ => targets = [] ∧ ∃ target, dialled = [target] ∧ s.ids = [client, target]

/-- A task is in its place, and keeps to the wiring from here on. -/
def Tracked.Wired (sh : Shared) (dialled : List ℕ) (tr : Tracked) : Prop :=
  match tr.role, tr.task with
  | .result, .accepted id => (JobResult.newClient id).Placed tr.client dialled
  | .result, .result r =>
    r.Placed tr.client dialled ∧ ∃ g : Wires, g.Known sh ∧ JobFactory.Known g r
  | .factory r, .program p _ =>
    r.Placed tr.client dialled ∧ ∃ g : Wires, g.Known sh ∧
      (wiring none).wp (fun _ _ => False) (fun next g => ∃ jobs, next = .spawn jobs ∧ Creates r jobs g)
        p g
  | .job j targets, .program p _ =>
    j.Placed tr.client dialled targets ∧ ∃ g : Wires, g.Known sh ∧ g.targets = targets ∧
      (wiring (j.talksTo tr.client)).wp (j.Returns tr.client) j.Enters p g
  | .job j targets, .copying state reader writer _ =>
    j.Placed tr.client dialled targets ∧ (∃ isReader, j = .tcpTunnel state isReader) ∧
      j.helpers = [(reader, .reader), (writer, .writer)] ∧
        ∃ g : Wires, g.Known sh ∧ state.Lists g state.ids
  | _, _ => False

variable {sh sh' : Shared} {g : Wires} {fd : Int}

/-- A claim object stays the object of its handler. -/
theorem Wires.Known.fetchAdd {c : ClaimRef} {d : Int} {answer : HandlerClaimState}
    (h : g.Known sh) (hadd : sh.fetchAdd c d answer = some sh') :
    g.Known sh' ∧ ∀ id, g.owner c = some id → answer.handlerID = id := by
  unfold Shared.fetchAdd at hadd
  split at hadd
  · rename_i cState hclaim
    simp only [Option.ite_none_right_eq_some, Option.some.injEq] at hadd
    obtain ⟨hanswer, rfl⟩ := hadd
    have hsame (id : ℕ) (hid : g.owner c = some id) : answer.handlerID = id := by
      obtain ⟨n, hn⟩ := h c id hid
      rw [hclaim, Option.some.injEq] at hn
      rw [hanswer, hn]
    refine ⟨fun c' id hid => ?_, hsame⟩
    dsimp only
    by_cases hc : c' = c
    · subst hc
      rw [Function.update_self, ← hsame id hid]
      exact ⟨answer.counter, rfl⟩
    · rw [Function.update_of_ne hc]
      exact h c' id hid
  · contradiction

/-- An operation answers as the wiring promises, and what is known of the claim objects stays
known. -/
theorem Shared.perform_wires {o : JobOp} {a : o.Answer} (h : g.Known sh)
    (hperform : sh.perform fd o a = some sh') : g.Answers o a ∧ (g.record o a).Known sh' := by
  cases o with
  | newClaim id =>
    simp only [perform, Option.ite_none_right_eq_some, Option.some.injEq] at hperform
    obtain ⟨hnew, rfl⟩ := hperform
    have hnone : g.owner a = none := by
      by_contra hsome
      obtain ⟨id', hid'⟩ := Option.ne_none_iff_exists'.mp hsome
      obtain ⟨n, hn⟩ := h a id' hid'
      rw [hnew] at hn
      cases hn
    refine ⟨hnone, fun c' id' hid' => ?_⟩
    change Function.update g.owner a (some id) c' = some id' at hid'
    change ∃ n, Function.update sh.claims a (some ⟨0, id⟩) c' = some ⟨n, id'⟩
    by_cases hc : c' = a
    · subst hc
      rw [Function.update_self] at hid' ⊢
      cases hid'
      exact ⟨0, rfl⟩
    · rw [Function.update_of_ne hc] at hid' ⊢
      exact h c' id' hid'
  | claim c =>
    obtain ⟨hknown, hanswer⟩ := h.fetchAdd hperform
    exact ⟨hanswer, hknown⟩
  | disclaim c =>
    obtain ⟨hknown, hanswer⟩ := h.fetchAdd hperform
    exact ⟨hanswer, hknown⟩
  | getState c =>
    simp only [perform, Option.ite_none_right_eq_some, Option.some.injEq] at hperform
    obtain ⟨hclaim, rfl⟩ := hperform
    refine ⟨fun id hid => ?_, h⟩
    obtain ⟨n, hn⟩ := h c id hid
    rw [hclaim, Option.some.injEq] at hn
    rw [hn]
  | getHandler id =>
    simp only [perform, Option.ite_none_right_eq_some, Option.some.injEq] at hperform
    obtain ⟨-, rfl⟩ := hperform
    exact ⟨trivial, h⟩
  | connectAndCreateHandler target timeout =>
    refine ⟨trivial, ?_⟩
    have hclaims : sh'.claims = sh.claims := by
      simp only [perform] at hperform
      split at hperform
      · cases hperform
        rfl
      · simp only [Option.ite_none_right_eq_some, Option.some.injEq] at hperform
        obtain ⟨-, rfl⟩ := hperform
        rfl
    intro c id hid
    have howner : (g.record (.connectAndCreateHandler target timeout) a).owner = g.owner := by
      simp only [Wires.record]
      split <;> rfl
    rw [howner] at hid
    rw [hclaims]
    exact h c id hid
  | disposeHandler id =>
    cases hperform
    refine ⟨trivial, fun c id' hid => ?_⟩
    have hclaims : (sh.disposeHandler id).claims = sh.claims := by
      unfold disposeHandler
      split <;> rfl
    rw [hclaims]
    exact h c id' hid
  | transferIn | transferOut | getsockname | dnsNew | dnsOpen | dnsResolveA6 | dnsResolveA4
  | dnsClose | dnsFree =>
    cases hperform
    exact ⟨trivial, h⟩

/-- What is known without regard to the operation stays known as well. -/
theorem Shared.perform_known {o : JobOp} {a : o.Answer} (h : g.Known sh)
    (hperform : sh.perform fd o a = some sh') : g.Known sh' := by
  intro c id hid
  obtain ⟨hanswer, hknown⟩ := perform_wires h hperform
  apply hknown c id
  cases o with
  | newClaim id' =>
    change Function.update g.owner a (some id') c = some id
    have hnone : g.owner a = none := hanswer
    have hne : c ≠ a := by
      rintro rfl
      rw [hnone] at hid
      cases hid
    rw [Function.update_of_ne hne]
    exact hid
  | connectAndCreateHandler target timeout =>
    simp only [Wires.record]
    split <;> exact hid
  | claim | disclaim | getState | getHandler | disposeHandler | transferIn | transferOut
  | getsockname | dnsNew | dnsOpen | dnsResolveA6 | dnsResolveA4 | dnsClose | dnsFree => exact hid

/-- Handlers are numbered in order, and a connection that is made gets the next number. -/
theorem Shared.perform_counter {o : JobOp} {a : o.Answer} (hperform : sh.perform fd o a = some sh') :
    sh.handlerIdCounter ≤ sh'.handlerIdCounter ∧
      ∀ id, (TaskMove.call ⟨o, a⟩ fd).connects = some id →
        id = sh.handlerIdCounter + 1 ∧ sh'.handlerIdCounter = id := by
  constructor
  · rcases perform_numbers hperform with hsame | hnext <;> omega
  · intro id hid
    cases o with
    | connectAndCreateHandler target timeout =>
      simp only [TaskMove.connects, Option.ite_none_left_eq_some, Option.some.injEq] at hid
      obtain ⟨hmade, rfl⟩ := hid
      simp only [perform, if_neg hmade, Option.ite_none_right_eq_some, Option.some.injEq] at hperform
      obtain ⟨⟨-, rfl⟩, rfl⟩ := hperform
      exact ⟨rfl, rfl⟩
    | newClaim | claim | disclaim | getState | getHandler | disposeHandler | transferIn | transferOut
    | getsockname | dnsNew | dnsOpen | dnsResolveA6 | dnsResolveA4 | dnsClose | dnsFree => cases hid

/-- What a move of a task may do to the wiring. -/
structure Tracked.Follows (sh : Shared) (dialled : List ℕ) (tr : Tracked) (sh' : Shared)
    (news : List Tracked) (made : Option ℕ) : Prop where
  known : ∀ g : Wires, g.Known sh → g.Known sh'
  counter : sh.handlerIdCounter ≤ sh'.handlerIdCounter
  connects : ∀ id, made = some id → id = sh.handlerIdCounter + 1 ∧ sh'.handlerIdCounter = id ∧
    ∀ k ∈ bothSides tr.client, k ∈ tr.rights
  rights : ∀ k, (news.flatMap Tracked.rights).count k ≤
    tr.rights.count k + (made.toList.flatMap bothSides).count k
  clients : ∀ n ∈ news, n.client = tr.client
  wired : ∀ n ∈ news, n.Wired sh' (dialled ++ made.toList)

variable {env : Settings} {client : ℕ} {role : Role} {dialled : List ℕ}
  {next : Shared × List Task × List Task} {move : TaskMove}

/-- A move that makes no connection, and leaves what the tasks share as it is. -/
theorem Tracked.Follows.silent {tr : Tracked} {news : List Tracked}
    (hrights : ∀ k, (news.flatMap Tracked.rights).count k ≤ tr.rights.count k)
    (hclients : ∀ n ∈ news, n.client = tr.client) (hwired : ∀ n ∈ news, n.Wired sh dialled) :
    tr.Follows sh dialled sh news none := by
  constructor
  · exact fun g hg => hg
  · exact Nat.le_refl _
  · exact fun id hid => nomatch hid
  · intro k
    have hnone : ((none : Option ℕ).toList.flatMap bothSides).count k = 0 := rfl
    rw [hnone]
    exact hrights k
  · exact hclients
  · intro n hn
    have hnone : dialled ++ (none : Option ℕ).toList = dialled := List.append_nil _
    rw [hnone]
    exact hwired n hn

/-- A client is announced. -/
theorem follows_announce {id : ℕ}
    (hwired : Tracked.Wired sh dialled ⟨client, role, .accepted id⟩) :
    Tracked.Follows sh dialled ⟨client, role, .accepted id⟩ sh
      [⟨client, role, .result (.newClient id)⟩] none := by
  cases role with
  | factory r => exact hwired.elim
  | job j targets => exact hwired.elim
  | result =>
    apply Tracked.Follows.silent
    · intro k
      rw [List.flatMap_singleton]
      exact Nat.le_refl _
    · intro n hn
      rw [List.mem_singleton.mp hn]
    · intro n hn
      rw [List.mem_singleton.mp hn]
      exact ⟨hwired, ⟨fun _ => none, []⟩, (fun c id hid => nomatch hid), trivial⟩

/-- A result is processed. -/
theorem follows_process {r : JobResult} {p : JobProg JobResult Next} {held : Custodian}
    (hwired : Tracked.Wired sh dialled ⟨client, role, .result r⟩)
    (hp : p = do
      let jobs ← JobFactory.createJobsFromResult r
      pure (.spawn jobs)) :
    Tracked.Follows sh dialled ⟨client, role, .result r⟩ sh
      [⟨client, .factory r, .program p held⟩] none := by
  cases role with
  | factory r' => exact hwired.elim
  | job j targets => exact hwired.elim
  | result =>
    obtain ⟨hplaced, g, hg, hknown⟩ := hwired
    apply Tracked.Follows.silent
    · intro k
      rw [List.flatMap_singleton]
      exact Nat.le_refl _
    · intro n hn
      rw [List.mem_singleton.mp hn]
    · intro n hn
      rw [List.mem_singleton.mp hn]
      refine ⟨hplaced, ⟨g.owner, []⟩, hg, ?_⟩
      rw [hp, Contract.wp_bind]
      have hlists : JobFactory.Known ⟨g.owner, []⟩ r := by
        cases r with
        | terminal state => trivial
        | newClient id => trivial
        | modeConnect state => exact ⟨hknown.order, hknown.owns⟩
      apply Contract.wp_mono (fun _ _ h => h) _
        (JobFactory.wiring_createJobsFromResult hlists rfl)
      exact fun jobs g' hjobs => ⟨jobs, rfl, hjobs⟩

/-- A task is put an end to. -/
theorem follows_discard {tr : Tracked} : tr.Follows sh dialled sh [] none :=
  .silent (fun _ => Nat.zero_le _) (fun _ hn => nomatch hn) fun _ hn => nomatch hn

/-- What is known after an operation of a program, with what it may have done. -/
theorem wiring_call {p q : JobProg JobResult Next} {cl : Option ℕ} {e : Event JobOp.Answer}
    {exits : JobResult → Wires → Prop} {ends : Next → Wires → Prop} (hg : g.Known sh)
    (hwp : (wiring cl).wp exits ends p g) (hfollow : p.follow [e] = some q)
    (hperform : sh.perform fd e.1 e.2 = some sh') :
    (wiring cl).may g e.1 ∧ (g.record e.1 e.2).Known sh' ∧
      (wiring cl).wp exits ends q (g.record e.1 e.2) := by
  obtain ⟨hanswer, hknown⟩ := Shared.perform_wires hg hperform
  have hafter := Contract.wp_follow hfollow hwp ⟨hanswer, trivial⟩
  refine ⟨?_, hknown, hafter⟩
  cases p with
  | pure a => cases hfollow
  | exit r => cases hfollow
  | call o k =>
    simp only [Prog.follow, Option.dite_none_right_eq_some] at hfollow
    obtain ⟨ho, -⟩ := hfollow
    rw [ho]
    exact hwp.1

/-- The wires show the connections that are made. -/
theorem Wires.record_targets (g : Wires) (e : Event JobOp.Answer) (fd : Int) :
    (g.record e.1 e.2).targets = g.targets ++ (TaskMove.call e fd).connects.toList := by
  obtain ⟨o, a⟩ := e
  cases o with
  | connectAndCreateHandler target timeout =>
    simp only [record, TaskMove.connects]
    split
    · exact (List.append_nil _).symm
    · rfl
  | newClaim | claim | disclaim | getState | getHandler | disposeHandler | transferIn | transferOut
  | getsockname | dnsNew | dnsOpen | dnsResolveA6 | dnsResolveA4 | dnsClose | dnsFree =>
    exact (List.append_nil _).symm

/-- A program without a client makes no connection. -/
theorem connects_eq_none {e : Event JobOp.Answer} (hmay : (wiring none).may g e.1) :
    (TaskMove.call e fd).connects = none := by
  obtain ⟨o, a⟩ := e
  cases o with
  | connectAndCreateHandler target timeout => exact (hmay rfl).elim
  | newClaim | claim | disclaim | getState | getHandler | disposeHandler | transferIn | transferOut
  | getsockname | dnsNew | dnsOpen | dnsResolveA6 | dnsResolveA4 | dnsClose | dnsFree => rfl

/-- The role of a job shows the connections that are made. -/
theorem Role.after_call (j : Job) (targets : List ℕ) (task : Task) (e : Event JobOp.Answer)
    (fd : Int) : (Role.job j targets).after task (.call e fd) =
      .job j (targets ++ (TaskMove.call e fd).connects.toList) := by
  obtain ⟨o, a⟩ := e
  have hsame : Role.job j targets = .job j (targets ++ (none : Option ℕ).toList) := by
    rw [Option.toList_none, List.append_nil]
  cases o with
  | connectAndCreateHandler target timeout =>
    have hafter : (Role.job j targets).after task
        (.call ⟨.connectAndCreateHandler target timeout, a⟩ fd) =
          if handlerError < a then .job j targets else .job j (targets ++ [a]) := by
      cases task <;> rfl
    rw [hafter, TaskMove.connects]
    split
    · exact hsame
    · rfl
  | newClaim | claim | disclaim | getState | getHandler | disposeHandler | transferIn | transferOut
  | getsockname | dnsNew | dnsOpen | dnsResolveA6 | dnsResolveA4 | dnsClose | dnsFree =>
    cases task <;> exact hsame

/-- Another role does not. -/
theorem Role.after_call_factory (r : JobResult) (task : Task) (e : Event JobOp.Answer) (fd : Int) :
    (Role.factory r).after task (.call e fd) = .factory r := by
  obtain ⟨o, a⟩ := e
  cases o <;> cases task <;> rfl

/-- Only the start of a main loop depends on the helpers. -/
theorem Task.viewMove_eq {helpers : Helpers} {task : Task} (hmove : ∀ t, move ≠ .enter t) :
    task.viewMove helpers move = move := by
  unfold viewMove
  split
  · exact absurd rfl (hmove _)
  · rfl

/-- Only a start of jobs gives the tasks new roles. -/
theorem Tracked.successors_eq {tr : Tracked} {tasks : List Task} (hmove : ∀ w, move ≠ .spawn w) :
    tr.successors env move tasks =
      tasks.map fun task => ⟨tr.client, tr.role.after tr.task move, task⟩ := by
  unfold successors
  split
  · exact absurd rfl (hmove _)
  · rfl

/-- Everything a task can do with the helpers that its pointers lead to, and what takes its place. -/
inductive Tracked.Moves (env : Settings) (helpers : Helpers) (sh : Shared) (client : ℕ) (role : Role) :
    Task → TaskMove → Shared × List Task × List Task → List Tracked → Prop
  | announce (id : ℕ) :
      Moves env helpers sh client role (.accepted id) .announce (sh, [.result (.newClient id)], [])
        [⟨client, role, .result (.newClient id)⟩]
  | failed (id : ℕ) :
      Moves env helpers sh client role (.accepted id) .announce (sh, [], [.accepted id]) []
  | process (r : JobResult) (p : JobProg JobResult Next)
      (hp : p = do
        let jobs ← JobFactory.createJobsFromResult r
        pure (.spawn jobs)) :
      Moves env helpers sh client role (.result r) .process (sh, [.program p r.holdings], [])
        [⟨client, .factory r, .program p r.holdings⟩]
  | discard (r : JobResult) :
      Moves env helpers sh client role (.result r) .discard (sh, [], [.result r]) []
  | call (p q : JobProg JobResult Next) (held held' : Custodian) (e : Event JobOp.Answer) (fd : Int)
      (sh' : Shared) (hfollow : p.follow [e] = some q) (hperform : sh.perform fd e.1 e.2 = some sh') :
      Moves env helpers sh client role (.program p held) (.call e fd) (sh', [.program q held'], [])
        [⟨client, role.after (.program p held) (.call e fd), .program q held'⟩]
  | finish (r : JobResult) (held : Custodian) :
      Moves env helpers sh client role (.program (.exit r) held) .finish (sh, [.result r], [])
        [⟨client, .result, .result r⟩]
  | spawn (jobs : List Job) (held : Custodian) (workers : ℕ) :
      Moves env helpers sh client role (.program (.pure (.spawn jobs)) held) (.spawn workers)
        (sh, (jobs.take workers).map (Job.start env), (jobs.drop workers).map (Job.start env))
        ((jobs.take workers).map (Tracked.start env client))
  | enter (state : State) (reader writer : ℕ) (readerFd writerFd : Int) (held : Custodian)
      (t : Tunnel) (hpc : t.pc = .loop) :
      Moves env helpers sh client role
        (.program (.pure (.copy state reader writer readerFd writerFd)) held) (.enter t)
        (sh, [.copying state reader writer (helpers.see reader writer t)], [])
        [⟨client, role, .copying state reader writer (helpers.see reader writer t)⟩]
  | copy (state : State) (reader writer : ℕ) (t t' : Tunnel) (a : TunnelAction)
      (hstep : (helpers.see reader writer t).step env.tcpBuffSz a = some t') :
      Moves env helpers sh client role (.copying state reader writer t) (.copy a)
        (sh, [.copying state reader writer t'], []) [⟨client, role, .copying state reader writer t'⟩]
  | leave (state : State) (reader writer : ℕ) (t : Tunnel) (held : Custodian) (hpc : t.pc = .done) :
      Moves env helpers sh client role (.copying state reader writer t) .leave
        (sh, [.program (TCPTunnel.terminalResultDisclaim state) held], [])
        [⟨client, role, .program (TCPTunnel.terminalResultDisclaim state) held⟩]

/-- A task does nothing else. -/
theorem Tracked.step_moves {task : Task} {helpers : Helpers} (client : ℕ) (role : Role)
    (hstep : (task.view helpers).step env sh (task.viewMove helpers move) = some next) :
    Tracked.Moves env helpers sh client role task move next
      (Tracked.successors env ⟨client, role, task⟩ move next.2.1) := by
  have hmoves := Task.step_moves hstep
  have hsame (hmove : ∀ t, move ≠ .enter t) : TaskMoves env sh (task.view helpers) move next := by
    rw [Task.viewMove_eq hmove] at hmoves
    exact hmoves
  cases task with
  | accepted id =>
    cases move with
    | enter t => cases hmoves
    | announce =>
      cases hsame fun t h => nomatch h with
      | announce => exact .announce id
      | failed => exact .failed id
    | process | discard | call | finish | spawn | copy | leave => cases hsame fun t h => nomatch h
  | result r =>
    cases move with
    | enter t => cases hmoves
    | process =>
      cases hsame fun t h => nomatch h
      exact .process r _ rfl
    | discard =>
      cases hsame fun t h => nomatch h
      exact .discard r
    | announce | call | finish | spawn | copy | leave => cases hsame fun t h => nomatch h
  | copying state reader writer t =>
    cases move with
    | enter t => cases hmoves
    | copy a =>
      cases hsame fun t h => nomatch h with
      | copy _ _ _ _ t' _ hcopy => exact .copy state reader writer t t' a hcopy
    | leave =>
      cases hsame fun t h => nomatch h with
      | leave _ _ _ _ hpc => exact .leave state reader writer t _ hpc
    | announce | process | discard | call | finish | spawn => cases hsame fun t h => nomatch h
  | program p held =>
    cases move with
    | call e fd =>
      have hspawn : ∀ w, TaskMove.call e fd ≠ .spawn w := fun w h => nomatch h
      cases hsame fun t h => nomatch h with
      | call _ q _ _ _ sh' hfollow hperform =>
        rw [Tracked.successors_eq hspawn]
        exact .call p q held _ e fd sh' hfollow hperform
    | finish =>
      cases hsame fun t h => nomatch h
      exact .finish _ held
    | spawn workers =>
      cases hsame fun t h => nomatch h
      exact .spawn _ held workers
    | enter t =>
      cases p with
      | call o k => cases hmoves
      | exit r => cases hmoves
      | pure nx =>
        cases nx with
        | spawn jobs => cases hmoves
        | copy state reader writer readerFd writerFd =>
          cases hmoves with
          | enter _ _ _ _ _ hpc => exact .enter state reader writer _ _ held t hpc
    | announce | process | discard | copy | leave => cases hsame fun t h => nomatch h

variable {p q : JobProg JobResult Next} {held : Custodian}

/-- An operation of a program. -/
theorem follows_call {held' : Custodian} {e : Event JobOp.Answer}
    (hwired : Tracked.Wired sh dialled ⟨client, role, .program p held⟩)
    (hfollow : p.follow [e] = some q) (hperform : sh.perform fd e.1 e.2 = some sh') :
    Tracked.Follows sh dialled ⟨client, role, .program p held⟩ sh'
      [⟨client, role.after (.program p held) (.call e fd), .program q held'⟩]
      (TaskMove.call e fd).connects := by
  obtain ⟨hcounter, hnumber⟩ := Shared.perform_counter hperform
  have hknown (g : Wires) (hg : g.Known sh) : g.Known sh' := Shared.perform_known hg hperform
  cases role with
  | result => exact hwired.elim
  | factory r =>
    obtain ⟨hplaced, g, hg, hwp⟩ := hwired
    obtain ⟨hmay, hg', hwp'⟩ := wiring_call hg hwp hfollow hperform
    have hnone : (TaskMove.call e fd).connects = none := connects_eq_none hmay
    rw [Role.after_call_factory, hnone]
    refine ⟨hknown, hcounter, (fun id hid => nomatch hid), fun k => ?_, fun n hn => ?_, fun n hn => ?_⟩
    · exact (List.flatMap_singleton ..).symm ▸ Nat.le_refl _
    · rw [List.mem_singleton.mp hn]
    · rw [List.mem_singleton.mp hn, Option.toList_none, List.append_nil]
      exact ⟨hplaced, _, hg', hwp'⟩
  | job j targets =>
    obtain ⟨hplaced, g, hg, rfl, hwp⟩ := hwired
    obtain ⟨hmay, hg', hwp'⟩ := wiring_call hg hwp hfollow hperform
    have htargets := g.record_targets e fd
    rw [Role.after_call, ← htargets]
    refine ⟨hknown, hcounter, fun id hid => ?_, fun k => ?_, fun n hn => ?_, fun n hn => ?_⟩
    · obtain ⟨hid', hnext⟩ := hnumber id hid
      refine ⟨hid', hnext, fun k hk => List.mem_append_left _ ?_⟩
      cases j with
      | tcpTunnel state isReader =>
        rw [connects_eq_none hmay] at hid
        cases hid
      | clientHandshake state =>
        rw [Job.helpers, hplaced.1, List.flatMap_singleton]
        exact hk
    · rw [List.flatMap_singleton, htargets]
      simp only [Tracked.rights, List.flatMap_append, List.count_append]
      omega
    · rw [List.mem_singleton.mp hn]
    · rw [List.mem_singleton.mp hn]
      refine ⟨?_, _, hg', rfl, hwp'⟩
      cases j with
      | tcpTunnel state isReader =>
        rw [connects_eq_none hmay, Option.toList_none, List.append_nil] at htargets ⊢
        rw [htargets]
        exact hplaced
      | clientHandshake state =>
        refine ⟨hplaced.1, ?_⟩
        rw [htargets, hplaced.2]

/-- A job returns its result. -/
theorem follows_finish {r : JobResult}
    (hwired : Tracked.Wired sh dialled ⟨client, role, .program (.exit r) held⟩) :
    Tracked.Follows sh dialled ⟨client, role, .program (.exit r) held⟩ sh
      [⟨client, .result, .result r⟩] none := by
  cases role with
  | result => exact hwired.elim
  | factory r' =>
    obtain ⟨-, g, -, hfalse⟩ := hwired
    exact hfalse.elim
  | job j targets =>
    obtain ⟨hplaced, g, hg, rfl, hreturns⟩ := hwired
    have hcases : (∃ s, r = .terminal s) ∨ ∃ state s target, j = .clientHandshake state ∧
        r = .modeConnect s ∧ g.targets = [target] ∧ s.Lists g [client, target] := by
      cases j with
      | tcpTunnel state isReader => exact .inl hreturns
      | clientHandshake state =>
        cases r with
        | terminal s => exact .inl ⟨s, rfl⟩
        | newClient id => exact hreturns.elim
        | modeConnect s =>
          obtain ⟨target, htargets, hlists⟩ := hreturns
          exact .inr ⟨state, s, target, rfl, rfl, htargets, hlists⟩
    apply Tracked.Follows.silent
    · intro k
      rw [List.flatMap_singleton]
      rcases hcases with ⟨s, rfl⟩ | ⟨state, s, target, rfl, rfl, htargets, hlists⟩
      · exact Nat.zero_le _
      · have hsame : (JobResult.modeConnect s).rights =
            (Job.clientHandshake state).helpers ++ g.targets.flatMap bothSides := by
          rw [JobResult.rights, hlists.order, Job.helpers, hplaced.1, htargets]
          rfl
        exact Nat.le_of_eq (congrArg (List.count k) hsame)
    · intro n hn
      rw [List.mem_singleton.mp hn]
    · intro n hn
      rw [List.mem_singleton.mp hn]
      rcases hcases with ⟨s, rfl⟩ | ⟨state, s, target, rfl, rfl, htargets, hlists⟩
      · exact ⟨trivial, g, hg, trivial⟩
      · refine ⟨⟨target, hplaced.2.trans htargets, hlists.order⟩, g, hg, ?_⟩
        rw [JobFactory.Known, hlists.order]
        exact hlists

/-- The jobs that are created share what the result had. -/
theorem creates_rights {r : JobResult} {jobs : List Job} (hplaced : r.Placed client dialled)
    (hcreates : Creates r jobs g) (k : HelperKey) :
    (jobs.flatMap Job.helpers).count k = r.rights.count k := by
  cases r with
  | terminal s =>
    rw [Creates] at hcreates
    rw [hcreates]
    rfl
  | newClient id =>
    obtain ⟨state, rfl, hlists, -⟩ := hcreates
    rw [List.flatMap_singleton, Job.helpers, hlists.order, List.flatMap_singleton, JobResult.rights]
  | modeConnect s =>
    obtain ⟨forReader, forWriter, rfl, hreader, hwriter⟩ := hcreates
    obtain ⟨target, -, hids⟩ := hplaced
    have hreader' := Job.helpers_tcpTunnel true (hreader.order.trans hids)
    have hwriter' := Job.helpers_tcpTunnel false (hwriter.order.trans hids)
    rw [JobResult.rights, hids, List.flatMap_cons, List.flatMap_singleton, hreader', hwriter']
    simp only [List.flatMap_cons, List.flatMap_nil, bothSides, reduceIte, Bool.false_eq_true,
      List.count_append, List.count_cons, List.count_nil]
    omega

/-- The jobs that are created are in their places. -/
theorem creates_placed {r : JobResult} {jobs : List Job} (hplaced : r.Placed client dialled)
    (hcreates : Creates r jobs g) :
    ∀ job ∈ jobs, job.Placed client dialled [] ∧ job.Lists client ⟨g.owner, []⟩ := by
  intro job hjob
  cases r with
  | terminal s =>
    rw [Creates] at hcreates
    rw [hcreates] at hjob
    exact nomatch hjob
  | newClient id =>
    obtain ⟨state, rfl, hlists, -⟩ := hcreates
    obtain ⟨rfl, hnone⟩ := hplaced
    rw [List.mem_singleton.mp hjob]
    exact ⟨⟨hlists.order, hnone⟩, ⟨hlists.order, hlists.owns⟩, rfl⟩
  | modeConnect s =>
    obtain ⟨forReader, forWriter, rfl, hreader, hwriter⟩ := hcreates
    obtain ⟨target, hdialled, hids⟩ := hplaced
    have hboth (state : State) (isReader : Bool) (hlists : state.Lists g s.ids) :
        (Job.tcpTunnel state isReader).Placed client dialled [] ∧
          (Job.tcpTunnel state isReader).Lists client ⟨g.owner, []⟩ := by
      refine ⟨⟨rfl, target, hdialled, hlists.order.trans hids⟩, rfl, ?_⟩
      rw [hlists.order]
      exact hlists.owns
    rcases List.mem_cons.mp hjob with rfl | hlast
    · exact hboth forReader true hreader
    · rw [List.mem_singleton.mp hlast]
      exact hboth forWriter false hwriter

/-- The new jobs start. -/
theorem follows_spawn {jobs : List Job} (workers : ℕ)
    (hwired : Tracked.Wired sh dialled ⟨client, role, .program (.pure (.spawn jobs)) held⟩) :
    Tracked.Follows sh dialled ⟨client, role, .program (.pure (.spawn jobs)) held⟩ sh
      ((jobs.take workers).map (Tracked.start env client)) none := by
  cases role with
  | result => exact hwired.elim
  | job j targets =>
    obtain ⟨-, g, -, -, henters⟩ := hwired
    cases j with
    | clientHandshake state => exact henters.elim
    | tcpTunnel state isReader =>
      obtain ⟨reader, writer, readerFd, writerFd, hcopy, -⟩ := henters
      cases hcopy
  | factory r =>
    obtain ⟨hplaced, g, hg, jobs', hjobs, hcreates⟩ := hwired
    cases hjobs
    apply Tracked.Follows.silent
    · intro k
      have hhelpers : ((jobs.take workers).map (Tracked.start env client)).flatMap Tracked.rights =
          (jobs.take workers).flatMap Job.helpers := by
        rw [List.flatMap_map]
        apply List.flatMap_congr
        intro job _
        exact List.append_nil _
      rw [hhelpers, Tracked.rights, ← creates_rights hplaced hcreates k]
      exact ((List.take_sublist workers jobs).flatMap Job.helpers).count_le k
    · intro n hn
      obtain ⟨job, -, rfl⟩ := List.mem_map.mp hn
      rfl
    · intro n hn
      obtain ⟨job, hjob, rfl⟩ := List.mem_map.mp hn
      obtain ⟨hplaced', hlists⟩ := creates_placed hplaced hcreates job (List.mem_of_mem_take hjob)
      exact ⟨hplaced', ⟨g.owner, []⟩, hg, rfl, Job.wiring_execute hlists⟩

/-- A tunnel enters its main loop. -/
theorem follows_enter {state : State} {reader writer : ℕ} {readerFd writerFd : Int} {t : Tunnel}
    (hwired : Tracked.Wired sh dialled
      ⟨client, role, .program (.pure (.copy state reader writer readerFd writerFd)) held⟩) :
    Tracked.Follows sh dialled
      ⟨client, role, .program (.pure (.copy state reader writer readerFd writerFd)) held⟩ sh
      [⟨client, role, .copying state reader writer t⟩] none := by
  cases role with
  | result => exact hwired.elim
  | factory r =>
    obtain ⟨-, g, -, jobs, hjobs, -⟩ := hwired
    cases hjobs
  | job j targets =>
    obtain ⟨hplaced, g, hg, -, henters⟩ := hwired
    cases j with
    | clientHandshake state' => exact henters.elim
    | tcpTunnel state' isReader =>
      obtain ⟨reader', writer', readerFd', writerFd', hcopy, hhelpers, hlists⟩ := henters
      cases hcopy
      apply Tracked.Follows.silent
      · intro k
        rw [List.flatMap_singleton]
        exact Nat.le_refl _
      · intro n hn
        rw [List.mem_singleton.mp hn]
      · intro n hn
        rw [List.mem_singleton.mp hn]
        exact ⟨hplaced, ⟨isReader, rfl⟩, hhelpers, g, hg, hlists⟩

/-- A main loop goes on. -/
theorem follows_copy {state : State} {reader writer : ℕ} {t t' : Tunnel}
    (hwired : Tracked.Wired sh dialled ⟨client, role, .copying state reader writer t⟩) :
    Tracked.Follows sh dialled ⟨client, role, .copying state reader writer t⟩ sh
      [⟨client, role, .copying state reader writer t'⟩] none := by
  cases role with
  | result => exact hwired.elim
  | factory r => exact hwired.elim
  | job j targets =>
    apply Tracked.Follows.silent
    · intro k
      rw [List.flatMap_singleton]
      exact Nat.le_refl _
    · intro n hn
      rw [List.mem_singleton.mp hn]
    · intro n hn
      rw [List.mem_singleton.mp hn]
      exact hwired

/-- A main loop ends. -/
theorem follows_leave {state : State} {reader writer : ℕ} {t : Tunnel}
    (hwired : Tracked.Wired sh dialled ⟨client, role, .copying state reader writer t⟩) :
    Tracked.Follows sh dialled ⟨client, role, .copying state reader writer t⟩ sh
      [⟨client, role, .program (TCPTunnel.terminalResultDisclaim state) held⟩] none := by
  cases role with
  | result => exact hwired.elim
  | factory r => exact hwired.elim
  | job j targets =>
    obtain ⟨hplaced, ⟨isReader, rfl⟩, hhelpers, g, hg, hlists⟩ := hwired
    apply Tracked.Follows.silent
    · intro k
      rw [List.flatMap_singleton]
      exact Nat.le_refl _
    · intro n hn
      rw [List.mem_singleton.mp hn]
    · intro n hn
      rw [List.mem_singleton.mp hn]
      have htargets : targets = [] := hplaced.1
      exact ⟨hplaced, ⟨g.owner, []⟩, hg, htargets.symm,
        TCPTunnel.wiring_terminal ⟨hlists.order, hlists.owns⟩⟩

/-- Every move of a task keeps to the wiring. -/
theorem Tracked.Wired.follows {tr : Tracked} {helpers : Helpers} (hwired : tr.Wired sh dialled)
    (hstep : (tr.task.view helpers).step env sh (tr.task.viewMove helpers move) = some next) :
    tr.Follows sh dialled next.1 (tr.successors env move next.2.1) move.connects := by
  obtain ⟨client, role, task⟩ := tr
  have hmoves := Tracked.step_moves client role hstep
  generalize Tracked.successors env ⟨client, role, task⟩ move next.2.1 = news at hmoves ⊢
  cases hmoves with
  | announce id => exact follows_announce hwired
  | process r p hp => exact follows_process hwired hp
  | failed | discard => exact follows_discard
  | call p q held held' e fd sh' hfollow hperform => exact follows_call hwired hfollow hperform
  | finish r held => exact follows_finish hwired
  | spawn jobs held workers => exact follows_spawn workers hwired
  | enter state reader writer readerFd writerFd held t hpc => exact follows_enter hwired
  | copy state reader writer t t' a hcopy => exact follows_copy hwired
  | leave state reader writer t held hpc => exact follows_leave hwired

/-- There have been few handlers if there are few after one more step. -/
theorem HelperPipeline.few_of_step {s s' : HelperPipeline} {a : DriverAction}
    (hstep : s.step env a = some s') (hfew : s'.shared.FewHandlers) : s.shared.FewHandlers := by
  refine Nat.le_trans ?_ hfew
  cases a with
  | accept fd =>
    simp only [HelperPipeline.step, Option.ite_none_right_eq_some, Option.some.injEq] at hstep
    obtain ⟨-, rfl⟩ := hstep
    exact Nat.le_succ _
  | notice key n =>
    cases hstep
    exact Nat.le_refl _
  | task i move status intCnt =>
    simp only [HelperPipeline.step, Option.bind_eq_some_iff] at hstep
    obtain ⟨tr, -, hstep⟩ := hstep
    split at hstep
    · contradiction
    · obtain ⟨next, hnext, rfl⟩ := Option.map_eq_some_iff.mp hstep
      exact (Task.step_moves hnext).counter_le

end TinySox
