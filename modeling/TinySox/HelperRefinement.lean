import TinySox.ExclusiveHelpers

/-!
# Every tunnel has its helpers for itself

Where the helpers are shared, a tunnel reaches them through pointers, and others might reach them too.
Since nobody else drives them, each tunnel goes on as if they were its own: whatever the system with
shared helpers does, the pipeline does, where every tunnel has two helpers of its own.
-/

namespace TinySox

open TinySox.Common

variable {env : Settings} {sh : Shared} {dialled : List ℕ} {tr : Tracked}
  {helpers helpers' : Helpers} {next : Shared × List Task × List Task} {move : TaskMove}

/-- What was written back is what the pointers lead to. -/
theorem Helpers.see_store (helpers : Helpers) (reader writer : ℕ) (t : Tunnel) :
    (helpers.store reader writer t).see reader writer t = t := by
  have hne : ((reader, .reader) : HelperKey) ≠ (writer, .writer) := fun heq => nomatch heq
  rw [see, store, Function.update_self, Function.update_of_ne hne, Function.update_self]

/-- A task depends on the helpers that its jobs drive. -/
theorem Tracked.Wired.view_eq (h : tr.Wired sh dialled)
    (hsame : ∀ k ∈ tr.drives, helpers' k = helpers k) :
    tr.task.view helpers' = tr.task.view helpers := by
  obtain ⟨client, role, task⟩ := tr
  cases task with
  | accepted id => rfl
  | result r => rfl
  | program p held => rfl
  | copying state reader writer t =>
    cases role with
    | result => exact h.elim
    | factory r => exact h.elim
    | job j targets =>
      obtain ⟨-, -, hhelpers, -⟩ := h
      rw [Tracked.drives, Tracked.jobs, List.flatMap_singleton, hhelpers] at hsame
      have hreader := hsame (reader, .reader) List.mem_cons_self
      have hwriter := hsame (writer, .writer) (List.mem_cons_of_mem _ List.mem_cons_self)
      rw [Task.view, Task.view, Helpers.see, Helpers.see, hreader, hwriter]

/-- The tasks that take the place of one see what the move has left behind. -/
theorem successors_view {status : Int} {intCnt : ℕ}
    (hstep : (tr.task.view helpers).step env sh (tr.task.viewMove helpers move) = some next) :
    (tr.successors env move next.2.1).map
      (fun n => n.task.view (helpers.after sh status intCnt next move)) = next.2.1 := by
  obtain ⟨client, role, task⟩ := tr
  have hmoves := Tracked.step_moves client role hstep
  generalize Tracked.successors env ⟨client, role, task⟩ move next.2.1 = news at hmoves ⊢
  cases hmoves with
  | announce | failed | process | discard | call | finish | enter | leave => rfl
  | spawn jobs held workers => exact List.map_map
  | copy state reader writer t t' a hcopy =>
    exact congrArg (fun u => [Task.copying state reader writer u])
      (helpers.see_store reader writer t')

/-- The handlers of a tunnel task that a notice may reach. -/
theorem Task.view_notice {state : State} {reader writer : ℕ} {t : Tunnel} {key : HelperKey}
    {n : Notice} {side : Side} (hkey : key = (match side with | .reader => reader | .writer => writer,
      side)) :
    (Task.copying state reader writer t).view (Function.update helpers key ((helpers key).notify n)) =
      .copying state reader writer ((helpers.see reader writer t).notice side n) := by
  have hne : ((reader, .reader) : HelperKey) ≠ (writer, .writer) := fun heq => nomatch heq
  subst hkey
  cases side with
  | reader =>
    simp only [view, Helpers.see, Tunnel.notice, Function.update_self, Function.update_of_ne hne.symm]
  | writer =>
    simp only [view, Helpers.see, Tunnel.notice, Function.update_self, Function.update_of_ne hne]

namespace HelperPipeline

variable {s s' : HelperPipeline}

/-- The system in which every tunnel has helpers of its own. -/
def split (s : HelperPipeline) : Pipeline :=
  ⟨s.shared, s.tasks.map fun tr => tr.task.view s.helpers, s.discarded⟩

/-- A new handler is none that a task drives. -/
theorem Wired.split_accept (h : s.Wired) {fd : Int} :
    (s.tasks.map fun tr => tr.task.view (s.helpers.create (s.shared.handlerIdCounter + 1) fd)) =
      s.tasks.map fun tr => tr.task.view s.helpers := by
  apply List.map_congr_left
  intro u hu
  apply (h.wired u hu).view_eq
  intro k hk
  have hle := h.drives_le_counter hu hk
  have hne (side : Side) : k ≠ (s.shared.handlerIdCounter + 1, side) := by
    rintro rfl
    exact Nat.not_succ_le_self _ hle
  rw [Helpers.create, Function.update_of_ne (hne _), Function.update_of_ne (hne _)]

/-- A task whose place another takes. -/
theorem split_tasks_get {i : ℕ} (hi : s.tasks[i]? = some tr) :
    s.split.tasks[i]? = some (tr.task.view s.helpers) := by
  rw [split, List.getElem?_map, hi, Option.map_some]

/-- A move of one task with shared helpers is the same move with helpers of its own. -/
theorem Wired.split_task (h : s.Wired) {i : ℕ} {status : Int} {intCnt : ℕ}
    (hi : s.tasks[i]? = some tr)
    (hstep : (tr.task.view s.helpers).step env s.shared (tr.task.viewMove s.helpers move) =
      some next) :
    s.split.step env (.task i (tr.task.viewMove s.helpers move)) = some {
      shared := next.1
      tasks := (replaceAt s.tasks i (tr.successors env move next.2.1)).map fun u =>
        u.task.view (s.helpers.after s.shared status intCnt next move)
      discarded := s.discarded ++ next.2.2 } := by
  have hsplit := take_cons_drop hi
  have hreplace : replaceAt s.split.tasks i next.2.1 =
      (replaceAt s.tasks i (tr.successors env move next.2.1)).map fun u =>
        u.task.view (s.helpers.after s.shared status intCnt next move) := by
    rw [← replaceAt_map, successors_view hstep]
    · rfl
    · intro u hu
      apply (h.wired u (mem_of_mem_others hsplit hu)).view_eq
      exact fun k hk => h.others hsplit hu hstep hk
  rw [Pipeline.step, split_tasks_get hi, Option.bind_some]
  change Option.map _ ((tr.task.view s.helpers).step env s.shared _) = _
  rw [hstep, Option.map_some, hreplace]
  rfl

/-- A notice for a helper that no tunnel has got as far as using changes no tunnel. -/
theorem Wired.split_notice_unused (h : s.Wired) {key : HelperKey} {n : Notice}
    (hunused : ∀ tr ∈ s.tasks, ∀ state reader writer t, tr.task = .copying state reader writer t →
      key ∉ tr.drives) :
    (s.tasks.map fun u =>
      u.task.view (Function.update s.helpers key ((s.helpers key).notify n))) =
        s.tasks.map fun u => u.task.view s.helpers := by
  apply List.map_congr_left
  intro u hu
  have hwired := h.wired u hu
  obtain ⟨client, role, task⟩ := u
  cases task with
  | accepted id => rfl
  | result r => rfl
  | program p held => rfl
  | copying state reader writer t =>
    apply hwired.view_eq
    intro k hk
    apply Function.update_of_ne
    rintro rfl
    exact hunused _ hu state reader writer t rfl hk

/-- A notice for a helper of a tunnel reaches the tunnel. -/
theorem Wired.split_notice_used (h : s.Wired) {i : ℕ} {key : HelperKey} {n : Notice} {state : State}
    {reader writer : ℕ} {t : Tunnel} (hi : s.tasks[i]? = some tr)
    (htask : tr.task = .copying state reader writer t) (hkey : key ∈ tr.drives) :
    ∃ side, s.split.step env (.task i (.copy (.notice side n))) = some {
      shared := s.shared
      tasks := s.tasks.map fun u =>
        u.task.view (Function.update s.helpers key ((s.helpers key).notify n))
      discarded := s.discarded } := by
  have hsplit := take_cons_drop hi
  have hmem := mem_of_split hsplit
  have hside : ∃ side, key = (match side with | .reader => reader | .writer => writer, side) := by
    have hwired := h.wired tr hmem
    obtain ⟨client, role, task⟩ := tr
    dsimp only at htask
    subst htask
    cases role with
    | result => exact hwired.elim
    | factory r => exact hwired.elim
    | job j targets =>
      obtain ⟨-, -, hhelpers, -⟩ := hwired
      rw [Tracked.drives, Tracked.jobs, List.flatMap_singleton, hhelpers] at hkey
      simp only [List.mem_cons, List.not_mem_nil, or_false] at hkey
      rcases hkey with rfl | rfl
      · exact ⟨.reader, rfl⟩
      · exact ⟨.writer, rfl⟩
  obtain ⟨side, hside⟩ := hside
  refine ⟨side, ?_⟩
  have hself : tr.task.view (Function.update s.helpers key ((s.helpers key).notify n)) =
      .copying state reader writer ((s.helpers.see reader writer t).notice side n) := by
    rw [htask]
    exact Task.view_notice hside
  have hreplace : replaceAt s.split.tasks i
      [.copying state reader writer ((s.helpers.see reader writer t).notice side n)] =
        s.tasks.map fun u =>
          u.task.view (Function.update s.helpers key ((s.helpers key).notify n)) := by
    rw [← hself]
    change replaceAt (s.tasks.map fun u => u.task.view s.helpers) i
      ([tr].map fun u => u.task.view
        (Function.update s.helpers key ((s.helpers key).notify n))) = _
    rw [replaceAt_map]
    · rw [replaceAt, List.singleton_append, ← hsplit]
    · intro u hu
      apply (h.wired u (mem_of_mem_others hsplit hu)).view_eq
      intro k hk
      apply Function.update_of_ne
      rintro rfl
      exact h.not_driven hsplit hu hk hkey
  rw [Pipeline.step, split_tasks_get hi, Option.bind_some, htask]
  change Option.map _ (some (s.shared, [Task.copying state reader writer
    ((s.helpers.see reader writer t).notice side n)], [])) = _
  rw [Option.map_some]
  dsimp only
  rw [hreplace, List.append_nil]
  rfl

/-- Each step with shared helpers is a step with separate ones, or none. -/
theorem Wired.split_step (h : s.Wired) {a : DriverAction} (hstep : s.step env a = some s') :
    ∃ actions, runActions (Pipeline.step env) s.split actions = some s'.split := by
  cases a with
  | accept fd =>
    simp only [HelperPipeline.step, Option.ite_none_right_eq_some, Option.some.injEq] at hstep
    obtain ⟨hopen, rfl⟩ := hstep
    refine ⟨[.accept fd], ?_⟩
    have haccept : s.split.step env (.accept fd) = some _ := if_pos hopen
    rw [runActions, haccept]
    simp only [split, List.map_cons, h.split_accept, Option.bind_some, runActions_nil]
    rfl
  | notice key n =>
    cases hstep
    by_cases hused : ∃ (i : ℕ) (tr : Tracked), s.tasks[i]? = some tr ∧
        (∃ state reader writer t, tr.task = .copying state reader writer t) ∧ key ∈ tr.drives
    · obtain ⟨i, tr, hi, ⟨state, reader, writer, t, htask⟩, hkey⟩ := hused
      obtain ⟨side, hnotice⟩ := h.split_notice_used hi htask hkey
      refine ⟨[.task i (.copy (.notice side n))], ?_⟩
      rw [runActions, hnotice]
      rfl
    · refine ⟨[], ?_⟩
      rw [runActions_nil, split, split]
      dsimp only
      rw [h.split_notice_unused]
      intro tr htr state reader writer t htask hkey
      obtain ⟨i, hi⟩ := List.getElem?_of_mem htr
      exact hused ⟨i, tr, hi, ⟨state, reader, writer, t, htask⟩, hkey⟩
  | task i move status intCnt =>
    simp only [HelperPipeline.step, Option.bind_eq_some_iff] at hstep
    obtain ⟨tr, hi, hstep⟩ := hstep
    split at hstep
    · contradiction
    · obtain ⟨next, hnext, rfl⟩ := Option.map_eq_some_iff.mp hstep
      refine ⟨[.task i (tr.task.viewMove s.helpers move)], ?_⟩
      rw [runActions, h.split_task hi hnext]
      rfl

/-- Whatever the system with shared helpers reaches, the pipeline reaches with separate ones. -/
theorem split_of_run {openFds : Int → Bool} {actions : List DriverAction}
    (hrun : runActions (step env) (initial openFds helpers) actions = some s) :
    ∃ actions', runActions (Pipeline.step env) (Pipeline.initial openFds) actions' = some s.split := by
  have hstep (u : HelperPipeline) (a : DriverAction) (u' : HelperPipeline)
      (hu : u.Wired ∧ ∃ before, runActions (Pipeline.step env) (Pipeline.initial openFds) before =
        some u.split) (hstep : u.step env a = some u') :
      u'.Wired ∧ ∃ before, runActions (Pipeline.step env) (Pipeline.initial openFds) before =
        some u'.split := by
    obtain ⟨hwired, before, hbefore⟩ := hu
    obtain ⟨after, hafter⟩ := hwired.split_step hstep
    refine ⟨hwired.step hstep, before ++ after, ?_⟩
    rw [runActions_append, hbefore, Option.bind_some, hafter]
  have hstart : (initial openFds helpers).Wired ∧
      ∃ before, runActions (Pipeline.step env) (Pipeline.initial openFds) before =
        some (initial openFds helpers).split := ⟨wired_initial openFds helpers, [], rfl⟩
  exact (runActions_invariant hstep hstart hrun).2

end HelperPipeline

end TinySox
