import TinySox.HelperDrivers
import TinySox.SocksCodec

/-!
# No helper has two drivers

The jobs that have not returned yet drive helpers that are all different, so the fields of a helper
that no lock guards are changed by one thread. A tunnel works with the client and with the target that
the handshake of this client has connected.
-/

namespace TinySox

open TinySox.Common

/-- The helper whose method a task is about to call, or is in. -/
def Task.usesHelper : Task → Option HelperKey
  | .program (.call (.transferIn id _ _) _) _ => some (id, .reader)
  | .program (.call (.transferOut id _) _) _ => some (id, .writer)
  | .copying _ reader writer t =>
    match t.pc.calls with
    | some .reader => some (reader, .reader)
    | some .writer => some (writer, .writer)
    | none => none
  | _ => none

variable {env : Settings} {sh sh' : Shared} {dialled : List ℕ} {tr : Tracked} {helpers : Helpers}
  {next : Shared × List Task × List Task} {move : TaskMove}

/-- What is known of the claim objects is all that a task depends on. -/
theorem Tracked.Wired.mono (h : tr.Wired sh dialled) (hknown : ∀ g : Wires, g.Known sh → g.Known sh') :
    tr.Wired sh' dialled := by
  obtain ⟨client, role, task⟩ := tr
  cases role with
  | result =>
    cases task with
    | accepted id => exact h
    | result r =>
      obtain ⟨hplaced, g, hg, hlists⟩ := h
      exact ⟨hplaced, g, hknown g hg, hlists⟩
    | program p held => exact h
    | copying state reader writer t => exact h
  | factory r =>
    cases task with
    | program p held =>
      obtain ⟨hplaced, g, hg, hwp⟩ := h
      exact ⟨hplaced, g, hknown g hg, hwp⟩
    | accepted id => exact h
    | result r => exact h
    | copying state reader writer t => exact h
  | job j targets =>
    cases task with
    | program p held =>
      obtain ⟨hplaced, g, hg, hwp⟩ := h
      exact ⟨hplaced, g, hknown g hg, hwp⟩
    | copying state reader writer t =>
      obtain ⟨hplaced, hjob, hhelpers, g, hg, hlists⟩ := h
      exact ⟨hplaced, hjob, hhelpers, g, hknown g hg, hlists⟩
    | accepted id => exact h
    | result r => exact h

/-- A result concerns its client, unless it is a terminal one. -/
theorem JobResult.Placed.right {client : ℕ} {r : JobResult} (h : r.Placed client dialled) :
    (∃ s, r = .terminal s) ∨ ∃ side, (client, side) ∈ r.rights := by
  cases r with
  | terminal s => exact .inl ⟨s, rfl⟩
  | newClient id =>
    refine .inr ⟨.reader, ?_⟩
    rw [h.1]
    exact List.mem_cons_self
  | modeConnect s =>
    obtain ⟨target, -, hids⟩ := h
    refine .inr ⟨.reader, ?_⟩
    rw [JobResult.rights, hids]
    exact List.mem_cons_self

/-- A job drives a helper of its client. -/
theorem Job.Placed.right {client : ℕ} {targets : List ℕ} {j : Job}
    (h : j.Placed client dialled targets) : ∃ side, (client, side) ∈ j.helpers := by
  cases j with
  | clientHandshake s =>
    refine ⟨.reader, ?_⟩
    rw [Job.helpers, h.1]
    exact List.mem_cons_self
  | tcpTunnel s isReader =>
    obtain ⟨-, target, -, hids⟩ := h
    rw [Job.helpers_tcpTunnel isReader hids]
    cases isReader with
    | true => exact ⟨.writer, by simp⟩
    | false => exact ⟨.reader, by simp⟩

/-- A task has a right to a helper of its client, or does not care what its handshake has dialled. -/
theorem Tracked.Wired.right (h : tr.Wired sh dialled) :
    (∀ dialled', tr.Wired sh dialled') ∨ ∃ side, (tr.client, side) ∈ tr.rights := by
  obtain ⟨client, role, task⟩ := tr
  cases role with
  | result =>
    cases task with
    | accepted id =>
      obtain ⟨rfl, -⟩ := h
      exact .inr ⟨.reader, List.mem_cons_self⟩
    | result r =>
      obtain ⟨hplaced, g, hg, hlists⟩ := h
      rcases hplaced.right with ⟨s, rfl⟩ | hright
      · exact .inl fun dialled' => ⟨trivial, g, hg, hlists⟩
      · exact .inr hright
    | program p held => exact h.elim
    | copying state reader writer t => exact h.elim
  | factory r =>
    cases task with
    | program p held =>
      obtain ⟨hplaced, g, hg, hwp⟩ := h
      rcases hplaced.right with ⟨s, rfl⟩ | hright
      · exact .inl fun dialled' => ⟨trivial, g, hg, hwp⟩
      · exact .inr hright
    | accepted id => exact h.elim
    | result r => exact h.elim
    | copying state reader writer t => exact h.elim
  | job j targets =>
    have hjob (hplaced : j.Placed client dialled targets) :
        ∃ side, (client, side) ∈ j.helpers ++ targets.flatMap bothSides := by
      obtain ⟨side, hside⟩ := hplaced.right
      exact ⟨side, List.mem_append_left _ hside⟩
    cases task with
    | program p held => exact .inr (hjob h.1)
    | copying state reader writer t => exact .inr (hjob h.1)
    | accepted id => exact h.elim
    | result r => exact h.elim

/-- A task drives nothing that it has no right to. -/
theorem Tracked.Wired.drives_le (h : tr.Wired sh dialled) (k : HelperKey) :
    tr.drives.count k ≤ tr.rights.count k := by
  obtain ⟨client, role, task⟩ := tr
  cases role with
  | result => exact Nat.zero_le _
  | job j targets =>
    have hjobs : Tracked.jobs ⟨client, .job j targets, task⟩ = [j] := rfl
    rw [Tracked.drives, hjobs, List.flatMap_singleton, Tracked.rights, List.count_append]
    exact Nat.le_add_right _ _
  | factory r =>
    cases task with
    | accepted id => exact h.elim
    | result r' => exact h.elim
    | copying state reader writer t => exact h.elim
    | program p held =>
      cases p with
      | exit r' => exact Nat.zero_le _
      | call o k' => exact Nat.zero_le _
      | pure nx =>
        cases nx with
        | copy => exact Nat.zero_le _
        | spawn jobs =>
          obtain ⟨hplaced, g, hg, jobs', hjobs, hcreates⟩ := h
          cases hjobs
          exact Nat.le_of_eq (creates_rights hplaced hcreates k)

/-- What a task uses is what its job drives. -/
theorem Tracked.Wired.drives_of_uses (h : tr.Wired sh dialled) {k : HelperKey}
    (huses : tr.task.usesHelper = some k) : k ∈ tr.drives := by
  obtain ⟨client, role, task⟩ := tr
  have hprogram {o : JobOp} {f : o.Answer → JobProg JobResult Next} {held : Custodian} {id : ℕ}
      {side : Side} (h : Tracked.Wired sh dialled ⟨client, role, .program (.call o f) held⟩)
      (ho : ∀ cl g, (wiring cl).may g o → cl = some id) :
      (id, side) ∈ Tracked.drives ⟨client, role, .program (.call o f) held⟩ := by
    cases role with
    | result => exact h.elim
    | factory r =>
      obtain ⟨-, g, -, hwp⟩ := h
      exact absurd (ho none g hwp.1) (fun hx => nomatch hx)
    | job j targets =>
      obtain ⟨hplaced, g, -, -, hwp⟩ := h
      have hclient := ho _ g hwp.1
      cases j with
      | tcpTunnel state isReader => cases hclient
      | clientHandshake state =>
        cases hclient
        rw [Tracked.drives, Tracked.jobs, List.flatMap_singleton, Job.helpers, hplaced.1]
        cases side <;> simp [bothSides]
  cases task with
  | accepted id => cases huses
  | result r => cases huses
  | program p held =>
    cases p with
    | pure nx => cases huses
    | exit r => cases huses
    | call o f =>
      cases o with
      | transferIn id len allowPartial =>
        cases huses
        exact hprogram h fun cl g hmay => hmay
      | transferOut id data =>
        cases huses
        exact hprogram h fun cl g hmay => hmay
      | newClaim | claim | disclaim | getState | getHandler | connectAndCreateHandler
      | disposeHandler | getsockname | dnsNew | dnsOpen | dnsResolveA6 | dnsResolveA4 | dnsClose
      | dnsFree => cases huses
  | copying state reader writer t =>
    cases role with
    | result => exact h.elim
    | factory r => exact h.elim
    | job j targets =>
      obtain ⟨-, -, hhelpers, -⟩ := h
      rw [Tracked.drives, Tracked.jobs, List.flatMap_singleton, hhelpers]
      simp only [Task.usesHelper] at huses
      split at huses
      · cases huses
        exact List.mem_cons_self
      · cases huses
        exact List.mem_cons_of_mem _ List.mem_cons_self
      · contradiction

/-- A move of a task changes no helpers but those that its jobs drive, and those of a handler that
is new. -/
theorem Tracked.Wired.changed {status : Int} {intCnt : ℕ} (h : tr.Wired sh dialled)
    (hstep : (tr.task.view helpers).step env sh (tr.task.viewMove helpers move) = some next)
    {k : HelperKey} (hchanged : helpers.after sh status intCnt next move k ≠ helpers k) :
    k ∈ tr.drives ∨ k.1 = sh.handlerIdCounter + 1 := by
  obtain ⟨client, role, task⟩ := tr
  have hmoves := Tracked.step_moves client role hstep
  generalize Tracked.successors env ⟨client, role, task⟩ move next.2.1 = news at hmoves
  cases hmoves with
  | announce | failed | process | discard | finish | spawn | enter | leave =>
    exact absurd rfl hchanged
  | call p q held held' e fd sh' hfollow hperform =>
    cases p with
    | pure nx => cases hfollow
    | exit r => cases hfollow
    | call o f =>
      simp only [Prog.follow, Option.dite_none_right_eq_some] at hfollow
      obtain ⟨ho, -⟩ := hfollow
      obtain ⟨o', a⟩ := e
      obtain rfl : o' = o := ho
      have hkey {key : HelperKey}
          (hused : (Task.program (.call o' f) held).usesHelper = some key)
          (hne : helpers.used key status intCnt k ≠ helpers k) :
          k ∈ Tracked.drives ⟨client, role, .program (.call o' f) held⟩ := by
        obtain rfl : k = key := by
          by_contra hk
          exact hne (Function.update_of_ne hk _ _)
        exact h.drives_of_uses hused
      cases o' with
      | transferIn id len allowPartial => exact .inl (hkey rfl hchanged)
      | transferOut id data => exact .inl (hkey rfl hchanged)
      | connectAndCreateHandler target timeout =>
        right
        simp only [Helpers.after] at hchanged
        split at hchanged
        · rename_i hmade
          have hnext : sh'.handlerIdCounter = sh.handlerIdCounter + 1 :=
            (Shared.perform_numbers hperform).resolve_left (Nat.ne_of_gt hmade)
          rw [← hnext]
          by_contra hk
          apply hchanged
          rw [Helpers.create, Function.update_of_ne (fun heq => hk (congrArg Prod.fst heq)),
            Function.update_of_ne (fun heq => hk (congrArg Prod.fst heq))]
        · exact absurd rfl hchanged
      | newClaim | claim | disclaim | getState | getHandler | disposeHandler | getsockname
      | dnsNew | dnsOpen | dnsResolveA6 | dnsResolveA4 | dnsClose | dnsFree =>
        exact absurd rfl hchanged
  | copy state reader writer t t' a hcopy =>
    left
    cases role with
    | result => exact h.elim
    | factory r => exact h.elim
    | job j targets =>
      obtain ⟨-, -, hhelpers, -⟩ := h
      rw [Tracked.drives, Tracked.jobs, List.flatMap_singleton, hhelpers]
      by_contra hk
      simp only [List.mem_cons, List.not_mem_nil, or_false, not_or] at hk
      apply hchanged
      change helpers.store reader writer t' k = helpers k
      rw [Helpers.store, Function.update_of_ne hk.2, Function.update_of_ne hk.1]

/-- Fewer in each place are fewer in all. -/
theorem count_flatMap_le {α β : Type} [BEq β] {f g : α → List β} {l : List α} {b : β}
    (h : ∀ x ∈ l, (f x).count b ≤ (g x).count b) : (l.flatMap f).count b ≤ (l.flatMap g).count b := by
  induction l with
  | nil => exact Nat.le_refl _
  | cons x rest ih =>
    rw [List.flatMap_cons, List.flatMap_cons, List.count_append, List.count_append]
    exact Nat.add_le_add (h x List.mem_cons_self) (ih fun y hy => h y (List.mem_cons_of_mem x hy))

/-- What one place contributes, and what the others do. -/
theorem count_flatMap_split {α β : Type} [BEq β] {f : α → List β} {xs l r : List α} {x : α}
    (hsplit : xs = l ++ x :: r) (b : β) :
    (xs.flatMap f).count b = (f x).count b + ((l ++ r).flatMap f).count b := by
  rw [hsplit]
  simp only [List.flatMap_append, List.flatMap_cons, List.count_append]
  omega

/-- What is there only once is in no second place. -/
theorem not_mem_of_count_le_one {α β : Type} [BEq β] [LawfulBEq β] {f : α → List β}
    {xs l r : List α} {x y : α} {b : β} (hsplit : xs = l ++ x :: r)
    (hone : (xs.flatMap f).count b ≤ 1) (hy : y ∈ l ++ r) (hb : b ∈ f y) : b ∉ f x := by
  intro hx
  rw [count_flatMap_split hsplit] at hone
  have hfirst := List.count_pos_iff.mpr hx
  have hsecond := List.count_pos_iff.mpr (List.mem_flatMap.mpr ⟨y, hy, hb⟩)
  omega

namespace HelperPipeline

variable {s s' : HelperPipeline}

/-- What holds of the wiring of the whole system at all times. -/
structure Wired (s : HelperPipeline) : Prop where
  rights : ∀ k, (s.tasks.flatMap Tracked.rights).count k ≤ 1
  bounded : ∀ tr ∈ s.tasks, ∀ k ∈ tr.rights, k.1 ≤ s.shared.handlerIdCounter
  clients : ∀ c ∈ s.connected, c.1 ≤ s.shared.handlerIdCounter
  wired : ∀ tr ∈ s.tasks, tr.Wired s.shared (s.dialled tr.client)

/-- Before anybody has connected there are no wires. -/
theorem wired_initial (openFds : Int → Bool) (helpers : Helpers) : (initial openFds helpers).Wired := by
  constructor
  · exact fun k => Nat.zero_le _
  · exact fun tr htr => nomatch htr
  · exact fun c hc => nomatch hc
  · exact fun tr htr => nomatch htr

/-- Nobody has a right to the helpers of the next handler. -/
theorem Wired.count_next (h : s.Wired) {k : HelperKey} (hk : k.1 = s.shared.handlerIdCounter + 1) :
    (s.tasks.flatMap Tracked.rights).count k = 0 := by
  apply List.count_eq_zero_of_not_mem
  intro hmem
  obtain ⟨tr, htr, hright⟩ := List.mem_flatMap.mp hmem
  have hle := h.bounded tr htr k hright
  omega

/-- Each helper of a new handler is a new one. -/
theorem count_bothSides (id : ℕ) (k : HelperKey) :
    (bothSides id).count k ≤ 1 ∧ ((bothSides id).count k ≠ 0 → k.1 = id) := by
  constructor
  · apply List.nodup_iff_count_le_one.mp
    simp [bothSides]
  · intro hne
    have hmem := List.count_pos_iff.mp (Nat.pos_of_ne_zero hne)
    simp only [bothSides, List.mem_cons, List.not_mem_nil, or_false] at hmem
    rcases hmem with rfl | rfl <;> rfl

/-- An accepted client is dialled by nobody yet. -/
theorem Wired.accept (h : s.Wired) {fd : Int} {helpers : Helpers} :
    Wired { s with
      shared := s.shared.createHandlerFromSocket fd
      tasks := ⟨s.shared.handlerIdCounter + 1, .result,
        .accepted (s.shared.handlerIdCounter + 1)⟩ :: s.tasks
      helpers := helpers } := by
  have hnew : Tracked.rights ⟨s.shared.handlerIdCounter + 1, .result,
      .accepted (s.shared.handlerIdCounter + 1)⟩ =
        bothSides (s.shared.handlerIdCounter + 1) := rfl
  constructor
  · intro k
    rw [List.flatMap_cons, hnew, List.count_append]
    have hone := count_bothSides (s.shared.handlerIdCounter + 1) k
    by_cases hzero : (bothSides (s.shared.handlerIdCounter + 1)).count k = 0
    · have := h.rights k
      omega
    · have := h.count_next (hone.2 hzero)
      omega
  · intro tr htr k hk
    change k.1 ≤ s.shared.handlerIdCounter + 1
    rcases List.mem_cons.mp htr with rfl | hold
    · rw [hnew] at hk
      exact Nat.le_of_eq ((count_bothSides _ k).2 (List.count_pos_iff.mpr hk).ne')
    · exact Nat.le_succ_of_le (h.bounded tr hold k hk)
  · exact fun c hc => Nat.le_succ_of_le (h.clients c hc)
  · intro tr htr
    rcases List.mem_cons.mp htr with rfl | hold
    · refine ⟨rfl, ?_⟩
      rw [dialled, List.map_eq_nil_iff, List.filter_eq_nil_iff]
      intro c hc heq
      have hle := h.clients c hc
      rw [of_decide_eq_true heq] at hle
      exact Nat.not_succ_le_self _ hle
    · exact (h.wired tr hold).mono fun g hg => hg

/-- The connections of one client do not show among those of another. -/
theorem dialled_append (s : HelperPipeline) (client c : ℕ) (made : Option ℕ) :
    ((s.connected ++ made.toList.map fun id => (c, id)).filter fun x => x.1 = client).map Prod.snd =
      s.dialled client ++ if c = client then made.toList else [] := by
  rw [List.filter_append, List.map_append, ← dialled]
  congr 1
  cases made with
  | none => split <;> rfl
  | some id => by_cases hc : c = client <;> simp [hc]

/-- A move of one task keeps the wiring of all of them. -/
theorem Wired.task (h : s.Wired) {i : ℕ} {status : Int} {intCnt : ℕ} (hi : s.tasks[i]? = some tr)
    (hstep : (tr.task.view s.helpers).step env s.shared (tr.task.viewMove s.helpers move) =
      some next) :
    Wired {
      shared := next.1
      tasks := replaceAt s.tasks i (tr.successors env move next.2.1)
      discarded := s.discarded ++ next.2.2
      helpers := s.helpers.after s.shared status intCnt next move
      connected := s.connected ++ move.connects.toList.map fun id => (tr.client, id) } := by
  obtain ⟨l, r, hsplit, hreplace⟩ := exists_split hi
  have hmem : tr ∈ s.tasks := mem_of_split hsplit
  have hfollows := (h.wired tr hmem).follows hstep
  have hfresh (k : HelperKey) (hne : (move.connects.toList.flatMap bothSides).count k ≠ 0) :
      (s.tasks.flatMap Tracked.rights).count k = 0 ∧
        (move.connects.toList.flatMap bothSides).count k ≤ 1 ∧
          k.1 = next.1.handlerIdCounter := by
    cases hmade : move.connects with
    | none => rw [hmade] at hne; exact absurd rfl hne
    | some id =>
      rw [hmade, Option.toList_some, List.flatMap_singleton] at hne
      rw [Option.toList_some, List.flatMap_singleton]
      obtain ⟨hone, hid⟩ := count_bothSides id k
      obtain ⟨hnumber, hnext, -⟩ := hfollows.connects id hmade
      exact ⟨h.count_next ((hid hne).trans hnumber), hone, (hid hne).trans hnext.symm⟩
  constructor
  · intro k
    dsimp only
    rw [hreplace]
    have hnews := hfollows.rights k
    have hbefore := h.rights k
    have hold := count_flatMap_split (f := Tracked.rights) hsplit k
    simp only [List.flatMap_append, List.count_append] at hold ⊢
    by_cases hzero : (move.connects.toList.flatMap bothSides).count k = 0
    · omega
    · obtain ⟨hnone, hone, -⟩ := hfresh k hzero
      omega
  · intro u hu k hk
    dsimp only at hu ⊢
    rw [hreplace] at hu
    rcases mem_others_or_new hu with hold | hnew
    · exact Nat.le_trans (h.bounded u (mem_of_mem_others hsplit hold) k hk) hfollows.counter
    · have hpos : 0 < ((tr.successors env move next.2.1).flatMap Tracked.rights).count k :=
        List.count_pos_iff.mpr (List.mem_flatMap.mpr ⟨u, hnew, hk⟩)
      have hnews := hfollows.rights k
      by_cases hzero : (move.connects.toList.flatMap bothSides).count k = 0
      · have hright : k ∈ tr.rights := List.count_pos_iff.mp (by omega)
        exact Nat.le_trans (h.bounded tr hmem k hright) hfollows.counter
      · exact Nat.le_of_eq (hfresh k hzero).2.2
  · intro c hc
    rcases List.mem_append.mp hc with hold | hnew
    · exact Nat.le_trans (h.clients c hold) hfollows.counter
    · obtain ⟨id, hid, rfl⟩ := List.mem_map.mp hnew
      obtain ⟨-, -, hclient⟩ := hfollows.connects id (Option.mem_toList.mp hid)
      exact Nat.le_trans (h.bounded tr hmem _ (hclient _ List.mem_cons_self)) hfollows.counter
  · intro u hu
    dsimp only at hu ⊢
    rw [hreplace] at hu
    rw [dialled, dialled_append]
    rcases mem_others_or_new hu with hold | hnew
    · have hwired := (h.wired u (mem_of_mem_others hsplit hold)).mono hfollows.known
      by_cases hclient : tr.client = u.client
      · rw [if_pos hclient]
        cases hmade : move.connects with
        | none =>
          rw [Option.toList_none, List.append_nil]
          exact hwired
        | some id =>
          rcases hwired.right with hany | ⟨side, hside⟩
          · exact hany _
          · -- the handshake that connects has a right to both helpers of its client
            exfalso
            obtain ⟨-, -, hboth⟩ := hfollows.connects id hmade
            have hmine : (u.client, side) ∈ tr.rights := by
              rw [← hclient]
              apply hboth
              cases side <;> simp [bothSides]
            exact not_mem_of_count_le_one hsplit (h.rights _) hold hside hmine
      · rw [if_neg hclient, List.append_nil]
        exact hwired
    · have hclient := hfollows.clients u hnew
      rw [hclient, if_pos rfl]
      exact hfollows.wired u hnew

/-- Every step keeps the wiring. -/
theorem Wired.step (h : s.Wired) {a : DriverAction} (hstep : s.step env a = some s') : s'.Wired := by
  cases a with
  | accept fd =>
    simp only [HelperPipeline.step, Option.ite_none_right_eq_some, Option.some.injEq] at hstep
    obtain ⟨-, rfl⟩ := hstep
    exact h.accept
  | notice key n =>
    cases hstep
    exact ⟨h.rights, h.bounded, h.clients, h.wired⟩
  | task i move status intCnt =>
    simp only [HelperPipeline.step, Option.bind_eq_some_iff] at hstep
    obtain ⟨tr, hi, hstep⟩ := hstep
    split at hstep
    · contradiction
    · obtain ⟨next, hnext, rfl⟩ := Option.map_eq_some_iff.mp hstep
      exact h.task hi hnext

/-- The wiring is in order in every state that the system reaches. -/
theorem wired_of_run {openFds : Int → Bool} {helpers : Helpers} {actions : List DriverAction}
    (hrun : runActions (step env) (initial openFds helpers) actions = some s) : s.Wired :=
  runActions_invariant (fun _ _ _ h hstep => h.step hstep) (wired_initial openFds helpers) hrun

/-- All the helpers that are driven are different. -/
theorem Wired.drives (h : s.Wired) : (s.tasks.flatMap Tracked.drives).Nodup := by
  rw [List.nodup_iff_count_le_one]
  intro k
  have hle := count_flatMap_le (f := Tracked.drives) (g := Tracked.rights) (b := k)
    fun tr htr => (h.wired tr htr).drives_le k
  exact Nat.le_trans hle (h.rights k)

/-- What one task drives is driven by no other. -/
theorem Wired.not_driven (h : s.Wired) {l r : List Tracked} {other : Tracked} {k : HelperKey}
    (hsplit : s.tasks = l ++ tr :: r) (hother : other ∈ l ++ r) (hk : k ∈ other.drives) :
    k ∉ tr.drives :=
  not_mem_of_count_le_one hsplit (List.nodup_iff_count_le_one.mp h.drives k) hother hk

/-- What a task drives belongs to a handler that exists. -/
theorem Wired.drives_le_counter (h : s.Wired) (htr : tr ∈ s.tasks) {k : HelperKey}
    (hk : k ∈ tr.drives) : k.1 ≤ s.shared.handlerIdCounter := by
  have hle := (h.wired tr htr).drives_le k
  have hright : k ∈ tr.rights :=
    List.count_pos_iff.mp (Nat.lt_of_lt_of_le (List.count_pos_iff.mpr hk) hle)
  exact h.bounded tr htr k hright

/-- A move of one task leaves the helpers of all others as they are. -/
theorem Wired.others (h : s.Wired) {l r : List Tracked} {other : Tracked} {status : Int}
    {intCnt : ℕ} {k : HelperKey} (hsplit : s.tasks = l ++ tr :: r) (hother : other ∈ l ++ r)
    (hstep : (tr.task.view s.helpers).step env s.shared (tr.task.viewMove s.helpers move) =
      some next) (hk : k ∈ other.drives) :
    s.helpers.after s.shared status intCnt next move k = s.helpers k := by
  by_contra hchanged
  rcases (h.wired tr (mem_of_split hsplit)).changed hstep hchanged with hdrives | hnew
  · exact h.not_driven hsplit hother hk hdrives
  · have hle := h.drives_le_counter (mem_of_mem_others hsplit hother) hk
    omega

/-- And so does a step of the system that is a move of this task. -/
theorem Wired.step_others (h : s.Wired) {i j : ℕ} {status : Int} {intCnt : ℕ} {other : Tracked}
    {k : HelperKey} (hstep : s.step env (.task i move status intCnt) = some s') (hne : j ≠ i)
    (hj : s.tasks[j]? = some other) (hk : k ∈ other.drives) : s'.helpers k = s.helpers k := by
  simp only [HelperPipeline.step, Option.bind_eq_some_iff] at hstep
  obtain ⟨tr, hi, hstep⟩ := hstep
  split at hstep
  · contradiction
  · obtain ⟨next, hnext, rfl⟩ := Option.map_eq_some_iff.mp hstep
    exact h.others (take_cons_drop hi) (mem_take_append_drop hj hne) hnext hk

/-- A tunnel job connects its client with the one target that the handshake of this client has
dialled: one direction reads from the client, the other from the target. -/
def WiredTunnel (s : HelperPipeline) (client : ℕ) (state : State) (isReader : Bool) : Prop :=
  ∃ target, s.dialled client = [target] ∧ state.ids = [client, target] ∧
    (Job.tcpTunnel state isReader).helpers =
      if isReader then [(target, .reader), (client, .writer)]
      else [(client, .reader), (target, .writer)]

/-- The jobs that were made of a result are the two directions of one tunnel. -/
theorem Wired.pair (h : s.Wired) {state : State} {jobs : List Job} {held : Custodian} {client : ℕ}
    (htr : ⟨client, .factory (.modeConnect state), .program (.pure (.spawn jobs)) held⟩ ∈ s.tasks) :
    ∃ forReader forWriter, jobs = [.tcpTunnel forReader true, .tcpTunnel forWriter false] ∧
      s.WiredTunnel client forReader true ∧ s.WiredTunnel client forWriter false := by
  obtain ⟨⟨target, hdialled, hids⟩, g, -, jobs', hjobs, hcreates⟩ := h.wired _ htr
  cases hjobs
  obtain ⟨forReader, forWriter, rfl, hreader, hwriter⟩ := hcreates
  have hreader' := hreader.order.trans hids
  have hwriter' := hwriter.order.trans hids
  exact ⟨forReader, forWriter, rfl,
    ⟨target, hdialled, hreader', Job.helpers_tcpTunnel true hreader'⟩,
    ⟨target, hdialled, hwriter', Job.helpers_tcpTunnel false hwriter'⟩⟩

/-- A tunnel job that runs is one direction of a tunnel, and its main loop works with the helpers of
this direction. -/
theorem Wired.running (h : s.Wired) (htr : tr ∈ s.tasks) {state : State} {isReader : Bool}
    {targets : List ℕ} (hrole : tr.role = .job (.tcpTunnel state isReader) targets) :
    s.WiredTunnel tr.client state isReader ∧
      ∀ state' reader writer t, tr.task = .copying state' reader writer t →
        (Job.tcpTunnel state isReader).helpers = [(reader, .reader), (writer, .writer)] := by
  obtain ⟨client, role, task⟩ := tr
  dsimp only at hrole
  subst hrole
  have hwired := h.wired _ htr
  have hplaced (hjob : (Job.tcpTunnel state isReader).Placed client (s.dialled client) targets) :
      s.WiredTunnel client state isReader := by
    obtain ⟨-, target, hdialled, hids⟩ := hjob
    exact ⟨target, hdialled, hids, Job.helpers_tcpTunnel isReader hids⟩
  cases task with
  | accepted id => exact hwired.elim
  | result r => exact hwired.elim
  | program p held => exact ⟨hplaced hwired.1, fun _ _ _ _ htask => nomatch htask⟩
  | copying state' reader writer t =>
    obtain ⟨hjob, -, hhelpers, -⟩ := hwired
    refine ⟨hplaced hjob, fun _ _ _ _ htask => ?_⟩
    cases htask
    exact hhelpers

/-- In every state that the system reaches, each tunnel connects its client with the target that the
handshake of this client has dialled, in opposite directions; no helper is driven by two jobs that
have not returned; and neither a move of one job, the shutdown of its helpers included, nor a notice
changes a field that another job drives. -/
theorem tunnels_wired_exclusively (env : Settings) (openFds : Int → Bool) (helpers : Helpers)
    (actions : List DriverAction) (s : HelperPipeline)
    (hrun : runActions (step env) (initial openFds helpers) actions = some s) :
    (∀ client state jobs held,
      ⟨client, .factory (.modeConnect state), .program (.pure (.spawn jobs)) held⟩ ∈ s.tasks →
        ∃ forReader forWriter, jobs = [.tcpTunnel forReader true, .tcpTunnel forWriter false] ∧
          s.WiredTunnel client forReader true ∧ s.WiredTunnel client forWriter false) ∧
      (∀ tr ∈ s.tasks, ∀ state isReader targets,
        tr.role = .job (.tcpTunnel state isReader) targets →
          s.WiredTunnel tr.client state isReader ∧
            ∀ state' reader writer t, tr.task = .copying state' reader writer t →
              (Job.tcpTunnel state isReader).helpers = [(reader, .reader), (writer, .writer)]) ∧
      (∀ tr ∈ s.tasks, ∀ k, tr.task.usesHelper = some k → k ∈ tr.drives) ∧
      (s.tasks.flatMap Tracked.drives).Nodup ∧
      (∀ i move status intCnt s', s.step env (.task i move status intCnt) = some s' →
        ∀ j other, j ≠ i → s.tasks[j]? = some other →
          ∀ k ∈ other.drives, s'.helpers k = s.helpers k) ∧
      ∀ key n s', s.step env (.notice key n) = some s' →
        ∀ k, (s'.helpers k).status = (s.helpers k).status ∧
          (s'.helpers k).intCnt = (s.helpers k).intCnt := by
  have h := wired_of_run hrun
  refine ⟨fun client state jobs held htr => h.pair htr,
    fun tr htr state isReader targets hrole => h.running htr hrole,
    fun tr htr k huses => (h.wired tr htr).drives_of_uses huses, h.drives,
    fun i move status intCnt s' hstep j other hne hj k hk => h.step_others hstep hne hj hk, ?_⟩
  intro key n s' hstep k
  cases hstep
  dsimp only
  by_cases hk : k = key
  · rw [hk, Function.update_self]
    exact ⟨TCPCommHelper.notify_status _ n, TCPCommHelper.notify_intCnt _ n⟩
  · rw [Function.update_of_ne hk]
    exact ⟨rfl, rfl⟩

/-- One user may log in. -/
def namedSettings : Settings := ⟨Handshake.oneUser, .little, Handshake.noLiterals, 4⟩

/-- A task makes a move that leaves new helpers as they are. -/
def moves (i : ℕ) (m : TaskMove) : DriverAction := .task i m 0 0

/-- A task performs operations; a new connection has the descriptor 8. -/
def calls (i : ℕ) (events : List (Event JobOp.Answer)) : List DriverAction :=
  events.map fun e => moves i (.call e 8)

/-- No helper was created yet. -/
def unused : Helpers := fun _ => newTCPCommHelper 0 false

/-- A client connects, its handshake connects a target, and both jobs of the tunnel start. -/
def tunnelled : List DriverAction :=
  [.accept 7, moves 0 .announce, moves 0 .process] ++
    calls 0 [⟨.newClaim 1, (0 : ℕ)⟩, ⟨.getState 0, ⟨0, 1⟩⟩, ⟨.claim 0, ⟨1, 1⟩⟩] ++
    [moves 0 (.spawn 1)] ++ calls 0 Handshake.namedEvents ++ [moves 0 .finish, moves 0 .process] ++
    calls 0 [⟨.claim 0, ⟨1, 1⟩⟩, ⟨.claim 1, ⟨1, 2⟩⟩, ⟨.claim 0, ⟨2, 1⟩⟩, ⟨.claim 1, ⟨2, 2⟩⟩] ++
    [moves 0 (.spawn 2)]

/-- The jobs are the two directions between the client and its target, and drive four helpers. -/
theorem tunnels_wired_exclusively_named :
    ∃ s, runActions (step namedSettings) (initial Pipeline.standardFds unused) tunnelled = some s ∧
      (∃ forReader forWriter, s.WiredTunnel 1 forReader true ∧ s.WiredTunnel 1 forWriter false) ∧
      s.tasks.flatMap Tracked.drives =
        [(2, .reader), (1, .writer), (1, .reader), (2, .writer)] ∧
      (s.tasks.flatMap Tracked.drives).Nodup := by
  have hshown : (runActions (step namedSettings) (initial Pipeline.standardFds unused) tunnelled).map
      (fun s => (s.tasks.map fun tr => (tr.client, tr.role), s.tasks.flatMap Tracked.drives)) =
        some ([(1, .job (.tcpTunnel ⟨[(0, ⟨1, 1⟩), (1, ⟨1, 2⟩)]⟩ true) []),
          (1, .job (.tcpTunnel ⟨[(0, ⟨2, 1⟩), (1, ⟨2, 2⟩)]⟩ false) [])],
          [(2, .reader), (1, .writer), (1, .reader), (2, .writer)]) := rfl
  obtain ⟨s, hrun, hshown⟩ := Option.map_eq_some_iff.mp hshown
  simp only [Prod.mk.injEq] at hshown
  obtain ⟨hroles, hdrives⟩ := hshown
  obtain ⟨-, hrunning, -, hnodup, -⟩ :=
    tunnels_wired_exclusively namedSettings Pipeline.standardFds unused tunnelled s hrun
  have hwired (state : State) (isReader : Bool)
      (hrole : (1, Role.job (.tcpTunnel state isReader) []) ∈
        s.tasks.map fun tr => (tr.client, tr.role)) : s.WiredTunnel 1 state isReader := by
    obtain ⟨tr, htr, heq⟩ := List.mem_map.mp hrole
    simp only [Prod.mk.injEq] at heq
    obtain ⟨hclient, hjob⟩ := heq
    rw [← hclient]
    exact (hrunning tr htr state isReader [] hjob).1
  rw [hroles] at hwired
  exact ⟨s, hrun, ⟨_, _, hwired ⟨[(0, ⟨1, 1⟩), (1, ⟨1, 2⟩)]⟩ true List.mem_cons_self,
    hwired ⟨[(0, ⟨2, 1⟩), (1, ⟨2, 2⟩)]⟩ false (List.mem_cons_of_mem _ List.mem_cons_self)⟩, hdrives,
    hnodup⟩

end HelperPipeline

end TinySox
