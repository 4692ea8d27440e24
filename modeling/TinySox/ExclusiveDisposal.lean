import Mathlib.Data.List.Perm.Lattice
import TinySox.JobPipeline

/-!
# One job disposes of a handler

Jobs that share a state count its claims up before they use the handlers, and down afterwards. Each
walks over the claims by itself, one atomic operation after the other, and keeps the values that it
got. As long as a counter has room for the jobs, every job gets another value of it, exactly one of
them gets the last one, and the results of the jobs make the factory dispose of every handler once.
With `2^31+1` jobs the counter has wrapped, and the first job that gives the handler up finds a negative
value.
-/

namespace TinySox

open TinySox.Common

/-- Some jobs, and the claims that they share. -/
structure ClaimWalks where
  shared : Shared
  jobs : List (JobProg JobResult State)
  /-- which job has counted which claim, with the state it got; not part of the program -/
  log : List (ℕ × ClaimRef × HandlerClaimState)

/-- What an operation counts. -/
def counted : Event JobOp.Answer → Option (ClaimRef × HandlerClaimState)
  | ⟨.claim c, (cState : HandlerClaimState)⟩ => some (c, cState)
  | ⟨.disclaim c, (cState : HandlerClaimState)⟩ => some (c, cState)
  | _ => none

/-- The job with this number performs its next operation. -/
def ClaimWalks.step (s : ClaimWalks) (a : ℕ × Event JobOp.Answer) : Option ClaimWalks :=
  s.jobs[a.1]?.bind fun p => (p.follow [a.2]).bind fun q =>
    (s.shared.perform 0 a.2.1 a.2.2).map fun sh =>
      ⟨sh, s.jobs.set a.1 q, s.log ++ (counted a.2).toList.map fun count => (a.1, count)⟩

/-- The two ways to count. -/
inductive CountOp
  | claim
  | disclaim

namespace CountOp

/-- The operation on one claim. -/
def prog : CountOp → ClaimRef → JobProg JobResult HandlerClaimState
  | .claim => JobProg.claim
  | .disclaim => JobProg.disclaim

/-- What it adds to the counter. -/
def delta : CountOp → Int
  | .claim => 1
  | .disclaim => -1

/-- A job that has counted some claims, and goes on with the rest. -/
def walk (op : CountOp) (done : List (ClaimRef × HandlerClaimState)) (rest : List ClaimRef) :
    JobProg JobResult State := do
  let entries ← State.refresh op.prog rest
  pure ⟨done ++ entries⟩

/-- `ClaimAllHandlers` or `DisclaimAllHandlers` -/
def all (op : CountOp) (s : State) : JobProg JobResult State := op.walk [] s.handlerClaims

/-- The first claim, and then the rest. -/
theorem walk_cons (op : CountOp) (done : List (ClaimRef × HandlerClaimState)) (c : ClaimRef)
    (rest : List ClaimRef) :
    op.walk done (c :: rest) =
      op.prog c >>= fun cState => op.walk (done ++ [(c, cState)]) rest := by
  simp only [walk, State.refresh, Prog.bind_assoc', Prog.pure_bind', List.append_assoc,
    List.singleton_append]

/-- An operation on a claim counts it. -/
theorem follow_prog {op : CountOp} {c : ClaimRef}
    {f : HandlerClaimState → JobProg JobResult State} {e : Event JobOp.Answer}
    {q : JobProg JobResult State} (h : (op.prog c >>= f).follow [e] = some q) :
    ∃ cState, counted e = some (c, cState) ∧
      (∀ sh : Shared, sh.perform 0 e.1 e.2 = sh.fetchAdd c op.delta cState) ∧ q = f cState := by
  obtain ⟨o, a⟩ := e
  cases op with
  | claim =>
    simp only [prog, Prog.perform, Prog.call_bind, Prog.follow, Option.dite_none_right_eq_some,
      Option.some.injEq] at h
    obtain ⟨rfl, rfl⟩ := h
    exact ⟨a, rfl, fun _ => rfl, rfl⟩
  | disclaim =>
    simp only [prog, Prog.perform, Prog.call_bind, Prog.follow, Option.dite_none_right_eq_some,
      Option.some.injEq] at h
    obtain ⟨rfl, rfl⟩ := h
    exact ⟨a, rfl, fun _ => rfl, rfl⟩

/-- A job that has claims left counts the next one. -/
theorem follow_walk {op : CountOp} {done : List (ClaimRef × HandlerClaimState)}
    {rest : List ClaimRef} {e : Event JobOp.Answer} {q : JobProg JobResult State}
    (h : (op.walk done rest).follow [e] = some q) :
    ∃ c cState later, rest = c :: later ∧ counted e = some (c, cState) ∧
      (∀ sh : Shared, sh.perform 0 e.1 e.2 = sh.fetchAdd c op.delta cState) ∧
      q = op.walk (done ++ [(c, cState)]) later := by
  cases rest with
  | nil => cases h
  | cons c later =>
    rw [walk_cons] at h
    obtain ⟨cState, hcounted, hperform, rfl⟩ := follow_prog h
    exact ⟨c, cState, later, rfl, hcounted, hperform, rfl⟩

/-- A job that has returned has no claims left. -/
theorem walk_eq_pure {op : CountOp} {done : List (ClaimRef × HandlerClaimState)}
    {rest : List ClaimRef} {s : State} (h : op.walk done rest = .pure s) : rest = [] ∧ s = ⟨done⟩ := by
  cases rest with
  | nil =>
    cases h
    exact ⟨rfl, by rw [List.append_nil]⟩
  | cons c later =>
    rw [walk_cons] at h
    cases op <;> cases h

end CountOp

/-- The jobs that have counted this claim, in order, with the states they got. -/
def visits (log : List (ℕ × ClaimRef × HandlerClaimState)) (c : ClaimRef) :
    List (ℕ × HandlerClaimState) :=
  log.filterMap fun e => if e.2.1 = c then some (e.1, e.2.2) else none

namespace CountOp

/-- The operation with its answer. -/
def event (op : CountOp) (c : ClaimRef) (cState : HandlerClaimState) : Event JobOp.Answer :=
  match op with
  | .claim => ⟨.claim c, cState⟩
  | .disclaim => ⟨.disclaim c, cState⟩

variable {op : CountOp} {c : ClaimRef} {cState : HandlerClaimState}

/-- The job goes on with the answer. -/
theorem walk_follow (done : List (ClaimRef × HandlerClaimState)) (later : List ClaimRef) :
    (op.walk done (c :: later)).follow [op.event c cState] = some (op.walk (done ++ [(c, cState)]) later) := by
  rw [walk_cons]
  cases op with
  | claim =>
    simp only [event, prog, Prog.perform, Prog.call_bind, Prog.follow, dite_true]
    rfl
  | disclaim =>
    simp only [event, prog, Prog.perform, Prog.call_bind, Prog.follow, dite_true]
    rfl

/-- What the operation does. -/
theorem perform_event (sh : Shared) :
    sh.perform 0 (op.event c cState).1 (op.event c cState).2 = sh.fetchAdd c op.delta cState := by
  cases op <;> rfl

/-- And what it counts. -/
theorem counted_event : counted (op.event c cState) = some (c, cState) := by
  cases op <;> rfl

end CountOp

/-- Nobody has counted anything. -/
@[simp] theorem visits_nil (c : ClaimRef) : visits [] c = [] := rfl

/-- One more visit. -/
theorem visits_append (log : List (ℕ × ClaimRef × HandlerClaimState)) (i : ℕ) (c : ClaimRef)
    (cState : HandlerClaimState) (c' : ClaimRef) :
    visits (log ++ [(i, c, cState)]) c' = visits log c' ++ if c = c' then [(i, cState)] else [] := by
  rw [visits, List.filterMap_append]
  congr 1
  by_cases hc : c = c'
  · rw [if_pos hc]
    simp [hc]
  · rw [if_neg hc]
    simp [hc]

/-- The jobs are on their way over the claims. Each counter has been moved by its visits, which are
by different jobs, and each job keeps what it got. -/
structure Walking (op : CountOp) (base : Int) (ident : ClaimRef → ℕ) (refs : List ClaimRef)
    (walks : List (List (ClaimRef × HandlerClaimState) × List ClaimRef)) (s : ClaimWalks) : Prop where
  jobs : s.jobs = walks.map fun w => op.walk w.1 w.2
  whole : ∀ w ∈ walks, w.1.map Prod.fst ++ w.2 = refs
  counters : ∀ c ∈ refs,
    s.shared.claims c = some ⟨wrapInt (base + op.delta * (visits s.log c).length), ident c⟩
  values : ∀ c ∈ refs, ∀ (m : ℕ) (v : ℕ × HandlerClaimState), (visits s.log c)[m]? = some v →
    v.2 = ⟨wrapInt (base + op.delta * (m + 1)), ident c⟩
  visitors : ∀ c, ((visits s.log c).map Prod.fst).Nodup
  bound : ∀ c, ∀ v ∈ visits s.log c, v.1 < walks.length
  recorded : ∀ i w c cState, walks[i]? = some w →
    ((c, cState) ∈ w.1 ↔ (i, cState) ∈ visits s.log c)

namespace Walking

variable {op : CountOp} {base : Int} {ident : ClaimRef → ℕ} {refs : List ClaimRef}
  {walks : List (List (ClaimRef × HandlerClaimState) × List ClaimRef)} {s s' : ClaimWalks}

/-- Nobody has set out yet. -/
theorem start {sh : Shared} (hbase : wrapInt base = base)
    (hclaims : ∀ c ∈ refs, sh.claims c = some ⟨base, ident c⟩) (k : ℕ) :
    Walking op base ident refs (List.replicate k ([], refs))
      ⟨sh, List.replicate k (op.walk [] refs), []⟩ := by
  constructor
  · rw [List.map_replicate]
  · intro w hw
    rw [List.eq_of_mem_replicate hw]
    rfl
  · intro c hc
    rw [hclaims c hc]
    simp [hbase]
  · exact fun c hc m v hv => nomatch hv
  · exact fun c => List.nodup_nil
  · exact fun c v hv => nomatch hv
  · intro i w c cState hw
    rw [List.eq_of_mem_replicate (List.mem_of_getElem? hw)]
    exact ⟨(fun h => nomatch h), fun h => nomatch h⟩

/-- What a step does: a job counts the next of its claims. -/
theorem exists_count (h : Walking op base ident refs walks s) {a : ℕ × Event JobOp.Answer}
    (hstep : s.step a = some s') :
    ∃ done c later old cState, walks[a.1]? = some (done, c :: later) ∧
      s.shared.claims c = some old ∧ cState = ⟨wrapInt (old.counter + op.delta), old.handlerID⟩ ∧
      s' = ⟨{ s.shared with claims := Function.update s.shared.claims c (some cState) },
        s.jobs.set a.1 (op.walk (done ++ [(c, cState)]) later), s.log ++ [(a.1, c, cState)]⟩ := by
  obtain ⟨p, hp, hstep⟩ := Option.bind_eq_some_iff.mp hstep
  obtain ⟨q, hq, hstep⟩ := Option.bind_eq_some_iff.mp hstep
  obtain ⟨sh, hsh, rfl⟩ := Option.map_eq_some_iff.mp hstep
  rw [h.jobs, List.getElem?_map, Option.map_eq_some_iff] at hp
  obtain ⟨⟨done, rest⟩, hw, rfl⟩ := hp
  obtain ⟨c, cState, later, rfl, hcounted, hperform, rfl⟩ := CountOp.follow_walk hq
  rw [hperform, Shared.fetchAdd] at hsh
  cases hold : s.shared.claims c with
  | none =>
    rw [hold] at hsh
    contradiction
  | some old =>
    rw [hold] at hsh
    obtain ⟨hcState, hsh⟩ := Option.ite_none_right_eq_some.mp hsh
    cases hsh
    refine ⟨done, c, later, old, cState, hw, hold, hcState, ?_⟩
    rw [hcounted]
    rfl

/-- Whoever is about to count a claim has not counted it before. -/
theorem not_visited (h : Walking op base ident refs walks s) (hrefs : refs.Nodup) {i : ℕ}
    {done : List (ClaimRef × HandlerClaimState)} {c : ClaimRef} {later : List ClaimRef}
    (hw : walks[i]? = some (done, c :: later)) : i ∉ (visits s.log c).map Prod.fst := by
  intro hmem
  obtain ⟨⟨_, cState⟩, hvisit, rfl⟩ := List.mem_map.mp hmem
  have hdone := (h.recorded _ _ c cState hw).mpr hvisit
  have hwhole := h.whole _ (List.mem_of_getElem? hw)
  rw [← hwhole] at hrefs
  exact (List.nodup_append.mp hrefs).2.2 c (List.mem_map_of_mem hdone) c List.mem_cons_self rfl

/-- The job with this number counts the next of its claims. -/
theorem count (h : Walking op base ident refs walks s) (hrefs : refs.Nodup) {i : ℕ}
    {done : List (ClaimRef × HandlerClaimState)} {c : ClaimRef} {later : List ClaimRef}
    (hw : walks[i]? = some (done, c :: later)) {cState : HandlerClaimState}
    (hcState : cState = ⟨wrapInt (base + op.delta * ((visits s.log c).length + 1)), ident c⟩) :
    Walking op base ident refs (walks.set i (done ++ [(c, cState)], later))
      ⟨{ s.shared with claims := Function.update s.shared.claims c (some cState) },
        s.jobs.set i (op.walk (done ++ [(c, cState)]) later), s.log ++ [(i, c, cState)]⟩ := by
  have hwhole := h.whole _ (List.mem_of_getElem? hw)
  obtain ⟨hi, -⟩ := List.getElem?_eq_some_iff.mp hw
  constructor
  · rw [h.jobs, List.map_set]
  · intro w hmem
    rcases List.mem_or_eq_of_mem_set hmem with hmem | rfl
    · exact h.whole w hmem
    · rw [← hwhole, List.map_append, List.append_assoc]
      rfl
  · intro c' hc'
    change Function.update s.shared.claims c (some cState) c' = _
    rw [visits_append]
    by_cases hcc : c = c'
    · subst hcc
      rw [Function.update_self, if_pos rfl, List.length_append, List.length_singleton, hcState]
      rfl
    · rw [Function.update_of_ne (Ne.symm hcc), if_neg hcc, List.append_nil]
      exact h.counters c' hc'
  · intro c' hc' m v hv
    rw [visits_append] at hv
    by_cases hcc : c = c'
    · subst hcc
      rw [if_pos rfl, List.getElem?_append] at hv
      split_ifs at hv with hm
      · exact h.values c hc' m v hv
      · obtain ⟨hlast, hv⟩ := List.getElem?_eq_some_iff.mp hv
        rw [List.length_singleton] at hlast
        have hm' : m = (visits s.log c).length := by omega
        rw [← hv, List.getElem_singleton, hcState, hm']
    · rw [if_neg hcc, List.append_nil] at hv
      exact h.values c' hc' m v hv
  · intro c'
    rw [visits_append]
    by_cases hcc : c = c'
    · subst hcc
      rw [if_pos rfl, List.map_append, List.map_singleton, List.nodup_append]
      refine ⟨h.visitors c, List.nodup_singleton _, ?_⟩
      rintro j hj _ hlast rfl
      rw [List.mem_singleton.mp hlast] at hj
      exact h.not_visited hrefs hw hj
    · rw [if_neg hcc, List.append_nil]
      exact h.visitors c'
  · intro c' v hv
    rw [List.length_set]
    rw [visits_append] at hv
    rcases List.mem_append.mp hv with hv | hv
    · exact h.bound c' v hv
    · split_ifs at hv with hcc
      · rw [List.mem_singleton.mp hv]
        exact hi
      · nomatch hv
  · intro j w c' cState' hj
    rw [visits_append, List.mem_append]
    rw [List.getElem?_set] at hj
    by_cases hij : i = j
    · subst hij
      rw [if_pos rfl, if_pos hi] at hj
      cases hj
      rw [List.mem_append, h.recorded i _ c' cState' hw, List.mem_singleton, Prod.mk.injEq]
      apply or_congr_right
      by_cases hcc : c = c'
      · rw [if_pos hcc, List.mem_singleton, Prod.mk.injEq]
        exact and_congr ⟨fun _ => rfl, fun _ => hcc.symm⟩ Iff.rfl
      · rw [if_neg hcc]
        exact ⟨fun hnew => absurd hnew.1.symm hcc, fun hnew => nomatch hnew⟩
    · rw [if_neg hij] at hj
      rw [h.recorded j w c' cState' hj]
      refine ⟨Or.inl, fun hvisit => hvisit.resolve_right fun hnew => ?_⟩
      split_ifs at hnew
      · exact hij (Prod.mk.inj (List.mem_singleton.mp hnew)).1.symm
      · nomatch hnew

/-- A step of a job. -/
theorem step (h : Walking op base ident refs walks s) (hrefs : refs.Nodup)
    {a : ℕ × Event JobOp.Answer} (hstep : s.step a = some s') :
    ∃ walks', walks'.length = walks.length ∧ Walking op base ident refs walks' s' := by
  obtain ⟨done, c, later, old, cState, hw, hold, hcState, rfl⟩ := h.exists_count hstep
  have hc : c ∈ refs := by
    rw [← h.whole _ (List.mem_of_getElem? hw)]
    exact List.mem_append_right _ List.mem_cons_self
  cases hold.symm.trans (h.counters c hc)
  refine ⟨_, List.length_set, h.count hrefs hw ?_⟩
  rw [hcState, wrapInt_add, Int.mul_add, Int.mul_one, Int.add_assoc]

/-- A run of the jobs. -/
theorem run (h : Walking op base ident refs walks s) (hrefs : refs.Nodup)
    {actions : List (ℕ × Event JobOp.Answer)}
    (hrun : runActions ClaimWalks.step s actions = some s') :
    ∃ walks', walks'.length = walks.length ∧ Walking op base ident refs walks' s' := by
  let Inv (u : ClaimWalks) : Prop :=
    ∃ walks', walks'.length = walks.length ∧ Walking op base ident refs walks' u
  have hstep : ∀ u a u', Inv u → u.step a = some u' → Inv u' := by
    rintro u a u' ⟨walks', hlength, hwalking⟩ hu
    obtain ⟨walks'', hlength', hwalking'⟩ := hwalking.step hrefs hu
    exact ⟨walks'', hlength'.trans hlength, hwalking'⟩
  exact runActions_invariant hstep ⟨walks, rfl, h⟩ hrun

/-- A job that has claims left can count the next one. -/
theorem exists_step (h : Walking op base ident refs walks s) (hrefs : refs.Nodup) {i : ℕ}
    {done : List (ClaimRef × HandlerClaimState)} {c : ClaimRef} {later : List ClaimRef}
    (hw : walks[i]? = some (done, c :: later)) :
    ∃ a t cState, s.step a = some t ∧
      Walking op base ident refs (walks.set i (done ++ [(c, cState)], later)) t := by
  have hc : c ∈ refs := by
    rw [← h.whole _ (List.mem_of_getElem? hw)]
    exact List.mem_append_right _ List.mem_cons_self
  let cState : HandlerClaimState :=
    ⟨wrapInt (base + op.delta * ((visits s.log c).length + 1)), ident c⟩
  refine ⟨(i, op.event c cState), _, cState, ?_, h.count hrefs hw rfl⟩
  have hjob : s.jobs[i]? = some (op.walk done (c :: later)) := by
    rw [h.jobs, List.getElem?_map, hw, Option.map_some]
  have hanswer : cState = ⟨wrapInt (wrapInt (base + op.delta * (visits s.log c).length) + op.delta),
      ident c⟩ := by
    rw [wrapInt_add, Int.add_assoc]
    simp only [cState, Int.mul_add, Int.mul_one]
  have hadd : s.shared.fetchAdd c op.delta cState =
      some { s.shared with claims := Function.update s.shared.claims c (some cState) } := by
    rw [Shared.fetchAdd, h.counters c hc]
    exact if_pos hanswer
  rw [ClaimWalks.step, hjob, Option.bind_some, CountOp.walk_follow, Option.bind_some,
    CountOp.perform_event, hadd, Option.map_some, CountOp.counted_event]
  rfl

/-- So the jobs can go on until all of them have returned. -/
theorem exists_run (h : Walking op base ident refs walks s) (hrefs : refs.Nodup) :
    ∃ actions t, ∃ states : List State,
      runActions ClaimWalks.step s actions = some t ∧ t.jobs = states.map .pure := by
  -- by induction on the number of operations that are left
  induction hn : (walks.map fun w => w.2.length).sum generalizing walks s with
  | zero =>
    rw [List.sum_eq_zero_iff_forall_eq_nat, List.forall_mem_map] at hn
    refine ⟨[], s, walks.map fun w => ⟨w.1⟩, rfl, ?_⟩
    rw [h.jobs, List.map_map]
    apply List.map_congr_left
    rintro ⟨done, rest⟩ hw
    have hrest : rest = [] := by simpa using hn (done, rest) hw
    rw [hrest, Function.comp_apply, CountOp.walk, State.refresh,
      Prog.pure_bind', List.append_nil]
    rfl
  | succ n ih =>
    obtain ⟨⟨done, rest⟩, hw, hsome⟩ : ∃ w ∈ walks, w.2 ≠ [] := by
      by_contra hnone
      push Not at hnone
      have hzero : (walks.map fun w => w.2.length).sum = 0 := by
        rw [List.sum_eq_zero_iff_forall_eq_nat, List.forall_mem_map]
        exact fun w hw => List.length_eq_zero_iff.mpr (hnone w hw)
      omega
    obtain ⟨c, later, rfl⟩ := List.exists_cons_of_ne_nil hsome
    obtain ⟨i, hi⟩ := List.mem_iff_getElem?.mp hw
    obtain ⟨a, t, cState, hstep, hwalking⟩ := h.exists_step hrefs hi
    have hless := sum_map_replaceAt hi (fun w => w.2.length) [(done ++ [(c, cState)], later)]
    rw [← set_eq_replaceAt hi, hn, List.map_singleton, List.sum_singleton, List.length_cons] at hless
    have hn' : ((walks.set i (done ++ [(c, cState)], later)).map fun w => w.2.length).sum = n := by
      dsimp only at hless
      omega
    obtain ⟨actions, u, states, hrun, hdone⟩ := ih hwalking hn'
    refine ⟨a :: actions, u, states, ?_, hdone⟩
    rw [runActions, hstep]
    exact hrun

end Walking

/-- All jobs have been to all claims. -/
structure Walked (op : CountOp) (base : Int) (ident : ClaimRef → ℕ) (refs : List ClaimRef)
    (states : List State) (s : ClaimWalks) : Prop where
  names : ∀ state ∈ states, state.handlerClaims = refs
  counters : ∀ c ∈ refs, s.shared.claims c = some ⟨wrapInt (base + op.delta * states.length), ident c⟩
  visitors : ∀ c ∈ refs, ((visits s.log c).map Prod.fst).Perm (List.range states.length)
  values : ∀ c ∈ refs, ∀ (m : ℕ) (v : ℕ × HandlerClaimState), (visits s.log c)[m]? = some v →
    v.2 = ⟨wrapInt (base + op.delta * (m + 1)), ident c⟩
  recorded : ∀ i state c cState, states[i]? = some state →
    ((c, cState) ∈ state.entries ↔ (i, cState) ∈ visits s.log c)

/-- Every job returns a state. -/
theorem Walking.length_eq {op : CountOp} {base : Int} {ident : ClaimRef → ℕ} {refs : List ClaimRef}
    {walks : List (List (ClaimRef × HandlerClaimState) × List ClaimRef)} {s : ClaimWalks}
    (h : Walking op base ident refs walks s) {states : List State}
    (hdone : s.jobs = states.map .pure) : states.length = walks.length := by
  have hlength := congrArg List.length (h.jobs.symm.trans hdone)
  rw [List.length_map, List.length_map] at hlength
  exact hlength.symm

/-- Jobs that have all returned have been to all claims. -/
theorem Walking.walked {op : CountOp} {base : Int} {ident : ClaimRef → ℕ} {refs : List ClaimRef}
    {walks : List (List (ClaimRef × HandlerClaimState) × List ClaimRef)} {s : ClaimWalks}
    (h : Walking op base ident refs walks s) {states : List State}
    (hdone : s.jobs = states.map .pure) : Walked op base ident refs states s := by
  have hjobs := h.jobs.symm.trans hdone
  have hover {i : ℕ} {state : State} (hi : states[i]? = some state) :
      walks[i]? = some (state.entries, []) := by
    have hget := congrArg (·[i]?) hjobs
    simp only [List.getElem?_map, hi, Option.map_some, Option.map_eq_some_iff] at hget
    obtain ⟨⟨done, rest⟩, hw, hwalk⟩ := hget
    obtain ⟨hrest, hstate⟩ := CountOp.walk_eq_pure hwalk
    rw [hw, hstate]
    exact congrArg (fun r => some (done, r)) hrest
  have hnames : ∀ state ∈ states, state.handlerClaims = refs := by
    intro state hstate
    obtain ⟨i, hi⟩ := List.mem_iff_getElem?.mp hstate
    have hwhole := h.whole _ (List.mem_of_getElem? (hover hi))
    rwa [List.append_nil] at hwhole
  have hrecorded : ∀ i state c cState, states[i]? = some state →
      ((c, cState) ∈ state.entries ↔ (i, cState) ∈ visits s.log c) :=
    fun i state c cState hi => h.recorded i _ c cState (hover hi)
  have hvisitors : ∀ c ∈ refs, ((visits s.log c).map Prod.fst).Perm (List.range states.length) := by
    intro c hc
    rw [List.perm_ext_iff_of_nodup (h.visitors c) List.nodup_range]
    intro i
    rw [List.mem_range]
    constructor
    · intro hi
      obtain ⟨v, hv, rfl⟩ := List.mem_map.mp hi
      exact h.length_eq hdone ▸ h.bound c v hv
    · intro hi
      have hget := List.getElem?_eq_getElem hi
      rw [← hnames _ (List.mem_of_getElem? hget)] at hc
      obtain ⟨⟨_, cState⟩, hentry, rfl⟩ := List.mem_map.mp hc
      exact List.mem_map_of_mem ((hrecorded i _ _ cState hget).mp hentry)
  refine ⟨hnames, fun c hc => ?_, hvisitors, h.values, hrecorded⟩
  have hcount := (hvisitors c hc).length_eq
  rw [List.length_map, List.length_range] at hcount
  rw [h.counters c hc, hcount]

/-- The claims that a state reports as unclaimed. -/
def State.unclaimed (s : State) : List ClaimRef :=
  (s.entries.filter fun e => e.2.counter < 1).map Prod.fst

/-- Such a claim is listed with a counter below 1. -/
theorem State.mem_unclaimed {s : State} {c : ClaimRef} :
    c ∈ s.unclaimed ↔ ∃ cState, (c, cState) ∈ s.entries ∧ cState.counter < 1 := by
  simp [unclaimed]

namespace Walked

variable {ident : ClaimRef → ℕ} {refs : List ClaimRef} {states : List State} {s : ClaimWalks}

/-- Of the jobs that have given up a claim, the last one reports it as unclaimed, and no other. -/
theorem unclaimed_iff_last (h : Walked .disclaim states.length ident refs states s)
    (hfew : states.length < 2 ^ 31) {c : ClaimRef} (hc : c ∈ refs) (hsome : states ≠ []) :
    ∃ i < states.length, (visits s.log c).getLast?.map Prod.fst = some i ∧
      ∀ j state, states[j]? = some state → (c ∈ state.unclaimed ↔ j = i) := by
  have hlength := (h.visitors c hc).length_eq
  rw [List.length_map, List.length_range] at hlength
  have hpos : 0 < (visits s.log c).length := hlength ▸ List.length_pos_of_ne_nil hsome
  have hlast : (visits s.log c).getLast? = some (visits s.log c)[(visits s.log c).length - 1] := by
    rw [List.getLast?_eq_getElem?, List.getElem?_eq_getElem]
  have hvalue (m : ℕ) (v : ℕ × HandlerClaimState) (hv : (visits s.log c)[m]? = some v) :
      v.2.counter < 1 ↔ m = (visits s.log c).length - 1 := by
    obtain ⟨hm, -⟩ := List.getElem?_eq_some_iff.mp hv
    have hcounter : v.2.counter = wrapInt (states.length + -1 * (m + 1)) :=
      congrArg HandlerClaimState.counter (h.values c hc m v hv)
    rw [wrapInt_eq (by omega) (by omega)] at hcounter
    omega
  have hvisitor : ((visits s.log c)[(visits s.log c).length - 1]).1 ∈ List.range states.length :=
    (h.visitors c hc).subset (List.mem_map_of_mem (List.getElem_mem _))
  refine ⟨_, List.mem_range.mp hvisitor, by rw [hlast]; rfl, fun j state hj => ?_⟩
  rw [State.mem_unclaimed]
  constructor
  · rintro ⟨cState, hentry, hzero⟩
    obtain ⟨m, hm⟩ := List.mem_iff_getElem?.mp ((h.recorded j state c cState hj).mp hentry)
    obtain rfl := (hvalue m _ hm).mp hzero
    obtain ⟨hlt, hget⟩ := List.getElem?_eq_some_iff.mp hm
    rw [hget]
  · intro hji
    have hget : (visits s.log c)[(visits s.log c).length - 1]? =
        some (j, (visits s.log c)[(visits s.log c).length - 1].2) := by
      rw [hji, List.getElem?_eq_getElem]
    exact ⟨_, (h.recorded j state c _ hj).mpr (List.mem_of_getElem? hget), (hvalue _ _ hget).mpr rfl⟩

/-- Together, the states report every claim once. -/
theorem flatMap_unclaimed (h : Walked .disclaim states.length ident refs states s)
    (hfew : states.length < 2 ^ 31) (hrefs : refs.Nodup) (hsome : states ≠ []) :
    (states.flatMap State.unclaimed).Perm refs := by
  have hsub {state : State} (hstate : state ∈ states) : state.unclaimed.Sublist refs := by
    rw [← h.names state hstate]
    exact List.filter_sublist.map Prod.fst
  have hnodup : (states.flatMap State.unclaimed).Nodup := by
    rw [List.nodup_flatMap]
    refine ⟨fun state hstate => (hsub hstate).nodup hrefs, ?_⟩
    rw [List.pairwise_iff_getElem]
    intro i j hi hj hij c hci hcj
    have hc : c ∈ refs := (hsub (List.getElem_mem hi)).subset hci
    obtain ⟨last, -, -, hlast⟩ := h.unclaimed_iff_last hfew hc hsome
    have hi' := (hlast i _ (List.getElem?_eq_getElem hi)).mp hci
    have hj' := (hlast j _ (List.getElem?_eq_getElem hj)).mp hcj
    omega
  rw [List.perm_ext_iff_of_nodup hnodup hrefs]
  intro c
  rw [List.mem_flatMap]
  constructor
  · rintro ⟨state, hstate, hc⟩
    exact (hsub hstate).subset hc
  · intro hc
    obtain ⟨last, hlt, -, hlast⟩ := h.unclaimed_iff_last hfew hc hsome
    exact ⟨_, List.getElem_mem hlt, (hlast last _ (List.getElem?_eq_getElem hlt)).mpr rfl⟩

/-- The states name the handlers of the claims. -/
theorem handlerID_eq {base : Int} (h : Walked .disclaim base ident refs states s) {state : State}
    (hstate : state ∈ states) {e : ClaimRef × HandlerClaimState} (he : e ∈ state.entries) :
    e.2.handlerID = ident e.1 := by
  obtain ⟨i, hi⟩ := List.mem_iff_getElem?.mp hstate
  have hc : e.1 ∈ refs := by
    rw [← h.names state hstate]
    exact List.mem_map_of_mem he
  obtain ⟨m, hm⟩ := List.mem_iff_getElem?.mp ((h.recorded i state e.1 e.2 hi).mp he)
  exact congrArg HandlerClaimState.handlerID (h.values e.1 hc m _ hm)

end Walked

/-- The factory disposes of what a terminal result reports as unclaimed, and does nothing else. -/
theorem JobFactory.follow_terminal {state : State} {t : List (Event JobOp.Answer)} {jobs : List Job}
    (h : (createJobsFromResult (.terminal state)).follow t = some (.pure jobs)) :
    t.map (fun e => e.1) = (state.entries.filter fun e => e.2.counter < 1).map
      fun e => JobOp.disposeHandler e.2.handlerID := by
  obtain ⟨entries⟩ := state
  simp only [createJobsFromResult, State.handlerClaimStates] at h
  induction entries generalizing t with
  | nil =>
    cases t with
    | nil => rfl
    | cons e t => cases h
  | cons entry rest ih =>
    simp only [List.map_cons, disposeUnclaimed] at h
    split_ifs at h with hzero
    · cases t with
      | nil => cases h
      | cons e t =>
        simp only [Prog.perform, Prog.call_bind, Prog.follow, Option.dite_none_right_eq_some] at h
        obtain ⟨he, hrest⟩ := h
        simp only [List.filter_cons, decide_eq_true hzero, if_true, List.map_cons, he]
        exact congrArg _ (ih hrest)
    · simp only [List.filter_cons, decide_eq_false hzero, Bool.false_eq_true, if_false]
      exact ih h

/-- The claims of the state are different objects, and nobody has claimed any of them. -/
structure State.Fresh (s : State) (sh : Shared) : Prop where
  distinct : s.handlerClaims.Nodup
  zero : ∀ e ∈ s.entries, sh.claims e.1 = some ⟨0, e.2.handlerID⟩

/-- The handler of a claim. -/
def Shared.handlerOf (sh : Shared) (c : ClaimRef) : ℕ := ((sh.claims c).map HandlerClaimState.handlerID).getD 0

namespace State.Fresh

variable {s : State} {sh : Shared}

/-- All counters are zero. -/
theorem claims_eq (h : s.Fresh sh) (c : ClaimRef) (hc : c ∈ s.handlerClaims) :
    sh.claims c = some ⟨0, sh.handlerOf c⟩ := by
  obtain ⟨e, he, rfl⟩ := List.mem_map.mp hc
  rw [Shared.handlerOf, h.zero e he]
  rfl

/-- The state lists the handlers of its claims. -/
theorem handlerIDs (h : s.Fresh sh) :
    s.handlerClaimStates.map HandlerClaimState.handlerID = s.handlerClaims.map sh.handlerOf := by
  rw [State.handlerClaimStates, State.handlerClaims, List.map_map, List.map_map]
  apply List.map_congr_left
  intro e he
  rw [Function.comp_apply, Function.comp_apply, Shared.handlerOf, h.zero e he]
  rfl

end State.Fresh

/-- Whatever comes of it in any order, the factory disposes of what the states report. -/
theorem JobFactory.follow_terminals {order : List State} {traces : List (List (Event JobOp.Answer))}
    {ident : ClaimRef → ℕ}
    (hident : ∀ state ∈ order, ∀ e ∈ state.entries, e.2.handlerID = ident e.1)
    (htraces : List.Forall₂ (fun state t => ∃ jobs,
      (createJobsFromResult (.terminal state)).follow t = some (.pure jobs)) order traces) :
    traces.flatten.map (fun e => e.1) =
      (order.flatMap State.unclaimed).map fun c => JobOp.disposeHandler (ident c) := by
  induction htraces with
  | nil => rfl
  | @cons state t order traces hfirst hrest ih =>
    obtain ⟨jobs, hjobs⟩ := hfirst
    obtain ⟨hstate, horder⟩ := List.forall_mem_cons.mp hident
    rw [List.flatten_cons, List.map_append, List.flatMap_cons, List.map_append, ih horder,
      follow_terminal hjobs, State.unclaimed, List.map_map]
    congr 1
    apply List.map_congr_left
    intro e he
    rw [hstate e (List.mem_of_mem_filter he)]
    rfl

/-- Jobs that have claimed all handlers can give them up. -/
theorem Walked.all_disclaim {ident : ClaimRef → ℕ} {refs : List ClaimRef} {claimed : List State}
    {t : ClaimWalks} (h : Walked .claim 0 ident refs claimed t) :
    claimed.map State.disclaimAllHandlers =
        List.replicate claimed.length (CountOp.disclaim.walk [] refs) ∧
      ∀ c ∈ refs, t.shared.claims c = some ⟨wrapInt claimed.length, ident c⟩ := by
  constructor
  · rw [List.map_eq_replicate_iff]
    intro state hstate
    rw [State.disclaimAllHandlers, h.names state hstate]
    rfl
  · intro c hc
    rw [h.counters c hc, CountOp.delta, Int.one_mul, Int.zero_add]

/-- Jobs that have claimed the handlers of a state, and have given them up, have been to all of them. -/
theorem walked_disclaim {s : State} {sh : Shared} (hfresh : s.Fresh sh) {k : ℕ}
    {claiming disclaiming : List (ℕ × Event JobOp.Answer)} {afterClaims afterDisclaims : ClaimWalks}
    {claimed disclaimed : List State}
    (hclaim : runActions ClaimWalks.step ⟨sh, List.replicate k s.claimAllHandlers, []⟩ claiming =
      some afterClaims)
    (hclaimed : afterClaims.jobs = claimed.map .pure)
    (hdisclaim : runActions ClaimWalks.step
      ⟨afterClaims.shared, claimed.map State.disclaimAllHandlers, []⟩ disclaiming = some afterDisclaims)
    (hdisclaimed : afterDisclaims.jobs = disclaimed.map .pure) :
    disclaimed.length = k ∧
      Walked .disclaim (wrapInt k) sh.handlerOf s.handlerClaims disclaimed afterDisclaims := by
  have hset : Walking .claim _ _ _ _ _ := Walking.start (by decide) hfresh.claims_eq k
  obtain ⟨walks, hlength, hwalking⟩ := hset.run hfresh.distinct hclaim
  have hk : claimed.length = k := by
    rw [hwalking.length_eq hclaimed, hlength, List.length_replicate]
  obtain ⟨hjobs, hcounters⟩ := (hwalking.walked hclaimed).all_disclaim
  rw [hk] at hjobs hcounters
  rw [hjobs] at hdisclaim
  have hset' : Walking .disclaim _ _ _ _ _ := Walking.start Int.bmod_bmod hcounters k
  obtain ⟨walks', hlength', hwalking'⟩ := hset'.run hfresh.distinct hdisclaim
  refine ⟨?_, hwalking'.walked hdisclaimed⟩
  rw [hwalking'.length_eq hdisclaimed, hlength', List.length_replicate]

/-- Exactly one disposer per handler. If fewer than `2^31` jobs have all claimed the handlers of a
state, and then give them up in any interleaving, the last one to give up a handler is the only one
that reports it as unclaimed. So the factory disposes of every handler once, in whatever order it gets
the results. -/
theorem exactly_one_disposer {s : State} {sh : Shared} (hfresh : s.Fresh sh) {k : ℕ} (hk : 1 ≤ k)
    (hfew : k < 2 ^ 31)
    {claiming disclaiming : List (ℕ × Event JobOp.Answer)} {afterClaims afterDisclaims : ClaimWalks}
    {claimed disclaimed : List State}
    (hclaim : runActions ClaimWalks.step ⟨sh, List.replicate k s.claimAllHandlers, []⟩ claiming =
      some afterClaims)
    (hclaimed : afterClaims.jobs = claimed.map .pure)
    (hdisclaim : runActions ClaimWalks.step
      ⟨afterClaims.shared, claimed.map State.disclaimAllHandlers, []⟩ disclaiming = some afterDisclaims)
    (hdisclaimed : afterDisclaims.jobs = disclaimed.map .pure) :
    disclaimed.length = k ∧
      (∀ c ∈ s.handlerClaims, ∃ i < k, (visits afterDisclaims.log c).getLast?.map Prod.fst = some i ∧
        ∀ j state, disclaimed[j]? = some state → (c ∈ state.unclaimed ↔ j = i)) ∧
      ∀ order traces, order.Perm disclaimed → List.Forall₂ (fun state t => ∃ jobs,
          (JobFactory.createJobsFromResult (.terminal state)).follow t = some (.pure jobs)) order traces →
        (traces.flatten.map fun e => e.1).Perm
          (s.handlerClaimStates.map fun cState => JobOp.disposeHandler cState.handlerID) := by
  obtain ⟨rfl, hwalked⟩ := walked_disclaim hfresh hclaim hclaimed hdisclaim hdisclaimed
  rw [wrapInt_eq (by omega) (by omega)] at hwalked
  have hsome : disclaimed ≠ [] := List.ne_nil_of_length_pos hk
  refine ⟨rfl, fun c hc => hwalked.unclaimed_iff_last hfew hc hsome, ?_⟩
  intro order traces horder htraces
  have hident : ∀ state ∈ order, ∀ e ∈ state.entries, e.2.handlerID = sh.handlerOf e.1 :=
    fun state hstate e he => hwalked.handlerID_eq (horder.subset hstate) he
  have hids : s.handlerClaimStates.map (fun cState => JobOp.disposeHandler cState.handlerID) =
      s.handlerClaims.map fun c => JobOp.disposeHandler (sh.handlerOf c) := by
    have hmap := congrArg (List.map JobOp.disposeHandler) hfresh.handlerIDs
    rwa [List.map_map, List.map_map] at hmap
  rw [JobFactory.follow_terminals hident htraces, hids]
  exact ((horder.flatMap_right State.unclaimed).trans
    (hwalked.flatMap_unclaimed hfew hfresh.distinct hsome)).map _

/-- Two handlers that nobody has claimed. -/
def twoHandlers : State := ⟨[(0, ⟨0, 7⟩), (1, ⟨0, 8⟩)]⟩

/-- What holds their claims. -/
def twoClaims : Shared where
  commHandlers _ := none
  handlerIdCounter := 8
  helperFds _ := none
  openFds _ := false
  claims c := if c = 0 then some ⟨0, 7⟩ else if c = 1 then some ⟨0, 8⟩ else none
  disposals := []

/-- Two jobs claim them. -/
def twoClaiming : List (ℕ × Event JobOp.Answer) :=
  [(0, ⟨.claim 0, ⟨1, 7⟩⟩), (1, ⟨.claim 0, ⟨2, 7⟩⟩), (1, ⟨.claim 1, ⟨1, 8⟩⟩), (0, ⟨.claim 1, ⟨2, 8⟩⟩)]

/-- The first job is the last one to give up the first handler, and the second one the second. -/
def twoDisclaiming : List (ℕ × Event JobOp.Answer) :=
  [(1, ⟨.disclaim 0, ⟨1, 7⟩⟩), (0, ⟨.disclaim 0, ⟨0, 7⟩⟩), (0, ⟨.disclaim 1, ⟨1, 8⟩⟩),
    (1, ⟨.disclaim 1, ⟨0, 8⟩⟩)]

/-- What the jobs have claimed. -/
def twoClaimed : List State := [⟨[(0, ⟨1, 7⟩), (1, ⟨2, 8⟩)]⟩, ⟨[(0, ⟨2, 7⟩), (1, ⟨1, 8⟩)]⟩]

/-- What their results report. -/
def twoDisclaimed : List State := [⟨[(0, ⟨0, 7⟩), (1, ⟨1, 8⟩)]⟩, ⟨[(0, ⟨1, 7⟩), (1, ⟨0, 8⟩)]⟩]

/-- Both results together dispose of both handlers, in either order. -/
theorem exactly_one_disposer_two : ∃ afterClaims afterDisclaims,
    runActions ClaimWalks.step ⟨twoClaims, List.replicate 2 twoHandlers.claimAllHandlers, []⟩
        twoClaiming = some afterClaims ∧
      runActions ClaimWalks.step
        ⟨afterClaims.shared, twoClaimed.map State.disclaimAllHandlers, []⟩ twoDisclaiming =
          some afterDisclaims ∧
      ∀ order traces, order.Perm twoDisclaimed → List.Forall₂ (fun state t => ∃ jobs,
          (JobFactory.createJobsFromResult (.terminal state)).follow t = some (.pure jobs)) order traces →
        (traces.flatten.map fun e => e.1).Perm [.disposeHandler 7, .disposeHandler 8] := by
  have hfresh : twoHandlers.Fresh twoClaims := by
    constructor
    · decide
    · simp [twoHandlers, twoClaims]
  obtain ⟨afterClaims, hclaim, hclaimed, hclaims⟩ : ∃ afterClaims,
      runActions ClaimWalks.step ⟨twoClaims, List.replicate 2 twoHandlers.claimAllHandlers, []⟩
        twoClaiming = some afterClaims ∧ afterClaims.jobs = twoClaimed.map .pure ∧
      ∃ afterDisclaims, runActions ClaimWalks.step
        ⟨afterClaims.shared, twoClaimed.map State.disclaimAllHandlers, []⟩ twoDisclaiming =
          some afterDisclaims ∧ afterDisclaims.jobs = twoDisclaimed.map .pure :=
    ⟨_, rfl, rfl, _, rfl, rfl⟩
  obtain ⟨afterDisclaims, hdisclaim, hdisclaimed⟩ := hclaims
  refine ⟨afterClaims, afterDisclaims, hclaim, hdisclaim, ?_⟩
  exact (exactly_one_disposer hfresh (by decide) (by decide) hclaim hclaimed hdisclaim hdisclaimed).2.2

/-- Any number of jobs can claim the handlers of a state, and then give them up. -/
theorem exists_disclaimed {s : State} {sh : Shared} (hfresh : s.Fresh sh) (k : ℕ) :
    ∃ claiming disclaiming afterClaims afterDisclaims, ∃ claimed disclaimed : List State,
      runActions ClaimWalks.step ⟨sh, List.replicate k s.claimAllHandlers, []⟩ claiming = some afterClaims ∧
        afterClaims.jobs = claimed.map .pure ∧
      runActions ClaimWalks.step
        ⟨afterClaims.shared, claimed.map State.disclaimAllHandlers, []⟩ disclaiming =
          some afterDisclaims ∧ afterDisclaims.jobs = disclaimed.map .pure := by
  have hset : Walking .claim _ _ _ _ _ := Walking.start (by decide) hfresh.claims_eq k
  obtain ⟨claiming, afterClaims, claimed, hclaim, hclaimed⟩ := hset.exists_run hfresh.distinct
  obtain ⟨walks, -, hwalking⟩ := hset.run hfresh.distinct hclaim
  obtain ⟨hjobs, hcounters⟩ := (hwalking.walked hclaimed).all_disclaim
  have hset' : Walking .disclaim _ _ _ _ _ :=
    Walking.start Int.bmod_bmod hcounters claimed.length
  obtain ⟨disclaiming, afterDisclaims, disclaimed, hdisclaim, hdisclaimed⟩ :=
    hset'.exists_run hfresh.distinct
  exact ⟨claiming, disclaiming, afterClaims, afterDisclaims, claimed, disclaimed, hclaim, hclaimed,
    hjobs ▸ hdisclaim, hdisclaimed⟩

/-- With `2^31+1` jobs, both the first one and the last one to give up a handler report it. -/
theorem Walked.unclaimed_twice {ident : ClaimRef → ℕ} {refs : List ClaimRef} {states : List State}
    {s : ClaimWalks} (h : Walked .disclaim (wrapInt states.length) ident refs states s)
    (hmany : states.length = 2 ^ 31 + 1) {c : ClaimRef} (hc : c ∈ refs) :
    ∃ (i j : ℕ) (first last : State), i ≠ j ∧ states[i]? = some first ∧ states[j]? = some last ∧
      c ∈ first.unclaimed ∧ c ∈ last.unclaimed := by
  have hlength := (h.visitors c hc).length_eq
  rw [List.length_map, List.length_range, hmany] at hlength
  have hreports (m : ℕ) (hm : m < (visits s.log c).length) (hwrapped : wrapInt (2 ^ 31 - m) < 1) :
      ∃ state, states[(visits s.log c)[m].1]? = some state ∧ c ∈ state.unclaimed := by
    have hvisitor : (visits s.log c)[m].1 ∈ List.range states.length :=
      (h.visitors c hc).subset (List.mem_map_of_mem (List.getElem_mem hm))
    have hstate := List.getElem?_eq_getElem (List.mem_range.mp hvisitor)
    refine ⟨_, hstate, State.mem_unclaimed.mpr ⟨(visits s.log c)[m].2, ?_, ?_⟩⟩
    · exact (h.recorded _ _ c _ hstate).mpr (List.getElem_mem hm)
    · have hleft : (states.length : Int) + -1 * ((m : Int) + 1) = 2 ^ 31 - m := by omega
      rw [h.values c hc m _ (List.getElem?_eq_getElem hm), wrapInt_add, CountOp.delta, hleft]
      exact hwrapped
  have hdistinct : (visits s.log c)[0].1 ≠ (visits s.log c)[2 ^ 31].1 := by
    intro hsame
    have hnodup : ((visits s.log c).map Prod.fst).Nodup :=
      (h.visitors c hc).nodup_iff.mpr List.nodup_range
    have hnames : ((visits s.log c).map Prod.fst)[0]? = ((visits s.log c).map Prod.fst)[2 ^ 31]? := by
      rw [List.getElem?_map, List.getElem?_map, List.getElem?_eq_getElem (by omega),
        List.getElem?_eq_getElem (by omega), Option.map_some, Option.map_some, hsame]
    exact List.nodup_iff_getElem?_ne_getElem?.mp hnodup 0 (2 ^ 31) (by omega)
      (by rw [List.length_map]; omega) hnames
  obtain ⟨first, hfirst, hearly⟩ := hreports 0 (by omega) (by decide)
  obtain ⟨last, hlast, hlate⟩ := hreports (2 ^ 31) (by omega) (by decide)
  exact ⟨_, _, first, last, hdistinct, hfirst, hlast, hearly, hlate⟩

/-- One handler that nobody has claimed. -/
def oneHandler : State := ⟨[(0, ⟨0, 7⟩)]⟩

/-- What holds its claim. -/
def oneClaim : Shared := { twoClaims with claims := fun c => if c = 0 then some ⟨0, 7⟩ else none }

/-- `2^31+1` jobs claim the handler and give it up, and two of them report it as unclaimed. -/
theorem disposed_twice_after_wrap :
    ∃ claiming disclaiming afterClaims afterDisclaims, ∃ claimed disclaimed : List State,
      runActions ClaimWalks.step
          ⟨oneClaim, List.replicate (2 ^ 31 + 1) oneHandler.claimAllHandlers, []⟩ claiming =
        some afterClaims ∧ afterClaims.jobs = claimed.map .pure ∧
      runActions ClaimWalks.step
        ⟨afterClaims.shared, claimed.map State.disclaimAllHandlers, []⟩ disclaiming =
          some afterDisclaims ∧ afterDisclaims.jobs = disclaimed.map .pure ∧
      ∃ (i j : ℕ) (first last : State), i ≠ j ∧ disclaimed[i]? = some first ∧ disclaimed[j]? = some last ∧
        0 ∈ first.unclaimed ∧ 0 ∈ last.unclaimed := by
  have hfresh : oneHandler.Fresh oneClaim := by
    constructor
    · decide
    · simp [oneHandler, oneClaim]
  obtain ⟨claiming, disclaiming, afterClaims, afterDisclaims, claimed, disclaimed, hclaim, hclaimed,
    hdisclaim, hdisclaimed⟩ := exists_disclaimed hfresh (2 ^ 31 + 1)
  obtain ⟨hmany, hwalked⟩ := walked_disclaim hfresh hclaim hclaimed hdisclaim hdisclaimed
  rw [← hmany] at hwalked
  exact ⟨claiming, disclaiming, afterClaims, afterDisclaims, claimed, disclaimed, hclaim, hclaimed,
    hdisclaim, hdisclaimed, hwalked.unclaimed_twice hmany (List.mem_singleton_self 0)⟩

end TinySox
