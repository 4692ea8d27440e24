import Mathlib.Data.Option.Basic
import Mathlib.Data.List.Basic

/-!
# Runs of a partial step function

A concurrent component is modelled by a step function that takes a labelled action and
fails when the action is not enabled. A run is a list of actions, so the interleaving is
the list itself. The rules here turn a fact about one step into a fact about every run,
either unconditionally or for runs all of whose steps meet a condition.
-/

namespace TinySox.Common

variable {S A : Type*}

/-- Perform the actions in order, failing at the first one that is not enabled. -/
def runActions (step : S → A → Option S) : S → List A → Option S
  | s, [] => some s
  | s, a :: rest => (step s a).bind fun t => runActions step t rest

/-- Every step that the run takes meets the condition in the state it starts from. -/
def RunMeets (step : S → A → Option S) (cond : S → A → Prop) : S → List A → Prop
  | _, [] => True
  | s, a :: rest => cond s a ∧ (step s a).elim True fun t => RunMeets step cond t rest

instance decidableElimTrue {p : S → Prop} (o : Option S) [DecidablePred p] :
    Decidable (o.elim True p) :=
  match o with
  | none => isTrue trivial
  | some s => inferInstanceAs (Decidable (p s))

/-- Meeting a decidable condition can be checked by replaying the run. -/
instance decidableRunMeets (step : S → A → Option S) (cond : S → A → Prop)
    [∀ s a, Decidable (cond s a)] : (s : S) → (actions : List A) →
      Decidable (RunMeets step cond s actions)
  | _, [] => isTrue trivial
  | s, a :: rest =>
    have : DecidablePred fun t => RunMeets step cond t rest :=
      fun t => decidableRunMeets step cond t rest
    inferInstanceAs (Decidable (cond s a ∧ (step s a).elim True fun t => RunMeets step cond t rest))

@[simp] theorem runActions_nil (step : S → A → Option S) (s : S) :
    runActions step s [] = some s := rfl

/-- A successful run consists of its first step and a successful run of the rest. -/
theorem runActions_cons_eq_some (step : S → A → Option S) (s u : S) (a : A) (rest : List A) :
    runActions step s (a :: rest) = some u ↔
      ∃ t, step s a = some t ∧ runActions step t rest = some u :=
  Option.bind_eq_some_iff

/-- A run can be cut at any point. -/
theorem runActions_append (step : S → A → Option S) (s : S) (left right : List A) :
    runActions step s (left ++ right) =
      (runActions step s left).bind fun t => runActions step t right := by
  induction left generalizing s with
  | nil => rfl
  | cons a rest ih =>
    simp only [List.cons_append, runActions]
    cases step s a with
    | none => rfl
    | some t => exact ih t

/-- What every step keeps while the condition is met, a run meeting it throughout keeps. -/
theorem runActions_invariant_of_meets {step : S → A → Option S} {cond : S → A → Prop}
    {Inv : S → Prop} (hstep : ∀ s a t, Inv s → cond s a → step s a = some t → Inv t)
    {s u : S} {actions : List A} (hs : Inv s) (hmeets : RunMeets step cond s actions)
    (hrun : runActions step s actions = some u) : Inv u := by
  induction actions generalizing s with
  | nil =>
    simp only [runActions_nil, Option.some.injEq] at hrun
    exact hrun ▸ hs
  | cons a rest ih =>
    obtain ⟨t, ht, hrest⟩ := (runActions_cons_eq_some step s u a rest).mp hrun
    simp only [RunMeets, ht, Option.elim_some] at hmeets
    exact ih (hstep s a t hs hmeets.1 ht) hmeets.2 hrest

/-- A condition is met throughout if it follows from what every step keeps. -/
theorem RunMeets.of_invariant {step : S → A → Option S} {cond : S → A → Prop} {Inv : S → Prop}
    (hstep : ∀ s a t, Inv s → step s a = some t → Inv t) (hcond : ∀ s a, Inv s → cond s a) {s : S}
    (hs : Inv s) (actions : List A) : RunMeets step cond s actions := by
  induction actions generalizing s with
  | nil => trivial
  | cons a rest ih =>
    refine ⟨hcond s a hs, ?_⟩
    cases hnext : step s a with
    | none => trivial
    | some t => exact ih (hstep s a t hs hnext)

/-- A condition that always holds is met by every run. -/
theorem RunMeets.of_forall {step : S → A → Option S} {cond : S → A → Prop}
    (h : ∀ s a, cond s a) (s : S) (actions : List A) : RunMeets step cond s actions :=
  have hkept : ∀ (s : S) (a : A) (t : S), True → step s a = some t → True := fun _ _ _ _ _ => trivial
  of_invariant hkept (fun s a _ => h s a) trivial actions

/-- A condition on the actions alone is met if all actions of the run are of that kind. -/
theorem RunMeets.of_mem {step : S → A → Option S} {P : A → Prop} {actions : List A}
    (h : ∀ a ∈ actions, P a) (s : S) : RunMeets step (fun _ a => P a) s actions := by
  induction actions generalizing s with
  | nil => trivial
  | cons a rest ih =>
    obtain ⟨ha, hrest⟩ := List.forall_mem_cons.mp h
    refine ⟨ha, ?_⟩
    cases step s a with
    | none => trivial
    | some t => exact ih hrest t

/-- What every step keeps, every run keeps. -/
theorem runActions_invariant {step : S → A → Option S} {Inv : S → Prop}
    (hstep : ∀ s a t, Inv s → step s a = some t → Inv t) {s u : S} {actions : List A}
    (hs : Inv s) (hrun : runActions step s actions = some u) : Inv u := by
  have hmeets : RunMeets step (fun _ _ => True) s actions :=
    RunMeets.of_forall (fun _ _ => trivial) s actions
  exact runActions_invariant_of_meets (fun s a t h _ => hstep s a t h) hs hmeets hrun

/-- A run that ends within a limit starts within it, if no step leads back into the limit. -/
theorem limit_of_run {step : S → A → Option S} {limit : S → Prop}
    (hback : ∀ s a t, step s a = some t → limit t → limit s) {s u : S} {actions : List A}
    (hrun : runActions step s actions = some u) (hlimit : limit u) : limit s := by
  induction actions generalizing s with
  | nil =>
    cases hrun
    exact hlimit
  | cons a rest ih =>
    obtain ⟨t, ht, hrest⟩ := (runActions_cons_eq_some step s u a rest).mp hrun
    exact hback s a t ht (ih hrest)

/-- And all its steps end within the limit. -/
theorem RunMeets.within {step : S → A → Option S} {limit : S → Prop}
    (hback : ∀ s a t, step s a = some t → limit t → limit s) {s u : S} {actions : List A}
    (hrun : runActions step s actions = some u) (hlimit : limit u) :
    RunMeets step (fun s a => ∀ t, step s a = some t → limit t) s actions := by
  induction actions generalizing s with
  | nil => trivial
  | cons a rest ih =>
    obtain ⟨t, ht, hrest⟩ := (runActions_cons_eq_some step s u a rest).mp hrun
    refine ⟨fun t' ht' => ?_, ?_⟩
    · rw [ht] at ht'
      cases ht'
      exact limit_of_run hback hrest hlimit
    · rw [ht]
      exact ih hrest

/-- What every step keeps that ends within the limit, such a run keeps. -/
theorem runActions_within {step : S → A → Option S} {Inv limit : S → Prop}
    (hback : ∀ s a t, step s a = some t → limit t → limit s)
    (hstep : ∀ s a t, Inv s → step s a = some t → limit t → Inv t) {s u : S} {actions : List A}
    (hs : Inv s) (hrun : runActions step s actions = some u) (hlimit : limit u) : Inv u :=
  runActions_invariant_of_meets (fun s a t h hcond ht => hstep s a t h ht (hcond t ht)) hs
    (RunMeets.within hback hrun hlimit) hrun

/-- If every step also uses up some of the potential, what there is at the start bounds the run. -/
theorem runActions_length_le {step : S → A → Option S} {Inv : S → Prop} {pot : S → ℕ}
    (hstep : ∀ s a t, Inv s → step s a = some t → Inv t ∧ pot t < pot s) {s u : S} {actions : List A}
    (hs : Inv s) (hrun : runActions step s actions = some u) : pot u + actions.length ≤ pot s := by
  induction actions generalizing s with
  | nil =>
    cases hrun
    exact Nat.le_refl _
  | cons a rest ih =>
    obtain ⟨t, ht, hrest⟩ := (runActions_cons_eq_some step s u a rest).mp hrun
    obtain ⟨hinv, hpot⟩ := hstep s a t hs ht
    have hlater := ih hinv hrest
    rw [List.length_cons]
    omega

/-- Two conditions that are met throughout are met together. -/
theorem RunMeets.and {step : S → A → Option S} {cond cond' : S → A → Prop} {s : S}
    {actions : List A} (hmeets : RunMeets step cond s actions)
    (hmeets' : RunMeets step cond' s actions) :
    RunMeets step (fun s a => cond s a ∧ cond' s a) s actions := by
  induction actions generalizing s with
  | nil => trivial
  | cons a rest ih =>
    refine ⟨⟨hmeets.1, hmeets'.1⟩, ?_⟩
    have hrest := hmeets.2
    have hrest' := hmeets'.2
    cases hstep : step s a with
    | none => trivial
    | some t =>
      rw [hstep] at hrest hrest'
      exact ih hrest hrest'

/-- Some step that the run takes meets the condition in the state it starts from. -/
def RunShows (step : S → A → Option S) (cond : S → A → Prop) : S → List A → Prop
  | _, [] => False
  | s, a :: rest => cond s a ∨ (step s a).elim False fun t => RunShows step cond t rest

/-- A condition that no step of the run meets is avoided throughout. -/
theorem not_runShows {step : S → A → Option S} {cond : S → A → Prop} {s : S} {actions : List A} :
    ¬RunShows step cond s actions ↔ RunMeets step (fun s a => ¬cond s a) s actions := by
  induction actions generalizing s with
  | nil => exact ⟨fun _ => trivial, fun _ h => h⟩
  | cons a rest ih =>
    rw [RunShows, RunMeets, not_or]
    apply and_congr_right
    intro _
    cases step s a with
    | none => exact ⟨fun _ => trivial, fun _ h => h⟩
    | some t => exact ih

/-- Each step of the kind `p` uses up one unit of the potential, and only the steps of the kind `q`
add to it, `w` units at most. This bounds how often the first kind occurs. -/
theorem runActions_countP_le {step : S → A → Option S} {cond : S → A → Prop} {pot : S → ℕ}
    {p q : A → Bool} {w : ℕ}
    (hstep : ∀ s a t, cond s a → step s a = some t →
      pot t + (if p a then 1 else 0) ≤ pot s + if q a then w else 0)
    {s u : S} {actions : List A} (hmeets : RunMeets step cond s actions)
    (hrun : runActions step s actions = some u) :
    pot u + actions.countP p ≤ pot s + w * actions.countP q := by
  induction actions generalizing s with
  | nil =>
    cases hrun
    exact Nat.le_refl _
  | cons a rest ih =>
    obtain ⟨t, ht, hrest⟩ := (runActions_cons_eq_some step s u a rest).mp hrun
    simp only [RunMeets, ht, Option.elim_some] at hmeets
    have hnow := hstep s a t hmeets.1 ht
    have hlater := ih hmeets.2 hrest
    have hgain : w * (if q a then 1 else 0) = if q a then w else 0 := by split <;> omega
    rw [List.countP_cons, List.countP_cons, Nat.mul_add, hgain]
    omega

/-- If all that has happened fits to what was before it, one more event that fits keeps it so. -/
theorem forall_split_concat {P : List A → A → Prop} {trace : List A} {a : A}
    (h : ∀ past e later, trace = past ++ e :: later → P past e) (ha : P trace a) :
    ∀ past e later, trace ++ [a] = past ++ e :: later → P past e := by
  intro past e later hsplit
  rcases List.eq_nil_or_concat later with rfl | ⟨later, last, rfl⟩
  · obtain ⟨rfl, hlast⟩ := List.append_inj' hsplit rfl
    cases hlast
    exact ha
  · have hsplit' : trace ++ [a] = (past ++ e :: later) ++ [last] := by
      rw [hsplit, List.concat_eq_append, List.append_assoc, List.cons_append]
    exact h past e later (List.append_inj' hsplit' rfl).1

/-- After each occurrence of `trigger`, the events of the kind `p` and what may still come of them are
`n` at most. -/
def CountedAfter (trigger : A) (p : A → Bool) (n : ℕ) (trace : List A) (budget : ℕ) : Prop :=
  ∀ past later, trace = past ++ trigger :: later → later.countP p + budget ≤ n

/-- What may still come of them can be given up. -/
theorem CountedAfter.mono {trigger : A} {p : A → Bool} {n budget budget' : ℕ} {trace : List A}
    (h : CountedAfter trigger p n trace budget) (hle : trigger ∈ trace → budget' ≤ budget) :
    CountedAfter trigger p n trace budget' := by
  intro past later hsplit
  have hmem : trigger ∈ trace := by
    rw [hsplit]
    exact List.mem_append_right _ List.mem_cons_self
  have hbefore := h past later hsplit
  have hgiven := hle hmem
  omega

/-- One more event uses what may still come, if it is of the kind. -/
theorem CountedAfter.concat {trigger : A} {p : A → Bool} {n budget budget' : ℕ} {trace : List A} {a : A}
    (h : CountedAfter trigger p n trace budget) (hnew : a = trigger → budget' ≤ n)
    (hle : trigger ∈ trace → budget' + (if p a then 1 else 0) ≤ budget) :
    CountedAfter trigger p n (trace ++ [a]) budget' := by
  intro past later hsplit
  rcases List.eq_nil_or_concat later with rfl | ⟨later, last, rfl⟩
  · obtain ⟨-, hlast⟩ := List.append_inj' hsplit rfl
    cases hlast
    simpa using hnew rfl
  · have hsplit' : trace ++ [a] = (past ++ trigger :: later) ++ [last] := by
      rw [hsplit, List.concat_eq_append, List.append_assoc, List.cons_append]
    obtain ⟨htrace, hlast⟩ := List.append_inj' hsplit' rfl
    cases hlast
    have hmem : trigger ∈ trace := by
      rw [htrace]
      exact List.mem_append_right _ List.mem_cons_self
    have hbefore := h past later htrace
    have hused := hle hmem
    rw [List.concat_eq_append, List.countP_append, List.countP_singleton]
    omega

/-- So do several events without the trigger. -/
theorem CountedAfter.append {trigger : A} {p : A → Bool} {n budget budget' : ℕ} {trace events : List A}
    (h : CountedAfter trigger p n trace budget) (hnot : trigger ∉ events)
    (hle : trigger ∈ trace → budget' + events.countP p ≤ budget) :
    CountedAfter trigger p n (trace ++ events) budget' := by
  induction events generalizing trace budget with
  | nil =>
    rw [List.append_nil]
    exact h.mono hle
  | cons e rest ih =>
    obtain ⟨hne, hrest⟩ := not_or.mp (List.mem_cons.not.mp hnot)
    rw [List.append_cons]
    have hone : CountedAfter trigger p n (trace ++ [e]) (budget' + rest.countP p) := by
      refine h.concat (fun heq => absurd heq.symm hne) fun hmem => ?_
      have hall := hle hmem
      rw [List.countP_cons] at hall
      omega
    exact ih hone hrest fun _ => Nat.le_refl _

end TinySox.Common
