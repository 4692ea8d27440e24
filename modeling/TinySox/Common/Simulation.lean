import TinySox.Common.LabelledRun

/-!
# Simulation of one step function by another

Each step of a system is answered by any number of steps of a second one, so that a relation between
their states is kept. What holds of all states that the second system reaches can then be used for
the states of the first.
-/

namespace TinySox.Common

variable {S T A B : Type*}

/-- Some steps of the second system lead to a state that is tied to this one. -/
def Answered (step : T → B → Option T) (R : S → T → Prop) (t : T) (s : S) : Prop :=
  ∃ answers t', runActions step t answers = some t' ∧ R s t'

/-- Every step of the first system is answered by the second. -/
def Simulates (step : S → A → Option S) (step' : T → B → Option T) (R : S → T → Prop) : Prop :=
  ∀ s t a s', R s t → step s a = some s' → Answered step' R t s'

variable {step : S → A → Option S} {step' : T → B → Option T} {R : S → T → Prop}

/-- The second system stays where it is. -/
theorem Answered.stay {s : S} {t : T} (h : R s t) : Answered step' R t s := ⟨[], t, rfl, h⟩

/-- The second system answers with one step. -/
theorem Answered.one {s : S} {t t' : T} {b : B} (hstep : step' t b = some t') (h : R s t') :
    Answered step' R t s := by
  refine ⟨[b], t', ?_, h⟩
  exact (runActions_cons_eq_some step' t t' b []).mpr ⟨t', hstep, rfl⟩

/-- The second system goes on from where it has answered before. -/
theorem Answered.trans {s' : S} {t t' : T} {answers : List B}
    (hrun : runActions step' t answers = some t') (h : Answered step' R t' s') :
    Answered step' R t s' := by
  obtain ⟨later, u, hlater, hR⟩ := h
  refine ⟨answers ++ later, u, ?_, hR⟩
  rw [runActions_append, hrun, Option.bind_some, hlater]

/-- A run is answered by a run. -/
theorem Simulates.run (h : Simulates step step' R) {s s' : S} {t : T} {actions : List A}
    (hR : R s t) (hrun : runActions step s actions = some s') : Answered step' R t s' := by
  induction actions generalizing s t with
  | nil =>
    cases hrun
    exact .stay hR
  | cons a rest ih =>
    obtain ⟨u, hu, hrest⟩ := (runActions_cons_eq_some step s s' a rest).mp hrun
    obtain ⟨answers, t', hanswers, hR'⟩ := h s t a u hR hu
    exact .trans hanswers (ih hR' hrest)

/-- What the second system does beside a run, if `answer` tells what it does beside each step. -/
def answersOf (step : S → A → Option S) (answer : S → A → List B) : S → List A → List B
  | _, [] => []
  | s, a :: rest => answer s a ++ (step s a).elim [] fun t => answersOf step answer t rest

/-- These steps of the second system lead to a state that is tied to this one. -/
def AnsweredBy (step : T → B → Option T) (R : S → T → Prop) (t : T) (answers : List B) (s : S) : Prop :=
  ∃ t', runActions step t answers = some t' ∧ R s t'

/-- The second system stays where it is. -/
theorem AnsweredBy.stay {s : S} {t : T} (h : R s t) : AnsweredBy step' R t [] s := ⟨t, rfl, h⟩

/-- The second system answers with this step. -/
theorem AnsweredBy.one {s : S} {t t' : T} {b : B} (hstep : step' t b = some t') (h : R s t') :
    AnsweredBy step' R t [b] s :=
  ⟨t', (runActions_cons_eq_some step' t t' b []).mpr ⟨t', hstep, rfl⟩, h⟩

/-- The second system answers every step that meets the condition, and `answer` tells how. -/
def SimulatesBy (step : S → A → Option S) (step' : T → B → Option T) (cond : S → A → Prop)
    (answer : S → A → List B) (R : S → T → Prop) : Prop :=
  ∀ s t a s', R s t → cond s a → step s a = some s' → AnsweredBy step' R t (answer s a) s'

/-- A run whose steps all meet the condition is answered step by step. -/
theorem SimulatesBy.run {cond : S → A → Prop} {answer : S → A → List B}
    (h : SimulatesBy step step' cond answer R) {s s' : S} {t : T} {actions : List A} (hR : R s t)
    (hmeets : RunMeets step cond s actions) (hrun : runActions step s actions = some s') :
    ∃ t', runActions step' t (answersOf step answer s actions) = some t' ∧ R s' t' := by
  induction actions generalizing s t with
  | nil =>
    cases hrun
    exact ⟨t, rfl, hR⟩
  | cons a rest ih =>
    obtain ⟨u, hu, hrest⟩ := (runActions_cons_eq_some step s s' a rest).mp hrun
    simp only [RunMeets, hu, Option.elim_some] at hmeets
    obtain ⟨v, hv, hR'⟩ := h s t a u hR hmeets.1 hu
    obtain ⟨t', ht', hR''⟩ := ih hR' hmeets.2 hrest
    refine ⟨t', ?_, hR''⟩
    rw [answersOf, hu, Option.elim_some, runActions_append, hv, Option.bind_some, ht']

end TinySox.Common
