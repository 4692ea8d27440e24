import Mathlib.Data.List.Basic
import Mathlib.Tactic.Common

/-!
# Sequences of checks

A program that checks its input step by step stops with the error of the first check that fails.
What it does is then a verdict over the list of the checks, each with its error, and the result that
it has if they all pass.
-/

namespace TinySox.Common

universe u v

variable {ε : Type u} {α β : Type v}

/-- Go on if the check is passed. -/
def require (ok : Bool) (error : ε) : Except ε PUnit.{v + 1} := if ok then .ok ⟨⟩ else .error error

/-- The result, or the error of the first check that fails. -/
def verdict (result : β) : List (Bool × ε) → Except ε β
  | [] => .ok result
  | (ok, error) :: rest => if ok then verdict result rest else .error error

/-- The result is reached if all checks are passed. -/
theorem verdict_ok_iff {result b : β} {checks : List (Bool × ε)} :
    verdict result checks = .ok b ↔ (∀ c ∈ checks, c.1 = true) ∧ b = result := by
  induction checks with
  | nil =>
    rw [verdict, Except.ok.injEq]
    exact ⟨fun h => ⟨(fun c hc => nomatch hc), h.symm⟩, fun h => h.2.symm⟩
  | cons c rest ih =>
    obtain ⟨ok, error⟩ := c
    cases ok with
    | true => simp [verdict, ih]
    | false => simp [verdict]

/-- An error comes from a check that fails, after all those before it were passed. -/
theorem verdict_error_iff {result : β} {checks : List (Bool × ε)} {error : ε} :
    verdict result checks = .error error ↔
      ∃ before after, checks = before ++ (false, error) :: after ∧ ∀ c ∈ before, c.1 = true := by
  induction checks with
  | nil => simp [verdict]
  | cons c rest ih =>
    obtain ⟨ok, error'⟩ := c
    cases ok with
    | true =>
      rw [verdict, if_pos rfl, ih]
      constructor
      · rintro ⟨before, after, rfl, hpassed⟩
        refine ⟨(true, error') :: before, after, rfl, fun c hc => ?_⟩
        rcases List.mem_cons.mp hc with rfl | hc
        · rfl
        · exact hpassed c hc
      · rintro ⟨before, after, hsplit, hpassed⟩
        cases before with
        | nil => simp at hsplit
        | cons c before =>
          obtain ⟨-, hrest⟩ := List.cons.inj hsplit
          exact ⟨before, after, hrest, fun c hc => hpassed c (List.mem_cons_of_mem _ hc)⟩
    | false =>
      rw [verdict, if_neg Bool.false_ne_true]
      constructor
      · intro herror
        cases herror
        exact ⟨[], rest, rfl, fun c hc => nomatch hc⟩
      · rintro ⟨before, after, hsplit, hpassed⟩
        cases before with
        | nil =>
          obtain ⟨hc, -⟩ := List.cons.inj hsplit
          cases hc
          rfl
        | cons c before =>
          obtain ⟨rfl, -⟩ := List.cons.inj hsplit
          exact absurd (hpassed _ List.mem_cons_self) Bool.false_ne_true

/-- An error that none of the first checks has comes from the others, after these were passed. -/
theorem verdict_append_error {result : β} {before after : List (Bool × ε)} {error : ε}
    (hother : ∀ c ∈ before, c.2 ≠ error) (h : verdict result (before ++ after) = .error error) :
    (∀ c ∈ before, c.1 = true) ∧ verdict result after = .error error := by
  induction before with
  | nil => exact ⟨(fun c hc => nomatch hc), h⟩
  | cons c rest ih =>
    obtain ⟨ok, error'⟩ := c
    cases ok with
    | true =>
      obtain ⟨hpassed, hrest⟩ := ih (fun c hc => hother c (List.mem_cons_of_mem _ hc)) h
      exact ⟨List.forall_mem_cons.mpr ⟨rfl, hpassed⟩, hrest⟩
    | false =>
      cases h
      exact absurd rfl (hother _ List.mem_cons_self)

/-- A step that checks something is the first of the checks. -/
theorem bind_eq_verdict {step : Except ε α} {next : α → Except ε β} {ok : Bool} {error : ε} {a : α}
    {result : β} {rest : List (Bool × ε)} (hstep : step = if ok then .ok a else .error error)
    (hnext : ok = true → next a = verdict result rest) :
    step >>= next = verdict result ((ok, error) :: rest) := by
  subst hstep
  cases ok with
  | true => exact hnext rfl
  | false => rfl

end TinySox.Common
