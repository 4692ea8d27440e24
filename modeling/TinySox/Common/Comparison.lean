import Mathlib.Data.List.Lex
import Mathlib.Data.Prod.Lex
import Mathlib.Tactic.Common

/-!
# Comparison operators

The comparison operators of a type, and the laws that ordered containers rely on. Operators that
compare a key in a linear order obey them.

A pair should be compared by its first components, and by the second ones where these are equal. If
the second components are consulted even where the first ones have decided against, then two pairs
whose components disagree are each less than the other. Everywhere else that comparison is the
lexicographic one.
-/

namespace TinySox.Common

universe u v

/-- One of the three holds, and no two of them. -/
def ExactlyOne (p q r : Prop) : Prop := p ∧ ¬q ∧ ¬r ∨ ¬p ∧ q ∧ ¬r ∨ ¬p ∧ ¬q ∧ r

/-- `<`, `==`, `>`, `<=` and `>=` of a type. -/
structure Comparison (α : Type u) where
  less : α → α → Bool
  equals : α → α → Bool
  greater : α → α → Bool
  lessEq : α → α → Bool
  greaterEq : α → α → Bool

/-- The laws of a strict total order, at three values. -/
structure Comparison.Laws {α : Type u} (ops : Comparison α) (a b c : α) : Prop where
  trichotomy : ExactlyOne (ops.less a b) (ops.equals a b) (ops.less b a)
  trans : ops.less a b → ops.less b c → ops.less a c
  greater : ops.greater a b ↔ ops.less b a
  lessEq : ops.lessEq a b ↔ ¬ops.less b a
  greaterEq : ops.greaterEq a b ↔ ¬ops.less a b

/-- The operators compare by a relation and by equality of a key, and spell out the other three. -/
structure Comparison.Spelled {α : Type u} {κ : Type v} (ops : Comparison α) (key : α → κ)
    (rel : κ → κ → Prop) : Prop where
  less : ∀ a b, ops.less a b ↔ rel (key a) (key b)
  equals : ∀ a b, ops.equals a b ↔ key a = key b
  greater : ∀ a b, ops.greater a b ↔ rel (key b) (key a)
  lessEq : ∀ a b, ops.lessEq a b = (ops.less a b || ops.equals a b)
  greaterEq : ∀ a b, ops.greaterEq a b = (ops.greater a b || ops.equals a b)

namespace Comparison

variable {α : Type u} {κ : Type v} {ops : Comparison α} {key : α → κ} {rel : κ → κ → Prop}

/-- The laws follow where exactly one of the three holds, and the relation is transitive. -/
theorem Spelled.laws (h : ops.Spelled key rel) {a b c : α}
    (hone : ExactlyOne (rel (key a) (key b)) (key a = key b) (rel (key b) (key a)))
    (htrans : rel (key a) (key b) → rel (key b) (key c) → rel (key a) (key c)) :
    ops.Laws a b c := by
  have hless := h.less a b
  have hequals := h.equals a b
  have hgreater := h.less b a
  constructor
  · rw [hless, hequals, hgreater]
    exact hone
  · intro hab hbc
    rw [h.less]
    exact htrans (hless.mp hab) ((h.less b c).mp hbc)
  · rw [h.greater, hgreater]
  · rw [h.lessEq, Bool.or_eq_true, hless, hequals, hgreater]
    rcases hone with ⟨hlt, -, hnot⟩ | ⟨-, heq, hnot⟩ | ⟨hnot, hne, hgt⟩
    · exact ⟨fun _ => hnot, fun _ => .inl hlt⟩
    · exact ⟨fun _ => hnot, fun _ => .inr heq⟩
    · exact ⟨fun hle => (hle.elim hnot hne).elim, fun habsurd => absurd hgt habsurd⟩
  · rw [h.greaterEq, Bool.or_eq_true, h.greater, hless, hequals]
    rcases hone with ⟨hlt, hne, hnot⟩ | ⟨hnot, heq, -⟩ | ⟨hnot, -, hgt⟩
    · exact ⟨fun hge => (hge.elim hnot hne).elim, fun habsurd => absurd hlt habsurd⟩
    · exact ⟨fun _ => hnot, fun _ => .inr heq⟩
    · exact ⟨fun _ => hnot, fun _ => .inl hgt⟩

/-- Exactly one of `<`, `=` and `>` holds in a linear order. -/
theorem exactlyOne_lt [LinearOrder κ] (x y : κ) : ExactlyOne (x < y) (x = y) (y < x) := by
  rcases lt_trichotomy x y with hlt | rfl | hgt
  · exact .inl ⟨hlt, ne_of_lt hlt, lt_asymm hlt⟩
  · exact .inr (.inl ⟨lt_irrefl x, rfl, lt_irrefl x⟩)
  · exact .inr (.inr ⟨lt_asymm hgt, ne_of_gt hgt, hgt⟩)

/-- Operators that compare a key in a linear order obey the laws everywhere. -/
theorem Spelled.laws_of_linearOrder [LinearOrder κ] (h : ops.Spelled key (· < ·)) (a b c : α) :
    ops.Laws a b c := h.laws (exactlyOne_lt _ _) lt_trans

end Comparison

section Pairs

variable {α : Type u} {β : Type v} [LinearOrder α] [LinearOrder β]

/-- One of the components is less. -/
def EitherLess (p q : α × β) : Prop := p.1 < q.1 ∨ p.2 < q.2

/-- The components do not order the two pairs in opposite ways. -/
def Concordant (p q : α × β) : Prop := (p.1 < q.1 → p.2 ≤ q.2) ∧ (q.1 < p.1 → q.2 ≤ p.2)

/-- Exactly the pairs that are not concordant are each less than the other. -/
theorem concordant_iff (p q : α × β) : Concordant p q ↔ ¬(EitherLess p q ∧ EitherLess q p) := by
  unfold Concordant EitherLess
  constructor
  · rintro ⟨hpq, hqp⟩ ⟨hlt | hlt, hgt | hgt⟩
    · exact lt_asymm hlt hgt
    · exact not_lt_of_ge (hpq hlt) hgt
    · exact not_lt_of_ge (hqp hgt) hlt
    · exact lt_asymm hlt hgt
  · intro hnot
    exact ⟨fun hlt => not_lt.mp fun hgt => hnot ⟨.inl hlt, .inr hgt⟩,
      fun hgt => not_lt.mp fun hlt => hnot ⟨.inr hlt, .inl hgt⟩⟩

/-- On concordant pairs, one component is less exactly if the pair is less lexicographically. -/
theorem Concordant.eitherLess_iff {p q : α × β} (h : Concordant p q) :
    EitherLess p q ↔ toLex p < toLex q := by
  rw [Prod.Lex.toLex_lt_toLex]
  constructor
  · rintro (hlt | hlt)
    · exact .inl hlt
    · rcases lt_trichotomy p.1 q.1 with hfirst | hfirst | hfirst
      · exact .inl hfirst
      · exact .inr ⟨hfirst, hlt⟩
      · exact absurd hlt (not_lt_of_ge (h.2 hfirst))
  · rintro (hlt | ⟨-, hlt⟩)
    · exact .inl hlt
    · exact .inr hlt

/-- Concordance does not depend on the order of the two pairs. -/
theorem Concordant.symm {p q : α × β} (h : Concordant p q) : Concordant q p := ⟨h.2, h.1⟩

/-- Concordant pairs are ordered one way, or equal. -/
theorem Concordant.exactlyOne {p q : α × β} (h : Concordant p q) :
    ExactlyOne (EitherLess p q) (p = q) (EitherLess q p) := by
  rw [h.eitherLess_iff, h.symm.eitherLess_iff]
  exact Comparison.exactlyOne_lt (toLex p) (toLex q)

/-- If the first of two concordant pairs is less, it is less than whatever the second is less than. -/
theorem Concordant.eitherLess_trans {p q r : α × β} (h : Concordant p q) (hpq : EitherLess p q)
    (hqr : EitherLess q r) : EitherLess p r := by
  have hle : p.1 ≤ q.1 ∧ p.2 ≤ q.2 := by
    rcases hpq with hlt | hlt
    · exact ⟨le_of_lt hlt, h.1 hlt⟩
    · exact ⟨not_lt.mp fun hgt => not_lt_of_ge (h.2 hgt) hlt, le_of_lt hlt⟩
  exact hqr.imp (lt_of_le_of_lt hle.1) (lt_of_le_of_lt hle.2)

/-- Operators that look for a smaller component obey the laws exactly at concordant pairs. -/
theorem Comparison.Spelled.laws_iff_concordant {γ : Type*} {ops : Comparison γ} {key : γ → α × β}
    (h : ops.Spelled key EitherLess) (a b c : γ) :
    ops.Laws a b c ↔ Concordant (key a) (key b) := by
  constructor
  · intro hlaws
    rw [concordant_iff, ← h.less, ← h.less]
    rintro ⟨hlt, hgt⟩
    rcases hlaws.trichotomy with ⟨-, -, hnot⟩ | ⟨hnot, -, -⟩ | ⟨hnot, -, -⟩
    · exact hnot hgt
    · exact hnot hlt
    · exact hnot hlt
  · intro hconcordant
    exact h.laws hconcordant.exactlyOne hconcordant.eitherLess_trans

end Pairs

end TinySox.Common
