import Mathlib.Tactic.Common

/-!
# Critical sections

A lock that knows who holds it, and the parties that are inside a critical section. Entering and
leaving keep the two in agreement, so no two parties are inside at once.
-/

namespace TinySox.Common

variable {P : Type*} {lock : Option P} {inside inside' : P → Prop} {p q : P}

/-- The lock is held by the party that is inside a critical section, and by no other. -/
def Mutex (lock : Option P) (inside : P → Prop) : Prop := ∀ p, lock = some p ↔ inside p

namespace Mutex

/-- Two parties that are inside are the same. -/
theorem unique (h : Mutex lock inside) (hp : inside p) (hq : inside q) : p = q :=
  Option.some.inj (((h p).mpr hp).symm.trans ((h q).mpr hq))

/-- Nobody enters or leaves. -/
theorem keep (h : Mutex lock inside) (hsame : ∀ q, inside' q ↔ inside q) : Mutex lock inside' :=
  fun q => (h q).trans (hsame q).symm

/-- A party takes the free lock. -/
theorem acquire (h : Mutex none inside) (hp : inside' p) (hother : ∀ q, q ≠ p → (inside' q ↔ inside q)) :
    Mutex (some p) inside' := by
  intro q
  by_cases hq : q = p
  · subst hq
    exact ⟨fun _ => hp, fun _ => rfl⟩
  · rw [hother q hq, ← h q, Option.some.injEq]
    exact ⟨fun hpq => absurd hpq.symm hq, fun hnone => nomatch hnone⟩

/-- The party that holds the lock gives it back. -/
theorem release (h : Mutex lock inside) (hp : inside p) (hout : ¬inside' p)
    (hother : ∀ q, q ≠ p → (inside' q ↔ inside q)) : Mutex none inside' := by
  intro q
  by_cases hq : q = p
  · subst hq
    exact ⟨(fun hnone => nomatch hnone), fun hin => absurd hin hout⟩
  · rw [hother q hq]
    exact ⟨(fun hnone => nomatch hnone), fun hin => absurd (h.unique hin hp) hq⟩

end Mutex

/-- How a step of a party changes who holds the lock, told by where the party stands before and
after. -/
inductive LockMove (before after : Bool) (lock : Option P) (p : P) : Option P → Prop
  | keep (hsame : after = before) : LockMove before after lock p lock
  | acquire (hfree : lock = none) (hafter : after = true) : LockMove before after lock p (some p)
  | release (hbefore : before = true) (hafter : after = false) : LockMove before after lock p none

/-- Such a step keeps the lock in agreement with who is inside, if all others stay where they are. -/
theorem Mutex.move {lock' : Option P} {before after : Bool} (h : Mutex lock inside)
    (hmine : inside p ↔ before = true) (hmine' : inside' p ↔ after = true)
    (hother : ∀ q, q ≠ p → (inside' q ↔ inside q)) (hlock : LockMove before after lock p lock') :
    Mutex lock' inside' := by
  cases hlock with
  | keep hsame =>
    refine h.keep fun q => ?_
    by_cases hq : q = p
    · rw [hq, hmine, hmine', hsame]
    · exact hother q hq
  | acquire hfree hafter =>
    rw [hfree] at h
    exact h.acquire (hmine'.mpr hafter) hother
  | release hbefore hafter =>
    refine h.release (hmine.mpr hbefore) (fun hin => ?_) hother
    rw [hmine', hafter] at hin
    contradiction

/-- An output that is written under the lock only: it consists of what was written in each critical
section, in order, and the party that is inside still has `rest` to write. -/
def Serial {β : Type*} (lock : Option P) (output : List β) (sections : List (P × List β))
    (rest : P → List β) : Prop :=
  match lock with
  | none => output = sections.flatMap Prod.snd
  | some p => ∃ before part, sections = before ++ [(p, part ++ rest p)] ∧
      output = before.flatMap Prod.snd ++ part

namespace Serial

variable {β : Type*} {output : List β} {sections : List (P × List β)} {rest rest' : P → List β}

/-- A party enters, and has all to write. -/
theorem enter {whole : List β} (h : Serial none output sections rest) (hrest : rest' p = whole) :
    Serial (some p) output (sections ++ [(p, whole)]) rest' := by
  refine ⟨sections, [], ?_, h.trans (List.append_nil _).symm⟩
  rw [hrest, List.nil_append]

/-- The party that is inside writes some of it. -/
theorem write {written : List β} (h : Serial (some p) output sections rest)
    (hrest : rest p = written ++ rest' p) : Serial (some p) (output ++ written) sections rest' := by
  obtain ⟨before, part, hsections, houtput⟩ := h
  refine ⟨before, part ++ written, ?_, ?_⟩
  · rw [hsections, hrest, List.append_assoc]
  · rw [houtput, List.append_assoc]

/-- It has written all, and leaves. -/
theorem leave (h : Serial (some p) output sections rest) (hrest : rest p = []) :
    Serial none output sections rest' := by
  obtain ⟨before, part, hsections, houtput⟩ := h
  change output = sections.flatMap Prod.snd
  rw [houtput, hsections, hrest, List.append_nil, List.flatMap_append, List.flatMap_singleton]

/-- What a party outside would write does not matter. -/
theorem congr (h : Serial lock output sections rest) (hsame : ∀ p, lock = some p → rest' p = rest p) :
    Serial lock output sections rest' := by
  cases lock with
  | none => exact h
  | some p =>
    obtain ⟨before, part, hsections, houtput⟩ := h
    refine ⟨before, part, ?_, houtput⟩
    rw [hsections, hsame p rfl]

end Serial

end TinySox.Common
