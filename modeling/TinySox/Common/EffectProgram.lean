import Mathlib.Tactic.Common

/-!
# Programs with effects, and what they guarantee

A program is a tree: it performs an operation, and continues with the answer. It ends with
a value, or leaves early with a result, as a function with several `return` statements
does. What the operations do is not fixed. A contract says which operations are allowed
and what may be relied on in their answers, relative to a ghost state that the events
update, and the weakest precondition of a program collects what the contract demands.

The answers may come from a run of a larger system, from a trace, or from a function.
-/

namespace TinySox.Common

universe u v w x y

/-- A program over the operations `Op`, which ends with an `A` or leaves with an `R`. -/
inductive Prog {Op : Type u} (Ans : Op → Type v) (R : Type w) (A : Type x)
  | pure (a : A)
  | exit (r : R)
  | call (o : Op) (k : Ans o → Prog Ans R A)

variable {Op : Type u} {Ans : Op → Type v} {R : Type w} {A B : Type x}

namespace Prog

/-- Continue with the value, unless the program leaves early. -/
def bind : Prog Ans R A → (A → Prog Ans R B) → Prog Ans R B
  | .pure a, f => f a
  | .exit r, _ => .exit r
  | .call o k, f => .call o fun a => (k a).bind f

instance : Monad (Prog Ans R) where
  pure := .pure
  bind := .bind

/-- Perform one operation and return its answer. -/
def perform (o : Op) : Prog Ans R (Ans o) := .call o .pure

@[simp] theorem pure_bind' (a : A) (f : A → Prog Ans R B) :
    (Pure.pure a : Prog Ans R A) >>= f = f a := rfl

@[simp] theorem exit_bind (r : R) (f : A → Prog Ans R B) :
    (Prog.exit r : Prog Ans R A) >>= f = .exit r := rfl

@[simp] theorem call_bind (o : Op) (k : Ans o → Prog Ans R A) (f : A → Prog Ans R B) :
    Prog.call o k >>= f = .call o fun a => k a >>= f := rfl

/-- Sequencing is associative. -/
theorem bind_assoc' {C : Type x} (p : Prog Ans R A) (f : A → Prog Ans R B) (g : B → Prog Ans R C) :
    p >>= f >>= g = p >>= fun a => f a >>= g := by
  induction p with
  | pure a => rfl
  | exit r => rfl
  | call o k ih =>
    rw [call_bind, call_bind, call_bind]
    exact congrArg (Prog.call o) (funext ih)

end Prog

/-- An operation with its answer. -/
abbrev Event (Ans : Op → Type v) := (o : Op) × Ans o

/-- What is left of the program after it has performed the events in order, if it does. -/
def Prog.follow [DecidableEq Op] : Prog Ans R A → List (Event Ans) → Option (Prog Ans R A)
  | p, [] => some p
  | .call o k, e :: t => if h : e.1 = o then (k (h ▸ e.2)).follow t else none
  | .pure _, _ :: _ | .exit _, _ :: _ => none

/-- A program that has performed some events performs the following ones from there. -/
theorem Prog.follow_append [DecidableEq Op] (p : Prog Ans R A) (t t' : List (Event Ans)) :
    p.follow (t ++ t') = (p.follow t).bind fun q => q.follow t' := by
  induction t generalizing p with
  | nil => cases p <;> rfl
  | cons e t ih =>
    cases p with
    | pure a => rfl
    | exit r => rfl
    | call o k =>
      rw [List.cons_append, follow, follow]
      split
      · exact ih _
      · rfl

/-- The program does not end with a value: it leaves with a result, or goes on. -/
def Prog.Leaves : Prog Ans R A → Prop
  | .pure _ => False
  | .exit _ => True
  | .call _ k => ∀ a, (k a).Leaves

/-- A program leaves if what follows it always does. -/
theorem Prog.leaves_bind (p : Prog Ans R A) {f : A → Prog Ans R B} (hf : ∀ a, (f a).Leaves) :
    (p >>= f).Leaves := by
  induction p with
  | pure a => exact hf a
  | exit r => trivial
  | call o k ih => exact ih

/-- What is left of a program that leaves does. -/
theorem Prog.Leaves.follow [DecidableEq Op] {p q : Prog Ans R A} (h : p.Leaves) {e : Event Ans}
    (hfollow : p.follow [e] = some q) : q.Leaves := by
  cases p with
  | pure a => cases hfollow
  | exit r => cases hfollow
  | call o k =>
    simp only [Prog.follow, Option.dite_none_right_eq_some, Option.some.injEq] at hfollow
    obtain ⟨ho, rfl⟩ := hfollow
    exact h _

/-- Run the program on a machine that answers its operations. -/
def Prog.eval {σ : Type y} (answer : (o : Op) → σ → Ans o × σ) : Prog Ans R A → σ → Except R A × σ
  | .pure a, s => (.ok a, s)
  | .exit r, s => (.error r, s)
  | .call o k, s => (k (answer o s).1).eval answer (answer o s).2

/-- What an operation demands, what its answer promises, and how the ghost state goes on. -/
structure Contract (Ans : Op → Type v) (σ : Type y) where
  may : σ → Op → Prop
  gives : σ → (o : Op) → Ans o → Prop
  next : σ → (o : Op) → Ans o → σ

namespace Contract

variable {σ : Type y} (C : Contract Ans σ)

/-- The ghost state after the events. -/
def after (g : σ) (t : List (Event Ans)) : σ := t.foldl (fun g e => C.next g e.1 e.2) g

/-- Every answer is as promised. -/
def Kept : σ → List (Event Ans) → Prop
  | _, [] => True
  | g, e :: t => C.gives g e.1 e.2 ∧ Kept (C.next g e.1 e.2) t

/-- The program keeps to the contract, leaves early only with an admissible result, and ends
only with an admissible value. -/
def wp (exits : R → σ → Prop) (ends : A → σ → Prop) : Prog Ans R A → σ → Prop
  | .pure a, g => ends a g
  | .exit r, g => exits r g
  | .call o k, g => C.may g o ∧ ∀ a, C.gives g o a → wp exits ends (k a) (C.next g o a)

variable {C} {exits exits' : R → σ → Prop} {ends ends' : A → σ → Prop} {g : σ}

@[simp] theorem wp_pure (a : A) : C.wp exits ends (Pure.pure a : Prog Ans R A) g ↔ ends a g :=
  Iff.rfl

@[simp] theorem wp_exit (r : R) : C.wp exits ends (.exit r : Prog Ans R A) g ↔ exits r g := Iff.rfl

@[simp] theorem wp_call (o : Op) (k : Ans o → Prog Ans R A) :
    C.wp exits ends (.call o k) g ↔
      C.may g o ∧ ∀ a, C.gives g o a → C.wp exits ends (k a) (C.next g o a) := Iff.rfl

@[simp] theorem wp_perform {σ : Type y} {C : Contract Ans σ} {g : σ} (o : Op)
    {exits : R → σ → Prop} {ends : Ans o → σ → Prop} :
    C.wp exits ends (Prog.perform o : Prog Ans R (Ans o)) g ↔
      C.may g o ∧ ∀ a, C.gives g o a → ends a (C.next g o a) := Iff.rfl

/-- The second program has to work for the values that the first one ends with. -/
theorem wp_bind {ends : B → σ → Prop} (p : Prog Ans R A) (f : A → Prog Ans R B) :
    C.wp exits ends (p >>= f) g ↔ C.wp exits (fun a g' => C.wp exits ends (f a) g') p g := by
  induction p generalizing g with
  | pure a => exact Iff.rfl
  | exit r => exact Iff.rfl
  | call o k ih =>
    rw [Prog.call_bind, wp_call, wp_call]
    exact and_congr_right fun _ => forall_congr' fun a => imp_congr_right fun _ => ih a

/-- An operation has to be allowed, and what follows has to work for every answer. -/
theorem wp_perform_bind {B : Type v} {σ : Type y} {C : Contract Ans σ} {g : σ} {o : Op}
    {exits : R → σ → Prop} {ends : B → σ → Prop} {f : Ans o → Prog Ans R B} (hmay : C.may g o)
    (h : ∀ a, C.gives g o a → C.wp exits ends (f a) (C.next g o a)) :
    C.wp exits ends (Prog.perform o >>= f) g := ⟨hmay, h⟩

/-- Weaker conditions on the results are easier to meet. -/
theorem wp_mono {p : Prog Ans R A} (hexits : ∀ r g, exits r g → exits' r g)
    (hends : ∀ a g, ends a g → ends' a g) (h : C.wp exits ends p g) : C.wp exits' ends' p g := by
  induction p generalizing g with
  | pure a => exact hends a g h
  | exit r => exact hexits r g h
  | call o k ih => exact ⟨h.1, fun a ha => ih a (h.2 a ha)⟩

/-- The rest of a program that has performed some events keeps to the contract. -/
theorem wp_follow [DecidableEq Op] {p q : Prog Ans R A} {t : List (Event Ans)}
    (hfollow : p.follow t = some q) (h : C.wp exits ends p g) (hkept : C.Kept g t) :
    C.wp exits ends q (C.after g t) := by
  induction t generalizing p g with
  | nil =>
    simp only [Prog.follow, Option.some.injEq] at hfollow
    exact hfollow ▸ h
  | cons e t ih =>
    cases p with
    | pure a => simp [Prog.follow] at hfollow
    | exit r => simp [Prog.follow] at hfollow
    | call o k =>
      obtain ⟨o', a⟩ := e
      simp only [Prog.follow, Option.dite_none_right_eq_some] at hfollow
      obtain ⟨rfl, hrest⟩ := hfollow
      exact ih hrest (h.2 a hkept.1) hkept.2

/-- What holds at the start and after every allowed operation holds after all that the program has
performed. -/
theorem invariant_of_follow [DecidableEq Op] {I : σ → Prop}
    (hnext : ∀ g o a, I g → C.may g o → C.gives g o a → I (C.next g o a)) {p q : Prog Ans R A}
    {t : List (Event Ans)} (hfollow : p.follow t = some q) (h : C.wp exits ends p g)
    (hkept : C.Kept g t) (hg : I g) : I (C.after g t) := by
  induction t generalizing p g with
  | nil => exact hg
  | cons e t ih =>
    cases p with
    | pure a => simp [Prog.follow] at hfollow
    | exit r => simp [Prog.follow] at hfollow
    | call o k =>
      obtain ⟨o', a⟩ := e
      simp only [Prog.follow, Option.dite_none_right_eq_some] at hfollow
      obtain ⟨rfl, hrest⟩ := hfollow
      exact ih hrest (h.2 a hkept.1) hkept.2 (hnext g o' a hg h.1 hkept.1)

/-- Answers that are as promised in any state are as promised. -/
theorem kept_of_forall {t : List (Event Ans)} (h : ∀ e ∈ t, ∀ g, C.gives g e.1 e.2) :
    C.Kept g t := by
  induction t generalizing g with
  | nil => trivial
  | cons e t ih =>
    exact ⟨h e List.mem_cons_self g, ih fun e' he' => h e' (List.mem_cons_of_mem e he')⟩

/-- What no event destroys, and what allows every operation, holds throughout any program. -/
theorem wp_of_invariant {I : σ → Prop} (hmay : ∀ g o, I g → C.may g o)
    (hnext : ∀ g o a, I g → C.gives g o a → I (C.next g o a)) (hg : I g) (p : Prog Ans R A) :
    C.wp (fun _ g => I g) (fun _ g => I g) p g := by
  induction p generalizing g with
  | pure a => exact hg
  | exit r => exact hg
  | call o k ih => exact ⟨hmay g o hg, fun a ha => ih a (hnext g o a hg ha)⟩

/-- The program keeps to the contract, and leaves the ghost state as it is unless it leaves early. -/
def Keeps (C : Contract Ans σ) (exits : R → σ → Prop) (g : σ) (p : Prog Ans R A) : Prop :=
  C.wp exits (fun _ g' => g' = g) p g

/-- What follows such a program starts from the same ghost state. -/
theorem Keeps.wp_bind {ends : B → σ → Prop} {p : Prog Ans R A} {f : A → Prog Ans R B}
    (hp : C.Keeps exits g p) (hf : ∀ a, C.wp exits ends (f a) g) : C.wp exits ends (p >>= f) g := by
  rw [Contract.wp_bind]
  apply wp_mono (fun _ _ h => h) _ hp
  rintro a _ rfl
  exact hf a

/-- Such programs can be put one after the other. -/
theorem Keeps.bind {p : Prog Ans R A} {f : A → Prog Ans R B} (hp : C.Keeps exits g p)
    (hf : ∀ a, C.Keeps exits g (f a)) : C.Keeps exits g (p >>= f) := hp.wp_bind hf

/-- A program without operations changes nothing. -/
theorem Keeps.pure (a : A) : C.Keeps exits g (Pure.pure a : Prog Ans R A) := rfl

/-- An operation that the ghost state does not record changes nothing. -/
theorem Keeps.perform {σ : Type y} {C : Contract Ans σ} {exits : R → σ → Prop} {g : σ} {o : Op}
    (hmay : C.may g o) (hnext : ∀ a, C.next g o a = g) :
    C.Keeps exits g (Prog.perform o : Prog Ans R (Ans o)) := ⟨hmay, fun a _ => hnext a⟩

/-- Operations of one kind are allowed, whatever is answered. -/
def allowing (P : Op → Prop) : Contract Ans Unit := ⟨fun _ o => P o, fun _ _ _ => True, fun _ _ _ => ()⟩

/-- Whatever is answered, all operations of the program are of this kind. -/
abbrev Performs (P : Op → Prop) (p : Prog Ans R A) : Prop := (allowing P).Keeps (fun _ _ => True) () p

variable {P : Op → Prop}

/-- A single operation of the kind. -/
theorem Performs.perform {P : Op → Prop} {o : Op} (ho : P o) :
    Performs P (Prog.perform o : Prog Ans R (Ans o)) := Keeps.perform ho fun _ => rfl

/-- The next operation of a run is of the kind. -/
theorem Performs.of_follow [DecidableEq Op] {p : Prog Ans R A} (h : Performs P p)
    {t : List (Event Ans)} {o : Op} {k : Ans o → Prog Ans R A}
    (hfollow : p.follow t = some (.call o k)) : P o :=
  (wp_follow hfollow h (kept_of_forall fun _ _ _ => trivial)).1

end Contract

end TinySox.Common
