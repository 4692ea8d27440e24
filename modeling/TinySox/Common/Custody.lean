import Mathlib.Algebra.BigOperators.Group.List.Basic
import Mathlib.Algebra.GroupWithZero.Nat
import Mathlib.Logic.Function.Basic
import Mathlib.Tactic.Common

/-!
# Resources in the custody of several parties

A resource is disposed of by the party that gives up the last claim on it. The claims are
counted by an object that the parties share, and a party only sees what the counter was
after its own operation. The stake of each party in each resource tells what the party
can conclude from that, and the accounts of a resource tell how the stakes of all parties
fit together with the counter.
-/

namespace TinySox.Common

universe u v

variable {ι : Type u} {ρ : Type v}

/-- What a party has to do with a resource. -/
inductive Stake (ρ : Type v)
  | nothing
  /-- nobody has a claim, and the party has to see that the resource is disposed of; the object
  that counts the claims may not exist yet -/
  | owes (ref : Option ρ)
  /-- all the claims there are, `n` of them -/
  | alone (ref : ρ) (n : ℕ)
  /-- one claim, while other parties may have claims too -/
  | shared (ref : ρ)
  deriving DecidableEq, Repr

namespace Stake

/-- The party is the only one with a stake. -/
def exclusive : Stake ρ → ℕ
  | .owes _ | .alone _ _ => 1
  | .nothing | .shared _ => 0

/-- The party may be one of several. -/
def sharing : Stake ρ → ℕ
  | .shared _ => 1
  | .nothing | .owes _ | .alone _ _ => 0

/-- The object that counts the claims. -/
def ref : Stake ρ → Option ρ
  | .nothing => none
  | .owes ref => ref
  | .alone ref _ | .shared ref => some ref

/-- The number of claims, where the party knows it. -/
def claims : Stake ρ → Option ℕ
  | .owes _ => some 0
  | .alone _ n => some n
  | .nothing | .shared _ => none

/-- The party has a claim. -/
def isClaim : Stake ρ → Prop
  | .alone _ _ | .shared _ => True
  | .nothing | .owes _ => False

/-- The number of parties that are the only ones. -/
def exclusives (stakes : List (Stake ρ)) : ℕ := (stakes.map exclusive).sum

/-- The number of parties that may be some of several. -/
def sharers (stakes : List (Stake ρ)) : ℕ := (stakes.map sharing).sum

@[simp] theorem exclusives_append (l r : List (Stake ρ)) :
    exclusives (l ++ r) = exclusives l + exclusives r := by
  rw [exclusives, List.map_append, List.sum_append, exclusives, exclusives]

@[simp] theorem exclusives_cons (x : Stake ρ) (l : List (Stake ρ)) :
    exclusives (x :: l) = x.exclusive + exclusives l := by
  rw [exclusives, List.map_cons, List.sum_cons, exclusives]

@[simp] theorem exclusives_nil : exclusives ([] : List (Stake ρ)) = 0 := rfl

@[simp] theorem sharers_append (l r : List (Stake ρ)) :
    sharers (l ++ r) = sharers l + sharers r := by
  rw [sharers, List.map_append, List.sum_append, sharers, sharers]

@[simp] theorem sharers_cons (x : Stake ρ) (l : List (Stake ρ)) :
    sharers (x :: l) = x.sharing + sharers l := by
  rw [sharers, List.map_cons, List.sum_cons, sharers]

@[simp] theorem sharers_nil : sharers ([] : List (Stake ρ)) = 0 := rfl

/-- A stake is exclusive or shared, or it is none. -/
theorem eq_nothing {x : Stake ρ} (hexclusive : x.exclusive = 0) (hsharing : x.sharing = 0) :
    x = .nothing := by
  cases x with
  | nothing => rfl
  | owes ref => contradiction
  | alone ref n => contradiction
  | shared ref => contradiction

/-- A claim is an exclusive or a shared stake. -/
theorem isClaim.ne_nothing {x : Stake ρ} (h : x.isClaim) : x ≠ .nothing := by
  rintro rfl
  exact h

/-- A party with a claim knows the object that counts it. -/
theorem isClaim.exists_ref {x : Stake ρ} (h : x.isClaim) : ∃ r, x.ref = some r := by
  cases x with
  | nothing => exact h.elim
  | owes ref => exact h.elim
  | alone ref n => exact ⟨ref, rfl⟩
  | shared ref => exact ⟨ref, rfl⟩

/-- Where nobody has a stake there is no stake. -/
theorem all_nothing {stakes : List (Stake ρ)} (hexclusive : exclusives stakes = 0)
    (hsharing : sharers stakes = 0) : ∀ x ∈ stakes, x = .nothing := by
  induction stakes with
  | nil => exact fun x hx => nomatch hx
  | cons y rest ih =>
    rw [exclusives_cons] at hexclusive
    rw [sharers_cons] at hsharing
    intro x hx
    rcases List.mem_cons.mp hx with rfl | hmem
    · exact eq_nothing (by omega) (by omega)
    · exact ih (by omega) (by omega) x hmem

/-- Where there is no stake nobody has a stake. -/
theorem counts_eq_zero {stakes : List (Stake ρ)} (h : ∀ x ∈ stakes, x = .nothing) :
    exclusives stakes = 0 ∧ sharers stakes = 0 := by
  induction stakes with
  | nil => exact ⟨rfl, rfl⟩
  | cons y rest ih =>
    have hy := h y List.mem_cons_self
    have hrest := ih fun x hx => h x (List.mem_cons_of_mem _ hx)
    rw [exclusives_cons, sharers_cons, hy, hrest.1, hrest.2]
    exact ⟨rfl, rfl⟩

/-- Where nobody is the only one, no stake is exclusive. -/
theorem exclusive_eq_zero {stakes : List (Stake ρ)} (hzero : exclusives stakes = 0) {x : Stake ρ}
    (hx : x ∈ stakes) : x.exclusive = 0 := by
  induction stakes with
  | nil => exact nomatch hx
  | cons y rest ih =>
    rw [exclusives_cons] at hzero
    rcases List.mem_cons.mp hx with rfl | hmem
    · omega
    · exact ih (by omega) hmem

/-- The stake agrees with the objects, if `k` parties share the resource. -/
def Backed (objects : ρ → Option (Int × ι)) (id : ι) (k : ℕ) : Stake ρ → Prop
  | .nothing => True
  | .owes none => ∀ r n, objects r ≠ some (n, id)
  | .owes (some r) => objects r = some (0, id)
  | .alone r n => 1 ≤ n ∧ objects r = some ((n : Int), id)
  | .shared r => objects r = some ((k : Int), id)

/-- The object that a stake refers to belongs to the resource. -/
theorem Backed.object {objects : ρ → Option (Int × ι)} {id : ι} {k : ℕ} {x : Stake ρ} {r : ρ}
    (h : x.Backed objects id k) (href : x.ref = some r) : ∃ n, objects r = some (n, id) := by
  cases x with
  | nothing => cases href
  | owes ref =>
    cases href
    exact ⟨_, h⟩
  | alone ref n =>
    cases href
    exact ⟨_, h.2⟩
  | shared ref =>
    cases href
    exact ⟨_, h⟩

/-- Where the party knows the number of claims, that is what the object counts. -/
theorem Backed.counted {objects : ρ → Option (Int × ι)} {id : ι} {k n : ℕ} {x : Stake ρ} {r : ρ}
    (h : x.Backed objects id k) (href : x.ref = some r) (hclaims : x.claims = some n) :
    objects r = some ((n : Int), id) := by
  cases x with
  | nothing => cases href
  | owes ref =>
    cases href
    cases hclaims
    exact h
  | alone ref m =>
    cases href
    cases hclaims
    exact h.2
  | shared ref => cases hclaims

/-- A stake is backed as before if the objects of the resource are as before. -/
theorem Backed.congr {objects objects' : ρ → Option (Int × ι)} {id : ι} {k : ℕ} {x : Stake ρ}
    (h : x.Backed objects id k) (hsame : ∀ r n, objects' r = some (n, id) ↔ objects r = some (n, id)) :
    x.Backed objects' id k := by
  cases x with
  | nothing => trivial
  | owes ref =>
    cases ref with
    | none => exact fun r n hr => h r n ((hsame r n).mp hr)
    | some r => exact (hsame r _).mpr h
  | alone r n => exact ⟨h.1, (hsame r _).mpr h.2⟩
  | shared r => exact (hsame r _).mpr h

end Stake

open Stake

/-- How the stake of one party is passed on to several: as it is to one of them, or one claim to
each of some of them. -/
inductive SplitsTo : Stake ρ → List (Stake ρ) → Prop
  | whole (x : Stake ρ) : SplitsTo x [x]
  | nothing (xs : List (Stake ρ)) (h : ∀ x ∈ xs, x = .nothing) : SplitsTo .nothing xs
  | claims (r : ρ) (n : ℕ) (xs : List (Stake ρ)) (hexclusive : exclusives xs = 0)
      (hsharing : sharers xs = n) (h : ∀ x ∈ xs, x = .nothing ∨ x = .shared r) :
      SplitsTo (.alone r n) xs

/-- The accounts of a resource: it exists as long as somebody has a stake in it, an exclusive stake
is the only one, and the object that counts the claims counts them all. -/
structure Accounted (objects : ρ → Option (Int × ι)) (id : ι) (live : Prop)
    (stakes : List (Stake ρ)) : Prop where
  live_iff : live ↔ 1 ≤ exclusives stakes + sharers stakes
  exclusive : exclusives stakes = 0 ∨ exclusives stakes = 1 ∧ sharers stakes = 0
  backed : ∀ x ∈ stakes, x.Backed objects id (sharers stakes)
  unique : ∀ r r' n n', objects r = some (n, id) → objects r' = some (n', id) → r = r'

namespace Accounted

variable {objects objects' : ρ → Option (Int × ι)} {id : ι} {live live' : Prop}
  {stakes l r xs : List (Stake ρ)} {x y : Stake ρ}

/-- An exclusive stake is the only one. -/
theorem others_nothing (h : Accounted objects id live (l ++ x :: r)) (hx : x.exclusive = 1) :
    live ∧ ∀ y ∈ l ++ r, y = .nothing := by
  have hlive := h.live_iff
  have hcount := h.exclusive
  simp only [exclusives_append, exclusives_cons, sharers_append, sharers_cons, hx] at hlive hcount
  refine ⟨hlive.mpr (by omega), all_nothing ?_ ?_⟩
  · rw [exclusives_append]
    omega
  · rw [sharers_append]
    omega

/-- Any stake shows that the resource exists. -/
theorem live_of_mem (h : Accounted objects id live (l ++ x :: r)) (hx : x ≠ .nothing) : live := by
  rw [h.live_iff]
  simp only [exclusives_append, exclusives_cons, sharers_append, sharers_cons]
  by_contra hnone
  exact hx (eq_nothing (by omega) (by omega))

/-- Nobody has a stake in a resource that does not exist. -/
theorem nothing_of_not_live (h : Accounted objects id live stakes) (hlive : ¬live) :
    ∀ x ∈ stakes, x = .nothing := by
  rw [h.live_iff] at hlive
  exact all_nothing (by omega) (by omega)

/-- Somebody has a stake in a resource that exists. -/
theorem exists_of_live (h : Accounted objects id live stakes) (hlive : live) :
    ∃ x ∈ stakes, x ≠ .nothing := by
  by_contra hnone
  push Not at hnone
  have hzero := counts_eq_zero hnone
  rw [h.live_iff] at hlive
  omega

/-- The accounts of one resource do not depend on the objects of the others. -/
theorem frame (h : Accounted objects id live stakes) (hlive : live' ↔ live)
    (hsame : ∀ r n, objects' r = some (n, id) ↔ objects r = some (n, id)) :
    Accounted objects' id live' stakes where
  live_iff := hlive.trans h.live_iff
  exclusive := h.exclusive
  backed x hx := (h.backed x hx).congr hsame
  unique r r' n n' hr hr' := h.unique r r' n n' ((hsame r n).mp hr) ((hsame r' n').mp hr')

/-- A party without a stake makes no difference. -/
theorem insert_nothing (h : Accounted objects id live (l ++ r)) :
    Accounted objects id live (l ++ .nothing :: r) := by
  have hshare : sharers (l ++ .nothing :: r) = sharers (l ++ r) := by
    simp [Stake.sharing]
  have hexcl : exclusives (l ++ .nothing :: r) = exclusives (l ++ r) := by
    simp [Stake.exclusive]
  refine ⟨?_, ?_, ?_, h.unique⟩
  · rw [hshare, hexcl]
    exact h.live_iff
  · rw [hshare, hexcl]
    exact h.exclusive
  · intro x hx
    rw [hshare]
    rcases List.mem_append.mp hx with hl | hr
    · exact h.backed x (List.mem_append_left _ hl)
    · rcases List.mem_cons.mp hr with rfl | hr
      · trivial
      · exact h.backed x (List.mem_append_right _ hr)

/-- The accounts of a single exclusive stake. -/
theorem of_exclusive (hlive : live) (hx : x.exclusive = 1) (hbacked : x.Backed objects id 0)
    (hunique : ∀ r r' n n', objects r = some (n, id) → objects r' = some (n', id) → r = r')
    (hothers : ∀ y ∈ l ++ r, y = .nothing) : Accounted objects id live (l ++ x :: r) := by
  have hzero := counts_eq_zero hothers
  simp only [exclusives_append, sharers_append] at hzero
  have hsharing : x.sharing = 0 := by
    cases x with
    | shared ref => contradiction
    | _ => rfl
  have hshare : sharers (l ++ x :: r) = 0 := by
    rw [sharers_append, sharers_cons]
    omega
  refine ⟨⟨fun _ => ?_, fun _ => hlive⟩, .inr ⟨?_, hshare⟩, ?_, hunique⟩
  · rw [exclusives_append, exclusives_cons]
    omega
  · rw [exclusives_append, exclusives_cons]
    omega
  · intro y hy
    rw [hshare]
    rcases List.mem_append.mp hy with hl | hr
    · rw [hothers y (List.mem_append_left _ hl)]
      trivial
    · rcases List.mem_cons.mp hr with rfl | hr
      · exact hbacked
      · rw [hothers y (List.mem_append_right _ hr)]
        trivial

/-- The accounts of a resource that nobody has a stake in any more. -/
theorem of_nothing (hlive : ¬live) (hnone : ∀ y ∈ stakes, y = .nothing)
    (hunique : ∀ r r' n n', objects r = some (n, id) → objects r' = some (n', id) → r = r') :
    Accounted objects id live stakes := by
  have hzero := counts_eq_zero hnone
  refine ⟨⟨fun h => (hlive h).elim, fun h => by omega⟩, .inl hzero.1, ?_, hunique⟩
  intro y hy
  rw [hnone y hy]
  trivial

/-- Sharers share the same object, and nobody else has a stake. -/
theorem others_shared {ref : ρ} {n : Int}
    (h : Accounted objects id live (l ++ .shared ref :: r)) (hobject : objects ref = some (n, id)) :
    live ∧ n = sharers (l ++ r) + 1 ∧ exclusives (l ++ r) = 0 ∧
      ∀ y ∈ l ++ r, y = .nothing ∨ y = .shared ref := by
  have hbacked := h.backed _ (List.mem_append_right _ List.mem_cons_self)
  have hcount := h.exclusive
  have hshare : sharers (l ++ .shared ref :: r) = sharers (l ++ r) + 1 := by
    simp only [sharers_append, sharers_cons, Stake.sharing]
    omega
  have hexcl : exclusives (l ++ .shared ref :: r) = exclusives (l ++ r) := by
    simp [Stake.exclusive]
  rw [hshare, hexcl] at hcount
  have hnone : exclusives (l ++ r) = 0 := by omega
  have hn : n = (sharers (l ++ r) + 1 : ℕ) := by
    simp only [Stake.Backed, hobject, hshare] at hbacked
    exact (Prod.mk.inj (Option.some.inj hbacked)).1
  refine ⟨h.live_of_mem (fun hx => nomatch hx), by omega, hnone, fun y hy => ?_⟩
  have hzero := exclusive_eq_zero hnone hy
  have hmem : y ∈ l ++ .shared ref :: r := by
    rcases List.mem_append.mp hy with hl | hr
    · exact List.mem_append_left _ hl
    · exact List.mem_append_right _ (List.mem_cons_of_mem _ hr)
  have hy' := h.backed y hmem
  cases y with
  | nothing => exact .inl rfl
  | owes _ => contradiction
  | alone _ _ => contradiction
  | shared ref' => exact .inr (by rw [h.unique ref' ref _ n hy' hobject])

/-- The accounts of a resource that is shared. -/
theorem of_shared (ref : ρ) (hlive : live) (hpos : 1 ≤ sharers stakes)
    (hnone : exclusives stakes = 0) (hobject : objects ref = some ((sharers stakes : Int), id))
    (hunique : ∀ r r' n n', objects r = some (n, id) → objects r' = some (n', id) → r = r')
    (hshared : ∀ y ∈ stakes, y = .nothing ∨ y = .shared ref) : Accounted objects id live stakes := by
  refine ⟨⟨fun _ => by omega, fun _ => hlive⟩, .inl hnone, fun y hy => ?_, hunique⟩
  rcases hshared y hy with rfl | rfl
  · trivial
  · exact hobject

/-- The order of the parties does not matter. -/
theorem perm {stakes' : List (Stake ρ)} (h : Accounted objects id live stakes)
    (hperm : stakes.Perm stakes') : Accounted objects id live stakes' := by
  have hexcl : exclusives stakes' = exclusives stakes := (hperm.map Stake.exclusive).sum_eq.symm
  have hshare : sharers stakes' = sharers stakes := (hperm.map Stake.sharing).sum_eq.symm
  refine ⟨?_, ?_, fun x hx => ?_, h.unique⟩
  · rw [hexcl, hshare]
    exact h.live_iff
  · rw [hexcl, hshare]
    exact h.exclusive
  · rw [hshare]
    exact h.backed x (hperm.mem_iff.mpr hx)

/-- Passing a stake on to others keeps the accounts. -/
theorem split (h : Accounted objects id live (l ++ x :: r)) (hsplit : SplitsTo x xs) :
    Accounted objects id live (l ++ (xs ++ r)) := by
  cases hsplit with
  | whole => exact h
  | nothing _ hxs =>
    have hzero := counts_eq_zero hxs
    have hshare : sharers (l ++ (xs ++ r)) = sharers (l ++ .nothing :: r) := by
      simp [Stake.sharing, hzero.2]
    have hexcl : exclusives (l ++ (xs ++ r)) = exclusives (l ++ .nothing :: r) := by
      simp [Stake.exclusive, hzero.1]
    refine ⟨by rw [hshare, hexcl]; exact h.live_iff, by rw [hshare, hexcl]; exact h.exclusive, ?_,
      h.unique⟩
    intro y hy
    rw [hshare]
    rcases List.mem_append.mp hy with hl | hy
    · exact h.backed y (List.mem_append_left _ hl)
    · rcases List.mem_append.mp hy with hx | hr
      · rw [hxs y hx]
        trivial
      · exact h.backed y (List.mem_append_right _ (List.mem_cons_of_mem _ hr))
  | claims ref n _ hexclusive hsharing hxs =>
    obtain ⟨hlive, hothers⟩ := h.others_nothing rfl
    have hbacked := h.backed _ (List.mem_append_right _ List.mem_cons_self)
    have hzero := counts_eq_zero hothers
    simp only [exclusives_append, sharers_append] at hzero
    have hshare : sharers (l ++ (xs ++ r)) = n := by
      simp only [sharers_append]
      omega
    have hexcl : exclusives (l ++ (xs ++ r)) = 0 := by
      simp only [exclusives_append]
      omega
    refine of_shared ref hlive (by rw [hshare]; exact hbacked.1) hexcl (by rw [hshare]; exact hbacked.2)
      h.unique fun y hy => ?_
    rcases List.mem_append.mp hy with hl | hy
    · exact .inl (hothers y (List.mem_append_left _ hl))
    · rcases List.mem_append.mp hy with hx | hr
      · exact hxs y hx
      · exact .inl (hothers y (List.mem_append_right _ hr))

end Accounted

/-- What a party holds of each resource. -/
abbrev Holdings (ι : Type u) (ρ : Type v) := ι → Stake ρ

/-- The accounts of all resources. -/
def Custody (objects : ρ → Option (Int × ι)) (live : ι → Prop) (parties : List (Holdings ι ρ)) :
    Prop :=
  ∀ id, Accounted objects id (live id) (parties.map fun held => held id)

namespace Custody

variable {objects objects' : ρ → Option (Int × ι)} {live live' : ι → Prop}
  {l r : List (Holdings ι ρ)} {held : Holdings ι ρ} {id : ι} {ref : ρ}

/-- The stakes in one resource, with those of one party in the middle. -/
theorem accounted (h : Custody objects live (l ++ held :: r)) (id : ι) :
    Accounted objects id (live id)
      (l.map (fun p => p id) ++ held id :: r.map fun p => p id) := by
  have hid := h id
  rwa [List.map_append, List.map_cons] at hid

/-- A stake is backed by the objects. -/
theorem backed (h : Custody objects live (l ++ held :: r)) (id : ι) :
    ∃ k, (held id).Backed objects id k :=
  ⟨_, (h.accounted id).backed _ (List.mem_append_right _ List.mem_cons_self)⟩

/-- The order of the parties does not matter. -/
theorem perm {parties parties' : List (Holdings ι ρ)} (h : Custody objects live parties)
    (hperm : parties.Perm parties') : Custody objects live parties' :=
  fun id => (h id).perm (hperm.map _)

/-- A party with a stake in a resource shows that it exists. -/
theorem live_of_mem {parties : List (Holdings ι ρ)} (h : Custody objects live parties)
    (hmem : held ∈ parties) (hid : held id ≠ .nothing) : live id := by
  obtain ⟨l, r, rfl⟩ := List.append_of_mem hmem
  exact (h.accounted id).live_of_mem hid

/-- A resource that exists is in somebody's hands. -/
theorem exists_of_live {parties : List (Holdings ι ρ)} (h : Custody objects live parties)
    (hlive : live id) : ∃ held ∈ parties, held id ≠ .nothing := by
  obtain ⟨x, hx, hne⟩ := (h id).exists_of_live hlive
  obtain ⟨held, hheld, rfl⟩ := List.mem_map.mp hx
  exact ⟨held, hheld, hne⟩

/-- A party comes without a stake in anything. -/
theorem join (h : Custody objects live (l ++ r)) :
    Custody objects live (l ++ (fun _ => .nothing) :: r) := by
  intro id
  have hid := h id
  rw [List.map_append] at hid
  rw [List.map_append, List.map_cons]
  exact hid.insert_nothing

/-- A party knows the only object of a resource, if it knows one. -/
theorem object_eq (h : Custody objects live (l ++ held :: r)) (href : (held id).ref = some ref)
    (r' : ρ) (m : Int) (hr' : objects r' = some (m, id)) : r' = ref := by
  obtain ⟨k, hbacked⟩ := h.backed id
  obtain ⟨n, hn⟩ := hbacked.object href
  exact (h.accounted id).unique r' ref m n hr' hn

/-- The object that a party knows belongs to no other resource. -/
theorem object_id (h : Custody objects live (l ++ held :: r)) (href : (held id).ref = some ref)
    (m : Int) (id' : ι) (hr : objects ref = some (m, id')) : id' = id := by
  obtain ⟨k, hbacked⟩ := h.backed id
  obtain ⟨n, hn⟩ := hbacked.object href
  rw [hr] at hn
  cases hn
  rfl

section Objects

variable [DecidableEq ρ]

/-- Changing an object of one resource changes no object of another. -/
theorem update_object_ne {n : Int} (hobject : ∀ m id', objects ref = some (m, id') → id' = id)
    (id' : ι) (hne : id' ≠ id) (r : ρ) (m : Int) :
    Function.update objects ref (some (n, id)) r = some (m, id') ↔ objects r = some (m, id') := by
  by_cases hr : r = ref
  · subst hr
    rw [Function.update_self]
    refine ⟨fun h => ?_, fun h => (hne (hobject m id' h)).elim⟩
    cases h
    exact (hne rfl).elim
  · rw [Function.update_of_ne hr]

/-- A resource has one object at most, if all that it has are this one. -/
theorem unique_update (n : Int) (hall : ∀ r m, objects r = some (m, id) → r = ref) (r r' : ρ)
    (m m' : Int) (hr : Function.update objects ref (some (n, id)) r = some (m, id))
    (hr' : Function.update objects ref (some (n, id)) r' = some (m', id)) : r = r' := by
  have heq (s : ρ) (k : Int) (hs : Function.update objects ref (some (n, id)) s = some (k, id)) :
      s = ref := by
    by_cases hne : s = ref
    · exact hne
    · rw [Function.update_of_ne hne] at hs
      exact hall s k hs
  rw [heq r m hr, heq r' m' hr']

end Objects

section Update

variable [DecidableEq ι]

/-- Only the stake of one party in one resource changes, and no object of another resource. -/
theorem update (h : Custody objects live (l ++ held :: r)) {x : Stake ρ}
    (hid : Accounted objects' id (live' id)
      (l.map (fun p => p id) ++ x :: r.map fun p => p id))
    (hlive : ∀ id', id' ≠ id → (live' id' ↔ live id'))
    (hsame : ∀ id', id' ≠ id → ∀ r n, objects' r = some (n, id') ↔ objects r = some (n, id')) :
    Custody objects' live' (l ++ Function.update held id x :: r) := by
  intro id'
  rw [List.map_append, List.map_cons]
  by_cases hne : id' = id
  · subst hne
    rw [Function.update_self]
    exact hid
  · rw [Function.update_of_ne hne]
    exact (h.accounted id').frame (hlive id' hne) (hsame id' hne)

/-- A new resource appears in the hands of a party. -/
theorem «open» (h : Custody objects live (l ++ held :: r)) (hnew : ¬live id)
    (hnone : ∀ ref n, objects ref ≠ some (n, id)) (hlive : ∀ id', live' id' ↔ id' = id ∨ live id') :
    Custody objects live' (l ++ Function.update held id (.owes none) :: r) := by
  refine h.update ?_ (fun id' hne => ?_) fun id' hne r n => Iff.rfl
  · refine Accounted.of_exclusive ((hlive id).mpr (.inl rfl)) rfl hnone (h.accounted id).unique ?_
    intro y hy
    refine (h.accounted id).nothing_of_not_live hnew y ?_
    rcases List.mem_append.mp hy with hl | hr
    · exact List.mem_append_left _ hl
    · exact List.mem_append_right _ (List.mem_cons_of_mem _ hr)
  · rw [hlive id']
    exact or_iff_right hne

/-- A party that owes a resource disposes of it. -/
theorem dispose (h : Custody objects live (l ++ held :: r)) {ref : Option ρ}
    (hheld : held id = .owes ref) (hlive : ∀ id', live' id' ↔ id' ≠ id ∧ live id') :
    Custody objects live' (l ++ Function.update held id .nothing :: r) := by
  refine h.update ?_ (fun id' hne => ?_) fun id' hne r n => Iff.rfl
  · have hothers := ((h.accounted id).others_nothing (by rw [hheld]; rfl)).2
    refine Accounted.of_nothing (fun hid => ((hlive id).mp hid).1 rfl) ?_ (h.accounted id).unique
    intro y hy
    rcases List.mem_append.mp hy with hl | hr
    · exact hothers y (List.mem_append_left _ hl)
    · rcases List.mem_cons.mp hr with rfl | hr
      · rfl
      · exact hothers y (List.mem_append_right _ hr)
  · rw [hlive id']
    exact and_iff_right hne

variable [DecidableEq ρ]

/-- The party that owes a resource makes an object to count the claims on it. -/
theorem enroll (h : Custody objects live (l ++ held :: r)) (hheld : held id = .owes none)
    (hfresh : objects ref = none) :
    Custody (Function.update objects ref (some (0, id))) live
      (l ++ Function.update held id (.owes (some ref)) :: r) := by
  obtain ⟨k, hbacked⟩ := h.backed id
  rw [hheld] at hbacked
  obtain ⟨hlive, hothers⟩ := (h.accounted id).others_nothing (by rw [hheld]; rfl)
  refine h.update ?_ (fun _ _ => Iff.rfl) (update_object_ne fun m id' hr => ?_)
  · exact Accounted.of_exclusive hlive rfl (Function.update_self ..)
      (unique_update _ fun r m hr => (hbacked r m hr).elim) hothers
  · rw [hfresh] at hr
    cases hr

/-- A party that is the only one with a stake claims the resource once more. -/
theorem claim (h : Custody objects live (l ++ held :: r)) {n : ℕ}
    (href : (held id).ref = some ref) (hclaims : (held id).claims = some n) :
    Custody (Function.update objects ref (some ((n : Int) + 1, id))) live
      (l ++ Function.update held id (.alone ref (n + 1)) :: r) := by
  have hexclusive : (held id).exclusive = 1 := by
    cases hheld : held id with
    | owes r => rfl
    | alone r m => rfl
    | nothing =>
      rw [hheld] at hclaims
      cases hclaims
    | shared r =>
      rw [hheld] at hclaims
      cases hclaims
  obtain ⟨hlive, hothers⟩ := (h.accounted id).others_nothing hexclusive
  refine h.update ?_ (fun _ _ => Iff.rfl) (update_object_ne (h.object_id href))
  exact Accounted.of_exclusive hlive rfl ⟨Nat.le_add_left 1 n, Function.update_self ..⟩
    (unique_update _ (h.object_eq href)) hothers

/-- A party with all the claims gives one of them up. -/
theorem disclaim_alone (h : Custody objects live (l ++ held :: r)) {n : ℕ}
    (hheld : held id = .alone ref (n + 1)) :
    Custody (Function.update objects ref (some ((n : Int), id))) live
      (l ++ Function.update held id
        (if n = 0 then .owes (some ref) else .alone ref n) :: r) := by
  obtain ⟨hlive, hothers⟩ := (h.accounted id).others_nothing (by rw [hheld]; rfl)
  have href : (held id).ref = some ref := by rw [hheld]; rfl
  refine h.update ?_ (fun _ _ => Iff.rfl) (update_object_ne (h.object_id href))
  by_cases hzero : n = 0
  · subst hzero
    rw [if_pos rfl]
    exact Accounted.of_exclusive hlive rfl (Function.update_self ..)
      (unique_update _ (h.object_eq href)) hothers
  · rw [if_neg hzero]
    exact Accounted.of_exclusive hlive rfl ⟨Nat.pos_of_ne_zero hzero, Function.update_self ..⟩
      (unique_update _ (h.object_eq href)) hothers

/-- A party with one claim of several gives it up. If it was the last one, the party owes the
resource; the value of the counter tells. -/
theorem disclaim_shared (h : Custody objects live (l ++ held :: r)) {n : Int}
    (hheld : held id = .shared ref) (hobject : objects ref = some (n, id)) :
    Custody (Function.update objects ref (some (n - 1, id))) live
      (l ++ Function.update held id (if n - 1 < 1 then .owes (some ref) else .nothing) :: r) := by
  have hid := h.accounted id
  rw [hheld] at hid
  obtain ⟨hlive, hn, hnone, hothers⟩ := hid.others_shared hobject
  have href : (held id).ref = some ref := by rw [hheld]; rfl
  have hunique := unique_update (n - 1) (h.object_eq href)
  refine h.update ?_ (fun _ _ => Iff.rfl) (update_object_ne (h.object_id href))
  split_ifs with hlast
  · have hzero : sharers (l.map (fun p => p id) ++ r.map fun p => p id) = 0 := by omega
    refine Accounted.of_exclusive hlive rfl ?_ hunique (all_nothing hnone hzero)
    have hval : n - 1 = 0 := by omega
    rw [hval]
    exact Function.update_self ..
  · have hshare : sharers (l.map (fun p => p id) ++ .nothing :: r.map fun p => p id) =
        sharers (l.map (fun p => p id) ++ r.map fun p => p id) := by
      simp [Stake.sharing]
    refine Accounted.of_shared ref hlive ?_ ?_ ?_ hunique fun y hy => ?_
    · rw [hshare]
      omega
    · simpa [Stake.exclusive] using hnone
    · rw [hshare, Function.update_self, hn]
      simp
    · rcases List.mem_append.mp hy with hl | hr
      · exact hothers y (List.mem_append_left _ hl)
      · rcases List.mem_cons.mp hr with rfl | hr
        · exact .inl rfl
        · exact hothers y (List.mem_append_right _ hr)

end Update

/-- A party passes on everything it holds. -/
theorem split {parties : List (Holdings ι ρ)} (h : Custody objects live (l ++ held :: r))
    (hsplit : ∀ id, SplitsTo (held id) (parties.map fun p => p id)) :
    Custody objects live (l ++ (parties ++ r)) := by
  intro id
  rw [List.map_append, List.map_append]
  exact (h.accounted id).split (hsplit id)

end Custody

end TinySox.Common
