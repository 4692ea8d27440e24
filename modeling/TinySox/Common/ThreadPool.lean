import Mathlib.Algebra.BigOperators.Group.List.Basic
import Mathlib.Algebra.Group.Int.Defs
import Mathlib.Algebra.GroupWithZero.Nat
import Mathlib.Data.List.Basic
import Mathlib.Tactic.Common

/-!
# Pools of threads

The threads of a system are a list without a fixed length. A step of one of them puts others in its
place: the thread in its next state, the threads that it has started, or none if it has ended.
-/

namespace TinySox.Common

universe u

variable {α : Type u}

/-- The thread with this number is replaced. -/
def replaceAt (pool : List α) (i : ℕ) (news : List α) : List α :=
  pool.take i ++ (news ++ pool.drop (i + 1))

/-- The threads before and after the one that makes the step. -/
theorem take_cons_drop {pool : List α} {i : ℕ} {t : α} (hi : pool[i]? = some t) :
    pool = pool.take i ++ t :: pool.drop (i + 1) := by
  obtain ⟨hlt, hget⟩ := List.getElem?_eq_some_iff.mp hi
  rw [← hget, List.getElem_cons_drop, List.take_append_drop]

/-- They stay where they are. -/
theorem exists_split {pool : List α} {i : ℕ} {t : α} (hi : pool[i]? = some t) :
    ∃ l r, pool = l ++ t :: r ∧ ∀ news, replaceAt pool i news = l ++ (news ++ r) :=
  ⟨pool.take i, pool.drop (i + 1), take_cons_drop hi, fun _ => rfl⟩

/-- The thread that makes the step is in the pool. -/
theorem mem_of_split {pool l r : List α} {t : α} (hpool : pool = l ++ t :: r) : t ∈ pool := by
  rw [hpool]
  exact List.mem_append_right _ List.mem_cons_self

/-- The other threads are in the pool. -/
theorem mem_of_mem_others {pool l r : List α} {t u : α} (hpool : pool = l ++ t :: r)
    (hu : u ∈ l ++ r) : u ∈ pool := by
  rw [hpool]
  rcases List.mem_append.mp hu with hl | hr
  · exact List.mem_append_left _ hl
  · exact List.mem_append_right _ (List.mem_cons_of_mem _ hr)

/-- After the step, a thread is one of the others or a new one. -/
theorem mem_others_or_new {l r news : List α} {u : α} (hu : u ∈ l ++ (news ++ r)) :
    u ∈ l ++ r ∨ u ∈ news := by
  rcases List.mem_append.mp hu with hl | hrest
  · exact .inl (List.mem_append_left _ hl)
  · rcases List.mem_append.mp hrest with hnew | hr
    · exact .inr hnew
    · exact .inl (List.mem_append_right _ hr)

/-- What a step keeps for the other threads, and establishes for the new ones, holds for all. -/
theorem forall_mem_replaced {pool l r news : List α} {t : α} {P Q : α → Prop}
    (hpool : pool = l ++ t :: r) (hP : ∀ u ∈ pool, P u) (hkeep : ∀ u, u ∈ l ++ r → P u → Q u)
    (hnew : ∀ u ∈ news, Q u) : ∀ u ∈ l ++ (news ++ r), Q u := by
  intro u hu
  rcases mem_others_or_new hu with hold | hu
  · exact hkeep u hold (hP u (mem_of_mem_others hpool hold))
  · exact hnew u hu

/-- A thread that is in the pool after a step was there before, or is a new one. -/
theorem mem_of_mem_replaceAt {pool news : List α} {i : ℕ} {u : α} (hu : u ∈ replaceAt pool i news) :
    u ∈ pool ∨ u ∈ news := by
  rcases List.mem_append.mp hu with hl | hrest
  · exact .inl (List.mem_of_mem_take hl)
  · rcases List.mem_append.mp hrest with hnew | hr
    · exact .inr hnew
    · exact .inl (List.mem_of_mem_drop hr)

/-- Another thread stays beside the one that makes the step. -/
theorem mem_take_append_drop {pool : List α} {i j : ℕ} {u : α} (hj : pool[j]? = some u)
    (hne : j ≠ i) : u ∈ pool.take i ++ pool.drop (i + 1) := by
  rcases Nat.lt_or_gt_of_ne hne with hbefore | hafter
  · apply List.mem_append_left
    rw [← List.getElem?_take_of_lt hbefore] at hj
    exact List.mem_of_getElem? hj
  · apply List.mem_append_right
    have hdrop : (pool.drop (i + 1))[j - (i + 1)]? = some u := by
      rw [List.getElem?_drop, Nat.add_sub_cancel' hafter]
      exact hj
    exact List.mem_of_getElem? hdrop

/-- A view of the threads is replaced where the thread is, if the others look the same. -/
theorem replaceAt_map {β : Type u} {pool news : List α} {i : ℕ} {f f' : α → β}
    (hsame : ∀ u ∈ pool.take i ++ pool.drop (i + 1), f' u = f u) :
    replaceAt (pool.map f) i (news.map f') = (replaceAt pool i news).map f' := by
  have hleft : (pool.take i).map f = (pool.take i).map f' :=
    List.map_congr_left fun u hu => (hsame u (List.mem_append_left _ hu)).symm
  have hright : (pool.drop (i + 1)).map f = (pool.drop (i + 1)).map f' :=
    List.map_congr_left fun u hu => (hsame u (List.mem_append_right _ hu)).symm
  rw [replaceAt, replaceAt, ← List.map_take, ← List.map_drop, hleft, hright, ← List.map_append,
    ← List.map_append]

/-- One thread goes, and the new ones come. -/
theorem length_replaceAt {pool : List α} {i : ℕ} {t : α} (hi : pool[i]? = some t) (news : List α) :
    (replaceAt pool i news).length + 1 = pool.length + news.length := by
  have hlength := congrArg List.length (take_cons_drop hi)
  rw [List.length_append, List.length_cons] at hlength
  rw [replaceAt, List.length_append, List.length_append]
  omega

/-- What one thread has to do is replaced by what the new ones have to do. -/
theorem sum_map_replaceAt {pool : List α} {i : ℕ} {t : α} (hi : pool[i]? = some t) (work : α → ℕ)
    (news : List α) :
    ((replaceAt pool i news).map work).sum + work t = (pool.map work).sum + (news.map work).sum := by
  have hpool := congrArg (fun threads => (threads.map work).sum) (take_cons_drop hi)
  simp only [List.map_append, List.map_cons, List.sum_append, List.sum_cons] at hpool
  simp only [replaceAt, List.map_append, List.sum_append]
  omega

/-- A thread that goes on takes its own place. -/
theorem set_eq_replaceAt {pool : List α} {i : ℕ} {t : α} (hi : pool[i]? = some t) (u : α) :
    pool.set i u = replaceAt pool i [u] := by
  obtain ⟨hlt, -⟩ := List.getElem?_eq_some_iff.mp hi
  rw [List.set_eq_take_append_cons_drop, if_pos hlt]
  rfl

/-- Nothing changes where a thread takes its own place unchanged. -/
theorem replaceAt_self {pool : List α} {i : ℕ} {t : α} (hi : pool[i]? = some t) :
    replaceAt pool i [t] = pool := (take_cons_drop hi).symm

/-- What is kept beside the threads is replaced along with them. -/
theorem zip_replaceAt {β : Type u} {pool news : List α} {others news' : List β}
    (hlength : pool.length = others.length) (hnews : news.length = news'.length) (i : ℕ) :
    (replaceAt pool i news).zip (replaceAt others i news') =
      replaceAt (pool.zip others) i (news.zip news') := by
  have htake : (pool.take i).length = (others.take i).length := by
    rw [List.length_take, List.length_take, hlength]
  rw [replaceAt, replaceAt, List.zip_append htake, List.zip_append hnews, replaceAt]
  congr 1
  · exact List.take_zipWith.symm
  · congr 1
    exact List.drop_zipWith.symm

end TinySox.Common
