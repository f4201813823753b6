import LaneOrder.Sort
import Mathlib.Data.List.Sort

/-!
This module contains that `sortBy` is `List.insertionSort`, and with it what is known about sorted
lists.
-/

namespace LaneOrder

variable {α : Type} (le : α → α → Bool) (xs : List α)

theorem insertBy_eq_orderedInsert (x : α) : insertBy le x xs = xs.orderedInsert (le · · = true) x := by
  induction xs with
  | nil => rfl
  | cons y ys ih => rw [insertBy, List.orderedInsert_cons, ih]

theorem sortBy_eq_insertionSort : sortBy le xs = xs.insertionSort (le · · = true) := by
  induction xs with
  | nil => rfl
  | cons x xs ih => rw [sortBy, List.insertionSort_cons, ih, insertBy_eq_orderedInsert]

theorem sortBy_perm : (sortBy le xs).Perm xs := by
  rw [sortBy_eq_insertionSort]
  exact List.perm_insertionSort ..

variable {le xs}

@[simp]
theorem mem_sortBy {x : α} : x ∈ sortBy le xs ↔ x ∈ xs :=
  (sortBy_perm le xs).mem_iff

@[simp]
theorem length_sortBy : (sortBy le xs).length = xs.length :=
  (sortBy_perm le xs).length_eq

theorem pairwise_sortBy (total : ∀ a b, le a b = true ∨ le b a = true)
    (trans : ∀ a b c, le a b = true → le b c = true → le a c = true) (xs : List α) :
    (sortBy le xs).Pairwise (le · · = true) := by
  have : Std.Total (α := α) (le · · = true) := ⟨total⟩
  have : IsTrans α (le · · = true) := ⟨trans⟩
  rw [sortBy_eq_insertionSort]
  exact List.pairwise_insertionSort ..

end LaneOrder
