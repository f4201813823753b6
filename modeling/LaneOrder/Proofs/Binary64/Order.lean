import LaneOrder.Binary64.Basic

/-!
This module contains the numeric order of the numbers that are not NaN.
-/

namespace LaneOrder.Binary64

theorem isNaN_of_isFinite {x : Binary64} (hx : x.isFinite = true) : x.isNaN = false := by
  unfold isFinite at hx
  unfold isNaN
  simp only [decide_eq_true_eq, decide_eq_false_iff_not] at *
  omega

theorem lt_of_number {x y : Binary64} (hx : x.isNaN = false) (hy : y.isNaN = false) : x < y ↔ x.rank < y.rank := by
  rw [lt_iff]
  simp [hx, hy]

theorem lt_infinity {x : Binary64} (hx : x.isFinite = true) : x < infinity := by
  rw [lt_iff]
  refine ⟨isNaN_of_isFinite hx, by decide, ?_⟩
  have hinfinity : infinity.rank = 0x7ff0000000000000 := by decide
  rw [hinfinity]
  unfold isFinite infinityMagnitude at hx
  unfold rank
  simp only [decide_eq_true_eq] at hx
  split <;> omega

theorem mem_foldl_max {x : Binary64} {xs : List Binary64} : xs.foldl max x ∈ x :: xs := by
  induction xs generalizing x with
  | nil => exact List.mem_cons_self
  | cons y xs ih =>
    have hmax : x.max y = x ∨ x.max y = y := by
      unfold max
      split
      . exact .inr rfl
      . split
        . exact .inr rfl
        . exact .inl rfl
    rw [List.foldl_cons]
    rcases List.mem_cons.1 (ih (x := x.max y)) with heq | hmem
    . rw [heq]
      rcases hmax with hmax | hmax <;> simp [hmax]
    . exact List.mem_cons_of_mem x (List.mem_cons_of_mem y hmem)

theorem rank_le_foldl_max {xs : List Binary64} {x : Binary64} (hx : x.isNaN = false)
    (hxs : ∀ y ∈ xs, y.isNaN = false) :
    (xs.foldl max x).isNaN = false ∧ ∀ y ∈ x :: xs, y.rank ≤ (xs.foldl max x).rank := by
  induction xs generalizing x with
  | nil => simpa using hx
  | cons y xs ih =>
    obtain ⟨hy, hxs⟩ := List.forall_mem_cons.1 hxs
    have hmax : (x.max y).isNaN = false ∧ x.rank ≤ (x.max y).rank ∧ y.rank ≤ (x.max y).rank := by
      unfold max
      rw [if_neg (by simp [hx])]
      by_cases hlt : x < y
      . rw [if_pos hlt]
        have := (lt_iff.1 hlt).2.2
        exact ⟨hy, by omega, by omega⟩
      . rw [if_neg hlt]
        rw [lt_iff] at hlt
        simp only [hx, hy, true_and] at hlt
        exact ⟨hx, by omega, by omega⟩
    obtain ⟨hnumber, hall⟩ := ih hmax.1 hxs
    refine ⟨hnumber, ?_⟩
    obtain ⟨hhead, htail⟩ := List.forall_mem_cons.1 hall
    rw [List.foldl_cons, List.forall_mem_cons, List.forall_mem_cons]
    exact ⟨by omega, by omega, htail⟩

end LaneOrder.Binary64
