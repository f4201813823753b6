/-!
This module contains lists that shrink: an element is dropped, or a smaller one takes its place. This cannot
go on forever if the elements cannot become smaller forever.
-/

namespace LaneOrder

variable {α : Type}

/-- A list shrinks to another one in one place. -/
inductive Shrinks (r : α → α → Prop) : List α → List α → Prop where
  | drop (x : α) (xs : List α) : Shrinks r xs (x :: xs)
  | smaller {y x : α} (h : r y x) (xs : List α) : Shrinks r (y :: xs) (x :: xs)
  | cons (x : α) {ys xs : List α} (h : Shrinks r ys xs) : Shrinks r (x :: ys) (x :: xs)

namespace Shrinks

variable {r : α → α → Prop}

theorem acc_cons {x : α} (hx : Acc r x) :
    ∀ xs : List α, Acc (Shrinks r) xs → Acc (Shrinks r) (x :: xs) := by
  induction hx with
  | intro x _ ihx =>
    intro xs hxs
    induction hxs with
    | intro xs hxs ihxs =>
      refine ⟨_, fun ys h => ?_⟩
      cases h with
      | drop => exact ⟨xs, hxs⟩
      | smaller h => exact ihx _ h xs ⟨xs, hxs⟩
      | cons _ h => exact ihxs _ h

theorem wf (hr : WellFounded r) : WellFounded (Shrinks r) := by
  refine ⟨fun xs => ?_⟩
  induction xs with
  | nil => exact ⟨_, fun _ h => nomatch h⟩
  | cons x xs ih => exact acc_cons (hr.apply x) xs ih

end Shrinks

end LaneOrder
