/-!
This module contains stable sorting by insertion. It recurses on the list alone, so sorted lists
compute everywhere, also inside of proofs; the lists of this library are short.
-/

namespace LaneOrder

variable {α : Type}

def insertBy (le : α → α → Bool) (x : α) : List α → List α
  | [] => [x]
  | y :: ys => if le x y then x :: y :: ys else y :: insertBy le x ys

def sortBy (le : α → α → Bool) : List α → List α
  | [] => []
  | x :: xs => insertBy le x (sortBy le xs)

end LaneOrder
