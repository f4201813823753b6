import LaneOrder.Binary64.Arithmetic

/-!
This module contains the allocation of positions: which position a task gets between the tasks that
will surround it.
-/

namespace LaneOrder

abbrev Position := Binary64

/-- A newly allocated position. It is exhausted if its neighbours are so close that there is little or
no room left between them; it can be used all the same. -/
structure Allocation where
  position : Position
  exhausted : Bool
deriving DecidableEq

structure Allocator where
  increment : Binary64
  epsilon : Binary64
deriving DecidableEq

namespace Allocator

def bisect (a : Allocator) (before after : Position) : Allocation :=
  let position := before.midpoint after
  let low := if after < before then after else before
  let high := if after < before then before else after
  let collapsed := !(low < position && position < high)
  ⟨position, (before - after).abs < a.epsilon || collapsed⟩

/-- The position for a task that is placed below `before` and above `after`, as far as they are
given. -/
def allocate (a : Allocator) (before after : Option Position) : Allocation :=
  match before, after with
  | none, none => ⟨a.increment, false⟩
  | some before, none => ⟨before - a.increment, false⟩
  | none, some after => ⟨after + a.increment, false⟩
  | some before, some after => a.bisect before after

/-- The position for a task that is appended to a lane with the given greatest position, which is
zero for an empty lane. -/
def appendAfter (a : Allocator) (greatest : Position) : Position :=
  greatest + a.increment

def spaced (a : Allocator) (index : Nat) : Position :=
  (Binary64.ofNat index + Binary64.ofNat 1) * a.increment

end Allocator

end LaneOrder
