import LaneOrder.Call

/-!
This module contains the answers to calls that need no store: how positions are allocated, what time it is,
which identifiers are fresh, and what was logged.
-/

namespace LaneOrder

structure Surroundings where
  allocator : Allocator
  now : Timestamp
  freshId : Nat → TaskId

structure Journal where
  freshIds : Nat := 0
  log : List Notice := []
deriving DecidableEq

namespace Surroundings

def answer (s : Surroundings) (j : Journal) : (c : AmbientCall) → c.Reply × Journal
  | .note notice => ((), { j with log := j.log ++ [notice] })
  | .now => (s.now, j)
  | .freshId => (s.freshId j.freshIds, { j with freshIds := j.freshIds + 1 })
  | .allocate before after => (s.allocator.allocate before after, j)
  | .appendAfter greatest => (s.allocator.appendAfter greatest, j)
  | .spaced index => (s.allocator.spaced index, j)

end Surroundings

end LaneOrder
