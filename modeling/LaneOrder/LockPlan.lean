import LaneOrder.Sort
import LaneOrder.Uuid

/-!
This module contains the order in which locks are taken. Everyone waits for rows in ascending order of
their identifiers, and for the seed of a lane before any row, so that nobody waits in a circle. A
move learns of some rows only after it has locked others. `HeldLocks` tells which rows it may still wait
for; the others become part of a wider `LockPlan` for its next attempt.
-/

namespace LaneOrder

inductive LockRole where
  | target
  | before
  | after
  | bound
deriving DecidableEq

def LockRole.name : LockRole → String
  | target => "Target"
  | before => "Before"
  | after => "After"
  | bound => "Bound"

structure LockStep where
  id : TaskId
  role : LockRole
deriving DecidableEq

structure LockPlan where
  laneSeed : Bool
  steps : List LockStep
deriving DecidableEq

namespace LockPlan

def inOrder (steps : List LockStep) : List LockStep :=
  sortBy (fun a b => !(b.id < a.id)) steps

def new (target : TaskId) (before after : Option TaskId) : LockPlan where
  laneSeed := false
  steps := inOrder <| ⟨target, .target⟩
    :: (before.toList.map (⟨·, .before⟩) ++ after.toList.map (⟨·, .after⟩))

def contains (p : LockPlan) (id : TaskId) : Bool :=
  p.steps.any (·.id = id)

def addBound (p : LockPlan) (id : TaskId) : LockPlan :=
  if p.contains id then p else { p with steps := p.steps ++ [⟨id, .bound⟩] }

def withBounds (p : LockPlan) (ids : List TaskId) : LockPlan :=
  let wider := ids.foldl addBound p
  { wider with steps := inOrder wider.steps }

def withLaneSeed (p : LockPlan) : LockPlan :=
  { p with laneSeed := true }

end LockPlan

structure HeldLocks where
  rows : List TaskId := []
  highest : Option TaskId := none
  laneSeed : Bool := false
deriving DecidableEq

namespace HeldLocks

def mayWaitFor (h : HeldLocks) (id : TaskId) : Bool :=
  match h.highest with
  | some highest => highest < id
  | none => true

def attempted (h : HeldLocks) (id : TaskId) : HeldLocks :=
  if h.mayWaitFor id then { h with highest := some id } else h

def locked (h : HeldLocks) (id : TaskId) : HeldLocks :=
  let h := h.attempted id
  { h with rows := if h.rows.contains id then h.rows else id :: h.rows }

def seeded (h : HeldLocks) : HeldLocks :=
  { h with laneSeed := true }

def holds (h : HeldLocks) (id : TaskId) : Bool :=
  h.rows.contains id

@[simp]
theorem holds_attempted (h : HeldLocks) (id other : TaskId) :
    (h.attempted id).holds other = h.holds other := by
  simp only [attempted, holds]
  split <;> rfl

@[simp]
theorem holds_locked (h : HeldLocks) (id other : TaskId) :
    (h.locked id).holds other = (other == id || h.holds other) := by
  have hr : (h.attempted id).rows = h.rows := by
    simp only [attempted]
    split <;> rfl
  simp only [locked, holds, hr]
  split
  . by_cases ho : other = id <;> simp_all
  . by_cases ho : other = id <;> simp [ho]

@[simp]
theorem holds_seeded (h : HeldLocks) (id : TaskId) : h.seeded.holds id = h.holds id :=
  rfl

end HeldLocks

end LaneOrder
