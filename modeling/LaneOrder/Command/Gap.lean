import LaneOrder.Command.Basic
import LaneOrder.LockPlan

/-!
This module contains the gap that a task is moved into. The anchors that a request names are a hint:
before they were locked, other tasks may have come next to them. A position is allocated between the rows
that are adjacent now, and each of them has to be locked first; so two moves into one gap meet at a row of
its border, and the later one sees what the earlier one committed. In an empty lane there is no such row,
and the seed of the lane is locked in its place.
-/

namespace LaneOrder

structure Gap where
  before : Option Neighbor := none
  after : Option Neighbor := none
deriving DecidableEq

namespace Gap

def isOpen (g : Gap) : Bool :=
  g.before.isNone && g.after.isNone

def rows (g : Gap) : List TaskId :=
  g.before.toList.map (·.id) ++ g.after.toList.map (·.id)

def missing (g : Gap) (held : HeldLocks) : List TaskId :=
  sortBy (fun a b => !(b < a)) (g.rows.filter fun id => !held.holds id)

/-- Find the gap next to the anchors for a task that is ignored itself. Between two anchors it is the
lowest one; without any anchor it is the one above the whole lane. -/
def find (workspace : WorkspaceId) (lane : Lane) (target : TaskId) (anchors : Gap) :
    Commanding (Except StoreError Gap) := do
  match anchors.before, anchors.after with
  | some before, some after =>
    match ← call (.adjacent workspace lane after.position .above target) with
    | .ok nearest =>
      let inside := nearest.filter fun row => row.position < before.position
      return .ok ⟨some (inside.getD before), some after⟩
    | .error e => return .error e
  | some before, none =>
    match ← call (.adjacent workspace lane before.position .below target) with
    | .ok below => return .ok ⟨some before, below⟩
    | .error e => return .error e
  | none, some after =>
    match ← call (.adjacent workspace lane after.position .above target) with
    | .ok above => return .ok ⟨above, some after⟩
    | .error e => return .error e
  | none, none =>
    match ← call (.adjacent workspace lane Binary64.infinity .below target) with
    | .ok tail => return .ok ⟨none, tail⟩
    | .error e => return .error e

inductive Locking where
  | held (held : HeldLocks)
  | busy (id : TaskId)

def lockRows (workspace : WorkspaceId) (lane : Lane) (held : HeldLocks) :
    List TaskId → Commanding (Except StoreError Locking)
  | [] => return .ok (.held held)
  | id :: ids => do
    if held.mayWaitFor id then
      match ← call (.lockNeighbor workspace lane id) with
      | .ok _ => lockRows workspace lane (held.locked id) ids
      -- a row that has left the lane is no longer needed
      | .error (.notFound _) => lockRows workspace lane (held.attempted id) ids
      | .error e => return .error e
    else
      -- a row below one that was locked before is not waited for
      match ← call (.tryLockNeighbor workspace lane id) with
      | .ok (some _) => lockRows workspace lane (held.locked id) ids
      | .ok none => return .ok (.busy id)
      | .error e => return .error e

inductive Securing where
  | secured (gap : Gap)
  | restart (bounds : List TaskId) (laneSeed : Bool)

def maxChecks : Nat := 16

def secure (workspace : WorkspaceId) (lane : Lane) (target : TaskId) (anchors : Gap) :
    (checks : Nat) → HeldLocks → Commanding (Except StoreError Securing)
  | 0, held => do
    note .gapKeptMoving
    return .ok (.restart [] held.laneSeed)
  | checks + 1, held => do
    match ← find workspace lane target anchors with
    | .error e => return .error e
    | .ok gap =>
      if (gap.missing held).isEmpty then
        if !gap.isOpen || held.laneSeed then return .ok (.secured gap)
        else
          match ← call (.tryLockSeed workspace lane) with
          | .ok true => secure workspace lane target anchors checks held.seeded
          | .ok false => return .ok (.restart [] true)
          | .error e => return .error e
      else
        match ← lockRows workspace lane held (gap.missing held) with
        | .ok (.held held) => secure workspace lane target anchors checks held
        | .ok (.busy id) => return .ok (.restart [id] false)
        | .error e => return .error e

end Gap

end LaneOrder
