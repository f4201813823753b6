import LaneOrder.Allocator
import LaneOrder.Lane
import LaneOrder.Timestamp.Basic
import LaneOrder.Uuid

/-!
This module contains tasks, their visual order and their neighbours in it.
-/

namespace LaneOrder

/-- A task on a board. A deleted task keeps its row and is invisible to ordering. -/
structure Task where
  id : TaskId
  workspace : WorkspaceId
  title : String
  lane : Lane
  position : Position
  createdAt : Timestamp
  updatedAt : Timestamp
  deletedAt : Option Timestamp
deriving DecidableEq

namespace Task

def new (id : TaskId) (workspace : WorkspaceId) (title : String) (lane : Lane)
    (position : Position) (time : Timestamp) : Task :=
  ⟨id, workspace, title, lane, position, time, time, none⟩

def isLive (t : Task) : Bool :=
  t.deletedAt.isNone

def isIn (t : Task) (workspace : WorkspaceId) : Bool :=
  t.isLive && t.workspace = workspace

def isInLane (t : Task) (workspace : WorkspaceId) (lane : Lane) : Bool :=
  t.isIn workspace && t.lane = lane

def placed (t : Task) (position : Position) (lane : Lane) (time : Timestamp) : Task :=
  { t with position, lane, updatedAt := time }

def deleted (t : Task) (time : Timestamp) : Task :=
  { t with deletedAt := some time, updatedAt := time }

def visualLe (a b : Task) : Bool :=
  a.position.totalRank < b.position.totalRank
    || (a.position.totalRank == b.position.totalRank && !(b.id < a.id))

end Task

structure Neighbor where
  id : TaskId
  position : Position
deriving DecidableEq

def Task.toNeighbor (t : Task) : Neighbor :=
  ⟨t.id, t.position⟩

inductive Direction where
  | above
  | below
deriving DecidableEq

end LaneOrder
