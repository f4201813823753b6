import LaneOrder.Error
import LaneOrder.Sort

/-!
This module contains the rows of a board and what is read from them. Rows are kept in no particular order:
what is read depends on which rows there are only.
-/

namespace LaneOrder

variable {α : Type}

def least? (le : α → α → Bool) : List α → Option α
  | [] => none
  | x :: xs => match least? le xs with
    | none => some x
    | some y => some (if le x y then x else y)

def greatest? (le : α → α → Bool) : List α → Option α
  | [] => none
  | x :: xs => match greatest? le xs with
    | none => some x
    | some y => some (if le x y then y else x)

structure Rows where
  tasks : List Task
  nodup : (tasks.map (·.id)).Nodup

namespace Rows

def empty : Rows :=
  ⟨[], List.nodup_nil⟩

instance : Inhabited Rows := ⟨empty⟩

def find? (r : Rows) (id : TaskId) : Option Task :=
  r.tasks.find? (·.id = id)

def findIn? (r : Rows) (workspace : WorkspaceId) (id : TaskId) : Option Task :=
  (r.find? id).filter (·.isIn workspace)

def insert? (r : Rows) (t : Task) : Option Rows :=
  if h : t.id ∈ r.tasks.map (·.id) then none
  else some ⟨r.tasks ++ [t], by
    simp only [List.map_append, List.map_cons, List.map_nil]
    refine List.nodup_append.2 ⟨r.nodup, by simp, fun a ha b hb => ?_⟩
    rintro rfl
    exact h (List.mem_singleton.1 hb ▸ ha)⟩

def map (r : Rows) (f : Task → Task) (hf : ∀ t, (f t).id = t.id) : Rows :=
  ⟨r.tasks.map f, by
    have : (r.tasks.map f).map (·.id) = r.tasks.map (·.id) := by simp [hf]
    rw [this]
    exact r.nodup⟩

def lane (r : Rows) (workspace : WorkspaceId) (lane : Lane) : List Task :=
  r.tasks.filter (·.isInLane workspace lane)

def list (r : Rows) (workspace : WorkspaceId) (lane : Lane) : List Task :=
  sortBy Task.visualLe (r.lane workspace lane)

def greatest (r : Rows) (workspace : WorkspaceId) (lane : Lane) : Position :=
  match (r.lane workspace lane).map (·.position) with
  | [] => Binary64.ofNat 0
  | x :: xs => xs.foldl Binary64.max x

def laneIds (r : Rows) (workspace : WorkspaceId) (lane : Lane) : List TaskId :=
  sortBy (fun a b => !(b < a)) ((r.lane workspace lane).map (·.id))

def adjacent? (r : Rows) (workspace : WorkspaceId) (lane : Lane) (pivot : Position)
    (direction : Direction) (exclude : TaskId) : Option Neighbor :=
  let others := (r.lane workspace lane).filter (·.id ≠ exclude)
  -- a row at the position itself is on neither side
  match direction with
  | .above => (least? Task.visualLe (others.filter (pivot < ·.position))).map Task.toNeighbor
  | .below => (greatest? Task.visualLe (others.filter (·.position < pivot))).map Task.toNeighbor

end Rows

end LaneOrder
