import LaneOrder.Text.Blank
import LaneOrder.Text.Lowercase

/-!
This module contains the lanes of a board and the reading of their names.
-/

namespace LaneOrder

/-- A lane of a board. Positions of tasks in different lanes are never compared. -/
inductive Lane where
  | todo
  | inProgress
  | done
  | cancelled
deriving DecidableEq, Repr

namespace Lane

def all : List Lane := [.todo, .inProgress, .done, .cancelled]

def name : Lane → String
  | .todo => "todo"
  | .inProgress => "in_progress"
  | .done => "done"
  | .cancelled => "cancelled"

def title : Lane → String
  | .todo => "To Do"
  | .inProgress => "In Progress"
  | .done => "Done"
  | .cancelled => "Cancelled"

instance : ToString Lane := ⟨title⟩

theorem mem_all (lane : Lane) : lane ∈ all := by
  cases lane <;> decide

def ofName? (cs : List Char) : Option Lane :=
  all.find? fun lane => lane.name.toList = cs

@[simp]
theorem ofName?_name (lane : Lane) : ofName? lane.name.toList = some lane := by
  cases lane <;> decide

structure Unknown where
  text : String
deriving DecidableEq

def Unknown.message (e : Unknown) : String :=
  "unknown lane '" ++ e.text ++ "', expected one of: todo, in_progress, done, cancelled"

def parse (s : String) : Except Unknown Lane :=
  let name := (Text.lowerList (Text.trimList s.toList)).map fun c => if c = '-' then '_' else c
  match ofName? name with
  | some lane => .ok lane
  | none => .error ⟨s⟩

end Lane

end LaneOrder
