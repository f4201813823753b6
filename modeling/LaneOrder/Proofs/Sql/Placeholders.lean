import LaneOrder.Sql.Statement
import Mathlib.Data.List.Infix

/-!
This module contains what the texts of statements say: whether they are about tasks, and which of their parameters belongs
to a column. It is read off the texts themselves, since a parameter is found by nothing but its number.
-/

namespace LaneOrder.Sql

def numeral (cs : List Char) : Nat :=
  (cs.takeWhile Char.isDigit).foldl (fun n c => 10 * n + (c.toNat - '0'.toNat)) 0

/-- The numbers that follow a key in a text. -/
def numbersAfter (key : List Char) : List Char → List Nat
  | [] => []
  | c :: cs =>
    if key.isPrefixOf (c :: cs) then numeral ((c :: cs).drop key.length) :: numbersAfter key cs
    else numbersAfter key cs

namespace Statement

/-- What is bound to the placeholders that a column is compared with or set to. -/
def binds (column : String) (s : Statement) : List (Option Parameter) :=
  (numbersAfter (" " ++ column ++ " = $").toList s.text.toList).map fun number => s.parameters[number - 1]?

def isOnTasks (s : Statement) : Bool :=
  " tasks ".toList <:+: s.text.toList

def isUpdate (s : Statement) : Bool :=
  "UPDATE tasks ".toList <+: s.text.toList

def locksRows (s : Statement) : Bool :=
  " FOR UPDATE".toList <:+: s.text.toList

/-- All that is read off a text. -/
structure Reading where
  workspace : List Nat
  lane : List Nat
  id : List Nat
  isOnTasks : Bool
  isUpdate : Bool
  locksRows : Bool
deriving DecidableEq

def read (text : List Char) : Reading where
  workspace := numbersAfter " workspace_id = $".toList text
  lane := numbersAfter " status = $".toList text
  id := numbersAfter " id = $".toList text
  isOnTasks := " tasks ".toList <:+: text
  isUpdate := "UPDATE tasks ".toList <+: text
  locksRows := " FOR UPDATE".toList <:+: text

variable {s : Statement} {r : Reading}

theorem binds_workspace (hr : read s.text.toList = r) :
    s.binds "workspace_id" = r.workspace.map fun number => s.parameters[number - 1]? := by
  rw [← hr]
  rfl

theorem binds_lane (hr : read s.text.toList = r) :
    s.binds "status" = r.lane.map fun number => s.parameters[number - 1]? := by
  rw [← hr]
  rfl

theorem binds_id (hr : read s.text.toList = r) :
    s.binds "id" = r.id.map fun number => s.parameters[number - 1]? := by
  rw [← hr]
  rfl

theorem isOnTasks_eq (hr : read s.text.toList = r) : s.isOnTasks = r.isOnTasks := by
  rw [← hr]
  rfl

theorem isUpdate_eq (hr : read s.text.toList = r) : s.isUpdate = r.isUpdate := by
  rw [← hr]
  rfl

theorem locksRows_eq (hr : read s.text.toList = r) : s.locksRows = r.locksRows := by
  rw [← hr]
  rfl

-- texts are taken apart into characters before they are read, which is slow otherwise

theorem ofList_append {a b : String} {as bs : List Char} (ha : a = .ofList as) (hb : b = .ofList bs) :
    a ++ b = .ofList (as ++ bs) := by
  rw [ha, hb, String.ofList_append]

theorem read_of_text {text : List Char} (htext : s.text = .ofList text) (h : read text = r) :
    read s.text.toList = r := by
  rw [htext, String.toList_ofList, h]

theorem isOnTasks_of_text {text : List Char} (htext : s.text = .ofList text)
    (h : ¬ " tasks ".toList <:+: text) : s.isOnTasks = false := by
  unfold isOnTasks
  rw [htext, String.toList_ofList]
  simpa using h

/-- What the texts of the statements say. They do not depend on the parameters. -/
structure Readings : Prop where
  findTask : ∀ workspace id, read (findTask workspace id).text.toList = ⟨[2], [], [1], true, false, false⟩
  lockTarget : ∀ workspace id, read (lockTarget workspace id).text.toList = ⟨[2], [], [1], true, false, true⟩
  lockNeighbor : ∀ workspace lane id,
    read (lockNeighbor workspace lane id).text.toList = ⟨[2], [3], [1], true, false, true⟩
  tryLockNeighbor : ∀ workspace lane id,
    read (tryLockNeighbor workspace lane id).text.toList = ⟨[2], [3], [1], true, false, true⟩
  lockLane : ∀ workspace lane, read (lockLane workspace lane).text.toList = ⟨[1], [2], [], true, false, true⟩
  adjacent : ∀ workspace lane pivot direction exclude,
    read (adjacent workspace lane pivot direction exclude).text.toList = ⟨[1], [2], [], true, false, false⟩
  persist : ∀ workspace id position lane,
    read (persist workspace id position lane).text.toList = ⟨[4], [2], [3], true, true, false⟩
  begin : begin.isOnTasks = false
  commit : commit.isOnTasks = false
  rollback : rollback.isOnTasks = false
  setLockTimeout : ∀ setting, (setLockTimeout setting).isOnTasks = false
  lockSeed : ∀ workspace lane, (lockSeed workspace lane).isOnTasks = false
  tryLockSeed : ∀ workspace lane, (tryLockSeed workspace lane).isOnTasks = false
  findRole : ∀ actor workspace, (findRole actor workspace).isOnTasks = false
  insertAudit : ∀ id entry, (insertAudit id entry).isOnTasks = false

theorem readings : Readings where
  findTask _ _ := read_of_text (ofList_append rfl rfl) (by decide +kernel)
  lockTarget _ _ := read_of_text (ofList_append (ofList_append rfl rfl) rfl) (by decide +kernel)
  lockNeighbor _ _ _ := read_of_text (ofList_append (ofList_append rfl rfl) rfl) (by decide +kernel)
  tryLockNeighbor _ _ _ := read_of_text (ofList_append (ofList_append rfl rfl) rfl) (by decide +kernel)
  lockLane _ _ := read_of_text (ofList_append (ofList_append rfl rfl) rfl) (by decide +kernel)
  adjacent _ _ _ direction _ := by
    cases direction
    . exact read_of_text (ofList_append (ofList_append rfl rfl) rfl) (by decide +kernel)
    . exact read_of_text (ofList_append (ofList_append rfl rfl) rfl) (by decide +kernel)
  persist _ _ _ _ := read_of_text (ofList_append rfl rfl) (by decide +kernel)
  begin := isOnTasks_of_text rfl (by decide +kernel)
  commit := isOnTasks_of_text rfl (by decide +kernel)
  rollback := isOnTasks_of_text rfl (by decide +kernel)
  setLockTimeout _ := isOnTasks_of_text rfl (by decide +kernel)
  lockSeed _ _ := isOnTasks_of_text rfl (by decide +kernel)
  tryLockSeed _ _ := isOnTasks_of_text rfl (by decide +kernel)
  findRole _ _ := isOnTasks_of_text rfl (by decide +kernel)
  insertAudit _ _ := isOnTasks_of_text (ofList_append (ofList_append rfl rfl) rfl) (by decide +kernel)

end Statement

end LaneOrder.Sql
