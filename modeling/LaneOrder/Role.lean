import LaneOrder.Text.Lowercase

/-!
This module contains the roles of the members of a workspace.
-/

namespace LaneOrder

inductive Role where
  | owner
  | admin
  | member
  | viewer
deriving DecidableEq, Repr

namespace Role

def all : List Role := [.owner, .admin, .member, .viewer]

def name : Role → String
  | .owner => "owner"
  | .admin => "admin"
  | .member => "member"
  | .viewer => "viewer"

theorem mem_all (role : Role) : role ∈ all := by
  cases role <;> decide

def canModify : Role → Bool
  | .owner | .admin | .member => true
  | .viewer => false

def ofName? (cs : List Char) : Option Role :=
  all.find? fun role => role.name.toList = cs

@[simp]
theorem ofName?_name (role : Role) : ofName? role.name.toList = some role := by
  cases role <;> decide

structure Unknown where
  text : String
deriving DecidableEq

def Unknown.message (e : Unknown) : String :=
  "unknown role '" ++ e.text ++ "'"

def parse (s : String) : Except Unknown Role :=
  match ofName? (Text.lowerList s.toList) with
  | some role => .ok role
  | none => .error ⟨s⟩

end Role

end LaneOrder
