import LaneOrder.Audit
import LaneOrder.Error
import LaneOrder.Notice
import LaneOrder.Program
import LaneOrder.Role

/-!
This module contains what commands ask of their surroundings: of the store of tasks, of a transaction
on it, of the look-up of roles, of the audit sink, and of the allocator, the clock and the source of
identifiers. Calls on a transaction go to the one that the command opened last.
-/

namespace LaneOrder

/-- What a command asks for that no store is needed for. -/
inductive AmbientCall where
  | note (notice : Notice)
  | now
  | freshId
  | allocate (before after : Option Position)
  | appendAfter (greatest : Position)
  | spaced (index : Nat)
deriving DecidableEq

@[reducible]
def AmbientCall.Reply : AmbientCall → Type
  | note _ => Unit
  | now => Timestamp
  | freshId => TaskId
  | allocate .. => Allocation
  | appendAfter _ => Position
  | spaced _ => Position

inductive Call where
  | ambient (call : AmbientCall)
  | role (actor : ActorId) (workspace : WorkspaceId)
  | record (entry : AuditEntry)
  | begin
  | insert (task : Task)
  | find (workspace : WorkspaceId) (id : TaskId)
  | list (workspace : WorkspaceId) (lane : Lane)
  | greatest (workspace : WorkspaceId) (lane : Lane)
  | delete (workspace : WorkspaceId) (id : TaskId)
  | lockTarget (workspace : WorkspaceId) (id : TaskId)
  | lockNeighbor (workspace : WorkspaceId) (lane : Lane) (id : TaskId)
  | tryLockNeighbor (workspace : WorkspaceId) (lane : Lane) (id : TaskId)
  | lockLane (workspace : WorkspaceId) (lane : Lane)
  | lockSeed (workspace : WorkspaceId) (lane : Lane)
  | tryLockSeed (workspace : WorkspaceId) (lane : Lane)
  | adjacent (workspace : WorkspaceId) (lane : Lane) (pivot : Position) (direction : Direction)
      (exclude : TaskId)
  | persist (workspace : WorkspaceId) (id : TaskId) (position : Position) (lane : Lane)
  | commit
  | rollback

@[reducible]
def Call.Reply : Call → Type
  | ambient call => call.Reply
  | role .. => Except RoleError Role
  | record _ => Except StoreError Unit
  | begin => Except StoreError Unit
  | insert _ => Except StoreError Unit
  | find .. => Except StoreError (Option Task)
  | list .. => Except StoreError (List Task)
  | greatest .. => Except StoreError Position
  | delete .. => Except StoreError Bool
  | lockTarget .. => Except StoreError Task
  | lockNeighbor .. => Except StoreError Task
  | tryLockNeighbor .. => Except StoreError (Option Task)
  | lockLane .. => Except StoreError (List Task)
  | lockSeed .. => Except StoreError Unit
  | tryLockSeed .. => Except StoreError Bool
  | adjacent .. => Except StoreError (Option Neighbor)
  | persist .. => Except StoreError Unit
  | commit => Except StoreError Unit
  | rollback => Except StoreError Unit

def Call.isEnd : Call → Bool
  | commit | rollback => true
  | _ => false

@[reducible]
def calls : Interface := ⟨Call, Call.Reply⟩

abbrev Commanding := Program calls

def call (c : Call) : Commanding c.Reply :=
  Program.ask (I := calls) c

def note (n : Notice) : Commanding Unit :=
  call (.ambient (.note n))

end LaneOrder
