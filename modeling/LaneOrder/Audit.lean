import LaneOrder.Json.Number
import LaneOrder.Task

/-!
This module contains the records of what commands did.
-/

namespace LaneOrder

inductive AuditAction where
  | create
  | move
  | renormalize
deriving DecidableEq

namespace AuditAction

def all : List AuditAction := [.create, .move, .renormalize]

def name : AuditAction → String
  | .create => "create"
  | .move => "move"
  | .renormalize => "renormalize"

def resourceType : AuditAction → String
  | .renormalize => "workspace"
  | .create | .move => "task"

end AuditAction

structure AuditEntry where
  workspace : WorkspaceId
  actor : ActorId
  action : AuditAction
  resource : Uuid
  metadata : Json
  occurredAt : Timestamp

namespace AuditEntry

def moved (workspace : WorkspaceId) (actor : ActorId) (id : TaskId) (source destination : Lane)
    (position : Position) (time : Timestamp) : AuditEntry where
  workspace
  actor
  action := .move
  resource := id.uuid
  metadata := .record [("fromLane", .ofString source.name), ("newPosition", position.toJson),
    ("toLane", .ofString destination.name)]
  occurredAt := time

def created (workspace : WorkspaceId) (actor : ActorId) (id : TaskId) (lane : Lane)
    (position : Position) (time : Timestamp) : AuditEntry where
  workspace
  actor
  action := .create
  resource := id.uuid
  metadata := .record [("lane", .ofString lane.name), ("position", position.toJson)]
  occurredAt := time

def renormalized (workspace : WorkspaceId) (actor : ActorId) (lane : Lane) (count : Nat)
    (time : Timestamp) : AuditEntry where
  workspace
  actor
  action := .renormalize
  resource := workspace.uuid
  metadata := .record [("lane", .ofString lane.name), ("taskCount", .ofNat count)]
  occurredAt := time

end AuditEntry

end LaneOrder
