import LaneOrder.Call

/-!
This module contains what all commands share: the check of the actor, the failure of a store call, the
end of a failed transaction, and the record of what was done.
-/

namespace LaneOrder

variable {α β : Type}

abbrev Outcome (α : Type) : Type := Except CommandError α

def storeFailed (stage : Stage) (e : StoreError) : Commanding (Outcome α) := do
  match e with
  -- a missing row is no failure of the store
  | .notFound _ => note .rowNotFound
  | _ => note .storageFailure
  return .error (.ofStore stage e)

def orFail (stage : Stage) (reply : Except StoreError α) (next : α → Commanding (Outcome β)) : Commanding (Outcome β) :=
  match reply with
  | .ok a => next a
  | .error e => storeFailed stage e

def authorized (actor : ActorId) (workspace : WorkspaceId) (next : Commanding (Outcome β)) : Commanding (Outcome β) := do
  match ← call (.role actor workspace) with
  | .ok role =>
    if role.canModify then next
    else
      note .modificationDenied
      return .error (.mayNotModify actor workspace)
  | .error (.store e) =>
    note .roleLookupFailed
    return .error (.ofRole (.store e))
  | .error e => return .error (.ofRole e)

def withLane (name : String) (next : Lane → Commanding (Outcome β)) : Commanding (Outcome β) :=
  match Lane.parse name with
  | .ok lane => next lane
  | .error e => return .error (.unknownLane e)

def record (entry : Timestamp → AuditEntry) : Commanding Unit := do
  let time ← call (.ambient .now)
  match ← call (.record (entry time)) with
  | .ok _ => return
  -- what is done is done, whether it can be recorded or not
  | .error _ => note .auditFailed

def abandon : Commanding Unit := do
  match ← call .rollback with
  | .ok _ => return
  | .error _ => note .rollbackFailed

end LaneOrder
