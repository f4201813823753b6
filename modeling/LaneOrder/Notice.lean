/-!
This module contains the notices that are logged.
-/

namespace LaneOrder

inductive Level where
  | debug
  | info
  | warn
  | error
deriving DecidableEq

def Level.name : Level → String
  | debug => "DEBUG"
  | info => "INFO"
  | warn => "WARN"
  | error => "ERROR"

inductive Notice where
  | roleLookupFailed
  | modificationDenied
  | rowNotFound
  | storageFailure
  | taskCreated
  | taskMoved
  | taskVanished
  | positionExhausted
  | gapKeptMoving
  | gapRetried
  | gapNeverSettled
  | rollbackFailed
  | laneRenormalized
  | auditFailed
  | schemaEnsured
deriving DecidableEq

namespace Notice

def level : Notice → Level
  | roleLookupFailed | storageFailure | gapNeverSettled => .error
  | positionExhausted | rollbackFailed | auditFailed => .warn
  | modificationDenied | taskCreated | taskMoved | laneRenormalized | schemaEnsured => .info
  | rowNotFound | taskVanished | gapKeptMoving | gapRetried => .debug

def text : Notice → String
  | roleLookupFailed => "Role lookup failed"
  | modificationDenied => "Modification denied"
  | rowNotFound => "Row not found"
  | storageFailure => "Storage failure"
  | taskCreated => "Task created"
  | taskMoved => "Task moved"
  | taskVanished => "Task vanished after commit"
  | positionExhausted => "Position precision exhausted, lane needs renormalization"
  | gapKeptMoving => "Insertion gap kept moving"
  | gapRetried => "Insertion gap needs out-of-order locks, retrying"
  | gapNeverSettled => "Insertion gap never settled"
  | rollbackFailed => "Rollback failed"
  | laneRenormalized => "Lane renormalized"
  | auditFailed => "Failed to write audit entry"
  | schemaEnsured => "Schema ensured"

instance : ToString Notice := ⟨fun n => n.level.name ++ " " ++ n.text⟩

end Notice

end LaneOrder
