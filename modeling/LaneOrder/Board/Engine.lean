import LaneOrder.Board.Action

/-!
This module contains the store that is kept on a board: how each call is carried out by actions. A call
that locks several rows takes them one after the other.
-/

namespace LaneOrder.Board

inductive Op where
  | ambient (call : AmbientCall)
  | action (a : Action)

@[reducible]
def Op.Reply : Op → Type
  | ambient call => call.Reply
  | action a => a.Reply

@[reducible]
def ops : Interface := ⟨Op, Op.Reply⟩

abbrev Working := Program ops

def perform (a : Action) : Working a.Reply :=
  Program.ask (I := ops) (.action a)

def time : Working Timestamp :=
  Program.ask (I := ops) (.ambient .now)

def timedOut (key : LockKey) : StoreError :=
  .lockTimeout key.text

def lockRow (id : TaskId) (wanted : Task → Bool) (missing : StoreError) :
    Working (Except StoreError Task) := do
  match ← perform (.lockRow id) with
  | .refused => return .error (timedOut (.row id))
  | .granted row => match row.filter wanted with
    | some task => return .ok task
    -- the lock is kept even if the row is not wanted
    | none => return .error missing

def lockRows (wanted : Task → Bool) : List TaskId → Working (Except StoreError (List Task))
  | [] => return .ok []
  | id :: ids => do
    match ← perform (.lockRow id) with
    | .refused => return .error (timedOut (.row id))
    | .granted row =>
      match ← lockRows wanted ids with
      | .ok tasks => return .ok ((row.filter wanted).toList ++ tasks)
      | .error e => return .error e

/-- Lock the rows that a lane has now in ascending order. Rows that leave it meanwhile are not part of the
reply, and rows that enter it meanwhile are not locked. -/
def lockLane (workspace : WorkspaceId) (lane : Lane) : Working (Except StoreError (List Task)) := do
  let ids ← perform (.laneIds workspace lane)
  lockRows (·.isInLane workspace lane) ids

def deleteTask (workspace : WorkspaceId) (id : TaskId) : Working (Except StoreError Bool) := do
  perform .start
  match ← lockRow id (·.isIn workspace) (.missingTask workspace id) with
  | .ok _ =>
    let now ← time
    perform (.delete id now)
    perform .commit
    return .ok true
  | .error e =>
    perform .rollback
    match e with
    | .notFound _ => return .ok false
    | e => return .error e

def carryOut : (c : Call) → Working c.Reply
  | .ambient call => Program.ask (I := ops) (.ambient call)
  | .role actor workspace => do
    match ← perform (.role actor workspace) with
    | some role => return .ok role
    | none => return .error (.notMember actor workspace)
  | .record entry => perform (.record entry)
  | .begin => do
    perform .start
    return .ok ()
  | .insert task => do
    if ← perform (.insert task) then return .ok ()
    else return .error (.database ("task " ++ toString task.id ++ " already exists"))
  | .find workspace id => do return .ok (← perform (.find workspace id))
  | .list workspace lane => do return .ok (← perform (.list workspace lane))
  | .greatest workspace lane => do return .ok (← perform (.greatest workspace lane))
  | .delete workspace id => deleteTask workspace id
  | .lockTarget workspace id => lockRow id (·.isIn workspace) (.missingTask workspace id)
  | .lockNeighbor workspace lane id =>
    lockRow id (·.isInLane workspace lane) (.missingNeighbor workspace lane id)
  | .tryLockNeighbor workspace lane id => do
    match ← perform (.tryLockRow id) with
    | .granted row => return .ok (row.filter (·.isInLane workspace lane))
    | .refused => return .ok none
  | .lockLane workspace lane => lockLane workspace lane
  | .lockSeed workspace lane => do
    match ← perform (.lockSeed workspace lane) with
    | .granted _ => return .ok ()
    | .refused => return .error (timedOut (.seed workspace lane))
  | .tryLockSeed workspace lane => do
    match ← perform (.tryLockSeed workspace lane) with
    | .granted _ => return .ok true
    | .refused => return .ok false
  | .adjacent workspace lane pivot direction exclude => do
    return .ok (← perform (.adjacent workspace lane pivot direction exclude))
  | .persist workspace id position lane => do
    let now ← time
    if ← perform (.stage workspace ⟨id, position, lane, now⟩) then return .ok ()
    else return .error (.missingTask workspace id)
  | .commit => do
    perform .commit
    return .ok ()
  | .rollback => do
    perform .rollback
    return .ok ()

def actionsOf {α : Type} (p : Commanding α) : Working α :=
  p.implement carryOut

end LaneOrder.Board
