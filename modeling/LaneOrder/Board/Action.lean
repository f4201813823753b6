import LaneOrder.Board.Basic
import LaneOrder.Call

/-!
This module contains the actions on a board, each of which happens at once. An action is answered, or it
blocks: then its lock belongs to another holder, and the holder of the action waits for it in the queue.
-/

namespace LaneOrder.Board

variable {α : Type}

inductive Grant (α : Type) where
  | granted (a : α)
  | refused
deriving DecidableEq

inductive Action where
  | role (actor : ActorId) (workspace : WorkspaceId)
  | record (entry : AuditEntry)
  | insert (task : Task)
  | find (workspace : WorkspaceId) (id : TaskId)
  | list (workspace : WorkspaceId) (lane : Lane)
  | greatest (workspace : WorkspaceId) (lane : Lane)
  | start
  | laneIds (workspace : WorkspaceId) (lane : Lane)
  | adjacent (workspace : WorkspaceId) (lane : Lane) (pivot : Position) (direction : Direction)
      (exclude : TaskId)
  | lockRow (id : TaskId)
  | tryLockRow (id : TaskId)
  | lockSeed (workspace : WorkspaceId) (lane : Lane)
  | tryLockSeed (workspace : WorkspaceId) (lane : Lane)
  | stage (workspace : WorkspaceId) (write : StagedWrite)
  | delete (id : TaskId) (time : Timestamp)
  | commit
  | rollback

namespace Action

@[reducible]
def Reply : Action → Type
  | role .. => Option Role
  | record _ => Except StoreError Unit
  | insert _ => Bool
  | find .. => Option Task
  | list .. => List Task
  | greatest .. => Position
  | start => Unit
  | laneIds .. => List TaskId
  | adjacent .. => Option Neighbor
  | lockRow _ => Grant (Option Task)
  | tryLockRow _ => Grant (Option Task)
  | lockSeed .. => Grant Unit
  | tryLockSeed .. => Grant Unit
  | stage .. => Bool
  | delete .. => Unit
  | commit => Unit
  | rollback => Unit

end Action

/-- What becomes of an action. One that is blocked has a reply too, for the case that the wait is given
up. -/
inductive Effect (α : Type) where
  | replied (reply : α) (board : Board)
  | blocked (key : LockKey) (refusal : α) (board : Board)

def acquire (b : Board) (holder : Holder) (key : LockKey) (seen : α) : Effect (Grant α) :=
  match b.transaction? holder with
  -- nothing would ever release the lock of a holder without a transaction
  | none => .replied .refused b
  | some _ => match (b.locks.asked holder).acquire holder key with
    | (true, locks) => .replied (.granted seen) { b with locks }
    | (false, locks) => .blocked key .refused { b with locks }

def tryAcquire (b : Board) (holder : Holder) (key : LockKey) (seen : α) : Effect (Grant α) :=
  match b.transaction? holder with
  | none => .replied .refused b
  | some _ => match (b.locks.asked holder).tryAcquire holder key with
    | (true, locks) => .replied (.granted seen) { b with locks }
    | (false, locks) => .replied .refused { b with locks }

def stage? (b : Board) (holder : Holder) (workspace : WorkspaceId) (write : StagedWrite) :
    Option Board := do
  let tx ← b.transaction? holder
  let _ ← (b.view holder).findIn? workspace write.id
  return b.withTransaction holder (tx.stage write)

def act (b : Board) (holder : Holder) : (action : Action) → Effect action.Reply
  | .role actor workspace => .replied (b.role? actor workspace) b
  | .record entry =>
    let (reply, audit) := b.audit.append entry
    .replied reply { b with audit }
  | .insert task => match b.rows.insert? task with
    | some rows => .replied true { b with rows }
    | none => .replied false b
  | .find workspace id => .replied (b.rows.findIn? workspace id) b
  | .list workspace lane => .replied (b.rows.list workspace lane) b
  | .greatest workspace lane => .replied (b.rows.greatest workspace lane) b
  | .start => .replied () ((b.release holder).withTransaction holder {})
  | .laneIds workspace lane => .replied ((b.view holder).laneIds workspace lane) b
  | .adjacent workspace lane pivot direction exclude =>
    .replied ((b.view holder).adjacent? workspace lane pivot direction exclude) b
  | .lockRow id => b.acquire holder (.row id) ((b.view holder).find? id)
  | .tryLockRow id => b.tryAcquire holder (.row id) ((b.view holder).find? id)
  | .lockSeed workspace lane => b.acquire holder (.seed workspace lane) ()
  | .tryLockSeed workspace lane => b.tryAcquire holder (.seed workspace lane) ()
  | .stage workspace write => match b.stage? holder workspace write with
    | some b => .replied true b
    | none => .replied false b
  | .delete id time => .replied () (b.delete id time)
  | .commit => .replied () (b.commit holder)
  | .rollback => .replied () (b.release holder)

end LaneOrder.Board
