import LaneOrder.Call
import LaneOrder.Duration
import LaneOrder.Sql.Statement

/-!
This module contains the store that is kept in a database: how each call is carried out by statements. The
server does the locking; a wait that takes too long or ends in a deadlock comes back as an error.
-/

namespace LaneOrder.Sql

variable {α : Type}

/-- What the store needs: answers to statements, and what needs no server. A transaction that is dropped is
rolled back when its connection is used next. -/
inductive Op where
  | ambient (call : AmbientCall)
  | run (s : Statement)
  | drop

@[reducible]
def Op.Reply : Op → Type
  | ambient call => call.Reply
  | run s => Except ServerError s.shape.Result
  | drop => Unit

@[reducible]
def ops : Interface := ⟨Op, Op.Reply⟩

abbrev Working := Program ops

def ambient (call : AmbientCall) : Working call.Reply :=
  Program.ask (I := ops) (.ambient call)

def drop : Working Unit :=
  Program.ask (I := ops) .drop

def run (s : Statement) : Working (Except StoreError s.shape.Result) := do
  match ← Program.ask (I := ops) (.run s) with
  | .ok result => return .ok result
  | .error e => return .error e.toStoreError

def execute (s : Statement) : Working (Except StoreError Unit) := do
  match ← run s with
  | .ok _ => return .ok ()
  | .error e => return .error e

def finish (s : Statement) : Working (Except StoreError Unit) := do
  match ← run s with
  | .ok _ => return .ok ()
  | .error e =>
    -- a transaction does not outlive its failed end
    drop
    return .error e

def notNull (column : String) : Option α → Except StoreError α
  | some a => .ok a
  | none => .error (.database ("error occurred while decoding column " ++ column
      ++ ": unexpected null; try decoding as an `Option`"))

def firstCell : List (Option α) → Except StoreError α
  | [] => .error (.database "no rows returned by a query that expected to return at least one row")
  | cell :: _ => notNull "0" cell

def TaskCells.toRow (c : TaskCells) : Except StoreError TaskRow := do
  return {
    id := ← notNull "\"id\"" c.id
    workspace := ← notNull "\"workspace_id\"" c.workspace
    title := ← notNull "\"title\"" c.title
    status := ← notNull "\"status\"" c.status
    position := ← notNull "\"position\"" c.position
    createdAt := ← notNull "\"created_at\"" c.createdAt
    updatedAt := ← notNull "\"updated_at\"" c.updatedAt
    deletedAt := c.deletedAt }

def TaskRow.toTask (r : TaskRow) : Except StoreError Task :=
  match Lane.parse r.status with
  | .error e => .error (.corrupt e.message)
  | .ok lane => .ok {
      id := ⟨r.id⟩
      workspace := ⟨r.workspace⟩
      title := r.title
      lane
      position := r.position
      createdAt := r.createdAt
      updatedAt := r.updatedAt
      deletedAt := r.deletedAt }

def firstTask : List TaskCells → Except StoreError (Option Task)
  | [] => .ok none
  | cells :: _ => (cells.toRow.bind TaskRow.toTask).map some

def allTasks (rows : List TaskCells) : Except StoreError (List Task) :=
  -- all rows are read before the first status is looked at
  (rows.mapM TaskCells.toRow).bind (·.mapM TaskRow.toTask)

def firstNeighbor : List (Option Uuid × Option Binary64) → Except StoreError (Option Neighbor)
  | [] => .ok none
  | (id, position) :: _ => do return some ⟨⟨← notNull "0" id⟩, ← notNull "1" position⟩

def lockTimeoutSetting (timeout : Duration) : String :=
  -- zero would mean no timeout at all
  toString (max 1 timeout.millis) ++ "ms"

def begin (timeout : Duration) : Working (Except StoreError Unit) := do
  match ← run .begin with
  | .error e => return .error e
  | .ok _ => finish (.setLockTimeout (lockTimeoutSetting timeout))

def lockFirst (missing : StoreError) (rows : Working (Except StoreError (List TaskCells))) :
    Working (Except StoreError Task) := do
  match ← rows with
  | .error e => return .error e
  | .ok rows => return match firstTask rows with
    | .error e => .error e
    | .ok (some task) => .ok task
    | .ok none => .error missing

def carryOut (timeout : Duration) : (c : Call) → Working c.Reply
  | .ambient call => ambient call
  | .role actor workspace => do
    match ← run (.findRole actor workspace) with
    | .error e => return .error (.store e)
    | .ok [] => return .error (.notMember actor workspace)
    | .ok (cell :: _) => return match notNull "0" cell with
      | .error e => .error (.store e)
      | .ok name => match Role.parse name with
        | .ok role => .ok role
        | .error e => .error (.store (.corrupt e.message))
  | .record entry => do
    let id ← ambient .freshId
    execute (.insertAudit id.uuid entry)
  | .begin => begin timeout
  | .insert task => execute (.insertTask task)
  | .find workspace id => do return (← run (.findTask workspace id)).bind firstTask
  | .list workspace lane => do
    return (← run (.listLane workspace lane)).bind allTasks
  | .greatest workspace lane => do return (← run (.greatest workspace lane)).bind firstCell
  | .delete workspace id => do return (← run (.deleteTask workspace id)).map fun (count : Nat) => 0 < count
  | .lockTarget workspace id =>
    lockFirst (.missingTask workspace id) (run (.lockTarget workspace id))
  | .lockNeighbor workspace lane id =>
    lockFirst (.missingNeighbor workspace lane id) (run (.lockNeighbor workspace lane id))
  | .tryLockNeighbor workspace lane id => do
    return (← run (.tryLockNeighbor workspace lane id)).bind firstTask
  | .lockLane workspace lane => do
    return (← run (.lockLane workspace lane)).bind allTasks
  | .lockSeed workspace lane => execute (.lockSeed workspace lane)
  | .tryLockSeed workspace lane => do return (← run (.tryLockSeed workspace lane)).bind firstCell
  | .adjacent workspace lane pivot direction exclude => do
    return (← run (.adjacent workspace lane pivot direction exclude)).bind firstNeighbor
  | .persist workspace id position lane => do
    return (← run (.persist workspace id position lane)).bind fun (count : Nat) =>
      if count = 0 then .error (.missingTask workspace id) else .ok ()
  | .commit => finish .commit
  | .rollback => finish .rollback

def statementsOf (timeout : Duration) (p : Commanding α) : Working α :=
  p.implement (carryOut timeout)

def ensureSchema : Working (Except StoreError Unit) :=
  go Relation.all
where
  go : List Relation → Working (Except StoreError Unit)
    | [] => do
      ambient (.note .schemaEnsured)
      return .ok ()
    | r :: rs => do
      match ← run (.create r) with
      | .ok _ => go rs
      | .error e => return .error e

def grant (m : Membership) : Working (Except StoreError Unit) :=
  execute (.grant m)

def notConfigured : StoreError :=
  .database "DATABASE_URL is not configured"

end LaneOrder.Sql
