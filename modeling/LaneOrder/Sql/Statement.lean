import LaneOrder.Audit
import LaneOrder.Error
import LaneOrder.Membership

/-!
This module contains the statements that are sent to a database server: their texts, their parameters, and
what the server may answer.
-/

namespace LaneOrder.Sql

inductive Parameter where
  | uuid (id : Uuid)
  | text (s : String)
  | float8 (x : Binary64)
  | timestamptz (t : Timestamp)
  | jsonb (j : Json)
  | null

inductive Relation where
  | tasks
  | lanePositions
  | members
  | auditLogs
deriving DecidableEq

namespace Relation

def all : List Relation := [.tasks, .lanePositions, .members, .auditLogs]

def definition : Relation → String
  | tasks =>
    "CREATE TABLE IF NOT EXISTS tasks (id UUID PRIMARY KEY, workspace_id UUID NOT NULL, "
      ++ "title TEXT NOT NULL, "
      ++ "status TEXT NOT NULL CHECK (status IN ('todo', 'in_progress', 'done', 'cancelled')), "
      ++ "position DOUBLE PRECISION NOT NULL, created_at TIMESTAMPTZ NOT NULL DEFAULT NOW(), "
      ++ "updated_at TIMESTAMPTZ NOT NULL DEFAULT NOW(), deleted_at TIMESTAMPTZ)"
  | lanePositions =>
    "CREATE INDEX IF NOT EXISTS idx_tasks_lane_position ON tasks (workspace_id, status, position) "
      ++ "WHERE deleted_at IS NULL"
  | members =>
    "CREATE TABLE IF NOT EXISTS workspace_members (workspace_id UUID NOT NULL, user_id UUID NOT NULL, "
      ++ "role TEXT NOT NULL CHECK (role IN ('owner', 'admin', 'member', 'viewer')), "
      ++ "PRIMARY KEY (workspace_id, user_id))"
  | auditLogs =>
    "CREATE TABLE IF NOT EXISTS audit_logs (id UUID PRIMARY KEY, workspace_id UUID NOT NULL, "
      ++ "actor_id UUID NOT NULL, action TEXT NOT NULL, resource_type TEXT NOT NULL, "
      ++ "resource_id UUID NOT NULL, metadata JSONB NOT NULL, created_at TIMESTAMPTZ NOT NULL)"

end Relation

inductive Statement where
  | begin
  | commit
  | rollback
  | setLockTimeout (setting : String)
  | create (r : Relation)
  | insertTask (t : Task)
  | findTask (workspace : WorkspaceId) (id : TaskId)
  | listLane (workspace : WorkspaceId) (lane : Lane)
  | greatest (workspace : WorkspaceId) (lane : Lane)
  | deleteTask (workspace : WorkspaceId) (id : TaskId)
  | lockTarget (workspace : WorkspaceId) (id : TaskId)
  | lockNeighbor (workspace : WorkspaceId) (lane : Lane) (id : TaskId)
  | tryLockNeighbor (workspace : WorkspaceId) (lane : Lane) (id : TaskId)
  | lockLane (workspace : WorkspaceId) (lane : Lane)
  | lockSeed (workspace : WorkspaceId) (lane : Lane)
  | tryLockSeed (workspace : WorkspaceId) (lane : Lane)
  | adjacent (workspace : WorkspaceId) (lane : Lane) (pivot : Position) (direction : Direction)
      (exclude : TaskId)
  | persist (workspace : WorkspaceId) (id : TaskId) (position : Position) (lane : Lane)
  | findRole (actor : ActorId) (workspace : WorkspaceId)
  | grant (m : Membership)
  | insertAudit (id : Uuid) (entry : AuditEntry)

namespace Statement

def selectTasks : String :=
  "SELECT id, workspace_id, title, status, position, created_at, updated_at, deleted_at FROM tasks "

def whereTask : String :=
  "WHERE id = $1 AND workspace_id = $2 AND deleted_at IS NULL"

def whereNeighbor : String :=
  "WHERE id = $1 AND workspace_id = $2 AND status = $3 AND deleted_at IS NULL"

def whereLane : String :=
  "WHERE workspace_id = $1 AND status = $2 AND deleted_at IS NULL"

def text : Statement → String
  | begin => "BEGIN"
  | commit => "COMMIT"
  | rollback => "ROLLBACK"
  | setLockTimeout _ => "SELECT set_config('lock_timeout', $1, true)"
  | create r => r.definition
  | insertTask _ =>
    "INSERT INTO tasks (id, workspace_id, title, status, position, created_at, updated_at, deleted_at) "
      ++ "VALUES ($1, $2, $3, $4, $5, $6, $7, $8)"
  | findTask .. => selectTasks ++ whereTask
  | listLane .. => selectTasks ++ whereLane ++ " ORDER BY position ASC, id ASC"
  | greatest .. => "SELECT COALESCE(MAX(position), 0)::DOUBLE PRECISION FROM tasks " ++ whereLane
  | deleteTask .. => "UPDATE tasks SET deleted_at = NOW(), updated_at = NOW() " ++ whereTask
  | lockTarget .. => selectTasks ++ whereTask ++ " FOR UPDATE"
  | lockNeighbor .. => selectTasks ++ whereNeighbor ++ " FOR UPDATE"
  | tryLockNeighbor .. => selectTasks ++ whereNeighbor ++ " FOR UPDATE SKIP LOCKED"
  | lockLane .. => selectTasks ++ whereLane ++ " ORDER BY id ASC FOR UPDATE"
  | lockSeed .. => "SELECT pg_advisory_xact_lock(hashtextextended($1, 0))"
  | tryLockSeed .. => "SELECT pg_try_advisory_xact_lock(hashtextextended($1, 0))"
  | adjacent _ _ _ .above _ =>
    "SELECT id, position FROM tasks " ++ whereLane
      ++ " AND position > $3 AND id <> $4 ORDER BY position ASC, id ASC LIMIT 1"
  | adjacent _ _ _ .below _ =>
    "SELECT id, position FROM tasks " ++ whereLane
      ++ " AND position < $3 AND id <> $4 ORDER BY position DESC, id DESC LIMIT 1"
  | persist .. =>
    "UPDATE tasks SET position = $1, status = $2, updated_at = NOW() "
      ++ "WHERE id = $3 AND workspace_id = $4 AND deleted_at IS NULL"
  | findRole .. => "SELECT role FROM workspace_members WHERE workspace_id = $1 AND user_id = $2"
  | grant _ =>
    "INSERT INTO workspace_members (workspace_id, user_id, role) VALUES ($1, $2, $3) "
      ++ "ON CONFLICT (workspace_id, user_id) DO UPDATE SET role = EXCLUDED.role"
  | insertAudit .. =>
    "INSERT INTO audit_logs "
      ++ "(id, workspace_id, actor_id, action, resource_type, resource_id, metadata, created_at) "
      ++ "VALUES ($1, $2, $3, $4, $5, $6, $7, $8)"

def seedKey (workspace : WorkspaceId) (lane : Lane) : String :=
  "kanban_reorder:lane_seed:" ++ toString workspace ++ ":" ++ lane.name

def parameters : Statement → List Parameter
  | begin | commit | rollback | create _ => []
  | setLockTimeout setting => [.text setting]
  | insertTask t => [.uuid t.id.uuid, .uuid t.workspace.uuid, .text t.title, .text t.lane.name,
      .float8 t.position, .timestamptz t.createdAt, .timestamptz t.updatedAt,
      match t.deletedAt with
      | some time => .timestamptz time
      | none => .null]
  | findTask workspace id | deleteTask workspace id | lockTarget workspace id =>
    [.uuid id.uuid, .uuid workspace.uuid]
  | listLane workspace lane | greatest workspace lane | lockLane workspace lane =>
    [.uuid workspace.uuid, .text lane.name]
  | lockNeighbor workspace lane id | tryLockNeighbor workspace lane id =>
    [.uuid id.uuid, .uuid workspace.uuid, .text lane.name]
  | lockSeed workspace lane | tryLockSeed workspace lane => [.text (seedKey workspace lane)]
  | adjacent workspace lane pivot _ exclude =>
    [.uuid workspace.uuid, .text lane.name, .float8 pivot, .uuid exclude.uuid]
  | persist workspace id position lane =>
    [.float8 position, .text lane.name, .uuid id.uuid, .uuid workspace.uuid]
  | findRole actor workspace => [.uuid workspace.uuid, .uuid actor.uuid]
  | grant m => [.uuid m.workspace.uuid, .uuid m.actor.uuid, .text m.role.name]
  | insertAudit id e => [.uuid id, .uuid e.workspace.uuid, .uuid e.actor.uuid, .text e.action.name,
      .text e.action.resourceType, .uuid e.resource, .jsonb e.metadata, .timestamptz e.occurredAt]

end Statement

/-- A row of the table of tasks as the server sends it. A cell that is NULL is `none`. -/
structure TaskCells where
  id : Option Uuid
  workspace : Option Uuid
  title : Option String
  status : Option String
  position : Option Binary64
  createdAt : Option Timestamp
  updatedAt : Option Timestamp
  deletedAt : Option Timestamp
deriving DecidableEq

structure TaskRow where
  id : Uuid
  workspace : Uuid
  title : String
  status : String
  position : Binary64
  createdAt : Timestamp
  updatedAt : Timestamp
  deletedAt : Option Timestamp
deriving DecidableEq

inductive Shape where
  | tasks
  | neighbors
  | positions
  | roles
  | flags
  | count
deriving DecidableEq

namespace Shape

@[reducible]
def Result : Shape → Type
  | tasks => List TaskCells
  | neighbors => List (Option Uuid × Option Binary64)
  | positions => List (Option Binary64)
  | roles => List (Option String)
  | flags => List (Option Bool)
  | count => Nat

def default : (s : Shape) → s.Result
  | tasks => []
  | neighbors => []
  | positions => []
  | roles => []
  | flags => []
  | count => 1

end Shape

def Statement.shape : Statement → Shape
  | findTask .. | listLane .. | lockTarget .. | lockNeighbor .. | tryLockNeighbor .. | lockLane .. =>
    .tasks
  | adjacent .. => .neighbors
  | greatest .. => .positions
  | findRole .. => .roles
  | tryLockSeed .. => .flags
  | _ => .count

structure ServerError where
  code : String
  message : String
deriving DecidableEq

namespace ServerError

def lockCodes : List String :=
  ["55P03", "40P01"]

def toStoreError (e : ServerError) : StoreError :=
  if e.code ∈ lockCodes then .lockTimeout e.message
  else .database ("error returned from database: " ++ e.message)

end ServerError

end LaneOrder.Sql
