import LaneOrder.Audit
import LaneOrder.Command.Create
import LaneOrder.Command.Move
import LaneOrder.Command.Renormalize
import LaneOrder.Json.Form

/-!
This module contains the forms of tasks, of records of what was done, and of requests and their outcomes.
-/

namespace LaneOrder

open Json

def Lane.form : Form Lane :=
  .named Lane.ofName? Lane.name

def Role.form : Form Role :=
  .named Role.ofName? Role.name

def AuditAction.form : Form AuditAction :=
  .named (fun cs => AuditAction.all.find? (·.name.toList = cs)) AuditAction.name

def ErrorKind.form : Form ErrorKind :=
  .named (fun cs => ErrorKind.all.find? (·.name.toList = cs)) ErrorKind.name

namespace Task

def fieldNames : List String :=
  ["task_id", "workspace_id", "title", "status", "position", "created_at", "updated_at", "deleted_at"]

def form : Form Task where
  write t := .record (fieldNames.zip [Form.taskId.write t.id, Form.workspaceId.write t.workspace,
    Form.text.write t.title, Lane.form.write t.lane, Form.binary64.write t.position,
    Form.timestamp.write t.createdAt, Form.timestamp.write t.updatedAt,
    Form.timestamp.optional.write t.deletedAt])
  read? j := do
    match ← parts? fieldNames j with
    | [id, workspace, title, lane, position, createdAt, updatedAt, deletedAt] =>
      return {
        id := ← Form.taskId.required? id
        workspace := ← Form.workspaceId.required? workspace
        title := ← Form.text.required? title
        lane := ← Lane.form.required? lane
        position := ← Form.binary64.required? position
        createdAt := ← Form.timestamp.required? createdAt
        updatedAt := ← Form.timestamp.required? updatedAt
        deletedAt := ← Form.timestamp.ifGiven? deletedAt }
    | _ => none

end Task

namespace AuditEntry

def fieldNames : List String :=
  ["workspace_id", "actor_id", "action", "resource_id", "metadata", "occurred_at"]

def form : Form AuditEntry where
  write e := .record (fieldNames.zip [Form.workspaceId.write e.workspace, Form.actorId.write e.actor,
    AuditAction.form.write e.action, Form.uuid.write e.resource, Form.document.write e.metadata,
    Form.timestamp.write e.occurredAt])
  read? j := do
    match ← parts? fieldNames j with
    | [workspace, actor, action, resource, metadata, occurredAt] =>
      return {
        workspace := ← Form.workspaceId.required? workspace
        actor := ← Form.actorId.required? actor
        action := ← AuditAction.form.required? action
        resource := ← Form.uuid.required? resource
        metadata := ← Form.document.required? metadata
        occurredAt := ← Form.timestamp.required? occurredAt }
    | _ => none

end AuditEntry

namespace MoveRequest

def fieldNames : List String :=
  ["workspace_id", "task_id", "actor_id", "to_status", "before_task_id", "after_task_id"]

def form : Form MoveRequest where
  write r := .record (fieldNames.zip [Form.workspaceId.write r.workspace, Form.taskId.write r.task,
    Form.actorId.write r.actor, Form.text.write r.lane, Form.taskId.optional.write r.before,
    Form.taskId.optional.write r.after])
  read? j := do
    match ← parts? fieldNames j with
    | [workspace, task, actor, lane, before, after] =>
      return {
        workspace := ← Form.workspaceId.required? workspace
        task := ← Form.taskId.required? task
        actor := ← Form.actorId.required? actor
        lane := ← Form.text.required? lane
        before := ← Form.taskId.ifGiven? before
        after := ← Form.taskId.ifGiven? after }
    | _ => none

end MoveRequest

namespace MoveOutcome

def fieldNames : List String :=
  ["task", "precision_exhausted"]

def form : Form MoveOutcome where
  write o := .record (fieldNames.zip [Task.form.write o.task, Form.flag.write o.exhausted])
  read? j := do
    match ← parts? fieldNames j with
    | [task, exhausted] =>
      return { task := ← Task.form.required? task, exhausted := ← Form.flag.required? exhausted }
    | _ => none

end MoveOutcome

namespace CreateRequest

def fieldNames : List String :=
  ["workspace_id", "actor_id", "title", "status"]

def form : Form CreateRequest where
  write r := .record (fieldNames.zip [Form.workspaceId.write r.workspace, Form.actorId.write r.actor,
    Form.text.write r.title, Form.text.write r.lane])
  read? j := do
    match ← parts? fieldNames j with
    | [workspace, actor, title, lane] =>
      return {
        workspace := ← Form.workspaceId.required? workspace
        actor := ← Form.actorId.required? actor
        title := ← Form.text.required? title
        lane := ← Form.text.required? lane }
    | _ => none

end CreateRequest

namespace RenormalizeRequest

def fieldNames : List String :=
  ["workspace_id", "actor_id", "status"]

def form : Form RenormalizeRequest where
  write r := .record (fieldNames.zip [Form.workspaceId.write r.workspace, Form.actorId.write r.actor,
    Form.text.write r.lane])
  read? j := do
    match ← parts? fieldNames j with
    | [workspace, actor, lane] =>
      return {
        workspace := ← Form.workspaceId.required? workspace
        actor := ← Form.actorId.required? actor
        lane := ← Form.text.required? lane }
    | _ => none

end RenormalizeRequest

namespace RenormalizeOutcome

def fieldNames : List String :=
  ["lane", "tasks"]

def form : Form RenormalizeOutcome where
  write o := .record (fieldNames.zip [Lane.form.write o.lane, Task.form.list.write o.tasks])
  read? j := do
    match ← parts? fieldNames j with
    | [lane, tasks] =>
      return { lane := ← Lane.form.required? lane, tasks := ← Task.form.list.required? tasks }
    | _ => none

end RenormalizeOutcome

end LaneOrder
