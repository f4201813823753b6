import LaneOrder.Command.Basic
import LaneOrder.Proofs.Quiet.Desk

/-!
This module contains what commands are replied at a desk. Whatever they call, nobody comes between, so the replies follow
from the rows alone.
-/

namespace LaneOrder

open Board Program

def Rows.neighbor? (r : Rows) (workspace : WorkspaceId) (lane : Lane) (id : TaskId) : Option Task :=
  (r.find? id).filter (·.isInLane workspace lane)

theorem Rows.neighbor?_eq_some {r : Rows} {workspace : WorkspaceId} {lane : Lane} {id : TaskId} {t : Task} :
    r.neighbor? workspace lane id = some t ↔ t ∈ r.lane workspace lane ∧ t.id = id := by
  unfold neighbor?
  rw [Option.filter_eq_some_iff, find?_eq_some, mem_lane]
  tauto

theorem Rows.findIn?_eq_some {r : Rows} {workspace : WorkspaceId} {id : TaskId} {t : Task} :
    r.findIn? workspace id = some t ↔ r.find? id = some t ∧ t.isIn workspace = true :=
  Option.filter_eq_some_iff

theorem Rows.view_empty {r : Rows} : ({} : Transaction).view r = r := by
  unfold Transaction.view map
  congr
  exact List.map_id r.tasks

namespace Desk

variable {α β : Type} {s : Supply} {d d' : Desk} {workspace : WorkspaceId} {lane : Lane} {id : TaskId}

def serve (s : Supply) (p : Commanding α) (d : Desk) : α × Desk :=
  d.run s (actionsOf p)

def tick (d : Desk) : Desk :=
  { d with readings := d.readings.push .now }

theorem view_of_begun (htx : d.transaction = some {}) : d.view = d.rows := by
  unfold view
  rw [htx]
  exact Rows.view_empty

theorem serve_bind (p : Commanding α) (f : α → Commanding β) :
    serve s (p >>= f) d = serve s (f (serve s p d).1) (serve s p d).2 := by
  unfold serve actionsOf
  rw [implement_bind, run_bind]

theorem run_perform (a : Action) : d.run s (perform a) = d.act a :=
  rfl

theorem serve_call (c : Call) : serve s (call c) d = d.run s (carryOut c) := by
  show d.run s (carryOut c >>= .done) = _
  rw [bind_done]

theorem serve_note (n : Notice) : serve s (note n) d = ((), d) :=
  rfl

theorem serve_storeFailed {stage : Stage} {e : StoreError} :
    serve s (storeFailed stage e : Commanding (Outcome α)) d = (.error (.ofStore stage e), d) := by
  cases e <;> rfl

theorem serve_now : serve s (call (.ambient .now)) d = (s.now d.readings.times, d.tick) :=
  rfl

theorem serve_allocate {before after : Option Position} :
    serve s (call (.ambient (.allocate before after))) d = (s.allocator.allocate before after, d) :=
  rfl

theorem serve_spaced {index : Nat} : serve s (call (.ambient (.spaced index))) d = (s.allocator.spaced index, d) :=
  rfl

theorem serve_role {actor : ActorId} : serve s (call (.role actor workspace)) d
    = ((d.roles actor workspace).elim (.error (.notMember actor workspace)) .ok, d) := by
  rw [serve_call]
  unfold carryOut
  rw [run_bind, run_perform]
  dsimp only [act]
  cases d.roles actor workspace <;> rfl

theorem serve_authorized {actor : ActorId} {next : Commanding (Outcome α)} :
    serve s (authorized actor workspace next) d = match d.roles actor workspace with
      | none => (.error (.notMember actor workspace), d)
      | some role => if role.canModify then serve s next d else (.error (.mayNotModify actor workspace), d) := by
  unfold authorized
  rw [serve_bind, serve_role]
  cases d.roles actor workspace with
  | none => rfl
  | some role =>
    dsimp only [Option.elim]
    split <;> rfl

theorem serve_withLane {name : String} {next : Lane → Commanding (Outcome α)} :
    serve s (withLane name next) d = match Lane.parse name with
      | .ok lane => serve s (next lane) d
      | .error e => (.error (.unknownLane e), d) := by
  unfold withLane
  cases Lane.parse name <;> rfl

theorem serve_begin : serve s (call .begin) d = (.ok (), { d with transaction := some {}, begun := d.begun + 1 }) :=
  rfl

theorem serve_commit : serve s (call .commit) d = (.ok (), { d with rows := d.view, transaction := none }) :=
  rfl

theorem serve_find : serve s (call (.find workspace id)) d = (.ok (d.rows.findIn? workspace id), d) :=
  rfl

theorem serve_adjacent {pivot : Position} {direction : Direction} {exclude : TaskId} :
    serve s (call (.adjacent workspace lane pivot direction exclude)) d
      = (.ok (d.view.adjacent? workspace lane pivot direction exclude), d) :=
  rfl

theorem serve_record (entry : Timestamp → AuditEntry) :
    ∃ audit readings, serve s (record entry) d = ((), { d with audit, readings }) := by
  unfold record
  rw [serve_bind, serve_now, serve_bind, serve_call]
  refine ⟨(d.audit.append (entry (s.now d.readings.times))).2, d.readings.push .now, ?_⟩
  unfold carryOut
  rw [run_perform]
  dsimp only [act]
  cases (d.tick.audit.append (entry (s.now d.readings.times))).1 <;> rfl

section Locks

variable (hopen : d.transaction.isSome = true)

include hopen

theorem locked_eq (seen : α) : d.locked seen = .granted seen := by
  unfold locked
  rw [if_pos hopen]

theorem run_lockRow {wanted : Task → Bool} {missing : StoreError} : d.run s (lockRow id wanted missing)
    = (((d.view.find? id).filter wanted).elim (.error missing) .ok, d) := by
  unfold lockRow
  rw [run_bind, run_perform]
  dsimp only [act]
  rw [locked_eq hopen]
  dsimp only
  cases (d.view.find? id).filter wanted <;> rfl

theorem serve_lockTarget : serve s (call (.lockTarget workspace id)) d
    = ((d.view.findIn? workspace id).elim (.error (.missingTask workspace id)) .ok, d) := by
  rw [serve_call]
  exact run_lockRow hopen

theorem serve_lockNeighbor : serve s (call (.lockNeighbor workspace lane id)) d
    = ((d.view.neighbor? workspace lane id).elim (.error (.missingNeighbor workspace lane id)) .ok, d) := by
  rw [serve_call]
  exact run_lockRow hopen

theorem serve_tryLockNeighbor : serve s (call (.tryLockNeighbor workspace lane id)) d
    = (.ok (d.view.neighbor? workspace lane id), d) := by
  rw [serve_call]
  unfold carryOut
  rw [run_bind, run_perform]
  dsimp only [act]
  rw [locked_eq hopen]
  rfl

theorem serve_tryLockSeed : serve s (call (.tryLockSeed workspace lane)) d = (.ok true, d) := by
  rw [serve_call]
  unfold carryOut
  rw [run_bind, run_perform]
  dsimp only [act]
  rw [locked_eq hopen]
  rfl

theorem run_lockRows {wanted : Task → Bool} {ids : List TaskId} : d.run s (lockRows wanted ids)
    = (.ok (ids.filterMap fun id => (d.view.find? id).filter wanted), d) := by
  induction ids with
  | nil => rfl
  | cons id ids ih =>
    unfold lockRows
    rw [run_bind, run_perform]
    dsimp only [act]
    rw [locked_eq hopen]
    dsimp only
    rw [run_bind, ih, List.filterMap_cons]
    cases (d.view.find? id).filter wanted <;> rfl

theorem serve_lockLane : serve s (call (.lockLane workspace lane)) d
    = (.ok ((d.view.laneIds workspace lane).filterMap (d.view.neighbor? workspace lane)), d) := by
  rw [serve_call]
  exact run_lockRows hopen

end Locks

theorem serve_persist {tx : Transaction} {position : Position} {t : Task} (htx : d.transaction = some tx)
    (hrow : d.view.findIn? workspace id = some t) : serve s (call (.persist workspace id position lane)) d
      = (.ok (), { d.tick with transaction := some (tx.stage ⟨id, position, lane, s.now d.readings.times⟩) }) := by
  have hstage : d.tick.act (.stage workspace ⟨id, position, lane, s.now d.readings.times⟩)
      = (true, { d.tick with transaction := some (tx.stage ⟨id, position, lane, s.now d.readings.times⟩) }) := by
    have hview : d.tick.view.findIn? workspace id = some t := hrow
    have htx' : d.tick.transaction = some tx := htx
    simp [act, stage?, hview, htx']
  have htime : d.run s time = (s.now d.readings.times, d.tick) := rfl
  rw [serve_call]
  unfold carryOut
  rw [run_bind, htime, run_bind, run_perform, hstage]
  rfl

end Desk

theorem Command.shows_serve {α : Type} {b : Board} {h : Holder} {s : Supply} {q : Request} {p : Commanding (Outcome α)}
    {f : α → Answer} {outcome : Outcome α} {d : Desk} (hb : b.Undisturbed h)
    (hq : q.program = p >>= fun outcome => .done (.ofOutcome f outcome))
    (hserve : Desk.serve s p (b.desk h) = (outcome, d)) :
    (complete ⟨h, q, s.replies⟩ b).answer = .ofOutcome f outcome
      ∧ Moment.Shows h ⟨(complete ⟨h, q, s.replies⟩ b).past, (complete ⟨h, q, s.replies⟩ b).board⟩ d := by
  have hshows := Command.shows s q hb
  rw [hq] at hshows
  change _ = (Desk.serve s _ _).1 ∧ Moment.Shows h _ (Desk.serve s _ _).2 at hshows
  rw [Desk.serve_bind, hserve] at hshows
  exact hshows

end LaneOrder
