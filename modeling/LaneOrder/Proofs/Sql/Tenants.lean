import LaneOrder.Proofs.Command.LockOrder
import LaneOrder.Proofs.Command.Renormalize
import LaneOrder.Proofs.Program.Leaves
import LaneOrder.Proofs.Sql.Placeholders
import LaneOrder.Request
import LaneOrder.Sql.Store

/-!
This module contains what moves and renormalizations send to a database server, whatever it answers: all their
statements about tasks are bound to the workspace and to the lane of the request, and a row is updated only after it
was returned under its lock in the same transaction.
-/

namespace LaneOrder.Sql

open Program

/-- The name of the lane that a request works on. -/
def laneOf? : Request → Option (WorkspaceId × String)
  | .move r => some (r.workspace, r.lane)
  | .renormalize r => some (r.workspace, r.lane)
  | _ => none

/-- The statement about tasks that a call sends. -/
def statement? : Call → Option Statement
  | .insert t => some (.insertTask t)
  | .find w id => some (.findTask w id)
  | .list w lane => some (.listLane w lane)
  | .greatest w lane => some (.greatest w lane)
  | .delete w id => some (.deleteTask w id)
  | .lockTarget w id => some (.lockTarget w id)
  | .lockNeighbor w lane id => some (.lockNeighbor w lane id)
  | .tryLockNeighbor w lane id => some (.tryLockNeighbor w lane id)
  | .lockLane w lane => some (.lockLane w lane)
  | .adjacent w lane pivot direction exclude => some (.adjacent w lane pivot direction exclude)
  | .persist w id position lane => some (.persist w id position lane)
  | _ => none

def Op.isBoundary : Op → Bool
  | .run .begin | .run .commit | .run .rollback | .drop => true
  | _ => false

def Shape.rows : (s : Shape) → s.Result → List TaskCells
  | .tasks, rows => rows
  | _, _ => []

/-- A row was returned by a statement that locks what it returns. -/
def Locks (t : History ops) (id : Uuid) : Prop :=
  ∃ s result cells, (⟨.run s, .ok result⟩ : Event ops) ∈ t ∧ s.locksRows = true ∧ cells ∈ s.shape.rows result
    ∧ cells.id = some id

/-- A row was locked in the transaction that is still open. -/
def OpenLocks (T : History ops) (id : Uuid) : Prop :=
  ∃ t reply past, T = t ++ ⟨.run .begin, .ok reply⟩ :: past ∧ (∀ e ∈ t, e.op.isBoundary = false) ∧ Locks t id

/-- An operation of a call. It sends no statement about tasks but one, and only some calls open and close transactions. -/
structure Sends (c : Call) (op : Op) : Prop where
  tasks : ∀ s, op = .run s → s.isOnTasks = true → statement? c = some s
  boundary : op.isBoundary = true → c.starts = true ∨ c.isEnd = true

variable {timeout : Duration} {T : History ops} {c : Call} {s : Statement}

section Carrying

variable {α β : Type} {kind : Op → Prop}

theorem only_run {f : Except StoreError s.shape.Result → Working α} (hs : kind (.run s))
    (hf : ∀ reply, Only (I := ops) kind (f reply)) : Only (I := ops) kind (run s >>= f) := by
  refine ⟨hs, ?_⟩
  intro reply
  cases reply with
  | ok result => exact hf _
  | error e => exact hf _

theorem only_execute (hs : kind (.run s)) : Only (I := ops) kind (execute s) := by
  apply only_run hs
  intro reply
  cases reply <;> exact trivial

theorem only_finish (hs : kind (.run s)) (hdrop : kind .drop) : Only (I := ops) kind (finish s) := by
  apply only_run hs
  intro reply
  cases reply with
  | ok _ => exact trivial
  | error e => exact ⟨hdrop, fun _ => trivial⟩

theorem sends_own (hs : statement? c = some s) (hboundary : (Op.run s).isBoundary = false) : Sends c (.run s) := by
  refine ⟨?_, by simp [hboundary]⟩
  rintro _ ⟨⟩ _
  exact hs

theorem sends_other (hs : s.isOnTasks = false)
    (hboundary : (Op.run s).isBoundary = true → c.starts = true ∨ c.isEnd = true) : Sends c (.run s) := by
  refine ⟨?_, hboundary⟩
  rintro _ ⟨⟩ hon
  exact nomatch hs.symm.trans hon

theorem sends_ambient {call : AmbientCall} : Sends c (.ambient call) :=
  ⟨by rintro _ ⟨⟩, by rintro ⟨⟩⟩

theorem sends_drop (hc : c.starts = true ∨ c.isEnd = true) : Sends c .drop :=
  ⟨by rintro _ ⟨⟩, fun _ => hc⟩

theorem only_carryOut (c : Call) : Only (I := ops) (Sends c) (carryOut timeout c) := by
  cases c with
  | ambient call => exact only_ask sends_ambient
  | role actor workspace =>
    apply only_run (sends_other (Statement.readings.findRole _ _) (by rintro ⟨⟩))
    intro reply
    cases reply with
    | error e => exact trivial
    | ok rows => cases rows <;> exact trivial
  | record entry =>
    refine ⟨sends_ambient, fun id => ?_⟩
    exact only_execute (sends_other (Statement.readings.insertAudit _ _) (by rintro ⟨⟩))
  | begin =>
    apply only_run (sends_other Statement.readings.begin fun _ => .inl rfl)
    intro reply
    cases reply with
    | error e => exact trivial
    | ok _ =>
      apply only_finish (sends_other (Statement.readings.setLockTimeout _) (by rintro ⟨⟩))
      exact sends_drop (.inl rfl)
  | commit => exact only_finish (sends_other Statement.readings.commit fun _ => .inr rfl) (sends_drop (.inr rfl))
  | rollback => exact only_finish (sends_other Statement.readings.rollback fun _ => .inr rfl) (sends_drop (.inr rfl))
  | insert t => exact only_execute (sends_own rfl rfl)
  | lockSeed w lane => exact only_execute (sends_other (Statement.readings.lockSeed _ _) (by rintro ⟨⟩))
  | tryLockSeed w lane =>
    exact only_run (sends_other (Statement.readings.tryLockSeed _ _) (by rintro ⟨⟩)) fun _ => trivial
  | lockTarget w id | lockNeighbor w lane id =>
    refine only_run (sends_own rfl rfl) ?_
    intro reply
    cases reply <;> exact trivial
  | _ => exact only_run (sends_own rfl rfl) fun _ => trivial

end Carrying

section Cells

variable {ε α β : Type} {rows : List TaskCells} {task : Task} {tasks : List Task}

theorem ok_of_bind {x : Except ε α} {f : α → Except ε β} {b : β} (h : x >>= f = .ok b) :
    ∃ a, x = .ok a ∧ f a = .ok b := by
  cases x with
  | ok a => exact ⟨a, rfl, h⟩
  | error e => cases h

theorem exists_of_mapM {f : α → Except ε β} {xs : List α} {ys : List β} (h : xs.mapM f = .ok ys) {y : β} (hy : y ∈ ys) :
    ∃ x ∈ xs, f x = .ok y := by
  induction xs generalizing ys with
  | nil =>
    rw [List.mapM_nil] at h
    cases h
    cases hy
  | cons x xs ih =>
    rw [List.mapM_cons] at h
    obtain ⟨y', hx, h⟩ := ok_of_bind h
    obtain ⟨ys', hxs, h⟩ := ok_of_bind h
    cases h
    rcases List.mem_cons.1 hy with rfl | hy
    . exact ⟨x, List.mem_cons_self, hx⟩
    . obtain ⟨x', hx', hy'⟩ := ih hxs hy
      exact ⟨x', List.mem_cons_of_mem x hx', hy'⟩

theorem eq_some_of_notNull {column : String} {cell : Option α} {a : α} (h : notNull column cell = .ok a) :
    cell = some a := by
  unfold notNull at h
  split at h <;> cases h
  rfl

theorem id_of_toRow {cells : TaskCells} {row : TaskRow} (h : cells.toRow = .ok row) : cells.id = some row.id := by
  obtain ⟨id, hid, h⟩ := ok_of_bind h
  obtain ⟨_, _, h⟩ := ok_of_bind h
  obtain ⟨_, _, h⟩ := ok_of_bind h
  obtain ⟨_, _, h⟩ := ok_of_bind h
  obtain ⟨_, _, h⟩ := ok_of_bind h
  obtain ⟨_, _, h⟩ := ok_of_bind h
  obtain ⟨_, _, h⟩ := ok_of_bind h
  cases h
  exact eq_some_of_notNull hid

theorem id_of_toTask {row : TaskRow} (h : row.toTask = .ok task) : task.id.uuid = row.id := by
  unfold TaskRow.toTask at h
  split at h <;> cases h
  rfl

theorem cells_of_firstTask (h : firstTask rows = .ok (some task)) : ∃ cells ∈ rows, cells.id = some task.id.uuid := by
  cases rows with
  | nil => cases h
  | cons cells rows =>
    refine ⟨cells, List.mem_cons_self, ?_⟩
    change (cells.toRow >>= TaskRow.toTask).map some = _ at h
    cases hread : cells.toRow >>= TaskRow.toTask with
    | error e =>
      rw [hread] at h
      cases h
    | ok task' =>
      rw [hread] at h
      cases h
      obtain ⟨row, hrow, htask⟩ := ok_of_bind hread
      rw [id_of_toRow hrow, id_of_toTask htask]

theorem cells_of_allTasks (h : allTasks rows = .ok tasks) (htask : task ∈ tasks) :
    ∃ cells ∈ rows, cells.id = some task.id.uuid := by
  obtain ⟨rows', hrows, htasks⟩ := ok_of_bind h
  obtain ⟨row, hrow, hread⟩ := exists_of_mapM htasks htask
  obtain ⟨cells, hcells, hread'⟩ := exists_of_mapM hrows hrow
  exact ⟨cells, hcells, by rw [id_of_toRow hread', id_of_toTask hread]⟩

end Cells

theorem ends_run {α : Type} {f : Except StoreError s.shape.Result → Working α} {a : α} (h : Ends (run s >>= f) T a) :
    ∃ reply E, Ends (f (reply.mapError ServerError.toStoreError)) E a ∧ T = E ++ [⟨.run s, reply⟩] := by
  obtain ⟨reply, E, hE, rfl⟩ := ends_perform.1 h
  refine ⟨reply, E, ?_, rfl⟩
  cases reply with
  | ok result => exact hE
  | error e => exact hE

theorem firstTask_of_lockFirst {missing : StoreError} {rows : Except StoreError (List TaskCells)} {task : Task}
    (h : Ends (lockFirst missing (.done rows)) T (.ok task)) :
    ∃ found, rows = .ok found ∧ firstTask found = .ok (some task) := by
  cases rows with
  | error e => cases (ends_done.1 h).2
  | ok found =>
    refine ⟨found, rfl, ?_⟩
    have hfirst := (ends_done.1 h).2
    split at hfirst <;> cases hfirst
    assumption

theorem ok_of_mapError {α ε ε' : Type} {f : ε → ε'} {x : Except ε α} {a : α} (h : x.mapError f = .ok a) : x = .ok a := by
  cases x <;> cases h
  rfl

/-- A row that a call returns under its lock was returned by a statement that locks it. -/
theorem locks_of_returned {e : Event calls} {row : Task} (h : Ends (carryOut timeout e.op) T e.reply)
    (hrow : row ∈ e.returned) : Locks T row.id.uuid := by
  obtain ⟨c, reply⟩ := e
  cases c with
  | lockTarget w id =>
    cases reply with
    | error e => cases hrow
    | ok task =>
      cases List.mem_singleton.1 hrow
      obtain ⟨answer, E, hE, rfl⟩ := ends_run h
      obtain ⟨found, hfound, hfirst⟩ := firstTask_of_lockFirst hE
      obtain ⟨cells, hcells, hid⟩ := cells_of_firstTask hfirst
      cases ok_of_mapError hfound
      have hlocks := Statement.locksRows_eq (Statement.readings.lockTarget w id)
      exact ⟨.lockTarget w id, found, cells, by simp, hlocks, hcells, hid⟩
  | lockNeighbor w lane id =>
    cases reply with
    | error e => cases hrow
    | ok task =>
      cases List.mem_singleton.1 hrow
      obtain ⟨answer, E, hE, rfl⟩ := ends_run h
      obtain ⟨found, hfound, hfirst⟩ := firstTask_of_lockFirst hE
      obtain ⟨cells, hcells, hid⟩ := cells_of_firstTask hfirst
      cases ok_of_mapError hfound
      have hlocks := Statement.locksRows_eq (Statement.readings.lockNeighbor w lane id)
      exact ⟨.lockNeighbor w lane id, found, cells, by simp, hlocks, hcells, hid⟩
  | tryLockNeighbor w lane id =>
    obtain ⟨answer, E, hE, rfl⟩ := ends_run h
    obtain ⟨rfl, hreply⟩ := ends_done.1 hE
    cases reply with
    | error e => cases hrow
    | ok task =>
      cases Option.mem_toList.1 hrow
      obtain ⟨found, hfound, hfirst⟩ := ok_of_bind hreply
      obtain ⟨cells, hcells, hid⟩ := cells_of_firstTask hfirst
      cases ok_of_mapError hfound
      have hlocks := Statement.locksRows_eq (Statement.readings.tryLockNeighbor w lane id)
      exact ⟨.tryLockNeighbor w lane id, found, cells, by simp, hlocks, hcells, hid⟩
  | lockLane w lane =>
    obtain ⟨answer, E, hE, rfl⟩ := ends_run h
    obtain ⟨rfl, hreply⟩ := ends_done.1 hE
    cases reply with
    | error e => cases hrow
    | ok tasks =>
      obtain ⟨found, hfound, hall⟩ := ok_of_bind hreply
      obtain ⟨cells, hcells, hid⟩ := cells_of_allTasks hall hrow
      cases ok_of_mapError hfound
      have hlocks := Statement.locksRows_eq (Statement.readings.lockLane w lane)
      exact ⟨.lockLane w lane, found, cells, by simp, hlocks, hcells, hid⟩
  | _ => cases hrow

theorem unbounded_of_carryOut (hs : c.starts = false) (he : c.isEnd = false) :
    Only (I := ops) (·.isBoundary = false) (carryOut timeout c) := by
  apply (only_carryOut c).mono
  intro op hop
  cases hboundary : op.isBoundary with
  | false => rfl
  | true =>
    rcases hop.boundary hboundary with hc | hc
    . rw [hs] at hc
      cases hc
    . rw [he] at hc
      cases hc

/-- What is sent for a transaction to begin, and what comes of it. One that cannot be given its setting is dropped. -/
inductive Begins (setting : String) : History ops → Except StoreError Unit → Prop where
  | refused (e : ServerError) : Begins setting [⟨.run .begin, .error e⟩] (.error e.toStoreError)
  | dropped (reply) (e : ServerError) : Begins setting
    [⟨.drop, ()⟩, ⟨.run (.setLockTimeout setting), .error e⟩, ⟨.run .begin, .ok reply⟩] (.error e.toStoreError)
  | opened (reply reply') : Begins setting
    [⟨.run (.setLockTimeout setting), .ok reply'⟩, ⟨.run .begin, .ok reply⟩] (.ok ())

theorem ends_begin_iff {a : Except StoreError Unit} : Ends (carryOut timeout .begin) T a ↔ Begins (lockTimeoutSetting timeout) T a := by
  constructor
  . intro h
    obtain ⟨answer, E, hE, rfl⟩ := ends_run h
    cases answer with
    | error e =>
      obtain ⟨rfl, rfl⟩ := ends_done.1 hE
      exact .refused e
    | ok reply =>
      obtain ⟨answer, E, hE', rfl⟩ := ends_run hE
      cases answer with
      | error e =>
        obtain ⟨_, _, hdropped, rfl⟩ := ends_perform.1 hE'
        obtain ⟨rfl, rfl⟩ := ends_done.1 hdropped
        exact .dropped reply e
      | ok reply' =>
        obtain ⟨rfl, rfl⟩ := ends_done.1 hE'
        exact .opened reply reply'
  . intro h
    cases h with
    | refused e => exact ends_perform.2 ⟨.error e, [], .done _, rfl⟩
    | dropped reply e =>
      refine ends_perform.2 ⟨.ok reply, _, ends_perform.2 ⟨.error e, _, ends_perform.2 ⟨(), [], .done _, rfl⟩, rfl⟩, rfl⟩
    | opened reply reply' => exact ends_perform.2 ⟨.ok reply, _, ends_perform.2 ⟨.ok reply', [], .done _, rfl⟩, rfl⟩

theorem ends_begin (h : Ends (carryOut timeout .begin) T (.ok ())) : ∃ setting reply reply',
    T = [⟨.run (.setLockTimeout setting), .ok reply'⟩, ⟨.run .begin, .ok reply⟩] := by
  cases ends_begin_iff.1 h with
  | opened reply reply' => exact ⟨_, reply, reply', rfl⟩

/-- What a transaction of a command has called is found in the transaction of the server that is open. -/
theorem opened_of_begun {H t past : History calls} (hm : Mirrors (carryOut timeout) H T)
    (hH : H = t ++ ⟨.begin, .ok ()⟩ :: past) (ht : transacted H = some t) :
    ∃ t' reply past', T = t' ++ ⟨.run .begin, .ok reply⟩ :: past' ∧ (∀ e ∈ t', e.op.isBoundary = false)
      ∧ ∀ row, Returned t row → Locks t' row.id.uuid := by
  subst hH
  obtain ⟨E, T', rfl, hE, hT'⟩ := hm.of_append
  obtain ⟨B, past', rfl, hB, _⟩ := hT'.cons_inv
  obtain ⟨setting, reply, reply', rfl⟩ := ends_begin hB
  refine ⟨E ++ [⟨.run (.setLockTimeout setting), .ok reply'⟩], reply, past', by simp, ?_, ?_⟩
  . intro e he
    rcases List.mem_append.1 he with he | he
    . obtain ⟨e', he', E', hE', hmem⟩ := hE.exists_of_mem he
      obtain ⟨hs, hends⟩ := not_boundary_of_since ht e' he'
      have hend : e'.op.isEnd = false := by
        cases hop : e'.op <;> first | rfl | simp [hop, Call.ends] at hends
      exact (unbounded_of_carryOut hs hend).of_ends hE' e hmem
    . cases List.mem_singleton.1 he
      rfl
  . rintro row ⟨e, he, hrow⟩
    obtain ⟨E', hE', hmem⟩ := hE.mem he
    obtain ⟨s, result, cells, hs, hlocks⟩ := locks_of_returned hE' hrow
    exact ⟨s, result, cells, List.mem_append_left _ (hmem _ hs), hlocks⟩

section Commands

variable {q : Request} {workspace : WorkspaceId} {name : String} {H : History calls}

theorem only_program (hq : laneOf? q = some (workspace, name)) :
    Only (I := calls) (Call.WorksOn workspace name) q.program := by
  cases q with
  | move r =>
    cases hq
    exact only_bind (Move.only_moveTask r) fun _ => trivial
  | renormalize r =>
    cases hq
    exact only_bind ((Renormalize.only_renormalizeLane r).mono fun _ => Renormalize.worksOn_of_uses) fun _ => trivial
  | _ => cases hq

/-- Whatever a store answers, the row that is written was returned in the transaction that was begun last. -/
theorem persists_returned {w : WorkspaceId} {id : TaskId} {position : Position} {lane : Lane}
    (hq : laneOf? q = some (workspace, name)) (h : Reaches q.program H (.persist w id position lane)) :
    ∃ t past row, transacted H = some t ∧ H = t ++ ⟨.begin, .ok ()⟩ :: past ∧ Returned t row ∧ row.id = id := by
  have hprepared : (Call.persist w id position lane).Allowed H → Begun H →
      ∃ t past row, transacted H = some t ∧ H = t ++ ⟨.begin, .ok ()⟩ :: past ∧ Returned t row ∧ row.id = id := by
    intro hallowed hbegun
    obtain ⟨t, row, ht, hrow⟩ := hallowed.persists id rfl
    obtain ⟨t', past, ht', hH⟩ := hbegun
    cases ht.symm.trans ht'
    exact ⟨t, past, row, ht, hH, hrow⟩
  cases q with
  | move r =>
    rcases reaches_bind h with hreach | ⟨_, _, _, _, hdone, _⟩
    . have hallowed := (Move.bare_moveTask r).of_reaches hreach fun _ _ => trivial
      have hphases := (Move.phases_moveTask r).of_reaches hreach fun _ _ => trivial
      rw [List.append_nil] at hallowed hphases
      exact hprepared hallowed (hphases.2.transacts rfl).2
    . exact absurd hdone reaches_done
  | renormalize r =>
    rcases reaches_bind h with hreach | ⟨_, _, _, _, hdone, _⟩
    . have hfaithful : ∀ e ∈ H, e.IsFaithful := by
        -- a renormalization asks for no single row, so no reply can be about another one
        intro e he id hasks
        have huses := (Renormalize.only_renormalizeLane r).mem_of_reaches hreach e he
        cases hop : e.op <;> simp [hop, Call.asks?] at hasks <;> simp [hop, Renormalize.Uses] at huses
      have hallowed := (Renormalize.obeys_renormalizeLane r).of_reaches hreach hfaithful
      have hphases := (Renormalize.phases_renormalizeLane r).of_reaches hreach fun _ _ => trivial
      rw [List.append_nil] at hallowed hphases
      exact hprepared hallowed.1 (hphases.2.transacts rfl).2
    . exact absurd hdone reaches_done
  | _ => cases hq

theorem binds_of_worksOn (hc : c.WorksOn workspace name) (hs : statement? c = some s) :
    s.binds "workspace_id" = [some (.uuid workspace.uuid)]
      ∧ ∀ p ∈ s.binds "status", ∃ lane, Lane.parse name = .ok lane ∧ p = some (.text lane.name) := by
  cases c with
  | find w id =>
    cases hs
    cases hc
    refine ⟨Statement.binds_workspace (Statement.readings.findTask _ _), ?_⟩
    simp [Statement.binds_lane (Statement.readings.findTask _ _)]
  | lockTarget w id =>
    cases hs
    obtain ⟨lane, hlane, rfl⟩ := hc
    refine ⟨Statement.binds_workspace (Statement.readings.lockTarget _ _), ?_⟩
    simp [Statement.binds_lane (Statement.readings.lockTarget _ _)]
  | lockNeighbor w l id =>
    cases hs
    obtain ⟨lane, hlane, rfl, rfl⟩ := hc
    refine ⟨Statement.binds_workspace (Statement.readings.lockNeighbor _ _ _), ?_⟩
    simp [Statement.binds_lane (Statement.readings.lockNeighbor _ _ _), Statement.parameters, hlane]
  | tryLockNeighbor w l id =>
    cases hs
    obtain ⟨lane, hlane, rfl, rfl⟩ := hc
    refine ⟨Statement.binds_workspace (Statement.readings.tryLockNeighbor _ _ _), ?_⟩
    simp [Statement.binds_lane (Statement.readings.tryLockNeighbor _ _ _), Statement.parameters, hlane]
  | lockLane w l =>
    cases hs
    obtain ⟨lane, hlane, rfl, rfl⟩ := hc
    refine ⟨Statement.binds_workspace (Statement.readings.lockLane _ _), ?_⟩
    simp [Statement.binds_lane (Statement.readings.lockLane _ _), Statement.parameters, hlane]
  | adjacent w l pivot direction exclude =>
    cases hs
    obtain ⟨lane, hlane, rfl, rfl⟩ := hc
    refine ⟨Statement.binds_workspace (Statement.readings.adjacent _ _ _ _ _), ?_⟩
    simp [Statement.binds_lane (Statement.readings.adjacent _ _ _ _ _), Statement.parameters, hlane]
  | persist w id position l =>
    cases hs
    obtain ⟨lane, hlane, rfl, rfl⟩ := hc
    refine ⟨Statement.binds_workspace (Statement.readings.persist _ _ _ _), ?_⟩
    simp [Statement.binds_lane (Statement.readings.persist _ _ _ _), Statement.parameters, hlane]
  | insert | list | greatest | delete =>
    obtain ⟨_, _, hc⟩ := hc
    exact hc.elim
  | _ => cases hs

/-- The only update of a command is the one that writes a row. -/
theorem persists_of_isUpdate (hc : c.WorksOn workspace name) (hs : statement? c = some s) (hupdate : s.isUpdate = true) :
    ∃ w id position lane, c = .persist w id position lane ∧ s = .persist w id position lane := by
  cases c with
  | persist w id position lane =>
    cases hs
    exact ⟨w, id, position, lane, rfl, rfl⟩
  | find =>
    cases hs
    exact nomatch (Statement.isUpdate_eq (Statement.readings.findTask _ _)).symm.trans hupdate
  | lockTarget =>
    cases hs
    exact nomatch (Statement.isUpdate_eq (Statement.readings.lockTarget _ _)).symm.trans hupdate
  | lockNeighbor =>
    cases hs
    exact nomatch (Statement.isUpdate_eq (Statement.readings.lockNeighbor _ _ _)).symm.trans hupdate
  | tryLockNeighbor =>
    cases hs
    exact nomatch (Statement.isUpdate_eq (Statement.readings.tryLockNeighbor _ _ _)).symm.trans hupdate
  | lockLane =>
    cases hs
    exact nomatch (Statement.isUpdate_eq (Statement.readings.lockLane _ _)).symm.trans hupdate
  | adjacent =>
    cases hs
    exact nomatch (Statement.isUpdate_eq (Statement.readings.adjacent _ _ _ _ _)).symm.trans hupdate
  | insert | list | greatest | delete =>
    obtain ⟨_, _, hc⟩ := hc
    exact hc.elim
  | _ => cases hs

/-- Whatever a server has answered, a statement about tasks that is sent next is bound to the workspace of the request,
and to its lane if it is about a lane. If it updates a row, then this row was locked in the transaction that is open. -/
theorem statements_keep_to_tenant (hq : laneOf? q = some (workspace, name))
    (h : Reaches (statementsOf timeout q.program) T (.run s)) (hs : s.isOnTasks = true) :
    s.binds "workspace_id" = [some (.uuid workspace.uuid)]
      ∧ (∀ p ∈ s.binds "status", ∃ lane, Lane.parse name = .ok lane ∧ p = some (.text lane.name))
      ∧ (s.isUpdate = true → ∃ id, s.binds "id" = [some (.uuid id)] ∧ OpenLocks T id) := by
  obtain ⟨H, T₀, E, c, rfl, hm, hreach, hE⟩ := reaches_implement h
  have hworks := (only_program hq).of_reaches hreach
  have hsends := ((only_carryOut c).of_reaches hE).tasks s rfl hs
  obtain ⟨hworkspace, hlane⟩ := binds_of_worksOn hworks hsends
  refine ⟨hworkspace, hlane, ?_⟩
  intro hupdate
  obtain ⟨w, id, position, lane, rfl, rfl⟩ := persists_of_isUpdate hworks hsends hupdate
  refine ⟨id.uuid, Statement.binds_id (Statement.readings.persist _ _ _ _), ?_⟩
  obtain ⟨t, past, row, ht, hH, hrow, rfl⟩ := persists_returned hq hreach
  obtain ⟨t', reply, past', rfl, hboundary, hlocks⟩ := opened_of_begun hm hH ht
  refine ⟨E ++ t', reply, past', (List.append_assoc ..).symm, ?_, ?_⟩
  . intro e he
    rcases List.mem_append.1 he with he | he
    . exact (unbounded_of_carryOut rfl rfl).mem_of_reaches hE e he
    . exact hboundary e he
  . obtain ⟨s, result, cells, hs, hrest⟩ := hlocks row hrow
    exact ⟨s, result, cells, List.mem_append_right E hs, hrest⟩

end Commands

end LaneOrder.Sql

namespace LaneOrder.Sample

/-- A server that has one task, in an empty lane when it is moved to another one. -/
def serverAnswer : (s : Sql.Statement) → Except Sql.ServerError s.shape.Result
  | .findRole .. => .ok [some "owner"]
  | .lockTarget workspace id =>
    .ok [⟨some id.uuid, some workspace.uuid, some "", some "todo", some (.ofNat 1), some .epoch, some .epoch, none⟩]
  | .tryLockSeed .. => .ok [some true]
  | s => .ok s.shape.default

def serverReply : (op : Sql.Op) → op.Reply
  | .ambient c => (surroundings.answer {} c).1
  | .run s => serverAnswer s
  | .drop => ()

def timeout : Duration :=
  .ofSeconds (.ofNat 1)

def lonelyMove : Request :=
  .move ⟨workspace, id 3, actor, "done", none, none⟩

end LaneOrder.Sample

namespace LaneOrder.Sql

open Program

/-- The update of a task that is moved to an empty lane. -/
theorem statements_keep_to_tenant_update : ∃ T s,
    Reaches (statementsOf Sample.timeout Sample.lonelyMove.program) T (.run s)
    ∧ s.isOnTasks = true ∧ s.isUpdate = true
    ∧ s.binds "workspace_id" = [some (.uuid Sample.workspace.uuid)]
    ∧ ∃ id, s.binds "id" = [some (.uuid id)] ∧ OpenLocks T id := by
  have hends := ends_answered (I := ops) Sample.serverReply (statementsOf Sample.timeout Sample.lonelyMove.program)
  have hupdates : ((statementsOf Sample.timeout Sample.lonelyMove.program).answered (I := ops) Sample.serverReply).1.any
      (fun e => match e.op with
        | .run (.persist ..) => true
        | _ => false) = true := by
    decide +kernel
  obtain ⟨⟨op, reply⟩, he, hupdate⟩ := List.any_eq_true.1 hupdates
  obtain ⟨newer, T, hrun⟩ := List.append_of_mem he
  rw [hrun] at hends
  dsimp only at hupdate
  split at hupdate
  . next w id position lane =>
    have hon := Statement.isOnTasks_eq (Statement.readings.persist w id position lane)
    have hup := Statement.isUpdate_eq (Statement.readings.persist w id position lane)
    obtain ⟨hworkspace, _, hlocked⟩ := statements_keep_to_tenant (q := Sample.lonelyMove) rfl hends.reaches hon
    exact ⟨T, _, hends.reaches, hon, hup, hworkspace, hlocked hup⟩
  . cases hupdate

end LaneOrder.Sql
