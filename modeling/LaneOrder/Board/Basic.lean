import LaneOrder.Audit
import LaneOrder.Board.Locks
import LaneOrder.Board.Rows
import LaneOrder.Membership

/-!
This module contains boards: the committed rows, the locks on them, the transactions that are open, who may
do what, and the trail of what was done. A transaction sees the committed rows under its own writes. Its
writes become visible when it commits, and its locks are released after that.
-/

namespace LaneOrder

structure StagedWrite where
  id : TaskId
  position : Position
  lane : Lane
  time : Timestamp
deriving DecidableEq

structure Transaction where
  writes : List StagedWrite := []
deriving DecidableEq

namespace Transaction

def write? (tx : Transaction) (id : TaskId) : Option StagedWrite :=
  tx.writes.find? (·.id = id)

def stage (tx : Transaction) (w : StagedWrite) : Transaction :=
  ⟨w :: tx.writes.filter (·.id ≠ w.id)⟩

@[simp]
theorem write?_stage (tx : Transaction) (w : StagedWrite) (id : TaskId) :
    (tx.stage w).write? id = if w.id = id then some w else tx.write? id := by
  by_cases h : w.id = id
  . simp [stage, write?, h]
  . have (v : StagedWrite) : (v.id ≠ w.id ∧ v.id = id) = (v.id = id) :=
      propext ⟨And.right, fun hv => ⟨fun hw => h (hw ▸ hv), hv⟩⟩
    simp only [stage, write?, List.find?_cons, h, decide_false, List.find?_filter,
      decide_eq_true_eq, this, if_false]

def overlay (tx : Transaction) (t : Task) : Task :=
  match tx.write? t.id with
  | some w => t.placed w.position w.lane w.time
  | none => t

@[simp]
theorem overlay_id (tx : Transaction) (t : Task) : (tx.overlay t).id = t.id := by
  simp only [overlay]
  split <;> rfl

def view (tx : Transaction) (rows : Rows) : Rows :=
  rows.map tx.overlay tx.overlay_id

end Transaction

structure AuditTrail where
  entries : List AuditEntry := []
  failing : Bool := false

namespace AuditTrail

def append (t : AuditTrail) (entry : AuditEntry) : Except StoreError Unit × AuditTrail :=
  if t.failing then (.error (.database "audit sink unavailable"), t)
  else (.ok (), { t with entries := t.entries ++ [entry] })

end AuditTrail

structure Board where
  rows : Rows := .empty
  locks : LockTable := {}
  transactions : List (Holder × Transaction) := []
  members : List Membership := []
  audit : AuditTrail := {}

namespace Board

def transaction? (b : Board) (holder : Holder) : Option Transaction :=
  b.transactions.lookup holder

def closed (b : Board) (holder : Holder) : List (Holder × Transaction) :=
  b.transactions.filter (·.1 ≠ holder)

def withTransaction (b : Board) (holder : Holder) (tx : Transaction) : Board :=
  { b with transactions := (holder, tx) :: b.closed holder }

@[simp]
theorem transaction?_withTransaction (b : Board) (holder other : Holder) (tx : Transaction) :
    (b.withTransaction holder tx).transaction? other
      = if other = holder then some tx else b.transaction? other := by
  by_cases h : other = holder
  . simp [transaction?, withTransaction, h]
  . simp only [transaction?, withTransaction, closed, List.lookup_cons, h, if_false,
      beq_false_of_ne h]
    induction b.transactions with
    | nil => rfl
    | cons p ps ih =>
      obtain ⟨first, opened⟩ := p
      by_cases hp : first = holder
      . simp only [hp, List.filter_cons, ne_eq, not_true_eq_false, decide_false, List.lookup_cons,
          beq_false_of_ne h, ← ih]
        rfl
      . simp only [ne_eq] at ih
        simp only [hp, List.filter_cons, ne_eq, not_false_eq_true, decide_true, List.lookup_cons,
          if_true, ih]

def view (b : Board) (holder : Holder) : Rows :=
  match b.transaction? holder with
  | some tx => tx.view b.rows
  | none => b.rows

def release (b : Board) (holder : Holder) : Board :=
  { b with
    locks := b.locks.releaseAll holder (b.transaction? holder).isSome
    transactions := b.closed holder }

def leave (b : Board) (holder : Holder) (key : LockKey) : Board :=
  { b with locks := b.locks.leave holder key }

def commit (b : Board) (holder : Holder) : Board :=
  { b with rows := b.view holder }.release holder

def delete (b : Board) (id : TaskId) (time : Timestamp) : Board :=
  let f (t : Task) := if t.id = id then t.deleted time else t
  have hf t : (f t).id = t.id := by
    simp only [f]
    split <;> rfl
  { b with rows := b.rows.map f hf }

def role? (b : Board) (actor : ActorId) (workspace : WorkspaceId) : Option Role :=
  (b.members.find? fun m => m.workspace = workspace ∧ m.actor = actor).map (·.role)

def revoke (b : Board) (workspace : WorkspaceId) (actor : ActorId) : Board :=
  { b with members := b.members.filter fun m => ¬(m.workspace = workspace ∧ m.actor = actor) }

def grant (b : Board) (m : Membership) : Board :=
  let b := b.revoke m.workspace m.actor
  { b with members := m :: b.members }

end Board

end LaneOrder
