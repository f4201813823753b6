import LaneOrder.Board.Engine
import LaneOrder.Proofs.Board.Locks
import LaneOrder.Proofs.Board.Rows
import LaneOrder.Proofs.Program.Obeys

/-!
This module contains what an operation on a board can change. There are seventeen actions, but they change a
board in a few ways only, and what was changed can be told from the operation and its reply.
-/

namespace LaneOrder

open Program

namespace Board

def Action.starts : Action → Bool
  | .start => true
  | _ => false

def Action.ends : Action → Bool
  | .commit | .rollback => true
  | _ => false

def Action.awaits? : Action → Option LockKey
  | .lockRow id => some (.row id)
  | .lockSeed workspace lane => some (.seed workspace lane)
  | _ => none

namespace Op

def starts : Op → Bool
  | action a => a.starts
  | ambient _ => false

def ends : Op → Bool
  | action a => a.ends
  | ambient _ => false

def awaits? : Op → Option LockKey
  | action a => a.awaits?
  | ambient _ => none

/-- The lock that an operation asks for, whether it waits for it or not. -/
def locks? : Op → Option LockKey
  | .action (.lockRow id) | .action (.tryLockRow id) => some (.row id)
  | .action (.lockSeed workspace lane) | .action (.tryLockSeed workspace lane) => some (.seed workspace lane)
  | _ => none

theorem locks?_of_awaits {op : Op} {key : LockKey} (hop : op.awaits? = some key) : op.locks? = some key := by
  cases op with
  | ambient => cases hop
  | action a => cases a <;> first | exact hop | cases hop

end Op

end Board

open Board

namespace Program.Event

def gets? : Event ops → Option LockKey
  | ⟨.action (.lockRow id), .granted _⟩ => some (.row id)
  | ⟨.action (.tryLockRow id), .granted _⟩ => some (.row id)
  | ⟨.action (.lockSeed workspace lane), .granted _⟩ => some (.seed workspace lane)
  | ⟨.action (.tryLockSeed workspace lane), .granted _⟩ => some (.seed workspace lane)
  | _ => none

def sees? : Event ops → Option Task
  | ⟨.action (.lockRow _), .granted row⟩ => row
  | ⟨.action (.tryLockRow _), .granted row⟩ => row
  | _ => none

def writes? : Event ops → Option StagedWrite
  | ⟨.action (.stage _ w), true⟩ => some w
  | _ => none

def deletes? : Event ops → Option (TaskId × Timestamp)
  | ⟨.action (.delete id time), _⟩ => some (id, time)
  | _ => none

def inserts? : Event ops → Option Task
  | ⟨.action (.insert t), true⟩ => some t
  | _ => none

structure IsQuiet (e : Event ops) : Prop where
  starts : e.op.starts = false
  ends : e.op.ends = false
  gets : e.gets? = none
  sees : e.sees? = none
  writes : e.writes? = none
  deletes : e.deletes? = none
  inserts : e.inserts? = none

end Program.Event

namespace Board

variable {b b' : Board} {h : Holder} {key : LockKey}

theorem view_of_writes_nil {tx : Transaction} (htx : b.transaction? h = some tx) (hw : tx.writes = []) :
    b.view h = b.rows := by
  have hoverlay : tx.overlay = id := by
    funext t
    simp [Transaction.overlay, Transaction.write?, hw]
  unfold view
  rw [htx]
  dsimp only
  unfold Transaction.view Rows.map
  simp only [hoverlay, List.map_id]

/-- What an operation changes. -/
inductive Change (b : Board) (h : Holder) : Event ops → Board → Prop where
  | none {e : Event ops} {locks : LockTable} (he : e.IsQuiet)
      (hawaits : e.op.awaits? = none ∨ b.transaction? h = none) (audit : AuditTrail)
      (hlocks : locks = b.locks ∨ locks = b.locks.asked h) : Change b h e { b with locks, audit }
  | inserts {e : Event ops} {t : Task} {rows : Rows} (he : e = ⟨.action (.insert t), true⟩)
      (hrows : b.rows.insert? t = some rows) : Change b h e { b with rows }
  | starts {e : Event ops} (he : e = ⟨.action .start, ()⟩) :
    Change b h e ((b.release h).withTransaction h {})
  | gets {e : Event ops} {key : LockKey} {tx : Transaction} (hgets : e.gets? = some key)
      (hsees : ∀ t, e.sees? = some t → key = .row t.id ∧ (b.view h).find? t.id = some t)
      (htx : b.transaction? h = some tx) (hfree : ((b.locks.asked h).tryAcquire h key).1 = true) :
    Change b h e { b with locks := ((b.locks.asked h).tryAcquire h key).2 }
  | writes {e : Event ops} {workspace : WorkspaceId} {w : StagedWrite} {tx : Transaction} {t : Task}
      (he : e = ⟨.action (.stage workspace w), true⟩) (htx : b.transaction? h = some tx)
      (hrow : (b.view h).findIn? workspace w.id = some t) :
    Change b h e (b.withTransaction h (tx.stage w))
  | deletes {e : Event ops} {id : TaskId} {time : Timestamp} (he : e = ⟨.action (.delete id time), ()⟩) :
    Change b h e (b.delete id time)
  | commits {e : Event ops} (he : e = ⟨.action .commit, ()⟩) : Change b h e (b.commit h)
  | releases {e : Event ops} (he : e = ⟨.action .rollback, ()⟩) : Change b h e (b.release h)

section Locking

variable {α : Type} {seen : α} {reply : Grant α} {e : Event ops}

theorem change_acquire (ha : b.acquire h key seen = .replied reply b') (hrefused : reply = .refused → e.IsQuiet)
    (hgranted : reply = .granted seen → e.gets? = some key
      ∧ ∀ t, e.sees? = some t → key = .row t.id ∧ (b.view h).find? t.id = some t) :
    Change b h e b' := by
  unfold acquire at ha
  split at ha
  . next htx =>
    cases ha
    exact .none (hrefused rfl) (.inr htx) b.audit (.inl rfl)
  . next tx htx =>
    cases hfree : ((b.locks.asked h).tryAcquire h key).1 with
    | true =>
      rw [LockTable.acquire_of_true hfree] at ha
      cases ha
      exact .gets (hgranted rfl).1 (hgranted rfl).2 htx hfree
    | false =>
      rw [LockTable.acquire_of_false hfree] at ha
      cases ha

theorem change_tryAcquire (ha : b.tryAcquire h key seen = .replied reply b') (hawaits : e.op.awaits? = none)
    (hrefused : reply = .refused → e.IsQuiet)
    (hgranted : reply = .granted seen → e.gets? = some key
      ∧ ∀ t, e.sees? = some t → key = .row t.id ∧ (b.view h).find? t.id = some t) :
    Change b h e b' := by
  unfold tryAcquire at ha
  split at ha
  . next htx =>
    cases ha
    exact .none (hrefused rfl) (.inr htx) b.audit (.inl rfl)
  . next tx htx =>
    split at ha
    . next locks hfree =>
      cases ha
      have hlocks : locks = ((b.locks.asked h).tryAcquire h key).2 := by rw [hfree]
      rw [hlocks]
      exact .gets (hgranted rfl).1 (hgranted rfl).2 htx (by rw [hfree])
    . next locks hbusy =>
      cases ha
      have hlocks : locks = b.locks.asked h := by
        have hfst : ((b.locks.asked h).tryAcquire h key).1 = false := by rw [hbusy]
        have := LockTable.tryAcquire_snd_of_false hfst
        rwa [hbusy] at this
      rw [hlocks]
      exact .none (hrefused rfl) (.inl hawaits) b.audit (.inr rfl)

end Locking

theorem find?_of_granted {id : TaskId} {r : Rows} {t : Task} (hrow : r.find? id = some t) :
    LockKey.row id = .row t.id ∧ r.find? t.id = some t := by
  have hid := (Rows.find?_eq_some.1 hrow).2
  subst hid
  exact ⟨rfl, hrow⟩

theorem act_change {a : Action} {reply : a.Reply} (ha : b.act h a = .replied reply b') :
    Change b h ⟨.action a, reply⟩ b' := by
  cases a with
  | role | find | list | greatest | laneIds | adjacent =>
    cases ha
    exact .none (by constructor <;> rfl) (.inl rfl) b.audit (.inl rfl)
  | record entry =>
    cases ha
    exact .none (by constructor <;> rfl) (.inl rfl) _ (.inl rfl)
  | insert t =>
    unfold act at ha
    dsimp only at ha
    split at ha
    . next rows hrows =>
      cases ha
      exact .inserts rfl hrows
    . cases ha
      exact .none (by constructor <;> rfl) (.inl rfl) b.audit (.inl rfl)
  | start =>
    cases ha
    exact .starts rfl
  | lockRow id =>
    apply change_acquire ha
    . rintro rfl
      constructor <;> rfl
    . rintro rfl
      exact ⟨rfl, fun t ht => find?_of_granted ht⟩
  | tryLockRow id =>
    apply change_tryAcquire ha rfl
    . rintro rfl
      constructor <;> rfl
    . rintro rfl
      exact ⟨rfl, fun t ht => find?_of_granted ht⟩
  | lockSeed workspace lane =>
    apply change_acquire ha
    . rintro rfl
      constructor <;> rfl
    . rintro rfl
      exact ⟨rfl, fun t ht => nomatch ht⟩
  | tryLockSeed workspace lane =>
    apply change_tryAcquire ha rfl
    . rintro rfl
      constructor <;> rfl
    . rintro rfl
      exact ⟨rfl, fun t ht => nomatch ht⟩
  | stage workspace w =>
    unfold act stage? at ha
    cases htx : b.transaction? h with
    | none =>
      simp [htx] at ha
      obtain ⟨rfl, rfl⟩ := ha
      exact .none (by constructor <;> rfl) (.inl rfl) b.audit (.inl rfl)
    | some tx =>
      cases hrow : (b.view h).findIn? workspace w.id with
      | none =>
        simp [htx, hrow] at ha
        obtain ⟨rfl, rfl⟩ := ha
        exact .none (by constructor <;> rfl) (.inl rfl) b.audit (.inl rfl)
      | some t =>
        simp [htx, hrow] at ha
        obtain ⟨rfl, rfl⟩ := ha
        exact .writes rfl htx hrow
  | delete id time =>
    cases ha
    exact .deletes rfl
  | commit =>
    cases ha
    exact .commits rfl
  | rollback =>
    cases ha
    exact .releases rfl

structure Blocking (b : Board) (h : Holder) (e : Event ops) (key : LockKey) (b' : Board) : Prop where
  awaits : e.op.awaits? = some key
  quiet : e.IsQuiet
  opened : ∃ tx, b.transaction? h = some tx
  busy : ((b.locks.asked h).tryAcquire h key).1 = false
  board : b' = { b with locks := (b.locks.asked h).modify key (·.enqueue h) }

theorem blocking_acquire {α : Type} {seen : α} {refusal : Grant α} {key' : LockKey} {e : Event ops}
    (ha : b.acquire h key' seen = .blocked key refusal b') (hawaits : e.op.awaits? = some key')
    (hrefused : refusal = .refused → e.IsQuiet) : Blocking b h e key b' := by
  unfold acquire at ha
  split at ha
  . cases ha
  . next tx htx =>
    cases hfree : ((b.locks.asked h).tryAcquire h key').1 with
    | true =>
      rw [LockTable.acquire_of_true hfree] at ha
      cases ha
    | false =>
      rw [LockTable.acquire_of_false hfree] at ha
      cases ha
      exact ⟨hawaits, hrefused rfl, ⟨tx, htx⟩, hfree, rfl⟩

theorem act_blocking {a : Action} {refusal : a.Reply} (ha : b.act h a = .blocked key refusal b') :
    Blocking b h ⟨.action a, refusal⟩ key b' := by
  cases a with
  | lockRow id =>
    apply blocking_acquire ha rfl
    rintro rfl
    constructor <;> rfl
  | lockSeed workspace lane =>
    apply blocking_acquire ha rfl
    rintro rfl
    constructor <;> rfl
  | tryLockRow | tryLockSeed =>
    unfold act tryAcquire at ha
    dsimp only at ha
    split at ha
    . cases ha
    . split at ha <;> cases ha
  | insert | stage =>
    unfold act at ha
    dsimp only at ha
    split at ha <;> cases ha
  | _ => cases ha

end Board

end LaneOrder
