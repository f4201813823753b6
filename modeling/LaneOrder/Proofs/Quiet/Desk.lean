import LaneOrder.Proofs.Board.Discipline
import LaneOrder.Proofs.Sequence.Parallel

/-!
This module contains desks: what is left of a board for somebody who has it to himself. No lock is ever refused then, so a
desk has none. A command does at a desk what it does on the board.
-/

namespace LaneOrder

open Board Program

namespace Board

/-- Nobody else owns a lock, nobody waits for one, and no lock is owned without a transaction. -/
structure Undisturbed (b : Board) (h : Holder) : Prop where
  keyed : b.locks.Keyed
  owner : ∀ key holder, b.locks.owner? key = some holder → holder = h ∧ (b.transaction? h).isSome = true
  nobody : ∀ key, b.locks.queue key = []

variable {α : Type} {b : Board} {h : Holder} {key : LockKey}

theorem undisturbed_of_idle (hb : b.locks.Idle) : b.Undisturbed h where
  keyed := hb.keyed
  owner key holder howner := by
    rw [hb.free] at howner
    cases howner
  nobody := hb.nobody

theorem Undisturbed.idle (hb : b.Undisturbed h) (hnone : b.transaction? h = none) : b.locks.Idle where
  keyed := hb.keyed
  free key := by
    cases howner : b.locks.owner? key with
    | none => rfl
    | some holder =>
      have := (hb.owner key holder howner).2
      rw [hnone] at this
      cases this
  nobody := hb.nobody

theorem Undisturbed.free (hb : b.Undisturbed h) : (b.locks.tryAcquire h key).1 = true :=
  LockTable.tryAcquire_fst.2 fun holder howner => (hb.owner key holder howner).1

theorem Undisturbed.asked (hb : b.Undisturbed h) : Undisturbed { b with locks := b.locks.asked h } h :=
  ⟨hb.keyed, hb.owner, hb.nobody⟩

theorem Undisturbed.gets (hb : b.Undisturbed h) (key : LockKey) (htx : (b.transaction? h).isSome = true) :
    Undisturbed { b with locks := (b.locks.tryAcquire h key).2 } h where
  keyed := LockTable.keyed_tryAcquire hb.keyed
  owner key' holder howner := by
    rw [LockTable.owner?_tryAcquire hb.free] at howner
    split at howner
    . cases howner
      exact ⟨rfl, htx⟩
    . exact hb.owner key' holder howner
  nobody key' := by
    rw [LockTable.queue_tryAcquire]
    exact hb.nobody key'

theorem Undisturbed.release (hb : b.Undisturbed h) : (b.release h).locks.Idle where
  keyed := LockTable.keyed_releaseAll hb.keyed
  free key := by
    unfold Board.release
    rw [LockTable.owner?_releaseAll hb.keyed, hb.nobody]
    split
    . rfl
    . next hnot =>
      cases howner : b.locks.owner? key with
      | none => rfl
      | some holder => exact absurd ((hb.owner key holder howner).1 ▸ howner) hnot
  nobody key := by
    unfold Board.release
    rw [LockTable.queue_releaseAll hb.keyed, hb.nobody]
    simp

theorem Undisturbed.withTransaction {tx : Transaction} (hb : b.Undisturbed h) : (b.withTransaction h tx).Undisturbed h where
  keyed := hb.keyed
  owner key holder howner := ⟨(hb.owner key holder howner).1, by simp⟩
  nobody := hb.nobody

theorem acquire_of_undisturbed (hb : b.Undisturbed h) (key : LockKey) (seen : α) :
    ∃ b', b.acquire h key seen = .replied (if (b.transaction? h).isSome then .granted seen else .refused) b'
      ∧ b'.Undisturbed h ∧ b' = { b with locks := b'.locks } := by
  unfold Board.acquire
  cases htx : b.transaction? h with
  | none => exact ⟨b, rfl, hb, rfl⟩
  | some tx =>
    have hgets := hb.asked.gets key (Option.isSome_of_mem htx)
    dsimp only at hgets ⊢
    rw [LockTable.acquire_of_true hb.asked.free]
    exact ⟨_, rfl, hgets, rfl⟩

theorem tryAcquire_of_undisturbed (hb : b.Undisturbed h) (key : LockKey) (seen : α) :
    ∃ b', b.tryAcquire h key seen = .replied (if (b.transaction? h).isSome then .granted seen else .refused) b'
      ∧ b'.Undisturbed h ∧ b' = { b with locks := b'.locks } := by
  unfold Board.tryAcquire
  cases htx : b.transaction? h with
  | none => exact ⟨b, rfl, hb, rfl⟩
  | some tx =>
    have hgets := hb.asked.gets key (Option.isSome_of_mem htx)
    have hfree : ((b.locks.asked h).tryAcquire h key).1 = true := hb.asked.free
    dsimp only at hgets ⊢
    cases hlocks : (b.locks.asked h).tryAcquire h key with
    | mk free locks =>
      rw [hlocks] at hfree hgets
      cases hfree
      exact ⟨_, rfl, hgets, rfl⟩

end Board

def Readings.push (r : Readings) : AmbientCall → Readings
  | .now => { r with times := r.times + 1 }
  | .freshId => { r with ids := r.ids + 1 }
  | _ => r

theorem readings_ambient {c : AmbientCall} {reply : c.Reply} {T : History ops} :
    readings (⟨.ambient c, reply⟩ :: T) = (readings T).push c := by
  cases c <;> rfl

/-- What somebody who has a board to himself can tell from it, what he was supplied with so far, and how many transactions
he has begun. -/
structure Desk where
  rows : Rows
  transaction : Option Transaction
  roles : ActorId → WorkspaceId → Option Role
  audit : AuditTrail
  readings : Readings
  begun : Nat

namespace Desk

variable {α β : Type} {s : Supply}

def view (d : Desk) : Rows :=
  match d.transaction with
  | some tx => tx.view d.rows
  | none => d.rows

def locked (d : Desk) (seen : α) : Grant α :=
  if d.transaction.isSome then .granted seen else .refused

def stage? (d : Desk) (workspace : WorkspaceId) (w : StagedWrite) : Option Desk := do
  let tx ← d.transaction
  let _ ← d.view.findIn? workspace w.id
  return { d with transaction := some (tx.stage w) }

def act (d : Desk) : (a : Action) → a.Reply × Desk
  | .role actor workspace => (d.roles actor workspace, d)
  | .record entry =>
    let (reply, audit) := d.audit.append entry
    (reply, { d with audit })
  | .insert t => match d.rows.insert? t with
    | some rows => (true, { d with rows })
    | none => (false, d)
  | .find workspace id => (d.rows.findIn? workspace id, d)
  | .list workspace lane => (d.rows.list workspace lane, d)
  | .greatest workspace lane => (d.rows.greatest workspace lane, d)
  | .start => ((), { d with transaction := some {}, begun := d.begun + 1 })
  | .laneIds workspace lane => (d.view.laneIds workspace lane, d)
  | .adjacent workspace lane pivot direction exclude =>
    (d.view.adjacent? workspace lane pivot direction exclude, d)
  | .lockRow id => (d.locked (d.view.find? id), d)
  | .tryLockRow id => (d.locked (d.view.find? id), d)
  | .lockSeed .. => (d.locked (), d)
  | .tryLockSeed .. => (d.locked (), d)
  | .stage workspace w => match d.stage? workspace w with
    | some d => (true, d)
    | none => (false, d)
  | .delete id time => ((), { d with rows := (Board.delete { rows := d.rows } id time).rows })
  | .commit => ((), { d with rows := d.view, transaction := none })
  | .rollback => ((), { d with transaction := none })

def next (s : Supply) (d : Desk) : (op : Op) → op.Reply × Desk
  | .ambient c => (s.reply d.readings c, { d with readings := d.readings.push c })
  | .action a => d.act a

def run (s : Supply) : Working α → Desk → α × Desk
  | .done a, d => (a, d)
  | .perform op next, d => run s (next (d.next s op).1) (d.next s op).2

theorem run_bind (p : Working α) (f : α → Working β) (d : Desk) :
    run s (p >>= f) d = run s (f (run s p d).1) (run s p d).2 := by
  induction p generalizing d with
  | done a => rfl
  | perform op next ih => exact ih _ _

end Desk

namespace Moment

variable {α : Type} {s : Supply} {h : Holder} {m : Moment}

def desk (h : Holder) (m : Moment) : Desk where
  rows := m.board.rows
  transaction := m.board.transaction? h
  roles := m.board.role?
  audit := m.board.audit
  readings := readings m.past
  begun := m.past.countP (·.op.starts)

/-- Somebody has the board to himself, and this is what he can tell from it. -/
structure Shows (h : Holder) (m : Moment) (d : Desk) : Prop where
  undisturbed : m.board.Undisturbed h
  desk : m.desk h = d

theorem desk_act {T : History ops} {b b' : Board} {a : Action} {reply : a.Reply} (hstarts : a.starts = false)
    (hmembers : b'.members = b.members) : desk h ⟨⟨.action a, reply⟩ :: T, b'⟩
      = { desk h ⟨T, b⟩ with rows := b'.rows, transaction := b'.transaction? h, audit := b'.audit } := by
  have hroles : b'.role? = b.role? := by
    unfold role?
    rw [hmembers]
  unfold desk
  simp only [hroles, List.countP_cons, Op.starts, hstarts]
  rfl

theorem shows_locked {T : History ops} {b b' : Board} {a : Action} {reply : a.Reply} (hact : b.act h a = .replied reply b')
    (hstarts : a.starts = false) (hb' : b'.Undisturbed h) (hsame : b' = { b with locks := b'.locks }) :
    (Moment.next s h ⟨T, b⟩ (.action a)).1 = reply
      ∧ (Moment.next s h ⟨T, b⟩ (.action a)).2.Shows h (desk h ⟨T, b⟩) := by
  have hmembers : b'.members = b.members := by rw [hsame]
  unfold Moment.next
  dsimp only
  rw [hact]
  refine ⟨rfl, hb', ?_⟩
  rw [desk_act hstarts hmembers, hsame]
  rfl

theorem shows_stage {T : History ops} {b : Board} {workspace : WorkspaceId} {w : StagedWrite} (hb : b.Undisturbed h) :
    (Moment.next s h ⟨T, b⟩ (.action (.stage workspace w))).1 = ((desk h ⟨T, b⟩).act (.stage workspace w)).1
      ∧ (Moment.next s h ⟨T, b⟩ (.action (.stage workspace w))).2.Shows h ((desk h ⟨T, b⟩).act (.stage workspace w)).2 := by
  have hview : (desk h ⟨T, b⟩).view = b.view h := rfl
  have hdesk : (desk h ⟨T, b⟩).transaction = b.transaction? h := rfl
  unfold Moment.next Desk.act act Board.stage? Desk.stage?
  dsimp only
  rw [hview, hdesk]
  cases htx : b.transaction? h with
  | none => exact ⟨rfl, hb, desk_act rfl rfl⟩
  | some tx =>
    cases (b.view h).findIn? workspace w.id with
    | none => exact ⟨rfl, hb, desk_act rfl rfl⟩
    | some t =>
      have hstaged : (b.withTransaction h (tx.stage w)).transaction? h = some (tx.stage w) := by simp
      refine ⟨rfl, hb.withTransaction, ?_⟩
      show desk h ⟨⟨.action (.stage workspace w), true⟩ :: T, b.withTransaction h (tx.stage w)⟩ = _
      rw [desk_act rfl (show (b.withTransaction h (tx.stage w)).members = b.members from rfl), hstaged]
      rfl

/-- Every operation is replied at a desk what it is replied on the board, and does the same there. -/
theorem shows_next (hm : m.board.Undisturbed h) (op : Op) :
    (m.next s h op).1 = ((m.desk h).next s op).1 ∧ (m.next s h op).2.Shows h ((m.desk h).next s op).2 := by
  obtain ⟨T, b⟩ := m
  cases op with
  | ambient c =>
    refine ⟨rfl, hm, ?_⟩
    unfold Moment.next Desk.next desk
    simp only [readings_ambient, List.countP_cons, Op.starts]
    rfl
  | action a =>
    cases a with
    | role | find | list | greatest | laneIds | adjacent => exact ⟨rfl, hm, desk_act rfl rfl⟩
    | record entry => exact ⟨rfl, ⟨hm.keyed, hm.owner, hm.nobody⟩, desk_act rfl rfl⟩
    | delete id time => exact ⟨rfl, ⟨hm.keyed, hm.owner, hm.nobody⟩, desk_act rfl rfl⟩
    | insert t =>
      unfold Moment.next Desk.next Desk.act act
      dsimp only [desk]
      cases b.rows.insert? t with
      | none => exact ⟨rfl, hm, desk_act rfl rfl⟩
      | some rows => exact ⟨rfl, ⟨hm.keyed, hm.owner, hm.nobody⟩, desk_act rfl rfl⟩
    | start =>
      refine ⟨rfl, (undisturbed_of_idle hm.release).withTransaction, ?_⟩
      have hopened : ((b.release h).withTransaction h {}).transaction? h = some {} := by simp
      show desk h ⟨⟨.action .start, ()⟩ :: T, (b.release h).withTransaction h {}⟩ = _
      unfold desk
      rw [hopened, List.countP_cons_of_pos rfl]
      rfl
    | commit =>
      refine ⟨rfl, undisturbed_of_idle (Undisturbed.release ⟨hm.keyed, hm.owner, hm.nobody⟩), ?_⟩
      have hclosed : (b.commit h).transaction? h = none := by simp [Board.commit, transaction?_release]
      show desk h ⟨⟨.action .commit, ()⟩ :: T, b.commit h⟩ = _
      rw [desk_act rfl (show (b.commit h).members = b.members from rfl), hclosed]
      rfl
    | rollback =>
      refine ⟨rfl, undisturbed_of_idle hm.release, ?_⟩
      have hclosed : (b.release h).transaction? h = none := by simp [transaction?_release]
      show desk h ⟨⟨.action .rollback, ()⟩ :: T, b.release h⟩ = _
      rw [desk_act rfl (show (b.release h).members = b.members from rfl), hclosed]
      rfl
    | stage workspace w => exact shows_stage hm
    | lockRow id =>
      obtain ⟨b', hb', hundisturbed, hsame⟩ := acquire_of_undisturbed hm (.row id) ((b.view h).find? id)
      exact shows_locked hb' rfl hundisturbed hsame
    | tryLockRow id =>
      obtain ⟨b', hb', hundisturbed, hsame⟩ := tryAcquire_of_undisturbed hm (.row id) ((b.view h).find? id)
      exact shows_locked hb' rfl hundisturbed hsame
    | lockSeed workspace lane =>
      obtain ⟨b', hb', hundisturbed, hsame⟩ := acquire_of_undisturbed hm (.seed workspace lane) ()
      exact shows_locked hb' rfl hundisturbed hsame
    | tryLockSeed workspace lane =>
      obtain ⟨b', hb', hundisturbed, hsame⟩ := tryAcquire_of_undisturbed hm (.seed workspace lane) ()
      exact shows_locked hb' rfl hundisturbed hsame

theorem shows_advance (p : Working α) (hm : m.board.Undisturbed h) :
    (advance s h p m).1 = (Desk.run s p (m.desk h)).1 ∧ (advance s h p m).2.Shows h (Desk.run s p (m.desk h)).2 := by
  induction p generalizing m with
  | done a => exact ⟨rfl, hm, rfl⟩
  | perform op next ih =>
    obtain ⟨hreply, hundisturbed, hdesk⟩ := shows_next (s := s) hm op
    unfold advance Desk.run
    rw [← hreply, ← hdesk]
    exact ih _ hundisturbed

end Moment

def Board.desk (b : Board) (h : Holder) : Desk :=
  Moment.desk h ⟨[], b⟩

/-- What a command that has the board to itself is answered can be found out at a desk, and so can what it leaves there. -/
theorem Command.shows {b : Board} {h : Holder} (s : Supply) (q : Request) (hb : b.Undisturbed h) :
    (Command.complete ⟨h, q, s.replies⟩ b).answer = (Desk.run s (actionsOf q.program) (b.desk h)).1
      ∧ Moment.Shows h ⟨(Command.complete ⟨h, q, s.replies⟩ b).past, (Command.complete ⟨h, q, s.replies⟩ b).board⟩
        (Desk.run s (actionsOf q.program) (b.desk h)).2 := by
  have hcomplete : Command.complete ⟨h, q, s.replies⟩ b
      = ⟨(Moment.advance s h (actionsOf q.program) ⟨[], b⟩).2.board,
        (Moment.advance s h (actionsOf q.program) ⟨[], b⟩).2.past,
        (Moment.advance s h (actionsOf q.program) ⟨[], b⟩).1⟩ :=
    Moment.complete_eq _ ⟨[], b⟩
  rw [hcomplete]
  exact Moment.shows_advance (m := ⟨[], b⟩) _ hb

end LaneOrder
