import LaneOrder.Proofs.Board.Carrying
import LaneOrder.Proofs.Board.Gap
import LaneOrder.Proofs.Board.Lists
import LaneOrder.Proofs.Command.Move

/-!
This module contains what is known on a board when a move is about to commit: it has staged one write, with a position
that was allocated in a gap that it guards.
-/

namespace LaneOrder

open Board Program

namespace Program.Event

def allocates? : Event ops → Option ((Option Position × Option Position) × Allocation)
  | ⟨.ambient (.allocate before after), a⟩ => some ((before, after), a)
  | _ => none

end Program.Event

/-- An allocation lies strictly between its bounds. -/
def AllocatesInside (e : Event ops) : Prop :=
  ∀ before after a, e.allocates? = some ((before, after), a) →
    a.position.isFinite = true ∧ Between before after a.position

instance (e : Event ops) : Decidable (AllocatesInside e) :=
  match h : e.allocates? with
  | none => isTrue (by simp [AllocatesInside, h])
  | some ((before, after), a) => decidable_of_iff (a.position.isFinite = true ∧ Between before after a.position) (by
    simp [AllocatesInside, h])

/-- A position that was chosen is not rounded to one that it has to be kept apart from. -/
def Program.Event.keepsApart : Event ops → Bool
  | ⟨.ambient (.allocate before after), a⟩ => !a.position.isNaN && decide (Between before after a.position)
  | ⟨.ambient (.appendAfter greatest), x⟩ => decide (greatest < x)
  | ⟨.ambient (.spaced _), x⟩ => !x.isNaN
  | _ => true

theorem Program.Event.between_of_keepsApart {e : Event ops} (he : e.keepsApart = true) {before after : Option Position}
    {a : Allocation} (ha : e.allocates? = some ((before, after), a)) :
    a.position.isNaN = false ∧ Between before after a.position := by
  unfold Event.allocates? at ha
  split at ha
  . cases ha
    simpa [keepsApart] using he
  . cases ha

def StagedWrite.applied (w : StagedWrite) (t : Task) : Task :=
  if t.id = w.id then t.placed w.position w.lane w.time else t

namespace Board

def allotted? (T : History ops) : Option ((Option Position × Option Position) × Allocation) :=
  T.findSome? Event.allocates?

def Op.isQuiet : Op → Bool
  | ambient (.allocate ..) => false
  | ambient _ => true
  | action _ => false

/-- A move has staged its only write, with a position that was allocated in the gap that it has read. -/
structure Settled (r : MoveRequest) (T : History ops) (lane : Lane) (anchors : Gap) (nearest : Option Neighbor)
    (a : Allocation) (w : StagedWrite) : Prop where
  parsed : Lane.parse r.lane = .ok lane
  named : anchors.before.map (·.id) = r.before ∧ anchors.after.map (·.id) = r.after
  write : w.id = r.task ∧ w.position = a.position ∧ w.lane = lane
  read : ∃ seen, HasRead r.workspace lane r.task anchors nearest seen T
  tx : ∃ s, opened T = some s ∧ Board.writes s = ⟨[w]⟩
  allotted : allotted? T = some ((anchors.closed nearest).bounds, a)

variable {H t : History calls} {T s E : History ops} {workspace : WorkspaceId} {lane : Lane} {r : MoveRequest}

theorem quiet_of_mirrors (hm : Mirrors carryOut H T) (hH : ∀ e ∈ H, e.op.isQuiet = true) :
    ∀ x ∈ T, x.op.isQuiet = true := by
  intro x hx
  obtain ⟨⟨c, reply⟩, he, E, hE, hxE⟩ := hm.exists_of_mem hx
  have hserves := (serves_carryOut c).of_ends hE x hxE
  have hquiet := hH _ he
  cases c with
  | ambient c =>
    rw [show x.op = .ambient c from hserves]
    cases c <;> first | rfl | cases hquiet
  | _ => cases hquiet

theorem boundary_of_isQuiet {op : Op} (h : op.isQuiet = true) : op.starts = false ∧ op.ends = false := by
  cases op with
  | ambient c => exact ⟨rfl, rfl⟩
  | action a => cases h

theorem writes_of_quiet {x : Event ops} (h : x.op.isQuiet = true) : x.writes? = none := by
  obtain ⟨op, reply⟩ := x
  cases op with
  | ambient c => rfl
  | action a => cases h

theorem allocates_of_quiet {x : Event ops} (h : x.op.isQuiet = true) : x.allocates? = none := by
  obtain ⟨op, reply⟩ := x
  cases op with
  | ambient c => cases c <;> first | rfl | cases h
  | action a => cases h

theorem writes_append_quiet (h : ∀ x ∈ E, x.op.isQuiet = true) : Board.writes (E ++ s) = Board.writes s := by
  induction E with
  | nil => rfl
  | cons x E ih =>
    obtain ⟨hx, hE⟩ := List.forall_mem_cons.1 h
    rw [List.cons_append, writes_of_none (writes_of_quiet hx)]
    exact ih hE

theorem allotted?_append_quiet (h : ∀ x ∈ E, x.op.isQuiet = true) : allotted? (E ++ T) = allotted? T := by
  induction E with
  | nil => rfl
  | cons x E ih =>
    obtain ⟨hx, hE⟩ := List.forall_mem_cons.1 h
    unfold allotted? at *
    rw [List.cons_append, List.findSome?_cons_of_isNone (by simp [allocates_of_quiet hx])]
    exact ih hE

theorem ends_adjacent {pivot : Position} {direction : Direction} {exclude : TaskId} {nearest : Option Neighbor}
    (h : Ends (carryOut (.adjacent workspace lane pivot direction exclude)) E (.ok nearest)) :
    E = [⟨.action (.adjacent workspace lane pivot direction exclude), nearest⟩] := by
  obtain ⟨reply, E₁, E₂, hask, hrest, rfl⟩ := ends_bind h
  cases ends_ask hask
  obtain ⟨rfl, heq⟩ := ends_done.1 hrest
  cases heq
  rfl

theorem ends_lockSeed (h : Ends (carryOut (.lockSeed workspace lane)) E (.ok ())) :
    E = [⟨.action (.lockSeed workspace lane), .granted ()⟩] := by
  obtain ⟨granted, E₁, E₂, hask, hrest, rfl⟩ := ends_bind h
  cases ends_ask hask
  cases granted with
  | refused => cases (ends_done.1 hrest).2
  | granted seen =>
    obtain ⟨rfl, _⟩ := ends_done.1 hrest
    rfl

theorem ends_tryLockSeed (h : Ends (carryOut (.tryLockSeed workspace lane)) E (.ok true)) :
    E = [⟨.action (.tryLockSeed workspace lane), .granted ()⟩] := by
  obtain ⟨granted, E₁, E₂, hask, hrest, rfl⟩ := ends_bind h
  cases ends_ask hask
  cases granted with
  | refused => cases (ends_done.1 hrest).2
  | granted seen =>
    obtain ⟨rfl, _⟩ := ends_done.1 hrest
    rfl

theorem gets_of_seeds (hm : Mirrors carryOut t s) (h : Seeds t workspace lane) : Gets s (.seed workspace lane) := by
  obtain ⟨⟨c, reply⟩, he, hseeds⟩ := h
  obtain ⟨E, hE, hmem⟩ := hm.mem he
  cases c with
  | lockSeed =>
    cases reply with
    | error e => cases hseeds
    | ok _ =>
      cases hseeds
      cases ends_lockSeed hE
      exact ⟨_, hmem _ (List.mem_singleton_self _), rfl⟩
  | tryLockSeed =>
    cases reply with
    | error e => cases hseeds
    | ok taken =>
      cases taken with
      | false => cases hseeds
      | true =>
        cases hseeds
        cases ends_tryLockSeed hE
        exact ⟨_, hmem _ (List.mem_singleton_self _), rfl⟩
  | _ => cases hseeds

theorem sees_of_lockTarget (hm : Mirrors carryOut t s) {id : TaskId} {row : Task}
    (h : (⟨.lockTarget workspace id, .ok row⟩ : Event calls) ∈ t) : Sees s row ∧ row.isIn workspace = true := by
  obtain ⟨E, hE, hmem⟩ := hm.mem h
  obtain ⟨hwanted, rfl⟩ := ends_lockRow hE
  exact ⟨⟨_, hmem _ (List.mem_singleton_self _), rfl⟩, hwanted⟩

theorem sees_of_lockNeighbor (hm : Mirrors carryOut t s) {id : TaskId} {row : Task}
    (h : (⟨.lockNeighbor workspace lane id, .ok row⟩ : Event calls) ∈ t) :
    Sees s row ∧ row.isInLane workspace lane = true := by
  obtain ⟨E, hE, hmem⟩ := hm.mem h
  obtain ⟨hwanted, rfl⟩ := ends_lockRow hE
  exact ⟨⟨_, hmem _ (List.mem_singleton_self _), rfl⟩, hwanted⟩

theorem named_of_given {older : History calls} (hfaithful : ∀ e ∈ older, e.IsFaithful) {given : Option TaskId}
    {anchor : Option Neighbor} (hgiven : given.isSome = true → anchor.isSome = true)
    (hrow : ∀ n, anchor = some n → ∃ id row, given = some id
      ∧ (⟨.lockNeighbor workspace lane id, .ok row⟩ : Event calls) ∈ older ∧ row.toNeighbor = n) :
    anchor.map (·.id) = given := by
  cases anchor with
  | none =>
    have hnone : given = none := by simpa using hgiven
    rw [hnone]
    rfl
  | some n =>
    obtain ⟨id, row, hr, hmem, rfl⟩ := hrow n rfl
    have hid : row.id = id := hfaithful _ hmem _ rfl _ (List.mem_singleton_self _)
    rw [hr, ← hid]
    rfl

theorem named_of_anchored {older : History calls} {anchors : Gap} (hfaithful : ∀ e ∈ older, e.IsFaithful)
    (hanchored : Move.Anchored r lane anchors older) :
    anchors.before.map (·.id) = r.before ∧ anchors.after.map (·.id) = r.after := by
  constructor
  . exact named_of_given hfaithful hanchored.given.1 hanchored.before
  . exact named_of_given hfaithful hanchored.given.2 hanchored.after

theorem secured_of_mirrors {older : History calls} {anchors : Gap} {nearest : Option Neighbor}
    (hfaithful : ∀ e ∈ older, e.IsFaithful) (hr : r.anchorError? = none) (hm : Mirrors carryOut older s)
    (hanchored : Move.Anchored r lane anchors older)
    (hbounded : Gap.Bounded r.workspace lane (anchors.closed nearest) older) :
    Secured s r.workspace lane r.task anchors (anchors.closed nearest) := by
  have hself : r.before ≠ some r.task ∧ r.after ≠ some r.task := by
    unfold MoveRequest.anchorError? at hr
    split at hr
    . cases hr
    . next hself => exact not_or.1 hself
  -- an anchor was seen under its lock, and it is not the target
  have hanchor : ∀ {given : Option TaskId} {n : Neighbor}, given ≠ some r.task →
      (∃ id row, given = some id ∧ (⟨.lockNeighbor r.workspace lane id, .ok row⟩ : Event calls) ∈ older
        ∧ row.toNeighbor = n) →
      ∃ t, Sees s t ∧ t.isInLane r.workspace lane = true ∧ t.toNeighbor = n ∧ t.id ≠ r.task := by
    rintro given n hne ⟨id, row, rfl, hrow, heq⟩
    obtain ⟨hsees, hin⟩ := sees_of_lockNeighbor hm hrow
    refine ⟨row, hsees, hin, heq, ?_⟩
    rw [hfaithful _ hrow id rfl row (List.mem_singleton_self row)]
    rintro rfl
    exact hne rfl
  constructor
  . obtain ⟨row, hrow⟩ := hanchored.target
    obtain ⟨hsees, hin⟩ := sees_of_lockTarget hm hrow
    exact ⟨row, hsees, hfaithful _ hrow r.task rfl row (List.mem_singleton_self row), hin⟩
  . exact fun n hn => hanchor hself.1 (hanchored.before n hn)
  . exact fun n hn => hanchor hself.2 (hanchored.after n hn)
  . intro id hid
    obtain ⟨row, hrow, hrid⟩ := hbounded.rows id hid
    exact ⟨row, sees_of_mirrors hm hrow, hrid⟩
  . intro hopen
    exact gets_of_seeds hm (hbounded.seed hopen)

theorem writes_of_settling {sq sn s : History ops} {lane : Lane} {anchors : Gap} {nearest : Option Neighbor}
    {a : Allocation} {w : StagedWrite} {time : Timestamp} (hq : ∀ x ∈ sq, x.op.isQuiet = true)
    (hn : ∀ x ∈ sn, x.op.isQuiet = true) (hun : Unwritten s) {before after : Option Position} {target : TaskId} :
    Board.writes (sq ++ ⟨.action (.stage workspace w), true⟩ :: ⟨.ambient .now, time⟩ :: (sn
      ++ ⟨.ambient (.allocate before after), a⟩
      :: ⟨.action (.adjacent workspace lane anchors.lookout.1 anchors.lookout.2 target), nearest⟩ :: s)) = ⟨[w]⟩ := by
  rw [writes_append_quiet hq]
  have hrest : Board.writes (⟨.ambient .now, time⟩ :: (sn ++ ⟨.ambient (.allocate before after), a⟩
      :: ⟨.action (.adjacent workspace lane anchors.lookout.1 anchors.lookout.2 target), nearest⟩ :: s)) = {} := by
    rw [writes_of_none rfl, writes_append_quiet hn, writes_of_none rfl, writes_of_none rfl]
    exact writes_of_unwritten hun
  show (Board.writes (_ :: _)).stage w = _
  rw [hrest]
  rfl

theorem unwritten_of_reads {e : Event ops} {newer : History ops} (hT : Lawful discipline T)
    (hs : opened T = some (newer ++ e :: s)) (he : e.op.prepares = true) : Unwritten s := by
  obtain ⟨e₀, oldest, rfl, _⟩ := since_eq_append hs
  have hl : Lawful discipline (newer ++ e :: (s ++ e₀ :: oldest)) := by
    simpa using hT
  obtain ⟨s', hs', hun⟩ := (show Op.Allowed _ _ from hl.allowed).prepares he
  have hs'' : opened (s ++ e₀ :: oldest) = some s := by
    apply since_of_append (newer ++ [e])
    simpa [opened] using hs
  rw [hs''] at hs'
  cases hs'
  exact hun

theorem settled_of_mirrors (hH : Lawful (Move.protocol r) H) (hp : Move.Persisted H) (hm : Mirrors carryOut H T)
    (hT : Lawful discipline T) : ∃ lane anchors nearest a w, Settled r T lane anchors nearest a w := by
  obtain ⟨workspace, id, position, lane, quiet, older, rfl, hquiet⟩ := hp
  obtain ⟨_, lane', hlane, hr, rfl, rfl, rfl, hsettles⟩ := hH.allowed
  obtain ⟨anchors, nearest, exhausted, notes, old, ht, hnotes, hanchored, hbounded⟩ := hsettles
  -- the actions of the calls, from the last one back to the first one: the notes, the write, the notes, the allocation,
  -- the look at the gap, and the locks
  obtain ⟨sq, T₁, rfl, hmq, hm₁⟩ := hm.of_append
  obtain ⟨sp, To, rfl, hEp, hmo⟩ := hm₁.cons_inv
  obtain ⟨time, rfl⟩ := ends_persist hEp
  obtain ⟨so, hso, hms⟩ := opened_of_transacted hmo ht
  obtain ⟨sn, s₁, rfl, hmn, hms₁⟩ := hms.of_append
  obtain ⟨sa, s₂, rfl, hEa, hms₂⟩ := hms₁.cons_inv
  cases ends_ask hEa
  obtain ⟨ss, s, rfl, hEs, hold⟩ := hms₂.cons_inv
  cases ends_adjacent hEs
  have hq := quiet_of_mirrors hmq hquiet
  have hn := quiet_of_mirrors hmn hnotes
  have hopen := since_append (fun x hx => boundary_of_isQuiet (hq x hx))
    (opened_push (e := ⟨.action (.stage r.workspace ⟨r.task, position, lane, time⟩), true⟩) rfl rfl
      (opened_push (e := ⟨.ambient .now, time⟩) rfl rfl hso))
  -- nothing was written before the gap was read, so the write is the only one of the transaction
  have hun : Unwritten s := by
    have hso' : opened To = some ((sn ++ [⟨.ambient (.allocate ((anchors.closed nearest).before.map (·.position))
        ((anchors.closed nearest).after.map (·.position))), ⟨position, exhausted⟩⟩])
        ++ ⟨.action (.adjacent r.workspace lane anchors.lookout.1 anchors.lookout.2 r.task), nearest⟩ :: s) := by
      rw [List.append_assoc]
      exact hso
    exact unwritten_of_reads hT.of_append.2.2 hso' rfl
  have hfaithful : ∀ e ∈ old, e.IsFaithful := by
    intro e he
    apply hH.honest_of_mem
    apply List.mem_append_right
    apply List.mem_cons_of_mem
    exact mem_of_since ht (by simp [he])
  have hsecured := secured_of_mirrors hfaithful hr hold hanchored hbounded
  refine ⟨lane, anchors, nearest, ⟨position, exhausted⟩, ⟨r.task, position, lane, time⟩, ⟨hlane,
    named_of_anchored hfaithful hanchored, ⟨rfl, rfl, rfl⟩, ?_, ⟨_, hopen, writes_of_settling hq hn hun⟩, ?_⟩⟩
  . apply hasRead_of_opened (sq ++ ⟨.action (.stage r.workspace ⟨r.task, position, lane, time⟩), true⟩ :: ⟨.ambient .now, time⟩
      :: (sn ++ [⟨.ambient (.allocate ((anchors.closed nearest).before.map (·.position))
        ((anchors.closed nearest).after.map (·.position))), ⟨position, exhausted⟩⟩])) _ hsecured
    simp only [List.append_assoc, List.cons_append, List.nil_append]
    exact hopen
  . obtain ⟨e₀, oldest, rfl, _⟩ := since_eq_append hso
    rw [allotted?_append_quiet hq]
    change allotted? (sn ++ _ ++ _) = _
    rw [List.append_assoc, allotted?_append_quiet hn]
    rfl

theorem mem_commit {b : Board} {h : Holder} {w : StagedWrite} {t' : Task} (htx : b.transaction? h = some ⟨[w]⟩) :
    t' ∈ (b.commit h).rows.tasks ↔ ∃ t ∈ b.rows.tasks, w.applied t = t' := by
  have hoverlay : (⟨[w]⟩ : Transaction).overlay = w.applied := by
    funext t
    unfold Transaction.overlay Transaction.write? StagedWrite.applied
    by_cases hid : t.id = w.id
    . simp [hid]
    . simp [hid, Ne.symm hid]
  show t' ∈ (b.view h).tasks ↔ _
  unfold view
  rw [htx]
  dsimp only
  unfold Transaction.view Rows.map
  simp [hoverlay]

section Commit

variable {b : Board} {h : Holder} {anchors : Gap} {nearest : Option Neighbor} {a : Allocation} {w : StagedWrite}

theorem Settled.target (hsettled : Settled r T lane anchors nearest a w) (hb : Holds b h T)
    (hun : ∀ s, opened T = some s → Undeleted s) :
    ∃ t ∈ b.rows.tasks, t.id = r.task ∧ t.isIn r.workspace = true := by
  obtain ⟨_, hread⟩ := hsettled.read
  obtain ⟨s, hs, _, hsecured⟩ := hread.opened
  obtain ⟨t, hsees, hid, hin⟩ := hsecured.seen
  have hfind := hb.rows s t hs (hun s hs) hsees
  exact ⟨t, (Rows.find?_eq_some.1 hfind).1, hid, hin⟩

theorem Settled.mem_lane_commit (hsettled : Settled r T lane anchors nearest a w) (hb : Holds b h T)
    (hun : ∀ s, opened T = some s → Undeleted s) {other : Lane} {t' : Task} :
    t' ∈ (b.commit h).rows.lane workspace other ↔ (t' ∈ b.rows.lane workspace other ∧ t'.id ≠ r.task)
      ∨ workspace = r.workspace ∧ other = lane ∧ ∃ t ∈ b.rows.tasks, t.id = r.task
        ∧ t' = t.placed a.position lane w.time := by
  obtain ⟨target, htarget, htid, htin⟩ := hsettled.target hb hun
  obtain ⟨s, hs, hw⟩ := hsettled.tx
  have htx := hb.tx s hs
  rw [hw] at htx
  obtain ⟨hwid, hwposition, hwlane⟩ := hsettled.write
  rw [Rows.mem_lane, mem_commit htx]
  constructor
  . rintro ⟨⟨t, ht, rfl⟩, hlane⟩
    unfold StagedWrite.applied at hlane ⊢
    by_cases hid : t.id = w.id
    . right
      have hsame : t = target := Rows.eq_of_id_eq ht htarget (hid.trans (hwid.trans htid.symm))
      rw [if_pos hid] at hlane ⊢
      rw [Task.isInLane_iff] at hlane
      refine ⟨?_, ?_, t, ht, hid.trans hwid, by rw [hwposition, hwlane]⟩
      . rw [← (Task.isIn_iff.1 htin).2, ← hsame]
        exact hlane.2.1.symm
      . rw [← hwlane]
        exact hlane.2.2.symm
    . left
      rw [if_neg hid] at hlane ⊢
      exact ⟨Rows.mem_lane.2 ⟨ht, hlane⟩, fun h => hid (h.trans hwid.symm)⟩
  . rintro (⟨hold, hid⟩ | ⟨rfl, rfl, t, ht, hid, rfl⟩)
    . obtain ⟨ht, hlane⟩ := Rows.mem_lane.1 hold
      refine ⟨⟨t', ht, ?_⟩, hlane⟩
      unfold StagedWrite.applied
      rw [if_neg fun h => hid (h.trans hwid)]
    . have hsame : t = target := Rows.eq_of_id_eq ht htarget (hid.trans htid.symm)
      refine ⟨⟨t, ht, ?_⟩, ?_⟩
      . unfold StagedWrite.applied
        rw [if_pos (hid.trans hwid.symm), hwposition, hwlane]
      . rw [hsame, Task.isInLane_iff]
        obtain ⟨hlive, hworkspace⟩ := Task.isIn_iff.1 htin
        exact ⟨hlive, hworkspace, rfl⟩

theorem Settled.moves (hsettled : Settled r T lane anchors nearest a w) (hb : Holds b h T)
    (hun : ∀ s, opened T = some s → Undeleted s) :
    ∃ t', t'.position = a.position ∧ b.rows.Moves (b.commit h).rows r lane t' := by
  obtain ⟨target, hmem, hid, hin⟩ := hsettled.target hb hun
  have hsame : ∀ t ∈ b.rows.tasks, t.id = r.task → t = target := by
    intro t ht htid
    exact Rows.eq_of_id_eq ht hmem (htid.trans hid.symm)
  refine ⟨target.placed a.position lane w.time, rfl, hid, ?_, ?_⟩
  . intro workspace other t ht htid
    obtain ⟨ht, hlane⟩ := Rows.mem_lane.1 ht
    rw [hsame t ht htid, Task.isInLane_iff] at hlane
    exact hlane.2.1.symm.trans (Task.isIn_iff.1 hin).2
  . intro workspace other t
    rw [hsettled.mem_lane_commit hb hun]
    constructor
    . rintro (hold | ⟨hworkspace, hother, t₀, ht₀, htid, rfl⟩)
      . exact .inl hold
      . rw [hsame t₀ ht₀ htid]
        exact .inr ⟨hworkspace, hother, rfl⟩
    . rintro (hold | ⟨hworkspace, hother, rfl⟩)
      . exact .inl hold
      . exact .inr ⟨hworkspace, hother, target, hmem, hid, rfl⟩

end Commit

end Board

end LaneOrder
