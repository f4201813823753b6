import LaneOrder.Proofs.Crowd.Rows

/-!
This module contains why no update of a row is lost: rows are changed by those only who own their locks. What was
returned to a transaction under a lock remains in the rows until the transaction has ended, up to what it deletes
itself.
-/

namespace LaneOrder

open Board Program

namespace Board

theorem find?_delete_self {b : Board} {time : Timestamp} {row : Task} (hrow : b.rows.find? row.id = some row) :
    (b.delete row.id time).rows.find? row.id = some (row.deleted time) := by
  unfold delete
  dsimp only
  rw [Rows.find?_map, hrow]
  simp

end Board

namespace Request

variable {q : Request} {T s : History ops} {e : Event ops} {id : TaskId} {time : Timestamp}

theorem deletion_of_deletes (he : e.deletes? = some (id, time)) : e = ⟨.action (.delete id time), ()⟩ := by
  unfold Event.deletes? at he
  split at he
  . cases he
    rfl
  . cases he

/-- Whoever has deleted something in its transaction has locked this row before, and nothing else. -/
theorem eq_of_deleted (hT : Lawful q.protocol T) (hs : opened T = some s)
    (hmem : (⟨.action (.delete id time), ()⟩ : Event ops) ∈ s) :
    ∃ granted, s = [⟨.action (.delete id time), ()⟩, ⟨.ambient .now, time⟩, ⟨.action (.lockRow id), granted⟩] := by
  have hin := mem_of_since hs hmem
  obtain ⟨newer, older, hparts⟩ := List.append_of_mem hin
  rw [hparts] at hT
  obtain ⟨workspace, rfl⟩ := delete_cases hT.allowed
  rw [← hparts] at hT
  cases T with
  | nil => cases hs
  | cons e T =>
    obtain ⟨op, reply⟩ := e
    rcases reaches_deleteTask (reaches_of_deletion hT.1.1) with ⟨rfl, rfl⟩ | ⟨rfl, rfl⟩ | ⟨_, rfl, rfl | rfl⟩
      | ⟨granted, now, rfl, rfl⟩ | ⟨_, _, rfl, rfl⟩
    . simp at hin
    . simp at hin
    . simp at hin
    . simp at hin
    . cases hs
      obtain rfl : time = now := by simpa using hmem
      exact ⟨granted, rfl⟩
    . cases hs

theorem undeleted_or_deleted (hl : Lawful discipline T) (hT : Lawful q.protocol T) (hs : opened T = some s) {row : Task}
    (hrow : Sees s row) : Undeleted s ∨ ∃ time, (⟨.action (.delete row.id time), ()⟩ : Event ops) ∈ s := by
  by_cases hun : Undeleted s
  . exact .inl hun
  . right
    obtain ⟨e, he, hdeletes⟩ : ∃ e ∈ s, ∃ d, e.deletes? = some d := by
      simpa [Undeleted, Option.ne_none_iff_exists'] using hun
    obtain ⟨⟨id, time⟩, hdeletes⟩ := hdeletes
    rw [deletion_of_deletes hdeletes] at he
    obtain ⟨granted, rfl⟩ := eq_of_deleted hT hs he
    -- the only row that it can have seen is the one that it has locked
    obtain ⟨x, hx, hgets⟩ := hrow.gets hl hs
    simp only [List.mem_cons, List.not_mem_nil, or_false] at hx
    rcases hx with rfl | rfl | rfl
    . cases hgets
    . cases hgets
    . cases granted with
      | refused => cases hgets
      | granted seen =>
        cases hgets
        exact ⟨time, by simp⟩

end Request

namespace Process

variable {q : Request} {P : Protocol ops} {post : History ops → Answer → Prop} {b b' : Board} {h h' : Holder}
  {p p' : Process} {T s : History ops} {e : Event ops} {row : Task}

/-- A call has returned a row to a transaction that has not ended since. -/
def Keeps (p : Process) (row : Task) : Prop :=
  p.rest.isSome = true ∧ ∃ (newer E older : History ops) (c : Call) (reply : c.Reply), p.past = newer ++ E ++ older
    ∧ Ends (carryOut c) E reply ∧ row ∈ (Event.mk (I := calls) c reply).returned
    ∧ ∀ e ∈ newer, e.op.starts = false ∧ e.op.ends = false

theorem boundary_of_returned {c : Call} {reply : c.Reply} (hrow : row ∈ (Event.mk (I := calls) c reply).returned) :
    c.starts = false ∧ c.ends = false := by
  cases c <;> first | exact ⟨rfl, rfl⟩ | cases hrow

theorem Keeps.sees (hp : p.Keeps row) (hl : Lawful discipline p.past) : ∃ s, opened p.past = some s ∧ Sees s row := by
  obtain ⟨_, newer, E, older, c, reply, hpast, hE, hrow, hnewer⟩ := hp
  obtain ⟨e, he, hsees⟩ := sees_of_returned hE hrow
  obtain ⟨hs, hends⟩ := boundary_of_returned hrow
  have hserved : ∀ e ∈ E, e.op.starts = false ∧ e.op.ends = false := by
    intro e he
    exact ((serves_carryOut c).of_ends hE e he).boundary hs hends
  obtain ⟨E₁, E₂, rfl⟩ := List.append_of_mem he
  have hpast' : p.past = (newer ++ E₁) ++ e :: (E₂ ++ older) := by simp [hpast]
  -- a row is locked in a transaction only, and this one has gone on until now
  rw [hpast'] at hl
  obtain ⟨s, hopen, _⟩ := (show Op.Allowed _ _ from hl.allowed).prepares (prepares_of_sees hsees)
  refine ⟨(newer ++ E₁) ++ e :: s, ?_, e, by simp, hsees⟩
  rw [hpast']
  apply since_append
  . intro e' he'
    rcases List.mem_append.1 he' with he' | he'
    . exact hnewer e' he'
    . exact hserved e' (by simp [he'])
  . exact opened_push (hserved e (by simp)).1 (hserved e (by simp)).2 hopen

/-- Whoever changes a row owns its lock. -/
theorem Steps.owns_of_changes (hs : Steps h b p b' p') (hP : P.Refines discipline) (hp : p.Orderly P post b h) {id : TaskId}
    (hrow : b.rows.find? id = some row) (hchanges : b'.rows.find? id ≠ some row) :
    b.locks.owner? (.row id) = some h ∧ (b.transaction? h).isSome = true := by
  cases hs with
  | stays | drops | answered => exact absurd hrow hchanges
  | waits past next ha | givesUp past next ha =>
    rw [(act_blocking ha).board] at hchanges
    exact absurd hrow hchanges
  | acts past next ha =>
    have hobeys := hp.obeys _ rfl
    have hb := hp.holds _ rfl
    have hl := hp.lawful.refines hP
    have hallowed := hP.allowed _ _ hobeys.1
    cases act_change ha with
    | none | gets | writes | starts | releases => exact absurd hrow hchanges
    | inserts he hrows => exact absurd (Rows.find?_insert hrows hrow) hchanges
    | deletes he =>
      cases he
      obtain ⟨s, t, hs, hsees, rfl⟩ := hallowed.changes _ rfl
      by_cases hid : id = t.id
      . subst hid
        refine ⟨hb.owns s _ hs (hsees.gets hl hs), ?_⟩
        rw [hb.tx s hs]
        rfl
      . exact absurd ((find?_delete hid).trans hrow) hchanges
    | commits he =>
      cases he
      obtain ⟨s, hs⟩ := hallowed.ends rfl
      have htx := hb.tx s hs
      by_cases hid : ∃ w ∈ (Board.writes s).writes, w.id = id
      . obtain ⟨w, hw, rfl⟩ := hid
        refine ⟨hb.owns_written hl hs hw, ?_⟩
        rw [htx]
        rfl
      . have hnone : ∀ w ∈ (Board.writes s).writes, w.id ≠ id := fun w hw heq => hid ⟨w, hw, heq⟩
        exact absurd ((find?_commit htx hnone).trans hrow) hchanges

/-- What a transaction has seen and deleted is the row as it was deleted. -/
def Removes (b : Board) (p : Process) : Prop :=
  ∀ rest s row time, p.rest = some rest → opened p.past = some s → Sees s row →
    (⟨.action (.delete row.id time), ()⟩ : Event ops) ∈ s → b.rows.find? row.id = some (row.deleted time)

theorem Removes.frame (hr : p.Removes b) (hP : P.Refines discipline) (hp : p.Orderly P post b h) (hf : Frame b b' h) :
    p.Removes b' := by
  intro rest s row time hrest hs hsees hmem
  have howns := (hp.holds rest hrest).owns s _ hs (hsees.gets (hp.lawful.refines hP) hs)
  exact hf.rows _ _ howns (hr rest s row time hrest hs hsees hmem)

theorem removes_of_happens {rest : Working Answer} (he : Happens h b e b') (hT : Lawful q.protocol (e :: T))
    (hb : Holds b h T) : Removes b' ⟨e :: T, some rest⟩ := by
  intro _ s row time _ hs hsees hmem
  -- the deletion is what has just happened
  obtain ⟨granted, rfl⟩ := Request.eq_of_deleted hT hs hmem
  obtain ⟨e₀, older, hpast, hstart⟩ := since_eq_append hs
  cases hpast
  have hopen := opened_push (e := ⟨.ambient .now, time⟩) rfl rfl
    (opened_push (e := ⟨.action (.lockRow row.id), granted⟩) rfl rfl (opened_start (T := older) hstart))
  have hrow : b.rows.find? row.id = some row := by
    apply hb.rows _ row hopen
    . simp [Undeleted, Event.deletes?]
    . simpa [Sees, Event.sees?] using hsees
  cases he with
  | acts ha =>
    cases ha
    exact find?_delete_self hrow
  | givesUp ha => cases ha

theorem Steps.removes (hs : Steps h b p b' p') (hp : p.Orderly q.protocol post b h) (hr : p.Removes b) :
    p'.Removes b' := by
  have hp' := hs.orderly Request.protocol_refines hp
  cases hs with
  | stays => exact hr
  | drops => exact fun _ _ _ _ hrest => nomatch hrest
  | answered past c next reply => exact removes_of_happens (.answered c reply) hp'.lawful (hp.holds _ rfl)
  | acts past next ha => exact removes_of_happens (.acts ha) hp'.lawful (hp.holds _ rfl)
  | waits past next ha => exact hr.frame Request.protocol_refines hp (frame_blocking (act_blocking ha))
  | givesUp past next ha => exact removes_of_happens (.givesUp ha) hp'.lawful (hp.holds _ rfl)

end Process

namespace Crowd

variable {b : Board} {requests : Holder → Request} {c : Crowd}

def Removing (c : Crowd) : Prop :=
  ∀ h, (c.processes h).Removes c.board

theorem Removing.turn {post : Holder → History ops → Answer → Prop} (hc : c.Removing)
    (ho : c.Orderly (fun h => (requests h).protocol) post) (h : Holder) (t : Turn) : (c.turn h t).Removing := by
  intro h'
  have hs := c.steps_turn h t
  by_cases hh : h' = h
  . subst hh
    exact hs.removes (ho.processes h') (hc h')
  . rw [processes_turn_of_ne hh]
    apply (hc h').frame Request.protocol_refines (ho.processes h')
    exact hs.frame Request.protocol_refines (ho.processes h) ho.keyed hh

theorem removing_run (hb : b.locks.Idle) (hcommands : ∀ h, (requests h).IsCommand) (turns : List (Holder × Turn)) :
    ((start b requests).run turns).Removing := by
  apply orderly_induction hb hcommands (fun _ => True) Removing
  . intro h _ _ _ _ _ hs
    cases hs
  . exact fun c h t ho hc _ => hc.turn ho h t
  . exact fun _ _ _ => trivial

/-- From the moment that a call has returned a row under its lock until the transaction ends or is dropped, the row
stays what was returned, or what the command itself has made of it; nobody else changes it. And whoever changes a row
that has been there before owns its lock in a transaction of its own. -/
theorem no_lost_update (hb : b.locks.Idle) (hcommands : ∀ h, (requests h).IsCommand) (turns : List (Holder × Turn))
    (h h' : Holder) (t : Turn) :
    let c := (start b requests).run turns
    (∀ row, (c.processes h).Keeps row →
      (c.board.rows.find? row.id = some row ∨ ∃ time,
        (⟨.action (.delete row.id time), ()⟩ : Event ops) ∈ (c.processes h).past
          ∧ c.board.rows.find? row.id = some (row.deleted time))
      ∧ (h' ≠ h → (c.turn h' t).board.rows.find? row.id = c.board.rows.find? row.id))
    ∧ ∀ id row, c.board.rows.find? id = some row → (c.turn h' t).board.rows.find? id ≠ some row →
      c.board.locks.owner? (.row id) = some h' ∧ (c.board.transaction? h').isSome = true := by
  intro c
  have ho : c.Orderly _ _ := orderly_run hb hcommands turns
  have hchanges : ∀ id row, c.board.rows.find? id = some row → (c.turn h' t).board.rows.find? id ≠ some row →
      c.board.locks.owner? (.row id) = some h' ∧ (c.board.transaction? h').isSome = true := by
    intro id row
    exact (c.steps_turn h' t).owns_of_changes Request.protocol_refines (ho.processes h')
  refine ⟨?_, hchanges⟩
  intro row hkeeps
  have hp := ho.processes h
  have hl := hp.lawful.refines Request.protocol_refines
  obtain ⟨s, hs, hsees⟩ := hkeeps.sees hl
  obtain ⟨rest, hrest⟩ := Option.isSome_iff_exists.1 hkeeps.1
  have hrow : c.board.rows.find? row.id = some row ∨ ∃ time,
      (⟨.action (.delete row.id time), ()⟩ : Event ops) ∈ (c.processes h).past
        ∧ c.board.rows.find? row.id = some (row.deleted time) := by
    rcases Request.undeleted_or_deleted hl hp.lawful hs hsees with hun | ⟨time, hmem⟩
    . exact .inl ((hp.holds rest hrest).rows s row hs hun hsees)
    . exact .inr ⟨time, mem_of_since hs hmem, removing_run hb hcommands turns h rest s row time hrest hs hsees hmem⟩
  refine ⟨hrow, ?_⟩
  intro hh
  obtain ⟨found, hfound⟩ : ∃ found, c.board.rows.find? row.id = some found := by
    rcases hrow with hrow | ⟨time, _, hrow⟩
    . exact ⟨_, hrow⟩
    . exact ⟨_, hrow⟩
  by_contra hchanged
  rw [hfound] at hchanged
  have howner := (hp.holds rest hrest).owns s _ hs (hsees.gets hl hs)
  rw [(hchanges row.id found hfound hchanged).1] at howner
  exact hh (Option.some.inj howner)

theorem no_lost_update_contention :
    ((Sample.contention.run (Sample.turns [0, 0, 0, 1])).processes 0).Keeps (Sample.task 1 .todo 1000)
      ∧ ((Sample.contention.run (Sample.turns [0, 0, 0, 1])).turn 1 (.answered Sample.surroundings)).board.rows.find?
          (Sample.id 1) = (Sample.contention.run (Sample.turns [0, 0, 0, 1])).board.rows.find? (Sample.id 1)
      ∧ (Sample.contention.run (Sample.turns [1, 1, 1])).board.locks.owner? (.row (Sample.id 1)) = some 1 := by
  have hkeeps : ((Sample.contention.run (Sample.turns [0, 0, 0, 1])).processes 0).Keeps (Sample.task 1 .todo 1000) := by
    refine ⟨rfl, [], [⟨.action (.lockRow (Sample.id 1)), .granted (some (Sample.task 1 .todo 1000))⟩], _,
      .lockTarget Sample.workspace (Sample.id 1), .ok (Sample.task 1 .todo 1000), rfl, ?_, List.mem_singleton_self _, by simp⟩
    exact ends_perform.2 ⟨Grant.granted (some (Sample.task 1 .todo 1000)), [], .done _, rfl⟩
  refine ⟨hkeeps, ?_, ?_⟩
  . exact ((no_lost_update LockTable.idle_empty Sample.isCommand_contend (Sample.turns [0, 0, 0, 1]) 0 1
      (.answered Sample.surroundings)).1 _ hkeeps).2 (by decide)
  . refine ((no_lost_update LockTable.idle_empty Sample.isCommand_contend (Sample.turns [1, 1, 1]) 0 1
      (.answered Sample.surroundings)).2 (Sample.id 1) (Sample.task 1 .todo 1000) ?_ ?_).1
    . decide +kernel
    . decide +kernel

end Crowd

end LaneOrder
