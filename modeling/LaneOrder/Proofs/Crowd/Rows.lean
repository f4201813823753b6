import LaneOrder.Proofs.Board.Settled
import LaneOrder.Proofs.Crowd.Commands

/-!
This module contains what the turn of a command can do to the rows of a board.
-/

namespace LaneOrder

open Board Program

def Program.Event.ReadFrom (rows : Rows) : Event ops → Prop
  | ⟨.action (.laneIds workspace lane), ids⟩ => ids = rows.laneIds workspace lane
  | ⟨.action (.adjacent workspace lane pivot direction exclude), nearest⟩ =>
    rows.adjacent? workspace lane pivot direction exclude = nearest
  | ⟨.action (.greatest workspace lane), x⟩ => x = rows.greatest workspace lane
  | ⟨.action (.lockRow id), .granted row⟩ => row = rows.find? id
  | _ => True

namespace Process

/-- All that can become of the rows at a turn. -/
inductive Effect (P : Protocol ops) (b : Board) (h : Holder) (p : Process) : Rows → Prop where
  | none : Effect P b h p b.rows
  | inserts {t : Task} {rows : Rows} (ha : P.allowed p.past (.action (.insert t)))
    (hrows : b.rows.insert? t = some rows) : Effect P b h p rows
  | deletes {id : TaskId} {time : Timestamp} (ha : P.allowed p.past (.action (.delete id time))) :
    Effect P b h p (b.delete id time).rows
  | commits {rest : Working Answer} (hrest : p.rest = some rest) (ha : P.allowed p.past (.action .commit)) :
    Effect P b h p (b.commit h).rows

variable {P : Protocol ops} {post : History ops → Answer → Prop} {b b' : Board} {h : Holder} {p p' : Process}

theorem Steps.effect (hs : Steps h b p b' p') (hp : p.Orderly P post b h) : Effect P b h p b'.rows := by
  cases hs with
  | stays | drops | answered => exact .none
  | acts past next ha =>
    have hallowed := (hp.obeys _ rfl).1
    cases act_change ha with
    | none | gets | writes | starts | releases => exact .none
    | inserts he hrows =>
      cases he
      exact .inserts hallowed hrows
    | deletes he =>
      cases he
      exact .deletes hallowed
    | commits he =>
      cases he
      exact .commits rfl hallowed
  | waits past next ha =>
    rw [(act_blocking ha).board]
    exact .none
  | givesUp past next ha =>
    rw [(act_blocking ha).board]
    exact .none

end Process

namespace Request

variable {q : Request} {T : History ops}

section Callers

variable {H : History calls}

theorem creates_of_insert {t : Task} (hc : q.callProtocol.allowed H (.insert t)) (hq : q.IsCommand) :
    ∃ r, q = .create r := by
  cases q with
  | create r => exact ⟨r, rfl⟩
  | move r =>
    obtain ⟨_, _, _, hinside⟩ := hc.2
    exact hinside.elim
  | renormalize r => exact hc.2.elim
  | call c =>
    obtain ⟨workspace, id, rfl⟩ := hq
    cases hc.2.2

theorem eq_delete_of_delete {workspace : WorkspaceId} {id : TaskId}
    (hc : q.callProtocol.allowed H (.delete workspace id)) : q = .call (.delete workspace id) := by
  cases q with
  | create r => exact hc.2.elim
  | move r =>
    obtain ⟨_, _, _, hinside⟩ := hc.2
    exact hinside.elim
  | renormalize r => exact hc.2.elim
  | call c => rw [hc.2.2]

theorem transacts_of_persist {workspace : WorkspaceId} {id : TaskId} {position : Position} {lane : Lane}
    (hc : q.callProtocol.allowed H (.persist workspace id position lane)) (hq : q.IsCommand) :
    (∃ r, q = .move r) ∨ ∃ r, q = .renormalize r := by
  cases q with
  | create r => exact hc.2.elim
  | move r => exact .inl ⟨r, rfl⟩
  | renormalize r => exact .inr ⟨r, rfl⟩
  | call c =>
    obtain ⟨workspace, id, rfl⟩ := hq
    cases hc.2.2

theorem transacts_of_commit (hc : q.callProtocol.allowed H .commit) (hq : q.IsCommand) :
    (∃ r, q = .move r) ∨ ∃ r, q = .renormalize r := by
  cases q with
  | create r => exact hc.2.elim
  | move r => exact .inl ⟨r, rfl⟩
  | renormalize r => exact .inr ⟨r, rfl⟩
  | call c =>
    obtain ⟨workspace, id, rfl⟩ := hq
    cases hc.2.2

end Callers

theorem behalf_cases {op : Op} (ha : q.protocol.allowed T op) :
    ∃ c H T₀ E, Serves c op ∧ T = E ++ T₀ ∧ Mirrors carryOut H T₀ ∧ Lawful q.callProtocol H
      ∧ q.callProtocol.allowed H c ∧ Reaches (carryOut c) E op := by
  obtain ⟨H, T₀, E, c, hT, hm, hH, hc, hreach⟩ := ha.2
  exact ⟨c, H, T₀, E, (serves_carryOut c).of_reaches hreach, hT, hm, hH, hc, hreach⟩

theorem eq_insert_of_serves {c : Call} {t : Task} (h : Serves c (.action (.insert t))) : c = .insert t := by
  cases c with
  | insert t' =>
    cases h
    rfl
  | delete | lockLane | persist => simp [Serves] at h
  | _ => cases h

theorem eq_delete_of_serves {c : Call} {id : TaskId} {time : Timestamp} (h : Serves c (.action (.delete id time))) :
    ∃ workspace, c = .delete workspace id := by
  cases c with
  | delete workspace other =>
    simp [Serves] at h
    obtain ⟨_, rfl, _⟩ := h
    exact ⟨workspace, rfl⟩
  | lockLane | persist => simp [Serves] at h
  | _ => cases h

theorem insert_cases {t : Task} (ha : q.protocol.allowed T (.action (.insert t))) (hq : q.IsCommand) :
    ∃ r, q = .create r := by
  obtain ⟨c, H, T₀, E, hserves, _, _, _, hc, _⟩ := behalf_cases ha
  cases eq_insert_of_serves hserves
  exact creates_of_insert hc hq

theorem delete_cases {id : TaskId} {time : Timestamp} (ha : q.protocol.allowed T (.action (.delete id time))) :
    ∃ workspace, q = .call (.delete workspace id) := by
  obtain ⟨c, H, T₀, E, hserves, _, _, _, hc, _⟩ := behalf_cases ha
  obtain ⟨workspace, rfl⟩ := eq_delete_of_serves hserves
  exact ⟨workspace, eq_delete_of_delete hc⟩

theorem commit_cases (ha : q.protocol.allowed T (.action .commit)) :
    (∃ H, Mirrors carryOut H T ∧ Lawful q.callProtocol H ∧ q.callProtocol.allowed H .commit)
      ∨ ∃ H workspace id, q.callProtocol.allowed H (.delete workspace id) := by
  obtain ⟨c, H, T₀, E, hserves, rfl, hm, hH, hc, hreach⟩ := behalf_cases ha
  cases c with
  | commit =>
    left
    rcases reaches_perform.1 hreach with ⟨rfl, _⟩ | ⟨_, _, hrest, _⟩
    . exact ⟨H, hm, hH, hc⟩
    . exact absurd hrest reaches_done
  | delete workspace id => exact .inr ⟨H, workspace, id, hc⟩
  | lockLane | persist => simp [Serves] at hserves
  | _ => cases hserves

theorem settled_of_commit {r : MoveRequest} (ha : (move r).protocol.allowed T (.action .commit))
    (hT : Lawful (move r).protocol T) : ∃ lane anchors nearest a w, Settled r T lane anchors nearest a w := by
  rcases commit_cases ha with ⟨H, hm, hH, hc⟩ | ⟨_, _, _, hc⟩
  . exact settled_of_mirrors hH hc.2 hm (hT.refines protocol_refines)
  . cases eq_delete_of_delete hc

theorem stage_cases {workspace : WorkspaceId} {w : StagedWrite} (ha : q.protocol.allowed T (.action (.stage workspace w)))
    (hq : q.IsCommand) : (∃ r, q = .move r) ∨ ∃ r, q = .renormalize r := by
  obtain ⟨c, H, T₀, E, hserves, _, _, _, hc, _⟩ := behalf_cases ha
  have hpersist : ∃ id position lane, c = .persist workspace id position lane := by
    cases c with
    | persist w' id position lane =>
      simp [Serves] at hserves
      obtain ⟨rfl, _⟩ := hserves
      exact ⟨id, position, lane, rfl⟩
    | delete | lockLane => simp [Serves] at hserves
    | _ => cases hserves
  obtain ⟨id, position, lane, rfl⟩ := hpersist
  exact transacts_of_persist hc hq

/-- A deletion is carried out by itself, so what has happened was all on its behalf. -/
theorem reaches_of_deletion {workspace : WorkspaceId} {id : TaskId} {op : Op}
    (ha : (call (.delete workspace id)).protocol.allowed T op) : Reaches (deleteTask workspace id) T op := by
  obtain ⟨c, H, T₀, E, _, rfl, hm, _, hc, hreach⟩ := behalf_cases ha
  obtain ⟨_, rfl, rfl⟩ := hc
  cases hm
  rwa [List.append_nil]

theorem rows_commit_of_deletion {b : Board} {h : Holder} {workspace : WorkspaceId} {id : TaskId}
    (hb : Holds b h T) (hT : Lawful (call (.delete workspace id)).protocol T) {s : History ops}
    (hs : opened T = some s) : (b.commit h).rows = b.rows := by
  have hun : Unwritten s := by
    intro e he
    cases hw : e.writes? with
    | none => rfl
    | some w =>
      exfalso
      obtain ⟨op, reply⟩ := e
      unfold Event.writes? at hw
      split at hw
      . next workspace' w' heq =>
        obtain ⟨newer, older, rfl⟩ := List.append_of_mem (mem_of_since hs he)
        cases heq
        rcases stage_cases hT.allowed ⟨workspace, id, rfl⟩ with ⟨_, hq⟩ | ⟨_, hq⟩ <;> cases hq
      . cases hw
  show b.view h = b.rows
  exact view_of_writes_nil (hb.tx s hs) (by rw [writes_of_unwritten hun])

/-- The position of a task that is created was appended after what was last seen of its lane. -/
theorem greatest_of_insert {r : CreateRequest} {t : Task} (ha : (create r).protocol.allowed T (.action (.insert t))) :
    ∃ lane greatest newer older, Lane.parse r.lane = .ok lane ∧ t.isLive = true ∧ t.workspace = r.workspace
      ∧ t.lane = lane ∧ T = newer ++ ⟨.action (.greatest r.workspace lane), greatest⟩ :: older
      ∧ (∀ e ∈ newer, ∃ c, e.op = .ambient c) ∧ (⟨.ambient (.appendAfter greatest), t.position⟩ : Event ops) ∈ newer := by
  obtain ⟨c, H, T₀, E, hserves, rfl, hm, _, hc, hreach⟩ := behalf_cases ha
  cases eq_insert_of_serves hserves
  obtain ⟨lane, greatest, id, position, time, title, reply, old, rfl, rfl, hlane⟩ := hc.2
  -- back from the insertion: what time it is, the position, the identifier, and the end of the lane
  obtain ⟨_, T₁, rfl, hnow, hm₁⟩ := hm.cons_inv
  cases ends_ask hnow
  obtain ⟨_, T₂, rfl, happend, hm₂⟩ := hm₁.cons_inv
  cases ends_ask happend
  obtain ⟨_, T₃, rfl, hfresh, hm₃⟩ := hm₂.cons_inv
  cases ends_ask hfresh
  obtain ⟨_, T₄, rfl, hgreatest, _⟩ := hm₃.cons_inv
  obtain ⟨x, E₁, E₂, hask, hrest, rfl⟩ := ends_bind hgreatest
  cases ends_ask hask
  obtain ⟨rfl, heq⟩ := ends_done.1 hrest
  cases heq
  have hstart : E = [] := by
    rcases reaches_bind hreach with hstart | ⟨_, _, _, _, hdone, _⟩
    . rcases reaches_perform.1 hstart with ⟨hnil, _⟩ | ⟨_, _, hdone, _⟩
      . exact hnil
      . exact absurd hdone reaches_done
    . split at hdone <;> exact absurd hdone reaches_done
  subst hstart
  refine ⟨lane, greatest, [⟨.ambient .now, time⟩, ⟨.ambient (.appendAfter greatest), position⟩, ⟨.ambient .freshId, id⟩],
    T₄, hlane, rfl, rfl, rfl, rfl, by simp, ?_⟩
  exact List.mem_cons_of_mem _ List.mem_cons_self

section Reads

variable {h : Holder} {b b' : Board} {e : Event ops}

theorem view_of_prepares {op : Op} (hb : Holds b h T) (ha : q.protocol.allowed T op) (hop : op.prepares = true) :
    b.view h = b.rows := by
  obtain ⟨s, hs, hun⟩ := (protocol_refines.allowed _ _ ha).prepares hop
  exact view_of_writes_nil (hb.tx s hs) (by rw [writes_of_unwritten hun])

theorem readFrom_of_happens (he : Happens h b e b') (hT : Lawful q.protocol (e :: T)) (hb : Holds b h T) :
    e.ReadFrom b.rows := by
  cases he with
  | answered => trivial
  | givesUp ha =>
    rename_i a key refusal
    have hquiet := (act_blocking ha).quiet.gets
    have hawaits := (act_blocking ha).awaits
    cases a with
    | lockRow id =>
      cases refusal with
      | refused => trivial
      | granted row => cases hquiet
    | lockSeed => trivial
    | _ => cases hawaits
  | acts ha =>
    rename_i a reply
    cases a with
    | laneIds | adjacent =>
      cases ha
      unfold Event.ReadFrom
      rw [view_of_prepares hb hT.1.1 rfl]
    | greatest =>
      cases ha
      rfl
    | lockRow id =>
      unfold act acquire at ha
      dsimp only at ha
      split at ha
      . cases ha
        trivial
      . split at ha
        . cases ha
          unfold Event.ReadFrom
          rw [view_of_prepares hb hT.1.1 rfl]
        . cases ha
    | _ => trivial

end Reads
end Request

end LaneOrder
