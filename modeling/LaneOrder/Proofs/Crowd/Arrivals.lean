import LaneOrder.Proofs.Crowd.Moves

/-!
This module contains how a row gets into a lane at the turn of a creation or a move. Its position was computed from what
was seen at the last look at the lane.
-/

namespace LaneOrder

open Board Program

def Request.CreatesOrMoves (q : Request) : Prop :=
  (∃ r, q = .create r) ∨ ∃ r, q = .move r

theorem Request.CreatesOrMoves.isCommand {q : Request} (hq : q.CreatesOrMoves) : q.IsCommand := by
  rcases hq with ⟨r, rfl⟩ | ⟨r, rfl⟩ <;> trivial

theorem Request.moves_of_commit {q : Request} {T : History ops} (ha : q.protocol.allowed T (.action .commit))
    (hq : q.CreatesOrMoves) : ∃ r, q = .move r := by
  rcases hq with ⟨r, rfl⟩ | hmove
  . rcases commit_cases ha with ⟨_, _, _, hc⟩ | ⟨_, _, _, hc⟩
    . exact hc.2.elim
    . cases eq_delete_of_delete hc
  . exact hmove

namespace Process

/-- A row gets into a lane, which has these rows then: it is inserted, or the move that it is the target of commits. -/
inductive Arrives (q : Request) (b : Board) (h : Holder) (p : Process) (workspace : WorkspaceId) (lane : Lane) (z : Task) :
    Rows → Prop where
  | created {r : CreateRequest} {rows : Rows} {greatest : Position} {newer older : History ops} (hq : q = .create r)
    (hrows : b.rows.insert? z = some rows)
    (hpast : p.past = newer ++ ⟨.action (.greatest workspace lane), greatest⟩ :: older)
    (hlast : ∀ e ∈ newer, ∃ c, e.op = .ambient c)
    (happend : (⟨.ambient (.appendAfter greatest), z.position⟩ : Event ops) ∈ p.past) :
    Arrives q b h p workspace lane z rows
  | moved {r : MoveRequest} {rest : Working Answer} {anchors : Gap} {nearest : Option Neighbor} {a : Allocation}
    {w : StagedWrite} (hq : q = .move r) (hrest : p.rest = some rest)
    (hsettled : Settled r p.past lane anchors nearest a w) (hworkspace : workspace = r.workspace) (hid : z.id = r.task)
    (hposition : z.position = a.position) : Arrives q b h p workspace lane z (b.commit h).rows

variable {post : History ops → Answer → Prop} {b b' : Board} {h : Holder} {p p' : Process} {q : Request}
  {workspace : WorkspaceId} {lane : Lane} {z : Task} {rows : Rows}

/-- At its turn a command lets at most one row arrive in a lane. -/
theorem Steps.arrives (hs : Steps h b p b' p') (hp : p.Orderly q.protocol post b h) (hq : q.CreatesOrMoves)
    (workspace : WorkspaceId) (lane : Lane) :
    (∀ t ∈ b'.rows.lane workspace lane, t ∈ b.rows.lane workspace lane)
      ∨ ∃ z, Arrives q b h p workspace lane z b'.rows ∧ z ∈ b'.rows.lane workspace lane
        ∧ ∀ t ∈ b'.rows.lane workspace lane, t = z ∨ t ∈ b.rows.lane workspace lane ∧ t.id ≠ z.id := by
  have heffect := hs.effect hp
  generalize b'.rows = rows at heffect ⊢
  cases heffect with
  | none => exact .inl fun _ ht => ht
  | deletes ha =>
    exfalso
    obtain ⟨_, rfl⟩ := Request.delete_cases ha
    rcases hq with ⟨_, hq⟩ | ⟨_, hq⟩ <;> cases hq
  | @inserts z rows ha hrows =>
    obtain ⟨r, rfl⟩ := Request.insert_cases ha hq.isCommand
    obtain ⟨lane', greatest, newer, older, _, hlive, hworkspace, hlane, hpast, hlast, happend⟩ :=
      Request.greatest_of_insert ha
    by_cases hhere : workspace = z.workspace ∧ lane = z.lane
    . right
      rw [← hworkspace, ← hlane, ← hhere.1, ← hhere.2] at hpast
      refine ⟨z, .created rfl hrows hpast hlast (by simp [hpast, happend]),
        (Rows.mem_lane_insert hrows hlive).2 (.inr ⟨rfl, hhere⟩), ?_⟩
      intro t ht
      rcases (Rows.mem_lane_insert hrows hlive).1 ht with hold | ⟨rfl, _⟩
      . exact .inr ⟨hold, (Rows.insert?_eq_some hrows).2 t (Rows.mem_lane.1 hold).1⟩
      . exact .inl rfl
    . left
      intro t ht
      rcases (Rows.mem_lane_insert hrows hlive).1 ht with hold | ⟨_, hin⟩
      . exact hold
      . exact absurd hin hhere
  | @commits rest hrest ha =>
    obtain ⟨r, rfl⟩ := Request.moves_of_commit ha hq
    obtain ⟨lane', anchors, nearest, a, w, hsettled⟩ := Request.settled_of_commit ha hp.lawful
    obtain ⟨z, hposition, hmoves⟩ := hsettled.moves (hp.holds rest hrest)
      (fun _ => undeleted_of_lawful not_deletes_of_move hp.lawful)
    by_cases hhere : workspace = r.workspace ∧ lane = lane'
    . obtain ⟨rfl, rfl⟩ := hhere
      right
      refine ⟨z, .moved rfl hrest hsettled rfl hmoves.id hposition, (hmoves.lanes _ _ _).2 (.inr ⟨rfl, rfl, rfl⟩), ?_⟩
      intro t ht
      rcases (hmoves.lanes _ _ _).1 ht with hold | ⟨_, _, rfl⟩
      . rw [hmoves.id]
        exact .inr hold
      . exact .inl rfl
    . left
      intro t ht
      rcases (hmoves.lanes _ _ _).1 ht with ⟨hold, _⟩ | ⟨hworkspace, hlane, _⟩
      . exact hold
      . exact absurd ⟨hworkspace, hlane⟩ hhere

theorem contains_of_settled {r : MoveRequest} {anchors : Gap} {nearest : Option Neighbor} {a : Allocation} {w : StagedWrite}
    (hsettled : Settled r p.past lane anchors nearest a w) (hposition : z.position = a.position)
    (hapart : ∀ e ∈ p.past, e.keepsApart = true) :
    z.position.isNaN = false ∧ (anchors.closed nearest).Contains z.position := by
  obtain ⟨x, hx, hallocates⟩ := List.exists_of_findSome?_eq_some hsettled.allotted
  rw [hposition]
  exact Event.between_of_keepsApart (hapart x hx) hallocates

theorem Arrives.number (hz : Arrives q b h p workspace lane z rows) (hapart : ∀ e ∈ p.past, e.keepsApart = true) :
    z.position.isNaN = false := by
  cases hz with
  | created _ _ _ _ happend =>
    have hlt := hapart _ happend
    simp only [Event.keepsApart, decide_eq_true_eq] at hlt
    exact (Binary64.lt_iff.1 hlt).2.1
  | moved _ _ hsettled _ _ hposition => exact (contains_of_settled hsettled hposition hapart).1

end Process

namespace Crowd

variable {c : Crowd} {b : Board} {requests : Holder → Request} {workspace : WorkspaceId} {lane : Lane}

theorem number_run (hb : b.locks.Idle) (hd : b.rows.DistinctIn workspace lane) (hq : ∀ h, (requests h).CreatesOrMoves)
    (turns : List (Holder × Turn)) (hapart : ((start b requests).run turns).Witnessed (·.keepsApart = true)) :
    ∀ t ∈ ((start b requests).run turns).board.rows.lane workspace lane, t.position.isNaN = false := by
  apply orderly_induction hb (fun h => (hq h).isCommand) (·.keepsApart = true)
    fun c => ∀ t ∈ c.board.rows.lane workspace lane, t.position.isNaN = false
  . exact hd.number
  . intro c h t ho hnumber hw u hu
    rcases (c.steps_turn h t).arrives (ho.processes h) (hq h) workspace lane with hold | ⟨z, hz, _, hlane⟩
    . exact hnumber u (hold u hu)
    . rcases hlane u hu with rfl | ⟨hu, _⟩
      . exact hz.number (hw.of_turn h)
      . exact hnumber u hu
  . exact hapart

end Crowd

end LaneOrder
