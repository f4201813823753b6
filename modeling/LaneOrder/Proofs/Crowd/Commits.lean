import LaneOrder.Proofs.Command.Sequel
import LaneOrder.Proofs.Crowd.Failures
import LaneOrder.Proofs.Crowd.Moves
import LaneOrder.Proofs.Crowd.Renormalizations

/-!
This module contains the turns at which creations, moves and renormalizations take effect: how the rows change there, and
what is left of the command.
-/

namespace LaneOrder

open Board Program

namespace Rows

variable {r r' : Rows} {t : Task} {id : TaskId}

def lane? (r : Rows) (id : TaskId) : Option Lane :=
  (r.find? id).map (·.lane)

theorem find?_insert_self (h : r.insert? t = some r') : r'.find? t.id = some t := by
  rw [find?_eq_some, (insert?_eq_some h).1]
  exact ⟨List.mem_append_right _ (List.mem_singleton_self t), rfl⟩

theorem find?_insert_of_ne (h : r.insert? t = some r') (hid : id ≠ t.id) : r'.find? id = r.find? id := by
  unfold find?
  rw [(insert?_eq_some h).1, List.find?_append]
  simp [Ne.symm hid]

end Rows

namespace Board

variable {α : Type} {p : Commanding α} {T : History ops} {b : Board} {h : Holder} {id : TaskId}

theorem lane?_delete {deleted : TaskId} {time : Timestamp} : (b.delete deleted time).rows.lane? id = b.rows.lane? id := by
  unfold delete Rows.lane?
  dsimp only
  rw [Rows.find?_map]
  cases b.rows.find? id with
  | none => rfl
  | some t =>
    simp only [Option.map_some]
    split <;> rfl

theorem find?_commit_eq {tx : Transaction} (htx : b.transaction? h = some tx) :
    (b.commit h).rows.find? id = (b.rows.find? id).map tx.overlay := by
  show (b.view h).find? id = _
  unfold view
  rw [htx]
  exact Rows.find?_map

theorem leaves_insert {t : Task} {next : Bool → Working α}
    (hl : Leaves (I := ops) (actionsOf p) T (.perform (.action (.insert t)) next)) :
    ∃ H f, Mirrors carryOut H T ∧ Leaves (I := calls) p H (.perform (.insert t) f)
      ∧ next true = actionsOf (f (.ok ())) := by
  obtain ⟨H, T₀, E, c, f, rest, rfl, hm, hp, hE, rfl⟩ := leaves_implement hl
  cases Request.eq_insert_of_serves ((serves_carryOut c).of_reaches hE.reaches)
  rcases leaves_perform.1 hE with ⟨rfl, heq⟩ | ⟨inserted, E', hdone, _⟩
  . cases heq
    exact ⟨H, f, hm, hp, rfl⟩
  . cases inserted <;> cases hdone

theorem leaves_commit {workspace : WorkspaceId} {name : String} {next : Unit → Working α}
    (hworks : Only (I := calls) (Call.WorksOn workspace name) p)
    (hl : Leaves (I := ops) (actionsOf p) T (.perform (.action .commit) next)) :
    ∃ H f, Mirrors carryOut H T ∧ Leaves (I := calls) p H (.perform .commit f) ∧ next () = actionsOf (f (.ok ())) := by
  obtain ⟨H, T₀, E, c, f, rest, rfl, hm, hp, hE, rfl⟩ := leaves_implement hl
  have hserves := (serves_carryOut c).of_reaches hE.reaches
  cases c with
  | commit =>
    rcases leaves_perform.1 hE with ⟨rfl, heq⟩ | ⟨_, E', hdone, _⟩
    . cases heq
      exact ⟨H, f, hm, hp, rfl⟩
    . cases hdone
  | delete =>
    obtain ⟨_, _, hwithin⟩ := hworks.of_reaches hp.reaches
    exact hwithin.elim
  | lockLane | persist => simp [Serves] at hserves
  | _ => cases hserves

end Board

namespace Request

variable {q : Request} {T : History ops} {H : History calls} {b : Board} {h : Holder}

def isCall : Request → Bool
  | call _ => true
  | _ => false

/-- The event with which a creation, a move or a renormalization takes effect. -/
def publishes (q : Request) (e : Event ops) : Bool :=
  !q.isCall && q.alters e

theorem publishes_cases {e : Event ops} (he : q.publishes e = true) :
    (∃ r t, q = create r ∧ e = ⟨.action (.insert t), true⟩)
      ∨ ((∃ r, q = move r) ∨ ∃ r, q = renormalize r) ∧ e = ⟨.action .commit, ()⟩ := by
  simp only [publishes, Bool.and_eq_true, Bool.not_eq_true'] at he
  obtain ⟨hcall, halters⟩ := he
  unfold alters at halters
  split at halters
  . exact .inl ⟨_, _, rfl, rfl⟩
  . cases hcall
  . exact .inr ⟨.inl ⟨_, rfl⟩, rfl⟩
  . exact .inr ⟨.inr ⟨_, rfl⟩, rfl⟩
  . cases halters

theorem not_records_of_publishes {e : Event ops} (he : q.publishes e = true) : e.op.records = false := by
  rcases publishes_cases he with ⟨_, _, _, rfl⟩ | ⟨_, rfl⟩ <;> rfl

theorem exists_publishes (hq : q.IsCommand) (hcall : q.isCall = false) (hm : Mirrors carryOut H T)
    (hH : Lawful q.phased H) (hfruit : Fruitful H) : ∃ x ∈ T, q.publishes x = true := by
  obtain ⟨newer, x, older, rfl, hx, _⟩ :=
    altersOnce_of_mirrors hq hm (fun e he => (hH.refines phased_refines).allowed_of_mem he) hfruit
  exact ⟨x, by simp, by simp [publishes, hcall, hx]⟩

/-- Whoever records something has taken effect before. -/
theorem exists_publishes_of_record (hq : q.IsCommand) {op : Op} (ha : q.phasedProtocol.allowed T op)
    (hop : op.records = true) : ∃ x ∈ T, q.publishes x = true := by
  obtain ⟨H, T₀, E, c, rfl, hm, hH, hc, hreach⟩ := ha.2
  have hserves := (serves_carryOut c).of_reaches hreach
  have hsequel : c.isSequel = true := by
    cases hsequel : c.isSequel with
    | true => rfl
    | false => exact nomatch (not_records_of_serves hserves hsequel).symm.trans hop
  have hcall : q.isCall = false := by
    cases q with
    | call c' =>
      obtain ⟨workspace, id, rfl⟩ := hq
      obtain ⟨_, _, rfl⟩ := hc.1
      cases hsequel
    | _ => rfl
  obtain ⟨x, hx, hpublishes⟩ := exists_publishes hq hcall hm hH (hc.2.2.sequel hsequel)
  exact ⟨x, List.mem_append_right _ hx, hpublishes⟩

/-- Whoever has succeeded has taken effect before. -/
theorem exists_publishes_of_succeeds (hq : q.IsCommand) (hcall : q.isCall = false) {a : Answer}
    (ha : q.Concludes T a) (hsucceeds : a.succeeds = true) : ∃ x ∈ T, q.publishes x = true := by
  obtain ⟨H, hH, hm, hanswers, _⟩ := ha
  rcases hanswers.effect with ⟨_, hfails⟩ | ⟨hfruit, _⟩
  . exact nomatch hfails.symm.trans hsucceeds
  . exact exists_publishes hq hcall hm hH hfruit

theorem lane?_of_happens {b' : Board} {e : Event ops} (he : Happens h b e b') (hq : q.IsCommand)
    (hT : Lawful q.protocol (e :: T)) (hb : Holds b h T) (hnot : q.publishes e = false) (id : TaskId) :
    b'.rows.lane? id = b.rows.lane? id := by
  cases halters : q.alters e with
  | false => rw [rows_of_happens he hq hT hb halters]
  | true =>
    have hcall : q.isCall = true := by simpa [publishes, halters] using hnot
    unfold alters at halters
    split at halters
    -- a task that was deleted stays in its lane
    . cases hcall
    . cases he with
      | acts ha =>
        cases ha
        exact lane?_delete
      | givesUp ha => cases ha
    . cases hcall
    . cases hcall
    . cases halters

theorem lane?_of_renormalization {r : RenormalizeRequest} (hb : Holds b h T) (hT : Lawful (renormalize r).protocol T)
    (ha : (renormalize r).protocol.allowed T (.action .commit)) (id : TaskId) :
    (b.commit h).rows.lane? id = b.rows.lane? id := by
  obtain ⟨lane, ids, tasks, s, hspaces⟩ := spaces_of_commit ha hT
  have hun := undeleted_of_lawful Process.not_deletes_of_renormalization hT hspaces.opened
  unfold Rows.lane?
  rw [find?_commit_eq (hb.tx s hspaces.opened)]
  rw [Option.map_map]
  cases hrow : b.rows.find? id with
  | none => rfl
  | some t =>
    obtain ⟨ht, rfl⟩ := Rows.find?_eq_some.1 hrow
    show some ((Board.writes s).overlay t).lane = some t.lane
    congr 1
    by_cases hmem : ∃ u ∈ tasks, u.id = t.id
    -- what is written to a row of the lane leaves it there
    . obtain ⟨u, hu, hid⟩ := hmem
      obtain ⟨hu', hin⟩ := Rows.mem_lane.1 (hspaces.row hb hun hu)
      cases Rows.eq_of_id_eq hu' ht hid
      obtain ⟨_, _, _, _, hoverlay, _⟩ := hspaces.overlay hu
      rw [hoverlay]
      exact (Task.isInLane_iff.1 hin).2.2.symm
    . have hne : ∀ u ∈ tasks, u.id ≠ t.id := fun u hu hid => hmem ⟨u, hu, hid⟩
      exact congrArg Task.lane (hspaces.overlay_of_ne hne)

/-- A move that commits has written what it is going to record, to the row that it has locked in the same transaction. -/
theorem rows_of_move {r : MoveRequest} {rest : Commanding (Outcome MoveOutcome)} (hb : Holds b h T)
    (hT : Lawful (move r).protocol T) (ha : (move r).protocol.allowed T (.action .commit)) (hm : Mirrors carryOut H T)
    (hrest : Move.Concluding r H rest) : ∃ lane p s time, rest = Move.finish r lane p ∧ b.rows.find? r.task = some s
      ∧ s.isIn r.workspace = true ∧ s.lane = p.source
      ∧ (b.commit h).rows.find? r.task = some (s.placed p.placed.position lane time)
      ∧ ∀ id, id ≠ r.task → (b.commit h).rows.find? id = b.rows.find? id := by
  obtain ⟨lane, p, E, older, target, past, hlane, rfl, ⟨⟨now, rfl⟩, ⟨id, hlocked⟩, hsource⟩, rfl, hE⟩ := hrest
  have ht : transacted (_ ++ ⟨.begin, .ok ()⟩ :: past) = some (_ ++ []) :=
    since_append (fun e he => Call.not_boundary_of_within (hE e he)) transacted_begin
  rw [List.append_nil] at ht
  obtain ⟨s, hs, hms⟩ := opened_of_transacted hm ht
  -- the last things it has done: the write, and before that the lock of the target
  obtain ⟨_, s₁, rfl, hnow, hms₁⟩ := hms.cons_inv
  cases ends_ask hnow
  obtain ⟨_, s₂, rfl, hpersist, hms₂⟩ := hms₁.cons_inv
  obtain ⟨time, rfl⟩ := ends_persist hpersist
  obtain ⟨⟨e, he, hsees⟩, hin⟩ := sees_of_lockTarget hms₂ hlocked
  obtain ⟨_, _, _, _, w, hsettled⟩ := settled_of_commit ha hT
  obtain ⟨s', hs', hw⟩ := hsettled.tx
  rw [hs] at hs'
  cases hs'
  obtain rfl : w = ⟨target.id, p.placed.position, lane, time⟩ := by
    change (Board.writes s₂).stage ⟨target.id, p.placed.position, lane, time⟩ = ⟨[w]⟩ at hw
    simp only [Transaction.stage, Transaction.mk.injEq, List.cons.injEq] at hw
    exact hw.1.symm
  have htid : target.id = r.task := hsettled.write.1
  have htx := hb.tx _ hs
  rw [hw] at htx
  have hfind := hb.rows _ target hs (undeleted_of_lawful Process.not_deletes_of_move hT hs) ⟨e, by simp [he], hsees⟩
  rw [htid] at hfind
  refine ⟨lane, p, target, time, rfl, hfind, hin, hsource.symm, ?_, ?_⟩
  . rw [find?_commit_eq htx, hfind]
    simp [Transaction.overlay, Transaction.write?]
  . intro other hother
    apply find?_commit htx
    intro w hw
    cases List.mem_singleton.1 hw
    exact htid.trans_ne hother.symm

end Request

theorem Process.Steps.leaves {program : Working Answer} {b b' : Board} {h : Holder} {p p' : Process}
    (hs : Steps h b p b' p') (hp : ∀ rest, p.rest = some rest → Leaves program p.past rest) :
    ∀ rest, p'.rest = some rest → Leaves program p'.past rest := by
  cases hs with
  | stays | waits => exact hp
  | drops => rintro _ ⟨⟩
  | answered | acts | givesUp =>
    rintro _ ⟨⟩
    exact (hp _ rfl).push _

end LaneOrder
