import LaneOrder.Proofs.Board.Spaced
import LaneOrder.Proofs.Crowd.Rows

/-!
This module contains renormalizations among other commands. A renormalization lists its lane before it waits for the locks
of its rows. Rows that were listed keep their order whatever happens meanwhile, but a row that enters the lane after
that keeps its position, which was chosen next to positions that are about to be replaced.
-/

namespace LaneOrder

open Board Program

namespace Board

variable {b b' : Board} {h : Holder} {T : History ops} {e : Event ops} {id : TaskId}

theorem find?_view (hnone : (b.view h).find? id = none) : b.rows.find? id = none := by
  unfold view at hnone
  split at hnone
  . unfold Transaction.view at hnone
    rw [Rows.find?_map] at hnone
    exact Option.map_eq_none_iff.1 hnone
  . exact hnone

theorem find?_of_laneIds {workspace : WorkspaceId} {lane : Lane} (hid : id ∈ (b.view h).laneIds workspace lane) :
    ∃ t, b.rows.find? id = some t := by
  obtain ⟨t, ht, rfl⟩ := Rows.mem_laneIds.1 hid
  cases hfind : b.rows.find? t.id with
  | some u => exact ⟨u, rfl⟩
  | none =>
    have hview : (b.view h).find? t.id = some t := Rows.find?_eq_some.2 ⟨(Rows.mem_lane.1 ht).1, rfl⟩
    unfold view at hview
    split at hview
    . unfold Transaction.view at hview
      rw [Rows.find?_map, hfind] at hview
      cases hview
    . rw [hfind] at hview
      cases hview

theorem find?_of_lists {a : Action} {reply : a.Reply} (ha : b.act h a = .replied reply b') {ids : List TaskId}
    (hlists : (Event.mk (I := ops) (.action a) reply).lists? = some ids) (hid : id ∈ ids) :
    ∃ t, b.rows.find? id = some t := by
  cases a with
  | laneIds workspace lane =>
    cases ha
    cases hlists
    exact find?_of_laneIds hid
  | _ => cases hlists

theorem find?_of_missing (ha : b.act h (.lockRow id) = .replied (.granted none) b') : b.rows.find? id = none := by
  unfold act acquire at ha
  dsimp only at ha
  split at ha
  . cases ha
  . split at ha
    . cases hview : (b.view h).find? id with
      | none => exact find?_view hview
      | some t =>
        rw [hview] at ha
        cases ha
    . cases ha

theorem Found.cons (hT : Found T) (he : ∀ id, e = ⟨.action (.lockRow id), .granted none⟩ →
    ∀ e' ∈ T, ∀ ids, e'.lists? = some ids → id ∉ ids) : Found (e :: T) := by
  intro newer older id heq
  cases newer with
  | nil =>
    cases heq
    exact he id rfl
  | cons e' newer =>
    cases heq
    exact hT newer older id rfl

end Board

theorem Request.spaces_of_commit {r : RenormalizeRequest} {T : History ops}
    (ha : (renormalize r).protocol.allowed T (.action .commit)) (hT : Lawful (renormalize r).protocol T) :
    ∃ lane ids tasks s, Spaces r T s lane ids tasks := by
  rcases commit_cases ha with ⟨H, hm, hH, hc⟩ | ⟨_, _, _, hc⟩
  . exact spaces_of_mirrors hH hc hm (hT.refines protocol_refines)
  . exact hc.2.elim

namespace Process

structure Finds (b : Board) (p : Process) : Prop where
  found : Found p.past
  exist : ∀ e ∈ p.past, ∀ ids, e.lists? = some ids → ∀ id ∈ ids, ∃ t, b.rows.find? id = some t

variable {P : Protocol ops} {post : History ops → Answer → Prop} {b b' : Board} {h : Holder} {p p' : Process}

theorem Effect.find? {rows : Rows} (he : Effect P b h p rows) {id : TaskId} {t : Task} (ht : b.rows.find? id = some t) :
    ∃ t', rows.find? id = some t' := by
  cases he with
  | none => exact ⟨t, ht⟩
  | inserts _ hrows => exact ⟨t, Rows.find?_insert hrows ht⟩
  | deletes =>
    unfold delete
    dsimp only
    rw [Rows.find?_map, ht]
    exact ⟨_, rfl⟩
  | commits =>
    show ∃ t', (b.view h).find? id = some t'
    cases hview : (b.view h).find? id with
    | some t' => exact ⟨t', rfl⟩
    | none =>
      rw [find?_view hview] at ht
      cases ht

theorem Finds.mono (hf : p.Finds b) (hrows : ∀ id t, b.rows.find? id = some t → ∃ t', b'.rows.find? id = some t') :
    p.Finds b' where
  found := hf.found
  exist e he ids hids id hid := by
    obtain ⟨t, ht⟩ := hf.exist e he ids hids id hid
    exact hrows id t ht

theorem Finds.push {T : History ops} {rest rest' : Option (Working Answer)} {e : Event ops} (hf : Finds b ⟨T, rest⟩)
    (hrows : ∀ id t, b.rows.find? id = some t → ∃ t', b'.rows.find? id = some t')
    (hmissing : ∀ id, e = ⟨.action (.lockRow id), .granted none⟩ → b.rows.find? id = none)
    (hlists : ∀ ids, e.lists? = some ids → ∀ id ∈ ids, ∃ t, b.rows.find? id = some t) : Finds b' ⟨e :: T, rest'⟩ where
  found := by
    apply hf.found.cons
    intro id he e' he' ids hids hid
    obtain ⟨t, ht⟩ := hf.exist e' he' ids hids id hid
    rw [hmissing id he] at ht
    cases ht
  exist e' he' ids hids id hid := by
    have hfind : ∃ t, b.rows.find? id = some t := by
      rcases List.mem_cons.1 he' with rfl | he'
      . exact hlists ids hids id hid
      . exact hf.exist e' he' ids hids id hid
    obtain ⟨t, ht⟩ := hfind
    exact hrows id t ht

theorem Steps.finds (hs : Steps h b p b' p') (hp : p.Orderly P post b h) (hf : p.Finds b) : p'.Finds b' := by
  have hrows : ∀ id t, b.rows.find? id = some t → ∃ t', b'.rows.find? id = some t' :=
    fun id t ht => (hs.effect hp).find? ht
  cases hs with
  | stays => exact ⟨hf.found, hf.exist⟩
  | drops => exact ⟨hf.found, hf.exist⟩
  | answered past c next reply =>
    apply hf.push hrows
    . rintro _ ⟨⟩
    . rintro _ ⟨⟩
  | acts past next ha =>
    apply hf.push hrows
    . rintro id he
      cases he
      exact find?_of_missing ha
    . intro ids hids id hid
      exact find?_of_lists ha hids hid
  | waits past next ha => exact hf.mono hrows
  | givesUp past next ha =>
    have hblocking := act_blocking ha
    apply hf.push hrows
    . rintro id he
      have hgets := hblocking.quiet.gets
      rw [he] at hgets
      cases hgets
    . intro ids hids
      have hawaits := hblocking.awaits
      unfold Event.lists? at hids
      split at hids
      . next heq =>
        cases heq
        cases hawaits
      . cases hids

theorem not_deletes_of_renormalization {r : RenormalizeRequest} (T : History ops) (id : TaskId) (time : Timestamp) :
    ¬ (Request.renormalize r).protocol.allowed T (.action (.delete id time)) := by
  intro ha
  obtain ⟨_, hq⟩ := Request.delete_cases ha
  cases hq

end Process

namespace Crowd

variable {b : Board} {requests : Holder → Request} {turns : List (Holder × Turn)}

theorem finds_run (hb : b.locks.Idle) (hcommands : ∀ h, (requests h).IsCommand) (turns : List (Holder × Turn)) :
    ∀ h, (((start b requests).run turns).processes h).Finds ((start b requests).run turns).board := by
  apply orderly_induction hb hcommands (fun _ => True) fun c => ∀ h, (c.processes h).Finds c.board
  . intro h
    constructor
    . intro newer _ _ heq
      cases newer <;> cases heq
    . rintro _ ⟨⟩
  . intro c h t ho hc _ h'
    have hs := c.steps_turn h t
    have hp := ho.processes h
    -- no row is ever lost, so nobody can make a listed row disappear
    by_cases hh : h' = h
    . subst hh
      exact hs.finds hp (hc h')
    . rw [processes_turn_of_ne hh]
      exact (hc h').mono fun id t ht => (hs.effect hp).find? ht
  . exact fun _ _ _ => trivial

/-- When a renormalization commits, its lane keeps its order if and only if every row that has entered the lane after
it was listed stays on the same side of the rows that were listed; and no positions are shared that were not shared
before if and only if no such row has the new position of one that was listed. -/
theorem order_after_renormalization (hb : b.locks.Idle) (hcommands : ∀ h, (requests h).IsCommand)
    (turns : List (Holder × Turn)) (h : Holder) (r : RenormalizeRequest) (hr : requests h = .renormalize r)
    (hcommits : (((start b requests).run turns).processes h).commits = true)
    (hrising : Rising (((start b requests).run turns).processes h).past) :
    ∃ lane ids, Lane.parse r.lane = .ok lane ∧ listed? (((start b requests).run turns).processes h).past = some ids
      ∧ let before := ((start b requests).run turns).board.rows
        let after := (((start b requests).run turns).board.commit h).rows
        (after.ids r.workspace lane = before.ids r.workspace lane
          ↔ ∀ x ∈ before.lane r.workspace lane, x.id ∉ ids → ∀ t ∈ before.lane r.workspace lane, t.id ∈ ids →
            ∀ t' ∈ after.lane r.workspace lane, t'.id = t.id → t'.visualLe x = t.visualLe x)
        ∧ (SharesNoMore (before.lane r.workspace lane) (after.lane r.workspace lane)
          ↔ ∀ x ∈ before.lane r.workspace lane, x.id ∉ ids → ∀ t ∈ before.lane r.workspace lane, t.id ∈ ids →
            ∀ t' ∈ after.lane r.workspace lane, t'.id = t.id → t'.position.rank = x.position.rank →
              t.position.rank = x.position.rank) := by
  have hp := (orderly_run hb hcommands turns).processes h
  have hfinds := finds_run hb hcommands turns h
  rw [hr] at hp
  obtain ⟨next, hrest⟩ := Process.rest_of_commits hcommits
  obtain ⟨lane, ids, tasks, s, hspaces⟩ := Request.spaces_of_commit (hp.obeys _ hrest).1 hp.lawful
  have hholds := hp.holds _ hrest
  have hun := undeleted_of_lawful Process.not_deletes_of_renormalization hp.lawful hspaces.opened
  refine ⟨lane, ids, hspaces.parsed, hspaces.listed, ?_, ?_⟩
  . exact hspaces.ids_commit hholds hun hfinds.found hrising
  . exact hspaces.sharesNoMore_commit hholds hun hfinds.found hrising

section Late

def lateRequests : Holder → Request
  | 0 => .renormalize ⟨Sample.workspace, Sample.actor, "todo"⟩
  | _ => .move ⟨Sample.workspace, Sample.id 5, Sample.actor, "todo", none, some (Sample.id 2)⟩

def lateRows : Rows where
  tasks := [Sample.task 1 .todo 5, Sample.task 2 .todo 6, Sample.task 5 .done 1]
  nodup := by decide

/-- The task is moved after the lane was listed, and then the renormalization is about to commit. -/
def late : Crowd :=
  (start (Sample.board lateRows) lateRequests).run
    (Sample.turns ([0, 0, 0] ++ List.replicate 16 1 ++ List.replicate 9 0))

theorem order_after_renormalization_late : ∃ lane ids, Lane.parse "todo" = .ok lane
    ∧ listed? (late.processes 0).past = some ids
    ∧ ((late.board.commit 0).rows.ids Sample.workspace lane = late.board.rows.ids Sample.workspace lane
      ↔ ∀ x ∈ late.board.rows.lane Sample.workspace lane, x.id ∉ ids →
        ∀ t ∈ late.board.rows.lane Sample.workspace lane, t.id ∈ ids →
        ∀ t' ∈ (late.board.commit 0).rows.lane Sample.workspace lane, t'.id = t.id → t'.visualLe x = t.visualLe x) := by
  have hcommands : ∀ h, (lateRequests h).IsCommand := by
    rintro (_ | h) <;> trivial
  have hcommits : (late.processes 0).commits = true := by decide +kernel
  have hrising : Rising (late.processes 0).past := by decide +kernel
  unfold late at *
  obtain ⟨lane, ids, hlane, hlisted, horder, _⟩ := order_after_renormalization (b := Sample.board lateRows)
    LockTable.idle_empty hcommands _ 0 _ rfl hcommits hrising
  exact ⟨lane, ids, hlane, hlisted, horder⟩

/-- The task was moved below task 2, and the renormalization has put task 2 below it. -/
theorem late_renormalization_changes_order :
    lateRows.Distinct ∧ lateRows.Finite ∧ late.Witnessed AllocatesInside ∧ Rising (late.processes 0).past
      ∧ (late.processes 0).commits = true
      ∧ late.board.rows.ids Sample.workspace .todo = [Sample.id 1, Sample.id 2, Sample.id 5]
      ∧ (late.board.commit 0).rows.ids Sample.workspace .todo = [Sample.id 1, Sample.id 5, Sample.id 2] := by
  refine ⟨Rows.distinct_of_tasks (by decide +kernel) (by decide +kernel), ?_, witnessed_run (by decide +kernel), ?_⟩
  . have hfinite : ∀ t ∈ lateRows.tasks, t.position.isFinite = true := by decide +kernel
    exact fun t ht _ => hfinite t ht
  . decide +kernel

end Late

end Crowd

end LaneOrder
