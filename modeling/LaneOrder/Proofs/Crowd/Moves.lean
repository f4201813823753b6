import LaneOrder.Proofs.Crowd.Rows

/-!
This module contains crowds of moves and deletions. Everybody that has read a gap guards it until the end of its
transaction, so positions stay pairwise different, and a gap is still empty when a move commits into it.
-/

namespace LaneOrder

open Board Program

namespace Board

variable {b b' : Board} {h : Holder} {workspace : WorkspaceId} {lane : Lane} {target : TaskId} {gap : Gap}

theorem OwnsBorder.mono (hg : OwnsBorder b h workspace lane target gap)
    (howner : ∀ key, b.locks.owner? key = some h → b'.locks.owner? key = some h)
    (hrows : ∀ id t, b.locks.owner? (.row id) = some h → b.rows.find? id = some t → b'.rows.find? id = some t) :
    OwnsBorder b' h workspace lane target gap := by
  have hborder : ∀ n, (∃ t ∈ b.rows.lane workspace lane, t.toNeighbor = n ∧ t.id ≠ target
      ∧ b.locks.owner? (.row t.id) = some h) → ∃ t ∈ b'.rows.lane workspace lane, t.toNeighbor = n ∧ t.id ≠ target
      ∧ b'.locks.owner? (.row t.id) = some h := by
    rintro n ⟨t, ht, hn, hid, ho⟩
    obtain ⟨hmem, hin⟩ := Rows.mem_lane.1 ht
    have hfind := hrows t.id t ho (Rows.find?_eq_some.2 ⟨hmem, rfl⟩)
    exact ⟨t, mem_lane_of_find? hfind hin, hn, hid, howner _ ho⟩
  constructor
  . exact howner _ hg.owned
  . intro n hn
    exact hborder n (hg.before n hn)
  . intro n hn
    exact hborder n (hg.after n hn)
  . intro hopen
    exact howner _ (hg.seed hopen)

theorem IsClear.mono (hclear : b.IsClear workspace lane target gap)
    (hlane : ∀ t ∈ b'.rows.lane workspace lane, t.id ≠ target →
      t ∈ b.rows.lane workspace lane ∨ ¬ gap.Contains t.position) : b'.IsClear workspace lane target gap := by
  intro t ht hid
  rcases hlane t ht hid with hold | hnot
  . exact hclear t hold hid
  . exact hnot

theorem mem_lane_delete {id : TaskId} {time : Timestamp} {t : Task} :
    t ∈ (b.delete id time).rows.lane workspace lane ↔ t ∈ b.rows.lane workspace lane ∧ t.id ≠ id := by
  constructor
  . intro ht
    obtain ⟨hmem, hin⟩ := Rows.mem_lane.1 ht
    obtain ⟨u, hu, rfl⟩ := List.mem_map.1 hmem
    split at hin
    . rw [Task.isInLane_iff] at hin
      cases hin.1
    . next hid =>
      rw [if_neg hid] at *
      exact ⟨Rows.mem_lane.2 ⟨hu, hin⟩, hid⟩
  . rintro ⟨ht, hid⟩
    obtain ⟨hmem, hin⟩ := Rows.mem_lane.1 ht
    exact Rows.mem_lane.2 ⟨List.mem_map.2 ⟨t, hmem, if_neg hid⟩, hin⟩

theorem distinct_delete (hd : b.rows.Distinct) {id : TaskId} {time : Timestamp} :
    (b.delete id time).rows.Distinct := by
  constructor
  . intro t ht hlive
    exact number_of_mem_lane hd (mem_lane_delete.1 (Rows.mem_own_lane ht hlive)).1
  . intro workspace lane t ht u hu
    exact hd.distinct workspace lane t (mem_lane_delete.1 ht).1 u (mem_lane_delete.1 hu).1

theorem finite_delete (hfinite : b.rows.Finite) {id : TaskId} {time : Timestamp} :
    (b.delete id time).rows.Finite := by
  intro t ht hlive
  exact hfinite t (Rows.mem_lane.1 (mem_lane_delete.1 (Rows.mem_own_lane ht hlive)).1).1 hlive

/-- A move is about to put its target into a gap that it guards. -/
structure Fills (b : Board) (h : Holder) (r : MoveRequest) (lane : Lane) (gap : Gap) (x : Position) : Prop where
  lanes : ∃ time, ∀ workspace other t', t' ∈ (b.commit h).rows.lane workspace other ↔
    (t' ∈ b.rows.lane workspace other ∧ t'.id ≠ r.task) ∨ workspace = r.workspace ∧ other = lane
      ∧ ∃ t ∈ b.rows.tasks, t.id = r.task ∧ t' = t.placed x lane time
  guards : Guards b h r.workspace lane r.task gap
  number : x.isNaN = false
  inside : gap.Contains x

section Fill

variable {r : MoveRequest} {x : Position}

theorem fills_of_settled {T : History ops} {anchors : Gap} {nearest : Option Neighbor} {a : Allocation} {w : StagedWrite}
    (hsettled : Settled r T lane anchors nearest a w) (hb : Holds b h T) (hun : ∀ s, opened T = some s → Undeleted s)
    (hg : Guards b h r.workspace lane r.task (anchors.closed nearest)) (hnumber : a.position.isNaN = false)
    (hinside : (anchors.closed nearest).Contains a.position) :
    Fills b h r lane (anchors.closed nearest) a.position where
  lanes := ⟨w.time, fun _ _ _ => hsettled.mem_lane_commit hb hun⟩
  guards := hg
  number := hnumber
  inside := hinside

theorem Fills.mem_lane (hf : Fills b h r lane gap x) {other : Lane} {t : Task}
    (ht : t ∈ (b.commit h).rows.lane workspace other) : (t ∈ b.rows.lane workspace other ∧ t.id ≠ r.task)
      ∨ workspace = r.workspace ∧ other = lane ∧ t.id = r.task ∧ t.position = x := by
  obtain ⟨time, hmem⟩ := hf.lanes
  rcases (hmem workspace other t).1 ht with hold | ⟨hworkspace, hother, t₀, _, hid, rfl⟩
  . exact .inl hold
  . exact .inr ⟨hworkspace, hother, hid, rfl⟩

theorem Fills.distinct (hf : Fills b h r lane gap x) (hd : b.rows.Distinct) : (b.commit h).rows.Distinct := by
  -- the gap is guarded, so no other row has a position of the same rank as one inside
  have hother : ∀ t ∈ b.rows.lane r.workspace lane, t.id ≠ r.task → x.rank ≠ t.position.rank := by
    intro t ht hid hrank
    apply hf.guards.clear t ht hid
    exact Between.congr hf.inside (number_of_mem_lane hd ht) hrank
  constructor
  . intro t ht hlive
    rcases hf.mem_lane (Rows.mem_own_lane ht hlive) with ⟨hold, _⟩ | ⟨_, _, _, hposition⟩
    . exact number_of_mem_lane hd hold
    . rw [hposition]
      exact hf.number
  . intro workspace other t ht u hu hrank
    rcases hf.mem_lane ht with ⟨ht, hid⟩ | ⟨rfl, rfl, hid, rfl⟩
    . rcases hf.mem_lane hu with ⟨hu, _⟩ | ⟨rfl, rfl, _, rfl⟩
      . exact hd.distinct workspace other t ht u hu hrank
      . exact absurd hrank.symm (hother t ht hid)
    . rcases hf.mem_lane hu with ⟨hu, hid'⟩ | ⟨_, _, hid', _⟩
      . exact absurd hrank (hother u hu hid')
      . exact hid.trans hid'.symm

theorem Fills.finite_commit (hf : Fills b h r lane gap x) (hx : x.isFinite = true) (hfinite : b.rows.Finite) :
    (b.commit h).rows.Finite := by
  intro t ht hlive
  rcases hf.mem_lane (Rows.mem_own_lane ht hlive) with ⟨hold, _⟩ | ⟨_, _, _, hposition⟩
  . exact hfinite t (Rows.mem_lane.1 hold).1 hlive
  . rw [hposition]
    exact hx

theorem Fills.mem_lane_or_not_contains (hf : Fills b h' r lane gap x) {other : Lane}
    (hd : b.rows.DistinctIn workspace other) {gap' : Gap} (hg : Guards b h workspace other target gap') (hh : h ≠ h') {t : Task}
    (ht : t ∈ (b.commit h').rows.lane workspace other) :
    t ∈ b.rows.lane workspace other ∨ ¬ gap'.Contains t.position := by
  rcases hf.mem_lane ht with ⟨hold, _⟩ | ⟨rfl, rfl, _, rfl⟩
  . exact .inl hold
  . exact .inr (hf.guards.disjoint hd hg (Ne.symm hh) hf.inside)

end Fill

end Board

def Request.MovesOrDeletes (q : Request) : Prop :=
  (∃ r, q = .move r) ∨ ∃ workspace id, q = .call (.delete workspace id)

theorem Request.MovesOrDeletes.isCommand {q : Request} (hq : q.MovesOrDeletes) : q.IsCommand := by
  rcases hq with ⟨r, rfl⟩ | ⟨workspace, id, rfl⟩
  . trivial
  . exact ⟨workspace, id, rfl⟩

namespace Process

/-- Every gap of a lane that was read in a transaction is guarded. -/
def GuardsGaps (workspace : WorkspaceId) (lane : Lane) (b : Board) (h : Holder) (p : Process) : Prop :=
  ∀ rest target anchors nearest seen, p.rest = some rest →
    HasRead workspace lane target anchors nearest seen p.past →
      Guards b h workspace lane target (anchors.closed nearest)

variable {post : History ops → Answer → Prop} {b b' : Board} {h h' : Holder} {p p' : Process} {q : Request}
  {r : MoveRequest} {T : History ops} {workspace : WorkspaceId} {lane : Lane} {target : TaskId} {gap : Gap}

theorem not_deletes_of_move (T : History ops) (id : TaskId) (time : Timestamp) :
    ¬ (Request.move r).protocol.allowed T (.action (.delete id time)) := by
  intro ha
  obtain ⟨_, hq⟩ := Request.delete_cases ha
  cases hq

theorem keeps_of_change {e : Event ops} (hc : Change b h e b') (hallowed : (Request.move r).protocol.allowed T e.op)
    (hstarts : e.op.starts = false) (hends : e.op.ends = false) :
    b'.rows = b.rows ∧ ∀ key, b.locks.owner? key = some h → b'.locks.owner? key = some h := by
  cases hc with
  | none _ _ _ hlocks => exact ⟨rfl, (frame_visits (LockTable.visits_of_eq hlocks)).owns⟩
  | writes => exact ⟨rfl, fun _ ho => ho⟩
  | gets _ _ _ hfree => exact ⟨rfl, (frame_tryAcquire hfree).owns⟩
  | starts he =>
    cases he
    cases hstarts
  | commits he =>
    cases he
    cases hends
  | releases he =>
    cases he
    cases hends
  | inserts he =>
    cases he
    obtain ⟨_, hq⟩ := Request.insert_cases hallowed trivial
    cases hq
  | deletes he =>
    cases he
    exact absurd hallowed (not_deletes_of_move _ _ _)

/-- Unless a move starts or ends a transaction at its turn, the rows stay the same, and it keeps its locks. -/
theorem Steps.keeps (hs : Steps h b p b' p') (hp : p.Orderly (Request.move r).protocol post b h) {rest : Working Answer}
    (hrest : p'.rest = some rest) (hopen : ∀ e, p'.past = e :: p.past → e.op.starts = false ∧ e.op.ends = false) :
    b'.rows = b.rows ∧ ∀ key, b.locks.owner? key = some h → b'.locks.owner? key = some h := by
  cases hs with
  | stays hlocks => exact ⟨rfl, (frame_visits hlocks).owns⟩
  | drops => cases hrest
  | answered => exact ⟨rfl, fun _ ho => ho⟩
  | acts past next ha =>
    obtain ⟨hstarts, hends⟩ := hopen _ rfl
    exact keeps_of_change (act_change ha) (hp.obeys _ rfl).1 hstarts hends
  | waits past next ha =>
    rw [(act_blocking ha).board]
    refine ⟨rfl, ?_⟩
    intro key ho
    dsimp only
    rw [LockTable.owner?_enqueue]
    exact ho
  | givesUp past next ha =>
    rw [(act_blocking ha).board]
    refine ⟨rfl, ?_⟩
    intro key ho
    unfold leave
    rw [LockTable.owner?_leave, LockTable.owner?_enqueue]
    exact ho

variable {anchors : Gap} {nearest : Option Neighbor} {seen : History ops}

/-- What a move knows of a gap that it looks at: the border is its own, and without anchors it has missed at most rows that
are not below infinity. -/
structure LooksInto (b : Board) (h : Holder) (workspace : WorkspaceId) (lane : Lane) (target : TaskId) (anchors gap : Gap) :
    Prop where
  border : OwnsBorder b h workspace lane target gap
  missed : ∀ t ∈ b.rows.lane workspace lane, t.id ≠ target → gap.Contains t.position →
    anchors.isOpen = true ∧ ¬ t.position < Binary64.infinity

theorem looks_of_happens {e : Event ops} {next : e.op.Reply → Working Answer}
    (hp : Orderly (Request.move r).protocol post b h ⟨T, some (.perform (I := ops) e.op next)⟩)
    (hnumber : ∀ t ∈ b.rows.lane workspace lane, t.position.isNaN = false) (he : Happens h b e b')
    (heq : e = ⟨.action (.adjacent workspace lane anchors.lookout.1 anchors.lookout.2 target), nearest⟩) {s : History ops}
    (hs : opened T = some s) (hsecured : Secured s workspace lane target anchors (anchors.closed nearest)) :
    LooksInto b h workspace lane target anchors (anchors.closed nearest) := by
  have hl : Lawful (Request.move r).protocol (e :: T) :=
    ⟨⟨(hp.obeys _ rfl).1, (Request.protocol_refines.honest _ _).2 he.isHonest⟩, hp.lawful⟩
  have hholds := hp.holds _ rfl
  have hun := undeleted_of_lawful not_deletes_of_move hp.lawful hs
  -- a lane is read before anything is written in its transaction, so the committed rows are seen
  have hread := Request.readFrom_of_happens he hl hholds
  rw [heq] at hread
  constructor
  . exact ownsBorder_of_secured hholds hs hun hsecured hread (hp.lawful.refines Request.protocol_refines)
  . intro t ht hid hin
    by_contra hend
    apply clear_of_secured hholds hs hun hsecured hread hnumber ht hid _ hin
    intro hopen
    by_contra hnot
    exact hend ⟨hopen, hnot⟩

/-- A gap that a move has read after its turn was read before, or it is read now. -/
theorem Steps.hasRead (hs : Steps h b p b' p') (hp : p.Orderly (Request.move r).protocol post b h)
    (hnumber : ∀ t ∈ b.rows.lane workspace lane, t.position.isNaN = false) {rest : Working Answer}
    (hrest : p'.rest = some rest) (hread : HasRead workspace lane target anchors nearest seen p'.past) :
    b'.rows = b.rows ∧ (∀ key, b.locks.owner? key = some h → b'.locks.owner? key = some h)
      ∧ ((∃ rest, p.rest = some rest) ∧ HasRead workspace lane target anchors nearest seen p.past
        ∨ (∃ older, seen = ⟨.action (.adjacent workspace lane anchors.lookout.1 anchors.lookout.2 target), nearest⟩ :: older)
          ∧ p'.past = seen ∧ LooksInto b h workspace lane target anchors (anchors.closed nearest)) := by
  have hopen : ∀ e, p'.past = e :: p.past → e.op.starts = false ∧ e.op.ends = false := by
    intro e heq
    rw [heq] at hread
    cases hread with
    | looked => exact ⟨rfl, rfl⟩
    | later _ hstarts hends => exact ⟨hstarts, hends⟩
  obtain ⟨hrows, howner⟩ := hs.keeps hp hrest hopen
  refine ⟨hrows, howner, ?_⟩
  rcases hs.idles_or_happens with ⟨rfl | rfl, _⟩ | ⟨e, next, hperform, rfl, he⟩
  . exact .inl ⟨⟨rest, hrest⟩, hread⟩
  . cases hrest
  . obtain ⟨T, rest⟩ := p
    cases hperform
    generalize hx : e :: T = past at hread
    cases hread with
    | looked hs hsecured =>
      obtain ⟨heq, rfl⟩ := List.cons.inj hx
      exact .inr ⟨⟨_, rfl⟩, rfl, looks_of_happens hp hnumber he heq hs hsecured⟩
    | later hread _ _ =>
      obtain ⟨_, rfl⟩ := List.cons.inj hx
      exact .inl ⟨⟨_, rfl⟩, hread⟩

theorem Steps.guardsGaps (hs : Steps h b p b' p') (hp : p.Orderly (Request.move r).protocol post b h)
    (hd : b.rows.DistinctIn workspace lane) (hfinite : b.rows.Finite) (hg : p.GuardsGaps workspace lane b h) :
    p'.GuardsGaps workspace lane b' h := by
  intro rest target anchors nearest seen hrest hread
  obtain ⟨hrows, howner, hcase⟩ := hs.hasRead hp hd.number hrest hread
  have hguards : Guards b h workspace lane target (anchors.closed nearest) := by
    rcases hcase with ⟨⟨_, hrunning⟩, hbefore⟩ | ⟨_, _, hlooks⟩
    . exact hg _ _ _ _ _ hrunning hbefore
    . refine ⟨hlooks.border, ?_⟩
      intro t ht hid hin
      obtain ⟨hmem, hlane⟩ := Rows.mem_lane.1 ht
      exact (hlooks.missed t ht hid hin).2 (Binary64.lt_infinity (hfinite t hmem (Task.isInLane_iff.1 hlane).1))
  constructor
  . apply hguards.toOwnsBorder.mono howner
    intro id t _ ht
    rwa [hrows]
  . apply hguards.clear.mono
    intro t ht _
    rw [hrows] at ht
    exact .inl ht

theorem fills_of_commit {rest : Working Answer} (hrest : p.rest = some rest)
    (hp : p.Orderly (Request.move r).protocol post b h) (ha : (Request.move r).protocol.allowed p.past (.action .commit))
    (hg : ∀ lane, p.GuardsGaps r.workspace lane b h) (hinside : ∀ e ∈ p.past, AllocatesInside e) :
    ∃ lane gap a, Lane.parse r.lane = .ok lane ∧ allotted? p.past = some (gap.bounds, a)
      ∧ Fills b h r lane gap a.position ∧ a.position.isFinite = true := by
  obtain ⟨lane, anchors, nearest, a, w, hsettled⟩ := Request.settled_of_commit ha hp.lawful
  obtain ⟨seen, hread⟩ := hsettled.read
  obtain ⟨e, he, hallocates⟩ := List.exists_of_findSome?_eq_some hsettled.allotted
  obtain ⟨hfinite, hcontains⟩ := hinside e he _ _ a hallocates
  have hun : ∀ s, opened p.past = some s → Undeleted s :=
    fun _ => undeleted_of_lawful not_deletes_of_move hp.lawful
  refine ⟨lane, anchors.closed nearest, a, hsettled.parsed, hsettled.allotted, ?_, hfinite⟩
  apply fills_of_settled hsettled (hp.holds rest hrest) hun
  . exact hg lane rest r.task anchors nearest seen hrest hread
  . exact Binary64.isNaN_of_isFinite hfinite
  . exact hcontains

/-- All that can become of the rows at the turn of a move or a deletion. -/
inductive Reshapes (b : Board) (h : Holder) : Rows → Prop where
  | none : Reshapes b h b.rows
  | deletes (id : TaskId) (time : Timestamp) : Reshapes b h (b.delete id time).rows
  | fills {r : MoveRequest} {lane : Lane} {gap : Gap} {x : Position} (hf : Fills b h r lane gap x)
    (hx : x.isFinite = true) : Reshapes b h (b.commit h).rows

theorem Steps.reshapes (hs : Steps h b p b' p') (hp : p.Orderly q.protocol post b h) (hq : q.MovesOrDeletes)
    (hg : ∀ r, q = .move r → ∀ lane, p.GuardsGaps r.workspace lane b h) (hinside : ∀ e ∈ p.past, AllocatesInside e) :
    Reshapes b h b'.rows := by
  have heffect := hs.effect hp
  generalize b'.rows = rows at heffect
  cases heffect with
  | none => exact .none
  | inserts ha hrows =>
    exfalso
    rcases hq with ⟨r, rfl⟩ | ⟨workspace, id, rfl⟩
    . obtain ⟨_, hq⟩ := Request.insert_cases ha trivial
      cases hq
    . obtain ⟨_, hq⟩ := Request.insert_cases ha ⟨workspace, id, rfl⟩
      cases hq
  | deletes ha => exact .deletes ..
  | commits hrest ha =>
    rcases hq with ⟨r, rfl⟩ | ⟨workspace, id, rfl⟩
    . obtain ⟨_, _, _, _, _, hf, hx⟩ := fills_of_commit hrest hp ha (hg r rfl) hinside
      exact .fills hf hx
    . obtain ⟨s, hs⟩ := (Request.protocol_refines.allowed _ _ ha).ends rfl
      rw [Request.rows_commit_of_deletion (hp.holds _ hrest) hp.lawful hs]
      exact .none

theorem Reshapes.guards (hr : Reshapes b h' b'.rows) (hf : Frame b b' h) (hh : h ≠ h')
    (hd : b.rows.DistinctIn workspace lane)
    (hg : Guards b h workspace lane target gap) : Guards b' h workspace lane target gap := by
  refine ⟨hg.toOwnsBorder.mono hf.owns hf.rows, hg.clear.mono ?_⟩
  intro t ht _
  generalize b'.rows = rows at hr ht
  cases hr with
  | none => exact .inl ht
  | deletes => exact .inl (mem_lane_delete.1 ht).1
  | fills hfills => exact hfills.mem_lane_or_not_contains hd hg hh ht

theorem Reshapes.distinct {rows : Rows} (hr : Reshapes b h rows) (hd : b.rows.Distinct) : rows.Distinct := by
  cases hr with
  | none => exact hd
  | deletes => exact distinct_delete hd
  | fills hf => exact hf.distinct hd

theorem Reshapes.finite {rows : Rows} (hr : Reshapes b h rows) (hfinite : b.rows.Finite) : rows.Finite := by
  cases hr with
  | none => exact hfinite
  | deletes => exact finite_delete hfinite
  | fills hf hx => exact hf.finite_commit hx hfinite

end Process

namespace Crowd

/-- Positions are finite and pairwise different, and every gap that was read is guarded. -/
structure Guarded (requests : Holder → Request) (c : Crowd) : Prop where
  orderly : c.Orderly (fun h => (requests h).protocol) (Answered requests)
  distinct : c.board.rows.Distinct
  finite : c.board.rows.Finite
  guards : ∀ h r, requests h = .move r → ∀ workspace lane, (c.processes h).GuardsGaps workspace lane c.board h

variable {c : Crowd} {requests : Holder → Request} {b : Board}

theorem Guarded.turn (hc : c.Guarded requests) (hq : ∀ h, (requests h).MovesOrDeletes)
    (hinside : c.Witnessed AllocatesInside) (h : Holder) (t : Turn) : (c.turn h t).Guarded requests := by
  have hs := c.steps_turn h t
  have hp := hc.orderly.processes h
  have hreshapes := hs.reshapes hp (hq h) (fun r hr => hc.guards h r hr r.workspace) (hinside h)
  constructor
  . exact hc.orderly.turn (fun _ => Request.protocol_refines) h t
  . exact hreshapes.distinct hc.distinct
  . exact hreshapes.finite hc.finite
  . intro h' r hr workspace lane
    have hd := hc.distinct.lane workspace lane
    -- a move may have read another gap at its own turn; the turns of the others keep its gap guarded
    by_cases hh : h' = h
    . subst hh
      rw [hr] at hp
      exact hs.guardsGaps hp hd hc.finite (hc.guards h' r hr workspace lane)
    . rw [processes_turn_of_ne hh]
      have hframe := hs.frame Request.protocol_refines hp hc.orderly.keyed hh
      intro rest target anchors nearest seen hrest hread
      apply hreshapes.guards hframe hh hd
      exact hc.guards h' r hr workspace lane rest target anchors nearest seen hrest hread

theorem guarded_run (hb : b.locks.Idle) (hd : b.rows.Distinct) (hfinite : b.rows.Finite)
    (hq : ∀ h, (requests h).MovesOrDeletes) (turns : List (Holder × Turn))
    (hinside : ((start b requests).run turns).Witnessed AllocatesInside) :
    ((start b requests).run turns).Guarded requests := by
  apply run_induction AllocatesInside (Guarded requests) _ _ turns hinside
  . constructor
    . exact orderly_run hb (fun h => (hq h).isCommand) []
    . exact hd
    . exact hfinite
    . rintro h r _ workspace lane _ _ _ _ _ _ ⟨⟩
  . intro c h t hc hw
    exact hc.turn hq hw.of_turn h t

/-- However moves and deletions take turns, the live rows of a lane never share a position, and when a move commits no
row but its target is inside of the gap that it has allocated in. -/
theorem moves_stay_apart (hb : b.locks.Idle) (hd : b.rows.Distinct) (hfinite : b.rows.Finite)
    (hq : ∀ h, (requests h).MovesOrDeletes) (turns : List (Holder × Turn))
    (hinside : ((start b requests).run turns).Witnessed AllocatesInside) :
    ((start b requests).run turns).board.rows.Distinct
      ∧ ∀ h r, requests h = .move r → (((start b requests).run turns).processes h).commits = true →
        ∃ lane before after a, Lane.parse r.lane = .ok lane
          ∧ allotted? (((start b requests).run turns).processes h).past = some ((before, after), a)
          ∧ (∀ t ∈ ((start b requests).run turns).board.rows.lane r.workspace lane, t.id ≠ r.task →
            ¬ Between before after t.position)
          ∧ ∀ t ∈ (((start b requests).run turns).board.commit h).rows.lane r.workspace lane, t.id ≠ r.task →
            ¬ Between before after t.position := by
  have hc := guarded_run hb hd hfinite hq turns hinside
  refine ⟨hc.distinct, ?_⟩
  intro h r hr hcommits
  obtain ⟨next, hrest⟩ := Process.rest_of_commits hcommits
  have hp := hc.orderly.processes h
  rw [hr] at hp
  obtain ⟨lane, gap, a, hlane, hallotted, hf, _⟩ :=
    Process.fills_of_commit hrest hp (hp.obeys _ hrest).1 (hc.guards h r hr r.workspace) (hinside h)
  refine ⟨lane, gap.bounds.1, gap.bounds.2, a, hlane, hallotted, hf.guards.clear, ?_⟩
  intro t ht hid
  rcases hf.mem_lane ht with ⟨hold, _⟩ | ⟨_, _, htarget, _⟩
  . exact hf.guards.clear t hold hid
  . exact absurd htarget hid

section Race

/-- Two moves to the same place of a lane. The first one is about to commit, and the second one waits for it. -/
def raceRequests (h : Holder) : Request :=
  .move ⟨Sample.workspace, Sample.id (3 + h % 2), Sample.actor, "todo", none, some (Sample.id 1)⟩

def raceRows : Rows where
  tasks := [Sample.task 1 .todo 1000, Sample.task 2 .todo 2000, Sample.task 3 .todo 3000, Sample.task 4 .todo 4000]
  nodup := by decide

def race : Crowd :=
  (start (Sample.board raceRows) raceRequests).run (Sample.turns [0, 1, 0, 1, 0, 1, 0, 1, 0, 0, 0, 0, 0, 0, 0])

theorem distinct_raceRows : raceRows.Distinct :=
  Rows.distinct_of_tasks (by decide +kernel) (by decide +kernel)

theorem finite_raceRows : raceRows.Finite := by
  have hfinite : ∀ t ∈ raceRows.tasks, t.position.isFinite = true := by decide +kernel
  exact fun t ht _ => hfinite t ht

theorem witnessed_race : race.Witnessed AllocatesInside :=
  witnessed_run (by decide +kernel)

theorem moves_stay_apart_race : race.board.rows.Distinct
    ∧ ∃ lane before after a, Lane.parse "todo" = .ok lane
      ∧ allotted? (race.processes 0).past = some ((before, after), a)
      ∧ ∀ t ∈ (race.board.commit 0).rows.lane Sample.workspace lane, t.id ≠ Sample.id 3 →
        ¬ Between before after t.position := by
  have hmoves : ∀ h, (raceRequests h).MovesOrDeletes := fun _ => .inl ⟨_, rfl⟩
  have hrace := witnessed_race
  unfold race at hrace ⊢
  obtain ⟨hdistinct, hcommits⟩ := moves_stay_apart LockTable.idle_empty distinct_raceRows finite_raceRows hmoves _
    hrace
  refine ⟨hdistinct, ?_⟩
  obtain ⟨lane, before, after, a, hlane, hallotted, _, hclear⟩ := hcommits 0 _ rfl (by decide +kernel)
  exact ⟨lane, before, after, a, hlane, hallotted, hclear⟩

end Race

end Crowd

end LaneOrder
