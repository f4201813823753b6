import LaneOrder.Proofs.Command.Retries
import LaneOrder.Proofs.Crowd.Moves

/-!
This module contains why retries of a move make progress. A row whose lock was planned is not busy when it is found next to
an anchor: its lock is owned, so it cannot have left the lane since it was found there, whether it had been in the lane
when it was locked or not. What makes an attempt retry is therefore always something that its plan lacks.
-/

namespace LaneOrder

open Board Program

namespace Board

variable {b b' : Board} {h : Holder} {e : Event ops} {s T : History ops} {workspace : WorkspaceId} {lane : Lane} {id : TaskId}

/-- A row was found next to a position of a lane after its lock was taken. -/
def Spots (s : History ops) (workspace : WorkspaceId) (lane : Lane) (id : TaskId) : Prop :=
  ∃ newer pivot direction exclude n older,
    s = newer ++ ⟨.action (.adjacent workspace lane pivot direction exclude), some n⟩ :: older ∧ n.id = id
      ∧ Gets older (.row id)

theorem Spots.gets (hs : Spots s workspace lane id) : Gets s (.row id) := by
  obtain ⟨newer, _, _, _, _, older, rfl, _, e, he, hgets⟩ := hs
  exact ⟨e, by simp [he], hgets⟩

theorem not_spots_nil : ¬ Spots [] workspace lane id := by
  intro hs
  obtain ⟨_, he, _⟩ := hs.gets
  cases he

theorem spots_cons_inv (hs : Spots (e :: s) workspace lane id) :
    (∃ pivot direction exclude n, e = ⟨.action (.adjacent workspace lane pivot direction exclude), some n⟩ ∧ n.id = id)
      ∨ Spots s workspace lane id := by
  obtain ⟨newer, pivot, direction, exclude, n, older, heq, hid, hgets⟩ := hs
  cases newer with
  | nil =>
    cases heq
    exact .inl ⟨pivot, direction, exclude, n, rfl, hid⟩
  | cons e' newer =>
    cases heq
    exact .inr ⟨newer, pivot, direction, exclude, n, older, rfl, hid, hgets⟩

theorem Frame.mem_laneIds (hf : Frame b b' h) (howner : b.locks.owner? (.row id) = some h)
    (hid : id ∈ b.rows.laneIds workspace lane) : id ∈ b'.rows.laneIds workspace lane := by
  obtain ⟨t, ht, rfl⟩ := Rows.mem_laneIds.1 hid
  obtain ⟨hmem, hlane⟩ := Rows.mem_lane.1 ht
  have hfind := hf.rows t.id t howner (Rows.find?_eq_some.2 ⟨hmem, rfl⟩)
  exact Rows.mem_laneIds.2 ⟨t, mem_lane_of_find? hfind hlane, rfl⟩

theorem granted_of_lockRow {wanted : Task → Bool} {missing : StoreError} {E : History ops} {reply : Except StoreError Task}
    (h : Ends (lockRow id wanted missing) E reply) (hreply : reply ≠ .error (timedOut (.row id))) :
    ∃ row, E = [⟨.action (.lockRow id), .granted row⟩] := by
  obtain ⟨granted, E₁, E₂, hask, hrest, rfl⟩ := ends_bind h
  cases ends_ask hask
  cases granted with
  | refused => exact absurd (ends_done.1 hrest).2.symm hreply
  | granted row =>
    refine ⟨row, ?_⟩
    dsimp only at hrest
    split at hrest <;> cases (ends_done.1 hrest).1 <;> rfl

theorem gets_of_grants {t : History calls} {e : Event calls} (hm : Mirrors carryOut t s) (he : e ∈ t)
    (hgrants : e.grants? = some id) : Gets s (.row id) := by
  obtain ⟨E, hE, hmem⟩ := hm.mem he
  obtain ⟨row, rfl⟩ : ∃ row, E = [⟨.action (.lockRow id), .granted row⟩] := by
    unfold Event.grants? at hgrants
    split at hgrants <;> cases hgrants
    . exact granted_of_lockRow hE nofun
    . exact granted_of_lockRow hE nofun
    . exact granted_of_lockRow hE nofun
  exact ⟨_, hmem _ (List.mem_singleton_self _), rfl⟩

theorem ends_tryLockNeighbor_none {E : History ops} (h : Ends (carryOut (.tryLockNeighbor workspace lane id)) E (.ok none)) :
    ∃ granted, E = [⟨.action (.tryLockRow id), granted⟩]
      ∧ ∀ row, granted = .granted (some row) → row.isInLane workspace lane = false := by
  obtain ⟨granted, E₁, E₂, hask, hrest, rfl⟩ := ends_bind h
  cases ends_ask hask
  refine ⟨granted, ?_⟩
  cases granted with
  | refused =>
    obtain ⟨rfl, _⟩ := ends_done.1 hrest
    exact ⟨rfl, by rintro row ⟨⟩⟩
  | granted seen =>
    obtain ⟨rfl, heq⟩ := ends_done.1 hrest
    refine ⟨rfl, ?_⟩
    rintro row ⟨⟩
    simpa using heq

theorem spots_of_mirrors {newer older : History calls} {pivot : Position} {direction : Direction} {target : TaskId}
    {n : Neighbor} {e : Event calls}
    (hm : Mirrors carryOut (newer ++ ⟨.adjacent workspace lane pivot direction target, .ok (some n)⟩ :: older) s)
    (he : e ∈ older) (hgrants : e.grants? = some n.id) : Spots s workspace lane n.id := by
  obtain ⟨s₁, s₂, rfl, _, hm₁⟩ := hm.of_append
  obtain ⟨E, s₃, rfl, hread, hm₂⟩ := hm₁.cons_inv
  cases ends_adjacent hread
  exact ⟨s₁, _, _, _, n, s₃, rfl, rfl, gets_of_grants hm₂ he hgrants⟩

theorem mem_laneIds_of_sees (hb : Holds b h T) (hs : opened T = some s) (hun : Undeleted s) {row : Task}
    (hsees : Sees s row) (hlane : row.isInLane workspace lane = true) : row.id ∈ b.rows.laneIds workspace lane :=
  Rows.mem_laneIds.2 ⟨row, mem_lane_of_find? (hb.rows s row hs hun hsees) hlane, rfl⟩

end Board

namespace Process

variable {post : History ops → Answer → Prop} {b b' : Board} {h h' : Holder} {p p' : Process} {r : MoveRequest}
  {T : History ops} {workspace : WorkspaceId} {lane : Lane}

/-- What a transaction has found in a lane after it had locked it is still there. -/
def Watches (workspace : WorkspaceId) (lane : Lane) (b : Board) (p : Process) : Prop :=
  ∀ rest s id, p.rest = some rest → opened p.past = some s → Spots s workspace lane id →
    id ∈ b.rows.laneIds workspace lane

theorem Watches.frame {P : Protocol ops} (hw : p.Watches workspace lane b) (hp : p.Orderly P post b h) (hf : Frame b b' h) :
    p.Watches workspace lane b' := by
  intro rest s id hrest hs hspots
  apply hf.mem_laneIds
  . exact (hp.holds rest hrest).owns s _ hs hspots.gets
  . exact hw rest s id hrest hs hspots

theorem rows_of_happens {e : Event ops} (he : Happens h b e b') (hallowed : (Request.move r).protocol.allowed T e.op)
    (hstarts : e.op.starts = false) (hends : e.op.ends = false) : b'.rows = b.rows := by
  cases he with
  | answered => rfl
  | acts ha => exact (keeps_of_change (act_change ha) hallowed hstarts hends).1
  | givesUp ha =>
    rw [(act_blocking ha).board]
    rfl

theorem Steps.watches (hs : Steps h b p b' p') (hp : p.Orderly (Request.move r).protocol post b h)
    (hw : p.Watches workspace lane b) : p'.Watches workspace lane b' := by
  have hp' := hs.orderly Request.protocol_refines hp
  rcases hs.idles_or_happens with ⟨hidle, hrows, _⟩ | ⟨e, next, hrest, rfl, he⟩
  . rcases hidle with rfl | rfl
    . intro rest s id hrest hs hspots
      rw [hrows]
      exact hw rest s id hrest hs hspots
    . rintro _ _ _ ⟨⟩
  . intro _ s id _ hs hspots
    have hallowed := hp'.lawful.1.1
    cases hstarts : e.op.starts with
    | true =>
      rw [show opened (e :: p.past) = some [] from opened_start hstarts] at hs
      cases hs
      exact absurd hspots not_spots_nil
    | false =>
      cases hends : e.op.ends with
      | true =>
        rw [show opened (e :: p.past) = none from opened_end hstarts hends] at hs
        cases hs
      | false =>
        obtain ⟨s', hs', rfl⟩ := (opened_cons_eq_some hstarts hends).1 hs
        rw [rows_of_happens he hallowed hstarts hends]
        rcases spots_cons_inv hspots with ⟨pivot, direction, exclude, n, rfl, rfl⟩ | hold
        . have hread := Request.readFrom_of_happens he hp'.lawful (hp.holds _ hrest)
          obtain ⟨t, ht, rfl, _⟩ := mem_lane_of_adjacent hread
          exact Rows.mem_laneIds.2 ⟨t, ht, rfl⟩
        . exact hw _ s' id hrest hs' hold

/-- Whoever owns the lock of a row that is in the lane gets the row when it tries to lock it. -/
theorem tryLockRow_of_owns {id : TaskId} {granted : Grant (Option Task)} {s : History ops} {q : Request}
    (he : Happens h b ⟨.action (.tryLockRow id), granted⟩ b') (hb : Holds b h T) (hs : opened T = some s)
    (hallowed : q.protocol.allowed T (.action (.tryLockRow id))) (hgets : Gets s (.row id))
    (hid : id ∈ b.rows.laneIds workspace lane) :
    ∃ row, granted = .granted (some row) ∧ row.isInLane workspace lane = true := by
  have howner := hb.owns s _ hs hgets
  have hfree : ((b.locks.asked h).tryAcquire h (.row id)).1 = true := by
    rw [LockTable.tryAcquire_fst]
    intro holder hholder
    exact (Option.some.inj (howner.symm.trans hholder)).symm
  obtain ⟨row, hrow, rfl⟩ := Rows.mem_laneIds.1 hid
  obtain ⟨hmem, hlane⟩ := Rows.mem_lane.1 hrow
  refine ⟨row, ?_, hlane⟩
  have hact : b.act h (.tryLockRow row.id) = .replied (.granted (some row))
      { b with locks := ((b.locks.asked h).tryAcquire h (.row row.id)).2 } := by
    unfold act tryAcquire
    dsimp only
    rw [hb.tx s hs, Request.view_of_prepares hb hallowed rfl, Rows.find?_eq_some.2 ⟨hmem, rfl⟩]
    dsimp only
    rw [show (b.locks.asked h).tryAcquire h (.row row.id) = (true, _) from Prod.ext hfree rfl]
  cases he with
  | acts ha =>
    rw [hact] at ha
    cases ha
    rfl
  | givesUp ha =>
    rw [hact] at ha
    cases ha

end Process

namespace Crowd

variable {b : Board} {requests : Holder → Request} {c : Crowd} {h : Holder} {r : MoveRequest} {lane : Lane}
  {H E : History calls}

def Watching (requests : Holder → Request) (c : Crowd) : Prop :=
  ∀ h r, requests h = .move r → ∀ workspace lane, (c.processes h).Watches workspace lane c.board

theorem Watching.turn (hc : c.Watching requests)
    (ho : c.Orderly (fun h => (requests h).protocol) (Answered requests)) (h : Holder) (t : Turn) :
    (c.turn h t).Watching requests := by
  intro h' r hr workspace lane
  have hs := c.steps_turn h t
  by_cases hh : h' = h
  . subst hh
    have hp := ho.processes h'
    rw [hr] at hp
    exact hs.watches hp (hc h' r hr workspace lane)
  . rw [processes_turn_of_ne hh]
    apply (hc h' r hr workspace lane).frame (ho.processes h')
    exact hs.frame Request.protocol_refines (ho.processes h) ho.keyed hh

theorem watching_run (hb : b.locks.Idle) (hcommands : ∀ h, (requests h).IsCommand) (turns : List (Holder × Turn)) :
    ((start b requests).run turns).Watching requests := by
  apply orderly_induction hb hcommands (fun _ => True) (Watching requests)
  . intro h _ _ _ _ _ _ _ _ hs
    cases hs
  . exact fun c h t ho hc _ => hc.turn ho h t
  . exact fun _ _ _ => trivial

/-- These are the first calls of a command, and how they were answered. -/
def HasCalled (c : Crowd) (h : Holder) (H : History calls) : Prop :=
  ∃ newer T, (c.processes h).past = newer ++ T ∧ Mirrors carryOut H T

/-- A row that an attempt finds busy is not in its plan. -/
theorem unplanned_of_busy (hb : b.locks.Idle) (hcommands : ∀ h, (requests h).IsCommand) {turns : List (Holder × Turn)}
    (hr : requests h = .move r) {plan : LockPlan} {id : TaskId} (hbusy : Move.FindsBusy r lane plan E id)
    (hinner : ∀ e ∈ E, e.op.starts = false ∧ e.op.ends = false)
    (hcalled : ((start b requests).run turns).HasCalled h (E ++ ⟨.begin, .ok ()⟩ :: H)) : plan.contains id = false := by
  obtain ⟨target, anchors, held, nearest, locks, checked, taken, rfl, hid, htaken⟩ := hbusy
  obtain ⟨newer, T, hpast, hm⟩ := hcalled
  obtain ⟨E₁, T₁, rfl, htry, hm₁⟩ := hm.cons_inv
  obtain ⟨granted, rfl, hgranted⟩ := ends_tryLockNeighbor_none htry
  rw [List.singleton_append] at hpast
  -- the turn at which the row was found busy
  obtain ⟨early, t, late, next, rfl, hrest, _, hhappens⟩ := happened rfl hpast
  have hp := (orderly_run hb hcommands early).processes h
  rw [hr, hrest] at hp
  have hholds := hp.holds _ rfl
  have hallowed := (hp.obeys _ rfl).1
  obtain ⟨s, hs, hms⟩ := opened_of_transacted hm₁
    (since_append (List.forall_mem_cons.1 hinner).2 transacted_begin)
  rw [List.append_nil] at hms
  have hun := undeleted_of_lawful Process.not_deletes_of_move hp.lawful hs
  rw [← Bool.not_eq_true]
  intro hplanned
  have hfound : Gets s (.row id) ∧ id ∈ ((start b requests).run early).board.rows.laneIds r.workspace lane := by
    rcases Gap.mem_rows_closed hid with hanchor | hnearest
    . obtain ⟨other, row, hmem, rfl⟩ := htaken.anchors id hanchor
      obtain ⟨hsees, hlane⟩ := sees_of_lockNeighbor hms
        (List.mem_append_right _ (List.mem_cons_of_mem _ (List.mem_append_right _ hmem)))
      exact ⟨hsees.gets (hp.lawful.refines Request.protocol_refines) hs, mem_laneIds_of_sees hholds hs hun hsees hlane⟩
    . obtain ⟨n, rfl, rfl⟩ := Option.map_eq_some_iff.1 hnearest
      obtain ⟨step, hstep, hsame⟩ := LockPlan.exists_of_contains hplanned
      obtain ⟨e, he, hgrants⟩ := htaken.steps step hstep
      rw [hsame] at hgrants
      have hspots := spots_of_mirrors hms (List.mem_append_right _ he) hgrants
      refine ⟨hspots.gets, ?_⟩
      have hwatches := watching_run hb hcommands early h r hr r.workspace lane
      rw [hrest] at hwatches
      exact hwatches _ _ _ rfl hs hspots
  obtain ⟨row, hrow, hlane⟩ := Process.tryLockRow_of_owns hhappens hholds hs hallowed hfound.1 hfound.2
  rw [hgranted row hrow] at hlane
  cases hlane

/-- However commands take turns, whenever an attempt of a move ends in a retry, the next attempt has a plan that exceeds the
last one. Only if all reads of the gap were used up it may be the same; then it plans the seed if it was obtained. -/
theorem retries_make_progress (hb : b.locks.Idle) (hcommands : ∀ h, (requests h).IsCommand) (turns : List (Holder × Turn))
    (hr : requests h = .move r) {n : Nat} {plan wider : LockPlan} (hretries : Move.Retries r lane n plan wider H E)
    (hcalled : ((start b requests).run turns).HasCalled h (E ++ ⟨.begin, .ok ()⟩ :: H)) :
    Leaves (I := calls) (moveTask r) (E ++ ⟨.begin, .ok ()⟩ :: H) (do
        abandon
        note .gapRetried
        Move.attempts r lane n wider)
      ∧ E.countP (·.op.looks) ≤ Gap.maxChecks
      ∧ (¬ Gap.UsesUpReads E → wider.Exceeds plan)
      ∧ (Gap.UsesUpReads E → wider.Includes plan ∧ (Seeds E r.workspace lane → wider.laneSeed = true)) := by
  refine ⟨hretries.goes_on, ?_⟩
  obtain ⟨hlooks, hcase⟩ := (Move.retreats_of_retry hretries.ends).retryCase
  refine ⟨hlooks, ?_⟩
  cases hcase with
  | unsettled hused hincludes hseeds => exact ⟨fun hunused => absurd hused hunused, fun _ => ⟨hincludes, hseeds⟩⟩
  | busySeed hnoted hexceeds => exact ⟨fun _ => hexceeds, fun hused => absurd hused.noted hnoted⟩
  | busyRow hnoted hbusy hwider =>
    refine ⟨fun _ => ?_, fun hused => absurd hused.noted hnoted⟩
    have hinner : ∀ e ∈ E, e.op.starts = false ∧ e.op.ends = false := fun e he =>
      Call.not_boundary_of_within (Move.only_place.of_ends hretries.ends e he)
    rw [hwider]
    exact LockPlan.exceeds_withBounds (unplanned_of_busy hb hcommands hr hbusy hinner hcalled)

namespace Retreat

/-- A move to the end of a lane whose last row everybody else wants to delete. -/
def move : MoveRequest :=
  ⟨Sample.workspace, Sample.id 2, Sample.actor, "todo", none, none⟩

def commands (h : Holder) : Request :=
  if h = 0 then .move move else .call (.delete Sample.workspace (Sample.id 1))

def rows : Rows where
  tasks := [Sample.task 1 .todo 1000, Sample.task 2 .cancelled 1000]
  nodup := by decide

def turns : List (Holder × Turn) :=
  Sample.turns [1, 1, 0, 0, 0, 0, 0]

def wider : LockPlan where
  laneSeed := false
  steps := [⟨Sample.id 1, .bound⟩, ⟨Sample.id 2, .target⟩]

def role : Event calls :=
  ⟨.role Sample.actor Sample.workspace, .ok .owner⟩

def attempt : History calls :=
  [⟨.tryLockNeighbor Sample.workspace .todo (Sample.id 1), .ok none⟩,
    ⟨.adjacent Sample.workspace .todo Binary64.infinity .below (Sample.id 2), .ok (some ⟨Sample.id 1, .ofNat 1000⟩)⟩,
    ⟨.lockTarget Sample.workspace (Sample.id 2), .ok (Sample.task 2 .cancelled 1000)⟩]

theorem isCommand_commands (h : Holder) : (commands h).IsCommand := by
  unfold commands
  split
  . trivial
  . exact ⟨_, _, rfl⟩

theorem ends_place : Ends (I := calls) (Move.place move .todo move.plan) attempt (.ok (.retry wider)) := by
  refine ends_perform.2 ?_
  refine ⟨Except.ok (Sample.task 2 .cancelled 1000), attempt.take 2, ?_, rfl⟩
  refine ends_perform.2 ?_
  refine ⟨Except.ok (some ⟨Sample.id 1, .ofNat 1000⟩), attempt.take 1, ?_, rfl⟩
  refine ends_perform.2 ?_
  exact ⟨Except.ok none, [], .done _, rfl⟩

theorem retries : Move.Retries move .todo 7 move.plan wider [role] attempt where
  starts := by
    have hparsed : Lane.parse "todo" = .ok .todo := by decide +kernel
    have hnext : Leaves (I := calls) (withLane "todo" fun lane => Move.attempts move lane 8 move.plan) []
        (Move.attempts move .todo 8 move.plan) := by
      unfold withLane
      rw [hparsed]
      exact .here _
    exact ((Leaves.here (I := calls) (moveTask move)).push (Except.ok Role.owner)).trans hnext
  ends := ends_place

set_option maxRecDepth 4000 in
theorem hasCalled : ((start (Sample.board rows) commands).run turns).HasCalled 0 (attempt ++ ⟨.begin, .ok ()⟩ :: [role]) := by
  refine ⟨[], [⟨.action (.tryLockRow (Sample.id 1)), .refused⟩] ++ ([⟨.action (.adjacent Sample.workspace .todo
    Binary64.infinity .below (Sample.id 2)), some ⟨Sample.id 1, .ofNat 1000⟩⟩] ++ ([⟨.action (.lockRow (Sample.id 2)),
    .granted (some (Sample.task 2 .cancelled 1000))⟩] ++ ([⟨.action .start, ()⟩] ++ ([⟨.action (.role Sample.actor
    Sample.workspace), some Role.owner⟩] ++ [])))), rfl, ?_⟩
  refine .cons ?_ (.cons ?_ (.cons ?_ (.cons ?_ (.cons ?_ .nil))))
  . refine ends_perform.2 ?_
    exact ⟨Grant.refused, [], .done _, rfl⟩
  . refine ends_perform.2 ?_
    exact ⟨some ⟨Sample.id 1, .ofNat 1000⟩, [], .done _, rfl⟩
  . refine ends_perform.2 ?_
    exact ⟨Grant.granted (some (Sample.task 2 .cancelled 1000)), [], .done _, rfl⟩
  . refine ends_perform.2 ?_
    exact ⟨(), [], .done _, rfl⟩
  . refine ends_perform.2 ?_
    exact ⟨some Role.owner, [], .done _, rfl⟩

end Retreat

theorem retries_make_progress_deleted :
    Move.Retries Retreat.move .todo 7 Retreat.move.plan Retreat.wider [Retreat.role] Retreat.attempt
      ∧ ¬ Gap.UsesUpReads Retreat.attempt ∧ Retreat.wider.Exceeds Retreat.move.plan := by
  have hunused : ¬ Gap.UsesUpReads Retreat.attempt := fun hused => absurd hused.looks (by decide)
  obtain ⟨_, _, hexceeds, _⟩ := retries_make_progress LockTable.idle_empty Retreat.isCommand_commands Retreat.turns
    (h := 0) rfl Retreat.retries Retreat.hasCalled
  exact ⟨Retreat.retries, hunused, hexceeds hunused⟩

end Crowd

end LaneOrder
