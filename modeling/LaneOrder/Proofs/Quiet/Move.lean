import LaneOrder.Proofs.Command.Sequel
import LaneOrder.Proofs.Quiet.Gap
import LaneOrder.Proofs.Sample

/-!
This module contains what a move does at a desk. Why it is refused, or which gap it goes to, depends on the rows that it
finds and on the role of the actor; everything else follows from the gap.
-/

namespace LaneOrder

open Board Program

namespace StagedWrite

variable {w : StagedWrite} {t : Task}

def apply (w : StagedWrite) (t : Task) : Task :=
  if w.id = t.id then t.placed w.position w.lane w.time else t

theorem apply_self (h : w.id = t.id) : w.apply t = t.placed w.position w.lane w.time :=
  if_pos h

theorem apply_of_ne (h : w.id ≠ t.id) : w.apply t = t :=
  if_neg h

theorem overlay_stage : (({} : Transaction).stage w).overlay t = w.apply t := by
  unfold Transaction.overlay apply
  rw [Transaction.write?_stage]
  by_cases hid : w.id = t.id
  . simp only [if_pos hid]
  . simp only [if_neg hid]
    rfl

end StagedWrite

namespace Rows

def put (r : Rows) (w : StagedWrite) : Rows :=
  (({} : Transaction).stage w).view r

variable {r : Rows} {w : StagedWrite} {id : TaskId}

theorem tasks_put : (r.put w).tasks = r.tasks.map w.apply :=
  List.map_congr_left fun _ _ => StagedWrite.overlay_stage

theorem find?_put : (r.put w).find? id
    = if w.id = id then (r.find? id).map (·.placed w.position w.lane w.time) else r.find? id := by
  unfold put Transaction.view
  rw [find?_map]
  cases hfind : r.find? id with
  | none => simp
  | some t =>
    obtain ⟨_, rfl⟩ := find?_eq_some.1 hfind
    rw [Option.map_some, StagedWrite.overlay_stage]
    unfold StagedWrite.apply
    split <;> rfl

theorem findIn?_put {workspace : WorkspaceId} {t : Task} (h : r.findIn? workspace w.id = some t) :
    (r.put w).findIn? workspace w.id = some (t.placed w.position w.lane w.time) := by
  obtain ⟨hfind, hin⟩ := findIn?_eq_some.1 h
  refine findIn?_eq_some.2 ⟨?_, hin⟩
  rw [find?_put, if_pos rfl, hfind]
  rfl

end Rows

namespace MoveRequest

variable (r : MoveRequest) (rows : Rows) (lane : Lane)

/-- The row that a step of the plan is there to lock. -/
def row? (step : LockStep) : Option Task :=
  match step.role with
  | .target => rows.findIn? r.workspace step.id
  | _ => rows.neighbor? r.workspace lane step.id

def missing (step : LockStep) : StoreError :=
  match step.role with
  | .target => .missingTask r.workspace step.id
  | _ => .missingNeighbor r.workspace lane step.id

def absent? : Option LockStep :=
  r.plan.steps.find? fun step => (r.row? rows lane step).isNone

def anchors : Gap where
  before := (r.before.bind (rows.neighbor? r.workspace lane)).map Task.toNeighbor
  after := (r.after.bind (rows.neighbor? r.workspace lane)).map Task.toNeighbor

/-- The gap that a move goes to if nobody interferes, or why there is none. -/
def destination : Outcome Gap :=
  match r.absent? rows lane with
  | some step => .error (.ofStore .lock (r.missing lane step))
  | none => match Move.orderError? (r.anchors rows lane) with
    | some e => .error e
    | none => .ok (rows.gap r.workspace lane r.task (r.anchors rows lane))

/-- The lane that a move is admitted to before any row is looked at, or why it is not. -/
def admission (role : Option Role) : Outcome Lane :=
  match role with
  | none => .error (.notMember r.actor r.workspace)
  | some role =>
    if role.canModify then
      match Lane.parse r.lane with
      | .error e => .error (.unknownLane e)
      | .ok lane => match r.anchorError? with
        | some e => .error e
        | none => .ok lane
    else .error (.mayNotModify r.actor r.workspace)

/-- Where a move goes if nobody interferes, or why it is refused. -/
def prospect (role : Option Role) : Outcome (Lane × Gap) :=
  match r.admission role with
  | .error e => .error e
  | .ok lane => (r.destination rows lane).map (lane, ·)

variable {r rows lane}

theorem lane_of_admission {role : Option Role} (hr : r.admission role = .ok lane) :
    Lane.parse r.lane = .ok lane ∧ r.anchorError? = none := by
  unfold admission at hr
  cases role with
  | none => cases hr
  | some role =>
    dsimp only at hr
    split at hr
    . cases hlane : Lane.parse r.lane with
      | error unknown => simp [hlane] at hr
      | ok lane' =>
        cases hanchors : r.anchorError? with
        | some e => simp [hlane, hanchors] at hr
        | none =>
          simp only [hlane, hanchors] at hr
          cases hr
          exact ⟨rfl, rfl⟩
    . cases hr

theorem prospect_eq_ok {role : Option Role} {gap : Gap} :
    r.prospect rows role = .ok (lane, gap) ↔ r.admission role = .ok lane ∧ r.destination rows lane = .ok gap := by
  unfold prospect
  cases hadmission : r.admission role with
  | error e => simp
  | ok lane' => cases hdest : r.destination rows lane' <;> grind [Except.map]

end MoveRequest

namespace Move

variable {r : MoveRequest} {rows : Rows} {lane : Lane} {l : Locked} {steps : List LockStep}

/-- What was gathered so far is found among the rows, and the anchors are held. -/
structure Sighted (r : MoveRequest) (rows : Rows) (lane : Lane) (l : Locked) : Prop where
  target : ∀ row, l.target = some row → rows.findIn? r.workspace r.task = some row
  before : ∀ n, l.anchors.before = some n → (r.anchors rows lane).before = some n
  after : ∀ n, l.anchors.after = some n → (r.anchors rows lane).after = some n
  held : ∀ id ∈ l.anchors.rows, l.held.holds id = true

theorem sighted_empty : Sighted r rows lane { held := {} } := by
  constructor <;> rintro _ ⟨⟩

theorem Sighted.add {step : LockStep} {row : Task} (hl : Sighted r rows lane l)
    (hstep : step ∈ LockPlan.named r.task r.before r.after) (hrow : r.row? rows lane step = some row) :
    Sighted r rows lane ({ l with held := (l.held.attempted step.id).locked step.id }.add step.role row) := by
  obtain ⟨id, role⟩ := step
  -- the row of an anchor is held as soon as it is one
  have hheld : ∀ n : Neighbor, n.id = id ∨ l.held.holds n.id = true →
      ((l.held.attempted id).locked id).holds n.id = true := by
    intro n hn
    simpa using hn
  have hrows : ∀ n : Neighbor, l.anchors.before = some n ∨ l.anchors.after = some n → l.held.holds n.id = true := by
    intro n hn
    exact hl.held n.id (Gap.mem_rows.2 ⟨n, hn, rfl⟩)
  cases role with
  | target =>
    obtain rfl : id = r.task := by simpa [LockPlan.named] using hstep
    refine ⟨?_, hl.before, hl.after, ?_⟩
    . rintro _ ⟨⟩
      exact hrow
    . intro other hother
      obtain ⟨n, hn, rfl⟩ := Gap.mem_rows.1 hother
      exact hheld n (.inr (hrows n hn))
  | before =>
    have hgiven : r.before = some id := by simpa [LockPlan.named, eq_comm] using hstep
    have hid := (Rows.neighbor?_eq_some.1 hrow).2
    refine ⟨hl.target, ?_, hl.after, ?_⟩
    . rintro _ ⟨⟩
      show (r.before.bind (rows.neighbor? r.workspace lane)).map Task.toNeighbor = _
      rw [hgiven, Option.bind_some, show rows.neighbor? r.workspace lane id = some row from hrow]
      rfl
    . intro other hother
      obtain ⟨n, ⟨⟨⟩⟩ | hn, rfl⟩ := Gap.mem_rows.1 hother
      . exact hheld _ (.inl hid)
      . exact hheld n (.inr (hrows n (.inr hn)))
  | after =>
    have hgiven : r.after = some id := by simpa [LockPlan.named, eq_comm] using hstep
    have hid := (Rows.neighbor?_eq_some.1 hrow).2
    refine ⟨hl.target, hl.before, ?_, ?_⟩
    . rintro _ ⟨⟩
      show (r.after.bind (rows.neighbor? r.workspace lane)).map Task.toNeighbor = _
      rw [hgiven, Option.bind_some, show rows.neighbor? r.workspace lane id = some row from hrow]
      rfl
    . intro other hother
      obtain ⟨n, hn | ⟨⟨⟩⟩, rfl⟩ := Gap.mem_rows.1 hother
      . exact hheld n (.inr (hrows n (.inl hn)))
      . exact hheld _ (.inl hid)
  | bound => simp [LockPlan.named] at hstep

/-- When nothing is pending, everything there is was gathered. -/
theorem Sighted.complete (hl : Sighted r rows lane l) (hp : Pending r l []) :
    l.target = rows.findIn? r.workspace r.task ∧ l.target.isSome = true ∧ l.anchors = r.anchors rows lane := by
  obtain ⟨htarget, hbefore, hafter, _⟩ := hl
  obtain ⟨ptarget, pbefore, pafter⟩ := hp
  have hside : ∀ {given : Option TaskId} {found : Option Neighbor},
      (∀ n, found = some n → (given.bind (rows.neighbor? r.workspace lane)).map Task.toNeighbor = some n) →
      (∀ id, given = some id → found ≠ none) →
      found = (given.bind (rows.neighbor? r.workspace lane)).map Task.toNeighbor := by
    intro given found hfound hpending
    cases found with
    | some n => exact (hfound n rfl).symm
    | none =>
      cases given with
      | none => rfl
      | some id => exact absurd rfl (hpending id rfl)
  cases hrow : l.target with
  | none => exact absurd (ptarget hrow) (List.not_mem_nil)
  | some row =>
    refine ⟨(htarget row hrow).symm, rfl, ?_⟩
    have h₁ : l.anchors.before = (r.anchors rows lane).before :=
      hside hbefore fun id hid hnone => List.not_mem_nil (pbefore id hid hnone)
    have h₂ : l.anchors.after = (r.anchors rows lane).after :=
      hside hafter fun id hid hnone => List.not_mem_nil (pafter id hid hnone)
    calc l.anchors
      _ = ⟨l.anchors.before, l.anchors.after⟩ := rfl
      _ = r.anchors rows lane := by rw [h₁, h₂]

end Move

namespace Desk

open Move

variable {s : Supply} {d : Desk} {r : MoveRequest} {lane : Lane} {l : Locked} {steps : List LockStep}

theorem serve_lockStep {step : LockStep} (hopen : d.transaction.isSome = true) : serve s (lockStep r lane step) d
    = ((r.row? d.view lane step).elim (.error (r.missing lane step)) .ok, d) := by
  obtain ⟨id, role⟩ := step
  cases role <;> first | exact serve_lockTarget hopen | exact serve_lockNeighbor hopen

theorem serve_lockSteps (lane : Lane) (hopen : d.transaction.isSome = true)
    (hsteps : ∀ step ∈ steps, step ∈ LockPlan.named r.task r.before r.after) (hl : Sighted r d.view lane l)
    (hp : Pending r l steps) :
    match steps.find? fun step => (r.row? d.view lane step).isNone with
    | some step => serve s (lockSteps r lane steps l) d = (.error (.ofStore .lock (r.missing lane step)), d)
    | none => ∃ l', serve s (lockSteps r lane steps l) d = (.ok l', d) ∧ Sighted r d.view lane l' ∧ Pending r l' [] := by
  induction steps generalizing l with
  | nil => exact ⟨l, rfl, hl, hp⟩
  | cons step steps ih =>
    obtain ⟨hstep, hsteps⟩ := List.forall_mem_cons.1 hsteps
    unfold lockSteps
    rw [serve_bind, serve_lockStep hopen, List.find?_cons]
    cases hrow : r.row? d.view lane step with
    | some row =>
      have hrest := ih hsteps (hl.add hstep hrow) (hp.add _ row)
      obtain ⟨id, role⟩ := step
      cases role <;> exact hrest
    | none =>
      obtain ⟨id, role⟩ := step
      cases role with
      | bound => simp [LockPlan.named] at hstep
      | _ => exact serve_storeFailed

theorem serve_plan (lane : Lane) (hopen : d.transaction.isSome = true) (hr : r.anchorError? = none) :
    match r.absent? d.view lane with
    | some step => serve s (lockSteps r lane r.plan.steps { held := {} }) d
      = (.error (.ofStore .lock (r.missing lane step)), d)
    | none => ∃ held t, d.view.findIn? r.workspace r.task = some t
      ∧ serve s (lockSteps r lane r.plan.steps { held := {} }) d = (.ok ⟨held, some t, r.anchors d.view lane⟩, d)
      ∧ ∀ id ∈ (r.anchors d.view lane).rows, held.holds id = true := by
  have hfits := fits_plan hr
  have hsteps : ∀ step ∈ r.plan.steps, step ∈ LockPlan.named r.task r.before r.after := by
    intro step hstep
    exact LockPlan.mem_inOrder.1 hstep
  have hp : Pending r { held := {} } r.plan.steps := by
    constructor
    . exact fun _ => hfits.named _ (by simp [LockPlan.named])
    . exact fun id hid _ => hfits.named _ (by simp [LockPlan.named, hid])
    . exact fun id hid _ => hfits.named _ (by simp [LockPlan.named, hid])
  have hserve := serve_lockSteps (s := s) lane hopen hsteps sighted_empty hp
  unfold MoveRequest.absent?
  cases hfind : r.plan.steps.find? fun step => (r.row? d.view lane step).isNone with
  | some step =>
    rw [hfind] at hserve
    exact hserve
  | none =>
    rw [hfind] at hserve
    obtain ⟨⟨held, target, anchors⟩, hserve, hl, hp⟩ := hserve
    obtain ⟨htarget, hsome, rfl⟩ := hl.complete hp
    obtain ⟨t, rfl⟩ := Option.isSome_iff_exists.1 hsome
    exact ⟨held, t, htarget.symm, hserve, hl.held⟩

theorem serve_write {tx : Transaction} {t : Task} (lane : Lane) (allocation : Allocation) (htx : d.transaction = some tx)
    (hrow : d.view.findIn? r.workspace r.task = some t) :
    ∃ time, serve s (write r lane t allocation) d
      = (.ok (.placed ⟨t.lane, t.placed allocation.position lane time, allocation.exhausted⟩),
        { d.tick.tick with
          transaction := some (tx.stage ⟨r.task, allocation.position, lane, s.now d.readings.times⟩) }) := by
  have hid := (Rows.find?_eq_some.1 (Rows.findIn?_eq_some.1 hrow).1).2
  unfold write
  rw [serve_bind, hid, serve_persist htx hrow]
  exact ⟨_, rfl⟩

theorem serve_settle {tx : Transaction} {t : Task} (lane : Lane) (gap : Gap) (htx : d.transaction = some tx)
    (hrow : d.view.findIn? r.workspace r.task = some t) :
    ∃ time, serve s (settle r lane t gap) d
      = (.ok (.placed ⟨t.lane, t.placed (gap.allocate s.allocator).position lane time,
          (gap.allocate s.allocator).exhausted⟩),
        { d.tick.tick with transaction := some (tx.stage ⟨r.task, (gap.allocate s.allocator).position, lane,
          s.now d.readings.times⟩) }) := by
  have hwrite := serve_write (s := s) lane (gap.allocate s.allocator) htx hrow
  unfold settle
  rw [serve_bind, serve_allocate]
  change ∃ time, serve s (ite _ _ _) d = _
  split
  . rw [serve_bind]
    exact hwrite
  . exact hwrite

theorem serve_lockAndSettle (lane : Lane) (htx : d.transaction = some {}) (hr : r.anchorError? = none) :
    match r.destination d.rows lane with
    | .error e => serve s (lockAndSettle r lane r.plan {}) d = (.error e, d)
    | .ok gap => ∃ t time, d.rows.findIn? r.workspace r.task = some t
      ∧ serve s (lockAndSettle r lane r.plan {}) d
        = (.ok (.placed ⟨t.lane, t.placed (gap.allocate s.allocator).position lane time,
            (gap.allocate s.allocator).exhausted⟩),
          { d.tick.tick with transaction := some (({} : Transaction).stage
            ⟨r.task, (gap.allocate s.allocator).position, lane, s.now d.readings.times⟩) }) := by
  have hopen := Option.isSome_of_eq_some htx
  have hview := view_of_begun htx
  have hplan := serve_plan (s := s) lane hopen hr
  unfold MoveRequest.destination lockAndSettle
  rw [serve_bind]
  rw [hview] at hplan
  cases habsent : r.absent? d.rows lane with
  | some step =>
    rw [habsent] at hplan
    rw [hplan]
    rfl
  | none =>
    rw [habsent] at hplan
    obtain ⟨held, t, hrow, hserve, hheld⟩ := hplan
    rw [hserve]
    dsimp only
    cases orderError? (r.anchors d.rows lane) with
    | some e => rfl
    | none =>
      have hid := (Rows.find?_eq_some.1 (Rows.findIn?_eq_some.1 hrow).1).2
      have hsecure : serve s (Gap.secure r.workspace lane r.task (r.anchors d.rows lane) Gap.maxChecks held) d = _ :=
        serve_secure hopen hheld
      obtain ⟨time, hsettle⟩ := serve_settle (s := s) lane
        (d.rows.gap r.workspace lane r.task (r.anchors d.rows lane)) htx (hview ▸ hrow)
      unfold secureAndSettle
      dsimp only
      rw [serve_bind, hid, hsecure, hview]
      exact ⟨t, time, hrow, hsettle⟩

theorem serve_finish {p : Placement} {t : Task} (lane : Lane) (hrow : d.rows.findIn? r.workspace r.task = some t) :
    ∃ audit readings, serve s (finish r lane p) d = (.ok ⟨t, p.exhausted⟩, { d with audit, readings }) := by
  obtain ⟨audit, readings, hrecord⟩ := serve_record (s := s) (d := d)
    (.moved r.workspace r.actor r.task p.source lane p.placed.position)
  refine ⟨audit, readings, ?_⟩
  unfold finish
  rw [serve_bind, serve_note, serve_bind, hrecord, serve_bind, serve_find, hrow]
  rfl

section Attempts

variable {n : Nat} (hr : r.anchorError? = none)

include hr

theorem serve_attempts_error {e : CommandError} (hdest : r.destination d.rows lane = .error e) :
    serve s (attempts r lane (n + 1) r.plan) d = (.error e, { d with transaction := none, begun := d.begun + 1 }) := by
  have hplace := serve_lockAndSettle (s := s) (d := { d with transaction := some {}, begun := d.begun + 1 }) lane rfl hr
  dsimp only at hplace
  rw [hdest] at hplace
  unfold attempts
  rw [serve_bind, serve_begin]
  change serve s (place r lane r.plan >>= _) _ = _
  rw [serve_bind, show place r lane r.plan = lockAndSettle r lane r.plan {} from rfl, hplace]
  rfl

theorem serve_attempts_ok {gap : Gap} (hdest : r.destination d.rows lane = .ok gap) :
    ∃ t audit readings, d.rows.findIn? r.workspace r.task = some t
      ∧ serve s (attempts r lane (n + 1) r.plan) d
        = (.ok ⟨t.placed (gap.allocate s.allocator).position lane (s.now d.readings.times),
            (gap.allocate s.allocator).exhausted⟩,
          { d with
            rows := d.rows.put ⟨r.task, (gap.allocate s.allocator).position, lane, s.now d.readings.times⟩
            transaction := none
            audit
            readings
            begun := d.begun + 1 }) := by
  have hplace := serve_lockAndSettle (s := s) (d := { d with transaction := some {}, begun := d.begun + 1 }) lane rfl hr
  dsimp only at hplace
  rw [hdest] at hplace
  obtain ⟨t, time, hrow, hplace⟩ := hplace
  have hput := Rows.findIn?_put (w := ⟨r.task, (gap.allocate s.allocator).position, lane, s.now d.readings.times⟩) hrow
  obtain ⟨audit, readings, hfinish⟩ := serve_finish (s := s)
    (p := ⟨t.lane, t.placed (gap.allocate s.allocator).position lane time, (gap.allocate s.allocator).exhausted⟩)
    (d := { d.tick.tick with
      rows := d.rows.put ⟨r.task, (gap.allocate s.allocator).position, lane, s.now d.readings.times⟩
      transaction := none
      begun := d.begun + 1 }) lane hput
  refine ⟨t, audit, readings, hrow, ?_⟩
  unfold attempts
  rw [serve_bind, serve_begin]
  change serve s (place r lane r.plan >>= _) _ = _
  rw [serve_bind, show place r lane r.plan = lockAndSettle r lane r.plan {} from rfl, hplace]
  dsimp only
  rw [serve_bind, serve_commit]
  exact hfinish

end Attempts

theorem serve_moveTask : serve s (moveTask r) d = match r.admission (d.roles r.actor r.workspace) with
    | .error e => (.error e, d)
    | .ok lane => serve s (attempts r lane maxAttempts r.plan) d := by
  unfold moveTask MoveRequest.admission
  rw [serve_authorized, serve_withLane]
  cases d.roles r.actor r.workspace with
  | none => rfl
  | some role =>
    dsimp only
    split
    . cases Lane.parse r.lane with
      | error unknown => rfl
      | ok lane => cases r.anchorError? <;> rfl
    . rfl

theorem serve_moveTask_error {e : CommandError} (hr : r.prospect d.rows (d.roles r.actor r.workspace) = .error e) :
    ∃ transaction begun, serve s (moveTask r) d = (.error e, { d with transaction, begun })
      ∧ (transaction = none ∨ transaction = d.transaction) := by
  unfold MoveRequest.prospect at hr
  rw [serve_moveTask]
  cases hadmission : r.admission (d.roles r.actor r.workspace) with
  | error error =>
    rw [hadmission] at hr
    cases hr
    exact ⟨d.transaction, d.begun, rfl, .inr rfl⟩
  | ok lane =>
    rw [hadmission] at hr
    cases hdest : r.destination d.rows lane with
    | ok gap => simp [hdest, Except.map] at hr
    | error error =>
      simp only [hdest, Except.map] at hr
      cases hr
      exact ⟨none, d.begun + 1, serve_attempts_error (MoveRequest.lane_of_admission hadmission).2 hdest, .inl rfl⟩

theorem serve_moveTask_ok {gap : Gap} (hr : r.prospect d.rows (d.roles r.actor r.workspace) = .ok (lane, gap)) :
    ∃ t audit readings, d.rows.findIn? r.workspace r.task = some t
      ∧ serve s (moveTask r) d
        = (.ok ⟨t.placed (gap.allocate s.allocator).position lane (s.now d.readings.times),
            (gap.allocate s.allocator).exhausted⟩,
          { d with
            rows := d.rows.put ⟨r.task, (gap.allocate s.allocator).position, lane, s.now d.readings.times⟩
            transaction := none
            audit
            readings
            begun := d.begun + 1 }) := by
  obtain ⟨hadmission, hdest⟩ := MoveRequest.prospect_eq_ok.1 hr
  rw [serve_moveTask, hadmission]
  exact serve_attempts_ok (MoveRequest.lane_of_admission hadmission).2 hdest

end Desk

section Complete

variable {s : Supply} {b : Board} {h : Holder} {r : MoveRequest} (hb : b.Undisturbed h)

include hb

theorem Command.refused {e : CommandError} (hr : r.prospect b.rows (b.role? r.actor r.workspace) = .error e) :
    (complete ⟨h, .move r, s.replies⟩ b).answer = .commandError e
      ∧ (complete ⟨h, .move r, s.replies⟩ b).board.rows = b.rows
      ∧ (complete ⟨h, .move r, s.replies⟩ b).board.role? = b.role?
      ∧ (b.transaction? h = none → (complete ⟨h, .move r, s.replies⟩ b).board.locks.Idle) := by
  obtain ⟨transaction, begun, hserve, hclosed⟩ := Desk.serve_moveTask_error (s := s) (d := b.desk h) hr
  obtain ⟨hanswer, hundisturbed, hdesk⟩ := shows_serve (q := .move r) hb rfl hserve
  refine ⟨hanswer, congrArg Desk.rows hdesk, congrArg Desk.roles hdesk, ?_⟩
  intro hnone
  apply hundisturbed.idle
  refine (congrArg Desk.transaction hdesk).trans ?_
  rcases hclosed with h | h
  . exact h
  . exact h.trans hnone

theorem Command.moves {lane : Lane} {gap : Gap}
    (hr : r.prospect b.rows (b.role? r.actor r.workspace) = .ok (lane, gap)) :
    ∃ t time, b.rows.findIn? r.workspace r.task = some t
      ∧ (complete ⟨h, .move r, s.replies⟩ b).answer
        = .moved ⟨t.placed (gap.allocate s.allocator).position lane time, (gap.allocate s.allocator).exhausted⟩
      ∧ (complete ⟨h, .move r, s.replies⟩ b).board.rows
        = b.rows.put ⟨r.task, (gap.allocate s.allocator).position, lane, time⟩
      ∧ (complete ⟨h, .move r, s.replies⟩ b).board.role? = b.role?
      ∧ (complete ⟨h, .move r, s.replies⟩ b).board.locks.Idle
      ∧ (complete ⟨h, .move r, s.replies⟩ b).past.countP (·.op.starts) = 1 := by
  obtain ⟨t, audit, readings, hrow, hserve⟩ := Desk.serve_moveTask_ok (s := s) (d := b.desk h) hr
  obtain ⟨hanswer, hundisturbed, hdesk⟩ := shows_serve (q := .move r) hb rfl hserve
  refine ⟨t, _, hrow, hanswer, congrArg Desk.rows hdesk, congrArg Desk.roles hdesk, ?_, congrArg Desk.begun hdesk⟩
  exact hundisturbed.idle (congrArg Desk.transaction hdesk)

end Complete

section Sample

def Sample.steady : Supply where
  allocator := Sample.surroundings.allocator
  now _ := Sample.surroundings.now
  freshId := Sample.surroundings.freshId

/-- Two tasks of the lane share a position, and the position of a third one is no number. -/
def Sample.tied (lane : Lane) (position : Nat) : Rows where
  tasks := [Sample.task 1 .todo 1000, Sample.task 2 lane position, Sample.task 3 .todo 1000,
    { Sample.task 4 .todo 0 with position := .nan }]
  nodup := show [Sample.id 1, Sample.id 2, Sample.id 3, Sample.id 4].Nodup by decide

def Sample.below : MoveRequest :=
  ⟨Sample.workspace, Sample.id 2, Sample.actor, "todo", none, some (Sample.id 1)⟩

end Sample

end LaneOrder
