import LaneOrder.Command.Gap

/-!
This module contains the move of a task in its lane or to another one. An attempt is one transaction: the
target and the anchors are locked as planned, the gap is secured, a position is allocated in it, and the task
is written back. If a row of the border is busy and must not be waited for, the attempt is rolled back and the
row becomes part of the plan of the next one.
-/

namespace LaneOrder

/-- A request to move a task, below the task `before` and above the task `after` if they are given. -/
structure MoveRequest where
  workspace : WorkspaceId
  task : TaskId
  actor : ActorId
  lane : String
  before : Option TaskId
  after : Option TaskId
deriving DecidableEq

structure MoveOutcome where
  task : Task
  exhausted : Bool
deriving DecidableEq

namespace MoveRequest

def anchorError? (r : MoveRequest) : Option CommandError :=
  if r.before = some r.task ∨ r.after = some r.task then some (.selfAnchor r.task)
  else match r.before, r.after with
    | some before, some after => if before = after then some (.sameAnchors before) else none
    | _, _ => none

def plan (r : MoveRequest) : LockPlan :=
  .new r.task r.before r.after

end MoveRequest

namespace Move

def maxAttempts : Nat := 8

structure Locked where
  held : HeldLocks
  target : Option Task := none
  anchors : Gap := {}

def Locked.add (l : Locked) (role : LockRole) (row : Task) : Locked :=
  match role with
  | .target => { l with target := some row }
  | .before => { l with anchors := { l.anchors with before := some row.toNeighbor } }
  | .after => { l with anchors := { l.anchors with after := some row.toNeighbor } }
  | .bound => l

def lockStep (r : MoveRequest) (lane : Lane) (step : LockStep) :
    Commanding (Except StoreError Task) :=
  match step.role with
  | .target => call (.lockTarget r.workspace step.id)
  | _ => call (.lockNeighbor r.workspace lane step.id)

def lockSteps (r : MoveRequest) (lane : Lane) : List LockStep → Locked → Commanding (Outcome Locked)
  | [], l => return .ok l
  | step :: steps, l => do
    let attempted := l.held.attempted step.id
    match step.role, ← lockStep r lane step with
    | role, .ok row =>
      lockSteps r lane steps ({ l with held := attempted.locked step.id }.add role row)
    -- a bound may have left the lane since the attempt that asked for it
    | .bound, .error (.notFound _) => lockSteps r lane steps { l with held := attempted }
    | _, .error e => storeFailed .lock e

structure Placement where
  source : Lane
  placed : Task
  exhausted : Bool

inductive Attempt where
  | placed (placement : Placement)
  | retry (plan : LockPlan)

def orderError? (anchors : Gap) : Option CommandError :=
  match anchors.before, anchors.after with
  | some before, some after =>
    if before.position ≤ after.position then some (.anchorOrder before after) else none
  | _, _ => none

def settle (r : MoveRequest) (lane : Lane) (target : Task) (gap : Gap) : Commanding (Outcome Attempt) := do
  let allocation ←
    call (.ambient (.allocate (gap.before.map (·.position)) (gap.after.map (·.position))))
  if allocation.exhausted then
    note .positionExhausted
  let reply ← call (.persist r.workspace target.id allocation.position lane)
  orFail .persist reply fun _ => do
    let time ← call (.ambient .now)
    let placed := target.placed allocation.position lane time
    return .ok (.placed ⟨target.lane, placed, allocation.exhausted⟩)

def secureAndSettle (r : MoveRequest) (lane : Lane) (plan : LockPlan) (target : Task) (l : Locked) :
    Commanding (Outcome Attempt) := do
  let reply ← Gap.secure r.workspace lane target.id l.anchors Gap.maxChecks l.held
  orFail .gap reply fun
    | .secured gap => settle r lane target gap
    | .restart bounds laneSeed =>
      let wider := plan.withBounds bounds
      return .ok (.retry (if laneSeed then wider.withLaneSeed else wider))

def lockAndSettle (r : MoveRequest) (lane : Lane) (plan : LockPlan) (held : HeldLocks) :
    Commanding (Outcome Attempt) := do
  match ← lockSteps r lane plan.steps { held } with
  | .error e => return .error e
  | .ok l => match l.target with
    | none => return .error (.internal .lock "lock plan did not include the target")
    | some target => match orderError? l.anchors with
      | some e => return .error e
      | none => secureAndSettle r lane plan target l

def place (r : MoveRequest) (lane : Lane) (plan : LockPlan) : Commanding (Outcome Attempt) := do
  if plan.laneSeed then
    let reply ← call (.lockSeed r.workspace lane)
    orFail .lock reply fun _ => lockAndSettle r lane plan ({} : HeldLocks).seeded
  else lockAndSettle r lane plan {}

def finish (r : MoveRequest) (lane : Lane) (p : Placement) : Commanding (Outcome MoveOutcome) := do
  note .taskMoved
  record (.moved r.workspace r.actor r.task p.source lane p.placed.position)
  let reply ← call (.find r.workspace r.task)
  orFail .refetch reply fun
    | some task => return .ok ⟨task, p.exhausted⟩
    | none => do
      note .taskVanished
      return .ok ⟨p.placed, p.exhausted⟩

def attempts (r : MoveRequest) (lane : Lane) : Nat → LockPlan → Commanding (Outcome MoveOutcome)
  | 0, _ => do
    note .gapNeverSettled
    return .error (.internal .gap
      ("insertion gap did not settle after " ++ toString maxAttempts ++ " attempts"))
  | n + 1, plan => do
    let reply ← call .begin
    orFail .start reply fun _ => do
      match ← place r lane plan with
      | .ok (.placed p) =>
        let reply ← call .commit
        orFail .commit reply fun _ => finish r lane p
      | .ok (.retry wider) =>
        abandon
        note .gapRetried
        attempts r lane n wider
      | .error e =>
        abandon
        return .error e

end Move

def moveTask (r : MoveRequest) : Commanding (Outcome MoveOutcome) :=
  authorized r.actor r.workspace <|
    withLane r.lane fun lane =>
      match r.anchorError? with
      | some e => return .error e
      | none => Move.attempts r lane Move.maxAttempts r.plan

end LaneOrder
