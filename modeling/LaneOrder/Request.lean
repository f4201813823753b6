import LaneOrder.Command.Create
import LaneOrder.Command.Move
import LaneOrder.Command.Renormalize

/-!
This module contains what users of a store ask for, commands as well as single calls, and the answers that
they get.
-/

namespace LaneOrder

inductive Request where
  | move (r : MoveRequest)
  | create (r : CreateRequest)
  | renormalize (r : RenormalizeRequest)
  | call (c : Call)

inductive Answer where
  | done
  | flag (b : Bool)
  | position (x : Position)
  | role (role : Role)
  | task (t : Task)
  | row (t : Option Task)
  | tasks (ts : List Task)
  | neighbor (n : Option Neighbor)
  | moved (o : MoveOutcome)
  | created (t : Task)
  | renormalized (o : RenormalizeOutcome)
  | storeError (e : StoreError)
  | roleError (e : RoleError)
  | commandError (e : CommandError)

namespace Answer

variable {α : Type}

def ofStore (f : α → Answer) : Except StoreError α → Answer
  | .ok a => f a
  | .error e => .storeError e

def ofOutcome (f : α → Answer) : Outcome α → Answer
  | .ok a => f a
  | .error e => .commandError e

def ofReply : (c : Call) → c.Reply → Answer
  | .ambient _, _ => .done
  | .role .., .ok r => .role r
  | .role .., .error e => .roleError e
  | .record _, r => ofStore (fun _ => .done) r
  | .begin, r => ofStore (fun _ => .done) r
  | .insert _, r => ofStore (fun _ => .done) r
  | .find .., r => ofStore .row r
  | .list .., r => ofStore .tasks r
  | .greatest .., r => ofStore .position r
  | .delete .., r => ofStore .flag r
  | .lockTarget .., r => ofStore .task r
  | .lockNeighbor .., r => ofStore .task r
  | .tryLockNeighbor .., r => ofStore .row r
  | .lockLane .., r => ofStore .tasks r
  | .lockSeed .., r => ofStore (fun _ => .done) r
  | .tryLockSeed .., r => ofStore .flag r
  | .adjacent .., r => ofStore .neighbor r
  | .persist .., r => ofStore (fun _ => .done) r
  | .commit, r => ofStore (fun _ => .done) r
  | .rollback, r => ofStore (fun _ => .done) r

end Answer

namespace Request

def program : Request → Commanding Answer
  | move r => do return .ofOutcome .moved (← moveTask r)
  | create r => do return .ofOutcome .created (← createTask r)
  | renormalize r => do return .ofOutcome .renormalized (← renormalizeLane r)
  | call c => do return .ofReply c (← LaneOrder.call c)

end Request

end LaneOrder
