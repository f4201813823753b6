import LaneOrder.Command.Basic
import LaneOrder.Sort

/-!
This module contains the renormalization of a lane: the whole lane is locked, and its positions are spaced
anew in their visual order.
-/

namespace LaneOrder

structure RenormalizeRequest where
  workspace : WorkspaceId
  actor : ActorId
  lane : String
deriving DecidableEq

structure RenormalizeOutcome where
  lane : Lane
  tasks : List Task
deriving DecidableEq

namespace Renormalize

def respace (r : RenormalizeRequest) (lane : Lane) (time : Timestamp) :
    Nat → List Task → Commanding (Outcome (List Task))
  | _, [] => return .ok []
  | index, task :: tasks => do
    let position ← call (.ambient (.spaced index))
    let reply ← call (.persist r.workspace task.id position lane)
    orFail .persist reply fun _ => do
      match ← respace r lane time (index + 1) tasks with
      | .ok placed => return .ok (task.placed position lane time :: placed)
      | .error e => return .error e

def lockAndRespace (r : RenormalizeRequest) (lane : Lane) : Commanding (Outcome (List Task)) := do
  let reply ← call (.lockLane r.workspace lane)
  orFail .lockLane reply fun tasks => do
    let time ← call (.ambient .now)
    respace r lane time 0 (sortBy Task.visualLe tasks)

end Renormalize

def renormalizeLane (r : RenormalizeRequest) : Commanding (Outcome RenormalizeOutcome) :=
  authorized r.actor r.workspace <|
    withLane r.lane fun lane => do
      let reply ← call .begin
      orFail .start reply fun _ => do
        match ← Renormalize.lockAndRespace r lane with
        | .error e =>
          abandon
          return .error e
        | .ok tasks =>
          let reply ← call .commit
          orFail .commit reply fun _ => do
            note .laneRenormalized
            record (.renormalized r.workspace r.actor lane tasks.length)
            return .ok ⟨lane, tasks⟩

end LaneOrder
