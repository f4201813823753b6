import LaneOrder.Command.Basic

/-!
This module contains the creation of a task at the end of a lane. The end is read without a lock: two tasks
that are created at once may get the same position, and are then ordered by their identifiers.
-/

namespace LaneOrder

structure CreateRequest where
  workspace : WorkspaceId
  actor : ActorId
  title : String
  lane : String
deriving DecidableEq

def createTask (r : CreateRequest) : Commanding (Outcome Task) :=
  authorized r.actor r.workspace <|
    let title := Text.trim r.title
    if title.isEmpty then return .error .blankTitle
    else withLane r.lane fun lane => do
      let reply ← call (.greatest r.workspace lane)
      orFail .greatest reply fun greatest => do
        let id ← call (.ambient .freshId)
        let position ← call (.ambient (.appendAfter greatest))
        let time ← call (.ambient .now)
        let task := Task.new id r.workspace title lane position time
        let reply ← call (.insert task)
        orFail .insert reply fun _ => do
          note .taskCreated
          record (.created r.workspace r.actor task.id lane task.position)
          return .ok task

end LaneOrder
