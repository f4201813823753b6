import LaneOrder.Role
import LaneOrder.Uuid

/-!
This module contains the members of workspaces.
-/

namespace LaneOrder

structure Membership where
  workspace : WorkspaceId
  actor : ActorId
  role : Role
deriving DecidableEq

end LaneOrder
