import LaneOrder.Binary64.Text
import LaneOrder.Task

/-!
This module contains what can go wrong: in a store, in the look-up of a role, and in a command. The
errors of commands say what was wrong with the request; of a failed store they show nothing.
-/

namespace LaneOrder

inductive StoreError where
  | notFound (what : String)
  | lockTimeout (what : String)
  | database (what : String)
  | corrupt (what : String)
deriving DecidableEq

namespace StoreError

def message : StoreError → String
  | notFound what => "Entity not found: " ++ what
  | lockTimeout what => "Lock wait timed out: " ++ what
  | database what => "Database error: " ++ what
  | corrupt what => "Serialization error: " ++ what

def missingTask (workspace : WorkspaceId) (id : TaskId) : StoreError :=
  .notFound ("task " ++ toString id ++ " in workspace " ++ toString workspace)

end StoreError

def laneScope (workspace : WorkspaceId) (lane : Lane) : String :=
  "lane " ++ lane.name ++ " of workspace " ++ toString workspace

def StoreError.missingNeighbor (workspace : WorkspaceId) (lane : Lane) (id : TaskId) : StoreError :=
  .notFound ("task " ++ toString id ++ " in " ++ laneScope workspace lane)

inductive RoleError where
  | notMember (actor : ActorId) (workspace : WorkspaceId)
  | store (e : StoreError)
deriving DecidableEq

def RoleError.message : RoleError → String
  | notMember actor workspace =>
    "actor " ++ toString actor ++ " is not a member of workspace " ++ toString workspace
  | store e => e.message

inductive Stage where
  | authorize
  | start
  | lock
  | gap
  | lockLane
  | persist
  | commit
  | refetch
  | greatest
  | insert
deriving DecidableEq

def Stage.name : Stage → String
  | authorize => "authorize"
  | start => "begin"
  | lock => "lock"
  | gap => "gap"
  | lockLane => "lock_lane"
  | persist => "persist"
  | commit => "commit"
  | refetch => "refetch"
  | greatest => "max_position"
  | insert => "insert"

inductive ErrorKind where
  | unauthorized
  | notFound
  | invalidArgument
  | internal
deriving DecidableEq

namespace ErrorKind

def all : List ErrorKind := [.unauthorized, .notFound, .invalidArgument, .internal]

def name : ErrorKind → String
  | unauthorized => "UNAUTHORIZED"
  | notFound => "NOT_FOUND"
  | invalidArgument => "INVALID_ARGUMENT"
  | internal => "INTERNAL"

def code : ErrorKind → String
  | internal => "INTERNAL_ERROR"
  | kind => kind.name

end ErrorKind

inductive CommandError where
  | notMember (actor : ActorId) (workspace : WorkspaceId)
  | mayNotModify (actor : ActorId) (workspace : WorkspaceId)
  | notFound (what : String)
  | unknownLane (e : Lane.Unknown)
  | blankTitle
  | selfAnchor (id : TaskId)
  | sameAnchors (id : TaskId)
  | anchorOrder (before after : Neighbor)
  | internal (stage : Stage) (detail : String)
deriving DecidableEq

namespace CommandError

def kind : CommandError → ErrorKind
  | notMember .. | mayNotModify .. => .unauthorized
  | notFound _ => .notFound
  | unknownLane _ | blankTitle | selfAnchor _ | sameAnchors _ | anchorOrder .. => .invalidArgument
  | internal .. => .internal

def detail : CommandError → String
  | notMember actor workspace => (RoleError.notMember actor workspace).message
  | mayNotModify actor workspace =>
    "actor " ++ toString actor ++ " may not modify workspace " ++ toString workspace
  | notFound what => what
  | unknownLane e => e.message
  | blankTitle => "title must not be empty"
  | selfAnchor id => "task " ++ toString id ++ " cannot be placed relative to itself"
  | sameAnchors id =>
    "task " ++ toString id ++ " cannot be both the before and the after anchor"
  | anchorOrder before after =>
    "task " ++ toString after.id ++ " (position " ++ toString after.position
      ++ ") does not sit below task " ++ toString before.id ++ " (position "
      ++ toString before.position ++ "); renormalize the lane if they share a position"
  | internal _ detail => detail

def message (e : CommandError) : String :=
  match e.kind with
  | .unauthorized => "Unauthorized: " ++ e.detail
  | .notFound => "Not found: " ++ e.detail
  | .invalidArgument => "Invalid argument: " ++ e.detail
  | .internal => "An internal error occurred"

def ofStore (stage : Stage) : StoreError → CommandError
  | .notFound what => .notFound what
  | e => .internal stage e.message

def ofRole : RoleError → CommandError
  | .notMember actor workspace => .notMember actor workspace
  | .store e => .internal .authorize e.message

end CommandError

end LaneOrder
