import LaneOrder.Board.Engine

/-!
This module contains scripted failures. They are met where a command calls the store or the look-up of
roles, before the call is carried out, and show what a command does about a failed call.
-/

namespace LaneOrder.Board

inductive Method where
  | role
  | begin
  | insert
  | find
  | list
  | greatest
  | delete
  | lockTarget
  | lockNeighbor
  | tryLockNeighbor
  | lockLane
  | lockSeed
  | tryLockSeed
  | adjacent
  | persist
  | commit
  | rollback
deriving DecidableEq

namespace Method

def all : List Method :=
  [.role, .begin, .insert, .find, .list, .greatest, .delete, .lockTarget, .lockNeighbor,
    .tryLockNeighbor, .lockLane, .lockSeed, .tryLockSeed, .adjacent, .persist, .commit, .rollback]

def name : Method → String
  | role => "get_role"
  | begin => "begin"
  | insert => "insert"
  | find => "find_by_id"
  | list => "list_lane"
  | greatest => "max_position_in_lane"
  | delete => "soft_delete"
  | lockTarget => "lock_target"
  | lockNeighbor => "lock_neighbor"
  | tryLockNeighbor => "try_lock_neighbor"
  | lockLane => "lock_lane"
  | lockSeed => "lock_lane_seed"
  | tryLockSeed => "try_lock_lane_seed"
  | adjacent => "adjacent_task"
  | persist => "persist"
  | commit => "commit"
  | rollback => "rollback"

def ofCall? : Call → Option Method
  | .ambient _ | .record _ => none
  | .role .. => some role
  | .begin => some begin
  | .insert _ => some insert
  | .find .. => some find
  | .list .. => some list
  | .greatest .. => some greatest
  | .delete .. => some delete
  | .lockTarget .. => some lockTarget
  | .lockNeighbor .. => some lockNeighbor
  | .tryLockNeighbor .. => some tryLockNeighbor
  | .lockLane .. => some lockLane
  | .lockSeed .. => some lockSeed
  | .tryLockSeed .. => some tryLockSeed
  | .adjacent .. => some adjacent
  | .persist .. => some persist
  | .commit => some commit
  | .rollback => some rollback

end Method

inductive Failure where
  | error (e : StoreError)
  | nothing
deriving DecidableEq

/-- A scripted failure. It lets `skip` calls pass, and the next `times` calls fail. -/
structure Fault where
  method : Method
  failure : Failure
  skip : Nat
  times : Nat
deriving DecidableEq

def meet (method : Method) : List Fault → Option Failure × List Fault
  | [] => (none, [])
  | f :: fs =>
    if f.method = method ∧ 0 < f.times then
      if 0 < f.skip then (none, { f with skip := f.skip - 1 } :: fs)
      else (some f.failure, { f with times := f.times - 1 } :: fs)
    else
      let (failure?, fs) := meet method fs
      (failure?, f :: fs)

def failed? : Failure → (c : Call) → Option c.Reply
  | .error e, .role .. => some (.error (.store e))
  | .error e, .begin => some (.error e)
  | .error e, .insert _ => some (.error e)
  | .error e, .find .. => some (.error e)
  | .error e, .list .. => some (.error e)
  | .error e, .greatest .. => some (.error e)
  | .error e, .delete .. => some (.error e)
  | .error e, .lockTarget .. => some (.error e)
  | .error e, .lockNeighbor .. => some (.error e)
  | .error e, .tryLockNeighbor .. => some (.error e)
  | .error e, .lockLane .. => some (.error e)
  | .error e, .lockSeed .. => some (.error e)
  | .error e, .tryLockSeed .. => some (.error e)
  | .error e, .adjacent .. => some (.error e)
  | .error e, .persist .. => some (.error e)
  | .error e, .commit => some (.error e)
  | .error e, .rollback => some (.error e)
  | .nothing, .find .. => some (.ok none)
  | .nothing, .delete .. => some (.ok false)
  | .nothing, .tryLockNeighbor .. => some (.ok none)
  | .nothing, .tryLockSeed .. => some (.ok false)
  | .nothing, .adjacent .. => some (.ok none)
  | _, _ => none

inductive FaultyOp where
  | meet (method : Method)
  | op (o : Op)

@[reducible]
def FaultyOp.Reply : FaultyOp → Type
  | meet _ => Option Failure
  | op o => o.Reply

@[reducible]
def faultyOps : Interface := ⟨FaultyOp, FaultyOp.Reply⟩

def unfailing {α : Type} (p : Working α) : Program faultyOps α :=
  p.implement fun o => Program.ask (I := faultyOps) (.op o)

def fail (c : Call) (reply : c.Reply) : Program faultyOps c.Reply :=
  match c with
  | .commit | .rollback => do
    -- a transaction does not outlive its failed end
    unfailing (perform .rollback)
    return reply
  | _ => return reply

def carryOutOrFail (c : Call) : Program faultyOps c.Reply :=
  match Method.ofCall? c with
  | none => unfailing (carryOut c)
  | some method => do
    match (← Program.ask (I := faultyOps) (.meet method)).bind (failed? · c) with
    | some reply => fail c reply
    | none => unfailing (carryOut c)

def actionsOrFailures {α : Type} (p : Commanding α) : Program faultyOps α :=
  p.implement carryOutOrFail

end LaneOrder.Board
