import LaneOrder.Board.Fault
import LaneOrder.Request
import LaneOrder.Surroundings

/-!
This module contains the running of a command until it is answered or has to wait for a lock.
-/

namespace LaneOrder.Session

open Board

variable {α : Type}

abbrev Running := Program faultyOps Answer

structure Setting extends Surroundings where
  timeout : Nat

structure World where
  board : Board := {}
  faults : List Fault := []
  journal : Journal := {}

inductive Effect (α : Type) where
  | replied (reply : α) (world : World)
  | blocked (key : LockKey) (refusal : α) (world : World)

namespace World

def perform (s : Setting) (w : World) (holder : Holder) : (op : FaultyOp) → Effect op.Reply
  | .meet method =>
    let (failure?, faults) := Board.meet method w.faults
    .replied failure? { w with faults }
  | .op (.ambient c) =>
    let (reply, journal) := s.answer w.journal c
    .replied reply { w with journal }
  | .op (.action a) => match w.board.act holder a with
    | .replied reply board => .replied reply { w with board }
    | .blocked key refusal board =>
      -- Without any patience there is no wait at all.
      if s.timeout = 0 then .replied refusal { w with board := board.leave holder key }
      else .blocked key refusal { w with board }

end World

structure Wait where
  key : LockKey
  op : FaultyOp
  next : op.Reply → Running

def Wait.rest (w : Wait) : Running :=
  .perform w.op w.next

inductive Progress (p : Running) where
  | answered (answer : Answer) (world : World)
  | waits (wait : Wait) (world : World) (within : Program.Within wait.rest p)

def run (s : Setting) (holder : Holder) : (p : Running) → World → Progress p
  | .done answer, w => .answered answer w
  | .perform op next, w => match w.perform s holder op with
    | .replied reply w => match run s holder (next reply) w with
      | .answered answer w => .answered answer w
      | .waits wait w h => .waits wait w (.next reply h)
    | .blocked key _ w => .waits ⟨key, op, next⟩ w .refl

end LaneOrder.Session
