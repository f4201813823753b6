import LaneOrder.Session.World
import LaneOrder.Shrink

/-!
This module contains the commands that wait, and the order in which they go on. A command can go on if its
lock was handed over to it, or if its wait has expired; of several the oldest goes on first. This is repeated
until none can go on; since every command is finite, it ends.
-/

namespace LaneOrder.Session

open Board

/-- A command that waits. `index` is the number of its step, and `tx` is the name of the transaction that it
uses unless it opens its own. -/
structure Job where
  index : Nat
  holder : Holder
  tx : Option String
  wait : Wait
  deadline : Nat

def Job.Closer (a b : Job) : Prop :=
  Program.Below a.wait.rest b.wait.rest

theorem Job.closer_wf : WellFounded Job.Closer :=
  InvImage.wf (fun job : Job => job.wait.rest) Program.below_wf

inductive Resumed (job : Job) where
  | answered (answer : Answer) (world : World)
  | waits (wait : Wait) (world : World) (below : Program.Below wait.rest job.wait.rest)

def Job.resume (s : Setting) (w : World) (job : Job) : Resumed job :=
  let go (reply : job.wait.op.Reply) (w : World) : Resumed job :=
    match run s job.holder (job.wait.next reply) w with
    | .answered answer w => .answered answer w
    | .waits wait w h => .waits wait w (.intro reply h)
  match w.perform s job.holder job.wait.op with
  | .replied reply w => go reply w
  -- the lock still belongs to somebody else, so the wait is given up
  | .blocked key refusal w => go refusal { w with board := w.board.leave job.holder key }

def Job.isRunnable (job : Job) (w : World) (clock : Nat) : Bool :=
  w.board.locks.owns job.holder job.wait.key || job.deadline ≤ clock

structure Advance (jobs : List Job) where
  left : List Job
  world : World
  answered : Option (Nat × Answer)
  shrinks : Shrinks Job.Closer left jobs

def advance? (s : Setting) (clock : Nat) (w : World) : (jobs : List Job) → Option (Advance jobs)
  | [] => none
  | job :: jobs =>
    if job.isRunnable w clock then
      match job.resume s w with
      | .answered answer w => some ⟨jobs, w, some (job.index, answer), .drop job jobs⟩
      | .waits wait w h =>
        let later : Job := { job with wait, deadline := clock + s.timeout }
        have closer : later.Closer job := h
        some ⟨later :: jobs, w, none, .smaller closer jobs⟩
    else match advance? s clock w jobs with
      | some a => some ⟨job :: a.left, a.world, a.answered, .cons job a.shrinks⟩
      | none => none

structure Settled where
  jobs : List Job
  world : World
  answered : List (Nat × Answer)

def settle (s : Setting) (clock : Nat) (w : World) (jobs : List Job) : Settled :=
  match advance? s clock w jobs with
  | none => ⟨jobs, w, []⟩
  | some a =>
    let settled := settle s clock a.world a.left
    { settled with answered := a.answered.toList ++ settled.answered }
termination_by (Shrinks.wf Job.closer_wf).wrap jobs
decreasing_by exact a.shrinks

end LaneOrder.Session
