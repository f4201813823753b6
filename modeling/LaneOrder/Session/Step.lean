import LaneOrder.Session.Basic

/-!
This module contains sessions: a board is used step by step, and commands that have to wait stay behind
until they can go on. Transactions can be kept open under a name from step to step. The clock of the waits
stands still unless a step advances it.
-/

namespace LaneOrder.Session

open Board

inductive Step where
  | request (r : Request)
  | begin (tx : String)
  | within (tx : String) (c : Call)
  | drop (tx : String)
  | cancel (index : Nat)
  | advance (milliseconds : Nat)
  | grant (m : Membership)
  | revoke (workspace : WorkspaceId) (actor : ActorId)
  | setAuditFailing (failing : Bool)
  | audit
  | fault (f : Fault)
  | clearFaults
  | allocator

inductive Reply where
  | answer (a : Answer)
  | pending
  | txOpen
  | noTx
  | noCommand
  | entries (es : List AuditEntry)
  | allocator (a : Allocator)

structure Report where
  reply : Reply
  answered : List (Nat × Answer) := []
  log : List Notice := []

end Session

structure Session where
  world : Session.World := {}
  clock : Nat := 0
  steps : Nat := 0
  jobs : List Session.Job := []
  names : List (String × Holder) := []

namespace Session

open Board

def holder? (s : Session) (tx : String) : Option Holder :=
  if s.jobs.any (·.tx = some tx) then none else s.names.lookup tx

def unname (s : Session) (tx : String) : Session :=
  { s with names := s.names.filter (·.1 ≠ tx) }

def modifyBoard (s : Session) (f : Board → Board) : Session :=
  { s with world := { s.world with board := f s.world.board } }

def settled (s : Session) (setting : Setting) : List (Nat × Answer) × Session :=
  let r := settle setting s.clock s.world s.jobs
  (r.answered, { s with world := r.world, jobs := r.jobs })

def replied (s : Session) (setting : Setting) (reply : Reply) : Report × Session :=
  let (answered, s) := s.settled setting
  ({ reply, answered }, s)

def start (s : Session) (setting : Setting) (holder : Holder) (tx : Option String) (r : Request) :
    Report × Session :=
  match run setting holder (actionsOrFailures r.program) s.world with
  | .answered answer world => replied { s with world } setting (.answer answer)
  | .waits wait world _ =>
    let job : Job := ⟨s.steps, holder, tx, wait, s.clock + setting.timeout⟩
    let (answered, s) := settled { s with world, jobs := s.jobs ++ [job] } setting
    -- it may have waited for a command that was answered in the same step
    match answered.lookup job.index with
    | some answer => ({ reply := .answer answer, answered := answered.filter (·.1 ≠ job.index) }, s)
    | none => ({ reply := .pending, answered }, s)

def begin (s : Session) (setting : Setting) (tx : String) : Report × Session :=
  if (s.names.lookup tx).isSome then s.replied setting .txOpen
  else
    let (report, t) := s.start setting s.steps none (.call .begin)
    match report.reply with
    | .answer .done => (report, { t with names := (tx, s.steps) :: t.names })
    | _ => (report, t)

def cancel (s : Session) (setting : Setting) (index : Nat) : Report × Session :=
  match s.jobs.find? (·.index = index) with
  | none => s.replied setting .noCommand
  | some job =>
    let s := { s with jobs := s.jobs.filter (·.index ≠ index) }
    let s := s.modifyBoard (·.release job.holder)
    let s := match job.tx with
      | some tx => s.unname tx
      | none => s
    s.replied setting (.answer .done)

def reply (s : Session) (setting : Setting) : Step → Report × Session
  | .request r => s.start setting s.steps none r
  | .begin tx => s.begin setting tx
  | .within tx c => match s.holder? tx with
    | none => s.replied setting .noTx
    | some holder =>
      let (report, s) := s.start setting holder (some tx) (.call c)
      (report, if c.isEnd then s.unname tx else s)
  | .drop tx => match s.holder? tx with
    | none => s.replied setting .noTx
    | some holder => ((s.unname tx).modifyBoard (·.release holder)).replied setting (.answer .done)
  | .cancel index => s.cancel setting index
  | .advance ms => replied { s with clock := s.clock + ms } setting (.answer .done)
  | .grant m => (s.modifyBoard (·.grant m)).replied setting (.answer .done)
  | .revoke workspace actor => (s.modifyBoard (·.revoke workspace actor)).replied setting (.answer .done)
  | .setAuditFailing failing =>
    (s.modifyBoard fun b => { b with audit := { b.audit with failing } }).replied setting (.answer .done)
  | .audit => s.replied setting (.entries s.world.board.audit.entries)
  | .fault f =>
    replied { s with world := { s.world with faults := s.world.faults ++ [f] } } setting (.answer .done)
  | .clearFaults => replied { s with world := { s.world with faults := [] } } setting (.answer .done)
  | .allocator => s.replied setting (.allocator setting.allocator)

def step (s : Session) (setting : Setting) (step : Step) : Report × Session :=
  let (report, s) := s.reply setting step
  let journal := s.world.journal
  ({ report with log := journal.log },
    { s with steps := s.steps + 1, world := { s.world with journal := { journal with log := [] } } })

def unfinished (s : Session) : List Nat :=
  s.jobs.map (·.index)

end Session

end LaneOrder
