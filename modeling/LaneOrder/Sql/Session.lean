import LaneOrder.Request
import LaneOrder.Sql.Script

/-!
This module contains sessions with a database server: the store is used step by step, and every step runs to
its end. Transactions can be kept open under a name from step to step.
-/

namespace LaneOrder.Sql

inductive Step where
  | request (r : Request)
  | begin (tx : String)
  | within (tx : String) (c : Call)
  | drop (tx : String)
  | schema
  | grant (m : Membership)
  | describe (tx : String)
  | allocator

inductive Reply where
  | answer (a : Answer)
  | noTx
  | text (s : String)
  | allocator (a : Allocator)

structure Report where
  reply : Reply
  sent : List Statement
  log : List Notice

structure Setting extends Surroundings where
  lockTimeout : Duration

structure Session where
  freshIds : Nat := 0
  names : List String := []

namespace Session

def description : String :=
  "PostgresTransaction \x7b .. \x7d"

def unname (s : Session) (tx : String) : Session :=
  { s with names := s.names.filter (· ≠ tx) }

def run {α : Type} (s : Session) (setting : Setting) (script : List ScriptedReply) (p : Working α)
    (reply : α → Reply) : Report × Session :=
  let (a, w) := exec setting.toSurroundings p { script, journal := { freshIds := s.freshIds } }
  let w := w.settle
  (⟨reply a, w.sent, w.journal.log⟩, { s with freshIds := w.journal.freshIds })

def step (s : Session) (setting : Setting) (script : List ScriptedReply) : Step → Report × Session
  | .request r => s.run setting script (statementsOf setting.lockTimeout r.program) .answer
  | .begin tx =>
    let p := statementsOf setting.lockTimeout (Request.call .begin).program
    let (report, s) := s.run setting script p .answer
    match report.reply with
    | .answer .done => (report, { s with names := tx :: s.names })
    | _ => (report, s)
  | .within tx c =>
    if tx ∈ s.names then
      let p := statementsOf setting.lockTimeout (Request.call c).program
      let (report, s) := s.run setting script p .answer
      (report, if c.isEnd then s.unname tx else s)
    else (⟨.noTx, [], []⟩, s)
  | .drop tx =>
    if tx ∈ s.names then (s.unname tx).run setting script Sql.drop fun _ => .answer .done
    else (⟨.noTx, [], []⟩, s)
  | .schema => s.run setting script ensureSchema fun r => .answer (.ofStore (fun _ => .done) r)
  | .grant m => s.run setting script (Sql.grant m) fun r => .answer (.ofStore (fun _ => .done) r)
  | .describe tx => (⟨if tx ∈ s.names then .text description else .noTx, [], []⟩, s)
  | .allocator => (⟨.allocator setting.allocator, [], []⟩, s)

end Session

end LaneOrder.Sql
