import LaneOrder.Sql.Store
import LaneOrder.Surroundings

/-!
This module contains a database server that holds no data and answers as scripted, and the running of
programs on it.
-/

namespace LaneOrder.Sql

variable {α : Type}

/-- A scripted answer. It is for the statements that start with a text, or for all but those that open and
close transactions. -/
structure ScriptedReply where
  start : Option String
  answer : (shape : Shape) → Except ServerError shape.Result

def Statement.isFrame : Statement → Bool
  | begin | commit | rollback | setLockTimeout _ => true
  | _ => false

def ScriptedReply.isFor (r : ScriptedReply) (s : Statement) : Bool :=
  match r.start with
  | some start => start.toList.isPrefixOf s.text.toList
  | none => !s.isFrame

def takeReply (s : Statement) : List ScriptedReply → Option ScriptedReply × List ScriptedReply
  | [] => (none, [])
  | r :: rs =>
    if r.isFor s then (some r, rs)
    else
      let (found, rs) := takeReply s rs
      (found, r :: rs)

structure World where
  script : List ScriptedReply := []
  sent : List Statement := []
  dropped : Nat := 0
  journal : Journal := {}

namespace World

def answer (w : World) (s : Statement) : Except ServerError s.shape.Result × World :=
  let (found, script) := takeReply s w.script
  let w := { w with script, sent := w.sent ++ [s] }
  match found with
  | some r => (r.answer s.shape, w)
  | none => (.ok s.shape.default, w)

def perform (s : Surroundings) (w : World) : (op : Op) → op.Reply × World
  | .ambient c =>
    let (reply, journal) := s.answer w.journal c
    (reply, { w with journal })
  | .run statement => w.answer statement
  | .drop => ((), { w with dropped := w.dropped + 1 })

def settle (w : World) : World :=
  (List.replicate w.dropped ()).foldl (fun w _ => (w.answer .rollback).2) { w with dropped := 0 }

end World

def exec (s : Surroundings) : Working α → World → α × World
  | .done a, w => (a, w)
  | .perform op next, w =>
    let (reply, w) := w.perform s op
    exec s (next reply) w

end LaneOrder.Sql
