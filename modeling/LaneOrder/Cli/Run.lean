import LaneOrder.Cli.Arguments
import LaneOrder.Command.Renormalize
import LaneOrder.Config
import LaneOrder.Sql.Store

/-!
This module contains the commands of the command line: what each of them does, what it prints, and how its
failure is reported.
-/

namespace LaneOrder.Cli

structure Failure where
  message : String
  cause : Option String := none
deriving DecidableEq

namespace Failure

def report (f : Failure) : String :=
  let indent (c : Char) : List Char := if c = '\n' then "\n    ".toList else [c]
  let cause := match f.cause with
    | some cause => "\n\nCaused by:\n    " ++ String.ofList (cause.toList.flatMap indent)
    | none => ""
  "Error: " ++ f.message ++ cause ++ "\n"

def connect (e : StoreError) : Failure :=
  ⟨"failed to connect to PostgreSQL", some e.message⟩

end Failure

inductive Plan where
  | exit (parsed : Parsed)
  | fail (f : Failure)
  | connect (url : String) (c : Config) (command : Command)

def plan (args : List String) (lookup : String → Option String) : Plan :=
  match parse args with
  -- the variables are only read for a well-formed command
  | .command command => match Config.ofVariables lookup with
    | .error e => .fail ⟨"invalid configuration", some e.message⟩
    | .ok c => match c.databaseUrl with
      | none => .fail (.connect Sql.notConfigured)
      | some url => .connect url c command
  | parsed => .exit parsed

def line (t : Task) : String :=
  toString t.position ++ "\t" ++ toString t.id ++ "\t" ++ t.title ++ "\n"

def run (c : Config) : Command → Sql.Working (Except Failure String)
  | .migrate => do
    match ← Sql.ensureSchema with
    | .ok _ => return .ok ""
    | .error e => return .error ⟨"schema migration failed", some e.message⟩
  | .renormalize workspace actor lane => do
    match ← Sql.statementsOf c.lockTimeout (renormalizeLane ⟨⟨workspace⟩, ⟨actor⟩, lane⟩) with
    | .ok outcome => return .ok (String.join (outcome.tasks.map line))
    | .error e => return .error ⟨e.message, none⟩

end LaneOrder.Cli
