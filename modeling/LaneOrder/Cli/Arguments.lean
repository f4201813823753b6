import LaneOrder.Uuid

/-!
This module contains the grammar of the command line. A request for help counts if it is met before anything
that is wrong.
-/

namespace LaneOrder.Cli

inductive Command where
  | migrate
  | renormalize (workspace actor : Uuid) (lane : String)
deriving DecidableEq

inductive Parsed where
  | command (c : Command)
  | help
  | misuse
deriving DecidableEq

inductive Flag where
  | workspace
  | actor
  | lane
deriving DecidableEq

namespace Flag

def all : List Flag := [.workspace, .actor, .lane]

def name : Flag → String
  | workspace => "--workspace"
  | actor => "--actor"
  | lane => "--lane"

def accepts (f : Flag) (value : String) : Bool :=
  match f with
  | lane => true
  | workspace | actor => (Uuid.read? value.toList).isSome

end Flag

def isOption (arg : String) : Bool :=
  match arg.toList with
  | '-' :: _ :: _ => true
  | _ => false

def isHelp (arg : String) : Bool :=
  arg = "--help" || "-h".toList.isPrefixOf arg.toList

def flag? (arg : String) : Option (Flag × Option String) :=
  let cs := arg.toList
  let (name, value) := (cs.takeWhile (· ≠ '='), cs.dropWhile (· ≠ '='))
  (Flag.all.find? (·.name.toList = name)).map fun f => match value with
    | [] => (f, none)
    | _ :: value => (f, some (String.ofList value))

abbrev Given := List (Flag × String)

def renormalize (given : Given) : Parsed :=
  match given.lookup .workspace, given.lookup .actor, given.lookup .lane with
  | some workspace, some actor, some lane =>
    match Uuid.read? workspace.toList, Uuid.read? actor.toList with
    | some workspace, some actor => .command (.renormalize workspace actor lane)
    | _, _ => .misuse
  | _, _, _ => .misuse

def parseOptions (given : Given) : List String → Parsed
  | [] => renormalize given
  | arg :: args =>
    if isHelp arg then .help
    else if arg = "--" then if args.isEmpty then renormalize given else .misuse
    else match flag? arg with
      | none => .misuse
      | some (f, some value) =>
        if (given.lookup f).isSome || !f.accepts value then .misuse
        else parseOptions ((f, value) :: given) args
      | some (f, none) => match args with
        | [] => .misuse
        | value :: args =>
          if isOption value || (given.lookup f).isSome || !f.accepts value then .misuse
          else parseOptions ((f, value) :: given) args

def parseNothing : List String → Parsed
  | [] => .command .migrate
  | arg :: args =>
    if isHelp arg then .help
    else if arg = "--" ∧ args.isEmpty then .command .migrate
    else .misuse

def helpTopics : List (List String) :=
  [[], ["migrate"], ["renormalize"], ["help"]]

def parse : List String → Parsed
  | [] => .misuse
  | arg :: args =>
    if isHelp arg then .help
    else if arg = "migrate" then parseNothing args
    else if arg = "renormalize" then parseOptions [] args
    else if arg = "help" then if args ∈ helpTopics then .help else .misuse
    else .misuse

def Parsed.exitCode : Parsed → Nat
  | help => 0
  | _ => 2

end LaneOrder.Cli
