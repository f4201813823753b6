import LaneOrder.Allocator
import LaneOrder.Binary64.Text
import LaneOrder.Duration
import LaneOrder.Text.Blank
import LaneOrder.Text.Lowercase

/-!
This module contains the configuration: the settings and their defaults, the reading of settings from
variables, and what is wrong with settings that are refused.
-/

namespace LaneOrder

inductive LogFormat where
  | text
  | json
deriving DecidableEq

namespace LogFormat

def name : LogFormat → String
  | text => "text"
  | json => "json"

def names : LogFormat → List String
  | text => ["text", "pretty", "plain"]
  | json => ["json"]

structure Unknown where
  text : String
deriving DecidableEq

def Unknown.message (e : Unknown) : String :=
  "Invalid log format: '" ++ e.text ++ "'. Expected 'text' or 'json'"

def parse (s : String) : Except Unknown LogFormat :=
  let name := Text.lowerList (Text.trimList s.toList)
  match [text, json].find? fun f => f.names.any (·.toList = name) with
  | some f => .ok f
  | none => .error ⟨s⟩

end LogFormat

structure Config where
  databaseUrl : Option String := none
  maxConnections : UInt32 := 10
  increment : Binary64 := Binary64.ofDecimal false 1000 0
  epsilon : Binary64 := Binary64.ofDecimal false 1 (-6)
  lockTimeoutMillis : UInt64 := 5000
  logFormat : LogFormat := .text
deriving DecidableEq

namespace Config

instance : Inhabited Config := ⟨{}⟩

inductive Variable where
  | databaseUrl
  | maxConnections
  | increment
  | epsilon
  | lockTimeout
  | logFormat
deriving DecidableEq

def Variable.all : List Variable :=
  [.databaseUrl, .maxConnections, .increment, .epsilon, .lockTimeout, .logFormat]

def Variable.name : Variable → String
  | databaseUrl => "DATABASE_URL"
  | maxConnections => "DATABASE_MAX_CONNECTIONS"
  | increment => "REORDER_POSITION_INCREMENT"
  | epsilon => "REORDER_EXHAUSTION_EPSILON"
  | lockTimeout => "REORDER_LOCK_TIMEOUT_MS"
  | logFormat => "LOG_FORMAT"

inductive Reason where
  | unreadable
  | notPositive
  | negative
  | notBelowIncrement
  | zero
deriving DecidableEq

def Reason.text : Reason → String
  | unreadable => "could not be parsed"
  | notPositive => "must be a positive finite number"
  | negative => "must be a non-negative finite number"
  | notBelowIncrement => "must be smaller than the position increment"
  | zero => "must be greater than zero"

inductive Error where
  | invalidValue (name : Variable) (value : String) (reason : Reason)
  | invalidLogFormat (e : LogFormat.Unknown)
deriving DecidableEq

def Error.message : Error → String
  | invalidValue v value reason =>
    "Invalid value '" ++ value ++ "' for " ++ v.name ++ ": " ++ reason.text
  | invalidLogFormat e => e.message

def error? (c : Config) : Option Error :=
  if !(c.increment.isFinite && Binary64.ofNat 0 < c.increment) then
    some (.invalidValue .increment (toString c.increment) .notPositive)
  else if !(c.epsilon.isFinite && Binary64.ofNat 0 ≤ c.epsilon) then
    some (.invalidValue .epsilon (toString c.epsilon) .negative)
  else if c.increment ≤ c.epsilon then
    some (.invalidValue .epsilon (toString c.epsilon) .notBelowIncrement)
  else if c.lockTimeoutMillis = 0 then
    some (.invalidValue .lockTimeout "0" .zero)
  else if c.maxConnections = 0 then
    some (.invalidValue .maxConnections "0" .zero)
  else none

def checked (c : Config) : Except Error Config :=
  match c.error? with
  | some e => .error e
  | none => .ok c

def allocator (c : Config) : Allocator :=
  ⟨c.increment, c.epsilon⟩

def lockTimeout (c : Config) : Duration :=
  .ofMillis c.lockTimeoutMillis

inductive Setter where
  | databaseUrl (url : String)
  | maxConnections (n : UInt32)
  | increment (x : Binary64)
  | epsilon (x : Binary64)
  | lockTimeout (d : Duration)
  | logFormat (f : LogFormat)
deriving DecidableEq

def set (c : Config) : Setter → Config
  | .databaseUrl url => { c with databaseUrl := some url }
  | .maxConnections n => { c with maxConnections := n }
  | .increment x => { c with increment := x }
  | .epsilon x => { c with epsilon := x }
  | .lockTimeout d => { c with lockTimeoutMillis := UInt64.ofNat d.millis }
  | .logFormat f => { c with logFormat := f }

def build (setters : List Setter) : Except Error Config :=
  (setters.foldl set {}).checked

def readNat? (limit : Nat) (cs : List Char) : Option Nat :=
  let digits := match cs with
    | '+' :: rest => rest
    | cs => cs
  (Decimal.parse? digits).filter (· < limit)

def value? (lookup : String → Option String) (v : Variable) : Option String :=
  -- a blank value counts as none
  ((lookup v.name).map Text.trim).filter (!·.isEmpty)

def readOr {α : Type} (lookup : String → Option String) (v : Variable)
    (read? : List Char → Option α) (default : α) : Except Error α :=
  match value? lookup v with
  | none => .ok default
  | some s => match read? s.toList with
    | some a => .ok a
    | none => .error (.invalidValue v s .unreadable)

def readLogFormat (lookup : String → Option String) : Except Error LogFormat :=
  match value? lookup .logFormat with
  | none => .ok ({} : Config).logFormat
  | some s => match LogFormat.parse s with
    | .ok f => .ok f
    | .error e => .error (.invalidLogFormat e)

def ofVariables (lookup : String → Option String) : Except Error Config := do
  let d : Config := {}
  let databaseUrl := value? lookup .databaseUrl
  let maxConnections ← readOr lookup .maxConnections
    (fun cs => (readNat? (1 <<< 32) cs).map UInt32.ofNat) d.maxConnections
  let increment ← readOr lookup .increment Binary64.read? d.increment
  let epsilon ← readOr lookup .epsilon Binary64.read? d.epsilon
  let lockTimeoutMillis ← readOr lookup .lockTimeout
    (fun cs => (readNat? (1 <<< 64) cs).map UInt64.ofNat) d.lockTimeoutMillis
  let logFormat ← readLogFormat lookup
  checked { databaseUrl, maxConnections, increment, epsilon, lockTimeoutMillis, logFormat }

end Config

end LaneOrder
