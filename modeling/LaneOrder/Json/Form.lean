import LaneOrder.Json.Number
import LaneOrder.Json.Reader
import LaneOrder.Sort
import LaneOrder.Timestamp.Text

/-!
This module contains the forms of values as documents: how a value is written, and from which documents it is
read. A value has one written form and may be read from others.
-/

namespace LaneOrder.Json

structure Form (α : Type) where
  write : α → Json
  read? : Json → Option α

namespace Form

variable {α β : Type}

def render (f : Form α) (a : α) : List Char :=
  (f.write a).render

def parse? (f : Form α) (cs : List Char) : Option α :=
  (Json.parse? cs).bind f.read?

def ofIso (f : Form α) (unwrap : β → α) (wrap : α → β) : Form β where
  write b := f.write (unwrap b)
  read? j := (f.read? j).map wrap

def text : Form String where
  write := ofString
  read?
    | .string (some cs) => some (String.ofList cs)
    | _ => none

def flag : Form Bool where
  write := .bool
  read?
    | .bool b => some b
    | _ => none

def binary64 : Form Binary64 where
  write := Binary64.toJson
  read?
    | .number n => n.toBinary64?
    | _ => none

def uuid : Form Uuid where
  write a := Json.text a.toChars
  read?
    | .string (some cs) => Uuid.read? cs
    | _ => none

def taskId : Form TaskId :=
  uuid.ofIso TaskId.uuid TaskId.mk

def workspaceId : Form WorkspaceId :=
  uuid.ofIso WorkspaceId.uuid WorkspaceId.mk

def actorId : Form ActorId :=
  uuid.ofIso ActorId.uuid ActorId.mk

def timestamp : Form Timestamp where
  write t := Json.text t.toRfc3339
  read?
    | .string (some cs) => Timestamp.read? cs
    | _ => none

def named (ofName? : List Char → Option α) (name : α → String) : Form α where
  write a := ofString (name a)
  read?
    | .string (some cs) => ofName? cs
    | .object [(some cs, .null)] => ofName? cs
    | _ => none

def optional (f : Form α) : Form (Option α) where
  write
    | some a => f.write a
    | none => .null
  read?
    | .null => some none
    | j => (f.read? j).map some

def list (f : Form α) : Form (List α) where
  write as := .array (as.map f.write)
  read?
    | .array items => items.mapM f.read?
    | _ => none

def required? (f : Form α) (part : Option Json) : Option α :=
  part.bind f.read?

def ifGiven? (f : Form α) : Option Json → Option (Option α)
  | none => some none
  | some j => f.optional.read? j

end Form

/-- The parts of a record with the given field names, in their order. A record is an object, in which other
fields are ignored but no field of the record occurs twice, or an array of all parts. -/
def parts? (names : List String) : Json → Option (List (Option Json))
  | .array items => if items.length = names.length then some (items.map some) else none
  | .object fields =>
    if fields.all (·.1.isSome) then
      names.mapM fun name => match fields.filter (·.1 = some name.toList) with
        | [] => some none
        | [(_, j)] => some (some j)
        | _ => none
    else none
  | _ => none

def depth : Json → Nat
  | .array items => depthItems items + 1
  | .object fields => depthFields fields + 1
  | _ => 0
where
  depthItems : List Json → Nat
    | [] => 0
    | j :: js => max j.depth (depthItems js)
  depthFields : List (Option (List Char) × Json) → Nat
    | [] => 0
    | (_, j) :: fields => max j.depth (depthFields fields)

def sortFields (fields : List (Option (List Char) × Json)) : List (Option (List Char) × Json) :=
  sortBy (fun a b => !(b.1.getD [] < a.1.getD [])) (keepLast fields)
where
  keepLast : List (Option (List Char) × Json) → List (Option (List Char) × Json)
    | [] => []
    -- of fields with one name the last one counts
    | f :: fs => if fs.any (·.1 = f.1) then keepLast fs else f :: keepLast fs

/-- An object with this name for its first field stands for the document that the text of the field
holds. -/
def embeddedName : List Char :=
  "$serde_json::private::RawValue".toList

def isEmbedding : List (Option (List Char) × Json) → Bool
  | (name, _) :: _ => name = some embeddedName
  | [] => false

/-- The text that holds an embedded document. An object that stands for one has no other fields. -/
def embedding? : List (Option (List Char) × Json) → Option (List Char)
  | [(_, .string text)] => text
  | _ => none

mutual

/-- A document of free form in its canonical spelling, with embedded documents in place, which are read by
`embedded?`. There is none if a string denotes no text or a number is out of range. -/
def normalize? (embedded? : List Char → Option Json) : Json → Option Json
  | .null => some .null
  | .bool b => some (.bool b)
  | .number n => n.normalize?.map .number
  | .string s => s.map text
  | .array items => (normalizeItems? embedded? items).map .array
  | .object fields =>
    if isEmbedding fields then (embedding? fields).bind embedded?
    else (normalizeFields? embedded? fields).map fun fs => .object (sortFields fs)

def normalizeItems? (embedded? : List Char → Option Json) : List Json → Option (List Json)
  | [] => some []
  | j :: js => do return (← j.normalize? embedded?) :: (← normalizeItems? embedded? js)

def normalizeFields? (embedded? : List Char → Option Json) :
    List (Option (List Char) × Json) → Option (List (Option (List Char) × Json))
  | [] => some []
  | (name, j) :: fields => do
    let name ← name
    return (some name, ← j.normalize? embedded?) :: (← normalizeFields? embedded? fields)

end

/-- Read a text that holds a document of free form, nested at most 127 deep. Each embedded document is
held by a shorter text, so the length of the text bounds how often one embeds another. -/
def readFree? (cs : List Char) : Option Json :=
  go (cs.length + 1) cs
where
  go : Nat → List Char → Option Json
  | 0, _ => none
  | levels + 1, cs => do
    let j ← parse? cs
    if j.depth ≤ 127 then j.normalize? (go levels) else none

def Form.document : Form Json where
  write := id
  read? j := if j.depth ≤ 126 then j.normalize? readFree? else none

end LaneOrder.Json
