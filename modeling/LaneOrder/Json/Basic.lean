import LaneOrder.Decimal.Numeral
import LaneOrder.Uuid

/-!
This module contains JSON documents and their compact text. A document keeps the order of its fields
and the spelling of its numbers, so nothing but blanks and the spelling of strings and exponents is
lost between a text and its document.
-/

namespace LaneOrder

/-- A JSON document. A string or a field name is `none` if its literal contains half of a surrogate
pair: such a literal is well formed but denotes no text. -/
inductive Json where
  | null
  | bool (b : Bool)
  | number (n : Numeral)
  | string (s : Option (List Char))
  | array (items : List Json)
  | object (fields : List (Option (List Char) × Json))

namespace Json

def text (cs : List Char) : Json :=
  .string (some cs)

def ofString (s : String) : Json :=
  text s.toList

def ofNat (n : Nat) : Json :=
  .number (Numeral.ofNat n)

def record (fields : List (String × Json)) : Json :=
  .object (fields.map fun (name, j) => (some name.toList, j))

def escape (c : Char) : List Char :=
  if c = '"' then ['\\', '"']
  else if c = '\\' then ['\\', '\\']
  else if c = '\x08' then ['\\', 'b']
  else if c = '\t' then ['\\', 't']
  else if c = '\n' then ['\\', 'n']
  else if c = '\x0c' then ['\\', 'f']
  else if c = '\r' then ['\\', 'r']
  else if c.toNat < 0x20 then '\\' :: 'u' :: Uuid.hexChars 4 c.toNat
  else [c]

def quote : Option (List Char) → List Char
  | some cs => '"' :: cs.flatMap escape ++ ['"']
  | none => "\"\\ud800\"".toList

mutual

def render : Json → List Char
  | .null => "null".toList
  | .bool true => "true".toList
  | .bool false => "false".toList
  | .number n => n.toChars
  | .string s => quote s
  | .array items => '[' :: renderItems items
  | .object fields => '{' :: renderFields fields

def renderItems : List Json → List Char
  | [] => [']']
  | [j] => j.render ++ [']']
  | j :: js => j.render ++ ',' :: renderItems js

def renderFields : List (Option (List Char) × Json) → List Char
  | [] => ['}']
  | [(name, j)] => quote name ++ ':' :: j.render ++ ['}']
  | (name, j) :: fields => quote name ++ ':' :: j.render ++ ',' :: renderFields fields

end

instance : ToString Json := ⟨fun j => String.ofList j.render⟩

end Json

end LaneOrder
