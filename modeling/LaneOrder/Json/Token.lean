import LaneOrder.Json.Basic

/-!
This module contains the tokens of a JSON text. Splitting a text into tokens settles blanks, the
spelling of strings and the form of numbers; what tokens may follow each other is left to the reader.
-/

namespace LaneOrder.Json

inductive Token where
  | openBrace
  | closeBrace
  | openBracket
  | closeBracket
  | colon
  | comma
  | null
  | bool (b : Bool)
  | number (n : Numeral)
  | string (s : Option (List Char))
deriving DecidableEq

inductive StringUnit where
  | char (c : Char)
  | half (n : Nat)
deriving DecidableEq

namespace StringUnit

def ofCode (n : Nat) : StringUnit :=
  if 0xd800 ≤ n ∧ n < 0xe000 then .half n else .char (Char.ofNat n)

def join? : List StringUnit → Option (List Char)
  | [] => some []
  | .char c :: us => (join? us).map (c :: ·)
  | .half a :: .half b :: us =>
    if a < 0xdc00 ∧ 0xdc00 ≤ b then
      (join? us).map (Char.ofNat (0x10000 + (a - 0xd800) * 0x400 + (b - 0xdc00)) :: ·)
    else none
  | .half _ :: _ => none

end StringUnit

def unescape? (c : Char) : Option Char :=
  if c = '"' ∨ c = '\\' ∨ c = '/' then some c
  else if c = 'b' then some '\x08'
  else if c = 'f' then some '\x0c'
  else if c = 'n' then some '\n'
  else if c = 'r' then some '\r'
  else if c = 't' then some '\t'
  else none

def readUnits? : List Char → Option (List StringUnit × List Char)
  | [] => none
  | '"' :: rest => some ([], rest)
  | '\\' :: 'u' :: a :: b :: c :: d :: rest => do
    let code ← Uuid.ofHex? [a, b, c, d]
    let (us, rest) ← readUnits? rest
    return (StringUnit.ofCode code :: us, rest)
  | '\\' :: c :: rest => do
    let c ← unescape? c
    let (us, rest) ← readUnits? rest
    return (.char c :: us, rest)
  | c :: rest =>
    if c.toNat < 0x20 ∨ c = '\\' then none
    else (readUnits? rest).map fun (us, rest) => (.char c :: us, rest)

def readWhole? (cs : List Char) : Option (List Digit × List Char) :=
  match Decimal.spanDigits cs with
  | ([], _) => none
  | ([d], rest) => some ([d], rest)
  | (d :: ds, rest) => if d = Digit.zero then none else some (d :: ds, rest)

def readFraction? : List Char → Option (List Digit × List Char)
  | '.' :: cs => match Decimal.spanDigits cs with
    | ([], _) => none
    | (ds, rest) => some (ds, rest)
  | cs => some ([], cs)

def readExponent? : List Char → Option (Option Int × List Char)
  | [] => some (none, [])
  | c :: cs =>
    if c = 'e' ∨ c = 'E' then
      let (negative, cs) := match cs with
        | '-' :: cs => (true, cs)
        | '+' :: cs => (false, cs)
        | cs => (false, cs)
      match Decimal.spanDigits cs with
      | ([], _) => none
      | (ds, rest) =>
        let n := Decimal.value ds
        some (some (if negative then -(n : Int) else n), rest)
    else some (none, c :: cs)

def readNumeral? (cs : List Char) : Option (Numeral × List Char) := do
  let (negative, cs) := match cs with
    | '-' :: cs => (true, cs)
    | cs => (false, cs)
  let (whole, cs) ← readWhole? cs
  let (fraction, cs) ← readFraction? cs
  let (exponent, cs) ← readExponent? cs
  return (⟨negative, whole, fraction, exponent⟩, cs)

def isSpace (c : Char) : Bool :=
  c = ' ' || c = '\t' || c = '\n' || c = '\r'

def readToken? : List Char → Option (Token × List Char)
  | '{' :: cs => some (.openBrace, cs)
  | '}' :: cs => some (.closeBrace, cs)
  | '[' :: cs => some (.openBracket, cs)
  | ']' :: cs => some (.closeBracket, cs)
  | ':' :: cs => some (.colon, cs)
  | ',' :: cs => some (.comma, cs)
  | 'n' :: 'u' :: 'l' :: 'l' :: cs => some (.null, cs)
  | 't' :: 'r' :: 'u' :: 'e' :: cs => some (.bool true, cs)
  | 'f' :: 'a' :: 'l' :: 's' :: 'e' :: cs => some (.bool false, cs)
  | '"' :: cs => (readUnits? cs).map fun (us, rest) => (.string (StringUnit.join? us), rest)
  | cs => (readNumeral? cs).map fun (n, rest) => (.number n, rest)

/-- Split a text into tokens. Each token takes a character, so the length of the text bounds their
count. -/
def tokens? (cs : List Char) : Option (List Token) :=
  go cs.length (cs.dropWhile isSpace)
where
  go : Nat → List Char → Option (List Token)
  | _, [] => some []
  | 0, _ :: _ => none
  | count + 1, cs => do
    let (t, rest) ← readToken? cs
    let ts ← go count (rest.dropWhile isSpace)
    return t :: ts

end LaneOrder.Json
