import LaneOrder.Decimal.Basic
import LaneOrder.Text.Blank
import LaneOrder.Timestamp.Basic

/-!
This module contains the two texts of a point in time, the one of RFC 3339 and the one for people,
and the reading of the former. Reading is lenient about blanks between the parts, about the letter
case of the marks and about the count of digits, and takes any offset of less than a day.
-/

namespace LaneOrder.Timestamp

/-- Years of one to four digits have four; all others have a sign as well. -/
def yearChars (year : Int) : List Char :=
  if 0 ≤ year ∧ year ≤ 9999 then Decimal.padded 4 year.toNat
  else (if year < 0 then '-' else '+') :: Decimal.padded 4 year.natAbs

def dateChars (t : Timestamp) : List Char :=
  let d := t.date
  yearChars d.year ++ '-' :: Decimal.padded 2 d.month ++ '-' :: Decimal.padded 2 d.day

def clockChars (t : Timestamp) : List Char :=
  Decimal.padded 2 t.hourOfDay ++ ':' :: Decimal.padded 2 t.minuteOfHour
    ++ ':' :: Decimal.padded 2 t.secondOfMinute

def fractionChars (t : Timestamp) : List Char :=
  let n := t.nanos % 1000000000
  if n = 0 then []
  else if n % 1000000 = 0 then '.' :: Decimal.padded 3 (n / 1000000)
  else if n % 1000 = 0 then '.' :: Decimal.padded 6 (n / 1000)
  else '.' :: Decimal.padded 9 n

def toRfc3339 (t : Timestamp) : List Char :=
  t.dateChars ++ 'T' :: t.clockChars ++ t.fractionChars ++ ['Z']

def toText (t : Timestamp) : List Char :=
  t.dateChars ++ ' ' :: t.clockChars ++ " UTC".toList

instance : ToString Timestamp := ⟨fun t => String.ofList t.toText⟩

def skipBlanks (cs : List Char) : List Char :=
  cs.dropWhile Text.isBlank

def readDigits? (width : Nat) (cs : List Char) : Option (List Digit × List Char) :=
  let digits := (Decimal.spanDigits (cs.take width)).1
  if digits.isEmpty then none else some (digits, cs.drop digits.length)

def readField? (cs : List Char) : Option (Nat × List Char) :=
  (readDigits? 2 (skipBlanks cs)).map fun (ds, rest) => (Decimal.value ds, rest)

def readMark? (mark : Char) (cs : List Char) : Option (List Char) :=
  match skipBlanks cs with
  | c :: rest => if c = mark then some rest else none
  | [] => none

def readYear? (cs : List Char) : Option (Int × List Char) :=
  match skipBlanks cs with
  | '-' :: rest => (readDigits? rest.length rest).map fun (ds, rest) => (-(Decimal.value ds : Int), rest)
  | '+' :: rest => (readDigits? rest.length rest).map fun (ds, rest) => ((Decimal.value ds : Int), rest)
  | rest => (readDigits? 4 rest).map fun (ds, rest) => ((Decimal.value ds : Int), rest)

def readFraction? : List Char → Option (Nat × List Char)
  | '.' :: cs => do
    let (digits, rest) ← readDigits? 9 cs
    return (Decimal.value digits * Nat.pow 10 (9 - digits.length), (Decimal.spanDigits rest).2)
  | cs => some (0, cs)

def readOffsetMinutes? (cs : List Char) : Option (Nat × List Char) :=
  match cs.dropWhile fun c => c == ':' || Text.isBlank c with
  | a :: b :: rest => do
    let a ← Digit.ofChar? a
    let b ← Digit.ofChar? b
    if a.val < 6 then return (10 * a.val + b.val, rest) else none
  | _ => none

def readOffset? (cs : List Char) : Option (Int × List Char) :=
  if (cs.take 3).map Char.toLower = ['u', 't', 'c'] then some (0, cs.drop 3)
  else match cs with
    | [] => none
    | sign :: cs =>
      if sign = 'Z' ∨ sign = 'z' then some (0, cs)
      else if sign = '+' ∨ sign = '-' ∨ sign = Char.ofNat 0x2212 then
        match cs with
        | a :: b :: cs => do
          let a ← Digit.ofChar? a
          let b ← Digit.ofChar? b
          let (minutes, rest) ← readOffsetMinutes? cs
          let offset : Int := (10 * a.val + b.val) * 3600 + minutes * 60
          return (if sign = '+' then offset else -offset, rest)
        | _ => none
      else none

def ofLocal? (date : Date) (hour minute second nanos : Nat) (offset : Int) : Option Timestamp :=
  if date.isValid && -262143 ≤ date.year && date.year ≤ 262142 && hour < 24 && minute < 60
      && second ≤ 60 && -86400 < offset && offset < 86400 then
    let leap := second == 60
    let seconds := date.toDays * 86400 + hour * 3600 + minute * 60 + (if leap then 59 else second)
    ofUnix? (seconds - offset) (nanos + if leap then 1000000000 else 0)
  else none

def read? (cs : List Char) : Option Timestamp := do
  let (year, cs) ← readYear? cs
  let cs ← readMark? '-' cs
  let (month, cs) ← readField? cs
  let cs ← readMark? '-' cs
  let (day, cs) ← readField? cs
  let cs ← match cs with
    | c :: rest => if c = 'T' ∨ c = 't' ∨ c = ' ' then some rest else none
    | [] => none
  let (hour, cs) ← readField? cs
  let cs ← readMark? ':' cs
  let (minute, cs) ← readField? cs
  let cs ← readMark? ':' cs
  let (second, cs) ← readField? cs
  let (nanos, cs) ← readFraction? cs
  let (offset, cs) ← readOffset? (skipBlanks cs)
  if (skipBlanks cs).isEmpty then
    ofLocal? ⟨year, month, day⟩ hour minute second nanos offset
  else none

end LaneOrder.Timestamp
