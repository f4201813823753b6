import LaneOrder.Binary64.Shortest
import LaneOrder.Decimal.Numeral

/-!
This module contains the decimal text of binary64 numbers and its reading. Numbers are written with
the fewest digits that read back; `plain` is the layout of messages. Reading rounds correctly.
-/

namespace LaneOrder.Binary64

def toNumeral (l : Layout) (x : Binary64) : Numeral :=
  let s := x.shortest l.tie
  l.write x.isNegative (Decimal.numeral s.digits) s.exponent

/-- Messages write every number positionally and integers without a point. Ties go away from zero. -/
def plain : Layout := ⟨none, false, .away⟩

def toText (x : Binary64) : List Char :=
  if x.isNaN then "NaN".toList
  else if x.isInfinite then if x.isNegative then "-inf".toList else "inf".toList
  else (x.toNumeral plain).toChars

instance : ToString Binary64 := ⟨fun x => String.ofList x.toText⟩

def ofDecimal (negative : Bool) (n : Nat) (e : Int) : Binary64 :=
  -- outside of these exponents the decimal is below half of the smallest number, or above the greatest finite one
  if n = 0 || e + (n.log2 / 3 + 1) < -400 then ofMagnitude negative 0
  else if 400 < e then ofMagnitude negative infinityMagnitude
  else
    let p := timesPow10 n e
    round negative (p.1 <<< 1074) p.2

def ofNumeral (n : Numeral) : Binary64 :=
  ofDecimal n.negative (Decimal.value (n.whole ++ n.fraction))
    (n.exponent.getD 0 - n.fraction.length)

def readSign : List Char → Bool × List Char
  | '-' :: cs => (true, cs)
  | '+' :: cs => (false, cs)
  | cs => (false, cs)

def readExponent? (cs : List Char) : Option Int :=
  let r := readSign cs
  (Decimal.parse? r.2).map fun n => if r.1 then -(n : Int) else n

def readNumeral? (negative : Bool) (cs : List Char) : Option Numeral :=
  let whole := Decimal.spanDigits cs
  let fraction := match whole.2 with
    | '.' :: rest => Decimal.spanDigits rest
    | rest => ([], rest)
  if whole.1.isEmpty && fraction.1.isEmpty then none
  else match fraction.2 with
    | [] => some ⟨negative, whole.1, fraction.1, none⟩
    | c :: rest =>
      if c == 'e' || c == 'E' then
        (readExponent? rest).map fun e => ⟨negative, whole.1, fraction.1, some e⟩
      else none

def read? (cs : List Char) : Option Binary64 :=
  let r := readSign cs
  let name := String.ofList (r.2.map Char.toLower)
  if name == "inf" || name == "infinity" then some (ofMagnitude r.1 infinityMagnitude)
  else if name == "nan" then some (ofMagnitude r.1 nan.magnitude)
  else (readNumeral? r.1 r.2).map ofNumeral

end LaneOrder.Binary64
