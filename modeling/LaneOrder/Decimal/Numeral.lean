import LaneOrder.Decimal.Basic

/-!
This module contains decimal numerals: a sign, digits before and after a point, and a power of ten; and
how numbers are written as numerals.
-/

namespace LaneOrder

structure Numeral where
  negative : Bool
  whole : List Digit
  fraction : List Digit
  exponent : Option Int
deriving DecidableEq, Repr

namespace Numeral

def exponentChars (e : Int) : List Char :=
  'e' :: (if e < 0 then '-' else '+') :: Decimal.ofNat e.natAbs

def toChars (n : Numeral) : List Char :=
  (if n.negative then ['-'] else [])
    ++ Decimal.toChars n.whole
    ++ (if n.fraction.isEmpty then [] else '.' :: Decimal.toChars n.fraction)
    ++ (match n.exponent with | some e => exponentChars e | none => [])

def ofNat (n : Nat) : Numeral :=
  ⟨false, Decimal.numeral n, [], none⟩

end Numeral

/-- Which of two decimals is taken that are equally near to a number: the one with the even last digit,
or the one farther from zero. -/
inductive Tie where
  | even
  | away
deriving DecidableEq

def Tie.takesLower : Tie → Nat → Bool
  | even, n => n % 2 == 0
  | away, _ => false

/-- How a number is written: which decimal exponents are written positionally (all, if no bounds are
given), whether an integer gets a zero after the point, and which way ties go. -/
structure Layout where
  positional : Option (Int × Int)
  pointed : Bool
  tie : Tie

namespace Layout

def isPositional (l : Layout) (exponent : Int) : Bool :=
  match l.positional with
  | some (low, high) => low ≤ exponent && exponent ≤ high
  | none => true

def write (l : Layout) (negative : Bool) (digits : List Digit) (exponent : Int) : Numeral :=
  let leading := digits.length + exponent - 1
  if l.isPositional leading then
    if 0 ≤ exponent then
      ⟨negative, digits ++ List.replicate exponent.natAbs Digit.zero, if l.pointed then [Digit.zero] else [], none⟩
    else if 0 ≤ leading then
      ⟨negative, digits.take (leading.natAbs + 1), digits.drop (leading.natAbs + 1), none⟩
    else
      ⟨negative, [Digit.zero], List.replicate (leading.natAbs - 1) Digit.zero ++ digits, none⟩
  else ⟨negative, digits.take 1, digits.drop 1, some leading⟩

end Layout

end LaneOrder
