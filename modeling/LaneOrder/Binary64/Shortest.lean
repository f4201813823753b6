import LaneOrder.Binary64.Arithmetic
import LaneOrder.Decimal.Numeral

/-!
This module contains the shortest decimal that reads back as a given binary64 number. A decimal reads
back iff it lies between the midpoints to the two neighbours of the number, so the search goes through
the grids of multiples of `10 ^ j` from coarse to fine: the first grid with a point in that interval
needs the fewest digits, and of its points the nearest one is taken. Two points can be equally near.
-/

namespace LaneOrder.Binary64

structure Scientific where
  digits : Nat
  exponent : Int
deriving DecidableEq, Repr

def timesPow10 (n : Nat) (j : Int) : Nat × Nat :=
  if j < 0 then (n, Nat.pow 10 j.natAbs) else (n * Nat.pow 10 j.natAbs, 1)

/-- The reals that round to a given number, and the number itself, in units of `2 ^ -1075`. -/
structure Interval where
  low : Nat
  middle : Nat
  high : Nat
  closed : Bool

def interval (x : Binary64) : Interval where
  low := (ofWord (x.magnitude - 1)).units + x.units
  middle := 2 * x.units
  high := x.units + (ofWord (x.magnitude + 1)).units
  closed := x.magnitude % 2 == 0

def Interval.contains (i : Interval) (n : Nat) (j : Int) : Bool :=
  let p := timesPow10 n j
  let num := p.1 <<< 1075
  if i.closed then i.low * p.2 ≤ num && num ≤ i.high * p.2
  else i.low * p.2 < num && num < i.high * p.2

def Interval.nearest? (i : Interval) (tie : Tie) (j : Int) : Option Nat :=
  let unit := timesPow10 1 j
  let num := i.middle * unit.2
  let den := unit.1 <<< 1075
  let below := num / den
  let rest := num % den
  let first := if 2 * rest < den || (2 * rest == den && tie.takesLower below) then below else below + 1
  let second := if first == below then below + 1 else below
  if i.contains first j then some first
  else if i.contains second j then some second
  else none

/-- The coarsest of `steps` grids from `10 ^ j` downwards that has a point in the interval. -/
def Interval.coarsest? (i : Interval) (tie : Tie) : Nat → Int → Option Scientific
  | 0, _ => none
  | steps + 1, j => match i.nearest? tie j with
    | some n => some ⟨n, j⟩
    | none => i.coarsest? tie steps (j - 1)

/-- The shortest decimal that reads back as the absolute value of a finite number. The search starts
above the number and cannot pass `10 ^ -1074`, of which every number is a multiple. -/
def shortest (x : Binary64) (tie : Tie) : Scientific :=
  if x.isZero then ⟨0, 0⟩
  else
    let i := x.interval
    let start := (Nat.log2 (i.high >>> 1075) + 1) / 3 + 1
    (i.coarsest? tie (start + 1075) start).getD ⟨0, 0⟩

end LaneOrder.Binary64
