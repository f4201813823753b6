import LaneOrder.Binary64.Text
import LaneOrder.Json.Basic

/-!
This module contains the numbers in JSON documents. A finite number is written with the fewest digits
that identify it. Reading is fast rather than exact: the digits are collected as long as they fit in 64
bits, and the collected integer is scaled by powers of ten up to `10 ^ 308`, where each step rounds.
-/

namespace LaneOrder

namespace Binary64

/-- Documents write the exponents from -5 to 15 positionally and give integers a point. Ties go to the
even digit. -/
def documentLayout : Layout := ⟨some (-5, 15), true, .even⟩

def toJson (x : Binary64) : Json :=
  if x.isFinite then .number (x.toNumeral documentLayout) else .null

end Binary64

namespace Numeral

/-- Append digits to an integer as long as it stays below `2 ^ 64`; the count of the digits that were
left out is returned with it. -/
def collect (n : Nat) : List Digit → Nat × Nat
  | [] => (n, 0)
  | d :: ds => if 10 * n + d < 1 <<< 64 then collect (10 * n + d) ds else (n, ds.length + 1)

/-- The collected digits and the power of ten that scales them. Digits that are left out before the
point raise the power, collected digits after it lower the power. -/
def collected (n : Numeral) : Nat × Int :=
  let whole := collect 0 n.whole
  let all := collect whole.1 n.fraction
  (all.1, whole.2 - (n.fraction.length - all.2 : Nat) + n.exponent.getD 0)

def pow10 (e : Nat) : Binary64 :=
  Binary64.ofDecimal false 1 e

/-- Multiply by a power of ten, with one rounding if it is in the range of `pow10`; smaller powers
are reached in several divisions. There is no result above the finite numbers. -/
def scaleByPow10? (x : Binary64) : (steps : Nat) → (e : Int) → Option Binary64
  | steps, e =>
    if e.natAbs ≤ 308 then
      if 0 ≤ e then
        let y := x * pow10 e.natAbs
        if y.isInfinite then none else some y
      else some (x / pow10 e.natAbs)
    else if x.isZero then some x
    else if 0 ≤ e then none
    else match steps with
      | 0 => some x
      | steps + 1 => scaleByPow10? (x / pow10 308) steps (e + 308)

/-- Read a numeral of a document. Three divisions by `10 ^ 308` take any 64-bit integer to zero. -/
def toBinary64? (n : Numeral) : Option Binary64 :=
  let c := n.collected
  (scaleByPow10? (Binary64.ofNat c.1) 3 c.2).map fun x => if n.negative then -x else x

def normalize? (n : Numeral) : Option Numeral :=
  let k := Decimal.value n.whole
  if n.fraction.isEmpty && n.exponent.isNone && !n.negative && k < 1 <<< 64 then some n
  else if n.fraction.isEmpty && n.exponent.isNone && n.negative && 0 < k && k ≤ 1 <<< 63 then some n
  else n.toBinary64?.map (·.toNumeral Binary64.documentLayout)

end Numeral

end LaneOrder
