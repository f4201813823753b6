import LaneOrder.Binary64.Basic

/-!
This module contains the arithmetic of binary64 numbers. Every operation on finite numbers is its
exact result, an integer quotient, rounded once by `round`: to the nearest number, and of two equally
near ones to the one whose last bit is zero. An operation with a NaN operand yields the first such
operand made quiet; one without a result yields `invalid`.
-/

namespace LaneOrder.Binary64

/-- The significand and the exponent of its unit, counted from the smallest. -/
def scale (x : Binary64) : Nat × Nat :=
  let exponent := x.magnitude / 1 <<< 52
  let fraction := x.magnitude % 1 <<< 52
  if exponent = 0 then (fraction, 0) else (1 <<< 52 + fraction, exponent - 1)

/-- The absolute value of a finite number in units of `2 ^ -1074`. -/
def units (x : Binary64) : Nat :=
  x.scale.1 <<< x.scale.2

def scaled (x : Binary64) : Int :=
  if x.isNegative then -(x.units : Int) else x.units

def divNearest (num den : Nat) : Nat :=
  let quotient := num / den
  let rest := num % den
  if 2 * rest < den then quotient
  else if den < 2 * rest then quotient + 1
  else quotient + quotient % 2

/-- The magnitude nearest to `num / den` units of `2 ^ -1074`. A significand that is rounded up to
`2 ^ 53` carries into the exponent, and a sum beyond the largest finite magnitude is infinite. -/
def roundMagnitude (num den : Nat) : Nat :=
  let shift := Nat.log2 (num / den) - 52
  min (shift <<< 52 + divNearest num (den <<< shift)) infinityMagnitude

def round (negative : Bool) (num den : Nat) : Binary64 :=
  ofMagnitude negative (roundMagnitude num den)

def quiet (x : Binary64) : Binary64 :=
  ofWord (x.word ||| 1 <<< 51)

def ofNat (n : Nat) : Binary64 :=
  round false (n <<< 1074) 1

def add (x y : Binary64) : Binary64 :=
  if x.isNaN then x.quiet
  else if y.isNaN then y.quiet
  else if x.isInfinite then
    if y.isInfinite && x.isNegative != y.isNegative then invalid else x
  else if y.isInfinite then y
  else
    let sum := x.scaled + y.scaled
    if sum = 0 then ofMagnitude (x.isNegative && y.isNegative) 0
    else round (sum < 0) sum.natAbs 1

def sub (x y : Binary64) : Binary64 :=
  if y.isNaN && !x.isNaN then y.quiet else add x (neg y)

def mul (x y : Binary64) : Binary64 :=
  let negative := x.isNegative != y.isNegative
  if x.isNaN then x.quiet
  else if y.isNaN then y.quiet
  else if x.isInfinite || y.isInfinite then
    if x.isZero || y.isZero then invalid else ofMagnitude negative infinityMagnitude
  else round negative (x.units * y.units) (1 <<< 1074)

def div (x y : Binary64) : Binary64 :=
  let negative := x.isNegative != y.isNegative
  if x.isNaN then x.quiet
  else if y.isNaN then y.quiet
  else if x.isInfinite then
    if y.isInfinite then invalid else ofMagnitude negative infinityMagnitude
  else if y.isInfinite then ofMagnitude negative 0
  else if y.isZero then
    if x.isZero then invalid else ofMagnitude negative infinityMagnitude
  else round negative (x.units <<< 1074) y.units

instance : Add Binary64 := ⟨add⟩
instance : Sub Binary64 := ⟨sub⟩
instance : Mul Binary64 := ⟨mul⟩
instance : Div Binary64 := ⟨div⟩

def two : Binary64 := ofNat 2

def midpoint (x y : Binary64) : Binary64 :=
  let safe := (0x7fdfffffffffffff : Nat)
  if x.magnitude ≤ safe && y.magnitude ≤ safe then (x + y) / two
  -- the sum could overflow
  else x / two + y / two

end LaneOrder.Binary64
