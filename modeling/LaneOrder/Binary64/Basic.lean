/-!
This module contains the numbers that tasks are ordered by: the binary64 numbers of IEEE 754, given
by their 64 bits. A finite number is the integer `scaled` times `2 ^ -1074`. Two orders matter: the
numeric one, in which a NaN is not comparable and both zeros are equal, and the total one, which
separates any two bit patterns.
-/

namespace LaneOrder

structure Binary64 where
  bits : UInt64
deriving DecidableEq, Repr

namespace Binary64

def word (x : Binary64) : Nat :=
  x.bits.toNat

def ofWord (n : Nat) : Binary64 :=
  ⟨UInt64.ofNat n⟩

def isNegative (x : Binary64) : Bool :=
  1 <<< 63 ≤ x.word

/-- The bits without the sign. Among numbers of one sign they grow with the magnitude. -/
def magnitude (x : Binary64) : Nat :=
  x.word % 1 <<< 63

def infinityMagnitude : Nat := 0x7ff0000000000000

def isNaN (x : Binary64) : Bool :=
  infinityMagnitude < x.magnitude

def isInfinite (x : Binary64) : Bool :=
  x.magnitude == infinityMagnitude

def isFinite (x : Binary64) : Bool :=
  x.magnitude < infinityMagnitude

def isZero (x : Binary64) : Bool :=
  x.magnitude == 0

def ofMagnitude (negative : Bool) (magnitude : Nat) : Binary64 :=
  ofWord ((if negative then 1 <<< 63 else 0) + magnitude)

def zero : Binary64 := ofWord 0

def infinity : Binary64 := ofMagnitude false infinityMagnitude

def nan : Binary64 := ofWord 0x7ff8000000000000

def invalid : Binary64 := ofWord 0xfff8000000000000

def neg (x : Binary64) : Binary64 :=
  ofMagnitude (!x.isNegative) x.magnitude

def abs (x : Binary64) : Binary64 :=
  ofMagnitude false x.magnitude

instance : Neg Binary64 := ⟨neg⟩

/-- Where a number stands in the numeric order. -/
def rank (x : Binary64) : Int :=
  if x.isNegative then -(x.magnitude : Int) else x.magnitude

/-- Where a number stands in the total order: negative NaNs, negative infinity, the numbers with
`-0` before `0`, positive infinity, positive NaNs. -/
def totalRank (x : Binary64) : Int :=
  if x.isNegative then -1 - (x.magnitude : Int) else x.magnitude

/-- The numeric order. A NaN is neither less than nor greater than any number. -/
def lt (x y : Binary64) : Bool :=
  !x.isNaN && !y.isNaN && x.rank < y.rank

@[inherit_doc lt]
def le (x y : Binary64) : Bool :=
  !x.isNaN && !y.isNaN && x.rank ≤ y.rank

instance : LT Binary64 := ⟨fun x y => x.lt y = true⟩
instance : LE Binary64 := ⟨fun x y => x.le y = true⟩
instance (x y : Binary64) : Decidable (x < y) := inferInstanceAs (Decidable (x.lt y = true))
instance (x y : Binary64) : Decidable (x ≤ y) := inferInstanceAs (Decidable (x.le y = true))

def max (x y : Binary64) : Binary64 :=
  if x.isNaN then y else if x < y then y else x

theorem word_lt (x : Binary64) : x.word < 1 <<< 64 :=
  x.bits.toNat_lt

theorem lt_iff {x y : Binary64} :
    x < y ↔ x.isNaN = false ∧ y.isNaN = false ∧ x.rank < y.rank := by
  show x.lt y = true ↔ _
  simp [lt, and_assoc]

theorem le_iff {x y : Binary64} :
    x ≤ y ↔ x.isNaN = false ∧ y.isNaN = false ∧ x.rank ≤ y.rank := by
  show x.le y = true ↔ _
  simp [le, and_assoc]

theorem lt_irrefl (x : Binary64) : ¬ x < x := by
  simp [lt_iff]

theorem lt_trans {x y z : Binary64} (h₁ : x < y) (h₂ : y < z) : x < z := by
  rw [lt_iff] at *
  exact ⟨h₁.1, h₂.2.1, Int.lt_trans h₁.2.2 h₂.2.2⟩

theorem word_eq (x : Binary64) :
    x.word = (if x.isNegative then 1 <<< 63 else 0) + x.magnitude := by
  have := x.word_lt
  simp only [isNegative, magnitude, decide_eq_true_eq, Nat.reduceShiftLeft]
  split <;> omega

theorem rank_le_rank_of_totalRank_le {x y : Binary64} (h : x.totalRank ≤ y.totalRank) :
    x.rank ≤ y.rank := by
  simp only [rank, totalRank] at *
  split at h <;> split at h <;> simp_all <;> omega

end Binary64

end LaneOrder
