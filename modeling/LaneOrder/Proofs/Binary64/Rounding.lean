import LaneOrder.Binary64.Arithmetic
import LaneOrder.Proofs.Binary64.Order
import Mathlib.Order.Monotone.Basic
import Mathlib.Tactic.Ring

/-!
This module contains what rounding makes of an exact result: the number that it is nearest to, and of two equally near ones
the even one. It is said of any two numbers that follow each other, first of magnitudes and then of numbers with a sign, so
that an overflow is no case of its own.
-/

namespace LaneOrder.Binary64

/-- The integer that a magnitude stands for, in units of `2 ^ -1074`. Infinity stands for what would come after the greatest
number. -/
def unitsOf (m : Nat) : Nat :=
  if m / 2 ^ 52 = 0 then m % 2 ^ 52 else (2 ^ 52 + m % 2 ^ 52) * 2 ^ (m / 2 ^ 52 - 1)

/-- The integer that a place in the numeric order stands for. -/
def scaledOf (rank : Int) : Int :=
  if rank < 0 then -(unitsOf rank.natAbs : Int) else unitsOf rank.natAbs

/-- The place in the numeric order that an exact result is rounded to. -/
def nearestRank (exact : Int) : Int :=
  if exact < 0 then -(roundMagnitude exact.natAbs 1 : Int) else roundMagnitude exact.natAbs 1

variable {x y : Binary64}

section Magnitudes

variable {m n k shift : Nat}

theorem units_eq : x.units = unitsOf x.magnitude := by
  unfold units scale unitsOf
  simp only [Nat.one_shiftLeft]
  split
  . simp
  . rw [Nat.shiftLeft_eq]

theorem unitsOf_succ : unitsOf (m + 1) = unitsOf m + 2 ^ (m / 2 ^ 52 - 1) := by
  unfold unitsOf
  by_cases hcarry : m % 2 ^ 52 + 1 = 2 ^ 52
  . have hdiv : (m + 1) / 2 ^ 52 = m / 2 ^ 52 + 1 := by omega
    have hmod : (m + 1) % 2 ^ 52 = 0 := by omega
    rw [hdiv, hmod, if_neg (Nat.succ_ne_zero _), Nat.add_sub_cancel]
    by_cases hzero : m / 2 ^ 52 = 0
    . rw [if_pos hzero, hzero]
      omega
    . obtain ⟨e, he⟩ := Nat.exists_eq_add_one_of_ne_zero hzero
      have hfull : 2 ^ 53 = 2 ^ 52 + m % 2 ^ 52 + 1 := by omega
      rw [if_neg hzero, he, Nat.add_sub_cancel]
      calc (2 ^ 52 + 0) * 2 ^ (e + 1) = 2 ^ 53 * 2 ^ e := by ring
        _ = (2 ^ 52 + m % 2 ^ 52) * 2 ^ e + 2 ^ e := by rw [hfull, Nat.succ_mul]
  . have hdiv : (m + 1) / 2 ^ 52 = m / 2 ^ 52 := by omega
    have hmod : (m + 1) % 2 ^ 52 = m % 2 ^ 52 + 1 := by omega
    rw [hdiv, hmod]
    split
    . next hzero =>
      rw [hzero]
      rfl
    . ring

theorem unitsOf_strictMono : StrictMono unitsOf := by
  apply strictMono_nat_of_lt_succ
  intro m
  rw [unitsOf_succ]
  exact Nat.lt_add_of_pos_right (Nat.two_pow_pos _)

/-- A significand and the exponent of its unit are a magnitude together. -/
theorem unitsOf_shifted (hlt : k < 2 ^ 53) (hle : shift ≠ 0 → 2 ^ 52 ≤ k) :
    unitsOf (shift * 2 ^ 52 + k) = k * 2 ^ shift
      ∧ unitsOf (shift * 2 ^ 52 + k + 1) = (k + 1) * 2 ^ shift := by
  have hunits : unitsOf (shift * 2 ^ 52 + k) = k * 2 ^ shift := by
    unfold unitsOf
    by_cases hsmall : k < 2 ^ 52
    . obtain rfl : shift = 0 := by
        by_contra hshift
        exact absurd (hle hshift) (by omega)
      rw [if_pos (by omega), Nat.zero_mul, Nat.zero_add, Nat.mod_eq_of_lt hsmall, Nat.pow_zero, Nat.mul_one]
    . have hdiv : (shift * 2 ^ 52 + k) / 2 ^ 52 = shift + 1 := by omega
      have hmod : 2 ^ 52 + (shift * 2 ^ 52 + k) % 2 ^ 52 = k := by omega
      rw [hdiv, if_neg (Nat.succ_ne_zero _), hmod, Nat.add_sub_cancel]
  refine ⟨hunits, ?_⟩
  have hexponent : (shift * 2 ^ 52 + k) / 2 ^ 52 - 1 = shift := by
    by_cases hshift : shift = 0
    . omega
    . have := hle hshift
      omega
  rw [unitsOf_succ, hunits, hexponent]
  ring

theorem shift_spec (n : Nat) :
    n / 2 ^ (n.log2 - 52) < 2 ^ 53 ∧ (n.log2 - 52 ≠ 0 → 2 ^ 52 ≤ n / 2 ^ (n.log2 - 52)) := by
  constructor
  . rw [Nat.div_lt_iff_lt_mul (Nat.two_pow_pos _), ← Nat.pow_add]
    apply Nat.lt_of_lt_of_le Nat.lt_log2_self
    exact Nat.pow_le_pow_right (by decide) (by omega)
  . intro hshift
    have hn : n ≠ 0 := by
      rintro rfl
      exact hshift (by simp)
    rw [Nat.le_div_iff_mul_le (Nat.two_pow_pos _), ← Nat.pow_add, show 52 + (n.log2 - 52) = n.log2 by omega]
    exact Nat.log2_self_le hn

/-- What is rounded lies between two magnitudes that follow each other, and becomes the nearer one. -/
theorem exists_floor (n : Nat) {den : Nat} (hden : 0 < den) : ∃ m, unitsOf m * den ≤ n ∧ n < unitsOf (m + 1) * den ∧
    roundMagnitude n den = min (if 2 * n < (unitsOf m + unitsOf (m + 1)) * den then m
      else if (unitsOf m + unitsOf (m + 1)) * den < 2 * n then m + 1 else m + m % 2) infinityMagnitude := by
  obtain ⟨hlt, hle⟩ := shift_spec (n / den)
  generalize hshift : (n / den).log2 - 52 = shift at hlt hle
  obtain ⟨hunits, hnext⟩ := unitsOf_shifted hlt hle
  rw [Nat.div_div_eq_div_mul] at hunits hnext
  have hpos : 0 < den * 2 ^ shift := Nat.mul_pos hden (Nat.two_pow_pos _)
  have hsplit : n / (den * 2 ^ shift) * (den * 2 ^ shift) + n % (den * 2 ^ shift) = n := Nat.div_add_mod' ..
  have hrest : n % (den * 2 ^ shift) < den * 2 ^ shift := Nat.mod_lt _ hpos
  have hlow : unitsOf (shift * 2 ^ 52 + n / (den * 2 ^ shift)) * den = n / (den * 2 ^ shift) * (den * 2 ^ shift) := by
    rw [hunits]
    ring
  have hhigh : unitsOf (shift * 2 ^ 52 + n / (den * 2 ^ shift) + 1) * den
      = n / (den * 2 ^ shift) * (den * 2 ^ shift) + den * 2 ^ shift := by
    rw [hnext]
    ring
  refine ⟨shift * 2 ^ 52 + n / (den * 2 ^ shift), ?_, ?_, ?_⟩
  . rw [hlow]
    omega
  . rw [hhigh]
    omega
  . unfold roundMagnitude divNearest
    rw [Nat.add_mul, hlow, hhigh, hshift]
    simp only [Nat.shiftLeft_eq]
    -- the rest is compared with one half of the unit, and the significand is as even as the magnitude
    congr 1
    generalize n / (den * 2 ^ shift) * (den * 2 ^ shift) = low at hsplit ⊢
    split_ifs <;> omega

theorem roundMagnitude_le {den : Nat} : roundMagnitude n den ≤ infinityMagnitude :=
  Nat.min_le_right ..

/-- A result is rounded to more than a magnitude if it is past the middle between this magnitude and the next one. In the
middle it is rounded to the next one if that one is even. -/
theorem lt_roundMagnitude_iff {den : Nat} (hden : 0 < den) (hk : k < infinityMagnitude) : k < roundMagnitude n den ↔
    (unitsOf k + unitsOf (k + 1)) * den < 2 * n ∨ (unitsOf k + unitsOf (k + 1)) * den = 2 * n ∧ k % 2 = 1 := by
  obtain ⟨m, hfloor, hceil, hround⟩ := exists_floor n hden
  have hmono : StrictMono fun m => unitsOf m * den := fun _ _ h => Nat.mul_lt_mul_of_pos_right (unitsOf_strictMono h) hden
  have hstep : unitsOf k * den < unitsOf (k + 1) * den := hmono k.lt_succ_self
  rw [hround, Nat.lt_min, Nat.add_mul, Nat.add_mul]
  rcases Nat.lt_trichotomy k m with hlt | rfl | hgt
  . have hle : unitsOf (k + 1) * den ≤ unitsOf m * den := hmono.monotone (Nat.succ_le_of_lt hlt)
    have hmax : k < (if 2 * n < unitsOf m * den + unitsOf (m + 1) * den then m
        else if unitsOf m * den + unitsOf (m + 1) * den < 2 * n then m + 1 else m + m % 2) := by
      split
      . exact hlt
      . split <;> omega
    exact ⟨fun _ => .inl (by omega), fun _ => ⟨hmax, hk⟩⟩
  . split
    . omega
    . split <;> omega
  . have hle : unitsOf (m + 1) * den ≤ unitsOf k * den := hmono.monotone (Nat.succ_le_of_lt hgt)
    have hmax : ¬ k < (if 2 * n < unitsOf m * den + unitsOf (m + 1) * den then m
        else if unitsOf m * den + unitsOf (m + 1) * den < 2 * n then m + 1 else m + m % 2) := by
      split
      . omega
      . split <;> omega
    exact ⟨fun h => absurd h.1 hmax, by omega⟩

end Magnitudes

section Signs

theorem natAbs_rank : x.rank.natAbs = x.magnitude := by
  unfold rank
  split <;> simp

theorem scaled_eq : x.scaled = scaledOf x.rank := by
  unfold scaled scaledOf
  rw [units_eq, natAbs_rank]
  unfold rank
  split
  . by_cases hzero : x.magnitude = 0
    . rw [hzero]
      simp [unitsOf]
    . rw [if_pos (by omega)]
  . rw [if_neg (by omega)]

theorem scaledOf_neg {r : Int} : scaledOf (-r) = -scaledOf r := by
  unfold scaledOf
  rw [Int.natAbs_neg]
  rcases Int.lt_trichotomy r 0 with hr | rfl | hr
  . rw [if_neg (by omega), if_pos hr, Int.neg_neg]
  . simp [unitsOf]
  . rw [if_pos (by omega), if_neg (by omega)]

theorem scaledOf_of_nonneg {k : Nat} : scaledOf k = unitsOf k := by
  unfold scaledOf
  rw [if_neg (by omega), Int.natAbs_natCast]

theorem scaledOf_succ {k : Nat} : scaledOf (↑k + 1) = unitsOf (k + 1) :=
  scaledOf_of_nonneg (k := k + 1)

/-- Two numbers that follow each other are apart by the unit of the one with the smaller magnitude. -/
theorem scaledOf_step (r : Int) :
    scaledOf (r + 1) = scaledOf r + (2 ^ (min r.natAbs (r + 1).natAbs / 2 ^ 52 - 1) : Nat) := by
  by_cases hr : 0 ≤ r
  . obtain ⟨k, rfl⟩ := Int.eq_ofNat_of_zero_le hr
    have hmin : min (k : Int).natAbs ((k : Int) + 1).natAbs = k := by omega
    rw [scaledOf_of_nonneg, scaledOf_succ, unitsOf_succ, hmin]
    exact Int.natCast_add ..
  . obtain ⟨k, rfl⟩ : ∃ k : Nat, r = -(↑k + 1) := ⟨(-r - 1).natAbs, by omega⟩
    have hnext : (-((k : Int) + 1) + 1) = -k := by omega
    have hmin : min (-((k : Int) + 1)).natAbs (-(k : Int)).natAbs = k := by omega
    rw [hnext, scaledOf_neg, scaledOf_neg, scaledOf_of_nonneg, scaledOf_succ, unitsOf_succ, hmin, Int.natCast_add]
    omega

theorem scaledOf_lt_scaledOf {r r' : Int} (h : r < r') : scaledOf r < scaledOf r' := by
  apply strictMono_int_of_lt_succ _ h
  intro r
  rw [scaledOf_step]
  have := Nat.two_pow_pos (min r.natAbs (r + 1).natAbs / 2 ^ 52 - 1)
  omega

theorem scaled_of_pos (hx : 0 < x.rank) : x.scaled = x.units := by
  unfold scaled
  rw [if_neg]
  intro hnegative
  unfold rank at hx
  rw [if_pos hnegative] at hx
  omega

theorem magnitude_mod_two : x.magnitude % 2 = 1 ↔ x.rank % 2 = 1 := by
  rw [← natAbs_rank]
  omega

/-- An exact result is rounded to a number after another one if it is past the middle between this one and the next. -/
theorem lt_nearestRank_iff {r e : Int} (hlow : -infinityMagnitude ≤ r) (hhigh : r < infinityMagnitude) :
    r < nearestRank e ↔ scaledOf r + scaledOf (r + 1) < 2 * e
      ∨ scaledOf r + scaledOf (r + 1) = 2 * e ∧ r % 2 = 1 := by
  unfold nearestRank
  by_cases hr : 0 ≤ r
  . obtain ⟨k, rfl⟩ := Int.eq_ofNat_of_zero_le hr
    rw [scaledOf_of_nonneg, scaledOf_succ]
    split
    . omega
    . have hiff := lt_roundMagnitude_iff (k := k) (n := e.natAbs) Nat.one_pos (by omega)
      omega
  . obtain ⟨k, rfl⟩ : ∃ k : Nat, r = -(↑k + 1) := ⟨(-r - 1).natAbs, by omega⟩
    have hpos : 0 < unitsOf (k + 1) := Nat.zero_lt_of_lt (unitsOf_strictMono k.lt_succ_self)
    rw [show (-((k : Int) + 1) + 1) = -k by omega, scaledOf_neg, scaledOf_neg, scaledOf_of_nonneg, scaledOf_succ]
    split
    . -- below zero the next number is the one with the smaller magnitude
      have hiff := lt_roundMagnitude_iff (k := k) (n := e.natAbs) Nat.one_pos (by omega)
      omega
    . omega

theorem magnitude_ofMagnitude (negative : Bool) {m : Nat} (hm : m < 2 ^ 63) :
    (ofMagnitude negative m).magnitude = m ∧ (ofMagnitude negative m).isNegative = negative := by
  have hword : (ofMagnitude negative m).word = (if negative then 2 ^ 63 else 0) + m := by
    unfold ofMagnitude ofWord word
    simp only [UInt64.toNat_ofNat', Nat.one_shiftLeft]
    split <;> omega
  constructor
  . unfold magnitude
    rw [hword, Nat.one_shiftLeft]
    split <;> omega
  . unfold isNegative
    rw [hword, Nat.one_shiftLeft]
    cases negative <;> simp
    omega

theorem rank_ofMagnitude (negative : Bool) {m : Nat} (hm : m ≤ infinityMagnitude) :
    (ofMagnitude negative m).isNaN = false ∧ (ofMagnitude negative m).rank = if negative then -(m : Int) else m := by
  obtain ⟨hmagnitude, hnegative⟩ := magnitude_ofMagnitude negative (Nat.lt_of_le_of_lt hm (by decide))
  refine ⟨?_, ?_⟩
  . unfold isNaN
    rw [hmagnitude]
    simpa using hm
  . unfold rank
    rw [hmagnitude, hnegative]

theorem isFinite_iff : x.isFinite = true ↔ x.rank.natAbs < infinityMagnitude := by
  rw [natAbs_rank]
  unfold isFinite
  simp

theorem natAbs_nearestRank {exact : Int} : (nearestRank exact).natAbs = roundMagnitude exact.natAbs 1 := by
  unfold nearestRank
  split <;> simp

theorem isFinite_iff_of_nearest {y : Binary64} {exact : Int} (hy : y.rank = nearestRank exact) : y.isFinite = true ↔
    2 * exact.natAbs < unitsOf (infinityMagnitude - 1) + unitsOf infinityMagnitude := by
  have hnext : infinityMagnitude - 1 + 1 = infinityMagnitude := rfl
  have hodd : (infinityMagnitude - 1) % 2 = 1 := rfl
  have hiff := lt_roundMagnitude_iff (k := infinityMagnitude - 1) (n := exact.natAbs) Nat.one_pos (by decide)
  rw [hnext, hodd, Nat.mul_one] at hiff
  rw [isFinite_iff, hy, natAbs_nearestRank]
  omega

theorem rank_neg (hx : x.isFinite = true) : (-x).isFinite = true ∧ (-x).rank = -x.rank := by
  obtain ⟨_, hrank⟩ := rank_ofMagnitude (!x.isNegative) (m := x.magnitude) (by
    rw [isFinite_iff, natAbs_rank] at hx
    omega)
  have hneg : (-x).rank = -x.rank := by
    rw [show -x = ofMagnitude (!x.isNegative) x.magnitude from rfl, hrank]
    unfold rank
    cases x.isNegative <;> simp
  refine ⟨?_, hneg⟩
  rw [isFinite_iff] at *
  rw [hneg]
  omega

theorem nearestRank_zero : nearestRank 0 = 0 := by
  decide

/-- The sum of two finite numbers is their exact sum, rounded once. -/
theorem rank_add (hx : x.isFinite = true) (hy : y.isFinite = true) :
    (x + y).isNaN = false ∧ (x + y).rank = nearestRank (x.scaled + y.scaled) := by
  have hinfinite : ∀ {z : Binary64}, z.isFinite = true → z.isInfinite = false := by
    intro z hz
    unfold isFinite at hz
    unfold isInfinite
    simp only [decide_eq_true_eq, beq_eq_false_iff_ne] at *
    omega
  have hadd : x + y = if x.scaled + y.scaled = 0 then ofMagnitude (x.isNegative && y.isNegative) 0
      else round (x.scaled + y.scaled < 0) (x.scaled + y.scaled).natAbs 1 := by
    show x.add y = _
    unfold add
    simp [isNaN_of_isFinite hx, isNaN_of_isFinite hy, hinfinite hx, hinfinite hy]
  rw [hadd]
  split
  . next hzero =>
    obtain ⟨hnumber, hrank⟩ := rank_ofMagnitude (x.isNegative && y.isNegative) (Nat.zero_le _)
    refine ⟨hnumber, ?_⟩
    rw [hrank, hzero, nearestRank_zero]
    simp
  . obtain ⟨hnumber, hrank⟩ := rank_ofMagnitude (x.scaled + y.scaled < 0)
      (roundMagnitude_le (n := (x.scaled + y.scaled).natAbs))
    refine ⟨hnumber, hrank.trans ?_⟩
    unfold nearestRank
    simp

theorem rank_sub (hx : x.isFinite = true) (hy : y.isFinite = true) :
    (x - y).isNaN = false ∧ (x - y).rank = nearestRank (x.scaled - y.scaled) := by
  have hsub : x - y = x + -y := by
    show (if y.isNaN && !x.isNaN then y.quiet else x.add y.neg) = x + -y
    rw [isNaN_of_isFinite hy]
    rfl
  obtain ⟨hfinite, hneg⟩ := rank_neg hy
  have hscaled : (-y).scaled = -y.scaled := by
    rw [scaled_eq, scaled_eq, hneg, scaledOf_neg]
  rw [hsub, Int.sub_eq_add_neg, ← hscaled]
  exact rank_add hx hfinite

end Signs

end LaneOrder.Binary64
