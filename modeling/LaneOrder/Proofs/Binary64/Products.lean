import LaneOrder.Proofs.Binary64.Closeness

/-!
This module contains products and quotients of numbers without a sign. A number is given by its magnitude, and the magnitude
of a result is its exact value in units of `2 ^ -1074`, rounded once.
-/

namespace LaneOrder.Binary64

variable {m n : Nat} {negative : Bool}

theorem lt_of_lt_infinity (hm : m < infinityMagnitude) : m < 2 ^ 63 :=
  Nat.lt_trans hm (by decide)

theorem isFinite_magnitude {x : Binary64} : x.isFinite = true ↔ x.magnitude < infinityMagnitude := by
  unfold isFinite
  exact decide_eq_true_iff

theorem ofMagnitude_self (x : Binary64) : ofMagnitude x.isNegative x.magnitude = x := by
  have hword := x.word_eq
  have hlt := x.word_lt
  cases x
  unfold ofMagnitude ofWord
  congr 1
  rw [← hword]
  apply UInt64.ofNat_toNat

theorem neg_ofMagnitude (hm : m < 2 ^ 63) : -ofMagnitude negative m = ofMagnitude (!negative) m := by
  obtain ⟨hmagnitude, hnegative⟩ := magnitude_ofMagnitude negative hm
  show ofMagnitude _ _ = _
  rw [hmagnitude, hnegative]

theorem units_ofMagnitude (hm : m < 2 ^ 63) : (ofMagnitude negative m).units = unitsOf m := by
  rw [units_eq, (magnitude_ofMagnitude negative hm).1]

theorem not_isNaN_ofMagnitude (hm : m < infinityMagnitude) : (ofMagnitude negative m).isNaN = false :=
  (rank_ofMagnitude negative hm.le).1

theorem isInfinite_ofMagnitude (hm : m ≤ infinityMagnitude) :
    (ofMagnitude negative m).isInfinite = decide (m = infinityMagnitude) := by
  unfold isInfinite
  rw [(magnitude_ofMagnitude negative (Nat.lt_of_le_of_lt hm (by decide))).1]
  rfl

theorem not_isInfinite_ofMagnitude (hm : m < infinityMagnitude) : (ofMagnitude negative m).isInfinite = false := by
  rw [isInfinite_ofMagnitude hm.le]
  exact decide_eq_false hm.ne

theorem isZero_ofMagnitude (hm : m < 2 ^ 63) : (ofMagnitude negative m).isZero = decide (m = 0) := by
  unfold isZero
  rw [(magnitude_ofMagnitude negative hm).1]
  rfl

theorem mul_ofMagnitude (hm : m < infinityMagnitude) (hn : n < infinityMagnitude) :
    ofMagnitude false m * ofMagnitude false n
      = ofMagnitude false (roundMagnitude (unitsOf m * unitsOf n) (1 <<< 1074)) := by
  show mul _ _ = _
  unfold mul round
  simp only [not_isNaN_ofMagnitude hm, not_isNaN_ofMagnitude hn, not_isInfinite_ofMagnitude hm,
    not_isInfinite_ofMagnitude hn, (magnitude_ofMagnitude false (lt_of_lt_infinity hm)).2,
    (magnitude_ofMagnitude false (lt_of_lt_infinity hn)).2, units_ofMagnitude (lt_of_lt_infinity hm),
    units_ofMagnitude (lt_of_lt_infinity hn)]
  rfl

theorem div_ofMagnitude (hm : m < infinityMagnitude) (hn : n < infinityMagnitude) (hzero : n ≠ 0) :
    ofMagnitude false m / ofMagnitude false n
      = ofMagnitude false (roundMagnitude (unitsOf m <<< 1074) (unitsOf n)) := by
  show div _ _ = _
  unfold div round
  simp only [not_isNaN_ofMagnitude hm, not_isNaN_ofMagnitude hn, not_isInfinite_ofMagnitude hm,
    not_isInfinite_ofMagnitude hn, (magnitude_ofMagnitude false (lt_of_lt_infinity hm)).2,
    (magnitude_ofMagnitude false (lt_of_lt_infinity hn)).2, units_ofMagnitude (lt_of_lt_infinity hm),
    units_ofMagnitude (lt_of_lt_infinity hn), isZero_ofMagnitude (lt_of_lt_infinity hn), hzero]
  rfl

theorem unitsOf_pos (hm : m ≠ 0) : 0 < unitsOf m := by
  have hlt := unitsOf_strictMono (Nat.pos_of_ne_zero hm)
  omega

section Integers

variable {d s : Nat}

/-- An integer of 53 bits, shifted to the left, is a magnitude. -/
theorem exists_unitsOf_eq (hd : d < 2 ^ 53) (hs : 52 ≤ s) : ∃ m, unitsOf m = d * 2 ^ s := by
  by_cases hzero : d = 0
  . exact ⟨0, by rw [hzero, Nat.zero_mul]; rfl⟩
  . have hlog : d.log2 ≤ 52 := Nat.le_of_lt_succ ((Nat.log2_lt hzero).mpr hd)
    have hlow : 2 ^ 52 ≤ d * 2 ^ (52 - d.log2) := by
      calc 2 ^ 52 = 2 ^ d.log2 * 2 ^ (52 - d.log2) := by rw [← Nat.pow_add]; congr 1; omega
        _ ≤ d * 2 ^ (52 - d.log2) := Nat.mul_le_mul_right _ (Nat.log2_self_le hzero)
    have hhigh : d * 2 ^ (52 - d.log2) < 2 ^ 53 := by
      calc d * 2 ^ (52 - d.log2) < 2 ^ (d.log2 + 1) * 2 ^ (52 - d.log2) :=
          Nat.mul_lt_mul_of_pos_right Nat.lt_log2_self (Nat.two_pow_pos _)
        _ = 2 ^ 53 := by rw [← Nat.pow_add]; congr 1; omega
    refine ⟨(s - (52 - d.log2)) * 2 ^ 52 + d * 2 ^ (52 - d.log2), ?_⟩
    rw [(unitsOf_shifted hhigh fun _ => hlow).1, Nat.mul_assoc, ← Nat.pow_add]
    congr 2
    omega

/-- The magnitude of an integer. -/
def integer (d : Nat) : Nat :=
  roundMagnitude (d <<< 1074) 1

theorem ofNat_eq_integer (d : Nat) : ofNat d = ofMagnitude false (integer d) :=
  rfl

def twoPow (s : Nat) : ℚ :=
  (2 ^ s : Nat)

theorem twoPow_pos : 0 < twoPow s :=
  Nat.cast_pos.mpr (Nat.two_pow_pos s)

theorem cast_mul_twoPow (d s : Nat) : ((d * 2 ^ s : Nat) : ℚ) = d * twoPow s :=
  Nat.cast_mul d (2 ^ s)

theorem cast_shiftLeft (d s : Nat) : ((d <<< s : Nat) : ℚ) = d * twoPow s := by
  rw [Nat.shiftLeft_eq, cast_mul_twoPow]

theorem mul_twoPow_le {n : Nat} (h : d * 2 ^ s ≤ n) : (d * twoPow s : ℚ) ≤ n := by
  rw [← cast_mul_twoPow]
  exact Nat.cast_le.mpr h

theorem twoPow_mono {s' : Nat} (h : s ≤ s') : twoPow s ≤ twoPow s' :=
  Nat.cast_le.mpr (Nat.pow_le_pow_right (by decide) h)

/-- The count of units in the number one. -/
def unitsOfOne : ℚ :=
  twoPow 1074

theorem unitsOfOne_pos : 0 < unitsOfOne :=
  twoPow_pos

theorem normal_unitsOfOne : (2 : ℚ) ^ 52 ≤ unitsOfOne := by
  calc (2 : ℚ) ^ 52 = twoPow 52 := by norm_num [twoPow]
    _ ≤ unitsOfOne := twoPow_mono (by decide)

theorem integer_quotient : ((d <<< 1074 : Nat) : ℚ) / (1 : Nat) = d * unitsOfOne := by
  rw [cast_shiftLeft, Nat.cast_one, div_one, unitsOfOne]

theorem unitsOf_greatest : unitsOf (infinityMagnitude - 1) = (2 ^ 53 - 1) * 2 ^ 971 * 2 ^ 1074 := by
  decide +kernel

theorem le_greatest (hd : d ≤ 10 ^ 308) : (d * unitsOfOne : ℚ) ≤ unitsOf (infinityMagnitude - 1) := by
  have hle : d * 2 ^ 1074 ≤ unitsOf (infinityMagnitude - 1) := by
    rw [unitsOf_greatest]
    apply Nat.mul_le_mul_right
    exact hd.trans (by decide +kernel)
  exact mul_twoPow_le hle

theorem integer_lt_infinity (hd : d ≤ 10 ^ 308) : integer d < infinityMagnitude :=
  round_lt_infinity Nat.one_pos integer_quotient (le_greatest hd)

theorem within_integer (hpos : 0 < d) (hd : d ≤ 10 ^ 308) : Within roundingFactor (unitsOf (integer d)) (d * unitsOfOne) := by
  apply within_round Nat.one_pos integer_quotient _ (integer_lt_infinity hd)
  have hone : (1 : ℚ) ≤ d := by exact_mod_cast hpos
  exact normal_unitsOfOne.trans (le_mul_of_one_le_left unitsOfOne_pos.le hone)

/-- An integer of 53 bits, shifted to the left, is not rounded. -/
theorem within_integer_shifted (hd : d < 2 ^ 53) (hle : d * 2 ^ s ≤ 10 ^ 308) :
    Within 1 (unitsOf (integer (d * 2 ^ s))) ((d * 2 ^ s : Nat) * unitsOfOne) := by
  obtain ⟨m, hm⟩ := exists_unitsOf_eq hd (s := s + 1074) (by omega)
  have hunits : (unitsOf m : ℚ) = (d * 2 ^ s : Nat) * unitsOfOne := by
    rw [hm, pow_add, ← mul_assoc]
    exact cast_mul_twoPow (d * 2 ^ s) 1074
  have hfinite : m < infinityMagnitude := by
    have hgreatest := le_greatest hle
    rw [← hunits, Nat.cast_le, unitsOf_strictMono.le_iff_le] at hgreatest
    exact Nat.lt_of_le_of_lt hgreatest (by decide)
  have hround : integer (d * 2 ^ s) = m := by
    apply round_unitsOf hfinite Nat.one_pos
    rw [integer_quotient, hunits]
  rw [hround, within_one_iff, hunits]

theorem integer_ne_zero (hpos : 0 < d) : integer d ≠ 0 := by
  have hone : (1 : ℚ) ≤ d := by exact_mod_cast hpos
  have hnormal : (2 : ℚ) ^ 52 ≤ d * unitsOfOne :=
    normal_unitsOfOne.trans (le_mul_of_one_le_left unitsOfOne_pos.le hone)
  have hle := le_round_of_normal Nat.one_pos (integer_quotient (d := d)) hnormal
  show roundMagnitude _ _ ≠ 0
  omega

end Integers

section Quotients

variable {f g x y : ℚ}

theorem product_within (hx : 0 < x) (hy : 0 < y) (hm : m ≠ 0) (hn : n ≠ 0) (h : Within f (unitsOf m) (x * unitsOfOne))
    (h' : Within g (unitsOf n) (y * unitsOfOne)) :
    Within (f * g) ((unitsOf m * unitsOf n : Nat) / (1 <<< 1074 : Nat)) (x * y * unitsOfOne) := by
  have hone := unitsOfOne_pos
  have hm' : (0 : ℚ) < unitsOf m := by exact_mod_cast unitsOf_pos hm
  have hn' : (0 : ℚ) < unitsOf n := by exact_mod_cast unitsOf_pos hn
  have hshift : ((1 <<< 1074 : Nat) : ℚ) = unitsOfOne := by
    rw [cast_shiftLeft, Nat.cast_one, one_mul, unitsOfOne]
  have hmul := (h.mul hm' (by positivity) hn' (by positivity) h').scale (inv_pos.mpr hone).le
  have hexact : x * unitsOfOne * (y * unitsOfOne) * unitsOfOne⁻¹ = x * y * unitsOfOne := by
    field_simp
  rw [hexact] at hmul
  rw [hshift, Nat.cast_mul, div_eq_mul_inv]
  exact hmul

theorem quotient_within (hx : 0 < x) (hy : 0 < y) (hm : m ≠ 0) (hn : n ≠ 0) (h : Within f (unitsOf m) (x * unitsOfOne))
    (h' : Within g (unitsOf n) (y * unitsOfOne)) :
    Within (f * g) ((unitsOf m <<< 1074 : Nat) / (unitsOf n : Nat)) (x / y * unitsOfOne) := by
  have hone := unitsOfOne_pos
  have hm' : (0 : ℚ) < unitsOf m := by exact_mod_cast unitsOf_pos hm
  have hn' : (0 : ℚ) < unitsOf n := by exact_mod_cast unitsOf_pos hn
  have hdiv := (h.div hm' (by positivity) hn' (by positivity) h').scale hone.le
  have hexact : x * unitsOfOne / (y * unitsOfOne) * unitsOfOne = x / y * unitsOfOne := by
    field_simp
  rw [hexact] at hdiv
  rw [cast_shiftLeft, mul_div_right_comm]
  exact hdiv

end Quotients

end LaneOrder.Binary64
