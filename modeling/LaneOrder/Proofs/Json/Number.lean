import LaneOrder.Json.Number
import LaneOrder.Proofs.Binary64.Shortest
import LaneOrder.Proofs.Decimal
import LaneOrder.Proofs.Json.Text

/-!
This module contains what becomes of a number that is written into a document and read back. Its shortest decimal is taken
apart into an integer and a power of ten again, but each of the two is rounded before the one scales the other, so the number
that is read may be some places away from the one that was written.
-/

namespace LaneOrder

namespace Numeral

variable {n : Nat} {ds : List Digit}

theorem collect_eq (h : n * 10 ^ ds.length + Decimal.value ds < 2 ^ 64) :
    collect n ds = (n * 10 ^ ds.length + Decimal.value ds, 0) := by
  induction ds generalizing n with
  | nil =>
    unfold collect
    rw [Decimal.value_nil, List.length_nil, Nat.pow_zero, Nat.mul_one, Nat.add_zero]
  | cons d ds ih =>
    have hvalue : n * 10 ^ (d :: ds).length + Decimal.value (d :: ds) = (10 * n + d) * 10 ^ ds.length + Decimal.value ds := by
      rw [← List.singleton_append, Decimal.value_append, Decimal.value_singleton, List.length_append, List.length_singleton,
        Nat.pow_add]
      ring
    rw [hvalue] at h ⊢
    have hsmall : 10 * n + d ≤ (10 * n + d) * 10 ^ ds.length := Nat.le_mul_of_pos_right _ (Nat.pow_pos (by decide))
    unfold collect
    rw [if_pos (by rw [Nat.one_shiftLeft]; omega)]
    exact ih h

/-- All digits are collected if they fit. -/
theorem collected_eq {n : Numeral} (h : Decimal.value (n.whole ++ n.fraction) < 2 ^ 64) :
    n.collected = (Decimal.value (n.whole ++ n.fraction), n.exponent.getD 0 - n.fraction.length) := by
  rw [Decimal.value_append] at h ⊢
  have hwhole : collect 0 n.whole = (Decimal.value n.whole, 0) := by
    have hpow : 0 < 10 ^ n.fraction.length := Nat.pow_pos (by decide)
    have hle : Decimal.value n.whole ≤ Decimal.value n.whole * 10 ^ n.fraction.length := Nat.le_mul_of_pos_right _ hpow
    rw [collect_eq (by omega), Nat.zero_mul, Nat.zero_add]
  unfold collected
  dsimp only
  rw [hwhole, collect_eq h]
  dsimp only
  congr 1
  omega

/-- Digits without a leading zero can be cut anywhere behind the first one. -/
theorem isPlain_of_head {n : Numeral} {d : Digit} {tail : List Digit} (hwhole : n.whole = d :: tail) (hd : d ≠ Digit.zero) :
    n.IsPlain := by
  refine ⟨by rw [hwhole]; exact List.cons_ne_nil d tail, ?_⟩
  intro hhead
  rw [hwhole] at hhead
  exact absurd (Option.some.inj hhead) hd

/-- What the digits of an integer are worth with the zeros that its power of ten and the fraction put behind them. -/
theorem value_padded {k : Nat} :
    Decimal.value (ds ++ List.replicate k Digit.zero ++ [Digit.zero]) = Decimal.value ds * 10 ^ (k + 1) := by
  rw [Decimal.value_append, Decimal.value_append, Decimal.value_replicate_zero, List.length_replicate]
  show (Decimal.value ds * 10 ^ k + 0) * 10 + 0 = _
  ring

theorem value_padded_lt {k : Nat} (h : ds.length + k ≤ 16) :
    Decimal.value (ds ++ List.replicate k Digit.zero ++ [Digit.zero]) < 10 ^ 17 := by
  refine Decimal.value_lt.trans_le (Nat.pow_le_pow_right (by decide) ?_)
  rw [List.length_append, List.length_append, List.length_replicate, List.length_singleton]
  omega

theorem write_spec (negative : Bool) {d : Nat} (hd : 0 < d) (j : Int) {n : Numeral}
    (hn : n = Binary64.documentLayout.write negative (Decimal.numeral d) j) :
    n.negative = negative ∧ n.IsPlain ∧
      (Decimal.value (n.whole ++ n.fraction) = d ∧ n.exponent.getD 0 - n.fraction.length = j
        ∨ 0 ≤ j ∧ Decimal.value (n.whole ++ n.fraction) = d * 10 ^ (j.natAbs + 1)
          ∧ Decimal.value (n.whole ++ n.fraction) < 10 ^ 17 ∧ n.exponent.getD 0 - n.fraction.length = -1) := by
  obtain ⟨head, tail, hdigits, hhead⟩ := Decimal.head_digits hd
  have hnumeral : Decimal.numeral d = head :: tail := by
    unfold Decimal.numeral
    rw [if_neg (by omega), hdigits]
  have hvalue : Decimal.value (head :: tail) = d := by
    rw [← hnumeral, Decimal.value_numeral]
  rw [hnumeral] at hn
  unfold Layout.write at hn
  dsimp only at hn
  split at hn
  . next hpositional =>
    split at hn
    . next hinteger =>
      have hbound : (head :: tail).length + j.natAbs ≤ 16 := by
        have hrange : -5 ≤ ((head :: tail).length : Int) + j - 1 ∧ ((head :: tail).length : Int) + j - 1 ≤ 15 := by
          simpa [Layout.isPositional, Binary64.documentLayout] using hpositional
        omega
      subst hn
      exact ⟨rfl, isPlain_of_head rfl hhead, .inr ⟨hinteger, by rw [← hvalue]; exact value_padded, value_padded_lt hbound, rfl⟩⟩
    . next hfraction =>
      split at hn
      . next hleading =>
        subst hn
        refine ⟨rfl, isPlain_of_head rfl hhead, .inl ⟨?_, ?_⟩⟩
        . rw [List.take_append_drop]
          exact hvalue
        . simp only [Option.getD_none, List.length_drop]
          omega
      . next hleading =>
        subst hn
        refine ⟨rfl, ⟨List.cons_ne_nil _ _, fun _ => rfl⟩, .inl ⟨?_, ?_⟩⟩
        . show Decimal.value ([Digit.zero] ++ (List.replicate _ Digit.zero ++ (head :: tail))) = d
          rw [Decimal.value_append, Decimal.value_append, Decimal.value_replicate_zero, hvalue]
          simp [Decimal.value_singleton, Digit.zero]
        . simp only [Option.getD_none, List.length_append, List.length_replicate]
          omega
  . subst hn
    refine ⟨rfl, isPlain_of_head rfl hhead, .inl ⟨?_, ?_⟩⟩
    . rw [List.take_append_drop]
      exact hvalue
    . simp
      omega

/-- A written decimal is collected again. An integer gets a zero behind it. -/
theorem collected_write (negative : Bool) {d : Nat} (hd : 0 < d) (hword : d < 2 ^ 64) (j : Int) {n : Numeral}
    (hn : n = Binary64.documentLayout.write negative (Decimal.numeral d) j) :
    n.collected = (d, j) ∨ 0 ≤ j ∧ d * 10 ^ (j.natAbs + 1) < 10 ^ 17 ∧ n.collected = (d * 10 ^ (j.natAbs + 1), -1) := by
  obtain ⟨-, -, ⟨hvalue, hexponent⟩ | ⟨hinteger, hvalue, hsmall, hexponent⟩⟩ := write_spec negative hd j hn
  . left
    rw [collected_eq (by omega), hvalue, hexponent]
  . right
    rw [collected_eq (by omega), hexponent, hvalue]
    exact ⟨hinteger, hvalue ▸ hsmall, rfl⟩

open Binary64

section Scaling

variable {f g a : ℚ} {m r : Nat} {e : Int}

/-- A magnitude is what a number that is within a factor of another one is rounded to. -/
def RoundedFrom (f a : ℚ) (r : Nat) : Prop :=
  ∃ num den : Nat, 0 < den ∧ r = roundMagnitude num den ∧ Within f ((num : ℚ) / den) a

theorem pow10_eq {k : Nat} (hk : k ≤ 308) : pow10 k = ofMagnitude false (integer (10 ^ k)) := by
  unfold pow10 ofDecimal
  have hlow : ¬ ((k : Int) + (Nat.log2 1 / 3 + 1 : Nat) < -400) := by omega
  have hhigh : ¬ (400 : Int) < k := by omega
  rw [if_neg (by simpa using hlow), if_neg hhigh]
  unfold timesPow10
  rw [if_neg (by omega)]
  dsimp only
  rw [Nat.one_mul, Int.natAbs_natCast]
  rfl

/-- One scaling within the range of the powers of ten. -/
theorem scaleByPow10?_spec (steps : Nat) (hm : m < infinityMagnitude) (hzero : m ≠ 0) (ha : 0 < a) (he : e.natAbs ≤ 308)
    (h : Within f (unitsOf m) (a * unitsOfOne))
    (hpow : Within g (unitsOf (integer (10 ^ e.natAbs))) ((10 ^ e.natAbs : Nat) * unitsOfOne)) :
    ∃ r, RoundedFrom (f * g) (a * 10 ^ e * unitsOfOne) r ∧
      (e < 0 ∨ r < infinityMagnitude → scaleByPow10? (ofMagnitude false m) steps e = some (ofMagnitude false r)) := by
  have hpos : 0 < 10 ^ e.natAbs := Nat.pow_pos (by decide)
  have hten : (0 : ℚ) < (10 ^ e.natAbs : Nat) := by exact_mod_cast hpos
  have hfinite : integer (10 ^ e.natAbs) < infinityMagnitude := integer_lt_infinity (pow_le_pow_right₀ (by decide) he)
  have hnonzero : integer (10 ^ e.natAbs) ≠ 0 := integer_ne_zero hpos
  have hscale : scaleByPow10? (ofMagnitude false m) steps e = if 0 ≤ e then
      (let y := ofMagnitude false m * pow10 e.natAbs
       if y.isInfinite then none else some y)
      else some (ofMagnitude false m / pow10 e.natAbs) := by
    unfold scaleByPow10?
    rw [if_pos he]
  rw [hscale, pow10_eq he]
  by_cases hsign : 0 ≤ e
  . refine ⟨_, ⟨unitsOf m * unitsOf (integer (10 ^ e.natAbs)), 1 <<< 1074, by simp, rfl, ?_⟩, fun hr => ?_⟩
    . have hexact : ((10 ^ e.natAbs : Nat) : ℚ) = 10 ^ e := by
        obtain ⟨k, rfl⟩ := Int.eq_ofNat_of_zero_le hsign
        rw [Int.natAbs_natCast, zpow_natCast, Nat.cast_pow, Nat.cast_ofNat]
      rw [← hexact]
      exact product_within ha hten hzero hnonzero h hpow
    . have hr' := hr.resolve_left (by omega)
      rw [if_pos hsign, mul_ofMagnitude hm hfinite]
      dsimp only
      rw [not_isInfinite_ofMagnitude hr']
      rfl
  . refine ⟨_, ⟨unitsOf m <<< 1074, unitsOf (integer (10 ^ e.natAbs)), unitsOf_pos hnonzero, rfl, ?_⟩, fun _ => ?_⟩
    . have hexact : a * 10 ^ e = a / (10 ^ e.natAbs : Nat) := by
        obtain ⟨k, rfl⟩ : ∃ k : Nat, e = -k := ⟨e.natAbs, by omega⟩
        rw [Int.natAbs_neg, Int.natAbs_natCast, zpow_neg, zpow_natCast, Nat.cast_pow, Nat.cast_ofNat, div_eq_mul_inv]
      rw [hexact]
      exact quotient_within ha hten hzero hnonzero h hpow
    . rw [if_neg hsign, div_ofMagnitude hm hfinite hnonzero]

theorem le_of_lt_word {d : Nat} (hd : d < 2 ^ 64) : d ≤ 10 ^ 308 :=
  hd.le.trans (by decide +kernel)

theorem within_pow10 {k : Nat} (hk : k ≤ 308) : Within roundingFactor (unitsOf (integer (10 ^ k))) ((10 ^ k : Nat) * unitsOfOne) :=
  within_integer (Nat.pow_pos (by decide)) (pow_le_pow_right₀ (by decide) hk)

/-- The first powers of ten are numbers. -/
theorem within_pow10_small {k : Nat} (hk : k ≤ 22) : Within 1 (unitsOf (integer (10 ^ k))) ((10 ^ k : Nat) * unitsOfOne) := by
  have hfive : 5 ^ k < 2 ^ 53 := Nat.lt_of_le_of_lt (Nat.pow_le_pow_right (by decide) hk) (by decide)
  have hten : (10 ^ k : Nat) = 5 ^ k * 2 ^ k := by rw [← Nat.mul_pow]
  have hle : (10 ^ k : Nat) ≤ 10 ^ 308 := pow_le_pow_right₀ (by decide) (by omega)
  rw [hten] at hle ⊢
  exact within_integer_shifted hfive hle

theorem within_integer_small {d : Nat} (hd : d < 2 ^ 53) : Within 1 (unitsOf (integer d)) (d * unitsOfOne) := by
  have hle : d * 2 ^ 0 ≤ 10 ^ 308 := by
    rw [pow_zero, mul_one]
    exact le_of_lt_word (hd.trans (by decide))
  have hwithin := within_integer_shifted hd hle
  rw [pow_zero, mul_one] at hwithin
  exact hwithin

theorem scale_integer (steps : Nat) {d : Nat} (hd : 0 < d) (hword : d < 2 ^ 64) (he : e.natAbs ≤ 308)
    (h : Within f (unitsOf (integer d)) (d * unitsOfOne))
    (hpow : Within g (unitsOf (integer (10 ^ e.natAbs))) ((10 ^ e.natAbs : Nat) * unitsOfOne)) :
    ∃ r, RoundedFrom (f * g) (decimalUnits d e) r ∧
      (e < 0 ∨ r < infinityMagnitude → scaleByPow10? (Binary64.ofNat d) steps e = some (ofMagnitude false r)) :=
  scaleByPow10?_spec steps (integer_lt_infinity (le_of_lt_word hword)) (integer_ne_zero hd) (by exact_mod_cast hd) he h hpow

/-- How far two divisions by powers of ten can be off. -/
def deepFactor : ℚ :=
  roundingFactor * (roundingFactor * (1 + 1 / (2 ^ 56 : Nat)))

theorem within_pow10_greatest :
    Within (1 + 1 / (2 ^ 56 : Nat)) (unitsOf (integer (10 ^ 308))) ((10 ^ 308 : Nat) * unitsOfOne) := by
  rw [unitsOfOne, ← cast_mul_twoPow]
  exact within_natCast (by decide +kernel) (by decide +kernel) (by decide)

/-- The magnitude of an integer that is divided by the greatest of the powers of ten. -/
def reduced (d : Nat) : Nat :=
  roundMagnitude (unitsOf (integer d) <<< 1074) (unitsOf (integer (10 ^ 308)))

theorem reduced_within_factor {d : Nat} (hd : 0 < d) (hword : d < 2 ^ 64) :
    Within (roundingFactor * (1 + 1 / (2 ^ 56 : Nat))) ((unitsOf (integer d) <<< 1074 : Nat) / (unitsOf (integer (10 ^ 308)) : Nat))
      (d / (10 ^ 308 : Nat) * unitsOfOne) := by
  have hpow : 0 < 10 ^ 308 := by positivity
  exact quotient_within (by exact_mod_cast hd) (by exact_mod_cast hpow) (integer_ne_zero hd) (integer_ne_zero hpow)
    (within_integer hd (le_of_lt_word hword)) within_pow10_greatest

theorem reduced_lt_infinity {d : Nat} (hd : 0 < d) (hword : d < 2 ^ 64) : reduced d < infinityMagnitude := by
  have hpow : 0 < 10 ^ 308 := by positivity
  have hpow' : (0 : ℚ) < (10 ^ 308 : Nat) := by exact_mod_cast hpow
  have hle : (d / (10 ^ 308 : Nat) : ℚ) ≤ 1 := by
    rw [div_le_one hpow']
    exact_mod_cast le_of_lt_word hword
  have hfactor : roundingFactor * (1 + 1 / (2 ^ 56 : Nat)) ≤ (2 : Nat) := by norm_num [roundingFactor]
  have hsmall : (d / (10 ^ 308 : Nat) : ℚ) * unitsOfOne ≤ unitsOfOne := mul_le_of_le_one_left unitsOfOne_pos.le hle
  apply round_lt_infinity (unitsOf_pos (integer_ne_zero hpow)) rfl
  apply (reduced_within_factor hd hword).1.trans
  apply (mul_le_mul hfactor hsmall (mul_nonneg (div_nonneg (Nat.cast_nonneg d) hpow'.le) unitsOfOne_pos.le)
    (Nat.cast_nonneg 2)).trans
  exact le_greatest (le_of_lt_word (by decide))

theorem within_divided {d n p s : Nat} (hp : 0 < p) (h : Within f (n * p : Nat) (d * 2 ^ s : Nat)) : Within f n (d / p * twoPow s) := by
  have hp' : (0 : ℚ) < p := by exact_mod_cast hp
  have hscaled := h.scale (inv_pos.mpr hp').le
  rw [cast_mul_twoPow, Nat.cast_mul, mul_assoc, mul_inv_cancel₀ hp'.ne', mul_one, mul_right_comm, ← div_eq_mul_inv] at hscaled
  exact hscaled

/-- The least integers are divided to numbers that are not normal. -/
theorem reduced_least : reduced 1 = 2024022533073106 ∧ reduced 2 = 4048045066146212 := by
  decide +kernel

theorem within_reduced_of_least {d n : Nat} (hreduced : reduced d = n) (hunits : unitsOf n = n)
    (h : 2 ^ 53 * (n * 10 ^ 308) ≤ (2 ^ 53 + 1) * (d * 2 ^ 1074)) (h' : 2 ^ 53 * (d * 2 ^ 1074) ≤ (2 ^ 53 + 1) * (n * 10 ^ 308)) :
    Within deepFactor (unitsOf (reduced d)) (d / (10 ^ 308 : Nat) * unitsOfOne) := by
  have hpow : 0 < 10 ^ 308 := by positivity
  rw [hreduced, hunits]
  exact (within_divided hpow (within_natCast h h' (by decide))).mono (by norm_num [deepFactor, roundingFactor])
    (Nat.cast_nonneg n) (mul_nonneg (div_nonneg (Nat.cast_nonneg d) (Nat.cast_nonneg _)) unitsOfOne_pos.le)

theorem le_divided {p s : Nat} (hp : 0 < p) (h : 11 * 2 ^ 52 * p ≤ 30 * 2 ^ s) :
    (11 / 10 * 2 ^ 52 : ℚ) ≤ 3 / p * twoPow s := by
  have hp' : (0 : ℚ) < p := by exact_mod_cast hp
  have hcast : ((11 * 2 ^ 52 * p : Nat) : ℚ) ≤ (30 * 2 ^ s : Nat) := Nat.cast_le.mpr h
  rw [cast_mul_twoPow] at hcast
  push_cast at hcast
  have hquotient : 3 / p * twoPow s = 3 * twoPow s / p := by ring
  rw [hquotient, le_div_iff₀ hp']
  linarith

theorem within_reduced {d : Nat} (hd : 0 < d) (hword : d < 2 ^ 64) :
    Within deepFactor (unitsOf (reduced d)) (d / (10 ^ 308 : Nat) * unitsOfOne) := by
  by_cases hleast : d = 1 ∨ d = 2
  . obtain ⟨hone, htwo⟩ := reduced_least
    rcases hleast with rfl | rfl
    . exact within_reduced_of_least hone (by decide) (by decide +kernel) (by decide +kernel)
    . exact within_reduced_of_least htwo (by decide) (by decide +kernel) (by decide +kernel)
  . have hpow : 0 < 10 ^ 308 := by positivity
    have hpow' : (0 : ℚ) < (10 ^ 308 : Nat) := by exact_mod_cast hpow
    have hwithin := reduced_within_factor hd hword
    have hthree : (3 : ℚ) ≤ d := by exact_mod_cast (show 3 ≤ d by omega)
    have hleast' : (11 / 10 * 2 ^ 52 : ℚ) ≤ 3 / (10 ^ 308 : Nat) * unitsOfOne := le_divided hpow (by decide +kernel)
    have hmore : (3 / (10 ^ 308 : Nat) * unitsOfOne : ℚ) ≤ d / (10 ^ 308 : Nat) * unitsOfOne :=
      mul_le_mul_of_nonneg_right (div_le_div_of_nonneg_right hthree hpow'.le) unitsOfOne_pos.le
    have hfactor : roundingFactor * (1 + 1 / (2 ^ 56 : Nat)) ≤ 11 / 10 := by norm_num [roundingFactor]
    have hnormal : (2 ^ 52 : ℚ) ≤ (unitsOf (integer d) <<< 1074 : Nat) / (unitsOf (integer (10 ^ 308)) : Nat) := by
      have hupper := hwithin.2
      generalize ((unitsOf (integer d) <<< 1074 : Nat) : ℚ) / (unitsOf (integer (10 ^ 308)) : Nat) = q at hupper ⊢
      by_contra hlt
      have hpos : (0 : ℚ) < roundingFactor * (1 + 1 / (2 ^ 56 : Nat)) := by norm_num [roundingFactor]
      have hgrow := mul_lt_mul_of_pos_left (not_le.mp hlt) hpos
      have hgrow' := mul_le_mul_of_nonneg_right hfactor (show (0 : ℚ) ≤ 2 ^ 52 by norm_num)
      linarith
    have hround := within_round (unitsOf_pos (integer_ne_zero hpow)) rfl hnormal (reduced_lt_infinity hd hword)
    exact hround.trans (by norm_num [roundingFactor]) (by norm_num [roundingFactor]) hwithin

/-- Below the range of the powers of ten a decimal is reached in two divisions. -/
theorem scale_deep (steps : Nat) {d : Nat} (hd : 0 < d) (hword : d < 2 ^ 64) (hlow : -324 ≤ e) (hhigh : e < -308) :
    ∃ r, RoundedFrom (deepFactor * 1) (decimalUnits d e) r
      ∧ scaleByPow10? (Binary64.ofNat d) (steps + 1) e = some (ofMagnitude false r) := by
  have hpow : 0 < 10 ^ 308 := by positivity
  have hfinite := integer_lt_infinity (le_of_lt_word hword)
  have hgreatest : integer (10 ^ 308) < infinityMagnitude := integer_lt_infinity le_rfl
  have hdivided : (0 : ℚ) < d / (10 ^ 308 : Nat) := div_pos (by exact_mod_cast hd) (by exact_mod_cast hpow)
  have hwithin := within_reduced hd hword
  have hnonzero : reduced d ≠ 0 := by
    intro hzero
    have hone := unitsOfOne_pos
    have hle := hwithin.2
    rw [hzero, show unitsOf 0 = 0 from rfl, Nat.cast_zero, mul_zero] at hle
    have hpos := mul_pos hdivided hone
    linarith
  have hstep : scaleByPow10? (Binary64.ofNat d) (steps + 1) e
      = scaleByPow10? (ofMagnitude false (reduced d)) steps (e + 308) := by
    rw [scaleByPow10?, if_neg (by omega), if_neg, if_neg (by omega), pow10_eq le_rfl, ofNat_eq_integer,
      div_ofMagnitude hfinite hgreatest (integer_ne_zero hpow)]
    . rfl
    . rw [ofNat_eq_integer, isZero_ofMagnitude (lt_of_lt_infinity hfinite)]
      simpa using integer_ne_zero hd
  obtain ⟨r, hr, hscale⟩ := scaleByPow10?_spec steps (e := e + 308) (reduced_lt_infinity hd hword) hnonzero hdivided
    (by omega) hwithin (within_pow10_small (by omega))
  refine ⟨r, ?_, hstep.trans (hscale (.inl (by omega)))⟩
  have hexact : (d / (10 ^ 308 : Nat) : ℚ) * 10 ^ (e + 308) = d * 10 ^ e := by
    have hcast : ((10 ^ 308 : Nat) : ℚ) = 10 ^ (308 : Int) := by
      rw [Nat.cast_pow, Nat.cast_ofNat]
      rfl
    rw [hcast, zpow_add₀ (by norm_num)]
    field_simp
  rw [hexact] at hr
  exact hr

theorem RoundedFrom.close {x : Binary64} {c : Nat} (h : RoundedFrom f a r) (hf : 1 ≤ f) (hspread : (2 ^ 54 - 1) * (f - 1) < 2 * c)
    (hx : x.isFinite = true) (hlow : (x.interval.low : ℚ) ≤ 2 * a) (hhigh : 2 * a ≤ x.interval.high) :
    x.magnitude ≤ r + c ∧ r ≤ x.magnitude + c := by
  obtain ⟨hinterval, -, hinterval', -⟩ := interval_spec hx
  obtain ⟨num, den, hden, rfl, hwithin⟩ := h
  rw [hinterval, Nat.cast_add] at hlow
  rw [hinterval', Nat.cast_add] at hhigh
  exact round_close hf hspread (isFinite_magnitude.mp hx) (fun _ => hlow) hhigh hden rfl hwithin

theorem RoundedFrom.eq {x : Binary64} {d : Nat} (h : RoundedFrom 1 (decimalUnits d e) r) (hx : x.isFinite = true)
    (hcontains : x.interval.contains d e = true) : r = x.magnitude := by
  obtain ⟨hinterval, -, hinterval', hclosed⟩ := interval_spec hx
  obtain ⟨num, den, hden, rfl, hwithin⟩ := h
  rw [within_one_iff] at hwithin
  rw [contains_iff, hinterval, hinterval', hclosed, Nat.cast_add, Nat.cast_add] at hcontains
  exact round_eq (isFinite_magnitude.mp hx) hden hwithin (fun _ => hcontains.1) hcontains.2

end Scaling

section Numbers

variable {x : Binary64}

/-- The text of a zero is read exactly. -/
theorem toBinary64?_zero (negative : Bool) : ((ofMagnitude negative 0).toNumeral documentLayout).toBinary64?
    = some (ofMagnitude negative 0) := by
  cases negative <;> decide +kernel

/-- The greatest numbers are not read as infinities. -/
theorem toBinary64?_greatest (negative : Bool) :
    ((ofMagnitude negative (infinityMagnitude - 1)).toNumeral documentLayout).toBinary64?
      = some (ofMagnitude negative (infinityMagnitude - 1))
    ∧ ((ofMagnitude negative (infinityMagnitude - 2)).toNumeral documentLayout).toBinary64?
      = some (ofMagnitude negative (infinityMagnitude - 1))
    ∧ ((ofMagnitude negative (infinityMagnitude - 3)).toNumeral documentLayout).toBinary64?
      = some (ofMagnitude negative (infinityMagnitude - 3)) := by
  cases negative <;> decide +kernel

/-- The text of a number is collected to the decimal that was found for it. -/
theorem collected_toNumeral (hx : x.isFinite = true) (hzero : x.magnitude ≠ 0) {n : Numeral} (hn : n = x.toNumeral documentLayout) :
    n.negative = x.isNegative ∧ n.IsPlain ∧ 0 < n.collected.1 ∧ n.collected.1 < 2 ^ 64
      ∧ -324 ≤ n.collected.2 ∧ n.collected.2 ≤ 308 ∧ x.interval.contains n.collected.1 n.collected.2 = true := by
  obtain ⟨hcontains, hpos, hdigits, hlow, hhigh⟩ := shortest_spec documentLayout.tie hx hzero
  have hwrite : n = documentLayout.write x.isNegative (Decimal.numeral (x.shortest documentLayout.tie).digits)
      (x.shortest documentLayout.tie).exponent := hn
  generalize x.shortest documentLayout.tie = s at *
  obtain ⟨hnegative, hplain, -⟩ := write_spec x.isNegative hpos s.exponent hwrite
  refine ⟨hnegative, hplain, ?_⟩
  rcases collected_write x.isNegative hpos (by omega) s.exponent hwrite with hcollected | ⟨hinteger, hsmall, hcollected⟩
  . rw [hcollected]
    exact ⟨hpos, by omega, hlow, hhigh, hcontains⟩
  . have hunits : decimalUnits (s.digits * 10 ^ (s.exponent.natAbs + 1)) (-1) = decimalUnits s.digits s.exponent := by
      obtain ⟨k, hk⟩ := Int.eq_ofNat_of_zero_le hinteger
      rw [hk, Int.natAbs_natCast]
      unfold decimalUnits
      rw [zpow_natCast]
      push_cast
      ring
    rw [contains_iff] at hcontains ⊢
    rw [hcollected, hunits]
    exact ⟨Nat.mul_pos hpos (Nat.pow_pos (by decide)), by omega, show (-324 : Int) ≤ -1 by decide,
      show (-1 : Int) ≤ 308 by decide, hcontains⟩

theorem neg_or_self {r : Nat} (hr : r < infinityMagnitude) {negative : Bool} :
    (if negative then -ofMagnitude false r else ofMagnitude false r) = ofMagnitude negative r := by
  cases negative with
  | false => rfl
  | true => exact neg_ofMagnitude (lt_of_lt_infinity hr)

theorem toBinary64?_eq {n : Numeral} {r : Nat} (hr : r < infinityMagnitude)
    (h : scaleByPow10? (Binary64.ofNat n.collected.1) 3 n.collected.2 = some (ofMagnitude false r)) :
    n.toBinary64? = some (ofMagnitude n.negative r) := by
  unfold toBinary64?
  dsimp only
  rw [h, Option.map_some, neg_or_self hr]

/-- A number whose decimal is an integer of 53 bits, scaled by a power of ten that is a number, is read exactly. -/
theorem toBinary64?_exact (hx : x.isFinite = true) {n : Numeral} (hn : n = x.toNumeral documentLayout)
    (hdigits : n.collected.1 < 2 ^ 53) (hexponent : n.collected.2.natAbs ≤ 22) : n.toBinary64? = some x := by
  by_cases hzero : x.magnitude = 0
  . have hself := x.ofMagnitude_self
    rw [hzero] at hself
    rw [hn, ← hself]
    exact toBinary64?_zero x.isNegative
  . obtain ⟨hnegative, -, hpos, hword, -, -, hcontains⟩ := collected_toNumeral hx hzero hn
    obtain ⟨r, hr, hscale⟩ := scale_integer 3 hpos hword (by omega) (within_integer_small hdigits)
      (within_pow10_small hexponent)
    rw [one_mul] at hr
    have heq := hr.eq hx hcontains
    have hfinite := isFinite_magnitude.mp hx
    rw [heq] at hscale
    rw [toBinary64?_eq hfinite (hscale (.inr hfinite)), hnegative, ofMagnitude_self]

/-- Where the scaled integer of a number is, if it does not leave the finite numbers. -/
theorem scale_close (hx : x.isFinite = true) (hzero : x.magnitude ≠ 0) {n : Numeral} (hn : n = x.toNumeral documentLayout) :
    ∃ r, (r < infinityMagnitude → scaleByPow10? (Binary64.ofNat n.collected.1) 3 n.collected.2 = some (ofMagnitude false r))
      ∧ x.magnitude ≤ r + 3 ∧ r ≤ x.magnitude + 3
      ∧ (-308 ≤ n.collected.2 → x.magnitude ≤ r + 2 ∧ r ≤ x.magnitude + 2) := by
  obtain ⟨-, -, hpos, hword, hlow, hhigh, hcontains⟩ := collected_toNumeral hx hzero hn
  obtain ⟨hafter, hbefore⟩ := between_of_contains hcontains
  by_cases hdeep : n.collected.2 < -308
  . obtain ⟨r, hr, hscale⟩ := scale_deep 2 hpos hword hlow hdeep
    have hclose := hr.close (c := 3) (by norm_num [deepFactor, roundingFactor]) (by norm_num [deepFactor, roundingFactor]) hx
      hafter hbefore
    exact ⟨r, fun _ => hscale, hclose.1, hclose.2, by omega⟩
  . have hrange : n.collected.2.natAbs ≤ 308 := by omega
    obtain ⟨r, hr, hscale⟩ := scale_integer 3 hpos hword hrange (within_integer hpos (le_of_lt_word hword))
      (within_pow10 hrange)
    have hclose := hr.close (c := 2) (by norm_num [roundingFactor]) (by norm_num [roundingFactor]) hx hafter hbefore
    exact ⟨r, fun hfinite => hscale (.inr hfinite), by omega, by omega, fun _ => hclose⟩

end Numbers

end Numeral

namespace Binary64

variable {x : Binary64}

/-- The number that is read from the text of a number in a document. -/
def reread (x : Binary64) : Binary64 :=
  (x.toNumeral documentLayout).toBinary64?.getD nan

/-- What becomes of a number in a document. It keeps its sign and stays finite, and it is the same number if the digits of its
text are an integer of 53 bits that is scaled by at most 22 powers of ten. Otherwise it may move by two places in the order of
numbers, or by three if its text goes below `10 ^ -308`. -/
structure Resembles (x y : Binary64) : Prop where
  isFinite : y.isFinite = true
  isNegative : y.isNegative = x.isNegative
  eq_of_small : (x.toNumeral documentLayout).collected.1 < 2 ^ 53 → (x.toNumeral documentLayout).collected.2.natAbs ≤ 22 → y = x
  close : -308 ≤ (x.toNumeral documentLayout).collected.2 → x.magnitude ≤ y.magnitude + 2 ∧ y.magnitude ≤ x.magnitude + 2
  close_of_deep : x.magnitude ≤ y.magnitude + 3 ∧ y.magnitude ≤ x.magnitude + 3

theorem resembles_ofMagnitude (hx : x.isFinite = true) {r : Nat} (hr : r < infinityMagnitude)
    (hread : (x.toNumeral documentLayout).toBinary64? = some (ofMagnitude x.isNegative r))
    (hclose : -308 ≤ (x.toNumeral documentLayout).collected.2 → x.magnitude ≤ r + 2 ∧ r ≤ x.magnitude + 2)
    (hdeep : x.magnitude ≤ r + 3 ∧ r ≤ x.magnitude + 3) : x.Resembles (ofMagnitude x.isNegative r) := by
  obtain ⟨hmagnitude, hnegative⟩ := magnitude_ofMagnitude x.isNegative (lt_of_lt_infinity hr)
  constructor
  . rw [isFinite_magnitude, hmagnitude]
    exact hr
  . exact hnegative
  . intro hdigits hexponent
    have hexact := Numeral.toBinary64?_exact hx rfl hdigits hexponent
    exact Option.some.inj (hread.symm.trans hexact)
  . rw [hmagnitude]
    exact hclose
  . rw [hmagnitude]
    exact hdeep

/-- The text of a finite number is always read, to a number that resembles it. -/
theorem toBinary64?_toNumeral (hx : x.isFinite = true) :
    (x.toNumeral documentLayout).toBinary64? = some x.reread ∧ x.Resembles x.reread := by
  suffices h : ∃ r, r < infinityMagnitude ∧ (x.toNumeral documentLayout).toBinary64? = some (ofMagnitude x.isNegative r)
      ∧ (-308 ≤ (x.toNumeral documentLayout).collected.2 → x.magnitude ≤ r + 2 ∧ r ≤ x.magnitude + 2)
      ∧ x.magnitude ≤ r + 3 ∧ r ≤ x.magnitude + 3 by
    obtain ⟨r, hr, hread, hclose, hdeep⟩ := h
    have hreread : x.reread = ofMagnitude x.isNegative r := by
      unfold reread
      rw [hread, Option.getD_some]
    rw [hreread]
    exact ⟨hread, resembles_ofMagnitude hx hr hread hclose hdeep⟩
  have hself := x.ofMagnitude_self
  have hfinite := isFinite_magnitude.mp hx
  by_cases hzero : x.magnitude = 0
  . have hread := Numeral.toBinary64?_zero x.isNegative
    rw [← hzero, hself] at hread
    exact ⟨x.magnitude, hfinite, by rw [hself]; exact hread, by omega, by omega⟩
  . by_cases hgreat : infinityMagnitude ≤ x.magnitude + 3
    . obtain ⟨hfirst, hsecond, hthird⟩ := Numeral.toBinary64?_greatest x.isNegative
      have hread : ∀ {k r}, x.magnitude = k →
          ((ofMagnitude x.isNegative k).toNumeral documentLayout).toBinary64? = some (ofMagnitude x.isNegative r) →
          (x.toNumeral documentLayout).toBinary64? = some (ofMagnitude x.isNegative r) := by
        rintro k r rfl h
        rw [hself] at h
        exact h
      have hplace : x.magnitude = infinityMagnitude - 1 ∨ x.magnitude = infinityMagnitude - 2
          ∨ x.magnitude = infinityMagnitude - 3 := by omega
      rcases hplace with h | h | h
      . exact ⟨_, by decide, hread h hfirst, by omega, by omega, by omega⟩
      . exact ⟨_, by decide, hread h hsecond, by omega, by omega, by omega⟩
      . exact ⟨_, by decide, hread h hthird, by omega, by omega, by omega⟩
    . obtain ⟨r, hscale, hlow, hhigh, hclose⟩ := Numeral.scale_close hx hzero rfl
      have hr : r < infinityMagnitude := by omega
      refine ⟨r, hr, ?_, hclose, hlow, hhigh⟩
      rw [Numeral.toBinary64?_eq hr (hscale hr), (Numeral.collected_toNumeral hx hzero rfl).1]

theorem isPlain_toNumeral (hx : x.isFinite = true) : (x.toNumeral documentLayout).IsPlain := by
  by_cases hzero : x.magnitude = 0
  . have hself := x.ofMagnitude_self
    rw [hzero] at hself
    rw [← hself]
    cases x.isNegative with
    | false => exact ⟨by decide +kernel, by decide +kernel⟩
    | true => exact ⟨by decide +kernel, by decide +kernel⟩
  . exact (Numeral.collected_toNumeral hx hzero rfl).2.1

end Binary64

end LaneOrder
