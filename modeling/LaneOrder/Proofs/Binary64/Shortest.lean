import LaneOrder.Binary64.Shortest
import LaneOrder.Proofs.Binary64.Products

/-!
This module contains what the search for the shortest decimal of a number finds: a decimal between the middles to the two
neighbours. The search ends because a grid that is finer than the distance of the middles has a point between them, and the
decimal has few digits because the grid that is one step coarser has none.
-/

namespace LaneOrder.Binary64

variable {n : Nat} {j : Int} {tie : Tie} {i : Interval}

/-- A decimal in units of `2 ^ -1074`. -/
def decimalUnits (n : Nat) (j : Int) : ℚ :=
  n * 10 ^ j * unitsOfOne

section Grids

theorem timesPow10_spec (n : Nat) (j : Int) :
    0 < (timesPow10 n j).2 ∧ ((timesPow10 n j).1 : ℚ) / (timesPow10 n j).2 = n * 10 ^ j := by
  unfold timesPow10
  split
  . next h =>
    obtain ⟨k, rfl⟩ : ∃ k : Nat, j = -k := ⟨j.natAbs, by omega⟩
    refine ⟨Nat.pow_pos (by decide), ?_⟩
    rw [Int.natAbs_neg, Int.natAbs_natCast, zpow_neg, zpow_natCast, div_eq_mul_inv, show Nat.pow 10 k = 10 ^ k from rfl,
      Nat.cast_pow, Nat.cast_ofNat]
  . next h =>
    obtain ⟨k, rfl⟩ := Int.eq_ofNat_of_zero_le (not_lt.mp h)
    refine ⟨Nat.one_pos, ?_⟩
    rw [Int.natAbs_natCast, zpow_natCast]
    simp

theorem twoPow_succ (s : Nat) : twoPow (s + 1) = 2 * twoPow s := by
  unfold twoPow
  rw [pow_succ]
  push_cast
  ring

theorem shiftLeft_eq_decimalUnits (n : Nat) (j : Int) :
    (((timesPow10 n j).1 <<< 1075 : Nat) : ℚ) = 2 * decimalUnits n j * (timesPow10 n j).2 := by
  obtain ⟨hpos, hvalue⟩ := timesPow10_spec n j
  have hpos' : ((timesPow10 n j).2 : ℚ) ≠ 0 := by exact_mod_cast hpos.ne'
  rw [cast_shiftLeft, twoPow_succ]
  unfold decimalUnits unitsOfOne
  rw [← hvalue]
  field_simp

theorem le_decimalUnits_iff {low : Nat} :
    low * (timesPow10 n j).2 ≤ (timesPow10 n j).1 <<< 1075 ↔ (low : ℚ) ≤ 2 * decimalUnits n j := by
  have hpos : (0 : ℚ) < (timesPow10 n j).2 := by exact_mod_cast (timesPow10_spec n j).1
  rw [← Nat.cast_le (α := ℚ), shiftLeft_eq_decimalUnits, Nat.cast_mul, mul_le_mul_iff_left₀ hpos]

theorem decimalUnits_le_iff {high : Nat} :
    (timesPow10 n j).1 <<< 1075 ≤ high * (timesPow10 n j).2 ↔ 2 * decimalUnits n j ≤ (high : ℚ) := by
  have hpos : (0 : ℚ) < (timesPow10 n j).2 := by exact_mod_cast (timesPow10_spec n j).1
  rw [← Nat.cast_le (α := ℚ), shiftLeft_eq_decimalUnits, Nat.cast_mul, mul_le_mul_iff_left₀ hpos]

theorem contains_iff : i.contains n j = true ↔
    ((i.low : ℚ) < 2 * decimalUnits n j ∨ (i.low : ℚ) = 2 * decimalUnits n j ∧ i.closed = true)
      ∧ (2 * decimalUnits n j < i.high ∨ 2 * decimalUnits n j = i.high ∧ i.closed = true) := by
  unfold Interval.contains
  dsimp only
  cases i.closed with
  | true =>
    simp only [if_true, Bool.and_eq_true, decide_eq_true_eq, le_decimalUnits_iff, decimalUnits_le_iff, and_true]
    rw [le_iff_lt_or_eq, le_iff_lt_or_eq]
  | false =>
    simp only [Bool.false_eq_true, if_false, Bool.and_eq_true, decide_eq_true_eq, ← not_le, le_decimalUnits_iff,
      decimalUnits_le_iff, and_false, or_false]

theorem decimalUnits_pos (hn : 0 < n) : 0 < decimalUnits n j := by
  have hn' : (0 : ℚ) < n := by exact_mod_cast hn
  exact mul_pos (mul_pos hn' (zpow_pos (by norm_num) j)) unitsOfOne_pos

theorem decimalUnits_eq_mul (n : Nat) : decimalUnits n j = n * decimalUnits 1 j := by
  unfold decimalUnits
  push_cast
  ring

theorem decimalUnits_succ : decimalUnits (n + 1) j = decimalUnits n j + decimalUnits 1 j := by
  rw [decimalUnits_eq_mul, decimalUnits_eq_mul n]
  push_cast
  ring

/-- A quotient of integers is the greatest multiple of a step that is not past a number. -/
theorem floor_spec (middle : Nat) {scale den : Nat} {step : ℚ} (hscale : 0 < scale) (hstep : 0 < step) (hden : (den : ℚ) = step * scale) :
    step * (middle * scale / den : Nat) ≤ middle ∧ (middle : ℚ) < step * (middle * scale / den + 1 : Nat) := by
  have hscale' : (0 : ℚ) < scale := by exact_mod_cast hscale
  have hpos : 0 < den := by
    have : (0 : ℚ) < den := hden ▸ mul_pos hstep hscale'
    exact_mod_cast this
  have hmultiple : ∀ k : Nat, step * k * scale = (k * den : Nat) := by
    intro k
    rw [Nat.cast_mul, hden]
    ring
  constructor
  . rw [← mul_le_mul_iff_left₀ hscale', hmultiple, ← Nat.cast_mul, Nat.cast_le]
    exact Nat.div_mul_le_self _ _
  . rw [← mul_lt_mul_iff_left₀ hscale', hmultiple, ← Nat.cast_mul, Nat.cast_lt]
    exact Nat.lt_mul_of_div_lt (Nat.lt_succ_self _) hpos

/-- The greatest point of a grid that is not past a number. -/
theorem floor_decimalUnits (middle : Nat) : ∃ below,
    middle * (timesPow10 1 j).2 / ((timesPow10 1 j).1 <<< 1075) = below
      ∧ 2 * decimalUnits below j ≤ middle ∧ middle < 2 * decimalUnits (below + 1) j := by
  have hstep : 0 < 2 * decimalUnits 1 j := mul_pos (by norm_num) (decimalUnits_pos Nat.one_pos)
  have hfloor := floor_spec middle (timesPow10_spec 1 j).1 hstep (shiftLeft_eq_decimalUnits 1 j)
  have hmul : ∀ k : Nat, 2 * decimalUnits k j = 2 * decimalUnits 1 j * k := by
    intro k
    rw [decimalUnits_eq_mul k]
    ring
  refine ⟨_, rfl, ?_⟩
  exact ⟨by rw [hmul]; exact hfloor.1, by rw [hmul]; exact hfloor.2⟩

/-- The two points of a grid around the middle are tried one after the other. -/
theorem nearest?_spec (i : Interval) (tie : Tie) (j : Int) : ∃ below first second,
    2 * decimalUnits below j ≤ i.middle ∧ i.middle < 2 * decimalUnits (below + 1) j
      ∧ (first = below ∧ second = below + 1 ∨ first = below + 1 ∧ second = below)
      ∧ i.nearest? tie j = if i.contains first j then some first else if i.contains second j then some second else none := by
  obtain ⟨below, hbelow, hfloor, hceil⟩ := floor_decimalUnits (j := j) i.middle
  unfold Interval.nearest?
  dsimp only
  rw [hbelow]
  refine ⟨below, _, _, hfloor, hceil, ?_, rfl⟩
  split
  . exact .inl ⟨rfl, by simp⟩
  . exact .inr ⟨rfl, by simp⟩

theorem contains_of_nearest? (h : i.nearest? tie j = some n) : i.contains n j = true := by
  obtain ⟨below, first, second, -, -, -, heq⟩ := nearest?_spec i tie j
  rw [heq] at h
  split_ifs at h with hfirst hsecond
  . exact Option.some.inj h ▸ hfirst
  . exact Option.some.inj h ▸ hsecond

/-- A grid has a point in an interval unless the interval is narrower than the grid. -/
theorem width_le_of_nearest?_eq_none (h : i.nearest? tie j = none) (hlow : i.low < i.middle) (hhigh : i.middle < i.high) :
    (i.high : ℚ) ≤ i.low + 2 * decimalUnits 1 j := by
  obtain ⟨below, first, second, hfloor, hceil, hpair, heq⟩ := nearest?_spec i tie j
  have hlow' : (i.low : ℚ) < i.middle := by exact_mod_cast hlow
  have hhigh' : (i.middle : ℚ) < i.high := by exact_mod_cast hhigh
  rw [heq] at h
  have hnone : i.contains below j = false ∧ i.contains (below + 1) j = false := by
    split_ifs at h with hfirst hsecond
    rcases hpair with ⟨rfl, rfl⟩ | ⟨rfl, rfl⟩
    . exact ⟨by simpa using hfirst, by simpa using hsecond⟩
    . exact ⟨by simpa using hsecond, by simpa using hfirst⟩
  have hbelow : 2 * decimalUnits below j ≤ i.low := by
    by_contra hlt
    refine absurd (contains_iff.mpr ⟨.inl (not_le.mp hlt), .inl ?_⟩) (by simp [hnone.1])
    linarith
  have habove : (i.high : ℚ) ≤ 2 * decimalUnits (below + 1) j := by
    by_contra hlt
    refine absurd (contains_iff.mpr ⟨.inl ?_, .inl (not_le.mp hlt)⟩) (by simp [hnone.2])
    linarith
  rw [decimalUnits_succ] at habove
  linarith

theorem between_of_contains (h : i.contains n j = true) :
    (i.low : ℚ) ≤ 2 * decimalUnits n j ∧ 2 * decimalUnits n j ≤ i.high := by
  obtain ⟨hlow, hhigh⟩ := contains_iff.mp h
  constructor
  . rcases hlow with hlow | hlow
    . exact hlow.le
    . exact hlow.1.le
  . rcases hhigh with hhigh | hhigh
    . exact hhigh.le
    . exact hhigh.1.le

end Grids

section Search

variable {steps : Nat} {s : Scientific}

theorem coarsest?_spec (h : i.coarsest? tie steps j = some s) : s.exponent ≤ j ∧ i.nearest? tie s.exponent = some s.digits
    ∧ (s.exponent < j → i.nearest? tie (s.exponent + 1) = none) := by
  induction steps generalizing j with
  | zero => cases h
  | succ steps ih =>
    unfold Interval.coarsest? at h
    split at h
    . next n hn =>
      cases h
      exact ⟨le_rfl, hn, fun hlt => absurd hlt (Int.lt_irrefl j)⟩
    . next hnone =>
      obtain ⟨hle, hnearest, hcoarser⟩ := ih h
      refine ⟨by omega, hnearest, fun hlt => ?_⟩
      by_cases heq : s.exponent = j - 1
      . rw [heq, sub_add_cancel]
        exact hnone
      . exact hcoarser (by omega)

/-- The search does not pass a grid that has a point in the interval. -/
theorem coarsest?_of_nearest? {j' : Int} (hnearest : i.nearest? tie j' ≠ none) (hle : j' ≤ j) (hsteps : j < j' + steps) :
    ∃ s, i.coarsest? tie steps j = some s ∧ j' ≤ s.exponent := by
  induction steps generalizing j with
  | zero => omega
  | succ steps ih =>
    unfold Interval.coarsest?
    split
    . exact ⟨_, rfl, hle⟩
    . next hnone =>
      have hne : j' ≠ j := by
        rintro rfl
        exact hnearest hnone
      exact ih (by omega) (by omega)

end Search

section Numbers

variable {x : Binary64} {s : Scientific}

theorem units_ofWord {k : Nat} (hk : k < 2 ^ 63) : (ofWord k).units = unitsOf k := by
  rw [show ofWord k = ofMagnitude false k by unfold ofMagnitude; simp]
  exact units_ofMagnitude hk

theorem interval_spec (hx : x.isFinite = true) : x.interval.low = unitsOf (x.magnitude - 1) + unitsOf x.magnitude
    ∧ x.interval.middle = 2 * unitsOf x.magnitude
    ∧ x.interval.high = unitsOf x.magnitude + unitsOf (x.magnitude + 1)
    ∧ (x.interval.closed = true ↔ x.magnitude % 2 = 0) := by
  have hlt := isFinite_magnitude.mp hx
  have hword : infinityMagnitude < 2 ^ 63 := by decide
  unfold interval
  rw [units_ofWord (by omega), units_ofWord (by omega), units_eq]
  refine ⟨rfl, rfl, rfl, by simp⟩

/-- The search starts at a power of ten that is above the interval. -/
theorem lt_start (high s : Nat) : high < 10 ^ ((Nat.log2 (high >>> s) + 1) / 3 + 1) * 2 ^ s := by
  have hlog : high >>> s < 2 ^ (Nat.log2 (high >>> s) + 1) := Nat.lt_log2_self
  rw [Nat.shiftRight_eq_div_pow] at *
  generalize Nat.log2 (high / 2 ^ s) = l at *
  have hpow : 2 ^ (l + 1) ≤ 10 ^ ((l + 1) / 3 + 1) := by
    calc 2 ^ (l + 1) ≤ 2 ^ (3 * ((l + 1) / 3 + 1)) := Nat.pow_le_pow_right (by decide) (by omega)
      _ = 8 ^ ((l + 1) / 3 + 1) := by rw [pow_mul]; rfl
      _ ≤ 10 ^ ((l + 1) / 3 + 1) := Nat.pow_le_pow_left (by decide) _
  exact Nat.lt_mul_of_div_lt (Nat.lt_of_lt_of_le hlog hpow) (Nat.two_pow_pos s)

theorem decimalUnits_finest : decimalUnits 1 (-324) < 1 := by
  have hlt : (2 ^ 1074 : Nat) < 10 ^ 324 := by decide +kernel
  have hcast : unitsOfOne < (10 : ℚ) ^ 324 := by
    calc unitsOfOne < ((10 ^ 324 : Nat) : ℚ) := Nat.cast_lt.mpr hlt
      _ = (10 : ℚ) ^ 324 := by rw [Nat.cast_pow, Nat.cast_ofNat]
  unfold decimalUnits
  rw [Nat.cast_one, one_mul, show (-324 : Int) = -(324 : Nat) from rfl, zpow_neg, zpow_natCast, inv_mul_lt_iff₀ (by positivity),
    mul_one]
  exact hcast

theorem decimalUnits_coarsest : (unitsOf infinityMagnitude : ℚ) < decimalUnits 1 309 := by
  have hunits : unitsOf infinityMagnitude = 2 ^ 1024 * 2 ^ 1074 := by decide +kernel
  have hlt : (2 ^ 1024 : Nat) < 10 ^ 309 := by decide +kernel
  have hcast : twoPow 1024 < (10 : ℚ) ^ 309 := by
    calc twoPow 1024 < ((10 ^ 309 : Nat) : ℚ) := Nat.cast_lt.mpr hlt
      _ = (10 : ℚ) ^ 309 := by rw [Nat.cast_pow, Nat.cast_ofNat]
  unfold decimalUnits
  rw [hunits, cast_mul_twoPow, Nat.cast_one, one_mul, show (309 : Int) = (309 : Nat) from rfl, zpow_natCast]
  exact mul_lt_mul_of_pos_right hcast unitsOfOne_pos

theorem decimalUnits_mono {j' : Int} (h : j ≤ j') : decimalUnits 1 j ≤ decimalUnits 1 j' := by
  unfold decimalUnits
  apply mul_le_mul_of_nonneg_right _ unitsOfOne_pos.le
  exact mul_le_mul_of_nonneg_left (zpow_le_zpow_right₀ (by norm_num) h) (by simp)

theorem decimalUnits_succ_exponent : decimalUnits 1 (j + 1) = 10 * decimalUnits 1 j := by
  unfold decimalUnits
  rw [zpow_add_one₀ (by norm_num)]
  ring

theorem decimalUnits_natCast (e : Nat) : 2 * decimalUnits 1 e = (10 ^ e * 2 ^ 1075 : Nat) := by
  have hsucc : twoPow 1075 = 2 * twoPow 1074 := twoPow_succ 1074
  unfold decimalUnits unitsOfOne
  rw [cast_mul_twoPow, hsucc, zpow_natCast]
  push_cast
  ring

/-- The middles to the neighbours are apart by more than the distance to the next number. -/
theorem interval_width (hx : x.isFinite = true) (hzero : x.magnitude ≠ 0) : 0 < x.interval.low
    ∧ x.interval.low < x.interval.middle ∧ x.interval.middle < x.interval.high
    ∧ x.interval.low + unitOf x.magnitude + 1 ≤ x.interval.high := by
  obtain ⟨hlow, hmiddle, hhigh, -⟩ := interval_spec hx
  obtain ⟨k, hk⟩ := Nat.exists_eq_add_one_of_ne_zero hzero
  have hbelow : unitsOf k < unitsOf x.magnitude := unitsOf_strictMono (by omega)
  have habove : unitsOf (x.magnitude + 1) = unitsOf x.magnitude + unitOf x.magnitude := unitsOf_add_one
  have hunit := unitOf_pos (m := x.magnitude)
  rw [show x.magnitude - 1 = k by omega] at hlow
  omega

theorem unitOf_le_of_nearest?_eq_none (hx : x.isFinite = true) (hzero : x.magnitude ≠ 0)
    (hnone : x.interval.nearest? tie j = none) : (unitOf x.magnitude : ℚ) + 1 ≤ 2 * decimalUnits 1 j := by
  obtain ⟨-, hlow, hhigh, hgap⟩ := interval_width hx hzero
  have hle := width_le_of_nearest?_eq_none hnone hlow hhigh
  have hgap' : (x.interval.low + unitOf x.magnitude + 1 : ℚ) ≤ x.interval.high := by exact_mod_cast hgap
  linarith

/-- The search goes through the grids from above the number. -/
theorem shortest_eq (tie : Tie) (hzero : x.magnitude ≠ 0) : ∃ start : Nat, x.interval.high < 10 ^ start * 2 ^ 1075
    ∧ x.shortest tie = (x.interval.coarsest? tie (start + 1075) start).getD ⟨0, 0⟩ := by
  refine ⟨_, lt_start x.interval.high 1075, ?_⟩
  unfold shortest
  rw [if_neg (by simpa [isZero] using hzero)]

/-- A grid with a point in the interval is at most as coarse as the one that is found. -/
theorem le_exponent_of_nearest? (hzero : x.magnitude ≠ 0) (hnearest : x.interval.nearest? tie j ≠ none) (hlow : -1074 ≤ j)
    (hhigh : j ≤ 0) : j ≤ (x.shortest tie).exponent := by
  obtain ⟨start, -, hshortest⟩ := shortest_eq tie hzero
  obtain ⟨s, hs, hexponent⟩ : ∃ s, x.interval.coarsest? tie (start + 1075) start = some s ∧ j ≤ s.exponent :=
    coarsest?_of_nearest? hnearest (by omega) (by push_cast; omega)
  rw [hshortest, hs]
  exact hexponent

theorem nearest?_finest (tie : Tie) (hx : x.isFinite = true) (hzero : x.magnitude ≠ 0) : x.interval.nearest? tie (-324) ≠ none := by
  intro hnone
  have hunit : (1 : ℚ) ≤ unitOf x.magnitude := by exact_mod_cast unitOf_pos
  have hle := unitOf_le_of_nearest?_eq_none hx hzero hnone
  have hlt := decimalUnits_finest
  linarith

/-- The search finds a decimal, and the grid that is one step coarser has none. -/
theorem exists_shortest (tie : Tie) (hx : x.isFinite = true) (hzero : x.magnitude ≠ 0) :
    x.interval.contains (x.shortest tie).digits (x.shortest tie).exponent = true ∧ 0 < (x.shortest tie).digits
      ∧ x.interval.nearest? tie ((x.shortest tie).exponent + 1) = none := by
  obtain ⟨start, hstart, hshortest⟩ := shortest_eq tie hzero
  obtain ⟨s, hs, -⟩ : ∃ s, x.interval.coarsest? tie (start + 1075) start = some s ∧ -324 ≤ s.exponent :=
    coarsest?_of_nearest? (nearest?_finest tie hx hzero) (by omega) (by push_cast; omega)
  obtain ⟨hle, hnearest, hcoarser⟩ := coarsest?_spec hs
  have hcontains := contains_of_nearest? hnearest
  obtain ⟨hlow, hhigh⟩ := between_of_contains hcontains
  have hpos : 0 < s.digits := by
    apply Nat.pos_of_ne_zero
    intro hdigits
    have hlow' : (0 : ℚ) < x.interval.low := by exact_mod_cast (interval_width hx hzero).1
    rw [hdigits, decimalUnits_eq_mul, Nat.cast_zero] at hlow
    linarith
  rw [hs, Option.getD_some] at hshortest
  rw [hshortest]
  refine ⟨hcontains, hpos, hcoarser (lt_of_le_of_ne hle ?_)⟩
  -- the first grid is coarser than the number
  intro heq
  have hone : (1 : ℚ) ≤ s.digits := by exact_mod_cast hpos
  have hstart' : (x.interval.high : ℚ) < 2 * decimalUnits 1 s.exponent := by
    rw [heq, decimalUnits_natCast]
    exact_mod_cast hstart
  rw [decimalUnits_eq_mul] at hhigh
  have hgrow := le_mul_of_one_le_left (decimalUnits_pos (j := s.exponent) Nat.one_pos).le hone
  linarith only [hhigh, hstart', hgrow]

theorem shortest_spec (tie : Tie) (hx : x.isFinite = true) (hzero : x.magnitude ≠ 0) :
    x.interval.contains (x.shortest tie).digits (x.shortest tie).exponent = true
      ∧ 0 < (x.shortest tie).digits ∧ (x.shortest tie).digits ≤ 20 * 2 ^ 53
      ∧ -324 ≤ (x.shortest tie).exponent ∧ (x.shortest tie).exponent ≤ 308 := by
  obtain ⟨hcontains, hpos, hcoarser⟩ := exists_shortest tie hx hzero
  have hexponent := le_exponent_of_nearest? hzero (nearest?_finest tie hx hzero) (by decide) (by decide)
  generalize x.shortest tie = s at *
  obtain ⟨hlow, hhigh⟩ := between_of_contains hcontains
  have hone : (1 : ℚ) ≤ s.digits := by exact_mod_cast hpos
  have hunit := decimalUnits_pos (j := s.exponent) Nat.one_pos
  rw [decimalUnits_eq_mul] at hhigh
  refine ⟨hcontains, hpos, ?_, hexponent, ?_⟩
  . have hgap := unitOf_le_of_nearest?_eq_none hx hzero hcoarser
    have hlt : (x.interval.high : ℚ) ≤ 2 ^ 54 * unitOf x.magnitude := by
      have hle := unitsOf_lt (m := x.magnitude)
      rw [(interval_spec hx).2.2.1, unitsOf_add_one]
      exact_mod_cast (by omega : unitsOf x.magnitude + (unitsOf x.magnitude + unitOf x.magnitude) ≤ 2 ^ 54 * unitOf x.magnitude)
    rw [decimalUnits_succ_exponent] at hgap
    have hle : (s.digits : ℚ) * decimalUnits 1 s.exponent ≤ 20 * 2 ^ 53 * decimalUnits 1 s.exponent := by linarith
    have hdigits := le_of_mul_le_mul_right hle hunit
    exact_mod_cast hdigits
  . by_contra hlarge
    have hmono : decimalUnits 1 309 ≤ decimalUnits 1 s.exponent := decimalUnits_mono (by omega)
    have hgreatest : (x.interval.high : ℚ) ≤ 2 * unitsOf infinityMagnitude := by
      have hlt := isFinite_magnitude.mp hx
      have hle : unitsOf x.magnitude ≤ unitsOf infinityMagnitude := unitsOf_strictMono.monotone hlt.le
      have hle' : unitsOf (x.magnitude + 1) ≤ unitsOf infinityMagnitude := unitsOf_strictMono.monotone hlt
      rw [(interval_spec hx).2.2.1]
      exact_mod_cast (by omega : unitsOf x.magnitude + unitsOf (x.magnitude + 1) ≤ 2 * unitsOf infinityMagnitude)
    have hgrow := le_mul_of_one_le_left hunit.le hone
    linarith [decimalUnits_coarsest]

end Numbers

end LaneOrder.Binary64
