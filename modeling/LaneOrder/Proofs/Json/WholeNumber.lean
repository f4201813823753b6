import LaneOrder.Proofs.Json.Number

/-!
This module contains that a whole number which still fits into 53 bits with a zero behind it is read back from a document as it
was. Its shortest decimal is the number itself, because its neighbours are less than one away.
-/

namespace LaneOrder.Binary64

variable {n : Nat}

theorem decimalUnits_zero : decimalUnits n 0 = n * unitsOfOne := by
  unfold decimalUnits
  rw [zpow_zero, mul_one]

theorem ofNat_spec (hn : n < 2 ^ 53) : (ofNat n).isFinite = true ∧ (0 < n → (ofNat n).magnitude ≠ 0)
    ∧ (unitsOf (ofNat n).magnitude : ℚ) = n * unitsOfOne := by
  have hfinite : integer n < infinityMagnitude := integer_lt_infinity (Numeral.le_of_lt_word (by omega))
  have hmagnitude : (ofNat n).magnitude = integer n := (magnitude_ofMagnitude false (lt_of_lt_infinity hfinite)).1
  rw [isFinite_magnitude, hmagnitude]
  exact ⟨hfinite, integer_ne_zero, within_one_iff.mp (Numeral.within_integer_small hn)⟩

/-- The neighbours of a whole number of 52 bits are less than one away. -/
theorem unitOf_ofNat_lt (hn : n < 2 ^ 52) : (unitOf (ofNat n).magnitude : ℚ) < unitsOfOne := by
  obtain ⟨hfinite, -, hunits⟩ := ofNat_spec (n := n) (by omega)
  have hone := unitsOfOne_pos
  generalize (ofNat n).magnitude = m at *
  by_cases hsubnormal : m < 2 ^ 52
  . have hunit : unitOf m = 1 := by
      unfold unitOf
      rw [Nat.div_eq_of_lt hsubnormal]
      rfl
    have hnormal := normal_unitsOfOne
    rw [hunit, Nat.cast_one]
    linarith
  . have hle : (2 ^ 52 * unitOf m : ℚ) ≤ unitsOf m := by exact_mod_cast le_unitsOf (not_lt.mp hsubnormal)
    have hn' : (n : ℚ) < 2 ^ 52 := by exact_mod_cast hn
    have hgrow := mul_lt_mul_of_pos_right hn' hone
    rw [hunits] at hle
    linarith

/-- No other whole number is in the interval of a whole number. -/
theorem eq_of_contains_ofNat {k : Nat} (hpos : 0 < n) (hn : n < 2 ^ 52) (h : (ofNat n).interval.contains k 0 = true) : k = n := by
  obtain ⟨hfinite, hzero, hunits⟩ := ofNat_spec (n := n) (by omega)
  have hlt := unitOf_ofNat_lt hn
  have hone := unitsOfOne_pos
  obtain ⟨hlow, -, hhigh, -⟩ := interval_spec hfinite
  obtain ⟨hafter, hbefore⟩ := between_of_contains h
  rw [decimalUnits_zero, hlow, Nat.cast_add, hunits] at hafter
  rw [decimalUnits_zero, hhigh, unitsOf_add_one, Nat.cast_add, Nat.cast_add, hunits] at hbefore
  generalize (ofNat n).magnitude = m at *
  obtain ⟨m, rfl⟩ := Nat.exists_eq_add_one_of_ne_zero (hzero hpos)
  have hunit : (unitOf m : ℚ) ≤ unitOf (m + 1) := by exact_mod_cast unitOf_mono m.le_succ
  rw [unitsOf_add_one, Nat.cast_add] at hunits
  rw [Nat.add_sub_cancel] at hafter
  apply Nat.le_antisymm
  . have hle : (k : ℚ) * unitsOfOne < (n + 1) * unitsOfOne := by linarith
    have hlt' : (k : ℚ) < n + 1 := lt_of_mul_lt_mul_right hle hone.le
    exact Nat.le_of_lt_succ (by exact_mod_cast hlt')
  . have hle : (n : ℚ) * unitsOfOne < (k + 1) * unitsOfOne := by linarith
    have hlt' : (n : ℚ) < k + 1 := lt_of_mul_lt_mul_right hle hone.le
    exact Nat.le_of_lt_succ (by exact_mod_cast hlt')

theorem nearest?_ofNat (tie : Tie) (hpos : 0 < n) (hn : n < 2 ^ 53) : (ofNat n).interval.nearest? tie 0 ≠ none := by
  obtain ⟨hfinite, hzero, hunits⟩ := ofNat_spec hn
  obtain ⟨-, hlow, hhigh, -⟩ := interval_width hfinite (hzero hpos)
  have hone := unitsOfOne_pos
  have hmiddle : ((ofNat n).interval.middle : ℚ) = 2 * decimalUnits n 0 := by
    rw [(interval_spec hfinite).2.1, Nat.cast_mul, hunits, decimalUnits_zero, Nat.cast_ofNat]
  have hcontains : (ofNat n).interval.contains n 0 = true := by
    rw [contains_iff, ← hmiddle]
    exact ⟨.inl (by exact_mod_cast hlow), .inl (by exact_mod_cast hhigh)⟩
  obtain ⟨below, first, second, hfloor, hceil, hpair, hnearest⟩ := nearest?_spec (ofNat n).interval tie 0
  rw [hmiddle, decimalUnits_zero, decimalUnits_zero] at hfloor hceil
  have hbelow : below = n := by
    have hle : (below : ℚ) ≤ n := le_of_mul_le_mul_right (by linarith) hone
    have hlt : (n : ℚ) < (below + 1 : Nat) := lt_of_mul_lt_mul_right (by linarith) hone.le
    exact Nat.le_antisymm (by exact_mod_cast hle) (Nat.le_of_lt_succ (by exact_mod_cast hlt))
  rw [hnearest]
  rcases hpair with ⟨rfl, -⟩ | ⟨-, rfl⟩
  . rw [hbelow, if_pos hcontains]
    exact Option.some_ne_none n
  . rw [hbelow, if_pos hcontains]
    split <;> exact Option.some_ne_none _

/-- The shortest decimal of a whole number is the number itself. -/
theorem shortest_ofNat (tie : Tie) (hpos : 0 < n) (hn : n < 2 ^ 52) : 0 ≤ ((ofNat n).shortest tie).exponent
    ∧ ((ofNat n).shortest tie).digits * 10 ^ ((ofNat n).shortest tie).exponent.natAbs = n := by
  obtain ⟨hfinite, hzero, -⟩ := ofNat_spec (n := n) (by omega)
  have hexponent := le_exponent_of_nearest? (hzero hpos) (nearest?_ofNat tie hpos (by omega)) (by decide) le_rfl
  obtain ⟨hcontains, -⟩ := shortest_spec tie hfinite (hzero hpos)
  refine ⟨hexponent, eq_of_contains_ofNat hpos hn ?_⟩
  generalize (ofNat n).shortest tie = s at *
  have hunits : decimalUnits (s.digits * 10 ^ s.exponent.natAbs) 0 = decimalUnits s.digits s.exponent := by
    obtain ⟨k, hk⟩ := Int.eq_ofNat_of_zero_le hexponent
    rw [decimalUnits_zero, hk, Int.natAbs_natCast]
    unfold decimalUnits
    rw [zpow_natCast]
    push_cast
    ring
  rw [contains_iff] at hcontains ⊢
  rw [hunits]
  exact hcontains

/-- A whole number that still has 53 bits with a zero behind it survives in a document. -/
theorem reread_ofNat (hn : 10 * n < 2 ^ 53) : (ofNat n).reread = ofNat n := by
  by_cases hpos : 0 < n
  . obtain ⟨hfinite, hzero, -⟩ := ofNat_spec (n := n) (by omega)
    obtain ⟨hexponent, hshortest⟩ := shortest_ofNat documentLayout.tie hpos (by omega)
    obtain ⟨-, hdigits, hword, -⟩ := shortest_spec documentLayout.tie hfinite (hzero hpos)
    have hcollected := Numeral.collected_write (ofNat n).isNegative hdigits (by omega)
      ((ofNat n).shortest documentLayout.tie).exponent (n := (ofNat n).toNumeral documentLayout) rfl
    suffices h : ((ofNat n).toNumeral documentLayout).collected.1 < 2 ^ 53
        ∧ ((ofNat n).toNumeral documentLayout).collected.2.natAbs ≤ 22 by
      unfold reread
      rw [Numeral.toBinary64?_exact hfinite rfl h.1 h.2, Option.getD_some]
    generalize (ofNat n).shortest documentLayout.tie = s at *
    rcases hcollected with hcollected | ⟨-, -, hcollected⟩
    . have hdigits' : s.digits ≤ n := hshortest ▸ Nat.le_mul_of_pos_right _ (Nat.pow_pos (by decide))
      have hpower : 10 ^ s.exponent.natAbs ≤ n := hshortest ▸ Nat.le_mul_of_pos_left _ hdigits
      rw [hcollected]
      refine ⟨show s.digits < 2 ^ 53 by omega, show s.exponent.natAbs ≤ 22 from ?_⟩
      by_contra hlarge
      have hmono : 10 ^ 22 ≤ 10 ^ s.exponent.natAbs := Nat.pow_le_pow_right (by decide) (by omega)
      omega
    . rw [hcollected, Nat.pow_succ, ← Nat.mul_assoc, hshortest]
      exact ⟨by omega, show (-1 : Int).natAbs ≤ 22 by decide⟩
  . obtain rfl : n = 0 := by omega
    unfold reread
    rw [show ofNat 0 = ofMagnitude false 0 by decide +kernel, Numeral.toBinary64?_zero, Option.getD_some]

end LaneOrder.Binary64
