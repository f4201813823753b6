import LaneOrder.Decimal.Numeral
import Mathlib.Data.List.Induction
import Mathlib.Tactic.Ring

/-!
This module contains why decimal text is read as it was written. Digits are read up to the first character that is none, and
the digits of a number have its value; they start with a zero only if it is the only one or fills a field of fixed width.
-/

namespace LaneOrder.Decimal

variable {ds ds' : List Digit} {d : Digit} {n width : Nat} {rest : List Char}

section Value

theorem value_nil : value [] = 0 :=
  rfl

theorem value_concat : value (ds ++ [d]) = 10 * value ds + d := by
  unfold value
  rw [List.foldl_append]
  rfl

theorem value_append : value (ds ++ ds') = value ds * 10 ^ ds'.length + value ds' := by
  induction ds' using List.reverseRecOn with
  | nil => simp [value_nil]
  | append_singleton ds' d ih =>
    rw [← List.append_assoc, value_concat, value_concat, ih, List.length_append, List.length_singleton]
    ring

theorem value_singleton : value [d] = d := by
  rw [← List.nil_append [d], value_concat, value_nil]
  omega

theorem value_replicate_zero : value (List.replicate n Digit.zero) = 0 := by
  induction n with
  | zero => rfl
  | succ n ih =>
    rw [List.replicate_succ', value_concat, ih]
    rfl

theorem value_lt : value ds < 10 ^ ds.length := by
  induction ds using List.reverseRecOn with
  | nil => decide
  | append_singleton ds d ih =>
    rw [value_concat, List.length_append, List.length_singleton, Nat.pow_succ]
    have := d.isLt
    omega

end Value

section Digits

variable {fuel : Nat}

theorem go_append (ds : List Digit) : digits.go fuel n ds = digits.go fuel n [] ++ ds := by
  induction fuel generalizing n ds with
  | zero => rfl
  | succ fuel ih =>
    unfold digits.go
    split
    . rfl
    . rw [ih, ih [_], List.append_assoc]
      rfl

theorem go_succ (h : n ≤ fuel) : digits.go (fuel + 1) n ds = digits.go fuel n ds := by
  induction fuel generalizing n ds with
  | zero =>
    obtain rfl : n = 0 := by omega
    rfl
  | succ fuel ih =>
    unfold digits.go
    split
    . rfl
    . exact ih (by omega)

theorem go_eq_digits (h : n ≤ fuel) : digits.go fuel n [] = digits n := by
  induction fuel with
  | zero =>
    obtain rfl : n = 0 := by omega
    rfl
  | succ fuel ih =>
    by_cases hn : n = fuel + 1
    . subst hn
      rfl
    . rw [go_succ (by omega)]
      exact ih (by omega)

theorem digits_of_pos (hn : 0 < n) : digits n = digits (n / 10) ++ [Fin.ofNat 10 n] := by
  obtain ⟨m, rfl⟩ := Nat.exists_eq_succ_of_ne_zero (by omega : n ≠ 0)
  have hgo : digits (m + 1) = digits.go m ((m + 1) / 10) [Fin.ofNat 10 (m + 1)] := by
    unfold digits
    rw [digits.go, if_neg (Nat.succ_ne_zero m)]
  rw [Nat.succ_eq_add_one, hgo, go_append, go_eq_digits (by omega)]

theorem value_digits : value (digits n) = n := by
  induction n using Nat.strongRecOn with
  | ind n ih =>
    by_cases hn : n = 0
    . subst hn
      rfl
    . rw [digits_of_pos (by omega), value_concat, ih (n / 10) (by omega)]
      show 10 * (n / 10) + n % 10 = n
      omega

theorem length_digits_le (h : n < 10 ^ width) : (digits n).length ≤ width := by
  induction width generalizing n with
  | zero =>
    obtain rfl : n = 0 := by omega
    rfl
  | succ width ih =>
    by_cases hn : n = 0
    . subst hn
      exact Nat.zero_le _
    . rw [digits_of_pos (by omega), List.length_append, List.length_singleton]
      apply Nat.succ_le_succ
      apply ih
      rw [Nat.pow_succ] at h
      omega

theorem head_digits (hn : 0 < n) : ∃ d ds, digits n = d :: ds ∧ d ≠ Digit.zero := by
  induction n using Nat.strongRecOn with
  | ind n ih =>
    rw [digits_of_pos hn]
    by_cases hsmall : n < 10
    . refine ⟨Fin.ofNat 10 n, [], ?_, ?_⟩
      . rw [Nat.div_eq_of_lt hsmall]
        rfl
      . intro hzero
        have hmod : n % 10 = 0 := congrArg Fin.val hzero
        omega
    . obtain ⟨d, ds, hds, hd⟩ := ih (n / 10) (by omega) (by omega)
      rw [hds]
      exact ⟨d, ds ++ [Fin.ofNat 10 n], rfl, hd⟩

theorem value_numeral : value (numeral n) = n := by
  unfold numeral
  split
  . next hn =>
    subst hn
    rfl
  . exact value_digits

theorem numeral_ne_nil : numeral n ≠ [] := by
  unfold numeral
  split
  . exact List.cons_ne_nil _ _
  . obtain ⟨d, ds, hds, _⟩ := head_digits (n := n) (by omega)
    rw [hds]
    exact List.cons_ne_nil _ _

theorem length_numeral_le (h : n < 10 ^ width) (hwidth : width ≠ 0) : (numeral n).length ≤ width := by
  unfold numeral
  split
  . exact Nat.pos_of_ne_zero hwidth
  . exact length_digits_le h

end Digits

section Chars

theorem toChars_append : toChars (ds ++ ds') = toChars ds ++ toChars ds' :=
  List.map_append

theorem toChars_replicate_zero : toChars (List.replicate n Digit.zero) = List.replicate n '0' :=
  List.map_replicate

theorem length_toChars : (toChars ds).length = ds.length :=
  List.length_map _

/-- Digits are read up to the first character that is none. -/
theorem spanDigits_toChars (hrest : ∀ c ∈ rest.head?, Digit.ofChar? c = none) :
    spanDigits (toChars ds ++ rest) = (ds, rest) := by
  induction ds with
  | nil =>
    cases rest with
    | nil => rfl
    | cons c rest =>
      show spanDigits (c :: rest) = _
      unfold spanDigits
      rw [hrest c rfl]
  | cons d ds ih =>
    show spanDigits (d.toChar :: (toChars ds ++ rest)) = _
    unfold spanDigits
    rw [Digit.ofChar?_toChar, ih]

/-- The digits of a number in a field. -/
def field (width n : Nat) : List Digit :=
  List.replicate (width - (numeral n).length) Digit.zero ++ numeral n

theorem padded_eq : padded width n = toChars (field width n) := by
  unfold padded field ofNat
  dsimp only
  rw [toChars_append, toChars_replicate_zero, length_toChars]

theorem value_field : value (field width n) = n := by
  unfold field
  rw [value_append, value_replicate_zero, value_numeral]
  omega

theorem length_field (h : n < 10 ^ width) (hwidth : width ≠ 0) : (field width n).length = width := by
  have := length_numeral_le h hwidth
  unfold field
  rw [List.length_append, List.length_replicate]
  omega

theorem field_ne_nil : field width n ≠ [] := by
  unfold field
  simp [numeral_ne_nil]

end Chars

end LaneOrder.Decimal
