import LaneOrder.Proofs.Binary64.Rounding
import Mathlib.Algebra.Order.Field.Rat
import Mathlib.Tactic.FieldSimp
import Mathlib.Tactic.Linarith
import Mathlib.Tactic.NormNum
import Mathlib.Tactic.Positivity

/-!
This module contains how far roundings take a number from where it was. Rounding changes a normal number by a factor of at
most `1 + 2 ^ -53`, and a quotient that is off by a few such factors is rounded to a number few places away.
-/

namespace LaneOrder.Binary64

variable {m k num den : Nat} {q : ℚ}

/-- The distance from a magnitude to the next one. -/
def unitOf (m : Nat) : Nat :=
  2 ^ (m / 2 ^ 52 - 1)

theorem unitsOf_add_one : unitsOf (m + 1) = unitsOf m + unitOf m :=
  unitsOf_succ

theorem unitOf_pos : 0 < unitOf m :=
  Nat.two_pow_pos _

theorem unitOf_mono : Monotone unitOf := by
  intro m k h
  apply Nat.pow_le_pow_right (by decide)
  have := Nat.div_le_div_right (c := 2 ^ 52) h
  omega

/-- A significand has 53 bits. -/
theorem unitsOf_lt : unitsOf m + unitOf m ≤ 2 ^ 53 * unitOf m := by
  unfold unitsOf unitOf
  split
  . next h =>
    rw [h]
    omega
  . rw [← Nat.succ_mul]
    apply Nat.mul_le_mul_right
    omega

theorem le_unitsOf (hm : 2 ^ 52 ≤ m) : 2 ^ 52 * unitOf m ≤ unitsOf m := by
  unfold unitsOf unitOf
  rw [if_neg (by omega)]
  apply Nat.mul_le_mul_right
  omega

theorem unitsOf_spread (c : Nat) : unitsOf k + c * unitOf k ≤ unitsOf (k + c) := by
  induction c with
  | zero => simp
  | succ c ih =>
    have hunit : unitOf k ≤ unitOf (k + c) := unitOf_mono (Nat.le_add_right k c)
    rw [← Nat.add_assoc, unitsOf_add_one, Nat.succ_mul]
    omega

/-- The middle between two neighbours does not reach the one that is `c` places further on when it grows by this factor. -/
theorem middle_lt {f : ℚ} {c : Nat} (hf : (2 ^ 54 - 1) * (f - 1) < 2 * c) :
    f * (unitsOf k + unitsOf (k + 1)) < unitsOf (k + c) + unitsOf (k + c + 1) := by
  have hpos : (0 : ℚ) < unitOf k := by exact_mod_cast unitOf_pos
  have hlt : (unitsOf k : ℚ) + unitOf k ≤ 2 ^ 53 * unitOf k := by exact_mod_cast unitsOf_lt
  have hhere : (unitsOf k : ℚ) + c * unitOf k ≤ unitsOf (k + c) := by exact_mod_cast unitsOf_spread c
  have hnext : (unitsOf k : ℚ) + (c + 1) * unitOf k ≤ unitsOf (k + c + 1) := by exact_mod_cast unitsOf_spread (c + 1)
  have hstep : (unitsOf (k + 1) : ℚ) = unitsOf k + unitOf k := by exact_mod_cast unitsOf_add_one
  have hunits : (0 : ℚ) ≤ unitsOf k := Nat.cast_nonneg _
  rw [hstep]
  by_cases hone : f ≤ 1
  . nlinarith
  . have hgrow : (f - 1) * (unitsOf k + (unitsOf k + unitOf k)) ≤ (f - 1) * ((2 ^ 54 - 1) * unitOf k) :=
      mul_le_mul_of_nonneg_left (by linarith) (by linarith)
    nlinarith

section Rounding

/-- A quotient is rounded to more than a magnitude if it is past the middle between this magnitude and the next one. -/
theorem lt_round_iff (hden : 0 < den) (hq : (num : ℚ) / den = q) (hk : k < infinityMagnitude) :
    k < roundMagnitude num den ↔
      (unitsOf k + unitsOf (k + 1) : ℚ) < 2 * q ∨ (unitsOf k + unitsOf (k + 1) : ℚ) = 2 * q ∧ k % 2 = 1 := by
  have hden' : (0 : ℚ) < den := by exact_mod_cast hden
  have hnum : (num : ℚ) = q * den := by
    rw [← hq]
    field_simp
  have hlt : (unitsOf k + unitsOf (k + 1)) * den < 2 * num ↔ (unitsOf k + unitsOf (k + 1) : ℚ) < 2 * q := by
    rw [← mul_lt_mul_iff_left₀ hden', mul_assoc 2, ← hnum]
    exact_mod_cast Iff.rfl
  have heq : (unitsOf k + unitsOf (k + 1)) * den = 2 * num ↔ (unitsOf k + unitsOf (k + 1) : ℚ) = 2 * q := by
    rw [← mul_left_inj' hden'.ne', mul_assoc 2, ← hnum]
    exact_mod_cast Iff.rfl
  rw [lt_roundMagnitude_iff hden hk, hlt, heq]

theorem middle_le_of_lt_round (hden : 0 < den) (hq : (num : ℚ) / den = q) (hk : k < roundMagnitude num den) :
    (unitsOf k + unitsOf (k + 1) : ℚ) ≤ 2 * q := by
  have hfinite : k < infinityMagnitude := Nat.lt_of_lt_of_le hk roundMagnitude_le
  rcases (lt_round_iff hden hq hfinite).mp hk with h | h
  . exact h.le
  . exact h.1.le

theorem le_middle_of_round_le (hden : 0 < den) (hq : (num : ℚ) / den = q) (hk : roundMagnitude num den ≤ k)
    (hfinite : k < infinityMagnitude) : 2 * q ≤ (unitsOf k + unitsOf (k + 1) : ℚ) := by
  by_contra hlt
  exact absurd ((lt_round_iff hden hq hfinite).mpr (.inl (not_le.mp hlt))) (by omega)

/-- Two numbers are within a factor of each other. -/
def Within (f x y : ℚ) : Prop :=
  x ≤ f * y ∧ y ≤ f * x

section Factors

variable {f g x y x' y' z : ℚ}

theorem within_one_iff : Within 1 x y ↔ x = y := by
  unfold Within
  rw [one_mul, one_mul]
  exact ⟨fun h => le_antisymm h.1 h.2, fun h => ⟨h.le, h.ge⟩⟩

theorem Within.mono (hfg : f ≤ g) (hx : 0 ≤ x) (hy : 0 ≤ y) (h : Within f x y) : Within g x y :=
  ⟨h.1.trans (mul_le_mul_of_nonneg_right hfg hy), h.2.trans (mul_le_mul_of_nonneg_right hfg hx)⟩

/-- Two integers are compared by their multiples. -/
theorem within_natCast {s a b : Nat} (h : s * a ≤ (s + 1) * b) (h' : s * b ≤ (s + 1) * a) (hs : 0 < s) :
    Within (1 + 1 / s) (a : ℚ) b := by
  have hs' : (0 : ℚ) < s := by exact_mod_cast hs
  have hle : (s * a : ℚ) ≤ (s + 1) * b := by exact_mod_cast h
  have hle' : (s * b : ℚ) ≤ (s + 1) * a := by exact_mod_cast h'
  have hfactor : (1 + 1 / s : ℚ) = (s + 1) / s := by field_simp
  unfold Within
  rw [hfactor, div_mul_eq_mul_div, div_mul_eq_mul_div, le_div_iff₀ hs', le_div_iff₀ hs']
  constructor <;> linarith

theorem Within.scale (hz : 0 ≤ z) (h : Within f x y) : Within f (x * z) (y * z) := by
  constructor
  . rw [← mul_assoc]
    exact mul_le_mul_of_nonneg_right h.1 hz
  . rw [← mul_assoc]
    exact mul_le_mul_of_nonneg_right h.2 hz

theorem Within.trans (hf : 0 ≤ f) (hg : 0 ≤ g) (h : Within f x y) (h' : Within g y z) : Within (f * g) x z := by
  have hle : f * y ≤ f * (g * z) := mul_le_mul_of_nonneg_left h'.1 hf
  have hle' : g * y ≤ g * (f * x) := mul_le_mul_of_nonneg_left h.2 hg
  constructor
  . linarith [h.1]
  . linarith [h'.2]

theorem Within.mul (hx : 0 < x) (hy : 0 < y) (hx' : 0 < x') (hy' : 0 < y') (h : Within f x y) (h' : Within g x' y') :
    Within (f * g) (x * x') (y * y') := by
  constructor
  . calc x * x' ≤ (f * y) * (g * y') := mul_le_mul h.1 h'.1 hx'.le (hx.le.trans h.1)
      _ = f * g * (y * y') := by ring
  . calc y * y' ≤ (f * x) * (g * x') := mul_le_mul h.2 h'.2 hy'.le (hy.le.trans h.2)
      _ = f * g * (x * x') := by ring

theorem Within.inv (hx : 0 < x) (hy : 0 < y) (h : Within f x y) : Within f x⁻¹ y⁻¹ := by
  constructor
  . rw [inv_le_iff_one_le_mul₀ hx, mul_assoc, inv_mul_eq_div, ← mul_div_assoc, one_le_div hy]
    exact h.2
  . rw [inv_le_iff_one_le_mul₀ hy, mul_assoc, inv_mul_eq_div, ← mul_div_assoc, one_le_div hx]
    exact h.1

theorem Within.div (hx : 0 < x) (hy : 0 < y) (hx' : 0 < x') (hy' : 0 < y') (h : Within f x y) (h' : Within g x' y') :
    Within (f * g) (x / x') (y / y') := by
  rw [div_eq_mul_inv, div_eq_mul_inv]
  exact h.mul hx hy (inv_pos.mpr hx') (inv_pos.mpr hy') (h'.inv hx' hy')

end Factors

/-- The factor by which rounding can change a normal number. -/
def roundingFactor : ℚ :=
  (2 ^ 53 + 1) / 2 ^ 53

theorem le_round_of_normal (hden : 0 < den) (hq : (num : ℚ) / den = q) (hnormal : 2 ^ 52 ≤ q) :
    2 ^ 52 ≤ roundMagnitude num den := by
  by_contra hlt
  have hmiddle := le_middle_of_round_le hden hq (Nat.le_pred_of_lt (not_le.mp hlt)) (by decide)
  have hbelow : unitsOf (2 ^ 52).pred = 2 ^ 52 - 1 := by decide
  have hfirst : unitsOf ((2 ^ 52).pred + 1) = 2 ^ 52 := by decide
  rw [hbelow, hfirst] at hmiddle
  norm_num at hmiddle
  linarith

theorem within_round (hden : 0 < den) (hq : (num : ℚ) / den = q) (hnormal : 2 ^ 52 ≤ q)
    (hfinite : roundMagnitude num den < infinityMagnitude) :
    Within roundingFactor (unitsOf (roundMagnitude num den)) q := by
  have hround := le_round_of_normal hden hq hnormal
  have hmiddle := le_middle_of_round_le hden hq (Nat.le_refl _) hfinite
  have hbelow : ∀ k, k < roundMagnitude num den → _ := fun k => middle_le_of_lt_round hden hq
  generalize roundMagnitude num den = r at *
  have hunit : (2 ^ 52 * unitOf r : ℚ) ≤ unitsOf r := by exact_mod_cast le_unitsOf hround
  rw [unitsOf_add_one, Nat.cast_add] at hmiddle
  unfold Within roundingFactor
  refine ⟨?_, by linarith⟩
  rcases Nat.eq_or_lt_of_le hround with rfl | hlt
  . have hfirst : unitsOf (2 ^ 52) = 2 ^ 52 := by decide
    rw [hfirst]
    push_cast
    linarith
  . obtain ⟨k, rfl⟩ : ∃ k, r = k + 1 := ⟨r - 1, by omega⟩
    have hunit' : (2 ^ 52 * unitOf k : ℚ) ≤ unitsOf k := by exact_mod_cast le_unitsOf (Nat.le_of_lt_succ hlt)
    have hmiddle' := hbelow k k.lt_succ_self
    rw [unitsOf_add_one, Nat.cast_add] at hmiddle' ⊢
    linarith

theorem round_lt_infinity (hden : 0 < den) (hq : (num : ℚ) / den = q) (hle : q ≤ unitsOf (infinityMagnitude - 1)) :
    roundMagnitude num den < infinityMagnitude := by
  by_contra hge
  have hpast : infinityMagnitude - 1 < roundMagnitude num den := Nat.lt_of_lt_of_le (by decide) (not_lt.mp hge)
  have hmiddle := middle_le_of_lt_round hden hq hpast
  have hpos : (0 : ℚ) < unitOf (infinityMagnitude - 1) := by exact_mod_cast unitOf_pos
  rw [unitsOf_add_one, Nat.cast_add] at hmiddle
  linarith

/-- A number in the interval of a magnitude is rounded to it. The ends belong to the interval of an even magnitude. -/
theorem round_eq (hm : m < infinityMagnitude) (hden : 0 < den) (hq : (num : ℚ) / den = q)
    (hlow : m ≠ 0 → (unitsOf (m - 1) + unitsOf m : ℚ) < 2 * q ∨ (unitsOf (m - 1) + unitsOf m : ℚ) = 2 * q ∧ m % 2 = 0)
    (hhigh : 2 * q < unitsOf m + unitsOf (m + 1) ∨ 2 * q = unitsOf m + unitsOf (m + 1) ∧ m % 2 = 0) :
    roundMagnitude num den = m := by
  apply Nat.le_antisymm
  . rw [← Nat.not_lt, lt_round_iff hden hq hm]
    rintro (hlt | ⟨heq, hodd⟩)
    . rcases hhigh with hhigh | hhigh <;> linarith
    . rcases hhigh with hhigh | ⟨-, heven⟩
      . linarith
      . omega
  . by_cases hzero : m = 0
    . omega
    . obtain ⟨k, rfl⟩ := Nat.exists_eq_add_one_of_ne_zero hzero
      rw [Nat.add_sub_cancel] at hlow
      have hk : k < roundMagnitude num den := by
        rw [lt_round_iff hden hq (by omega)]
        rcases hlow hzero with hlow | ⟨hlow, heven⟩
        . exact .inl hlow
        . exact .inr ⟨hlow, by omega⟩
      omega

theorem round_unitsOf (hm : m < infinityMagnitude) (hden : 0 < den) (hq : (num : ℚ) / den = unitsOf m) :
    roundMagnitude num den = m := by
  have hpos : (0 : ℚ) < unitOf m := by exact_mod_cast unitOf_pos
  apply round_eq hm hden hq
  . intro hzero
    obtain ⟨k, rfl⟩ := Nat.exists_eq_add_one_of_ne_zero hzero
    have hlt : (unitsOf k : ℚ) < unitsOf (k + 1) := by exact_mod_cast unitsOf_strictMono k.lt_succ_self
    rw [Nat.add_sub_cancel]
    exact .inl (by linarith)
  . rw [unitsOf_add_one, Nat.cast_add]
    exact .inl (by linarith)

/-- A number that was in the interval of a magnitude and has changed by a factor is rounded to a magnitude few places away. -/
theorem round_close {f a : ℚ} {c : Nat} (hf : 1 ≤ f) (hspread : (2 ^ 54 - 1) * (f - 1) < 2 * c) (hm : m < infinityMagnitude)
    (hlow : m ≠ 0 → (unitsOf (m - 1) + unitsOf m : ℚ) ≤ 2 * a) (hhigh : 2 * a ≤ unitsOf m + unitsOf (m + 1))
    (hden : 0 < den) (hq : (num : ℚ) / den = q) (hwithin : Within f q a) :
    m ≤ roundMagnitude num den + c ∧ roundMagnitude num den ≤ m + c := by
  obtain ⟨hqa, haq⟩ := hwithin
  constructor
  . by_contra hlt
    obtain ⟨k, hk⟩ : ∃ k, m = k + c + 1 := ⟨m - c - 1, by omega⟩
    have hmiddle := le_middle_of_round_le hden hq (show roundMagnitude num den ≤ k by omega) (by omega)
    have hspread' := middle_lt (k := k) hspread
    have hlow' := hlow (by omega)
    rw [hk, Nat.add_sub_cancel] at hlow'
    have hgrow : f * (2 * q) ≤ f * (unitsOf k + unitsOf (k + 1)) := mul_le_mul_of_nonneg_left hmiddle (by linarith)
    linarith
  . by_contra hlt
    have hmiddle := middle_le_of_lt_round hden hq (not_le.mp hlt)
    have hspread' := middle_lt (k := m) hspread
    have hgrow : f * (2 * a) ≤ f * (unitsOf m + unitsOf (m + 1)) := mul_le_mul_of_nonneg_left hhigh (by linarith)
    linarith

end Rounding

end LaneOrder.Binary64
