import LaneOrder.Uuid
import Mathlib.Tactic.Ring

/-!
This module contains why an identifier is read back from its text: its digits are those of its value, and they keep their
places around the hyphens.
-/

namespace LaneOrder.Uuid

variable {n width : Nat} {cs : List Char} {c : Char} {a : Uuid}

section Hex

theorem hexDigit?_hexChar {d : Nat} (hd : d < 16) : hexDigit? (hexChar d) = some d := by
  revert d
  decide

theorem ofHex?_concat : ofHex? (cs ++ [c]) = do return 16 * (← ofHex? cs) + (← hexDigit? c) := by
  unfold ofHex?
  rw [List.foldl_append]
  rfl

theorem ofHex?_hexChars (hn : n < 16 ^ width) : ofHex? (hexChars width n) = some n := by
  induction width generalizing n with
  | zero =>
    obtain rfl : n = 0 := by omega
    rfl
  | succ width ih =>
    unfold hexChars
    rw [Nat.pow_succ] at hn
    rw [ofHex?_concat, ih (by omega), hexDigit?_hexChar (Nat.mod_lt _ (by decide))]
    show some (16 * (n / 16) + n % 16) = some n
    rw [Nat.div_add_mod]

theorem length_hexChars : (hexChars width n).length = width := by
  induction width generalizing n with
  | zero => rfl
  | succ width ih =>
    unfold hexChars
    rw [List.length_append, ih]
    rfl

theorem mem_hexChars (hc : c ∈ hexChars width n) : ∃ d < 16, c = hexChar d := by
  induction width generalizing n with
  | zero => cases hc
  | succ width ih =>
    unfold hexChars at hc
    rcases List.mem_append.1 hc with hc | hc
    . exact ih hc
    . exact ⟨n % 16, Nat.mod_lt _ (by decide), List.mem_singleton.1 hc⟩

theorem hexChar_ne {d : Nat} (hd : d < 16) : hexChar d ≠ '{' ∧ (hexChar d).toLower ≠ 'u' := by
  revert d
  decide

end Hex

section Groups

theorem length_hyphenate {sizes : List Nat} (hcs : sizes.sum ≤ cs.length) :
    (hyphenate sizes cs).length = cs.length + (sizes.length - 1) := by
  induction sizes generalizing cs with
  | nil => rfl
  | cons size sizes ih =>
    cases sizes with
    | nil => rfl
    | cons next sizes =>
      rw [List.sum_cons] at hcs
      unfold hyphenate
      rw [List.length_append, List.length_cons, ih (by rw [List.length_drop]; omega), List.length_take, List.length_drop]
      simp only [List.length_cons]
      omega

theorem unhyphenate?_hyphenate {sizes : List Nat} (hcs : sizes.sum ≤ cs.length) :
    unhyphenate? sizes (hyphenate sizes cs) = some cs := by
  induction sizes generalizing cs with
  | nil => rfl
  | cons size sizes ih =>
    cases sizes with
    | nil => rfl
    | cons next sizes =>
      rw [List.sum_cons] at hcs
      have hlength : (cs.take size).length = size := List.length_take_of_le (by omega)
      have hdrop : (hyphenate (size :: next :: sizes) cs).drop size = '-' :: hyphenate (next :: sizes) (cs.drop size) :=
        List.drop_left' hlength
      have htake : (hyphenate (size :: next :: sizes) cs).take size = cs.take size := List.take_left' hlength
      unfold unhyphenate?
      rw [hdrop]
      show (unhyphenate? (next :: sizes) (hyphenate (next :: sizes) (cs.drop size))).map _ = _
      rw [ih (by rw [List.length_drop]; omega), Option.map_some, htake, List.take_append_drop]

end Groups

theorem value_lt : a.value < 16 ^ 32 :=
  a.isLt

theorem readSimple?_hexChars : readSimple? (hexChars 32 a.value) = some a := by
  unfold readSimple?
  rw [if_pos length_hexChars, ofHex?_hexChars value_lt, Option.map_some]
  congr 1
  apply eq_of_value_eq
  exact Nat.mod_eq_of_lt a.isLt

theorem readGrouped?_toChars : readGrouped? a.toChars = some a := by
  unfold readGrouped? toChars
  rw [unhyphenate?_hyphenate (by rw [length_hexChars]; decide), Option.bind_some, readSimple?_hexChars]

theorem length_toChars : a.toChars.length = 36 := by
  unfold toChars
  rw [length_hyphenate (by rw [length_hexChars]; decide), length_hexChars]
  rfl

theorem head_toChars : ∃ d < 16, ∃ rest, a.toChars = hexChar d :: rest := by
  have hlength : (hexChars 32 a.value).length = 32 := length_hexChars
  unfold toChars groups hyphenate
  cases hcs : hexChars 32 a.value with
  | nil =>
    rw [hcs] at hlength
    cases hlength
  | cons c rest =>
    obtain ⟨d, hd, rfl⟩ := mem_hexChars (c := c) (hcs ▸ List.mem_cons_self)
    exact ⟨d, hd, _, rfl⟩

theorem read?_toChars (a : Uuid) : read? a.toChars = some a := by
  have hlength := length_toChars (a := a)
  have hread := readGrouped?_toChars (a := a)
  obtain ⟨d, hd, rest, hcs⟩ := head_toChars (a := a)
  obtain ⟨hbrace, hu⟩ := hexChar_ne hd
  rw [hcs] at hlength hread ⊢
  unfold read?
  split
  . next heq => exact absurd (List.cons.inj heq).1 hbrace
  . have hprefix : ((hexChar d :: rest).take 9).map Char.toLower ≠ "urn:uuid:".toList := by
      intro h
      exact hu (List.cons.inj h).1
    rw [if_neg hprefix, if_neg (by rw [hlength]; decide), hread]

end LaneOrder.Uuid
