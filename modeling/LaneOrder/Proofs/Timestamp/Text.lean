import LaneOrder.Proofs.Decimal
import LaneOrder.Proofs.Timestamp.Calendar
import LaneOrder.Timestamp.Text

/-!
This module contains why a point in time is read back from its text. The text has no blanks and fields of fixed width, except
for the year, which has a sign if it needs more than four digits; the offset is always zero. Only a leap second in the middle
of a minute is not read back: the clock shows it as the second that comes next.
-/

namespace LaneOrder.Timestamp

variable {ds : List Digit} {rest : List Char} {n width : Nat}

section Fields

theorem not_isBlank_toChar (d : Digit) : Text.isBlank d.toChar = false := by
  revert d
  decide

theorem toChar_ne (d : Digit) : d.toChar ≠ '-' ∧ d.toChar ≠ '+' := by
  revert d
  decide

theorem skipBlanks_cons {c : Char} (hc : Text.isBlank c = false) : skipBlanks (c :: rest) = c :: rest := by
  unfold skipBlanks
  rw [List.dropWhile_cons_of_neg (by simp [hc])]

theorem skipBlanks_toChars (hds : ds ≠ []) :
    skipBlanks (Decimal.toChars ds ++ rest) = Decimal.toChars ds ++ rest := by
  obtain ⟨d, ds, rfl⟩ := List.exists_cons_of_ne_nil hds
  exact skipBlanks_cons (not_isBlank_toChar d)

/-- Digits are read up to a width or up to the first character that is none. -/
theorem readDigits?_toChars (hds : ds ≠ []) (hwidth : ds.length ≤ width)
    (hrest : ds.length = width ∨ ∀ c ∈ rest.head?, Digit.ofChar? c = none) :
    readDigits? width (Decimal.toChars ds ++ rest) = some (ds, rest) := by
  have hlength : (Decimal.toChars ds).length = ds.length := Decimal.length_toChars
  have hnext : ∀ c ∈ (rest.take (width - ds.length)).head?, Digit.ofChar? c = none := by
    rcases hrest with hfull | hrest
    . rw [hfull, Nat.sub_self, List.take_zero]
      simp
    . intro c hc
      rw [List.head?_take] at hc
      split at hc
      . cases hc
      . exact hrest c hc
  unfold readDigits?
  rw [List.take_append, hlength, List.take_of_length_le (by omega), Decimal.spanDigits_toChars hnext,
    if_neg (by simpa using hds)]
  rw [List.drop_left' hlength]

theorem readField?_padded (hn : n < 100) : readField? (Decimal.padded 2 n ++ rest) = some (n, rest) := by
  have hlength : (Decimal.field 2 n).length = 2 := Decimal.length_field hn (by decide)
  unfold readField?
  rw [Decimal.padded_eq, skipBlanks_toChars Decimal.field_ne_nil,
    readDigits?_toChars Decimal.field_ne_nil (by rw [hlength]) (.inl hlength), Option.map_some]
  dsimp only
  rw [Decimal.value_field]

theorem readMark?_cons {mark : Char} (hmark : Text.isBlank mark = false) : readMark? mark (mark :: rest) = some rest := by
  unfold readMark?
  rw [skipBlanks_cons hmark]
  exact if_pos rfl

theorem readYear?_minus : readYear? ('-' :: rest)
    = (readDigits? rest.length rest).map fun (ds, rest) => (-(Decimal.value ds : Int), rest) :=
  rfl

theorem readYear?_plus : readYear? ('+' :: rest)
    = (readDigits? rest.length rest).map fun (ds, rest) => ((Decimal.value ds : Int), rest) :=
  rfl

theorem readYear?_yearChars (year : Int) : readYear? (yearChars year ++ '-' :: rest) = some (year, '-' :: rest) := by
  have hdash : ∀ c ∈ ('-' :: rest).head?, Digit.ofChar? c = none := by
    intro c hc
    obtain rfl : '-' = c := by simpa using hc
    decide
  have hdigits : ∀ n width, (Decimal.field 4 n).length ≤ width →
      readDigits? width (Decimal.toChars (Decimal.field 4 n) ++ '-' :: rest) = some (Decimal.field 4 n, '-' :: rest) :=
    fun n width hwidth => readDigits?_toChars Decimal.field_ne_nil hwidth (.inr hdash)
  have hsigned : ∀ n, readDigits? (Decimal.toChars (Decimal.field 4 n) ++ '-' :: rest).length
      (Decimal.toChars (Decimal.field 4 n) ++ '-' :: rest) = some (Decimal.field 4 n, '-' :: rest) := by
    intro n
    apply hdigits
    rw [List.length_append, Decimal.length_toChars]
    omega
  by_cases hfour : 0 ≤ year ∧ year ≤ 9999
  . have hchars : yearChars year = Decimal.toChars (Decimal.field 4 year.toNat) := by
      unfold yearChars
      rw [if_pos hfour, Decimal.padded_eq]
    have hread := hdigits year.toNat 4 (by rw [Decimal.length_field (by omega) (by decide)])
    obtain ⟨d, ds, hds⟩ := List.exists_cons_of_ne_nil (show Decimal.field 4 year.toNat ≠ [] from Decimal.field_ne_nil)
    unfold readYear?
    rw [hchars, skipBlanks_toChars Decimal.field_ne_nil]
    split
    . next heq =>
      rw [hds] at heq
      exact absurd (List.cons.inj heq).1 (toChar_ne d).1
    . next heq =>
      rw [hds] at heq
      exact absurd (List.cons.inj heq).1 (toChar_ne d).2
    . rw [hread, Option.map_some]
      dsimp only
      rw [Decimal.value_field, Int.toNat_of_nonneg hfour.1]
  . have hchars : yearChars year
        = (if year < 0 then '-' else '+') :: Decimal.toChars (Decimal.field 4 year.natAbs) := by
      unfold yearChars
      rw [if_neg hfour, Decimal.padded_eq]
    rw [hchars]
    by_cases hnegative : year < 0
    . rw [if_pos hnegative, List.cons_append, readYear?_minus, hsigned, Option.map_some]
      dsimp only
      rw [Decimal.value_field]
      congr 2
      omega
    . rw [if_neg hnegative, List.cons_append, readYear?_plus, hsigned, Option.map_some]
      dsimp only
      rw [Decimal.value_field]
      congr 2
      omega

theorem readFraction?_dot : readFraction? ('.' :: rest) = do
    let (digits, rest) ← readDigits? 9 rest
    return (Decimal.value digits * Nat.pow 10 (9 - digits.length), (Decimal.spanDigits rest).2) :=
  rfl

theorem readFraction?_digits {width : Nat} (hn : n < 10 ^ width) (hwidth : width ≠ 0) (hwidth' : width ≤ 9) :
    readFraction? ('.' :: Decimal.padded width n ++ ['Z']) = some (n * 10 ^ (9 - width), ['Z']) := by
  have hlength := Decimal.length_field hn hwidth
  have hread : readDigits? 9 (Decimal.toChars (Decimal.field width n) ++ ['Z']) = some (Decimal.field width n, ['Z']) :=
    readDigits?_toChars Decimal.field_ne_nil (by rw [hlength]; exact hwidth') (.inr (by simp; decide))
  rw [Decimal.padded_eq, List.cons_append, readFraction?_dot, hread]
  show some (Decimal.value (Decimal.field width n) * Nat.pow 10 (9 - (Decimal.field width n).length), _) = _
  rw [Decimal.value_field, hlength]
  rfl

theorem readFraction?_fractionChars (t : Timestamp) :
    readFraction? (t.fractionChars ++ ['Z']) = some (t.nanos % 1000000000, ['Z']) := by
  unfold fractionChars
  dsimp only
  split
  . next hzero =>
    rw [hzero]
    rfl
  . split
    . rw [readFraction?_digits (by omega) (by decide) (by decide)]
      congr 2
      omega
    . split
      . rw [readFraction?_digits (by omega) (by decide) (by decide)]
        congr 2
        omega
      . rw [readFraction?_digits (by omega) (by decide) (by decide), Nat.sub_self, Nat.pow_zero, Nat.mul_one]

theorem readOffset?_zulu : readOffset? ['Z'] = some (0, []) := by
  rfl

end Fields

section Clock

variable (t : Timestamp)

/-- The point in time that is read from the text of one. -/
def reread : Timestamp :=
  if h : t.IsRegular then t
  else
    ⟨t.seconds + 1, t.nanos - 1000000000, by have := t.inRange; unfold IsRegular at h; omega, by have := t.inSecond; omega⟩

theorem reread_of_isRegular {t : Timestamp} (h : t.IsRegular) : t.reread = t :=
  dif_pos h

theorem reread_of_not_isRegular {t : Timestamp} (h : ¬ t.IsRegular) :
    t.reread.seconds = t.seconds + 1 ∧ t.reread.nanos = t.nanos - 1000000000 := by
  unfold reread
  rw [dif_neg h]
  exact ⟨rfl, rfl⟩

theorem isRegular_reread : t.reread.IsRegular := by
  by_cases h : t.IsRegular
  . rw [reread_of_isRegular h]
    exact h
  . have hnanos := t.inSecond
    left
    rw [(reread_of_not_isRegular h).2]
    omega

theorem reread_eq_self_iff : t.reread = t ↔ t.IsRegular := by
  refine ⟨fun h => ?_, reread_of_isRegular⟩
  rw [← h]
  exact t.isRegular_reread

theorem date_spec : t.date.toDays = t.seconds / 86400 ∧ t.date.isValid = true
    ∧ -262143 ≤ t.date.year ∧ t.date.year ≤ 262142 := by
  obtain ⟨hdays, hvalid⟩ : (Date.ofDays (t.seconds / 86400)).toDays = _ ∧ (Date.ofDays (t.seconds / 86400)).isValid = true :=
    Date.toDays_ofDays
  have hrange := t.inRange
  have hlow : -96465292 ≤ (Date.ofDays (t.seconds / 86400)).toDays := by omega
  have hhigh : (Date.ofDays (t.seconds / 86400)).toDays ≤ 95026236 := by omega
  exact ⟨hdays, hvalid, Date.year_bounds hvalid hlow hhigh⟩

theorem clock_lt : t.hourOfDay < 24 ∧ t.minuteOfHour < 60 ∧ t.secondOfMinute ≤ 60 := by
  unfold hourOfDay minuteOfHour secondOfMinute
  split <;> omega

/-- The clock shows the second 60 in a leap second at the end of a minute only. -/
theorem secondOfMinute_spec : if t.secondOfMinute = 60
    then t.reread.seconds = t.seconds / 60 * 60 + 59 ∧ t.reread.nanos = t.nanos % 1000000000 + 1000000000
    else t.reread.seconds = t.seconds / 60 * 60 + t.secondOfMinute ∧ t.reread.nanos = t.nanos % 1000000000 := by
  have hnanos := t.inSecond
  have hclock : t.secondOfMinute = (t.seconds % 60).toNat + if 1000000000 ≤ t.nanos then 1 else 0 := by
    simp [secondOfMinute, isLeapSecond]
  by_cases hregular : t.IsRegular
  . rw [reread_of_isRegular hregular]
    unfold IsRegular at hregular
    split at hclock <;> split <;> omega
  . obtain ⟨hseconds, hnanos'⟩ := reread_of_not_isRegular hregular
    unfold IsRegular at hregular
    rw [if_pos (by omega)] at hclock
    rw [if_neg (by omega)]
    omega

theorem ofLocal?_self :
    ofLocal? t.date t.hourOfDay t.minuteOfHour t.secondOfMinute (t.nanos % 1000000000) 0 = some t.reread := by
  obtain ⟨hdays, hvalid, hlow, hhigh⟩ := t.date_spec
  obtain ⟨hhour, hminute, hsecond⟩ := t.clock_lt
  have hspec := t.secondOfMinute_spec
  have hparts : t.seconds / 86400 * 86400 + t.hourOfDay * 3600 + t.minuteOfHour * 60 = t.seconds / 60 * 60 := by
    unfold hourOfDay minuteOfHour
    omega
  unfold ofLocal?
  rw [if_pos (by simp [hvalid, hlow, hhigh, hhour, hminute, hsecond]), hdays, ← ofUnix?_seconds_nanos t.isRegular_reread]
  simp only [beq_iff_eq]
  split at hspec
  . next hsixty =>
    rw [if_pos hsixty, if_pos hsixty, hspec.1, hspec.2, hparts, Int.sub_zero, Nat.cast_ofNat]
  . next hsixty =>
    rw [if_neg hsixty, if_neg hsixty, hspec.1, hspec.2, hparts, Int.sub_zero, Nat.add_zero]

end Clock

theorem isRegular_of_ofLocal? {date : Date} {hour minute second nanos : Nat} {offset : Int} {t : Timestamp}
    (h : ofLocal? date hour minute second nanos offset = some t) : t.IsRegular := by
  unfold ofLocal? at h
  split at h
  . exact isRegular_of_ofUnix? h
  . cases h

theorem isRegular_of_read? {cs : List Char} {t : Timestamp} (h : read? cs = some t) : t.IsRegular := by
  unfold read? at h
  -- the fields of the date and of the clock come with the mark after them
  iterate 2
    obtain ⟨⟨_, _⟩, -, h⟩ := Option.bind_eq_some_iff.1 h
    obtain ⟨_, -, h⟩ := Option.bind_eq_some_iff.1 h
  obtain ⟨⟨_, _⟩, -, h⟩ := Option.bind_eq_some_iff.1 h
  dsimp only at h
  split at h
  . split at h
    . obtain ⟨_, -, h⟩ := Option.bind_eq_some_iff.1 h
      iterate 2
        obtain ⟨⟨_, _⟩, -, h⟩ := Option.bind_eq_some_iff.1 h
        obtain ⟨_, -, h⟩ := Option.bind_eq_some_iff.1 h
      iterate 3
        obtain ⟨⟨_, _⟩, -, h⟩ := Option.bind_eq_some_iff.1 h
      dsimp only at h
      split at h
      . exact isRegular_of_ofLocal? h
      . cases h
    . cases h
  . cases h

theorem read?_toRfc3339 (t : Timestamp) : read? t.toRfc3339 = some t.reread := by
  obtain ⟨-, hvalid, -, -⟩ := t.date_spec
  obtain ⟨-, hmonth', -, hday'⟩ := Date.fields_of_isValid hvalid
  obtain ⟨hhour', hminute', hsecond'⟩ := t.clock_lt
  have hmonth : t.date.month < 100 := by omega
  have hday : t.date.day < 100 := by omega
  have hhour : t.hourOfDay < 100 := by omega
  have hminute : t.minuteOfHour < 100 := by omega
  have hsecond : t.secondOfMinute < 100 := by omega
  have hdash : Text.isBlank '-' = false := by decide
  have hcolon : Text.isBlank ':' = false := by decide
  have hzulu : skipBlanks ['Z'] = ['Z'] := skipBlanks_cons (by decide)
  unfold toRfc3339 dateChars clockChars
  simp only [List.append_assoc, List.cons_append]
  unfold read?
  simp only [Option.bind_eq_bind]
  rw [readYear?_yearChars, Option.bind_some]
  dsimp only
  rw [readMark?_cons hdash, Option.bind_some, readField?_padded hmonth, Option.bind_some]
  dsimp only
  rw [readMark?_cons hdash, Option.bind_some, readField?_padded hday, Option.bind_some]
  dsimp only
  rw [if_pos (.inl rfl), Option.bind_some, readField?_padded hhour, Option.bind_some]
  dsimp only
  rw [readMark?_cons hcolon, Option.bind_some, readField?_padded hminute, Option.bind_some]
  dsimp only
  rw [readMark?_cons hcolon, Option.bind_some, readField?_padded hsecond, Option.bind_some]
  dsimp only
  rw [readFraction?_fractionChars, Option.bind_some]
  dsimp only
  rw [hzulu, readOffset?_zulu, Option.bind_some]
  exact ofLocal?_self t

end LaneOrder.Timestamp
