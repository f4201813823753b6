import LaneOrder.Timestamp.Calendar
import Mathlib.Order.Monotone.Basic
import Mathlib.Tactic.IntervalCases

/-!
This module contains why a count of days and a date of the calendar determine each other. Within a cycle of 400 years the year
of a day is found by a division that leaves out the leap days before it; it grows with the day, so it is enough to know that it
is right on the first and on the last day of each year.
-/

namespace LaneOrder.Date

/-- The year that a day of a cycle is in, where years start in March. -/
def yearOfCycle (day : Nat) : Nat :=
  (day - day / 1460 + day / 36524 - day / 146096) / 365

/-- The first day of a year of a cycle. -/
def firstDay (year : Nat) : Nat :=
  365 * year + year / 4 - year / 100 + year / 400

variable {day year : Nat} {days : Int}

theorem yearOfCycle_mono : Monotone yearOfCycle := by
  apply monotone_nat_of_le_succ
  intro day
  unfold yearOfCycle
  apply Nat.div_le_div_right
  omega

theorem yearOfCycle_ends : ∀ year < 400, yearOfCycle (firstDay year) = year ∧ yearOfCycle (firstDay (year + 1) - 1) = year := by
  decide +kernel

theorem day_in_year (hday : day < firstDay 400) :
    yearOfCycle day < 400 ∧ firstDay (yearOfCycle day) ≤ day ∧ day < firstDay (yearOfCycle day + 1) := by
  have hyear : yearOfCycle day < 400 := by
    have hlast := yearOfCycle_mono (show day ≤ firstDay 400 - 1 by omega)
    rw [(yearOfCycle_ends 399 (by decide)).2] at hlast
    omega
  refine ⟨hyear, ?_, ?_⟩
  . by_contra hbefore
    obtain ⟨earlier, hearlier⟩ : ∃ earlier, yearOfCycle day = earlier + 1 := by
      apply Nat.exists_eq_add_one_of_ne_zero
      intro hzero
      rw [hzero] at hbefore
      exact hbefore (Nat.zero_le _)
    rw [hearlier] at hbefore hyear
    have hlast := yearOfCycle_mono (show day ≤ firstDay (earlier + 1) - 1 by omega)
    rw [(yearOfCycle_ends earlier (by omega)).2] at hlast
    omega
  . by_contra hafter
    have hnext : yearOfCycle day + 1 < 400 := by
      by_contra hend
      have hlast : yearOfCycle day + 1 = 400 := by omega
      rw [hlast] at hafter
      exact hafter hday
    have hfirst := yearOfCycle_mono (Nat.le_of_not_lt hafter)
    rw [(yearOfCycle_ends _ hnext).1] at hfirst
    omega

/-- The date of a day of a year that starts in March. -/
def ofYearDay (year : Int) (day : Nat) : Date :=
  let month := (5 * day + 2) / 153
  if month < 10 then ⟨year, month + 3, day - (153 * month + 2) / 5 + 1⟩
  else ⟨year + 1, month - 9, day - (153 * month + 2) / 5 + 1⟩

theorem month_spec (hday : day < 366) : (5 * day + 2) / 153 < 12 ∧ (153 * ((5 * day + 2) / 153) + 2) / 5 ≤ day := by
  omega

theorem toDays_ofYearDay {cycle : Int} (hyear : year < 400) (hday : day < 366) :
    (ofYearDay (year + cycle * 400) day).toDays = cycle * 146097 + firstDay year + day - 719468 := by
  obtain ⟨hmonth, hfirst⟩ := month_spec hday
  have hcycle : ((year : Int) + cycle * 400) / 400 = cycle := by omega
  have hyearOfCycle : ((year : Int) + cycle * 400) % 400 = year := by omega
  unfold ofYearDay toDays firstDay
  generalize (5 * day + 2) / 153 = month at hmonth hfirst
  dsimp only
  split
  . next hspring =>
    have hback : (month + 3 + 9) % 12 = month := by omega
    dsimp only
    rw [if_neg (by omega), hcycle, hyearOfCycle, hback]
    omega
  . have hback : (month - 9 + 9) % 12 = month := by omega
    dsimp only
    rw [if_pos (by omega), Int.add_sub_cancel, hcycle, hyearOfCycle, hback]
    omega

theorem isLeap_iff {year : Int} : isLeap year = true ↔ year % 4 = 0 ∧ (year % 100 ≠ 0 ∨ year % 400 = 0) := by
  unfold isLeap
  simp

theorem isValid_ofYearDay {year : Int} (hday : day < 366) (hleap : day = 365 → isLeap (year + 1) = true) :
    (ofYearDay year day).isValid = true := by
  obtain ⟨hmonth, hfirst⟩ := month_spec hday
  have hlast : day < (153 * ((5 * day + 2) / 153 + 1) + 2) / 5 := by omega
  unfold ofYearDay isValid
  generalize (5 * day + 2) / 153 = month at hmonth hfirst hlast
  by_cases hfebruary : month = 11
  . -- only in this month does the year matter
    subst hfebruary
    by_cases hlong : isLeap (year + 1) = true
    . simp [daysInMonth, hlong]
      omega
    . have := mt hleap hlong
      simp [daysInMonth, hlong]
      omega
  . interval_cases month <;> simp [daysInMonth] at hfebruary ⊢ <;> omega

theorem ofDays_eq (hday : ((days + 719468) % 146097).toNat = day) (hyear : yearOfCycle day < 400) :
    ofDays days = ofYearDay (yearOfCycle day + (days + 719468) / 146097 * 400) (day - firstDay (yearOfCycle day)) := by
  have hfirst : firstDay (yearOfCycle day) = 365 * yearOfCycle day + yearOfCycle day / 4 - yearOfCycle day / 100 := by
    unfold firstDay
    rw [Nat.div_eq_of_lt hyear, Nat.add_zero]
  subst hday
  rw [hfirst]
  rfl

/-- The day of a date is found again, and the date is one of the calendar. -/
theorem toDays_ofDays : (ofDays days).toDays = days ∧ (ofDays days).isValid = true := by
  generalize hd : ((days + 719468) % 146097).toNat = day
  have hday : day < firstDay 400 := by
    show day < 146097
    omega
  have hsplit : days + 719468 = (days + 719468) / 146097 * 146097 + day := by omega
  obtain ⟨hyear, hfirst, hlast⟩ := day_in_year hday
  rw [ofDays_eq hd hyear]
  generalize yearOfCycle day = year at hyear hfirst hlast
  have hlength : firstDay (year + 1) ≤ firstDay year + 366 := by
    unfold firstDay
    omega
  constructor
  . rw [toDays_ofYearDay hyear (by omega)]
    omega
  . apply isValid_ofYearDay (by omega)
    intro hleap
    have hlong : firstDay (year + 1) = firstDay year + 366 := by omega
    rw [isLeap_iff]
    unfold firstDay at hlong
    omega

theorem fields_of_isValid {d : Date} (hd : d.isValid = true) : 1 ≤ d.month ∧ d.month ≤ 12 ∧ 1 ≤ d.day ∧ d.day ≤ 31 := by
  have hdays : daysInMonth d.year d.month ≤ 31 := by
    unfold daysInMonth
    split_ifs <;> decide
  unfold isValid at hd
  simp only [Bool.and_eq_true, decide_eq_true_eq] at hd
  omega

/-- A year has 365.2425 days on average, and no year starts off by two days from that. -/
theorem start_near (year : Int) : |400 * (year / 400 * 146097 + year % 400 * 365 + year % 400 / 4 - year % 400 / 100)
    - 146097 * year| < 800 := by
  rw [abs_lt]
  omega

/-- The years of the days that can be represented. -/
theorem year_bounds {d : Date} (hd : d.isValid = true) (hlow : -96465292 ≤ d.toDays) (hhigh : d.toDays ≤ 95026236) :
    -262143 ≤ d.year ∧ d.year ≤ 262142 := by
  obtain ⟨hmonth, hmonth', hday, hday'⟩ := fields_of_isValid hd
  unfold toDays at hlow hhigh
  by_cases hspring : d.month ≤ 2
  . rw [if_pos hspring] at hlow hhigh
    dsimp only at hlow hhigh
    have hstart := abs_lt.1 (start_near (d.year - 1))
    by_cases hlast : d.year = 262143
    . rw [hlast] at hhigh
      omega
    . omega
  . rw [if_neg hspring] at hlow hhigh
    dsimp only at hlow hhigh
    have hstart := abs_lt.1 (start_near d.year)
    by_cases hfirst : d.year = -262144
    . rw [hfirst] at hlow
      omega
    . omega

end LaneOrder.Date
