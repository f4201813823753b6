/-!
This module contains the proleptic Gregorian calendar: dates, and their count in days from 1970-01-01.
Both directions count years from March, so that a leap day is the last day of its year, and go by cycles of
400 years, which all have 146097 days.
-/

namespace LaneOrder

structure Date where
  year : Int
  month : Nat
  day : Nat
deriving DecidableEq, Repr

namespace Date

def isLeap (year : Int) : Bool :=
  year % 4 == 0 && (year % 100 != 0 || year % 400 == 0)

def daysInMonth (year : Int) (month : Nat) : Nat :=
  if month = 2 then if isLeap year then 29 else 28
  else if month = 4 || month = 6 || month = 9 || month = 11 then 30
  else 31

def isValid (d : Date) : Bool :=
  1 ≤ d.month && d.month ≤ 12 && 1 ≤ d.day && d.day ≤ daysInMonth d.year d.month

def toDays (d : Date) : Int :=
  let year := if d.month ≤ 2 then d.year - 1 else d.year
  let month := (d.month + 9) % 12
  let yearOfCycle := year % 400
  let dayOfYear := (153 * month + 2) / 5 + d.day - 1
  year / 400 * 146097 + yearOfCycle * 365 + yearOfCycle / 4 - yearOfCycle / 100 + dayOfYear - 719468

def ofDays (days : Int) : Date :=
  let fromStart := days + 719468
  let day := (fromStart % 146097).toNat
  let year := (day - day / 1460 + day / 36524 - day / 146096) / 365
  let dayOfYear := day - (365 * year + year / 4 - year / 100)
  let month := (5 * dayOfYear + 2) / 153
  let fullYear := year + fromStart / 146097 * 400
  if month < 10 then ⟨fullYear, month + 3, dayOfYear - (153 * month + 2) / 5 + 1⟩
  else ⟨fullYear + 1, month - 9, dayOfYear - (153 * month + 2) / 5 + 1⟩

end Date

end LaneOrder
