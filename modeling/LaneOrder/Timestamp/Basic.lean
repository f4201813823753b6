import LaneOrder.Timestamp.Calendar

/-!
This module contains points in time.
-/

namespace LaneOrder

/-- A point in time in UTC: whole seconds since 1970 and nanoseconds. The nanoseconds may run on to a
second billion, which is a leap second after this second. The years from -262143 to 262142 can be
represented. -/
structure Timestamp where
  seconds : Int
  nanos : Nat
  inRange : -8334601228800 ≤ seconds ∧ seconds ≤ 8210266876799
  inSecond : nanos < 2000000000
deriving DecidableEq

namespace Timestamp

def epoch : Timestamp :=
  ⟨0, 0, by decide, by decide⟩

instance : Inhabited Timestamp := ⟨epoch⟩

/-- A leap second stands at the end of a minute. It need not do so where the clock of an offset that
is no whole number of minutes has made it, or where a part of a time was replaced. -/
def IsRegular (t : Timestamp) : Prop :=
  t.nanos < 1000000000 ∨ t.seconds % 60 = 59

instance (t : Timestamp) : Decidable t.IsRegular :=
  inferInstanceAs (Decidable (_ ∨ _))

/-- The regular point in time of these seconds and nanoseconds. -/
def ofUnix? (seconds : Int) (nanos : Nat) : Option Timestamp :=
  if h : (-8334601228800 ≤ seconds ∧ seconds ≤ 8210266876799) ∧ nanos < 2000000000 then
    let t : Timestamp := ⟨seconds, nanos, h.1, h.2⟩
    if t.IsRegular then some t else none
  else none

theorem ofUnix?_seconds_nanos {t : Timestamp} (h : t.IsRegular) : ofUnix? t.seconds t.nanos = some t := by
  unfold ofUnix?
  rw [dif_pos ⟨t.inRange, t.inSecond⟩]
  exact if_pos h

theorem isRegular_of_ofUnix? {seconds : Int} {nanos : Nat} {t : Timestamp} (h : ofUnix? seconds nanos = some t) :
    t.IsRegular := by
  unfold ofUnix? at h
  split at h
  . dsimp only at h
    split at h
    . next hregular =>
      obtain rfl := Option.some.inj h
      exact hregular
    . cases h
  . cases h

def isLeapSecond (t : Timestamp) : Bool :=
  1000000000 ≤ t.nanos

def secondOfMinute (t : Timestamp) : Nat :=
  (t.seconds % 60).toNat + if t.isLeapSecond then 1 else 0

def minuteOfHour (t : Timestamp) : Nat :=
  (t.seconds / 60 % 60).toNat

def hourOfDay (t : Timestamp) : Nat :=
  (t.seconds / 3600 % 24).toNat

def date (t : Timestamp) : Date :=
  Date.ofDays (t.seconds / 86400)

end Timestamp

end LaneOrder
