/-!
This module contains spans of time.
-/

namespace LaneOrder

structure Duration where
  seconds : UInt64
  nanos : Nat
  isLt : nanos < 1000000000
deriving DecidableEq

namespace Duration

def ofSeconds (n : UInt64) : Duration :=
  ⟨n, 0, by decide⟩

def ofMillis (n : UInt64) : Duration :=
  ⟨n / 1000, n.toNat % 1000 * 1000000, by omega⟩

def ofMicros (n : UInt64) : Duration :=
  ⟨n / 1000000, n.toNat % 1000000 * 1000, by omega⟩

def millis (d : Duration) : Nat :=
  d.seconds.toNat * 1000 + d.nanos / 1000000

theorem millis_ofMillis (n : UInt64) : (ofMillis n).millis = n.toNat := by
  have : (n / 1000).toNat = n.toNat / 1000 := by
    rw [UInt64.toNat_div]
    rfl
  simp only [millis, ofMillis, this]
  omega

end Duration

end LaneOrder
