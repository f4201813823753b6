import LaneOrder.Uuid

/-!
This module contains the making of identifiers, of random ones and of ones that ascend with time. Six of their
bits are fixed and tell how they were made.
-/

namespace LaneOrder.Uuid

/-- Put a version and the variant into an identifier, in front of the last 12 of the `high` bits and in front
of the `low` bits. -/
def tagged (version high low : Nat) : Uuid :=
  ofNat ((high >>> 12 % 1 <<< 48) <<< 80 + (version % 16) <<< 76 + (high % 1 <<< 12) <<< 64 + 2 <<< 62
    + low % 1 <<< 62)

def ofRandom (bits : Nat) : Uuid :=
  tagged 4 (bits >>> 62) bits

/-- An identifier that starts with the milliseconds since 1970. The counter orders the identifiers of one
millisecond. -/
def ofTime (millis counter : Nat) : Uuid :=
  tagged 7 (millis <<< 12 + counter >>> 62 % 1 <<< 12) counter

def version (a : Uuid) : Nat :=
  a.value >>> 76 % 16

def isRfc4122 (a : Uuid) : Bool :=
  a.value >>> 62 % 4 = 2

end LaneOrder.Uuid
