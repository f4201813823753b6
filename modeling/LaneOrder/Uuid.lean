/-!
This module contains 128-bit identifiers and their text. An identifier is written as 32 lower-case
hexadecimal digits in five groups; it is read in any case, with or without the hyphens, in braces, or
after `urn:uuid:`.
-/

namespace LaneOrder

structure Uuid where
  value : Nat
  isLt : value < 1 <<< 128
deriving DecidableEq

namespace Uuid

def ofNat (n : Nat) : Uuid :=
  ⟨n % 1 <<< 128, Nat.mod_lt _ (by decide)⟩

instance : LT Uuid := ⟨fun a b => a.value < b.value⟩
instance (a b : Uuid) : Decidable (a < b) := inferInstanceAs (Decidable (a.value < b.value))

theorem eq_of_value_eq {a b : Uuid} (h : a.value = b.value) : a = b := by
  cases a; cases b; simp_all

def hexChar (d : Nat) : Char :=
  if d < 10 then Char.ofNat ('0'.toNat + d) else Char.ofNat ('a'.toNat + (d - 10))

def hexDigit? (c : Char) : Option Nat :=
  if '0' ≤ c ∧ c ≤ '9' then some (c.toNat - '0'.toNat)
  else if 'a' ≤ c ∧ c ≤ 'f' then some (c.toNat - 'a'.toNat + 10)
  else if 'A' ≤ c ∧ c ≤ 'F' then some (c.toNat - 'A'.toNat + 10)
  else none

def hexChars : (width : Nat) → Nat → List Char
  | 0, _ => []
  | width + 1, n => hexChars width (n / 16) ++ [hexChar (n % 16)]

def ofHex? (cs : List Char) : Option Nat :=
  cs.foldl (fun n? c => do return 16 * (← n?) + (← hexDigit? c)) (some 0)

def groups : List Nat := [8, 4, 4, 4, 12]

def hyphenate : List Nat → List Char → List Char
  | [], cs => cs
  | [_], cs => cs
  | n :: ns, cs => cs.take n ++ '-' :: hyphenate ns (cs.drop n)

def unhyphenate? : List Nat → List Char → Option (List Char)
  | [], cs => some cs
  | [_], cs => some cs
  | n :: ns, cs => match cs.drop n with
    | '-' :: rest => (unhyphenate? ns rest).map (cs.take n ++ ·)
    | _ => none

def toChars (a : Uuid) : List Char :=
  hyphenate groups (hexChars 32 a.value)

instance : ToString Uuid := ⟨fun a => String.ofList a.toChars⟩

def readSimple? (cs : List Char) : Option Uuid :=
  if cs.length = 32 then (ofHex? cs).map ofNat else none

def readGrouped? (cs : List Char) : Option Uuid :=
  (unhyphenate? groups cs).bind readSimple?

def read? (cs : List Char) : Option Uuid :=
  match cs with
  | '{' :: rest => if rest.getLast? = some '}' then readGrouped? rest.dropLast else none
  | _ =>
    if (cs.take 9).map Char.toLower = "urn:uuid:".toList then readGrouped? (cs.drop 9)
    else if cs.length = 32 then readSimple? cs
    else readGrouped? cs

end Uuid

structure TaskId where
  uuid : Uuid
deriving DecidableEq

structure WorkspaceId where
  uuid : Uuid
deriving DecidableEq

structure ActorId where
  uuid : Uuid
deriving DecidableEq

instance : ToString TaskId := ⟨fun a => toString a.uuid⟩
instance : ToString WorkspaceId := ⟨fun a => toString a.uuid⟩
instance : ToString ActorId := ⟨fun a => toString a.uuid⟩

instance : LT TaskId := ⟨fun a b => a.uuid < b.uuid⟩
instance (a b : TaskId) : Decidable (a < b) := inferInstanceAs (Decidable (a.uuid < b.uuid))

namespace TaskId

theorem eq_of_value_eq {a b : TaskId} (h : a.uuid.value = b.uuid.value) : a = b := by
  cases a; cases b; exact congrArg TaskId.mk (Uuid.eq_of_value_eq h)

theorem lt_iff {a b : TaskId} : a < b ↔ a.uuid.value < b.uuid.value :=
  Iff.rfl

theorem lt_irrefl (a : TaskId) : ¬ a < a :=
  Nat.lt_irrefl _

theorem lt_trans {a b c : TaskId} (h₁ : a < b) (h₂ : b < c) : a < c :=
  Nat.lt_trans h₁ h₂

theorem lt_trichotomy (a b : TaskId) : a < b ∨ a = b ∨ b < a := by
  rcases Nat.lt_trichotomy a.uuid.value b.uuid.value with h | h | h
  . exact .inl h
  . exact .inr (.inl (eq_of_value_eq h))
  . exact .inr (.inr h)

end TaskId

end LaneOrder
