/-!
This module contains decimal digits and the decimal text of natural numbers.
-/

namespace LaneOrder

abbrev Digit := Fin 10

namespace Digit

def zero : Digit :=
  0

def toChar (d : Digit) : Char :=
  Char.ofNat ('0'.toNat + d)

def ofChar? (c : Char) : Option Digit :=
  if h : '0'.toNat ≤ c.toNat ∧ c.toNat < '0'.toNat + 10 then
    some ⟨c.toNat - '0'.toNat, by omega⟩
  else none

@[simp]
theorem ofChar?_toChar (d : Digit) : ofChar? d.toChar = some d := by
  revert d; decide

end Digit

namespace Decimal

def value (ds : List Digit) : Nat :=
  ds.foldl (fun n d => 10 * n + d.val) 0

def digits (n : Nat) : List Digit :=
  go n n []
where
  go : Nat → Nat → List Digit → List Digit
  | 0, _, ds => ds
  | fuel + 1, n, ds => if n = 0 then ds else go fuel (n / 10) (Fin.ofNat 10 n :: ds)

def numeral (n : Nat) : List Digit :=
  if n = 0 then [Digit.zero] else digits n

def toChars (ds : List Digit) : List Char :=
  ds.map Digit.toChar

def ofNat (n : Nat) : List Char :=
  toChars (numeral n)

def padded (width n : Nat) : List Char :=
  let cs := ofNat n
  List.replicate (width - cs.length) '0' ++ cs

def spanDigits : List Char → List Digit × List Char
  | [] => ([], [])
  | c :: cs => match Digit.ofChar? c with
    | some d => let r := spanDigits cs; (d :: r.1, r.2)
    | none => ([], c :: cs)

def parse? (cs : List Char) : Option Nat :=
  match spanDigits cs with
  | (d :: ds, []) => some (value (d :: ds))
  | _ => none

end Decimal

end LaneOrder
