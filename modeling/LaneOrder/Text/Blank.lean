/-!
This module contains the blank characters and the removal of blank margins. A character is blank
iff it has the Unicode property White_Space; this is a larger set than `Char.isWhitespace`, which
knows ASCII only.
-/

namespace LaneOrder.Text

def isBlank (c : Char) : Bool :=
  let n := c.toNat
  (9 ≤ n && n ≤ 13) || n == 0x20 || n == 0x85 || n == 0xa0 || n == 0x1680
    || (0x2000 ≤ n && n ≤ 0x200a) || n == 0x2028 || n == 0x2029 || n == 0x202f || n == 0x205f
    || n == 0x3000

/-- Drop the blank characters at both ends. -/
def trimList (cs : List Char) : List Char :=
  ((cs.dropWhile isBlank).reverse.dropWhile isBlank).reverse

@[inherit_doc trimList]
def trim (s : String) : String :=
  String.ofList (trimList s.toList)

@[simp]
theorem toList_trim (s : String) : (trim s).toList = trimList s.toList := by
  simp [trim]

end LaneOrder.Text
