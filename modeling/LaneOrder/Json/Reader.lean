import LaneOrder.Json.Token

/-!
This module contains the reading of JSON documents.
-/

namespace LaneOrder.Json

mutual

/-- Read the document at the start of tokens. The depth of the recursion is bounded by `fuel`, for
which the count of the tokens is enough. -/
def readValue? : (fuel : Nat) → List Token → Option (Json × List Token)
  | 0, _ => none
  | _ + 1, [] => none
  | fuel + 1, t :: ts => match t with
    | .null => some (.null, ts)
    | .bool b => some (.bool b, ts)
    | .number n => some (.number n, ts)
    | .string s => some (.string s, ts)
    | .openBracket => match ts with
      | .closeBracket :: ts => some (.array [], ts)
      | ts => (readItems? fuel ts).map fun (js, ts) => (.array js, ts)
    | .openBrace => match ts with
      | .closeBrace :: ts => some (.object [], ts)
      | ts => (readFields? fuel ts).map fun (fs, ts) => (.object fs, ts)
    | _ => none

def readItems? : (fuel : Nat) → List Token → Option (List Json × List Token)
  | 0, _ => none
  | fuel + 1, ts => do
    let (j, ts) ← readValue? fuel ts
    match ts with
    | .closeBracket :: ts => return ([j], ts)
    | .comma :: ts =>
      let (js, ts) ← readItems? fuel ts
      return (j :: js, ts)
    | _ => none

def readFields? : (fuel : Nat) → List Token → Option (List (Option (List Char) × Json) × List Token)
  | 0, _ => none
  | fuel + 1, ts => match ts with
    | .string name :: .colon :: ts => do
      let (j, ts) ← readValue? fuel ts
      match ts with
      | .closeBrace :: ts => return ([(name, j)], ts)
      | .comma :: ts =>
        let (fs, ts) ← readFields? fuel ts
        return ((name, j) :: fs, ts)
      | _ => none
    | _ => none

end

def parse? (cs : List Char) : Option Json := do
  let ts ← tokens? cs
  let (j, rest) ← readValue? (ts.length + 1) ts
  if rest.isEmpty then return j else none

end LaneOrder.Json
