import LaneOrder.Json.Reader
import LaneOrder.Proofs.Decimal
import LaneOrder.Proofs.Uuid
import Mathlib.Tactic.IntervalCases

/-!
This module contains why a document is read back from its text. A text is split into the tokens that were written, because
each of them ends where the next one begins, and the tokens are grouped into the document they came from.
-/

namespace LaneOrder

/-- A numeral of a document has digits before the point and no needless zero in front of them. -/
def Numeral.IsPlain (n : Numeral) : Prop :=
  n.whole ≠ [] ∧ (n.whole.head? = some Digit.zero → n.whole = [Digit.zero])

def Numeral.fractionPart (n : Numeral) : List Char :=
  if n.fraction.isEmpty then [] else '.' :: Decimal.toChars n.fraction

def Numeral.exponentPart (n : Numeral) : List Char :=
  match n.exponent with
  | some e => exponentChars e
  | none => []

namespace Json

variable {rest : List Char}

/-- What may follow a document in a text: nothing, a comma or the end of an array or an object. -/
def Ends (rest : List Char) : Prop :=
  ∀ c ∈ rest.head?, c = ',' ∨ c = ']' ∨ c = '}'

theorem ends_nil : Ends [] := by
  intro c hc
  cases hc

theorem ends_comma : Ends (',' :: rest) := by
  intro c hc
  cases hc
  exact .inl rfl

theorem ends_bracket : Ends (']' :: rest) := by
  intro c hc
  cases hc
  exact .inr (.inl rfl)

theorem ends_brace : Ends ('}' :: rest) := by
  intro c hc
  cases hc
  exact .inr (.inr rfl)

section Strings

theorem readUnits?_quote : readUnits? ('"' :: rest) = some ([], rest) := by
  rw [readUnits?]

theorem readUnits?_hex {code : List Char} {n : Nat} (hlength : code.length = 4) (hcode : Uuid.ofHex? code = some n) :
    readUnits? ('\\' :: 'u' :: code ++ rest)
      = (readUnits? rest).map fun (us, rest) => (StringUnit.ofCode n :: us, rest) := by
  obtain ⟨a, b, c, d, rfl⟩ : ∃ a b c d, code = [a, b, c, d] := by
    match code, hlength with
    | [a, b, c, d], _ => exact ⟨a, b, c, d, rfl⟩
  show readUnits? ('\\' :: 'u' :: a :: b :: c :: d :: rest) = _
  rw [readUnits?, hcode]
  cases readUnits? rest <;> rfl

theorem readUnits?_short {k c : Char} (hk : k ≠ 'u') (hc : unescape? k = some c) :
    readUnits? ('\\' :: k :: rest) = (readUnits? rest).map fun (us, rest) => (.char c :: us, rest) := by
  rw [readUnits?]
  . rw [hc]
    cases readUnits? rest <;> rfl
  . intro _ _ _ _ _ heq
    exact absurd heq hk

theorem readUnits?_plain {c : Char} (hquote : c ≠ '"') (hslash : c ≠ '\\') (hplain : ¬ c.toNat < 0x20) :
    readUnits? (c :: rest) = (readUnits? rest).map fun (us, rest) => (.char c :: us, rest) := by
  rw [readUnits?]
  . rw [if_neg (by simp only [hplain, hslash, or_self, not_false_iff])]
  . exact hquote
  . intro _ _ _ _ _ heq
    exact absurd heq hslash
  . intro _ _ heq
    exact absurd heq hslash

/-- A character has an escape of its own, or is a control character, or stands for itself. -/
theorem escape_spec (c : Char) :
    (∃ k, k ≠ 'u' ∧ unescape? k = some c ∧ escape c = ['\\', k])
      ∨ (c.toNat < 0x20 ∧ escape c = '\\' :: 'u' :: Uuid.hexChars 4 c.toNat)
      ∨ (c ≠ '"' ∧ c ≠ '\\' ∧ ¬ c.toNat < 0x20 ∧ escape c = [c]) := by
  by_cases hshort : c = '"' ∨ c = '\\' ∨ c = '\x08' ∨ c = '\t' ∨ c = '\n' ∨ c = '\x0c' ∨ c = '\r'
  . rcases hshort with rfl | rfl | rfl | rfl | rfl | rfl | rfl
    all_goals exact .inl ⟨_, by decide, rfl, rfl⟩
  . simp only [not_or] at hshort
    have hescape : escape c = if c.toNat < 0x20 then '\\' :: 'u' :: Uuid.hexChars 4 c.toNat else [c] := by
      simp only [escape, hshort, if_false]
    by_cases hcontrol : c.toNat < 0x20
    . rw [if_pos hcontrol] at hescape
      exact .inr (.inl ⟨hcontrol, hescape⟩)
    . rw [if_neg hcontrol] at hescape
      exact .inr (.inr ⟨hshort.1, hshort.2.1, hcontrol, hescape⟩)

theorem readUnits?_escape (c : Char) :
    readUnits? (escape c ++ rest) = (readUnits? rest).map fun (us, rest) => (.char c :: us, rest) := by
  rcases escape_spec c with ⟨k, hk, hc, hescape⟩ | ⟨hcontrol, hescape⟩ | ⟨hquote, hslash, hplain, hescape⟩
  . rw [hescape]
    exact readUnits?_short hk hc
  . have hcode := Uuid.ofHex?_hexChars (show c.toNat < 16 ^ 4 by omega)
    have hunit : StringUnit.ofCode c.toNat = .char c := by
      unfold StringUnit.ofCode
      rw [if_neg (by omega), Char.ofNat_toNat]
    rw [hescape, readUnits?_hex Uuid.length_hexChars hcode, hunit]
  . rw [hescape]
    exact readUnits?_plain hquote hslash hplain

theorem readUnits?_flatMap (cs : List Char) :
    readUnits? (cs.flatMap escape ++ '"' :: rest) = some (cs.map .char, rest) := by
  induction cs with
  | nil => exact readUnits?_quote
  | cons c cs ih =>
    rw [List.flatMap_cons, List.append_assoc, readUnits?_escape, ih]
    rfl

theorem join?_map_char (cs : List Char) : StringUnit.join? (cs.map .char) = some cs := by
  induction cs with
  | nil => rfl
  | cons c cs ih =>
    rw [List.map_cons, StringUnit.join?, ih]
    rfl

theorem readToken?_quote (s : Option (List Char)) (rest : List Char) : readToken? (quote s ++ rest) = some (.string s, rest) := by
  cases s with
  | none => rfl
  | some cs =>
    show readToken? ('"' :: (cs.flatMap escape ++ ['"']) ++ rest) = _
    rw [List.cons_append, readToken?, List.append_assoc, List.singleton_append, readUnits?_flatMap, Option.map_some]
    dsimp only
    rw [join?_map_char]

end Strings

section Numbers

variable {n : Numeral}

theorem Ends.not_digit (hrest : Ends rest) : ∀ c ∈ rest.head?, Digit.ofChar? c = none := by
  intro c hc
  rcases hrest c hc with rfl | rfl | rfl <;> rfl

theorem readExponent?_of_ne {c : Char} (hc : c ≠ 'e' ∧ c ≠ 'E') :
    readExponent? (c :: rest) = some (none, c :: rest) := by
  show (if _ then _ else _) = _
  rw [if_neg (by simp only [hc, or_self, not_false_iff])]

theorem readExponent?_end (hrest : Ends rest) : readExponent? rest = some (none, rest) := by
  match rest, hrest with
  | [], _ => rfl
  | c :: cs, hrest =>
    apply readExponent?_of_ne
    rcases hrest c rfl with rfl | rfl | rfl <;> decide

theorem readExponent?_minus : readExponent? ('e' :: '-' :: rest) = match Decimal.spanDigits rest with
    | ([], _) => none
    | (ds, rest) => some (some (-(Decimal.value ds : Int)), rest) :=
  rfl

theorem readExponent?_plus : readExponent? ('e' :: '+' :: rest) = match Decimal.spanDigits rest with
    | ([], _) => none
    | (ds, rest) => some (some (Decimal.value ds : Int), rest) :=
  rfl

theorem readExponent?_exponentChars (hrest : Ends rest) (e : Int) :
    readExponent? (Numeral.exponentChars e ++ rest) = some (some e, rest) := by
  have hspan : Decimal.spanDigits (Decimal.ofNat e.natAbs ++ rest) = (Decimal.numeral e.natAbs, rest) :=
    Decimal.spanDigits_toChars hrest.not_digit
  obtain ⟨d, ds, hds⟩ := List.exists_cons_of_ne_nil (Decimal.numeral_ne_nil (n := e.natAbs))
  have hvalue := Decimal.value_numeral (n := e.natAbs)
  rw [hds] at hspan hvalue
  unfold Numeral.exponentChars
  split
  . rw [List.cons_append, List.cons_append, readExponent?_minus, hspan]
    dsimp only
    rw [hvalue, show -(e.natAbs : Int) = e by omega]
  . rw [List.cons_append, List.cons_append, readExponent?_plus, hspan]
    dsimp only
    rw [hvalue, show (e.natAbs : Int) = e by omega]

theorem readExponent?_exponentPart (hrest : Ends rest) : readExponent? (n.exponentPart ++ rest) = some (n.exponent, rest) := by
  unfold Numeral.exponentPart
  split
  . next e he =>
    rw [he]
    exact readExponent?_exponentChars hrest e
  . next he =>
    rw [he]
    exact readExponent?_end hrest

theorem head_exponentPart (hrest : Ends rest) :
    ∀ c ∈ (n.exponentPart ++ rest).head?, Digit.ofChar? c = none ∧ c ≠ '.' := by
  unfold Numeral.exponentPart
  split
  . intro c hc
    cases hc
    decide
  . intro c hc
    rcases hrest c hc with rfl | rfl | rfl <;> decide

theorem readFraction?_fractionPart (hrest : ∀ c ∈ rest.head?, Digit.ofChar? c = none ∧ c ≠ '.') :
    readFraction? (n.fractionPart ++ rest) = some (n.fraction, rest) := by
  unfold Numeral.fractionPart
  split
  . next hempty =>
    rw [List.isEmpty_iff.mp hempty, List.nil_append]
    unfold readFraction?
    split
    . exact absurd rfl (hrest '.' rfl).2
    . rfl
  . next hfraction =>
    have hspan : Decimal.spanDigits (Decimal.toChars n.fraction ++ rest) = (n.fraction, rest) :=
      Decimal.spanDigits_toChars fun c hc => (hrest c hc).1
    obtain ⟨d, ds, hds⟩ := List.exists_cons_of_ne_nil (fun h => hfraction (List.isEmpty_iff.mpr h))
    rw [hds] at hspan ⊢
    rw [List.cons_append, readFraction?, hspan]

theorem head_fractionPart (hrest : ∀ c ∈ rest.head?, Digit.ofChar? c = none ∧ c ≠ '.') :
    ∀ c ∈ (n.fractionPart ++ rest).head?, Digit.ofChar? c = none := by
  unfold Numeral.fractionPart
  split
  . exact fun c hc => (hrest c hc).1
  . intro c hc
    cases hc
    rfl

theorem readWhole?_toChars (hn : n.IsPlain) (hrest : ∀ c ∈ rest.head?, Digit.ofChar? c = none) :
    readWhole? (Decimal.toChars n.whole ++ rest) = some (n.whole, rest) := by
  unfold readWhole?
  rw [Decimal.spanDigits_toChars hrest]
  split
  . next heq =>
    exact absurd (Prod.mk.inj heq).1 hn.1
  . next heq =>
    rw [Prod.mk.inj heq |>.1, Prod.mk.inj heq |>.2]
  . next d ds _ hsingle heq =>
    obtain ⟨hwhole, rfl⟩ := Prod.mk.inj heq
    have hd : d ≠ Digit.zero := by
      intro hd
      have := hn.2 (by rw [hwhole, hd]; rfl)
      rw [hwhole, hd] at this
      exact hsingle (List.cons.inj this).2
    rw [if_neg hd, hwhole]

theorem toChars_eq : n.toChars = (if n.negative then ['-'] else []) ++ (Decimal.toChars n.whole ++ (n.fractionPart ++ n.exponentPart)) := by
  unfold Numeral.toChars
  rw [List.append_assoc, List.append_assoc]
  rfl

theorem head_whole (hn : n.IsPlain) (rest : List Char) : ∃ d : Digit, ∃ tail, Decimal.toChars n.whole ++ rest = d.toChar :: tail := by
  obtain ⟨d, ds, hds⟩ := List.exists_cons_of_ne_nil hn.1
  rw [hds]
  exact ⟨d, _, rfl⟩

/-- What is left to read of a numeral after its sign. -/
def readMagnitude? (negative : Bool) (cs : List Char) : Option (Numeral × List Char) := do
  let (whole, cs) ← readWhole? cs
  let (fraction, cs) ← readFraction? cs
  let (exponent, cs) ← readExponent? cs
  return (⟨negative, whole, fraction, exponent⟩, cs)

theorem readNumeral?_minus : readNumeral? ('-' :: rest) = readMagnitude? true rest :=
  rfl

theorem readNumeral?_digit (d : Digit) : readNumeral? (d.toChar :: rest) = readMagnitude? false (d.toChar :: rest) := by
  unfold readNumeral?
  split
  rename_i negative cs heq
  split at heq
  . next hminus =>
    have hne : ∀ d : Digit, d.toChar ≠ '-' := by decide
    exact absurd (List.cons.inj hminus).1 (hne d)
  . obtain ⟨rfl, rfl⟩ := Prod.mk.inj heq
    rfl

theorem readMagnitude?_toChars (hn : n.IsPlain) (hrest : Ends rest) :
    readMagnitude? n.negative (Decimal.toChars n.whole ++ (n.fractionPart ++ (n.exponentPart ++ rest))) = some (n, rest) := by
  have htail := head_exponentPart (n := n) hrest
  unfold readMagnitude?
  rw [readWhole?_toChars hn (head_fractionPart htail)]
  simp only [Option.bind_eq_bind, Option.bind_some]
  rw [readFraction?_fractionPart htail, Option.bind_some]
  dsimp only
  rw [readExponent?_exponentPart hrest]
  rfl

theorem readToken?_minus : readToken? ('-' :: rest) = (readNumeral? ('-' :: rest)).map fun (n, rest) => (.number n, rest) :=
  rfl

theorem readToken?_digit (d : Digit) :
    readToken? (d.toChar :: rest) = (readNumeral? (d.toChar :: rest)).map fun (n, rest) => (.number n, rest) := by
  obtain ⟨i, hi⟩ := d
  interval_cases i <;> rfl

theorem readToken?_toChars (hn : n.IsPlain) (hrest : Ends rest) :
    readToken? (n.toChars ++ rest) = some (.number n, rest) := by
  have hread := readMagnitude?_toChars hn hrest
  obtain ⟨d, tail, hhead⟩ := head_whole hn (n.fractionPart ++ (n.exponentPart ++ rest))
  rw [toChars_eq, List.append_assoc, List.append_assoc, List.append_assoc]
  cases hnegative : n.negative with
  | true =>
    rw [hnegative] at hread
    show readToken? ('-' :: (Decimal.toChars n.whole ++ _)) = _
    rw [readToken?_minus, readNumeral?_minus, hread]
    rfl
  | false =>
    rw [hnegative, hhead] at hread
    show readToken? (Decimal.toChars n.whole ++ _) = _
    rw [hhead, readToken?_digit, readNumeral?_digit, hread]
    rfl

end Numbers

/-- The numbers of the document are spelled like numbers of documents. -/
inductive IsPlain : Json → Prop where
  | null : IsPlain .null
  | bool {b : Bool} : IsPlain (.bool b)
  | number {n : Numeral} (h : n.IsPlain) : IsPlain (.number n)
  | string {s : Option (List Char)} : IsPlain (.string s)
  | array {items : List Json} (h : ∀ j ∈ items, j.IsPlain) : IsPlain (.array items)
  | object {fields : List (Option (List Char) × Json)} (h : ∀ f ∈ fields, f.2.IsPlain) : IsPlain (.object fields)

mutual

def tokens : Json → List Token
  | .null => [.null]
  | .bool b => [.bool b]
  | .number n => [.number n]
  | .string s => [.string s]
  | .array items => .openBracket :: itemTokens items
  | .object fields => .openBrace :: fieldTokens fields

def itemTokens : List Json → List Token
  | [] => [.closeBracket]
  | [j] => j.tokens ++ [.closeBracket]
  | j :: js => j.tokens ++ .comma :: itemTokens js

def fieldTokens : List (Option (List Char) × Json) → List Token
  | [] => [.closeBrace]
  | [(name, j)] => .string name :: .colon :: j.tokens ++ [.closeBrace]
  | (name, j) :: fields => .string name :: .colon :: j.tokens ++ .comma :: fieldTokens fields

end

section Tokens

variable {cs : List Char} {t : Token} {ts : List Token}

/-- The text, in front of which there are no blanks, splits into these tokens. -/
def Splits (cs : List Char) (ts : List Token) : Prop :=
  cs.dropWhile isSpace = cs ∧ ∀ count, cs.length ≤ count → tokens?.go count cs = some ts

theorem splits_nil : Splits [] [] :=
  ⟨rfl, fun count _ => by cases count <;> rfl⟩

theorem Splits.tokens? (h : Splits cs ts) : tokens? cs = some ts := by
  unfold Json.tokens?
  rw [h.1]
  exact h.2 cs.length (Nat.le_refl _)

/-- A token of at least one character in front of a text that splits. -/
theorem Splits.cons {c : Char} {part : List Char} (h : Splits rest ts) (hc : isSpace c = false)
    (hread : readToken? (c :: part ++ rest) = some (t, rest)) : Splits (c :: part ++ rest) (t :: ts) := by
  refine ⟨List.dropWhile_cons_of_neg (by simp [hc]), ?_⟩
  intro count hcount
  match count, hcount with
  | count + 1, hcount =>
    rw [List.length_append, List.length_cons] at hcount
    rw [tokens?.go, hread]
    . simp only [Option.bind_eq_bind, Option.bind_some]
      rw [h.1, h.2 count (by omega)]
      rfl
    . exact List.cons_ne_nil c _

theorem Splits.mark {c : Char} (h : Splits rest ts) (hc : isSpace c = false)
    (hread : readToken? (c :: rest) = some (t, rest)) : Splits (c :: rest) (t :: ts) := by
  have hsplits : Splits (c :: [] ++ rest) (t :: ts) := h.cons hc hread
  exact hsplits

theorem Splits.quote (h : Splits rest ts) (s : Option (List Char)) : Splits (quote s ++ rest) (.string s :: ts) := by
  have hread := readToken?_quote s rest
  cases s with
  | none => exact h.cons (by decide) hread
  | some cs => exact h.cons (by decide) hread

theorem head_toChars {n : Numeral} (hn : n.IsPlain) : ∃ c part, isSpace c = false ∧ n.toChars = c :: part := by
  obtain ⟨d, tail, hhead⟩ := head_whole hn (n.fractionPart ++ n.exponentPart)
  have hd : ∀ d : Digit, isSpace d.toChar = false := by decide
  rw [toChars_eq, hhead]
  split
  . exact ⟨'-', d.toChar :: tail, by decide, rfl⟩
  . exact ⟨d.toChar, tail, hd d, rfl⟩

theorem Splits.number {n : Numeral} (h : Splits rest ts) (hrest : Ends rest) (hn : n.IsPlain) :
    Splits (n.toChars ++ rest) (.number n :: ts) := by
  have hread := readToken?_toChars hn hrest
  obtain ⟨c, part, hc, hchars⟩ := head_toChars hn
  rw [hchars] at hread ⊢
  exact h.cons hc hread

mutual

theorem Splits.render : ∀ {j : Json} {rest : List Char} {ts : List Token}, j.IsPlain → Splits rest ts → Ends rest →
    Splits (j.render ++ rest) (j.tokens ++ ts)
  | .null, _, _, _, h, _ => h.cons (by decide) rfl
  | .bool true, _, _, _, h, _ => h.cons (by decide) rfl
  | .bool false, _, _, _, h, _ => h.cons (by decide) rfl
  | .number _, _, _, .number hn, h, hrest => h.number hrest hn
  | .string s, _, _, _, h, _ => h.quote s
  | .array _, _, _, .array hitems, h, hrest => (h.renderItems hitems hrest).mark (by decide) rfl
  | .object _, _, _, .object hfields, h, hrest => (h.renderFields hfields hrest).mark (by decide) rfl

theorem Splits.renderItems : ∀ {items : List Json} {rest : List Char} {ts : List Token}, (∀ j ∈ items, j.IsPlain) →
    Splits rest ts → Ends rest → Splits (Json.renderItems items ++ rest) (itemTokens items ++ ts)
  | [], _, _, _, h, _ => h.mark (by decide) rfl
  | [j], rest, ts, hitems, h, _ => by
    have hclose : Splits (']' :: rest) (.closeBracket :: ts) := h.mark (by decide) rfl
    rw [Json.renderItems, itemTokens, List.append_assoc, List.append_assoc]
    exact hclose.render (hitems j (List.mem_singleton_self j)) ends_bracket
  | j :: j' :: js, rest, ts, hitems, h, hrest => by
    have hitems' := List.forall_mem_cons.mp hitems
    have htail := h.renderItems hitems'.2 hrest
    have hcomma : Splits (',' :: (Json.renderItems (j' :: js) ++ rest)) (.comma :: (itemTokens (j' :: js) ++ ts)) :=
      htail.mark (by decide) rfl
    rw [Json.renderItems, itemTokens, List.append_assoc, List.append_assoc]
    . exact hcomma.render hitems'.1 ends_comma
    . exact List.cons_ne_nil j' js
    . exact List.cons_ne_nil j' js

theorem Splits.renderFields : ∀ {fields : List (Option (List Char) × Json)} {rest : List Char} {ts : List Token},
    (∀ f ∈ fields, f.2.IsPlain) → Splits rest ts → Ends rest →
    Splits (Json.renderFields fields ++ rest) (fieldTokens fields ++ ts)
  | [], _, _, _, h, _ => h.mark (by decide) rfl
  | [(name, j)], rest, ts, hfields, h, _ => by
    have hclose : Splits ('}' :: rest) (.closeBrace :: ts) := h.mark (by decide) rfl
    have hvalue := hclose.render (hfields (name, j) (List.mem_singleton_self _)) ends_brace
    have hcolon : Splits (':' :: (j.render ++ '}' :: rest)) (.colon :: (j.tokens ++ .closeBrace :: ts)) :=
      hvalue.mark (by decide) rfl
    have hname := hcolon.quote name
    rw [Json.renderFields, fieldTokens]
    simpa only [List.append_assoc, List.cons_append, List.nil_append] using hname
  | (name, j) :: f :: fields, rest, ts, hfields, h, hrest => by
    have hfields' := List.forall_mem_cons.mp hfields
    have htail := h.renderFields hfields'.2 hrest
    have hcomma : Splits (',' :: (Json.renderFields (f :: fields) ++ rest)) (.comma :: (fieldTokens (f :: fields) ++ ts)) :=
      htail.mark (by decide) rfl
    have hvalue := hcomma.render hfields'.1 ends_comma
    have hcolon : Splits (':' :: (j.render ++ _)) (.colon :: (j.tokens ++ _)) := hvalue.mark (by decide) rfl
    have hname := hcolon.quote name
    rw [Json.renderFields, fieldTokens]
    . simpa only [List.append_assoc, List.cons_append, List.nil_append] using hname
    . exact List.cons_ne_nil f fields
    . exact List.cons_ne_nil f fields

end

theorem tokens?_render {j : Json} (hj : j.IsPlain) : Json.tokens? j.render = some j.tokens := by
  have h := splits_nil.render hj ends_nil
  rw [List.append_nil, List.append_nil] at h
  exact h.tokens?

end Tokens

section Reading

/-- No document begins like the end of an array. -/
theorem head_tokens (j : Json) : ∃ t ts, j.tokens = t :: ts ∧ t ≠ .closeBracket := by
  cases j <;> exact ⟨_, _, rfl, by simp⟩

theorem head_itemTokens (j : Json) (js : List Json) : ∃ t ts, itemTokens (j :: js) = t :: ts ∧ t ≠ .closeBracket := by
  obtain ⟨t, ts, htokens, ht⟩ := j.head_tokens
  cases js with
  | nil =>
    rw [itemTokens, htokens]
    exact ⟨t, _, rfl, ht⟩
  | cons j' js =>
    rw [itemTokens, htokens]
    . exact ⟨t, _, rfl, ht⟩
    . exact List.cons_ne_nil j' js

theorem readValue?_bracket {fuel : Nat} {t : Token} {ts : List Token} (ht : t ≠ .closeBracket) :
    readValue? (fuel + 1) (.openBracket :: t :: ts)
      = (readItems? fuel (t :: ts)).map fun (js, ts) => (.array js, ts) := by
  rw [readValue?]
  intro _ heq
  exact ht (List.cons.inj heq).1

mutual

theorem readValue?_tokens : ∀ (j : Json) (ts : List Token) {fuel : Nat}, j.tokens.length ≤ fuel →
    readValue? (fuel + 1) (j.tokens ++ ts) = some (j, ts)
  | .null, _, _, _ => rfl
  | .bool _, _, _, _ => rfl
  | .number _, _, _, _ => rfl
  | .string _, _, _, _ => rfl
  | .array [], _, _, _ => rfl
  | .array (j :: js), ts, fuel + 1, h => by
    have hitems := readItems?_itemTokens (j :: js) ts (List.cons_ne_nil j js) (Nat.le_of_succ_le_succ h)
    obtain ⟨t, ts', htokens, ht⟩ := head_itemTokens j js
    rw [tokens]
    rw [htokens] at hitems ⊢
    rw [List.cons_append, List.cons_append, readValue?_bracket ht]
    rw [List.cons_append] at hitems
    rw [hitems]
    rfl
  | .object [], _, _, _ => rfl
  | .object ((name, j) :: fields), ts, fuel + 1, h => by
    have hfields := readFields?_fieldTokens ((name, j) :: fields) ts (List.cons_ne_nil _ fields) (Nat.le_of_succ_le_succ h)
    have hhead : ∃ ts', fieldTokens ((name, j) :: fields) = .string name :: ts' := by
      cases fields <;> exact ⟨_, rfl⟩
    obtain ⟨ts', htokens⟩ := hhead
    rw [tokens, List.cons_append]
    rw [htokens, List.cons_append] at hfields ⊢
    show (readFields? (fuel + 1) _).map _ = _
    rw [hfields]
    rfl

theorem readItems?_itemTokens : ∀ (items : List Json) (ts : List Token) {fuel : Nat}, items ≠ [] →
    (itemTokens items).length ≤ fuel → readItems? (fuel + 1) (itemTokens items ++ ts) = some (items, ts)
  | [], _, _, hne, _ => absurd rfl hne
  | [j], ts, fuel, _, h => by
    rw [itemTokens, List.length_append, List.length_singleton] at h
    obtain ⟨fuel, rfl⟩ : ∃ fuel', fuel = fuel' + 1 := ⟨fuel - 1, by omega⟩
    have hvalue := readValue?_tokens j (.closeBracket :: ts) (show _ ≤ fuel by omega)
    rw [itemTokens, List.append_assoc, List.singleton_append, readItems?, hvalue]
    rfl
  | j :: j' :: js, ts, fuel, _, h => by
    have htokens : itemTokens (j :: j' :: js) = j.tokens ++ .comma :: itemTokens (j' :: js) := by
      rw [itemTokens]
      exact List.cons_ne_nil j' js
    rw [htokens, List.length_append, List.length_cons] at h
    obtain ⟨fuel, rfl⟩ : ∃ fuel', fuel = fuel' + 1 := ⟨fuel - 1, by omega⟩
    have hvalue := readValue?_tokens j (.comma :: (itemTokens (j' :: js) ++ ts)) (show _ ≤ fuel by omega)
    have hitems := readItems?_itemTokens (j' :: js) ts (List.cons_ne_nil j' js) (show _ ≤ fuel by omega)
    rw [htokens, List.append_assoc, List.cons_append, readItems?, hvalue]
    simp only [Option.bind_eq_bind, Option.bind_some]
    rw [hitems]
    rfl

theorem readFields?_fieldTokens : ∀ (fields : List (Option (List Char) × Json)) (ts : List Token) {fuel : Nat},
    fields ≠ [] → (fieldTokens fields).length ≤ fuel →
    readFields? (fuel + 1) (fieldTokens fields ++ ts) = some (fields, ts)
  | [], _, _, hne, _ => absurd rfl hne
  | [(name, j)], ts, fuel, _, h => by
    rw [fieldTokens, List.length_append, List.length_cons, List.length_cons, List.length_singleton] at h
    obtain ⟨fuel, rfl⟩ : ∃ fuel', fuel = fuel' + 1 := ⟨fuel - 1, by omega⟩
    have hvalue := readValue?_tokens j (.closeBrace :: ts) (show _ ≤ fuel by omega)
    rw [fieldTokens, List.cons_append, List.cons_append, List.cons_append, List.cons_append, List.append_assoc,
      List.singleton_append, readFields?, hvalue]
    rfl
  | (name, j) :: f :: fields, ts, fuel, _, h => by
    have htokens : fieldTokens ((name, j) :: f :: fields)
        = .string name :: .colon :: (j.tokens ++ .comma :: fieldTokens (f :: fields)) := by
      rw [fieldTokens]
      . rfl
      . exact List.cons_ne_nil f fields
    rw [htokens, List.length_cons, List.length_cons, List.length_append, List.length_cons] at h
    obtain ⟨fuel, rfl⟩ : ∃ fuel', fuel = fuel' + 1 := ⟨fuel - 1, by omega⟩
    have hvalue := readValue?_tokens j (.comma :: (fieldTokens (f :: fields) ++ ts)) (show _ ≤ fuel by omega)
    have hfields := readFields?_fieldTokens (f :: fields) ts (List.cons_ne_nil f fields) (show _ ≤ fuel by omega)
    rw [htokens, List.cons_append, List.cons_append, List.append_assoc, List.cons_append, readFields?, hvalue]
    simp only [Option.bind_eq_bind, Option.bind_some]
    rw [hfields]
    rfl

end

end Reading

theorem parse?_render {j : Json} (hj : j.IsPlain) : parse? j.render = some j := by
  have hread := readValue?_tokens j [] (Nat.le_refl _)
  rw [List.append_nil] at hread
  unfold parse?
  rw [tokens?_render hj]
  simp only [Option.bind_eq_bind, Option.bind_some]
  rw [hread]
  rfl

end Json

end LaneOrder
