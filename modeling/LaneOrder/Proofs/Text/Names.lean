import LaneOrder.Config
import LaneOrder.Lane
import LaneOrder.Role
import Mathlib.Data.List.DropRight
import Mathlib.Data.List.Forall2

/-!
This module contains what texts are read as the names of lanes, roles and formats. Names consist of letters of ASCII, and
no character beyond ASCII has a lower-case form that could be part of one. The only such form that is a letter of ASCII at
all is the one of the Kelvin sign, and there is no `k` in a name; the form of the dotted capital I is an `i` followed by a
combining mark. The form of a capital sigma depends on its place in a word, but both of its forms are beyond ASCII.
-/

namespace LaneOrder

namespace Text

variable {c : Char} {cs name : List Char}

theorem toNat_toLower : c.toLower.toNat = if 65 ≤ c.toNat ∧ c.toNat ≤ 90 then c.toNat + 32 else c.toNat := by
  have hupper : (c.val ≥ 'A'.val ∧ c.val ≤ 'Z'.val) ↔ 65 ≤ c.toNat ∧ c.toNat ≤ 90 := Iff.rfl
  unfold Char.toLower
  split
  . next h =>
    rw [hupper] at h
    rw [if_pos h]
    show (c.val + 32).toNat = c.val.toNat + 32
    rw [UInt32.toNat_add]
    apply Nat.mod_eq_of_lt
    have : c.val.toNat ≤ 90 := h.2
    show c.val.toNat + 32 < _
    omega
  . next h => rw [if_neg (hupper.not.1 h)]

theorem isBlank_toLower : isBlank c.toLower = isBlank c := by
  unfold isBlank
  rw [toNat_toLower]
  split
  . next h =>
    rw [Bool.eq_iff_iff]
    simp only [Bool.or_eq_true, Bool.and_eq_true, decide_eq_true_eq, beq_iff_eq]
    omega
  . rfl

theorem toNat_ofNat {n : Nat} (h : n.isValidChar) : (Char.ofNat n).toNat = n := by
  unfold Char.ofNat
  rw [dif_pos h]
  rfl

/-- What names consist of: letters of ASCII that are lower-case forms of letters of ASCII only, and what joins words. -/
def isNameChar (c : Char) : Bool :=
  (0x61 ≤ c.toNat && c.toNat ≤ 0x7a && c ≠ 'k') || c = '_' || c = '-'

theorem ascii_of_isNameChar (hc : isNameChar c = true) : c.toNat < 128 := by
  unfold isNameChar at hc
  simp only [Bool.or_eq_true, Bool.and_eq_true, decide_eq_true_eq] at hc
  rcases hc with (hletter | rfl) | rfl
  . omega
  . decide
  . decide

theorem forall_ascii {P : Char → Prop} (h : ∀ n < 128, P (Char.ofNat n)) (hc : c.toNat < 128) : P c := by
  rw [← Char.ofNat_toNat c]
  exact h c.toNat hc

theorem lowerChar_of_ascii (hc : c.toNat < 128) : lowerChar c = [c.toLower] :=
  forall_ascii (P := fun c => lowerChar c = [c.toLower]) (by decide +kernel) hc

theorem exists_foreign (hc : 128 ≤ c.toNat) : ∃ d ∈ lowerChar c, isNameChar d = false := by
  have hforeign : ∀ {d : Char}, 128 ≤ d.toNat → isNameChar d = false := by
    intro d hd
    by_contra hname
    have := ascii_of_isNameChar (Bool.not_eq_false _ ▸ hname)
    omega
  have hruns : ∀ r ∈ caseRuns, r.last < 128
      ∨ r.first = 0x212a ∧ r.last = 0x212a ∧ r.shift = -8383
      ∨ 128 ≤ r.first + r.shift
        ∧ (r.last + r.shift < 0xd800 ∨ 0xdfff < r.first + r.shift ∧ r.last + r.shift < 0x110000) := by
    decide +kernel
  unfold lowerChar
  split
  . exact ⟨Char.ofNat 0x307, by simp, by decide⟩
  . split
    . next r hfind =>
      have hcovers := List.find?_some hfind
      unfold CaseRun.covers at hcovers
      simp only [Bool.and_eq_true, decide_eq_true_eq] at hcovers
      obtain ⟨⟨hfirst, hlast⟩, -⟩ := hcovers
      refine ⟨_, List.mem_singleton_self _, ?_⟩
      rcases hruns r (List.mem_of_find?_eq_some hfind) with hascii | ⟨hkelvin, hkelvin', hshift⟩ | ⟨hbeyond, hvalid⟩
      . omega
      . obtain hc : c.toNat = 0x212a := by omega
        rw [hc, hshift]
        decide
      . apply hforeign
        rw [toNat_ofNat (by unfold Nat.isValidChar; omega)]
        omega
    . exact ⟨c, List.mem_singleton_self c, hforeign hc⟩

variable {before : List Char}

theorem isNameChar_lowerSigma {after : List Char} : isNameChar (lowerSigma before after) = false := by
  unfold lowerSigma
  split <;> decide

theorem lowerAfter_of_ascii (hcs : ∀ c ∈ cs, c.toNat < 128) : lowerAfter before cs = cs.map Char.toLower := by
  induction cs generalizing before with
  | nil => rfl
  | cons c cs ih =>
    obtain ⟨hc, hcs⟩ := List.forall_mem_cons.1 hcs
    have hsigma : c ≠ 'Σ' := by
      rintro rfl
      exact absurd hc (by decide)
    rw [lowerAfter, if_neg hsigma, lowerChar_of_ascii hc, ih hcs]
    rfl

theorem ascii_of_lowerAfter (hcs : ∀ d ∈ lowerAfter before cs, isNameChar d = true) : ∀ c ∈ cs, c.toNat < 128 := by
  induction cs generalizing before with
  | nil => nofun
  | cons c cs ih =>
    rw [lowerAfter, List.forall_mem_append] at hcs
    obtain ⟨hc, hcs⟩ := hcs
    refine List.forall_mem_cons.2 ⟨?_, ih hcs⟩
    by_contra hbeyond
    split at hc
    . have hname := hc _ (List.mem_singleton_self _)
      rw [isNameChar_lowerSigma] at hname
      cases hname
    . obtain ⟨d, hd, hforeign⟩ := exists_foreign (Nat.not_lt.1 hbeyond)
      rw [hc d hd] at hforeign
      cases hforeign

/-- Lower-casing reads nothing as a name that is not written in ASCII. -/
theorem map_lowerList_eq {f : Char → Char} (hf : ∀ d, f d ∈ name → isNameChar d = true) :
    (lowerList cs).map f = name ↔ cs.map (fun c => f c.toLower) = name := by
  have hlower : (∀ c ∈ cs, c.toNat < 128) → (lowerList cs).map f = cs.map fun c => f c.toLower := by
    intro hcs
    rw [lowerList, lowerAfter_of_ascii hcs, List.map_map]
    rfl
  constructor
  . rintro rfl
    rw [hlower (ascii_of_lowerAfter fun d hd => hf d (List.mem_map_of_mem hd))]
  . rintro rfl
    apply hlower
    intro c hc
    have := ascii_of_isNameChar (hf c.toLower (List.mem_map_of_mem hc))
    rw [toNat_toLower] at this
    split at this <;> omega

theorem map_eq_iff_forall₂ {f : Char → Char} {alike : Char → Char → Prop}
    (h : ∀ n ∈ name, ∀ c, f c = n ↔ alike c n) : cs.map f = name ↔ List.Forall₂ alike cs name := by
  induction name generalizing cs with
  | nil => rw [List.map_eq_nil_iff, List.forall₂_nil_right_iff]
  | cons n name ih =>
    obtain ⟨hn, hname⟩ := List.forall_mem_cons.1 h
    cases cs with
    | nil => simp [List.forall₂_nil_left_iff]
    | cons c cs => rw [List.map_cons, List.cons_eq_cons, List.forall₂_cons, hn, ih hname]

section Margins

/-- A text that has a given form between two margins of blank characters. -/
def WithinBlanks (P : List Char → Prop) (s : String) : Prop :=
  ∃ u cs v, s.toList = u ++ cs ++ v ∧ (∀ x ∈ u, isBlank x = true) ∧ (∀ x ∈ v, isBlank x = true) ∧ P cs

theorem dropWhile_margin {u : List Char} (hu : ∀ x ∈ u, isBlank x = true) (hcs : ∀ x ∈ cs.head?, isBlank x = false) :
    (u ++ cs).dropWhile isBlank = cs := by
  rw [List.dropWhile_append_of_pos hu]
  cases cs with
  | nil => rfl
  | cons c cs => rw [List.dropWhile_cons_of_neg (by simp [hcs c rfl])]

theorem trimList_of_margins {u v : List Char} (hu : ∀ x ∈ u, isBlank x = true) (hv : ∀ x ∈ v, isBlank x = true)
    (hcs : ∀ x ∈ cs, isBlank x = false) : trimList (u ++ cs ++ v) = cs := by
  have hends : (∀ x ∈ cs.head?, isBlank x = false) ∧ ∀ x ∈ cs.reverse.head?, isBlank x = false := by
    constructor
    . exact fun x hx => hcs x (List.mem_of_head? hx)
    . exact fun x hx => hcs x (List.mem_reverse.1 (List.mem_of_head? hx))
  unfold trimList
  cases cs with
  | nil =>
    -- there is only one margin then
    have hall : ∀ x ∈ u ++ [] ++ v, isBlank x = true := by
      simp only [List.append_nil, List.mem_append]
      exact fun x hx => hx.elim (hu x) (hv x)
    rw [List.dropWhile_eq_nil_iff.2 hall]
    rfl
  | cons c cs =>
    rw [List.append_assoc, dropWhile_margin hu (by simpa using hends.1), List.reverse_append,
      dropWhile_margin (fun x hx => hv x (List.mem_reverse.1 hx)) hends.2, List.reverse_reverse]

theorem exists_margins (cs : List Char) : ∃ u v, cs = u ++ trimList cs ++ v ∧ (∀ x ∈ u, isBlank x = true)
    ∧ ∀ x ∈ v, isBlank x = true := by
  have htrim : trimList cs = (cs.dropWhile isBlank).rdropWhile isBlank := rfl
  refine ⟨cs.takeWhile isBlank, (cs.dropWhile isBlank).rtakeWhile isBlank, ?_, ?_, ?_⟩
  . rw [htrim, List.append_assoc, List.rdropWhile_append_rtakeWhile, List.takeWhile_append_dropWhile]
  . exact fun x hx => List.mem_takeWhile_imp hx
  . exact fun x hx => List.mem_rtakeWhile_imp hx

theorem withinBlanks_iff {P : List Char → Prop} {s : String} (hP : ∀ cs, P cs → ∀ x ∈ cs, isBlank x = false) :
    WithinBlanks P s ↔ P (trimList s.toList) := by
  constructor
  . rintro ⟨u, cs, v, hs, hu, hv, hcs⟩
    rw [hs, trimList_of_margins hu hv (hP cs hcs)]
    exact hcs
  . intro h
    obtain ⟨u, v, hs, hu, hv⟩ := exists_margins s.toList
    exact ⟨u, trimList s.toList, v, hs, hu, hv, h⟩

end Margins

section Spelling

/-- The same letter of ASCII in any case, or the same other character. -/
def SameLetter (c n : Char) : Prop :=
  c.toLower = n.toLower

variable {n : Char}

theorem toLower_of_isNameChar (hn : isNameChar n = true) : n.toLower = n :=
  forall_ascii (P := fun n => isNameChar n = true → n.toLower = n) (by decide +kernel) (ascii_of_isNameChar hn) hn

theorem not_isBlank_of_isNameChar (hn : isNameChar n = true) : isBlank n = false :=
  forall_ascii (P := fun n => isNameChar n = true → isBlank n = false) (by decide +kernel) (ascii_of_isNameChar hn) hn

theorem sameLetter_iff (hn : isNameChar n = true) : SameLetter c n ↔ c.toLower = n := by
  unfold SameLetter
  rw [toLower_of_isNameChar hn]

theorem not_isBlank_of_sameLetter (hn : isNameChar n = true) (h : SameLetter c n) : isBlank c = false := by
  rw [← isBlank_toLower, (sameLetter_iff hn).1 h]
  exact not_isBlank_of_isNameChar hn

theorem not_isBlank_of_forall₂ {alike : Char → Char → Prop} (h : ∀ n ∈ name, ∀ c, alike c n → isBlank c = false)
    (hcs : List.Forall₂ alike cs name) : ∀ c ∈ cs, isBlank c = false := by
  induction hcs with
  | nil => simp
  | cons hc _ ih =>
    obtain ⟨hn, hname⟩ := List.forall_mem_cons.1 h
    exact List.forall_mem_cons.2 ⟨hn _ hc, ih hname⟩

theorem lowerList_eq_iff (hname : ∀ n ∈ name, isNameChar n = true) :
    lowerList cs = name ↔ List.Forall₂ SameLetter cs name := by
  have hmap : (lowerList cs).map id = name ↔ _ := map_lowerList_eq hname
  rw [List.map_id] at hmap
  rw [hmap]
  exact map_eq_iff_forall₂ fun n hn c => (sameLetter_iff (hname n hn)).symm

end Spelling

end Text

open Text

namespace Lane

/-- A character of a name in any case, or a `-` in place of an `_`. -/
def Stands (c n : Char) : Prop :=
  SameLetter c n ∨ c = '-' ∧ n = '_'

/-- What is read as a lane: its name between blank margins. -/
def Spelled (lane : Lane) : String → Prop :=
  WithinBlanks (List.Forall₂ Stands · lane.name.toList)

theorem isNameChar_of_mem_name (lane : Lane) : ∀ n ∈ lane.name.toList, isNameChar n = true ∧ n ≠ '-' := by
  have hall : (lane.name.toList.all fun n => isNameChar n && n ≠ '-') = true := by
    cases lane <;> decide
  simpa using hall

theorem toLower_eq_dash {c : Char} : c.toLower = '-' ↔ c = '-' := by
  constructor
  . intro h
    have hlower := congrArg Char.toNat h
    have hdash : '-'.toNat = 45 := rfl
    rw [toNat_toLower, hdash] at hlower
    have hc : c.toNat = 45 := by
      split at hlower <;> omega
    rw [← Char.ofNat_toNat c, hc]
  . rintro rfl
    rfl

theorem stands_iff {c n : Char} (hn : isNameChar n = true) (hdash : n ≠ '-') :
    (if c.toLower = '-' then '_' else c.toLower) = n ↔ Stands c n := by
  unfold Stands
  rw [sameLetter_iff hn]
  split
  . next hc =>
    rw [toLower_eq_dash] at hc
    subst hc
    constructor
    . rintro rfl
      exact .inr ⟨rfl, rfl⟩
    . rintro (rfl | ⟨-, rfl⟩)
      . exact absurd rfl hdash
      . rfl
  . next hc => simp [toLower_eq_dash.not.1 hc]

theorem not_isBlank_of_stands {c n : Char} (hn : isNameChar n = true) (h : Stands c n) : isBlank c = false := by
  rcases h with hsame | ⟨rfl, -⟩
  . exact not_isBlank_of_sameLetter hn hsame
  . decide

theorem ofName?_eq_some {cs : List Char} {lane : Lane} : ofName? cs = some lane ↔ cs = lane.name.toList := by
  constructor
  . intro h
    simpa [eq_comm] using List.find?_some h
  . rintro rfl
    exact ofName?_name lane

theorem parse_eq_ok {s : String} {lane : Lane} : parse s = .ok lane ↔ lane.Spelled s := by
  have hname := isNameChar_of_mem_name lane
  have hread : ∀ cs : List Char, ((lowerList cs).map fun c => if c = '-' then '_' else c) = lane.name.toList
      ↔ List.Forall₂ Stands cs lane.name.toList := by
    intro cs
    rw [map_lowerList_eq]
    . exact map_eq_iff_forall₂ fun n hn c => stands_iff (hname n hn).1 (hname n hn).2
    . intro d hd
      split at hd
      . next h => exact h ▸ rfl
      . exact (hname d hd).1
  unfold Spelled
  rw [withinBlanks_iff fun cs => not_isBlank_of_forall₂ fun n hn c => not_isBlank_of_stands (hname n hn).1, ← hread,
    ← ofName?_eq_some]
  unfold parse
  dsimp only
  split <;> simp [*]

theorem parse_eq_error {s : String} : parse s = .error ⟨s⟩ ↔ ∀ lane, parse s ≠ .ok lane := by
  unfold parse
  dsimp only
  split <;> simp

end Lane

namespace LogFormat

/-- What is read as a format: one of its names between blank margins. -/
def Spelled (f : LogFormat) : String → Prop :=
  WithinBlanks fun cs => ∃ name ∈ f.names, List.Forall₂ SameLetter cs name.toList

theorem isNameChar_of_mem_names (f : LogFormat) : ∀ name ∈ f.names, ∀ n ∈ name.toList, isNameChar n = true := by
  have hall : (f.names.all (·.toList.all isNameChar)) = true := by
    cases f <;> decide
  simpa using hall

theorem find?_eq_some {cs : List Char} {f : LogFormat} :
    [text, json].find? (fun f => f.names.any (·.toList = cs)) = some f ↔ ∃ name ∈ f.names, name.toList = cs := by
  constructor
  . intro h
    simpa using List.find?_some h
  . rintro ⟨name, hname, rfl⟩
    revert name
    cases f <;> decide

theorem parse_eq_ok {s : String} {f : LogFormat} : parse s = .ok f ↔ f.Spelled s := by
  have hname := isNameChar_of_mem_names f
  have hread : ∀ cs : List Char, (∃ name ∈ f.names, List.Forall₂ SameLetter cs name.toList)
      ↔ ∃ name ∈ f.names, name.toList = lowerList cs := by
    intro cs
    apply exists_congr
    intro name
    apply and_congr_right
    intro hmem
    rw [eq_comm, lowerList_eq_iff (hname name hmem)]
  unfold Spelled
  rw [withinBlanks_iff, hread, ← find?_eq_some]
  . unfold parse
    dsimp only
    split <;> simp [*]
  . rintro cs ⟨name, hmem, hcs⟩
    exact not_isBlank_of_forall₂ (fun n hn c => not_isBlank_of_sameLetter (hname name hmem n hn)) hcs

theorem parse_eq_error {s : String} : parse s = .error ⟨s⟩ ↔ ∀ f, parse s ≠ .ok f := by
  unfold parse
  dsimp only
  split <;> simp

end LogFormat

namespace Role

/-- What is read as a role: its name and nothing else. -/
def Spelled (role : Role) (s : String) : Prop :=
  List.Forall₂ SameLetter s.toList role.name.toList

theorem isNameChar_of_mem_name (role : Role) : ∀ n ∈ role.name.toList, isNameChar n = true := by
  have hall : (role.name.toList.all isNameChar) = true := by
    cases role <;> decide
  simpa using hall

theorem ofName?_eq_some {cs : List Char} {role : Role} : ofName? cs = some role ↔ cs = role.name.toList := by
  constructor
  . intro h
    simpa [eq_comm] using List.find?_some h
  . rintro rfl
    exact ofName?_name role

theorem parse_eq_ok {s : String} {role : Role} : parse s = .ok role ↔ role.Spelled s := by
  unfold Spelled
  rw [← lowerList_eq_iff (isNameChar_of_mem_name role), ← ofName?_eq_some]
  unfold parse
  split <;> simp [*]

theorem parse_eq_error {s : String} : parse s = .error ⟨s⟩ ↔ ∀ role, parse s ≠ .ok role := by
  unfold parse
  split <;> simp

end Role

/-- Lanes and formats are read from their names in any case, also between blanks, roles from their names only. Everything
else is refused, and the error carries the text as it was given. -/
theorem parse_iff_spelled (s : String) :
    ((∀ lane, Lane.parse s = .ok lane ↔ lane.Spelled s)
        ∧ (Lane.parse s = .error ⟨s⟩ ↔ ∀ lane : Lane, ¬ lane.Spelled s))
      ∧ ((∀ f, LogFormat.parse s = .ok f ↔ f.Spelled s)
        ∧ (LogFormat.parse s = .error ⟨s⟩ ↔ ∀ f : LogFormat, ¬ f.Spelled s))
      ∧ (∀ role, Role.parse s = .ok role ↔ role.Spelled s)
      ∧ (Role.parse s = .error ⟨s⟩ ↔ ∀ role : Role, ¬ role.Spelled s) := by
  refine ⟨⟨fun _ => Lane.parse_eq_ok, ?_⟩, ⟨fun _ => LogFormat.parse_eq_ok, ?_⟩, fun _ => Role.parse_eq_ok, ?_⟩
  . exact Lane.parse_eq_error.trans (forall_congr' fun _ => Lane.parse_eq_ok.not)
  . exact LogFormat.parse_eq_error.trans (forall_congr' fun _ => LogFormat.parse_eq_ok.not)
  . exact Role.parse_eq_error.trans (forall_congr' fun _ => Role.parse_eq_ok.not)

example : Lane.parse "\u3000In-Progress\n" = .ok .inProgress := by rfl

example : Role.parse "Owner " = .error ⟨"Owner "⟩ := by rfl

end LaneOrder
