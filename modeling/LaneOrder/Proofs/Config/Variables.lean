import LaneOrder.Proofs.Config
import LaneOrder.Proofs.Text.Names

/-!
This module contains what a configuration that is read from variables has to do with one that is built by setters. The blanks
around values do not matter, and a blank value counts as none. If every other value can be read, then the variables are the
same as setters that are called with what was read, and it does not matter in which order or how often.
-/

namespace LaneOrder

namespace Text

variable {u cs v : List Char}

theorem trimList_margins (hu : ∀ x ∈ u, isBlank x = true) (hv : ∀ x ∈ v, isBlank x = true) :
    trimList (u ++ cs ++ v) = trimList cs := by
  unfold trimList
  rw [List.append_assoc, List.dropWhile_append_of_pos hu, List.dropWhile_append]
  split
  . next hblank =>
    -- everything is blank then
    rw [List.isEmpty_iff.1 hblank, List.dropWhile_eq_nil_iff.2 hv]
  . rw [List.reverse_append, List.dropWhile_append_of_pos fun x hx => hv x (List.mem_reverse.1 hx)]

theorem trimList_of_ends (hhead : ∀ c ∈ cs.head?, isBlank c = false) (hlast : ∀ c ∈ cs.getLast?, isBlank c = false) :
    trimList cs = cs := by
  have hfront : ([] ++ cs).dropWhile isBlank = cs := dropWhile_margin (by simp) hhead
  have hback : ([] ++ cs.reverse).dropWhile isBlank = cs.reverse := dropWhile_margin (by simp) (by simpa using hlast)
  unfold trimList
  rw [List.nil_append] at hfront hback
  rw [hfront, hback, List.reverse_reverse]

theorem ends_trimList : (∀ c ∈ (trimList cs).head?, isBlank c = false) ∧ ∀ c ∈ (trimList cs).getLast?, isBlank c = false := by
  have hhead : ∀ xs : List Char, ∀ c ∈ (xs.dropWhile isBlank).head?, isBlank c = false := by
    intro xs c hc
    have := List.head?_dropWhile_not isBlank xs
    rw [Option.mem_def.1 hc] at this
    simpa using this
  constructor
  . intro c hc
    apply hhead cs
    -- what is dropped at the end leaves the first character in place
    obtain ⟨dropped, hdropped⟩ : ∃ dropped, cs.dropWhile isBlank = trimList cs ++ dropped :=
      ⟨_, List.rdropWhile_append_rtakeWhile.symm⟩
    rw [hdropped, List.head?_append, Option.mem_def.1 hc]
    rfl
  . intro c hc
    apply hhead (cs.dropWhile isBlank).reverse
    unfold trimList at hc
    rwa [List.getLast?_reverse] at hc

end Text

namespace Config

/-- A variable has a value: its text is more than blanks, and the value is what is left without the blanks around it. -/
def HasValue (lookup : String → Option String) (v : Variable) (value : String) : Prop :=
  (∃ s, lookup v.name = some s ∧ Text.WithinBlanks (· = value.toList) s)
    ∧ value ≠ ""
    ∧ (∀ c ∈ value.toList.head?, Text.isBlank c = false)
    ∧ ∀ c ∈ value.toList.getLast?, Text.isBlank c = false

/-- Two texts of a variable, or a text and none, that differ in the blanks around a value only. -/
def SameValue : Option String → Option String → Prop
  | some s, some s' => ∃ cs, Text.WithinBlanks (· = cs) s ∧ Text.WithinBlanks (· = cs) s'
  | some s, none => Text.WithinBlanks (· = []) s
  | none, some s => Text.WithinBlanks (· = []) s
  | none, none => True

/-- The setter to call with the value of a variable, if the value can be read. -/
def Variable.setter? (value : String) : Variable → Option Setter
  | databaseUrl => some (.databaseUrl value)
  | maxConnections => ((readNat? (1 <<< 32) value.toList).map UInt32.ofNat).map .maxConnections
  | increment => (Binary64.read? value.toList).map .increment
  | epsilon => (Binary64.read? value.toList).map .epsilon
  | lockTimeout => ((readNat? (1 <<< 64) value.toList).map UInt64.ofNat).map fun n => .lockTimeout (.ofMillis n)
  | logFormat => match LogFormat.parse value with
    | .ok f => some (.logFormat f)
    | .error _ => none

def Setter.variable : Setter → Variable
  | databaseUrl _ => .databaseUrl
  | maxConnections _ => .maxConnections
  | increment _ => .increment
  | epsilon _ => .epsilon
  | lockTimeout _ => .lockTimeout
  | logFormat _ => .logFormat

section Parts

/-- The setters of a variable say something about a field, and set it to that. -/
structure Tells {α : Type} (v : Variable) (field : Config → α) (part? : Setter → Option α) : Prop where
  set : ∀ c x, field (set c x) = (part? x).getD (field c)
  isSome : ∀ x, (part? x).isSome = true ↔ x.variable = v

def Setter.databaseUrl? : Setter → Option (Option String)
  | databaseUrl url => some (some url)
  | _ => none

def Setter.maxConnections? : Setter → Option UInt32
  | maxConnections n => some n
  | _ => none

def Setter.increment? : Setter → Option Binary64
  | increment x => some x
  | _ => none

def Setter.epsilon? : Setter → Option Binary64
  | epsilon x => some x
  | _ => none

def Setter.lockTimeoutMillis? : Setter → Option UInt64
  | lockTimeout d => some (.ofNat d.millis)
  | _ => none

def Setter.logFormat? : Setter → Option LogFormat
  | logFormat f => some f
  | _ => none

theorem tells_databaseUrl : Tells .databaseUrl databaseUrl Setter.databaseUrl? where
  set c x := by cases x <;> rfl
  isSome x := by cases x <;> simp [Setter.databaseUrl?, Setter.variable]

theorem tells_maxConnections : Tells .maxConnections maxConnections Setter.maxConnections? where
  set c x := by cases x <;> rfl
  isSome x := by cases x <;> simp [Setter.maxConnections?, Setter.variable]

theorem tells_increment : Tells .increment increment Setter.increment? where
  set c x := by cases x <;> rfl
  isSome x := by cases x <;> simp [Setter.increment?, Setter.variable]

theorem tells_epsilon : Tells .epsilon epsilon Setter.epsilon? where
  set c x := by cases x <;> rfl
  isSome x := by cases x <;> simp [Setter.epsilon?, Setter.variable]

theorem tells_lockTimeout : Tells .lockTimeout lockTimeoutMillis Setter.lockTimeoutMillis? where
  set c x := by cases x <;> rfl
  isSome x := by cases x <;> simp [Setter.lockTimeoutMillis?, Setter.variable]

theorem tells_logFormat : Tells .logFormat logFormat Setter.logFormat? where
  set c x := by cases x <;> rfl
  isSome x := by cases x <;> simp [Setter.logFormat?, Setter.variable]

end Parts

variable {lookup lookup' : String → Option String} {v : Variable} {value : String} {x : Setter} {setters : List Setter}

section Values

theorem trimList_of_withinBlanks {cs : List Char} {s : String} (h : Text.WithinBlanks (· = cs) s) :
    Text.trimList s.toList = Text.trimList cs := by
  obtain ⟨u, cs, w, hs, hu, hw, rfl⟩ := h
  rw [hs, Text.trimList_margins hu hw]

theorem value?_of_text {s : String} (hs : lookup v.name = some s) : value? lookup v = some value ↔
    Text.trimList s.toList = value.toList ∧ value ≠ "" := by
  unfold value?
  rw [hs, Option.map_some, Option.filter_eq_some_iff, Option.some_inj, ← String.toList_inj, Text.toList_trim]
  simp

theorem value?_eq_some : value? lookup v = some value ↔ HasValue lookup v value := by
  constructor
  . intro h
    obtain ⟨s, hs⟩ : ∃ s, lookup v.name = some s := by
      cases hs : lookup v.name with
      | none => simp [value?, hs] at h
      | some s => exact ⟨s, rfl⟩
    obtain ⟨htrim, hvalue⟩ := (value?_of_text hs).1 h
    obtain ⟨u, w, hmargins, hu, hw⟩ := Text.exists_margins s.toList
    rw [htrim] at hmargins
    refine ⟨⟨s, hs, u, _, w, hmargins, hu, hw, rfl⟩, hvalue, ?_⟩
    rw [← htrim]
    exact Text.ends_trimList
  . rintro ⟨⟨s, hs, hmargins⟩, hvalue, hhead, hlast⟩
    rw [value?_of_text hs, trimList_of_withinBlanks hmargins, Text.trimList_of_ends hhead hlast]
    exact ⟨rfl, hvalue⟩

theorem value?_of_blank {s : String} (hs : lookup v.name = some s) (h : Text.WithinBlanks (· = []) s) :
    value? lookup v = none := by
  have htrim : Text.trim s = "" := by
    rw [← String.toList_inj, Text.toList_trim, trimList_of_withinBlanks h]
    rfl
  unfold value?
  rw [hs, Option.map_some, htrim]
  rfl

theorem value?_congr (h : SameValue (lookup v.name) (lookup' v.name)) : value? lookup v = value? lookup' v := by
  have hnone : ∀ {lookup : String → Option String}, lookup v.name = none → value? lookup v = none := by
    intro lookup hs
    unfold value?
    rw [hs]
    rfl
  generalize hs : lookup v.name = s at h
  generalize hs' : lookup' v.name = s' at h
  cases s with
  | none =>
    rw [hnone hs]
    cases s' with
    | none => rw [hnone hs']
    | some s' => rw [value?_of_blank hs' h]
  | some s =>
    cases s' with
    | none => rw [hnone hs', value?_of_blank hs h]
    | some s' =>
      obtain ⟨cs, hcs, hcs'⟩ := h
      have htrim : Text.trim s = Text.trim s' := by
        rw [← String.toList_inj, Text.toList_trim, Text.toList_trim, trimList_of_withinBlanks hcs,
          trimList_of_withinBlanks hcs']
      unfold value?
      rw [hs, hs', Option.map_some, Option.map_some, htrim]

end Values

section Setters

theorem variable_of_setter? (h : v.setter? value = some x) : x.variable = v := by
  cases v <;> unfold Variable.setter? at h
  case databaseUrl =>
    cases h
    rfl
  case logFormat =>
    dsimp only at h
    split at h <;> cases h
    rfl
  all_goals
    obtain ⟨_, _, rfl⟩ := Option.map_eq_some_iff.1 h
    rfl

variable {α : Type} {field : Config → α} {part? : Setter → Option α}

theorem foldl_set_of_kept (ht : Tells v field part?) {a : α} {c : Config}
    (hkept : ∀ x ∈ setters, part? x = none ∨ part? x = some a) (hc : field c = a) : field (setters.foldl set c) = a := by
  induction setters generalizing c with
  | nil => exact hc
  | cons x setters ih =>
    obtain ⟨hx, hsetters⟩ := List.forall_mem_cons.1 hkept
    apply ih hsetters
    rw [ht.set]
    rcases hx with hx | hx
    . rw [hx]
      exact hc
    . rw [hx]
      rfl

/-- What a field is after some setters: what the setters of this field say, if all of them say the same. -/
theorem foldl_set (ht : Tells v field part?) {said : Option α}
    (hsaid : ∀ a, (∃ x ∈ setters, part? x = some a) ↔ said = some a) (c : Config) :
    field (setters.foldl set c) = said.getD (field c) := by
  cases said with
  | none =>
    apply foldl_set_of_kept ht _ rfl
    intro x hx
    left
    by_contra hsome
    obtain ⟨a, ha⟩ := Option.ne_none_iff_exists'.1 hsome
    cases (hsaid a).1 ⟨x, hx, ha⟩
  | some a =>
    obtain ⟨x, hx, hpart⟩ := (hsaid a).2 rfl
    obtain ⟨before, after, rfl⟩ := List.append_of_mem hx
    rw [List.foldl_append, List.foldl_cons]
    apply foldl_set_of_kept ht
    . intro y hy
      cases hpart' : part? y with
      | none => exact .inl rfl
      | some a' =>
        cases (hsaid a').1 ⟨y, by simp [hy], hpart'⟩
        exact .inr rfl
    . rw [ht.set, hpart]
      rfl

/-- Setters are called with just the values that variables have. -/
def CalledWith (lookup : String → Option String) (setters : List Setter) : Prop :=
  ∀ x, x ∈ setters ↔ ∃ v value, HasValue lookup v value ∧ v.setter? value = some x

/-- What a variable says about a field. -/
def said? (lookup : String → Option String) (v : Variable) (part? : Setter → Option α) : Option α :=
  (value? lookup v).bind fun value => (v.setter? value).bind part?

theorem field_of_calledWith (ht : Tells v field part?) (hcalled : CalledWith lookup setters) :
    field (setters.foldl set {}) = (said? lookup v part?).getD (field {}) := by
  apply foldl_set ht
  intro a
  unfold said?
  constructor
  . rintro ⟨x, hx, ha⟩
    obtain ⟨v', value, hvalue, hsetter⟩ := (hcalled x).1 hx
    obtain rfl := (variable_of_setter? hsetter).symm.trans ((ht.isSome x).1 (by rw [ha, Option.isSome_some]))
    rw [value?_eq_some.2 hvalue, Option.bind_some, hsetter, Option.bind_some, ha]
  . intro h
    obtain ⟨value, hvalue, h⟩ := Option.bind_eq_some_iff.1 h
    obtain ⟨x, hsetter, ha⟩ := Option.bind_eq_some_iff.1 h
    exact ⟨x, (hcalled x).2 ⟨v, value, value?_eq_some.1 hvalue, hsetter⟩, ha⟩

/-- Every value can be read. -/
def Readable (lookup : String → Option String) : Prop :=
  ∀ v value, HasValue lookup v value → (v.setter? value).isSome = true

theorem readOr_of_readable (hreadable : Readable lookup) {read? : List Char → Option α} {make : α → Setter} {default : α}
    (hread : ∀ value, v.setter? value = (read? value.toList).map make)
    (hmake : ∀ a, part? (make a) = some a) :
    readOr lookup v read? default = .ok ((said? lookup v part?).getD default) := by
  unfold readOr said?
  cases hvalue : value? lookup v with
  | none => rfl
  | some value =>
    have hsetter := hreadable v value (value?_eq_some.1 hvalue)
    rw [hread, Option.isSome_map] at hsetter
    obtain ⟨a, ha⟩ := Option.isSome_iff_exists.1 hsetter
    rw [Option.bind_some, hread, ha, Option.map_some, Option.bind_some, hmake]
    dsimp only
    rw [ha]
    rfl

theorem readLogFormat_of_readable (hreadable : Readable lookup) :
    readLogFormat lookup = .ok ((said? lookup .logFormat Setter.logFormat?).getD ({} : Config).logFormat) := by
  unfold readLogFormat said?
  cases hvalue : value? lookup .logFormat with
  | none => rfl
  | some value =>
    have hsetter := hreadable _ value (value?_eq_some.1 hvalue)
    rw [Option.bind_some]
    unfold Variable.setter? at hsetter ⊢
    dsimp only at hsetter ⊢
    cases hparse : LogFormat.parse value with
    | ok f => rfl
    | error e =>
      rw [hparse] at hsetter
      cases hsetter

end Setters

/-- Variables can be given in two ways that differ in blanks around the values and in blank values only: the configuration that
is read is the same, or the same error. And if all values can be read, it is the configuration that is built by the setters of
these values, in whatever order, or the same values are refused for the same reason. -/
theorem variables_agree :
    (∀ lookup lookup', (∀ v : Variable, SameValue (lookup v.name) (lookup' v.name)) →
      ofVariables lookup = ofVariables lookup')
      ∧ ∀ lookup setters, Readable lookup → CalledWith lookup setters → ofVariables lookup = build setters := by
  constructor
  . intro lookup lookup' hsame
    have hvalue : value? lookup = value? lookup' := funext fun v => value?_congr (hsame v)
    unfold ofVariables readOr readLogFormat
    rw [hvalue]
  . intro lookup setters hreadable hcalled
    have hmaxConnections : ∀ default, readOr lookup .maxConnections
        (fun cs => (readNat? (1 <<< 32) cs).map UInt32.ofNat) default
          = .ok ((said? lookup .maxConnections Setter.maxConnections?).getD default) :=
      fun _ => readOr_of_readable hreadable (fun _ => rfl) fun _ => rfl
    have hincrement : ∀ default, readOr lookup .increment Binary64.read? default
        = .ok ((said? lookup .increment Setter.increment?).getD default) :=
      fun _ => readOr_of_readable hreadable (fun _ => rfl) fun _ => rfl
    have hepsilon : ∀ default, readOr lookup .epsilon Binary64.read? default
        = .ok ((said? lookup .epsilon Setter.epsilon?).getD default) :=
      fun _ => readOr_of_readable hreadable (fun _ => rfl) fun _ => rfl
    have hlockTimeout : ∀ default, readOr lookup .lockTimeout
        (fun cs => (readNat? (1 <<< 64) cs).map UInt64.ofNat) default
          = .ok ((said? lookup .lockTimeout Setter.lockTimeoutMillis?).getD default) := by
      intro _
      apply readOr_of_readable hreadable
      . exact fun _ => rfl
      . intro n
        show some (UInt64.ofNat (Duration.ofMillis n).millis) = some n
        rw [Duration.millis_ofMillis, UInt64.ofNat_toNat]
    unfold ofVariables
    dsimp only
    rw [hmaxConnections, hincrement, hepsilon, hlockTimeout, readLogFormat_of_readable hreadable,
      ← field_of_calledWith tells_maxConnections hcalled, ← field_of_calledWith tells_increment hcalled,
      ← field_of_calledWith tells_epsilon hcalled, ← field_of_calledWith tells_lockTimeout hcalled,
      ← field_of_calledWith tells_logFormat hcalled]
    have hdatabaseUrl : value? lookup .databaseUrl = (setters.foldl set {}).databaseUrl := by
      rw [field_of_calledWith tells_databaseUrl hcalled]
      unfold said?
      cases value? lookup .databaseUrl <;> rfl
    rw [hdatabaseUrl]
    rfl

namespace Sample

def plain : String → Option String
  | "DATABASE_MAX_CONNECTIONS" => some "4"
  | "REORDER_LOCK_TIMEOUT_MS" => some "250"
  | _ => none

def padded : String → Option String
  | "DATABASE_MAX_CONNECTIONS" => some "\u3000 4"
  | "REORDER_LOCK_TIMEOUT_MS" => some "250\n"
  | "LOG_FORMAT" => some "\t"
  | _ => none

def value? : Variable → Option String
  | .maxConnections => some "4"
  | .lockTimeout => some "250"
  | _ => none

theorem value?_plain (v : Variable) : Config.value? plain v = value? v := by
  cases v <;> decide +kernel

theorem sameValue_padded (v : Variable) : SameValue (padded v.name) (plain v.name) := by
  cases v
  case maxConnections =>
    exact ⟨['4'], ⟨['\u3000', ' '], _, [], by decide, List.all_eq_true.1 rfl, List.all_eq_true.1 rfl, rfl⟩,
      [], _, [], by decide, List.all_eq_true.1 rfl, List.all_eq_true.1 rfl, rfl⟩
  case lockTimeout =>
    exact ⟨['2', '5', '0'], ⟨[], _, ['\n'], by decide, List.all_eq_true.1 rfl, List.all_eq_true.1 rfl, rfl⟩,
      [], _, [], by decide, List.all_eq_true.1 rfl, List.all_eq_true.1 rfl, rfl⟩
  case logFormat => exact ⟨['\t'], _, [], by decide, List.all_eq_true.1 rfl, List.all_eq_true.1 rfl, rfl⟩
  all_goals trivial

def calls : List Setter :=
  [.lockTimeout (.ofMillis 250), .maxConnections 4]

theorem readable_plain : Readable plain := by
  intro v value hvalue
  rw [← value?_eq_some, value?_plain] at hvalue
  cases v <;> cases hvalue <;> decide

theorem calledWith_plain : CalledWith plain calls := by
  intro x
  simp only [← value?_eq_some, value?_plain]
  constructor
  . intro hx
    rcases List.mem_cons.1 hx with rfl | hx
    . exact ⟨.lockTimeout, "250", rfl, by decide +kernel⟩
    . obtain rfl := List.mem_singleton.1 hx
      exact ⟨.maxConnections, "4", rfl, by decide +kernel⟩
  . rintro ⟨v, value, hvalue, hx⟩
    have hread : ∀ y, v.setter? value = some y → y = x := fun y hy => Option.some.inj (hy.symm.trans hx)
    cases v <;> cases hvalue
    . obtain rfl := hread (.maxConnections 4) (by decide +kernel)
      exact List.mem_cons_of_mem _ (List.mem_singleton_self _)
    . obtain rfl := hread (.lockTimeout (.ofMillis 250)) (by decide +kernel)
      exact List.mem_cons_self

end Sample

/-- The values may be padded, and a blank value is none. -/
theorem variables_agree_padded : ofVariables Sample.padded = ofVariables Sample.plain
    ∧ ofVariables Sample.plain = build Sample.calls :=
  ⟨variables_agree.1 _ _ Sample.sameValue_padded, variables_agree.2 _ _ Sample.readable_plain Sample.calledWith_plain⟩

end Config

end LaneOrder
