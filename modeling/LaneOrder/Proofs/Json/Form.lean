import LaneOrder.Json.Entity
import LaneOrder.Proofs.Json.Text
import LaneOrder.Proofs.Timestamp.Text
import LaneOrder.Proofs.Uuid

/-!
This module contains how the forms of values are read back. Each form is taken from the forms of its parts, and reading
finds the parts of a record again because its fields have different names. What is read may differ from what was written, as
the position of a task does, so a form relates two values.
-/

namespace LaneOrder

namespace Json

/-- A name that occurs once finds the field it belongs to. -/
theorem filter_name_eq_singleton {fields : List (String × Json)} (hnodup : (fields.map Prod.fst).Nodup)
    {name : String} {j : Json} (hmem : (name, j) ∈ fields) :
    (fields.map fun (name, j) => (some name.toList, j)).filter (·.1 = some name.toList) = [(some name.toList, j)] := by
  induction fields with
  | nil => cases hmem
  | cons f fields ih =>
    rw [List.map_cons, List.nodup_cons] at hnodup
    rw [List.map_cons]
    rcases List.mem_cons.mp hmem with rfl | hmem
    . have hnone : (fields.map fun (name, j) => (some name.toList, j)).filter (·.1 = some name.toList) = [] := by
        rw [List.filter_eq_nil_iff]
        intro f' hf' heq
        obtain ⟨f, hf, rfl⟩ := List.mem_map.mp hf'
        have hname : f.1 = name := String.toList_inj.mp (by simpa using heq)
        exact hnodup.1 (List.mem_map.mpr ⟨f, hf, hname⟩)
      rw [List.filter_cons_of_pos (by simp), hnone]
    . have hne : f.1 ≠ name := by
        rintro rfl
        exact hnodup.1 (List.mem_map.mpr ⟨_, hmem, rfl⟩)
      have hne' : f.1.toList ≠ name.toList := fun heq => hne (String.toList_inj.mp heq)
      rw [List.filter_cons_of_neg (by simpa using hne')]
      exact ih hnodup.2 hmem

theorem mapM_eq_some_of_zip {g : String → Option (Option Json)} {names : List String} {items : List Json}
    (hlength : items.length = names.length) (h : ∀ f ∈ names.zip items, g f.1 = some (some f.2)) :
    names.mapM g = some (items.map some) := by
  induction names generalizing items with
  | nil =>
    obtain rfl := List.length_eq_zero_iff.mp hlength
    rfl
  | cons name names ih =>
    match items, hlength with
    | j :: items, hlength =>
      rw [List.zip_cons_cons, List.forall_mem_cons] at h
      rw [List.mapM_cons, h.1, ih (Nat.succ.inj hlength) h.2]
      rfl

/-- The parts of a record are found again by the names of their fields. -/
theorem parts?_record {names : List String} {items : List Json} (hnodup : names.Nodup) (hlength : items.length = names.length) :
    parts? names (.record (names.zip items)) = some (items.map some) := by
  have hfst : (names.zip items).map Prod.fst = names := by
    rw [List.map_fst_zip (by omega)]
  have hfind : ∀ f ∈ names.zip items,
      ((names.zip items).map fun (name, j) => (some name.toList, j)).filter (·.1 = some f.1.toList)
        = [(some f.1.toList, f.2)] :=
    fun f hf => filter_name_eq_singleton (hfst.symm ▸ hnodup) hf
  unfold record parts?
  dsimp only
  rw [if_pos (by simp)]
  apply mapM_eq_some_of_zip hlength
  intro f hf
  rw [hfind f hf]

theorem isPlain_record {names : List String} {items : List Json} (h : ∀ j ∈ items, j.IsPlain) :
    (record (names.zip items)).IsPlain := by
  apply IsPlain.object
  intro f hf
  obtain ⟨⟨name, j⟩, hmem, rfl⟩ := List.mem_map.mp hf
  exact h j (List.of_mem_zip hmem).2

namespace Form

variable {α β : Type} {f : Form α} {a b : α}

/-- What is written for `a` is read as `b`. -/
structure Rereads (f : Form α) (a b : α) : Prop where
  isPlain : (f.write a).IsPlain
  read?_write : f.read? (f.write a) = some b

theorem Rereads.parse?_render (h : f.Rereads a b) : f.parse? (f.render a) = some b := by
  unfold parse? render
  rw [Json.parse?_render h.isPlain]
  exact h.read?_write

theorem rereads_text (s : String) : text.Rereads s s :=
  ⟨.string, by simp [text, ofString, Json.text]⟩

theorem rereads_flag (b : Bool) : flag.Rereads b b :=
  ⟨.bool, rfl⟩

theorem rereads_uuid (a : Uuid) : uuid.Rereads a a where
  isPlain := .string
  read?_write := by
    unfold uuid Json.text
    dsimp only
    rw [Uuid.read?_toChars]

theorem rereads_timestamp (t : Timestamp) : timestamp.Rereads t t.reread where
  isPlain := .string
  read?_write := by
    unfold timestamp Json.text
    dsimp only
    rw [Timestamp.read?_toRfc3339]

theorem Rereads.ofIso {unwrap : β → α} {wrap : α → β} {b : β} (h : f.Rereads (unwrap b) a) :
    (f.ofIso unwrap wrap).Rereads b (wrap a) where
  isPlain := h.isPlain
  read?_write := by
    show (f.read? (f.write (unwrap b))).map wrap = _
    rw [h.read?_write]
    rfl

theorem rereads_taskId (id : TaskId) : taskId.Rereads id id :=
  (rereads_uuid id.uuid).ofIso

theorem rereads_workspaceId (id : WorkspaceId) : workspaceId.Rereads id id :=
  (rereads_uuid id.uuid).ofIso

theorem rereads_actorId (id : ActorId) : actorId.Rereads id id :=
  (rereads_uuid id.uuid).ofIso

theorem rereads_named {ofName? : List Char → Option α} {name : α → String} (h : ∀ a, ofName? (name a).toList = some a) (a : α) :
    (named ofName? name).Rereads a a :=
  ⟨.string, h a⟩

theorem Rereads.optional (h : f.Rereads a b) (hnull : f.write a ≠ .null) : f.optional.Rereads (some a) (some b) where
  isPlain := h.isPlain
  read?_write := by
    unfold Form.optional
    dsimp only
    split
    . next hwrite => exact absurd hwrite hnull
    . rw [h.read?_write]
      rfl

theorem rereads_optional {g : α → α} (h : ∀ a, f.Rereads a (g a)) (hnull : ∀ a, f.write a ≠ .null) (o : Option α) :
    f.optional.Rereads o (o.map g) := by
  cases o with
  | none => exact ⟨.null, rfl⟩
  | some a => exact (h a).optional (hnull a)

theorem rereads_optional_taskId (o : Option TaskId) : taskId.optional.Rereads o o := by
  have := rereads_optional (g := id) rereads_taskId (by intro _ h; cases h) o
  rwa [Option.map_id_fun] at this

theorem rereads_optional_timestamp (o : Option Timestamp) : timestamp.optional.Rereads o (o.map Timestamp.reread) :=
  rereads_optional rereads_timestamp (by intro _ h; cases h) o

theorem Rereads.list {g : α → α} {as : List α} (h : ∀ a ∈ as, f.Rereads a (g a)) : f.list.Rereads as (as.map g) where
  isPlain := by
    apply IsPlain.array
    intro j hj
    obtain ⟨a, ha, rfl⟩ := List.mem_map.mp hj
    exact (h a ha).isPlain
  read?_write := by
    show (as.map f.write).mapM f.read? = _
    induction as with
    | nil => rfl
    | cons a as ih =>
      obtain ⟨ha, has⟩ := List.forall_mem_cons.mp h
      rw [List.map_cons, List.mapM_cons, ha.read?_write, ih has]
      rfl

end Form

end Json

end LaneOrder
