import LaneOrder.Proofs.Json.Form

/-!
This module contains that a request, an id, a point in time and a name lose nothing when they are written. Whatever spelling a
value was read from, its own text says the same, so writing a text anew settles it: another pass changes nothing. There are
points in time that no text holds, and they are never read.
-/

namespace LaneOrder

namespace Json.Form

variable {α : Type} {f : Form α}

/-- Write the value that a text holds. -/
def rewrite? (f : Form α) (cs : List Char) : Option (List Char) :=
  (f.parse? cs).map f.render

/-- All values that are read are proper ones, the text of a proper value holds the value, a text that can be read still holds
its value when it is written anew, and writing it anew twice is like doing so once. -/
structure FaithfulOn (f : Form α) (proper : α → Prop) : Prop where
  proper_of_parse? : ∀ cs a, f.parse? cs = some a → proper a
  parse?_render : ∀ a, proper a → f.parse? (f.render a) = some a
  parse?_rewrite? : ∀ cs, (f.rewrite? cs).bind f.parse? = f.parse? cs
  rewrite?_rewrite? : ∀ cs, (f.rewrite? cs).bind f.rewrite? = f.rewrite? cs

/-- Every value is a proper one. -/
def Faithful (f : Form α) : Prop :=
  f.FaithfulOn fun _ => True

theorem faithfulOn_of_rereads {proper : α → Prop} (hproper : ∀ cs a, f.parse? cs = some a → proper a)
    (h : ∀ a, proper a → f.Rereads a a) : f.FaithfulOn proper where
  proper_of_parse? := hproper
  parse?_render a ha := (h a ha).parse?_render
  parse?_rewrite? cs := by
    unfold rewrite?
    cases hcs : f.parse? cs with
    | none => rfl
    | some a => exact (h a (hproper cs a hcs)).parse?_render
  rewrite?_rewrite? cs := by
    unfold rewrite?
    cases hcs : f.parse? cs with
    | none => rfl
    | some a =>
      show (f.parse? (f.render a)).map f.render = _
      rw [(h a (hproper cs a hcs)).parse?_render]

theorem faithful_of_rereads (h : ∀ a, f.Rereads a a) : f.Faithful :=
  faithfulOn_of_rereads (fun _ _ _ => trivial) fun a _ => h a

/-- The points in time that are read are the regular ones. -/
theorem faithful_timestamp : timestamp.FaithfulOn Timestamp.IsRegular := by
  apply faithfulOn_of_rereads
  . intro cs t h
    obtain ⟨j, -, h⟩ := Option.bind_eq_some_iff.1 h
    unfold timestamp at h
    dsimp only at h
    split at h
    . exact Timestamp.isRegular_of_read? h
    . cases h
  . intro t ht
    have := rereads_timestamp t
    rwa [Timestamp.reread_of_isRegular ht] at this

end Json.Form

open Json

theorem Lane.rereads (lane : Lane) : Lane.form.Rereads lane lane :=
  Form.rereads_named Lane.ofName?_name lane

theorem Role.rereads (role : Role) : Role.form.Rereads role role :=
  Form.rereads_named Role.ofName?_name role

theorem AuditAction.rereads (action : AuditAction) : AuditAction.form.Rereads action action :=
  Form.rereads_named (by intro action; cases action <;> decide) action

theorem ErrorKind.rereads (kind : ErrorKind) : ErrorKind.form.Rereads kind kind :=
  Form.rereads_named (by intro kind; cases kind <;> decide) kind

theorem MoveRequest.rereads (r : MoveRequest) : MoveRequest.form.Rereads r r where
  isPlain := by
    apply isPlain_record
    simp only [List.forall_mem_cons]
    exact ⟨(Form.rereads_workspaceId _).isPlain, (Form.rereads_taskId _).isPlain, (Form.rereads_actorId _).isPlain,
      (Form.rereads_text _).isPlain, (Form.rereads_optional_taskId _).isPlain, (Form.rereads_optional_taskId _).isPlain,
      by simp⟩
  read?_write := by
    unfold form
    dsimp only
    rw [parts?_record (by decide) rfl]
    simp only [List.map_cons, List.map_nil, Option.bind_eq_bind, Option.bind_some, Form.required?, Form.ifGiven?,
      (Form.rereads_workspaceId _).read?_write, (Form.rereads_taskId _).read?_write,
      (Form.rereads_actorId _).read?_write, (Form.rereads_text _).read?_write,
      (Form.rereads_optional_taskId _).read?_write]
    rfl

theorem CreateRequest.rereads (r : CreateRequest) : CreateRequest.form.Rereads r r where
  isPlain := by
    apply isPlain_record
    simp only [List.forall_mem_cons]
    exact ⟨(Form.rereads_workspaceId _).isPlain, (Form.rereads_actorId _).isPlain, (Form.rereads_text _).isPlain,
      (Form.rereads_text _).isPlain, by simp⟩
  read?_write := by
    unfold form
    dsimp only
    rw [parts?_record (by decide) rfl]
    simp only [List.map_cons, List.map_nil, Option.bind_eq_bind, Option.bind_some, Form.required?,
      (Form.rereads_workspaceId _).read?_write, (Form.rereads_actorId _).read?_write, (Form.rereads_text _).read?_write]
    rfl

theorem RenormalizeRequest.rereads (r : RenormalizeRequest) : RenormalizeRequest.form.Rereads r r where
  isPlain := by
    apply isPlain_record
    simp only [List.forall_mem_cons]
    exact ⟨(Form.rereads_workspaceId _).isPlain, (Form.rereads_actorId _).isPlain, (Form.rereads_text _).isPlain, by simp⟩
  read?_write := by
    unfold form
    dsimp only
    rw [parts?_record (by decide) rfl]
    simp only [List.map_cons, List.map_nil, Option.bind_eq_bind, Option.bind_some, Form.required?,
      (Form.rereads_workspaceId _).read?_write, (Form.rereads_actorId _).read?_write, (Form.rereads_text _).read?_write]
    rfl

theorem requests_faithful :
    MoveRequest.form.Faithful ∧ CreateRequest.form.Faithful ∧ RenormalizeRequest.form.Faithful
      ∧ Form.taskId.Faithful ∧ Form.timestamp.FaithfulOn Timestamp.IsRegular
      ∧ Lane.form.Faithful ∧ Role.form.Faithful ∧ AuditAction.form.Faithful ∧ ErrorKind.form.Faithful :=
  ⟨Form.faithful_of_rereads MoveRequest.rereads, Form.faithful_of_rereads CreateRequest.rereads,
    Form.faithful_of_rereads RenormalizeRequest.rereads, Form.faithful_of_rereads Form.rereads_taskId,
    Form.faithful_timestamp, Form.faithful_of_rereads Lane.rereads,
    Form.faithful_of_rereads Role.rereads, Form.faithful_of_rereads AuditAction.rereads,
    Form.faithful_of_rereads ErrorKind.rereads⟩

end LaneOrder
