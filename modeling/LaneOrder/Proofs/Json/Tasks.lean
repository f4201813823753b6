import LaneOrder.Proofs.Json.Requests
import LaneOrder.Proofs.Json.WholeNumber
import LaneOrder.Proofs.Sample

/-!
This module contains what becomes of tasks in documents. A task that is written, be it alone or as the result of a command, is
always read again, and all of it is as before except for the last bits of its position and for leap seconds in the middle of a
minute.
-/

namespace LaneOrder

open Json

theorem Json.Form.rereads_binary64 {x : Binary64} (hx : x.isFinite = true) : Form.binary64.Rereads x x.reread where
  isPlain := by
    show (Binary64.toJson x).IsPlain
    unfold Binary64.toJson
    rw [if_pos hx]
    exact .number (Binary64.isPlain_toNumeral hx)
  read?_write := by
    unfold Form.binary64 Binary64.toJson
    dsimp only
    rw [if_pos hx]
    exact (Binary64.toBinary64?_toNumeral hx).1

/-- The task that is read from the text of a task. -/
def Task.reread (t : Task) : Task :=
  { t with
    position := t.position.reread
    createdAt := t.createdAt.reread
    updatedAt := t.updatedAt.reread
    deletedAt := t.deletedAt.map Timestamp.reread }

theorem Task.rereads {t : Task} (h : t.position.isFinite = true) : Task.form.Rereads t t.reread where
  isPlain := by
    apply isPlain_record
    simp only [List.forall_mem_cons]
    exact ⟨(Form.rereads_taskId _).isPlain, (Form.rereads_workspaceId _).isPlain, (Form.rereads_text _).isPlain,
      (Lane.rereads _).isPlain, (Form.rereads_binary64 h).isPlain, (Form.rereads_timestamp _).isPlain,
      (Form.rereads_timestamp _).isPlain, (Form.rereads_optional_timestamp _).isPlain, by simp⟩
  read?_write := by
    unfold form
    dsimp only
    rw [parts?_record (by decide) rfl]
    simp only [List.map_cons, List.map_nil, Option.bind_eq_bind, Option.bind_some, Form.required?, Form.ifGiven?,
      (Form.rereads_taskId _).read?_write, (Form.rereads_workspaceId _).read?_write, (Form.rereads_text _).read?_write,
      (Lane.rereads _).read?_write, (Form.rereads_binary64 h).read?_write, (Form.rereads_timestamp _).read?_write,
      (Form.rereads_optional_timestamp _).read?_write]
    rfl

theorem MoveOutcome.rereads {o : MoveOutcome} (h : o.task.position.isFinite = true) :
    MoveOutcome.form.Rereads o { o with task := o.task.reread } where
  isPlain := by
    apply isPlain_record
    simp only [List.forall_mem_cons]
    exact ⟨(Task.rereads h).isPlain, (Form.rereads_flag _).isPlain, by simp⟩
  read?_write := by
    unfold form
    dsimp only
    rw [parts?_record (by decide) rfl]
    simp only [List.map_cons, List.map_nil, Option.bind_eq_bind, Option.bind_some, Form.required?,
      (Task.rereads h).read?_write, (Form.rereads_flag _).read?_write]
    rfl

theorem RenormalizeOutcome.rereads {o : RenormalizeOutcome} (h : ∀ t ∈ o.tasks, t.position.isFinite = true) :
    RenormalizeOutcome.form.Rereads o { o with tasks := o.tasks.map Task.reread } where
  isPlain := by
    apply isPlain_record
    simp only [List.forall_mem_cons]
    exact ⟨(Lane.rereads _).isPlain, (Form.Rereads.list fun t ht => Task.rereads (h t ht)).isPlain, by simp⟩
  read?_write := by
    unfold form
    dsimp only
    rw [parts?_record (by decide) rfl]
    simp only [List.map_cons, List.map_nil, Option.bind_eq_bind, Option.bind_some, Form.required?,
      (Lane.rereads _).read?_write, (Form.Rereads.list fun t ht => Task.rereads (h t ht)).read?_write]
    rfl

/-- Tasks with finite positions are read from their texts, and nothing but the positions and the times may have changed. A
position moves by few places at most, and whole positions do not move as long as they are not very large. A time changes only if
it is a leap second that does not stand at the end of a minute. -/
theorem tasks_read_again :
    (∀ t : Task, t.position.isFinite = true →
        Task.form.parse? (Task.form.render t) = some t.reread ∧ t.position.Resembles t.reread.position)
      ∧ (∀ o : MoveOutcome, o.task.position.isFinite = true →
        MoveOutcome.form.parse? (MoveOutcome.form.render o) = some { o with task := o.task.reread })
      ∧ (∀ o : RenormalizeOutcome, (∀ t ∈ o.tasks, t.position.isFinite = true) →
        RenormalizeOutcome.form.parse? (RenormalizeOutcome.form.render o) = some { o with tasks := o.tasks.map Task.reread })
      ∧ (∀ n, 10 * n < 2 ^ 53 → (Binary64.ofNat n).reread = Binary64.ofNat n)
      ∧ ∀ t : Timestamp, t.reread = t ↔ t.IsRegular :=
  ⟨fun _ h => ⟨(Task.rereads h).parse?_render, (Binary64.toBinary64?_toNumeral h).2⟩,
    fun _ h => (MoveOutcome.rereads h).parse?_render, fun _ h => (RenormalizeOutcome.rereads h).parse?_render,
    fun _ => Binary64.reread_ofNat, Timestamp.reread_eq_self_iff⟩

namespace Sample

/-- A task at the end of sixteen bisections towards 1000, after a leap second. -/
def bisected : Task where
  id := id 1
  workspace
  title := "\"\u2028\n"
  lane := .inProgress
  position := .ofWord 0x408f401f40000000
  createdAt := ⟨1483228799, 1500000000, by decide, by decide⟩
  updatedAt := ⟨-8334601228800, 1, by decide, by decide⟩
  deletedAt := some .epoch

def rounded : Binary64 :=
  .ofWord 0x408f401f3fffffff

theorem reread_bisected : bisected.reread = { bisected with position := rounded } := by
  have hposition : bisected.position.reread = rounded := by decide +kernel
  unfold Task.reread
  rw [hposition, Timestamp.reread_of_isRegular (by decide), Timestamp.reread_of_isRegular (by decide)]
  rfl

/-- A task that was created in a leap second after the second 58 of a minute. -/
def early : Task :=
  { bisected with position := .ofWord 0x408f400000000000, createdAt := ⟨1483228798, 1500000000, by decide, by decide⟩ }

end Sample

theorem tasks_read_again_bisected :
    Task.form.parse? (Task.form.render Sample.bisected) = some { Sample.bisected with position := Sample.rounded }
      ∧ MoveOutcome.form.parse? (MoveOutcome.form.render ⟨Sample.bisected, true⟩)
        = some ⟨{ Sample.bisected with position := Sample.rounded }, true⟩
      ∧ RenormalizeOutcome.form.parse? (RenormalizeOutcome.form.render ⟨.todo, [Sample.bisected]⟩)
        = some ⟨.todo, [{ Sample.bisected with position := Sample.rounded }]⟩
      ∧ (Binary64.ofNat 900719925474099).reread = .ofNat 900719925474099
      ∧ Sample.bisected.createdAt.reread = Sample.bisected.createdAt := by
  rw [← Sample.reread_bisected]
  exact ⟨(tasks_read_again.1 Sample.bisected (by decide)).1, tasks_read_again.2.1 ⟨Sample.bisected, true⟩ (by decide),
    tasks_read_again.2.2.1 ⟨.todo, [Sample.bisected]⟩ (List.forall_mem_singleton.mpr (by decide)),
    tasks_read_again.2.2.2.1 _ (by decide), (tasks_read_again.2.2.2.2 _).2 (by decide)⟩

/-- The position of a task may change in its text, and so may a leap second in the middle of a minute. -/
theorem bisected_task_changes :
    (Sample.bisected.position.isFinite = true
        ∧ Task.form.parse? (Task.form.render Sample.bisected) ≠ some Sample.bisected)
      ∧ Sample.early.position.isFinite = true
        ∧ Task.form.parse? (Task.form.render Sample.early) ≠ some Sample.early := by
  refine ⟨⟨by decide, ?_⟩, by decide, ?_⟩
  . rw [(Task.rereads (by decide)).parse?_render, Sample.reread_bisected]
    intro h
    exact absurd (congrArg Task.position (Option.some.inj h)) (by decide)
  . rw [(Task.rereads (by decide)).parse?_render]
    intro h
    exact absurd (congrArg (·.createdAt.nanos) (Option.some.inj h)) (by decide)

end LaneOrder
