import LaneOrder.Proofs.Board.Order
import LaneOrder.Proofs.Quiet.Move
import Mathlib.Data.List.Find
import Mathlib.Data.Option.Basic

/-!
This module contains moves that do not depend on where their target comes from. A move reads its target to know that it is
there, and the other rows of the lane to find a gap between them; the target is left out of that.
-/

namespace LaneOrder

open Board Program

section Extremes

variable {xs ys : List Task} {le : Task → Task → Bool} {extreme : List Task → Option Task}
  (hnone : ∀ xs, extreme xs = none ↔ xs = []) (hsome : ∀ xs x, extreme xs = some x → x ∈ xs ∧ ∀ y ∈ xs, le x y = true)
  (hanti : ∀ a b, le a b = true → le b a = true → a.id = b.id)

include hnone hsome hanti

/-- An extreme row depends on which rows there are, and not on the order in which they are kept. -/
theorem extreme_congr (hids : ∀ a ∈ xs, ∀ b ∈ xs, a.id = b.id → a = b) (hmem : ∀ t, t ∈ xs ↔ t ∈ ys) :
    extreme xs = extreme ys := by
  cases hxs : extreme xs with
  | none =>
    rw [hnone] at hxs
    have hnil : ys = [] := by
      rw [List.eq_nil_iff_forall_not_mem]
      intro t ht
      rw [← hmem, hxs] at ht
      cases ht
    exact ((hnone ys).2 hnil).symm
  | some x =>
    obtain ⟨hx, hall⟩ := hsome xs x hxs
    cases hys : extreme ys with
    | none =>
      rw [hnone] at hys
      rw [hmem, hys] at hx
      cases hx
    | some y =>
      obtain ⟨hy, hall'⟩ := hsome ys y hys
      have hyx := (hmem y).2 hy
      rw [hids x hx y hyx (hanti x y (hall y hyx) (hall' x ((hmem x).1 hx)))]

end Extremes

namespace Rows

/-- A lane has the same rows, apart from the one of a task. -/
def SameBut (r r' : Rows) (workspace : WorkspaceId) (lane : Lane) (id : TaskId) : Prop :=
  ∀ t, t.id ≠ id → (t ∈ r.lane workspace lane ↔ t ∈ r'.lane workspace lane)

variable {r r' : Rows} {workspace : WorkspaceId} {lane : Lane} {id : TaskId}

theorem inj_others {wanted : Task → Bool} : ∀ a ∈ ((r.lane workspace lane).filter (·.id ≠ id)).filter wanted,
    ∀ b ∈ ((r.lane workspace lane).filter (·.id ≠ id)).filter wanted, a.id = b.id → a = b := by
  intro a ha b hb
  simp only [List.mem_filter, mem_lane] at ha hb
  exact eq_of_id_eq ha.1.1.1 hb.1.1.1

theorem sameBut_of_find? (h : ∀ other, other ≠ id → r.find? other = r'.find? other) : r.SameBut r' workspace lane id := by
  intro t ht
  have hfind : t ∈ r.tasks ↔ t ∈ r'.tasks :=
    calc t ∈ r.tasks
      _ ↔ r.find? t.id = some t := by simp [find?_eq_some]
      _ ↔ r'.find? t.id = some t := by rw [h t.id ht]
      _ ↔ t ∈ r'.tasks := by simp [find?_eq_some]
  rw [mem_lane, mem_lane, hfind]

variable (h : r.SameBut r' workspace lane id)

include h

theorem SameBut.neighbor? {other : TaskId} (hother : other ≠ id) :
    r.neighbor? workspace lane other = r'.neighbor? workspace lane other := by
  ext t
  rw [neighbor?_eq_some, neighbor?_eq_some]
  constructor
  . rintro ⟨ht, rfl⟩
    exact ⟨(h t hother).1 ht, rfl⟩
  . rintro ⟨ht, rfl⟩
    exact ⟨(h t hother).2 ht, rfl⟩

theorem SameBut.adjacent? {pivot : Position} {direction : Direction} :
    r.adjacent? workspace lane pivot direction id = r'.adjacent? workspace lane pivot direction id := by
  have hmem : ∀ wanted : Task → Bool, ∀ t, t ∈ ((r.lane workspace lane).filter (·.id ≠ id)).filter wanted
      ↔ t ∈ ((r'.lane workspace lane).filter (·.id ≠ id)).filter wanted := by
    intro wanted t
    simp only [List.mem_filter, decide_eq_true_eq]
    constructor
    . rintro ⟨⟨ht, hid⟩, hwanted⟩
      exact ⟨⟨(h t hid).1 ht, hid⟩, hwanted⟩
    . rintro ⟨⟨ht, hid⟩, hwanted⟩
      exact ⟨⟨(h t hid).2 ht, hid⟩, hwanted⟩
  unfold Rows.adjacent?
  cases direction with
  | above =>
    dsimp only
    rw [extreme_congr (fun _ => least?_eq_none) (fun _ _ => least?_eq_some Task.visualLe_total Task.visualLe_trans)
      (fun _ _ => Task.id_eq_of_visualLe) inj_others (hmem _)]
  | below =>
    dsimp only
    rw [extreme_congr (fun _ => greatest?_eq_none)
      (fun _ _ => greatest?_eq_some Task.visualLe_total Task.visualLe_trans)
      (fun _ _ hab hba => Task.id_eq_of_visualLe hba hab) inj_others (hmem _)]

end Rows

namespace MoveRequest

variable {r : MoveRequest} {rows rows' : Rows} {lane : Lane}

theorem destination_congr (hr : r.anchorError? = none) (h : rows.SameBut rows' r.workspace lane r.task)
    (htarget : (rows.findIn? r.workspace r.task).isNone = (rows'.findIn? r.workspace r.task).isNone) :
    r.destination rows lane = r.destination rows' lane := by
  have hne : ∀ id, r.before = some id ∨ r.after = some id → id ≠ r.task := by
    rintro id hgiven rfl
    unfold anchorError? at hr
    rw [if_pos hgiven] at hr
    cases hr
  have habsent : r.absent? rows lane = r.absent? rows' lane := by
    apply List.find?_congr
    rintro ⟨id, role⟩ hstep
    have hnamed := LockPlan.mem_inOrder.1 hstep
    cases role with
    | target =>
      obtain rfl : id = r.task := by simpa using hnamed
      exact htarget
    | before => exact congrArg Option.isNone (h.neighbor? (hne id (.inl (by simpa [eq_comm] using hnamed))))
    | after => exact congrArg Option.isNone (h.neighbor? (hne id (.inr (by simpa [eq_comm] using hnamed))))
    | bound => simp at hnamed
  have hanchors : r.anchors rows lane = r.anchors rows' lane := by
    unfold anchors
    rw [Option.bind_congr fun id hid => h.neighbor? (hne id (.inl hid)),
      Option.bind_congr fun id hid => h.neighbor? (hne id (.inr hid))]
  unfold destination Rows.gap
  rw [habsent, hanchors, h.adjacent?]

theorem prospect_congr {role : Option Role}
    (h : ∀ lane, Lane.parse r.lane = .ok lane → rows.SameBut rows' r.workspace lane r.task)
    (htarget : (rows.findIn? r.workspace r.task).isNone = (rows'.findIn? r.workspace r.task).isNone) :
    r.prospect rows role = r.prospect rows' role := by
  unfold prospect
  cases hadmission : r.admission role with
  | error e => rfl
  | ok lane =>
    obtain ⟨hlane, hr⟩ := lane_of_admission hadmission
    dsimp only
    rw [destination_congr hr (h lane hlane) htarget]

/-- What a move can do does not depend on where its target has been put, as by the move itself. -/
theorem prospect_put_self {role : Option Role} {w : StagedWrite} {t : Task} (hw : w.id = r.task)
    (hrow : rows.findIn? r.workspace r.task = some t) : r.prospect (rows.put w) role = r.prospect rows role := by
  apply prospect_congr
  . intro lane _
    apply Rows.sameBut_of_find?
    intro other hother
    rw [Rows.find?_put, if_neg (hw ▸ Ne.symm hother)]
  . obtain ⟨id, position, lane, time⟩ := w
    obtain rfl : id = r.task := hw
    rw [Rows.findIn?_put hrow, hrow]
    rfl

end MoveRequest

/-- Two moves have the same outcome, apart from what their task was like before and from the time. -/
inductive MoveRequest.Agree (r : MoveRequest) (rows₁ rows₂ : Rows) (c₁ c₂ : Completed) : Prop where
  | refused (e : CommandError) (answer₁ : c₁.answer = .commandError e) (answer₂ : c₂.answer = .commandError e)
    (unchanged₁ : c₁.board.rows = rows₁) (unchanged₂ : c₂.board.rows = rows₂)
  | moved (lane : Lane) (position : Position) (exhausted : Bool) (t₁ t₂ : Task) (time₁ time₂ : Timestamp)
    (found₁ : rows₁.findIn? r.workspace r.task = some t₁) (found₂ : rows₂.findIn? r.workspace r.task = some t₂)
    (answer₁ : c₁.answer = .moved ⟨t₁.placed position lane time₁, exhausted⟩)
    (answer₂ : c₂.answer = .moved ⟨t₂.placed position lane time₂, exhausted⟩)
    (changed₁ : c₁.board.rows = rows₁.put ⟨r.task, position, lane, time₁⟩)
    (changed₂ : c₂.board.rows = rows₂.put ⟨r.task, position, lane, time₂⟩)

theorem Command.agree {b₁ b₂ : Board} {h₁ h₂ : Holder} (s₁ s₂ : Supply) {r : MoveRequest} (hb₁ : b₁.Undisturbed h₁)
    (hb₂ : b₂.Undisturbed h₂) (hs : s₁.allocator = s₂.allocator)
    (hr : r.prospect b₁.rows (b₁.role? r.actor r.workspace) = r.prospect b₂.rows (b₂.role? r.actor r.workspace)) :
    r.Agree b₁.rows b₂.rows (complete ⟨h₁, .move r, s₁.replies⟩ b₁) (complete ⟨h₂, .move r, s₂.replies⟩ b₂) := by
  cases hprospect : r.prospect b₁.rows (b₁.role? r.actor r.workspace) with
  | error e =>
    obtain ⟨hanswer₁, hrows₁, _⟩ := refused (s := s₁) hb₁ hprospect
    obtain ⟨hanswer₂, hrows₂, _⟩ := refused (s := s₂) hb₂ (hr.symm.trans hprospect)
    exact .refused e hanswer₁ hanswer₂ hrows₁ hrows₂
  | ok prospect =>
    obtain ⟨lane, gap⟩ := prospect
    obtain ⟨t₁, time₁, hrow₁, hanswer₁, hrows₁, _⟩ := moves (s := s₁) hb₁ hprospect
    obtain ⟨t₂, time₂, hrow₂, hanswer₂, hrows₂, _⟩ := moves (s := s₂) hb₂ (hr.symm.trans hprospect)
    rw [← hs] at hanswer₂ hrows₂
    exact .moved lane _ _ t₁ t₂ time₁ time₂ hrow₁ hrow₂ hanswer₁ hanswer₂ hrows₁ hrows₂

/-- Two boards differ only in one task of a workspace: in its title, and in where and when it was put. -/
structure Board.DifferAt (b₁ b₂ : Board) (id : TaskId) : Prop where
  roles : b₁.role? = b₂.role?
  others : ∀ other, other ≠ id → b₁.rows.find? other = b₂.rows.find? other
  target : ∃ workspace, (b₁.rows.findIn? workspace id).isSome = true ∧ (b₂.rows.findIn? workspace id).isSome = true

def Rows.key? (r : Rows) (id : TaskId) : Option (Lane × Position) :=
  (r.find? id).map fun t => (t.lane, t.position)

theorem Rows.key?_put_put {r : Rows} {id : TaskId} {position : Position} {lane : Lane} {time time' : Timestamp} :
    ((r.put ⟨id, position, lane, time⟩).put ⟨id, position, lane, time'⟩).key? = (r.put ⟨id, position, lane, time⟩).key? := by
  funext other
  unfold key?
  rw [find?_put, find?_put]
  by_cases hid : id = other
  . rw [if_pos hid, if_pos hid, Option.map_map, Option.map_map, Option.map_map]
    rfl
  . rw [if_neg hid, if_neg hid]

theorem Rows.isNone_findIn?_congr {r r' : Rows} {workspace workspace' : WorkspaceId} {id : TaskId} {t t' : Task}
    (h : r.findIn? workspace' id = some t) (h' : r'.findIn? workspace' id = some t') :
    (r.findIn? workspace id).isNone = (r'.findIn? workspace id).isNone := by
  obtain ⟨hfind, hin⟩ := Rows.findIn?_eq_some.1 h
  obtain ⟨hfind', hin'⟩ := Rows.findIn?_eq_some.1 h'
  obtain ⟨hlive, rfl⟩ := Task.isIn_iff.1 hin
  obtain ⟨hlive', hworkspace⟩ := Task.isIn_iff.1 hin'
  have hisIn : t.isIn workspace = t'.isIn workspace := by
    unfold Task.isIn
    rw [hlive, hlive', hworkspace]
  unfold findIn?
  rw [hfind, hfind', Option.filter_some, Option.filter_some, hisIn]
  split <;> rfl

/-- The position that a move chooses does not depend on where its target was. A move that is repeated changes nothing. -/
theorem Command.move_from_elsewhere {b₁ b₂ : Board} {h₁ h₂ : Holder} (s₁ s₂ : Supply) (r : MoveRequest)
    (hb₁ : b₁.Undisturbed h₁) (hb₂ : b₂.Undisturbed h₂) (hs : s₁.allocator = s₂.allocator)
    (hdiffer : b₁.DifferAt b₂ r.task) :
    let c₁ := Command.complete ⟨h₁, .move r, s₁.replies⟩ b₁
    let c₂ := Command.complete ⟨h₂, .move r, s₂.replies⟩ b₂
    ((∃ e, c₁.answer = .commandError e ∧ c₂.answer = .commandError e)
        ∨ ∃ o₁ o₂, c₁.answer = .moved o₁ ∧ c₂.answer = .moved o₂ ∧ o₁.task.position = o₂.task.position
          ∧ o₁.exhausted = o₂.exhausted)
      ∧ ∀ o h (s : Supply), c₁.answer = .moved o → s.allocator = s₁.allocator →
        let again := Command.complete ⟨h, .move r, s.replies⟩ c₁.board
        ∃ o', again.answer = .moved o' ∧ o'.task.position = o.task.position ∧ o'.exhausted = o.exhausted
          ∧ again.board.rows.key? = c₁.board.rows.key? := by
  intro c₁ c₂
  obtain ⟨workspace, hlive₁, hlive₂⟩ := hdiffer.target
  obtain ⟨t₁, hfound₁⟩ := Option.isSome_iff_exists.1 hlive₁
  obtain ⟨t₂, hfound₂⟩ := Option.isSome_iff_exists.1 hlive₂
  constructor
  . have hprospect : r.prospect b₁.rows (b₁.role? r.actor r.workspace)
        = r.prospect b₂.rows (b₂.role? r.actor r.workspace) := by
      rw [hdiffer.roles]
      apply MoveRequest.prospect_congr
      . exact fun lane _ => Rows.sameBut_of_find? hdiffer.others
      . exact Rows.isNone_findIn?_congr hfound₁ hfound₂
    cases Command.agree s₁ s₂ hb₁ hb₂ hs hprospect with
    | refused e hanswer₁ hanswer₂ => exact .inl ⟨e, hanswer₁, hanswer₂⟩
    | moved lane position exhausted _ _ time₁ time₂ _ _ hanswer₁ hanswer₂ =>
      exact .inr ⟨_, _, hanswer₁, hanswer₂, rfl, rfl⟩
  . intro o h s hanswer hallocator again
    -- the move has put nothing but its own target, which it does not look at
    cases hprospect : r.prospect b₁.rows (b₁.role? r.actor r.workspace) with
    | error e =>
      rw [show c₁.answer = _ from (refused hb₁ hprospect).1] at hanswer
      cases hanswer
    | ok prospect =>
      obtain ⟨lane, gap⟩ := prospect
      obtain ⟨t, time, hrow, hanswer', hrows, hroles, hidle, _⟩ := moves (s := s₁) hb₁ hprospect
      rw [show c₁.answer = _ from hanswer'] at hanswer
      cases hanswer
      have hagain : r.prospect c₁.board.rows (c₁.board.role? r.actor r.workspace) = .ok (lane, gap) := by
        rw [show c₁.board.role? = _ from hroles, show c₁.board.rows = _ from hrows, ← hprospect]
        exact MoveRequest.prospect_put_self rfl hrow
      obtain ⟨t', time', _, hanswer', hrows', _⟩ := moves (s := s) (undisturbed_of_idle hidle) hagain
      rw [hallocator] at hanswer' hrows'
      refine ⟨_, hanswer', rfl, rfl, ?_⟩
      rw [show again.board.rows = _ from hrows', show c₁.board.rows = _ from hrows]
      exact Rows.key?_put_put

section Sample

/-- The target of the move is in the gap that it goes to, or in another lane. -/
theorem Command.move_from_elsewhere_inside :
    (Sample.board (Sample.tied .done 1)).DifferAt (Sample.board (Sample.tied .todo 1500)) (Sample.id 2)
      ∧ ∃ o₁ o₂, (Command.complete ⟨0, .move Sample.below, Sample.steady.replies⟩
          (Sample.board (Sample.tied .done 1))).answer = .moved o₁
        ∧ (Command.complete ⟨0, .move Sample.below, Sample.steady.replies⟩
          (Sample.board (Sample.tied .todo 1500))).answer = .moved o₂
        ∧ o₁.task.position = o₂.task.position ∧ o₁.exhausted = o₂.exhausted := by
  have hb (lane : Lane) (position : Nat) : (Sample.board (Sample.tied lane position)).Undisturbed 0 :=
    undisturbed_of_idle LockTable.idle_empty
  have hdiffer : (Sample.board (Sample.tied .done 1)).DifferAt (Sample.board (Sample.tied .todo 1500)) (Sample.id 2) := by
    refine ⟨rfl, ?_, Sample.workspace, by decide +kernel, by decide +kernel⟩
    intro other hother
    have htarget (lane : Lane) (position : Nat) : (decide ((Sample.task 2 lane position).id = other)) = false :=
      decide_eq_false (Ne.symm hother)
    simp only [Sample.board, Sample.tied, Rows.find?, List.find?_cons, htarget]
  refine ⟨hdiffer, ?_⟩
  have hsucceeds : (Command.complete ⟨0, .move Sample.below, Sample.steady.replies⟩
      (Sample.board (Sample.tied .done 1))).answer.succeeds = true := by decide +kernel
  rcases (Command.move_from_elsewhere Sample.steady Sample.steady Sample.below (hb .done 1) (hb .todo 1500) rfl
    hdiffer).1 with ⟨e, hanswer, _⟩ | houtcomes
  . rw [hanswer] at hsucceeds
    cases hsucceeds
  . exact houtcomes

end Sample

end LaneOrder
