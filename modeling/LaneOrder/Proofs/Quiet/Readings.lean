import LaneOrder.Proofs.Quiet.Elsewhere

/-!
This module contains that all readings of a lane agree. The list of a lane is in visual order, the nearest row on one side of
a position is found by going through this list, and the greatest position is the one of the last row in it.
-/

namespace LaneOrder

open Board

section Extremes

variable {α : Type} {le : α → α → Bool} {xs : List α}

theorem least?_of_pairwise (h : xs.Pairwise (le · · = true)) : least? le xs = xs.head? := by
  induction xs with
  | nil => rfl
  | cons x xs ih =>
    obtain ⟨hx, hxs⟩ := List.pairwise_cons.1 h
    unfold least?
    rw [ih hxs]
    cases xs with
    | nil => rfl
    | cons y ys => simp [hx y List.mem_cons_self]

theorem greatest?_of_pairwise (h : xs.Pairwise (le · · = true)) : greatest? le xs = xs.getLast? := by
  induction xs with
  | nil => rfl
  | cons x xs ih =>
    obtain ⟨hx, hxs⟩ := List.pairwise_cons.1 h
    unfold greatest?
    rw [ih hxs, List.getLast?_cons]
    cases hlast : xs.getLast? with
    | none => rfl
    | some y => simp [hx y (List.mem_of_getLast? hlast)]

end Extremes

/-- The visual order of different rows. -/
def Task.VisualLt (a b : Task) : Prop :=
  a.position.totalRank < b.position.totalRank ∨ a.position.totalRank = b.position.totalRank ∧ a.id < b.id

theorem Task.visualLt_of_visualLe {a b : Task} (hle : a.visualLe b = true) (hid : a.id ≠ b.id) : a.VisualLt b := by
  rcases visualLe_iff.1 hle with hlt | ⟨heq, hle⟩
  . exact .inl hlt
  . rcases TaskId.lt_trichotomy a.id b.id with hlt | hsame | hgt
    . exact .inr ⟨heq, hlt⟩
    . exact absurd hsame hid
    . exact absurd hgt hle

/-- The row that comes first above a position, or last below it, if the rows are given in visual order. -/
def nearest? (ts : List Task) (pivot : Position) (direction : Direction) (exclude : TaskId) : Option Task :=
  match direction with
  | .above => ts.find? fun t => t.id ≠ exclude ∧ pivot < t.position
  | .below => ts.reverse.find? fun t => t.id ≠ exclude ∧ t.position < pivot

namespace Rows

variable {r r' : Rows} {workspace : WorkspaceId} {lane : Lane}

theorem pairwise_visualLt_list : (r.list workspace lane).Pairwise Task.VisualLt := by
  have hnodup : ((r.list workspace lane).map (·.id)).Nodup := nodup_list
  rw [List.Nodup, List.pairwise_map] at hnodup
  apply (pairwise_list.and hnodup).imp
  rintro a b ⟨hle, hid⟩
  exact Task.visualLt_of_visualLe hle hid

theorem list_of_perm (h : r'.tasks.Perm r.tasks) : r'.list workspace lane = r.list workspace lane := by
  apply list_congr
  intro t
  rw [mem_lane, mem_lane, h.mem_iff]

theorem adjacent?_eq_nearest? {pivot : Position} {direction : Direction} {exclude : TaskId} :
    r.adjacent? workspace lane pivot direction exclude
      = (nearest? (r.list workspace lane) pivot direction exclude).map Task.toNeighbor := by
  have hmem : ∀ wanted : Task → Bool, ∀ t, t ∈ ((r.lane workspace lane).filter (·.id ≠ exclude)).filter wanted
      ↔ t ∈ (r.list workspace lane).filter fun t => t.id ≠ exclude ∧ wanted t := by
    intro wanted t
    simp [and_assoc, and_comm (a := wanted t = true)]
  unfold adjacent? nearest?
  cases direction with
  | above =>
    dsimp only
    rw [extreme_congr (fun _ => least?_eq_none) (fun _ _ => least?_eq_some Task.visualLe_total Task.visualLe_trans)
      (fun _ _ => Task.id_eq_of_visualLe) inj_others (hmem _)]
    rw [least?_of_pairwise (pairwise_list.filter _), List.head?_filter]
    simp
  | below =>
    dsimp only
    rw [extreme_congr (fun _ => greatest?_eq_none)
      (fun _ _ => greatest?_eq_some Task.visualLe_total Task.visualLe_trans)
      (fun _ _ hab hba => Task.id_eq_of_visualLe hba hab) inj_others (hmem _)]
    rw [greatest?_of_pairwise (pairwise_list.filter _), List.getLast?_filter]
    simp

theorem exists_greatest {t : Task} (ht : t ∈ r.lane workspace lane) :
    ∃ u ∈ r.lane workspace lane, u.position = r.greatest workspace lane := by
  obtain ⟨x, xs, hcons, hgreatest⟩ := greatest_of_mem ht
  apply List.mem_map.1
  rw [hcons, hgreatest]
  exact Binary64.mem_foldl_max

theorem greatest_of_nil (h : r.list workspace lane = []) : r.greatest workspace lane = .ofNat 0 := by
  have hlane : r.lane workspace lane = [] := by
    rw [List.eq_nil_iff_forall_not_mem]
    intro t ht
    rw [mem_lane, ← mem_list, h] at ht
    cases ht
  unfold greatest
  rw [hlane]
  rfl

theorem greatest_eq_last (hnumber : ∀ t ∈ r.list workspace lane, t.position.isNaN = false) {t : Task}
    (ht : (r.list workspace lane).getLast? = some t) :
    r.greatest workspace lane ≤ t.position ∧ t.position ≤ r.greatest workspace lane := by
  have hmem : ∀ {u}, u ∈ r.lane workspace lane ↔ u ∈ r.list workspace lane := by
    intro u
    rw [mem_lane, mem_list]
  have htmem := List.mem_of_getLast? ht
  obtain ⟨u, hu, hgreatest⟩ := exists_greatest (hmem.2 htmem)
  have hle : t.position.rank ≤ (r.greatest workspace lane).rank :=
    rank_le_greatest (fun v hv => hnumber v (hmem.1 hv)) (hmem.2 htmem)
  obtain ⟨ts, hts⟩ := List.getLast?_eq_some_iff.1 ht
  have hids : r.ids workspace lane = ts.map (·.id) ++ [t.id] := by
    unfold ids
    rw [hts, List.map_append, List.map_singleton]
  have hlast := visualLe_last hids (hmem.2 htmem) hu
  have hge := Task.rank_le_of_visualLe hlast
  have hgreatest_number := hnumber u (hmem.1 hu)
  rw [hgreatest] at hge hgreatest_number
  rw [Binary64.le_iff, Binary64.le_iff]
  exact ⟨⟨hgreatest_number, hnumber t htmem, hge⟩, hnumber t htmem, hgreatest_number, hle⟩

end Rows

namespace Board

/-- What a lane is read as: one list of its live rows, each of them once and in visual order, however the rows are kept. The
nearest rows of a transaction that has written nothing and the greatest position are those of the list. -/
theorem readings_agree (b : Board) (workspace : WorkspaceId) (lane : Lane) :
    ∃ ts : List Task,
      (∀ t, t ∈ ts ↔ t ∈ b.rows.tasks ∧ t.isLive = true ∧ t.workspace = workspace ∧ t.lane = lane)
        ∧ ts.Pairwise Task.VisualLt
        ∧ ∀ (b' : Board) (h : Holder) (replies : Replies), b'.rows.tasks.Perm b.rows.tasks →
          (Command.complete ⟨h, .call (.list workspace lane), replies⟩ b').answer = .tasks ts
            ∧ (b'.transaction? h = some {} → ∀ pivot direction exclude,
              (Command.complete ⟨h, .call (.adjacent workspace lane pivot direction exclude), replies⟩ b').answer
                = .neighbor ((nearest? ts pivot direction exclude).map Task.toNeighbor))
            ∧ ((∀ t ∈ ts, t.position.isNaN = false) →
              ∃ x, (Command.complete ⟨h, .call (.greatest workspace lane), replies⟩ b').answer = .position x
                ∧ (ts = [] → x = .ofNat 0) ∧ ∀ t, ts.getLast? = some t → x ≤ t.position ∧ t.position ≤ x) := by
  refine ⟨b.rows.list workspace lane, ?_, Rows.pairwise_visualLt_list, ?_⟩
  . intro t
    rw [Rows.mem_list, Task.isInLane_iff]
  . intro b' h replies hperm
    rw [← Rows.list_of_perm hperm]
    refine ⟨rfl, ?_, ?_⟩
    . intro htx pivot direction exclude
      have hview : b'.view h = b'.rows := by
        unfold view
        rw [htx]
        exact Rows.view_empty
      rw [← Rows.adjacent?_eq_nearest?, ← hview]
      rfl
    . intro hnumber
      exact ⟨b'.rows.greatest workspace lane, rfl, Rows.greatest_of_nil, fun t => Rows.greatest_eq_last hnumber⟩

end Board

section Sample

open Binary64 (zero)

def Sample.atNegativeZero (n : Nat) : Task :=
  { Sample.task n .todo 0 with position := -zero }

/-- A lane with zeros of both signs, and a task in another lane. -/
def Sample.zeros : Rows where
  tasks := [Sample.atNegativeZero 3, Sample.task 2 .todo 0, Sample.atNegativeZero 1, Sample.task 4 .done 7]
  nodup := show [Sample.id 3, Sample.id 2, Sample.id 1, Sample.id 4].Nodup by decide

/-- The same rows in another order, and a transaction that has written nothing. -/
def Sample.shuffled : Board where
  rows := ⟨[Sample.task 4 .done 7, Sample.atNegativeZero 3, Sample.task 2 .todo 0, Sample.atNegativeZero 1],
    show [Sample.id 4, Sample.id 3, Sample.id 2, Sample.id 1].Nodup by decide⟩
  transactions := [(0, {})]

/-- The greatest position is the negative zero that comes first, and the last row of the lane is at the positive one. -/
theorem Board.readings_agree_zeros : ∃ x : Position,
    (Command.complete ⟨0, .call (.list Sample.workspace .todo), Sample.steady.replies⟩ Sample.shuffled).answer
        = .tasks [Sample.atNegativeZero 1, Sample.atNegativeZero 3, Sample.task 2 .todo 0]
      ∧ (Command.complete ⟨0, .call (.adjacent Sample.workspace .todo (.ofNat 5) .below (Sample.id 2)),
        Sample.steady.replies⟩ Sample.shuffled).answer = .neighbor (some ⟨Sample.id 3, -zero⟩)
      ∧ (Command.complete ⟨0, .call (.greatest Sample.workspace .todo), Sample.steady.replies⟩ Sample.shuffled).answer
        = .position x
      ∧ x ≤ zero ∧ zero ≤ x ∧ x = -zero := by
  obtain ⟨ts, -, -, hreadings⟩ := readings_agree (Sample.board Sample.zeros) Sample.workspace .todo
  have hperm : Sample.shuffled.rows.tasks.Perm (Sample.board Sample.zeros).rows.tasks := by decide +kernel
  obtain ⟨hlist, hadjacent, hgreatest⟩ := hreadings Sample.shuffled 0 Sample.steady.replies hperm
  have hts : ts = [Sample.atNegativeZero 1, Sample.atNegativeZero 3, Sample.task 2 .todo 0] := by
    apply Answer.tasks.inj
    rw [← hlist]
    show Answer.tasks (Sample.shuffled.rows.list Sample.workspace .todo) = _
    exact congrArg Answer.tasks (by decide +kernel)
  subst hts
  obtain ⟨x, hx, -, hlast⟩ := hgreatest (by decide +kernel)
  have hzero := hlast (Sample.task 2 .todo 0) rfl
  have hnegative : x = -zero := by
    apply Answer.position.inj
    rw [← hx]
    show Answer.position (Sample.shuffled.rows.greatest Sample.workspace .todo) = _
    exact congrArg Answer.position (by decide +kernel)
  refine ⟨x, hlist, ?_, hx, hzero.1, hzero.2, hnegative⟩
  rw [hadjacent rfl]
  exact congrArg Answer.neighbor (by decide +kernel)

end Sample

end LaneOrder
