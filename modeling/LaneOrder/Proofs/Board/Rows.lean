import LaneOrder.Board.Rows
import LaneOrder.Proofs.Sort
import Mathlib.Data.List.Nodup

/-!
This module contains what is known of the rows of a board: which rows there are after a change, how they are
ordered, and what the nearest row on one side of a position says about the rows on this side.
-/

namespace LaneOrder

variable {α : Type}

namespace Task

theorem visualLe_iff {a b : Task} :
    a.visualLe b = true ↔ a.position.totalRank < b.position.totalRank
      ∨ a.position.totalRank = b.position.totalRank ∧ ¬ b.id < a.id := by
  unfold visualLe
  simp

theorem visualLe_total (a b : Task) : a.visualLe b = true ∨ b.visualLe a = true := by
  simp only [visualLe_iff, TaskId.lt_iff]
  omega

theorem visualLe_trans (a b c : Task) (hab : a.visualLe b = true) (hbc : b.visualLe c = true) :
    a.visualLe c = true := by
  simp only [visualLe_iff, TaskId.lt_iff] at *
  omega

theorem id_eq_of_visualLe {a b : Task} (hab : a.visualLe b = true) (hba : b.visualLe a = true) :
    a.id = b.id := by
  simp only [visualLe_iff, TaskId.lt_iff] at *
  apply TaskId.eq_of_value_eq
  omega

theorem rank_le_of_visualLe {a b : Task} (h : a.visualLe b = true) :
    a.position.rank ≤ b.position.rank := by
  apply Binary64.rank_le_rank_of_totalRank_le
  rw [visualLe_iff] at h
  omega

theorem not_lt_of_visualLe {a b : Task} (h : a.visualLe b = true) : ¬ b.position < a.position := by
  have hle := rank_le_of_visualLe h
  rw [Binary64.lt_iff]
  omega

theorem isInLane_iff {t : Task} {workspace : WorkspaceId} {lane : Lane} :
    t.isInLane workspace lane = true ↔ t.isLive = true ∧ t.workspace = workspace ∧ t.lane = lane := by
  simp [isInLane, isIn, and_assoc]

theorem isIn_iff {t : Task} {workspace : WorkspaceId} :
    t.isIn workspace = true ↔ t.isLive = true ∧ t.workspace = workspace := by
  simp [isIn]

end Task

theorem least?_eq_none {le : α → α → Bool} {xs : List α} : least? le xs = none ↔ xs = [] := by
  cases xs with
  | nil => simp [least?]
  | cons x xs =>
    unfold least?
    split <;> simp

theorem greatest?_eq_none {le : α → α → Bool} {xs : List α} : greatest? le xs = none ↔ xs = [] := by
  cases xs with
  | nil => simp [greatest?]
  | cons x xs =>
    unfold greatest?
    split <;> simp

section Extremes

variable {le : α → α → Bool} (total : ∀ a b, le a b = true ∨ le b a = true)
  (trans : ∀ a b c, le a b = true → le b c = true → le a c = true)

include total trans

theorem least?_eq_some {xs : List α} {x : α} (h : least? le xs = some x) :
    x ∈ xs ∧ ∀ y ∈ xs, le x y = true := by
  induction xs generalizing x with
  | nil => simp [least?] at h
  | cons z zs ih =>
    have hz : le z z = true := (total z z).elim id id
    unfold least? at h
    split at h
    . next hnone =>
      cases h
      simp [least?_eq_none.1 hnone, hz]
    . next y hsome =>
      obtain ⟨hy, hall⟩ := ih hsome
      cases h
      split
      . next hle =>
        refine ⟨List.mem_cons_self, ?_⟩
        intro w hw
        rcases List.mem_cons.1 hw with rfl | hw
        . exact hz
        . exact trans z y w hle (hall w hw)
      . next hle =>
        refine ⟨List.mem_cons_of_mem _ hy, ?_⟩
        intro w hw
        rcases List.mem_cons.1 hw with rfl | hw
        . exact (total w y).resolve_left hle
        . exact hall w hw

theorem greatest?_eq_some {xs : List α} {x : α} (h : greatest? le xs = some x) :
    x ∈ xs ∧ ∀ y ∈ xs, le y x = true := by
  induction xs generalizing x with
  | nil => simp [greatest?] at h
  | cons z zs ih =>
    have hz : le z z = true := (total z z).elim id id
    unfold greatest? at h
    split at h
    . next hnone =>
      cases h
      simp [greatest?_eq_none.1 hnone, hz]
    . next y hsome =>
      obtain ⟨hy, hall⟩ := ih hsome
      cases h
      split
      . next hle =>
        refine ⟨List.mem_cons_of_mem _ hy, ?_⟩
        intro w hw
        rcases List.mem_cons.1 hw with rfl | hw
        . exact hle
        . exact hall w hw
      . next hle =>
        refine ⟨List.mem_cons_self, ?_⟩
        intro w hw
        rcases List.mem_cons.1 hw with rfl | hw
        . exact hz
        . exact trans w y z (hall w hw) ((total z y).resolve_left hle)

end Extremes

namespace Rows

variable {r r' : Rows} {t : Task} {id : TaskId} {workspace : WorkspaceId} {lane : Lane}

theorem eq_of_id_eq {a b : Task} (ha : a ∈ r.tasks) (hb : b ∈ r.tasks) (h : a.id = b.id) : a = b :=
  List.inj_on_of_nodup_map r.nodup ha hb h

theorem find?_eq_some : r.find? id = some t ↔ t ∈ r.tasks ∧ t.id = id := by
  unfold find?
  constructor
  . intro h
    exact ⟨List.mem_of_find?_eq_some h, by simpa using List.find?_some h⟩
  . rintro ⟨hmem, hid⟩
    cases hfind : r.tasks.find? (fun t => decide (t.id = id)) with
    | none =>
      have := List.find?_eq_none.1 hfind t hmem
      simp [hid] at this
    | some u =>
      have hu : u.id = id := by simpa using List.find?_some hfind
      rw [eq_of_id_eq (List.mem_of_find?_eq_some hfind) hmem (hu.trans hid.symm)]

theorem find?_map {f : Task → Task} {hf : ∀ t, (f t).id = t.id} :
    (r.map f hf).find? id = (r.find? id).map f := by
  unfold find? map
  rw [List.find?_map]
  have : ((fun t : Task => decide (t.id = id)) ∘ f) = fun t => decide (t.id = id) := by
    funext t
    simp [hf]
  rw [this]

theorem insert?_eq_some (h : r.insert? t = some r') :
    r'.tasks = r.tasks ++ [t] ∧ ∀ u ∈ r.tasks, u.id ≠ t.id := by
  unfold insert? at h
  split at h
  . simp at h
  . next hid =>
    cases h
    refine ⟨rfl, ?_⟩
    intro u hu heq
    exact hid (heq ▸ List.mem_map_of_mem hu)

theorem find?_insert (h : r.insert? t = some r') {u : Task} (hu : r.find? id = some u) :
    r'.find? id = some u := by
  rw [find?_eq_some] at *
  rw [(insert?_eq_some h).1]
  exact ⟨List.mem_append_left _ hu.1, hu.2⟩

theorem find?_of_insert (h : r.insert? t = some r') : r.find? t.id = none := by
  cases hfind : r.find? t.id with
  | none => rfl
  | some u =>
    obtain ⟨hu, hid⟩ := find?_eq_some.1 hfind
    exact absurd hid ((insert?_eq_some h).2 u hu)

@[simp]
theorem mem_lane : t ∈ r.lane workspace lane ↔ t ∈ r.tasks ∧ t.isInLane workspace lane = true := by
  unfold Rows.lane
  simp

theorem mem_own_lane (ht : t ∈ r.tasks) (hlive : t.isLive = true) : t ∈ r.lane t.workspace t.lane :=
  mem_lane.2 ⟨ht, Task.isInLane_iff.2 ⟨hlive, rfl, rfl⟩⟩

theorem mem_lane_insert (h : r.insert? t = some r') (hlive : t.isLive = true) {u : Task} :
    u ∈ r'.lane workspace lane ↔ u ∈ r.lane workspace lane ∨ u = t ∧ workspace = t.workspace ∧ lane = t.lane := by
  rw [mem_lane, mem_lane, (insert?_eq_some h).1, List.mem_append, List.mem_singleton]
  constructor
  . rintro ⟨hu | rfl, hin⟩
    . exact .inl ⟨hu, hin⟩
    . obtain ⟨_, hworkspace, hlane⟩ := Task.isInLane_iff.1 hin
      exact .inr ⟨rfl, hworkspace.symm, hlane.symm⟩
  . rintro (⟨hu, hin⟩ | ⟨rfl, rfl, rfl⟩)
    . exact ⟨.inl hu, hin⟩
    . exact ⟨.inr rfl, Task.isInLane_iff.2 ⟨hlive, rfl, rfl⟩⟩

@[simp]
theorem mem_list : t ∈ r.list workspace lane ↔ t ∈ r.tasks ∧ t.isInLane workspace lane = true := by
  unfold list
  simp

theorem nodup_lane : ((r.lane workspace lane).map (·.id)).Nodup :=
  r.nodup.sublist (List.filter_sublist.map _)

theorem nodup_list : ((r.list workspace lane).map (·.id)).Nodup := by
  unfold list
  exact ((sortBy_perm _ _).map _).nodup_iff.2 nodup_lane

theorem pairwise_list : (r.list workspace lane).Pairwise (·.visualLe · = true) :=
  pairwise_sortBy Task.visualLe_total Task.visualLe_trans _

theorem mem_laneIds : id ∈ r.laneIds workspace lane ↔ ∃ t ∈ r.lane workspace lane, t.id = id := by
  unfold laneIds
  simp only [mem_sortBy, List.mem_map]

theorem pairwise_laneIds : (r.laneIds workspace lane).Pairwise (· < ·) := by
  have htotal : ∀ a b : TaskId, (!decide (b < a)) = true ∨ (!decide (a < b)) = true := by
    intro a b
    simp only [Bool.not_eq_true', decide_eq_false_iff_not, TaskId.lt_iff]
    omega
  have htrans : ∀ a b c : TaskId, (!decide (b < a)) = true → (!decide (c < b)) = true →
      (!decide (c < a)) = true := by
    intro a b c
    simp only [Bool.not_eq_true', decide_eq_false_iff_not, TaskId.lt_iff]
    omega
  have hsorted := pairwise_sortBy htotal htrans ((r.lane workspace lane).map (·.id))
  have hnodup : (r.laneIds workspace lane).Nodup := by
    unfold laneIds
    exact (sortBy_perm _ _).nodup_iff.2 nodup_lane
  apply (hsorted.and hnodup).imp
  rintro a b ⟨hle, hne⟩
  simp only [Bool.not_eq_true', decide_eq_false_iff_not] at hle
  rcases TaskId.lt_trichotomy a b with hlt | rfl | hgt
  . exact hlt
  . exact absurd rfl hne
  . exact absurd hgt hle

/-- What is chosen of the rows on one side is a neighbor, and no other row is closer. -/
theorem neighbor_of_choose {wanted : Task → Bool} {le : Task → Task → Bool} {choose : List Task → Option Task}
    {n : Option Neighbor} (hnone : ∀ xs, choose xs = none → xs = [])
    (hsome : ∀ xs x, choose xs = some x → x ∈ xs ∧ ∀ y ∈ xs, le x y = true)
    (h : (choose (((r.lane workspace lane).filter (·.id ≠ id)).filter wanted)).map Task.toNeighbor = n) :
    (n = none → ∀ t ∈ r.lane workspace lane, t.id ≠ id → ¬ wanted t = true)
      ∧ ∀ m, n = some m → ∃ u ∈ r.lane workspace lane, u.id ≠ id ∧ wanted u = true ∧ u.toNeighbor = m
        ∧ ∀ t ∈ r.lane workspace lane, t.id ≠ id → wanted t = true → le u t = true := by
  constructor
  . rintro rfl t ht hid hwanted
    have hempty := hnone _ (Option.map_eq_none_iff.1 h)
    rw [List.filter_filter, List.filter_eq_nil_iff] at hempty
    exact hempty t ht (by simp [hid, hwanted])
  . rintro m rfl
    obtain ⟨u, hchosen, rfl⟩ := Option.map_eq_some_iff.1 h
    obtain ⟨hu, hall⟩ := hsome _ u hchosen
    simp only [List.mem_filter, decide_eq_true_eq] at hu hall
    exact ⟨u, hu.1.1, hu.1.2, hu.2, rfl, fun t ht hid hwanted => hall t ⟨⟨ht, hid⟩, hwanted⟩⟩

theorem adjacent?_above {pivot : Position} {n : Option Neighbor}
    (h : r.adjacent? workspace lane pivot .above id = n) :
    match n with
    | none => ∀ t ∈ r.lane workspace lane, t.id ≠ id → ¬ pivot < t.position
    | some n => (∃ t ∈ r.lane workspace lane, t.id ≠ id ∧ pivot < t.position ∧ t.toNeighbor = n)
        ∧ ∀ t ∈ r.lane workspace lane, t.id ≠ id → pivot < t.position → ¬ t.position < n.position := by
  have hchosen := neighbor_of_choose (fun _ => least?_eq_none.1)
    (fun _ _ => least?_eq_some Task.visualLe_total Task.visualLe_trans) h
  cases n with
  | none => simpa using hchosen.1 rfl
  | some n =>
    obtain ⟨u, hu, hid, hwanted, rfl, hall⟩ := hchosen.2 n rfl
    refine ⟨⟨u, hu, hid, by simpa using hwanted, rfl⟩, ?_⟩
    intro t ht hid' hlt
    exact Task.not_lt_of_visualLe (hall t ht hid' (by simpa using hlt))

theorem adjacent?_below {pivot : Position} {n : Option Neighbor}
    (h : r.adjacent? workspace lane pivot .below id = n) :
    match n with
    | none => ∀ t ∈ r.lane workspace lane, t.id ≠ id → ¬ t.position < pivot
    | some n => (∃ t ∈ r.lane workspace lane, t.id ≠ id ∧ t.position < pivot ∧ t.toNeighbor = n)
        ∧ ∀ t ∈ r.lane workspace lane, t.id ≠ id → t.position < pivot → ¬ n.position < t.position := by
  have hchosen := neighbor_of_choose (fun _ => greatest?_eq_none.1)
    (fun _ _ => greatest?_eq_some Task.visualLe_total Task.visualLe_trans) h
  cases n with
  | none => simpa using hchosen.1 rfl
  | some n =>
    obtain ⟨u, hu, hid, hwanted, rfl, hall⟩ := hchosen.2 n rfl
    refine ⟨⟨u, hu, hid, by simpa using hwanted, rfl⟩, ?_⟩
    intro t ht hid' hlt
    exact Task.not_lt_of_visualLe (hall t ht hid' (by simpa using hlt))

end Rows

end LaneOrder
