import LaneOrder.Proofs.Binary64.Order
import LaneOrder.Proofs.Board.Rows

/-!
This module contains the visual order of lists of rows. Rows with different identifiers stand in one order only, so a
list in visual order is known when its rows are.
-/

namespace LaneOrder

variable {xs ys : List Task} {a b : Task}

theorem Task.visualLe_of_rank_lt (h : a.position.rank < b.position.rank) : a.visualLe b = true := by
  rw [visualLe_iff]
  left
  unfold Binary64.rank at h
  unfold Binary64.totalRank
  split at h <;> split at h <;> simp_all <;> omega

theorem Task.not_visualLe_of_rank_lt (h : b.position.rank < a.position.rank) : a.visualLe b = false := by
  cases hle : a.visualLe b with
  | false => rfl
  | true =>
    have := rank_le_of_visualLe hle
    omega

@[simp]
theorem Task.visualLe_refl : a.visualLe a = true :=
  or_self_iff.1 (visualLe_total a a)

theorem Task.visualLe_eq_not (h : a.id ≠ b.id) : a.visualLe b = !b.visualLe a := by
  cases hab : a.visualLe b with
  | false =>
    have := (visualLe_total a b).resolve_left (by simp [hab])
    simp [this]
  | true =>
    cases hba : b.visualLe a with
    | false => rfl
    | true => exact absurd (id_eq_of_visualLe hab hba) h

theorem eq_of_pairwise_visualLe (hnodup : (xs.map (·.id)).Nodup) (hperm : xs.Perm ys)
    (hxs : xs.Pairwise (·.visualLe · = true)) (hys : ys.Pairwise (·.visualLe · = true)) : xs = ys := by
  apply List.Perm.eq_of_pairwise _ hxs hys hperm
  intro a b ha hb hab hba
  exact List.inj_on_of_nodup_map hnodup ha (hperm.mem_iff.2 hb) (Task.id_eq_of_visualLe hab hba)

theorem sortBy_eq_of_pairwise (hnodup : (xs.map (·.id)).Nodup) (hperm : xs.Perm ys)
    (hys : ys.Pairwise (·.visualLe · = true)) : sortBy Task.visualLe xs = ys := by
  have hsorted := sortBy_perm Task.visualLe xs
  apply eq_of_pairwise_visualLe _ (hsorted.trans hperm) _ hys
  . exact (hsorted.map _).nodup_iff.2 hnodup
  . exact pairwise_sortBy Task.visualLe_total Task.visualLe_trans xs

theorem visualLe_of_lt {i j : Nat} (hnodup : (xs.map (·.id)).Nodup) (hi : (sortBy Task.visualLe xs)[i]? = some a)
    (hj : (sortBy Task.visualLe xs)[j]? = some b) (hlt : i < j) : a.visualLe b = true ∧ b.visualLe a = false := by
  have hsorted := pairwise_sortBy Task.visualLe_total Task.visualLe_trans xs
  have hnodup' := ((sortBy_perm Task.visualLe xs).map (·.id)).nodup_iff.2 hnodup
  rw [List.Nodup, List.pairwise_map] at hnodup'
  obtain ⟨hi', rfl⟩ := List.getElem?_eq_some_iff.1 hi
  obtain ⟨hj', rfl⟩ := List.getElem?_eq_some_iff.1 hj
  obtain ⟨hle, hid⟩ := List.pairwise_iff_getElem.1 (hsorted.and hnodup') i j hi' hj' hlt
  rw [Task.visualLe_eq_not (Ne.symm hid), hle]
  exact ⟨rfl, rfl⟩

theorem eq_of_ids_eq (heq : ∀ a ∈ xs, ∀ b ∈ ys, a.id = b.id → a = b) (hids : xs.map (·.id) = ys.map (·.id)) :
    xs = ys := by
  induction xs generalizing ys with
  | nil => simpa using hids.symm
  | cons x xs ih =>
    cases ys with
    | nil => cases hids
    | cons y ys =>
      obtain ⟨hid, hids⟩ := List.cons.inj hids
      have hrest := ih (fun a ha b hb => heq a (List.mem_cons_of_mem x ha) b (List.mem_cons_of_mem y hb)) hids
      rw [heq x List.mem_cons_self y List.mem_cons_self hid, hrest]

section Map

variable {f : Task → Task} (hf : ∀ t ∈ xs, (f t).id = t.id) (hnodup : (xs.map (·.id)).Nodup)

include hf hnodup

/-- Rows that are changed stay in order if and only if this is true of any two of them. -/
theorem ids_sortBy_map :
    (sortBy Task.visualLe (xs.map f)).map (·.id) = (sortBy Task.visualLe xs).map (·.id)
      ↔ ∀ t ∈ xs, ∀ u ∈ xs, (f t).visualLe (f u) = t.visualLe u := by
  have hperm := sortBy_perm Task.visualLe xs
  have hids : ((sortBy Task.visualLe xs).map f).map (·.id) = (sortBy Task.visualLe xs).map (·.id) := by
    rw [List.map_map]
    apply List.map_congr_left
    intro t ht
    exact hf t (hperm.mem_iff.1 ht)
  have hnodup' : ((xs.map f).map (·.id)).Nodup := by
    rw [List.map_map, List.map_congr_left (g := (·.id)) hf]
    exact hnodup
  have hsorted := pairwise_sortBy Task.visualLe_total Task.visualLe_trans xs
  constructor
  . intro heq
    -- rows are determined by their identifiers, so equal identifiers mean that the changed rows are in the old order
    have hmap : sortBy Task.visualLe (xs.map f) = (sortBy Task.visualLe xs).map f := by
      apply eq_of_ids_eq _ (heq.trans hids.symm)
      intro a ha b hb
      have hb' : b ∈ xs.map f := (hperm.map f).mem_iff.1 hb
      exact List.inj_on_of_nodup_map hnodup' ((sortBy_perm ..).mem_iff.1 ha) hb'
    have hsorted' := pairwise_sortBy Task.visualLe_total Task.visualLe_trans (xs.map f)
    rw [hmap, List.pairwise_map] at hsorted'
    have hne : (sortBy Task.visualLe xs).Pairwise (·.id ≠ ·.id) := by
      have := (hperm.map (·.id)).nodup_iff.2 hnodup
      rwa [List.Nodup, List.pairwise_map] at this
    have hsame : (sortBy Task.visualLe xs).Pairwise fun t u =>
        (f t).visualLe (f u) = t.visualLe u ∧ (f u).visualLe (f t) = u.visualLe t := by
      apply ((hsorted.and hsorted').and hne).imp_of_mem
      rintro t u ht hu ⟨⟨htu, htu'⟩, hid⟩
      have hid' : (f u).id ≠ (f t).id := by
        rw [hf t (hperm.mem_iff.1 ht), hf u (hperm.mem_iff.1 hu)]
        exact Ne.symm hid
      rw [Task.visualLe_eq_not hid', Task.visualLe_eq_not (Ne.symm hid), htu, htu']
      exact ⟨rfl, rfl⟩
    intro t ht u hu
    have hall := hsame.forall_of_forall_of_flip (by simp) (hsame.imp And.symm)
    exact (hall (hperm.mem_iff.2 ht) (hperm.mem_iff.2 hu)).1
  . intro hle
    -- the old order is an order of the changed rows, and there is only one
    rw [sortBy_eq_of_pairwise hnodup' (hperm.map f).symm, hids]
    rw [List.pairwise_map]
    apply hsorted.imp_of_mem
    intro t u ht hu htu
    rw [hle t (hperm.mem_iff.1 ht) u (hperm.mem_iff.1 hu)]
    exact htu

end Map

def Rows.ids (r : Rows) (workspace : WorkspaceId) (lane : Lane) : List TaskId :=
  (r.list workspace lane).map (·.id)

theorem Rows.greatest_of_mem {r : Rows} {workspace : WorkspaceId} {lane : Lane} {t : Task}
    (ht : t ∈ r.lane workspace lane) : ∃ x xs, (r.lane workspace lane).map (·.position) = x :: xs
      ∧ r.greatest workspace lane = xs.foldl Binary64.max x := by
  unfold greatest
  have hmem : t.position ∈ (r.lane workspace lane).map (·.position) := List.mem_map_of_mem ht
  split
  . next hnil =>
    rw [hnil] at hmem
    cases hmem
  . next x xs hcons => exact ⟨x, xs, hcons, rfl⟩

theorem Rows.rank_le_greatest {r : Rows} {workspace : WorkspaceId} {lane : Lane}
    (hnumber : ∀ t ∈ r.lane workspace lane, t.position.isNaN = false) {t : Task} (ht : t ∈ r.lane workspace lane) :
    t.position.rank ≤ (r.greatest workspace lane).rank := by
  obtain ⟨x, xs, hcons, hgreatest⟩ := greatest_of_mem ht
  have hmem : t.position ∈ (r.lane workspace lane).map (·.position) := List.mem_map_of_mem ht
  have hnumbers : ∀ x ∈ (r.lane workspace lane).map (·.position), x.isNaN = false := by
    intro x hx
    obtain ⟨u, hu, rfl⟩ := List.mem_map.1 hx
    exact hnumber u hu
  rw [hcons] at hmem hnumbers
  obtain ⟨hx, hxs⟩ := List.forall_mem_cons.1 hnumbers
  rw [hgreatest]
  exact (Binary64.rank_le_foldl_max hx hxs).2 _ hmem

/-- Rows that share a position have shared one before. -/
def SharesNoMore (rows rows' : List Task) : Prop :=
  ∀ t' ∈ rows', ∀ u' ∈ rows', t'.id ≠ u'.id → t'.position.rank = u'.position.rank →
    ∃ t ∈ rows, ∃ u ∈ rows, t.id = t'.id ∧ u.id = u'.id ∧ t.position.rank = u.position.rank

end LaneOrder
