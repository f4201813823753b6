import LaneOrder.LockPlan
import LaneOrder.Proofs.Sort
import Mathlib.Data.List.Nodup

/-!
This module contains what a plan of locks keeps when it becomes wider: it names the target and the anchors, all other
rows are bounds, and its rows are in strictly ascending order.
-/

namespace LaneOrder

namespace LockPlan

def named (target : TaskId) (before after : Option TaskId) : List LockStep :=
  ⟨target, .target⟩ :: (before.toList.map (⟨·, .before⟩) ++ after.toList.map (⟨·, .after⟩))

structure Fits (p : LockPlan) (target : TaskId) (before after : Option TaskId) : Prop where
  sorted : p.steps.Pairwise (·.id < ·.id)
  named : ∀ step ∈ named target before after, step ∈ p.steps
  bound : ∀ step ∈ p.steps, step ∈ LockPlan.named target before after ∨ step.role = .bound

variable {p : LockPlan} {target id : TaskId} {before after : Option TaskId} {ids : List TaskId} {steps : List LockStep}
  {step : LockStep}

@[simp]
theorem mem_inOrder : step ∈ inOrder steps ↔ step ∈ steps :=
  mem_sortBy

theorem pairwise_inOrder (h : (steps.map (·.id)).Nodup) : (inOrder steps).Pairwise (·.id < ·.id) := by
  have htotal : ∀ a b : LockStep, (!decide (b.id < a.id)) = true ∨ (!decide (a.id < b.id)) = true := by
    intro a b
    simp only [Bool.not_eq_true', decide_eq_false_iff_not, TaskId.lt_iff]
    omega
  have htrans : ∀ a b c : LockStep, (!decide (b.id < a.id)) = true → (!decide (c.id < b.id)) = true →
      (!decide (c.id < a.id)) = true := by
    intro a b c
    simp only [Bool.not_eq_true', decide_eq_false_iff_not, TaskId.lt_iff]
    omega
  have hsorted := pairwise_sortBy htotal htrans steps
  have hnodup : ((inOrder steps).map (·.id)).Nodup := ((sortBy_perm _ steps).map _).nodup_iff.2 h
  rw [List.Nodup, List.pairwise_map] at hnodup
  apply (hsorted.and hnodup).imp
  rintro a b ⟨hle, hne⟩
  simp only [Bool.not_eq_true', decide_eq_false_iff_not] at hle
  rcases TaskId.lt_trichotomy a.id b.id with hlt | heq | hgt
  . exact hlt
  . exact absurd heq hne
  . exact absurd hgt hle

theorem nodup_of_sorted (h : steps.Pairwise (·.id < ·.id)) : (steps.map (·.id)).Nodup := by
  rw [List.Nodup, List.pairwise_map]
  apply h.imp
  intro a b hlt heq
  rw [heq] at hlt
  exact TaskId.lt_irrefl _ hlt

theorem nodup_addBound (h : (p.steps.map (·.id)).Nodup) : ((p.addBound id).steps.map (·.id)).Nodup := by
  unfold addBound
  split
  . exact h
  . next hnot =>
    simp only [List.map_append, List.map_cons, List.map_nil]
    refine List.nodup_append.2 ⟨h, by simp, ?_⟩
    rintro a ha b hb rfl
    cases List.mem_singleton.1 hb
    obtain ⟨step, hstep, hid⟩ := List.mem_map.1 ha
    apply hnot
    unfold contains
    rw [List.any_eq_true]
    exact ⟨step, hstep, by simpa using hid⟩

theorem steps_addBound_subset : p.steps ⊆ (p.addBound id).steps := by
  unfold addBound
  split <;> simp

theorem mem_addBound (h : step ∈ (p.addBound id).steps) : step ∈ p.steps ∨ step.role = .bound := by
  unfold addBound at h
  split at h
  . exact .inl h
  . rcases List.mem_append.1 h with h | h
    . exact .inl h
    . cases List.mem_singleton.1 h
      exact .inr rfl

theorem exists_of_mem_addBounds (h : step ∈ (ids.foldl addBound p).steps) : step ∈ p.steps ∨ step.id ∈ ids := by
  induction ids generalizing p with
  | nil => exact .inl h
  | cons id ids ih =>
    rcases ih h with h | h
    . unfold addBound at h
      split at h
      . exact .inl h
      . rcases List.mem_append.1 h with h | h
        . exact .inl h
        . cases List.mem_singleton.1 h
          exact .inr List.mem_cons_self
    . exact .inr (List.mem_cons_of_mem id h)

structure Widens (p wider : LockPlan) : Prop where
  nodup : (p.steps.map (·.id)).Nodup → (wider.steps.map (·.id)).Nodup
  subset : p.steps ⊆ wider.steps
  bound : ∀ step ∈ wider.steps, step ∈ p.steps ∨ step.role = .bound

theorem widens_foldl : Widens p (ids.foldl addBound p) := by
  induction ids generalizing p with
  | nil => exact ⟨fun h => h, List.Subset.refl _, fun _ h => .inl h⟩
  | cons id ids ih =>
    have hrest := ih (p := p.addBound id)
    constructor
    . intro h
      exact hrest.nodup (nodup_addBound h)
    . exact List.Subset.trans steps_addBound_subset hrest.subset
    . intro step hstep
      rcases hrest.bound step hstep with h | h
      . exact mem_addBound h
      . exact .inr h

theorem Fits.withBounds (h : p.Fits target before after) : (p.withBounds ids).Fits target before after := by
  have hw : Widens p (ids.foldl addBound p) := widens_foldl
  constructor
  . exact pairwise_inOrder (hw.nodup (nodup_of_sorted h.sorted))
  . intro step hstep
    exact mem_inOrder.2 (hw.subset (h.named step hstep))
  . intro step hstep
    rcases hw.bound step (mem_inOrder.1 hstep) with hstep | hrole
    . exact h.bound step hstep
    . exact .inr hrole

theorem Fits.withLaneSeed (h : p.Fits target before after) : p.withLaneSeed.Fits target before after :=
  ⟨h.sorted, h.named, h.bound⟩

theorem fits_new (hbefore : before ≠ some target) (hafter : after ≠ some target)
    (hanchors : ∀ id, before = some id → after ≠ some id) : (new target before after).Fits target before after := by
  constructor
  . apply pairwise_inOrder
    cases before <;> cases after <;> simp_all [eq_comm]
  . intro step hstep
    exact mem_inOrder.2 hstep
  . intro step hstep
    exact .inl (mem_inOrder.1 hstep)

/-- A plan has every step of another one with its role, and plans the seed if the other one does. -/
structure Includes (wider p : LockPlan) : Prop where
  steps : p.steps ⊆ wider.steps
  laneSeed : p.laneSeed = true → wider.laneSeed = true

/-- A plan includes another one, and has a bound that was not in it or plans the seed that it did not. -/
structure Exceeds (wider p : LockPlan) : Prop extends wider.Includes p where
  more : (∃ id, p.contains id = false ∧ ⟨id, .bound⟩ ∈ wider.steps) ∨ p.laneSeed = false ∧ wider.laneSeed = true

theorem exists_of_contains (h : p.contains id = true) : ∃ step ∈ p.steps, step.id = id := by
  obtain ⟨step, hstep, hid⟩ := List.any_eq_true.1 h
  exact ⟨step, hstep, of_decide_eq_true hid⟩

theorem laneSeed_foldl : (ids.foldl addBound p).laneSeed = p.laneSeed := by
  induction ids generalizing p with
  | nil => rfl
  | cons id ids ih =>
    rw [List.foldl_cons, ih]
    unfold addBound
    split <;> rfl

theorem includes_withBounds : (p.withBounds ids).Includes p where
  steps _ hstep := mem_inOrder.2 (widens_foldl.subset hstep)
  laneSeed h := laneSeed_foldl.trans h

theorem Includes.withLaneSeed {wider : LockPlan} (h : wider.Includes p) : wider.withLaneSeed.Includes p :=
  ⟨h.steps, fun _ => rfl⟩

theorem exceeds_withBounds (h : p.contains id = false) : (p.withBounds [id]).Exceeds p := by
  refine ⟨includes_withBounds, .inl ⟨id, h, mem_inOrder.2 ?_⟩⟩
  show _ ∈ (p.addBound id).steps
  simp [addBound, h]

theorem exceeds_withLaneSeed (h : p.laneSeed = false) : (p.withBounds ids).withLaneSeed.Exceeds p :=
  ⟨includes_withBounds.withLaneSeed, .inr ⟨h, rfl⟩⟩

end LockPlan

end LaneOrder
