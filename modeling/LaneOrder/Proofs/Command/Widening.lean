import LaneOrder.Proofs.Command.Plan
import LaneOrder.Proofs.Sample

/-!
This module contains what any sequence of widenings makes of a plan of locks. Its rows and their roles are known from the
request and the bounds that were given, and rows stand in one order only, so plans that came to the same rows in different
ways are equal.
-/

namespace LaneOrder

inductive Widening where
  | bounds (ids : List TaskId)
  | laneSeed
deriving DecidableEq

def Widening.ids : Widening → List TaskId
  | bounds ids => ids
  | laneSeed => []

namespace LockPlan

def widen (p : LockPlan) : Widening → LockPlan
  | .bounds ids => p.withBounds ids
  | .laneSeed => p.withLaneSeed

def widenAll (p : LockPlan) (ws : List Widening) : LockPlan :=
  ws.foldl widen p

def ids (p : LockPlan) : List TaskId :=
  p.steps.map (·.id)

/-- What a row is to a move: the request decides, and all rows that it does not name are bounds. -/
def roleOf (target : TaskId) (before after : Option TaskId) (id : TaskId) : LockRole :=
  if id = target then .target
  else if before = some id then .before
  else if after = some id then .after
  else .bound

variable {p q : LockPlan} {target id other : TaskId} {before after : Option TaskId} {ids : List TaskId}
  {xs ys : List LockStep} {step : LockStep} {w : Widening} {ws us : List Widening}

theorem contains_iff : p.contains id = true ↔ id ∈ p.ids := by
  simp [contains, LockPlan.ids]

theorem mem_ids_addBound : other ∈ (p.addBound id).ids ↔ other ∈ p.ids ∨ other = id := by
  unfold addBound
  split
  . next hplanned =>
    rw [contains_iff] at hplanned
    constructor
    . exact .inl
    . rintro (hother | rfl)
      . exact hother
      . exact hplanned
  . simp [LockPlan.ids]

theorem mem_ids_addBounds : id ∈ (ids.foldl addBound p).ids ↔ id ∈ p.ids ∨ id ∈ ids := by
  induction ids generalizing p with
  | nil => simp
  | cons first ids ih => rw [List.foldl_cons, ih, mem_ids_addBound, or_assoc, ← List.mem_cons]

theorem mem_ids_inOrder : id ∈ (inOrder xs).map (·.id) ↔ id ∈ xs.map (·.id) :=
  ((sortBy_perm ..).map _).mem_iff

theorem mem_ids_withBounds : id ∈ (p.withBounds ids).ids ↔ id ∈ p.ids ∨ id ∈ ids := by
  show id ∈ (inOrder (ids.foldl addBound p).steps).map (·.id) ↔ _
  rw [mem_ids_inOrder]
  exact mem_ids_addBounds

theorem mem_ids_new : id ∈ (new target before after).ids ↔ id = target ∨ before = some id ∨ after = some id := by
  show id ∈ (inOrder (named target before after)).map (·.id) ↔ _
  rw [mem_ids_inOrder]
  simp [named, eq_comm]

section Step

theorem Fits.widen (h : p.Fits target before after) : (p.widen w).Fits target before after := by
  cases w with
  | bounds ids => exact h.withBounds
  | laneSeed => exact h.withLaneSeed

theorem mem_ids_widen : id ∈ (p.widen w).ids ↔ id ∈ p.ids ∨ id ∈ w.ids := by
  cases w with
  | bounds ids => exact mem_ids_withBounds
  | laneSeed => simp [widen, withLaneSeed, LockPlan.ids, Widening.ids]

theorem laneSeed_widen : (p.widen w).laneSeed = true ↔ p.laneSeed = true ∨ .laneSeed = w := by
  cases w with
  | bounds ids => simp [widen, withBounds, laneSeed_foldl]
  | laneSeed => simp [widen, withLaneSeed]

end Step

section Run

theorem Fits.widenAll (h : p.Fits target before after) : (p.widenAll ws).Fits target before after := by
  induction ws generalizing p with
  | nil => exact h
  | cons w ws ih => exact ih h.widen

theorem mem_ids_widenAll : id ∈ (p.widenAll ws).ids ↔ id ∈ p.ids ∨ id ∈ ws.flatMap Widening.ids := by
  induction ws generalizing p with
  | nil => simp [widenAll]
  | cons w ws ih =>
    show id ∈ ((p.widen w).widenAll ws).ids ↔ _
    rw [ih, mem_ids_widen, or_assoc, List.flatMap_cons, List.mem_append]

theorem laneSeed_widenAll : (p.widenAll ws).laneSeed = true ↔ p.laneSeed = true ∨ .laneSeed ∈ ws := by
  induction ws generalizing p with
  | nil => simp [widenAll]
  | cons w ws ih =>
    show ((p.widen w).widenAll ws).laneSeed = true ↔ _
    rw [ih, laneSeed_widen, or_assoc, ← List.mem_cons]

end Run

theorem eq_of_ascending (hxs : xs.Pairwise (·.id < ·.id)) (hys : ys.Pairwise (·.id < ·.id))
    (h : ∀ step, step ∈ xs ↔ step ∈ ys) : xs = ys := by
  have hirrefl : Std.Irrefl fun a b : LockStep => a.id < b.id := ⟨fun a => TaskId.lt_irrefl a.id⟩
  have hantisymm : Std.Antisymm fun a b : LockStep => a.id < b.id :=
    ⟨fun a b hab hba => absurd (TaskId.lt_trans hab hba) (TaskId.lt_irrefl a.id)⟩
  exact hxs.eq_of_mem_iff hys h

theorem Fits.eq_of_named (h : p.Fits target before after) (given : LockStep)
    (hgiven : given ∈ LockPlan.named target before after) (hstep : step ∈ p.steps) (hid : step.id = given.id) :
    step = given :=
  List.inj_on_of_nodup_map (nodup_of_sorted h.sorted) hstep (h.named given hgiven) hid

theorem Fits.role (h : p.Fits target before after) (hstep : step ∈ p.steps) :
    step.role = roleOf target before after step.id := by
  unfold roleOf
  split
  . next hid => rw [h.eq_of_named ⟨target, .target⟩ (by simp [LockPlan.named]) hstep hid]
  split
  . next hid => rw [h.eq_of_named ⟨step.id, .before⟩ (by simp [LockPlan.named, hid]) hstep rfl]
  split
  . next hid => rw [h.eq_of_named ⟨step.id, .after⟩ (by simp [LockPlan.named, hid]) hstep rfl]
  next htarget hbefore hafter =>
    rcases h.bound step hstep with hnamed | hbound
    . have hid : step.id ∈ (new target before after).ids := List.mem_map_of_mem (mem_inOrder.2 hnamed)
      rcases mem_ids_new.1 hid with hid | hid | hid
      . exact absurd hid htarget
      . exact absurd hid hbefore
      . exact absurd hid hafter
    . exact hbound

/-- A plan has the rows of a request and the bounds that were given, each once, in ascending order and in its role. -/
structure Canonical (p : LockPlan) (target : TaskId) (before after : Option TaskId) (ws : List Widening) : Prop where
  ascending : p.steps.Pairwise (·.id < ·.id)
  ids : ∀ id, id ∈ p.ids ↔ id = target ∨ before = some id ∨ after = some id ∨ id ∈ ws.flatMap Widening.ids
  roles : ∀ step ∈ p.steps, step.role = roleOf target before after step.id
  laneSeed : p.laneSeed = true ↔ .laneSeed ∈ ws

theorem Canonical.mem_steps (h : p.Canonical target before after ws) :
    step ∈ p.steps ↔ step.id ∈ p.ids ∧ step.role = roleOf target before after step.id := by
  constructor
  . intro hstep
    exact ⟨List.mem_map_of_mem hstep, h.roles step hstep⟩
  . rintro ⟨hid, hrole⟩
    obtain ⟨other, hother, hsame⟩ := List.mem_map.1 hid
    have hroles : other.role = step.role := by
      rw [h.roles other hother, hsame, hrole]
    cases step
    cases hsame
    cases hroles
    exact hother

theorem Canonical.eq_of_ids (hp : p.Canonical target before after ws) (hq : q.Canonical target before after us)
    (hids : ∀ id, id ∈ p.ids ↔ id ∈ q.ids) (hseed : p.laneSeed = q.laneSeed) : p = q := by
  have hsteps : p.steps = q.steps := by
    apply eq_of_ascending hp.ascending hq.ascending
    intro step
    rw [hp.mem_steps, hq.mem_steps, hids]
  cases p
  cases q
  cases hsteps
  cases hseed
  rfl

theorem Canonical.eq_iff (hp : p.Canonical target before after ws) (hq : q.Canonical target before after us) :
    p = q ↔ (∀ id, id ≠ target → before ≠ some id → after ≠ some id →
        (id ∈ ws.flatMap Widening.ids ↔ id ∈ us.flatMap Widening.ids))
      ∧ (.laneSeed ∈ ws ↔ .laneSeed ∈ us) := by
  constructor
  . rintro rfl
    refine ⟨fun id htarget hbefore hafter => ?_, hp.laneSeed.symm.trans hq.laneSeed⟩
    have hids := (hp.ids id).symm.trans (hq.ids id)
    simpa [htarget, hbefore, hafter] using hids
  . rintro ⟨hbounds, hseed⟩
    apply hp.eq_of_ids hq
    . intro id
      rw [hp.ids, hq.ids]
      -- a row that the request names is in both plans, be it a bound or not
      by_cases hnamed : id = target ∨ before = some id ∨ after = some id
      . rcases hnamed with hid | hid | hid <;> simp [hid]
      . simp only [not_or] at hnamed
        obtain ⟨htarget, hbefore, hafter⟩ := hnamed
        rw [hbounds id htarget hbefore hafter]
    . rw [Bool.eq_iff_iff, hp.laneSeed, hq.laneSeed, hseed]

section Distinct

variable (hbefore : before ≠ some target) (hafter : after ≠ some target)
  (hanchors : ∀ id, before = some id → after ≠ some id)

include hbefore hafter hanchors

theorem canonical_widenAll : ((new target before after).widenAll ws).Canonical target before after ws := by
  have hfits : ((new target before after).widenAll ws).Fits target before after :=
    (fits_new hbefore hafter hanchors).widenAll
  constructor
  . exact hfits.sorted
  . intro id
    rw [mem_ids_widenAll, mem_ids_new, or_assoc, or_assoc]
  . intro step hstep
    exact hfits.role hstep
  . rw [laneSeed_widenAll]
    simp [new]

/-- However a plan becomes wider, it is canonical. So all that it shows of the widenings is which bounds were given and whether
the seed was asked for. -/
theorem plans_canonical (ws : List Widening) :
    ((new target before after).widenAll ws).Canonical target before after ws
      ∧ ∀ us, (new target before after).widenAll us = (new target before after).widenAll ws ↔
          (∀ id, id ≠ target → before ≠ some id → after ≠ some id →
              (id ∈ us.flatMap Widening.ids ↔ id ∈ ws.flatMap Widening.ids))
            ∧ (.laneSeed ∈ us ↔ .laneSeed ∈ ws) := by
  have hcanonical : ∀ us, ((new target before after).widenAll us).Canonical target before after us :=
    fun us => canonical_widenAll hbefore hafter hanchors
  exact ⟨hcanonical ws, fun us => (hcanonical us).eq_iff (hcanonical ws)⟩

end Distinct

/-- Bounds with a repetition, and among them an anchor. -/
def Sample.oneBatch : List Widening :=
  [.bounds [Sample.id 9, Sample.id 3, Sample.id 1, Sample.id 9], .laneSeed]

/-- The same bounds in another order, and among them the target. -/
def Sample.manyBatches : List Widening :=
  [.laneSeed, .bounds [Sample.id 1], .bounds [], .laneSeed, .bounds [Sample.id 5, Sample.id 9]]

def Sample.plan (ws : List Widening) : LockPlan :=
  (new (Sample.id 5) (some (Sample.id 7)) (some (Sample.id 3))).widenAll ws

theorem plans_canonical_batches :
    some (Sample.id 7) ≠ some (Sample.id 5) ∧ some (Sample.id 3) ≠ some (Sample.id 5)
      ∧ (∀ id, some (Sample.id 7) = some id → some (Sample.id 3) ≠ some id)
      ∧ (Sample.plan Sample.oneBatch).Canonical (Sample.id 5) (some (Sample.id 7)) (some (Sample.id 3)) Sample.oneBatch
      ∧ Sample.plan Sample.manyBatches = Sample.plan Sample.oneBatch
      ∧ Sample.plan Sample.oneBatch = ⟨true, [⟨Sample.id 1, .bound⟩, ⟨Sample.id 3, .after⟩, ⟨Sample.id 5, .target⟩,
          ⟨Sample.id 7, .before⟩, ⟨Sample.id 9, .bound⟩]⟩ := by
  have hbefore : some (Sample.id 7) ≠ some (Sample.id 5) := by decide
  have hafter : some (Sample.id 3) ≠ some (Sample.id 5) := by decide
  have hanchors : ∀ id, some (Sample.id 7) = some id → some (Sample.id 3) ≠ some id := by
    rintro id ⟨⟩
    decide
  obtain ⟨hcanonical, hsame⟩ := plans_canonical hbefore hafter hanchors Sample.oneBatch
  refine ⟨hbefore, hafter, hanchors, hcanonical, (hsame Sample.manyBatches).2 ⟨?_, by decide⟩, by decide⟩
  intro id htarget _ hnamed
  have hanchor : id ≠ Sample.id 3 := fun heq => hnamed (congrArg some heq.symm)
  simp [Sample.manyBatches, Sample.oneBatch, Widening.ids, htarget, hanchor]
  tauto

end LockPlan

end LaneOrder
