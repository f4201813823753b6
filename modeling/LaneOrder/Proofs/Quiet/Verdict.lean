import LaneOrder.Proofs.Quiet.Move

/-!
This module contains the verdict on a move that nobody interferes with: it can be told from the rows and the role of the
actor whether the move fails, and why. What the move tries, in which order, and what it locks does not occur.
-/

namespace LaneOrder

open Board Program

namespace MoveRequest

/-- The target is an anchor, or both anchors are the same task. -/
def AnchorsClash (r : MoveRequest) : Prop :=
  r.before = some r.task ∨ r.after = some r.task ∨ r.before.isSome = true ∧ r.before = r.after

/-- The task is the target but no task of the workspace, or it is an anchor but no task of the lane. -/
def IsMissing (r : MoveRequest) (rows : Rows) (lane : Lane) (id : TaskId) : Prop :=
  id = r.task ∧ rows.findIn? r.workspace id = none
    ∨ (r.before = some id ∨ r.after = some id) ∧ rows.neighbor? r.workspace lane id = none

/-- Both anchors are given, and the one that is to be below the target is not below the other one. -/
def IsUpsideDown (r : MoveRequest) (rows : Rows) (lane : Lane) : Prop :=
  ∃ before ∈ r.before.bind (rows.neighbor? r.workspace lane), ∃ after ∈ r.after.bind (rows.neighbor? r.workspace lane),
    before.position ≤ after.position

def named (r : MoveRequest) : List TaskId :=
  r.task :: (r.before.toList ++ r.after.toList)

instance (r : MoveRequest) : Decidable r.AnchorsClash :=
  inferInstanceAs (Decidable (_ ∨ _ ∨ _))

instance (r : MoveRequest) (rows : Rows) (lane : Lane) (id : TaskId) : Decidable (r.IsMissing rows lane id) :=
  inferInstanceAs (Decidable (_ ∨ _))

instance (r : MoveRequest) (rows : Rows) (lane : Lane) : Decidable (r.IsUpsideDown rows lane) :=
  inferInstanceAs (Decidable (∃ before ∈ r.before.bind _, ∃ after ∈ r.after.bind _, _))

def verdict (r : MoveRequest) (rows : Rows) (role : Option Role) : Option ErrorKind :=
  if role = none ∨ role = some .viewer then some .unauthorized
  else match Lane.parse r.lane with
    | .error _ => some .invalidArgument
    | .ok lane =>
      if r.AnchorsClash then some .invalidArgument
      else if ∃ id ∈ r.named, r.IsMissing rows lane id then some .notFound
      else if r.IsUpsideDown rows lane then some .invalidArgument
      else none

variable {r : MoveRequest} {rows : Rows} {lane : Lane} {step : LockStep} {id : TaskId} {e : CommandError}

theorem verdict_ne_internal {role : Option Role} : r.verdict rows role ≠ some .internal := by
  unfold verdict
  split
  . simp
  . split
    . simp
    . split_ifs <;> simp

theorem anchorError?_eq_none : r.anchorError? = none ↔ ¬ r.AnchorsClash := by
  unfold anchorError? AnchorsClash
  cases r.before <;> cases r.after <;> grind

theorem clash_of_anchorError? (h : r.anchorError? = some e) : r.AnchorsClash ∧ e.kind = .invalidArgument := by
  unfold anchorError? at h
  split at h
  . next hself =>
    cases h
    exact ⟨hself.imp_right .inl, rfl⟩
  . split at h
    . next before after hbefore hafter =>
      split at h <;> cases h
      . next hsame => exact ⟨.inr (.inr ⟨by simp [hbefore], by rw [hbefore, hafter, hsame]⟩), rfl⟩
    . cases h

theorem orderError?_eq_none : Move.orderError? (r.anchors rows lane) = none ↔ ¬ r.IsUpsideDown rows lane := by
  unfold Move.orderError? IsUpsideDown anchors
  cases r.before.bind (rows.neighbor? r.workspace lane) <;> cases r.after.bind (rows.neighbor? r.workspace lane) <;>
    simp [Task.toNeighbor]

theorem upsideDown_of_orderError? (h : Move.orderError? (r.anchors rows lane) = some e) :
    r.IsUpsideDown rows lane ∧ e.kind = .invalidArgument := by
  unfold Move.orderError? anchors at h
  split at h
  . next hlower hupper =>
    obtain ⟨before, hbefore, rfl⟩ := Option.map_eq_some_iff.1 hlower
    obtain ⟨after, hafter, rfl⟩ := Option.map_eq_some_iff.1 hupper
    split at h <;> cases h
    . next hle => exact ⟨⟨before, hbefore, after, hafter, hle⟩, rfl⟩
  . cases h

theorem isMissing_iff : r.IsMissing rows lane id ↔ ∃ step ∈ r.plan.steps, step.id = id ∧ r.row? rows lane step = none := by
  constructor
  . rintro (⟨rfl, hrow⟩ | ⟨hgiven | hgiven, hrow⟩)
    . exact ⟨⟨r.task, .target⟩, LockPlan.mem_inOrder.2 (by simp), rfl, hrow⟩
    . exact ⟨⟨id, .before⟩, LockPlan.mem_inOrder.2 (by simp [hgiven]), rfl, hrow⟩
    . exact ⟨⟨id, .after⟩, LockPlan.mem_inOrder.2 (by simp [hgiven]), rfl, hrow⟩
  . rintro ⟨⟨id, role⟩, hstep, rfl, hrow⟩
    have hnamed := LockPlan.mem_inOrder.1 hstep
    cases role with
    | target => exact .inl ⟨by simpa using hnamed, hrow⟩
    | before => exact .inr ⟨.inl (by simpa [eq_comm] using hnamed), hrow⟩
    | after => exact .inr ⟨.inr (by simpa [eq_comm] using hnamed), hrow⟩
    | bound => simp at hnamed

theorem IsMissing.mem_named (h : r.IsMissing rows lane id) : id ∈ r.named := by
  rcases h with ⟨rfl, _⟩ | ⟨hgiven | hgiven, _⟩ <;> simp [named, *]

theorem absent?_eq_none : r.absent? rows lane = none ↔ ¬ ∃ id ∈ r.named, r.IsMissing rows lane id := by
  unfold absent?
  rw [List.find?_eq_none]
  constructor
  . rintro h ⟨id, _, hmissing⟩
    obtain ⟨step, hstep, _, hrow⟩ := isMissing_iff.1 hmissing
    exact h step hstep (by rw [hrow]; rfl)
  . intro h step hstep hrow
    have hmissing := isMissing_iff.2 ⟨step, hstep, rfl, Option.isNone_iff_eq_none.1 hrow⟩
    exact h ⟨step.id, hmissing.mem_named, hmissing⟩

/-- Rows are looked for in ascending order, so it is the lowest of the missing ones that is reported. -/
theorem lowest_of_absent? (hr : r.anchorError? = none) (h : r.absent? rows lane = some step) :
    r.IsMissing rows lane step.id ∧ (∀ id, r.IsMissing rows lane id → ¬ id < step.id)
      ∧ r.missing lane step
        = if step.id = r.task then .missingTask r.workspace step.id else .missingNeighbor r.workspace lane step.id := by
  have hfits := Move.fits_plan hr
  obtain ⟨hrow, earlier, later, hsteps, hearlier⟩ := List.find?_eq_some_iff_append.1 h
  have hstep : step ∈ r.plan.steps := by simp [hsteps]
  have hsorted := hfits.sorted
  rw [hsteps, List.pairwise_append] at hsorted
  refine ⟨isMissing_iff.2 ⟨step, hstep, rfl, Option.isNone_iff_eq_none.1 hrow⟩, ?_, ?_⟩
  . intro id hmissing hlt
    obtain ⟨other, hother, rfl, hnone⟩ := isMissing_iff.1 hmissing
    rw [hsteps, List.mem_append, List.mem_cons] at hother
    -- the earlier steps have their rows, and the later ones have higher identifiers
    rcases hother with hother | rfl | hother
    . have := hearlier other hother
      simp [hnone] at this
    . exact TaskId.lt_irrefl _ hlt
    . have hgt := (List.pairwise_cons.1 hsorted.2.1).1 other hother
      exact TaskId.lt_irrefl _ (TaskId.lt_trans hlt hgt)
  . have hclash := anchorError?_eq_none.1 hr
    obtain ⟨id, role⟩ := step
    have hnamed := LockPlan.mem_inOrder.1 hstep
    unfold AnchorsClash at hclash
    cases role with
    | target =>
      have hid : id = r.task := by simpa using hnamed
      rw [if_pos hid]
      rfl
    | before =>
      have hgiven : r.before = some id := by simpa [eq_comm] using hnamed
      rw [if_neg (show id ≠ r.task from fun hid => hclash (.inl (hid ▸ hgiven)))]
      rfl
    | after =>
      have hgiven : r.after = some id := by simpa [eq_comm] using hnamed
      rw [if_neg (show id ≠ r.task from fun hid => hclash (.inr (.inl (hid ▸ hgiven))))]
      rfl
    | bound => simp at hnamed

theorem admission_of_unauthorized {role : Option Role} (h : role = none ∨ role = some .viewer) :
    ∃ e, r.admission role = .error e ∧ e.kind = .unauthorized := by
  rcases h with rfl | rfl
  . exact ⟨_, rfl, rfl⟩
  . exact ⟨_, rfl, rfl⟩

theorem admission_of_authorized {role : Option Role} (h : ¬ (role = none ∨ role = some .viewer)) :
    r.admission role = match Lane.parse r.lane with
      | .error e => .error (.unknownLane e)
      | .ok lane => match r.anchorError? with
        | some e => .error e
        | none => .ok lane := by
  cases role with
  | none => exact absurd (.inl rfl) h
  | some role =>
    cases role with
    | viewer => exact absurd (.inr rfl) h
    | _ => rfl

/-- An error of the destination is one of a missing row, the lowest one, or else one of the order of the anchors. -/
theorem destination_cases (hr : r.anchorError? = none) (rows : Rows) (lane : Lane) :
    match r.destination rows lane with
    | .error e => (∃ id, r.IsMissing rows lane id ∧ (∀ other, r.IsMissing rows lane other → ¬ other < id)
        ∧ e = .ofStore .lock
          (if id = r.task then .missingTask r.workspace id else .missingNeighbor r.workspace lane id))
      ∨ (¬ ∃ id ∈ r.named, r.IsMissing rows lane id) ∧ r.IsUpsideDown rows lane ∧ e.kind = .invalidArgument
    | .ok _ => (¬ ∃ id ∈ r.named, r.IsMissing rows lane id) ∧ ¬ r.IsUpsideDown rows lane := by
  unfold destination
  cases habsent : r.absent? rows lane with
  | some step =>
    obtain ⟨hmissing, hlowest, herror⟩ := lowest_of_absent? hr habsent
    exact .inl ⟨step.id, hmissing, hlowest, congrArg (CommandError.ofStore .lock) herror⟩
  | none =>
    have hnone := absent?_eq_none.1 habsent
    dsimp only
    cases horder : Move.orderError? (r.anchors rows lane) with
    | none => exact ⟨hnone, orderError?_eq_none.1 horder⟩
    | some e => exact .inr ⟨hnone, upsideDown_of_orderError? horder⟩

theorem verdict_of_prospect (r : MoveRequest) (rows : Rows) (role : Option Role) :
    match r.prospect rows role with
    | .error e => r.verdict rows role = some e.kind ∧ (e.kind = .notFound → ∃ lane id, Lane.parse r.lane = .ok lane
        ∧ r.IsMissing rows lane id ∧ (∀ other, r.IsMissing rows lane other → ¬ other < id)
        ∧ e = .ofStore .lock
          (if id = r.task then .missingTask r.workspace id else .missingNeighbor r.workspace lane id))
    | .ok (lane, _) => r.verdict rows role = none ∧ Lane.parse r.lane = .ok lane := by
  unfold prospect verdict
  by_cases hrole : role = none ∨ role = some .viewer
  . obtain ⟨e, hadmission, hkind⟩ := admission_of_unauthorized (r := r) hrole
    rw [hadmission, if_pos hrole]
    refine ⟨congrArg some hkind.symm, fun hnot => ?_⟩
    rw [hkind] at hnot
    cases hnot
  . rw [admission_of_authorized hrole, if_neg hrole]
    cases Lane.parse r.lane with
    | error unknown => exact ⟨rfl, by rintro ⟨⟩⟩
    | ok lane =>
      dsimp only
      cases hanchors : r.anchorError? with
      | some e =>
        obtain ⟨hclash, hkind⟩ := clash_of_anchorError? hanchors
        rw [if_pos hclash]
        refine ⟨congrArg some hkind.symm, fun hnot => ?_⟩
        rw [hkind] at hnot
        cases hnot
      | none =>
        rw [if_neg (anchorError?_eq_none.1 hanchors)]
        have hcases := destination_cases hanchors rows lane
        dsimp only
        cases hdest : r.destination rows lane with
        | ok gap =>
          rw [hdest] at hcases
          obtain ⟨hnone, hupright⟩ := hcases
          exact ⟨by rw [if_neg hnone, if_neg hupright], rfl⟩
        | error e =>
          rw [hdest] at hcases
          rcases hcases with ⟨id, hmissing, hlowest, rfl⟩ | ⟨hnone, hupside, hkind⟩
          . refine ⟨?_, fun _ => ⟨lane, id, rfl, hmissing, hlowest, rfl⟩⟩
            rw [if_pos ⟨id, hmissing.mem_named, hmissing⟩]
            split <;> rfl
          . refine ⟨by rw [if_neg hnone, if_pos hupside, hkind], fun hnot => ?_⟩
            rw [hkind] at hnot
            cases hnot

end MoveRequest

def Answer.kind? : Answer → Option ErrorKind
  | commandError e => some e.kind
  | _ => none

/-- A move that nobody interferes with fails as the verdict says, naming the lowest task that is missing if one is. Unless
there is such a verdict it succeeds, in the first transaction that it begins. -/
theorem Command.move_verdict {b : Board} {h : Holder} (s : Supply) (r : MoveRequest) (hb : b.Undisturbed h) :
    let c := Command.complete ⟨h, .move r, s.replies⟩ b
    let verdict := r.verdict b.rows (b.role? r.actor r.workspace)
    c.answer.kind? = verdict ∧ verdict ≠ some .internal
      ∧ (verdict = some .notFound → ∃ lane id, Lane.parse r.lane = .ok lane ∧ r.IsMissing b.rows lane id
        ∧ (∀ other, r.IsMissing b.rows lane other → ¬ other < id)
        ∧ c.answer = .commandError (.ofStore .lock
          (if id = r.task then .missingTask r.workspace id else .missingNeighbor r.workspace lane id)))
      ∧ (verdict = none → ∃ lane o, Lane.parse r.lane = .ok lane ∧ c.answer = .moved o ∧ o.task.lane = lane
        ∧ c.board.rows.findIn? r.workspace r.task = some o.task ∧ c.past.countP (·.op.starts) = 1) := by
  intro c verdict
  have hverdict := r.verdict_of_prospect b.rows (b.role? r.actor r.workspace)
  have hinternal : verdict ≠ some .internal := MoveRequest.verdict_ne_internal
  cases hprospect : r.prospect b.rows (b.role? r.actor r.workspace) with
  | error e =>
    rw [hprospect] at hverdict
    obtain ⟨hkind, hmissing⟩ := hverdict
    have hanswer : c.answer = .commandError e := (Command.refused hb hprospect).1
    refine ⟨by rw [hanswer]; exact hkind.symm, hinternal, ?_, ?_⟩
    . intro hnot
      obtain ⟨lane, id, hlane, hid, hlowest, rfl⟩ := hmissing (Option.some.inj (hkind.symm.trans hnot))
      exact ⟨lane, id, hlane, hid, hlowest, hanswer⟩
    . intro hnone
      exact absurd (hkind.symm.trans hnone) (by simp)
  | ok prospect =>
    obtain ⟨lane, gap⟩ := prospect
    rw [hprospect] at hverdict
    obtain ⟨hnone, hlane⟩ := hverdict
    obtain ⟨t, time, hrow, hanswer, hrows, _, _, hbegun⟩ := Command.moves (s := s) hb hprospect
    refine ⟨?_, hinternal, ?_, ?_⟩
    . rw [show c.answer = _ from hanswer]
      exact hnone.symm
    . intro hnot
      exact absurd (hnone.symm.trans hnot) (by simp)
    . intro _
      refine ⟨lane, _, hlane, hanswer, rfl, ?_, hbegun⟩
      rw [show c.board.rows = _ from hrows]
      exact Rows.findIn?_put hrow

section Sample

def Sample.between : MoveRequest :=
  ⟨Sample.workspace, Sample.id 2, Sample.actor, "In-Progress", some (Sample.id 7), some (Sample.id 1)⟩

/-- Of the two anchors that are missing from their lane the lower one is named. Without them the move succeeds. -/
theorem Command.move_verdict_tied : (Sample.board (Sample.tied .done 1)).Undisturbed 0
    ∧ (Command.complete ⟨0, .move Sample.between, Sample.steady.replies⟩ (Sample.board (Sample.tied .done 1))).answer
      = .commandError (.ofStore .lock (.missingNeighbor Sample.workspace .inProgress (Sample.id 1)))
    ∧ (Command.complete ⟨0, .move Sample.below, Sample.steady.replies⟩ (Sample.board (Sample.tied .done 1))).past.countP
      (·.op.starts) = 1 := by
  have hb : (Sample.board (Sample.tied .done 1)).Undisturbed 0 := undisturbed_of_idle LockTable.idle_empty
  refine ⟨hb, ?_, ?_⟩
  . obtain ⟨lane, id, hlane, hmissing, hlowest, hanswer⟩ :=
      (Command.move_verdict Sample.steady Sample.between hb).2.2.1 (by decide +kernel)
    obtain rfl : Lane.inProgress = lane := Except.ok.inj ((show Lane.parse _ = _ by decide +kernel).symm.trans hlane)
    have hid : id = Sample.id 1 := by
      have hnamed := hmissing.mem_named
      have hone : Sample.between.IsMissing (Sample.tied .done 1) .inProgress (Sample.id 1) := by decide +kernel
      have hno := hlowest _ hone
      revert hmissing hno
      have hall : ∀ id ∈ Sample.between.named, Sample.between.IsMissing (Sample.tied .done 1) .inProgress id →
          ¬ Sample.id 1 < id → id = Sample.id 1 := by decide +kernel
      exact hall id hnamed
    subst hid
    exact hanswer
  . obtain ⟨_, _, _, _, _, _, hbegun⟩ :=
      (Command.move_verdict Sample.steady Sample.below hb).2.2.2 (by decide +kernel)
    exact hbegun

end Sample

end LaneOrder
