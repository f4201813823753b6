import LaneOrder.Proofs.Command.Knowledge
import LaneOrder.Proofs.Command.Sequel

/-!
This module contains how attempts of a move end in a retry, whatever a store answers: the seed of the lane or a row of the
gap was busy, or the gap was read as often as it may be and has not settled.
-/

namespace LaneOrder

open Program

namespace Call

def looks : Call → Bool
  | adjacent .. => true
  | _ => false

def isLock (c : Call) : Bool :=
  c.asks?.isSome

theorem prepares_of_isLock {c : Call} (h : c.isLock = true) : c.prepares = true := by
  cases c <;> first | rfl | cases h

end Call

namespace Program.Event

/-- A lock was taken that was waited for. It is kept even if the row is not what was wanted. -/
def grants? : Event calls → Option TaskId
  | ⟨.lockTarget _ id, .ok _⟩ | ⟨.lockNeighbor _ _ id, .ok _⟩ | ⟨.lockNeighbor _ _ id, .error (.notFound _)⟩ => some id
  | _ => none

end Program.Event

variable {E newer older : History calls} {workspace : WorkspaceId} {lane : Lane}

theorem looks_of_locks (h : ∀ e ∈ E, e.op.isLock = true) : E.countP (·.op.looks) = 0 := by
  rw [List.countP_eq_zero]
  rintro ⟨c, reply⟩ he
  have hlock := h _ he
  cases c <;> first | cases hlock; done | simp [Call.looks]

theorem not_seeds_of_locks (h : ∀ e ∈ E, e.op.isLock = true) : ¬ Seeds E workspace lane := by
  rintro ⟨⟨c, reply⟩, he, hseeds⟩
  have hlock := h _ he
  cases c <;> first | cases hlock; done | cases hseeds

theorem seeds_append : Seeds (newer ++ older) workspace lane ↔ Seeds newer workspace lane ∨ Seeds older workspace lane := by
  simp only [Seeds, List.mem_append, or_and_right, exists_or]

namespace Gap

def keptMoving : Event calls :=
  ⟨.ambient (.note .gapKeptMoving), ()⟩

/-- A gap was read as often as it may be, and has not settled. An attempt that finds a lock busy ends because of this lock, even
after its last read. -/
structure UsesUpReads (E : History calls) : Prop where
  looks : E.countP (·.op.looks) = maxChecks
  noted : keptMoving ∈ E

variable {target id : TaskId} {anchors gap : Gap} {checks : Nat} {held held' : HeldLocks} {ids : List TaskId}

theorem not_noted (h : ∀ e ∈ E, e.op.prepares = true) : keptMoving ∉ E :=
  fun hmem => nomatch h _ hmem

theorem locks_lockRows : Only (I := calls) (·.isLock = true) (lockRows workspace lane held ids) :=
  only_lockRows (fun _ => rfl) fun _ => rfl

theorem laneSeed_locked : (held.locked id).laneSeed = held.laneSeed :=
  laneSeed_attempted

theorem keptByLocks_laneSeed (held : HeldLocks) (ids : List TaskId) :
    KeptByLocks (.free calls) workspace lane (· ∈ ids) fun held' _ => held'.laneSeed = held.laneSeed where
  asks _ _ _ _ _ := trivial
  attempted hk _ := laneSeed_attempted.trans hk
  locked hk _ _ _ := laneSeed_locked.trans hk

/-- The last call of those that lock rows has found the busy one. -/
theorem ends_lockRows {locking : Locking} (h : Ends (I := calls) (lockRows workspace lane held ids) E (.ok locking)) :
    (∃ held', locking = .held held' ∧ held'.laneSeed = held.laneSeed)
      ∨ ∃ id older, locking = .busy id ∧ id ∈ ids ∧ E = ⟨.tryLockNeighbor workspace lane id, .ok none⟩ :: older := by
  have hfollows := ((keptByLocks_laneSeed held ids).obeys_lockRows (fun _ hid => hid) rfl).of_ends_free h
  cases locking with
  | held held' => exact .inl ⟨held', rfl, hfollows⟩
  | busy id =>
    obtain ⟨hid, ⟨older, rfl⟩, _⟩ := hfollows
    exact .inr ⟨id, older, rfl, hid, rfl⟩

/-- What was called when securing a gap was given up, and what has to be locked before it is tried again. -/
inductive Restarts (workspace : WorkspaceId) (lane : Lane) (target : TaskId) (anchors : Gap) (checks : Nat)
    (held : HeldLocks) : History calls → List TaskId → Bool → Prop where
  | unsettled {E : History calls} {laneSeed : Bool} (hlooks : E.countP (·.op.looks) = checks)
    (hheld : held.laneSeed = true → laneSeed = true) (hseeds : Seeds E workspace lane → laneSeed = true) :
    Restarts workspace lane target anchors checks held (keptMoving :: E) [] laneSeed
  | busySeed {E : History calls} (hlooks : E.countP (·.op.looks) ≤ checks) (hnoted : keptMoving ∉ E)
    (hheld : held.laneSeed = false) : Restarts workspace lane target anchors checks held E [] true
  | busyRow {id : TaskId} {nearest : Option Neighbor} {locks older : History calls}
    (hid : id ∈ (anchors.closed nearest).rows) (hlocks : ∀ e ∈ locks, e.op.isLock = true)
    (hlooks : older.countP (·.op.looks) < checks) (hnoted : keptMoving ∉ older) :
    Restarts workspace lane target anchors checks held (⟨.tryLockNeighbor workspace lane id, .ok none⟩ :: (locks
      ++ ⟨.adjacent workspace lane anchors.lookout.1 anchors.lookout.2 target, .ok nearest⟩ :: older)) [id] false

theorem Restarts.append {bounds : List TaskId} {laneSeed : Bool} {count : Nat}
    (h : Restarts workspace lane target anchors checks held' newer bounds laneSeed)
    (hlooks : older.countP (·.op.looks) = count) (hprepares : ∀ e ∈ older, e.op.prepares = true)
    (hheld : held.laneSeed = true → held'.laneSeed = true) (hseeds : Seeds older workspace lane → held'.laneSeed = true) :
    Restarts workspace lane target anchors (checks + count) held (newer ++ older) bounds laneSeed := by
  have hnoted := not_noted hprepares
  cases h with
  | unsettled hlooks' hheld' hseeds' =>
    rw [List.cons_append]
    apply Restarts.unsettled
    . rw [List.countP_append, hlooks', hlooks]
    . exact fun hseed => hheld' (hheld hseed)
    . intro hseed
      rcases seeds_append.1 hseed with hseed | hseed
      . exact hseeds' hseed
      . exact hheld' (hseeds hseed)
  | busySeed hlooks' hnoted' hheld' =>
    apply Restarts.busySeed
    . rw [List.countP_append, hlooks]
      omega
    . exact fun hmem => (List.mem_append.1 hmem).elim hnoted' hnoted
    . rw [← Bool.not_eq_true]
      intro hseed
      rw [hheld hseed] at hheld'
      cases hheld'
  | busyRow hid hlocks hlooks' hnoted' =>
    rw [List.cons_append, List.append_assoc, List.cons_append]
    apply Restarts.busyRow hid hlocks
    . rw [List.countP_append, hlooks]
      omega
    . exact fun hmem => (List.mem_append.1 hmem).elim hnoted' hnoted

/-- A check of the gap, and what was done about it, came before the rest. -/
theorem Restarts.after_check {bounds : List TaskId} {laneSeed : Bool} {nearest : Option Neighbor}
    (h : Restarts workspace lane target anchors checks held' newer bounds laneSeed)
    (hlooks : older.countP (·.op.looks) = 0) (hprepares : ∀ e ∈ older, e.op.prepares = true)
    (hheld : held.laneSeed = true → held'.laneSeed = true) (hseeds : Seeds older workspace lane → held'.laneSeed = true) :
    Restarts workspace lane target anchors (checks + 1) held (newer ++ (older
      ++ [⟨.adjacent workspace lane anchors.lookout.1 anchors.lookout.2 target, .ok nearest⟩])) bounds laneSeed := by
  apply h.append _ _ hheld
  . intro hseed
    rcases seeds_append.1 hseed with hseed | hseed
    . exact hseeds hseed
    . simp [Seeds, Event.seeds?] at hseed
  . rw [List.countP_append, hlooks]
    rfl
  . rw [List.forall_mem_append]
    exact ⟨hprepares, by simp [Call.prepares]⟩

theorem ends_secure {bounds : List TaskId} {laneSeed : Bool}
    (h : Ends (I := calls) (secure workspace lane target anchors checks held) E (.ok (.restart bounds laneSeed))) :
    Restarts workspace lane target anchors checks held E bounds laneSeed := by
  induction checks generalizing held E with
  | zero =>
    obtain ⟨_, E₁, E₂, hask, hdone, rfl⟩ := ends_bind h
    cases ends_ask hask
    obtain ⟨rfl, heq⟩ := ends_done.1 hdone
    cases heq
    exact .unsettled rfl (fun hseed => hseed) (by simp [Seeds])
  | succ checks ih =>
    unfold secure at h
    rw [find_eq] at h
    obtain ⟨found, E₁, E₂, hfind, h₁, rfl⟩ := ends_bind h
    obtain ⟨reply, E₃, E₄, hask, hdone, rfl⟩ := ends_bind hfind
    cases ends_ask hask
    obtain ⟨rfl, rfl⟩ := ends_done.1 hdone
    cases reply with
    | error e => cases (ends_done.1 h₁).2
    | ok nearest =>
      change Ends (ite _ _ _) _ _ at h₁
      split at h₁
      . split at h₁
        . cases (ends_done.1 h₁).2
        . next hclosed =>
          obtain ⟨reply, E₅, E₆, hask, h₂, rfl⟩ := ends_bind h₁
          cases ends_ask hask
          cases reply with
          | error e => cases (ends_done.1 h₂).2
          | ok taken =>
            cases taken with
            | true =>
              have hseeded : held.seeded.laneSeed = true := rfl
              rw [List.append_assoc]
              exact (ih h₂).after_check rfl (by simp [Call.prepares, Call.locksSeed]) (fun _ => hseeded) fun _ => hseeded
            | false =>
              obtain ⟨rfl, heq⟩ := ends_done.1 h₂
              cases heq
              refine .busySeed ?_ (by simp [keptMoving]) ?_
              . show 1 ≤ checks + 1
                omega
              . simp_all
      . obtain ⟨reply, E₅, E₆, hlock, h₂, rfl⟩ := ends_bind h₁
        have hlocks := locks_lockRows.of_ends hlock
        cases reply with
        | error e => cases (ends_done.1 h₂).2
        | ok locking =>
          rcases ends_lockRows hlock with ⟨held', rfl, hheld'⟩ | ⟨id, older, rfl, hid, rfl⟩
          . rw [List.append_assoc]
            apply (ih h₂).after_check (looks_of_locks hlocks)
            . exact fun e he => Call.prepares_of_isLock (hlocks e he)
            . rw [hheld']
              exact fun hseed => hseed
            . exact fun hseed => absurd hseed (not_seeds_of_locks hlocks)
          . obtain ⟨rfl, heq⟩ := ends_done.1 h₂
            cases heq
            exact .busyRow (mem_missing.1 hid).1 (List.forall_mem_cons.1 hlocks).2 (by simp) (by simp)

end Gap

namespace Move

variable {r : MoveRequest} {plan wider : LockPlan} {anchors : Gap} {held : HeldLocks}

/-- A row was returned under its lock by a call for neighbors. -/
def ReturnsNeighbor (r : MoveRequest) (lane : Lane) (E : History calls) (id : TaskId) : Prop :=
  ∃ other row, (⟨.lockNeighbor r.workspace lane other, .ok row⟩ : Event calls) ∈ E ∧ row.id = id

/-- The calls that have locked the rows of some steps. -/
structure LocksSteps (r : MoveRequest) (lane : Lane) (steps : List LockStep) (l l' : Locked) (E : History calls) : Prop where
  locks : ∀ e ∈ E, e.op.isLock = true
  steps : ∀ step ∈ steps, ∃ e ∈ E, e.grants? = some step.id
  laneSeed : l'.held.laneSeed = l.held.laneSeed
  anchors : ∀ id ∈ l'.anchors.rows, id ∈ l.anchors.rows ∨ ReturnsNeighbor r lane E id

theorem LocksSteps.snoc {l l₁ l₂ : Locked} {steps : List LockStep} {step : LockStep} {e : Event calls}
    (h : LocksSteps r lane steps l l₁ E) (hlock : e.op.asks? = some step.id) (hgrants : e.grants? = some step.id)
    (hseed : l₂.held.laneSeed = l₁.held.laneSeed)
    (hanchors : ∀ id ∈ l₂.anchors.rows, id ∈ l₁.anchors.rows ∨ ReturnsNeighbor r lane [e] id) :
    LocksSteps r lane (steps ++ [step]) l l₂ (e :: E) where
  locks := List.forall_mem_cons.2 ⟨Option.isSome_of_mem hlock, h.locks⟩
  steps := by
    rw [List.forall_mem_append, List.forall_mem_singleton]
    constructor
    . intro step' hstep
      obtain ⟨e', he', hgrants'⟩ := h.steps step' hstep
      exact ⟨e', List.mem_cons_of_mem e he', hgrants'⟩
    . exact ⟨e, List.mem_cons_self, hgrants⟩
  laneSeed := hseed.trans h.laneSeed
  anchors id hid := by
    rcases hanchors id hid with hid | ⟨other, row, hmem, hrow⟩
    . rcases h.anchors id hid with hid | ⟨other, row, hmem, hrow⟩
      . exact .inl hid
      . exact .inr ⟨other, row, List.mem_cons_of_mem e hmem, hrow⟩
    . exact .inr ⟨other, row, List.mem_cons.2 (.inl (List.mem_singleton.1 hmem)), hrow⟩

theorem grants_stepEvent {step : LockStep} {row : Task} : (stepEvent r lane step row).grants? = some step.id := by
  obtain ⟨id, role⟩ := step
  cases role <;> rfl

theorem returnsNeighbor_of_add {l : Locked} {step : LockStep} {row : Task} {id : TaskId}
    (h : id ∈ ({ l with held }.add step.role row).anchors.rows) :
    id ∈ l.anchors.rows ∨ ReturnsNeighbor r lane [stepEvent r lane step row] id := by
  obtain ⟨other, role⟩ := step
  rcases mem_rows_add h with hbefore | ⟨rfl | rfl, hrow⟩
  . exact .inl hbefore
  . exact .inr ⟨other, row, List.mem_singleton_self _, hrow⟩
  . exact .inr ⟨other, row, List.mem_singleton_self _, hrow⟩

theorem keptBySteps_locks (all : List LockStep) (l : Locked) : KeptBySteps (.free calls) r lane
    (fun steps l' H => ∃ done, all = done ++ steps ∧ LocksSteps r lane done l l' H) fun _ => True where
  ambient _ _ := trivial
  asks _ _ := trivial
  locked step row hk _ := by
    obtain ⟨done, rfl, hlocks⟩ := hk
    refine ⟨done ++ [step], (List.append_cons ..), ?_⟩
    apply hlocks.snoc (asks_of_stepCall op_stepEvent) grants_stepEvent
    . rw [held_add]
      exact Gap.laneSeed_locked
    . exact fun id hid => returnsNeighbor_of_add hid
  skipped id hk := by
    obtain ⟨done, rfl, hlocks⟩ := hk
    exact ⟨done ++ [⟨id, .bound⟩], List.append_cons .., hlocks.snoc rfl rfl Gap.laneSeed_attempted fun _ hid => .inl hid⟩
  failed _ _ _ := trivial

theorem ends_lockSteps {steps : List LockStep} {l l' : Locked}
    (h : Ends (I := calls) (lockSteps r lane steps l) E (.ok l')) : LocksSteps r lane steps l l' E := by
  have hnone : LocksSteps r lane [] l l [] := ⟨by simp, by simp, rfl, fun _ hid => .inl hid⟩
  obtain ⟨done, hdone, hlocks⟩ := ((keptBySteps_locks steps l).obeys_lockSteps ⟨[], rfl, hnone⟩).of_ends_free h
  rw [List.append_nil] at hdone
  rwa [hdone]

theorem not_ends_settle {target : Task} {gap : Gap} :
    ¬ Ends (I := calls) (settle r lane target gap) E (.ok (.retry wider)) := by
  have hwrite : ∀ {allocation : Allocation} {E : History calls},
      ¬ Ends (I := calls) (write r lane target allocation) E (.ok (.retry wider)) := by
    intro allocation E h
    obtain ⟨_, _, _, _, h₁, _⟩ := ends_bind h
    obtain ⟨_, _, h₂⟩ := ends_orFail h₁
    obtain ⟨_, _, _, _, h₃, _⟩ := ends_bind h₂
    cases (ends_done.1 h₃).2
  intro h
  obtain ⟨⟨position, exhausted⟩, _, _, _, h₁, _⟩ := ends_bind h
  cases exhausted with
  | false => exact hwrite h₁
  | true =>
    obtain ⟨_, _, _, _, h₂, _⟩ := ends_bind h₁
    exact hwrite h₂

/-- The locks of a plan were taken, and no gap was read yet. -/
structure TakesLocks (r : MoveRequest) (lane : Lane) (plan : LockPlan) (anchors : Gap) (held : HeldLocks)
    (E : History calls) : Prop where
  prepares : ∀ e ∈ E, e.op.prepares = true
  looks : E.countP (·.op.looks) = 0
  steps : ∀ step ∈ plan.steps, ∃ e ∈ E, e.grants? = some step.id
  anchors : ∀ id ∈ anchors.rows, ReturnsNeighbor r lane E id
  laneSeed : held.laneSeed = plan.laneSeed
  seeds : Seeds E r.workspace lane → plan.laneSeed = true

/-- An attempt has taken the locks of its plan, and could not secure the gap. -/
def Retreats (r : MoveRequest) (lane : Lane) (plan wider : LockPlan) (E : History calls) : Prop :=
  ∃ target anchors held bounds laneSeed newer older, E = newer ++ older ∧ TakesLocks r lane plan anchors held older
    ∧ Gap.Restarts r.workspace lane target anchors Gap.maxChecks held newer bounds laneSeed
    ∧ wider = if laneSeed then (plan.withBounds bounds).withLaneSeed else plan.withBounds bounds

theorem LocksSteps.takesLocks {l l' : Locked} (h : LocksSteps r lane plan.steps l l' E) (hopen : l.anchors = {})
    (hseed : l.held.laneSeed = plan.laneSeed) : TakesLocks r lane plan l'.anchors l'.held E where
  prepares e he := Call.prepares_of_isLock (h.locks e he)
  looks := looks_of_locks h.locks
  steps := h.steps
  anchors id hid := by
    rcases h.anchors id hid with hid | hreturns
    . rw [hopen] at hid
      cases hid
    . exact hreturns
  laneSeed := h.laneSeed.trans hseed
  seeds hseeds := absurd hseeds (not_seeds_of_locks h.locks)

theorem TakesLocks.after_seed {reply : Except StoreError Unit} (h : TakesLocks r lane plan anchors held E)
    (hseed : plan.laneSeed = true) :
    TakesLocks r lane plan anchors held (E ++ [⟨.lockSeed r.workspace lane, reply⟩]) where
  prepares := List.forall_mem_append.2 ⟨h.prepares, by simp [Call.prepares, Call.locksSeed]⟩
  looks := by
    rw [List.countP_append, h.looks]
    rfl
  steps step hstep := by
    obtain ⟨e, he, hgrants⟩ := h.steps step hstep
    exact ⟨e, List.mem_append_left _ he, hgrants⟩
  anchors id hid := by
    obtain ⟨other, row, hmem, hrow⟩ := h.anchors id hid
    exact ⟨other, row, List.mem_append_left _ hmem, hrow⟩
  laneSeed := h.laneSeed
  seeds _ := hseed

theorem retreats_of_lockAndSettle (hseed : held.laneSeed = plan.laneSeed)
    (h : Ends (I := calls) (lockAndSettle r lane plan held) E (.ok (.retry wider))) : Retreats r lane plan wider E := by
  obtain ⟨l, target, securing, locks, checks, rest, hlocks, _, hsecure, rfl, hends⟩ := ends_lockAndSettle h
  rcases hends with ⟨gap, _, hsettle⟩ | ⟨bounds, laneSeed, rfl, rfl, hwider⟩
  . exact absurd hsettle not_ends_settle
  . cases hwider
    exact ⟨target.id, l.anchors, l.held, bounds, laneSeed, checks, locks, rfl,
      (ends_lockSteps hlocks).takesLocks rfl hseed, Gap.ends_secure hsecure, rfl⟩

theorem retreats_of_retry (h : Ends (I := calls) (place r lane plan) E (.ok (.retry wider))) :
    Retreats r lane plan wider E := by
  obtain ⟨held, rest, older, hrest, rfl, hseed, holder⟩ := ends_place_inv h
  have hretreats := retreats_of_lockAndSettle hseed hrest
  rcases holder with rfl | ⟨hplan, reply, rfl⟩
  . rwa [List.append_nil]
  . obtain ⟨target, anchors, held, bounds, laneSeed, newer, older, rfl, htaken, hrest⟩ := hretreats
    exact ⟨target, anchors, held, bounds, laneSeed, newer, _, List.append_assoc .., htaken.after_seed hplan, hrest⟩

/-- The last call of an attempt has found a row busy that was next to an anchor when the gap was read. -/
def FindsBusy (r : MoveRequest) (lane : Lane) (plan : LockPlan) (E : History calls) (id : TaskId) : Prop :=
  ∃ target anchors held nearest locks checked taken, E = ⟨.tryLockNeighbor r.workspace lane id, .ok none⟩ :: (locks
      ++ ⟨.adjacent r.workspace lane anchors.lookout.1 anchors.lookout.2 target, .ok nearest⟩ :: (checked ++ taken))
    ∧ id ∈ (anchors.closed nearest).rows ∧ TakesLocks r lane plan anchors held taken

/-- All ways in which an attempt can end in a retry. -/
inductive RetryCase (r : MoveRequest) (lane : Lane) (plan wider : LockPlan) (E : History calls) : Prop where
  | unsettled (hused : Gap.UsesUpReads E) (hincludes : wider.Includes plan)
    (hseeds : Seeds E r.workspace lane → wider.laneSeed = true)
  | busySeed (hnoted : Gap.keptMoving ∉ E) (hexceeds : wider.Exceeds plan)
  | busyRow {id : TaskId} (hnoted : Gap.keptMoving ∉ E) (hbusy : FindsBusy r lane plan E id)
    (hwider : wider = plan.withBounds [id])

theorem Retreats.retryCase (h : Retreats r lane plan wider E) :
    E.countP (·.op.looks) ≤ Gap.maxChecks ∧ RetryCase r lane plan wider E := by
  obtain ⟨target, anchors, held, bounds, laneSeed, newer, older, rfl, htaken, hrestarts, rfl⟩ := h
  have hnoted := Gap.not_noted htaken.prepares
  rw [List.countP_append, htaken.looks, Nat.add_zero]
  cases hrestarts with
  | @unsettled E _ hlooks hheld hseeds =>
    have hcount : (Gap.keptMoving :: E).countP (·.op.looks) = Gap.maxChecks := by
      rw [List.countP_cons_of_neg (by simp [Gap.keptMoving, Call.looks]), hlooks]
    refine ⟨Nat.le_of_eq hcount, .unsettled ⟨?_, by simp⟩ ?_ ?_⟩
    . rw [List.countP_append, hcount, htaken.looks, Nat.add_zero]
    . split
      . exact LockPlan.includes_withBounds.withLaneSeed
      . exact LockPlan.includes_withBounds
    . intro hobtained
      have hseed : laneSeed = true := by
        rcases seeds_append.1 hobtained with hobtained | hobtained
        . apply hseeds
          simpa [Seeds, Event.seeds?, Gap.keptMoving] using hobtained
        . exact hheld (htaken.laneSeed.trans (htaken.seeds hobtained))
      rw [if_pos hseed]
      rfl
  | busySeed hlooks hunnoted hheld =>
    refine ⟨hlooks, .busySeed ?_ ?_⟩
    . exact fun hmem => (List.mem_append.1 hmem).elim hunnoted hnoted
    . exact LockPlan.exceeds_withLaneSeed (htaken.laneSeed.symm.trans hheld)
  | @busyRow id nearest locks checked hid hlocks hlooks hunnoted =>
    constructor
    . rw [List.countP_cons_of_neg (by simp [Call.looks]), List.countP_append, looks_of_locks hlocks]
      rw [List.countP_cons_of_pos rfl]
      omega
    . apply RetryCase.busyRow _ _ rfl
      . have hunnoted' := Gap.not_noted fun e he => Call.prepares_of_isLock (hlocks e he)
        simp only [List.cons_append, List.mem_cons, List.mem_append, not_or]
        exact ⟨by simp [Gap.keptMoving], ⟨hunnoted', by simp [Gap.keptMoving], hunnoted⟩, hnoted⟩
      . exact ⟨target, anchors, held, nearest, locks, checked, older, by simp, hid, htaken⟩

/-- A move begins an attempt with a plan after some calls, and the calls of this attempt make it retry with another plan. -/
structure Retries (r : MoveRequest) (lane : Lane) (n : Nat) (plan wider : LockPlan) (H E : History calls) : Prop where
  starts : Leaves (I := calls) (moveTask r) H (attempts r lane (n + 1) plan)
  ends : Ends (I := calls) (place r lane plan) E (.ok (.retry wider))

/-- After an attempt has ended in a retry, it is given up, and the other plan is that of the next one. -/
theorem Retries.goes_on {n : Nat} {H : History calls} (h : Retries r lane n plan wider H E) :
    Leaves (I := calls) (moveTask r) (E ++ ⟨.begin, .ok ()⟩ :: H) (do
      abandon
      note .gapRetried
      attempts r lane n wider) := by
  have hbegun := h.starts.push (.ok ())
  exact hbegun.trans (leaves_of_ends h.ends)

end Move

end LaneOrder
