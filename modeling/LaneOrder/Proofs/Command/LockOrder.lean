import LaneOrder.Proofs.Command.Runs

/-!
This module contains the order in which a move asks for locks. It is kept whatever a store answers, even if other rows
are returned than were asked for: what is waited for next depends only on what was asked for before.
-/

namespace LaneOrder

open Program

/-- The protocol of all commands, with nothing expected of replies. -/
def bare : Protocol calls where
  honest _ _ := True
  allowed := Call.Allowed

variable {H t : History calls} {held : HeldLocks} {workspace : WorkspaceId} {lane : Lane} {id other : TaskId}

theorem ambient_bare (H : History calls) (c : AmbientCall) : bare.allowed H (.ambient c) :=
  Call.allowed_of_idle rfl rfl rfl rfl

namespace Gap

theorem Noted.locked (h : Noted (held.attempted id) t) : Noted (held.locked id) t :=
  ⟨h.highest, h.locksLane, h.unwritten⟩

theorem Noted.seeded (h : Noted held t) : Noted held.seeded t :=
  ⟨h.highest, h.locksLane, h.unwritten⟩

theorem keptByChecks_noted : KeptByChecks bare workspace lane (fun _ => True)
    fun held H => ∃ t', transacted H = some t' ∧ t ⊆ t' ∧ Noted held t' := by
  apply keptByChecks_of_noted
  . exact fun hallowed _ => hallowed
  . exact fun hn => hn
  . exact Noted.push
  . exact Noted.attempted
  . exact fun hn _ _ _ => hn.locked
  . exact Noted.seeded

theorem bare_secure {target : TaskId} {anchors : Gap} {checks : Nat} (ht : transacted H = some t) (hn : Noted held t) :
    Obeys bare (fun H' _ => ∃ t', transacted H' = some t' ∧ t ⊆ t') (secure workspace lane target anchors checks held)
      H := by
  apply (keptByChecks_noted.obeys_secure (fun _ _ _ _ => trivial) ⟨t, ht, List.Subset.refl t, hn⟩).mono
  intro H' reply hreply
  obtain ⟨_, t', ht', hsub, _⟩ := keptByChecks_noted.kept_of_follows hreply
  exact ⟨t', ht', hsub⟩

end Gap

namespace Move

variable {r : MoveRequest} {outcome : Outcome MoveOutcome} {c : Call}

def Locked.IsTracked (t : History calls) : Outcome Locked → Prop
  | .ok l => Gap.Noted l.held t ∧ ∀ row, l.target = some row → Returned t row
  | .error _ => True

/-- All calls that lock rows as planned belong to one transaction, which has returned the target. -/
theorem keptBySteps_tracked : KeptBySteps bare r lane
    (fun steps l H => Ascends steps l.held ∧ ∃ t, transacted H = some t ∧ Locked.IsTracked t (.ok l))
    fun H => ∃ t, transacted H = some t where
  ambient := ambient_bare
  asks step hk := by
    obtain ⟨hascends, t, ht, hn, _⟩ := hk
    exact hn.allowed_ask ht (asks_of_stepCall rfl) fun _ => hascends.free step List.mem_cons_self
  locked step row hk _ := by
    obtain ⟨hascends, t, ht, hn, htarget⟩ := hk
    have hasks : (stepEvent r lane step row).op.asks? = some step.id := asks_of_stepCall op_stepEvent
    obtain ⟨hs, he, hlane, hpersists⟩ := Call.plain_of_asks hasks
    refine ⟨?_, _, transacted_push hs he ht, ?_, ?_⟩
    . rw [held_add]
      exact hascends.locked
    . rw [held_add]
      exact (hn.attempted hasks hlane hpersists).locked
    . obtain ⟨id, role⟩ := step
      cases role with
      | target =>
        rintro _ ⟨⟩
        exact ⟨_, List.mem_cons_self, mem_returned_stepEvent⟩
      | _ => exact fun row hrow => (htarget row hrow).mono (List.subset_cons_self _ t)
  skipped id hk := by
    obtain ⟨hascends, t, ht, hn, htarget⟩ := hk
    refine ⟨hascends.attempted, _, transacted_push rfl rfl ht, hn.attempted rfl rfl rfl, ?_⟩
    exact fun row hrow => (htarget row hrow).mono (List.subset_cons_self _ t)
  failed step hk hop := by
    obtain ⟨_, t, ht, _⟩ := hk
    obtain ⟨hs, he, _, _⟩ := Call.plain_of_asks (asks_of_stepCall hop)
    exact ⟨_, transacted_push rfl rfl (transacted_push hs he ht)⟩

theorem bare_lockSteps {steps : List LockStep} {l : Locked} (ht : transacted H = some t)
    (hascends : Ascends steps l.held) (hl : Locked.IsTracked t (.ok l)) :
    Obeys bare (fun H' reply => ∃ t', transacted H' = some t' ∧ Locked.IsTracked t' reply) (lockSteps r lane steps l)
      H := by
  apply (keptBySteps_tracked.obeys_lockSteps ⟨hascends, t, ht, hl⟩).mono
  intro H' reply hreply
  cases reply with
  | error e =>
    obtain ⟨t', ht'⟩ := hreply
    exact ⟨t', ht', trivial⟩
  | ok l' => exact hreply.2

/-- If an attempt has to be repeated, then its next plan is in order. -/
def Attempt.IsSorted : Outcome Attempt → Prop
  | .ok (.retry wider) => wider.steps.Pairwise (·.id < ·.id)
  | _ => True

theorem bare_write {target : Task} {allocation : Allocation} (ht : transacted H = some t) (htarget : Returned t target) :
    Obeys bare (fun H' reply => (∃ t', transacted H' = some t') ∧ Attempt.IsSorted reply) (write r lane target allocation)
      H := by
  apply obeys_bind
  apply obeys_ask (Call.allowed_of_persist ht htarget)
  intro reply _
  have ht' := transacted_push (e := ⟨.persist r.workspace target.id allocation.position lane, reply⟩) rfl rfl ht
  apply obeys_orFail ambient_bare
  . intro e _ n error
    exact ⟨⟨_, transacted_push rfl rfl ht'⟩, trivial⟩
  . rintro _ rfl
    apply obeys_bind
    apply obeys_ask (ambient_bare _ _)
    intro time _
    exact ⟨⟨_, transacted_push rfl rfl ht'⟩, trivial⟩

theorem bare_settle {target : Task} {gap : Gap} (ht : transacted H = some t) (htarget : Returned t target) :
    Obeys bare (fun H' reply => (∃ t', transacted H' = some t') ∧ Attempt.IsSorted reply) (settle r lane target gap)
      H := by
  apply obeys_settle_of_write ambient_bare
  . intro allocation
    apply bare_write (transacted_push rfl rfl ht)
    exact htarget.mono (List.subset_cons_self _ t)
  . intro allocation
    apply bare_write (transacted_push rfl rfl (transacted_push rfl rfl ht))
    exact (htarget.mono (List.subset_cons_self _ t)).mono (List.subset_cons_self _ _)

theorem bare_lockAndSettle {plan : LockPlan} (ht : transacted H = some t) (hplan : plan.steps.Pairwise (·.id < ·.id))
    (hn : Gap.Noted held t) (hnone : held.highest = none) :
    Obeys bare (fun H' reply => (∃ t', transacted H' = some t') ∧ Attempt.IsSorted reply) (lockAndSettle r lane plan held)
      H := by
  have hl : Locked.IsTracked t (.ok { held }) := by
    refine ⟨hn, ?_⟩
    rintro _ ⟨⟩
  apply obeys_lockAndSettle_of
  apply (bare_lockSteps ht (ascends_of_none hplan hnone) hl).mono
  rintro H' reply ⟨t', ht', hreply⟩
  refine ⟨fun _ => ⟨⟨t', ht'⟩, trivial⟩, ?_⟩
  rintro l target rfl htarget
  apply obeys_secureAndSettle_of ambient_bare
  apply (Gap.bare_secure ht' hreply.1).mono
  rintro H'' reply' ⟨t'', ht'', hsub⟩
  refine ⟨fun _ _ => ⟨⟨_, transacted_push rfl rfl ht''⟩, trivial⟩, ?_, ?_⟩
  . exact fun gap _ => bare_settle ht'' ((hreply.2 target htarget).mono hsub)
  . intro bounds laneSeed _
    refine ⟨⟨t'', ht''⟩, ?_⟩
    have hsorted : (plan.withBounds bounds).steps.Pairwise (·.id < ·.id) :=
      LockPlan.pairwise_inOrder (LockPlan.widens_foldl.nodup (LockPlan.nodup_of_sorted hplan))
    cases laneSeed <;> exact hsorted

theorem bare_place {plan : LockPlan} (ht : transacted H = some []) (hplan : plan.steps.Pairwise (·.id < ·.id)) :
    Obeys bare (fun H' reply => (∃ t', transacted H' = some t') ∧ Attempt.IsSorted reply) (place r lane plan) H := by
  have hn : Gap.Noted {} [] := by
    constructor <;> simp
  have ht' := fun reply => transacted_push (e := ⟨.lockSeed r.workspace lane, reply⟩) rfl rfl ht
  have hn' : Gap.Noted {} [⟨.lockSeed r.workspace lane, .ok ()⟩] := hn.push rfl rfl rfl
  apply obeys_place_of ambient_bare (Call.allowed_lockSeed ht)
  . exact fun e _ _ => ⟨⟨_, transacted_push rfl rfl (ht' (.error e))⟩, trivial⟩
  . exact bare_lockAndSettle (ht' (.ok ())) hplan hn'.seeded rfl
  . exact bare_lockAndSettle ht hplan hn rfl

theorem bare_finish {p : Placement} : Obeys bare (fun _ _ => True) (finish r lane p) H := by
  have hfinish : Only (I := calls) (fun c => ∀ H, bare.allowed H c) (finish r lane p) := by
    apply only_finish
    . exact fun c H => ambient_bare H c
    . exact fun _ _ => Call.allowed_of_idle rfl rfl rfl rfl
    . exact fun _ => Call.allowed_of_idle rfl rfl rfl rfl
  exact hfinish.obeys fun H _ hc => hc H

theorem bare_attempts {n : Nat} {plan : LockPlan} (hplan : plan.steps.Pairwise (·.id < ·.id)) :
    Obeys bare (fun _ _ => True) (attempts r lane n plan) H := by
  apply obeys_attempts_of_place (fun plan => plan.steps.Pairwise (·.id < ·.id)) ambient_bare
    (fun _ => Call.allowed_of_idle rfl rfl rfl rfl) _ _ hplan
  . intro H plan hplan
    apply (bare_place transacted_begin hplan).mono
    rintro H' reply ⟨⟨t, ht⟩, hreply⟩
    refine ⟨Call.allowed_of_end ht rfl rfl rfl, Call.allowed_of_end ht rfl rfl rfl, ?_⟩
    rintro wider rfl
    exact hreply
  . exact fun _ _ => bare_finish

theorem bare_moveTask (r : MoveRequest) : Obeys bare (fun _ _ => True) (moveTask r) [] := by
  apply obeys_authorized ambient_bare
  . exact Call.allowed_of_idle rfl rfl rfl rfl
  . exact fun _ _ _ => trivial
  . intro reply
    apply obeys_withLane
    . exact fun _ => trivial
    . intro lane _
      split
      . exact trivial
      . next hr => exact bare_attempts (fits_plan hr).sorted

/-- Whatever a store has answered, all that was asked for in the transaction that is still open is lower than the row
that is waited for next, and nothing was asked for before the seed of a lane is waited for. -/
theorem locks_in_order (h : Reaches (moveTask r) H c) :
    (∀ id, c.awaits? = some id → ∃ t past, H = t ++ ⟨.begin, .ok ()⟩ :: past
      ∧ ∀ e ∈ t, e.op.starts = false ∧ e.op.ends = false ∧ ∀ other, e.op.asks? = some other → other < id)
    ∧ (∀ workspace lane, c = .lockSeed workspace lane → ∃ t past, H = t ++ ⟨.begin, .ok ()⟩ :: past
      ∧ ∀ e ∈ t, e.op.starts = false ∧ e.op.ends = false ∧ e.op.asks? = none) := by
  have hallowed := (bare_moveTask r).of_reaches h fun _ _ => trivial
  have hphases := (phases_moveTask r).of_reaches h fun _ _ => trivial
  rw [List.append_nil] at hallowed hphases
  -- the calls since the last start belong to a transaction that was begun
  have hbegun : ∀ {t : History calls}, c.transacts = true → transacted H = some t →
      (∃ past, H = t ++ ⟨.begin, .ok ()⟩ :: past) ∧ ∀ e ∈ t, e.op.starts = false ∧ e.op.ends = false := by
    intro t htransacts ht
    obtain ⟨_, t', past, ht', hH⟩ := hphases.2.transacts htransacts
    cases ht.symm.trans ht'
    exact ⟨⟨past, hH⟩, not_boundary_of_since ht⟩
  constructor
  . intro id hawaits
    have htransacts : c.transacts = true := by
      cases c <;> first | rfl | cases hawaits
    obtain ⟨t, ht, hbelow⟩ := hallowed.awaits id hawaits
    obtain ⟨⟨past, hH⟩, hboundary⟩ := hbegun htransacts ht
    refine ⟨t, past, hH, ?_⟩
    intro e he
    exact ⟨(hboundary e he).1, (hboundary e he).2, (hbelow e he).2⟩
  . rintro workspace lane rfl
    obtain ⟨t, ht, hnone⟩ := hallowed.first (.inr ⟨workspace, lane, rfl⟩)
    obtain ⟨⟨past, hH⟩, hboundary⟩ := hbegun rfl ht
    refine ⟨t, past, hH, ?_⟩
    intro e he
    exact ⟨(hboundary e he).1, (hboundary e he).2, (hnone e he).1⟩

/-- The row that is waited for last, after the target and its anchor. -/
theorem locks_in_order_gap : ∃ H c, Reaches (moveTask Sample.move) H c ∧ c.awaits? = some (Sample.id 7)
    ∧ ∃ t past, H = t ++ ⟨.begin, .ok ()⟩ :: past
      ∧ ∀ e ∈ t, e.op.starts = false ∧ e.op.ends = false ∧ ∀ other, e.op.asks? = some other → other < Sample.id 7 := by
  have hends := ends_answered (Sample.reply (.ok none)) (moveTask Sample.move)
  have hwaits : ((moveTask Sample.move).answered (Sample.reply (.ok none))).1.any
      (·.op.awaits? = some (Sample.id 7)) = true := by
    decide +kernel
  obtain ⟨e, he, hawaits⟩ := List.any_eq_true.1 hwaits
  obtain ⟨newer, H, hrun⟩ := List.append_of_mem he
  have hawaits : e.op.awaits? = some (Sample.id 7) := by simpa using hawaits
  rw [hrun] at hends
  exact ⟨H, e.op, hends.reaches, hawaits, (locks_in_order hends.reaches).1 _ hawaits⟩

end Move

end LaneOrder
