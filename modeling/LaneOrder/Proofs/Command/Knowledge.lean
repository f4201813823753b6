import LaneOrder.Proofs.Command.Basic
import LaneOrder.Proofs.Command.Plan
import LaneOrder.Proofs.Command.Scope

/-!
This module contains which rows a move asks for, whatever a store answers. It knows them from its request, or the store
has shown them to it at the border of a gap.
-/

namespace LaneOrder

open Program

def Program.Event.shows? : Event calls → Option TaskId
  | ⟨.adjacent .., .ok nearest⟩ => nearest.map (·.id)
  | _ => none

/-- The protocol of those who ask for known rows only, as long as no other ones are shown to them. -/
def informed (known : TaskId → Prop) : Protocol calls where
  honest c reply := (Event.mk c reply).IsFaithful
    ∧ ∀ id, (Event.mk (I := calls) c reply).shows? = some id → known id
  allowed _ c := ∀ id, c.asks? = some id → known id

variable {α : Type} {known : TaskId → Prop} {workspace : WorkspaceId} {lane : Lane} {H : History calls}

theorem informed_of_none (H : History calls) (c : Call) (hc : c.asks? = none) : (informed known).allowed H c := by
  intro id hid
  rw [hc] at hid
  cases hid

theorem ambient_informed (H : History calls) (c : AmbientCall) : (informed known).allowed H (.ambient c) :=
  informed_of_none H _ rfl

namespace Gap

variable {anchors : Gap} {held : HeldLocks} {id : TaskId}

theorem mem_rows_closed {nearest : Option Neighbor} (h : id ∈ (anchors.closed nearest).rows) :
    id ∈ anchors.rows ∨ nearest.map (·.id) = some id := by
  obtain ⟨before, after⟩ := anchors
  cases before <;> cases after <;> cases nearest <;> grind [closed, rows]

theorem keptByChecks_informed : KeptByChecks (informed known) workspace lane known fun _ _ => True where
  asks _ _ hasks hid _ other hother := by
    rw [hasks] at hother
    cases hother
    exact hid
  attempted _ _ := trivial
  locked _ _ _ _ := trivial
  passes _ _ hasks := informed_of_none _ _ hasks
  passed _ _ _ := trivial
  seeded _ := trivial

theorem informed_secure {target : TaskId} {checks : Nat} (hanchors : ∀ id ∈ anchors.rows, known id) :
    Obeys (informed known) (fun _ reply => ∀ bounds seed, reply = .ok (.restart bounds seed) → ∀ id ∈ bounds, known id)
      (secure workspace lane target anchors checks held) H := by
  have hshown : ∀ nearest, (informed known).honest
      (.adjacent workspace lane anchors.lookout.1 anchors.lookout.2 target) (.ok nearest) →
      ∀ id ∈ (anchors.closed nearest).rows, known id := by
    intro nearest hnearest id hid
    rcases mem_rows_closed hid with hanchor | hshows
    . exact hanchors id hanchor
    . exact hnearest.2 id hshows
  apply (keptByChecks_informed.obeys_secure hshown trivial).mono
  rintro H' _ hfollows bounds seed rfl
  exact hfollows.1

end Gap

namespace Move

variable {r : MoveRequest} {plan : LockPlan}

def Locked.IsInformed (known : TaskId → Prop) : Outcome Locked → Prop
  | .ok l => ∀ id ∈ l.anchors.rows, known id
  | .error _ => True

/-- A row that was returned is the one that was asked for, so it is known. -/
theorem keptBySteps_informed : KeptBySteps (informed known) r lane
    (fun steps l _ => (∀ step ∈ steps, known step.id) ∧ ∀ id ∈ l.anchors.rows, known id) fun _ => True where
  ambient := ambient_informed
  asks step hk id hid := by
    rw [asks_of_stepCall rfl] at hid
    cases hid
    exact hk.1 step List.mem_cons_self
  locked step row hk hhonest := by
    obtain ⟨hid, hrest⟩ := List.forall_mem_cons.1 hk.1
    refine ⟨hrest, ?_⟩
    intro other hother
    rcases mem_rows_add hother with hbefore | ⟨_, rfl⟩
    . exact hk.2 other hbefore
    . rw [hhonest.1 step.id (asks_of_stepCall op_stepEvent) row mem_returned_stepEvent]
      exact hid
  skipped id hk := ⟨(List.forall_mem_cons.1 hk.1).2, hk.2⟩
  failed _ _ _ := trivial

theorem informed_lockSteps {steps : List LockStep} {l : Locked} (hsteps : ∀ step ∈ steps, known step.id)
    (hl : ∀ id ∈ l.anchors.rows, known id) :
    Obeys (informed known) (fun _ reply => Locked.IsInformed known reply)
      (lockSteps r lane steps l) H := by
  apply (keptBySteps_informed.obeys_lockSteps ⟨hsteps, hl⟩).mono
  intro H' reply hreply
  cases reply with
  | error e => exact trivial
  | ok l' => exact hreply.2

/-- If an attempt has to be repeated, then its next plan names known rows only. -/
def Attempt.IsInformed (known : TaskId → Prop) : Outcome Attempt → Prop
  | .ok (.retry wider) => ∀ step ∈ wider.steps, known step.id
  | _ => True

theorem informed_write {target : Task} {allocation : Allocation} :
    Obeys (informed known) (fun _ reply => Attempt.IsInformed known reply) (write r lane target allocation) H := by
  apply obeys_bind
  apply obeys_ask (informed_of_none _ _ rfl)
  intro reply _
  apply obeys_orFail ambient_informed
  . exact fun _ _ _ _ => trivial
  . rintro _ rfl
    apply obeys_bind
    apply obeys_ask (ambient_informed _ _)
    exact fun _ _ => trivial

theorem informed_settle {target : Task} {gap : Gap} :
    Obeys (informed known) (fun _ reply => Attempt.IsInformed known reply) (settle r lane target gap) H :=
  obeys_settle_of_write ambient_informed (fun _ => informed_write) (fun _ => informed_write)

theorem informed_lockAndSettle {held : HeldLocks} (hplan : ∀ step ∈ plan.steps, known step.id) :
    Obeys (informed known) (fun _ reply => Attempt.IsInformed known reply) (lockAndSettle r lane plan held) H := by
  have hnone : ∀ id ∈ ({ held } : Locked).anchors.rows, known id := by
    rintro _ ⟨⟩
  apply obeys_lockAndSettle_of
  apply (informed_lockSteps hplan hnone).mono
  intro H' reply hanchors
  refine ⟨fun _ => trivial, ?_⟩
  rintro l target rfl _
  apply obeys_secureAndSettle_of ambient_informed
  apply (Gap.informed_secure hanchors).mono
  intro H'' reply hbounds
  refine ⟨fun _ _ => trivial, fun _ _ => informed_settle, ?_⟩
  intro bounds laneSeed hrestart
  have hwider : ∀ step ∈ (plan.withBounds bounds).steps, known step.id := by
    intro step hstep
    rcases LockPlan.exists_of_mem_addBounds (LockPlan.mem_inOrder.1 hstep) with hold | hbound
    . exact hplan step hold
    . exact hbounds bounds laneSeed hrestart _ hbound
  cases laneSeed <;> exact hwider

theorem informed_place (hplan : ∀ step ∈ plan.steps, known step.id) :
    Obeys (informed known) (fun _ reply => Attempt.IsInformed known reply) (place r lane plan) H :=
  obeys_place_of ambient_informed (informed_of_none _ _ rfl) (fun _ _ _ => trivial) (informed_lockAndSettle hplan)
    (informed_lockAndSettle hplan)

theorem informed_finish {p : Placement} : Obeys (informed known) (fun _ _ => True) (finish r lane p) H := by
  have hfinish : Only (I := calls) (·.asks? = none) (finish r lane p) :=
    only_finish (fun _ => rfl) (fun _ => rfl) rfl
  exact hfinish.obeys informed_of_none

theorem informed_attempts {n : Nat} (hplan : ∀ step ∈ plan.steps, known step.id) :
    Obeys (informed known) (fun _ _ => True) (attempts r lane n plan) H := by
  apply obeys_attempts_of_place (fun plan => ∀ step ∈ plan.steps, known step.id) ambient_informed
    (fun H => informed_of_none H _ rfl) _ _ hplan
  . intro H plan hplan
    apply (informed_place hplan).mono
    intro H' reply hreply
    refine ⟨informed_of_none H' _ rfl, informed_of_none H' _ rfl, ?_⟩
    rintro wider rfl
    exact hreply
  . exact fun _ _ => informed_finish

theorem informed_moveTask (r : MoveRequest)
    (hknown : ∀ id, id = r.task ∨ r.before = some id ∨ r.after = some id → known id) :
    Obeys (informed known) (fun _ _ => True) (moveTask r) [] := by
  have hplan : ∀ step ∈ r.plan.steps, known step.id := by
    rintro ⟨id, role⟩ hstep
    apply hknown
    have hnamed := LockPlan.mem_inOrder.1 hstep
    simp only [List.mem_cons, List.mem_append, List.mem_map, Option.mem_toList] at hnamed
    rcases hnamed with ⟨⟨⟩⟩ | ⟨_, hbefore, ⟨⟩⟩ | ⟨_, hafter, ⟨⟩⟩
    . exact .inl rfl
    . exact .inr (.inl hbefore)
    . exact .inr (.inr hafter)
  apply obeys_authorized ambient_informed
  . exact informed_of_none _ _ rfl
  . exact fun _ _ _ => trivial
  . intro reply
    apply obeys_withLane
    . exact fun _ => trivial
    . intro lane _
      split
      . exact trivial
      . exact informed_attempts hplan

end Move

end LaneOrder
