import LaneOrder.Proofs.Command.Plan
import LaneOrder.Proofs.Command.Scope

/-!
This module contains what a move calls, whatever a store answers. The target is written at most once before a commit,
with a position that was allocated in a gap whose border was locked before the gap was read.
-/

namespace LaneOrder

open Program

namespace Move

structure Anchored (r : MoveRequest) (lane : Lane) (anchors : Gap) (t : History calls) : Prop where
  target : ∃ row, (⟨.lockTarget r.workspace r.task, .ok row⟩ : Event calls) ∈ t
  before : ∀ n, anchors.before = some n → ∃ id row, r.before = some id
    ∧ (⟨.lockNeighbor r.workspace lane id, .ok row⟩ : Event calls) ∈ t ∧ row.toNeighbor = n
  after : ∀ n, anchors.after = some n → ∃ id row, r.after = some id
    ∧ (⟨.lockNeighbor r.workspace lane id, .ok row⟩ : Event calls) ∈ t ∧ row.toNeighbor = n
  given : (r.before.isSome = true → anchors.before.isSome = true) ∧ (r.after.isSome = true → anchors.after.isSome = true)

def sighting (r : MoveRequest) (lane : Lane) (anchors : Gap) (nearest : Option Neighbor) : Event calls :=
  ⟨.adjacent r.workspace lane anchors.lookout.1 anchors.lookout.2 r.task, .ok nearest⟩

def allotment (gap : Gap) (allocation : Allocation) : Event calls :=
  ⟨.ambient (.allocate (gap.before.map (·.position)) (gap.after.map (·.position))), allocation⟩

/-- A position was allocated in a secured gap, and no store was called since the gap was read. -/
def Settles (r : MoveRequest) (lane : Lane) (H : History calls) (position : Position) : Prop :=
  ∃ anchors nearest exhausted notes older,
    transacted H = some (notes ++ allotment (anchors.closed nearest) ⟨position, exhausted⟩
      :: sighting r lane anchors nearest :: older)
    ∧ (∀ e ∈ notes, e.op.isQuiet = true) ∧ Anchored r lane anchors older
    ∧ Gap.Bounded r.workspace lane (anchors.closed nearest) older

def Inside (r : MoveRequest) (lane : Lane) (H : History calls) : Call → Prop
  | .ambient _ => True
  | .lockTarget w id => w = r.workspace ∧ id = r.task
  | .lockNeighbor w l _ | .tryLockNeighbor w l _ | .lockSeed w l | .tryLockSeed w l | .adjacent w l .. =>
    w = r.workspace ∧ l = lane
  | .persist w id position l => w = r.workspace ∧ id = r.task ∧ l = lane ∧ Settles r lane H position
  | _ => False

def Persisted (H : History calls) : Prop :=
  ∃ workspace id position lane quiet older, H = quiet ++ ⟨.persist workspace id position lane, .ok ()⟩ :: older
    ∧ ∀ e ∈ quiet, e.op.isQuiet = true

def Performs (r : MoveRequest) (H : History calls) : Call → Prop
  | .ambient _ | .role .. | .record _ | .find .. | .begin | .rollback => True
  | .commit => Persisted H
  | c => ∃ lane, Lane.parse r.lane = .ok lane ∧ r.anchorError? = none ∧ Inside r lane H c

def insideProtocol (r : MoveRequest) (lane : Lane) : Protocol calls where
  honest := callDiscipline.honest
  allowed H c := c.Allowed H ∧ Inside r lane H c

def protocol (r : MoveRequest) : Protocol calls where
  honest := callDiscipline.honest
  allowed H c := c.Allowed H ∧ Performs r H c

theorem protocol_refines {r : MoveRequest} : (protocol r).Refines callDiscipline where
  honest _ _ := .rfl
  allowed _ _ h := h.1

variable {r : MoveRequest} {lane : Lane} {H t : History calls}

theorem insideProtocol_refines (hlane : Lane.parse r.lane = .ok lane) (hr : r.anchorError? = none) :
    (insideProtocol r lane).Refines (protocol r) where
  honest _ _ := .rfl
  allowed H c h := by
    refine ⟨h.1, ?_⟩
    have hinside := h.2
    cases c <;> first | exact trivial | exact hinside.elim | exact ⟨lane, hlane, hr, hinside⟩

theorem gapProtocol_refines : (Gap.protocol r.workspace lane).Refines (insideProtocol r lane) where
  honest _ _ := .rfl
  allowed H c h := by
    refine ⟨h.1, ?_⟩
    have huses := h.2
    cases c <;> first | exact huses | exact huses.elim

structure Gathered (r : MoveRequest) (lane : Lane) (l : Locked) (t : History calls) : Prop where
  target : ∀ row, l.target = some row → row.id = r.task
    ∧ (⟨.lockTarget r.workspace r.task, .ok row⟩ : Event calls) ∈ t
  before : ∀ n, l.anchors.before = some n → ∃ id row, r.before = some id
    ∧ (⟨.lockNeighbor r.workspace lane id, .ok row⟩ : Event calls) ∈ t ∧ row.toNeighbor = n
  after : ∀ n, l.anchors.after = some n → ∃ id row, r.after = some id
    ∧ (⟨.lockNeighbor r.workspace lane id, .ok row⟩ : Event calls) ∈ t ∧ row.toNeighbor = n

structure Pending (r : MoveRequest) (l : Locked) (steps : List LockStep) : Prop where
  target : l.target = none → ⟨r.task, .target⟩ ∈ steps
  before : ∀ id, r.before = some id → l.anchors.before = none → ⟨id, .before⟩ ∈ steps
  after : ∀ id, r.after = some id → l.anchors.after = none → ⟨id, .after⟩ ∈ steps

def StepsLocked (r : MoveRequest) (lane : Lane) (t : History calls) : Outcome Locked → Prop
  | .ok l => Gap.Backed l.held r.workspace lane t ∧ Gathered r lane l t ∧ Pending r l []
  | .error _ => True

theorem ambient_inside (H : History calls) (c : AmbientCall) : (insideProtocol r lane).allowed H (.ambient c) :=
  ⟨Call.allowed_of_idle rfl rfl rfl rfl, trivial⟩

theorem Gathered.push {l : Locked} {e : Event calls} (h : Gathered r lane l t) (held : HeldLocks) :
    Gathered r lane { l with held } (e :: t) where
  target row hrow := ⟨(h.target row hrow).1, List.mem_cons_of_mem e (h.target row hrow).2⟩
  before n hn := by
    obtain ⟨id, row, hid, hmem, hrow⟩ := h.before n hn
    exact ⟨id, row, hid, List.mem_cons_of_mem e hmem, hrow⟩
  after n hn := by
    obtain ⟨id, row, hid, hmem, hrow⟩ := h.after n hn
    exact ⟨id, row, hid, List.mem_cons_of_mem e hmem, hrow⟩

theorem Gathered.add {l : Locked} {step : LockStep} {row : Task} (hg : Gathered r lane l t) (held : HeldLocks)
    (hrole : step ∈ LockPlan.named r.task r.before r.after ∨ step.role = .bound) (hid : row.id = step.id) :
    Gathered r lane ({ l with held }.add step.role row) (stepEvent r lane step row :: t) := by
  obtain ⟨id, role⟩ := step
  have hpush := hg.push (e := stepEvent r lane ⟨id, role⟩ row) held
  cases role with
  | target =>
    have htask : id = r.task := by simpa [LockPlan.named] using hrole
    subst htask
    refine ⟨?_, hpush.before, hpush.after⟩
    rintro _ ⟨⟩
    exact ⟨hid, List.mem_cons_self⟩
  | before =>
    have hgiven : r.before = some id := by simpa [LockPlan.named, eq_comm] using hrole
    refine ⟨hpush.target, ?_, hpush.after⟩
    rintro _ ⟨⟩
    exact ⟨id, row, hgiven, List.mem_cons_self, rfl⟩
  | after =>
    have hgiven : r.after = some id := by simpa [LockPlan.named, eq_comm] using hrole
    refine ⟨hpush.target, hpush.before, ?_⟩
    rintro _ ⟨⟩
    exact ⟨id, row, hgiven, List.mem_cons_self, rfl⟩
  | bound => exact hpush

theorem Pending.add {l : Locked} {step : LockStep} {steps : List LockStep} (hp : Pending r l (step :: steps))
    (held : HeldLocks) (row : Task) : Pending r ({ l with held }.add step.role row) steps := by
  obtain ⟨id, role⟩ := step
  obtain ⟨htarget, hbefore, hafter⟩ := hp
  cases role <;> constructor <;> simp_all [Locked.add]

theorem Pending.skip {l : Locked} {id : TaskId} {steps : List LockStep} (hp : Pending r l (⟨id, .bound⟩ :: steps))
    (held : HeldLocks) : Pending r { l with held } steps := by
  constructor
  . intro hnone
    simpa using hp.target hnone
  . intro id hgiven hnone
    simpa using hp.before id hgiven hnone
  . intro id hgiven hnone
    simpa using hp.after id hgiven hnone

theorem inside_stepCall {step : LockStep}
    (hrole : step ∈ LockPlan.named r.task r.before r.after ∨ step.role = .bound) : Inside r lane H (stepCall r lane step) := by
  obtain ⟨id, role⟩ := step
  cases role with
  | target => exact ⟨rfl, by simpa [LockPlan.named] using hrole⟩
  | _ => exact ⟨rfl, rfl⟩

/-- All calls that lock rows as planned belong to one transaction. What they have returned is gathered. -/
theorem keptBySteps_gathered : KeptBySteps (insideProtocol r lane) r lane
    (fun steps l H => Ascends steps l.held
      ∧ (∀ step ∈ steps, step ∈ LockPlan.named r.task r.before r.after ∨ step.role = .bound)
      ∧ ∃ t, transacted H = some t ∧ Gap.Backed l.held r.workspace lane t ∧ Gathered r lane l t ∧ Pending r l steps)
    fun H => ∃ t, transacted H = some t where
  ambient := ambient_inside
  asks step hk := by
    obtain ⟨hascends, hroles, t, ht, hb, _, _⟩ := hk
    refine ⟨hb.noted.allowed_ask ht (asks_of_stepCall rfl) ?_, inside_stepCall (hroles step List.mem_cons_self)⟩
    exact fun _ => hascends.free step List.mem_cons_self
  locked step row hk hfaithful := by
    obtain ⟨hascends, hroles, t, ht, hb, hg, hp⟩ := hk
    obtain ⟨hrole, hroles⟩ := List.forall_mem_cons.1 hroles
    have hasks : (stepEvent r lane step row).op.asks? = some step.id := asks_of_stepCall op_stepEvent
    have hrow := hfaithful step.id hasks row mem_returned_stepEvent
    obtain ⟨hs, he, hlane, hpersists⟩ := Call.plain_of_asks hasks
    refine ⟨?_, hroles, _, transacted_push hs he ht, ?_, hg.add _ hrole hrow, hp.add _ row⟩
    . rw [held_add]
      exact hascends.locked
    . rw [held_add]
      exact (hb.attempted hasks hlane hpersists).locked ⟨_, List.mem_cons_self, mem_returned_stepEvent⟩ hrow
  skipped id hk := by
    obtain ⟨hascends, hroles, t, ht, hb, hg, hp⟩ := hk
    obtain ⟨_, hroles⟩ := List.forall_mem_cons.1 hroles
    exact ⟨hascends.attempted, hroles, _, transacted_push rfl rfl ht, hb.attempted rfl rfl rfl, hg.push _, hp.skip _⟩
  failed step hk hop := by
    obtain ⟨_, _, t, ht, _⟩ := hk
    obtain ⟨hs, he, _, _⟩ := Call.plain_of_asks (asks_of_stepCall hop)
    exact ⟨_, transacted_push rfl rfl (transacted_push hs he ht)⟩

theorem obeys_lockSteps {steps : List LockStep} {l : Locked} (ht : transacted H = some t)
    (hascends : Ascends steps l.held)
    (hroles : ∀ step ∈ steps, step ∈ LockPlan.named r.task r.before r.after ∨ step.role = .bound)
    (hb : Gap.Backed l.held r.workspace lane t) (hg : Gathered r lane l t) (hp : Pending r l steps) :
    Obeys (insideProtocol r lane) (fun H' reply => ∃ t', transacted H' = some t' ∧ StepsLocked r lane t' reply)
      (lockSteps r lane steps l) H := by
  apply (keptBySteps_gathered.obeys_lockSteps ⟨hascends, hroles, t, ht, hb, hg, hp⟩).mono
  intro H' reply hreply
  cases reply with
  | error e =>
    obtain ⟨t', ht'⟩ := hreply
    exact ⟨t', ht', trivial⟩
  | ok l' =>
    obtain ⟨_, _, t', ht', hlocked⟩ := hreply
    exact ⟨t', ht', hlocked⟩

def Attempted (r : MoveRequest) (H : History calls) : Outcome Attempt → Prop
  | .ok (.placed _) => Persisted H
  | .ok (.retry wider) => wider.Fits r.task r.before r.after
  | .error _ => True

/-- The position is written after it was noted as exhausted, or was not. -/
theorem obeys_write {target : Task} {anchors : Gap} {nearest : Option Neighbor} {allocation : Allocation}
    {older : History calls} (notes : History calls) (htarget : target.id = r.task)
    (ht : transacted H = some (notes ++ allotment (anchors.closed nearest) allocation
      :: sighting r lane anchors nearest :: older))
    (hnotes : ∀ e ∈ notes, e.op.isQuiet = true) (hrow : Returned older target) (hanchored : Anchored r lane anchors older)
    (hbounded : Gap.Bounded r.workspace lane (anchors.closed nearest) older) :
    Obeys (insideProtocol r lane) (fun H' reply => ∃ t', transacted H' = some t' ∧ Attempted r H' reply)
      (write r lane target allocation) H := by
  have hrow' : Returned (notes ++ allotment (anchors.closed nearest) allocation
      :: sighting r lane anchors nearest :: older) target := by
    apply hrow.mono
    intro e he
    simp [he]
  apply obeys_bind
  apply obeys_ask
  . refine ⟨Call.allowed_of_persist ht hrow', rfl, htarget, rfl, ?_⟩
    exact ⟨anchors, nearest, allocation.exhausted, notes, older, ht, hnotes, hanchored, hbounded⟩
  . intro reply _
    have ht' := transacted_push (e := ⟨.persist r.workspace target.id allocation.position lane, reply⟩) rfl rfl ht
    apply obeys_orFail ambient_inside
    . intro e _ n error
      exact ⟨_, transacted_push rfl rfl ht', trivial⟩
    . rintro _ rfl
      apply obeys_bind
      apply obeys_ask (ambient_inside _ _)
      intro time _
      refine ⟨_, transacted_push rfl rfl ht', ?_⟩
      exact ⟨_, _, _, _, [_], _, rfl, by simp [Call.isQuiet]⟩

theorem obeys_settle {target : Task} {anchors : Gap} {nearest : Option Neighbor} {older : History calls}
    (htarget : target.id = r.task) (ht : transacted H = some (sighting r lane anchors nearest :: older))
    (hrow : Returned older target) (hanchored : Anchored r lane anchors older)
    (hbounded : Gap.Bounded r.workspace lane (anchors.closed nearest) older) :
    Obeys (insideProtocol r lane) (fun H' reply => ∃ t', transacted H' = some t' ∧ Attempted r H' reply)
      (settle r lane target (anchors.closed nearest)) H := by
  have ht' := fun allocation => transacted_push (e := allotment (anchors.closed nearest) allocation) rfl rfl ht
  apply obeys_settle_of_write ambient_inside
  . intro allocation
    exact obeys_write [] htarget (ht' allocation) (by simp) hrow hanchored hbounded
  . intro allocation
    exact obeys_write [_] htarget (transacted_push rfl rfl (ht' allocation)) (by simp [Call.isQuiet]) hrow
      hanchored hbounded

theorem Anchored.mono {anchors : Gap} {t' : History calls} (h : Anchored r lane anchors t) (ht : t ⊆ t') :
    Anchored r lane anchors t' where
  target := by
    obtain ⟨row, hrow⟩ := h.target
    exact ⟨row, ht hrow⟩
  before n hn := by
    obtain ⟨id, row, hid, hmem, hrow⟩ := h.before n hn
    exact ⟨id, row, hid, ht hmem, hrow⟩
  after n hn := by
    obtain ⟨id, row, hid, hmem, hrow⟩ := h.after n hn
    exact ⟨id, row, hid, ht hmem, hrow⟩
  given := h.given

theorem anchored_of_gathered {l : Locked} {target : Task} (hg : Gathered r lane l t) (hp : Pending r l [])
    (htarget : l.target = some target) : Anchored r lane l.anchors t where
  target := ⟨target, (hg.target target htarget).2⟩
  before := hg.before
  after := hg.after
  given := by
    constructor
    . intro hgiven
      obtain ⟨id, hid⟩ := Option.isSome_iff_exists.1 hgiven
      cases hanchor : l.anchors.before with
      | none => exact absurd (hp.before id hid hanchor) (by simp)
      | some n => rfl
    . intro hgiven
      obtain ⟨id, hid⟩ := Option.isSome_iff_exists.1 hgiven
      cases hanchor : l.anchors.after with
      | none => exact absurd (hp.after id hid hanchor) (by simp)
      | some n => rfl

theorem obeys_secureAndSettle {plan : LockPlan} {target : Task} {l : Locked} (ht : transacted H = some t)
    (hplan : plan.Fits r.task r.before r.after) (hb : Gap.Backed l.held r.workspace lane t)
    (hg : Gathered r lane l t) (hp : Pending r l []) (htarget : l.target = some target) :
    Obeys (insideProtocol r lane) (fun H' reply => ∃ t', transacted H' = some t' ∧ Attempted r H' reply)
      (secureAndSettle r lane plan target l) H := by
  obtain ⟨hid, hmem⟩ := hg.target target htarget
  apply obeys_secureAndSettle_of ambient_inside
  refine Obeys.mono ((Gap.obeys_secure ht hb).refines gapProtocol_refines) ?_
  rintro H' reply ⟨t', ht', hreply⟩
  refine ⟨fun _ _ => ⟨_, transacted_push rfl rfl ht', trivial⟩, ?_, ?_⟩
  . rintro gap rfl
    obtain ⟨nearest, older, rfl, rfl, hsub, hbounded, _⟩ := hreply
    rw [hid] at ht'
    apply obeys_settle hid ht' _ ((anchored_of_gathered hg hp htarget).mono hsub) hbounded
    exact ⟨_, hsub hmem, List.mem_singleton_self target⟩
  . intro bounds laneSeed _
    refine ⟨t', ht', ?_⟩
    show LockPlan.Fits (if laneSeed then _ else _) _ _ _
    split
    . exact hplan.withBounds.withLaneSeed
    . exact hplan.withBounds

theorem obeys_lockAndSettle {plan : LockPlan} {held : HeldLocks} (ht : transacted H = some t)
    (hplan : plan.Fits r.task r.before r.after) (hb : Gap.Backed held r.workspace lane t) (hnone : held.highest = none) :
    Obeys (insideProtocol r lane) (fun H' reply => ∃ t', transacted H' = some t' ∧ Attempted r H' reply)
      (lockAndSettle r lane plan held) H := by
  have hg : Gathered r lane { held } t := by
    constructor <;> rintro _ ⟨⟩
  have hp : Pending r { held } plan.steps := by
    constructor
    . intro _
      exact hplan.named _ (by simp [LockPlan.named])
    . intro id hid _
      exact hplan.named _ (by simp [LockPlan.named, hid])
    . intro id hid _
      exact hplan.named _ (by simp [LockPlan.named, hid])
  apply obeys_lockAndSettle_of
  apply (obeys_lockSteps ht (ascends_of_none hplan.sorted hnone) hplan.bound hb hg hp).mono
  rintro H' reply ⟨t', ht', hreply⟩
  refine ⟨fun _ => ⟨t', ht', trivial⟩, ?_⟩
  rintro l target rfl htarget
  obtain ⟨hb', hg', hp'⟩ := hreply
  exact obeys_secureAndSettle ht' hplan hb' hg' hp' htarget

theorem obeys_place {plan : LockPlan} (ht : transacted H = some []) (hplan : plan.Fits r.task r.before r.after) :
    Obeys (insideProtocol r lane) (fun H' reply => ∃ t', transacted H' = some t' ∧ Attempted r H' reply)
      (place r lane plan) H := by
  have hb : Gap.Backed {} r.workspace lane [] := by
    constructor <;> simp [HeldLocks.holds]
  have ht' := fun reply => transacted_push (e := ⟨.lockSeed r.workspace lane, reply⟩) rfl rfl ht
  have hb' : Gap.Backed {} r.workspace lane [⟨.lockSeed r.workspace lane, .ok ()⟩] := hb.push rfl rfl rfl
  apply obeys_place_of ambient_inside ⟨Call.allowed_lockSeed ht, rfl, rfl⟩
  . exact fun e _ _ => ⟨_, transacted_push rfl rfl (ht' (.error e)), trivial⟩
  . exact obeys_lockAndSettle (ht' (.ok ())) hplan (hb'.seeded ⟨_, List.mem_cons_self, rfl⟩) rfl
  . exact obeys_lockAndSettle ht hplan hb rfl

theorem ambient_performs (H : History calls) (c : AmbientCall) : (protocol r).allowed H (.ambient c) :=
  ⟨Call.allowed_of_idle rfl rfl rfl rfl, trivial⟩

theorem inside_takes_no_effect {c : Call} {reply : c.Reply} (h : Inside r lane H c) :
    (Event.mk (I := calls) c reply).takesEffect = false := by
  cases c with
  | commit | insert | delete => exact h.elim
  | _ => rfl

theorem obeys_finish {p : Placement} (hH : Fruitful H) : Obeys (protocol r) Reports (finish r lane p) H := by
  apply obeys_told ambient_performs
  . exact fun _ _ => ⟨Call.allowed_of_idle rfl rfl rfl rfl, trivial⟩
  . intro newer hnewer
    apply obeys_bind
    apply obeys_ask
    . exact ⟨Call.allowed_of_idle rfl rfl rfl rfl, trivial⟩
    . intro reply _
      have hfound := (hH.append hnewer).push (e := ⟨.find r.workspace r.task, reply⟩) rfl
      apply obeys_orFail ambient_performs
      . rintro error rfl n error'
        right
        exact ⟨hfound.push rfl, .inr ⟨⟨.find r.workspace r.task, .error error⟩, by simp, rfl⟩⟩
      . rintro row rfl
        cases row with
        | some task => exact .inr ⟨hfound, .inl ⟨_, rfl⟩⟩
        | none =>
          apply obeys_bind
          apply obeys_note ambient_performs
          exact .inr ⟨hfound.push rfl, .inl ⟨_, rfl⟩⟩

theorem fits_plan (hr : r.anchorError? = none) : r.plan.Fits r.task r.before r.after := by
  unfold MoveRequest.anchorError? at hr
  split at hr
  . cases hr
  . next hself =>
    apply LockPlan.fits_new
    . exact fun h => hself (.inl h)
    . exact fun h => hself (.inr h)
    . intro id hbefore hafter
      simp [hbefore, hafter] at hr

theorem performs_place {plan : LockPlan} (hlane : Lane.parse r.lane = .ok lane) (hr : r.anchorError? = none)
    (hplan : plan.Fits r.task r.before r.after) (hH : Fruitless H) :
    Obeys (protocol r) (fun H' reply => (∃ t, transacted H' = some t) ∧ Attempted r H' reply ∧ Fruitless H')
      (place r lane plan) (⟨.begin, .ok ()⟩ :: H) := by
  have hkind : ∀ H c, (insideProtocol r lane).allowed H c →
      ∀ reply, (Event.mk (I := calls) c reply).takesEffect = false :=
    fun H c h reply => inside_takes_no_effect h.2
  have hplace := (obeys_place (transacted_begin (H := H)) hplan).kind hkind
  apply (hplace.refines (insideProtocol_refines hlane hr)).mono
  rintro H' reply ⟨⟨t, ht, hreply⟩, E, rfl, hE⟩
  exact ⟨⟨t, ht⟩, hreply, (hH.push rfl).append fun e he => hE e he e.reply⟩

/-- An attempt takes no effect before its commit, so it can be abandoned and repeated. -/
theorem keptByAttempts_fruitless (hlane : Lane.parse r.lane = .ok lane) (hr : r.anchorError? = none) :
    KeptByAttempts (protocol r) r lane (fun _ plan H => plan.Fits r.task r.before r.after ∧ Fruitless H) Reports where
  ambient := ambient_performs
  begins _ := ⟨Call.allowed_of_idle rfl rfl rfl rfl, trivial⟩
  unsettled hk _ := .inl ⟨hk.2.push rfl, _, rfl⟩
  unbegun hk _ _ _ := .inl ⟨(hk.2.push rfl).push rfl, _, rfl⟩
  places hk := by
    apply (performs_place hlane hr hk.1 hk.2).mono
    rintro H' reply ⟨⟨t, ht⟩, hreply, hnone⟩
    have hrollback : (protocol r).allowed H' .rollback := ⟨Call.allowed_of_end ht rfl rfl rfl, trivial⟩
    have habandoned : ∀ newer reply, (∀ e ∈ newer, e.op.isQuiet = true) → Fruitless (newer ++ ⟨.rollback, reply⟩ :: H') :=
      fun newer reply hnewer => (hnone.push rfl).append (fruitless_of_aside (aside_of_quiet hnewer))
    cases reply with
    | error error => exact ⟨hrollback, fun newer reply hnewer => .inl ⟨habandoned newer reply hnewer, _, rfl⟩⟩
    | ok attempt =>
      cases attempt with
      | retry wider => exact ⟨hrollback, fun newer reply hnewer => ⟨hreply, (habandoned newer reply hnewer).push rfl⟩⟩
      | placed p =>
        refine ⟨⟨Call.allowed_of_end ht rfl rfl rfl, hreply⟩, ?_, obeys_finish (fruitful_of_effect hnone rfl)⟩
        exact fun e notice error => .inl ⟨(hnone.push rfl).push rfl, _, rfl⟩

theorem obeys_moveTask (r : MoveRequest) : Obeys (protocol r) Reports (moveTask r) [] := by
  apply obeys_authorized ambient_performs
  . exact ⟨Call.allowed_of_idle rfl rfl rfl rfl, trivial⟩
  . intro newer error hnewer
    rw [List.append_nil]
    exact .inl ⟨fruitless_of_aside hnewer, _, rfl⟩
  . intro reply
    have hnone : Fruitless [(⟨.role r.actor r.workspace, reply⟩ : Event calls)] := by
      simp [Fruitless, Event.takesEffect]
    apply obeys_withLane
    . intro error
      exact .inl ⟨hnone, _, rfl⟩
    . intro lane hlane
      split
      . exact .inl ⟨hnone, _, rfl⟩
      . next hr => exact (keptByAttempts_fruitless hlane hr).obeys_attempts ⟨fits_plan hr, hnone⟩

end Move

end LaneOrder
