import LaneOrder.Command.Move
import LaneOrder.Command.Renormalize
import LaneOrder.Proofs.Command.Basic
import LaneOrder.Proofs.Command.Gap

/-!
This module contains which calls commands and the parts of their transactions consist of, whatever a store answers: they
lock, read and write rows of the workspace and the lane of the request, and nothing is written before it is settled where
to.
-/

namespace LaneOrder

open Program

namespace Call

def isNote : Call → Bool
  | ambient (.note _) => true
  | _ => false

/-- A call of a transaction that works on a lane, or one that no store is needed for. -/
def Within (workspace : WorkspaceId) (lane : Lane) : Call → Prop
  | ambient _ => True
  | lockTarget w _ => w = workspace
  | lockNeighbor w l _ | tryLockNeighbor w l _ | lockLane w l | lockSeed w l | tryLockSeed w l | adjacent w l ..
  | persist w _ _ l => w = workspace ∧ l = lane
  | _ => False

/-- A call of a command that works on the lane of a name. -/
def WorksOn (workspace : WorkspaceId) (name : String) : Call → Prop
  | ambient _ | record _ | begin | commit | rollback => True
  | role _ w | find w _ => w = workspace
  | c => ∃ lane, Lane.parse name = .ok lane ∧ c.Within workspace lane

def PreparesIn (workspace : WorkspaceId) (lane : Lane) (c : Call) : Prop :=
  c.Within workspace lane ∧ c.persists? = none

end Call

variable {α β : Type} {kind : Call → Prop} {workspace : WorkspaceId} {lane : Lane} {name : String}

theorem Call.worksOn_of_within {c : Call} (hlane : Lane.parse name = .ok lane) (hc : c.Within workspace lane) :
    c.WorksOn workspace name := by
  cases c <;> first | exact trivial | exact hc.elim | exact ⟨lane, hlane, hc⟩

theorem only_call {c : Call} {f : c.Reply → Commanding α} (hc : kind c) (hf : ∀ reply, Only (I := calls) kind (f reply)) :
    Only (I := calls) kind (call c >>= f) :=
  ⟨hc, hf⟩

theorem only_storeFailed {stage : Stage} {e : StoreError} (hkind : ∀ c, kind (.ambient c)) :
    Only (I := calls) kind (storeFailed (α := α) stage e) := by
  unfold storeFailed
  cases e <;> exact only_call (hkind _) fun _ => trivial

theorem only_orFail {stage : Stage} {reply : Except StoreError α} {next : α → Commanding (Outcome β)}
    (hkind : ∀ c, kind (.ambient c)) (h : ∀ a, Only (I := calls) kind (next a)) :
    Only (I := calls) kind (orFail stage reply next) := by
  cases reply with
  | ok a => exact h a
  | error e => exact only_storeFailed hkind

theorem only_withLane {next : Lane → Commanding (Outcome β)}
    (h : ∀ lane, Lane.parse name = .ok lane → Only (I := calls) kind (next lane)) :
    Only (I := calls) kind (withLane name next) := by
  unfold withLane
  split
  . next lane hlane => exact h lane hlane
  . exact trivial

theorem only_authorized {actor : ActorId} {next : Commanding (Outcome β)} (hkind : ∀ c, kind (.ambient c))
    (hrole : kind (.role actor workspace)) (hnext : Only (I := calls) kind next) :
    Only (I := calls) kind (authorized actor workspace next) := by
  apply only_call hrole
  intro reply
  cases reply with
  | ok role =>
    dsimp only
    split
    . exact hnext
    . exact only_call (hkind _) fun _ => trivial
  | error e =>
    cases e with
    | store e => exact only_call (hkind _) fun _ => trivial
    | _ => exact trivial

theorem only_record {entry : Timestamp → AuditEntry} (hkind : ∀ c, kind (.ambient c))
    (hrecord : ∀ time, kind (.record (entry time))) : Only (I := calls) kind (record entry) := by
  apply only_call (hkind _)
  intro time
  apply only_call (hrecord time)
  intro reply
  cases reply with
  | ok _ => exact trivial
  | error e => exact only_ask (hkind _)

theorem only_abandon (hkind : ∀ c, kind (.ambient c)) (hrollback : kind .rollback) :
    Only (I := calls) kind abandon := by
  apply only_call hrollback
  intro reply
  cases reply with
  | ok _ => exact trivial
  | error e => exact only_ask (hkind _)

namespace Gap

theorem only_lockRows {held : HeldLocks} {ids : List TaskId} (hlock : ∀ id, kind (.lockNeighbor workspace lane id))
    (htry : ∀ id, kind (.tryLockNeighbor workspace lane id)) :
    Only (I := calls) kind (lockRows workspace lane held ids) := by
  induction ids generalizing held with
  | nil => exact trivial
  | cons id ids ih =>
    unfold lockRows
    split
    . apply only_call (hlock id)
      intro reply
      cases reply with
      | ok row => exact ih
      | error e => cases e <;> first | exact ih | exact trivial
    . apply only_call (htry id)
      intro reply
      cases reply with
      | ok row => cases row <;> first | exact ih | exact trivial
      | error e => exact trivial

theorem only_secure {target : TaskId} {anchors : Gap} {checks : Nat} {held : HeldLocks} :
    Only (I := calls) (Call.PreparesIn workspace lane) (secure workspace lane target anchors checks held) := by
  induction checks generalizing held with
  | zero => exact only_call ⟨trivial, rfl⟩ fun _ => trivial
  | succ checks ih =>
    unfold secure
    rw [find_eq]
    apply only_bind
    . exact only_call ⟨⟨rfl, rfl⟩, rfl⟩ fun _ => trivial
    . intro reply
      cases reply with
      | error e => exact trivial
      | ok gap =>
        dsimp only
        split
        . split
          . exact trivial
          . apply only_call ⟨⟨rfl, rfl⟩, rfl⟩
            intro reply
            cases reply with
            | error e => exact trivial
            | ok taken => cases taken <;> first | exact ih | exact trivial
        . apply only_bind (only_lockRows (fun _ => ⟨⟨rfl, rfl⟩, rfl⟩) fun _ => ⟨⟨rfl, rfl⟩, rfl⟩)
          intro reply
          cases reply with
          | error e => exact trivial
          | ok locking => cases locking <;> first | exact ih | exact trivial

end Gap

namespace Move

variable {r : MoveRequest}

theorem only_lockSteps {steps : List LockStep} {l : Locked} :
    Only (I := calls) (Call.PreparesIn r.workspace lane) (lockSteps r lane steps l) := by
  induction steps generalizing l with
  | nil => exact trivial
  | cons step steps ih =>
    obtain ⟨id, role⟩ := step
    unfold lockSteps
    apply only_bind
    . cases role with
      | target => exact only_ask ⟨rfl, rfl⟩
      | _ => exact only_ask ⟨⟨rfl, rfl⟩, rfl⟩
    . intro reply
      have hambient : ∀ c, Call.PreparesIn r.workspace lane (.ambient c) := fun _ => ⟨trivial, rfl⟩
      cases reply with
      | ok row => cases role <;> exact ih
      | error e => cases role <;> cases e <;> first | exact ih | exact only_storeFailed hambient

def stepCall (r : MoveRequest) (lane : Lane) (step : LockStep) : Call :=
  match step.role with
  | .target => .lockTarget r.workspace step.id
  | _ => .lockNeighbor r.workspace lane step.id

def stepEvent (r : MoveRequest) (lane : Lane) (step : LockStep) (row : Task) : Event calls :=
  match step.role with
  | .target => ⟨.lockTarget r.workspace step.id, .ok row⟩
  | _ => ⟨.lockNeighbor r.workspace lane step.id, .ok row⟩

section Steps

variable {P : Protocol calls} {kept : List LockStep → Locked → History calls → Prop} {step : LockStep}
  {steps : List LockStep} {held : HeldLocks} {row : Task}

theorem asks_of_stepCall {c : Call} (hc : c = stepCall r lane step) : c.asks? = some step.id := by
  obtain ⟨id, role⟩ := step
  cases role <;> exact congrArg Call.asks? hc

@[simp]
theorem op_stepEvent : (stepEvent r lane step row).op = stepCall r lane step := by
  obtain ⟨id, role⟩ := step
  cases role <;> rfl

theorem mem_returned_stepEvent : row ∈ (stepEvent r lane step row).returned := by
  obtain ⟨id, role⟩ := step
  cases role <;> exact List.mem_singleton_self row

@[simp]
theorem held_add {l : Locked} {role : LockRole} : (l.add role row).held = l.held := by
  cases role <;> rfl

theorem mem_rows_add {l : Locked} {role : LockRole} {id : TaskId}
    (h : id ∈ ({ l with held }.add role row).anchors.rows) :
    id ∈ l.anchors.rows ∨ (role = .before ∨ role = .after) ∧ row.id = id := by
  cases role with
  | target | bound => exact .inl h
  | before =>
    rcases List.mem_append.1 h with h | h
    . exact .inr ⟨.inl rfl, (List.mem_singleton.1 h).symm⟩
    . exact .inl (List.mem_append_right _ h)
  | after =>
    rcases List.mem_append.1 h with h | h
    . exact .inl (List.mem_append_left _ h)
    . exact .inr ⟨.inr rfl, (List.mem_singleton.1 h).symm⟩

/-- Rows can be waited for in the order of the steps. -/
structure Ascends (steps : List LockStep) (held : HeldLocks) : Prop where
  sorted : steps.Pairwise (·.id < ·.id)
  free : ∀ step ∈ steps, held.mayWaitFor step.id = true

theorem ascends_of_none (hsorted : steps.Pairwise (·.id < ·.id)) (hnone : held.highest = none) : Ascends steps held := by
  refine ⟨hsorted, ?_⟩
  intro step _
  simp [HeldLocks.mayWaitFor, hnone]

theorem Ascends.attempted (h : Ascends (step :: steps) held) : Ascends steps (held.attempted step.id) := by
  obtain ⟨hlt, hsorted⟩ := List.pairwise_cons.1 h.sorted
  refine ⟨hsorted, ?_⟩
  intro next hnext
  exact Gap.mayWaitFor_attempted (h.free step List.mem_cons_self) (hlt next hnext)

theorem Ascends.locked (h : Ascends (step :: steps) held) : Ascends steps (held.locked step.id) :=
  ⟨h.attempted.sorted, h.attempted.free⟩

/-- What is true of the steps that are left, of what was locked and of all calls before stays true when a step is taken. -/
structure KeptBySteps (P : Protocol calls) (r : MoveRequest) (lane : Lane)
    (kept : List LockStep → Locked → History calls → Prop) (failed : History calls → Prop) : Prop where
  ambient : ∀ H c, P.allowed H (.ambient c)
  asks : ∀ {steps l H} step, kept (step :: steps) l H → P.allowed H (stepCall r lane step)
  locked : ∀ {steps l H} step row, kept (step :: steps) l H →
    P.honest (stepEvent r lane step row).op (stepEvent r lane step row).reply →
    kept steps ({ l with held := l.held.locked step.id }.add step.role row) (stepEvent r lane step row :: H)
  skipped : ∀ {steps l H e} id, kept (⟨id, .bound⟩ :: steps) l H →
    kept steps { l with held := l.held.attempted id } (⟨.lockNeighbor r.workspace lane id, .error (.notFound e)⟩ :: H)
  failed : ∀ {steps l H n} {e : Event calls} step, kept (step :: steps) l H → e.op = stepCall r lane step →
    failed (⟨.ambient (.note n), ()⟩ :: e :: H)

def Locked.Follows (kept : List LockStep → Locked → History calls → Prop) (failed : History calls → Prop)
    (H : History calls) : Outcome Locked → Prop
  | .ok l => kept [] l H
  | .error _ => failed H

theorem KeptBySteps.obeys_lockSteps {failed : History calls → Prop} (h : KeptBySteps P r lane kept failed) {l : Locked}
    {H : History calls} (hk : kept steps l H) :
    Obeys P (Locked.Follows kept failed) (lockSteps r lane steps l) H := by
  induction steps generalizing l H with
  | nil => exact hk
  | cons step steps ih =>
    have hlocked : ∀ row, P.honest (stepEvent r lane step row).op (stepEvent r lane step row).reply →
        Obeys P (Locked.Follows kept failed)
          (lockSteps r lane steps ({ l with held := (l.held.attempted step.id).locked step.id }.add step.role row))
          (stepEvent r lane step row :: H) := by
      intro row hhonest
      rw [Gap.locked_attempted]
      exact ih (h.locked step row hk hhonest)
    have hfailed : ∀ {e : Event calls} {error : StoreError}, e.op = stepCall r lane step →
        Obeys P (Locked.Follows kept failed) (storeFailed .lock error) (e :: H) :=
      fun he => obeys_storeFailed h.ambient fun _ => h.failed step hk he
    have hasks := h.asks step hk
    obtain ⟨id, role⟩ := step
    unfold lockSteps
    apply obeys_bind
    cases role with
    | bound =>
      apply obeys_ask hasks
      intro reply hreply
      cases reply with
      | ok row => exact hlocked row hreply
      | error e =>
        cases e with
        | notFound => exact ih (h.skipped id hk)
        | _ => exact hfailed rfl
    | _ =>
      apply obeys_ask hasks
      intro reply hreply
      cases reply with
      | ok row => exact hlocked row hreply
      | error e => cases e <;> exact hfailed rfl

end Steps

/-- What is left to do with the position that was allocated. -/
def write (r : MoveRequest) (lane : Lane) (target : Task) (allocation : Allocation) : Commanding (Outcome Attempt) := do
  let reply ← call (.persist r.workspace target.id allocation.position lane)
  orFail .persist reply fun _ => do
    let time ← call (.ambient .now)
    let placed := target.placed allocation.position lane time
    return .ok (.placed ⟨target.lane, placed, allocation.exhausted⟩)

theorem only_write {target : Task} {allocation : Allocation} (hkind : ∀ c, kind (.ambient c))
    (hpersist : ∀ position, kind (.persist r.workspace target.id position lane)) :
    Only (I := calls) kind (write r lane target allocation) := by
  apply only_call (hpersist _)
  intro reply
  apply only_orFail hkind
  intro _
  exact only_call (hkind _) fun _ => trivial

theorem only_settle {target : Task} {gap : Gap} (hkind : ∀ c, kind (.ambient c))
    (hpersist : ∀ position, kind (.persist r.workspace target.id position lane)) :
    Only (I := calls) kind (settle r lane target gap) := by
  apply only_call (hkind _)
  rintro ⟨position, exhausted⟩
  cases exhausted with
  | false => exact only_write hkind hpersist
  | true => exact only_call (hkind _) fun _ => only_write hkind hpersist

/-- The position is written whether it was noted as exhausted before or not. -/
theorem obeys_settle_of_write {P : Protocol calls} {post : History calls → Outcome Attempt → Prop} {H : History calls}
    {target : Task} {gap : Gap} (hP : ∀ H c, P.allowed H (.ambient c))
    (hplain : ∀ allocation, Obeys P post (write r lane target allocation)
      (⟨.ambient (.allocate (gap.before.map (·.position)) (gap.after.map (·.position))), allocation⟩ :: H))
    (hnoted : ∀ allocation, Obeys P post (write r lane target allocation) (⟨.ambient (.note .positionExhausted), ()⟩
      :: ⟨.ambient (.allocate (gap.before.map (·.position)) (gap.after.map (·.position))), allocation⟩ :: H)) :
    Obeys P post (settle r lane target gap) H := by
  apply obeys_bind
  apply obeys_ask (hP H _)
  rintro ⟨position, exhausted⟩ _
  cases exhausted with
  | false => exact hplain _
  | true =>
    apply obeys_bind
    apply obeys_note hP
    exact hnoted _

section Place

variable {P : Protocol calls} {post : History calls → Outcome Attempt → Prop} {H : History calls} {plan : LockPlan}

theorem obeys_secureAndSettle_of {target : Task} {l : Locked} (hP : ∀ H c, P.allowed H (.ambient c))
    (hsecure : Obeys P (fun H' reply => (∀ n error, post (⟨.ambient (.note n), ()⟩ :: H') (.error error))
      ∧ (∀ gap, reply = .ok (.secured gap) → Obeys P post (settle r lane target gap) H')
      ∧ ∀ bounds laneSeed, reply = .ok (.restart bounds laneSeed) →
        post H' (.ok (.retry (if laneSeed then (plan.withBounds bounds).withLaneSeed else plan.withBounds bounds))))
      (Gap.secure r.workspace lane target.id l.anchors Gap.maxChecks l.held) H) :
    Obeys P post (secureAndSettle r lane plan target l) H := by
  apply obeys_bind
  apply hsecure.mono
  rintro H' reply ⟨herror, hsecured, hrestart⟩
  apply obeys_orFail hP
  . exact fun _ _ n error => herror n error
  . rintro securing rfl
    cases securing with
    | secured gap => exact hsecured gap rfl
    | restart bounds laneSeed => exact hrestart bounds laneSeed rfl

theorem obeys_lockAndSettle_of {held : HeldLocks}
    (hsteps : Obeys P (fun H' reply => (∀ error, post H' (.error error)) ∧ ∀ l target, reply = .ok l →
      l.target = some target → Obeys P post (secureAndSettle r lane plan target l) H')
      (lockSteps r lane plan.steps { held }) H) :
    Obeys P post (lockAndSettle r lane plan held) H := by
  apply obeys_bind
  apply hsteps.mono
  rintro H' reply ⟨herror, hlocked⟩
  cases reply with
  | error e => exact herror e
  | ok l =>
    dsimp only
    split
    . exact herror _
    . next target htarget =>
      split
      . exact herror _
      . exact hlocked l target rfl htarget

theorem obeys_place_of (hP : ∀ H c, P.allowed H (.ambient c)) (hseed : P.allowed H (.lockSeed r.workspace lane))
    (herror : ∀ e n error, post (⟨.ambient (.note n), ()⟩ :: ⟨.lockSeed r.workspace lane, .error e⟩ :: H) (.error error))
    (hseeded : Obeys P post (lockAndSettle r lane plan ({} : HeldLocks).seeded) (⟨.lockSeed r.workspace lane, .ok ()⟩ :: H))
    (hplain : Obeys P post (lockAndSettle r lane plan {}) H) : Obeys P post (place r lane plan) H := by
  unfold place
  split
  . apply obeys_bind
    apply obeys_ask hseed
    intro reply _
    apply obeys_orFail hP
    . rintro e rfl n error
      exact herror e n error
    . rintro _ rfl
      exact hseeded
  . exact hplain

end Place

theorem only_lockAndSettle {plan : LockPlan} {held : HeldLocks} :
    Only (I := calls) (Call.Within r.workspace lane) (lockAndSettle r lane plan held) := by
  apply only_bind (only_lockSteps.mono fun _ hc => hc.1)
  intro reply
  cases reply with
  | error e => exact trivial
  | ok l =>
    dsimp only
    split
    . exact trivial
    . split
      . exact trivial
      . apply only_bind (Gap.only_secure.mono fun _ hc => hc.1)
        intro reply
        apply only_orFail fun _ => trivial
        intro securing
        cases securing with
        | secured gap => exact only_settle (fun _ => trivial) fun _ => ⟨rfl, rfl⟩
        | restart bounds laneSeed => exact trivial

theorem only_place {plan : LockPlan} : Only (I := calls) (Call.Within r.workspace lane) (place r lane plan) := by
  unfold place
  split
  . apply only_call ⟨rfl, rfl⟩
    intro reply
    exact only_orFail (fun _ => trivial) fun _ => only_lockAndSettle
  . exact only_lockAndSettle

theorem only_finish {p : Placement} (hkind : ∀ c, kind (.ambient c)) (hrecord : ∀ entry, kind (.record entry))
    (hfind : kind (.find r.workspace r.task)) : Only (I := calls) kind (finish r lane p) := by
  apply only_call (hkind _)
  intro _
  apply only_bind (only_record hkind fun _ => hrecord _)
  intro _
  refine only_call hfind ?_
  intro reply
  apply only_orFail hkind
  intro row
  cases row with
  | some task => exact trivial
  | none => exact only_call (hkind _) fun _ => trivial

theorem only_attempts {n : Nat} {plan : LockPlan} (hlane : Lane.parse r.lane = .ok lane) :
    Only (I := calls) (Call.WorksOn r.workspace r.lane) (attempts r lane n plan) := by
  induction n generalizing plan with
  | zero => exact only_call trivial fun _ => trivial
  | succ n ih =>
    apply only_call trivial
    intro reply
    apply only_orFail fun _ => trivial
    intro _
    apply only_bind (only_place.mono fun _ => Call.worksOn_of_within hlane)
    intro reply
    cases reply with
    | error error => exact only_bind (only_abandon (fun _ => trivial) trivial) fun _ => trivial
    | ok attempt =>
      cases attempt with
      | retry wider =>
        apply only_bind (only_abandon (fun _ => trivial) trivial)
        intro _
        exact only_call trivial fun _ => ih
      | placed p =>
        apply only_call trivial
        intro reply
        exact only_orFail (fun _ => trivial) fun _ => only_finish (fun _ => trivial) (fun _ => trivial) rfl

theorem only_moveTask (r : MoveRequest) : Only (I := calls) (Call.WorksOn r.workspace r.lane) (moveTask r) := by
  refine only_authorized (fun _ => trivial) rfl ?_
  apply only_withLane
  intro lane hlane
  split
  . exact trivial
  . exact only_attempts hlane

section Attempts

variable {P : Protocol calls} {kept : Nat → LockPlan → History calls → Prop}
  {post : History calls → Outcome MoveOutcome → Prop} {H : History calls} {n : Nat} {plan : LockPlan}

/-- How it goes on after an attempt: it is committed, or given up and repeated with another plan, or given up for good. -/
def Attempt.GoesOn (P : Protocol calls) (r : MoveRequest) (lane : Lane) (kept : LockPlan → History calls → Prop)
    (post : History calls → Outcome MoveOutcome → Prop) (H : History calls) : Outcome Attempt → Prop
  | .ok (.placed p) => P.allowed H .commit
    ∧ (∀ e notice error, post (⟨.ambient (.note notice), ()⟩ :: ⟨.commit, .error e⟩ :: H) (.error error))
    ∧ Obeys P post (finish r lane p) (⟨.commit, .ok ()⟩ :: H)
  | .ok (.retry wider) => P.allowed H .rollback ∧ ∀ newer reply, (∀ e ∈ newer, e.op.isQuiet = true) →
    kept wider (⟨.ambient (.note .gapRetried), ()⟩ :: (newer ++ ⟨.rollback, reply⟩ :: H))
  | .error error => P.allowed H .rollback ∧ ∀ newer reply, (∀ e ∈ newer, e.op.isQuiet = true) →
    post (newer ++ ⟨.rollback, reply⟩ :: H) (.error error)

/-- What is true before every attempt, which depends on its plan and on how many of them are left. -/
structure KeptByAttempts (P : Protocol calls) (r : MoveRequest) (lane : Lane)
    (kept : Nat → LockPlan → History calls → Prop) (post : History calls → Outcome MoveOutcome → Prop) : Prop where
  ambient : ∀ H c, P.allowed H (.ambient c)
  begins : ∀ {n plan H}, kept (n + 1) plan H → P.allowed H .begin
  unsettled : ∀ {plan H}, kept 0 plan H → ∀ error, post (⟨.ambient (.note .gapNeverSettled), ()⟩ :: H) (.error error)
  unbegun : ∀ {n plan H}, kept (n + 1) plan H →
    ∀ e notice error, post (⟨.ambient (.note notice), ()⟩ :: ⟨.begin, .error e⟩ :: H) (.error error)
  places : ∀ {n plan H}, kept (n + 1) plan H →
    Obeys P (Attempt.GoesOn P r lane (kept n) post) (place r lane plan) (⟨.begin, .ok ()⟩ :: H)

theorem KeptByAttempts.obeys_attempts (h : KeptByAttempts P r lane kept post) (hk : kept n plan H) :
    Obeys P post (attempts r lane n plan) H := by
  induction n generalizing plan H with
  | zero =>
    apply obeys_bind
    apply obeys_note h.ambient
    exact h.unsettled hk _
  | succ n ih =>
    apply obeys_bind
    apply obeys_ask (h.begins hk)
    intro reply _
    apply obeys_orFail h.ambient
    . rintro e rfl notice error
      exact h.unbegun hk e notice error
    . rintro _ rfl
      apply obeys_bind
      apply (h.places hk).mono
      intro H' reply hreply
      cases reply with
      | error error =>
        apply obeys_bind
        exact obeys_abandon h.ambient hreply.1 hreply.2
      | ok attempt =>
        cases attempt with
        | retry wider =>
          apply obeys_bind
          apply obeys_abandon h.ambient hreply.1
          intro newer reply hnewer
          apply obeys_bind
          apply obeys_note h.ambient
          exact ih (hreply.2 newer reply hnewer)
        | placed p =>
          obtain ⟨hcommit, hfailed, hfinish⟩ := hreply
          apply obeys_bind
          apply obeys_ask hcommit
          intro reply _
          apply obeys_orFail h.ambient
          . rintro e rfl notice error
            exact hfailed e notice error
          . rintro _ rfl
            exact hfinish

/-- Attempts keep to a protocol if every one does that has a plan of some kind, and if it asks for no other plans. -/
theorem obeys_attempts_of_place (fits : LockPlan → Prop) (hP : ∀ H c, P.allowed H (.ambient c))
    (hbegin : ∀ H, P.allowed H .begin)
    (hplace : ∀ H plan, fits plan → Obeys P (fun H' reply => P.allowed H' .rollback ∧ P.allowed H' .commit
      ∧ ∀ wider, reply = .ok (.retry wider) → fits wider) (place r lane plan) (⟨.begin, .ok ()⟩ :: H))
    (hfinish : ∀ H p, Obeys P (fun _ _ => True) (finish r lane p) H) (hplan : fits plan) :
    Obeys P (fun _ _ => True) (attempts r lane n plan) H := by
  have hkept : KeptByAttempts P r lane (fun _ plan _ => fits plan) fun _ _ => True := by
    refine ⟨hP, fun _ => hbegin _, fun _ _ => trivial, fun _ _ _ _ => trivial, ?_⟩
    intro n plan H hplan
    apply (hplace H plan hplan).mono
    rintro H' reply ⟨hrollback, hcommit, hwider⟩
    cases reply with
    | error error => exact ⟨hrollback, fun _ _ _ => trivial⟩
    | ok attempt =>
      cases attempt with
      | retry wider => exact ⟨hrollback, fun _ _ _ => hwider wider rfl⟩
      | placed p => exact ⟨hcommit, fun _ _ _ => trivial, hfinish _ p⟩
  exact hkept.obeys_attempts hplan

end Attempts

end Move

namespace Renormalize

variable {r : RenormalizeRequest}

theorem only_respace {time : Timestamp} {index : Nat} {tasks : List Task} (hkind : ∀ c, kind (.ambient c))
    (hpersist : ∀ id position, kind (.persist r.workspace id position lane)) :
    Only (I := calls) kind (respace r lane time index tasks) := by
  induction tasks generalizing index with
  | nil => exact trivial
  | cons task tasks ih =>
    apply only_call (hkind _)
    intro position
    apply only_call (hpersist _ _)
    intro reply
    apply only_orFail hkind
    intro _
    apply only_bind ih
    intro placed
    cases placed <;> exact trivial

theorem only_lockAndRespace (hkind : ∀ c, kind (.ambient c)) (hlock : kind (.lockLane r.workspace lane))
    (hpersist : ∀ id position, kind (.persist r.workspace id position lane)) :
    Only (I := calls) kind (lockAndRespace r lane) := by
  apply only_call hlock
  intro reply
  apply only_orFail hkind
  intro tasks
  exact only_call (hkind _) fun _ => only_respace hkind hpersist

theorem only_within : Only (I := calls) (Call.Within r.workspace lane) (lockAndRespace r lane) :=
  only_lockAndRespace (fun _ => trivial) ⟨rfl, rfl⟩ fun _ _ => ⟨rfl, rfl⟩

/-- The calls of a renormalization. It asks for no single row. -/
def Uses (r : RenormalizeRequest) : Call → Prop
  | .ambient _ | .record _ | .begin | .commit | .rollback => True
  | .role _ w => w = r.workspace
  | .lockLane w lane | .persist w _ _ lane => w = r.workspace ∧ Lane.parse r.lane = .ok lane
  | _ => False

theorem only_renormalizeLane (r : RenormalizeRequest) : Only (I := calls) (Uses r) (renormalizeLane r) := by
  refine only_authorized (fun _ => trivial) rfl ?_
  apply only_withLane
  intro lane hlane
  apply only_call trivial
  intro reply
  apply only_orFail fun _ => trivial
  intro _
  apply only_bind (only_lockAndRespace (fun _ => trivial) ⟨rfl, hlane⟩ fun _ _ => ⟨rfl, hlane⟩)
  intro reply
  cases reply with
  | error error => exact only_bind (only_abandon (fun _ => trivial) trivial) fun _ => trivial
  | ok tasks =>
    apply only_call trivial
    intro reply
    apply only_orFail fun _ => trivial
    intro _
    apply only_call trivial
    intro _
    exact only_bind (only_record (fun _ => trivial) fun _ => trivial) fun _ => trivial

theorem worksOn_of_uses {c : Call} (hc : Uses r c) : c.WorksOn r.workspace r.lane := by
  cases c with
  | lockLane w lane | persist w _ _ lane => exact ⟨lane, hc.2, hc.1, rfl⟩
  | _ => first | exact trivial | exact hc | exact hc.elim

end Renormalize

end LaneOrder
