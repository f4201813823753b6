import LaneOrder.Proofs.Command.Scope
import LaneOrder.Request

/-!
This module contains what commands pay no heed to: whether something that was done can be recorded, and whether a
transaction that failed can be rolled back. Apart from that, all that they call is about the workspace of the request.
-/

namespace LaneOrder

open Program

/-- A command that goes on in the same way whatever the reply to a record or to a roll-back is. -/
inductive Oblivious {α : Type} (expects : (c : Call) → c.Reply → Prop) (kind : Call → Prop) : Commanding α → Prop where
  | done (a : α) : Oblivious expects kind (.done a)
  | calls {c : Call} {next : c.Reply → Commanding α} (hc : kind c)
    (hnext : ∀ reply, expects c reply → Oblivious expects kind (next reply)) :
    Oblivious expects kind (.perform (I := LaneOrder.calls) c next)
  | records (entry : Timestamp → AuditEntry) {next : Commanding α} (hnext : Oblivious expects kind next) :
    Oblivious expects kind (record entry >>= fun _ => next)
  | abandons {next : Commanding α} (hnext : Oblivious expects kind next) :
    Oblivious expects kind (abandon >>= fun _ => next)

namespace Call

/-- A call that is about a workspace, where tasks are inserted under fresh identifiers only. -/
def Concerns (workspace : WorkspaceId) (fresh : TaskId → Prop) : Call → Prop
  | ambient _ | begin | commit => True
  | insert t => t.workspace = workspace ∧ fresh t.id
  | role _ w | find w _ | list w _ | greatest w _ | delete w _ | lockTarget w _ | lockNeighbor w _ _
  | tryLockNeighbor w _ _ | lockLane w _ | lockSeed w _ | tryLockSeed w _ | adjacent w .. | persist w .. => w = workspace
  | record _ | rollback => False

def Fresh (fresh : TaskId → Prop) : (c : Call) → c.Reply → Prop
  | ambient .freshId, id => fresh id
  | _, _ => True

end Call

/-- The requests about tasks of one workspace. -/
def Request.IsFor (workspace : WorkspaceId) : Request → Prop
  | move r => r.workspace = workspace
  | create r => r.workspace = workspace
  | renormalize r => r.workspace = workspace
  | call (.find w _) | call (.list w _) | call (.delete w _) => w = workspace
  | call _ => False

variable {α β : Type} {expects : (c : Call) → c.Reply → Prop} {kind : Call → Prop} {workspace : WorkspaceId}
  {fresh : TaskId → Prop} {lane : Lane}

section Parts

theorem Oblivious.bind {p : Commanding α} {f : α → Commanding β} (hp : Oblivious expects kind p)
    (hf : ∀ a, Oblivious expects kind (f a)) : Oblivious expects kind (p >>= f) := by
  induction hp with
  | done a => exact hf a
  | calls hc _ ih => exact .calls hc ih
  | records entry _ ih =>
    rw [bind_assoc]
    exact .records entry ih
  | abandons _ ih =>
    rw [bind_assoc]
    exact .abandons ih

theorem oblivious_of_only {p : Commanding α} (hp : Only (I := calls) kind p) : Oblivious expects kind p := by
  induction p with
  | done a => exact .done a
  | perform c next ih => exact .calls hp.1 fun reply _ => ih reply (hp.2 reply)

theorem oblivious_call {c : Call} {f : c.Reply → Commanding α} (hc : kind c)
    (hf : ∀ reply, expects c reply → Oblivious expects kind (f reply)) : Oblivious expects kind (call c >>= f) :=
  .calls hc hf

theorem oblivious_note {n : Notice} {p : Commanding α} (hkind : ∀ c, kind (.ambient c))
    (hp : Oblivious expects kind p) : Oblivious expects kind (note n >>= fun _ => p) :=
  .calls (hkind _) fun _ _ => hp

theorem oblivious_orFail {stage : Stage} {reply : Except StoreError α} {next : α → Commanding (Outcome β)}
    (hkind : ∀ c, kind (.ambient c)) (hnext : ∀ a, reply = .ok a → Oblivious expects kind (next a)) :
    Oblivious expects kind (orFail stage reply next) := by
  cases reply with
  | ok a => exact hnext a rfl
  | error e => exact oblivious_of_only (only_storeFailed hkind)

theorem oblivious_withLane {name : String} {next : Lane → Commanding (Outcome β)}
    (hnext : ∀ lane, Oblivious expects kind (next lane)) : Oblivious expects kind (withLane name next) := by
  unfold withLane
  split
  . exact hnext _
  . exact .done _

theorem oblivious_authorized {actor : ActorId} {next : Commanding (Outcome β)} (hkind : ∀ c, kind (.ambient c))
    (hrole : kind (.role actor workspace)) (hnext : Oblivious expects kind next) :
    Oblivious expects kind (authorized actor workspace next) := by
  apply oblivious_call hrole
  intro reply _
  cases reply with
  | ok role =>
    dsimp only
    split
    . exact hnext
    . exact oblivious_note hkind (.done _)
  | error e =>
    cases e with
    | store e => exact oblivious_note hkind (.done _)
    | _ => exact .done _

end Parts

namespace Call

theorem concerns_of_within {c : Call} (hc : c.Within workspace lane) : c.Concerns workspace fresh := by
  cases c with
  | ambient => exact trivial
  | lockTarget => exact hc
  | lockNeighbor | tryLockNeighbor | lockLane | lockSeed | tryLockSeed | adjacent | persist => exact hc.1
  | _ => exact hc.elim

theorem concerns_ambient (c : AmbientCall) : (ambient c).Concerns workspace fresh :=
  trivial

end Call

theorem oblivious_of_within {p : Commanding α} (hp : Only (I := calls) (Call.Within workspace lane) p) :
    Oblivious expects (Call.Concerns workspace fresh) p :=
  oblivious_of_only (hp.mono fun _ => Call.concerns_of_within)

namespace Move

variable {r : MoveRequest}

theorem oblivious_finish {p : Placement} :
    Oblivious expects (Call.Concerns r.workspace fresh) (finish r lane p) := by
  apply oblivious_note Call.concerns_ambient
  apply Oblivious.records
  apply oblivious_call
  . exact rfl
  . intro reply _
    apply oblivious_orFail Call.concerns_ambient
    intro row _
    cases row with
    | some task => exact .done _
    | none => exact oblivious_note Call.concerns_ambient (.done _)

theorem oblivious_attempts {n : Nat} {plan : LockPlan} :
    Oblivious expects (Call.Concerns r.workspace fresh) (attempts r lane n plan) := by
  induction n generalizing plan with
  | zero => exact oblivious_note Call.concerns_ambient (.done _)
  | succ n ih =>
    apply oblivious_call trivial
    intro reply _
    apply oblivious_orFail Call.concerns_ambient
    intro _ _
    apply (oblivious_of_within only_place).bind
    intro reply
    cases reply with
    | error error => exact .abandons (.done _)
    | ok attempt =>
      cases attempt with
      | retry wider =>
        apply Oblivious.abandons
        exact oblivious_note Call.concerns_ambient ih
      | placed p =>
        apply oblivious_call trivial
        intro reply _
        exact oblivious_orFail Call.concerns_ambient fun _ _ => oblivious_finish

theorem oblivious_moveTask (r : MoveRequest) : Oblivious expects (Call.Concerns r.workspace fresh) (moveTask r) := by
  apply oblivious_authorized Call.concerns_ambient rfl
  apply oblivious_withLane
  intro lane
  split
  . exact .done _
  . exact oblivious_attempts

end Move

theorem Create.oblivious_createTask (r : CreateRequest) :
    Oblivious (Call.Fresh fresh) (Call.Concerns r.workspace fresh) (createTask r) := by
  apply oblivious_authorized Call.concerns_ambient rfl
  dsimp only
  split
  . exact .done _
  . apply oblivious_withLane
    intro lane
    apply oblivious_call
    . exact rfl
    . intro reply _
      apply oblivious_orFail Call.concerns_ambient
      intro greatest _
      apply oblivious_call trivial
      intro id hid
      apply oblivious_call trivial
      intro position _
      apply oblivious_call trivial
      intro time _
      apply oblivious_call
      . exact ⟨rfl, hid⟩
      . intro reply _
        apply oblivious_orFail Call.concerns_ambient
        intro _ _
        apply oblivious_note Call.concerns_ambient
        exact .records _ (.done _)

theorem Renormalize.oblivious_renormalizeLane (r : RenormalizeRequest) :
    Oblivious expects (Call.Concerns r.workspace fresh) (renormalizeLane r) := by
  apply oblivious_authorized Call.concerns_ambient rfl
  apply oblivious_withLane
  intro lane
  apply oblivious_call trivial
  intro reply _
  apply oblivious_orFail Call.concerns_ambient
  intro _ _
  apply (oblivious_of_within only_within).bind
  intro reply
  cases reply with
  | error error => exact .abandons (.done _)
  | ok tasks =>
    apply oblivious_call trivial
    intro reply _
    apply oblivious_orFail Call.concerns_ambient
    intro _ _
    apply oblivious_note Call.concerns_ambient
    exact .records _ (.done _)

theorem Request.oblivious_program {q : Request} (hq : q.IsFor workspace) :
    Oblivious (Call.Fresh fresh) (Call.Concerns workspace fresh) q.program := by
  cases q with
  | move r =>
    subst hq
    exact (Move.oblivious_moveTask r).bind fun _ => .done _
  | create r =>
    subst hq
    exact (Create.oblivious_createTask r).bind fun _ => .done _
  | renormalize r =>
    subst hq
    exact (Renormalize.oblivious_renormalizeLane r).bind fun _ => .done _
  | call c =>
    cases c with
    | find | list | delete => exact .calls hq fun _ _ => .done _
    | _ => exact hq.elim

end LaneOrder
