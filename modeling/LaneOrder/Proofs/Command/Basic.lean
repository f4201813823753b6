import LaneOrder.Command.Basic
import LaneOrder.Proofs.Command.Protocol

/-!
This module contains what the parts that all commands share call, whatever a store answers.
-/

namespace LaneOrder

open Program

variable {α β : Type} {P : Protocol calls} {H : History calls}

theorem obeys_note {post : History calls → Unit → Prop} {n : Notice} (hP : ∀ H c, P.allowed H (.ambient c))
    (h : post (⟨.ambient (.note n), ()⟩ :: H) ()) : Obeys P post (note n) H := by
  apply obeys_ask
  . exact hP H _
  . intro _ _
    exact h

theorem obeys_storeFailed {post : History calls → Outcome α → Prop} {stage : Stage} {e : StoreError}
    (hP : ∀ H c, P.allowed H (.ambient c))
    (h : ∀ n, post (⟨.ambient (.note n), ()⟩ :: H) (.error (.ofStore stage e))) :
    Obeys P post (storeFailed stage e) H := by
  unfold storeFailed
  split
  . apply obeys_bind
    apply obeys_note hP
    exact h _
  . apply obeys_bind
    apply obeys_note hP
    exact h _

theorem obeys_orFail {post : History calls → Outcome β → Prop} {stage : Stage} {reply : Except StoreError α}
    {next : α → Commanding (Outcome β)} (hP : ∀ H c, P.allowed H (.ambient c))
    (herror : ∀ e, reply = .error e → ∀ n error, post (⟨.ambient (.note n), ()⟩ :: H) (.error error))
    (hok : ∀ a, reply = .ok a → Obeys P post (next a) H) : Obeys P post (orFail stage reply next) H := by
  cases reply with
  | ok a => exact hok a rfl
  | error e => exact obeys_storeFailed hP fun n => herror e rfl n _

theorem obeys_ite {post : History calls → α → Prop} {condition : Prop} [Decidable condition] {p q : Commanding α}
    (hp : condition → Obeys P post p H) (hq : ¬ condition → Obeys P post q H) :
    Obeys P post (if condition then p else q) H := by
  split
  . next h => exact hp h
  . next h => exact hq h

theorem obeys_withLane {post : History calls → Outcome β → Prop} {name : String} {next : Lane → Commanding (Outcome β)}
    (herror : ∀ error, post H (.error error))
    (hok : ∀ lane, Lane.parse name = .ok lane → Obeys P post (next lane) H) :
    Obeys P post (withLane name next) H := by
  unfold withLane
  split
  . next lane hlane => exact hok lane hlane
  . exact herror _

theorem obeys_authorized {post : History calls → Outcome β → Prop} {actor : ActorId} {workspace : WorkspaceId}
    {next : Commanding (Outcome β)} (hP : ∀ H c, P.allowed H (.ambient c))
    (hrole : P.allowed H (.role actor workspace))
    (herror : ∀ newer error, (∀ e ∈ newer, e.op.isAside = true) → post (newer ++ H) (.error error))
    (hok : ∀ reply, Obeys P post next (⟨.role actor workspace, reply⟩ :: H)) :
    Obeys P post (authorized actor workspace next) H := by
  apply obeys_bind
  apply obeys_ask
  . exact hrole
  . intro reply _
    have hnoted : ∀ n error, post (⟨.ambient (.note n), ()⟩ :: ⟨.role actor workspace, reply⟩ :: H) (.error error) := by
      intro n error
      exact herror [_, _] error (by simp [Call.isAside, Call.isQuiet])
    cases reply with
    | ok role =>
      dsimp only
      split
      . exact hok _
      . apply obeys_bind
        exact obeys_note hP (hnoted _ _)
    | error e =>
      cases e with
      | store e =>
        apply obeys_bind
        exact obeys_note hP (hnoted _ _)
      | _ => exact herror [_] _ (by simp [Call.isAside])

theorem obeys_record {post : History calls → Unit → Prop} {entry : Timestamp → AuditEntry}
    (hP : ∀ H c, P.allowed H (.ambient c))
    (hrecord : ∀ time, P.allowed (⟨.ambient .now, time⟩ :: H) (.record (entry time)))
    (h : ∀ newer time reply, (∀ e ∈ newer, e.op.isQuiet = true) →
      post (newer ++ ⟨.record (entry time), reply⟩ :: ⟨.ambient .now, time⟩ :: H) ()) :
    Obeys P post (record entry) H := by
  apply obeys_bind
  apply obeys_ask
  . exact hP H _
  . intro time _
    apply obeys_bind
    apply obeys_ask
    . exact hrecord time
    . intro reply _
      cases reply with
      | ok _ => exact h [] time _ (by simp)
      | error e => exact obeys_note hP (h [_] time _ (by simp [Call.isQuiet]))

/-- What was done is noted and recorded before the rest. -/
theorem obeys_told {post : History calls → α → Prop} {n : Notice} {entry : Timestamp → AuditEntry} {rest : Commanding α}
    (hP : ∀ H c, P.allowed H (.ambient c)) (hrecord : ∀ H time, P.allowed H (.record (entry time)))
    (h : ∀ newer, (∀ e ∈ newer, e.op.isAside = true) → Obeys P post rest (newer ++ H)) :
    Obeys P post (do
      note n
      record entry
      rest) H := by
  apply obeys_bind
  apply obeys_note hP
  apply obeys_bind
  apply obeys_record hP
  . exact fun time => hrecord _ time
  . intro newer time reply hnewer
    have hall : ∀ e ∈ newer ++ [⟨.record (entry time), reply⟩, ⟨.ambient .now, time⟩, ⟨.ambient (.note n), ()⟩],
        e.op.isAside = true := by
      rw [List.forall_mem_append]
      exact ⟨aside_of_quiet hnewer, by simp [Call.isAside, Call.isQuiet]⟩
    have hrest := h _ hall
    rwa [List.append_assoc] at hrest

theorem obeys_abandon {post : History calls → Unit → Prop} (hP : ∀ H c, P.allowed H (.ambient c))
    (hrollback : P.allowed H .rollback)
    (h : ∀ newer reply, (∀ e ∈ newer, e.op.isQuiet = true) → post (newer ++ ⟨.rollback, reply⟩ :: H) ()) :
    Obeys P post abandon H := by
  apply obeys_bind
  apply obeys_ask
  . exact hrollback
  . intro reply _
    cases reply with
    | ok _ => exact h [] _ (by simp)
    | error e => exact obeys_note hP (h [_] _ (by simp [Call.isQuiet]))

end LaneOrder
