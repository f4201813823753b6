import LaneOrder.Proofs.Board.Carrying
import LaneOrder.Proofs.Board.Lists
import LaneOrder.Proofs.Command.Create
import LaneOrder.Proofs.Command.Move
import LaneOrder.Proofs.Command.Renormalize
import LaneOrder.Proofs.Crowd.Deadlock

/-!
This module contains the crowds of commands: moves, creations, renormalizations and deletions. All of them obey the
discipline of the board, so they never block each other for good.
-/

namespace LaneOrder

open Board Program

namespace Request

/-- The requests that change tasks: the three commands and the deletion of a task. -/
def IsCommand : Request → Prop
  | move _ | create _ | renormalize _ => True
  | call c => ∃ workspace id, c = .delete workspace id

def callProtocol : Request → Protocol calls
  | move r => Move.protocol r
  | create r => Create.protocol r
  | renormalize r => Renormalize.protocol r
  | call c => ⟨callDiscipline.honest, fun H c' => c'.Allowed H ∧ H = [] ∧ c' = c⟩

def protocol (q : Request) : Protocol ops :=
  discipline.carried carryOut q.callProtocol

/-- An answer says that something was done if and only if something has taken effect, unless a look at a task
failed. The answer to a creation is the task that was inserted. -/
structure Answers (q : Request) (H : History calls) (a : Answer) : Prop where
  effect : Fruitless H ∧ a.succeeds = false ∨ Fruitful H ∧ (a.succeeds = true ∨ ∃ e ∈ H, e.failsToFind = true)
  created : ∀ r, q = create r → a.succeeds = true → ∃ t, a = .created t ∧ (⟨.insert t, .ok ()⟩ : Event calls) ∈ H

variable {q : Request}

theorem callProtocol_refines : q.callProtocol.Refines callDiscipline := by
  cases q with
  | move r => exact Move.protocol_refines
  | create r => exact Create.protocol_refines
  | renormalize r => exact Renormalize.protocol_refines
  | call c => exact ⟨fun _ _ => .rfl, fun _ _ h => h.1⟩

theorem protocol_refines : q.protocol.Refines discipline :=
  carried_refines

theorem effect_of_reports {α : Type} {H : History calls} {outcome : Outcome α} {f : α → Answer}
    (hf : ∀ a, (f a).succeeds = true) (h : Reports H outcome) :
    Fruitless H ∧ (Answer.ofOutcome f outcome).succeeds = false
      ∨ Fruitful H ∧ ((Answer.ofOutcome f outcome).succeeds = true ∨ ∃ e ∈ H, e.failsToFind = true) := by
  rcases h with ⟨hnone, error, rfl⟩ | ⟨hfruit, hcase⟩
  . exact .inl ⟨hnone, rfl⟩
  . refine .inr ⟨hfruit, ?_⟩
    rcases hcase with ⟨a, rfl⟩ | hfind
    . exact .inl (hf a)
    . exact .inr hfind

theorem obeys_program (hq : q.IsCommand) : Obeys q.callProtocol q.Answers q.program [] := by
  cases q with
  | move r =>
    apply obeys_bind
    apply (Move.obeys_moveTask r).mono
    intro H outcome h
    exact ⟨effect_of_reports (fun _ => rfl) h, by rintro _ ⟨⟩⟩
  | create r =>
    apply obeys_bind
    apply (Create.obeys_createTask r).mono
    rintro H outcome ⟨h, hcreated⟩
    refine ⟨effect_of_reports (fun _ => rfl) h, ?_⟩
    intro _ _ hsucceeds
    cases outcome with
    | error e => cases hsucceeds
    | ok t => exact ⟨t, rfl, hcreated t rfl⟩
  | renormalize r =>
    apply obeys_bind
    apply (Renormalize.obeys_renormalizeLane r).mono
    intro H outcome h
    exact ⟨effect_of_reports (fun _ => rfl) h, by rintro _ ⟨⟩⟩
  | call c =>
    obtain ⟨workspace, id, rfl⟩ := hq
    apply obeys_bind
    apply obeys_ask
    . exact ⟨Call.allowed_of_idle rfl rfl rfl rfl, rfl, rfl⟩
    . intro reply _
      refine ⟨?_, by rintro _ ⟨⟩⟩
      cases reply with
      | error e => exact .inl ⟨by simp [Fruitless, Event.takesEffect], rfl⟩
      | ok deleted =>
        cases deleted with
        | false => exact .inl ⟨by simp [Fruitless, Event.takesEffect], rfl⟩
        | true => exact .inr ⟨fruitful_of_effect (by simp [Fruitless]) rfl, .inl rfl⟩

theorem obeys_actions (hq : q.IsCommand) :
    Obeys q.protocol (fun T a => ∃ H, Lawful q.callProtocol H ∧ Mirrors carryOut H T ∧ q.Answers H a)
      (actionsOf q.program) [] :=
  obeys_actionsOf callProtocol_refines (obeys_program hq)

end Request

namespace Sample

/-- The move of a task that everybody else wants to delete. -/
def contend (h : Holder) : Request :=
  if h = 0 then .move ⟨workspace, id 1, actor, "done", none, none⟩ else .call (.delete workspace (id 1))

theorem isCommand_contend (h : Holder) : (contend h).IsCommand := by
  unfold contend
  split
  . trivial
  . exact ⟨_, _, rfl⟩

def contention : Crowd :=
  .start (board ⟨[task 1 .todo 1000], by decide⟩) contend

end Sample

namespace Crowd

variable {b : Board} {requests : Holder → Request}

def Answered (requests : Holder → Request) (h : Holder) (T : History ops) (a : Answer) : Prop :=
  ∃ H, Lawful (requests h).callProtocol H ∧ Mirrors carryOut H T ∧ (requests h).Answers H a

theorem orderly_run (hb : b.locks.Idle) (hcommands : ∀ h, (requests h).IsCommand) (turns : List (Holder × Turn)) :
    ((start b requests).run turns).Orderly (fun h => (requests h).protocol) (Answered requests) := by
  apply run_induction (fun _ => True)
  . apply Orderly.start hb.keyed
    intro h
    exact Request.obeys_actions (hcommands h)
  . intro c h t hc _
    exact hc.turn (fun _ => Request.protocol_refines) h t
  . exact fun _ _ _ => trivial

/-- What holds at first and is kept by every turn among commands that obey their protocols holds at any time. -/
theorem orderly_induction (hb : b.locks.Idle) (hcommands : ∀ h, (requests h).IsCommand) (property : Event ops → Prop)
    (inv : Crowd → Prop) (hstart : inv (start b requests))
    (hturn : ∀ c h t, c.Orderly (fun h => (requests h).protocol) (Answered requests) → inv c →
      (turn c h t).Witnessed property → inv (turn c h t))
    (turns : List (Holder × Turn)) (hruns : ((start b requests).run turns).Witnessed property) :
    inv ((start b requests).run turns) := by
  have hboth : ((start b requests).run turns).Orderly (fun h => (requests h).protocol) (Answered requests)
      ∧ inv ((start b requests).run turns) := by
    apply run_induction property fun c => c.Orderly (fun h => (requests h).protocol) (Answered requests) ∧ inv c
    . exact ⟨orderly_run hb hcommands [], hstart⟩
    . intro c h t hc hw
      exact ⟨hc.1.turn (fun _ => Request.protocol_refines) h t, hturn c h t hc.1 hc.2 hw⟩
    . exact hruns
  exact hboth.2

/-- At no time, whatever turns are taken, do commands block each other in a circle: nobody is blocked, over however
many others, on a lock that it owns itself or is queued ahead for. -/
theorem deadlock_free (hb : b.locks.Idle) (hcommands : ∀ h, (requests h).IsCommand) (turns : List (Holder × Turn))
    (h : Holder) : ¬ Relation.TransGen ((start b requests).run turns).board.locks.Blocked h h := by
  have hboth : ((start b requests).run turns).Orderly (fun h => (requests h).protocol) (Answered requests)
      ∧ ((start b requests).run turns).Accounted := by
    apply run_induction (fun _ => True)
      fun c => c.Orderly (fun h => (requests h).protocol) (Answered requests) ∧ c.Accounted
    . exact ⟨orderly_run hb hcommands [], LockTable.accounts_of_idle hb⟩
    . intro c h t hc _
      exact ⟨hc.1.turn (fun _ => Request.protocol_refines) h t,
        hc.2.turn hc.1 (fun _ => Request.protocol_refines) h t⟩
    . exact fun _ _ _ => trivial
  exact hboth.2.not_blocked_self hboth.1 (fun _ => Request.protocol_refines) h

def twoDeletions : Crowd :=
  (start (Sample.board ⟨[Sample.task 1 .todo 1000], by decide⟩)
    fun _ => .call (.delete Sample.workspace (Sample.id 1))).run (Sample.turns [0, 0, 1, 1])

theorem deadlock_free_twoDeletions :
    twoDeletions.board.locks.Blocked 1 0 ∧ ¬ Relation.TransGen twoDeletions.board.locks.Blocked 1 1 := by
  constructor
  . refine ⟨.row (Sample.id 1), ?_, .inl ?_⟩
    . decide +kernel
    . decide +kernel
  . have hcommands : ∀ _ : Holder, (Request.call (.delete Sample.workspace (Sample.id 1))).IsCommand :=
      fun _ => ⟨_, _, rfl⟩
    exact deadlock_free LockTable.idle_empty hcommands _ 1

end Crowd

end LaneOrder
