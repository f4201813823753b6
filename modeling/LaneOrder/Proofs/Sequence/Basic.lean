import LaneOrder.Proofs.Crowd.Commands

/-!
This module contains commands that follow each other: each of them has the board to itself until it is answered.
-/

namespace LaneOrder

open Board Program

/-- How calls that need no board are answered after what has happened. -/
abbrev Replies : Type := History ops → (c : AmbientCall) → c.Reply

/-- A request, who makes it, and what it is replied that does not depend on the board. -/
structure Command where
  holder : Holder
  request : Request
  replies : Replies

structure Completed where
  board : Board
  past : History ops
  answer : Answer

namespace Board

/-- Go on with a command until it is answered. Nobody else takes a turn, so the wait for a lock that is not free is given
up. -/
def complete (replies : Replies) (h : Holder) : Working Answer → History ops → Board → Completed
  | .done a, T, b => ⟨b, T, a⟩
  | .perform (.ambient c) next, T, b => complete replies h (next (replies T c)) (⟨.ambient c, replies T c⟩ :: T) b
  | .perform (.action a) next, T, b => match b.act h a with
    | .replied reply b => complete replies h (next reply) (⟨.action a, reply⟩ :: T) b
    | .blocked key refusal b => complete replies h (next refusal) (⟨.action a, refusal⟩ :: T) (b.leave h key)

/-- What has happened between two states of a board that nobody else uses. -/
inductive Ran (h : Holder) (b : Board) : History ops → Board → Prop where
  | nil : Ran h b [] b
  | cons {e : Event ops} {T : History ops} {b' b'' : Board} (hT : Ran h b T b') (he : Happens h b' e b'') :
    Ran h b (e :: T) b''

end Board

def Command.complete (c : Command) (b : Board) : Completed :=
  Board.complete c.replies c.holder (actionsOf c.request.program) [] b

namespace Board

variable {b b' : Board} {h : Holder} {T newer older : History ops} {replies : Replies}

theorem Ran.holds (hr : Ran h b T b') (hT : Lawful discipline T) : Holds b' h T := by
  induction hr with
  | nil => exact holds_of_opened_none rfl
  | cons _ he ih => exact he.holds hT (ih hT.2)

theorem complete_spec {P : Protocol ops} {post : History ops → Answer → Prop} (hP : P.Refines discipline)
    {p : Working Answer} {b₁ : Board} (hp : Obeys P post p T) (hT : Lawful P T) (hr : Ran h b T b₁) :
    Lawful P (complete replies h p T b₁).past
      ∧ Ran h b (complete replies h p T b₁).past (complete replies h p T b₁).board
      ∧ post (complete replies h p T b₁).past (complete replies h p T b₁).answer := by
  induction p generalizing T b₁ with
  | done a => exact ⟨hT, hr, hp⟩
  | perform op next ih =>
    -- whatever happens next is honest, so the rest of the program obeys after it
    have hstep : ∀ reply b₂, Happens h b₁ ⟨op, reply⟩ b₂ →
        Obeys P post (next reply) (⟨op, reply⟩ :: T) ∧ Lawful P (⟨op, reply⟩ :: T) := by
      intro reply b₂ he
      have hhonest := (hP.honest op reply).2 he.isHonest
      exact ⟨hp.2 reply hhonest, ⟨hp.1, hhonest⟩, hT⟩
    cases op with
    | ambient c =>
      have he : Happens h b₁ ⟨.ambient c, replies T c⟩ b₁ := .answered c _
      obtain ⟨hrest, hlawful⟩ := hstep _ b₁ he
      exact ih _ hrest hlawful (.cons hr he)
    | action a =>
      unfold complete
      cases ha : b₁.act h a with
      | replied reply b₂ =>
        have he : Happens h b₁ ⟨.action a, reply⟩ b₂ := .acts ha
        obtain ⟨hrest, hlawful⟩ := hstep _ b₂ he
        exact ih _ hrest hlawful (.cons hr he)
      | blocked key refusal b₂ =>
        have he : Happens h b₁ ⟨.action a, refusal⟩ (b₂.leave h key) := .givesUp ha
        obtain ⟨hrest, hlawful⟩ := hstep _ _ he
        exact ih _ hrest hlawful (.cons hr he)

end Board

theorem Command.answered (c : Command) (hc : c.request.IsCommand) (b : Board) :
    Lawful c.request.protocol (c.complete b).past ∧ Ran c.holder b (c.complete b).past (c.complete b).board
      ∧ ∃ H, Lawful c.request.callProtocol H ∧ Mirrors carryOut H (c.complete b).past
        ∧ c.request.Answers H (c.complete b).answer :=
  complete_spec Request.protocol_refines (Request.obeys_actions hc) trivial .nil

end LaneOrder
