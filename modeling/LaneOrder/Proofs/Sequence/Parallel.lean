import LaneOrder.Proofs.Sequence.Basic

/-!
This module contains two runs of one program, on boards that may differ. Each run has its board to itself, and both of
them have the same supply of positions, times and identifiers.
-/

namespace LaneOrder

open Board Program

/-- How many times were read, and how many identifiers were taken. -/
structure Readings where
  times : Nat := 0
  ids : Nat := 0
deriving DecidableEq

def readings : History ops → Readings
  | [] => {}
  | ⟨.ambient .now, _⟩ :: T => { readings T with times := (readings T).times + 1 }
  | ⟨.ambient .freshId, _⟩ :: T => { readings T with ids := (readings T).ids + 1 }
  | _ :: T => readings T

/-- What commands that follow each other are supplied with: an allocator, the readings of a clock, and identifiers. -/
structure Supply where
  allocator : Allocator
  now : Nat → Timestamp
  freshId : Nat → TaskId

namespace Supply

def reply (s : Supply) (r : Readings) : (c : AmbientCall) → c.Reply
  | .note _ => ()
  | .now => s.now r.times
  | .freshId => s.freshId r.ids
  | .allocate before after => s.allocator.allocate before after
  | .appendAfter greatest => s.allocator.appendAfter greatest
  | .spaced index => s.allocator.spaced index

def replies (s : Supply) : Replies :=
  fun T => s.reply (readings T)

/-- What is left of a supply. -/
def after (s : Supply) (r : Readings) : Supply where
  allocator := s.allocator
  now n := s.now (r.times + n)
  freshId n := s.freshId (r.ids + n)

end Supply

/-- What has happened to the one who uses a board, and the board. -/
structure Moment where
  past : History ops
  board : Board

namespace Moment

variable {α β : Type}

def next (s : Supply) (h : Holder) (m : Moment) : (op : Op) → op.Reply × Moment
  | .ambient c => (s.replies m.past c, ⟨⟨.ambient c, s.replies m.past c⟩ :: m.past, m.board⟩)
  | .action a => match m.board.act h a with
    | .replied reply b => (reply, ⟨⟨.action a, reply⟩ :: m.past, b⟩)
    | .blocked key refusal b => (refusal, ⟨⟨.action a, refusal⟩ :: m.past, b.leave h key⟩)

def advance (s : Supply) (h : Holder) : Working α → Moment → α × Moment
  | .done a, m => (a, m)
  | .perform op next, m => advance s h (next (m.next s h op).1) (m.next s h op).2

variable {s : Supply} {h : Holder} {m m₁ m₂ : Moment}

theorem advance_bind (p : Working α) (f : α → Working β) (m : Moment) :
    advance s h (p >>= f) m = advance s h (f (advance s h p m).1) (advance s h p m).2 := by
  induction p generalizing m with
  | done a => rfl
  | perform op next ih => exact ih _ _

theorem complete_eq (p : Working Answer) (m : Moment) : Board.complete s.replies h p m.past m.board
    = ⟨(advance s h p m).2.board, (advance s h p m).2.past, (advance s h p m).1⟩ := by
  induction p generalizing m with
  | done a => rfl
  | perform op next ih =>
    cases op with
    | ambient c => exact ih (s.replies m.past c) ⟨⟨.ambient c, s.replies m.past c⟩ :: m.past, m.board⟩
    | action a =>
      unfold Board.complete advance Moment.next
      dsimp only
      cases m.board.act h a with
      | replied reply b => exact ih reply ⟨⟨.action a, reply⟩ :: m.past, b⟩
      | blocked key refusal b => exact ih refusal ⟨⟨.action a, refusal⟩ :: m.past, b.leave h key⟩

/-- What is true of the results of two programs, each of which is run on a board of its own, and of both boards then. -/
def Related (s : Supply) (h : Holder) (post : α → β → Moment → Moment → Prop) (p : Working α) (q : Working β)
    (m₁ m₂ : Moment) : Prop :=
  post (advance s h p m₁).1 (advance s h q m₂).1 (advance s h p m₁).2 (advance s h q m₂).2

theorem related_bind {γ δ : Type} {post : γ → δ → Moment → Moment → Prop} {p : Working α} {q : Working β}
    {f : α → Working γ} {g : β → Working δ}
    (hp : Related s h (fun a₁ a₂ m₁ m₂ => Related s h post (f a₁) (g a₂) m₁ m₂) p q m₁ m₂) :
    Related s h post (p >>= f) (q >>= g) m₁ m₂ := by
  unfold Related
  rw [advance_bind, advance_bind]
  exact hp

theorem Related.mono {post post' : α → β → Moment → Moment → Prop} {p : Working α} {q : Working β}
    (hp : Related s h post p q m₁ m₂) (hpost : ∀ a₁ a₂ m₁ m₂, post a₁ a₂ m₁ m₂ → post' a₁ a₂ m₁ m₂) :
    Related s h post' p q m₁ m₂ :=
  hpost _ _ _ _ hp

end Moment

end LaneOrder
