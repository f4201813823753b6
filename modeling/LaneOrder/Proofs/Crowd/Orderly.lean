import LaneOrder.Proofs.Board.Discipline
import LaneOrder.Proofs.Crowd.Basic

/-!
This module contains crowds in which everybody obeys a protocol that includes the discipline of the board. At
any time everybody may then count on what it holds.
-/

namespace LaneOrder

open Board Program

namespace Process

/-- A command that has obeyed its protocol, obeys it from now on unless it was dropped, and holds what it
counts on. -/
structure Orderly (P : Protocol ops) (post : History ops → Answer → Prop) (b : Board) (h : Holder)
    (p : Process) : Prop where
  lawful : Lawful P p.past
  obeys : ∀ rest, p.rest = some rest → Obeys P post rest p.past
  holds : ∀ rest, p.rest = some rest → Holds b h p.past

variable {P : Protocol ops} {post : History ops → Answer → Prop} {b b' : Board} {h h' : Holder} {p p' : Process}

theorem Orderly.frame (hP : P.Refines discipline) (hp : p.Orderly P post b h) (hf : Frame b b' h) :
    p.Orderly P post b' h where
  lawful := hp.lawful
  obeys := hp.obeys
  holds rest hrest := (hp.holds rest hrest).frame hf (hp.lawful.refines hP)

theorem Steps.frame (hs : Steps h' b p b' p') (hP : P.Refines discipline) (hp : p.Orderly P post b h')
    (hk : b.locks.Keyed) (hh : h ≠ h') : Frame b b' h := by
  cases hs with
  | stays hlocks => exact frame_visits hlocks
  | drops => exact frame_release hk hh
  | answered => exact .refl
  | acts past next ha =>
    have hobeys := hp.obeys _ rfl
    have hl : Lawful P (⟨.action _, _⟩ :: past) :=
      ⟨⟨hobeys.1, (hP.honest _ _).2 (act_isHonest ha)⟩, hp.lawful⟩
    exact (act_change ha).frame hh hk (hl.refines hP) (hp.holds _ rfl)
  | waits past next ha => exact frame_blocking (act_blocking ha)
  | givesUp past next ha => exact (frame_blocking (act_blocking ha)).trans frame_leave

theorem Steps.idles_or_happens (hs : Steps h b p b' p') :
    (p' = p ∨ p' = ⟨p.past, none⟩) ∧ b'.rows = b.rows ∧ b'.audit = b.audit
      ∨ ∃ e next, p.rest = some (.perform (I := ops) e.op next) ∧ p' = ⟨e :: p.past, some (next e.reply)⟩
        ∧ Happens h b e b' := by
  cases hs with
  | stays => exact .inl ⟨.inl rfl, rfl, rfl⟩
  | drops => exact .inl ⟨.inr rfl, rfl, rfl⟩
  | waits past next ha =>
    rw [(act_blocking ha).board]
    exact .inl ⟨.inl rfl, rfl, rfl⟩
  | answered past c next reply => exact .inr ⟨_, next, rfl, rfl, .answered c reply⟩
  | acts past next ha => exact .inr ⟨_, next, rfl, rfl, .acts ha⟩
  | givesUp past next ha => exact .inr ⟨_, next, rfl, rfl, .givesUp ha⟩

theorem Steps.happens (hs : Steps h b p b' p') : p'.past = p.past ∨ ∃ e next, p.rest = some (.perform (I := ops) e.op next)
    ∧ p'.past = e :: p.past ∧ Happens h b e b' := by
  rcases hs.idles_or_happens with ⟨rfl | rfl, _⟩ | ⟨e, next, hrest, rfl, he⟩
  . exact .inl rfl
  . exact .inl rfl
  . exact .inr ⟨e, next, hrest, rfl, he⟩

theorem Steps.keyed (hs : Steps h b p b' p') (hk : b.locks.Keyed) : b'.locks.Keyed := by
  cases hs with
  | stays hlocks => exact hlocks.keyed hk
  | drops => exact LockTable.keyed_releaseAll hk
  | answered => exact hk
  | acts past next ha => exact (act_change ha).keyed hk
  | waits past next ha =>
    rw [(act_blocking ha).board]
    exact LockTable.keyed_enqueue hk
  | givesUp past next ha =>
    rw [(act_blocking ha).board]
    exact LockTable.keyed_leave (LockTable.keyed_enqueue hk)

theorem Orderly.performs {op : Op} {next : op.Reply → Working Answer} {past : History ops} {reply : op.Reply}
    (hP : P.Refines discipline) (hp : Orderly P post b h ⟨past, some (.perform (I := ops) op next)⟩)
    (hreply : (Event.mk (I := ops) op reply).IsHonest)
    (hholds : Lawful discipline (⟨op, reply⟩ :: past) → Holds b h past → Holds b' h (⟨op, reply⟩ :: past)) :
    Orderly P post b' h ⟨⟨op, reply⟩ :: past, some (next reply)⟩ := by
  have hobeys := hp.obeys _ rfl
  have hhonest := (hP.honest op reply).2 hreply
  have hl : Lawful P (⟨op, reply⟩ :: past) := ⟨⟨hobeys.1, hhonest⟩, hp.lawful⟩
  constructor
  . exact hl
  . rintro rest ⟨⟩
    exact hobeys.2 reply hhonest
  . rintro rest ⟨⟩
    exact hholds (hl.refines hP) (hp.holds _ rfl)

theorem Steps.orderly (hs : Steps h b p b' p') (hP : P.Refines discipline) (hp : p.Orderly P post b h) :
    p'.Orderly P post b' h := by
  cases hs with
  | stays hlocks => exact hp.frame hP (frame_visits hlocks)
  | drops => exact ⟨hp.lawful, by simp, by simp⟩
  | answered past c next reply =>
    have he : Happens h b ⟨.ambient c, reply⟩ b := .answered c reply
    exact hp.performs hP he.isHonest he.holds
  | acts past next ha => exact hp.performs hP (Happens.acts ha).isHonest (Happens.acts ha).holds
  | waits past next ha => exact hp.frame hP (frame_blocking (act_blocking ha))
  | givesUp past next ha => exact hp.performs hP (Happens.givesUp ha).isHonest (Happens.givesUp ha).holds

end Process

namespace Crowd

structure Orderly (P : Holder → Protocol ops) (post : Holder → History ops → Answer → Prop) (c : Crowd) :
    Prop where
  keyed : c.board.locks.Keyed
  processes : ∀ h, (c.processes h).Orderly (P h) (post h) c.board h

variable {P : Holder → Protocol ops} {post : Holder → History ops → Answer → Prop} {c : Crowd} {h : Holder}

theorem Orderly.start {b : Board} {requests : Holder → Request} (hb : b.locks.Keyed)
    (hobeys : ∀ h, Obeys (P h) (post h) (actionsOf (requests h).program) []) :
    (start b requests).Orderly P post := by
  constructor
  . exact hb
  . intro h
    constructor
    . exact trivial
    . rintro rest ⟨⟩
      exact hobeys h
    . intro _ _
      exact holds_of_opened_none rfl

theorem Orderly.turn (hc : c.Orderly P post) (hP : ∀ h, (P h).Refines discipline) (h : Holder) (t : Turn) :
    (c.turn h t).Orderly P post := by
  have hs := c.steps_turn h t
  constructor
  . exact hs.keyed hc.keyed
  . intro h'
    by_cases hh : h' = h
    . subst hh
      exact hs.orderly (hP h') (hc.processes h')
    . rw [processes_turn_of_ne hh]
      apply (hc.processes h').frame (hP h')
      exact hs.frame (hP h) (hc.processes h) hc.keyed hh

/-- All that somebody has done was done at a turn of its own. -/
theorem happened {turns : List (Holder × Turn)} {newer older : History ops} {e : Event ops}
    (hstart : (c.processes h).past = []) (hpast : ((c.run turns).processes h).past = newer ++ e :: older) :
    ∃ early t late next, turns = early ++ (h, t) :: late
      ∧ (c.run early).processes h = ⟨older, some (.perform (I := ops) e.op next)⟩
      ∧ (((c.run early).turn h t).processes h).past = e :: older
      ∧ Happens h (c.run early).board e ((c.run early).turn h t).board := by
  induction turns using List.reverseRecOn generalizing newer with
  | nil =>
    rw [show (c.run []).processes h = c.processes h from rfl, hstart] at hpast
    simp at hpast
  | append_singleton turns last ih =>
    obtain ⟨h', t⟩ := last
    have hlater : ∀ {newer}, ((c.run turns).processes h).past = newer ++ e :: older → ∃ early t' late next,
        turns ++ [(h', t)] = early ++ (h, t') :: late
          ∧ (c.run early).processes h = ⟨older, some (.perform (I := ops) e.op next)⟩
          ∧ (((c.run early).turn h t').processes h).past = e :: older
          ∧ Happens h (c.run early).board e ((c.run early).turn h t').board := by
      intro newer hpast
      obtain ⟨early, t', late, next, rfl, hrest⟩ := ih hpast
      exact ⟨early, t', late ++ [(h', t)], next, by simp, hrest⟩
    rw [run_append, show (c.run turns).run [(h', t)] = (c.run turns).turn h' t from rfl] at hpast
    by_cases hh : h = h'
    . subst hh
      rcases ((c.run turns).steps_turn h t).happens with hsame | ⟨x, next, hrest, hcons, hhappens⟩
      . rw [hsame] at hpast
        exact hlater hpast
      . rw [hcons] at hpast
        cases newer with
        | nil =>
          obtain ⟨rfl, rfl⟩ := List.cons.inj hpast
          exact ⟨turns, t, [], next, rfl, by rw [← hrest], hcons, hhappens⟩
        | cons x' newer => exact hlater (List.cons.inj hpast).2
    . rw [processes_turn_of_ne hh] at hpast
      exact hlater hpast

end Crowd

end LaneOrder
