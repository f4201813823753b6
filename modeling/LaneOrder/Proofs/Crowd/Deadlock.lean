import LaneOrder.Proofs.Crowd.Orderly
import LaneOrder.Proofs.Crowd.Waiting

/-!
This module contains why the members of a crowd never wait for each other in a circle.
-/

namespace LaneOrder

open Board Program

namespace Process

variable {P : Protocol ops} {post : History ops → Answer → Prop} {b : Board} {h : Holder} {p : Process} {key : LockKey}

/-- Whoever waits for a lock waits for one above all that it has. -/
theorem Orderly.rank_lt (hP : P.Refines discipline) (hp : p.Orderly P post b h) {key' : LockKey} (hhas : p.Has key)
    (hawaits : p.awaits? = some key') : key.rank < key'.rank := by
  obtain ⟨past, rest⟩ := p
  unfold awaits? at hawaits
  split at hawaits
  . next op next hrest =>
    obtain ⟨s, hs, habove⟩ := (hP.allowed _ _ (hp.obeys _ hrest).1).awaits key' hawaits
    obtain ⟨_, s', hs', hgets⟩ := hhas
    rw [hs] at hs'
    cases hs'
    exact habove key hgets
  . cases hawaits

theorem Orderly.agrees (hP : P.Refines discipline) (hp : p.Orderly P post b h) : p.Agrees b h := by
  intro op next hrest hprepares
  obtain ⟨s, hs, _⟩ := (hP.allowed _ _ (hp.obeys _ hrest).1).prepares hprepares
  rw [(hp.holds _ hrest).tx s hs, hs]
  rfl

theorem Orderly.waits?_eq (hP : P.Refines discipline) (hp : p.Orderly P post b h) : p.waits? = p.awaits? := by
  obtain ⟨past, rest⟩ := p
  cases hkey : awaits? ⟨past, rest⟩ with
  | none => simp [waits?, hkey]
  | some key =>
    refine waits?_eq_some.2 ⟨?_, hkey⟩
    unfold awaits? at hkey
    split at hkey
    . next op next hrest =>
      obtain ⟨s, hs, _⟩ := (hP.allowed _ _ (hp.obeys _ hrest).1).awaits key hkey
      simp only at hrest hs
      simp [isOpen, hrest, hs]
    . cases hkey

end Process

namespace Crowd

variable {P : Holder → Protocol ops} {post : Holder → History ops → Answer → Prop} {c : Crowd}

def Accounted (c : Crowd) : Prop :=
  c.board.locks.Accounts (fun h => (c.processes h).Has) (fun h => (c.processes h).awaits?)

theorem Accounted.turn (hc : c.Accounted) (ho : c.Orderly P post) (hP : ∀ h, (P h).Refines discipline) (h : Holder)
    (t : Turn) : (c.turn h t).Accounted := by
  have ho' := ho.turn hP h t
  apply (c.steps_turn h t).accounts ((ho.processes h).agrees (hP h)) hc _ rfl _ rfl
  . intro hsame
    rw [hsame]
    exact ((ho.processes h).waits?_eq (hP h)).symm
  . constructor
    . intro h' hh key hold
      rwa [processes_turn_of_ne hh]
    . intro h' hh
      rw [processes_turn_of_ne hh]
  . exact ((ho.processes h).waits?_eq (hP h)).symm

theorem Accounted.not_blocked_self (hc : c.Accounted) (ho : c.Orderly P post)
    (hP : ∀ h, (P h).Refines discipline) (h : Holder) : ¬ Relation.TransGen c.board.locks.Blocked h h := by
  apply LockTable.Accounts.not_blocked_self hc
  intro h' key key' hhas hawaits
  exact (ho.processes h').rank_lt (hP h') hhas hawaits

end Crowd

end LaneOrder
