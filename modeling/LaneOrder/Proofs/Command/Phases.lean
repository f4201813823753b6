import LaneOrder.Command.Move
import LaneOrder.Proofs.Command.Protocol

/-!
This module contains the phases of commands, whatever a store answers. Rows are locked, read and written in a
transaction that was begun, while nothing has taken effect. What follows after something has taken effect is a record
of it and a last look at the task. In the end no transaction is left open.
-/

namespace LaneOrder

open Program

namespace Call

def transacts (c : Call) : Bool :=
  c.prepares || c.persists?.isSome

def isInner : Call → Bool
  | ambient _ => true
  | c => c.transacts

def isSequel : Call → Bool
  | record _ | find .. => true
  | _ => false

/-- A call that shows others nothing new unless it is a commit. -/
def commitsOnly : Call → Bool
  | insert _ | delete .. => false
  | _ => true

end Call

/-- A transaction was begun, and it has not ended yet. -/
def Begun (H : History calls) : Prop :=
  ∃ t past, transacted H = some t ∧ H = t ++ ⟨.begin, .ok ()⟩ :: past

def Closed (H : History calls) : Prop :=
  ¬ Begun H

structure Call.Timely (H : History calls) (c : Call) : Prop where
  transacts : c.transacts = true → Fruitless H ∧ Begun H
  sequel : c.isSequel = true → Fruitful H

/-- The protocol of the phases of commands that use some calls only. Nothing is expected of replies. -/
def phases (used : Call → Bool) : Protocol calls where
  honest _ _ := True
  allowed H c := used c = true ∧ c.Timely H

variable {used : Call → Bool} {H newer t : History calls} {e : Event calls} {c : Call}

theorem Call.timely_of_idle (htransacts : c.transacts = false) (hsequel : c.isSequel = false) : c.Timely H := by
  constructor
  . simp [htransacts]
  . simp [hsequel]

theorem Begun.push (h : Begun H) (hs : e.op.starts = false) (he : e.op.ends = false) : Begun (e :: H) := by
  obtain ⟨t, past, ht, rfl⟩ := h
  exact ⟨e :: t, past, transacted_push hs he ht, rfl⟩

theorem begun_begin : Begun (⟨.begin, .ok ()⟩ :: H) :=
  ⟨[], H, transacted_begin, rfl⟩

theorem closed_of_none (h : transacted H = none) : Closed H := by
  rintro ⟨t, past, ht, _⟩
  rw [h] at ht
  cases ht

theorem boundary_of_isAside (hc : c.isAside = true) : c.starts = false ∧ c.ends = false := by
  cases c <;> first | exact ⟨rfl, rfl⟩ | cases hc

theorem unopened_append (h : transacted H = none) (hnewer : ∀ e ∈ newer, e.op.isAside = true) :
    transacted (newer ++ H) = none :=
  since_append_none (fun e he => boundary_of_isAside (hnewer e he)) h

theorem unopened_push (h : transacted H = none) (he : e.op.isAside = true) : transacted (e :: H) = none := by
  have hnewer : ∀ e' ∈ [e], e'.op.isAside = true := by simpa using he
  exact unopened_append h hnewer

theorem transacted_end (hs : e.op.starts = false) (he : e.op.ends = true) : transacted (e :: H) = none :=
  since_end hs he

theorem unopened_abandoned {reply : Except StoreError Unit} (hnewer : ∀ e ∈ newer, e.op.isQuiet = true) :
    transacted (newer ++ ⟨.rollback, reply⟩ :: H) = none :=
  unopened_append (transacted_end rfl rfl) (aside_of_quiet hnewer)

/-- If a transaction cannot begin, then only this is noted. -/
theorem closed_of_unbegun {error : StoreError} {n : Notice} :
    Closed (⟨.ambient (.note n), ()⟩ :: ⟨.begin, .error error⟩ :: H) := by
  rintro ⟨t, past, ht, heq⟩
  have hnote : transacted (⟨.ambient (.note n), ()⟩ :: ⟨.begin, .error error⟩ :: H) = some [⟨.ambient (.note n), ()⟩] :=
    transacted_push rfl rfl (since_start rfl)
  rw [hnote] at ht
  cases ht
  cases heq

theorem phases_refines : (phases used).Refines (phases fun _ => true) where
  honest _ _ := .rfl
  allowed _ _ h := ⟨rfl, h.2⟩

/-- Whatever follows an effect is missing where none was taken. -/
theorem not_sequel_of_fruitless {P : Protocol calls} (hl : Lawful P H) (hP : ∀ H c, P.allowed H c → Call.Timely H c)
    (hH : Fruitless H) (he : e ∈ H) : e.op.isSequel = false := by
  obtain ⟨newer, older, rfl⟩ := List.append_of_mem he
  cases hsequel : e.op.isSequel with
  | false => rfl
  | true =>
    obtain ⟨newer', e', older', rfl, heffect, _⟩ := (hP _ _ hl.allowed).sequel hsequel
    exact nomatch (hH e' (by simp)).symm.trans heffect

theorem closed_of_aside (hnewer : ∀ e ∈ newer, e.op.isAside = true) : Closed newer := by
  apply closed_of_none
  rw [← List.append_nil newer]
  exact unopened_append rfl hnewer

namespace Move

/-- A move fails if nothing was committed. If something was, it answers with the task, unless it failed to find it. -/
def Concludes (r : MoveRequest) (H : History calls) (outcome : Outcome MoveOutcome) : Prop :=
  Fruitless H ∧ (∃ error, outcome = .error error)
    ∨ Fruitful H ∧ ((∃ o, outcome = .ok o) ∨ ∃ e, (⟨.find r.workspace r.task, .error e⟩ : Event calls) ∈ H
      ∧ outcome = .error (.ofStore .refetch e))

def Finishes (r : MoveRequest) (H : History calls) (outcome : Outcome MoveOutcome) : Prop :=
  Closed H ∧ Concludes r H outcome

end Move

end LaneOrder
