import LaneOrder.Proofs.Board.Waiting
import LaneOrder.Proofs.Crowd.Basic

/-!
This module contains what the members of a crowd have and wait for at each turn, whatever their programs are. A lock is
waited for within a transaction only, since it is refused at once to anybody else.
-/

namespace LaneOrder

open Board Program

namespace Process

def awaits? (p : Process) : Option LockKey :=
  match p.rest with
  | some (.perform op _) => op.awaits?
  | _ => none

def Has (p : Process) (key : LockKey) : Prop :=
  p.rest.isSome = true ∧ ∃ s, opened p.past = some s ∧ Gets s key

/-- Whether a transaction is under way that was neither ended nor dropped. -/
def isOpen (p : Process) : Bool :=
  p.rest.isSome && (opened p.past).isSome

def waits? (p : Process) : Option LockKey :=
  if p.isOpen then p.awaits? else none

/-- The board knows of a transaction of a holder that is about to take a lock if and only if there is one. -/
def Agrees (b : Board) (h : Holder) (p : Process) : Prop :=
  ∀ op next, p.rest = some (.perform (I := ops) op next) → op.prepares = true →
    (b.transaction? h).isSome = (opened p.past).isSome

variable {b b' : Board} {h : Holder} {p p' : Process} {has has' : Holder → LockKey → Prop}
  {awaits awaits' : Holder → Option LockKey} {key : LockKey}

theorem waits?_eq_some : p.waits? = some key ↔ p.isOpen = true ∧ p.awaits? = some key := by
  unfold waits?
  split
  . next hopen => simp [hopen]
  . next hopen => simp [hopen]

theorem Has.cons {op : Op} {reply : op.Reply} {past : History ops} {rest rest' : Working Answer}
    (hs : op.starts = false) (he : op.ends = false) (hhas : Has ⟨past, some rest⟩ key) :
    Has ⟨⟨op, reply⟩ :: past, some rest'⟩ key := by
  obtain ⟨_, s, hs', hgets⟩ := hhas
  exact ⟨rfl, _ :: s, (opened_cons_eq_some hs he).2 ⟨s, hs', rfl⟩, gets_cons.2 (.inr hgets)⟩

theorem prepares_of_awaits {op : Op} (hop : op.awaits? = some key) : op.prepares = true := by
  cases op with
  | ambient c => cases hop
  | action a => cases a <;> first | rfl | cases hop

theorem awaits?_of_gets {e : Event ops} (he : e.gets? = some key) : e.op.prepares = true
    ∧ (e.op.awaits? = none ∨ e.op.awaits? = some key) := by
  unfold Event.gets? at he
  split at he
  . exact ⟨rfl, .inr he⟩
  . exact ⟨rfl, .inl rfl⟩
  . exact ⟨rfl, .inr he⟩
  . exact ⟨rfl, .inl rfl⟩
  . cases he

theorem accounts_of_goes {e : Event ops} {past : History ops} {rest rest' : Working Answer}
    (ht : b.locks.Accounts has awaits) (ho : LockTable.Others h has has' awaits awaits')
    (hhas : has h = Has ⟨past, some rest⟩) (hhas' : has' h = Has ⟨e :: past, some rest'⟩) (hnone : awaits h = none)
    (hs : e.op.starts = false) (he : e.op.ends = false) : b.locks.Accounts has' awaits' := by
  apply ht.goes ho
  . intro key hq
    have := (ht.queued key h hq).1
    rw [hnone] at this
    cases this
  . intro key howner
    rcases ht.owned key h howner with hold | hold
    . rw [hhas] at hold
      rw [hhas']
      exact hold.cons hs he
    . rw [hnone] at hold
      cases hold

/-- What is granted, given back or left alone by an action is what its holder has from then on. -/
theorem accounts_of_change {e : Event ops} {past : History ops} {next : e.op.Reply → Working Answer}
    {rest' : Working Answer} (hc : Change b h e b') (hagrees : Agrees b h ⟨past, some (.perform (I := ops) e.op next)⟩)
    (ht : b.locks.Accounts has awaits) (ho : LockTable.Others h has has' awaits awaits')
    (hhas : has h = Has ⟨past, some (.perform (I := ops) e.op next)⟩)
    (hawaits : awaits h = waits? ⟨past, some (.perform (I := ops) e.op next)⟩)
    (hhas' : has' h = Has ⟨e :: past, some rest'⟩) : b'.locks.Accounts has' awaits' := by
  have hagrees := hagrees e.op next rfl
  have hgoes : e.op.awaits? = none → e.op.starts = false → e.op.ends = false → b.locks.Accounts has' awaits' := by
    intro hnone
    apply accounts_of_goes ht ho hhas hhas'
    rw [hawaits]
    simp [waits?, awaits?, hnone]
  cases hc with
  | none he hwait audit hlocks =>
    apply LockTable.Accounts.visits _ (LockTable.visits_of_eq hlocks)
    rcases hwait with hwait | htx
    . exact hgoes hwait he.starts he.ends
    . -- nobody waits for a lock outside of a transaction
      apply accounts_of_goes ht ho hhas hhas' _ he.starts he.ends
      rw [hawaits]
      cases hkey : e.op.awaits? with
      | none => simp [waits?, awaits?, hkey]
      | some key =>
        have hnone := hagrees (prepares_of_awaits hkey)
        rw [htx] at hnone
        simp [waits?, isOpen, ← hnone]
  | inserts he =>
    cases he
    exact hgoes rfl rfl rfl
  | writes he =>
    cases he
    exact hgoes rfl rfl rfl
  | deletes he =>
    cases he
    exact hgoes rfl rfl rfl
  | starts he => exact ht.releaseAll ho
  | commits he => exact ht.releaseAll ho
  | releases he => exact ht.releaseAll ho
  | gets hgets hsees htx hfree =>
    obtain ⟨hs, he, _⟩ := boundary_of_gets hgets
    obtain ⟨hprepares, hwait⟩ := awaits?_of_gets hgets
    apply (ht.visits LockTable.visits_asked).tryAcquire ho hfree
    . intro key' hkey'
      rw [hawaits] at hkey'
      have hkey' := (waits?_eq_some.1 hkey').2
      rcases hwait with hwait | hwait
      . exact nomatch hwait.symm.trans hkey'
      . exact Option.some.inj (hkey'.symm.trans hwait)
    . intro key hold
      rw [hhas] at hold
      rw [hhas']
      exact hold.cons hs he
    . have hopen := hagrees hprepares
      rw [htx] at hopen
      obtain ⟨s, hs'⟩ := Option.isSome_iff_exists.1 hopen.symm
      rw [hhas']
      exact ⟨rfl, _ :: s, (opened_cons_eq_some hs he).2 ⟨s, hs', rfl⟩, gets_cons.2 (.inl hgets)⟩

theorem waits?_of_blocking {op : Op} {refusal : op.Reply} {past : History ops} {next : op.Reply → Working Answer}
    (hagrees : Agrees b h ⟨past, some (.perform (I := ops) op next)⟩) (hb : Blocking b h ⟨op, refusal⟩ key b') :
    waits? ⟨past, some (.perform (I := ops) op next)⟩ = some key := by
  obtain ⟨tx, htx⟩ := hb.opened
  have hopen := hagrees op next rfl (prepares_of_awaits hb.awaits)
  rw [htx] at hopen
  refine waits?_eq_some.2 ⟨?_, hb.awaits⟩
  unfold isOpen
  rw [← hopen]
  rfl

/-- What a holder awaits after its turn matters only if it goes on waiting. -/
theorem Steps.accounts (hs : Steps h b p b' p') (hagrees : p.Agrees b h) (ht : b.locks.Accounts has awaits)
    (ho : LockTable.Others h has has' awaits awaits') (hhas : has h = p.Has) (hawaits : awaits h = p.waits?)
    (hhas' : has' h = p'.Has) (hawaits' : p' = p → awaits' h = p.waits?) : b'.locks.Accounts has' awaits' := by
  have hmono : p' = p → b.locks.Accounts has' awaits' := by
    intro hsame
    apply ht.mono
    . intro h' key hold
      by_cases hh : h' = h
      . subst hh
        rwa [hhas', hsame, ← hhas]
      . exact ho.has h' hh key hold
    . intro h'
      by_cases hh : h' = h
      . subst hh
        rw [hawaits' hsame, hawaits]
      . exact ho.awaits h' hh
  cases hs with
  | stays hlocks => exact (hmono rfl).visits hlocks
  | drops => exact ht.releaseAll ho
  | answered past c next reply =>
    apply accounts_of_goes (e := ⟨.ambient c, reply⟩) ht ho hhas hhas' _ rfl rfl
    rw [hawaits]
    simp [waits?, awaits?, Op.awaits?]
  | acts past next ha => exact accounts_of_change (act_change ha) hagrees ht ho hhas hawaits hhas'
  | waits past next ha =>
    have hblocking := act_blocking ha
    rw [hblocking.board]
    apply ((hmono rfl).visits LockTable.visits_asked).enqueue hblocking.busy
    rw [hawaits' rfl]
    exact waits?_of_blocking hagrees hblocking
  | givesUp past next ha =>
    -- the wait begins and ends within the same turn
    have hblocking := act_blocking ha
    have hawaits₀ := hawaits.trans (waits?_of_blocking hagrees hblocking)
    obtain ⟨o, howner, hne⟩ := LockTable.owner_of_busy hblocking.busy
    rw [hblocking.board]
    apply ((ht.visits LockTable.visits_asked).enqueue hblocking.busy hawaits₀).leave ho _ hawaits₀
    . intro key hold
      rw [hhas] at hold
      rw [hhas']
      exact hold.cons hblocking.quiet.starts hblocking.quiet.ends
    . rw [LockTable.owner?_enqueue, howner]
      simp [hne]

end Process

end LaneOrder
