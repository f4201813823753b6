import LaneOrder.Proofs.Board.Handover
import LaneOrder.Proofs.Crowd.Waiting

/-!
This module contains what a table of locks guarantees to all who use it, whatever their programs do and in whatever
order: a lock belongs to one open transaction at a time, nobody waits for a lock that nobody owns, and nobody who has
given up or was dropped stands in its way.
-/

namespace LaneOrder

open Board Program

namespace Process

variable {b b' : Board} {h h' : Holder} {p p' : Process} {key : LockKey} {t : Turn}

theorem Steps.spares (hs : Steps h' b p b' p') (hk : b.locks.Keyed) (hh : h ≠ h') : Spares b b' h := by
  cases hs with
  | stays hlocks => exact spares_visits hlocks
  | answered => exact .refl
  | drops => exact spares_release hk hh
  | acts past next ha => exact (act_change ha).spares hk hh
  | waits past next ha => exact spares_blocking (act_blocking ha)
  | givesUp past next ha => exact (spares_blocking (act_blocking ha)).trans (spares_leave hh)

theorem Steps.isOpen (hs : Steps h b p b' p') (hp : (b.transaction? h).isSome = p.isOpen) :
    (b'.transaction? h).isSome = p'.isOpen := by
  cases hs with
  | stays => exact hp
  | drops =>
    rw [transaction?_release]
    simp [Process.isOpen]
  | answered past c next reply =>
    rw [hp]
    simp [Process.isOpen, opened_cons (e := ⟨.ambient c, reply⟩) rfl rfl]
  | acts past next ha => exact (act_change ha).isOpen hp
  | waits past next ha =>
    rw [(act_blocking ha).board]
    exact hp
  | givesUp past next ha =>
    have hquiet := (act_blocking ha).quiet
    rw [(act_blocking ha).board]
    refine hp.trans ?_
    simp [Process.isOpen, opened_cons hquiet.starts hquiet.ends]

theorem Steps.owner (hs : Steps h b p b' p') (hp : p.Has key → b.locks.owner? key = some h) (hkey : p'.Has key) :
    b'.locks.owner? key = some h := by
  obtain ⟨hrest, s, hopen, hgets⟩ := hkey
  cases hs with
  | stays hlocks => exact (frame_visits hlocks).owns key (hp ⟨hrest, s, hopen, hgets⟩)
  | drops => cases hrest
  | answered past c next reply =>
    obtain ⟨s', hs', rfl⟩ := (opened_cons_eq_some rfl rfl).1 hopen
    rcases gets_cons.1 hgets with hget | hget
    . cases hget
    . exact hp ⟨rfl, s', hs', hget⟩
  | acts past next ha =>
    exact (act_change ha).owner (fun s hs hget => hp ⟨rfl, s, hs, hget⟩) hopen hgets
  | waits past next ha =>
    rw [(act_blocking ha).board]
    exact LockTable.owner?_enqueue.trans (hp ⟨hrest, s, hopen, hgets⟩)
  | givesUp past next ha =>
    have hquiet := (act_blocking ha).quiet
    obtain ⟨s', hs', rfl⟩ := (opened_cons_eq_some hquiet.starts hquiet.ends).1 hopen
    rcases gets_cons.1 hgets with hget | hget
    . exact nomatch hquiet.gets.symm.trans hget
    . rw [(act_blocking ha).board]
      exact LockTable.owner?_leave.trans (LockTable.owner?_enqueue.trans (hp ⟨rfl, s', hs', hget⟩))

theorem Steps.handed (hs : Steps h b p b' p') (hk : b.locks.Keyed) (hq : h ∉ b.locks.queue key)
    (ho : b.locks.owner? key = some h) (ho' : b'.locks.owner? key ≠ some h) :
    b'.locks.owner? key = (b.locks.queue key).head? := by
  cases hs with
  | stays hlocks => exact absurd ((frame_visits hlocks).owns key ho) ho'
  | answered => exact absurd ho ho'
  | drops => exact Change.handed (e := ⟨.action .rollback, ()⟩) (.releases rfl) hk hq ho ho'
  | acts past next ha => exact (act_change ha).handed hk hq ho ho'
  | waits past next ha => exact absurd ((frame_blocking (act_blocking ha)).owns key ho) ho'
  | givesUp past next ha => exact absurd (frame_leave.owns key ((frame_blocking (act_blocking ha)).owns key ho)) ho'

theorem Steps.uses (hs : Steps h b p b' p') (hk : b.locks.Keyed) :
    b.locks.Uses h (p.seeks? b h) (b.transaction? h).isSome b'.locks := by
  cases hs with
  | stays hlocks => exact hlocks.uses
  | drops => exact LockTable.uses_releaseAll hk
  | answered => exact LockTable.Visits.refl.uses
  | acts past next ha => exact (act_change ha).uses hk
  | waits past next ha =>
    rw [(act_blocking ha).board]
    exact LockTable.uses_asked.modify (by simp) (by simp)
  | givesUp past next ha =>
    rw [(act_blocking ha).board]
    exact (LockTable.uses_asked.modify (by simp) (by simp)).modify (by simp [LockEntry.leave]) (by simp [LockEntry.leave])

theorem Steps.closes (hs : Steps h b p b' p') (hopen : (b.transaction? h).isSome = true)
    (hclosed : (b'.transaction? h).isSome = false) : b'.locks = b.locks.releaseAll h true := by
  cases hs with
  | stays | answered => exact nomatch hclosed.symm.trans hopen
  | drops =>
    rw [← hopen]
    rfl
  | acts past next ha => exact (act_change ha).closes hopen hclosed
  | waits past next ha | givesUp past next ha =>
    rw [(act_blocking ha).board] at hclosed
    exact nomatch hclosed.symm.trans hopen

/-- Whoever has looked up a lock is about to ask for it in an open transaction, and the lock has an entry. -/
def Looks (b : Board) (h : Holder) (p : Process) : Prop :=
  ∀ key, (h, key) ∈ b.locks.requests →
    p.isOpen = true ∧ p.wants? = some key ∧ (b.locks.lookup? key).isSome = true

theorem Looks.uses {key? : Option LockKey} {closing : Bool} (hl : p.Looks b h)
    (hu : b.locks.Uses h' key? closing b'.locks) (hh : h ≠ h') : p.Looks b' h := by
  intro key hkey
  rcases hu.requests _ hkey with hold | ⟨hsame, _⟩
  . obtain ⟨hopen, hwants, hentry⟩ := hl key hold
    refine ⟨hopen, hwants, ?_⟩
    by_contra hnone
    exact (hu.entries key hentry (by simpa using hnone)).2.2.1 _ hkey rfl
  . exact absurd hsame hh

theorem wants?_of_seeks? (hkey : p.seeks? b h = some key) : (b.transaction? h).isSome = true ∧ p.wants? = some key := by
  obtain ⟨hwants, hseeks⟩ := Option.filter_eq_some_iff.1 hkey
  exact ⟨(Bool.and_eq_true _ _ ▸ hseeks).1, hwants⟩

theorem Steps.looks (hs : Steps h b p b' p') (hk : b.locks.Keyed) (hopen : (b.transaction? h).isSome = p.isOpen)
    (hl : p.Looks b h) : p'.Looks b' h := by
  -- once a lock was asked for, nothing is looked up
  have hasked : (∀ x ∈ b'.locks.requests, x.1 ≠ h) → p'.Looks b' h :=
    fun hnone key hkey => absurd rfl (hnone _ hkey)
  cases hs with
  | stays hlocks =>
    intro key hkey
    rcases hlocks.requests _ hkey with hold | ⟨-, hseeks, hentry⟩
    . obtain ⟨hopen, hwants, hentry⟩ := hl key hold
      exact ⟨hopen, hwants, hlocks.entries key hentry⟩
    . obtain ⟨htx, hwants⟩ := wants?_of_seeks? hseeks
      exact ⟨hopen.symm.trans htx, hwants, hentry⟩
  | drops =>
    apply hasked
    intro x hx
    rw [show (b.release h).locks = b.locks.releaseAll h _ from rfl, LockTable.requests_releaseAll] at hx
    exact (LockTable.mem_requests_asked.1 hx).2
  | answered past c next reply =>
    intro key hkey
    exact nomatch (hl key hkey).2.1
  | acts past next ha =>
    intro key hkey
    have huses : b.locks.Uses h none (b.transaction? h).isSome b'.locks := (act_change ha).uses hk
    rcases huses.requests _ hkey with hold | ⟨-, hnone, -⟩
    . obtain ⟨hp, hlock, -⟩ := hl key hold
      exact absurd rfl (requests_of_act ha hlock (hopen.trans hp) _ hkey)
    . cases hnone
  | waits past next ha | givesUp past next ha =>
    apply hasked
    intro x hx
    rw [(act_blocking ha).board] at hx
    exact (LockTable.mem_requests_asked.1 hx).2

/-- As long as nobody is inside of the table of locks, it makes no difference whether a command takes turns to look up a lock or
asks for it at once. -/
theorem turn_lookUp (hfree : b.locks.visitor = none) (hseeks : p.seeks? b h = some key)
    {answer : (c : AmbientCall) → c.Reply} :
    p.turn ((p.turn (p.turn b h .enter).1 h .lookUp).1) h (.go answer) = p.turn b h (.go answer) := by
  obtain ⟨htx, hwants⟩ := wants?_of_seeks? hseeks
  have henter : p.turn b h .enter = ({ b with locks := b.locks.enter h }, p) := by
    simp [turn, enter, hseeks]
  have hlookUp : p.turn { b with locks := b.locks.enter h } h .lookUp
      = ({ b with locks := (b.locks.enter h).lookUp h (some key) }, p) := by
    rw [← hseeks]
    rfl
  have hknows : p.seeks? { b with locks := (b.locks.enter h).lookUp h (some key) } h = none := by
    have hinside : (b.locks.enter h).visitor = some h := by simp [LockTable.enter, hfree]
    unfold seeks?
    rw [hwants]
    simp [LockTable.lookUp, hinside, LockTable.knows]
  have hopen : b.locks.isFree h = true := by
    simp [LockTable.isFree, hfree]
  rw [henter, hlookUp]
  obtain ⟨past, rest⟩ := p
  unfold wants? at hwants
  split at hwants
  . next op next hrest =>
    cases hrest
    cases op with
    | ambient c => cases hwants
    | action a =>
      have hact := act_lookUp hfree htx hwants
      simp [turn, hknows, hopen, hact]
  . cases hwants

/-- Whoever owns a lock need not look it up, even if the table is not free. -/
theorem seeks?_of_owner (hp : p.awaits? = some key) (ho : b.locks.owner? key = some h) : p.seeks? b h = none := by
  have hwants : p.wants? = some key := by
    obtain ⟨past, rest⟩ := p
    cases rest with
    | none => cases hp
    | some rest =>
      cases rest with
      | done a => cases hp
      | perform op next => exact Op.locks?_of_awaits hp
  unfold seeks?
  rw [hwants]
  simp [LockTable.knows_of_owner ho]

/-- Whoever owns the lock that it waits for gets it at its next turn, even if its time is over by then. -/
theorem turn_of_owner (hp : p.awaits? = some key) (htx : (b.transaction? h).isSome = true)
    (ho : b.locks.owner? key = some h) (ht : t.performs = true) :
    ∃ e, (p.turn b h t).2.past = e :: p.past ∧ e.gets? = some key := by
  have hseeks := seeks?_of_owner hp ho
  obtain ⟨past, rest⟩ := p
  unfold awaits? at hp
  split at hp
  . next op next hrest =>
    cases hrest
    cases op with
    | ambient c => cases hp
    | action a =>
      obtain ⟨reply, b', ha, hgets⟩ := act_of_owner hp htx ho
      refine ⟨⟨.action a, reply⟩, ?_, hgets⟩
      cases t with
      | go answer => simp [turn, hseeks, ha]
      | giveUp => simp [turn, hseeks, ha]
      | drop | enter | lookUp => cases ht
  . cases hp

end Process

namespace Crowd

variable {b : Board} {programs : Holder → Working Answer} {c : Crowd} {h : Holder} {t : Turn}

/-- Any programs that are about to use a board. -/
def gather (b : Board) (programs : Holder → Working Answer) : Crowd :=
  ⟨b, fun h => ⟨[], some (programs h)⟩⟩

/-- The locks of a board are in good order. Whoever was granted a lock in its transaction owns it; an owner has an open
transaction in which it was granted the lock, or is about to be. Whoever stands in a queue waits for this lock in an
open transaction, and somebody else owns the lock. Whoever has looked up a lock is about to ask for it in an open
transaction. There is one entry for each lock that is owned, waited for or looked up, and never a second one. -/
structure Managed (c : Crowd) : Prop where
  opened : ∀ h, (c.board.transaction? h).isSome = (c.processes h).isOpen
  keyed : c.board.locks.Keyed
  has : ∀ h key, (c.processes h).Has key → c.board.locks.owner? key = some h
  owned : ∀ key h, c.board.locks.owner? key = some h →
    (c.processes h).isOpen = true ∧ ((c.processes h).Has key ∨ (c.processes h).awaits? = some key)
  queued : ∀ key h, h ∈ c.board.locks.queue key →
    (c.processes h).isOpen = true ∧ (c.processes h).awaits? = some key
      ∧ ∃ o, c.board.locks.owner? key = some o ∧ o ≠ h
  nodup : ∀ key, (c.board.locks.queue key).Nodup
  looked : ∀ h, (c.processes h).Looks c.board h

/-- What a turn does to the locks. Nobody else loses a lock, its place in a queue or an entry that it has looked up; a lock
that is given back goes to the first who waits for it; nobody stands in a queue after a turn at which it did not go on
waiting; and whoever owns the lock that it waits for is granted it as soon as it goes on, even if its time is over by then.
An entry is dropped only at the end of a transaction, when all its locks are given up, while nobody else is inside of the
table; after such an end there are no entries but those of locks that are owned, waited for or looked up. -/
structure Passes (c : Crowd) (h : Holder) (t : Turn) : Prop where
  spares : ∀ other, other ≠ h → Spares c.board (c.turn h t).board other
  looked : ∀ other key, other ≠ h → (other, key) ∈ c.board.locks.requests → (other, key) ∈ (c.turn h t).board.locks.requests
  handed : ∀ key, c.board.locks.owner? key = some h → (c.turn h t).board.locks.owner? key ≠ some h →
    (c.turn h t).board.locks.owner? key = (c.board.locks.queue key).head?
  waits : ∀ key, h ∈ (c.turn h t).board.locks.queue key → (c.turn h t).processes h = c.processes h
  granted : ∀ key, c.board.locks.owner? key = some h → (c.processes h).awaits? = some key → t.performs = true →
    ∃ e, ((c.turn h t).processes h).past = e :: (c.processes h).past ∧ e.gets? = some key
  drops : ∀ key, (c.board.locks.lookup? key).isSome = true → (c.turn h t).board.locks.lookup? key = none →
    (c.processes h).isOpen = true ∧ c.board.locks.isFree h = true ∧ ∀ key', (c.turn h t).board.locks.owner? key' ≠ some h
  prunes : (c.processes h).isOpen = true → ((c.turn h t).processes h).isOpen = false → c.board.locks.isFree h = true →
    ∀ e ∈ (c.turn h t).board.locks.entries, e.owner.isSome = true ∨ e.queue ≠ []
      ∨ ∃ other, (other, e.key) ∈ (c.turn h t).board.locks.requests

theorem managed_gather (hb : b.locks = {}) (hnone : b.transactions = []) : (gather b programs).Managed := by
  have hidle : (gather b programs).board.locks.Idle := hb ▸ LockTable.idle_empty
  constructor
  . intro h
    simp [gather, transaction?, hnone, Process.isOpen, opened, since]
  . exact hidle.keyed
  . rintro h key ⟨_, s, hs, _⟩
    cases hs
  . intro key h ho
    rw [hidle.free key] at ho
    cases ho
  . intro key h hq
    rw [hidle.nobody key] at hq
    cases hq
  . intro key
    rw [hidle.nobody key]
    exact List.nodup_nil
  . intro h key hkey
    rw [show (gather b programs).board.locks = {} from hb] at hkey
    cases hkey

theorem Managed.accounts (hc : c.Managed) :
    c.board.locks.Accounts (fun h => (c.processes h).Has) (fun h => (c.processes h).waits?) where
  keyed := hc.keyed
  owned key h ho := by
    obtain ⟨hopen, hcase⟩ := hc.owned key h ho
    exact hcase.imp_right fun hawaits => Process.waits?_eq_some.2 ⟨hopen, hawaits⟩
  queued key h hq := by
    obtain ⟨hopen, hawaits, howner⟩ := hc.queued key h hq
    exact ⟨Process.waits?_eq_some.2 ⟨hopen, hawaits⟩, howner⟩
  nodup := hc.nodup

theorem Managed.agrees (hc : c.Managed) (h : Holder) : (c.processes h).Agrees c.board h := by
  intro op next hrest _
  rw [hc.opened h]
  simp [Process.isOpen, hrest]

/-- The turn of a holder, if only what it has matters afterwards, or what it goes on waiting for. -/
theorem Managed.accounts_turn (hc : c.Managed) (awaits' : Option LockKey)
    (hawaits' : (c.turn h t).processes h = c.processes h → awaits' = (c.processes h).waits?) :
    (c.turn h t).board.locks.Accounts (fun h' => ((c.turn h t).processes h').Has)
      (Function.update (fun h' => ((c.turn h t).processes h').waits?) h awaits') := by
  apply (c.steps_turn h t).accounts (hc.agrees h) hc.accounts _ rfl rfl rfl
  . intro hsame
    rw [Function.update_self]
    exact hawaits' hsame
  . constructor
    . intro h' hh key hold
      rwa [processes_turn_of_ne hh]
    . intro h' hh
      rw [Function.update_of_ne hh, processes_turn_of_ne hh]

theorem Managed.turn (hc : c.Managed) (h : Holder) (t : Turn) : (c.turn h t).Managed := by
  have hs := c.steps_turn h t
  have hspares : ∀ other, other ≠ h → Spares c.board (c.turn h t).board other := fun _ hh => hs.spares hc.keyed hh
  have haccounts := hc.accounts_turn (h := h) (t := t) ((c.turn h t).processes h).waits? fun hsame => by rw [hsame]
  rw [Function.update_eq_self] at haccounts
  constructor
  . intro other
    by_cases hh : other = h
    . subst hh
      exact hs.isOpen (hc.opened other)
    . rw [(hspares other hh).tx, processes_turn_of_ne hh]
      exact hc.opened other
  . exact haccounts.keyed
  . intro other key hkey
    by_cases hh : other = h
    . subst hh
      exact hs.owner (hc.has other key) hkey
    . rw [processes_turn_of_ne hh] at hkey
      exact (hspares other hh).owner key (hc.has other key hkey)
  . intro key other ho
    rcases haccounts.owned key other ho with hhas | hwaits
    . obtain ⟨hrest, s, hs, hgets⟩ := hhas
      refine ⟨?_, .inl ⟨hrest, s, hs, hgets⟩⟩
      simp [Process.isOpen, hrest, hs]
    . obtain ⟨hopen, hawaits⟩ := Process.waits?_eq_some.1 hwaits
      exact ⟨hopen, .inr hawaits⟩
  . intro key other hq
    obtain ⟨hwaits, howner⟩ := haccounts.queued key other hq
    obtain ⟨hopen, hawaits⟩ := Process.waits?_eq_some.1 hwaits
    exact ⟨hopen, hawaits, howner⟩
  . exact haccounts.nodup
  . intro other
    by_cases hh : other = h
    . subst hh
      exact hs.looks hc.keyed (hc.opened other) (hc.looked other)
    . rw [processes_turn_of_ne hh]
      exact (hc.looked other).uses (hs.uses hc.keyed) hh

theorem Managed.passes (hc : c.Managed) (h : Holder) (t : Turn) : c.Passes h t := by
  have hs := c.steps_turn h t
  have huses := hs.uses hc.keyed
  constructor
  . exact fun other hh => hs.spares hc.keyed hh
  . exact fun other key hh hkey => huses.others _ hkey hh
  . intro key ho ho'
    apply hs.handed hc.keyed _ ho ho'
    intro hq
    obtain ⟨_, _, o, howner, hne⟩ := hc.queued key h hq
    exact hne (Option.some.inj (howner.symm.trans ho))
  . intro key hq
    by_contra hmoved
    -- whoever has gone on need not wait for anything from now on
    have haccounts := hc.accounts_turn none fun hsame => absurd hsame hmoved
    have hawaits := (haccounts.queued key h hq).1
    rw [Function.update_self] at hawaits
    cases hawaits
  . intro key ho hawaits ht
    rw [processes_turn_self]
    apply Process.turn_of_owner hawaits _ ho ht
    rw [hc.opened h]
    exact (hc.owned key h ho).1
  . intro key hkey hnone
    obtain ⟨hopen, hfree, -, howns⟩ := huses.entries key hkey hnone
    exact ⟨hc.opened h ▸ hopen, hfree, howns⟩
  . intro hopen hclosed hfree e he
    have hlocks : (c.turn h t).board.locks = c.board.locks.releaseAll h true :=
      hs.closes ((hc.opened h).trans hopen) (((hc.turn h t).opened h).trans hclosed)
    rw [hlocks] at he ⊢
    have hused := LockTable.used_of_releaseAll hfree he
    rw [← Nat.not_le, LockTable.references_le_one] at hused
    by_contra hunused
    push Not at hunused
    exact hused ⟨by simpa using hunused.1, hunused.2⟩

/-- Whatever programs use a board whose locks are free, and whatever turns they take, the locks are in good order at
any time, and every further turn passes them on as it should. -/
theorem locks_managed (hb : b.locks = {}) (hnone : b.transactions = []) (turns : List (Holder × Turn)) :
    ((gather b programs).run turns).Managed
      ∧ ∀ h t, ((gather b programs).run turns).Passes h t := by
  have hmanaged : ((gather b programs).run turns).Managed := by
    apply run_induction (fun _ => True) Managed
    . exact managed_gather hb hnone
    . exact fun c h t hc _ => hc.turn h t
    . exact fun _ _ _ => trivial
  exact ⟨hmanaged, hmanaged.passes⟩

/-- Everybody locks a row that does not exist. -/
def lockers (row : Holder → TaskId) : Crowd :=
  gather (Sample.board .empty) fun h => do
    perform .start
    let _ ← perform (.lockRow (row h))
    perform .rollback
    return .done

/-- All of them lock the same row. -/
def handover : Crowd :=
  lockers fun _ => Sample.id 1

/-- The lock is handed over to a second one, which is dropped before it notices; so a third one gets it. And the entry stays if
somebody has looked it up when it is released. -/
theorem locks_managed_handover :
    (handover.run (Sample.turns [0, 0, 1, 1, 2, 2, 0])).board.locks.owner? (.row (Sample.id 1)) = some 1
      ∧ (handover.run (Sample.turns [0, 0, 1, 1, 2, 2, 0])).Managed
      ∧ ((handover.run (Sample.turns [0, 0, 1, 1, 2, 2, 0])).turn 1 .drop).board.locks.owner? (.row (Sample.id 1)) = some 2
      ∧ ((handover.run (Sample.turns [0, 0, 1] ++ [(1, .enter), (1, .lookUp)] ++ Sample.turns [0])).board.locks.lookup?
        (.row (Sample.id 1))).isSome = true := by
  obtain ⟨hmanaged, hpasses⟩ : (handover.run (Sample.turns [0, 0, 1, 1, 2, 2, 0])).Managed
      ∧ ∀ h t, (handover.run (Sample.turns [0, 0, 1, 1, 2, 2, 0])).Passes h t := locks_managed rfl rfl _
  have howner : (handover.run (Sample.turns [0, 0, 1, 1, 2, 2, 0])).board.locks.owner? (.row (Sample.id 1)) = some 1 := by
    decide +kernel
  obtain ⟨hmanaged', -⟩ :
      (handover.run (Sample.turns [0, 0, 1] ++ [(1, .enter), (1, .lookUp)] ++ Sample.turns [0])).Managed ∧ _ :=
    locks_managed rfl rfl _
  refine ⟨howner, hmanaged, ?_, ?_⟩
  . rw [(hpasses 1 .drop).handed _ howner]
    . decide +kernel
    . decide +kernel
  . exact (hmanaged'.looked 1 _ (by decide +kernel)).2.2

/-- The first one ends its transaction while the second one is inside of the table, on its way to a lock of its own. -/
def overlap : List (Holder × Turn) :=
  Sample.turns [0, 0, 1] ++ [(1, .enter)] ++ Sample.turns [0]

/-- After a transaction was ended there may be an entry for a lock that nobody owns, waits for or has looked up. And whoever has
waited for too long keeps a lock that was handed over to it before it noticed. -/
theorem entry_outlasts_transaction :
    ((((lockers Sample.id).run (overlap.take 4)).processes 0).isOpen = true
        ∧ (((lockers Sample.id).run overlap).processes 0).isOpen = false
        ∧ ((lockers Sample.id).run overlap).board.locks = { entries := [⟨.row (Sample.id 0), none, []⟩], visitor := some 1 })
      ∧ 1 ∈ (handover.run (Sample.turns [0, 0, 1, 1])).board.locks.queue (.row (Sample.id 1))
        ∧ ((handover.run (Sample.turns [0, 0, 1, 1, 0] ++ [(1, .giveUp)])).processes 1).past.head?.bind Event.gets?
          = some (.row (Sample.id 1))
        ∧ (handover.run (Sample.turns [0, 0, 1, 1, 0] ++ [(1, .giveUp)])).board.locks.owner? (.row (Sample.id 1)) = some 1 := by
  refine ⟨⟨?_, ?_, ?_⟩, ?_, ?_, ?_⟩ <;> decide +kernel

end Crowd

end LaneOrder
