import LaneOrder.Proofs.Board.Waiting

/-!
This module contains how the locks of a board are passed on: what an action leaves to all others, who gets what its holder
gives up, and that a holder that is the next one to have a lock gets it.
-/

namespace LaneOrder

open Board Program

namespace Board

/-- What the turn of another one leaves to a holder: its transaction, its locks, and its place in a queue unless it gets
the lock. -/
structure Spares (b b' : Board) (h : Holder) : Prop where
  tx : b'.transaction? h = b.transaction? h
  owner : ∀ key, b.locks.owner? key = some h → b'.locks.owner? key = some h
  queue : ∀ key, h ∈ b.locks.queue key → h ∈ b'.locks.queue key ∨ b'.locks.owner? key = some h

variable {b b' : Board} {h h' : Holder} {e : Event ops} {key : LockKey} {T : History ops}

theorem Spares.refl : Spares b b h :=
  ⟨rfl, fun _ ho => ho, fun _ hq => .inl hq⟩

theorem Spares.trans {b'' : Board} (hs : Spares b b' h) (hs' : Spares b' b'' h) : Spares b b'' h where
  tx := hs'.tx.trans hs.tx
  owner key ho := hs'.owner key (hs.owner key ho)
  queue key hq := by
    rcases hs.queue key hq with hq | ho
    . exact hs'.queue key hq
    . exact .inr (hs'.owner key ho)

theorem spares_release (hk : b.locks.Keyed) (hh : h ≠ h') : Spares b (b.release h') h where
  tx := (frame_release hk hh).tx
  owner := (frame_release hk hh).owns
  queue key hq := by
    have hmem : h ∈ (b.locks.queue key).filter (· ≠ h') := List.mem_filter.2 ⟨hq, by simpa using hh⟩
    unfold release
    dsimp only
    rw [LockTable.queue_releaseAll hk, LockTable.owner?_releaseAll hk]
    split
    . -- the first of the queue gets the lock, the others go on waiting
      cases hqueue : (b.locks.queue key).filter (· ≠ h') with
      | nil =>
        rw [hqueue] at hmem
        cases hmem
      | cons first rest =>
        rw [hqueue] at hmem
        rcases List.mem_cons.1 hmem with rfl | hmem
        . exact .inr rfl
        . exact .inl hmem
    . exact .inl hmem

theorem spares_withTransaction {tx : Transaction} (hh : h ≠ h') : Spares b (b.withTransaction h' tx) h :=
  ⟨(frame_withTransaction hh).tx, fun _ ho => ho, fun _ hq => .inl hq⟩

theorem spares_visits {key? : Option LockKey} {locks : LockTable} (hv : b.locks.Visits h' key? locks) {audit : AuditTrail} :
    Spares b { b with locks, audit } h where
  tx := rfl
  owner := (frame_visits hv).owns
  queue key hq := .inl (by rwa [hv.queue])

theorem spares_tryAcquire (hfree : ((b.locks.asked h').tryAcquire h' key).1 = true) :
    Spares b { b with locks := ((b.locks.asked h').tryAcquire h' key).2 } h where
  tx := rfl
  owner := (frame_tryAcquire hfree).owns
  queue key' hq := by
    left
    dsimp only
    rwa [LockTable.queue_tryAcquire, LockTable.queue_asked]

theorem spares_blocking (hb : Blocking b h' e key b') : Spares b b' h where
  tx := (frame_blocking hb).tx
  owner := (frame_blocking hb).owns
  queue key' hq := by
    left
    obtain ⟨o, howner, _⟩ := LockTable.owner_of_busy hb.busy
    rw [hb.board]
    dsimp only
    rw [LockTable.queue_enqueue howner]
    split
    . exact List.mem_append_left _ hq
    . exact hq

theorem spares_leave (hh : h ≠ h') : Spares b (b.leave h' key) h where
  tx := rfl
  owner := frame_leave.owns
  queue key' hq := by
    left
    unfold leave
    dsimp only
    rw [LockTable.queue_leave]
    split
    . exact List.mem_filter.2 ⟨hq, by simpa using hh⟩
    . exact hq

theorem Change.spares (hc : Change b h' e b') (hk : b.locks.Keyed) (hh : h ≠ h') : Spares b b' h := by
  cases hc with
  | none _ _ _ hlocks => exact spares_visits (LockTable.visits_of_eq hlocks)
  | inserts | deletes => exact ⟨rfl, fun _ ho => ho, fun _ hq => .inl hq⟩
  | starts => exact (spares_release hk hh).trans (spares_withTransaction hh)
  | gets hgets hsees htx hfree => exact spares_tryAcquire hfree
  | writes => exact spares_withTransaction hh
  | commits =>
    have hview : Spares b { b with rows := b.view h' } h := ⟨rfl, fun _ ho => ho, fun _ hq => .inl hq⟩
    exact hview.trans (spares_release hk hh)
  | releases => exact spares_release hk hh

/-- A board and the one who uses it agree on whether a transaction is open. -/
theorem Change.isOpen (hc : Change b h e b') (hT : (b.transaction? h).isSome = (opened T).isSome) :
    (b'.transaction? h).isSome = (opened (e :: T)).isSome := by
  have hgoes : e.op.starts = false → e.op.ends = false → b'.transaction? h = b.transaction? h →
      (b'.transaction? h).isSome = (opened (e :: T)).isSome := by
    intro hs he htx
    rw [opened_cons hs he, Option.isSome_map, htx, hT]
  cases hc with
  | none he => exact hgoes he.starts he.ends rfl
  | inserts he | deletes he =>
    cases he
    exact hgoes rfl rfl rfl
  | gets hgets =>
    obtain ⟨hs, he, _⟩ := boundary_of_gets hgets
    exact hgoes hs he rfl
  | starts he =>
    cases he
    rw [opened_start rfl]
    simp
  | writes he htx =>
    cases he
    rw [opened_cons rfl rfl, Option.isSome_map, ← hT, htx]
    simp
  | commits he | releases he =>
    cases he
    rw [opened_end rfl rfl]
    show (Board.transaction? (release _ h) h).isSome = false
    rw [transaction?_release]
    simp

/-- Whatever was granted since a transaction was opened belongs to its holder. -/
theorem Change.owner (hc : Change b h e b') (hT : ∀ s, opened T = some s → Gets s key → b.locks.owner? key = some h)
    {s : History ops} (hs : opened (e :: T) = some s) (hkey : Gets s key) : b'.locks.owner? key = some h := by
  have hgoes : e.op.starts = false → e.op.ends = false → e.gets? = Option.none → b.locks.owner? key = some h := by
    intro hstart hend hnone
    obtain ⟨s', hs', rfl⟩ := (opened_cons_eq_some hstart hend).1 hs
    rcases gets_cons.1 hkey with hget | hget
    . exact nomatch hnone.symm.trans hget
    . exact hT s' hs' hget
  cases hc with
  | none he _ _ hlocks => exact (frame_visits (LockTable.visits_of_eq hlocks)).owns key (hgoes he.starts he.ends he.gets)
  | inserts he | deletes he | writes he =>
    cases he
    exact hgoes rfl rfl rfl
  | gets hgets hsees htx hfree =>
    obtain ⟨hstart, hend, _⟩ := boundary_of_gets hgets
    obtain ⟨s', hs', rfl⟩ := (opened_cons_eq_some hstart hend).1 hs
    dsimp only
    rw [LockTable.owner?_tryAcquire hfree]
    split
    . rfl
    . next hne =>
      rcases gets_cons.1 hkey with hget | hget
      . rw [hgets] at hget
        cases hget
        exact absurd rfl hne
      . exact hT s' hs' hget
  | starts he =>
    cases he
    rw [opened_start rfl] at hs
    cases hs
    simp [Gets] at hkey
  | commits he | releases he =>
    cases he
    rw [opened_end rfl rfl] at hs
    cases hs

/-- A lock that changes its owner goes to the first who waits for it. -/
theorem Change.handed (hc : Change b h e b') (hk : b.locks.Keyed) (hq : h ∉ b.locks.queue key)
    (ho : b.locks.owner? key = some h) (ho' : b'.locks.owner? key ≠ some h) :
    b'.locks.owner? key = (b.locks.queue key).head? := by
  have hrelease : ∀ {closing}, (b.locks.releaseAll h closing).owner? key = (b.locks.queue key).head? := by
    intro closing
    have hall : (b.locks.queue key).filter (· ≠ h) = b.locks.queue key := by
      apply List.filter_eq_self.2
      intro other hother
      have hne : other ≠ h := ne_of_mem_of_not_mem hother hq
      simpa using hne
    rw [LockTable.owner?_releaseAll hk, if_pos ho, hall]
  cases hc with
  | none _ _ _ hlocks => exact absurd ((frame_visits (LockTable.visits_of_eq hlocks)).owns key ho) ho'
  | inserts | writes | deletes => exact absurd ho ho'
  | gets hgets hsees htx hfree => exact absurd ((frame_tryAcquire hfree).owns key ho) ho'
  | starts | commits | releases => exact hrelease

theorem Change.uses {key? : Option LockKey} (hc : Change b h e b') (hk : b.locks.Keyed) :
    b.locks.Uses h key? (b.transaction? h).isSome b'.locks := by
  cases hc with
  | none _ _ _ hlocks =>
    rcases hlocks with rfl | rfl
    . exact LockTable.Visits.refl.uses
    . exact LockTable.uses_asked
  | inserts | writes | deletes => exact LockTable.Visits.refl.uses
  | gets => exact LockTable.uses_tryAcquire
  | starts | commits | releases => exact LockTable.uses_releaseAll hk

/-- A transaction ends with the release of all that its holder has. -/
theorem Change.closes (hc : Change b h e b') (hopen : (b.transaction? h).isSome = true)
    (hclosed : (b'.transaction? h).isSome = false) : b'.locks = b.locks.releaseAll h true := by
  cases hc with
  | none | inserts | gets | deletes => exact nomatch hclosed.symm.trans hopen
  | starts | writes =>
    rw [transaction?_withTransaction] at hclosed
    simp at hclosed
  | commits | releases =>
    rw [← hopen]
    rfl

section Asking

variable {α : Type} {seen : α} {reply : Grant α}

theorem requests_acquire (htx : (b.transaction? h).isSome = true) (ha : b.acquire h key seen = .replied reply b') :
    b'.locks.requests = (b.locks.asked h).requests := by
  obtain ⟨tx, htx⟩ := Option.isSome_iff_exists.1 htx
  unfold acquire at ha
  simp only [htx] at ha
  cases hfree : ((b.locks.asked h).tryAcquire h key).1 with
  | true =>
    rw [LockTable.acquire_of_true hfree] at ha
    cases ha
    exact LockTable.requests_tryAcquire
  | false =>
    rw [LockTable.acquire_of_false hfree] at ha
    cases ha

theorem requests_tryAcquire (htx : (b.transaction? h).isSome = true) (ha : b.tryAcquire h key seen = .replied reply b') :
    b'.locks.requests = (b.locks.asked h).requests := by
  obtain ⟨tx, htx⟩ := Option.isSome_iff_exists.1 htx
  have hrequests : ((b.locks.asked h).tryAcquire h key).2.requests = (b.locks.asked h).requests :=
    LockTable.requests_tryAcquire
  unfold tryAcquire at ha
  simp only [htx] at ha
  split at ha
  all_goals
    next locks heq =>
    cases ha
    rwa [heq] at hrequests

/-- Who has asked for a lock has no request any more, whatever came of it. -/
theorem requests_of_act {a : Action} {reply : a.Reply} (ha : b.act h a = .replied reply b')
    (hlock : (Op.action a).locks? = some key) (htx : (b.transaction? h).isSome = true) :
    ∀ x ∈ b'.locks.requests, x.1 ≠ h := by
  have hasked : b'.locks.requests = (b.locks.asked h).requests := by
    cases a with
    | lockRow | lockSeed => exact requests_acquire htx ha
    | tryLockRow | tryLockSeed => exact requests_tryAcquire htx ha
    | _ => cases hlock
  rw [hasked]
  exact fun x hx => (LockTable.mem_requests_asked.1 hx).2

variable (hfree : b.locks.visitor = none) (htx : (b.transaction? h).isSome = true)

include hfree htx

theorem acquire_lookUp :
    { b with locks := (b.locks.enter h).lookUp h (some key) : Board }.acquire h key seen = b.acquire h key seen := by
  obtain ⟨tx, htx⟩ := Option.isSome_iff_exists.1 htx
  have htx' : { b with locks := (b.locks.enter h).lookUp h (some key) : Board }.transaction? h = some tx := htx
  unfold acquire
  simp only [htx, htx', LockTable.asked_lookUp hfree, LockTable.acquire_withEntry]

theorem tryAcquire_lookUp :
    { b with locks := (b.locks.enter h).lookUp h (some key) : Board }.tryAcquire h key seen = b.tryAcquire h key seen := by
  obtain ⟨tx, htx⟩ := Option.isSome_iff_exists.1 htx
  have htx' : { b with locks := (b.locks.enter h).lookUp h (some key) : Board }.transaction? h = some tx := htx
  unfold tryAcquire
  simp only [htx, htx', LockTable.asked_lookUp hfree, LockTable.tryAcquire_withEntry]

/-- Whoever has looked up a lock gets what it would have got if it had asked at once. -/
theorem act_lookUp {a : Action} (hlock : (Op.action a).locks? = some key) :
    { b with locks := (b.locks.enter h).lookUp h (some key) : Board }.act h a = b.act h a := by
  cases a with
  | lockRow | lockSeed =>
    cases hlock
    exact acquire_lookUp hfree htx
  | tryLockRow | tryLockSeed =>
    cases hlock
    exact tryAcquire_lookUp hfree htx
  | _ => cases hlock

end Asking

/-- Whoever owns the lock that it asks for gets it. -/
theorem act_of_owner {a : Action} (ha : a.awaits? = some key) (htx : (b.transaction? h).isSome = true)
    (ho : b.locks.owner? key = some h) :
    ∃ reply b', b.act h a = .replied reply b' ∧ (⟨.action a, reply⟩ : Event ops).gets? = some key := by
  obtain ⟨tx, htx⟩ := Option.isSome_iff_exists.1 htx
  have hfree : ((b.locks.asked h).tryAcquire h key).1 = true := by
    rw [LockTable.tryAcquire_fst]
    intro holder howner
    exact Option.some.inj (howner.symm.trans ho)
  cases a with
  | lockRow id =>
    cases ha
    refine ⟨.granted ((b.view h).find? id), { b with locks := ((b.locks.asked h).tryAcquire h (.row id)).2 }, ?_, rfl⟩
    simp only [act, acquire, htx, LockTable.acquire_of_true hfree]
  | lockSeed workspace lane =>
    cases ha
    refine ⟨.granted (), { b with locks := ((b.locks.asked h).tryAcquire h (.seed workspace lane)).2 }, ?_, rfl⟩
    simp only [act, acquire, htx, LockTable.acquire_of_true hfree]
  | _ => cases ha

end Board

end LaneOrder
