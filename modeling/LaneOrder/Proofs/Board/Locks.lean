import LaneOrder.Board.Locks
import Mathlib.Data.List.Nodup

/-!
This module contains the view of a lock table as an owner and a queue for each lock, and what every operation
on the table does to this view.
-/

namespace LaneOrder

namespace LockTable

def queue (t : LockTable) (key : LockKey) : List Holder :=
  ((t.lookup? key).map (·.queue)).getD []

def Keyed (t : LockTable) : Prop :=
  (t.entries.map (·.key)).Nodup

structure Idle (t : LockTable) : Prop where
  keyed : t.Keyed
  free : ∀ key, t.owner? key = none
  nobody : ∀ key, t.queue key = []

theorem idle_empty : Idle {} where
  keyed := List.nodup_nil
  free _ := rfl
  nobody _ := rfl

variable {t : LockTable} {h holder : Holder} {key key' : LockKey} {e : LockEntry}

theorem lookup?_modify {f : LockEntry → LockEntry} (hf : ∀ e, (f e).key = e.key) :
    (t.modify key f).lookup? key' = if key' = key then (t.lookup? key').map f else t.lookup? key' := by
  unfold modify lookup?
  rw [List.find?_map]
  have hp : ((fun e : LockEntry => decide (e.key = key')) ∘ fun e => if e.key = key then f e else e)
      = fun e => decide (e.key = key') := by
    funext e
    simp only [Function.comp]
    split <;> simp [hf]
  rw [hp]
  cases hfind : t.entries.find? (fun e => decide (e.key = key')) with
  | none => simp
  | some e =>
    have : e.key = key' := by simpa using List.find?_some hfind
    simp only [Option.map_some, this]
    split <;> simp

theorem keyed_modify {f : LockEntry → LockEntry} (hf : ∀ e, (f e).key = e.key) (ht : t.Keyed) :
    (t.modify key f).Keyed := by
  unfold Keyed modify
  rw [List.map_map]
  have : ((fun e : LockEntry => e.key) ∘ fun e => if e.key = key then f e else e) = (·.key) := by
    funext e
    simp only [Function.comp]
    split <;> simp [hf]
  rw [this]
  exact ht

theorem lookup?_append (hnone : t.lookup? key = none) (he : e.key = key) :
    { t with entries := t.entries ++ [e] : LockTable }.lookup? key' = if key' = key then some e else t.lookup? key' := by
  unfold lookup? at *
  simp only [List.find?_append, List.find?_cons, he, List.find?_nil]
  by_cases hk : key' = key
  . subst hk
    simp [hnone]
  . simp [hk, Ne.symm hk]

theorem keyed_append (ht : t.Keyed) (hnone : t.lookup? key = none) (he : e.key = key) :
    { t with entries := t.entries ++ [e] : LockTable }.Keyed := by
  unfold Keyed at *
  simp only [List.map_append, List.map_cons, List.map_nil]
  refine List.nodup_append.2 ⟨ht, by simp, ?_⟩
  intro a ha b hb
  obtain ⟨e', he', rfl⟩ := List.mem_map.1 ha
  have := List.find?_eq_none.1 hnone e' he'
  simp only [decide_eq_true_eq] at this
  rw [List.mem_singleton.1 hb, he]
  exact this

theorem tryAcquire_fst : (t.tryAcquire h key).1 = true ↔ ∀ holder, t.owner? key = some holder → holder = h := by
  unfold tryAcquire owner?
  split
  . next he => simp [he]
  . next e he =>
    simp only [he, Option.bind_some]
    split
    . next ho => simp [ho]
    . next o ho => simp [ho]

theorem tryAcquire_snd_of_false (hf : (t.tryAcquire h key).1 = false) : (t.tryAcquire h key).2 = t := by
  unfold tryAcquire at *
  cases he : t.lookup? key with
  | none => simp [he] at hf
  | some e =>
    cases ho : e.owner with
    | none => simp [he, ho] at hf
    | some o => simp [ho]

theorem owner?_tryAcquire (ht : (t.tryAcquire h key).1 = true) :
    (t.tryAcquire h key).2.owner? key' = if key' = key then some h else t.owner? key' := by
  unfold tryAcquire owner? at *
  cases he : t.lookup? key with
  | none =>
    dsimp only
    rw [lookup?_append he rfl]
    split <;> simp
  | some e =>
    cases ho : e.owner with
    | none =>
      simp only [ho]
      rw [lookup?_modify (by simp)]
      split
      . next hk => simp [hk, he]
      . rfl
    | some o =>
      simp only [he, ho, decide_eq_true_eq] at ht ⊢
      split
      . next hk => simp [hk, he, ho, ht]
      . rfl

theorem queue_tryAcquire : (t.tryAcquire h key).2.queue key' = t.queue key' := by
  unfold tryAcquire queue
  split
  . next he =>
    rw [lookup?_append he rfl]
    split
    . next hk => simp [hk, he]
    . rfl
  . next e he =>
    split
    . rw [lookup?_modify (by simp)]
      split
      . next hk => simp [hk, he]
      . rfl
    . rfl

theorem keyed_tryAcquire (ht : t.Keyed) : (t.tryAcquire h key).2.Keyed := by
  unfold tryAcquire
  split
  . next he => exact keyed_append ht he rfl
  . split
    . exact keyed_modify (by simp) ht
    . exact ht

theorem acquire_of_true (ht : (t.tryAcquire h key).1 = true) :
    t.acquire h key = (true, (t.tryAcquire h key).2) := by
  unfold acquire
  split
  . next heq => simp [heq]
  . next heq => simp [heq] at ht

theorem acquire_of_false (hf : (t.tryAcquire h key).1 = false) :
    t.acquire h key = (false, t.modify key (·.enqueue h)) := by
  have hsnd := tryAcquire_snd_of_false hf
  unfold acquire
  split
  . next heq => simp [heq] at hf
  . next t' heq =>
    rw [heq] at hsnd
    simp only at hsnd
    rw [hsnd]

@[simp]
theorem enqueue_key : (e.enqueue h).key = e.key := by
  unfold LockEntry.enqueue
  split <;> rfl

@[simp]
theorem enqueue_owner : (e.enqueue h).owner = e.owner := by
  unfold LockEntry.enqueue
  split <;> rfl

theorem owner?_modify {f : LockEntry → LockEntry} (hf : ∀ e, (f e).key = e.key) (howner : ∀ e, (f e).owner = e.owner) :
    (t.modify key f).owner? key' = t.owner? key' := by
  unfold owner?
  rw [lookup?_modify hf]
  split
  . cases t.lookup? key' <;> simp [howner]
  . rfl

theorem owner?_enqueue : (t.modify key (·.enqueue h)).owner? key' = t.owner? key' :=
  owner?_modify (by simp) (by simp)

theorem queue_enqueue (ho : t.owner? key = some holder) :
    (t.modify key (·.enqueue h)).queue key'
      = if key' = key ∧ h ∉ t.queue key then t.queue key' ++ [h] else t.queue key' := by
  unfold queue owner? at *
  rw [lookup?_modify (by simp)]
  cases he : t.lookup? key with
  | none => simp [he] at ho
  | some e =>
    by_cases hk : key' = key
    . subst hk
      simp only [if_true, he, Option.map_some, Option.getD_some, true_and]
      unfold LockEntry.enqueue
      split <;> simp_all
    . simp [hk]

theorem keyed_enqueue (ht : t.Keyed) : (t.modify key (·.enqueue h)).Keyed :=
  keyed_modify (by simp) ht

theorem owner?_leave : (t.leave h key).owner? key' = t.owner? key' :=
  owner?_modify (by simp [LockEntry.leave]) (by simp [LockEntry.leave])

theorem queue_leave :
    (t.leave h key).queue key' = if key' = key then (t.queue key').filter (· ≠ h) else t.queue key' := by
  unfold leave queue
  rw [lookup?_modify (by simp [LockEntry.leave])]
  split
  . cases t.lookup? key' <;> simp [LockEntry.leave]
  . rfl

theorem keyed_leave (ht : t.Keyed) : (t.leave h key).Keyed :=
  keyed_modify (by simp [LockEntry.leave]) ht

@[simp]
theorem release_key : (e.release h).key = e.key := by
  unfold LockEntry.release LockEntry.leave LockEntry.handOver
  dsimp only
  split <;> rfl

theorem release_owner :
    (e.release h).owner = if e.owner = some h then (e.queue.filter (· ≠ h)).head? else e.owner := by
  unfold LockEntry.release LockEntry.leave LockEntry.handOver
  dsimp only
  split <;> rfl

theorem release_queue :
    (e.release h).queue
      = if e.owner = some h then (e.queue.filter (· ≠ h)).tail else e.queue.filter (· ≠ h) := by
  unfold LockEntry.release LockEntry.leave LockEntry.handOver
  dsimp only
  split <;> rfl

theorem lookup?_giveBack : (t.giveBack h).lookup? key = (t.lookup? key).map (·.release h) := by
  unfold giveBack lookup?
  dsimp only
  rw [List.find?_map]
  have hp : ((fun e : LockEntry => decide (e.key = key)) ∘ fun e : LockEntry => e.release h)
      = fun e : LockEntry => decide (e.key = key) := by
    funext e
    simp
  rw [hp]

theorem owner?_giveBack :
    (t.giveBack h).owner? key
      = if t.owner? key = some h then ((t.queue key).filter (· ≠ h)).head? else t.owner? key := by
  unfold owner? queue
  rw [lookup?_giveBack]
  cases t.lookup? key with
  | none => simp
  | some e => simp [release_owner]

theorem queue_giveBack :
    (t.giveBack h).queue key
      = if t.owner? key = some h then ((t.queue key).filter (· ≠ h)).tail
        else (t.queue key).filter (· ≠ h) := by
  unfold owner? queue
  rw [lookup?_giveBack]
  cases t.lookup? key with
  | none => simp
  | some e => simp [release_queue]

theorem keyed_giveBack (ht : t.Keyed) : (t.giveBack h).Keyed := by
  unfold Keyed giveBack at *
  have hmap : (t.entries.map (·.release h)).map (·.key) = t.entries.map (·.key) := by
    simp
  exact hmap ▸ ht

/-- Whether somebody is known to refer to an entry, apart from the table. -/
theorem references_le_one : t.references e ≤ 1 ↔ e.owner = none ∧ e.queue = [] ∧ ∀ h, (h, e.key) ∉ t.requests := by
  unfold references
  have hcount : t.requests.countP (·.2 = e.key) = 0 ↔ ∀ h, (h, e.key) ∉ t.requests := by
    simp only [List.countP_eq_zero, decide_eq_true_eq, Prod.forall]
    exact ⟨fun hall h hmem => hall h _ hmem rfl, fun hall h key hmem hkey => hall h (hkey ▸ hmem)⟩
  rw [← hcount, ← List.length_eq_zero_iff, ← Option.toList_eq_nil_iff, ← List.length_eq_zero_iff]
  omega

theorem lookup?_filter {keeps : LockEntry → Bool} (ht : t.Keyed) :
    { t with entries := t.entries.filter keeps : LockTable }.lookup? key = (t.lookup? key).filter keeps := by
  obtain ⟨es, visitor, requests⟩ := t
  unfold Keyed at ht
  unfold lookup?
  dsimp only at *
  induction es with
  | nil => rfl
  | cons e es ih =>
    simp only [List.map_cons, List.nodup_cons] at ht
    simp only [List.filter_cons, List.find?_cons]
    by_cases hk : e.key = key
    -- the entry is the only one of its key, so nothing is found if it is dropped
    . have habsent : ∀ x ∈ es.filter keeps, ¬ x.key = key := by
        rintro x hx rfl
        exact ht.1 (hk ▸ List.mem_map_of_mem (List.mem_filter.1 hx).1)
      by_cases hkept : keeps e = true
      . simp [hkept, hk, Option.filter]
      . have hfind := List.find?_eq_none.2 fun x hx => decide_eq_true_iff.not.2 (habsent x hx)
        simp only [hkept, hk, decide_true, Bool.false_eq_true, if_false]
        rw [hfind]
        simp [Option.filter, hkept]
    . simp only [hk, decide_false]
      rw [← ih ht.2]
      split
      . simp [hk]
      . rfl

/-- Pruning drops entries that nobody but the table refers to, and none if somebody is inside. -/
theorem lookup?_prune (ht : t.Keyed) (key : LockKey) : t.prune.lookup? key = t.lookup? key
    ∨ t.visitor = none ∧ t.prune.lookup? key = none ∧ ∃ e, t.lookup? key = some e ∧ t.references e ≤ 1 := by
  unfold prune
  split
  . exact .inl rfl
  . next hfree =>
    rw [lookup?_filter ht]
    cases he : t.lookup? key with
    | none => exact .inl rfl
    | some e =>
      by_cases hkept : 1 < t.references e
      . exact .inl (Option.filter_some_pos (decide_eq_true hkept))
      . exact .inr ⟨by simpa using hfree, Option.filter_some_neg (by simpa using hkept), e, rfl, Nat.le_of_not_lt hkept⟩

theorem owner?_prune (ht : t.Keyed) : t.prune.owner? key = t.owner? key := by
  unfold owner?
  rcases lookup?_prune ht key with hsame | ⟨-, hnone, e, he, hunused⟩
  . rw [hsame]
  . rw [hnone, he]
    exact (references_le_one.1 hunused).1.symm

theorem queue_prune (ht : t.Keyed) : t.prune.queue key = t.queue key := by
  unfold queue
  rcases lookup?_prune ht key with hsame | ⟨-, hnone, e, he, hunused⟩
  . rw [hsame]
  . rw [hnone, he]
    exact (references_le_one.1 hunused).2.1.symm

theorem keyed_prune (ht : t.Keyed) : t.prune.Keyed := by
  unfold prune
  split
  . exact ht
  . exact ht.sublist (List.filter_sublist.map _)

variable {closing : Bool}

theorem owner?_releaseAll (ht : t.Keyed) :
    (t.releaseAll h closing).owner? key
      = if t.owner? key = some h then ((t.queue key).filter (· ≠ h)).head? else t.owner? key := by
  unfold releaseAll
  split
  . rw [owner?_prune (keyed_giveBack ht), owner?_giveBack]
  . exact owner?_giveBack

theorem queue_releaseAll (ht : t.Keyed) :
    (t.releaseAll h closing).queue key
      = if t.owner? key = some h then ((t.queue key).filter (· ≠ h)).tail
        else (t.queue key).filter (· ≠ h) := by
  unfold releaseAll
  split
  . rw [queue_prune (keyed_giveBack ht), queue_giveBack]
  . exact queue_giveBack

theorem keyed_releaseAll (ht : t.Keyed) : (t.releaseAll h closing).Keyed := by
  unfold releaseAll
  split
  . exact keyed_prune (keyed_giveBack ht)
  . exact keyed_giveBack ht

@[simp]
theorem owner?_asked : (t.asked h).owner? key = t.owner? key :=
  rfl

@[simp]
theorem queue_asked : (t.asked h).queue key = t.queue key :=
  rfl

theorem lookup?_withEntry : (t.withEntry key).lookup? key'
    = if key' = key then some ((t.lookup? key).getD ⟨key, none, []⟩) else t.lookup? key' := by
  unfold withEntry
  cases he : t.lookup? key with
  | none => exact lookup?_append he rfl
  | some e =>
    show t.lookup? key' = _
    split
    . next hk => rw [hk, he, Option.getD_some]
    . rfl

theorem owner?_withEntry : (t.withEntry key).owner? key' = t.owner? key' := by
  unfold owner?
  rw [lookup?_withEntry]
  split
  . next hk =>
    rw [hk]
    cases t.lookup? key <;> rfl
  . rfl

theorem queue_withEntry : (t.withEntry key).queue key' = t.queue key' := by
  unfold queue
  rw [lookup?_withEntry]
  split
  . next hk =>
    rw [hk]
    cases t.lookup? key <;> rfl
  . rfl

theorem keyed_withEntry (ht : t.Keyed) : (t.withEntry key).Keyed := by
  unfold withEntry
  cases he : t.lookup? key with
  | none => exact keyed_append ht he rfl
  | some e => exact ht

/-- It makes no difference whether there was an entry before a lock was asked for. -/
theorem tryAcquire_withEntry : (t.withEntry key).tryAcquire h key = t.tryAcquire h key := by
  unfold withEntry
  cases hnone : t.lookup? key with
  | none =>
    have hmap : t.entries.map (fun e => if e.key = key then { e with owner := some h } else e) = t.entries.map id := by
      apply List.map_congr_left
      intro e he
      exact if_neg (by simpa using List.find?_eq_none.1 hnone e he)
    have hlookup : { t with entries := t.entries ++ [⟨key, none, []⟩] : LockTable }.lookup? key = some ⟨key, none, []⟩ := by
      rw [lookup?_append hnone rfl, if_pos rfl]
    show LockTable.tryAcquire { t with entries := t.entries ++ [⟨key, none, []⟩] } h key = _
    unfold tryAcquire
    rw [hlookup, hnone]
    simp [modify, hmap]
  | some e => rfl

theorem acquire_withEntry : (t.withEntry key).acquire h key = t.acquire h key := by
  unfold acquire
  rw [tryAcquire_withEntry]
/-- Whoever has looked up a lock finds what it would have found if it had asked at once. -/
theorem asked_lookUp (hfree : t.visitor = none) :
    ((t.enter h).lookUp h (some key)).asked h = (t.asked h).withEntry key := by
  have hinside : (t.enter h).visitor = some h := by
    simp [enter, hfree]
  unfold lookUp
  rw [if_pos hinside]
  unfold asked withEntry
  simp only [hfree, Option.filter_none, List.filter_cons, ne_eq, not_true_eq_false, decide_false, Bool.false_eq_true, if_false]
  rfl

/-- What a holder can do about a table of locks while it asks for none: to go inside, to find the entry of a lock for which it
will ask, and to be done with it. -/
structure Visits (t : LockTable) (h : Holder) (key? : Option LockKey) (t' : LockTable) : Prop where
  owner : ∀ key, t'.owner? key = t.owner? key
  queue : ∀ key, t'.queue key = t.queue key
  keyed : t.Keyed → t'.Keyed
  entries : ∀ key, (t.lookup? key).isSome = true → (t'.lookup? key).isSome = true
  others : ∀ x ∈ t.requests, x.1 ≠ h → x ∈ t'.requests
  requests : ∀ x ∈ t'.requests, x ∈ t.requests ∨ x.1 = h ∧ key? = some x.2 ∧ (t'.lookup? x.2).isSome = true

theorem Visits.refl {key? : Option LockKey} : t.Visits h key? t :=
  ⟨fun _ => rfl, fun _ => rfl, id, fun _ => id, fun _ hx _ => hx, fun _ hx => .inl hx⟩

theorem visits_enter {key? : Option LockKey} : t.Visits h key? (t.enter h) :=
  ⟨fun _ => rfl, fun _ => rfl, id, fun _ => id, fun _ hx _ => hx, fun _ hx => .inl hx⟩

theorem mem_requests_asked {x : Holder × LockKey} : x ∈ (t.asked h).requests ↔ x ∈ t.requests ∧ x.1 ≠ h := by
  unfold asked
  rw [List.mem_filter, decide_eq_true_eq]

theorem visits_asked : t.Visits h none (t.asked h) where
  owner _ := rfl
  queue _ := rfl
  keyed := id
  entries _ := id
  others _ hx hne := mem_requests_asked.2 ⟨hx, hne⟩
  requests _ hx := .inl (mem_requests_asked.1 hx).1

theorem visits_of_eq {t' : LockTable} (ht : t' = t ∨ t' = t.asked h) : t.Visits h none t' := by
  rcases ht with rfl | rfl
  . exact .refl
  . exact visits_asked

theorem visits_lookUp {key? : Option LockKey} : t.Visits h key? (t.lookUp h key?) := by
  unfold lookUp
  split
  . cases key? with
    | none => exact ⟨fun _ => rfl, fun _ => rfl, id, fun _ => id, fun _ hx _ => hx, fun _ hx => .inl hx⟩
    | some key =>
      have hentry : ∀ key', ((t.withEntry key).lookup? key').isSome = true ↔ key' = key ∨ (t.lookup? key').isSome = true := by
        intro key'
        rw [lookup?_withEntry]
        split <;> simp [*]
      constructor
      . exact fun _ => owner?_withEntry
      . exact fun _ => queue_withEntry
      . exact keyed_withEntry
      . exact fun key' hkey' => (hentry key').2 (.inr hkey')
      . exact fun x hx _ => List.mem_cons_of_mem _ hx
      . intro x hx
        rcases List.mem_cons.1 hx with rfl | hx
        . exact .inr ⟨rfl, rfl, (hentry key).2 (.inl rfl)⟩
        . exact .inl hx
  . exact .refl

theorem isSome_lookup?_modify {f : LockEntry → LockEntry} (hf : ∀ e, (f e).key = e.key) :
    ((t.modify key f).lookup? key').isSome = (t.lookup? key').isSome := by
  rw [lookup?_modify hf]
  split <;> simp

theorem requests_tryAcquire : (t.tryAcquire h key).2.requests = t.requests := by
  unfold tryAcquire
  split
  . rfl
  . split <;> rfl

theorem isSome_lookup?_tryAcquire (hkey : (t.lookup? key').isSome = true) :
    ((t.tryAcquire h key).2.lookup? key').isSome = true := by
  unfold tryAcquire
  split
  . next he =>
    dsimp only
    rw [lookup?_append he rfl]
    split
    . rfl
    . exact hkey
  . split
    . exact (isSome_lookup?_modify (by simp)).trans hkey
    . exact hkey

theorem visitor_asked : (t.asked h).visitor = none ↔ t.isFree h = true := by
  unfold asked isFree
  cases t.visitor <;> simp

theorem requests_prune : t.prune.requests = t.requests := by
  unfold prune
  split <;> rfl

theorem requests_releaseAll : (t.releaseAll h closing).requests = (t.asked h).requests := by
  unfold releaseAll
  split
  . exact requests_prune
  . rfl

/-- Whoever gives up all that it has owns nothing any more. -/
theorem not_owner_of_releaseAll (ht : t.Keyed) : (t.releaseAll h closing).owner? key ≠ some h := by
  rw [owner?_releaseAll ht]
  split
  . intro hfirst
    have hmem := List.mem_of_head? hfirst
    simp at hmem
  . assumption

/-- An entry is dropped at the end of a transaction only, while nobody else is inside. -/
theorem dropped_of_releaseAll (ht : t.Keyed) (hkey : (t.lookup? key).isSome = true)
    (hdropped : (t.releaseAll h closing).lookup? key = none) : closing = true ∧ t.isFree h = true
      ∧ (∀ x ∈ (t.releaseAll h closing).requests, x.2 ≠ key) ∧ ∀ key', (t.releaseAll h closing).owner? key' ≠ some h := by
  have hkept : ((t.giveBack h).lookup? key).isSome = true := by
    rw [lookup?_giveBack, Option.isSome_map]
    exact hkey
  have howns : ∀ key', (t.releaseAll h closing).owner? key' ≠ some h := fun _ => not_owner_of_releaseAll ht
  unfold releaseAll at hdropped howns ⊢
  split at hdropped
  . next hclosing =>
    rw [if_pos hclosing] at howns ⊢
    rcases lookup?_prune (keyed_giveBack ht) key with hsame | ⟨hfree, -, e, he, hunused⟩
    . rw [← hsame, hdropped] at hkept
      cases hkept
    . have hkey : e.key = key := by simpa using List.find?_some he
      refine ⟨hclosing, visitor_asked.1 hfree, ?_, howns⟩
      intro x hx hxkey
      apply (references_le_one.1 hunused).2.2 x.1
      rw [hkey, ← hxkey]
      exact requests_prune ▸ hx
  . rw [hdropped] at hkept
    cases hkept

/-- Nobody drops less than all that is unused, unless somebody else is inside. -/
theorem used_of_releaseAll (hfree : t.isFree h = true) (he : e ∈ (t.releaseAll h true).entries) :
    1 < (t.releaseAll h true).references e := by
  have hnobody : ¬ (t.giveBack h).visitor.isSome = true := by
    rw [show (t.giveBack h).visitor = none from visitor_asked.2 hfree]
    simp
  unfold releaseAll prune at he ⊢
  rw [if_pos rfl, if_neg hnobody] at he ⊢
  show 1 < (t.giveBack h).references e
  simpa using (List.mem_filter.1 he).2

/-- What becomes of entries and requests while one holder does something: an entry is dropped only when it ends a transaction
and gives up all its locks, while nobody else is inside, and if nobody has looked it up; what others have looked up stays so;
and a lock that is looked up has an entry. -/
structure Uses (t : LockTable) (h : Holder) (key? : Option LockKey) (closing : Bool) (t' : LockTable) : Prop where
  entries : ∀ key, (t.lookup? key).isSome = true → t'.lookup? key = none →
    closing = true ∧ t.isFree h = true ∧ (∀ x ∈ t'.requests, x.2 ≠ key) ∧ ∀ key', t'.owner? key' ≠ some h
  others : ∀ x ∈ t.requests, x.1 ≠ h → x ∈ t'.requests
  requests : ∀ x ∈ t'.requests, x ∈ t.requests ∨ x.1 = h ∧ key? = some x.2 ∧ (t'.lookup? x.2).isSome = true

variable {key? : Option LockKey} {t' : LockTable}

theorem Uses.of_isSome (hentries : ∀ key, (t.lookup? key).isSome = true → (t'.lookup? key).isSome = true)
    (hothers : ∀ x ∈ t.requests, x.1 ≠ h → x ∈ t'.requests) (hrequests : ∀ x ∈ t'.requests, x ∈ t.requests) :
    t.Uses h key? closing t' where
  entries key hkey hnone := by
    have := hentries key hkey
    rw [hnone] at this
    cases this
  others := hothers
  requests x hx := .inl (hrequests x hx)

theorem Visits.uses (hv : t.Visits h key? t') : t.Uses h key? closing t' where
  entries key hkey hnone := by
    have := hv.entries key hkey
    rw [hnone] at this
    cases this
  others := hv.others
  requests := hv.requests

theorem uses_asked : t.Uses h key? closing (t.asked h) :=
  .of_isSome (fun _ => id) visits_asked.others fun _ hx => (mem_requests_asked.1 hx).1

theorem uses_tryAcquire : t.Uses h key? closing ((t.asked h).tryAcquire h key).2 := by
  apply Uses.of_isSome
  . exact fun _ hkey => isSome_lookup?_tryAcquire hkey
  . intro x hx hne
    rw [requests_tryAcquire]
    exact visits_asked.others x hx hne
  . intro x hx
    rw [requests_tryAcquire] at hx
    exact (mem_requests_asked.1 hx).1

theorem Uses.modify {f : LockEntry → LockEntry} (hu : t.Uses h key? closing t') (hf : ∀ e, (f e).key = e.key)
    (howner : ∀ e, (f e).owner = e.owner) : t.Uses h key? closing (t'.modify key f) where
  entries key hkey hnone := by
    have hnone' : t'.lookup? key = none := by
      rw [← Option.not_isSome_iff_eq_none, ← isSome_lookup?_modify hf, hnone]
      simp
    obtain ⟨hclosing, hfree, hrequests, howns⟩ := hu.entries key hkey hnone'
    refine ⟨hclosing, hfree, hrequests, ?_⟩
    intro key'
    rw [owner?_modify hf howner]
    exact howns key'
  others := hu.others
  requests x hx := by
    rw [isSome_lookup?_modify hf]
    exact hu.requests x hx

theorem uses_releaseAll (ht : t.Keyed) : t.Uses h key? closing (t.releaseAll h closing) where
  entries _ := dropped_of_releaseAll ht
  others x hx hne := by
    rw [requests_releaseAll]
    exact mem_requests_asked.2 ⟨hx, hne⟩
  requests x hx := by
    rw [requests_releaseAll] at hx
    exact .inl (mem_requests_asked.1 hx).1

theorem knows_of_owner (ho : t.owner? key = some h) : t.knows h key = true := by
  obtain ⟨e, he, howner⟩ := Option.bind_eq_some_iff.1 ho
  simp [knows, he, howner]

end LockTable

end LaneOrder
