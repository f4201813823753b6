import LaneOrder.Proofs.Board.Discipline
import Mathlib.Logic.Relation

/-!
This module contains who waits for whom at a table of locks. If whoever waits for a lock waits for one above all
that it has, then nobody waits for itself, over however many others.
-/

namespace LaneOrder

namespace LockTable

/-- The table agrees with what everybody has and awaits: an owner has its lock or is about to get it, and whoever
stands in a queue awaits this lock, which belongs to somebody else. -/
structure Accounts (t : LockTable) (has : Holder → LockKey → Prop) (awaits : Holder → Option LockKey) : Prop where
  keyed : t.Keyed
  owned : ∀ key h, t.owner? key = some h → has h key ∨ awaits h = some key
  queued : ∀ key h, h ∈ t.queue key → awaits h = some key ∧ ∃ holder, t.owner? key = some holder ∧ holder ≠ h
  nodup : ∀ key, (t.queue key).Nodup

/-- A holder is blocked on a lock that another one owns or is queued ahead for. -/
def Blocked (t : LockTable) (h h' : Holder) : Prop :=
  ∃ key, h ∈ t.queue key ∧ (t.owner? key = some h' ∨ (t.queue key).idxOf h' < (t.queue key).idxOf h)

variable {t : LockTable} {has has' : Holder → LockKey → Prop} {awaits awaits' : Holder → Option LockKey}
  {h : Holder} {key : LockKey}

/-- On the way along those that are blocked locks rise, or places in a queue fall. -/
theorem Accounts.rises (ht : t.Accounts has awaits)
    (above : ∀ h key key', has h key → awaits h = some key' → key.rank < key'.rank) {h h' : Holder}
    (hb : Relation.TransGen t.Blocked h h') {key' : LockKey} (hq : h' ∈ t.queue key') :
    ∃ key, h ∈ t.queue key
      ∧ (key.rank < key'.rank ∨ key = key' ∧ (t.queue key).idxOf h' < (t.queue key).idxOf h) := by
  have hstep : ∀ {x y : Holder} {k : LockKey}, t.Blocked x y → y ∈ t.queue k →
      ∃ key, x ∈ t.queue key ∧ (key.rank < k.rank ∨ key = k ∧ (t.queue key).idxOf y < (t.queue key).idxOf x) := by
    intro x y k hxy hy
    obtain ⟨key, hx, hcause⟩ := hxy
    refine ⟨key, hx, ?_⟩
    obtain ⟨hawaits, o, ho, hne⟩ := ht.queued k y hy
    rcases hcause with howner | hahead
    . left
      rcases ht.owned key y howner with hhas | hsame
      . exact above y key k hhas hawaits
      . rw [hawaits] at hsame
        cases hsame
        rw [howner] at ho
        cases ho
        exact absurd rfl hne
    . right
      have hy' : y ∈ t.queue key := by
        apply List.idxOf_lt_length_iff.1
        exact Nat.lt_trans hahead (List.idxOf_lt_length_iff.2 hx)
      have := (ht.queued key y hy').1
      rw [hawaits] at this
      cases this
      exact ⟨rfl, hahead⟩
  -- along the chain: with every step the lock rises, or it stays the same and the place in its queue falls
  induction hb generalizing key' with
  | single hxy => exact hstep hxy hq
  | tail _ hxy ih =>
    obtain ⟨key, hx, hrel⟩ := hstep hxy hq
    obtain ⟨key₀, h₀, hrel₀⟩ := ih hx
    refine ⟨key₀, h₀, ?_⟩
    rcases hrel₀ with hlt₀ | ⟨rfl, hlt₀⟩
    . left
      rcases hrel with hlt | ⟨rfl, _⟩
      . exact Nat.lt_trans hlt₀ hlt
      . exact hlt₀
    . rcases hrel with hlt | ⟨rfl, hlt⟩
      . exact .inl hlt
      . exact .inr ⟨rfl, Nat.lt_trans hlt hlt₀⟩

theorem Accounts.not_blocked_self (ht : t.Accounts has awaits)
    (above : ∀ h key key', has h key → awaits h = some key' → key.rank < key'.rank) (h : Holder) :
    ¬ Relation.TransGen t.Blocked h h := by
  intro hb
  obtain ⟨_, hstep, _⟩ := Relation.TransGen.head'_iff.1 hb
  obtain ⟨key, hq, _⟩ := hstep
  -- whoever waits stands in one queue only, so the lock at the end of the circle is the one at its start
  obtain ⟨key', hq', hrel⟩ := ht.rises above hb hq
  have hkey : key' = key := by
    have h1 := (ht.queued key h hq).1
    have h2 := (ht.queued key' h hq').1
    rw [h1] at h2
    exact (Option.some.inj h2).symm
  subst hkey
  rcases hrel with hlt | ⟨_, hlt⟩
  . exact Nat.lt_irrefl _ hlt
  . exact Nat.lt_irrefl _ hlt

structure Others (h : Holder) (has has' : Holder → LockKey → Prop) (awaits awaits' : Holder → Option LockKey) :
    Prop where
  has : ∀ h', h' ≠ h → ∀ key, has h' key → has' h' key
  awaits : ∀ h', h' ≠ h → awaits' h' = awaits h'

theorem accounts_of_idle (ht : t.Idle) : t.Accounts has awaits where
  keyed := ht.keyed
  owned key h ho := by simp [ht.free key] at ho
  queued key h hq := by simp [ht.nobody key] at hq
  nodup key := by simp [ht.nobody key]

theorem Accounts.mono (ht : t.Accounts has awaits) (hhas : ∀ h key, has h key → has' h key)
    (hawaits : ∀ h, awaits' h = awaits h) : t.Accounts has' awaits' where
  keyed := ht.keyed
  owned key h howner := by
    rw [hawaits]
    exact (ht.owned key h howner).imp_left (hhas h key)
  queued key h hq := by
    rw [hawaits]
    exact ht.queued key h hq
  nodup := ht.nodup

theorem Accounts.goes (ht : t.Accounts has awaits) (ho : Others h has has' awaits awaits')
    (hawaits : ∀ key, h ∉ t.queue key) (howned : ∀ key, t.owner? key = some h → has' h key) :
    t.Accounts has' awaits' where
  keyed := ht.keyed
  owned key h' howner := by
    by_cases hh : h' = h
    . subst hh
      exact .inl (howned key howner)
    . rw [ho.awaits h' hh]
      exact (ht.owned key h' howner).imp_left (ho.has h' hh key)
  queued key h' hq := by
    have hh : h' ≠ h := by
      rintro rfl
      exact hawaits key hq
    rw [ho.awaits h' hh]
    exact ht.queued key h' hq
  nodup := ht.nodup

theorem Accounts.tryAcquire (ht : t.Accounts has awaits) (ho : Others h has has' awaits awaits')
    (hfree : (t.tryAcquire h key).1 = true) (hawaits : ∀ key', awaits h = some key' → key' = key)
    (hhas : ∀ key, has h key → has' h key) (hgot : has' h key) :
    (t.tryAcquire h key).2.Accounts has' awaits' where
  keyed := keyed_tryAcquire ht.keyed
  owned key' h' howner := by
    rw [owner?_tryAcquire hfree] at howner
    split at howner
    . next hkey =>
      cases howner
      subst hkey
      exact .inl hgot
    . next hkey =>
      by_cases hh : h' = h
      . subst hh
        left
        rcases ht.owned key' h' howner with hold | hold
        . exact hhas key' hold
        . exact absurd (hawaits key' hold) hkey
      . rw [ho.awaits h' hh]
        exact (ht.owned key' h' howner).imp_left (ho.has h' hh key')
  queued key' h' hq := by
    rw [queue_tryAcquire] at hq
    obtain ⟨hwait, o, howner, hne⟩ := ht.queued key' h' hq
    by_cases hh : h' = h
    . subst hh
      cases hawaits key' hwait
      exact absurd (tryAcquire_fst.1 hfree o howner) hne
    . rw [ho.awaits h' hh, owner?_tryAcquire hfree]
      refine ⟨hwait, ?_⟩
      split
      . exact ⟨h, rfl, Ne.symm hh⟩
      . exact ⟨o, howner, hne⟩
  nodup key' := by
    rw [queue_tryAcquire]
    exact ht.nodup key'

theorem Accounts.visits {t' : LockTable} {key? : Option LockKey} (ht : t.Accounts has awaits) (hv : t.Visits h key? t') :
    t'.Accounts has awaits where
  keyed := hv.keyed ht.keyed
  owned key h' howner := ht.owned key h' ((hv.owner key).symm.trans howner)
  queued key h' hq := by
    rw [hv.queue] at hq
    rw [hv.owner]
    exact ht.queued key h' hq
  nodup key := by
    rw [hv.queue]
    exact ht.nodup key

theorem Accounts.releaseAll {closing : Bool} (ht : t.Accounts has awaits) (ho : Others h has has' awaits awaits') :
    (t.releaseAll h closing).Accounts has' awaits' where
  keyed := keyed_releaseAll ht.keyed
  owned key h' howner := by
    rw [owner?_releaseAll ht.keyed] at howner
    split at howner
    . next hown =>
      -- the lock was handed over to the first of its queue, who has awaited it
      have hmem := List.mem_of_mem_head? howner
      obtain ⟨hmem, hne⟩ := List.mem_filter.1 hmem
      have hh : h' ≠ h := by simpa using hne
      right
      rw [ho.awaits h' hh]
      exact (ht.queued key h' hmem).1
    . next hown =>
      have hh : h' ≠ h := by
        rintro rfl
        exact hown howner
      rw [ho.awaits h' hh]
      exact (ht.owned key h' howner).imp_left (ho.has h' hh key)
  queued key h' hq := by
    rw [queue_releaseAll ht.keyed] at hq
    rw [owner?_releaseAll ht.keyed]
    split at hq
    . next hown =>
      have hfilter : h' ∈ (t.queue key).filter (· ≠ h) := List.mem_of_mem_tail hq
      have hh : h' ≠ h := by simpa using (List.mem_filter.1 hfilter).2
      rw [ho.awaits h' hh, if_pos hown]
      refine ⟨(ht.queued key h' (List.mem_filter.1 hfilter).1).1, ?_⟩
      have hnodup : ((t.queue key).filter (· ≠ h)).Nodup := (ht.nodup key).filter _
      cases hqueue : (t.queue key).filter (· ≠ h) with
      | nil =>
        rw [hqueue] at hq
        cases hq
      | cons first rest =>
        rw [hqueue] at hq hnodup
        refine ⟨first, rfl, ?_⟩
        rintro rfl
        exact (List.nodup_cons.1 hnodup).1 hq
    . next hown =>
      obtain ⟨hmem, hne⟩ := List.mem_filter.1 hq
      have hh : h' ≠ h := by simpa using hne
      rw [ho.awaits h' hh, if_neg hown]
      exact ht.queued key h' hmem
  nodup key := by
    rw [queue_releaseAll ht.keyed]
    split
    . exact ((ht.nodup key).filter _).tail
    . exact (ht.nodup key).filter _

theorem owner_of_busy (hbusy : (t.tryAcquire h key).1 = false) : ∃ o, t.owner? key = some o ∧ o ≠ h := by
  have : ¬ ∀ holder, t.owner? key = some holder → holder = h := by
    rw [← tryAcquire_fst, hbusy]
    simp
  simpa using this

theorem Accounts.enqueue (ht : t.Accounts has awaits) (hbusy : (t.tryAcquire h key).1 = false)
    (hawaits : awaits h = some key) : (t.modify key (·.enqueue h)).Accounts has awaits := by
  obtain ⟨o, howner, hne⟩ := owner_of_busy hbusy
  constructor
  . exact keyed_enqueue ht.keyed
  . intro key' h' howner'
    rw [owner?_enqueue] at howner'
    exact ht.owned key' h' howner'
  . intro key' h' hq
    rw [queue_enqueue howner] at hq
    rw [owner?_enqueue]
    split at hq
    . next hkey =>
      rcases List.mem_append.1 hq with hq | hq
      . exact ht.queued key' h' hq
      . cases List.mem_singleton.1 hq
        rw [hkey.1]
        exact ⟨hawaits, o, howner, hne⟩
    . exact ht.queued key' h' hq
  . intro key'
    rw [queue_enqueue howner]
    split
    . next hkey =>
      rw [hkey.1]
      refine List.nodup_append.2 ⟨ht.nodup key, by simp, ?_⟩
      rintro a ha b hb rfl
      cases List.mem_singleton.1 hb
      exact hkey.2 ha
    . exact ht.nodup key'

theorem Accounts.leave (ht : t.Accounts has awaits) (ho : Others h has has' awaits awaits')
    (hbusy : t.owner? key ≠ some h) (hawaits : awaits h = some key) (hhas : ∀ key, has h key → has' h key) :
    (t.leave h key).Accounts has' awaits' where
  keyed := keyed_leave ht.keyed
  owned key' h' howner := by
    rw [owner?_leave] at howner
    by_cases hh : h' = h
    . subst hh
      left
      rcases ht.owned key' h' howner with hold | hold
      . exact hhas key' hold
      . rw [hawaits] at hold
        cases hold
        exact absurd howner hbusy
    . rw [ho.awaits h' hh]
      exact (ht.owned key' h' howner).imp_left (ho.has h' hh key')
  queued key' h' hq := by
    rw [queue_leave] at hq
    rw [owner?_leave]
    have hmem : h' ∈ t.queue key' := by
      split at hq
      . exact (List.mem_filter.1 hq).1
      . exact hq
    have hh : h' ≠ h := by
      rintro rfl
      have := (ht.queued key' h' hmem).1
      rw [hawaits] at this
      cases this
      simp at hq
    rw [ho.awaits h' hh]
    exact ht.queued key' h' hmem
  nodup key' := by
    rw [queue_leave]
    split
    . exact (ht.nodup key').filter _
    . exact ht.nodup key'

end LockTable

end LaneOrder
