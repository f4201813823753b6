import LaneOrder.Proofs.Board.Change

/-!
This module contains the discipline of those who share a board. Whoever waits for a lock waits for one above
all that it has; locks are taken and rows are read before anything is written; and only rows that were seen under
their locks are changed. From this it follows what a transaction may count on, no matter what the others do.
-/

namespace LaneOrder

open Program

/-- The order in which locks are waited for: seeds before rows, rows by their identifiers. -/
def LockKey.rank : LockKey → Nat
  | seed .. => 0
  | row id => id.uuid.value + 1

namespace Program.Event

open Board

def lists? : Event ops → Option (List TaskId)
  | ⟨.action (.laneIds _ _), ids⟩ => some ids
  | _ => none

/-- The row that is changed now or at the end of the transaction. -/
def changes? (e : Event ops) : Option TaskId :=
  (e.writes?.map (·.id)).or (e.deletes?.map (·.1))

/-- What is seen under a lock is the row of this lock, and lanes are read in ascending order. -/
structure IsHonest (e : Event ops) : Prop where
  sees : ∀ t, e.sees? = some t → e.gets? = some (.row t.id)
  lists : ∀ ids, e.lists? = some ids → ids.Pairwise (· < ·)

end Program.Event

namespace Board

def opened (T : History ops) : Option (History ops) :=
  since Op.starts Op.ends T

def Gets (s : History ops) (key : LockKey) : Prop :=
  ∃ e ∈ s, e.gets? = some key

def Sees (s : History ops) (t : Task) : Prop :=
  ∃ e ∈ s, e.sees? = some t

def Undeleted (s : History ops) : Prop :=
  ∀ e ∈ s, e.deletes? = none

def Unwritten (s : History ops) : Prop :=
  ∀ e ∈ s, e.writes? = none

def writes : History ops → Transaction
  | [] => {}
  | e :: s => match e.writes? with
    | some w => (writes s).stage w
    | none => writes s

namespace Op

def prepares : Op → Bool
  | action (.lockRow _) | action (.tryLockRow _) | action (.lockSeed ..) | action (.tryLockSeed ..)
  | action (.laneIds ..) | action (.adjacent ..) => true
  | _ => false

def changes? : Op → Option TaskId
  | action (.stage _ w) => some w.id
  | action (.delete id _) => some id
  | _ => none

/-- What an operation has to respect after what happened. -/
structure Allowed (T : History ops) (op : Op) : Prop where
  awaits : ∀ key, op.awaits? = some key →
    ∃ s, opened T = some s ∧ ∀ got, Gets s got → got.rank < key.rank
  prepares : op.prepares = true → ∃ s, opened T = some s ∧ Unwritten s
  changes : ∀ id, op.changes? = some id → ∃ s t, opened T = some s ∧ Sees s t ∧ t.id = id
  ends : op.ends = true → ∃ s, opened T = some s

end Op

def discipline : Protocol ops where
  honest op reply := (Event.mk op reply).IsHonest
  allowed := Op.Allowed

/-- What a holder may count on. -/
structure Holds (b : Board) (h : Holder) (T : History ops) : Prop where
  tx : ∀ s, opened T = some s → b.transaction? h = some (writes s)
  owns : ∀ s key, opened T = some s → Gets s key → b.locks.owner? key = some h
  rows : ∀ s t, opened T = some s → Undeleted s → Sees s t → b.rows.find? t.id = some t

/-- Nothing that a holder counts on is taken from it. -/
structure Frame (b b' : Board) (h : Holder) : Prop where
  tx : b'.transaction? h = b.transaction? h
  owns : ∀ key, b.locks.owner? key = some h → b'.locks.owner? key = some h
  rows : ∀ id t, b.locks.owner? (.row id) = some h → b.rows.find? id = some t → b'.rows.find? id = some t

variable {b b' : Board} {h h' : Holder} {e : Event ops} {s T : History ops} {key : LockKey} {t : Task}

theorem opened_start (hs : e.op.starts = true) : opened (e :: T) = some [] :=
  since_start hs

theorem opened_end (hs : e.op.starts = false) (he : e.op.ends = true) : opened (e :: T) = none :=
  since_end hs he

theorem opened_cons (hs : e.op.starts = false) (he : e.op.ends = false) :
    opened (e :: T) = (opened T).map (e :: ·) := by
  unfold opened
  simp [since, hs, he]

theorem gets_cons : Gets (e :: s) key ↔ e.gets? = some key ∨ Gets s key := by
  simp [Gets]

theorem sees_cons : Sees (e :: s) t ↔ e.sees? = some t ∨ Sees s t := by
  simp [Sees]

theorem undeleted_cons : Undeleted (e :: s) ↔ e.deletes? = none ∧ Undeleted s := by
  simp [Undeleted]

theorem unwritten_cons : Unwritten (e :: s) ↔ e.writes? = none ∧ Unwritten s := by
  simp [Unwritten]

theorem writes_of_none (he : e.writes? = none) : writes (e :: s) = writes s := by
  simp only [writes, he]

theorem writes_of_unwritten (hs : Unwritten s) : writes s = {} := by
  induction s with
  | nil => rfl
  | cons e s ih =>
    rw [unwritten_cons] at hs
    rw [writes_of_none hs.1]
    exact ih hs.2

theorem Sees.gets (hl : Lawful discipline T) (hs : opened T = some s) (ht : Sees s t) : Gets s (.row t.id) := by
  obtain ⟨e, he, hsees⟩ := ht
  have hhonest : e.IsHonest := hl.honest_of_mem (mem_of_since hs he)
  exact ⟨e, he, hhonest.sees t hsees⟩

theorem sees_of_changes (hl : Lawful discipline T) (hs : opened T = some s) (he : e ∈ s) {id : TaskId}
    (hid : e.op.changes? = some id) :
    ∃ t, Sees s t ∧ t.id = id := by
  obtain ⟨e₀, older, hT, hstart⟩ := since_eq_append hs
  obtain ⟨newer, rest, rfl⟩ := List.append_of_mem he
  have hT' : T = newer ++ e :: (rest ++ e₀ :: older) := by simp [hT]
  rw [hT'] at hl
  obtain ⟨s', t, hs', ⟨e', he', ht⟩, htid⟩ := (show Op.Allowed _ _ from hl.allowed).changes id hid
  have hrest : opened (rest ++ e₀ :: older) = some rest := by
    apply since_of_append (newer ++ [e])
    rw [hT'] at hs
    simpa [opened] using hs
  rw [hrest] at hs'
  cases hs'
  exact ⟨t, ⟨e', by simp [he'], ht⟩, htid⟩

theorem changes?_of_writes {w : StagedWrite} (he : e.writes? = some w) : e.op.changes? = some w.id := by
  unfold Event.writes? at he
  split at he
  . cases he
    rfl
  . cases he

theorem mem_writes {w : StagedWrite} (hw : w ∈ (writes s).writes) : ∃ e ∈ s, e.writes? = some w := by
  induction s with
  | nil => simp [writes] at hw
  | cons e s ih =>
    unfold writes at hw
    split at hw
    . next w' he =>
      unfold Transaction.stage at hw
      rcases List.mem_cons.1 hw with rfl | hw
      . exact ⟨e, List.mem_cons_self, he⟩
      . obtain ⟨e', he', hw'⟩ := ih (List.mem_filter.1 hw).1
        exact ⟨e', List.mem_cons_of_mem _ he', hw'⟩
    . obtain ⟨e', he', hw'⟩ := ih hw
      exact ⟨e', List.mem_cons_of_mem _ he', hw'⟩

theorem transaction?_release : (b.release h').transaction? h = if h = h' then none else b.transaction? h := by
  by_cases hh : h = h'
  . subst hh
    simp only [if_true]
    unfold transaction? release closed
    rw [List.lookup_eq_none_iff]
    intro p hp
    have := (List.mem_filter.1 hp).2
    simp only [ne_eq, decide_not, Bool.not_eq_true', decide_eq_false_iff_not] at this
    simpa using Ne.symm this
  . have := b.transaction?_withTransaction h' h {}
    simp only [hh, if_false] at this ⊢
    rw [← this]
    unfold transaction? withTransaction release
    simp [List.lookup_cons, beq_false_of_ne hh]

theorem Frame.refl : Frame b b h :=
  ⟨rfl, fun _ ho => ho, fun _ _ _ ht => ht⟩

theorem Frame.trans {b'' : Board} (hf : Frame b b' h) (hf' : Frame b' b'' h) : Frame b b'' h where
  tx := hf'.tx.trans hf.tx
  owns key ho := hf'.owns key (hf.owns key ho)
  rows id t ho ht := hf'.rows id t (hf.owns _ ho) (hf.rows id t ho ht)

theorem Holds.frame (hf : Frame b b' h) (hl : Lawful discipline T) (hb : Holds b h T) : Holds b' h T where
  tx s hs := hf.tx.trans (hb.tx s hs)
  owns s key hs hgets := hf.owns key (hb.owns s key hs hgets)
  rows s t hs hun hsees := hf.rows t.id t (hb.owns s _ hs (hsees.gets hl hs)) (hb.rows s t hs hun hsees)

theorem frame_release (hk : b.locks.Keyed) (hh : h ≠ h') : Frame b (b.release h') h where
  tx := by
    rw [transaction?_release]
    simp [hh]
  owns key ho := by
    unfold release
    rw [LockTable.owner?_releaseAll hk]
    simp [ho, hh]
  rows _ _ _ ht := ht

theorem frame_withTransaction {tx : Transaction} (hh : h ≠ h') : Frame b (b.withTransaction h' tx) h where
  tx := by
    rw [transaction?_withTransaction]
    simp [hh]
  owns _ ho := ho
  rows _ _ _ ht := ht

theorem frame_rows {rows : Rows}
    (hrows : ∀ id t, b.locks.owner? (.row id) = some h → b.rows.find? id = some t → rows.find? id = some t) :
    Frame b { b with rows } h where
  tx := rfl
  owns _ ho := ho
  rows := hrows

theorem Holds.owns_changed (hb : Holds b h T) (hl : Lawful discipline T) (hs : opened T = some s) (he : e ∈ s)
    {id : TaskId} (hid : e.op.changes? = some id) : b.locks.owner? (.row id) = some h := by
  obtain ⟨t, ht, rfl⟩ := sees_of_changes hl hs he hid
  exact hb.owns s _ hs (ht.gets hl hs)

theorem Holds.owns_written (hb : Holds b h T) (hl : Lawful discipline T) (hs : opened T = some s) {w : StagedWrite}
    (hw : w ∈ (writes s).writes) : b.locks.owner? (.row w.id) = some h := by
  obtain ⟨e, he, hew⟩ := mem_writes hw
  exact hb.owns_changed hl hs he (changes?_of_writes hew)

theorem find?_commit {tx : Transaction} (htx : b.transaction? h = some tx) {id : TaskId}
    (hid : ∀ w ∈ tx.writes, w.id ≠ id) : (b.commit h).rows.find? id = b.rows.find? id := by
  show (b.view h).find? id = _
  unfold view
  rw [htx]
  dsimp only
  unfold Transaction.view
  rw [Rows.find?_map]
  cases ht : b.rows.find? id with
  | none => rfl
  | some t =>
    have hnone : tx.write? t.id = none := by
      unfold Transaction.write?
      rw [List.find?_eq_none]
      intro w hw
      rw [(Rows.find?_eq_some.1 ht).2]
      simpa using hid w hw
    simp [Transaction.overlay, hnone]

theorem find?_delete {id other : TaskId} {time : Timestamp} (hid : other ≠ id) :
    (b.delete id time).rows.find? other = b.rows.find? other := by
  unfold delete
  dsimp only
  rw [Rows.find?_map]
  cases ht : b.rows.find? other with
  | none => rfl
  | some t =>
    have := (Rows.find?_eq_some.1 ht).2
    simp [this, hid]

theorem frame_visits {key? : Option LockKey} {locks : LockTable} (hv : b.locks.Visits h' key? locks) {audit : AuditTrail} :
    Frame b { b with locks, audit } h where
  tx := rfl
  owns key ho := (hv.owner key).trans ho
  rows _ _ _ ht := ht

theorem frame_tryAcquire (hfree : ((b.locks.asked h').tryAcquire h' key).1 = true) :
    Frame b { b with locks := ((b.locks.asked h').tryAcquire h' key).2 } h := by
  constructor
  . rfl
  . intro key' ho
    dsimp only
    rw [LockTable.owner?_tryAcquire hfree]
    split
    . next hkey =>
      subst hkey
      rw [LockTable.tryAcquire_fst.1 hfree h ho]
    . exact ho
  . intro _ _ _ ht
    exact ht

/-- What another holder does according to the discipline is a frame. -/
theorem Change.frame (hc : Change b h' e b') (hh : h ≠ h') (hk : b.locks.Keyed) (hl : Lawful discipline (e :: T))
    (hb : Holds b h' T) : Frame b b' h := by
  cases hc with
  | none _ _ _ hlocks => exact frame_visits (LockTable.visits_of_eq hlocks)
  | inserts he hrows =>
    apply frame_rows
    intro id t _ ht
    exact Rows.find?_insert hrows ht
  | starts he => exact (frame_release hk hh).trans (frame_withTransaction hh)
  | gets hgets hsees htx hfree => exact frame_tryAcquire hfree
  | writes he htx hrow => exact frame_withTransaction hh
  | deletes he =>
    subst he
    apply frame_rows
    intro id' t ho ht
    obtain ⟨s, row, hs, hsees, hid⟩ := hl.1.1.changes _ rfl
    have hown := hb.owns s _ hs (hsees.gets hl.2 hs)
    -- a row of this holder is not the one that is deleted, which belongs to the other
    have hne : id' ≠ row.id := by
      rintro rfl
      rw [ho] at hown
      exact hh (Option.some.inj hown)
    rw [← hid]
    exact (find?_delete hne).trans ht
  | commits he =>
    subst he
    obtain ⟨s, hs⟩ := hl.1.1.ends rfl
    -- the rows that the other holder writes belong to it
    have hview : Frame b { b with rows := b.view h' } h := by
      apply frame_rows
      intro id t ho ht
      have hid : ∀ w ∈ (Board.writes s).writes, w.id ≠ id := by
        rintro w hw rfl
        have hown := hb.owns_written hl.2 hs hw
        rw [ho] at hown
        exact hh (Option.some.inj hown)
      exact (find?_commit (hb.tx s hs) hid).trans ht
    exact hview.trans (frame_release hk hh)
  | releases he => exact frame_release hk hh

theorem opened_cons_eq_some (hs : e.op.starts = false) (he : e.op.ends = false) :
    opened (e :: T) = some s ↔ ∃ s', opened T = some s' ∧ e :: s' = s := by
  rw [opened_cons hs he, Option.map_eq_some_iff]

theorem opened_push (hs : e.op.starts = false) (he : e.op.ends = false) (hT : opened T = some s) :
    opened (e :: T) = some (e :: s) :=
  since_cons hs he hT

theorem opened_eq_cons (h : opened T = some (e :: s)) :
    ∃ T', T = e :: T' ∧ e.op.starts = false ∧ e.op.ends = false ∧ opened T' = some s := by
  cases T with
  | nil => cases h
  | cons e' T =>
    cases hstarts : e'.op.starts with
    | true =>
      rw [opened_start hstarts] at h
      cases h
    | false =>
      cases hends : e'.op.ends with
      | true =>
        rw [opened_end hstarts hends] at h
        cases h
      | false =>
        obtain ⟨s', hs', heq⟩ := (opened_cons_eq_some hstarts hends).1 h
        cases heq
        exact ⟨T, rfl, hstarts, hends, hs'⟩

theorem Holds.owns_cons (hb : Holds b h T) (hs : e.op.starts = false) (he : e.op.ends = false)
    (hgets : ∀ key, e.gets? = some key → b.locks.owner? key = some h) {key : LockKey} (hopen : opened (e :: T) = some s)
    (hget : Gets s key) : b.locks.owner? key = some h := by
  obtain ⟨s', hs', rfl⟩ := (opened_cons_eq_some hs he).1 hopen
  rcases gets_cons.1 hget with hget | hget
  . exact hgets key hget
  . exact hb.owns s' key hs' hget

theorem Holds.rows_cons (hb : Holds b h T) (hs : e.op.starts = false) (he : e.op.ends = false)
    (hsees : ∀ t, e.sees? = some t → b.rows.find? t.id = some t) {t : Task} (hopen : opened (e :: T) = some s)
    (hun : Undeleted s) (hsee : Sees s t) : b.rows.find? t.id = some t := by
  obtain ⟨s', hs', rfl⟩ := (opened_cons_eq_some hs he).1 hopen
  rcases sees_cons.1 hsee with hsee | hsee
  . exact hsees t hsee
  . exact hb.rows s' t hs' (undeleted_cons.1 hun).2 hsee

theorem Holds.cons (hb : Holds b h T) (hs : e.op.starts = false) (he : e.op.ends = false) (hw : e.writes? = none)
    (hgets : ∀ key, e.gets? = some key → b.locks.owner? key = some h)
    (hsees : ∀ t, e.sees? = some t → b.rows.find? t.id = some t) : Holds b h (e :: T) := by
  constructor
  . intro s hopen
    obtain ⟨s', hs', rfl⟩ := (opened_cons_eq_some hs he).1 hopen
    rw [writes_of_none hw]
    exact hb.tx s' hs'
  . exact fun _ _ => hb.owns_cons hs he hgets
  . exact fun _ _ => hb.rows_cons hs he hsees

theorem holds_of_opened_none (hT : opened T = none) : Holds b h T := by
  constructor <;> simp [hT]

theorem holds_of_start : Holds ((b.release h).withTransaction h {}) h (⟨.action .start, ()⟩ :: T) := by
  have hopen : opened (⟨.action .start, ()⟩ :: T) = some [] := opened_start rfl
  constructor
  . intro s hs
    rw [hopen] at hs
    cases hs
    rw [transaction?_withTransaction]
    simp [Board.writes]
  . intro s key hs hget
    rw [hopen] at hs
    cases hs
    simp [Gets] at hget
  . intro s t hs _ hsee
    rw [hopen] at hs
    cases hs
    simp [Sees] at hsee

theorem boundary_of_gets (he : e.gets? = some key) : e.op.starts = false ∧ e.op.ends = false ∧ e.writes? = none := by
  unfold Event.gets? at he
  split at he
  . exact ⟨rfl, rfl, rfl⟩
  . exact ⟨rfl, rfl, rfl⟩
  . exact ⟨rfl, rfl, rfl⟩
  . exact ⟨rfl, rfl, rfl⟩
  . cases he

theorem prepares_of_sees (he : e.sees? = some t) : e.op.prepares = true := by
  unfold Event.sees? at he
  split at he
  . rfl
  . rfl
  . cases he

theorem Change.holds (hc : Change b h e b') (hl : Lawful discipline (e :: T))
    (hb : Holds b h T) : Holds b' h (e :: T) := by
  cases hc with
  | none he _ audit hlocks =>
    apply Holds.cons _ he.starts he.ends he.writes
    . simp [he.gets]
    . simp [he.sees]
    . exact hb.frame (frame_visits (LockTable.visits_of_eq hlocks)) hl.2
  | inserts he hrows =>
    subst he
    apply Holds.cons _ rfl rfl rfl
    . simp [Event.gets?]
    . simp [Event.sees?]
    . apply hb.frame _ hl.2
      apply frame_rows
      intro id t _ ht
      exact Rows.find?_insert hrows ht
  | starts he =>
    subst he
    exact holds_of_start
  | gets hgets hsees htx hfree =>
    obtain ⟨hs, he, hw⟩ := boundary_of_gets hgets
    apply Holds.cons _ hs he hw
    . intro key' hget
      rw [hgets] at hget
      cases hget
      dsimp only
      rw [LockTable.owner?_tryAcquire hfree]
      simp
    . intro t hsee
      obtain ⟨s, hopen, hun⟩ := hl.1.1.prepares (prepares_of_sees hsee)
      have hrow := (hsees t hsee).2
      rwa [view_of_writes_nil (hb.tx s hopen) (by rw [writes_of_unwritten hun])] at hrow
    . exact hb.frame (frame_tryAcquire hfree) hl.2
  | writes he htx hrow =>
    subst he
    constructor
    . intro s hopen
      obtain ⟨s', hs', rfl⟩ := (opened_cons_eq_some rfl rfl).1 hopen
      have htx' := hb.tx s' hs'
      rw [htx] at htx'
      cases htx'
      rw [transaction?_withTransaction]
      simp [Board.writes, Event.writes?]
    . exact fun _ _ => hb.owns_cons rfl rfl (by simp [Event.gets?])
    . exact fun _ _ => hb.rows_cons rfl rfl (by simp [Event.sees?])
  | deletes he =>
    subst he
    constructor
    . intro s hopen
      obtain ⟨s', hs', rfl⟩ := (opened_cons_eq_some rfl rfl).1 hopen
      exact hb.tx s' hs'
    . exact fun _ _ => hb.owns_cons rfl rfl (by simp [Event.gets?])
    . -- after a deletion nothing is known of the rows any longer
      intro s t hopen hun hsee
      obtain ⟨s', hs', rfl⟩ := (opened_cons_eq_some rfl rfl).1 hopen
      exact absurd (undeleted_cons.1 hun).1 (by simp [Event.deletes?])
  | commits he =>
    subst he
    exact holds_of_opened_none (opened_end rfl rfl)
  | releases he =>
    subst he
    exact holds_of_opened_none (opened_end rfl rfl)

theorem Change.keyed (hc : Change b h e b') (hk : b.locks.Keyed) : b'.locks.Keyed := by
  cases hc with
  | none _ _ _ hlocks => exact (LockTable.visits_of_eq hlocks).keyed hk
  | inserts | writes | deletes => exact hk
  | gets => exact LockTable.keyed_tryAcquire (t := b.locks.asked h) hk
  | starts | commits | releases => exact LockTable.keyed_releaseAll hk

theorem isHonest_of_quiet (he : e.IsQuiet) (hlists : e.lists? = none) : e.IsHonest where
  sees := by simp [he.sees]
  lists := by simp [hlists]

theorem act_isHonest {a : Action} {reply : a.Reply} (ha : b.act h a = .replied reply b') :
    (Event.mk (I := ops) (.action a) reply).IsHonest := by
  constructor
  . intro t ht
    cases act_change ha with
    | none he => simp [he.sees] at ht
    | gets hgets hsees => rw [hgets, (hsees t ht).1]
    | inserts he | starts he | writes he | deletes he | commits he | releases he =>
      rw [he] at ht
      cases ht
  . intro ids hids
    cases a with
    | laneIds =>
      cases ha
      cases hids
      exact Rows.pairwise_laneIds
    | _ => cases hids

theorem Blocking.isHonest (hb : Blocking b h e key b') : e.IsHonest := by
  apply isHonest_of_quiet hb.quiet
  have hawaits := hb.awaits
  unfold Event.lists?
  split
  . cases hawaits
  . rfl

theorem frame_leave : Frame b (b.leave h' key) h where
  tx := rfl
  owns key ho := by
    unfold leave
    rw [LockTable.owner?_leave]
    exact ho
  rows _ _ _ ht := ht

theorem frame_blocking (hb : Blocking b h' e key b') : Frame b b' h := by
  rw [hb.board]
  constructor
  . rfl
  . intro key' ho
    dsimp only
    rw [LockTable.owner?_enqueue]
    exact ho
  . intro _ _ _ ht
    exact ht

theorem holds_quiet (he : e.IsQuiet) (hb : Holds b h T) : Holds b h (e :: T) := by
  apply hb.cons he.starts he.ends he.writes
  . simp [he.gets]
  . simp [he.sees]

inductive Happens (h : Holder) (b : Board) : Event ops → Board → Prop where
  | answered (c : AmbientCall) (reply : c.Reply) : Happens h b ⟨.ambient c, reply⟩ b
  | acts {b' : Board} {a : Action} {reply : a.Reply} (ha : b.act h a = .replied reply b') :
    Happens h b ⟨.action a, reply⟩ b'
  | givesUp {b' : Board} {a : Action} {key : LockKey} {refusal : a.Reply} (ha : b.act h a = .blocked key refusal b') :
    Happens h b ⟨.action a, refusal⟩ (b'.leave h key)

theorem isQuiet_ambient (c : AmbientCall) (reply : c.Reply) : (Event.mk (I := ops) (.ambient c) reply).IsQuiet := by
  constructor <;> rfl

theorem Happens.isHonest (he : Happens h b e b') : e.IsHonest := by
  cases he with
  | answered c reply => exact isHonest_of_quiet (isQuiet_ambient c reply) rfl
  | acts ha => exact act_isHonest ha
  | givesUp ha => exact (act_blocking ha).isHonest

theorem Happens.holds (he : Happens h b e b') (hl : Lawful discipline (e :: T)) (hb : Holds b h T) :
    Holds b' h (e :: T) := by
  cases he with
  | answered c reply => exact holds_quiet (isQuiet_ambient c reply) hb
  | acts ha => exact (act_change ha).holds hl hb
  | givesUp ha =>
    have hblocking := act_blocking ha
    apply holds_quiet hblocking.quiet
    exact hb.frame ((frame_blocking hblocking).trans frame_leave) hl.2

theorem undeleted_of_lawful {P : Protocol ops} (hP : ∀ T id time, ¬ P.allowed T (.action (.delete id time)))
    (hT : Lawful P T) (hs : opened T = some s) : Undeleted s := by
  intro e he
  cases hd : e.deletes? with
  | none => rfl
  | some d =>
    exfalso
    obtain ⟨op, reply⟩ := e
    unfold Event.deletes? at hd
    split at hd
    . next id time _ heq =>
      obtain ⟨newer, older, rfl⟩ := List.append_of_mem (mem_of_since hs he)
      cases heq
      exact hP _ _ _ hT.allowed
    . cases hd

end Board

end LaneOrder
