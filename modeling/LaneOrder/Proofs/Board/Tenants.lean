import LaneOrder.Proofs.Board.Discipline

/-!
This module contains the rows of a board that belong to one workspace, and those that do not. What is read from a
workspace depends on its own rows only, and a holder that has a board to itself is never refused a lock.
-/

namespace LaneOrder

open Program

namespace Rows

variable {r r' : Rows} {t : Task} {id : TaskId} {workspace : WorkspaceId} {lane : Lane}

/-- The rows of a workspace. The order that rows are kept in means nothing: boards that have the same rows of a workspace
may be taken to keep them in the same order. -/
def of (r : Rows) (workspace : WorkspaceId) : List Task :=
  r.tasks.filter (·.workspace = workspace)

def besides (r : Rows) (workspace : WorkspaceId) : List Task :=
  r.tasks.filter (·.workspace ≠ workspace)

theorem mem_of : t ∈ r.of workspace ↔ t ∈ r.tasks ∧ t.workspace = workspace := by
  simp [of]

theorem mem_besides : t ∈ r.besides workspace ↔ t ∈ r.tasks ∧ t.workspace ≠ workspace := by
  simp [besides]

section Reads

variable (h : r.of workspace = r'.of workspace)

include h

theorem lane_agree : r.lane workspace lane = r'.lane workspace lane := by
  have hof : ∀ r : Rows, r.lane workspace lane = (r.of workspace).filter (·.isInLane workspace lane) := by
    intro r
    unfold Rows.lane of
    rw [List.filter_filter]
    apply List.filter_congr
    intro t _
    cases hin : t.isInLane workspace lane with
    | false => simp
    | true => simp [(Task.isInLane_iff.1 hin).2.1]
  rw [hof, hof, h]

theorem list_agree : r.list workspace lane = r'.list workspace lane := by
  unfold list
  rw [lane_agree h]

theorem greatest_agree : r.greatest workspace lane = r'.greatest workspace lane := by
  unfold greatest
  rw [lane_agree h]

theorem laneIds_agree : r.laneIds workspace lane = r'.laneIds workspace lane := by
  unfold laneIds
  rw [lane_agree h]

theorem adjacent?_agree {pivot : Position} {direction : Direction} :
    r.adjacent? workspace lane pivot direction id = r'.adjacent? workspace lane pivot direction id := by
  unfold adjacent?
  rw [lane_agree h]

/-- A row is looked for by its identifier alone, but it is not wanted unless it belongs to the workspace. -/
theorem filter_find?_agree {wanted : Task → Bool} (hwanted : ∀ t, wanted t = true → t.workspace = workspace) :
    (r.find? id).filter wanted = (r'.find? id).filter wanted := by
  have hmem : ∀ t, wanted t = true → (t ∈ r.tasks ↔ t ∈ r'.tasks) := by
    intro t ht
    have hof : t ∈ r.of workspace ↔ t ∈ r'.of workspace := by rw [h]
    simpa [mem_of, hwanted t ht] using hof
  ext t
  simp only [Option.filter_eq_some_iff, find?_eq_some]
  constructor
  . rintro ⟨⟨hr, hid⟩, ht⟩
    exact ⟨⟨(hmem t ht).1 hr, hid⟩, ht⟩
  . rintro ⟨⟨hr, hid⟩, ht⟩
    exact ⟨⟨(hmem t ht).2 hr, hid⟩, ht⟩

theorem findIn?_agree : r.findIn? workspace id = r'.findIn? workspace id :=
  filter_find?_agree h fun _ ht => (Task.isIn_iff.1 ht).2

end Reads

section Map

variable {f : Task → Task} (hf : ∀ t, (f t).id = t.id)

theorem of_map (hw : ∀ t, (f t).workspace = t.workspace) : (r.map f hf).of workspace = (r.of workspace).map f := by
  unfold of map
  rw [List.filter_map]
  congr 1
  apply List.filter_congr
  intro t _
  simp [hw]

theorem besides_map (hw : ∀ t, (f t).workspace = t.workspace) (hfix : ∀ t ∈ r.besides workspace, f t = t) :
    (r.map f hf).besides workspace = r.besides workspace := by
  unfold besides map
  rw [List.filter_map]
  have hsame : r.tasks.filter ((fun t => decide (t.workspace ≠ workspace)) ∘ f) = r.besides workspace := by
    apply List.filter_congr
    intro t _
    simp [hw]
  rw [hsame]
  rw [List.map_congr_left (g := id) hfix, List.map_id]
  rfl

end Map

/-- A row of the workspace is inserted, unless one of the workspace has its identifier. -/
theorem insert?_agree (h : r.of workspace = r'.of workspace)
    (hr : ∀ u ∈ r.besides workspace, u.id ≠ t.id) (hr' : ∀ u ∈ r'.besides workspace, u.id ≠ t.id) :
    r.insert? t = none ∧ r'.insert? t = none ∨ ∃ rows rows', r.insert? t = some rows ∧ r'.insert? t = some rows'
      ∧ rows.tasks = r.tasks ++ [t] ∧ rows'.tasks = r'.tasks ++ [t] := by
  have hids : ∀ r : Rows, (∀ u ∈ r.besides workspace, u.id ≠ t.id) →
      (t.id ∈ r.tasks.map (·.id) ↔ ∃ u ∈ r.of workspace, u.id = t.id) := by
    intro r hr
    rw [List.mem_map]
    constructor
    . rintro ⟨u, hu, hid⟩
      by_cases hw : u.workspace = workspace
      . exact ⟨u, mem_of.2 ⟨hu, hw⟩, hid⟩
      . exact absurd hid (hr u (mem_besides.2 ⟨hu, hw⟩))
    . rintro ⟨u, hu, hid⟩
      exact ⟨u, (mem_of.1 hu).1, hid⟩
  unfold insert?
  by_cases hid : t.id ∈ r.tasks.map (·.id)
  . have hid' : t.id ∈ r'.tasks.map (·.id) := by rwa [hids r' hr', ← h, ← hids r hr]
    exact .inl ⟨dif_pos hid, dif_pos hid'⟩
  . have hid' : t.id ∉ r'.tasks.map (·.id) := by rwa [hids r' hr', ← h, ← hids r hr]
    exact .inr ⟨_, _, dif_neg hid, dif_neg hid', rfl, rfl⟩

theorem of_append (hr' : r'.tasks = r.tasks ++ [t]) (ht : t.workspace = workspace) :
    r'.of workspace = r.of workspace ++ [t] := by
  unfold of
  rw [hr', List.filter_append]
  simp [ht]

theorem besides_append (hr' : r'.tasks = r.tasks ++ [t]) (ht : t.workspace = workspace) :
    r'.besides workspace = r.besides workspace := by
  unfold besides
  rw [hr', List.filter_append]
  simp [ht]

/-- Whether there is a row of a workspace with an identifier. -/
def Has (r : Rows) (workspace : WorkspaceId) (id : TaskId) : Prop :=
  ∃ t ∈ r.of workspace, t.id = id

theorem has_of_mem_lane (h : t ∈ r.lane workspace lane) : r.Has workspace t.id := by
  obtain ⟨ht, hin⟩ := mem_lane.1 h
  exact ⟨t, mem_of.2 ⟨ht, (Task.isInLane_iff.1 hin).2.1⟩, rfl⟩

theorem has_of_adjacent {pivot : Position} {direction : Direction} {n : Neighbor}
    (h : r.adjacent? workspace lane pivot direction id = some n) : r.Has workspace n.id := by
  have hrow : ∃ u ∈ r.lane workspace lane, u.toNeighbor = n := by
    cases direction with
    | above =>
      obtain ⟨⟨u, hu, _, _, hn⟩, _⟩ := adjacent?_above h
      exact ⟨u, hu, hn⟩
    | below =>
      obtain ⟨⟨u, hu, _, _, hn⟩, _⟩ := adjacent?_below h
      exact ⟨u, hu, hn⟩
  obtain ⟨u, hu, rfl⟩ := hrow
  exact has_of_mem_lane hu

theorem has_of_mem_laneIds (h : id ∈ r.laneIds workspace lane) : r.Has workspace id := by
  obtain ⟨u, hu, rfl⟩ := mem_laneIds.1 h
  exact has_of_mem_lane hu

theorem Has.eq {workspace' : WorkspaceId} (h : r.Has workspace id) (h' : r.Has workspace' id) :
    workspace = workspace' := by
  obtain ⟨a, ha, rfl⟩ := h
  obtain ⟨b, hb, hid⟩ := h'
  rw [← (mem_of.1 ha).2, ← (mem_of.1 hb).2, eq_of_id_eq (mem_of.1 ha).1 (mem_of.1 hb).1 hid.symm]

theorem Has.map (h : r.Has workspace id) {f : Task → Task} {hf : ∀ t, (f t).id = t.id}
    (hw : ∀ t, (f t).workspace = t.workspace) : (r.map f hf).Has workspace id := by
  obtain ⟨u, hu, rfl⟩ := h
  refine ⟨f u, ?_, hf u⟩
  rw [of_map hf hw]
  exact List.mem_map_of_mem hu

theorem Has.insert (h : r.Has workspace id) (hinsert : r.insert? t = some r') : r'.Has workspace id := by
  obtain ⟨u, hu, hid⟩ := h
  obtain ⟨hu, hw⟩ := mem_of.1 hu
  refine ⟨u, mem_of.2 ⟨?_, hw⟩, hid⟩
  rw [(insert?_eq_some hinsert).1]
  exact List.mem_append_left _ hu

end Rows

theorem Board.overlay_workspace (tx : Transaction) (t : Task) : (tx.overlay t).workspace = t.workspace := by
  unfold Transaction.overlay
  split <;> rfl

namespace LockTable

variable {t : LockTable} {h : Holder} {key : LockKey}

structure OwnedBy (t : LockTable) (h : Holder) : Prop where
  entries : ∀ e ∈ t.entries, e.owner = some h ∧ e.queue = []
  visitor : ∀ other, t.visitor = some other → other = h
  requests : ∀ x ∈ t.requests, x.1 = h

theorem ownedBy_empty : OwnedBy {} h := by
  constructor <;> simp

theorem OwnedBy.free (ht : t.OwnedBy h) : (t.tryAcquire h key).1 = true := by
  rw [tryAcquire_fst]
  intro holder howner
  obtain ⟨e, he, howner⟩ := Option.bind_eq_some_iff.1 howner
  have := (ht.entries e (List.mem_of_find?_eq_some he)).1
  rw [howner] at this
  exact Option.some.inj this

theorem OwnedBy.asked_eq (ht : t.OwnedBy h) : t.asked h = { entries := t.entries } := by
  unfold asked
  congr 1
  . rw [Option.filter_eq_none_iff]
    intro other hother
    simp [ht.visitor other hother]
  . rw [List.filter_eq_nil_iff]
    intro x hx
    simp [ht.requests x hx]

theorem OwnedBy.asked (ht : t.OwnedBy h) : (t.asked h).OwnedBy h := by
  rw [ht.asked_eq]
  exact ⟨ht.entries, by simp, by simp⟩

theorem OwnedBy.tryAcquire (ht : t.OwnedBy h) : (t.tryAcquire h key).2.OwnedBy h := by
  unfold LockTable.tryAcquire
  split
  . refine ⟨?_, ht.visitor, ht.requests⟩
    intro e he
    rcases List.mem_append.1 he with he | he
    . exact ht.entries e he
    . cases List.mem_singleton.1 he
      exact ⟨rfl, rfl⟩
  . split
    . refine ⟨?_, ht.visitor, ht.requests⟩
      intro e he
      obtain ⟨e₀, he₀, rfl⟩ := List.mem_map.1 he
      split
      . exact ⟨rfl, (ht.entries e₀ he₀).2⟩
      . exact ht.entries e₀ he₀
    . exact ht

theorem OwnedBy.releaseAll (ht : t.OwnedBy h) : t.releaseAll h true = {} := by
  unfold LockTable.releaseAll giveBack prune
  rw [if_pos rfl, ht.asked_eq]
  simp only [Option.isSome_none, Bool.false_eq_true, if_false]
  congr 1
  apply List.filter_eq_nil_iff.2
  intro e he
  obtain ⟨e₀, he₀, rfl⟩ := List.mem_map.1 he
  obtain ⟨howner, hqueue⟩ := ht.entries e₀ he₀
  simp [references, release_owner, release_queue, howner, hqueue]

end LockTable

namespace Board

/-- Nobody has opened a transaction, or locks or looks up something. -/
structure AtRest (b : Board) : Prop where
  locks : b.locks = {}
  transactions : b.transactions = []

/-- Nobody else has opened a transaction or locks something, and whoever locks something has opened a transaction. -/
structure BelongsTo (b : Board) (h : Holder) : Prop where
  locks : b.locks.OwnedBy h
  transactions : ∀ p ∈ b.transactions, p.1 = h
  opened : b.transaction? h = none → b.locks = {}

variable {b b' : Board} {h : Holder} {key : LockKey} {e : Event ops}

theorem AtRest.belongsTo (hb : b.AtRest) : b.BelongsTo h where
  locks := by
    rw [hb.locks]
    exact LockTable.ownedBy_empty
  transactions p hp := by
    rw [hb.transactions] at hp
    cases hp
  opened _ := hb.locks

theorem belongsTo_withTransaction {tx : Transaction} (hlocks : b.locks.OwnedBy h)
    (htransactions : ∀ p ∈ b.transactions, p.1 = h) : (b.withTransaction h tx).BelongsTo h where
  locks := hlocks
  transactions p hp := by
    rcases List.mem_cons.1 hp with rfl | hp
    . rfl
    . exact htransactions p (List.mem_filter.1 hp).1
  opened hnone := by simp at hnone

theorem BelongsTo.locks_release (hb : b.BelongsTo h) : (b.release h).locks = {} := by
  unfold Board.release
  dsimp only
  cases htx : b.transaction? h with
  | none =>
    rw [hb.opened htx]
    rfl
  | some tx => exact hb.locks.releaseAll

theorem BelongsTo.release (hb : b.BelongsTo h) : (b.release h).BelongsTo h where
  locks := by
    rw [hb.locks_release]
    exact LockTable.ownedBy_empty
  transactions p hp := hb.transactions p (List.mem_filter.1 hp).1
  opened _ := hb.locks_release

theorem Change.belongsTo (hc : Change b h e b') (hb : b.BelongsTo h) : b'.BelongsTo h := by
  cases hc with
  | none _ _ _ hlocks =>
    rcases hlocks with rfl | rfl
    . exact ⟨hb.locks, hb.transactions, hb.opened⟩
    . refine ⟨hb.locks.asked, hb.transactions, ?_⟩
      intro hnone
      show b.locks.asked h = _
      rw [hb.opened hnone]
      rfl
  | inserts | deletes => exact ⟨hb.locks, hb.transactions, hb.opened⟩
  | starts => exact belongsTo_withTransaction hb.release.locks hb.release.transactions
  | gets _ _ htx =>
    refine ⟨hb.locks.asked.tryAcquire, hb.transactions, ?_⟩
    intro hnone
    exact nomatch htx.symm.trans hnone
  | writes => exact belongsTo_withTransaction hb.locks hb.transactions
  | commits =>
    have hcommitted : BelongsTo { b with rows := b.view h } h := ⟨hb.locks, hb.transactions, hb.opened⟩
    exact hcommitted.release
  | releases => exact hb.release

theorem BelongsTo.not_blocked (hb : b.BelongsTo h) {a : Action} {refusal : a.Reply} :
    b.act h a ≠ .blocked key refusal b' := by
  intro ha
  have hbusy := (act_blocking ha).busy
  rw [hb.locks.asked.free] at hbusy
  cases hbusy

theorem BelongsTo.acquire {α : Type} (hb : b.BelongsTo h) (key : LockKey) (seen : α) : ∃ b', b.acquire h key seen
    = .replied (if (b.transaction? h).isSome then .granted seen else .refused) b' := by
  unfold Board.acquire
  cases b.transaction? h with
  | none => exact ⟨b, rfl⟩
  | some tx =>
    dsimp only
    rw [LockTable.acquire_of_true hb.locks.asked.free]
    exact ⟨_, rfl⟩

theorem BelongsTo.tryAcquire {α : Type} (hb : b.BelongsTo h) (key : LockKey) (seen : α) : ∃ b', b.tryAcquire h key seen
    = .replied (if (b.transaction? h).isSome then .granted seen else .refused) b' := by
  unfold Board.tryAcquire
  cases b.transaction? h with
  | none => exact ⟨b, rfl⟩
  | some tx =>
    have hfree : ((b.locks.asked h).tryAcquire h key).1 = true := hb.locks.asked.free
    cases hlocks : (b.locks.asked h).tryAcquire h key with
    | mk free locks =>
      rw [hlocks] at hfree
      cases hfree
      exact ⟨_, rfl⟩

end Board

end LaneOrder
