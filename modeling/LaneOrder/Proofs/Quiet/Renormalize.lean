import LaneOrder.Proofs.Board.Lists
import LaneOrder.Proofs.Quiet.Elsewhere

/-!
This module contains what a renormalization does that nobody interferes with. It locks its lane in the order of identifiers
and spaces it in the visual order, which are two orders of the same rows.
-/

namespace LaneOrder

open Board Program

variable {α : Type}

namespace Rows

variable {r : Rows} {tx : Transaction} {workspace : WorkspaceId} {lane : Lane} {id : TaskId}

theorem isIn_overlay {t : Task} : (tx.overlay t).isIn workspace = t.isIn workspace := by
  unfold Transaction.overlay
  split <;> rfl

theorem isSome_findIn?_view : ((tx.view r).findIn? workspace id).isSome = (r.findIn? workspace id).isSome := by
  unfold findIn? Transaction.view
  rw [find?_map]
  cases r.find? id with
  | none => rfl
  | some t =>
    rw [Option.map_some, Option.filter_some, Option.filter_some, isIn_overlay]
    split <;> rfl

theorem ids_locked : ((r.laneIds workspace lane).filterMap (r.neighbor? workspace lane)).map (·.id)
    = r.laneIds workspace lane := by
  rw [List.map_filterMap]
  apply (List.filterMap_congr _).trans List.filterMap_some
  intro id hid
  obtain ⟨t, ht, rfl⟩ := mem_laneIds.1 hid
  rw [neighbor?_eq_some.2 ⟨ht, rfl⟩]
  rfl

/-- The rows that are locked in the order of their identifiers are those of the lane. -/
theorem sortBy_locked : sortBy Task.visualLe ((r.laneIds workspace lane).filterMap (r.neighbor? workspace lane))
    = r.list workspace lane := by
  have hnodup : (((r.laneIds workspace lane).filterMap (r.neighbor? workspace lane)).map (·.id)).Nodup := by
    rw [ids_locked]
    apply pairwise_laneIds.imp
    rintro id _ hlt rfl
    exact TaskId.lt_irrefl id hlt
  apply sortBy_eq_of_pairwise hnodup _ pairwise_list
  rw [List.perm_ext_iff_of_nodup hnodup.of_map nodup_list.of_map]
  intro t
  rw [List.mem_filterMap, mem_list, ← mem_lane]
  constructor
  . rintro ⟨id, _, ht⟩
    exact (neighbor?_eq_some.1 ht).1
  . intro ht
    exact ⟨t.id, mem_laneIds.2 ⟨t, ht, rfl⟩, neighbor?_eq_some.2 ⟨ht, rfl⟩⟩

end Rows

namespace Transaction

/-- A transaction has written every row of a lane, with the position that is spaced for its place in the list. -/
structure Spaces (tx : Transaction) (a : Allocator) (rows : Rows) (workspace : WorkspaceId) (lane : Lane) : Prop where
  written : ∀ (i : Nat) (t : Task), (rows.list workspace lane)[i]? = some t →
    ∃ time, tx.write? t.id = some ⟨t.id, a.spaced i, lane, time⟩
  others : ∀ id, id ∉ rows.ids workspace lane → tx.write? id = none

variable {tx tx' : Transaction} {a : Allocator} {rows : Rows} {workspace : WorkspaceId} {lane : Lane} {t : Task} {i : Nat}
  {id : TaskId}

theorem find?_view : (tx.view rows).find? id = (rows.find? id).map tx.overlay :=
  Rows.find?_map

theorem Spaces.overlay (hs : tx.Spaces a rows workspace lane) (ht : (rows.list workspace lane)[i]? = some t) :
    ∃ time, tx.overlay t = t.placed (a.spaced i) lane time := by
  obtain ⟨time, hwrite⟩ := hs.written i t ht
  unfold Transaction.overlay
  rw [hwrite]
  exact ⟨time, rfl⟩

theorem Spaces.overlay_of_not_mem (hs : tx.Spaces a rows workspace lane) (ht : t.id ∉ rows.ids workspace lane) :
    tx.overlay t = t := by
  unfold Transaction.overlay
  rw [hs.others t.id ht]

theorem Spaces.find?_of_ids (hs : tx.Spaces a rows workspace lane) (hid : (rows.ids workspace lane)[i]? = some id) :
    ∃ t time, rows.find? id = some t ∧ t.lane = lane
      ∧ (tx.view rows).find? id = some { t with position := a.spaced i, updatedAt := time } := by
  unfold Rows.ids at hid
  rw [List.getElem?_map, Option.map_eq_some_iff] at hid
  obtain ⟨t, ht, rfl⟩ := hid
  obtain ⟨hmem, hin⟩ := Rows.mem_list.1 (List.mem_of_getElem? ht)
  obtain ⟨time, hoverlay⟩ := hs.overlay ht
  obtain ⟨_, _, rfl⟩ := Task.isInLane_iff.1 hin
  have hrow := Rows.find?_eq_some.2 ⟨hmem, rfl⟩
  refine ⟨t, time, hrow, rfl, ?_⟩
  rw [find?_view, hrow, Option.map_some, hoverlay]
  rfl

theorem Spaces.find?_of_not_mem (hs : tx.Spaces a rows workspace lane) (hid : id ∉ rows.ids workspace lane) :
    (tx.view rows).find? id = rows.find? id := by
  rw [find?_view]
  cases hrow : rows.find? id with
  | none => rfl
  | some t =>
    obtain ⟨_, rfl⟩ := Rows.find?_eq_some.1 hrow
    rw [Option.map_some, hs.overlay_of_not_mem hid]

/-- The rows of the lane stay in it, and no others come. -/
theorem Spaces.isInLane (hs : tx.Spaces a rows workspace lane) (ht : t ∈ rows.tasks) :
    (tx.overlay t).isInLane workspace lane = t.isInLane workspace lane := by
  by_cases hid : t.id ∈ rows.ids workspace lane
  . obtain ⟨u, hu, hid⟩ := List.mem_map.1 hid
    obtain ⟨hmem, hin⟩ := Rows.mem_list.1 hu
    cases Rows.eq_of_id_eq hmem ht hid
    obtain ⟨i, hi⟩ := List.mem_iff_getElem?.1 hu
    obtain ⟨time, hoverlay⟩ := hs.overlay hi
    obtain ⟨hlive, hworkspace, _⟩ := Task.isInLane_iff.1 hin
    rw [hoverlay, hin]
    exact Task.isInLane_iff.2 ⟨hlive, hworkspace, rfl⟩
  . rw [hs.overlay_of_not_mem hid]

/-- If the positions that are spaced rise, the lane keeps its order. -/
theorem Spaces.list (hs : tx.Spaces a rows workspace lane)
    (hrising : ∀ j < (rows.ids workspace lane).length, ∀ i < j, a.spaced i < a.spaced j) :
    (tx.view rows).list workspace lane = (rows.list workspace lane).map tx.overlay := by
  apply Rows.list_eq
  . intro t
    rw [Rows.mem_lane, List.mem_map]
    show t ∈ rows.tasks.map tx.overlay ∧ _ ↔ _
    rw [List.mem_map]
    constructor
    . rintro ⟨⟨u, hu, rfl⟩, hin⟩
      rw [hs.isInLane hu] at hin
      exact ⟨u, Rows.mem_list.2 ⟨hu, hin⟩, rfl⟩
    . rintro ⟨u, hu, rfl⟩
      obtain ⟨hmem, hin⟩ := Rows.mem_list.1 hu
      exact ⟨⟨u, hmem, rfl⟩, by rw [hs.isInLane hmem, hin]⟩
  . rw [List.map_map]
    exact (List.map_congr_left fun t _ => tx.overlay_id t) ▸ Rows.nodup_list
  . rw [List.pairwise_map, List.pairwise_iff_getElem]
    intro i j hi hj hlt
    obtain ⟨time, hoverlay⟩ := hs.overlay (List.getElem?_eq_getElem hi)
    obtain ⟨time', hoverlay'⟩ := hs.overlay (List.getElem?_eq_getElem hj)
    rw [hoverlay, hoverlay']
    apply Task.visualLe_of_rank_lt
    exact (Binary64.lt_iff.1 (hrising j (by simpa [Rows.ids] using hj) i hlt)).2.2

theorem Spaces.ids (hs : tx.Spaces a rows workspace lane)
    (hrising : ∀ j < (rows.ids workspace lane).length, ∀ i < j, a.spaced i < a.spaced j) :
    (tx.view rows).ids workspace lane = rows.ids workspace lane := by
  unfold Rows.ids
  rw [hs.list hrising, List.map_map]
  exact List.map_congr_left fun t _ => tx.overlay_id t

/-- Rows that are spaced once more in the same order stay where they are. -/
theorem Spaces.key? (hs : tx.Spaces a rows workspace lane) (hs' : tx'.Spaces a (tx.view rows) workspace lane)
    (hrising : ∀ j < (rows.ids workspace lane).length, ∀ i < j, a.spaced i < a.spaced j) :
    (tx'.view (tx.view rows)).key? = (tx.view rows).key? := by
  funext id
  unfold Rows.key?
  rw [find?_view, find?_view]
  cases hrow : rows.find? id with
  | none => rfl
  | some t =>
    obtain ⟨hmem, rfl⟩ := Rows.find?_eq_some.1 hrow
    rw [Option.map_some, Option.map_some]
    by_cases hid : t.id ∈ rows.ids workspace lane
    . obtain ⟨u, hu, hid⟩ := List.mem_map.1 hid
      cases Rows.eq_of_id_eq (Rows.mem_list.1 hu).1 hmem hid
      obtain ⟨i, hi⟩ := List.mem_iff_getElem?.1 hu
      have hi' : ((tx.view rows).list workspace lane)[i]? = some (tx.overlay t) := by
        rw [hs.list hrising, List.getElem?_map, hi]
        rfl
      obtain ⟨time, hoverlay⟩ := hs.overlay hi
      obtain ⟨time', hoverlay'⟩ := hs'.overlay hi'
      rw [hoverlay', hoverlay]
      rfl
    . rw [hs'.overlay_of_not_mem]
      rw [hs.ids hrising, overlay_id]
      exact hid

end Transaction

namespace Desk

open Renormalize

variable {s : Supply} {d : Desk} {r : RenormalizeRequest} {lane : Lane} {tasks : List Task} {tx : Transaction}

theorem serve_respace (lane : Lane) (time : Timestamp) (index : Nat) (htx : d.transaction = some tx)
    (hfound : ∀ t ∈ tasks, (d.rows.findIn? r.workspace t.id).isSome = true) (hnodup : (tasks.map (·.id)).Nodup) :
    ∃ tx' readings, serve s (respace r lane time index tasks) d
        = (.ok (tasks.mapIdx fun i t => t.placed (s.allocator.spaced (index + i)) lane time),
          { d with transaction := some tx', readings })
      ∧ (∀ i t, tasks[i]? = some t → ∃ time', tx'.write? t.id = some ⟨t.id, s.allocator.spaced (index + i), lane, time'⟩)
      ∧ ∀ id, id ∉ tasks.map (·.id) → tx'.write? id = tx.write? id := by
  induction tasks generalizing d tx index with
  | nil =>
    refine ⟨tx, d.readings, ?_, by simp, by simp⟩
    rw [← htx]
    rfl
  | cons task tasks ih =>
    obtain ⟨htask, hfound⟩ := List.forall_mem_cons.1 hfound
    rw [List.map_cons, List.nodup_cons] at hnodup
    obtain ⟨hfresh, hnodup⟩ := hnodup
    have hview : d.view = tx.view d.rows := by
      unfold view
      rw [htx]
    obtain ⟨row, hrow⟩ : ∃ row, d.view.findIn? r.workspace task.id = some row := by
      rw [← Option.isSome_iff_exists, hview, Rows.isSome_findIn?_view]
      exact htask
    obtain ⟨tx', readings, hserve, hwritten, hothers⟩ := ih
      (d := { d.tick with
        transaction := some (tx.stage ⟨task.id, s.allocator.spaced index, lane, s.now d.readings.times⟩) })
      (index + 1) rfl hfound hnodup
    have hshift : ∀ i, index + 1 + i = index + (i + 1) := by omega
    simp only [hshift] at hserve hwritten
    refine ⟨tx', readings, ?_, ?_, ?_⟩
    . unfold respace
      rw [serve_bind, serve_spaced, serve_bind, serve_persist htx hrow]
      dsimp only [orFail]
      rw [serve_bind, hserve, List.mapIdx_cons]
      rfl
    . intro i t ht
      cases i with
      | zero =>
        -- the writes that follow are those of other tasks, so the one of this task lasts
        obtain rfl : task = t := by simpa using ht
        rw [hothers task.id hfresh, Transaction.write?_stage, if_pos rfl]
        exact ⟨_, rfl⟩
      | succ i => exact hwritten i t ht
    . intro id hid
      rw [List.map_cons, List.mem_cons, not_or] at hid
      rw [hothers id hid.2, Transaction.write?_stage, if_neg (Ne.symm hid.1)]

theorem serve_lockAndRespace (lane : Lane) (htx : d.transaction = some {}) :
    ∃ tx time readings, serve s (lockAndRespace r lane) d
        = (.ok ((d.rows.list r.workspace lane).mapIdx fun i t => t.placed (s.allocator.spaced i) lane time),
          { d with transaction := some tx, readings })
      ∧ tx.Spaces s.allocator d.rows r.workspace lane := by
  have hfound : ∀ t ∈ d.rows.list r.workspace lane, (d.rows.findIn? r.workspace t.id).isSome = true := by
    intro t ht
    obtain ⟨hmem, hin⟩ := Rows.mem_list.1 ht
    obtain ⟨hlive, hworkspace, _⟩ := Task.isInLane_iff.1 hin
    apply Option.isSome_of_eq_some
    exact Rows.findIn?_eq_some.2 ⟨Rows.find?_eq_some.2 ⟨hmem, rfl⟩, Task.isIn_iff.2 ⟨hlive, hworkspace⟩⟩
  obtain ⟨tx, readings, hserve, hwritten, hothers⟩ := serve_respace (s := s) (r := r) (d := d.tick) lane
    (s.now d.readings.times) 0 htx hfound Rows.nodup_list
  simp only [Nat.zero_add] at hserve hwritten
  refine ⟨tx, s.now d.readings.times, readings, ?_, hwritten, hothers⟩
  unfold lockAndRespace
  rw [serve_bind, serve_lockLane (Option.isSome_of_eq_some htx), view_of_begun htx]
  dsimp only [orFail]
  rw [serve_bind, serve_now, Rows.sortBy_locked, hserve]
  rfl

theorem serve_renormalizeLane {role : Role} (hrole : d.roles r.actor r.workspace = some role)
    (hmodify : role.canModify = true) :
    match Lane.parse r.lane with
    | .error e => serve s (renormalizeLane r) d = (.error (.unknownLane e), d)
    | .ok lane => ∃ (tx : Transaction) (time : Timestamp) (audit : AuditTrail) (readings : Readings),
      serve s (renormalizeLane r) d
        = (.ok ⟨lane, (d.rows.list r.workspace lane).mapIdx fun i t => t.placed (s.allocator.spaced i) lane time⟩,
          { d with rows := tx.view d.rows, transaction := none, audit, readings, begun := d.begun + 1 })
      ∧ tx.Spaces s.allocator d.rows r.workspace lane := by
  unfold renormalizeLane
  rw [serve_authorized, hrole]
  dsimp only
  rw [if_pos hmodify, serve_withLane]
  cases Lane.parse r.lane with
  | error e => rfl
  | ok lane =>
    obtain ⟨tx, time, readings, hserve, hwrites⟩ := serve_lockAndRespace (s := s) (r := r)
      (d := { d with transaction := some {}, begun := d.begun + 1 }) lane rfl
    obtain ⟨audit, readings, hrecord⟩ := serve_record (s := s)
      (d := { d with rows := tx.view d.rows, transaction := none, begun := d.begun + 1, readings })
      (.renormalized r.workspace r.actor lane (d.rows.list r.workspace lane).length)
    refine ⟨tx, time, audit, readings, ?_, hwrites⟩
    dsimp only
    rw [serve_bind, serve_begin]
    dsimp only [orFail]
    rw [serve_bind, hserve]
    dsimp only
    rw [serve_bind, serve_commit]
    dsimp only
    rw [serve_bind, serve_note, serve_bind, List.length_mapIdx]
    have hdesk := congrArg Prod.snd hrecord
    exact Prod.ext rfl hdesk

end Desk

section Complete

variable {s : Supply} {b : Board} {h : Holder} {r : RenormalizeRequest} {role : Role} (hb : b.Undisturbed h)
  (hrole : b.role? r.actor r.workspace = some role) (hmodify : role.canModify = true)

include hb hrole hmodify

theorem Command.renormalization_refused {e : Lane.Unknown} (hlane : Lane.parse r.lane = .error e) :
    (complete ⟨h, .renormalize r, s.replies⟩ b).answer = .commandError (.unknownLane e)
      ∧ (complete ⟨h, .renormalize r, s.replies⟩ b).board.rows = b.rows := by
  have hserve := Desk.serve_renormalizeLane (s := s) (d := b.desk h) hrole hmodify
  rw [hlane] at hserve
  obtain ⟨hanswer, _, hdesk⟩ := shows_serve (q := .renormalize r) hb rfl hserve
  exact ⟨hanswer, congrArg Desk.rows hdesk⟩

theorem Command.renormalizes {lane : Lane} (hlane : Lane.parse r.lane = .ok lane) :
    ∃ (tx : Transaction) (time : Timestamp), tx.Spaces s.allocator b.rows r.workspace lane
      ∧ (complete ⟨h, .renormalize r, s.replies⟩ b).answer = .renormalized
        ⟨lane, (b.rows.list r.workspace lane).mapIdx fun i t => t.placed (s.allocator.spaced i) lane time⟩
      ∧ (complete ⟨h, .renormalize r, s.replies⟩ b).board.rows = tx.view b.rows
      ∧ (complete ⟨h, .renormalize r, s.replies⟩ b).board.role? = b.role?
      ∧ (complete ⟨h, .renormalize r, s.replies⟩ b).board.locks.Idle := by
  have hserve := Desk.serve_renormalizeLane (s := s) (d := b.desk h) hrole hmodify
  rw [hlane] at hserve
  obtain ⟨tx, time, audit, readings, hserve, hspaces⟩ := hserve
  obtain ⟨hanswer, hundisturbed, hdesk⟩ := shows_serve (q := .renormalize r) hb rfl hserve
  exact ⟨tx, time, hspaces, hanswer, congrArg Desk.rows hdesk, congrArg Desk.roles hdesk,
    hundisturbed.idle (congrArg Desk.transaction hdesk)⟩

end Complete

/-- A renormalization that nobody interferes with spaces the tasks of its lane in the order of the list, and changes nothing
else. If the positions that are spaced rise, the list stays the same, and another renormalization moves nothing. -/
theorem Command.renormalization_spaces {b : Board} {h : Holder} (s : Supply) (r : RenormalizeRequest)
    (hb : b.Undisturbed h) (hrole : ∃ role, b.role? r.actor r.workspace = some role ∧ role.canModify = true) :
    let c := Command.complete ⟨h, .renormalize r, s.replies⟩ b
    match Lane.parse r.lane with
    | .error e => c.answer = .commandError (.unknownLane e) ∧ c.board.rows = b.rows
    | .ok lane =>
      let ids := b.rows.ids r.workspace lane
      (∃ tasks, c.answer = .renormalized ⟨lane, tasks⟩ ∧ tasks.map (·.id) = ids)
        ∧ (∀ (i : Nat) (id : TaskId), ids[i]? = some id → ∃ t time, b.rows.find? id = some t ∧ t.lane = lane
          ∧ c.board.rows.find? id = some { t with position := s.allocator.spaced i, updatedAt := time })
        ∧ (∀ id, id ∉ ids → c.board.rows.find? id = b.rows.find? id)
        ∧ ((∀ j < ids.length, ∀ i < j, s.allocator.spaced i < s.allocator.spaced j) →
          c.board.rows.ids r.workspace lane = ids ∧ ∀ h' (s' : Supply), s'.allocator = s.allocator →
            let again := Command.complete ⟨h', .renormalize r, s'.replies⟩ c.board
            again.answer.succeeds = true ∧ again.board.rows.key? = c.board.rows.key?) := by
  intro c
  obtain ⟨role, hrole, hmodify⟩ := hrole
  cases hlane : Lane.parse r.lane with
  | error e => exact renormalization_refused hb hrole hmodify hlane
  | ok lane =>
    dsimp only
    obtain ⟨tx, time, hspaces, hanswer, hrows, hroles, hidle⟩ := renormalizes (s := s) hb hrole hmodify hlane
    refine ⟨⟨_, hanswer, ?_⟩, ?_, ?_, ?_⟩
    . apply List.ext_getElem?
      intro i
      simp only [List.getElem?_map, List.getElem?_mapIdx, Option.map_map, Rows.ids]
      rfl
    . intro i id hid
      rw [show c.board.rows = _ from hrows]
      exact hspaces.find?_of_ids hid
    . intro id hid
      rw [show c.board.rows = _ from hrows]
      exact hspaces.find?_of_not_mem hid
    . intro hrising
      rw [show c.board.rows = _ from hrows]
      refine ⟨hspaces.ids hrising, ?_⟩
      intro h' s' hs
      have hrole' : c.board.role? r.actor r.workspace = some role := by
        rw [show c.board.role? = _ from hroles]
        exact hrole
      obtain ⟨tx', time', hspaces', hanswer', hrows', _⟩ :=
        renormalizes (s := s') (h := h') (undisturbed_of_idle hidle) hrole' hmodify hlane
      rw [hrows', hanswer']
      rw [show c.board.rows = _ from hrows, hs] at hspaces'
      refine ⟨rfl, ?_⟩
      rw [show c.board.rows = _ from hrows]
      exact hspaces.key? hspaces' hrising

section Sample

/-- The lane has two tasks that share a position and one whose position is no number. -/
theorem Command.renormalization_spaces_tied :
    (Sample.board (Sample.tied .done 1)).Undisturbed 0
      ∧ (Sample.board (Sample.tied .done 1)).rows.ids Sample.workspace .todo = [Sample.id 1, Sample.id 3, Sample.id 4]
      ∧ (Command.complete ⟨0, .renormalize ⟨Sample.workspace, Sample.actor, "todo"⟩, Sample.steady.replies⟩
        (Sample.board (Sample.tied .done 1))).board.rows.ids Sample.workspace .todo
          = [Sample.id 1, Sample.id 3, Sample.id 4] := by
  have hb : (Sample.board (Sample.tied .done 1)).Undisturbed 0 := undisturbed_of_idle LockTable.idle_empty
  have hids : (Sample.board (Sample.tied .done 1)).rows.ids Sample.workspace .todo
      = [Sample.id 1, Sample.id 3, Sample.id 4] := by decide +kernel
  have hspaces := Command.renormalization_spaces Sample.steady ⟨Sample.workspace, Sample.actor, "todo"⟩ hb
    ⟨.owner, by decide +kernel, rfl⟩
  rw [show Lane.parse "todo" = .ok .todo by decide +kernel] at hspaces
  refine ⟨hb, hids, ?_⟩
  rw [← hids]
  exact (hspaces.2.2.2 (by decide +kernel)).1

end Sample

end LaneOrder
