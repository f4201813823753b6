import LaneOrder.Proofs.Board.Carrying
import LaneOrder.Proofs.Board.Order
import LaneOrder.Proofs.Command.Renormalize

/-!
This module contains what is known on a board when a renormalization is about to commit: it has staged a write for every
row that it had listed and that was still in the lane when its lock was granted, with the position that was spaced for its
place among them.
-/

namespace LaneOrder

open Board Program

namespace Program.Event

def spaces? : Event ops → Option (Nat × Position)
  | ⟨.ambient (.spaced index), position⟩ => some (index, position)
  | _ => none

end Program.Event

namespace Board

def listed? (T : History ops) : Option (List TaskId) :=
  T.findSome? Event.lists?

def Found (T : History ops) : Prop :=
  ∀ newer older id, T = newer ++ ⟨.action (.lockRow id), .granted none⟩ :: older →
    ∀ e ∈ older, ∀ ids, e.lists? = some ids → id ∉ ids

/-- Positions that were spaced rise with their indices. -/
def Rising (T : History ops) : Prop :=
  ∀ p ∈ T.filterMap Event.spaces?, ∀ q ∈ T.filterMap Event.spaces?, p.1 < q.1 → p.2 < q.2

instance (T : History ops) : Decidable (Rising T) :=
  inferInstanceAs (Decidable (∀ p ∈ T.filterMap Event.spaces?, _))

/-- A renormalization has staged all of its writes. -/
structure Spaces (r : RenormalizeRequest) (T s : History ops) (lane : Lane) (ids : List TaskId) (tasks : List Task) :
    Prop where
  parsed : Lane.parse r.lane = .ok lane
  opened : opened T = some s
  listed : listed? T = some ids
  read : (⟨.action (.laneIds r.workspace lane), ids⟩ : Event ops) ∈ s
  sublist : (tasks.map (·.id)).Sublist ids
  sorted : ids.Pairwise (· < ·)
  seen : ∀ t ∈ tasks, Sees s t ∧ t.isInLane r.workspace lane = true
  granted : ∀ id ∈ ids, ∃ newer older row, s = newer ++ ⟨.action (.lockRow id), .granted row⟩ :: older
    ∧ (∃ e ∈ older, e.lists? = some ids)
    ∧ ∀ t, row = some t → t.id = id ∧ (t.isInLane r.workspace lane = true → t ∈ tasks)
  writes : ∀ w ∈ (Board.writes s).writes, ∃ index t, (sortBy Task.visualLe tasks)[index]? = some t ∧ t.id = w.id
    ∧ w.lane = lane ∧ (⟨.ambient (.spaced index), w.position⟩ : Event ops) ∈ s
  written : ∀ t ∈ tasks, ∃ w, (Board.writes s).write? t.id = some w

variable {T s E : History ops} {H t : History calls} {r : RenormalizeRequest} {lane : Lane} {ids : List TaskId}
  {tasks : List Task} {workspace : WorkspaceId} {wanted : Task → Bool}

theorem sublist_of_lockRows (h : Ends (lockRows wanted ids) E (.ok tasks)) (hE : ∀ x ∈ E, x.IsHonest) :
    (tasks.map (·.id)).Sublist ids ∧ ∀ id ∈ ids, ∃ row,
      (⟨.action (.lockRow id), .granted row⟩ : Event ops) ∈ E
        ∧ ∀ t, row = some t → t.id = id ∧ (wanted t = true → t ∈ tasks) := by
  induction ids generalizing E tasks with
  | nil =>
    cases (ends_done.1 h).2
    simp
  | cons id ids ih =>
    obtain ⟨reply, E₁, E₂, hask, hrest, rfl⟩ := ends_bind h
    cases ends_ask hask
    cases reply with
    | refused => cases (ends_done.1 hrest).2
    | granted row =>
      obtain ⟨reply, E₃, E₄, hrows, hrest, rfl⟩ := ends_bind hrest
      cases reply with
      | error e => cases (ends_done.1 hrest).2
      | ok rows =>
        obtain ⟨rfl, heq⟩ := ends_done.1 hrest
        cases heq
        obtain ⟨hsublist, hgranted⟩ := ih hrows fun x hx => hE x (by simp [hx])
        have hid : ∀ t, row = some t → t.id = id := by
          rintro t rfl
          have hsees := (hE ⟨.action (.lockRow id), .granted (some t)⟩ (by simp)).sees t rfl
          cases hsees
          rfl
        constructor
        . rw [List.map_append]
          cases hfilter : row.filter wanted with
          | none => exact hsublist.cons id
          | some t =>
            rw [← hid t (Option.filter_eq_some_iff.1 hfilter).1]
            exact hsublist.cons_cons t.id
        . intro other hother
          rcases List.mem_cons.1 hother with rfl | hother
          . refine ⟨row, by simp, ?_⟩
            intro t ht
            refine ⟨hid t ht, ?_⟩
            intro hwanted
            exact List.mem_append_left _ (Option.mem_toList.2 (Option.filter_eq_some_iff.2 ⟨ht, hwanted⟩))
          . obtain ⟨row', hmem, hall⟩ := hgranted other hother
            refine ⟨row', by simp [hmem], ?_⟩
            intro t ht
            exact ⟨(hall t ht).1, fun hwanted => List.mem_append_right _ ((hall t ht).2 hwanted)⟩

theorem write?_of_mem {e : Event ops} (he : e ∈ s) {w : StagedWrite} (hw : e.writes? = some w) :
    ∃ w', (Board.writes s).write? w.id = some w' := by
  induction s with
  | nil => cases he
  | cons e' s ih =>
    unfold Board.writes
    cases hw' : e'.writes? with
    | none =>
      rcases List.mem_cons.1 he with rfl | he
      . rw [hw] at hw'
        cases hw'
      . exact ih he
    | some w' =>
      dsimp only
      rw [Transaction.write?_stage]
      split
      . exact ⟨w', rfl⟩
      . next hid =>
        rcases List.mem_cons.1 he with rfl | he
        . rw [hw] at hw'
          cases hw'
          exact absurd rfl hid
        . exact ih he

theorem mem_of_write? {tx : Transaction} {id : TaskId} {w : StagedWrite} (hw : tx.write? id = some w) :
    w ∈ tx.writes ∧ w.id = id := by
  unfold Transaction.write? at hw
  exact ⟨List.mem_of_find?_eq_some hw, by simpa using List.find?_some hw⟩

theorem spaced_of_mirrors (hm : Mirrors carryOut t s) {index : Nat} {position : Position}
    (h : (⟨.ambient (.spaced index), position⟩ : Event calls) ∈ t) :
    (⟨.ambient (.spaced index), position⟩ : Event ops) ∈ s := by
  obtain ⟨E, hE, hmem⟩ := hm.mem h
  cases ends_ask hE
  exact hmem _ (List.mem_singleton_self _)

theorem lists_of_serves {c : Call} {x : Event ops} (hx : Serves c x.op)
    (hc : c.isQuiet = true ∨ c.persists?.isSome = true) : x.lists? = none := by
  obtain ⟨op, reply⟩ := x
  cases c with
  | ambient c =>
    cases hx
    rfl
  | persist =>
    rcases hx with rfl | ⟨_, rfl⟩ <;> rfl
  | _ => rcases hc with hc | hc <;> cases hc

theorem lists_of_lockRows (h : Ends (lockRows wanted ids) E (.ok tasks)) : ∀ x ∈ E, x.lists? = none := by
  have honly : Only (fun op : Op => ∃ id, op = .action (.lockRow id)) (lockRows wanted ids) :=
    only_lockRows fun id _ => ⟨id, rfl⟩
  rintro ⟨op, reply⟩ hx
  obtain ⟨id, rfl⟩ := honly.of_ends h _ hx
  rfl

theorem listed?_append (h : ∀ x ∈ E, x.lists? = none) : listed? (E ++ T) = listed? T := by
  unfold listed?
  rw [List.findSome?_append, List.findSome?_eq_none_iff.2 h]
  rfl

theorem tasks_eq_of_append {tasks' : List Task} {newer newer' : History calls}
    (ht : t = newer ++ [⟨.lockLane r.workspace lane, .ok tasks⟩])
    (ht' : t = newer' ++ [⟨.lockLane r.workspace lane, .ok tasks'⟩]) : tasks' = tasks := by
  rw [ht] at ht'
  have hlast := (List.append_inj' ht' rfl).2
  cases hlast
  rfl

theorem write_of_mirrors (hH : Lawful (Renormalize.protocol r) H) (hlane : Lane.parse r.lane = .ok lane)
    (ht : transacted H = some t) (hl : Renormalize.LaneLocked r lane tasks t) (hm : Mirrors carryOut t s)
    {x : Event ops} (hx : x ∈ s) {w : StagedWrite} (hw : x.writes? = some w) :
    ∃ index task, (sortBy Task.visualLe tasks)[index]? = some task ∧ task.id = w.id ∧ w.lane = lane
      ∧ (⟨.ambient (.spaced index), w.position⟩ : Event ops) ∈ s := by
  obtain ⟨e, he, E, hE, hxE⟩ := hm.exists_of_mem hx
  have hserves := (serves_carryOut e.op).of_ends hE x hxE
  have hpersists := hserves.writes hw
  obtain ⟨e₀, oldest, hH', _⟩ := since_eq_append ht
  obtain ⟨newer, older, rfl⟩ := List.append_of_mem he
  have hH'' : H = newer ++ e :: (older ++ e₀ :: oldest) := by simp [hH']
  have hallowed := (hH'' ▸ hH).allowed
  -- what the write relied on is the part of the transaction before it, and the lane was locked at the start of both
  have holder : transacted (older ++ e₀ :: oldest) = some older := by
    apply since_of_append (newer ++ [e])
    rw [hH''] at ht
    simpa [transacted] using ht
  obtain ⟨c, reply⟩ := e
  cases c with
  | persist workspace id position lane' =>
    obtain ⟨_, rfl, hlane', t', tasks', index, task, ht', hl', hget, hid, hspaced⟩ := hallowed
    rw [holder] at ht'
    cases ht'
    rw [hlane] at hlane'
    cases hlane'
    obtain ⟨last, hlast, _⟩ := hl
    obtain ⟨last', rfl, _⟩ := hl'
    have htasks : tasks' = tasks := by
      apply tasks_eq_of_append hlast
      rw [← List.cons_append, ← List.append_assoc]
    rw [htasks] at hget
    have hsame : w.position = position ∧ w.lane = lane ∧ w.id = id := by
      obtain ⟨op, reply'⟩ := x
      rcases hserves with rfl | ⟨time, rfl⟩
      . cases hw
      . cases reply' with
        | false => cases hw
        | true =>
          cases hw
          exact ⟨rfl, rfl, rfl⟩
    obtain ⟨rfl, rfl, rfl⟩ := hsame
    refine ⟨index, task, hget, hid, rfl, ?_⟩
    exact spaced_of_mirrors hm (List.mem_append_right _ (List.mem_cons_of_mem _ hspaced))
  | _ => cases hpersists

theorem spaces_of_mirrors (hH : Lawful (Renormalize.protocol r) H)
    (hc : (Renormalize.protocol r).allowed H .commit) (hm : Mirrors carryOut H T) (hT : Lawful discipline T) :
    ∃ lane ids tasks s, Spaces r T s lane ids tasks := by
  obtain ⟨_, lane, t, tasks, hlane, ht, hl, hwritten⟩ := hc
  obtain ⟨s, hs, hms⟩ := opened_of_transacted hm ht
  have hwrite : ∀ x ∈ s, ∀ w, x.writes? = some w → ∃ index task, (sortBy Task.visualLe tasks)[index]? = some task
      ∧ task.id = w.id ∧ w.lane = lane ∧ (⟨.ambient (.spaced index), w.position⟩ : Event ops) ∈ s :=
    fun x hx w hw => write_of_mirrors hH hlane ht hl hms hx hw
  -- the transaction begins with the lock of the lane, and no lane is read after that
  obtain ⟨newer, rfl, hnewer⟩ := hl
  obtain ⟨sn, sl, rfl, hmn, hml⟩ := hms.of_append
  obtain ⟨E, rest, rfl, hE, hrest⟩ := hml.cons_inv
  cases hrest
  rw [List.append_nil] at *
  obtain ⟨ids, E₁, E₂, hask, hrows, rfl⟩ := ends_bind hE
  cases ends_ask hask
  have hhonest : ∀ x ∈ sn ++ (E₂ ++ [⟨.action (.laneIds r.workspace lane), ids⟩]), x.IsHonest :=
    fun x hx => hT.honest_of_mem (mem_of_since hs hx)
  obtain ⟨hsublist, hgranted⟩ := sublist_of_lockRows hrows fun x hx => hhonest x (by simp [hx])
  have hquiet : ∀ x ∈ sn, x.lists? = none := by
    intro x hx
    obtain ⟨e, he, E, hE, hxE⟩ := hmn.exists_of_mem hx
    exact lists_of_serves ((serves_carryOut e.op).of_ends hE x hxE) (hnewer e he)
  refine ⟨lane, ids, tasks, _, hlane, hs, ?_, by simp, hsublist, ?_, ?_, ?_, ?_, ?_⟩
  . obtain ⟨e₀, oldest, rfl, _⟩ := since_eq_append hs
    rw [List.append_assoc, listed?_append hquiet, List.append_assoc, listed?_append (lists_of_lockRows hrows)]
    rfl
  . exact (hhonest ⟨.action (.laneIds r.workspace lane), ids⟩ (by simp)).lists ids rfl
  . intro task htask
    obtain ⟨hin, x, hx, hsees⟩ := ends_lockRows hrows task htask
    exact ⟨⟨x, by simp [hx], hsees⟩, hin⟩
  . intro id hid
    obtain ⟨row, hmem, hall⟩ := hgranted id hid
    obtain ⟨newer', older, rfl⟩ := List.append_of_mem hmem
    exact ⟨sn ++ newer', older ++ [⟨.action (.laneIds r.workspace lane), ids⟩], row, by simp,
      ⟨_, List.mem_append_right _ (List.mem_singleton_self _), rfl⟩, hall⟩
  . intro w hw
    obtain ⟨x, hx, hxw⟩ := mem_writes hw
    exact hwrite x hx w hxw
  . intro task htask
    obtain ⟨index, hindex⟩ := List.mem_iff_getElem?.1 ((sortBy_perm Task.visualLe tasks).mem_iff.2 htask)
    have hlt : index < tasks.length := by
      rw [← (sortBy_perm Task.visualLe tasks).length_eq]
      exact (List.getElem?_eq_some_iff.1 hindex).1
    obtain ⟨position, _, hpersist⟩ := hwritten index task hlt hindex
    obtain ⟨E, hE, hmem⟩ := hms.mem hpersist
    obtain ⟨time, rfl⟩ := ends_persist hE
    exact write?_of_mem (w := ⟨task.id, position, lane, time⟩) (hmem _ List.mem_cons_self) rfl

section Commit

variable {b : Board} {h : Holder} (hspaces : Spaces r T s lane ids tasks)

include hspaces

theorem Spaces.nodup : (tasks.map (·.id)).Nodup := by
  apply hspaces.sublist.nodup
  apply hspaces.sorted.imp
  rintro a _ hlt rfl
  exact TaskId.lt_irrefl a hlt

theorem Spaces.id_mem {t : Task} (ht : t ∈ tasks) : t.id ∈ ids :=
  hspaces.sublist.subset (List.mem_map_of_mem ht)

theorem Spaces.row (hb : Holds b h T) (hun : Undeleted s) {t : Task} (ht : t ∈ tasks) :
    t ∈ b.rows.lane r.workspace lane := by
  obtain ⟨hsees, hin⟩ := hspaces.seen t ht
  have hfind := hb.rows s t hspaces.opened hun hsees
  exact Rows.mem_lane.2 ⟨(Rows.find?_eq_some.1 hfind).1, hin⟩

theorem Spaces.mem_tasks (hb : Holds b h T) (hun : Undeleted s) (hfound : Found T) {t : Task}
    (ht : t ∈ b.rows.lane r.workspace lane) (hid : t.id ∈ ids) : t ∈ tasks := by
  obtain ⟨hmem, hin⟩ := Rows.mem_lane.1 ht
  obtain ⟨newer, older, row, rfl, ⟨e, he, hlists⟩, hall⟩ := hspaces.granted t.id hid
  obtain ⟨e₀, oldest, hT, _⟩ := since_eq_append hspaces.opened
  -- only a row that exists can have been listed, so its lock was granted together with it
  cases row with
  | none =>
    exfalso
    apply hfound newer (older ++ e₀ :: oldest) t.id (by simp [hT]) e _ ids hlists hid
    exact List.mem_append_left _ he
  | some t' =>
    obtain ⟨hid', htasks⟩ := hall t' rfl
    have hsees : Sees (newer ++ ⟨.action (.lockRow t.id), .granted (some t')⟩ :: older) t' :=
      ⟨⟨.action (.lockRow t.id), .granted (some t')⟩, by simp, rfl⟩
    have hfind := hb.rows _ t' hspaces.opened hun hsees
    rw [Rows.eq_of_id_eq hmem (Rows.find?_eq_some.1 hfind).1 hid'.symm] at hin ⊢
    exact htasks hin

theorem Spaces.overlay {t : Task} (ht : t ∈ tasks) : ∃ index position time,
    (sortBy Task.visualLe tasks)[index]? = some t
      ∧ (Board.writes s).overlay t = t.placed position lane time
      ∧ (⟨.ambient (.spaced index), position⟩ : Event ops) ∈ s := by
  obtain ⟨w, hw⟩ := hspaces.written t ht
  obtain ⟨hmem, hwid⟩ := mem_of_write? hw
  obtain ⟨index, t', hindex, hid, rfl, hspaced⟩ := hspaces.writes w hmem
  have ht' : t' ∈ tasks := (sortBy_perm Task.visualLe tasks).mem_iff.1 (List.mem_of_getElem? hindex)
  cases List.inj_on_of_nodup_map hspaces.nodup ht' ht (hid.trans hwid)
  refine ⟨index, w.position, w.time, hindex, ?_, hspaced⟩
  unfold Transaction.overlay
  rw [hw]

theorem Spaces.overlay_of_ne {t : Task} (ht : ∀ t' ∈ tasks, t'.id ≠ t.id) : (Board.writes s).overlay t = t := by
  unfold Transaction.overlay
  cases hw : (Board.writes s).write? t.id with
  | none => rfl
  | some w =>
    exfalso
    obtain ⟨hmem, hwid⟩ := mem_of_write? hw
    obtain ⟨index, t', hindex, hid, _⟩ := hspaces.writes w hmem
    apply ht t' _ (hid.trans hwid)
    exact (sortBy_perm Task.visualLe tasks).mem_iff.1 (List.mem_of_getElem? hindex)

theorem Spaces.overlay_of_not_mem {t : Task} (ht : t.id ∉ ids) : (Board.writes s).overlay t = t := by
  apply hspaces.overlay_of_ne
  intro t' ht' hid
  exact ht (hid ▸ hspaces.id_mem ht')

theorem Spaces.lane_commit (hb : Holds b h T) (hun : Undeleted s) {workspace : WorkspaceId} {other : Lane} :
    (b.commit h).rows.lane workspace other = (b.rows.lane workspace other).map (Board.writes s).overlay := by
  have hrows : (b.commit h).rows.tasks = b.rows.tasks.map (Board.writes s).overlay := by
    show (b.view h).tasks = _
    unfold view
    rw [hb.tx s hspaces.opened]
    rfl
  unfold Rows.lane
  rw [hrows, List.filter_map]
  congr 1
  apply List.filter_congr
  intro t ht
  show ((Board.writes s).overlay t).isInLane workspace other = t.isInLane workspace other
  -- a row is written to the lane that it was seen in
  by_cases hmem : t ∈ tasks
  . obtain ⟨index, position, time, _, hoverlay, _⟩ := hspaces.overlay hmem
    have hlane := (Task.isInLane_iff.1 (hspaces.seen t hmem).2).2.2
    rw [hoverlay]
    unfold Task.placed Task.isInLane Task.isIn Task.isLive
    rw [hlane]
  . rw [hspaces.overlay_of_ne]
    rintro t' ht' hid
    have ht'' := (Rows.mem_lane.1 (hspaces.row hb hun ht')).1
    exact hmem (Rows.eq_of_id_eq ht'' ht hid ▸ ht')

theorem Spaces.lane_commit_of_ne (hb : Holds b h T) (hun : Undeleted s) {workspace : WorkspaceId} {other : Lane}
    (hne : ¬ (workspace = r.workspace ∧ other = lane)) :
    (b.commit h).rows.lane workspace other = b.rows.lane workspace other := by
  rw [hspaces.lane_commit hb hun]
  conv_rhs => rw [← List.map_id (b.rows.lane workspace other)]
  apply List.map_congr_left
  intro t ht
  apply hspaces.overlay_of_ne
  intro t' ht' hid
  have hrow := hspaces.row hb hun ht'
  cases Rows.eq_of_id_eq (Rows.mem_lane.1 hrow).1 (Rows.mem_lane.1 ht).1 hid
  obtain ⟨_, hworkspace, hlane⟩ := Task.isInLane_iff.1 (Rows.mem_lane.1 hrow).2
  obtain ⟨_, hworkspace', hlane'⟩ := Task.isInLane_iff.1 (Rows.mem_lane.1 ht).2
  exact hne ⟨hworkspace'.symm.trans hworkspace, hlane'.symm.trans hlane⟩

section Pair

variable (hrising : Rising T) {t u : Task} (ht : t ∈ tasks) (hu : u ∈ tasks)

include hrising ht hu

theorem Spaces.order : ((Board.writes s).overlay t).visualLe ((Board.writes s).overlay u) = t.visualLe u
    ∧ (((Board.writes s).overlay t).position.rank = ((Board.writes s).overlay u).position.rank → t = u) := by
  obtain ⟨i, x, time, hi, hoverlay, hx⟩ := hspaces.overlay ht
  obtain ⟨j, y, time', hj, hoverlay', hy⟩ := hspaces.overlay hu
  have hx' : (i, x) ∈ T.filterMap Event.spaces? :=
    List.mem_filterMap.2 ⟨_, mem_of_since hspaces.opened hx, rfl⟩
  have hy' : (j, y) ∈ T.filterMap Event.spaces? :=
    List.mem_filterMap.2 ⟨_, mem_of_since hspaces.opened hy, rfl⟩
  rcases Nat.lt_trichotomy i j with hlt | rfl | hlt
  . have hlt' : ((Board.writes s).overlay t).position.rank < ((Board.writes s).overlay u).position.rank := by
      rw [hoverlay, hoverlay']
      exact (Binary64.lt_iff.1 (hrising _ hx' _ hy' hlt)).2.2
    refine ⟨?_, fun heq => by omega⟩
    rw [Task.visualLe_of_rank_lt hlt', (visualLe_of_lt hspaces.nodup hi hj hlt).1]
  . rw [hi] at hj
    cases hj
    exact ⟨by simp, fun _ => rfl⟩
  . have hlt' : ((Board.writes s).overlay u).position.rank < ((Board.writes s).overlay t).position.rank := by
      rw [hoverlay, hoverlay']
      exact (Binary64.lt_iff.1 (hrising _ hy' _ hx' hlt)).2.2
    refine ⟨?_, fun heq => by omega⟩
    rw [Task.not_visualLe_of_rank_lt hlt', (visualLe_of_lt hspaces.nodup hj hi hlt).2]

end Pair

section Lane

variable (hb : Holds b h T) (hun : Undeleted s) (hfound : Found T) (hrising : Rising T)

include hb hun hfound hrising

/-- A lane keeps its order if and only if every row that had not been listed stays on the same side of every row that
had. -/
theorem Spaces.ids_commit :
    (b.commit h).rows.ids r.workspace lane = b.rows.ids r.workspace lane
      ↔ ∀ x ∈ b.rows.lane r.workspace lane, x.id ∉ ids → ∀ t ∈ b.rows.lane r.workspace lane, t.id ∈ ids →
        ∀ t' ∈ (b.commit h).rows.lane r.workspace lane, t'.id = t.id → t'.visualLe x = t.visualLe x := by
  unfold Rows.ids Rows.list
  rw [hspaces.lane_commit hb hun, ids_sortBy_map (fun t _ => Transaction.overlay_id _ t) Rows.nodup_lane]
  constructor
  . intro hall x hx hxid t ht htid t' ht' hid
    obtain ⟨t₀, ht₀, rfl⟩ := List.mem_map.1 ht'
    rw [Transaction.overlay_id] at hid
    cases List.inj_on_of_nodup_map Rows.nodup_lane ht₀ ht hid
    rw [← hall t ht x hx, hspaces.overlay_of_not_mem hxid]
  . intro hall t ht u hu
    -- pairs of listed rows keep their order in any case, so only the mixed pairs depend on the condition
    have hside : ∀ t ∈ b.rows.lane r.workspace lane, t.id ∈ ids → ∀ u ∈ b.rows.lane r.workspace lane, u.id ∉ ids →
        ((Board.writes s).overlay t).visualLe u = t.visualLe u := by
      intro t ht htid u hu huid
      exact hall u hu huid t ht htid _ (List.mem_map_of_mem ht) (Transaction.overlay_id _ t)
    by_cases htid : t.id ∈ ids
    . by_cases huid : u.id ∈ ids
      . exact (hspaces.order hrising (hspaces.mem_tasks hb hun hfound ht htid)
          (hspaces.mem_tasks hb hun hfound hu huid)).1
      . rw [hspaces.overlay_of_not_mem huid]
        exact hside t ht htid u hu huid
    . by_cases huid : u.id ∈ ids
      . have hne : t.id ≠ u.id := fun heq => htid (heq ▸ huid)
        rw [hspaces.overlay_of_not_mem htid, Task.visualLe_eq_not hne, Task.visualLe_eq_not (by simpa using hne),
          hside u hu huid t ht htid]
      . rw [hspaces.overlay_of_not_mem htid, hspaces.overlay_of_not_mem huid]

/-- No positions are shared that were not shared before if and only if no row that had not been listed shares the new
position of one that had. -/
theorem Spaces.sharesNoMore_commit :
    SharesNoMore (b.rows.lane r.workspace lane) ((b.commit h).rows.lane r.workspace lane)
      ↔ ∀ x ∈ b.rows.lane r.workspace lane, x.id ∉ ids → ∀ t ∈ b.rows.lane r.workspace lane, t.id ∈ ids →
        ∀ t' ∈ (b.commit h).rows.lane r.workspace lane, t'.id = t.id → t'.position.rank = x.position.rank →
          t.position.rank = x.position.rank := by
  rw [hspaces.lane_commit hb hun]
  have heq : ∀ {t u : Task}, t ∈ b.rows.lane r.workspace lane → u ∈ b.rows.lane r.workspace lane → t.id = u.id → t = u :=
    fun ht hu hid => List.inj_on_of_nodup_map Rows.nodup_lane ht hu hid
  constructor
  . intro hall x hx hxid t ht htid t' ht' hid hrank
    obtain ⟨t₀, ht₀, rfl⟩ := List.mem_map.1 ht'
    rw [Transaction.overlay_id] at hid
    cases heq ht₀ ht hid
    have hx' : x ∈ (b.rows.lane r.workspace lane).map (Board.writes s).overlay :=
      List.mem_map.2 ⟨x, hx, hspaces.overlay_of_not_mem hxid⟩
    have hne : ((Board.writes s).overlay t).id ≠ x.id := by
      rw [Transaction.overlay_id]
      exact fun heq => hxid (heq ▸ htid)
    obtain ⟨t₁, ht₁, x₁, hx₁, hid₁, hid₁', hrank₁⟩ := hall _ ht' x hx' hne hrank
    rw [Transaction.overlay_id] at hid₁
    cases heq ht₁ ht hid₁
    cases heq hx₁ hx hid₁'
    exact hrank₁
  . intro hall t' ht' u' hu' hid hrank
    obtain ⟨t, ht, rfl⟩ := List.mem_map.1 ht'
    obtain ⟨u, hu, rfl⟩ := List.mem_map.1 hu'
    simp only [Transaction.overlay_id] at hid ⊢
    refine ⟨t, ht, u, hu, rfl, rfl, ?_⟩
    by_cases htid : t.id ∈ ids
    . by_cases huid : u.id ∈ ids
      . have hsame := (hspaces.order hrising (hspaces.mem_tasks hb hun hfound ht htid)
          (hspaces.mem_tasks hb hun hfound hu huid)).2 hrank
        rw [hsame]
      . rw [hspaces.overlay_of_not_mem huid] at hrank
        exact hall u hu huid t ht htid _ ht' (Transaction.overlay_id _ t) hrank
    . rw [hspaces.overlay_of_not_mem htid] at hrank
      by_cases huid : u.id ∈ ids
      . exact (hall t ht htid u hu huid _ hu' (Transaction.overlay_id _ u) hrank.symm).symm
      . rwa [hspaces.overlay_of_not_mem huid] at hrank

end Lane

end Commit

end Board

end LaneOrder
