import LaneOrder.Proofs.Board.Order
import LaneOrder.Request

/-!
This module contains what requests mean for somebody who knows nothing but the order of the tasks in each lane. A request
that succeeds changes the lists of identifiers; positions do not occur.
-/

namespace LaneOrder

/-- The identifiers of the tasks in all lanes in visual order. -/
abbrev Lists : Type := WorkspaceId → Lane → List TaskId

def insertAfter (anchor id : TaskId) : List TaskId → List TaskId
  | [] => [id]
  | x :: xs => if x = anchor then x :: id :: xs else x :: insertAfter anchor id xs

def insertBefore (anchor id : TaskId) : List TaskId → List TaskId
  | [] => [id]
  | x :: xs => if x = anchor then id :: x :: xs else x :: insertBefore anchor id xs

/-- Put the target of a move among the other tasks of its lane. -/
def MoveRequest.place (r : MoveRequest) (others : List TaskId) : List TaskId :=
  match r.after, r.before with
  | some after, _ => insertAfter after r.task others
  | none, some before => insertBefore before r.task others
  | none, none => others ++ [r.task]

namespace Lists

def move (lists : Lists) (r : MoveRequest) (destination : Lane) : Lists := fun workspace lane =>
  if workspace = r.workspace then
    let others := (lists workspace lane).filter (· ≠ r.task)
    if lane = destination then r.place others else others
  else lists workspace lane

def append (lists : Lists) (workspace : WorkspaceId) (lane : Lane) (id : TaskId) : Lists := fun workspace' lane' =>
  if workspace' = workspace ∧ lane' = lane then lists workspace' lane' ++ [id] else lists workspace' lane'

def remove (lists : Lists) (workspace : WorkspaceId) (id : TaskId) : Lists := fun workspace' lane =>
  if workspace' = workspace then (lists workspace' lane).filter (· ≠ id) else lists workspace' lane

end Lists

def Answer.succeeds : Answer → Bool
  | flag b => b
  | storeError _ | roleError _ | commandError _ => false
  | _ => true

/-- What becomes of the lists when a request is answered. -/
def Request.follow (q : Request) (a : Answer) (lists : Lists) : Lists :=
  if a.succeeds then
    match q, a with
    | move r, _ => match Lane.parse r.lane with
      | .ok lane => lists.move r lane
      | .error _ => lists
    | create r, .created t => match Lane.parse r.lane with
      | .ok lane => lists.append r.workspace lane t.id
      | .error _ => lists
    | call (.delete workspace id), _ => lists.remove workspace id
    | _, _ => lists
  else lists

theorem insertAfter_append {anchor id : TaskId} {xs ys : List TaskId} (h : anchor ∉ xs) :
    insertAfter anchor id (xs ++ anchor :: ys) = xs ++ anchor :: id :: ys := by
  induction xs with
  | nil => simp [insertAfter]
  | cons x xs ih =>
    rw [List.mem_cons, not_or] at h
    simp [insertAfter, Ne.symm h.1, ih h.2]

theorem insertBefore_append {anchor id : TaskId} {xs ys : List TaskId} (h : anchor ∉ xs) :
    insertBefore anchor id (xs ++ anchor :: ys) = xs ++ id :: anchor :: ys := by
  induction xs with
  | nil => simp [insertBefore]
  | cons x xs ih =>
    rw [List.mem_cons, not_or] at h
    simp [insertBefore, Ne.symm h.1, ih h.2]

theorem Rows.list_eq {r : Rows} {workspace : WorkspaceId} {lane : Lane} {ys : List Task}
    (hmem : ∀ t, t ∈ r.lane workspace lane ↔ t ∈ ys) (hnodup : (ys.map (·.id)).Nodup)
    (hsorted : ys.Pairwise (·.visualLe · = true)) : r.list workspace lane = ys := by
  apply sortBy_eq_of_pairwise nodup_lane _ hsorted
  exact (List.perm_ext_iff_of_nodup nodup_lane.of_map hnodup.of_map).2 hmem

theorem Rows.list_congr {r r' : Rows} {workspace : WorkspaceId} {lane : Lane}
    (h : ∀ t, t ∈ r'.lane workspace lane ↔ t ∈ r.lane workspace lane) : r'.list workspace lane = r.list workspace lane := by
  apply list_eq _ nodup_list pairwise_list
  intro t
  rw [h, mem_lane, mem_list]

theorem map_id_filter {ts : List Task} {id : TaskId} :
    (ts.filter (·.id ≠ id)).map (·.id) = (ts.map (·.id)).filter (· ≠ id) := by
  rw [List.filter_map]
  rfl

section Insert

variable {others : List Task} {t anchor : Task} (hsorted : others.Pairwise (·.visualLe · = true))
  (hnodup : (others.map (·.id)).Nodup)

include hsorted

theorem sorted_append (hlast : ∀ u ∈ others, u.visualLe t = true) : (others ++ [t]).Pairwise (·.visualLe · = true) := by
  rw [List.pairwise_append]
  refine ⟨hsorted, List.pairwise_singleton .., ?_⟩
  intro u hu v hv
  cases List.mem_singleton.1 hv
  exact hlast u hu

include hnodup

theorem sorted_insertAfter (hmem : anchor ∈ others) (hle : anchor.visualLe t = true)
    (hnext : ∀ u ∈ others, u.id ≠ anchor.id → anchor.visualLe u = true → t.visualLe u = true) :
    ∃ ys : List Task, ys.Perm (t :: others) ∧ ys.Pairwise (·.visualLe · = true)
      ∧ ys.map (·.id) = insertAfter anchor.id t.id (others.map (·.id)) := by
  obtain ⟨before, after, rfl⟩ := List.append_of_mem hmem
  rw [List.map_append, List.map_cons, List.nodup_append] at hnodup
  obtain ⟨hbefore, hrest, hcross⟩ := List.pairwise_append.1 hsorted
  obtain ⟨hafter, hrest⟩ := List.pairwise_cons.1 hrest
  have hnot : anchor.id ∉ before.map (·.id) := fun h => hnodup.2.2 _ h _ List.mem_cons_self rfl
  refine ⟨before ++ anchor :: t :: after, ?_, ?_, ?_⟩
  . have hperm : (before ++ [anchor] ++ t :: after).Perm (t :: (before ++ [anchor] ++ after)) := List.perm_middle
    simpa using hperm
  . rw [List.pairwise_append, List.pairwise_cons, List.pairwise_cons]
    have htafter : ∀ u ∈ after, t.visualLe u = true := by
      intro u hu
      apply hnext u (by simp [hu]) _ (hafter u hu)
      intro hid
      exact (List.nodup_cons.1 hnodup.2.1).1 (hid ▸ List.mem_map_of_mem hu)
    refine ⟨hbefore, ⟨?_, htafter, hrest⟩, ?_⟩
    . intro u hu
      rcases List.mem_cons.1 hu with rfl | hu
      . exact hle
      . exact hafter u hu
    . intro u hu v hv
      have hua := hcross u hu anchor List.mem_cons_self
      rcases List.mem_cons.1 hv with rfl | hv
      . exact hua
      . rcases List.mem_cons.1 hv with rfl | hv
        . exact Task.visualLe_trans _ _ _ hua hle
        . exact hcross u hu v (List.mem_cons_of_mem _ hv)
  . simp only [List.map_append, List.map_cons]
    rw [insertAfter_append hnot]

theorem sorted_insertBefore (hmem : anchor ∈ others) (hle : t.visualLe anchor = true)
    (hnext : ∀ u ∈ others, u.id ≠ anchor.id → u.visualLe anchor = true → u.visualLe t = true) :
    ∃ ys : List Task, ys.Perm (t :: others) ∧ ys.Pairwise (·.visualLe · = true)
      ∧ ys.map (·.id) = insertBefore anchor.id t.id (others.map (·.id)) := by
  obtain ⟨before, after, rfl⟩ := List.append_of_mem hmem
  rw [List.map_append, List.map_cons, List.nodup_append] at hnodup
  obtain ⟨hbefore, hrest, hcross⟩ := List.pairwise_append.1 hsorted
  obtain ⟨hafter, _⟩ := List.pairwise_cons.1 hrest
  have hnot : anchor.id ∉ before.map (·.id) := fun h => hnodup.2.2 _ h _ List.mem_cons_self rfl
  refine ⟨before ++ t :: anchor :: after, List.perm_middle, ?_, ?_⟩
  . rw [List.pairwise_append, List.pairwise_cons]
    refine ⟨hbefore, ⟨?_, hrest⟩, ?_⟩
    . intro u hu
      rcases List.mem_cons.1 hu with rfl | hu
      . exact hle
      . exact Task.visualLe_trans _ _ _ hle (hafter u hu)
    . intro u hu v hv
      rcases List.mem_cons.1 hv with rfl | hv
      . apply hnext u (by simp [hu]) _ (hcross u hu anchor List.mem_cons_self)
        intro hid
        exact hnot (hid ▸ List.mem_map_of_mem hu)
      . exact hcross u hu v hv
  . simp only [List.map_append, List.map_cons]
    rw [insertBefore_append hnot]

end Insert

section Change

variable {r r' : Rows} {workspace : WorkspaceId} {lane : Lane} {id : TaskId}

theorem Rows.ids_of_leaves (h : ∀ t, t ∈ r'.lane workspace lane ↔ t ∈ r.lane workspace lane ∧ t.id ≠ id) :
    r'.ids workspace lane = (r.ids workspace lane).filter (· ≠ id) := by
  unfold ids
  rw [← map_id_filter]
  congr 1
  apply list_eq
  . intro t
    rw [h, List.mem_filter, mem_lane, mem_list]
    simp
  . exact nodup_list.sublist (List.filter_sublist.map _)
  . exact pairwise_list.filter _

theorem Rows.ids_of_enters {t' : Task} {ys : List Task}
    (h : ∀ t, t ∈ r'.lane workspace lane ↔ (t ∈ r.lane workspace lane ∧ t.id ≠ t'.id) ∨ t = t')
    (hperm : ys.Perm (t' :: (r.list workspace lane).filter (·.id ≠ t'.id)))
    (hsorted : ys.Pairwise (·.visualLe · = true)) : r'.ids workspace lane = ys.map (·.id) := by
  unfold ids
  congr 1
  apply list_eq _ _ hsorted
  . intro t
    rw [h, hperm.mem_iff, List.mem_cons, List.mem_filter, mem_lane, mem_list, or_comm]
    simp
  . rw [(hperm.map _).nodup_iff, List.map_cons, List.nodup_cons]
    refine ⟨?_, nodup_list.sublist (List.filter_sublist.map _)⟩
    simp

theorem Rows.ids_of_stays (h : ∀ t, t ∈ r.lane workspace lane → t.id ≠ id) :
    (r.ids workspace lane).filter (· ≠ id) = r.ids workspace lane := by
  rw [List.filter_eq_self]
  intro x hx
  obtain ⟨t, ht, rfl⟩ := List.mem_map.1 hx
  simpa using h t (mem_lane.2 (mem_list.1 ht))

theorem Rows.ids_insert {t : Task} (h : r.insert? t = some r') (hlive : t.isLive = true)
    (hlast : ∀ u ∈ r.lane t.workspace t.lane, u.visualLe t = true) :
    r'.ids = Lists.append r.ids t.workspace t.lane t.id := by
  funext workspace lane
  unfold Lists.append
  by_cases hhere : workspace = t.workspace ∧ lane = t.lane
  . obtain ⟨rfl, rfl⟩ := hhere
    rw [if_pos ⟨rfl, rfl⟩]
    have hlist : r'.list t.workspace t.lane = r.list t.workspace t.lane ++ [t] := by
      apply list_eq
      . intro u
        rw [mem_lane_insert h hlive, List.mem_append, List.mem_singleton, mem_lane, mem_list]
        simp
      . rw [List.map_append, List.nodup_append]
        refine ⟨nodup_list, by simp, ?_⟩
        intro id hid id' hid'
        obtain ⟨u, hu, rfl⟩ := List.mem_map.1 hid
        cases List.mem_singleton.1 hid'
        exact (insert?_eq_some h).2 u (mem_list.1 hu).1
      . apply sorted_append pairwise_list
        intro u hu
        exact hlast u (mem_lane.2 (mem_list.1 hu))
    unfold ids
    rw [hlist, List.map_append]
    rfl
  . rw [if_neg hhere]
    unfold ids
    rw [list_congr]
    intro u
    rw [mem_lane_insert h hlive]
    constructor
    . rintro (hu | ⟨_, hworkspace, hlane⟩)
      . exact hu
      . exact absurd ⟨hworkspace, hlane⟩ hhere
    . exact .inl

theorem Rows.visualLe_last {xs : List TaskId} {t u : Task} (hids : r.ids workspace lane = xs ++ [t.id])
    (ht : t ∈ r.lane workspace lane) (hu : u ∈ r.lane workspace lane) : u.visualLe t = true := by
  unfold ids at hids
  obtain ⟨ys, zs, heq, _, hzs⟩ := List.map_eq_append_iff.1 hids
  obtain ⟨z, rfl, hid⟩ := List.map_eq_singleton_iff.1 hzs
  have hsorted : (r.list workspace lane).Pairwise (·.visualLe · = true) := pairwise_list
  have hmem : ∀ {v}, v ∈ r.lane workspace lane ↔ v ∈ ys ++ [z] := by
    intro v
    rw [← heq, mem_lane, mem_list]
  have hz : z = t := List.inj_on_of_nodup_map nodup_lane (hmem.2 (by simp)) ht hid
  rw [heq] at hsorted
  rw [← hz]
  rcases List.mem_append.1 (hmem.1 hu) with hu | hu
  . exact (List.pairwise_append.1 hsorted).2.2 u hu z (List.mem_singleton_self z)
  . cases List.mem_singleton.1 hu
    exact Task.visualLe_refl

/-- The target of a move is the row `t'` in its destination, and it has left its old place. -/
structure Rows.Moves (rows rows' : Rows) (r : MoveRequest) (lane : Lane) (t' : Task) : Prop where
  id : t'.id = r.task
  home : ∀ workspace other, ∀ t ∈ rows.lane workspace other, t.id = r.task → workspace = r.workspace
  lanes : ∀ workspace other t, t ∈ rows'.lane workspace other ↔ (t ∈ rows.lane workspace other ∧ t.id ≠ r.task)
    ∨ workspace = r.workspace ∧ other = lane ∧ t = t'

theorem Rows.Moves.ids {rows rows' : Rows} {q : MoveRequest} {t' : Task} (hm : rows.Moves rows' q lane t') :
    rows'.ids = Lists.move rows.ids q lane
      ↔ rows'.ids q.workspace lane = q.place ((rows.ids q.workspace lane).filter (· ≠ q.task)) := by
  constructor
  . intro h
    rw [h]
    simp [Lists.move]
  . intro h
    funext workspace other
    unfold Lists.move
    by_cases hhere : workspace = q.workspace ∧ other = lane
    . obtain ⟨rfl, rfl⟩ := hhere
      simpa using h
    . have hleaves : ∀ t, t ∈ rows'.lane workspace other ↔ t ∈ rows.lane workspace other ∧ t.id ≠ q.task := by
        intro t
        rw [hm.lanes]
        constructor
        . rintro (hold | ⟨hworkspace, hlane, _⟩)
          . exact hold
          . exact absurd ⟨hworkspace, hlane⟩ hhere
        . exact .inl
      rw [ids_of_leaves hleaves]
      split
      . next hworkspace =>
        rw [if_neg fun hlane => hhere ⟨hworkspace, hlane⟩]
      . next hworkspace =>
        apply ids_of_stays
        intro t ht hid
        exact hworkspace (hm.home workspace other t ht hid)

end Change

end LaneOrder
