import LaneOrder.Proofs.Crowd.Moves
import LaneOrder.Proofs.Crowd.Renormalizations
import LaneOrder.Proofs.Sequence.Rows

/-!
This module contains what commands that have a board to themselves do to the lists of identifiers in its lanes.
-/

namespace LaneOrder

open Board Program

theorem Program.Event.number_of_keepsApart {index : Nat} {x : Position}
    (hapart : (⟨.ambient (.spaced index), x⟩ : Event ops).keepsApart = true) : x.isNaN = false := by
  simpa [Event.keepsApart] using hapart

structure Unrounded (T : History ops) : Prop where
  apart : ∀ e ∈ T, e.keepsApart = true
  rising : Rising T

instance (T : History ops) : Decidable (Unrounded T) :=
  decidable_of_iff ((∀ e ∈ T, e.keepsApart = true) ∧ Rising T) ⟨fun h => ⟨h.1, h.2⟩, fun h => ⟨h.1, h.2⟩⟩

theorem Unrounded.mono {T older : History ops} (hT : Unrounded T) (hsub : older ⊆ T) : Unrounded older where
  apart e he := hT.apart e (hsub he)
  rising p hp q hq := by
    have hmem : ∀ p ∈ older.filterMap Event.spaces?, p ∈ T.filterMap Event.spaces? := by
      intro p hp
      obtain ⟨e, he, hspaces⟩ := List.mem_filterMap.1 hp
      exact List.mem_filterMap.2 ⟨e, hsub he, hspaces⟩
    exact hT.rising p (hmem p hp) q (hmem q hq)

namespace Board

variable {b : Board} {h : Holder} {workspace : WorkspaceId} {lane : Lane} {target : TaskId} {gap : Gap} {x : Position}

section Guards

variable (hd : b.rows.Distinct) (hg : Guards b h workspace lane target gap) (hx : gap.Contains x) {u : Task}
  (hu : u ∈ b.rows.lane workspace lane) (hid : u.id ≠ target)

include hd hg hx hu hid

theorem Guards.above (hafter : ∀ n, gap.after = some n → n.position.rank < u.position.rank) :
    x.rank < u.position.rank := by
  have hnumber := number_of_mem_lane hd hu
  have hnot := hg.clear u hu hid
  rw [Gap.contains_iff] at hx hnot
  rw [← Int.not_le]
  intro hle
  apply hnot
  constructor
  . intro n hn
    have hlt := Binary64.lt_iff.1 (hx.1 n hn)
    exact Binary64.lt_iff.2 ⟨hnumber, hlt.2.1, by omega⟩
  . intro n hn
    exact Binary64.lt_iff.2 ⟨(Binary64.lt_iff.1 (hx.2 n hn)).1, hnumber, hafter n hn⟩

theorem Guards.below (hbefore : ∀ n, gap.before = some n → u.position.rank < n.position.rank) :
    u.position.rank < x.rank := by
  have hnumber := number_of_mem_lane hd hu
  have hnot := hg.clear u hu hid
  rw [Gap.contains_iff] at hx hnot
  rw [← Int.not_le]
  intro hle
  apply hnot
  constructor
  . intro n hn
    exact Binary64.lt_iff.2 ⟨hnumber, (Binary64.lt_iff.1 (hx.1 n hn)).2.1, hbefore n hn⟩
  . intro n hn
    have hlt := Binary64.lt_iff.1 (hx.2 n hn)
    exact Binary64.lt_iff.2 ⟨hlt.1, hnumber, by omega⟩

end Guards

section Place

variable (hd : b.rows.Distinct) (hg : Guards b h workspace lane target gap) {t : Task} (hx : gap.Contains t.position)
  {others : List Task} (hothers : ∀ u, u ∈ others ↔ u ∈ b.rows.lane workspace lane ∧ u.id ≠ target)
  (hsorted : others.Pairwise (·.visualLe · = true)) (hnodup : (others.map (·.id)).Nodup)

include hd hothers in
theorem rank_lt_of_others {u v : Task} (hu : u ∈ others) (hv : v ∈ others) (hid : u.id ≠ v.id)
    (hle : u.visualLe v = true) : u.position.rank < v.position.rank := by
  have := Task.rank_le_of_visualLe hle
  have : u.position.rank ≠ v.position.rank := by
    intro heq
    exact hid (hd.distinct _ _ u ((hothers u).1 hu).1 v ((hothers v).1 hv).1 heq)
  omega

include hd hg hx hothers hsorted hnodup

theorem Guards.place_after {n : Neighbor} (hafter : gap.after = some n) :
    ∃ ys : List Task, ys.Perm (t :: others) ∧ ys.Pairwise (·.visualLe · = true)
      ∧ ys.map (·.id) = insertAfter n.id t.id (others.map (·.id)) := by
  obtain ⟨anchor, hanchor, rfl, hid, _⟩ := hg.after n hafter
  have hmem := (hothers anchor).2 ⟨hanchor, hid⟩
  have hlt := (Binary64.lt_iff.1 ((Gap.contains_iff.1 hx).2 _ hafter)).2.2
  apply sorted_insertAfter hsorted hnodup hmem (Task.visualLe_of_rank_lt hlt)
  intro u hu hne hle
  apply Task.visualLe_of_rank_lt
  apply hg.above hd hx ((hothers u).1 hu).1 ((hothers u).1 hu).2
  intro n hn
  rw [hafter] at hn
  cases hn
  exact rank_lt_of_others hd hothers hmem hu (Ne.symm hne) hle

theorem Guards.place_before {n : Neighbor} (hbefore : gap.before = some n) :
    ∃ ys : List Task, ys.Perm (t :: others) ∧ ys.Pairwise (·.visualLe · = true)
      ∧ ys.map (·.id) = insertBefore n.id t.id (others.map (·.id)) := by
  obtain ⟨anchor, hanchor, rfl, hid, _⟩ := hg.before n hbefore
  have hmem := (hothers anchor).2 ⟨hanchor, hid⟩
  have hlt := (Binary64.lt_iff.1 ((Gap.contains_iff.1 hx).1 _ hbefore)).2.2
  apply sorted_insertBefore hsorted hnodup hmem (Task.visualLe_of_rank_lt hlt)
  intro u hu hne hle
  apply Task.visualLe_of_rank_lt
  apply hg.below hd hx ((hothers u).1 hu).1 ((hothers u).1 hu).2
  intro n hn
  rw [hbefore] at hn
  cases hn
  exact rank_lt_of_others hd hothers hu hmem hne hle

omit hnodup in
theorem Guards.place_last (hbefore : gap.before = none) : (others ++ [t]).Pairwise (·.visualLe · = true) := by
  apply sorted_append hsorted
  intro u hu
  apply Task.visualLe_of_rank_lt
  apply hg.below hd hx ((hothers u).1 hu).1 ((hothers u).1 hu).2
  intro n hn
  rw [hbefore] at hn
  cases hn

end Place

/-- A row that is put into a guarded gap next to the anchors of a move stands where the move was to put it. -/
theorem Guards.place {r : MoveRequest} {anchors : Gap} {nearest : Option Neighbor} (hd : b.rows.Distinct)
    (hg : Guards b h r.workspace lane r.task (anchors.closed nearest))
    (hnamed : anchors.before.map (·.id) = r.before ∧ anchors.after.map (·.id) = r.after) {t' : Task}
    (hx : (anchors.closed nearest).Contains t'.position) (ht' : t'.id = r.task) :
    ∃ ys : List Task, ys.Perm (t' :: (b.rows.list r.workspace lane).filter (·.id ≠ t'.id))
      ∧ ys.Pairwise (·.visualLe · = true)
      ∧ ys.map (·.id) = r.place ((b.rows.ids r.workspace lane).filter (· ≠ r.task)) := by
  have hothers : ∀ u, u ∈ (b.rows.list r.workspace lane).filter (·.id ≠ t'.id)
      ↔ u ∈ b.rows.lane r.workspace lane ∧ u.id ≠ r.task := by
    intro u
    rw [List.mem_filter, Rows.mem_list, Rows.mem_lane, ht']
    simp
  have hsorted : ((b.rows.list r.workspace lane).filter (·.id ≠ t'.id)).Pairwise (·.visualLe · = true) :=
    Rows.pairwise_list.filter _
  have hnodup : (((b.rows.list r.workspace lane).filter (·.id ≠ t'.id)).map (·.id)).Nodup :=
    Rows.nodup_list.sublist (List.filter_sublist.map _)
  have hids : (b.rows.ids r.workspace lane).filter (· ≠ r.task)
      = ((b.rows.list r.workspace lane).filter (·.id ≠ t'.id)).map (·.id) := by
    rw [map_id_filter, ht']
    rfl
  rw [hids]
  unfold MoveRequest.place
  rw [← hnamed.2, ← hnamed.1, ← ht']
  obtain ⟨before, after⟩ := anchors
  -- of two anchors only the one below is sure to be a side of the gap, so it is looked at first
  cases after with
  | some n =>
    apply hg.place_after hd hx hothers hsorted hnodup
    cases before <;> rfl
  | none =>
    cases before with
    | some n => exact hg.place_before hd hx hothers hsorted hnodup rfl
    | none =>
      refine ⟨_, List.perm_append_singleton .., hg.place_last hd hx hothers hsorted rfl, ?_⟩
      rw [List.map_append]
      rfl

theorem endsFinite_of_last {rows' : Rows} {r : MoveRequest} {t' : Task} (hd : b.rows.Distinct)
    (hm : b.rows.Moves rows' r lane t') (hx : t'.position.isFinite = true) {xs : List TaskId}
    (hids : rows'.ids r.workspace lane = xs ++ [r.task]) : b.rows.EndsFinite r.workspace lane r.task := by
  intro u hu hid
  have ht' : t' ∈ rows'.lane r.workspace lane := (hm.lanes _ _ _).2 (.inr ⟨rfl, rfl, rfl⟩)
  have hu' : u ∈ rows'.lane r.workspace lane := (hm.lanes _ _ _).2 (.inl ⟨hu, hid⟩)
  rw [← hm.id] at hids
  have hle := Task.rank_le_of_visualLe (Rows.visualLe_last hids ht' hu')
  have hlt := Binary64.lt_iff.1 (Binary64.lt_infinity hx)
  exact Binary64.lt_iff.2 ⟨number_of_mem_lane hd hu, hlt.2.1, by omega⟩

theorem Spaces.distinct_commit {r : RenormalizeRequest} {T s : History ops} {ids : List TaskId} {tasks : List Task}
    (hspaces : Spaces r T s lane ids tasks) (hb : Holds b h T) (hundeleted : Undeleted s)
    (hd : b.rows.Distinct) (hun : Unrounded T) (hmem : ∀ {t}, t ∈ b.rows.lane r.workspace lane → t ∈ tasks) :
    (b.commit h).rows.Distinct := by
  refine ⟨?_, ?_⟩
  . intro t ht hlive
    have ht := Rows.mem_own_lane ht hlive
    rw [hspaces.lane_commit hb hundeleted] at ht
    obtain ⟨u, hu, heq⟩ := List.mem_map.1 ht
    by_cases hutask : u ∈ tasks
    . obtain ⟨index, x, time, _, hoverlay, hspaced⟩ := hspaces.overlay hutask
      rw [← heq, hoverlay]
      exact Event.number_of_keepsApart (hun.apart _ (mem_of_since hspaces.opened hspaced))
    . rw [← heq, hspaces.overlay_of_ne]
      . exact number_of_mem_lane hd hu
      . intro t' ht' hid
        have hrow := (Rows.mem_lane.1 (hspaces.row hb hundeleted ht')).1
        exact hutask (Rows.eq_of_id_eq hrow (Rows.mem_lane.1 hu).1 hid ▸ ht')
  . intro workspace other t ht u hu hrank
    by_cases hhere : workspace = r.workspace ∧ other = lane
    . obtain ⟨rfl, rfl⟩ := hhere
      rw [hspaces.lane_commit hb hundeleted] at ht hu
      obtain ⟨t₀, ht₀, rfl⟩ := List.mem_map.1 ht
      obtain ⟨u₀, hu₀, rfl⟩ := List.mem_map.1 hu
      rw [(hspaces.order hun.rising (hmem ht₀) (hmem hu₀)).2 hrank]
    . rw [hspaces.lane_commit_of_ne hb hundeleted hhere] at ht hu
      exact hd.distinct workspace other t ht u hu hrank

theorem distinct_insert {rows rows' : Rows} {t : Task} (hd : rows.Distinct) (hinsert : rows.insert? t = some rows')
    (hlive : t.isLive = true) (hnumber : t.position.isNaN = false)
    (habove : ∀ u ∈ rows.lane t.workspace t.lane, u.position.rank < t.position.rank) : rows'.Distinct := by
  refine ⟨?_, ?_⟩
  . intro u hu hulive
    rcases (Rows.mem_lane_insert hinsert hlive).1 (Rows.mem_own_lane hu hulive) with hu | ⟨rfl, _, _⟩
    . obtain ⟨hmem, hlane⟩ := Rows.mem_lane.1 hu
      exact hd.number u hmem (Task.isInLane_iff.1 hlane).1
    . exact hnumber
  . intro workspace other u hu v hv hrank
    rcases (Rows.mem_lane_insert hinsert hlive).1 hu with hu | ⟨rfl, rfl, rfl⟩
    . rcases (Rows.mem_lane_insert hinsert hlive).1 hv with hv | ⟨rfl, rfl, rfl⟩
      . exact hd.distinct workspace other u hu v hv hrank
      . have := habove u hu
        omega
    . rcases (Rows.mem_lane_insert hinsert hlive).1 hv with hv | ⟨rfl, _, _⟩
      . have := habove v hv
        omega
      . rfl

end Board

/-- A move finds the end of its lane, unless it does not look for it since it has anchors. -/
def MoveRequest.FindsEnd (r : MoveRequest) (rows : Rows) (lane : Lane) : Prop :=
  r.before = none → r.after = none → rows.EndsFinite r.workspace lane r.task

instance (r : MoveRequest) (rows : Rows) (lane : Lane) : Decidable (r.FindsEnd rows lane) :=
  inferInstanceAs (Decidable (_ → _ → _))

namespace Request

variable {h : Holder} {b b' : Board} {T : History ops} {e : Event ops} {a : Answer}

theorem Effective.commits {q : Request} (he : q.Effective h b b' T e a)
    (hq : (∃ r, q = .move r) ∨ ∃ r, q = .renormalize r) :
    q.protocol.allowed T (.action .commit) ∧ ∃ b₁, q.Unaltered h b b₁ T ∧ b'.rows = (b₁.commit h).rows := by
  obtain ⟨halters, hallowed, ⟨b₁, hunaltered, b₂, hhappens, hrows⟩, _⟩ := he
  have hcommit : e = ⟨.action .commit, ()⟩ := by
    unfold Request.alters at halters
    rcases hq with ⟨r, rfl⟩ | ⟨r, rfl⟩ <;> split at halters <;> simp_all
  subst hcommit
  refine ⟨hallowed, b₁, hunaltered, hrows.trans ?_⟩
  cases hhappens with
  | acts ha =>
    cases ha
    rfl
  | givesUp ha => cases ha

/-- A move puts its target next to its anchors. Without any it puts it at the end of its lane if and only if it finds the
end. -/
theorem Effective.move {r : MoveRequest} (he : (move r).Effective h b b' T e a) (hd : b.rows.Distinct)
    (hapart : ∀ e ∈ T, e.keepsApart = true) :
    ∃ lane, Lane.parse r.lane = .ok lane
      ∧ (r.FindsEnd b.rows lane → b'.rows.ids = Lists.move b.rows.ids r lane ∧ b'.rows.Distinct)
      ∧ ((∀ e ∈ T, AllocatesInside e) → b'.rows.ids = Lists.move b.rows.ids r lane → r.FindsEnd b.rows lane) := by
  obtain ⟨hallowed, b₁, ⟨hrows, hreads, hholds, hlawful⟩, hrows'⟩ := he.commits (.inl ⟨r, rfl⟩)
  obtain ⟨lane, anchors, nearest, alloc, w, hsettled⟩ := settled_of_commit hallowed hlawful
  have hun : ∀ s, opened T = some s → Undeleted s :=
    fun _ => undeleted_of_lawful Process.not_deletes_of_move hlawful
  obtain ⟨t', hposition, hmoves⟩ := hsettled.moves hholds hun
  obtain ⟨x, hx, hallocates⟩ := List.exists_of_findSome?_eq_some hsettled.allotted
  have hx' := hapart x hx
  rw [hrows', ← hrows]
  rw [← hrows] at hd hreads
  refine ⟨lane, hsettled.parsed, ?_, ?_⟩
  . intro hends
    obtain ⟨_, hlook⟩ := hsettled.read
    obtain ⟨s, hs, hmem, hsecured⟩ := hlook.opened
    have hread := hreads _ (mem_of_since hs hmem)
    -- the end of the lane is looked for only if there are no anchors
    have hopen : anchors.isOpen = true → b₁.rows.EndsFinite r.workspace lane r.task := by
      intro hopen
      obtain ⟨hbefore, hafter⟩ : anchors.before = none ∧ anchors.after = none := by simpa [Gap.isOpen] using hopen
      apply hends
      . rw [← hsettled.named.1, hbefore]
        rfl
      . rw [← hsettled.named.2, hafter]
        rfl
    have hguards : Guards b₁ h r.workspace lane r.task (anchors.closed nearest) :=
      ⟨ownsBorder_of_secured hholds hs (hun _ hs) hsecured hread (hlawful.refines protocol_refines),
        fun t ht hid => clear_of_secured hholds hs (hun _ hs) hsecured hread (hd.lane r.workspace lane).number ht hid
          fun hanchors => hopen hanchors t ht hid⟩
    obtain ⟨hnumber, hinside⟩ := Event.between_of_keepsApart hx' hallocates
    have hfills := fills_of_settled hsettled hholds hun hguards hnumber hinside
    rw [← hposition] at hinside
    obtain ⟨ys, hperm, hsorted, hids⟩ := hguards.place hd hsettled.named hinside hmoves.id
    refine ⟨hmoves.ids.2 ?_, hfills.distinct hd⟩
    rw [Rows.ids_of_enters _ hperm hsorted, hids]
    intro t
    rw [hmoves.lanes, hmoves.id]
    simp
  . intro hfinite hids hbefore hafter
    rw [hmoves.ids] at hids
    unfold MoveRequest.place at hids
    rw [hbefore, hafter] at hids
    apply endsFinite_of_last hd hmoves _ hids
    rw [hposition]
    exact (hfinite x hx _ _ _ hallocates).1

theorem found_of_reads {rows : Rows} (hreads : ∀ e ∈ T, e.ReadFrom rows) : Found T := by
  rintro newer older id rfl e he ids hids hid
  have hnone : none = rows.find? id := hreads ⟨.action (.lockRow id), .granted none⟩ (by simp)
  have hread := hreads e (by simp [he])
  unfold Event.lists? at hids
  split at hids
  . next workspace lane _ =>
    cases hids
    rw [show ids = rows.laneIds workspace lane from hread] at hid
    obtain ⟨t, ht, rfl⟩ := Rows.mem_laneIds.1 hid
    rw [Rows.find?_eq_some.2 ⟨(Rows.mem_lane.1 ht).1, rfl⟩] at hnone
    cases hnone
  . cases hids

theorem Effective.renormalize {r : RenormalizeRequest} (he : (renormalize r).Effective h b b' T e a)
    (hd : b.rows.Distinct) (hun : Unrounded T) : b'.rows.ids = b.rows.ids ∧ b'.rows.Distinct := by
  obtain ⟨hallowed, b₁, ⟨hrows, hreads, hholds, hlawful⟩, hrows'⟩ := he.commits (.inr ⟨r, rfl⟩)
  obtain ⟨lane, ids, tasks, s, hspaces⟩ := spaces_of_commit hallowed hlawful
  have hundeleted := undeleted_of_lawful Process.not_deletes_of_renormalization hlawful hspaces.opened
  have hfound := found_of_reads hreads
  rw [hrows', ← hrows]
  rw [← hrows] at hd hreads
  have hlisted : ids = b₁.rows.laneIds r.workspace lane := hreads _ (mem_of_since hspaces.opened hspaces.read)
  have hmem : ∀ {t}, t ∈ b₁.rows.lane r.workspace lane → t ∈ tasks := by
    intro t ht
    apply hspaces.mem_tasks hholds hundeleted hfound ht
    rw [hlisted]
    exact Rows.mem_laneIds.2 ⟨t, ht, rfl⟩
  refine ⟨?_, hspaces.distinct_commit hholds hundeleted hd hun hmem⟩
  funext workspace other
  by_cases hhere : workspace = r.workspace ∧ other = lane
  . obtain ⟨rfl, rfl⟩ := hhere
    rw [hspaces.ids_commit hholds hundeleted hfound hun.rising]
    intro x hx hxid
    exact absurd (hspaces.id_mem (hmem hx)) hxid
  . unfold Rows.ids Rows.list
    rw [hspaces.lane_commit_of_ne hholds hundeleted hhere]

theorem Effective.create {r : CreateRequest} (he : (create r).Effective h b b' T e a) (hd : b.rows.Distinct)
    (hapart : ∀ e ∈ T, e.keepsApart = true) :
    ∃ t lane, a = .created t ∧ Lane.parse r.lane = .ok lane
      ∧ b'.rows.ids = Lists.append b.rows.ids r.workspace lane t.id ∧ b'.rows.Distinct := by
  obtain ⟨_, hallowed, ⟨b₁, ⟨hrows, hreads, _, _⟩, b₂, hhappens, hrows'⟩, hcreated⟩ := he
  obtain ⟨t, hanswer, rfl⟩ := hcreated r rfl
  obtain ⟨lane, greatest, newer, older, hlane, hlive, hworkspace, htlane, hpast, _, happend⟩ := greatest_of_insert hallowed
  have hinsert : b.rows.insert? t = some b'.rows := by
    rw [hrows', ← hrows]
    cases hhappens with
    | acts ha =>
      cases act_change ha with
      | inserts he hrows =>
        cases he
        exact hrows
      | none he =>
        cases he.inserts
      | gets hgets => cases hgets
      | starts he | writes he | deletes he | commits he | releases he => cases he
    | givesUp ha => cases (act_blocking ha).awaits
  subst htlane
  have hlt : greatest < t.position := by
    have hmem : (⟨.ambient (.appendAfter greatest), t.position⟩ : Event ops) ∈ T := by simp [hpast, happend]
    simpa [Event.keepsApart] using hapart _ hmem
  have hread : greatest = b.rows.greatest r.workspace t.lane :=
    hreads ⟨.action (.greatest r.workspace t.lane), greatest⟩ (by simp [hpast])
  have habove : ∀ u ∈ b.rows.lane t.workspace t.lane, u.position.rank < t.position.rank := by
    intro u hu
    rw [hworkspace] at hu
    have hle := Rows.rank_le_greatest (fun u hu => number_of_mem_lane hd hu) hu
    have hrank := (Binary64.lt_iff.1 hlt).2.2
    rw [hread] at hrank
    omega
  refine ⟨t, t.lane, hanswer, hlane, ?_, distinct_insert hd hinsert hlive (Binary64.lt_iff.1 hlt).2.1 habove⟩
  rw [← hworkspace]
  exact Rows.ids_insert hinsert hlive fun u hu => Task.visualLe_of_rank_lt (habove u hu)

theorem row_of_delete {workspace : WorkspaceId} {id : TaskId} {time : Timestamp}
    (ha : (call (.delete workspace id)).protocol.allowed T (.action (.delete id time))) :
    ∃ t, t.isIn workspace = true ∧ (⟨.action (.lockRow id), .granted (some t)⟩ : Event ops) ∈ T := by
  obtain ⟨c, H, T₀, E, hserves, rfl, _, _, hc, hreach⟩ := behalf_cases ha
  cases hc.2.2
  rcases reaches_bind hreach with hstart | ⟨_, E₁, E₂, _, hrest, rfl⟩
  . rcases reaches_perform.1 hstart with ⟨_, heq⟩ | ⟨_, _, hdone, _⟩
    . cases heq
    . exact absurd hdone reaches_done
  . rcases reaches_bind hrest with hlocks | ⟨locked, E₃, E₄, hlock, hlast, rfl⟩
    . have honly : Only (fun op : Op => op = .action (.lockRow id))
          (lockRow id (·.isIn workspace) (.missingTask workspace id)) := only_lockRow rfl
      cases honly.of_reaches hlocks
    . cases locked with
      | ok t =>
        obtain ⟨hin, rfl⟩ := ends_lockRow hlock
        exact ⟨t, hin, by simp⟩
      | error error =>
        rcases reaches_bind hlast with hrollback | ⟨_, _, _, _, hdone, _⟩
        . rcases reaches_perform.1 hrollback with ⟨_, heq⟩ | ⟨_, _, hdone, _⟩
          . cases heq
          . exact absurd hdone reaches_done
        . split at hdone <;> exact absurd hdone reaches_done

theorem Effective.delete {workspace : WorkspaceId} {id : TaskId}
    (he : (call (.delete workspace id)).Effective h b b' T e a) (hd : b.rows.Distinct) :
    b'.rows.ids = Lists.remove b.rows.ids workspace id ∧ b'.rows.Distinct := by
  obtain ⟨halters, hallowed, ⟨b₁, ⟨hrows, hreads, _, _⟩, b₂, hhappens, hrows'⟩, _⟩ := he
  have hdelete : ∃ id' time, e = ⟨.action (.delete id' time), ()⟩ := by
    unfold Request.alters at halters
    split at halters <;> simp_all
  obtain ⟨id', time, rfl⟩ := hdelete
  obtain ⟨_, hq⟩ := delete_cases hallowed
  cases hq
  obtain ⟨t, hin, hlocked⟩ := row_of_delete hallowed
  have hfind : some t = b.rows.find? id := hreads _ hlocked
  have hdeleted : b'.rows = (b.delete id time).rows := by
    rw [hrows']
    cases hhappens with
    | acts ha =>
      cases ha
      unfold Board.delete
      rw [hrows]
    | givesUp ha => cases ha
  obtain ⟨hmem, hid⟩ := Rows.find?_eq_some.1 hfind.symm
  rw [hdeleted]
  refine ⟨?_, distinct_delete hd⟩
  funext workspace' lane
  rw [Rows.ids_of_leaves fun t => mem_lane_delete]
  unfold Lists.remove
  split
  . rfl
  . next hne =>
    apply Rows.ids_of_stays
    intro u hu huid
    obtain ⟨hu, hulane⟩ := Rows.mem_lane.1 hu
    rw [Rows.eq_of_id_eq hu hmem (huid.trans hid.symm)] at hulane
    exact hne ((Task.isInLane_iff.1 hulane).2.1.symm.trans (Task.isIn_iff.1 hin).2)

end Request

end LaneOrder
