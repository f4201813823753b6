import LaneOrder.Proofs.Binary64.Order
import LaneOrder.Proofs.Board.Discipline
import LaneOrder.Proofs.Command.Gap

/-!
This module contains gaps on a board. Whoever holds the locks of a gap's border keeps it empty: nobody else can hold a
gap in the same lane that overlaps with it.
-/

namespace LaneOrder

open Program

def Between (before after : Option Position) (x : Position) : Prop :=
  (∀ p, before = some p → x < p) ∧ ∀ p, after = some p → p < x

instance (before after : Option Position) (x : Position) : Decidable (Between before after x) :=
  inferInstanceAs (Decidable (_ ∧ _))

theorem Between.congr {before after : Option Position} {x y : Position} (h : Between before after x)
    (hy : y.isNaN = false) (hrank : x.rank = y.rank) : Between before after y := by
  constructor
  . intro p hp
    have := h.1 p hp
    rw [Binary64.lt_iff] at *
    exact ⟨hy, this.2.1, hrank ▸ this.2.2⟩
  . intro p hp
    have := h.2 p hp
    rw [Binary64.lt_iff] at *
    exact ⟨this.1, hy, hrank ▸ this.2.2⟩

namespace Gap

def bounds (gap : Gap) : Option Position × Option Position :=
  (gap.before.map (·.position), gap.after.map (·.position))

def Contains (gap : Gap) (x : Position) : Prop :=
  Between gap.bounds.1 gap.bounds.2 x

theorem contains_iff {gap : Gap} {x : Position} :
    gap.Contains x ↔ (∀ n, gap.before = some n → x < n.position) ∧ ∀ n, gap.after = some n → n.position < x := by
  unfold Contains Between bounds
  simp

theorem mem_rows_of_before {gap : Gap} {n : Neighbor} (h : gap.before = some n) : n.id ∈ gap.rows := by
  simp [rows, h]

theorem mem_rows_of_after {gap : Gap} {n : Neighbor} (h : gap.after = some n) : n.id ∈ gap.rows := by
  simp [rows, h]

theorem isOpen_of_none {gap : Gap} (hbefore : ∀ n, gap.before ≠ some n) (hafter : ∀ n, gap.after ≠ some n) :
    gap.isOpen = true := by
  unfold isOpen
  rw [Option.eq_none_iff_forall_ne_some.2 hbefore, Option.eq_none_iff_forall_ne_some.2 hafter]
  rfl

end Gap

/-- The live rows of every lane have pairwise different numbers as their positions. -/
structure Rows.Distinct (r : Rows) : Prop where
  number : ∀ t ∈ r.tasks, t.isLive = true → t.position.isNaN = false
  distinct : ∀ workspace lane, ∀ t ∈ r.lane workspace lane, ∀ u ∈ r.lane workspace lane,
    t.position.rank = u.position.rank → t.id = u.id

/-- The live rows of one lane have pairwise different numbers as their positions. -/
structure Rows.DistinctIn (r : Rows) (workspace : WorkspaceId) (lane : Lane) : Prop where
  number : ∀ t ∈ r.lane workspace lane, t.position.isNaN = false
  distinct : ∀ t ∈ r.lane workspace lane, ∀ u ∈ r.lane workspace lane, t.position.rank = u.position.rank → t.id = u.id

theorem Rows.Distinct.lane {r : Rows} (hd : r.Distinct) (workspace : WorkspaceId) (lane : Lane) :
    r.DistinctIn workspace lane where
  number t ht := hd.number t (Rows.mem_lane.1 ht).1 (Task.isInLane_iff.1 (Rows.mem_lane.1 ht).2).1
  distinct := hd.distinct workspace lane

def Rows.Finite (r : Rows) : Prop :=
  ∀ t ∈ r.tasks, t.isLive = true → t.position.isFinite = true

instance (r : Rows) : Decidable r.Finite :=
  inferInstanceAs (Decidable (∀ t ∈ r.tasks, _))

theorem Rows.distinct_of_tasks {r : Rows} (hnumber : ∀ t ∈ r.tasks, t.position.isNaN = false)
    (hdistinct : ∀ t ∈ r.tasks, ∀ u ∈ r.tasks, t.position.rank = u.position.rank → t.id = u.id) : r.Distinct where
  number t ht _ := hnumber t ht
  distinct _ _ t ht u hu := hdistinct t (Rows.mem_lane.1 ht).1 u (Rows.mem_lane.1 hu).1

/-- All rows of a lane but one are below infinity. The end of a lane is looked for there, so it is found then. -/
def Rows.EndsFinite (r : Rows) (workspace : WorkspaceId) (lane : Lane) (target : TaskId) : Prop :=
  ∀ t ∈ r.lane workspace lane, t.id ≠ target → t.position < Binary64.infinity

instance (r : Rows) (workspace : WorkspaceId) (lane : Lane) (target : TaskId) :
    Decidable (r.EndsFinite workspace lane target) :=
  inferInstanceAs (Decidable (∀ t ∈ r.lane workspace lane, _))

theorem Rows.endsFinite_of_finite {r : Rows} (hfinite : r.Finite) {workspace : WorkspaceId} {lane : Lane}
    {target : TaskId} : r.EndsFinite workspace lane target := by
  intro t ht _
  obtain ⟨hmem, hlane⟩ := Rows.mem_lane.1 ht
  exact Binary64.lt_infinity (hfinite t hmem (Task.isInLane_iff.1 hlane).1)

namespace Board

/-- A holder owns the border of a gap: its target, and the rows that the gap ends at, or the seed of the lane if there are
none. -/
structure OwnsBorder (b : Board) (h : Holder) (workspace : WorkspaceId) (lane : Lane) (target : TaskId) (gap : Gap) :
    Prop where
  owned : b.locks.owner? (.row target) = some h
  before : ∀ n, gap.before = some n → ∃ t ∈ b.rows.lane workspace lane, t.toNeighbor = n ∧ t.id ≠ target
    ∧ b.locks.owner? (.row t.id) = some h
  after : ∀ n, gap.after = some n → ∃ t ∈ b.rows.lane workspace lane, t.toNeighbor = n ∧ t.id ≠ target
    ∧ b.locks.owner? (.row t.id) = some h
  seed : gap.isOpen = true → b.locks.owner? (.seed workspace lane) = some h

/-- No row of a lane but the target is inside of a gap. -/
def IsClear (b : Board) (workspace : WorkspaceId) (lane : Lane) (target : TaskId) (gap : Gap) : Prop :=
  ∀ t ∈ b.rows.lane workspace lane, t.id ≠ target → ¬ gap.Contains t.position

/-- A holder guards a gap for its target: it owns the border, and no other row is inside. -/
structure Guards (b : Board) (h : Holder) (workspace : WorkspaceId) (lane : Lane) (target : TaskId) (gap : Gap) : Prop
    extends OwnsBorder b h workspace lane target gap where
  clear : b.IsClear workspace lane target gap

/-- Two gaps end at rows that have one position, and each holder owns the row that its gap ends at. -/
def TiedBorders (b : Board) (workspace : WorkspaceId) (lane : Lane) (h h' : Holder) (gap gap' : Gap) : Prop :=
  ∃ t ∈ b.rows.lane workspace lane, ∃ t' ∈ b.rows.lane workspace lane, t.position.rank = t'.position.rank
    ∧ (t.id ∈ gap.rows ∧ b.locks.owner? (.row t.id) = some h) ∧ t'.id ∈ gap'.rows ∧ b.locks.owner? (.row t'.id) = some h'

variable {b b' : Board} {h h' : Holder} {workspace : WorkspaceId} {lane : Lane} {target target' : TaskId} {gap gap' : Gap}

theorem number_of_mem_lane (hd : b.rows.Distinct) {t : Task} (ht : t ∈ b.rows.lane workspace lane) :
    t.position.isNaN = false :=
  (hd.lane workspace lane).number t ht

theorem Guards.not_contains (hg : Guards b h workspace lane target gap) (hh : h ≠ h') {t : Task}
    (ht : t ∈ b.rows.lane workspace lane) (howner : b.locks.owner? (.row t.id) = some h') :
    ¬ gap.Contains t.position := by
  apply hg.clear t ht
  intro hid
  rw [hid, hg.owned] at howner
  exact hh (Option.some.inj howner)

section Overlap

variable (hnumber : ∀ t ∈ b.rows.lane workspace lane, t.position.isNaN = false)
  (hg : Guards b h workspace lane target gap) (hg' : Guards b h' workspace lane target' gap') (hh : h ≠ h') {x : Position}
  (hx : gap.Contains x) (hx' : gap'.Contains x)

include hnumber hg hg' hh hx hx'

theorem Guards.after_le {n' : Neighbor} (hn' : gap'.after = some n') :
    ∃ n, gap.after = some n ∧ n'.position.rank ≤ n.position.rank := by
  obtain ⟨t', ht', rfl, _, howner'⟩ := hg'.after n' hn'
  have hbelow : t'.position < x := (Gap.contains_iff.1 hx').2 _ hn'
  -- the row at the other border is owned by the other holder, so it is not inside of this gap: this gap ends above it
  have hends : ¬ ∀ n, gap.after = some n → n.position < t'.position := by
    intro hafter
    apply hg.not_contains hh ht' howner'
    rw [Gap.contains_iff]
    exact ⟨fun n hn => Binary64.lt_trans hbelow ((Gap.contains_iff.1 hx).1 n hn), hafter⟩
  push Not at hends
  obtain ⟨n, hn, hle⟩ := hends
  obtain ⟨t, ht, rfl, _⟩ := hg.after n hn
  exact ⟨_, hn, Int.not_lt.1 fun hlt => hle ((Binary64.lt_of_number (hnumber t ht) (hnumber t' ht')).2 hlt)⟩

theorem Guards.before_le {n' : Neighbor} (hn' : gap'.before = some n') :
    ∃ n, gap.before = some n ∧ n.position.rank ≤ n'.position.rank := by
  obtain ⟨t', ht', rfl, _, howner'⟩ := hg'.before n' hn'
  have habove : x < t'.position := (Gap.contains_iff.1 hx').1 _ hn'
  -- as before, with the sides exchanged
  have hends : ¬ ∀ n, gap.before = some n → t'.position < n.position := by
    intro hbefore
    apply hg.not_contains hh ht' howner'
    rw [Gap.contains_iff]
    exact ⟨hbefore, fun n hn => Binary64.lt_trans ((Gap.contains_iff.1 hx).2 n hn) habove⟩
  push Not at hends
  obtain ⟨n, hn, hle⟩ := hends
  obtain ⟨t, ht, rfl, _⟩ := hg.before n hn
  exact ⟨_, hn, Int.not_lt.1 fun hlt => hle ((Binary64.lt_of_number (hnumber t' ht') (hnumber t ht)).2 hlt)⟩

/-- If two gaps of a lane that different holders guard overlap, then they end at rows that have one position. -/
theorem Guards.tiedBorders : b.TiedBorders workspace lane h h' gap gap' := by
  -- each border would be at least as narrow as the other one
  by_cases hafter : ∃ n', gap'.after = some n'
  . obtain ⟨n', hn'⟩ := hafter
    obtain ⟨n, hn, hle⟩ := hg.after_le hnumber hg' hh hx hx' hn'
    obtain ⟨n'', hn'', hle'⟩ := hg'.after_le hnumber hg (Ne.symm hh) hx' hx hn
    rw [hn'] at hn''
    cases hn''
    obtain ⟨t, ht, rfl, _, howner⟩ := hg.after n hn
    obtain ⟨t', ht', rfl, _, howner'⟩ := hg'.after n' hn'
    exact ⟨t, ht, t', ht', Int.le_antisymm hle' hle, ⟨Gap.mem_rows_of_after hn, howner⟩, Gap.mem_rows_of_after hn', howner'⟩
  . by_cases hbefore : ∃ n', gap'.before = some n'
    . obtain ⟨n', hn'⟩ := hbefore
      obtain ⟨n, hn, hle⟩ := hg.before_le hnumber hg' hh hx hx' hn'
      obtain ⟨n'', hn'', hle'⟩ := hg'.before_le hnumber hg (Ne.symm hh) hx' hx hn
      rw [hn'] at hn''
      cases hn''
      obtain ⟨t, ht, rfl, _, howner⟩ := hg.before n hn
      obtain ⟨t', ht', rfl, _, howner'⟩ := hg'.before n' hn'
      exact ⟨t, ht, t', ht', Int.le_antisymm hle hle', ⟨Gap.mem_rows_of_before hn, howner⟩, Gap.mem_rows_of_before hn',
        howner'⟩
    . -- neither of them has a border, so both hold the seed of the lane
      exfalso
      have hopen' : gap'.isOpen = true := Gap.isOpen_of_none (not_exists.1 hbefore) (not_exists.1 hafter)
      have hopen : gap.isOpen = true := by
        apply Gap.isOpen_of_none
        . intro n hn
          obtain ⟨n', hn', _⟩ := hg'.before_le hnumber hg (Ne.symm hh) hx' hx hn
          exact hbefore ⟨n', hn'⟩
        . intro n hn
          obtain ⟨n', hn', _⟩ := hg'.after_le hnumber hg (Ne.symm hh) hx' hx hn
          exact hafter ⟨n', hn'⟩
      have hseed := hg.seed hopen
      rw [hg'.seed hopen'] at hseed
      exact hh (Option.some.inj hseed).symm

end Overlap

/-- Two gaps of a lane that different holders guard do not overlap as long as no two rows share a position. -/
theorem Guards.disjoint (hd : b.rows.DistinctIn workspace lane) (hg : Guards b h workspace lane target gap)
    (hg' : Guards b h' workspace lane target' gap') (hh : h ≠ h') {x : Position} (hx : gap.Contains x) :
    ¬ gap'.Contains x := by
  intro hx'
  obtain ⟨t, ht, t', ht', hrank, ⟨_, howner⟩, _, howner'⟩ := hg.tiedBorders hd.number hg' hh hx hx'
  rw [hd.distinct t ht t' ht' hrank, howner'] at howner
  exact hh (Option.some.inj howner).symm

/-- The border of a gap was locked, and its target and its anchors were seen under their locks. -/
structure Secured (older : History ops) (workspace : WorkspaceId) (lane : Lane) (target : TaskId) (anchors gap : Gap) :
    Prop where
  seen : ∃ t, Sees older t ∧ t.id = target ∧ t.isIn workspace = true
  before : ∀ n, anchors.before = some n → ∃ t, Sees older t ∧ t.isInLane workspace lane = true ∧ t.toNeighbor = n
    ∧ t.id ≠ target
  after : ∀ n, anchors.after = some n → ∃ t, Sees older t ∧ t.isInLane workspace lane = true ∧ t.toNeighbor = n
    ∧ t.id ≠ target
  rows : ∀ id ∈ gap.rows, ∃ t, Sees older t ∧ t.id = id
  seed : gap.isOpen = true → Gets older (.seed workspace lane)

/-- A gap was read in a transaction that is still open, when its border was locked. What was seen ends with this look. -/
inductive HasRead (workspace : WorkspaceId) (lane : Lane) (target : TaskId) (anchors : Gap) (nearest : Option Neighbor) :
    History ops → History ops → Prop where
  | looked {older s : History ops} (hs : opened older = some s)
    (hsecured : Secured s workspace lane target anchors (anchors.closed nearest)) :
    HasRead workspace lane target anchors nearest
      (⟨.action (.adjacent workspace lane anchors.lookout.1 anchors.lookout.2 target), nearest⟩ :: older)
      (⟨.action (.adjacent workspace lane anchors.lookout.1 anchors.lookout.2 target), nearest⟩ :: older)
  | later {seen T : History ops} {e : Event ops} (hread : HasRead workspace lane target anchors nearest seen T)
    (hstarts : e.op.starts = false) (hends : e.op.ends = false) :
    HasRead workspace lane target anchors nearest seen (e :: T)

section Establish

variable {anchors : Gap} {nearest : Option Neighbor} {n : Neighbor}

theorem Secured.mono {older s : History ops} (hs : Secured older workspace lane target anchors gap) (hsub : older ⊆ s) :
    Secured s workspace lane target anchors gap := by
  have hsees : ∀ {t}, Sees older t → Sees s t := by
    rintro t ⟨e, he, ht⟩
    exact ⟨e, hsub he, ht⟩
  constructor
  . obtain ⟨t, ht, hrest⟩ := hs.seen
    exact ⟨t, hsees ht, hrest⟩
  . intro n hn
    obtain ⟨t, ht, hrest⟩ := hs.before n hn
    exact ⟨t, hsees ht, hrest⟩
  . intro n hn
    obtain ⟨t, ht, hrest⟩ := hs.after n hn
    exact ⟨t, hsees ht, hrest⟩
  . intro id hid
    obtain ⟨t, ht, hrest⟩ := hs.rows id hid
    exact ⟨t, hsees ht, hrest⟩
  . intro hopen
    obtain ⟨e, he, hgets⟩ := hs.seed hopen
    exact ⟨e, hsub he, hgets⟩

theorem hasRead_of_opened {s T : History ops} (newer : History ops) (hs : opened T = some (newer
      ++ ⟨.action (.adjacent workspace lane anchors.lookout.1 anchors.lookout.2 target), nearest⟩ :: s))
    (hsecured : Secured s workspace lane target anchors (anchors.closed nearest)) :
    ∃ seen, HasRead workspace lane target anchors nearest seen T := by
  induction newer generalizing T with
  | nil =>
    obtain ⟨T, rfl, _, _, hs⟩ := opened_eq_cons hs
    exact ⟨_, .looked hs hsecured⟩
  | cons e newer ih =>
    obtain ⟨T, rfl, hstarts, hends, hs⟩ := opened_eq_cons hs
    obtain ⟨seen, hread⟩ := ih hs
    exact ⟨seen, hread.later hstarts hends⟩

theorem HasRead.opened {seen T : History ops} (hread : HasRead workspace lane target anchors nearest seen T) :
    ∃ s, opened T = some s
      ∧ ⟨.action (.adjacent workspace lane anchors.lookout.1 anchors.lookout.2 target), nearest⟩ ∈ s
      ∧ Secured s workspace lane target anchors (anchors.closed nearest) := by
  induction hread with
  | looked hs hsecured =>
    exact ⟨_, opened_push rfl rfl hs, List.mem_cons_self, hsecured.mono (List.subset_cons_self ..)⟩
  | later _ hstarts hends ih =>
    obtain ⟨s, hs, hmem, hsecured⟩ := ih
    exact ⟨_, opened_push hstarts hends hs, List.mem_cons_of_mem _ hmem, hsecured.mono (List.subset_cons_self ..)⟩

theorem before_closed (h : (anchors.closed nearest).before = some n) :
    anchors.before = some n ∨ nearest = some n := by
  obtain ⟨before, after⟩ := anchors
  unfold Gap.closed at h
  cases before with
  | none => cases after <;> simp_all
  | some before =>
    cases after with
    | none => exact .inl h
    | some after =>
      cases hn : nearest.filter (fun row => row.position < before.position) with
      | none =>
        left
        simpa [hn] using h
      | some row =>
        right
        have hrow : row = n := by simpa [hn] using h
        rw [← hrow]
        exact (Option.filter_eq_some_iff.1 hn).1

theorem after_closed (h : (anchors.closed nearest).after = some n) :
    anchors.after = some n ∨ nearest = some n := by
  obtain ⟨before, after⟩ := anchors
  unfold Gap.closed at h
  cases before <;> cases after <;> simp_all

theorem mem_lane_of_adjacent {r : Rows} {pivot : Position} {direction : Direction}
    (h : r.adjacent? workspace lane pivot direction target = some n) :
    ∃ t ∈ r.lane workspace lane, t.toNeighbor = n ∧ t.id ≠ target := by
  cases direction with
  | above =>
    obtain ⟨t, ht, hid, _, hn⟩ := (Rows.adjacent?_above h).1
    exact ⟨t, ht, hn, hid⟩
  | below =>
    obtain ⟨t, ht, hid, _, hn⟩ := (Rows.adjacent?_below h).1
    exact ⟨t, ht, hn, hid⟩

theorem clear_closed (hnumber : ∀ t ∈ b.rows.lane workspace lane, t.position.isNaN = false)
    (hread : b.rows.adjacent? workspace lane anchors.lookout.1 anchors.lookout.2 target = nearest)
    (hbefore : ∀ n, anchors.before = some n → ∃ t ∈ b.rows.lane workspace lane, t.toNeighbor = n) {t : Task}
    (ht : t ∈ b.rows.lane workspace lane) (hid : t.id ≠ target)
    (hend : anchors.isOpen = true → t.position < Binary64.infinity) : ¬ (anchors.closed nearest).Contains t.position := by
  intro hin
  rw [Gap.contains_iff] at hin
  obtain ⟨habove, hbelow⟩ := hin
  obtain ⟨before, after⟩ := anchors
  -- the nearest row was looked for from the lookout of the anchors, so the cases are those of the lookout
  unfold Gap.lookout at hread
  unfold Gap.closed at habove hbelow
  cases before with
  | none =>
    cases after with
    | none =>
      have hspec := Rows.adjacent?_below hread
      cases nearest with
      | none => exact hspec t ht hid (hend rfl)
      | some n => exact hspec.2 t ht hid (hend rfl) (hbelow n rfl)
    | some after =>
      have hspec := Rows.adjacent?_above hread
      cases nearest with
      | none => exact hspec t ht hid (hbelow after rfl)
      | some n => exact hspec.2 t ht hid (hbelow after rfl) (habove n rfl)
  | some before =>
    cases after with
    | none =>
      have hspec := Rows.adjacent?_below hread
      cases nearest with
      | none => exact hspec t ht hid (habove before rfl)
      | some n => exact hspec.2 t ht hid (habove before rfl) (hbelow n rfl)
    | some after =>
      have hspec := Rows.adjacent?_above hread
      cases nearest with
      | none => exact hspec t ht hid (hbelow after rfl)
      | some n =>
        obtain ⟨⟨u, hu, _, _, rfl⟩, hall⟩ := hspec
        apply hall t ht hid (hbelow after rfl)
        obtain ⟨v, hv, rfl⟩ := hbefore before rfl
        have hlt := habove _ rfl
        -- the row that was read is the upper border only if it lies between the anchors
        by_cases hinside : u.position < v.position
        . simpa [Task.toNeighbor, Option.filter, hinside] using hlt
        . have hlt' : t.position < v.position := by
            simpa [Task.toNeighbor, Option.filter, hinside] using hlt
          rw [Binary64.lt_of_number (hnumber u hu) (hnumber v hv)] at hinside
          rw [Binary64.lt_of_number (hnumber t ht) (hnumber v hv)] at hlt'
          simp only [Task.toNeighbor]
          rw [Binary64.lt_of_number (hnumber t ht) (hnumber u hu)]
          omega

theorem mem_lane_of_find? {r : Rows} {t : Task} (ht : r.find? t.id = some t)
    (hlane : t.isInLane workspace lane = true) : t ∈ r.lane workspace lane :=
  Rows.mem_lane.2 ⟨(Rows.find?_eq_some.1 ht).1, hlane⟩

section Secured

variable {s T : History ops} (hb : Holds b h T) (hs : opened T = some s) (hun : Undeleted s)
  (hsecured : Secured s workspace lane target anchors (anchors.closed nearest))
  (hread : b.rows.adjacent? workspace lane anchors.lookout.1 anchors.lookout.2 target = nearest)

include hb hs hun hsecured hread

/-- Whoever looks at a gap next to anchors that it has locked sees whether a row below infinity is inside. -/
theorem clear_of_secured (hnumber : ∀ t ∈ b.rows.lane workspace lane, t.position.isNaN = false) {t : Task}
    (ht : t ∈ b.rows.lane workspace lane) (hid : t.id ≠ target)
    (hend : anchors.isOpen = true → t.position < Binary64.infinity) : ¬ (anchors.closed nearest).Contains t.position := by
  apply clear_closed hnumber hread _ ht hid hend
  intro n hn
  obtain ⟨t, ht, hlane, hn, _⟩ := hsecured.before n hn
  exact ⟨t, mem_lane_of_find? (hb.rows s t hs hun ht) hlane, hn⟩

theorem ownsBorder_of_secured (hl : Lawful discipline T) :
    OwnsBorder b h workspace lane target (anchors.closed nearest) := by
  have howner : ∀ t, Sees s t → b.locks.owner? (.row t.id) = some h := by
    intro t ht
    exact hb.owns s _ hs (ht.gets hl hs)
  have hanchor : ∀ n, (∃ t, Sees s t ∧ t.isInLane workspace lane = true ∧ t.toNeighbor = n ∧ t.id ≠ target) →
      ∃ t ∈ b.rows.lane workspace lane, t.toNeighbor = n ∧ t.id ≠ target ∧ b.locks.owner? (.row t.id) = some h := by
    rintro n ⟨t, ht, hlane, hn, hid⟩
    exact ⟨t, mem_lane_of_find? (hb.rows s t hs hun ht) hlane, hn, hid, howner t ht⟩
  have hnearest : ∀ n, nearest = some n → n.id ∈ (anchors.closed nearest).rows →
      ∃ t ∈ b.rows.lane workspace lane, t.toNeighbor = n ∧ t.id ≠ target ∧ b.locks.owner? (.row t.id) = some h := by
    rintro n rfl hmem
    obtain ⟨t, ht, hn, hid⟩ := mem_lane_of_adjacent hread
    obtain ⟨t', ht', hid'⟩ := hsecured.rows n.id hmem
    refine ⟨t, ht, hn, hid, ?_⟩
    have hown := howner t' ht'
    rw [hid', ← hn] at hown
    exact hown
  constructor
  . obtain ⟨t, ht, hid, _⟩ := hsecured.seen
    rw [← hid]
    exact howner t ht
  . intro n hn
    rcases before_closed hn with hcase | hcase
    . exact hanchor n (hsecured.before n hcase)
    . exact hnearest n hcase (Gap.mem_rows_of_before hn)
  . intro n hn
    rcases after_closed hn with hcase | hcase
    . exact hanchor n (hsecured.after n hcase)
    . exact hnearest n hcase (Gap.mem_rows_of_after hn)
  . intro hopen
    exact hb.owns s _ hs (hsecured.seed hopen)

end Secured

end Establish

end Board

end LaneOrder
