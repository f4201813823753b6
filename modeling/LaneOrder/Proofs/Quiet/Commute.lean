import LaneOrder.Proofs.Quiet.Elsewhere
import LaneOrder.Proofs.Sequence.Isolation

/-!
This module contains moves that can be made in either order. Each of them changes one row, and this row is neither in the
lane that the other one goes to nor comes there.
-/

namespace LaneOrder

open Board Program

def Task.untimed (t : Task) : Task :=
  { t with updatedAt := t.createdAt }

def Answer.untimed : Answer → Answer
  | .moved o => .moved { o with task := o.task.untimed }
  | a => a

/-- The rows, whenever they were changed last. -/
def Rows.untimed (r : Rows) : List Task :=
  r.tasks.map Task.untimed

namespace Rows

variable {r r' : Rows} {w w' : StagedWrite} {id id' : TaskId} {position position' : Position} {lane lane' : Lane}
  {time time' : Timestamp} {workspace : WorkspaceId}

theorem untimed_put (h : r.untimed = r'.untimed) :
    (r.put ⟨id, position, lane, time⟩).untimed = (r'.put ⟨id, position, lane, time'⟩).untimed := by
  have hput : ∀ (r : Rows) (time : Timestamp), (r.put ⟨id, position, lane, time⟩).untimed
      = r.untimed.map fun t => if id = t.id then { t with position, lane } else t := by
    intro r time
    unfold untimed
    rw [tasks_put, List.map_map, List.map_map]
    apply List.map_congr_left
    intro t _
    dsimp only [Function.comp]
    by_cases hid : id = t.id
    . rw [StagedWrite.apply_self hid, if_pos (show id = t.untimed.id from hid)]
      rfl
    . rw [StagedWrite.apply_of_ne hid, if_neg (show id ≠ t.untimed.id from hid)]
  rw [hput, hput, h]

theorem tasks_put_put (hne : w.id ≠ w'.id) : ((r.put w).put w').tasks = ((r.put w').put w).tasks := by
  rw [tasks_put, tasks_put, tasks_put, tasks_put, List.map_map, List.map_map]
  apply List.map_congr_left
  intro t _
  dsimp only [Function.comp]
  by_cases hw : w.id = t.id
  . have hw' : w'.id ≠ t.id := fun h => hne (hw.trans h.symm)
    rw [StagedWrite.apply_of_ne hw', StagedWrite.apply_self hw]
    exact StagedWrite.apply_of_ne hw'
  . rw [StagedWrite.apply_of_ne hw]
    by_cases hw' : w'.id = t.id
    . rw [StagedWrite.apply_self hw']
      exact (StagedWrite.apply_of_ne (t := t.placed w'.position w'.lane w'.time) hw).symm
    . rw [StagedWrite.apply_of_ne hw', StagedWrite.apply_of_ne hw]

/-- A lane that a row neither comes from nor goes to stays as it is. -/
theorem sameBut_put {t : Task} (hrow : r.find? w.id = some t) (hsource : t.isInLane workspace lane = false)
    (hdestination : (t.placed w.position w.lane w.time).isInLane workspace lane = false) :
    (r.put w).SameBut r workspace lane id := by
  have hmem : ∀ (r : Rows) (u : Task), u ∈ r.lane workspace lane
      ↔ r.find? u.id = some u ∧ u.isInLane workspace lane = true := by
    intro r u
    rw [mem_lane, find?_eq_some]
    simp
  intro u _
  rw [hmem, hmem, find?_put]
  split
  . next hid =>
    rw [← hid, hrow, Option.map_some, Option.some.injEq, Option.some.injEq]
    constructor
    . rintro ⟨rfl, hin⟩
      rw [hdestination] at hin
      cases hin
    . rintro ⟨rfl, hin⟩
      rw [hsource] at hin
      cases hin
  . rfl

end Rows

namespace MoveRequest

def Enters (r : MoveRequest) (workspace : WorkspaceId) (lane : Lane) : Prop :=
  r.workspace = workspace ∧ Lane.parse r.lane = .ok lane

/-- Two moves of different tasks go to different lanes, and neither of them goes to the lane where the other one starts. -/
structure Independent (r₁ r₂ : MoveRequest) (rows : Rows) : Prop where
  tasks : r₁.task ≠ r₂.task
  destinations : ∀ workspace lane, r₁.Enters workspace lane → ¬ r₂.Enters workspace lane
  source₁ : ∀ t, rows.findIn? r₁.workspace r₁.task = some t → ¬ r₂.Enters t.workspace t.lane
  source₂ : ∀ t, rows.findIn? r₂.workspace r₂.task = some t → ¬ r₁.Enters t.workspace t.lane

variable {r₁ r₂ r : MoveRequest} {rows rows₁ rows₂ : Rows} {c₁ c₂ : Completed}

theorem Independent.symm (hi : r₁.Independent r₂ rows) : r₂.Independent r₁ rows where
  tasks := hi.tasks.symm
  destinations workspace lane h₂ h₁ := hi.destinations workspace lane h₁ h₂
  source₁ := hi.source₂
  source₂ := hi.source₁

theorem Independent.findIn?_put {w : StagedWrite} (hi : r₁.Independent r₂ rows) (hw : w.id = r₁.task) :
    (rows.put w).findIn? r₂.workspace r₂.task = rows.findIn? r₂.workspace r₂.task := by
  unfold Rows.findIn?
  rw [Rows.find?_put, if_neg (hw ▸ hi.tasks)]

theorem Independent.prospect_put {w : StagedWrite} {t : Task} {role : Option Role} (hi : r₁.Independent r₂ rows)
    (hw : w.id = r₁.task) (hlane : Lane.parse r₁.lane = .ok w.lane) (hrow : rows.findIn? r₁.workspace r₁.task = some t) :
    r₂.prospect (rows.put w) role = r₂.prospect rows role := by
  obtain ⟨hfind, hin⟩ := Rows.findIn?_eq_some.1 hrow
  apply prospect_congr
  . intro lane hlane₂
    apply Rows.sameBut_put (hw ▸ hfind)
    . rw [← Bool.not_eq_true, Task.isInLane_iff]
      rintro ⟨_, hworkspace, rfl⟩
      exact hi.source₁ t hrow ⟨hworkspace.symm, hlane₂⟩
    . rw [← Bool.not_eq_true, Task.isInLane_iff]
      rintro ⟨_, hworkspace, hplaced⟩
      have hlane₁ : w.lane = lane := hplaced
      have hworkspace₁ : r₁.workspace = r₂.workspace := (Task.isIn_iff.1 hin).2.symm.trans hworkspace
      exact hi.destinations r₂.workspace lane ⟨hworkspace₁, hlane₁ ▸ hlane⟩ ⟨rfl, hlane₂⟩
  . rw [hi.findIn?_put hw]

theorem Agree.untimed (ha : r.Agree rows₁ rows₂ c₁ c₂)
    (hrow : rows₁.findIn? r.workspace r.task = rows₂.findIn? r.workspace r.task) :
    c₁.answer.untimed = c₂.answer.untimed := by
  cases ha with
  | refused e hanswer₁ hanswer₂ => rw [hanswer₁, hanswer₂]
  | moved lane position exhausted t₁ t₂ time₁ time₂ hfound₁ hfound₂ hanswer₁ hanswer₂ =>
    rw [hfound₁, hfound₂] at hrow
    cases hrow
    rw [hanswer₁, hanswer₂]
    rfl

end MoveRequest

/-- A move finds the same prospect after an independent one, and the same target. -/
theorem Command.after_independent {b : Board} {h : Holder} {r₁ r₂ : MoveRequest} (s : Supply) (hb : b.locks.Idle)
    (hnone : b.transaction? h = none) (hi : r₁.Independent r₂ b.rows) :
    let b₁ := (Command.complete ⟨h, .move r₁, s.replies⟩ b).board
    b₁.locks.Idle
      ∧ r₂.prospect b₁.rows (b₁.role? r₂.actor r₂.workspace) = r₂.prospect b.rows (b.role? r₂.actor r₂.workspace)
      ∧ b₁.rows.findIn? r₂.workspace r₂.task = b.rows.findIn? r₂.workspace r₂.task := by
  intro b₁
  cases hprospect : r₁.prospect b.rows (b.role? r₁.actor r₁.workspace) with
  | error e =>
    obtain ⟨_, hrows, hroles, hidle⟩ := refused (s := s) (undisturbed_of_idle (h := h) hb) hprospect
    refine ⟨hidle hnone, ?_, ?_⟩
    . rw [show b₁.rows = _ from hrows, show b₁.role? = _ from hroles]
    . rw [show b₁.rows = _ from hrows]
  | ok prospect =>
    obtain ⟨lane, gap⟩ := prospect
    obtain ⟨t, time, hrow, _, hrows, hroles, hidle, _⟩ := moves (s := s) (undisturbed_of_idle (h := h) hb) hprospect
    have hlane := (MoveRequest.lane_of_admission (MoveRequest.prospect_eq_ok.1 hprospect).1).1
    refine ⟨hidle, ?_, ?_⟩
    . rw [show b₁.rows = _ from hrows, show b₁.role? = _ from hroles]
      exact hi.prospect_put rfl hlane hrow
    . rw [show b₁.rows = _ from hrows]
      exact hi.findIn?_put rfl

/-- Independent moves can be made in either order. Each of them is answered the same, and the rows are the same in the end,
apart from the times of the moves. -/
theorem Board.moves_commute {b : Board} {h₁ h₂ : Holder} (s₁ s₂ : Supply) (r₁ r₂ : MoveRequest) (hb : b.locks.Idle)
    (hnone₁ : b.transaction? h₁ = none) (hnone₂ : b.transaction? h₂ = none) (hs : s₁.allocator = s₂.allocator)
    (hi : r₁.Independent r₂ b.rows) :
    let forth := b.issue s₁ [(h₁, .move r₁), (h₂, .move r₂)]
    let back := b.issue s₂ [(h₂, .move r₂), (h₁, .move r₁)]
    forth.1.map Answer.untimed = (back.1.map Answer.untimed).reverse ∧ forth.2.rows.untimed = back.2.rows.untimed := by
  intro forth back
  let c₁ := Command.complete ⟨h₁, .move r₁, s₁.replies⟩ b
  let c₂ := Command.complete ⟨h₂, .move r₂, s₂.replies⟩ b
  obtain ⟨hidle₁, hprospect₂, hrow₂⟩ := Command.after_independent s₁ hb hnone₁ hi
  obtain ⟨hidle₂, hprospect₁, hrow₁⟩ := Command.after_independent s₂ hb hnone₂ hi.symm
  have ha₁ : r₁.Agree b.rows c₂.board.rows c₁
      (Command.complete ⟨h₁, .move r₁, (s₂.after (readings c₂.past)).replies⟩ c₂.board) :=
    Command.agree s₁ _ (undisturbed_of_idle hb) (undisturbed_of_idle hidle₂) hs hprospect₁.symm
  have ha₂ : r₂.Agree c₁.board.rows b.rows
      (Command.complete ⟨h₂, .move r₂, (s₁.after (readings c₁.past)).replies⟩ c₁.board) c₂ :=
    Command.agree _ s₂ (undisturbed_of_idle hidle₁) (undisturbed_of_idle hb) hs hprospect₂
  constructor
  . show [_, _] = [_, _]
    rw [ha₁.untimed hrow₁.symm, ha₂.untimed hrow₂]
  . show (Command.complete _ c₁.board).board.rows.untimed = (Command.complete _ c₂.board).board.rows.untimed
    -- a move that is refused changes nothing, so that only two moves that succeed have to change places
    cases ha₁ with
    | refused e₁ _ _ hrows₁ hrows₁' =>
      cases ha₂ with
      | refused e₂ _ _ hrows₂ hrows₂' => rw [hrows₁', hrows₂', hrows₂, hrows₁]
      | moved lane₂ position₂ exhausted₂ t₂ t₂' time₂ time₂' _ _ _ _ hrows₂ hrows₂' =>
        rw [hrows₁', hrows₂', hrows₂, hrows₁]
        exact Rows.untimed_put rfl
    | moved lane₁ position₁ exhausted₁ t₁ t₁' time₁ time₁' _ _ _ _ hrows₁ hrows₁' =>
      cases ha₂ with
      | refused e₂ _ _ hrows₂ hrows₂' =>
        rw [hrows₁', hrows₂', hrows₂, hrows₁]
        exact Rows.untimed_put rfl
      | moved lane₂ position₂ exhausted₂ t₂ t₂' time₂ time₂' _ _ _ _ hrows₂ hrows₂' =>
        rw [hrows₁', hrows₂', hrows₂, hrows₁]
        calc ((b.rows.put ⟨r₁.task, position₁, lane₁, time₁⟩).put ⟨r₂.task, position₂, lane₂, time₂⟩).untimed
          _ = ((b.rows.put ⟨r₂.task, position₂, lane₂, time₂⟩).put ⟨r₁.task, position₁, lane₁, time₁⟩).untimed :=
            congrArg (List.map Task.untimed) (Rows.tasks_put_put hi.tasks)
          _ = ((b.rows.put ⟨r₂.task, position₂, lane₂, time₂'⟩).put ⟨r₁.task, position₁, lane₁, time₁'⟩).untimed :=
            Rows.untimed_put (Rows.untimed_put rfl)

section Sample

def Sample.finish : MoveRequest :=
  ⟨Sample.workspace, Sample.id 1, Sample.actor, "done", none, some (Sample.id 2)⟩

def Sample.cancel : MoveRequest :=
  ⟨Sample.workspace, Sample.id 3, Sample.actor, "cancelled", none, none⟩

/-- Both tasks come from the same lane. -/
theorem Board.moves_commute_shared : Sample.finish.Independent Sample.cancel (Sample.tied .done 1)
    ∧ ((Sample.board (Sample.tied .done 1)).issue Sample.steady
        [(0, .move Sample.finish), (1, .move Sample.cancel)]).1.map Answer.succeeds = [true, true]
    ∧ ((Sample.board (Sample.tied .done 1)).issue Sample.steady
        [(0, .move Sample.finish), (1, .move Sample.cancel)]).2.rows.untimed
      = ((Sample.board (Sample.tied .done 1)).issue Sample.steady
        [(1, .move Sample.cancel), (0, .move Sample.finish)]).2.rows.untimed := by
  have hdone : Lane.parse "done" = .ok .done := by decide +kernel
  have hcancelled : Lane.parse "cancelled" = .ok .cancelled := by decide +kernel
  have hlanes : ∀ n ∈ [1, 3], ((Sample.tied .done 1).findIn? Sample.workspace (Sample.id n)).map Task.lane = some .todo := by
    decide +kernel
  have hsource : ∀ n ∈ [1, 3], ∀ t, (Sample.tied .done 1).findIn? Sample.workspace (Sample.id n) = some t →
      t.lane = .todo := by
    intro n hn t ht
    have hlane := hlanes n hn
    rw [ht] at hlane
    exact Option.some.inj hlane
  have hi : Sample.finish.Independent Sample.cancel (Sample.tied .done 1) := by
    constructor
    . decide
    . rintro _ lane ⟨_, hlane⟩ ⟨_, hlane'⟩
      cases hdone.symm.trans hlane
      cases hcancelled.symm.trans hlane'
    . rintro t ht ⟨_, hlane⟩
      rw [hsource 1 (by simp) t ht] at hlane
      cases hcancelled.symm.trans hlane
    . rintro t ht ⟨_, hlane⟩
      rw [hsource 3 (by simp) t ht] at hlane
      cases hdone.symm.trans hlane
  refine ⟨hi, by decide +kernel, ?_⟩
  exact (Board.moves_commute Sample.steady Sample.steady Sample.finish Sample.cancel LockTable.idle_empty rfl rfl rfl hi).2

end Sample

end LaneOrder
