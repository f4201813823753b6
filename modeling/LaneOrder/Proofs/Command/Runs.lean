import LaneOrder.Proofs.Command.Conduct
import LaneOrder.Proofs.Command.Move
import LaneOrder.Proofs.Program.Runs
import LaneOrder.Proofs.Sample

/-!
This module contains what is true of every single run of a move, whatever a store answers: what its transaction has
locked and read when it writes, and what its answer says about whether anything was committed.
-/

namespace LaneOrder

open Program

namespace Program.Event

def IsAllocatedBy (a : Allocator) : Event calls → Prop
  | ⟨.ambient (.allocate before after), allocation⟩ => allocation = a.allocate before after
  | _ => True

end Program.Event

namespace Sample

/-- A store that gives the same reply whenever it is called the same way. -/
def reply (found : Except StoreError (Option Task)) : (c : Call) → c.Reply
  | .ambient c => (surroundings.answer {} c).1
  | .role .. => .ok .owner
  | .find .. => found
  | .list .. => .ok []
  | .greatest .. => .ok (.ofNat 0)
  | .delete .. => .ok true
  | .lockTarget workspace id => .ok (.new id workspace "" .todo (.ofNat 1) .epoch)
  | .lockNeighbor workspace lane id => .ok (.new id workspace "" lane (.ofNat 5) .epoch)
  | .tryLockNeighbor workspace lane id => .ok (some (.new id workspace "" lane (.ofNat 5) .epoch))
  | .lockLane .. => .ok []
  | .tryLockSeed .. => .ok true
  | .adjacent .. => .ok (some ⟨id 7, .ofNat 9⟩)
  | .record _ | .begin | .insert _ | .lockSeed .. | .persist .. | .commit | .rollback => .ok ()

def move : MoveRequest :=
  ⟨workspace, id 3, actor, "done", none, some (id 2)⟩

variable {found : Except StoreError (Option Task)}

theorem reply_isFaithful (c : Call) : (Event.mk (I := calls) c (reply found c)).IsFaithful := by
  intro id hid t ht
  cases c with
  | lockTarget | lockNeighbor | tryLockNeighbor =>
    cases hid
    cases List.mem_singleton.1 ht
    rfl
  | _ => cases hid

theorem reply_isAllocatedBy (c : Call) :
    (Event.mk (I := calls) c (reply found c)).IsAllocatedBy surroundings.allocator := by
  cases c with
  | ambient c => cases c <;> first | rfl | exact trivial
  | _ => trivial

end Sample

namespace Gap

/-- Every row of the gap was returned under its lock; or it has none, and the seed of the lane was locked. -/
def IsLocked (workspace : WorkspaceId) (lane : Lane) (gap : Gap) (t : History calls) : Prop :=
  (gap.rows ≠ [] ∧ ∀ id ∈ gap.rows, ∃ row, Returned t row ∧ row.id = id) ∨ (gap.rows = [] ∧ Seeds t workspace lane)

def allocate (gap : Gap) (a : Allocator) : Allocation :=
  a.allocate (gap.before.map (·.position)) (gap.after.map (·.position))

theorem isOpen_iff {gap : Gap} : gap.isOpen = true ↔ gap.rows = [] := by
  obtain ⟨before, after⟩ := gap
  cases before <;> cases after <;> simp [isOpen, rows]

theorem Bounded.isLocked {workspace : WorkspaceId} {lane : Lane} {gap : Gap} {t : History calls}
    (h : Bounded workspace lane gap t) : gap.IsLocked workspace lane t := by
  by_cases hrows : gap.rows = []
  . exact .inr ⟨hrows, h.seed (isOpen_iff.2 hrows)⟩
  . exact .inl ⟨hrows, h.rows⟩

end Gap

namespace Move

variable {r : MoveRequest} {H : History calls} {outcome : Outcome MoveOutcome} {error : CommandError}
  {workspace : WorkspaceId} {id : TaskId} {position : Position} {lane : Lane} {a : Allocator}

/-- Whenever a move writes, its transaction has returned the target and the anchors under their locks. The last call of
the store before was to read what is next to the anchors, all rows of the gap that results were locked before that, and
the position was allocated in exactly this gap. -/
theorem persist_prepared (h : Reaches (moveTask r) H (.persist workspace id position lane))
    (hfaithful : ∀ e ∈ H, e.IsFaithful) (ha : ∀ e ∈ H, e.IsAllocatedBy a) :
    workspace = r.workspace ∧ id = r.task ∧ Lane.parse r.lane = .ok lane
      ∧ ∃ anchors nearest notes older past,
        H = notes ++ allotment (anchors.closed nearest) ((anchors.closed nearest).allocate a)
          :: sighting r lane anchors nearest :: (older ++ ⟨.begin, .ok ()⟩ :: past)
        ∧ (∀ e ∈ notes, e.op.isQuiet = true) ∧ (∀ e ∈ older, e.op.starts = false ∧ e.op.ends = false)
        ∧ Anchored r lane anchors older ∧ (anchors.closed nearest).IsLocked r.workspace lane older
        ∧ position = ((anchors.closed nearest).allocate a).position := by
  have hperforms := (obeys_moveTask r).of_reaches h hfaithful
  have hbegun := (phases_moveTask r).of_reaches h fun _ _ => trivial
  rw [List.append_nil] at hperforms hbegun
  obtain ⟨lane', hlane, _, rfl, rfl, rfl, hsettles⟩ := hperforms.2
  obtain ⟨anchors, nearest, exhausted, notes, older, ht, hnotes, hanchored, hbounded⟩ := hsettles
  obtain ⟨_, t, past, ht', hH⟩ := hbegun.2.transacts rfl
  rw [ht] at ht'
  cases ht'
  have hboundary := not_boundary_of_since ht
  have hallocated : (⟨position, exhausted⟩ : Allocation) = (anchors.closed nearest).allocate a := by
    apply ha (allotment (anchors.closed nearest) ⟨position, exhausted⟩)
    rw [hH]
    simp
  refine ⟨rfl, rfl, hlane, anchors, nearest, notes, older, past, ?_, hnotes, ?_, hanchored, hbounded.isLocked, ?_⟩
  . rw [hH, hallocated]
    simp
  . intro e he
    exact hboundary e (by simp [he])
  . rw [← hallocated]

/-- The move of a task next to one of two others. -/
theorem persist_prepared_nextTo : ∃ H workspace id position lane,
    Reaches (moveTask Sample.move) H (.persist workspace id position lane)
      ∧ (∀ e ∈ H, e.IsFaithful) ∧ (∀ e ∈ H, e.IsAllocatedBy Sample.surroundings.allocator)
      ∧ ∃ gap : Gap, position = (gap.allocate Sample.surroundings.allocator).position := by
  have hends := ends_answered (Sample.reply (.ok none)) (moveTask Sample.move)
  have hreplies := fun e => reply_of_answered (f := Sample.reply (.ok none)) (p := moveTask Sample.move) (e := e)
  have hwrites : ((moveTask Sample.move).answered (Sample.reply (.ok none))).1.any (·.op.persists?.isSome) = true := by
    decide +kernel
  obtain ⟨e, he, hpersists⟩ := List.any_eq_true.1 hwrites
  obtain ⟨newer, H, hrun⟩ := List.append_of_mem he
  rw [hrun] at hends hreplies
  have hreply : ∀ e ∈ H, e = ⟨e.op, Sample.reply (.ok none) e.op⟩ := fun e he => hreplies e (by simp [he])
  have hfaithful : ∀ e ∈ H, e.IsFaithful := by
    intro e he
    rw [hreply e he]
    exact Sample.reply_isFaithful e.op
  have hallocated : ∀ e ∈ H, e.IsAllocatedBy Sample.surroundings.allocator := by
    intro e he
    rw [hreply e he]
    exact Sample.reply_isAllocatedBy e.op
  obtain ⟨c, reply⟩ := e
  cases c with
  | persist workspace id position lane =>
    obtain ⟨_, _, _, anchors, nearest, _, _, _, _, _, _, _, _, hposition⟩ :=
      persist_prepared hends.reaches hfaithful hallocated
    exact ⟨H, workspace, id, position, lane, hends.reaches, hfaithful, hallocated, _, hposition⟩
  | _ => cases hpersists

theorem commits_of_effect {e : Event calls} (h : e.takesEffect = true) (honly : e.op.commitsOnly = true) :
    e = ⟨.commit, .ok ()⟩ := by
  unfold Event.takesEffect at h
  split at h
  . rfl
  . cases honly
  . cases honly
  . cases h

/-- Something was committed if and only if a move has succeeded, or it has failed to find the task after that. -/
theorem committed_iff (h : Ends (moveTask r) H outcome) :
    (⟨.commit, .ok ()⟩ : Event calls) ∈ H ↔ (∃ o, outcome = .ok o)
      ∨ ∃ e, (⟨.find r.workspace r.task, .error e⟩ : Event calls) ∈ H ∧ outcome = .error (.ofStore .refetch e) := by
  obtain ⟨⟨_, hconcludes⟩, hlawful⟩ := (phases_moveTask r).of_ends h (fun _ _ => trivial) trivial
  rw [List.append_nil] at hconcludes hlawful
  have hcommitted : Fruitful H → (⟨.commit, .ok ()⟩ : Event calls) ∈ H := by
    rintro ⟨newer, e, older, rfl, heffect, _⟩
    rw [← commits_of_effect heffect hlawful.allowed.1]
    simp
  constructor
  . intro hcommit
    rcases hconcludes with ⟨hnone, _⟩ | ⟨_, hcase⟩
    . exact nomatch hnone _ hcommit
    . exact hcase
  . intro hcase
    rcases hconcludes with ⟨hnone, _, rfl⟩ | ⟨hfruit, _⟩
    . rcases hcase with ⟨_, ⟨⟩⟩ | ⟨e, hfind, _⟩
      -- a move looks for the task only after a commit
      exact nomatch not_sequel_of_fruitless hlawful (fun _ _ h => h.2) hnone hfind
    . exact hcommitted hfruit

/-- The move of a task that has vanished when it is looked for. -/
theorem committed_iff_vanished :
    Ends (moveTask Sample.move) ((moveTask Sample.move).answered (Sample.reply (.ok none))).1
        ((moveTask Sample.move).answered (Sample.reply (.ok none))).2
      ∧ (⟨.commit, .ok ()⟩ : Event calls) ∈ ((moveTask Sample.move).answered (Sample.reply (.ok none))).1 := by
  have hends := ends_answered (Sample.reply (.ok none)) (moveTask Sample.move)
  refine ⟨hends, (committed_iff hends).2 (.inl ?_)⟩
  have hok : ((moveTask Sample.move).answered (Sample.reply (.ok none))).2.isOk = true := by decide +kernel
  cases houtcome : ((moveTask Sample.move).answered (Sample.reply (.ok none))).2 with
  | ok o => exact ⟨o, rfl⟩
  | error e =>
    rw [houtcome] at hok
    cases hok

/-- A move that has committed fails all the same if it cannot look for the task. -/
theorem committed_move_fails : ∃ r H error, Ends (moveTask r) H (.error error)
    ∧ (⟨.commit, .ok ()⟩ : Event calls) ∈ H := by
  have hends := ends_answered (Sample.reply (.error (.database "connection lost"))) (moveTask Sample.move)
  have herror : ((moveTask Sample.move).answered (Sample.reply (.error (.database "connection lost")))).2.isOk = false := by
    decide +kernel
  have hcommits : ((moveTask Sample.move).answered (Sample.reply (.error (.database "connection lost")))).1.any
      (fun e => e.takesEffect && e.op.commitsOnly) = true := by
    decide +kernel
  obtain ⟨e, he, hcommit⟩ := List.any_eq_true.1 hcommits
  obtain ⟨heffect, honly⟩ := Bool.and_eq_true_iff.1 hcommit
  cases houtcome : ((moveTask Sample.move).answered (Sample.reply (.error (.database "connection lost")))).2 with
  | ok o =>
    rw [houtcome] at herror
    cases herror
  | error error =>
    rw [houtcome] at hends
    refine ⟨Sample.move, _, error, hends, ?_⟩
    rwa [← commits_of_effect heffect honly]

end Move

end LaneOrder
