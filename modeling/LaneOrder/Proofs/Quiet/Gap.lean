import LaneOrder.Proofs.Board.Gap
import LaneOrder.Proofs.Command.Knowledge
import LaneOrder.Proofs.Command.Runs
import LaneOrder.Proofs.Quiet.Calls

/-!
This module contains how a gap is secured at a desk. The first check of the gap locks what is missing of its border, or the
seed of the lane if there is no border. Nothing comes into the gap meanwhile, so the second check finds nothing missing.
-/

namespace LaneOrder

open Board Program

variable {s : Supply} {d : Desk} {workspace : WorkspaceId} {lane : Lane} {target : TaskId} {anchors : Gap}
  {held : HeldLocks} {ids : List TaskId}

def Rows.gap (r : Rows) (workspace : WorkspaceId) (lane : Lane) (target : TaskId) (anchors : Gap) : Gap :=
  anchors.closed (r.adjacent? workspace lane anchors.lookout.1 anchors.lookout.2 target)

namespace Gap

theorem mem_rows {gap : Gap} {id : TaskId} :
    id ∈ gap.rows ↔ ∃ n, (gap.before = some n ∨ gap.after = some n) ∧ n.id = id := by
  unfold rows
  simp only [List.mem_append, List.mem_map, Option.mem_toList, or_and_right, exists_or]

end Gap

namespace Desk

theorem serve_findGap : serve s (Gap.find workspace lane target anchors) d
    = (.ok (d.view.gap workspace lane target anchors), d) := by
  rw [Gap.find_eq, serve_bind, serve_adjacent]
  rfl

theorem serve_secure_of_held {checks : Nat}
    (hrows : ∀ id ∈ (d.view.gap workspace lane target anchors).rows, held.holds id = true)
    (hseed : (d.view.gap workspace lane target anchors).isOpen = true → held.laneSeed = true) :
    serve s (Gap.secure workspace lane target anchors (checks + 1) held) d
      = (.ok (.secured (d.view.gap workspace lane target anchors)), d) := by
  unfold Gap.secure
  rw [serve_bind, serve_findGap]
  dsimp only
  rw [Gap.missing_eq_nil.2 hrows, if_pos List.isEmpty_nil, if_pos]
  . rfl
  . grind

variable (hopen : d.transaction.isSome = true)

include hopen

theorem serve_lockRows (held : HeldLocks) (hids : ∀ id ∈ ids, (d.view.neighbor? workspace lane id).isSome = true) :
    ∃ held', serve s (Gap.lockRows workspace lane held ids) d = (.ok (.held held'), d)
      ∧ ∀ id, held.holds id = true ∨ id ∈ ids → held'.holds id = true := by
  induction ids generalizing held with
  | nil => exact ⟨held, rfl, by simp⟩
  | cons id ids ih =>
    obtain ⟨hid, hids⟩ := List.forall_mem_cons.1 hids
    obtain ⟨row, hrow⟩ := Option.isSome_iff_exists.1 hid
    obtain ⟨held', hserve, hheld'⟩ := ih (held.locked id) hids
    refine ⟨held', ?_, ?_⟩
    . unfold Gap.lockRows
      split
      . rw [serve_bind, serve_lockNeighbor hopen, hrow]
        exact hserve
      . rw [serve_bind, serve_tryLockNeighbor hopen, hrow]
        exact hserve
    . intro other hother
      apply hheld'
      rw [HeldLocks.holds_locked]
      grind

/-- Two checks are enough to secure a gap. -/
theorem serve_secure {checks : Nat} (hanchors : ∀ id ∈ anchors.rows, held.holds id = true) :
    serve s (Gap.secure workspace lane target anchors (checks + 2) held) d
      = (.ok (.secured (d.view.gap workspace lane target anchors)), d) := by
  by_cases hmissing : (d.view.gap workspace lane target anchors).missing held = []
  . have hrows := Gap.missing_eq_nil.1 hmissing
    by_cases hseed : (d.view.gap workspace lane target anchors).isOpen = true → held.laneSeed = true
    . exact serve_secure_of_held hrows hseed
    . unfold Gap.secure
      rw [serve_bind, serve_findGap]
      dsimp only
      rw [hmissing, if_pos List.isEmpty_nil, if_neg (by grind), serve_bind, serve_tryLockSeed hopen]
      exact serve_secure_of_held hrows fun _ => rfl
  . have hids : ∀ id ∈ (d.view.gap workspace lane target anchors).missing held,
        (d.view.neighbor? workspace lane id).isSome = true := by
      intro id hid
      obtain ⟨hrow, hnot⟩ := Gap.mem_missing.1 hid
      rcases Gap.mem_rows_closed hrow with hanchor | hnearest
      . rw [hanchors id hanchor] at hnot
        cases hnot
      . obtain ⟨n, hn, rfl⟩ := Option.map_eq_some_iff.1 hnearest
        obtain ⟨t, ht, rfl, _⟩ := mem_lane_of_adjacent hn
        exact Option.isSome_of_eq_some (Rows.neighbor?_eq_some.2 ⟨ht, rfl⟩)
    obtain ⟨held', hserve, hheld'⟩ := serve_lockRows (s := s) hopen held hids
    have hrows : ∀ id ∈ (d.view.gap workspace lane target anchors).rows, held'.holds id = true := by
      intro id hid
      apply hheld'
      rw [Gap.mem_missing]
      grind
    unfold Gap.secure
    rw [serve_bind, serve_findGap]
    dsimp only
    rw [if_neg (by simpa using hmissing), serve_bind, hserve]
    apply serve_secure_of_held hrows
    -- a gap with a row at its border needs no seed
    intro hisOpen
    obtain ⟨id, hid⟩ := List.exists_mem_of_ne_nil _ hmissing
    have hrow := (Gap.mem_missing.1 hid).1
    rw [Gap.isOpen_iff.1 hisOpen] at hrow
    cases hrow

end Desk

end LaneOrder
