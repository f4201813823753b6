import LaneOrder.Proofs.Binary64.Rounding
import LaneOrder.Proofs.Board.Gap
import LaneOrder.Proofs.Config

/-!
This module contains where allocated positions lie. A position between two neighbours that is not flagged has been checked to
lie between them. A step away from a single neighbour is neither checked nor flagged: it leaves the neighbour behind if it is
long enough to survive rounding, and stays finite if it ends early enough.
-/

namespace LaneOrder

namespace Binary64

variable {x d : Binary64} {direction : Direction}

/-- The place of the number that follows on one side. -/
def besideRank (x : Binary64) : Direction → Int
  | .above => x.rank + 1
  | .below => x.rank - 1

/-- How far away the number is that follows on one side, in units of `2 ^ -1074`. -/
def spacing (x : Binary64) (direction : Direction) : Nat :=
  (scaledOf (x.besideRank direction) - x.scaled).natAbs

/-- Where a step ends if it is not rounded. -/
def exactStep (x d : Binary64) : Direction → Int
  | .above => x.scaled + d.scaled
  | .below => x.scaled - d.scaled

/-- A step leads away from `x` to a finite number. It has to cover more than half of the distance to the next number, or half
of it if this number is the even one of the two, and has to end before the middle between the greatest number and what would
come after it. -/
def Clears (x d : Binary64) (direction : Direction) : Prop :=
  (x.spacing direction < 2 * d.units ∨ x.spacing direction = 2 * d.units ∧ x.magnitude % 2 = 1)
    ∧ 2 * (x.exactStep d direction).natAbs < unitsOf (infinityMagnitude - 1) + unitsOf infinityMagnitude

instance (x d : Binary64) (direction : Direction) : Decidable (x.Clears d direction) :=
  inferInstanceAs (Decidable (_ ∧ _))

section Step

variable (hx : x.isFinite = true) (hd : d.isFinite = true) (hpos : 0 < d.rank)

include hx hd hpos

/-- A step up leads to a greater finite number if and only if it clears its start. -/
theorem clears_above : (x + d).isFinite = true ∧ x < x + d ↔ x.Clears d .above := by
  obtain ⟨hnumber, hrank⟩ := rank_add hx hd
  have hinside := isFinite_iff.1 hx
  have hstep := scaledOf_lt_scaledOf (show x.rank < x.rank + 1 by omega)
  have hleaves := lt_nearestRank_iff (r := x.rank) (e := x.scaled + d.scaled) (by omega) (by omega)
  unfold Clears spacing besideRank exactStep
  rw [lt_of_number (isNaN_of_isFinite hx) hnumber, isFinite_iff_of_nearest hrank, hrank, hleaves, magnitude_mod_two, and_comm]
  dsimp only
  rw [← scaled_eq] at hstep ⊢
  rw [scaled_of_pos hpos]
  apply and_congr_left'
  omega

theorem clears_below : (x - d).isFinite = true ∧ x - d < x ↔ x.Clears d .below := by
  obtain ⟨hnumber, hrank⟩ := rank_sub hx hd
  have hinside := isFinite_iff.1 hx
  have hstep := scaledOf_lt_scaledOf (show x.rank - 1 < x.rank by omega)
  have hleaves := lt_nearestRank_iff (r := x.rank - 1) (e := x.scaled - d.scaled) (by omega) (by omega)
  unfold Clears spacing besideRank exactStep
  rw [lt_of_number hnumber (isNaN_of_isFinite hx), isFinite_iff_of_nearest hrank, hrank, magnitude_mod_two, and_comm]
  dsimp only
  rw [Int.sub_add_cancel] at hleaves
  rw [← scaled_eq] at hstep hleaves
  rw [scaled_of_pos hpos] at hleaves ⊢
  apply and_congr_left'
  omega

end Step

end Binary64

namespace Allocator

variable {c : Config} {a : Allocator} {before after : Option Position}

/-- There is room for a position that is allocated. Between two neighbours the allocator sees to it. -/
def HasRoom (a : Allocator) : Option Position → Option Position → Prop
  | some before, none => before.Clears a.increment .below
  | none, some after => after.Clears a.increment .above
  | _, _ => True

theorem bisect_between {before after : Position} (hbefore : before.isFinite = true) (hafter : after.isFinite = true)
    (hlt : after < before) (hflag : (a.bisect before after).exhausted = false) :
    (a.bisect before after).position.isFinite = true
      ∧ Between (some before) (some after) (a.bisect before after).position := by
  unfold bisect at hflag ⊢
  simp only [if_pos hlt, Bool.or_eq_false_iff, Bool.not_eq_false', Bool.and_eq_true, decide_eq_true_eq] at hflag ⊢
  obtain ⟨-, hlow, hhigh⟩ := hflag
  refine ⟨?_, ?_⟩
  . have := (Binary64.lt_iff.1 hlow).2.2
    have := (Binary64.lt_iff.1 hhigh).2.2
    rw [Binary64.isFinite_iff] at *
    omega
  . refine ⟨?_, ?_⟩
    . rintro _ ⟨⟩
      exact hhigh
    . rintro _ ⟨⟩
      exact hlow

theorem increment_of_checked (hc : c.error? = none) : c.increment.isFinite = true ∧ 0 < c.increment.rank := by
  have hzero : (Binary64.ofNat 0).rank = 0 := by decide +kernel
  obtain ⟨⟨hfinite, hpos⟩, -⟩ := Config.error?_eq_none.1 hc
  exact ⟨hfinite, hzero ▸ (Binary64.lt_iff.1 hpos).2.2⟩

/-- A position that is not flagged is finite and lies between its neighbours if and only if there is room for it. Without two
neighbours nothing is flagged. -/
theorem unflagged_between (hc : c.error? = none) (hbefore : ∀ p ∈ before, p.isFinite = true)
    (hafter : ∀ p ∈ after, p.isFinite = true) (hlt : ∀ p ∈ before, ∀ q ∈ after, q < p) :
    ((c.allocator.allocate before after).exhausted = false →
        ((c.allocator.allocate before after).position.isFinite = true
            ∧ Between before after (c.allocator.allocate before after).position
          ↔ c.allocator.HasRoom before after))
      ∧ (before = none ∨ after = none → (c.allocator.allocate before after).exhausted = false) := by
  obtain ⟨hincrement, hpos⟩ := increment_of_checked hc
  cases before with
  | none =>
    cases after with
    | none =>
      refine ⟨fun _ => iff_of_true ⟨hincrement, ?_⟩ trivial, fun _ => rfl⟩
      exact ⟨nofun, nofun⟩
    | some after =>
      refine ⟨fun _ => ?_, fun _ => rfl⟩
      have hclears := Binary64.clears_above (hafter after rfl) hincrement hpos
      have hbetween : ∀ x, Between none (some after) x ↔ after < x := fun x => by simp [Between]
      rw [hbetween]
      exact hclears
  | some before =>
    cases after with
    | none =>
      refine ⟨fun _ => ?_, fun _ => rfl⟩
      have hclears := Binary64.clears_below (hbefore before rfl) hincrement hpos
      have hbetween : ∀ x, Between (some before) none x ↔ x < before := fun x => by simp [Between]
      rw [hbetween]
      exact hclears
    | some after =>
      refine ⟨fun hflag => iff_of_true ?_ trivial, by simp⟩
      exact bisect_between (hbefore before rfl) (hafter after rfl) (hlt before rfl after rfl) hflag

end Allocator

end LaneOrder

namespace LaneOrder.Sample

/-- Positions are spaced by one. -/
def narrow : Config where
  increment := .ofNat 1

/-- An odd number, one step away from the middle between it and the next one, which is even. -/
def odd : Position :=
  .ofNat (2 ^ 53 + 2)

/-- So great a number that the next one is farther away than two steps of the usual size. -/
def remote : Position :=
  .ofNat (10 ^ 20)

end LaneOrder.Sample

namespace LaneOrder.Allocator

/-- The step from an odd number ends in the middle between it and the next one and is rounded to that one. -/
theorem unflagged_between_odd : Sample.narrow.error? = none ∧ Sample.odd.isFinite = true
    ∧ (Sample.narrow.allocator.allocate none (some Sample.odd)).exhausted = false
    ∧ (Sample.narrow.allocator.allocate none (some Sample.odd)).position.isFinite = true
    ∧ Between none (some Sample.odd) (Sample.narrow.allocator.allocate none (some Sample.odd)).position := by
  have hc : Sample.narrow.error? = none := by decide +kernel
  have hodd : Sample.odd.isFinite = true := by decide +kernel
  obtain ⟨hplace, hflag⟩ := @unflagged_between Sample.narrow none (some Sample.odd) hc nofun
    (fun p hp => Option.mem_some.1 hp ▸ hodd) nofun
  have hunflagged := hflag (.inl rfl)
  have hclears : Sample.odd.Clears Sample.narrow.increment .above := by decide +kernel
  exact ⟨hc, hodd, hunflagged, (hplace hunflagged).2 hclears⟩

/-- With the default settings a position above a neighbour can be the one of this neighbour, and it is not flagged. -/
theorem unflagged_on_neighbor : ({} : Config).error? = none ∧ Sample.remote.isFinite = true
    ∧ (({} : Config).allocator.allocate none (some Sample.remote)).exhausted = false
    ∧ (({} : Config).allocator.allocate none (some Sample.remote)).position = Sample.remote
    ∧ ¬ Sample.remote < (({} : Config).allocator.allocate none (some Sample.remote)).position :=
  ⟨by decide +kernel, by decide +kernel, by decide +kernel, by decide +kernel, by decide +kernel⟩

end LaneOrder.Allocator
