import LaneOrder.Config

/-!
This module contains what is true of a configuration that has passed its checks.
-/

namespace LaneOrder.Config

variable {c c' : Config}

theorem error?_eq_none : c.error? = none ↔ (c.increment.isFinite = true ∧ .ofNat 0 < c.increment)
    ∧ (c.epsilon.isFinite = true ∧ .ofNat 0 ≤ c.epsilon) ∧ ¬ c.increment ≤ c.epsilon ∧ c.lockTimeoutMillis ≠ 0
    ∧ c.maxConnections ≠ 0 := by
  have hcheck : ∀ {p : Prop} [Decidable p] {e : Error} {rest : Option Error},
      (if p then some e else rest) = none ↔ ¬ p ∧ rest = none := by
    intro p _ e rest
    split <;> simp [*]
  unfold error?
  simp only [hcheck, Bool.not_eq_true', Bool.not_eq_false, Bool.and_eq_true, decide_eq_true_eq, and_true]

theorem checked_eq_ok : checked c = .ok c' ↔ c.error? = none ∧ c = c' := by
  unfold checked
  split <;> simp [*]

end LaneOrder.Config
