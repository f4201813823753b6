import LaneOrder.Proofs.Program.Runs

/-!
This module contains what is left of a program after some events. Protocols say what a program may perform next; here it
is said what it does with the reply.
-/

namespace LaneOrder.Program

variable {I J : Interface} {α β : Type}

inductive Leaves : Program I α → History I → Program I α → Prop where
  | here (p : Program I α) : Leaves p [] p
  | later {op : I.Op} {next : I.Reply op → Program I α} {E : History I} {q : Program I α} (reply : I.Reply op)
      (h : Leaves (next reply) E q) : Leaves (perform op next) (E ++ [⟨op, reply⟩]) q

variable {p q : Program I α} {E : History I} {op : I.Op} {next : I.Reply op → Program I α}

theorem leaves_perform {op' : I.Op} {next' : I.Reply op' → Program I α} :
    Leaves (perform op next) E (perform op' next') ↔ E = [] ∧ perform op next = perform op' next'
      ∨ ∃ reply E', Leaves (next reply) E' (perform op' next') ∧ E = E' ++ [⟨op, reply⟩] := by
  constructor
  . intro h
    cases h with
    | here => exact .inl ⟨rfl, rfl⟩
    | later reply h => exact .inr ⟨reply, _, h, rfl⟩
  . rintro (⟨rfl, heq⟩ | ⟨reply, E', h, rfl⟩)
    . rw [heq]
      exact .here _
    . exact .later reply h

theorem Leaves.push (h : Leaves p E (perform op next)) (reply : I.Reply op) : Leaves p (⟨op, reply⟩ :: E) (next reply) := by
  generalize hq : perform op next = q at h
  induction h with
  | here =>
    subst hq
    exact .later reply (.here _)
  | later reply' _ ih => exact .later reply' (ih hq)

theorem Leaves.trans {E' : History I} {rest : Program I α} (h : Leaves p E q) (h' : Leaves q E' rest) :
    Leaves p (E' ++ E) rest := by
  induction h with
  | here =>
    rw [List.append_nil]
    exact h'
  | later reply _ ih =>
    rw [← List.append_assoc]
    exact .later reply (ih h')

theorem leaves_of_ends {a : α} {f : α → Program I β} (h : Ends p E a) : Leaves (p >>= f) E (f a) := by
  induction h with
  | done a => exact .here _
  | perform reply _ ih => exact .later reply ih

theorem Leaves.reaches (h : Leaves p E (perform op next)) : Reaches p E op := by
  generalize hq : perform op next = q at h
  induction h with
  | here =>
    subst hq
    exact .here
  | later reply _ ih => exact .later reply (ih hq)

theorem exists_leaves_of_reaches (h : Reaches p E op) : ∃ next : I.Reply op → Program I α, Leaves p E (perform op next) := by
  induction h with
  | @here op next => exact ⟨next, .here _⟩
  | later reply _ ih =>
    obtain ⟨next, hnext⟩ := ih
    exact ⟨next, .later reply hnext⟩

theorem leaves_bind {p : Program I α} {f : α → Program I β} {next : I.Reply op → Program I β}
    (h : Leaves (p >>= f) E (perform op next)) :
    (∃ next', Leaves p E (perform op next') ∧ next = fun reply => next' reply >>= f)
      ∨ ∃ a E₁ E₂, Ends p E₁ a ∧ Leaves (f a) E₂ (perform op next) ∧ E = E₂ ++ E₁ := by
  induction p generalizing E with
  | done a => exact .inr ⟨a, [], E, .done a, h, by simp⟩
  | perform op' next' ih =>
    rcases leaves_perform.1 h with ⟨rfl, heq⟩ | ⟨reply, E', hrest, rfl⟩
    . cases heq
      exact .inl ⟨next', .here _, rfl⟩
    . rcases ih reply hrest with ⟨next'', hp, heq⟩ | ⟨a, E₁, E₂, h₁, h₂, rfl⟩
      . exact .inl ⟨next'', .later reply hp, heq⟩
      . exact .inr ⟨a, E₁ ++ [⟨op', reply⟩], E₂, .perform reply h₁, h₂, by simp⟩

theorem Only.not_leaves {kind : I.Op → Prop} (h : Only kind p) (hop : ¬ kind op) : ¬ Leaves p E (perform op next) :=
  fun hE => hop (h.of_reaches hE.reaches)

/-- What is left of the program over the other interface: the rest of what carries out an operation, and then what is left
of the first program. -/
theorem leaves_implement {f : (op : I.Op) → Program J (I.Reply op)} {T : History J} {op' : J.Op}
    {next' : J.Reply op' → Program J α} (h : Leaves (p.implement f) T (perform op' next')) :
    ∃ H T₀ E op next rest, T = E ++ T₀ ∧ Mirrors f H T₀ ∧ Leaves p H (perform op next)
      ∧ Leaves (f op) E (perform op' rest)
      ∧ next' = fun reply => rest reply >>= fun reply => (next reply).implement f := by
  induction p generalizing T with
  | done a =>
    cases h
  | perform op next ih =>
    rcases leaves_bind h with ⟨rest, hf, heq⟩ | ⟨reply, E₁, E₂, hends, hleft, rfl⟩
    . exact ⟨[], [], T, op, next, rest, (List.append_nil T).symm, .nil, .here _, hf, heq⟩
    . obtain ⟨H, T₀, E, op'', next'', rest, rfl, hm, hp, hf, heq⟩ := ih reply hleft
      refine ⟨H ++ [⟨op, reply⟩], T₀ ++ E₁, E, op'', next'', rest, List.append_assoc .., ?_, .later reply hp, hf, heq⟩
      apply hm.append
      have hlast : Mirrors f [⟨op, reply⟩] (E₁ ++ []) := .cons hends .nil
      rwa [List.append_nil] at hlast

/-- Where an operation is performed in the program over the other interface, it carries out one of the first. -/
theorem reaches_implement {f : (op : I.Op) → Program J (I.Reply op)} {T : History J} {op' : J.Op}
    (h : Reaches (p.implement f) T op') :
    ∃ H T₀ E op, T = E ++ T₀ ∧ Mirrors f H T₀ ∧ Reaches p H op ∧ Reaches (f op) E op' := by
  obtain ⟨next', hnext⟩ := exists_leaves_of_reaches h
  obtain ⟨H, T₀, E, op, next, rest, rfl, hm, hp, hf, _⟩ := leaves_implement hnext
  exact ⟨H, T₀, E, op, rfl, hm, hp.reaches, hf.reaches⟩

end LaneOrder.Program
