/-!
This module contains programs that ask for things. A program is a tree: it is finished, or it performs
an operation and goes on as the reply says. What replies there are is not settled by the program, so it
can be run against any store, and a statement about it can speak of every reply.
-/

namespace LaneOrder

structure Interface where
  Op : Type
  Reply : Op → Type

inductive Program (I : Interface) (α : Type) where
  | done (result : α)
  | perform (op : I.Op) (next : I.Reply op → Program I α)

namespace Program

variable {I J : Interface} {α β : Type}

def bind : Program I α → (α → Program I β) → Program I β
  | done a, f => f a
  | perform op next, f => perform op fun reply => (next reply).bind f

instance : Monad (Program I) where
  pure := done
  bind := bind

def ask (op : I.Op) : Program I (I.Reply op) :=
  perform op done

def implement (f : (op : I.Op) → Program J (I.Reply op)) : Program I α → Program J α
  | done a => done a
  | perform op next => (f op).bind fun reply => (next reply).implement f

@[simp]
theorem done_bind (a : α) (f : α → Program I β) : (done a : Program I α) >>= f = f a :=
  rfl

@[simp]
theorem pure_eq_done (a : α) : (pure a : Program I α) = done a :=
  rfl

@[simp]
theorem perform_bind (op : I.Op) (next : I.Reply op → Program I α) (f : α → Program I β) :
    perform op next >>= f = perform op fun reply => next reply >>= f :=
  rfl

@[simp]
theorem ask_bind (op : I.Op) (f : I.Reply op → Program I β) : ask op >>= f = perform op f :=
  rfl

theorem bind_done (p : Program I α) : p >>= done = p := by
  induction p with
  | done a => rfl
  | perform op next ih => exact congrArg (perform op) (funext ih)

theorem bind_assoc {γ : Type} (p : Program I α) (f : α → Program I β) (g : β → Program I γ) :
    p >>= f >>= g = p >>= fun a => f a >>= g := by
  induction p with
  | done a => rfl
  | perform op next ih => exact congrArg (perform op) (funext ih)

theorem implement_bind (f : (op : I.Op) → Program J (I.Reply op)) (p : Program I α)
    (g : α → Program I β) :
    (p >>= g).implement f = p.implement f >>= fun a => (g a).implement f := by
  induction p with
  | done a => rfl
  | perform op next ih =>
    show (f op >>= fun reply => (next reply >>= g).implement f) = _
    simp only [ih]
    exact (bind_assoc (f op) (fun reply => (next reply).implement f) _).symm

/-- What may be left of a program after some replies. -/
inductive Within (q : Program I α) : Program I α → Prop where
  | refl : Within q q
  | next {op : I.Op} {next : I.Reply op → Program I α} (reply : I.Reply op) (h : Within q (next reply)) :
    Within q (perform op next)

/-- What may be left of a program after at least one reply. -/
inductive Below (q : Program I α) : Program I α → Prop where
  | intro {op : I.Op} {next : I.Reply op → Program I α} (reply : I.Reply op) (h : Within q (next reply)) :
    Below q (perform op next)

theorem acc_of_within {p q : Program I α} (h : Within q p) : Acc Below q := by
  induction p generalizing q with
  | done a =>
    cases h
    exact ⟨_, fun _ h => nomatch h⟩
  | perform op next ih =>
    cases h with
    | refl =>
      refine ⟨_, fun q h => ?_⟩
      cases h with
      | intro reply h => exact ih reply h
    | next reply h => exact ih reply h

theorem below_wf : WellFounded (Below (I := I) (α := α)) :=
  ⟨fun p => acc_of_within (p := p) .refl⟩

end Program

end LaneOrder
