import LaneOrder.Proofs.Program.Obeys

/-!
This module contains single runs of programs. Whatever a program obeys is true of each of its runs in which replies
are honest, at the end of it and wherever it arrives on the way.
-/

namespace LaneOrder.Program

variable {I : Interface} {α : Type} {P Q : Protocol I} {p : Program I α} {H E : History I} {a : α} {op : I.Op}

def Protocol.and (P Q : Protocol I) : Protocol I where
  honest op reply := P.honest op reply ∧ Q.honest op reply
  allowed H op := P.allowed H op ∧ Q.allowed H op

/-- The protocol that nothing is demanded by, which every program obeys. -/
def Protocol.free (I : Interface) : Protocol I where
  honest _ _ := True
  allowed _ _ := True

/-- The run in which each operation gets the same reply whenever it is performed. -/
def answered (f : (op : I.Op) → I.Reply op) : Program I α → History I × α
  | done a => ([], a)
  | perform op next => (((next (f op)).answered f).1 ++ [⟨op, f op⟩], ((next (f op)).answered f).2)

theorem Protocol.and_refines_left (h : ∀ op reply, P.honest op reply → Q.honest op reply) : (P.and Q).Refines P where
  honest op reply := ⟨And.left, fun hP => ⟨hP, h op reply hP⟩⟩
  allowed _ _ h := h.1

theorem Obeys.and {post post' : History I → α → Prop} (h : Obeys P post p H) (h' : Obeys Q post' p H) :
    Obeys (P.and Q) (fun H a => post H a ∧ post' H a) p H := by
  induction p generalizing H with
  | done a => exact ⟨h, h'⟩
  | perform op next ih =>
    constructor
    . exact ⟨h.1, h'.1⟩
    . intro reply hreply
      apply ih
      . exact h.2 reply hreply.1
      . exact h'.2 reply hreply.2

variable {post : History I → α → Prop}

theorem Obeys.of_ends (h : Obeys P post p H) (hE : Ends p E a) (hhonest : ∀ e ∈ E, P.honest e.op e.reply)
    (hH : Lawful P H) : post (E ++ H) a ∧ Lawful P (E ++ H) := by
  induction hE generalizing H with
  | done a => exact ⟨h, hH⟩
  | perform reply hE ih =>
    obtain ⟨hE', hreply⟩ := List.forall_mem_append.1 hhonest
    have hreply := hreply _ (List.mem_singleton_self _)
    rw [List.append_assoc]
    exact ih (h.2 reply hreply) hE' ⟨⟨h.1, hreply⟩, hH⟩

theorem Obeys.of_ends_free (h : Obeys (.free I) post p []) (hE : Ends p E a) : post E a := by
  have hpost := (h.of_ends hE (fun _ _ => trivial) trivial).1
  rwa [List.append_nil] at hpost

theorem Obeys.of_reaches (h : Obeys P post p H) (hE : Reaches p E op) (hhonest : ∀ e ∈ E, P.honest e.op e.reply) :
    P.allowed (E ++ H) op := by
  induction hE generalizing H with
  | here => exact h.1
  | later reply hE ih =>
    obtain ⟨hE', hreply⟩ := List.forall_mem_append.1 hhonest
    rw [List.append_assoc]
    exact ih (h.2 reply (hreply _ (List.mem_singleton_self _))) hE'

theorem Ends.reaches {newer older : History I} {e : Event I} (h : Ends p (newer ++ e :: older) a) :
    Reaches p older e.op := by
  generalize hE : newer ++ e :: older = E at h
  induction h generalizing older with
  | done a => simp at hE
  | @perform op next E a reply _ ih =>
    rcases List.eq_nil_or_concat older with rfl | ⟨older, last, rfl⟩
    . obtain ⟨_, hlast⟩ := List.append_inj' hE rfl
      cases hlast
      exact .here
    . have hlast : (newer ++ e :: older) ++ [last] = E ++ [⟨op, reply⟩] := by simpa using hE
      obtain ⟨holder, hlast⟩ := List.append_inj' hlast rfl
      cases hlast
      rw [List.concat_eq_append]
      exact .later reply (ih holder)

theorem ends_answered (f : (op : I.Op) → I.Reply op) (p : Program I α) : Ends p (p.answered f).1 (p.answered f).2 := by
  induction p with
  | done a => exact .done a
  | perform op next ih => exact .perform (f op) (ih (f op))

theorem reply_of_answered {f : (op : I.Op) → I.Reply op} {e : Event I} (he : e ∈ (p.answered f).1) :
    e = ⟨e.op, f e.op⟩ := by
  induction p with
  | done a => cases he
  | perform op next ih =>
    rcases List.mem_append.1 he with he | he
    . exact ih (f op) he
    . cases List.mem_singleton.1 he
      rfl

end LaneOrder.Program
