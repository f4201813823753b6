import LaneOrder.Program

/-!
This module contains histories of programs and the protocols that programs obey. A program obeys a protocol
if it performs only what is allowed after what happened, whatever honest replies it gets. Since a program is
run together with others, this is all that is known of it when another one takes its turn.
-/

namespace LaneOrder.Program

variable {I J : Interface} {α β : Type}

structure Event (I : Interface) where
  op : I.Op
  reply : I.Reply op

abbrev History (I : Interface) : Type := List (Event I)

/-- What a program may count on in replies, and what it may perform after what happened. -/
structure Protocol (I : Interface) where
  honest : (op : I.Op) → I.Reply op → Prop
  allowed : History I → I.Op → Prop

structure Protocol.Refines (P Q : Protocol I) : Prop where
  honest : ∀ op reply, P.honest op reply ↔ Q.honest op reply
  allowed : ∀ H op, P.allowed H op → Q.allowed H op

/-- What happened after the last start, unless there was an end after it. -/
def since (starts ends : I.Op → Bool) : History I → Option (History I)
  | [] => none
  | e :: H =>
    if starts e.op then some []
    else if ends e.op then none
    else (since starts ends H).map (e :: ·)

def Obeys (P : Protocol I) (post : History I → α → Prop) : Program I α → History I → Prop
  | done a, H => post H a
  | perform op next, H =>
    P.allowed H op ∧ ∀ reply, P.honest op reply → Obeys P post (next reply) (⟨op, reply⟩ :: H)

/-- Every event of a history was allowed by what happened before it. -/
def Lawful (P : Protocol I) : History I → Prop
  | [] => True
  | e :: H => (P.allowed H e.op ∧ P.honest e.op e.reply) ∧ Lawful P H

/-- A program can end with a result after these events. -/
inductive Ends : Program I α → History I → α → Prop where
  | done (a : α) : Ends (done a) [] a
  | perform {op : I.Op} {next : I.Reply op → Program I α} {E : History I} {a : α}
      (reply : I.Reply op) (h : Ends (next reply) E a) : Ends (perform op next) (E ++ [⟨op, reply⟩]) a

/-- Every event of a history is carried out by a program over another interface. -/
inductive Mirrors (f : (op : I.Op) → Program J (I.Reply op)) : History I → History J → Prop where
  | nil : Mirrors f [] []
  | cons {e : Event I} {E T : History J} {H : History I} (h : Ends (f e.op) E e.reply)
      (rest : Mirrors f H T) : Mirrors f (e :: H) (E ++ T)

def Only (kind : I.Op → Prop) : Program I α → Prop
  | done _ => True
  | perform op next => kind op ∧ ∀ reply, Only kind (next reply)

inductive Reaches : Program I α → History I → I.Op → Prop where
  | here {op : I.Op} {next : I.Reply op → Program I α} : Reaches (perform op next) [] op
  | later {op op' : I.Op} {next : I.Reply op → Program I α} {E : History I} (reply : I.Reply op)
      (h : Reaches (next reply) E op') : Reaches (perform op next) (E ++ [⟨op, reply⟩]) op'

def Behalf (f : (op : I.Op) → Program J (I.Reply op)) (P : Protocol I) (T : History J) (op' : J.Op) : Prop :=
  ∃ H T₀ E op, T = E ++ T₀ ∧ Mirrors f H T₀ ∧ Lawful P H ∧ P.allowed H op ∧ Reaches (f op) E op'

def Protocol.carried (Q : Protocol J) (f : (op : I.Op) → Program J (I.Reply op)) (P : Protocol I) :
    Protocol J where
  honest := Q.honest
  allowed T op := Q.allowed T op ∧ Behalf f P T op

variable {P : Protocol I} {Q : Protocol J} {post : History I → α → Prop}

theorem carried_refines {f : (op : I.Op) → Program J (I.Reply op)} : (Q.carried f P).Refines Q where
  honest _ _ := .rfl
  allowed _ _ h := h.1

theorem Protocol.Refines.trans {P' P'' : Protocol I} (h : P.Refines P') (h' : P'.Refines P'') : P.Refines P'' where
  honest op reply := (h.honest op reply).trans (h'.honest op reply)
  allowed H op hP := h'.allowed H op (h.allowed H op hP)

section Since

variable {starts ends : I.Op → Bool} {e : Event I} {H t : History I}

theorem since_start (hs : starts e.op = true) : since starts ends (e :: H) = some [] := by
  simp [since, hs]

theorem since_end (hs : starts e.op = false) (he : ends e.op = true) :
    since starts ends (e :: H) = none := by
  simp [since, hs, he]

theorem since_cons (hs : starts e.op = false) (he : ends e.op = false) (h : since starts ends H = some t) :
    since starts ends (e :: H) = some (e :: t) := by
  simp [since, hs, he, h]

theorem since_eq_append (h : since starts ends H = some t) :
    ∃ e older, H = t ++ e :: older ∧ starts e.op = true := by
  induction H generalizing t with
  | nil => simp [since] at h
  | cons e H ih =>
    unfold since at h
    split at h
    . next hs =>
      cases h
      exact ⟨e, H, rfl, hs⟩
    . split at h
      . simp at h
      . obtain ⟨t', ht', rfl⟩ := Option.map_eq_some_iff.1 h
        obtain ⟨e', older, rfl, he'⟩ := ih ht'
        exact ⟨e', older, rfl, he'⟩

theorem not_boundary_of_since (h : since starts ends H = some t) : ∀ e ∈ t, starts e.op = false ∧ ends e.op = false := by
  induction H generalizing t with
  | nil => simp [since] at h
  | cons e H ih =>
    unfold since at h
    split at h
    . cases h
      simp
    . next hs =>
      split at h
      . simp at h
      . next he =>
        obtain ⟨t', ht', rfl⟩ := Option.map_eq_some_iff.1 h
        intro e' he'
        rcases List.mem_cons.1 he' with rfl | he'
        . exact ⟨by simpa using hs, by simpa using he⟩
        . exact ih ht' e' he'

theorem since_append {newer : History I} (hnewer : ∀ e ∈ newer, starts e.op = false ∧ ends e.op = false)
    (h : since starts ends H = some t) : since starts ends (newer ++ H) = some (newer ++ t) := by
  induction newer with
  | nil => exact h
  | cons e newer ih =>
    obtain ⟨hs, he⟩ := hnewer e List.mem_cons_self
    exact since_cons hs he (ih fun e' he' => hnewer e' (List.mem_cons_of_mem _ he'))

theorem since_append_none {newer : History I} (hnewer : ∀ e ∈ newer, starts e.op = false ∧ ends e.op = false)
    (h : since starts ends H = none) : since starts ends (newer ++ H) = none := by
  induction newer with
  | nil => exact h
  | cons e newer ih =>
    obtain ⟨hs, he⟩ := hnewer e List.mem_cons_self
    simp [since, hs, he, ih fun e' he' => hnewer e' (List.mem_cons_of_mem _ he')]

theorem mem_of_since (h : since starts ends H = some t) (he : e ∈ t) : e ∈ H := by
  obtain ⟨_, _, rfl, _⟩ := since_eq_append h
  exact List.mem_append_left _ he

theorem since_of_append (newer : History I) (h : since starts ends (newer ++ H) = some (newer ++ t)) :
    since starts ends H = some t := by
  induction newer with
  | nil => exact h
  | cons e newer ih =>
    apply ih
    simp only [List.cons_append] at h
    unfold since at h
    split at h
    . simp at h
    . split at h
      . simp at h
      . simpa using h

end Since

theorem obeys_ask {op : I.Op} {H : History I} {post : History I → I.Reply op → Prop}
    (h : P.allowed H op) (hp : ∀ reply, P.honest op reply → post (⟨op, reply⟩ :: H) reply) :
    Obeys P post (ask op) H :=
  ⟨h, hp⟩

theorem obeys_bind {post : History I → β → Prop} {p : Program I α} {f : α → Program I β} {H : History I}
    (h : Obeys P (fun H a => Obeys P post (f a) H) p H) : Obeys P post (p >>= f) H := by
  induction p generalizing H with
  | done a => exact h
  | perform op next ih =>
    constructor
    . exact h.1
    . intro reply hreply
      apply ih
      exact h.2 reply hreply

theorem Obeys.mono {post' : History I → α → Prop} {p : Program I α} {H : History I} (h : Obeys P post p H)
    (hpost : ∀ H a, post H a → post' H a) : Obeys P post' p H := by
  induction p generalizing H with
  | done a => exact hpost H a h
  | perform op next ih =>
    constructor
    . exact h.1
    . intro reply hreply
      apply ih
      exact h.2 reply hreply

theorem Obeys.refines {P' : Protocol I} {p : Program I α} {H : History I} (h : Obeys P post p H)
    (hP : P.Refines P') : Obeys P' post p H := by
  induction p generalizing H with
  | done a => exact h
  | perform op next ih =>
    constructor
    . exact hP.allowed H op h.1
    . intro reply hreply
      apply ih
      exact h.2 reply ((hP.honest op reply).2 hreply)

theorem Lawful.refines {P' : Protocol I} {H : History I} (h : Lawful P H) (hP : P.Refines P') : Lawful P' H := by
  induction H with
  | nil => trivial
  | cons e H ih => exact ⟨⟨hP.allowed H e.op h.1.1, (hP.honest e.op e.reply).1 h.1.2⟩, ih h.2⟩

theorem Lawful.of_append {newer H : History I} (h : Lawful P (newer ++ H)) : Lawful P H := by
  induction newer with
  | nil => exact h
  | cons e newer ih => exact ih h.2

theorem Lawful.allowed {newer older : History I} {e : Event I} (h : Lawful P (newer ++ e :: older)) :
    P.allowed older e.op :=
  h.of_append.1.1

theorem Lawful.honest_of_mem {H : History I} {e : Event I} (h : Lawful P H) (he : e ∈ H) :
    P.honest e.op e.reply := by
  obtain ⟨newer, older, rfl⟩ := List.append_of_mem he
  exact h.of_append.1.2

theorem Lawful.allowed_of_mem {H : History I} {e : Event I} (h : Lawful P H) (he : e ∈ H) :
    ∃ older, P.allowed older e.op := by
  obtain ⟨newer, older, rfl⟩ := List.append_of_mem he
  exact ⟨older, h.allowed⟩

theorem Obeys.ends {p : Program I α} {H : History I} (h : Obeys P post p H) (hH : Lawful P H) :
    Obeys P (fun H' a => post H' a ∧ Lawful P H' ∧ ∃ E, H' = E ++ H ∧ Ends p E a) p H := by
  induction p generalizing H with
  | done a => exact ⟨h, hH, [], rfl, .done a⟩
  | perform op next ih =>
    constructor
    . exact h.1
    . intro reply hreply
      apply (ih reply (h.2 reply hreply) ⟨⟨h.1, hreply⟩, hH⟩).mono
      rintro H' a ⟨hpost, hlawful, E, rfl, hE⟩
      exact ⟨hpost, hlawful, E ++ [⟨op, reply⟩], by simp, .perform reply hE⟩

theorem Obeys.kind {kind : I.Op → Prop} {p : Program I α} {H : History I} (h : Obeys P post p H)
    (hkind : ∀ H op, P.allowed H op → kind op) :
    Obeys P (fun H' a => post H' a ∧ ∃ E, H' = E ++ H ∧ ∀ e ∈ E, kind e.op) p H := by
  induction p generalizing H with
  | done a => exact ⟨h, [], rfl, by simp⟩
  | perform op next ih =>
    constructor
    . exact h.1
    . intro reply hreply
      apply (ih reply (h.2 reply hreply)).mono
      rintro H' a ⟨hpost, E, rfl, hE⟩
      refine ⟨hpost, E ++ [⟨op, reply⟩], by simp, ?_⟩
      intro e he
      rcases List.mem_append.1 he with he | he
      . exact hE e he
      . cases List.mem_singleton.1 he
        exact hkind H op h.1

theorem Mirrors.append {f : (op : I.Op) → Program J (I.Reply op)} {H H' : History I} {T T' : History J}
    (h : Mirrors f H T) (h' : Mirrors f H' T') : Mirrors f (H ++ H') (T ++ T') := by
  induction h with
  | nil => exact h'
  | cons he _ ih =>
    rw [List.append_assoc]
    exact .cons he ih

theorem Mirrors.of_append {f : (op : I.Op) → Program J (I.Reply op)} {H H' : History I} {T : History J}
    (h : Mirrors f (H ++ H') T) : ∃ E T', T = E ++ T' ∧ Mirrors f H E ∧ Mirrors f H' T' := by
  induction H generalizing T with
  | nil => exact ⟨[], T, rfl, .nil, h⟩
  | cons e H ih =>
    cases h with
    | cons he rest =>
      obtain ⟨E, T', rfl, hE, hT'⟩ := ih rest
      exact ⟨_, T', (List.append_assoc ..).symm, .cons he hE, hT'⟩

theorem Mirrors.cons_inv {f : (op : I.Op) → Program J (I.Reply op)} {e : Event I} {H : History I} {T : History J}
    (h : Mirrors f (e :: H) T) : ∃ E T', T = E ++ T' ∧ Ends (f e.op) E e.reply ∧ Mirrors f H T' := by
  cases h with
  | cons he rest => exact ⟨_, _, rfl, he, rest⟩

theorem Mirrors.exists_of_mem {f : (op : I.Op) → Program J (I.Reply op)} {H : History I} {T : History J}
    (h : Mirrors f H T) {x : Event J} (hx : x ∈ T) : ∃ e ∈ H, ∃ E, Ends (f e.op) E e.reply ∧ x ∈ E := by
  induction h with
  | nil => simp at hx
  | cons he _ ih =>
    rcases List.mem_append.1 hx with hx | hx
    . exact ⟨_, List.mem_cons_self, _, he, hx⟩
    . obtain ⟨e, he, E, hE, hx⟩ := ih hx
      exact ⟨e, List.mem_cons_of_mem _ he, E, hE, hx⟩

theorem Mirrors.mem {f : (op : I.Op) → Program J (I.Reply op)} {H : History I} {T : History J}
    (h : Mirrors f H T) {e : Event I} (he : e ∈ H) : ∃ E, Ends (f e.op) E e.reply ∧ ∀ x ∈ E, x ∈ T := by
  induction h with
  | nil => simp at he
  | cons hE _ ih =>
    rcases List.mem_cons.1 he with rfl | he
    . exact ⟨_, hE, fun x hx => List.mem_append_left _ hx⟩
    . obtain ⟨E, hE, hmem⟩ := ih he
      exact ⟨E, hE, fun x hx => List.mem_append_right _ (hmem x hx)⟩

theorem ends_done {a b : α} {E : History I} : Ends (done a) E b ↔ E = [] ∧ a = b := by
  constructor
  . intro h
    cases h
    exact ⟨rfl, rfl⟩
  . rintro ⟨rfl, rfl⟩
    exact .done a

theorem ends_perform {op : I.Op} {next : I.Reply op → Program I α} {E : History I} {a : α} :
    Ends (perform op next) E a ↔ ∃ reply E', Ends (next reply) E' a ∧ E = E' ++ [⟨op, reply⟩] := by
  constructor
  . intro h
    cases h with
    | perform reply h => exact ⟨reply, _, h, rfl⟩
  . rintro ⟨reply, E', h, rfl⟩
    exact .perform reply h

theorem ends_bind {p : Program I α} {f : α → Program I β} {E : History I} {b : β} (h : Ends (p >>= f) E b) :
    ∃ a E₁ E₂, Ends p E₁ a ∧ Ends (f a) E₂ b ∧ E = E₂ ++ E₁ := by
  induction p generalizing E with
  | done a => exact ⟨a, [], E, .done a, h, by simp⟩
  | perform op next ih =>
    obtain ⟨reply, E', h', rfl⟩ := ends_perform.1 h
    obtain ⟨a, E₁, E₂, h₁, h₂, rfl⟩ := ih reply h'
    exact ⟨a, E₁ ++ [⟨op, reply⟩], E₂, .perform reply h₁, h₂, by simp⟩

theorem ends_ask {op : I.Op} {E : History I} {reply : I.Reply op} (h : Ends (ask op) E reply) :
    E = [⟨op, reply⟩] := by
  obtain ⟨_, E', h', rfl⟩ := ends_perform.1 h
  obtain ⟨rfl, rfl⟩ := ends_done.1 h'
  rfl

theorem reaches_done {a : α} {E : History I} {op : I.Op} : ¬ Reaches (done a) E op := by
  intro h
  cases h

theorem reaches_perform {op op' : I.Op} {next : I.Reply op → Program I α} {E : History I} :
    Reaches (perform op next) E op' ↔ E = [] ∧ op = op'
      ∨ ∃ reply E', Reaches (next reply) E' op' ∧ E = E' ++ [⟨op, reply⟩] := by
  constructor
  . intro h
    cases h with
    | here => exact .inl ⟨rfl, rfl⟩
    | later reply h => exact .inr ⟨reply, _, h, rfl⟩
  . rintro (⟨rfl, rfl⟩ | ⟨reply, E', h, rfl⟩)
    . exact .here
    . exact .later reply h

theorem reaches_ask {op op' : I.Op} {E : History I} (h : Reaches (ask op) E op') : E = [] ∧ op = op' := by
  rcases reaches_perform.1 h with hhere | ⟨_, _, hrest, _⟩
  . exact hhere
  . exact absurd hrest reaches_done

theorem reaches_bind {p : Program I α} {f : α → Program I β} {E : History I} {op : I.Op} (h : Reaches (p >>= f) E op) :
    Reaches p E op ∨ ∃ a E₁ E₂, Ends p E₁ a ∧ Reaches (f a) E₂ op ∧ E = E₂ ++ E₁ := by
  induction p generalizing E with
  | done a => exact .inr ⟨a, [], E, .done a, h, by simp⟩
  | perform op' next ih =>
    rcases reaches_perform.1 h with ⟨rfl, rfl⟩ | ⟨reply, E', hrest, rfl⟩
    . exact .inl .here
    . rcases ih reply hrest with hp | ⟨a, E₁, E₂, h₁, h₂, rfl⟩
      . exact .inl (.later reply hp)
      . exact .inr ⟨a, E₁ ++ [⟨op', reply⟩], E₂, .perform reply h₁, h₂, by simp⟩

section Only

variable {kind : I.Op → Prop}

theorem only_bind {p : Program I α} {f : α → Program I β} (hp : Only kind p) (hf : ∀ a, Only kind (f a)) :
    Only kind (p >>= f) := by
  induction p with
  | done a => exact hf a
  | perform op next ih =>
    constructor
    . exact hp.1
    . intro reply
      exact ih reply (hp.2 reply)

theorem only_ask {op : I.Op} (hop : kind op) : Only kind (ask op) :=
  ⟨hop, fun _ => trivial⟩

theorem Only.mono {kind' : I.Op → Prop} {p : Program I α} (h : Only kind p) (hkind : ∀ op, kind op → kind' op) :
    Only kind' p := by
  induction p with
  | done a => exact trivial
  | perform op next ih =>
    constructor
    . exact hkind op h.1
    . intro reply
      exact ih reply (h.2 reply)

theorem Only.of_ends {p : Program I α} (h : Only kind p) {E : History I} {a : α} (hE : Ends p E a) :
    ∀ x ∈ E, kind x.op := by
  induction hE with
  | done => simp
  | perform reply _ ih =>
    intro x hx
    rcases List.mem_append.1 hx with hx | hx
    . exact ih (h.2 reply) x hx
    . cases List.mem_singleton.1 hx
      exact h.1

theorem Only.obeys {p : Program I α} (h : Only kind p) (hkind : ∀ H op, kind op → P.allowed H op) {H : History I} :
    Obeys P (fun _ _ => True) p H := by
  induction p generalizing H with
  | done a => exact trivial
  | perform op next ih =>
    constructor
    . exact hkind H op h.1
    . intro reply _
      exact ih reply (h.2 reply)

theorem Only.of_reaches {p : Program I α} (h : Only kind p) {E : History I} {op : I.Op} (hE : Reaches p E op) :
    kind op := by
  induction hE with
  | here => exact h.1
  | later reply _ ih => exact ih (h.2 reply)

theorem Only.mem_of_reaches {p : Program I α} (h : Only kind p) {E : History I} {op : I.Op} (hE : Reaches p E op) :
    ∀ x ∈ E, kind x.op := by
  induction hE with
  | here => simp
  | later reply _ ih =>
    intro x hx
    rcases List.mem_append.1 hx with hx | hx
    . exact ih (h.2 reply) x hx
    . cases List.mem_singleton.1 hx
      exact h.1

end Only

theorem Obeys.and_allowed {allowed : History I → I.Op → Prop} {p : Program I α} {H : History I}
    (h : Obeys P post p H) (hreach : ∀ E op, Reaches p E op → allowed (E ++ H) op) :
    Obeys ⟨P.honest, fun H op => P.allowed H op ∧ allowed H op⟩ post p H := by
  induction p generalizing H with
  | done a => exact h
  | perform op next ih =>
    constructor
    . exact ⟨h.1, hreach [] op .here⟩
    . intro reply hreply
      apply ih reply (h.2 reply hreply)
      intro E op' hE
      have := hreach _ op' (.later reply hE)
      rwa [List.append_assoc] at this

theorem carried_mono {f : (op : I.Op) → Program J (I.Reply op)} {P' : Protocol I} (h : P.Refines P') :
    (Q.carried f P).Refines (Q.carried f P') where
  honest _ _ := .rfl
  allowed T op hT := by
    refine ⟨hT.1, ?_⟩
    obtain ⟨H, T₀, E, op', rfl, hm, hH, hallowed, hreach⟩ := hT.2
    exact ⟨H, T₀, E, op', rfl, hm, hH.refines h, h.allowed H op' hallowed, hreach⟩

/-- A program obeys a protocol of the other interface if each operation is carried out as it demands. -/
theorem obeys_implement {f : (op : I.Op) → Program J (I.Reply op)}
    (hf : ∀ op H T, Lawful P H → P.allowed H op → Mirrors f H T → Lawful Q T →
      Obeys Q (fun _ reply => P.honest op reply) (f op) T)
    {p : Program I α} {H : History I} {T : History J} (hp : Obeys P post p H) (hH : Lawful P H)
    (hm : Mirrors f H T) (hT : Lawful (Q.carried f P) T) :
    Obeys (Q.carried f P) (fun T a => ∃ H, Lawful P H ∧ Mirrors f H T ∧ post H a) (p.implement f) T := by
  induction p generalizing H T with
  | done a => exact ⟨H, hH, hm, hp⟩
  | perform op next ih =>
    apply obeys_bind
    -- wherever the operation arrives, it acts on its own behalf
    have hcarried : Obeys (Q.carried f P) (fun _ reply => P.honest op reply) (f op) T := by
      apply (hf op H T hH hp.1 hm (hT.refines carried_refines)).and_allowed
      intro E op' hE
      exact ⟨H, T, E, op, rfl, hm, hH, hp.1, hE⟩
    apply (hcarried.ends hT).mono
    rintro T' reply ⟨hreply, hT', E, rfl, hE⟩
    apply ih reply (hp.2 reply hreply)
    . exact ⟨⟨hp.1, hreply⟩, hH⟩
    . exact .cons hE hm
    . exact hT'

end LaneOrder.Program
