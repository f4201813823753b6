import LaneOrder.Proofs.Command.Oblivious
import LaneOrder.Proofs.Command.Runs

/-!
This module contains how every single run of a command calls the resolver, the store and the sink, whatever they answer.
-/

namespace LaneOrder

open Program

namespace Program.Event

/-- What a command heeds of an event: notes are for others, and it is not heeded how a record or a roll-back went. -/
def heeded? : Event calls → Option (Event calls)
  | ⟨.ambient (.note _), _⟩ => none
  | ⟨.record entry, _⟩ => some ⟨.record entry, .ok ()⟩
  | ⟨.rollback, _⟩ => some ⟨.rollback, .ok ()⟩
  | e => some e

end Program.Event

def Call.isUnheeded : Call → Bool
  | record _ | rollback => true
  | _ => false

/-- Records and roll-backs are replied to as a function of what happened before says. -/
def Follows (f : History calls → (c : Call) → c.Reply) : History calls → Prop
  | [] => True
  | e :: H => (e.op.isUnheeded = true → e = ⟨e.op, f H e.op⟩) ∧ Follows f H

/-- How a command calls the store, the resolver and the sink. The resolver is asked first; unless it answers with a role
that can modify and the request is valid, nobody else is called. Not more than so many transactions are begun, each
call of a transaction is made while it is open, and each one is ended once before the next one is begun and in the end. A
command that writes a single row writes it in the last transaction only, and commits right after that. If something was
done it is recorded once, and otherwise it is not. -/
structure Regular (actor : ActorId) (workspace : WorkspaceId) (valid : Prop) (limit : Nat) (single : Prop)
    (H : History calls) : Prop where
  asks : ∃ newer reply, H = newer ++ [⟨.role actor workspace, reply⟩] ∧ (∀ e ∈ newer, e.op.isRole = false)
    ∧ ((∃ role, reply = .ok role ∧ role.canModify = true ∧ valid) ∨ ∀ e ∈ newer, e.op.isAmbient = true)
  begins : H.countP (·.op.starts) ≤ limit
  within : ∀ newer e older, H = newer ++ e :: older → e.op.transacts = true ∨ e.op.isEnd = true → Begun older
  ended : ∀ newer older, H = newer ++ ⟨.begin, .ok ()⟩ :: older →
    ∃ later e between, newer = later ++ e :: between ∧ e.op.isEnd = true
      ∧ ∀ e' ∈ between, e'.op.starts = false ∧ e'.op.isEnd = false
  writesOnce : single → H.countP (·.op.persists?.isSome) ≤ 1
  writesLast : single → ∀ newer e older, H = newer ++ e :: older → e.op.persists?.isSome = true →
    ∀ e' ∈ newer, e'.op.starts = false
  commits : single → ∀ newer w id position lane older, H = newer ++ ⟨.persist w id position lane, .ok ()⟩ :: older →
    ∃ later reply between, newer = later ++ ⟨.commit, reply⟩ :: between ∧ ∀ e ∈ between, e.op.isAmbient = true
  records : H.countP (·.op.isRecord) = if ∃ e ∈ H, e.takesEffect = true then 1 else 0

section Conducted

variable {α : Type} {used : Call → Bool} {limit : Nat} {single : Prop} {H newer : History calls} {e : Event calls}

theorem begins_of_lawful (hH : Lawful (conduct used limit single) H) : H.countP (·.op.starts) ≤ limit := by
  induction H with
  | nil => exact Nat.zero_le _
  | cons e H ih =>
    cases hs : e.op.starts with
    | false =>
      rw [List.countP_cons_of_neg (by simp [hs])]
      exact ih hH.2
    | true =>
      rw [List.countP_cons, if_pos hs]
      exact (hH.1.1.2.starts hs).2.1

theorem countP_le_one {p : Event calls → Bool}
    (h : ∀ newer e older, H = newer ++ e :: older → p e = true → ∀ e' ∈ older, p e' = false) : H.countP p ≤ 1 := by
  induction H with
  | nil => exact Nat.zero_le _
  | cons e H ih =>
    cases he : p e with
    | false =>
      rw [List.countP_cons_of_neg (by simp [he])]
      exact ih fun newer e' older heq => h (e :: newer) e' older (by simp [heq])
    | true =>
      have hnone : H.countP p = 0 := by
        apply List.countP_eq_zero.2
        intro e' he'
        simp [h [] e H rfl he e' he']
      rw [List.countP_cons_of_pos he]
      exact Nat.le_of_eq (congrArg (· + 1) hnone)

theorem writesOnce_of_lawful (hH : Lawful (conduct used limit single) H) (hsingle : single) :
    H.countP (·.op.persists?.isSome) ≤ 1 := by
  apply countP_le_one
  rintro newer e older rfl hp e' he'
  simp [hH.allowed.2.persists hsingle hp e' he']

theorem recordsOnce_of_lawful (hH : Lawful (conduct used limit single) H) : H.countP (·.op.isRecord) ≤ 1 := by
  apply countP_le_one
  rintro newer e older rfl hr
  exact hH.allowed.2.records hr

theorem isSequel_of_isRecord {c : Call} (hc : c.isRecord = true) : c.isSequel = true := by
  cases c <;> first | rfl | cases hc

theorem records_of_lawful (hH : Lawful (conduct used limit single) H) (htidy : Tidy H) :
    H.countP (·.op.isRecord) = if ∃ e ∈ H, e.takesEffect = true then 1 else 0 := by
  split
  . next heffect =>
    obtain ⟨e, he, heffect⟩ := heffect
    rcases htidy.2 with hnone | hrecord
    . exact nomatch (hnone e he).symm.trans heffect
    . have hpos := List.countP_pos_iff.2 hrecord
      have hle := recordsOnce_of_lawful hH
      omega
  . next hnone =>
    have hfruitless : Fruitless H := by
      intro e he
      cases heffect : e.takesEffect with
      | false => rfl
      | true => exact absurd ⟨e, he, heffect⟩ hnone
    apply List.countP_eq_zero.2
    intro e he hrecord
    have hsequel := not_sequel_of_fruitless hH (fun _ _ h => h.2.timely) hfruitless he
    exact nomatch hsequel.symm.trans (isSequel_of_isRecord hrecord)

theorem begun_append (hb : Begun H) (hnewer : ∀ e ∈ newer, e.op.isAmbient = true) : Begun (newer ++ H) := by
  induction newer with
  | nil => exact hb
  | cons e newer ih =>
    obtain ⟨he, hrest⟩ := List.forall_mem_cons.1 hnewer
    obtain ⟨c, reply⟩ := e
    cases c with
    | ambient c => exact (ih hrest).push rfl rfl
    | _ => cases he

/-- A list is cut at its last element that lacks a property. -/
theorem exists_last {α : Type} {p : α → Bool} {xs : List α} (h : ¬ ∀ x ∈ xs, p x = true) :
    ∃ newer x older, xs = newer ++ x :: older ∧ p x = false ∧ ∀ y ∈ older, p y = true := by
  induction xs with
  | nil => exact absurd (by simp) h
  | cons x xs ih =>
    by_cases hxs : ∀ y ∈ xs, p y = true
    . cases hx : p x with
      | false => exact ⟨[], x, xs, rfl, hx, hxs⟩
      | true =>
        refine absurd ?_ h
        intro y hy
        rcases List.mem_cons.1 hy with rfl | hy
        . exact hx
        . exact hxs y hy
    . obtain ⟨newer, y, older, rfl, hy, holder⟩ := ih hxs
      exact ⟨x :: newer, y, older, rfl, hy, holder⟩

/-- After a successful write a transaction is left open until the next call, and this can only be its commit. -/
theorem commits_of_lawful (hsingle : single) (hclosed : Closed H) {w : WorkspaceId} {id : TaskId} {position : Position}
    {lane : Lane} {older : History calls} (hH : Lawful (conduct used limit single) H)
    (hcut : H = newer ++ ⟨.persist w id position lane, .ok ()⟩ :: older) :
    ∃ later reply between, newer = later ++ ⟨.commit, reply⟩ :: between ∧ ∀ e ∈ between, e.op.isAmbient = true := by
  subst hcut
  have hbegun : Begun (⟨.persist w id position lane, .ok ()⟩ :: older) :=
    (hH.allowed.2.timely.transacts rfl).2.push rfl rfl
  have hnot : ¬ ∀ e ∈ newer, e.op.isAmbient = true := fun hall => hclosed (begun_append hbegun hall)
  obtain ⟨later, e, between, rfl, he, hbetween⟩ := exists_last hnot
  refine ⟨later, ?_⟩
  rw [List.append_assoc, List.cons_append] at hH
  have hpoised : Poised (between ++ ⟨.persist w id position lane, .ok ()⟩ :: older) :=
    ⟨between, w, id, position, lane, older, rfl, hbetween⟩
  rcases hH.allowed.2.poised hsingle (begun_append hbegun hbetween) hpoised with hambient | hcommit
  . exact nomatch he.symm.trans hambient
  . obtain ⟨c, reply⟩ := e
    cases hcommit
    exact ⟨reply, between, rfl, hbetween⟩

theorem begun_of_unbounded {older : History calls} (hnewer : ∀ e ∈ newer, (!e.op.starts && !e.op.ends) = true) :
    Begun (newer ++ ⟨.begin, .ok ()⟩ :: older) := by
  have hboundary : ∀ e ∈ newer, e.op.starts = false ∧ e.op.ends = false := by simpa using hnewer
  have hstart : transacted (⟨.begin, .ok ()⟩ :: older) = some [] := transacted_begin
  have hopen := since_append hboundary hstart
  rw [List.append_nil] at hopen
  exact ⟨newer, older, hopen, rfl⟩

/-- A transaction that was begun is open until it is ended, and neither can the next one begin before that nor is the
command done. -/
theorem ended_of_lawful (hclosed : Closed H) (hused : ∀ c, used c = true → c.ends = true → c.isEnd = true)
    {older : History calls} (hH : Lawful (conduct used limit single) H) (hcut : H = newer ++ ⟨.begin, .ok ()⟩ :: older) :
    ∃ later e between, newer = later ++ e :: between ∧ e.op.isEnd = true
      ∧ ∀ e' ∈ between, e'.op.starts = false ∧ e'.op.isEnd = false := by
  subst hcut
  obtain ⟨later, e, between, rfl, he, hbetween⟩ := exists_last fun hall => hclosed (begun_of_unbounded hall)
  refine ⟨later, e, between, rfl, ?_, ?_⟩
  . rw [List.append_assoc, List.cons_append] at hH
    have hallowed := hH.allowed
    cases hs : e.op.starts with
    | true => exact absurd (begun_of_unbounded hbetween) (hallowed.2.starts hs).1
    | false =>
      apply hused e.op hallowed.1
      simpa [hs] using he
  . intro e' he'
    have hboundary : e'.op.starts = false ∧ e'.op.ends = false := by simpa using hbetween e' he'
    refine ⟨hboundary.1, ?_⟩
    obtain ⟨c, reply⟩ := e'
    cases c <;> first | rfl | cases hboundary.2

theorem ends_authorized {actor : ActorId} {workspace : WorkspaceId} {next : Commanding (Outcome α)} {outcome : Outcome α}
    (h : Ends (authorized actor workspace next) H outcome) :
    ∃ newer reply, H = newer ++ [⟨.role actor workspace, reply⟩]
      ∧ ((∃ role, reply = .ok role ∧ role.canModify = true ∧ Ends next newer outcome)
        ∨ ∀ e ∈ newer, e.op.isAmbient = true) := by
  obtain ⟨reply, newer, hrest, rfl⟩ := ends_perform.1 h
  refine ⟨newer, reply, rfl, ?_⟩
  have hnoted : ∀ {n : Notice} {error : CommandError},
      Ends (note n >>= fun _ => (.done (.error error) : Commanding (Outcome α))) newer outcome →
        ∀ e ∈ newer, e.op.isAmbient = true := by
    intro n error hnote
    obtain ⟨_, E, hdone, rfl⟩ := ends_perform.1 hnote
    obtain ⟨rfl, _⟩ := ends_done.1 hdone
    simp [Call.isAmbient]
  cases reply with
  | ok role =>
    change Ends (if role.canModify then next else note .modificationDenied >>= fun _ => _) newer outcome at hrest
    split at hrest
    . next hrole => exact .inl ⟨role, rfl, hrole, hrest⟩
    . exact .inr (hnoted hrest)
  | error e =>
    right
    cases e with
    | store e => exact hnoted hrest
    | notMember =>
      obtain ⟨rfl, _⟩ := ends_done.1 hrest
      simp

theorem ends_withLane {name : String} {next : Lane → Commanding (Outcome α)} {outcome : Outcome α}
    (h : Ends (withLane name next) H outcome) :
    (∃ lane, Lane.parse name = .ok lane ∧ Ends (next lane) H outcome) ∨ H = [] := by
  unfold withLane at h
  split at h
  . next lane hlane => exact .inl ⟨lane, hlane, h⟩
  . exact .inr (ends_done.1 h).1

theorem regular_of_ends {actor : ActorId} {workspace : WorkspaceId} {valid : Prop} {next : Commanding (Outcome α)}
    {outcome : Outcome α} {post : History calls → Outcome α → Prop}
    (hobeys : Obeys (conduct used limit single) post (authorized actor workspace next) [])
    (hpost : ∀ H outcome, post H outcome → Tidy H) (hused : ∀ c, used c = true → c.ends = true → c.isEnd = true)
    (hvalid : ∀ H outcome, Ends next H outcome → valid ∨ H = [])
    (h : Ends (authorized actor workspace next) H outcome) : Regular actor workspace valid limit single H := by
  obtain ⟨htidy, hH⟩ := hobeys.of_ends h (fun _ _ => trivial) trivial
  rw [List.append_nil] at htidy hH
  have htidy := hpost H outcome htidy
  constructor
  . obtain ⟨newer, reply, rfl, hcase⟩ := ends_authorized h
    refine ⟨newer, reply, rfl, ?_, ?_⟩
    . intro e he
      obtain ⟨later, older, rfl⟩ := List.append_of_mem he
      cases hrole : e.op.isRole with
      | false => rfl
      | true =>
        rw [List.append_assoc, List.cons_append] at hH
        exact absurd (hH.allowed.2.role hrole) (by simp)
    . rcases hcase with ⟨role, hreply, hrole, hrest⟩ | hambient
      . rcases hvalid _ _ hrest with hv | rfl
        . exact .inl ⟨role, hreply, hrole, hv⟩
        . exact .inr (by simp)
      . exact .inr hambient
  . exact begins_of_lawful hH
  . rintro newer e older rfl (htransacts | hend)
    . exact (hH.allowed.2.timely.transacts htransacts).2
    . exact hH.allowed.2.ends hend
  . intro newer older hcut
    exact ended_of_lawful htidy.1 hused hH hcut
  . exact writesOnce_of_lawful hH
  . rintro hsingle newer e older rfl hp e' he'
    obtain ⟨later, between, rfl⟩ := List.append_of_mem he'
    cases hstarts : e'.op.starts with
    | false => rfl
    | true =>
      rw [List.append_assoc, List.cons_append] at hH
      have hnone := (hH.allowed.2.starts hstarts).2.2 hsingle e (by simp)
      rw [hnone] at hp
      cases hp
  . intro hsingle newer w id position lane older hcut
    exact commits_of_lawful hsingle htidy.1 hH hcut
  . exact records_of_lawful hH htidy

end Conducted

section Retelling

variable {α β : Type} {expects : (c : Call) → c.Reply → Prop} {kind : Call → Prop} {p : Commanding α} {E H : History calls}
  {a : α} {f : History calls → (c : Call) → c.Reply}

/-- A run can be told in another way: what is heeded and the result are the same, and all else is as a function says. -/
def Retells (f : History calls → (c : Call) → c.Reply) (p : Commanding α) (H E : History calls) (a : α) : Prop :=
  ∃ E', Ends p E' a ∧ E'.filterMap Event.heeded? = E.filterMap Event.heeded? ∧ Follows f (E' ++ H)

theorem ends_bind_append {g : α → Commanding β} {E' : History calls} {b : β} (h : Ends p E a) (h' : Ends (g a) E' b) :
    Ends (p >>= g) (E' ++ E) b := by
  induction h with
  | done a =>
    rw [List.append_nil]
    exact h'
  | perform reply _ ih =>
    rw [← List.append_assoc]
    exact .perform reply (ih h')

theorem Retells.bind {g : α → Commanding β} {E' : History calls} {b : β} (h : Retells f p H E a)
    (h' : ∀ H, Follows f H → Retells f (g a) H E' b) : Retells f (p >>= g) H (E' ++ E) b := by
  obtain ⟨E₁, hE₁, hheeded₁, hfollows₁⟩ := h
  obtain ⟨E₂, hE₂, hheeded₂, hfollows₂⟩ := h' _ hfollows₁
  refine ⟨E₂ ++ E₁, ends_bind_append hE₁ hE₂, ?_, ?_⟩
  . simp only [List.filterMap_append, hheeded₁, hheeded₂]
  . rwa [List.append_assoc]

theorem ends_call {c : Call} (reply : c.Reply) : Ends (call c) [⟨c, reply⟩] reply :=
  .perform (I := calls) reply (.done reply)

theorem retells_call {c : Call} {reply : c.Reply} (hc : c.isUnheeded = false) (hH : Follows f H) :
    Retells f (call c) H [⟨c, reply⟩] reply :=
  ⟨[⟨c, reply⟩], ends_call reply, rfl, by simp [hc], hH⟩

theorem heeded_of_notes (hE : ∀ e ∈ E, e.op.isNote = true) : E.filterMap Event.heeded? = [] := by
  apply List.filterMap_eq_nil_iff.2
  rintro ⟨c, reply⟩ he
  cases c with
  | ambient c => cases c <;> first | rfl | cases hE _ he
  | _ => cases hE _ he

theorem exists_notes {p : Commanding Unit} (hp : Only (I := calls) (·.isNote = true) p) (hH : Follows f H) :
    ∃ E, Ends p E () ∧ (∀ e ∈ E, e.op.isNote = true) ∧ Follows f (E ++ H) := by
  induction p generalizing H with
  | done u => exact ⟨[], .done u, by simp, hH⟩
  | perform c next ih =>
    obtain ⟨hc, hnext⟩ := hp
    cases c with
    | ambient c =>
      cases c with
      | note n =>
        have hnoted : Follows f (⟨.ambient (.note n), ()⟩ :: H) := ⟨nofun, hH⟩
        obtain ⟨E, hE, hnotes, hfollows⟩ := ih () (hnext ()) hnoted
        refine ⟨E ++ [⟨.ambient (.note n), ()⟩], ends_perform.2 ⟨(), E, hE, rfl⟩, ?_, ?_⟩
        . intro e he
          rcases List.mem_append.1 he with he | he
          . exact hnotes e he
          . cases List.mem_singleton.1 he
            rfl
        . simpa using hfollows
      | _ => cases hc
    | _ => cases hc

/-- A call whose reply decides only about what is noted is told with any other reply. -/
theorem retells_unheeded {c : Call} {handle : c.Reply → Commanding Unit} {u : Unit}
    (hhandle : ∀ reply, Only (I := calls) (·.isNote = true) (handle reply))
    (hheeded : ∀ reply reply', (Event.mk (I := calls) c reply).heeded? = (Event.mk (I := calls) c reply').heeded?)
    (h : Ends (call c >>= handle) E u) (hH : Follows f H) : Retells f (call c >>= handle) H E u := by
  obtain ⟨reply, E, hnotes, rfl⟩ := ends_perform.1 h
  have hfollows : Follows f (⟨c, f H c⟩ :: H) := ⟨fun _ => rfl, hH⟩
  obtain ⟨E', hE', hnotes', hfollows⟩ := exists_notes (hhandle (f H c)) hfollows
  refine ⟨E' ++ [⟨c, f H c⟩], ends_bind_append (ends_call (f H c)) hE', ?_, ?_⟩
  . have hsame := heeded_of_notes ((hhandle reply).of_ends hnotes)
    simp [heeded_of_notes hnotes', hsame, List.filterMap_cons, hheeded (f H c) reply]
  . simpa using hfollows

theorem retells_record {entry : Timestamp → AuditEntry} {u : Unit} (h : Ends (record entry) E u) (hH : Follows f H) :
    Retells f (record entry) H E u := by
  obtain ⟨time, E₁, E₂, hnow, hrecord, rfl⟩ := ends_bind h
  cases ends_ask hnow
  apply (retells_call rfl hH).bind
  intro H hH
  apply retells_unheeded _ _ hrecord hH
  . intro reply
    cases reply with
    | ok _ => exact trivial
    | error e => exact only_ask rfl
  . intro _ _
    rfl

theorem retells_abandon {u : Unit} (h : Ends abandon E u) (hH : Follows f H) : Retells f abandon H E u := by
  apply retells_unheeded _ _ h hH
  . intro reply
    cases reply with
    | ok _ => exact trivial
    | error e => exact only_ask rfl
  . intro _ _
    rfl

theorem Call.heeded_of_concerns {workspace : WorkspaceId} {fresh : TaskId → Prop} (c : Call)
    (hc : c.Concerns workspace fresh) : c.isUnheeded = false := by
  cases c <;> first | rfl | cases hc

theorem retells_of_oblivious (hp : Oblivious expects kind p) (hkind : ∀ c, kind c → c.isUnheeded = false)
    (hexpects : ∀ c reply, expects c reply) (h : Ends p E a) (hH : Follows f H) : Retells f p H E a := by
  induction hp generalizing E H with
  | done b =>
    obtain ⟨rfl, rfl⟩ := ends_done.1 h
    exact ⟨[], h, rfl, hH⟩
  | @calls c next hc _ ih =>
    obtain ⟨reply, E, hrest, rfl⟩ := ends_perform.1 h
    apply Retells.bind (p := call c) (g := next) (retells_call (hkind c hc) hH)
    intro H hH
    exact ih reply (hexpects c reply) hrest hH
  | records entry _ ih =>
    obtain ⟨_, E₁, E₂, hrecord, hrest, rfl⟩ := ends_bind h
    apply (retells_record hrecord hH).bind
    intro H hH
    exact ih hrest hH
  | abandons _ ih =>
    obtain ⟨_, E₁, E₂, hrollback, hrest, rfl⟩ := ends_bind h
    apply (retells_abandon hrollback hH).bind
    intro H hH
    exact ih hrest hH

end Retelling

namespace Request

/-- What is checked of a command before a store is called. -/
def IsValid : Request → Prop
  | move r => (Lane.parse r.lane).isOk = true ∧ r.anchorError? = none
  | create r => (Text.trim r.title).isEmpty = false ∧ (Lane.parse r.lane).isOk = true
  | renormalize r => (Lane.parse r.lane).isOk = true
  | call _ => True

/-- How the calls of a request are made. A creation begins no transaction, a renormalization one, and only a move writes a
single row in it. -/
def Conducts (q : Request) (H : History calls) : Prop :=
  match q with
  | move r => Regular r.actor r.workspace q.IsValid Move.maxAttempts True H
  | create r => Regular r.actor r.workspace q.IsValid 0 False H
  | renormalize r => Regular r.actor r.workspace q.IsValid 1 False H
  | call c => H.map (·.op) = [c]

end Request

namespace Move

theorem regular_moveTask {r : MoveRequest} {H : History calls} {outcome : Outcome MoveOutcome}
    (h : Ends (moveTask r) H outcome) : (Request.move r).Conducts H := by
  apply regular_of_ends (conduct_moveTask r) (fun _ _ h => h.2) _ _ h
  . intro c hc hends
    cases c <;> first | rfl | cases hends
    cases hc
  . intro H outcome h
    rcases ends_withLane h with ⟨lane, hlane, h⟩ | rfl
    . split at h
      . exact .inr (ends_done.1 h).1
      . next hnone => exact .inl ⟨by simp [hlane, Except.isOk, Except.toBool], hnone⟩
    . exact .inr rfl

end Move

theorem Create.regular_createTask {r : CreateRequest} {H : History calls} {outcome : Outcome Task}
    (h : Ends (createTask r) H outcome) : (Request.create r).Conducts H := by
  apply regular_of_ends (conduct_createTask r) (fun _ _ h => h) _ _ h
  . intro c hc hends
    cases c <;> first | rfl | cases hends
    cases hc
  . intro H outcome h
    dsimp only at h
    split at h
    . exact .inr (ends_done.1 h).1
    . next htitle =>
      rcases ends_withLane h with ⟨lane, hlane, _⟩ | rfl
      . exact .inl ⟨by simpa using htitle, by simp [hlane, Except.isOk, Except.toBool]⟩
      . exact .inr rfl

theorem Renormalize.regular_renormalizeLane {r : RenormalizeRequest} {H : History calls} {outcome : Outcome RenormalizeOutcome}
    (h : Ends (renormalizeLane r) H outcome) : (Request.renormalize r).Conducts H := by
  apply regular_of_ends (conduct_renormalizeLane r) (fun _ _ h => h) _ _ h
  . intro c hc hends
    cases c <;> first | rfl | cases hends
    cases hc
  . intro H outcome h
    rcases ends_withLane h with ⟨lane, hlane, _⟩ | rfl
    . exact .inl (by simp [Request.IsValid, hlane, Except.isOk, Except.toBool])
    . exact .inr rfl

namespace Request

variable {q : Request} {H : History calls} {a : Answer}

theorem conducts_program (h : Ends q.program H a) : q.Conducts H := by
  cases q with
  | move r =>
    obtain ⟨_, _, _, hmove, hanswer, rfl⟩ := ends_bind h
    obtain ⟨rfl, _⟩ := ends_done.1 hanswer
    exact Move.regular_moveTask hmove
  | create r =>
    obtain ⟨_, _, _, hcreate, hanswer, rfl⟩ := ends_bind h
    obtain ⟨rfl, _⟩ := ends_done.1 hanswer
    exact Create.regular_createTask hcreate
  | renormalize r =>
    obtain ⟨_, _, _, hrenormalize, hanswer, rfl⟩ := ends_bind h
    obtain ⟨rfl, _⟩ := ends_done.1 hanswer
    exact Renormalize.regular_renormalizeLane hrenormalize
  | call c =>
    obtain ⟨_, _, _, hcall, hanswer, rfl⟩ := ends_bind h
    obtain ⟨rfl, _⟩ := ends_done.1 hanswer
    cases ends_ask hcall
    rfl

theorem exists_isFor (hq : ∀ c, q ≠ .call c) : ∃ workspace, q.IsFor workspace := by
  cases q with
  | move r => exact ⟨r.workspace, rfl⟩
  | create r => exact ⟨r.workspace, rfl⟩
  | renormalize r => exact ⟨r.workspace, rfl⟩
  | call c => exact absurd rfl (hq c)

/-- Every run of a command calls the resolver, the store and the sink as it should, whatever they reply. Whatever they
reply to records and roll-backs instead, there is a run that is the same in all that is heeded and that has the same
result. -/
theorem commands_conducted (hq : ∀ c, q ≠ .call c) (h : Ends q.program H a) :
    q.Conducts H ∧ ∀ f : History calls → (c : Call) → c.Reply, ∃ H', Ends q.program H' a
      ∧ H'.filterMap Event.heeded? = H.filterMap Event.heeded? ∧ Follows f H' := by
  refine ⟨conducts_program h, ?_⟩
  intro f
  obtain ⟨workspace, hworkspace⟩ := exists_isFor hq
  have hfresh : ∀ c reply, Call.Fresh (fun _ => True) c reply := by
    intro c reply
    unfold Call.Fresh
    split <;> trivial
  have hnothing : Follows f [] := trivial
  obtain ⟨H', h', hheeded, hfollows⟩ :=
    retells_of_oblivious (oblivious_program hworkspace) Call.heeded_of_concerns hfresh h hnothing
  rw [List.append_nil] at hfollows
  exact ⟨H', h', hheeded, hfollows⟩

/-- A move that is recorded, though its record fails in other runs. -/
theorem commands_conducted_move : (∀ c, Request.move Sample.move ≠ .call c)
    ∧ Ends (Request.move Sample.move).program ((Request.move Sample.move).program.answered (Sample.reply (.ok none))).1
      ((Request.move Sample.move).program.answered (Sample.reply (.ok none))).2
    ∧ (Request.move Sample.move).Conducts ((Request.move Sample.move).program.answered (Sample.reply (.ok none))).1 := by
  have hends := ends_answered (Sample.reply (.ok none)) (Request.move Sample.move).program
  have hcommand : ∀ c, Request.move Sample.move ≠ .call c := by rintro _ ⟨⟩
  exact ⟨hcommand, hends, (commands_conducted hcommand hends).1⟩

end Request

end LaneOrder
