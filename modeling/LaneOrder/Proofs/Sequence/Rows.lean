import LaneOrder.Proofs.Crowd.Rows
import LaneOrder.Proofs.Sequence.Basic

/-!
This module contains when a command that has a board to itself alters the rows: once if it is answered that something was
done, and never if it is not. Until then all that it reads is what the rows have been when it began.
-/

namespace LaneOrder

open Board Program

namespace Request

/-- Whether what happened alters rows on behalf of a command. The commit of a deletion does not: the row was deleted
before. -/
def alters : Request → Event ops → Bool
  | create _, ⟨.action (.insert _), true⟩ => true
  | call _, ⟨.action (.delete ..), _⟩ => true
  | move _, ⟨.action .commit, _⟩ => true
  | renormalize _, ⟨.action .commit, _⟩ => true
  | _, _ => false

def AltersOnce (q : Request) (E : History ops) : Prop :=
  ∃ newer e older, E = newer ++ e :: older ∧ q.alters e = true ∧ (∀ x ∈ newer, q.alters x = false)
    ∧ ∀ x ∈ older, q.alters x = false

/-- What is known of a command that has altered nothing yet. -/
structure Unaltered (q : Request) (h : Holder) (b b₁ : Board) (T : History ops) : Prop where
  rows : b₁.rows = b.rows
  reads : ∀ e ∈ T, e.ReadFrom b.rows
  holds : Holds b₁ h T
  lawful : Lawful q.protocol T

variable {q : Request} {h : Holder} {b b' : Board} {e : Event ops} {T newer older : History ops} {H : History calls}

theorem rows_of_happens (he : Happens h b e b') (hq : q.IsCommand) (hT : Lawful q.protocol (e :: T))
    (hb : Holds b h T) (hnot : q.alters e = false) : b'.rows = b.rows := by
  have hallowed := hT.1.1
  cases he with
  | answered => rfl
  | givesUp ha =>
    rw [(act_blocking ha).board]
    rfl
  | acts ha =>
    cases act_change ha with
    | none | gets | writes | starts | releases => rfl
    | inserts he hrows =>
      cases he
      obtain ⟨r, rfl⟩ := insert_cases hallowed hq
      cases hnot
    | deletes he =>
      cases he
      obtain ⟨workspace, rfl⟩ := delete_cases hallowed
      cases hnot
    | commits he =>
      cases he
      cases q with
      | move r => cases hnot
      | renormalize r => cases hnot
      | create r =>
        rcases commit_cases hallowed with ⟨_, _, _, hc⟩ | ⟨_, _, _, hc⟩
        . exact hc.2.elim
        . cases eq_delete_of_delete hc
      | call c =>
        obtain ⟨workspace, id, rfl⟩ := hq
        obtain ⟨s, hs⟩ := (protocol_refines.allowed _ _ hallowed).ends rfl
        exact rows_commit_of_deletion hb hT.2 hs

theorem reads_of_ran (hq : q.IsCommand) (hr : Ran h b (newer ++ older) b') (hT : Lawful q.protocol (newer ++ older))
    (hnot : ∀ e ∈ newer, q.alters e = false) :
    ∃ b₁, Ran h b older b₁ ∧ b'.rows = b₁.rows ∧ ∀ e ∈ newer, e.ReadFrom b₁.rows := by
  induction newer generalizing b' with
  | nil => exact ⟨b', hr, rfl, by simp⟩
  | cons e newer ih =>
    obtain ⟨he, hnewer⟩ := List.forall_mem_cons.1 hnot
    cases hr with
    | cons hr hhappens =>
      obtain ⟨b₁, holder, hrows, hreads⟩ := ih hr hT.2 hnewer
      have hb := hr.holds (hT.2.refines protocol_refines)
      refine ⟨b₁, holder, (rows_of_happens hhappens hq hT hb he).trans hrows, List.forall_mem_cons.2 ⟨?_, hreads⟩⟩
      rw [← hrows]
      exact readFrom_of_happens hhappens hT hb

theorem unaltered_of_ran (hq : q.IsCommand) (hr : Ran h b T b') (hT : Lawful q.protocol T)
    (hnot : ∀ e ∈ T, q.alters e = false) : q.Unaltered h b b' T := by
  rw [← List.append_nil T] at hr hT
  obtain ⟨b₁, hnil, hrows, hreads⟩ := reads_of_ran hq hr hT hnot
  rw [List.append_nil] at hr hT
  cases hnil
  exact ⟨hrows, hreads, hr.holds (hT.refines protocol_refines), hT⟩

section Ends

variable {c : Call} {E : History ops}

theorem not_alters_of_serves {x : Event ops} (hx : Serves c x.op) (hc : c.isEffect = false) : q.alters x = false := by
  obtain ⟨op, reply⟩ := x
  cases c with
  | insert | commit | delete => cases hc
  | persist =>
    rcases hx with rfl | ⟨_, rfl⟩ <;> cases q <;> rfl
  | lockLane =>
    rcases hx with rfl | ⟨_, rfl⟩ <;> cases q <;> rfl
  | _ =>
    cases hx
    cases q <;> rfl

theorem alters_of_deleteTask {workspace : WorkspaceId} {id : TaskId} {reply : Except StoreError Bool}
    (hE : Ends (deleteTask workspace id) E reply) :
    reply ≠ .ok true ∧ (∀ x ∈ E, (call c).alters x = false) ∨ reply = .ok true ∧ (call c).AltersOnce E := by
  rcases ends_deleteTask hE with ⟨granted, rfl, hreply⟩ | ⟨granted, now, rfl, hreply⟩
  . exact .inl ⟨hreply, by simp [alters]⟩
  . right
    refine ⟨hreply, [⟨.action .commit, ()⟩], ⟨.action (.delete id now), ()⟩,
      [⟨.ambient .now, now⟩, ⟨.action (.lockRow id), granted⟩, ⟨.action .start, ()⟩], rfl, rfl, ?_, ?_⟩
    . simp [alters]
    . simp [alters]

theorem alters_of_insert {t : Task} {reply : Except StoreError Unit} (hq : q.IsCommand)
    (hc : q.callProtocol.allowed H (.insert t)) (hE : Ends (carryOut (.insert t)) E reply) :
    (∃ error, reply = .error error) ∧ (∀ x ∈ E, q.alters x = false) ∨ reply = .ok () ∧ q.AltersOnce E := by
  obtain ⟨r, rfl⟩ := creates_of_insert hc hq
  obtain ⟨inserted, E₁, E₂, hask, hrest, rfl⟩ := ends_bind hE
  cases ends_ask hask
  cases inserted with
  | false =>
    obtain ⟨rfl, rfl⟩ := ends_done.1 hrest
    refine .inl ⟨⟨_, rfl⟩, ?_⟩
    intro x hx
    cases List.mem_singleton.1 hx
    rfl
  | true =>
    obtain ⟨rfl, rfl⟩ := ends_done.1 hrest
    exact .inr ⟨rfl, [], ⟨.action (.insert t), true⟩, [], rfl, rfl, by simp, by simp⟩

theorem alters_of_commit {reply : Except StoreError Unit} (hq : q.IsCommand) (hc : q.callProtocol.allowed H .commit)
    (hE : Ends (carryOut .commit) E reply) : reply = .ok () ∧ q.AltersOnce E := by
  obtain ⟨_, E₁, E₂, hask, hrest, rfl⟩ := ends_bind hE
  cases ends_ask hask
  obtain ⟨rfl, rfl⟩ := ends_done.1 hrest
  refine ⟨rfl, [], ⟨.action .commit, ()⟩, [], rfl, ?_, by simp, by simp⟩
  rcases transacts_of_commit hc hq with ⟨r, rfl⟩ | ⟨r, rfl⟩ <;> rfl

theorem alters_of_ends (hq : q.IsCommand) (hc : q.callProtocol.allowed H c) {reply : c.Reply}
    (hE : Ends (carryOut c) E reply) :
    (Event.mk (I := calls) c reply).takesEffect = false ∧ (∀ x ∈ E, q.alters x = false)
      ∨ (Event.mk (I := calls) c reply).takesEffect = true ∧ q.AltersOnce E := by
  cases heffect : c.isEffect with
  | false =>
    left
    refine ⟨?_, fun x hx => not_alters_of_serves ((serves_carryOut c).of_ends hE x hx) heffect⟩
    cases c with
    | insert | commit | delete => cases heffect
    | _ => rfl
  | true =>
    cases c with
    | insert t =>
      rcases alters_of_insert hq hc hE with ⟨⟨error, rfl⟩, hnot⟩ | ⟨rfl, halters⟩
      . exact .inl ⟨rfl, hnot⟩
      . exact .inr ⟨rfl, halters⟩
    | commit =>
      obtain ⟨rfl, halters⟩ := alters_of_commit hq hc hE
      exact .inr ⟨rfl, halters⟩
    | delete workspace id =>
      cases eq_delete_of_delete hc
      rcases alters_of_deleteTask hE with ⟨hreply, hnot⟩ | ⟨rfl, halters⟩
      . left
        refine ⟨?_, hnot⟩
        cases reply with
        | error e => rfl
        | ok deleted =>
          cases deleted with
          | false => rfl
          | true => exact absurd rfl hreply
      . exact .inr ⟨rfl, halters⟩
    | _ => cases heffect

end Ends

section Mirrors

variable (hq : q.IsCommand) (hm : Mirrors carryOut H T) (hH : ∀ e ∈ H, ∃ H', q.callProtocol.allowed H' e.op)

include hq hm hH

theorem not_alters_of_mirrors (hnone : ∀ e ∈ H, e.takesEffect = false) : ∀ x ∈ T, q.alters x = false := by
  intro x hx
  obtain ⟨e, he, E, hE, hxE⟩ := hm.exists_of_mem hx
  obtain ⟨H', hc⟩ := hH e he
  rcases alters_of_ends hq hc hE with ⟨_, hnot⟩ | ⟨heffect, _⟩
  . exact hnot x hxE
  . exact nomatch (hnone e he).symm.trans heffect

theorem altersOnce_of_mirrors (hfruit : Fruitful H) : q.AltersOnce T := by
  obtain ⟨newer, e, older, rfl, heffect, hnone, haside⟩ := hfruit
  -- cut at the call that takes effect: neither side of it alters anything
  obtain ⟨Tn, T', rfl, hmn, hm'⟩ := hm.of_append
  obtain ⟨E, To, rfl, hE, hmo⟩ := hm'.cons_inv
  have hn : ∀ x ∈ Tn, q.alters x = false := by
    apply not_alters_of_mirrors hq hmn fun e he => hH e (by simp [he])
    exact fun e he => not_takesEffect_of_isAside (haside e he)
  have ho : ∀ x ∈ To, q.alters x = false :=
    not_alters_of_mirrors hq hmo (fun e he => hH e (by simp [he])) hnone
  obtain ⟨H', hc⟩ := hH e (by simp)
  rcases alters_of_ends hq hc hE with ⟨hnot, _⟩ | ⟨_, En, x, Eo, rfl, hx, hEn, hEo⟩
  . exact nomatch hnot.symm.trans heffect
  . refine ⟨Tn ++ En, x, Eo ++ To, by simp, hx, ?_, ?_⟩
    . exact List.forall_mem_append.2 ⟨hn, hEn⟩
    . exact List.forall_mem_append.2 ⟨hEo, ho⟩

end Mirrors

theorem not_failsToFind_of_mirrors (hm : Mirrors carryOut H T) {e : Event calls} (he : e ∈ H) : e.failsToFind = false := by
  obtain ⟨E, hE, _⟩ := hm.mem he
  obtain ⟨c, reply⟩ := e
  cases c with
  | find workspace id =>
    obtain ⟨row, E₁, E₂, _, hrest, _⟩ := ends_bind hE
    obtain ⟨_, rfl⟩ := ends_done.1 hrest
    rfl
  | _ => rfl

theorem inserts_of_mirrors (hm : Mirrors carryOut H T) {t : Task} (ht : (⟨.insert t, .ok ()⟩ : Event calls) ∈ H) :
    (⟨.action (.insert t), true⟩ : Event ops) ∈ T := by
  obtain ⟨E, hE, hmem⟩ := hm.mem ht
  obtain ⟨inserted, E₁, E₂, hask, hrest, rfl⟩ := ends_bind hE
  cases ends_ask hask
  cases inserted with
  | true => exact hmem _ (by simp)
  | false => cases (ends_done.1 hrest).2

/-- A command that has just altered the rows, once and for all, with what it has done before. -/
structure Effective (q : Request) (h : Holder) (b b' : Board) (T : History ops) (e : Event ops) (a : Answer) : Prop where
  alters : q.alters e = true
  allowed : q.protocol.allowed T e.op
  before : ∃ b₁, q.Unaltered h b b₁ T ∧ ∃ b₂, Happens h b₁ e b₂ ∧ b'.rows = b₂.rows
  created : ∀ r, q = create r → ∃ t, a = .created t ∧ e = ⟨.action (.insert t), true⟩

end Request

/-- A command fails and leaves the rows alone, or it succeeds and alters them once. -/
theorem Command.effective (c : Command) (hc : c.request.IsCommand) (b : Board) :
    (c.complete b).answer.succeeds = false ∧ (c.complete b).board.rows = b.rows
      ∨ (c.complete b).answer.succeeds = true ∧ ∃ newer e older, (c.complete b).past = newer ++ e :: older
        ∧ c.request.Effective c.holder b (c.complete b).board older e (c.complete b).answer := by
  obtain ⟨hT, hr, H, hH, hm, hanswers⟩ := c.answered hc b
  have hallowed : ∀ e ∈ H, ∃ H', c.request.callProtocol.allowed H' e.op := fun e he => hH.allowed_of_mem he
  rcases hanswers.effect with ⟨hnone, hfails⟩ | ⟨hfruit, hsucceeds⟩
  . left
    have hnot := Request.not_alters_of_mirrors hc hm hallowed hnone
    exact ⟨hfails, (Request.unaltered_of_ran hc hr hT hnot).rows⟩
  . right
    have hsucceeds : (c.complete b).answer.succeeds = true := by
      rcases hsucceeds with hsucceeds | ⟨e, he, hfails⟩
      . exact hsucceeds
      . exact nomatch (Request.not_failsToFind_of_mirrors hm he).symm.trans hfails
    obtain ⟨newer, e, older, hpast, halters, hnewer, holder⟩ := Request.altersOnce_of_mirrors hc hm hallowed hfruit
    refine ⟨hsucceeds, newer, e, older, hpast, ?_⟩
    rw [hpast] at hT hr
    -- the rows at the end are those right after the alteration
    obtain ⟨b₂, hr₂, hrows, _⟩ := Request.reads_of_ran hc hr hT hnewer
    have hT₂ := hT.of_append
    cases hr₂ with
    | @cons _ _ b₁ _ hr₁ he =>
      refine ⟨halters, hT₂.1.1, ⟨b₁, Request.unaltered_of_ran hc hr₁ hT₂.2 holder, b₂, he, hrows⟩, ?_⟩
      intro r hr
      obtain ⟨t, ht, hmem⟩ := hanswers.created r hr hsucceeds
      refine ⟨t, ht, ?_⟩
      have hinserts := Request.inserts_of_mirrors hm hmem
      have htrue : c.request.alters ⟨.action (.insert t), true⟩ = true := by
        rw [hr]
        rfl
      rw [hpast] at hinserts
      rcases List.mem_append.1 hinserts with hmem | hmem
      . exact nomatch (hnewer _ hmem).symm.trans htrue
      . rcases List.mem_cons.1 hmem with rfl | hmem
        . rfl
        . exact nomatch (holder _ hmem).symm.trans htrue

end LaneOrder
