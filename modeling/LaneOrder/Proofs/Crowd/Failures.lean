import LaneOrder.Proofs.Command.Conduct
import LaneOrder.Proofs.Program.Runs
import LaneOrder.Proofs.Sequence.Rows

/-!
This module contains what is left of a command that has failed, or that was dropped when it waited for a lock: nothing.
None of its turns has changed what others see, nothing of it was recorded, and it neither owns a lock nor stands in a
queue.
-/

namespace LaneOrder

open Board Program

def Board.Op.records : Op → Bool
  | .action (.record _) => true
  | _ => false

namespace Request

/-- The calls of a command follow its own protocol and come in phases. -/
def phased (q : Request) : Protocol calls :=
  q.callProtocol.and (phases fun _ => true)

def phasedProtocol (q : Request) : Protocol ops :=
  discipline.carried carryOut q.phased

/-- Nothing in a history alters rows on behalf of a command or records something. -/
def Traceless (q : Request) (T : History ops) : Prop :=
  ∀ x ∈ T, q.alters x = false ∧ x.op.records = false

def Concludes (q : Request) (T : History ops) (a : Answer) : Prop :=
  ∃ H, Lawful q.phased H ∧ Mirrors carryOut H T ∧ q.Answers H a ∧ Closed H

variable {q : Request} {H : History calls} {T : History ops} {c : Call} {op : Op}

theorem phased_refines : q.phased.Refines q.callProtocol :=
  Protocol.and_refines_left fun _ _ _ => trivial

theorem phasedProtocol_refines : q.phasedProtocol.Refines q.protocol :=
  carried_mono phased_refines

theorem phases_program (hq : q.IsCommand) : Obeys (phases fun _ => true) (fun H _ => Closed H) q.program [] := by
  cases q with
  | move r =>
    apply obeys_bind
    apply ((Move.phases_moveTask r).refines phases_refines).mono
    intro H outcome h
    exact h.1
  | create r =>
    apply obeys_bind
    exact Create.phases_createTask r
  | renormalize r =>
    apply obeys_bind
    exact (Renormalize.phases_renormalizeLane r).refines phases_refines
  | call c =>
    obtain ⟨workspace, id, rfl⟩ := hq
    apply obeys_bind
    apply obeys_ask
    . exact ⟨rfl, Call.timely_of_idle rfl rfl⟩
    . intro reply _
      exact closed_of_none rfl

theorem obeys_phased (hq : q.IsCommand) : Obeys q.phasedProtocol q.Concludes (actionsOf q.program) [] :=
  obeys_actionsOf (phased_refines.trans callProtocol_refines) ((obeys_program hq).and (phases_program hq))

theorem not_records_of_serves (h : Serves c op) (hsequel : c.isSequel = false) : op.records = false := by
  cases c with
  | record => cases hsequel
  | delete =>
    rcases h with rfl | rfl | rfl | ⟨_, rfl⟩ | rfl | rfl <;> rfl
  | lockLane | persist =>
    rcases h with rfl | ⟨_, rfl⟩ <;> rfl
  | _ =>
    cases h
    rfl

theorem traceless_of_mirrors (hq : q.IsCommand) (hH : Lawful q.phased H) (hm : Mirrors carryOut H T)
    (hnone : Fruitless H) : q.Traceless T := by
  have hallowed : ∀ e ∈ H, ∃ H', q.callProtocol.allowed H' e.op :=
    fun e he => (hH.refines phased_refines).allowed_of_mem he
  intro x hx
  obtain ⟨e, he, E, hE, hxE⟩ := hm.exists_of_mem hx
  constructor
  . exact not_alters_of_mirrors hq hm hallowed hnone x hx
  . apply not_records_of_serves ((serves_carryOut e.op).of_ends hE x hxE)
    exact not_sequel_of_fruitless hH (fun _ _ h => h.2.2) hnone he

theorem transacts_of_awaits {key : LockKey} (h : Serves c op) (hop : op.awaits? = some key) :
    c.transacts = true ∧ c.isEffect = false ∧ c.isSequel = false ∨ ∃ workspace id, c = .delete workspace id := by
  cases c with
  | delete workspace id => exact .inr ⟨workspace, id, rfl⟩
  | lockTarget | lockNeighbor | lockSeed | lockLane => exact .inl ⟨rfl, rfl, rfl⟩
  | persist =>
    rcases h with rfl | ⟨_, rfl⟩ <;> cases hop
  | _ =>
    cases h
    cases hop

/-- Whoever waits for a lock has left no trace so far. -/
theorem traceless_of_awaits (hq : q.IsCommand) (ha : q.phasedProtocol.allowed T op) {key : LockKey}
    (hop : op.awaits? = some key) : q.Traceless T := by
  obtain ⟨H, T₀, E, c, rfl, hm, hH, hc, hreach⟩ := ha.2
  have hserves := (serves_carryOut c).mem_of_reaches hreach
  rcases transacts_of_awaits ((serves_carryOut c).of_reaches hreach) hop with ⟨htransacts, heffect, hsequel⟩ | ⟨_, _, rfl⟩
  . have hbefore := traceless_of_mirrors hq hH hm (hc.2.2.transacts htransacts).1
    intro x hx
    rcases List.mem_append.1 hx with hx | hx
    . exact ⟨not_alters_of_serves (hserves x hx) heffect, not_records_of_serves (hserves x hx) hsequel⟩
    . exact hbefore x hx
  . cases eq_delete_of_delete hc.1
    obtain ⟨_, rfl, _⟩ := hc.1
    cases hm
    rcases reaches_deleteTask hreach with ⟨rfl, rfl⟩ | ⟨rfl, rfl⟩ | ⟨_, _, rfl | rfl⟩ | ⟨_, _, _, rfl⟩ | ⟨_, _, _, rfl⟩
    . cases hop
    . simp [Traceless, alters, Op.records]
    . cases hop
    . cases hop
    . cases hop
    . cases hop

theorem opened_of_unopened (hm : Mirrors carryOut H T) (hH : transacted H = none) : opened T = none := by
  induction hm with
  | nil => rfl
  | @cons e E T H hE _ ih =>
    obtain ⟨c, reply⟩ := e
    cases hs : c.starts with
    | true =>
      unfold transacted at hH
      rw [since_start hs] at hH
      cases hH
    | false =>
      cases he : c.ends with
      | true =>
        cases c with
        | commit | rollback =>
          obtain ⟨_, E₁, E₂, hask, hrest, rfl⟩ := ends_bind hE
          cases ends_ask hask
          obtain ⟨rfl, _⟩ := ends_done.1 hrest
          exact opened_end rfl rfl
        | delete =>
          rcases ends_deleteTask hE with ⟨_, rfl, _⟩ | ⟨_, _, rfl, _⟩
          . exact opened_end rfl rfl
          . exact opened_end rfl rfl
        | _ => cases he
      | false =>
        have htail : transacted H = none := by
          unfold transacted at *
          simpa [since, hs, he] using hH
        apply since_append_none _ (ih htail)
        intro x hx
        exact ((serves_carryOut c).of_ends hE x hx).boundary hs he

theorem opened_of_closed (hm : Mirrors carryOut H T) (hH : Closed H) : opened T = none := by
  apply opened_of_unopened hm
  cases ht : transacted H with
  | none => rfl
  | some t =>
    -- a board begins every transaction that it is asked for
    exfalso
    obtain ⟨⟨c, reply⟩, past, heq, hs⟩ := since_eq_append ht
    cases c with
    | begin =>
      obtain ⟨E, hE, _⟩ := hm.mem (e := ⟨.begin, reply⟩) (by simp [heq])
      obtain ⟨_, E₁, E₂, _, hrest, _⟩ := ends_bind hE
      obtain ⟨_, rfl⟩ := ends_done.1 hrest
      exact hH ⟨t, past, ht, heq⟩
    | _ => cases hs

theorem fruitless_of_fails {a : Answer} (hm : Mirrors carryOut H T) (ha : q.Answers H a) (hfails : a.succeeds = false) :
    Fruitless H := by
  rcases ha.effect with ⟨hnone, _⟩ | ⟨_, hsucceeds | ⟨e, he, hfind⟩⟩
  . exact hnone
  . exact nomatch hfails.symm.trans hsucceeds
  . exact nomatch (not_failsToFind_of_mirrors hm he).symm.trans hfind

end Request

namespace Board

/-- What a turn of a holder changes is not seen by anybody else. -/
structure Unnoticed (h : Holder) (b b' : Board) : Prop where
  rows : b'.rows = b.rows
  audit : b'.audit = b.audit
  transactions : ∀ other, other ≠ h → b'.transaction? other = b.transaction? other
  views : ∀ other, other ≠ h → b'.view other = b.view other

variable {b b' : Board} {h : Holder} {e : Event ops}

theorem audit_acquire {α : Type} {key : LockKey} {seen : α} {reply : Grant α}
    (ha : b.acquire h key seen = .replied reply b') : b'.audit = b.audit := by
  unfold acquire at ha
  split at ha
  . cases ha
    rfl
  . split at ha
    . cases ha
      rfl
    . cases ha

theorem audit_tryAcquire {α : Type} {key : LockKey} {seen : α} {reply : Grant α}
    (ha : b.tryAcquire h key seen = .replied reply b') : b'.audit = b.audit := by
  unfold tryAcquire at ha
  split at ha
  . cases ha
    rfl
  . split at ha <;> cases ha <;> rfl

theorem audit_stage {workspace : WorkspaceId} {w : StagedWrite} (hb : b.stage? h workspace w = some b') :
    b'.audit = b.audit := by
  unfold stage? at hb
  simp only [Option.bind_eq_bind, Option.bind_eq_some_iff] at hb
  obtain ⟨tx, _, t, _, heq⟩ := hb
  cases heq
  rfl

theorem audit_of_acts {a : Action} {reply : a.Reply} (ha : b.act h a = .replied reply b')
    (hrecords : (Op.action a).records = false) : b'.audit = b.audit := by
  cases a with
  | record entry => cases hrecords
  | lockRow | lockSeed => exact audit_acquire ha
  | tryLockRow | tryLockSeed => exact audit_tryAcquire ha
  | insert t =>
    unfold act at ha
    dsimp only at ha
    split at ha <;> cases ha <;> rfl
  | stage workspace w =>
    unfold act at ha
    dsimp only at ha
    split at ha
    . next b₁ hstage =>
      cases ha
      exact audit_stage hstage
    . cases ha
      rfl
  | _ =>
    cases ha
    rfl

theorem Happens.audit (he : Happens h b e b') (hrecords : e.op.records = false) : b'.audit = b.audit := by
  cases he with
  | answered => rfl
  | acts ha => exact audit_of_acts ha hrecords
  | givesUp ha =>
    rw [(act_blocking ha).board]
    rfl

end Board

namespace Process

variable {q : Request} {post : History ops → Answer → Prop} {b b' : Board} {h : Holder} {p p' : Process}

theorem Steps.traceless_rows (hs : Steps h b p b' p') (hq : q.IsCommand) (hp : p.Orderly q.protocol post b h)
    (hnone : q.Traceless p'.past) : b'.rows = b.rows ∧ b'.audit = b.audit := by
  have hp' := hs.orderly Request.protocol_refines hp
  have hafter : ∀ {e : Event ops} {past : History ops}, Happens h b e b' → Lawful q.protocol (e :: past) →
      Holds b h past → q.Traceless (e :: past) → b'.rows = b.rows ∧ b'.audit = b.audit := by
    intro e past he hl hb hnone
    obtain ⟨halters, hrecords⟩ := hnone e List.mem_cons_self
    exact ⟨Request.rows_of_happens he hq hl hb halters, he.audit hrecords⟩
  cases hs with
  | stays | drops => exact ⟨rfl, rfl⟩
  | answered past c next reply => exact hafter (.answered c reply) hp'.lawful (hp.holds _ rfl) hnone
  | acts past next ha => exact hafter (.acts ha) hp'.lawful (hp.holds _ rfl) hnone
  | waits past next ha =>
    rw [(act_blocking ha).board]
    exact ⟨rfl, rfl⟩
  | givesUp past next ha => exact hafter (.givesUp ha) hp'.lawful (hp.holds _ rfl) hnone

theorem Steps.unnoticed (hs : Steps h b p b' p') (hq : q.IsCommand) (hp : p.Orderly q.protocol post b h)
    (hk : b.locks.Keyed) (hnone : q.Traceless p'.past) : Unnoticed h b b' := by
  obtain ⟨hrows, haudit⟩ := hs.traceless_rows hq hp hnone
  have htransactions : ∀ other, other ≠ h → b'.transaction? other = b.transaction? other :=
    fun other hh => (hs.frame Request.protocol_refines hp hk hh).tx
  refine ⟨hrows, haudit, htransactions, ?_⟩
  intro other hh
  unfold view
  rw [htransactions other hh, hrows]

/-- A command that was answered or dropped. -/
def IsOver (p : Process) : Prop :=
  p.rest = none ∨ ∃ a, p.rest = some (.done a)

theorem turn_of_isOver (hp : p.IsOver) (t : Turn) : (p.turn b h t).2 = p := by
  obtain ⟨past, rest⟩ := p
  rcases hp with hrest | ⟨a, hrest⟩
  . cases hrest
    cases t <;> rfl
  . cases hrest
    cases t <;> rfl

theorem drop_of_awaits {key : LockKey} (hp : p.awaits? = some key) :
    (p.turn b h .drop).2 = { p with rest := none } := by
  unfold awaits? at hp
  split at hp
  . next op next hrest =>
    unfold turn
    rw [hrest]
  . cases hp

theorem Orderly.traceless_of_awaits (hp : p.Orderly q.phasedProtocol post b h) (hq : q.IsCommand) {key : LockKey}
    (hkey : p.awaits? = some key) : q.Traceless p.past := by
  unfold awaits? at hkey
  split at hkey
  . next op next hrest => exact Request.traceless_of_awaits hq (hp.obeys _ hrest).1 hkey
  . cases hkey

end Process

namespace Crowd

variable {b : Board} {requests : Holder → Request} {c : Crowd} {h : Holder} {t : Turn}

/-- A command has been answered that nothing was done, or it was dropped when it waited for a lock. -/
def Fails (c : Crowd) (turns : List (Holder × Turn)) (h : Holder) : Prop :=
  (∃ a, ((c.run turns).processes h).rest = some (.done a) ∧ a.succeeds = false)
    ∨ ∃ before, turns = before ++ [(h, .drop)] ∧ ((c.run before).processes h).awaits?.isSome = true

theorem processes_run_of_isOver {later : List (Holder × Turn)} (hp : (c.processes h).IsOver) :
    (c.run later).processes h = c.processes h := by
  induction later generalizing c with
  | nil => rfl
  | cons x later ih =>
    obtain ⟨h', t⟩ := x
    have hturn : (c.turn h' t).processes h = c.processes h := by
      by_cases hh : h = h'
      . subst hh
        rw [processes_turn_self]
        exact Process.turn_of_isOver hp t
      . exact processes_turn_of_ne hh
    have hrest : ((c.turn h' t).processes h).IsOver := by rwa [hturn]
    exact (ih hrest).trans hturn

theorem phased_run (hb : b.locks.Idle) (hcommands : ∀ h, (requests h).IsCommand) (turns : List (Holder × Turn)) :
    ((start b requests).run turns).Orderly (fun h => (requests h).phasedProtocol) (fun h => (requests h).Concludes)
      ∧ ((start b requests).run turns).Accounted := by
  have hP : ∀ h, (requests h).phasedProtocol.Refines discipline :=
    fun h => Request.phasedProtocol_refines.trans Request.protocol_refines
  apply run_induction (fun _ => True)
    fun c => c.Orderly (fun h => (requests h).phasedProtocol) (fun h => (requests h).Concludes) ∧ c.Accounted
  . refine ⟨Orderly.start hb.keyed ?_, LockTable.accounts_of_idle hb⟩
    intro h
    exact Request.obeys_phased (hcommands h)
  . intro c h t hc _
    exact ⟨hc.1.turn hP h t, hc.2.turn hc.1 hP h t⟩
  . exact fun _ _ _ => trivial

/-- What is known of a command that has failed. -/
structure Failed (q : Request) (p : Process) : Prop where
  isOver : p.IsOver
  traceless : q.Traceless p.past
  closed : ∀ rest, p.rest = some rest → opened p.past = none

theorem failed_of_fails (hb : b.locks.Idle) (hcommands : ∀ h, (requests h).IsCommand) {turns : List (Holder × Turn)}
    (hfails : (start b requests).Fails turns h) : Failed (requests h) (((start b requests).run turns).processes h) := by
  rcases hfails with ⟨a, hrest, hfails⟩ | ⟨before, rfl, hawaits⟩
  . have hp := (phased_run hb hcommands turns).1.processes h
    obtain ⟨H, hH, hm, hanswers, hclosed⟩ := hp.obeys _ hrest
    have hnone := Request.fruitless_of_fails hm hanswers hfails
    constructor
    . exact .inr ⟨a, hrest⟩
    . exact Request.traceless_of_mirrors (hcommands h) hH hm hnone
    . exact fun _ _ => Request.opened_of_closed hm hclosed
  . have hp := (phased_run hb hcommands before).1.processes h
    obtain ⟨key, hkey⟩ := Option.isSome_iff_exists.1 hawaits
    have hdropped : ((start b requests).run (before ++ [(h, .drop)])).processes h
        = { ((start b requests).run before).processes h with rest := none } := by
      rw [run_append]
      exact processes_turn_self.trans (Process.drop_of_awaits hkey)
    rw [hdropped]
    constructor
    . exact .inl rfl
    . exact hp.traceless_of_awaits (hcommands h) hkey
    . rintro _ ⟨⟩

theorem Failed.not_owns {q : Request} (hf : Failed q (c.processes h)) (hc : c.Accounted) (key : LockKey) :
    c.board.locks.owner? key ≠ some h ∧ h ∉ c.board.locks.queue key := by
  have hawaits : (c.processes h).awaits? = none := by
    unfold Process.awaits?
    rcases hf.isOver with hrest | ⟨a, hrest⟩
    . rw [hrest]
    . rw [hrest]
  constructor
  . intro howner
    rcases hc.owned key h howner with ⟨hrest, s, hs, _⟩ | hwaits
    . obtain ⟨rest, hrest⟩ := Option.isSome_iff_exists.1 hrest
      rw [hf.closed rest hrest] at hs
      cases hs
    . rw [hawaits] at hwaits
      cases hwaits
  . intro hq
    have := (hc.queued key h hq).1
    rw [hawaits] at this
    cases this

/-- Whatever happens after a command has failed, or was dropped when it waited for a lock, it owns no lock and stands in
no queue. None of its turns, before or after, has changed the rows, what was recorded, or what anybody else sees. -/
theorem failure_leaves_nothing (hb : b.locks.Idle) (hcommands : ∀ h, (requests h).IsCommand)
    {turns : List (Holder × Turn)} (hfails : (start b requests).Fails turns h) (later : List (Holder × Turn)) :
    (∀ key, ((start b requests).run (turns ++ later)).board.locks.owner? key ≠ some h
      ∧ h ∉ ((start b requests).run (turns ++ later)).board.locks.queue key)
    ∧ ∀ before t after, turns ++ later = before ++ (h, t) :: after →
      Unnoticed h ((start b requests).run before).board ((start b requests).run (before ++ [(h, t)])).board := by
  have hfailed := failed_of_fails hb hcommands hfails
  have hsame : ((start b requests).run (turns ++ later)).processes h = ((start b requests).run turns).processes h := by
    rw [run_append]
    exact processes_run_of_isOver hfailed.isOver
  rw [← hsame] at hfailed
  refine ⟨hfailed.not_owns (phased_run hb hcommands _).2, ?_⟩
  intro before t after hturns
  have ho := orderly_run hb hcommands before
  have hrun : (start b requests).run (before ++ [(h, t)]) = ((start b requests).run before).turn h t := run_append
  rw [hrun]
  apply (((start b requests).run before).steps_turn h t).unnoticed (hcommands h) (ho.processes h) ho.keyed
  intro x hx
  apply hfailed.traceless
  rw [hturns, List.append_cons, run_append, hrun]
  exact past_subset_run hx

/-- A deletion waits for the task of a move, and is dropped. -/
theorem failure_leaves_nothing_dropped :
    1 ∈ (Sample.contention.run (Sample.turns [0, 0, 0, 1, 1])).board.locks.queue (.row (Sample.id 1))
      ∧ Sample.contention.Fails (Sample.turns [0, 0, 0, 1, 1] ++ [(1, .drop)]) 1
      ∧ ∀ key, 1 ∉ (Sample.contention.run (Sample.turns [0, 0, 0, 1, 1] ++ [(1, .drop)] ++ Sample.turns [0, 0])).board.locks.queue key := by
  have hfails : Sample.contention.Fails (Sample.turns [0, 0, 0, 1, 1] ++ [(1, .drop)]) 1 := by
    refine .inr ⟨_, rfl, ?_⟩
    decide +kernel
  refine ⟨?_, hfails, ?_⟩
  . decide +kernel
  . intro key
    exact ((failure_leaves_nothing LockTable.idle_empty Sample.isCommand_contend hfails (Sample.turns [0, 0])).1 key).2

end Crowd

end LaneOrder
