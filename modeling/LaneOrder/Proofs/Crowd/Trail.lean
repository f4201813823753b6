import LaneOrder.Proofs.Crowd.Reports
import LaneOrder.Proofs.Crowd.Uninterrupted

/-!
This module contains the audit trail of crowds in which a command is suspended only where it waits for a lock. Whatever
takes effect is then recorded before anybody else goes on, so the trail tells what was committed, one entry for each
commit and in their order.
-/

namespace LaneOrder

open Board Program

namespace Process

/-- A command that has begun, with the rest of its program. -/
structure IsAt (p : Process) (rest : Commanding Answer) : Prop where
  past : p.past ≠ []
  rest : p.rest = some (actionsOf rest)

theorem IsAt.of_eq {p : Process} {e : Event ops} {past : History ops} {rest : Commanding Answer}
    (hp : p = ⟨e :: past, some (actionsOf rest)⟩) : p.IsAt rest := by
  subst hp
  exact ⟨List.cons_ne_nil _ _, rfl⟩

theorem IsAt.isSome {p : Process} {rest : Commanding Answer} (hp : p.IsAt rest) : p.rest.isSome = true := by
  rw [hp.rest]
  rfl

theorem IsAt.not_resting {p : Process} {rest : Commanding Answer} {op : Op} {next : op.Reply → Working Answer}
    (hp : p.IsAt rest) (hop : actionsOf rest = .perform (I := ops) op next) (hawaits : op.awaits? = none) :
    p.isResting = false := by
  unfold isResting
  rw [hp.rest, hop]
  simp [hawaits, hp.past]

/-- A command with nothing left to record: it has not taken effect, or it was answered. -/
def Calm (q : Request) (p : Process) : Prop :=
  (∀ x ∈ p.past, q.publishes x = false) ∨ ∃ a, p.rest = some (.done a) ∧ a.succeeds = true

end Process

namespace Crowd

variable {c : Crowd} {b : Board} {requests : Holder → Request} {h : Holder} {t : Turn}

/-- The entries tell the commits one by one, and lead every task to the lane that it has in the rows. -/
def Ledger (b : Board) (requests : Holder → Request) (commits : List Commit) (entries : List AuditEntry) (rows : Rows) :
    Prop :=
  ∃ trail, entries = b.audit.entries ++ trail
    ∧ List.Forall₂ (fun k entry => (requests k.holder).Tells k.before k.after entry) commits trail
    ∧ ∀ id, AuditEntry.Leads (b.rows.lane? id) (trail.filter (·.names id)) (rows.lane? id)

/-- If the turn is the last one of a move, it returns the row as it is then. -/
def ReturnsRow (requests : Holder → Request) (c : Crowd) (h : Holder) (t : Turn) : Prop :=
  ∀ r o, requests h = .move r → (c.processes h).outcome? ≠ some o → ((c.turn h t).processes h).outcome? = some o →
    (c.turn h t).board.rows.find? r.task = some o.task

/-- The rest of a command that has taken effect and has not recorded it. -/
inductive Owes (entry : Timestamp → AuditEntry) (last : Commanding Answer) : Commanding Answer → Prop where
  | note (notice : Notice) : Owes entry last (sequel notice entry last)
  | now : Owes entry last (record entry >>= fun _ => last)
  | record (time : Timestamp) {next : Except StoreError Unit → Commanding Answer} (hnext : next (.ok ()) = last) :
    Owes entry last (call (.record (entry time)) >>= next)

/-- How far the trail is. -/
inductive Status (b : Board) (requests : Holder → Request) (c : Crowd) : List Commit → Prop where
  | even {commits : List Commit} (hcalm : ∀ h, (c.processes h).Calm (requests h))
    (hledger : Ledger b requests commits c.board.audit.entries c.board.rows) : Status b requests c commits
  | owing {commits : List Commit} {h : Holder} {before : Rows} {entry : Timestamp → AuditEntry}
    {last rest : Commanding Answer} (hcalm : ∀ h', h' ≠ h → (c.processes h').Calm (requests h'))
    (hrest : (c.processes h).IsAt rest) (howes : Owes entry last rest)
    (hreports : (requests h).Reporting before c.board.rows entry last)
    (hledger : Ledger b requests commits c.board.audit.entries before) :
    Status b requests c (commits ++ [⟨h, before, c.board.rows⟩])
  | looking {commits : List Commit} {h : Holder} {rest : Commanding Answer}
    (hcalm : ∀ h', h' ≠ h → (c.processes h').Calm (requests h'))
    (hrest : (c.processes h).IsAt rest) (hmove : ∃ r, requests h = .move r) (hcloses : (requests h).Closes c.board.rows rest)
    (hledger : Ledger b requests commits c.board.audit.entries c.board.rows) : Status b requests c commits

theorem Owes.not_resting {entry : Timestamp → AuditEntry} {last rest : Commanding Answer} {p : Process}
    (howes : Owes entry last rest) (hrest : p.IsAt rest) : p.isResting = false := by
  cases howes <;> exact hrest.not_resting rfl rfl

theorem not_resting_of_closes {rest : Commanding Answer} {rows : Rows} {p : Process} (hmove : ∃ r, requests h = .move r)
    (hrest : p.IsAt rest) (hcloses : (requests h).Closes rows rest) : p.isResting = false := by
  rcases Request.closes_cases hcloses with ⟨_, _, hnot, _⟩ | ⟨_, _, _, _, rfl, _⟩
  . obtain ⟨r, hr⟩ := hmove
    exact absurd hr (hnot r)
  . exact hrest.not_resting rfl rfl

theorem Ledger.snoc {commits : List Commit} {entries : List AuditEntry} {before after : Rows} {entry : AuditEntry}
    (hl : Ledger b requests commits entries before) (htells : (requests h).Tells before after entry)
    (hlanes : ∀ id, entry.names id = false → after.lane? id = before.lane? id) :
    Ledger b requests (commits ++ [⟨h, before, after⟩]) (entries ++ [entry]) after := by
  obtain ⟨trail, rfl, htold, hleads⟩ := hl
  refine ⟨trail ++ [entry], List.append_assoc .., List.rel_append htold (.cons htells .nil), ?_⟩
  intro id
  rw [List.filter_append]
  exact (hleads id).append (Request.leads_of_tells htells hlanes id)

theorem Ledger.rows {commits : List Commit} {entries : List AuditEntry} {rows rows' : Rows}
    (hl : Ledger b requests commits entries rows) (hlanes : ∀ id, rows'.lane? id = rows.lane? id) :
    Ledger b requests commits entries rows' := by
  obtain ⟨trail, hentries, htold, hleads⟩ := hl
  refine ⟨trail, hentries, htold, ?_⟩
  intro id
  rw [hlanes]
  exact hleads id

/-- What is known of crowds in which everybody follows its program and the sink works. -/
structure Regular (requests : Holder → Request) (c : Crowd) : Prop where
  orderly : c.Orderly (fun h => (requests h).phasedProtocol) (fun h => (requests h).Concludes)
  leaves : ∀ h rest, (c.processes h).rest = some rest →
    Leaves (actionsOf (requests h).program) (c.processes h).past rest
  works : c.board.audit.failing = false

theorem regular_run (hb : b.locks.Idle) (hworks : b.audit.failing = false) (hcommands : ∀ h, (requests h).IsCommand)
    (turns : List (Holder × Turn)) : Regular requests ((start b requests).run turns) := by
  apply run_induction (fun _ => True)
  . refine ⟨(phased_run hb hcommands []).1, ?_, hworks⟩
    rintro h _ ⟨⟩
    exact .here _
  . intro c h t hc _
    have hP : ∀ h, (requests h).phasedProtocol.Refines discipline :=
      fun h => Request.phasedProtocol_refines.trans Request.protocol_refines
    refine ⟨hc.orderly.turn hP h t, ?_, ?_⟩
    . intro h'
      by_cases hh : h' = h
      . subst hh
        exact (c.steps_turn h' t).leaves (hc.leaves h')
      . rw [processes_turn_of_ne hh]
        exact hc.leaves h'
    . rcases c.idles_or_performs h t with hi | ⟨_, _, hp⟩
      . rw [hi.audit]
        exact hc.works
      . rw [failing_of_happens hp.happens]
        exact hc.works
  . exact fun _ _ _ => trivial

/-- What a turn makes of the trail. -/
structure Continues (b : Board) (requests : Holder → Request) (c : Crowd) (commits : List Commit) (h : Holder) (t : Turn) :
    Prop where
  status : Status b requests (c.turn h t) (commits ++ (commit? requests c h t).toList)
  once : commit? requests c h t ≠ none → ∀ x ∈ (c.processes h).past, (requests h).publishes x = false
  returns : ReturnsRow requests c h t

section Turn

variable {told : List Commit} {e : Event ops} {next : e.op.Reply → Working Answer}

theorem Continues.of_none (hcommit : commit? requests c h t = none) (hs : Status b requests (c.turn h t) told)
    (hreturns : ReturnsRow requests c h t) : Continues b requests c told h t where
  status := by rwa [hcommit, Option.toList_none, List.append_nil]
  once hne := absurd hcommit hne
  returns := hreturns

theorem returnsRow_of_none (hnone : ((c.turn h t).processes h).outcome? = none) : ReturnsRow requests c h t := by
  intro r o _ _ hreturned
  rw [hnone] at hreturned
  cases hreturned

theorem calm_of_ne {h' : Holder} (hcalm : ∀ h', h' ≠ h → (c.processes h').Calm (requests h')) (hh : h' ≠ h) :
    ((c.turn h t).processes h').Calm (requests h') := by
  rw [processes_turn_of_ne hh]
  exact hcalm h' hh

theorem calm_turn (hcalm : ∀ h', h' ≠ h → (c.processes h').Calm (requests h'))
    (hself : ((c.turn h t).processes h).Calm (requests h)) (h' : Holder) :
    ((c.turn h t).processes h').Calm (requests h') := by
  by_cases hh : h' = h
  . subst hh
    exact hself
  . exact calm_of_ne hcalm hh

theorem returnsRow_of_idles (hi : c.Idles h t) : ReturnsRow requests c h t := by
  rcases hi.process with hsame | hdropped
  . intro r o _ hbefore hafter
    rw [hsame] at hafter
    exact absurd hafter hbefore
  . apply returnsRow_of_none
    rw [hdropped]
    rfl

theorem calm_of_idles (hi : c.Idles h t) (hcalm : (c.processes h).Calm (requests h)) :
    ((c.turn h t).processes h).Calm (requests h) := by
  rcases hcalm with hnot | ⟨a, ha, hsucceeds⟩
  . rw [← hi.past h] at hnot
    exact .inl hnot
  . have hover := Process.turn_of_isOver (b := c.board) (h := h) (.inr ⟨a, ha⟩) t
    rw [processes_turn_self, hover]
    exact .inr ⟨a, ha, hsucceeds⟩

/-- A turn at which nothing happens. Only a command with nothing left to record is dropped. -/
theorem Status.continues_of_idles (hs : Status b requests c told) (hi : c.Idles h t) (hu : c.Uninterrupted h t) :
    Continues b requests c told h t := by
  apply Continues.of_none hi.commit? _ (returnsRow_of_idles hi)
  cases hs with
  | even hcalm hledger =>
    rw [← hi.rows, ← hi.audit] at hledger
    exact .even (calm_turn (fun h _ => hcalm h) (calm_of_idles hi (hcalm h))) hledger
  | owing hcalm hrest howes hreports hledger =>
    obtain ⟨rfl, hdrop⟩ := hu.eq (howes.not_resting hrest)
    rw [← hi.processes hdrop hrest.isSome] at hcalm hrest
    rw [← hi.audit] at hledger
    rw [← hi.rows] at hreports ⊢
    exact .owing hcalm hrest howes hreports hledger
  | looking hcalm hrest hmove hcloses hledger =>
    obtain ⟨rfl, hdrop⟩ := hu.eq (not_resting_of_closes hmove hrest hcloses)
    rw [← hi.processes hdrop hrest.isSome] at hcalm hrest
    rw [← hi.rows] at hcloses
    rw [← hi.rows, ← hi.audit] at hledger
    exact .looking hcalm hrest hmove hcloses hledger

/-- The turn of a command that takes effect. From then on it owes the trail an entry. -/
theorem continues_of_publishes (hc : Regular requests c) (hc' : Regular requests (c.turn h t))
    (hcalm : ∀ h, (c.processes h).Calm (requests h))
    (hledger : Ledger b requests told c.board.audit.entries c.board.rows) (hp : c.Performs h t e next)
    (hbefore : ∀ x ∈ (c.processes h).past, (requests h).publishes x = false)
    (hpublishes : (requests h).publishes e = true) : Continues b requests c told h t := by
  have hT := (hc'.orderly.processes h).lawful
  rw [hp.after] at hT
  obtain ⟨notice, entry, last, hnext, hreports⟩ := Request.reporting_of_publishes (hc.leaves h _ hp.before) hp.happens
    hpublishes ((hc.orderly.processes h).holds _ hp.before) (hT.refines Request.phasedProtocol_refines)
  have hafter := hp.after
  rw [hnext] at hafter
  constructor
  . rw [hp.commit?_of_publishes hpublishes]
    refine .owing (fun h' hh => calm_of_ne (fun h _ => hcalm h) hh) (.of_eq hafter) (.note notice) hreports ?_
    rwa [hp.happens.audit (Request.not_records_of_publishes hpublishes)]
  . exact fun _ => hbefore
  . apply returnsRow_of_none
    rw [hafter]
    rfl

/-- The turn of a command that has not taken effect and does not do so now. -/
theorem continues_of_silent (hcommands : ∀ h, (requests h).IsCommand) (hc : Regular requests c)
    (hc' : Regular requests (c.turn h t)) (hcalm : ∀ h, (c.processes h).Calm (requests h))
    (hledger : Ledger b requests told c.board.audit.entries c.board.rows) (hp : c.Performs h t e next)
    (hbefore : ∀ x ∈ (c.processes h).past, (requests h).publishes x = false)
    (hpublishes : (requests h).publishes e = false) : Continues b requests c told h t := by
  have hT := (hc'.orderly.processes h).lawful
  rw [hp.after] at hT
  have hrecords : e.op.records = false := by
    cases hrecords : e.op.records with
    | false => rfl
    | true =>
      obtain ⟨x, hx, hpub⟩ := Request.exists_publishes_of_record (hcommands h) hT.1.1 hrecords
      exact nomatch (hbefore x hx).symm.trans hpub
  have hafter : ∀ x ∈ ((c.turn h t).processes h).past, (requests h).publishes x = false := by
    rw [hp.after]
    exact List.forall_mem_cons.2 ⟨hpublishes, hbefore⟩
  apply Continues.of_none (hp.commit?_of_not_publishes hpublishes)
  . refine .even (calm_turn (fun h _ => hcalm h) (.inl hafter)) ?_
    rw [hp.happens.audit hrecords]
    apply hledger.rows
    exact Request.lane?_of_happens hp.happens (hcommands h) (hT.refines Request.phasedProtocol_refines)
      ((hc.orderly.processes h).holds _ hp.before) hpublishes
  . intro r o hr _ hreturned
    obtain ⟨x, hx, hpub⟩ := Request.exists_publishes_of_succeeds (hcommands h) (by rw [hr]; rfl)
      ((hc'.orderly.processes h).obeys _ (Process.rest_of_outcome? hreturned)) rfl
    exact nomatch (hafter x hx).symm.trans hpub

theorem continues_of_even (hcommands : ∀ h, (requests h).IsCommand) (hc : Regular requests c)
    (hc' : Regular requests (c.turn h t)) (hcalm : ∀ h, (c.processes h).Calm (requests h))
    (hledger : Ledger b requests told c.board.audit.entries c.board.rows) (hp : c.Performs h t e next) :
    Continues b requests c told h t := by
  have hbefore : ∀ x ∈ (c.processes h).past, (requests h).publishes x = false := by
    rcases hcalm h with hnot | ⟨a, ha, _⟩
    . exact hnot
    . rw [hp.before] at ha
      cases ha
  cases hpublishes : (requests h).publishes e with
  | true => exact continues_of_publishes hc hc' hcalm hledger hp hbefore hpublishes
  | false => exact continues_of_silent hcommands hc hc' hcalm hledger hp hbefore hpublishes

/-- The rows stay as they are until the entry is recorded, and so does the trail. -/
theorem continues_of_ambient {before : Rows} {entry : Timestamp → AuditEntry} {last rest : Commanding Answer}
    {a : AmbientCall} {reply : a.Reply} {next : a.Reply → Working Answer}
    (hcalm : ∀ h', h' ≠ h → (c.processes h').Calm (requests h'))
    (hreports : (requests h).Reporting before c.board.rows entry last)
    (hledger : Ledger b requests told c.board.audit.entries before) (hp : c.Performs h t ⟨.ambient a, reply⟩ next)
    (hnext : next reply = actionsOf rest) (howes : Owes entry last rest) :
    Continues b requests c (told ++ [⟨h, before, c.board.rows⟩]) h t := by
  have hboard := eq_of_answered hp.happens
  have hafter := hp.after
  dsimp only at hafter
  rw [hnext] at hafter
  apply Continues.of_none (hp.commit?_of_not_publishes (by cases requests h <;> rfl))
  . rw [← hboard] at hreports hledger ⊢
    exact .owing (fun h' hh => calm_of_ne hcalm hh) (.of_eq hafter) howes hreports hledger
  . apply returnsRow_of_none
    rw [hafter]
    cases howes <;> rfl

/-- Once the entry is recorded, the trail is even with the commits again. -/
theorem continues_of_record {before : Rows} {entry : Timestamp → AuditEntry} {last : Commanding Answer} {time : Timestamp}
    {reply : Except StoreError Unit} {next : Except StoreError Unit → Working Answer} (hc : Regular requests c)
    (hcalm : ∀ h', h' ≠ h → (c.processes h').Calm (requests h'))
    (hreports : (requests h).Reporting before c.board.rows entry last)
    (hledger : Ledger b requests told c.board.audit.entries before)
    (hp : c.Performs h t ⟨.action (.record (entry time)), reply⟩ next) (hnext : next (.ok ()) = actionsOf last) :
    Continues b requests c (told ++ [⟨h, before, c.board.rows⟩]) h t := by
  obtain ⟨rfl, hrows, hentries⟩ := records_of_happens hp.happens hc.works
  have hafter := hp.after
  dsimp only at hafter
  rw [hnext] at hafter
  have hledger' := hledger.snoc (hreports.tells time) (hreports.lanes time)
  have hcloses := hreports.closes
  rw [← hrows] at hledger' hcloses ⊢
  rw [← hentries] at hledger'
  apply Continues.of_none (hp.commit?_of_not_publishes (by cases requests h <;> rfl))
  . rcases Request.closes_cases hcloses with ⟨a, rfl, _, ha⟩ | ⟨r, _, _, hr, _⟩
    . refine .even (calm_turn hcalm ?_) hledger'
      rw [hafter]
      exact .inr ⟨a, rfl, ha⟩
    . exact .looking (fun h' hh => calm_of_ne hcalm hh) (.of_eq hafter) ⟨r, hr⟩ hcloses hledger'
  . intro r o hr _ hreturned
    rw [hafter] at hreturned
    rcases Request.closes_cases hcloses with ⟨a, rfl, hnot, _⟩ | ⟨_, _, _, _, rfl, _⟩
    . exact absurd hr (hnot r)
    . cases hreturned

theorem continues_of_owing {before : Rows} {entry : Timestamp → AuditEntry} {last rest : Commanding Answer}
    (hc : Regular requests c) (hcalm : ∀ h', h' ≠ h → (c.processes h').Calm (requests h'))
    (hrest : (c.processes h).IsAt rest) (howes : Owes entry last rest)
    (hreports : (requests h).Reporting before c.board.rows entry last)
    (hledger : Ledger b requests told c.board.audit.entries before) (hp : c.Performs h t e next) :
    Continues b requests c (told ++ [⟨h, before, c.board.rows⟩]) h t := by
  obtain ⟨op, reply⟩ := e
  have heq := Option.some.inj (hp.before.symm.trans hrest.rest)
  cases howes with
  | note notice =>
    change Program.perform (I := ops) op next = .perform (.ambient (.note notice)) _ at heq
    cases heq
    exact continues_of_ambient hcalm hreports hledger hp rfl .now
  | now =>
    change Program.perform (I := ops) op next = .perform (.ambient .now) _ at heq
    cases heq
    exact continues_of_ambient hcalm hreports hledger hp rfl (.record reply rfl)
  | @record time next' hnext =>
    change Program.perform (I := ops) op next = .perform (.action (.record (entry time))) _ at heq
    cases heq
    exact continues_of_record hc hcalm hreports hledger hp (congrArg actionsOf hnext)

theorem continues_of_looking {rest : Commanding Answer} (hcalm : ∀ h', h' ≠ h → (c.processes h').Calm (requests h'))
    (hrest : (c.processes h).IsAt rest) (hmove : ∃ r, requests h = .move r) (hcloses : (requests h).Closes c.board.rows rest)
    (hledger : Ledger b requests told c.board.audit.entries c.board.rows) (hp : c.Performs h t e next) :
    Continues b requests c told h t := by
  obtain ⟨op, reply⟩ := e
  have heq := Option.some.inj (hp.before.symm.trans hrest.rest)
  rcases Request.closes_cases hcloses with ⟨_, _, hnot, _⟩ | ⟨r, row, next', hr, rfl, hrow, exhausted, hnext⟩
  . obtain ⟨r, hr⟩ := hmove
    exact absurd hr (hnot r)
  . change Program.perform (I := ops) op next = .perform (.action (.find r.workspace r.task)) _ at heq
    cases heq
    obtain ⟨rfl, hboard⟩ := found_of_happens hp.happens
    have hafter := hp.after
    change _ = (⟨_, some (actionsOf (next' (.ok (c.board.rows.findIn? r.workspace r.task))))⟩ : Process) at hafter
    rw [hrow, hnext] at hafter
    apply Continues.of_none (hp.commit?_of_not_publishes (by rw [hr]; rfl))
    . rw [← hboard] at hledger
      refine .even (calm_turn hcalm ?_) hledger
      rw [hafter]
      exact .inr ⟨_, rfl, rfl⟩
    . intro r' o hr' _ hreturned
      rw [hafter] at hreturned
      cases hreturned
      cases hr.symm.trans hr'
      rw [hboard]
      exact (Option.filter_eq_some_iff.1 hrow).1

end Turn

theorem Status.turn {told : List Commit} (hs : Status b requests c told) (hcommands : ∀ h, (requests h).IsCommand)
    (hc : Regular requests c) (hc' : Regular requests (c.turn h t)) (hu : c.Uninterrupted h t) :
    Continues b requests c told h t := by
  rcases c.idles_or_performs h t with hi | ⟨e, next, hp⟩
  . exact hs.continues_of_idles hi hu
  . cases hs with
    | even hcalm hledger => exact continues_of_even hcommands hc hc' hcalm hledger hp
    | owing hcalm hrest howes hreports hledger =>
      obtain ⟨rfl, _⟩ := hu.eq (howes.not_resting hrest)
      exact continues_of_owing hc hcalm hrest howes hreports hledger hp
    | looking hcalm hrest hmove hcloses hledger =>
      obtain ⟨rfl, _⟩ := hu.eq (not_resting_of_closes hmove hrest hcloses)
      exact continues_of_looking hcalm hrest hmove hcloses hledger hp

/-- How far the trail is at any time. -/
theorem status_run (hb : b.locks.Idle) (hworks : b.audit.failing = false) (hcommands : ∀ h, (requests h).IsCommand)
    (turns : List (Holder × Turn)) (hu : (start b requests).Along Uninterrupted turns) :
    Status b requests ((start b requests).run turns) (commits requests (start b requests) turns)
      ∧ ((commits requests (start b requests) turns).map Commit.holder).Nodup
      ∧ (start b requests).Along (ReturnsRow requests) turns := by
  induction turns using List.reverseRecOn with
  | nil =>
    refine ⟨.even ?_ ⟨[], (List.append_nil _).symm, .nil, fun id => .nil _⟩, List.nodup_nil, trivial⟩
    intro h
    exact .inl (List.forall_mem_nil _)
  | append_singleton turns last ih =>
    obtain ⟨h, t⟩ := last
    obtain ⟨hu, huh, _⟩ := along_append.1 hu
    obtain ⟨hstatus, hnodup, hreturns⟩ := ih hu
    have hc' := regular_run hb hworks hcommands (turns ++ [(h, t)])
    rw [run_append] at hc' ⊢
    have hcontinues := hstatus.turn hcommands (regular_run hb hworks hcommands turns) hc' huh
    rw [commits_snoc]
    refine ⟨hcontinues.status, ?_, along_append.2 ⟨hreturns, hcontinues.returns, trivial⟩⟩
    cases hcommit : commit? requests ((start b requests).run turns) h t with
    | none => simpa using hnodup
    | some k =>
      have hbefore := hcontinues.once (by simp [hcommit])
      have hnew : h ∉ (commits requests (start b requests) turns).map Commit.holder := by
        rw [mem_holders]
        rintro ⟨x, hx, hpublishes⟩
        exact nomatch (hbefore x hx).symm.trans hpublishes
      rw [Option.toList_some, List.map_append, List.map_singleton, holder_of_commit? hcommit, ← List.concat_eq_append]
      exact (List.nodup_concat _ _).2 ⟨hnew, hnodup⟩

/-- When everybody rests, the trail is even with the commits. -/
theorem Status.of_resting {told : List Commit} (hs : Status b requests c told)
    (hresting : ∀ h, (c.processes h).isResting = true) :
    (∀ h, (c.processes h).Calm (requests h)) ∧ Ledger b requests told c.board.audit.entries c.board.rows := by
  cases hs with
  | even hcalm hledger => exact ⟨hcalm, hledger⟩
  | owing _ hrest howes => exact nomatch (howes.not_resting hrest).symm.trans (hresting _)
  | looking _ hrest hmove hcloses => exact nomatch (not_resting_of_closes hmove hrest hcloses).symm.trans (hresting _)

theorem publishes_iff_succeeds (hc : Regular requests c) (hcommands : ∀ h, (requests h).IsCommand)
    (hcalm : (c.processes h).Calm (requests h)) :
    (∃ x ∈ (c.processes h).past, (requests h).publishes x = true)
      ↔ (requests h).isCall = false ∧ ∃ a, (c.processes h).rest = some (.done a) ∧ a.succeeds = true := by
  constructor
  . rintro ⟨x, hx, hpublishes⟩
    refine ⟨?_, ?_⟩
    . simpa using (Bool.and_eq_true_iff.1 hpublishes).1
    . rcases hcalm with hnot | hover
      . exact nomatch (hnot x hx).symm.trans hpublishes
      . exact hover
  . rintro ⟨hcall, a, ha, hsucceeds⟩
    exact Request.exists_publishes_of_succeeds (hcommands h) hcall ((hc.orderly.processes h).obeys _ ha) hsucceeds

/-- Whenever everybody rests, the entries tell the commits of the commands that have succeeded, each of which has
committed once. And what a move returns is the row as it is at that time. -/
theorem trail_tells_commits (hb : b.locks.Idle) (hworks : b.audit.failing = false)
    (hcommands : ∀ h, (requests h).IsCommand) (turns : List (Holder × Turn))
    (hu : (start b requests).Along Uninterrupted turns) :
    ((∀ h, (((start b requests).run turns).processes h).isResting = true) →
      Ledger b requests (commits requests (start b requests) turns) ((start b requests).run turns).board.audit.entries
          ((start b requests).run turns).board.rows
        ∧ ((commits requests (start b requests) turns).map Commit.holder).Nodup
        ∧ ∀ h, h ∈ (commits requests (start b requests) turns).map Commit.holder ↔ (requests h).isCall = false
          ∧ ∃ a, (((start b requests).run turns).processes h).rest = some (.done a) ∧ a.succeeds = true)
      ∧ (start b requests).Along (ReturnsRow requests) turns := by
  obtain ⟨hstatus, hnodup, hreturns⟩ := status_run hb hworks hcommands turns hu
  refine ⟨?_, hreturns⟩
  intro hresting
  obtain ⟨hcalm, hledger⟩ := hstatus.of_resting hresting
  refine ⟨hledger, hnodup, ?_⟩
  intro h
  rw [mem_holders]
  exact publishes_iff_succeeds (regular_run hb hworks hcommands turns) hcommands (hcalm h)

section Relay

def relayMove : MoveRequest :=
  ⟨Sample.workspace, Sample.id 1, Sample.actor, "done", none, none⟩

/-- Two moves of one task, and tasks that are created beside it. -/
def relayRequests : Holder → Request
  | 0 => .move relayMove
  | 1 => .move { relayMove with lane := "in_progress" }
  | _ => .create ⟨Sample.workspace, Sample.actor, "t", "todo"⟩

def relayBoard : Board :=
  Sample.board ⟨[Sample.task 1 .todo 1000, Sample.task 2 .done 1000], by decide⟩

def relay : Crowd :=
  start relayBoard relayRequests

/-- The first move is suspended before it has locked the task, and goes on when the other one is over. -/
def relayTurns : List (Holder × Turn) :=
  Sample.turns (List.replicate 9 2 ++ [0, 0] ++ List.replicate 15 1 ++ List.replicate 12 0)

theorem trail_tells_commits_relay :
    ((commits relayRequests relay (relayTurns ++ Sample.turns [0])).map Commit.holder = [2, 1, 0]
        ∧ Ledger relayBoard relayRequests (commits relayRequests relay (relayTurns ++ Sample.turns [0]))
          (relay.run (relayTurns ++ Sample.turns [0])).board.audit.entries
          (relay.run (relayTurns ++ Sample.turns [0])).board.rows)
      ∧ ∃ o, (((relay.run relayTurns).turn 0 (.answered Sample.surroundings)).processes 0).outcome? = some o
        ∧ ((relay.run relayTurns).turn 0 (.answered Sample.surroundings)).board.rows.find? relayMove.task
          = some o.task := by
  have hcommands : ∀ h, (relayRequests h).IsCommand := by
    intro h
    unfold relayRequests
    split <;> trivial
  have hresting : ∀ h, (relay.processes h).isResting = true := isResting_start relayBoard relayRequests
  have hholders : ∀ x ∈ relayTurns ++ Sample.turns [0], x.1 ∈ [0, 1, 2] := by decide +kernel
  have hu : relay.Along Uninterrupted (relayTurns ++ Sample.turns [0]) := by
    apply along_uninterrupted hholders (fun h _ => hresting h)
    decide +kernel
  obtain ⟨hends, hreturns⟩ := trail_tells_commits LockTable.idle_empty rfl hcommands _ hu
  rw [show start relayBoard relayRequests = relay from rfl] at hends hreturns
  constructor
  . refine ⟨?_, (hends ?_).1⟩
    . decide +kernel
    . apply isResting_run hresting
      decide +kernel
  . have hbefore : ((relay.run relayTurns).processes 0).outcome? = none := by decide +kernel
    obtain ⟨o, ho⟩ : ∃ o, (((relay.run relayTurns).turn 0 (.answered Sample.surroundings)).processes 0).outcome? = some o :=
      Option.isSome_iff_exists.1 (by decide +kernel)
    refine ⟨o, ho, hreturns.of_append relayMove o rfl ?_ ho⟩
    exact hbefore.trans_ne (Option.some_ne_none o).symm

end Relay

end Crowd

end LaneOrder
