import LaneOrder.Proofs.Board.Tenants
import LaneOrder.Proofs.Command.Knowledge
import LaneOrder.Proofs.Command.Oblivious
import LaneOrder.Proofs.Crowd.Rows
import LaneOrder.Proofs.Program.Runs

/-!
This module contains the locks of workspaces that share a board. The lock of a row is found by the identifier of the row
alone, so a command gets at a row of another workspace if its request names this row. There is no other way.
-/

namespace LaneOrder

open Board Program

/-- A row of a workspace is shown to whoever looks for those next to a position, or for all of a lane. -/
def Program.Event.Shows (workspace : WorkspaceId) (e : Event ops) (id : TaskId) : Prop :=
  match e with
  | ⟨.action (.adjacent w ..), nearest⟩ => w = workspace ∧ nearest.map (·.id) = some id
  | ⟨.action (.laneIds w _), ids⟩ => w = workspace ∧ id ∈ ids
  | _ => False

/-- The workspace in which a transaction looks for rows. -/
def Call.looksIn? : Call → Option WorkspaceId
  | lockTarget w _ | lockNeighbor w _ _ | tryLockNeighbor w _ _ | lockLane w _ | lockSeed w _ | tryLockSeed w _
  | adjacent w .. => some w
  | _ => none

namespace Request

def Names : Request → TaskId → Prop
  | move r, id => id = r.task ∨ r.before = some id ∨ r.after = some id
  | call (.delete _ other), id => id = other
  | _, _ => False

/-- The locks that are within the reach of a request, if these rows were shown. -/
def MayLock (q : Request) (workspace : WorkspaceId) (shown : TaskId → Prop) : LockKey → Prop
  | .seed w _ => w = workspace
  | .row id => q.Names id ∨ shown id

/-- The protocol of a command that tells where its program has arrived, too. -/
def traced (q : Request) : Protocol calls where
  honest := q.callProtocol.honest
  allowed H c := q.callProtocol.allowed H c ∧ Reaches q.program H c

def tracedProtocol (q : Request) : Protocol ops :=
  discipline.carried carryOut q.traced

variable {q : Request} {workspace w : WorkspaceId} {id : TaskId} {H : History calls} {T : History ops} {c : Call} {op : Op}
  {key : LockKey}

theorem traced_refines : q.traced.Refines q.callProtocol where
  honest _ _ := .rfl
  allowed _ _ h := h.1

theorem tracedProtocol_refines : q.tracedProtocol.Refines q.protocol :=
  carried_mono traced_refines

theorem obeys_traced (hq : q.IsCommand) : Obeys q.tracedProtocol (fun _ _ => True) (actionsOf q.program) [] := by
  have hprogram : Obeys q.traced q.Answers q.program [] := by
    apply (obeys_program hq).and_allowed
    intro E c hreach
    rwa [List.append_nil]
  exact (obeys_actionsOf (traced_refines.trans callProtocol_refines) hprogram).mono fun _ _ _ => trivial

theorem eq_of_looksIn (hq : q.IsCommand) (hfor : q.IsFor workspace) (hc : q.callProtocol.allowed H c)
    (hw : c.looksIn? = some w) : w = workspace := by
  cases q with
  | move r =>
    cases c with
    | lockTarget | lockNeighbor | tryLockNeighbor | lockSeed | tryLockSeed | adjacent =>
      cases hw
      obtain ⟨_, _, _, hinside⟩ := hc.2
      exact hinside.1.trans hfor
    | lockLane =>
      obtain ⟨_, _, _, hinside⟩ := hc.2
      exact hinside.elim
    | _ => cases hw
  | create r => cases c <;> first | exact hc.2.elim | cases hw
  | renormalize r =>
    cases c with
    | lockLane =>
      cases hw
      exact hc.2.1.trans hfor
    | _ => first | exact hc.2.elim | cases hw
  | call c' =>
    obtain ⟨_, _, rfl⟩ := hq
    obtain ⟨_, _, rfl⟩ := hc
    cases hw

/-- Whoever asks for a row has named it, or has found it next to a position in a lane of the workspace. -/
theorem names_or_finds (hq : q.IsCommand) (hfor : q.IsFor workspace) (hH : Lawful q.traced H)
    (hc : q.traced.allowed H c) (hasks : c.asks? = some id) : q.Names id ∨
      ∃ lane pivot direction exclude n,
        (⟨.adjacent workspace lane pivot direction exclude, .ok (some n)⟩ : Event calls) ∈ H ∧ n.id = id := by
  cases q with
  | move r =>
    have hmove : Reaches (moveTask r) H c := by
      rcases reaches_bind hc.2 with hreach | ⟨_, _, _, _, hdone, _⟩
      . exact hreach
      . exact absurd hdone reaches_done
    have hhonest : ∀ e ∈ H, (informed fun id => (move r).Names id ∨ ∃ e ∈ H, e.shows? = some id).honest e.op e.reply := by
      intro e he
      exact ⟨hH.honest_of_mem he, fun id hid => .inr ⟨e, he, hid⟩⟩
    rcases (Move.informed_moveTask r fun _ => .inl).of_reaches hmove hhonest id hasks with hnames | ⟨⟨op, reply⟩, he, hid⟩
    . exact .inl hnames
    . right
      unfold Event.shows? at hid
      split at hid
      . next heq =>
        cases heq
        obtain ⟨_, hallowed⟩ := hH.allowed_of_mem he
        cases eq_of_looksIn hq hfor hallowed.1 rfl
        obtain ⟨n, rfl, hn⟩ := Option.map_eq_some_iff.1 hid
        exact ⟨_, _, _, _, n, he, hn⟩
      . cases hid
  | create r => cases c <;> first | exact hc.1.2.elim | cases hasks
  | renormalize r => cases c <;> first | exact hc.1.2.elim | cases hasks
  | call c' =>
    obtain ⟨_, _, rfl⟩ := hq
    obtain ⟨_, _, rfl⟩ := hc.1
    cases hasks

theorem mayLock_of_allowed (hq : q.IsCommand) (hfor : q.IsFor workspace) (ha : q.tracedProtocol.allowed T op)
    (hkey : op.locks? = some key) : q.MayLock workspace (fun id => ∃ e ∈ T, e.Shows workspace id) key := by
  obtain ⟨H, T₀, E, c, rfl, hm, hH, hc, hreach⟩ := ha.2
  have hserves := (serves_carryOut c).of_reaches hreach
  have hrow : ∀ {id : TaskId}, c.asks? = some id →
      q.Names id ∨ ∃ e ∈ E ++ T₀, e.Shows workspace id := by
    intro id hasks
    rcases names_or_finds hq hfor hH hc hasks with hnames | ⟨lane, pivot, direction, exclude, n, he, hn⟩
    . exact .inl hnames
    . right
      obtain ⟨E', hE', hmem⟩ := hm.mem he
      obtain ⟨nearest, E₁, E₂, hask, hrest, rfl⟩ := ends_bind hE'
      cases ends_ask hask
      obtain ⟨rfl, heq⟩ := ends_done.1 hrest
      cases heq
      exact ⟨_, List.mem_append_right _ (hmem _ List.mem_cons_self), rfl, by simp [hn]⟩
  cases c with
  | lockTarget | lockNeighbor | tryLockNeighbor =>
    cases hserves
    cases hkey
    exact hrow rfl
  | lockSeed | tryLockSeed =>
    cases hserves
    cases hkey
    exact eq_of_looksIn hq hfor hc.1 rfl
  | lockLane w lane =>
    cases eq_of_looksIn hq hfor hc.1 rfl
    rcases reaches_lockLane hreach with rfl | ⟨ids, hids, id, hid, rfl⟩
    . cases hkey
    . cases hkey
      exact .inr ⟨_, List.mem_append_left _ hids, rfl, hid⟩
  | delete w id =>
    cases eq_delete_of_delete hc.1
    rcases hserves with rfl | rfl | rfl | ⟨_, rfl⟩ | rfl | rfl <;> cases hkey
    exact .inl rfl
  | persist => rcases hserves with rfl | ⟨_, rfl⟩ <;> cases hkey
  | _ =>
    cases hserves
    cases hkey

end Request

namespace Process

variable {P : Protocol ops} {b b' : Board} {h : Holder} {p p' : Process} {rows : Rows} {workspace : WorkspaceId}
  {id : TaskId} {key : LockKey}

theorem has_view (hb : b.rows.Has workspace id) : (b.view h).Has workspace id := by
  unfold Board.view
  split
  . exact hb.map (overlay_workspace _)
  . exact hb

theorem Effect.has (he : Effect P b h p rows) (hb : b.rows.Has workspace id) : rows.Has workspace id := by
  cases he with
  | none => exact hb
  | inserts _ hrows => exact hb.insert hrows
  | deletes =>
    apply hb.map
    all_goals
      intro t
      split <;> rfl
  | commits => exact has_view hb

theorem has_of_shows {rows : Rows} {e : Event ops} (he : e.ReadFrom rows) (hshows : e.Shows workspace id) :
    rows.Has workspace id := by
  unfold Event.Shows at hshows
  split at hshows
  . obtain ⟨rfl, hn⟩ := hshows
    obtain ⟨n, rfl, rfl⟩ := Option.map_eq_some_iff.1 hn
    exact Rows.has_of_adjacent he
  . obtain ⟨rfl, hid⟩ := hshows
    rw [show _ = _ from he] at hid
    exact Rows.has_of_mem_laneIds hid
  . exact hshows.elim

theorem locks?_of_gets {e : Event ops} (he : e.gets? = some key) : e.op.locks? = some key := by
  unfold Event.gets? at he
  split at he <;> cases he <;> rfl

end Process

namespace Crowd

variable {c : Crowd} {b : Board} {requests : Holder → Request} {workspace : Holder → WorkspaceId} {h h' : Holder}
  {key : LockKey} {id : TaskId}

/-- The rows that were shown to anybody are rows of its workspace. -/
def Partitioned (workspace : Holder → WorkspaceId) (c : Crowd) : Prop :=
  ∀ h, ∀ e ∈ (c.processes h).past, ∀ id, e.Shows (workspace h) id → c.board.rows.Has (workspace h) id

theorem Partitioned.turn (hc : c.Partitioned workspace)
    (ho : c.Orderly (fun h => (requests h).tracedProtocol) fun _ _ _ => True) (h : Holder) (t : Turn) :
    (c.turn h t).Partitioned workspace := by
  have hs := c.steps_turn h t
  have hkept : ∀ h' id, c.board.rows.Has (workspace h') id → (c.turn h t).board.rows.Has (workspace h') id :=
    fun _ _ => (hs.effect (ho.processes h)).has
  intro h' e he id hshows
  apply hkept
  by_cases hh : h' = h
  . subst hh
    rcases hs.happens with hsame | ⟨x, next, hrest, hpast, hhappens⟩
    . rw [hsame] at he
      exact hc h' e he id hshows
    . rw [hpast] at he
      rcases List.mem_cons.1 he with rfl | he
      . have ho' := (hs.orderly (Request.tracedProtocol_refines.trans Request.protocol_refines) (ho.processes h')).lawful
        rw [hpast] at ho'
        have hread := Request.readFrom_of_happens hhappens (ho'.refines Request.tracedProtocol_refines)
          ((ho.processes h').holds _ hrest)
        exact Process.has_of_shows hread hshows
      . exact hc h' e he id hshows
  . rw [processes_turn_of_ne hh] at he
    exact hc h' e he id hshows

/-- What anybody owns or waits for is within the reach of its request. -/
theorem mayLock_run (hb : b.locks.Idle) (hcommands : ∀ h, (requests h).IsCommand)
    (hfor : ∀ h, (requests h).IsFor (workspace h)) (turns : List (Holder × Turn)) (h : Holder)
    (hlocks : ((start b requests).run turns).board.locks.owner? key = some h
      ∨ h ∈ ((start b requests).run turns).board.locks.queue key) :
    (requests h).MayLock (workspace h) (((start b requests).run turns).board.rows.Has (workspace h)) key := by
  have hrefines : ∀ h, (requests h).tracedProtocol.Refines discipline :=
    fun _ => Request.tracedProtocol_refines.trans Request.protocol_refines
  have hrun : ((start b requests).run turns).Orderly (fun h => (requests h).tracedProtocol) (fun _ _ _ => True)
      ∧ ((start b requests).run turns).Accounted ∧ ((start b requests).run turns).Partitioned workspace := by
    apply run_induction (fun _ => True) fun c => c.Orderly (fun h => (requests h).tracedProtocol) (fun _ _ _ => True)
      ∧ c.Accounted ∧ c.Partitioned workspace
    . refine ⟨Orderly.start hb.keyed fun h => Request.obeys_traced (hcommands h), LockTable.accounts_of_idle hb, ?_⟩
      rintro _ _ ⟨⟩
    . intro c h t ⟨ho, hc, hshown⟩ _
      exact ⟨ho.turn hrefines h t, hc.turn ho hrefines h t, hshown.turn ho h t⟩
    . exact fun _ _ _ => trivial
  obtain ⟨ho, hc, hshown⟩ := hrun
  generalize (start b requests).run turns = c at *
  -- where it asked for the lock, only rows of the workspace were shown to it before
  have hreach : ∀ {T op}, (∀ e ∈ T, e ∈ (c.processes h).past) → (requests h).tracedProtocol.allowed T op →
      op.locks? = some key → (requests h).MayLock (workspace h) (c.board.rows.Has (workspace h)) key := by
    intro T op hT ha hkey
    have hmay := Request.mayLock_of_allowed (hcommands h) (hfor h) ha hkey
    cases key with
    | seed => exact hmay
    | row id =>
      rcases hmay with hnames | ⟨e, he, hshows⟩
      . exact .inl hnames
      . exact .inr (hshown h e (hT e he) id hshows)
  have hwaits : (c.processes h).awaits? = some key →
      (requests h).MayLock (workspace h) (c.board.rows.Has (workspace h)) key := by
    intro hawaits
    unfold Process.awaits? at hawaits
    split at hawaits
    . next op next hrest =>
      exact hreach (fun _ he => he) ((ho.processes h).obeys _ hrest).1 (Op.locks?_of_awaits hawaits)
    . cases hawaits
  rcases hlocks with howner | hqueue
  . rcases hc.owned key h howner with ⟨_, s, hs, e, he, hgets⟩ | hawaits
    . obtain ⟨newer, older, hpast⟩ := List.append_of_mem (mem_of_since hs he)
      have hlawful := (ho.processes h).lawful
      rw [hpast] at hlawful
      apply hreach _ hlawful.allowed (Process.locks?_of_gets hgets)
      intro x hx
      rw [hpast]
      exact List.mem_append_right _ (List.mem_cons_of_mem _ hx)
    . exact hwaits hawaits
  . exact hwaits (hc.queued key h hqueue).1

/-- Whoever owns or waits for the lock of a row of another workspace has named this row in its request. Nobody is blocked
by a command of another workspace, unless one of the two has named a row that its own workspace does not have. -/
theorem foreign_locks_named (hb : b.locks.Idle) (hcommands : ∀ h, (requests h).IsCommand)
    (hfor : ∀ h, (requests h).IsFor (workspace h)) (turns : List (Holder × Turn)) :
    let c := (start b requests).run turns
    (∀ h w id, c.board.rows.Has w id → w ≠ workspace h →
      (c.board.locks.owner? (.row id) = some h ∨ h ∈ c.board.locks.queue (.row id)) → (requests h).Names id)
    ∧ ∀ h h', workspace h ≠ workspace h' → c.board.locks.Blocked h h' → ∃ id, h ∈ c.board.locks.queue (.row id)
      ∧ ((requests h).Names id ∧ ¬ c.board.rows.Has (workspace h) id
        ∨ (requests h').Names id ∧ ¬ c.board.rows.Has (workspace h') id) := by
  have hmay : ∀ key h, ((start b requests).run turns).board.locks.owner? key = some h
      ∨ h ∈ ((start b requests).run turns).board.locks.queue key →
      (requests h).MayLock (workspace h) (((start b requests).run turns).board.rows.Has (workspace h)) key :=
    fun _ => mayLock_run hb hcommands hfor turns
  generalize (start b requests).run turns = c at *
  constructor
  . intro h w id hhas hne hlocks
    rcases hmay _ h hlocks with hnames | hown
    . exact hnames
    . exact absurd (hhas.eq hown) hne
  . rintro h h' hne ⟨key, hqueue, hcause⟩
    have hmay₁ := hmay key h (.inr hqueue)
    have hmay₂ : (requests h').MayLock (workspace h') (c.board.rows.Has (workspace h')) key := by
      apply hmay
      apply hcause.imp_right
      intro hahead
      exact List.idxOf_lt_length_iff.1 (Nat.lt_trans hahead (List.idxOf_lt_length_iff.2 hqueue))
    cases key with
    | seed w lane => exact absurd (hmay₁.symm.trans hmay₂) hne
    | row id =>
      refine ⟨id, hqueue, ?_⟩
      by_cases hhas : c.board.rows.Has (workspace h) id
      . have hhas' : ¬ c.board.rows.Has (workspace h') id := fun hhas' => hne (hhas.eq hhas')
        exact .inr ⟨hmay₂.resolve_right hhas', hhas'⟩
      . exact .inl ⟨hmay₁.resolve_right hhas, hhas⟩

/-- A deletion in the workspace of the row, and others elsewhere. -/
def strangers (h : Holder) : Request :=
  .call (.delete ⟨.ofNat h⟩ (Sample.id 1))

def strangersMeet : Crowd :=
  (start Sample.contention.board strangers).run (Sample.turns [0, 0, 1, 1])

theorem strangersMeet_waits : strangersMeet.board.rows.Has Sample.workspace (Sample.id 1)
    ∧ strangersMeet.board.locks.owner? (.row (Sample.id 1)) = some 0
    ∧ 1 ∈ strangersMeet.board.locks.queue (.row (Sample.id 1)) := by
  refine ⟨⟨Sample.task 1 .todo 1000, ?_, rfl⟩, ?_⟩
  . decide +kernel
  . decide +kernel

theorem foreign_locks_named_strangers : strangersMeet.board.rows.Has Sample.workspace (Sample.id 1)
    ∧ 1 ∈ strangersMeet.board.locks.queue (.row (Sample.id 1)) ∧ (strangers 1).Names (Sample.id 1) := by
  have hcommands : ∀ h, (strangers h).IsCommand := fun _ => ⟨_, _, rfl⟩
  have hfor : ∀ h, (strangers h).IsFor ⟨.ofNat h⟩ := fun _ => rfl
  have hforeign : Sample.workspace ≠ ⟨.ofNat 1⟩ := by decide
  obtain ⟨hhas, _, hwaits⟩ := strangersMeet_waits
  refine ⟨hhas, hwaits, ?_⟩
  exact (foreign_locks_named LockTable.idle_empty hcommands hfor _).1 1 _ _ hhas hforeign (.inr hwaits)

/-- A deletion waits for the lock of a row of another workspace, and is delayed by a deletion there. -/
theorem foreign_deletion_waits : ∃ h h' w w' id, (strangers h).IsFor w ∧ (strangers h').IsFor w' ∧ w ≠ w'
    ∧ strangersMeet.board.rows.Has w' id ∧ h ∈ strangersMeet.board.locks.queue (.row id)
    ∧ strangersMeet.board.locks.Blocked h h' := by
  obtain ⟨hhas, howns, hwaits⟩ := strangersMeet_waits
  refine ⟨1, 0, ⟨.ofNat 1⟩, Sample.workspace, Sample.id 1, rfl, rfl, ?_, hhas, hwaits, .row (Sample.id 1), hwaits, .inl howns⟩
  decide

end Crowd

end LaneOrder
