import LaneOrder.Proofs.Crowd.Commits

/-!
This module contains crowds in which a command is suspended only where it waits for a lock, and what is committed in a
crowd turn by turn.
-/

namespace LaneOrder

open Board Program

def Turn.isDrop : Turn → Bool
  | drop => true
  | _ => false

namespace Process

variable {q : Request} {p : Process} {b b' : Board} {h : Holder} {t : Turn}

/-- A command that was not started, that is over, or that is at a request for a lock. -/
def isResting (p : Process) : Bool :=
  match p.rest with
  | none | some (.done _) => true
  | some (.perform op _) => Op.awaits? op |>.isSome || p.past.isEmpty

/-- What a move has returned. -/
def outcome? (p : Process) : Option MoveOutcome :=
  match p.rest with
  | some (.done (.moved o)) => some o
  | _ => none

theorem rest_of_outcome? {o : MoveOutcome} (ho : p.outcome? = some o) : p.rest = some (.done (.moved o)) := by
  unfold outcome? at ho
  split at ho
  . next hrest =>
    cases ho
    exact hrest
  . cases ho

theorem isSome_rest_turn (hdrop : t.isDrop = false) (hp : p.rest.isSome = true) :
    (p.turn b h t).2.rest.isSome = true := by
  unfold turn
  split
  . exact hp
  . exact hp
  . cases hdrop
  . rfl
  . split
    . exact hp
    . split <;> first | rfl | exact hp
  . exact hp

end Process

namespace Board

variable {b b' : Board} {h : Holder} {e : Event ops}

theorem eq_of_answered {c : AmbientCall} {reply : c.Reply} (he : Happens h b ⟨.ambient c, reply⟩ b') : b' = b := by
  cases he
  rfl

theorem found_of_happens {workspace : WorkspaceId} {id : TaskId} {row : Option Task}
    (he : Happens h b ⟨.action (.find workspace id), row⟩ b') : row = b.rows.findIn? workspace id ∧ b' = b := by
  cases he with
  | acts ha =>
    cases ha
    exact ⟨rfl, rfl⟩
  | givesUp ha => cases ha

theorem records_of_happens {entry : AuditEntry} {reply : Except StoreError Unit}
    (he : Happens h b ⟨.action (.record entry), reply⟩ b') (hworks : b.audit.failing = false) :
    reply = .ok () ∧ b'.rows = b.rows ∧ b'.audit.entries = b.audit.entries ++ [entry] := by
  cases he with
  | acts ha =>
    simp only [act, AuditTrail.append, hworks] at ha
    cases ha
    exact ⟨rfl, rfl, rfl⟩
  | givesUp ha => cases ha

theorem failing_of_happens (he : Happens h b e b') : b'.audit.failing = b.audit.failing := by
  cases hrecords : e.op.records with
  | false => rw [he.audit hrecords]
  | true =>
    cases he with
    | answered => rfl
    | givesUp ha =>
      rw [(act_blocking ha).board]
      rfl
    | acts ha =>
      rename_i a reply
      cases a with
      | record entry =>
        simp only [act, AuditTrail.append] at ha
        split at ha <;> cases ha <;> rfl
      | _ => cases hrecords

end Board

namespace Crowd

variable {c : Crowd} {b : Board} {requests : Holder → Request} {h : Holder} {t : Turn}

/-- Nobody else takes a turn while a command is not suspended at a request for a lock, and it is not dropped either. -/
def Uninterrupted (c : Crowd) (h : Holder) (t : Turn) : Prop :=
  ∀ h', h' ≠ h ∨ t.isDrop = true → (c.processes h').isResting = true

/-- Nobody but a command that is not suspended takes its turn. -/
theorem Uninterrupted.eq (hu : c.Uninterrupted h t) {h' : Holder} (hactive : (c.processes h').isResting = false) :
    h' = h ∧ t.isDrop = false := by
  constructor
  . by_contra hh
    exact nomatch hactive.symm.trans (hu h' (.inl hh))
  . cases hdrop : t.isDrop with
    | false => rfl
    | true => exact nomatch hactive.symm.trans (hu h' (.inr hdrop))

section Resting

variable {turns : List (Holder × Turn)}

theorem isResting_start (b : Board) (requests : Holder → Request) (h : Holder) :
    ((start b requests).processes h).isResting = true := by
  show Process.isResting ⟨[], some (actionsOf (requests h).program)⟩ = true
  unfold Process.isResting
  split
  . rfl
  . rfl
  . exact Bool.or_true _

theorem isResting_run (hresting : ∀ h, (c.processes h).isResting = true)
    (hturns : ∀ x ∈ turns, ((c.run turns).processes x.1).isResting = true) (h : Holder) :
    ((c.run turns).processes h).isResting = true := by
  by_cases hh : ∃ x ∈ turns, x.1 = h
  . obtain ⟨x, hx, rfl⟩ := hh
    exact hturns x hx
  . rw [processes_run_of_ne (fun x hx heq => hh ⟨x, hx, heq.symm⟩)]
    exact hresting h

/-- It is enough to look at those who take turns. -/
theorem along_uninterrupted {holders : List Holder} (hturns : ∀ x ∈ turns, x.1 ∈ holders)
    (hothers : ∀ h, h ∉ holders → (c.processes h).isResting = true)
    (hu : c.Along (fun c h t => ∀ h' ∈ holders, h' ≠ h ∨ t.isDrop = true → (c.processes h').isResting = true) turns) :
    c.Along Uninterrupted turns := by
  induction turns generalizing c with
  | nil => trivial
  | cons x turns ih =>
    obtain ⟨h, t⟩ := x
    obtain ⟨hx, hturns⟩ := List.forall_mem_cons.1 hturns
    refine ⟨?_, ih hturns ?_ hu.2⟩
    . intro h' hh
      by_cases hmem : h' ∈ holders
      . exact hu.1 h' hmem hh
      . exact hothers h' hmem
    . intro h' hmem
      have hne : h' ≠ h := by
        rintro rfl
        exact hmem hx
      rw [processes_turn_of_ne hne]
      exact hothers h' hmem

end Resting

/-- What a holder does at its turn, if anything. -/
def event? (c : Crowd) (h : Holder) (t : Turn) : Option (Event ops) :=
  if (c.processes h).past.length < ((c.turn h t).processes h).past.length then ((c.turn h t).processes h).past.head?
  else none

structure Commit where
  holder : Holder
  before : Rows
  after : Rows

def commit? (requests : Holder → Request) (c : Crowd) (h : Holder) (t : Turn) : Option Commit :=
  if (c.event? h t).any (requests h).publishes then some ⟨h, c.board.rows, (c.turn h t).board.rows⟩ else none

/-- The commits of creations, moves and renormalizations, in their order. -/
def commits (requests : Holder → Request) : Crowd → List (Holder × Turn) → List Commit
  | _, [] => []
  | c, (h, t) :: turns => (commit? requests c h t).toList ++ commits requests (c.turn h t) turns

theorem commits_snoc {turns : List (Holder × Turn)} : commits requests c (turns ++ [(h, t)])
    = commits requests c turns ++ (commit? requests (c.run turns) h t).toList := by
  induction turns generalizing c with
  | nil => exact List.append_nil _
  | cons x turns ih =>
    obtain ⟨h', t'⟩ := x
    simp only [commits, List.cons_append, ih, List.append_assoc]
    rfl

theorem holder_of_commit? {k : Commit} (hk : commit? requests c h t = some k) : k.holder = h := by
  unfold commit? at hk
  split at hk
  . cases hk
    rfl
  . cases hk

/-- A turn at which nothing happens, unless the command is dropped. -/
structure Idles (c : Crowd) (h : Holder) (t : Turn) : Prop where
  event : c.event? h t = none
  process : (c.turn h t).processes h = c.processes h ∨ (c.turn h t).processes h = ⟨(c.processes h).past, none⟩
  rows : (c.turn h t).board.rows = c.board.rows
  audit : (c.turn h t).board.audit = c.board.audit

/-- A turn at which a command performs its next operation. -/
structure Performs (c : Crowd) (h : Holder) (t : Turn) (e : Event ops) (next : e.op.Reply → Working Answer) : Prop where
  event : c.event? h t = some e
  before : (c.processes h).rest = some (.perform (I := ops) e.op next)
  after : (c.turn h t).processes h = ⟨e :: (c.processes h).past, some (next e.reply)⟩
  happens : Happens h c.board e (c.turn h t).board

theorem idles_or_performs (c : Crowd) (h : Holder) (t : Turn) : c.Idles h t ∨ ∃ e next, c.Performs h t e next := by
  have hevent : ∀ {p : Process}, (c.turn h t).processes h = p → c.event? h t
      = if (c.processes h).past.length < p.past.length then p.past.head? else none := by
    rintro _ rfl
    rfl
  rcases (c.steps_turn h t).idles_or_happens with ⟨hsame, hrows, haudit⟩ | ⟨e, next, hrest, hp, he⟩
  . left
    refine ⟨?_, hsame, hrows, haudit⟩
    rcases hsame with hsame | hsame <;> simp [hevent hsame]
  . right
    exact ⟨e, next, by simp [hevent hp], hrest, hp, he⟩

theorem Idles.commit? (hi : c.Idles h t) : commit? requests c h t = none := by
  unfold Crowd.commit?
  rw [hi.event]
  rfl

theorem Idles.past (hi : c.Idles h t) (h' : Holder) :
    ((c.turn h t).processes h').past = (c.processes h').past := by
  by_cases hh : h' = h
  . subst hh
    rcases hi.process with hsame | hsame <;> rw [hsame]
  . rw [processes_turn_of_ne hh]

theorem Idles.processes (hi : c.Idles h t) (hdrop : t.isDrop = false) (hrest : (c.processes h).rest.isSome = true) :
    (c.turn h t).processes = c.processes := by
  funext h'
  by_cases hh : h' = h
  . subst hh
    rcases hi.process with hsame | hdropped
    . exact hsame
    . have hkept := Process.isSome_rest_turn (b := c.board) (h := h') hdrop hrest
      rw [← processes_turn_self, hdropped] at hkept
      cases hkept
  . exact processes_turn_of_ne hh

theorem Performs.commit?_of_publishes {e : Event ops} {next : e.op.Reply → Working Answer} (hp : c.Performs h t e next)
    (he : (requests h).publishes e = true) :
    commit? requests c h t = some ⟨h, c.board.rows, (c.turn h t).board.rows⟩ := by
  unfold commit?
  rw [hp.event]
  exact if_pos he

theorem Performs.commit?_of_not_publishes {e : Event ops} {next : e.op.Reply → Working Answer}
    (hp : c.Performs h t e next) (he : (requests h).publishes e = false) : commit? requests c h t = none := by
  unfold commit?
  rw [hp.event]
  exact if_neg (by simp [he])

/-- Who has committed is who has taken effect. -/
theorem mem_holders (turns : List (Holder × Turn)) : h ∈ (commits requests (start b requests) turns).map Commit.holder
    ↔ ∃ x ∈ (((start b requests).run turns).processes h).past, (requests h).publishes x = true := by
  induction turns using List.reverseRecOn with
  | nil =>
    constructor
    . intro hmem
      cases hmem
    . rintro ⟨_, hmem, _⟩
      cases hmem
  | append_singleton turns last ih =>
    obtain ⟨h', t⟩ := last
    rw [commits_snoc, List.map_append, List.mem_append, ih, run_append]
    generalize (start b requests).run turns = c
    change _ ↔ ∃ x ∈ ((c.turn h' t).processes h).past, (requests h).publishes x = true
    rcases c.idles_or_performs h' t with hi | ⟨e, next, hp⟩
    . rw [hi.past, hi.commit?]
      simp
    . by_cases hh : h = h'
      . subst hh
        rw [hp.after]
        cases hpublishes : (requests h).publishes e with
        | true => simp [hp.commit?_of_publishes hpublishes, hpublishes]
        | false => simp [hp.commit?_of_not_publishes hpublishes, hpublishes]
      . rw [processes_turn_of_ne hh]
        cases hpublishes : (requests h').publishes e with
        | true => simp [hp.commit?_of_publishes hpublishes, hh]
        | false => simp [hp.commit?_of_not_publishes hpublishes]

end Crowd

end LaneOrder
