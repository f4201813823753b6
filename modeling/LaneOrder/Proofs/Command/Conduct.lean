import LaneOrder.Proofs.Command.Basic
import LaneOrder.Proofs.Command.Create
import LaneOrder.Proofs.Command.Phases
import LaneOrder.Proofs.Command.Renormalize
import LaneOrder.Proofs.Command.Scope

/-!
This module contains the conduct of commands, whatever a store answers: in which order they call a store, and how often.
The resolver is asked first; transactions follow each other, and each of them is ended; a move writes once at most, and
commits right after that; and what was done is recorded once.
-/

namespace LaneOrder

open Program

namespace Call

def isAmbient : Call → Bool
  | ambient _ => true
  | _ => false

def isRole : Call → Bool
  | role .. => true
  | _ => false

def isRecord : Call → Bool
  | record _ => true
  | _ => false

/-- A call that takes no row away. -/
def keepsRows : Call → Bool
  | delete .. => false
  | _ => true

end Call

def Unpersisted (H : History calls) : Prop :=
  ∀ e ∈ H, e.op.persists? = none

def Unrecorded (H : History calls) : Prop :=
  ∀ e ∈ H, e.op.isRecord = false

/-- A row was written, and the store was not called since then. -/
def Poised (H : History calls) : Prop :=
  ∃ newer workspace id position lane older, H = newer ++ ⟨.persist workspace id position lane, .ok ()⟩ :: older
    ∧ ∀ e ∈ newer, e.op.isAmbient = true

/-- What a command may call after what happened, if it begins so many transactions at most. Some commands write a single
row. -/
structure Call.Conducted (limit : Nat) (single : Prop) (H : History calls) (c : Call) : Prop where
  timely : c.Timely H
  role : c.isRole = true → H = []
  starts : c.starts = true → Closed H ∧ H.countP (·.op.starts) < limit ∧ (single → Unpersisted H)
  ends : c.isEnd = true → Begun H
  records : c.isRecord = true → Unrecorded H
  persists : single → c.persists?.isSome = true → Unpersisted H
  poised : single → Begun H → Poised H → c.isAmbient = true ∨ c = .commit

def conduct (used : Call → Bool) (limit : Nat) (single : Prop) : Protocol calls where
  honest _ _ := True
  allowed H c := used c = true ∧ c.Conducted limit single H

/-- Nothing was written or done so far, and so many transactions were begun at most. -/
structure Untouched (single : Prop) (count : Nat) (H : History calls) : Prop where
  fruitless : Fruitless H
  unrecorded : Unrecorded H
  unpersisted : single → Unpersisted H
  starts : H.countP (·.op.starts) ≤ count

/-- All transactions are closed, and if anything was done it was recorded. -/
def Tidy (H : History calls) : Prop :=
  Closed H ∧ (Fruitless H ∨ ∃ e ∈ H, e.op.isRecord = true)

variable {used : Call → Bool} {limit count : Nat} {single : Prop} {H newer : History calls} {e : Event calls} {c : Call}

theorem Unrecorded.push (h : Unrecorded H) (he : e.op.isRecord = false) : Unrecorded (e :: H) :=
  List.forall_mem_cons.2 ⟨he, h⟩

theorem Untouched.push (h : Untouched single count H) (he : e.takesEffect = false) (hr : e.op.isRecord = false)
    (hp : single → e.op.persists? = none) (hs : e.op.starts = false) : Untouched single count (e :: H) where
  fruitless := h.fruitless.push he
  unrecorded := h.unrecorded.push hr
  unpersisted hsingle := List.forall_mem_cons.2 ⟨hp hsingle, h.unpersisted hsingle⟩
  starts := by
    rw [List.countP_cons_of_neg (by simp [hs])]
    exact h.starts

theorem Untouched.ambient (h : Untouched single count H) (c : AmbientCall) (reply : c.Reply) :
    Untouched single count (⟨.ambient c, reply⟩ :: H) :=
  h.push rfl rfl (fun _ => rfl) rfl

theorem Untouched.begin (h : Untouched single count H) (reply : Except StoreError Unit) :
    Untouched single (count + 1) (⟨.begin, reply⟩ :: H) where
  fruitless := h.fruitless.push rfl
  unrecorded := h.unrecorded.push rfl
  unpersisted hsingle := List.forall_mem_cons.2 ⟨rfl, h.unpersisted hsingle⟩
  starts := by
    rw [List.countP_cons_of_pos rfl]
    exact Nat.succ_le_succ h.starts

theorem Untouched.append (h : Untouched single count H) (hnewer : ∀ e ∈ newer, e.op.isQuiet = true) :
    Untouched single count (newer ++ H) := by
  induction newer with
  | nil => exact h
  | cons e newer ih =>
    obtain ⟨he, hrest⟩ := List.forall_mem_cons.1 hnewer
    obtain ⟨c, reply⟩ := e
    cases c with
    | ambient c => exact (ih hrest).ambient _ _
    | _ => cases he

theorem not_poised_of_unpersisted (h : Unpersisted H) : ¬ Poised H := by
  rintro ⟨newer, workspace, id, position, lane, older, rfl, _⟩
  exact nomatch h ⟨.persist workspace id position lane, .ok ()⟩ (by simp)

theorem not_poised_push (he : e.op.isAmbient = false)
    (hpersist : ∀ workspace id position lane, e ≠ ⟨.persist workspace id position lane, .ok ()⟩) : ¬ Poised (e :: H) := by
  rintro ⟨newer, workspace, id, position, lane, older, heq, hnewer⟩
  cases newer with
  | nil =>
    cases heq
    exact hpersist workspace id position lane rfl
  | cons e' newer =>
    cases heq
    exact nomatch he.symm.trans (hnewer _ List.mem_cons_self)

theorem not_poised_ambient {c : AmbientCall} {reply : c.Reply} (h : ¬ Poised H) :
    ¬ Poised (⟨.ambient c, reply⟩ :: H) := by
  rintro ⟨newer, workspace, id, position, lane, older, heq, hnewer⟩
  cases newer with
  | nil => cases heq
  | cons e' newer =>
    cases heq
    exact h ⟨newer, workspace, id, position, lane, older, rfl, fun e he => hnewer e (List.mem_cons_of_mem _ he)⟩

namespace Call

theorem conducted_ambient (c : AmbientCall) : (ambient c).Conducted limit single H where
  timely := timely_of_idle rfl rfl
  role := by rintro ⟨⟩
  starts := by rintro ⟨⟩
  ends := by rintro ⟨⟩
  records := by rintro ⟨⟩
  persists := by rintro _ ⟨⟩
  poised _ _ _ := .inl rfl

/-- Outside of transactions only the order of what is begun and recorded matters. -/
theorem conducted_of_closed (hH : Closed H) (htransacts : c.transacts = false) (hrole : c.isRole = false)
    (hstarts : c.starts = false) (hends : c.isEnd = false) (hsequel : c.isSequel = true → Fruitful H)
    (hrecords : c.isRecord = true → Unrecorded H) : c.Conducted limit single H where
  timely := ⟨by simp [htransacts], hsequel⟩
  role := by simp [hrole]
  starts := by simp [hstarts]
  ends := by simp [hends]
  records := hrecords
  persists := by
    intro _ hpersists
    simp [transacts, hpersists] at htransacts
  poised _ hb _ := absurd hb hH

theorem conducted_begin (hH : Closed H) (hu : Untouched single count H) (hcount : count < limit) :
    begin.Conducted limit single H where
  timely := timely_of_idle rfl rfl
  role := by rintro ⟨⟩
  starts _ := ⟨hH, Nat.lt_of_le_of_lt hu.starts hcount, hu.unpersisted⟩
  ends := by rintro ⟨⟩
  records := by rintro ⟨⟩
  persists := by rintro _ ⟨⟩
  poised _ hb _ := absurd hb hH

theorem conducted_commit (hb : Begun H) : commit.Conducted limit single H where
  timely := timely_of_idle rfl rfl
  role := by rintro ⟨⟩
  starts := by rintro ⟨⟩
  ends _ := hb
  records := by rintro ⟨⟩
  persists := by rintro _ ⟨⟩
  poised _ _ _ := .inr rfl

theorem conducted_rollback (hb : Begun H) (hH : single → ¬ Poised H) : rollback.Conducted limit single H where
  timely := timely_of_idle rfl rfl
  role := by rintro ⟨⟩
  starts := by rintro ⟨⟩
  ends _ := hb
  records := by rintro ⟨⟩
  persists := by rintro _ ⟨⟩
  poised hsingle _ hp := absurd hp (hH hsingle)

theorem conducted_of_inner (hc : c.isInner = true) (hH : Untouched single count H) (hb : Begun H) :
    c.Conducted limit single H := by
  have hquiet : c.isSequel = false ∧ c.isRole = false ∧ c.starts = false ∧ c.isEnd = false ∧ c.isRecord = false := by
    cases c <;> first | exact ⟨rfl, rfl, rfl, rfl, rfl⟩ | cases hc
  obtain ⟨hsequel, hrole, hstarts, hends, hrecord⟩ := hquiet
  constructor
  . exact ⟨fun _ => ⟨hH.fruitless, hb⟩, by simp [hsequel]⟩
  . simp [hrole]
  . simp [hstarts]
  . simp [hends]
  . simp [hrecord]
  . exact fun hsingle _ => hH.unpersisted hsingle
  . exact fun hsingle _ hp => absurd hp (not_poised_of_unpersisted (hH.unpersisted hsingle))

theorem isInner_of_within {workspace : WorkspaceId} {lane : Lane} (hc : c.Within workspace lane) : c.isInner = true := by
  cases c <;> first | rfl | cases hc

end Call

theorem ambient_conduct (hused : ∀ c, used (.ambient c) = true) (H : History calls) (c : AmbientCall) :
    (conduct used limit single).allowed H (.ambient c) :=
  ⟨hused c, Call.conducted_ambient c⟩

theorem conduct_refines : (conduct used limit single).Refines (phases used) where
  honest _ _ := .rfl
  allowed _ _ h := ⟨h.1, h.2.timely⟩

/-- The inner part of a transaction begins and ends nothing. If a single row is to be written, then it is not written
there. -/
theorem obeys_inner {α : Type} {p : Commanding α} (hp : Only (I := calls) (fun c => c.isInner = true ∧ (single → c.persists? = none)) p)
    (hused : ∀ c : Call, c.isInner = true → used c = true) (hH : Untouched single count H) (hb : Begun H) :
    Obeys (conduct used limit single) (fun H _ => Untouched single count H ∧ Begun H) p H := by
  induction p generalizing H with
  | done a => exact ⟨hH, hb⟩
  | perform c next ih =>
    obtain ⟨⟨hc, hpersists⟩, hnext⟩ := hp
    have hquiet : c.starts = false ∧ c.ends = false ∧ c.isRecord = false
        ∧ ∀ reply, (Event.mk (I := calls) c reply).takesEffect = false := by
      cases c <;> first | exact ⟨rfl, rfl, rfl, fun _ => rfl⟩ | cases hc
    obtain ⟨hs, he, hr, heffect⟩ := hquiet
    constructor
    . exact ⟨hused c hc, Call.conducted_of_inner hc hH hb⟩
    . intro reply _
      exact ih reply (hnext reply) (hH.push (heffect reply) hr hpersists hs) (hb.push hs he)

theorem commitsOnly_of_inner (c : Call) (hc : c.isInner = true) : c.commitsOnly = true := by
  cases c <;> first | rfl | cases hc

theorem keepsRows_of_commitsOnly (c : Call) (hc : c.commitsOnly = true) : c.keepsRows = true := by
  cases c <;> first | rfl | cases hc

theorem ambient_commitsOnly (H : History calls) (c : AmbientCall) :
    (conduct Call.commitsOnly limit single).allowed H (.ambient c) :=
  ambient_conduct (fun _ => rfl) H c

/-- What was done is noted and recorded, and nothing is left open. -/
theorem conduct_told {α : Type} {post : History calls → α → Prop} {n : Notice} {entry : Timestamp → AuditEntry}
    {rest : Commanding α} (hused : ∀ c, c.transacts = false → c.commitsOnly = true → used c = true)
    (hclosed : transacted H = none) (hH : Fruitful H) (hr : Unrecorded H)
    (h : ∀ H', transacted H' = none → Fruitful H' → (∃ e ∈ H', e.op.isRecord = true) →
      Obeys (conduct used limit single) post rest H') :
    Obeys (conduct used limit single) post (do
      note n
      record entry
      rest) H := by
  have hambient : ∀ H c, (conduct used limit single).allowed H (.ambient c) := ambient_conduct fun _ => hused _ rfl rfl
  have hnoted := unopened_push (e := ⟨.ambient (.note n), ()⟩) hclosed rfl
  apply obeys_bind
  apply obeys_note hambient
  apply obeys_bind
  apply obeys_record hambient
  . intro time
    refine ⟨hused _ rfl rfl, Call.conducted_of_closed ?_ rfl rfl rfl rfl ?_ ?_⟩
    . exact closed_of_none (unopened_push hnoted rfl)
    . exact fun _ => (hH.push rfl).push rfl
    . exact fun _ => (hr.push rfl).push rfl
  . intro newer time reply hnewer
    apply h
    . exact unopened_append (unopened_push (unopened_push hnoted rfl) rfl) (aside_of_quiet hnewer)
    . exact (((hH.push rfl).push rfl).push rfl).append (aside_of_quiet hnewer)
    . exact ⟨⟨.record (entry time), reply⟩, by simp, rfl⟩

theorem tidy_of_fruitless (hclosed : Closed H) (hH : Fruitless H) : Tidy H :=
  ⟨hclosed, .inl hH⟩

theorem Call.conducted_role {actor : ActorId} {workspace : WorkspaceId} :
    (Call.role actor workspace).Conducted limit single [] where
  timely := Call.timely_of_idle rfl rfl
  role _ := rfl
  starts := by rintro ⟨⟩
  ends := by rintro ⟨⟩
  records := by rintro ⟨⟩
  persists := by rintro _ ⟨⟩
  poised _ _ hp := absurd hp (not_poised_of_unpersisted (by simp [Unpersisted]))

theorem untouched_role {actor : ActorId} {workspace : WorkspaceId} {reply : Except RoleError Role} :
    Untouched single 0 [(⟨.role actor workspace, reply⟩ : Event calls)] where
  fruitless := by simp [Fruitless, Event.takesEffect]
  unrecorded := by simp [Unrecorded, Call.isRecord]
  unpersisted _ := by simp [Unpersisted, Call.persists?]
  starts := Nat.le_refl 0

namespace Move

variable {r : MoveRequest} {lane : Lane}

/-- What an attempt has left behind when it is committed or abandoned. -/
def Left (count : Nat) (H : History calls) : Outcome Attempt → Prop
  | .ok (.placed _) => Fruitless H ∧ Unrecorded H
  | .ok (.retry _) => Untouched True count H
  | .error _ => Fruitless H ∧ Unrecorded H ∧ ¬ Poised H

theorem left_of_untouched {error : CommandError} (hH : Untouched True count H) : Left count H (.error error) :=
  ⟨hH.fruitless, hH.unrecorded, not_poised_of_unpersisted (hH.unpersisted trivial)⟩

theorem conduct_write {target : Task} {allocation : Allocation} (hH : Untouched True count H) (hb : Begun H) :
    Obeys (conduct Call.commitsOnly limit True) (fun H reply => Begun H ∧ Left count H reply)
      (write r lane target allocation) H := by
  apply obeys_bind
  apply obeys_ask
  . exact ⟨rfl, Call.conducted_of_inner rfl hH hb⟩
  . intro reply _
    have hb' := hb.push (e := ⟨.persist r.workspace target.id allocation.position lane, reply⟩) rfl rfl
    have hnone := hH.fruitless.push (e := ⟨.persist r.workspace target.id allocation.position lane, reply⟩) rfl
    have hunrecorded := hH.unrecorded.push (e := ⟨.persist r.workspace target.id allocation.position lane, reply⟩) rfl
    apply obeys_orFail ambient_commitsOnly
    . rintro e rfl n error
      have hfailed : ¬ Poised (⟨.persist r.workspace target.id allocation.position lane, .error e⟩ :: H) := by
        apply not_poised_push rfl
        rintro _ _ _ _ ⟨⟩
      exact ⟨hb'.push rfl rfl, hnone.push rfl, hunrecorded.push rfl, not_poised_ambient hfailed⟩
    . rintro _ rfl
      apply obeys_bind
      apply obeys_ask (ambient_commitsOnly _ _)
      intro time _
      exact ⟨hb'.push rfl rfl, hnone.push rfl, hunrecorded.push rfl⟩

theorem conduct_settle {target : Task} {gap : Gap} (hH : Untouched True count H) (hb : Begun H) :
    Obeys (conduct Call.commitsOnly limit True) (fun H reply => Begun H ∧ Left count H reply)
      (settle r lane target gap) H := by
  apply obeys_settle_of_write ambient_commitsOnly
  . exact fun _ => conduct_write (hH.ambient _ _) (hb.push rfl rfl)
  . exact fun _ => conduct_write ((hH.ambient _ _).ambient _ _) ((hb.push rfl rfl).push rfl rfl)

theorem inner_of_prepares {workspace : WorkspaceId} (c : Call) (hc : c.PreparesIn workspace lane) :
    c.isInner = true ∧ (True → c.persists? = none) :=
  ⟨Call.isInner_of_within hc.1, fun _ => hc.2⟩

theorem conduct_lockAndSettle {plan : LockPlan} {held : HeldLocks} (hH : Untouched True count H) (hb : Begun H) :
    Obeys (conduct Call.commitsOnly limit True) (fun H reply => Begun H ∧ Left count H reply)
      (lockAndSettle r lane plan held) H := by
  apply obeys_lockAndSettle_of
  apply (obeys_inner (only_lockSteps.mono inner_of_prepares) commitsOnly_of_inner hH hb).mono
  rintro H _ ⟨hH, hb⟩
  refine ⟨fun _ => ⟨hb, left_of_untouched hH⟩, ?_⟩
  rintro l target _ _
  apply obeys_secureAndSettle_of ambient_commitsOnly
  apply (obeys_inner (Gap.only_secure.mono inner_of_prepares) commitsOnly_of_inner hH hb).mono
  rintro H _ ⟨hH, hb⟩
  refine ⟨?_, fun _ _ => conduct_settle hH hb, fun _ _ _ => ⟨hb, hH⟩⟩
  exact fun _ _ => ⟨hb.push rfl rfl, left_of_untouched (hH.ambient _ _)⟩

theorem conduct_place {plan : LockPlan} (hH : Untouched True count H) (hb : Begun H) :
    Obeys (conduct Call.commitsOnly limit True) (fun H reply => Begun H ∧ Left count H reply) (place r lane plan) H := by
  have hb' := fun reply => hb.push (e := ⟨.lockSeed r.workspace lane, reply⟩) rfl rfl
  have hH' := fun reply => hH.push (e := ⟨.lockSeed r.workspace lane, reply⟩) rfl rfl (fun _ => rfl) rfl
  apply obeys_place_of ambient_commitsOnly ⟨rfl, Call.conducted_of_inner rfl hH hb⟩
  . exact fun e _ _ => ⟨(hb' (.error e)).push rfl rfl, left_of_untouched ((hH' (.error e)).ambient _ _)⟩
  . exact conduct_lockAndSettle (hH' (.ok ())) (hb' (.ok ()))
  . exact conduct_lockAndSettle hH hb

def Concluded (r : MoveRequest) (H : History calls) (outcome : Outcome MoveOutcome) : Prop :=
  Concludes r H outcome ∧ Tidy H

theorem concluded_of_fruitless {error : CommandError} (hclosed : Closed H) (hH : Fruitless H) :
    Concluded r H (.error error) :=
  ⟨.inl ⟨hH, error, rfl⟩, tidy_of_fruitless hclosed hH⟩

theorem conduct_finish {p : Placement} (hclosed : transacted H = none) (hH : Fruitful H) (hr : Unrecorded H) :
    Obeys (conduct Call.commitsOnly limit True) (Concluded r) (finish r lane p) H := by
  apply conduct_told (fun _ _ h => h) hclosed hH hr
  intro H hclosed hH hrecorded
  apply obeys_bind
  apply obeys_ask
  . exact ⟨rfl, Call.conducted_of_closed (closed_of_none hclosed) rfl rfl rfl rfl (fun _ => hH) (by rintro ⟨⟩)⟩
  . intro reply _
    have hfound := hH.push (e := ⟨.find r.workspace r.task, reply⟩) rfl
    have hnone := unopened_push (e := ⟨.find r.workspace r.task, reply⟩) hclosed rfl
    obtain ⟨e, he, hrecord⟩ := hrecorded
    have htidy : Tidy (⟨.find r.workspace r.task, reply⟩ :: H) :=
      ⟨closed_of_none hnone, .inr ⟨e, List.mem_cons_of_mem _ he, hrecord⟩⟩
    have hnoted : ∀ n, Tidy (⟨.ambient (.note n), ()⟩ :: ⟨.find r.workspace r.task, reply⟩ :: H) :=
      fun n => ⟨closed_of_none (unopened_push hnone rfl), .inr ⟨e, by simp [he], hrecord⟩⟩
    cases reply with
    | error e =>
      apply obeys_storeFailed ambient_commitsOnly
      intro n
      exact ⟨.inr ⟨hfound.push rfl, .inr ⟨e, by simp, rfl⟩⟩, hnoted n⟩
    | ok row =>
      cases row with
      | some task => exact ⟨.inr ⟨hfound, .inl ⟨_, rfl⟩⟩, htidy⟩
      | none =>
        apply obeys_bind
        apply obeys_note ambient_commitsOnly
        exact ⟨.inr ⟨hfound.push rfl, .inl ⟨_, rfl⟩⟩, hnoted _⟩

theorem keptByAttempts_conduct : KeptByAttempts (conduct Call.commitsOnly limit True) r lane
    (fun n _ H => transacted H = none ∧ ∃ count, Untouched True count H ∧ count + n ≤ limit) (Concluded r) where
  ambient := ambient_commitsOnly
  begins hk := by
    obtain ⟨hclosed, count, hH, hcount⟩ := hk
    exact ⟨rfl, Call.conducted_begin (closed_of_none hclosed) hH (by omega)⟩
  unsettled hk _ := by
    obtain ⟨hclosed, count, hH, _⟩ := hk
    exact concluded_of_fruitless (closed_of_none (unopened_push hclosed rfl)) (hH.fruitless.push rfl)
  unbegun hk e notice error := by
    obtain ⟨_, count, hH, _⟩ := hk
    exact concluded_of_fruitless closed_of_unbegun ((hH.begin (.error e)).fruitless.push rfl)
  places hk := by
    obtain ⟨_, count, hH, hcount⟩ := hk
    apply (conduct_place (hH.begin (.ok ())) begun_begin).mono
    rintro H reply ⟨hb, hleft⟩
    cases reply with
    | error error =>
      obtain ⟨hnone, _, hp⟩ := hleft
      refine ⟨⟨rfl, Call.conducted_rollback hb fun _ => hp⟩, ?_⟩
      intro newer reply hnewer
      exact concluded_of_fruitless (closed_of_none (unopened_abandoned hnewer))
        ((hnone.push rfl).append (fruitless_of_aside (aside_of_quiet hnewer)))
    | ok attempt =>
      cases attempt with
      | retry wider =>
        have hH : Untouched True (count + 1) H := hleft
        have hp := not_poised_of_unpersisted (hH.unpersisted trivial)
        refine ⟨⟨rfl, Call.conducted_rollback hb fun _ => hp⟩, ?_⟩
        intro newer reply hnewer
        have hrolled := hH.push (e := ⟨.rollback, reply⟩) rfl rfl (fun _ => rfl) rfl
        refine ⟨unopened_push (unopened_abandoned hnewer) rfl, count + 1, (hrolled.append hnewer).ambient _ _, ?_⟩
        omega
      | placed p =>
        obtain ⟨hnone, hr⟩ := hleft
        have hcommitted : ∀ reply, transacted (⟨.commit, reply⟩ :: H) = none := fun _ => transacted_end rfl rfl
        refine ⟨⟨rfl, Call.conducted_commit hb⟩, ?_, ?_⟩
        . intro e notice error
          exact concluded_of_fruitless (closed_of_none (unopened_push (hcommitted _) rfl)) ((hnone.push rfl).push rfl)
        . exact conduct_finish (hcommitted _) (fruitful_of_effect hnone rfl) (hr.push rfl)

theorem conduct_moveTask (r : MoveRequest) :
    Obeys (conduct Call.commitsOnly maxAttempts True) (Concluded r) (moveTask r) [] := by
  apply obeys_authorized ambient_commitsOnly
  . exact ⟨rfl, Call.conducted_role⟩
  . intro newer error hnewer
    rw [List.append_nil]
    exact concluded_of_fruitless (closed_of_aside hnewer) (fruitless_of_aside hnewer)
  . intro reply
    have hclosed : transacted [(⟨.role r.actor r.workspace, reply⟩ : Event calls)] = none := rfl
    have hH : Untouched True 0 [(⟨.role r.actor r.workspace, reply⟩ : Event calls)] := untouched_role
    apply obeys_withLane
    . intro error
      exact concluded_of_fruitless (closed_of_none hclosed) hH.fruitless
    . intro lane _
      split
      . exact concluded_of_fruitless (closed_of_none hclosed) hH.fruitless
      . exact keptByAttempts_conduct.obeys_attempts ⟨hclosed, 0, hH, by simp⟩

theorem phases_moveTask (r : MoveRequest) : Obeys (phases Call.commitsOnly) (Finishes r) (moveTask r) [] :=
  ((conduct_moveTask r).refines conduct_refines).mono fun _ _ h => ⟨h.2.1, h.1⟩

end Move

namespace Create

theorem untouched_past (d : Draft) (r : CreateRequest) : Untouched False 0 (d.past r) :=
  (((untouched_role.push rfl rfl nofun rfl).ambient _ _).ambient _ _).ambient _ _

theorem conduct_createTask (r : CreateRequest) :
    Obeys (conduct Call.keepsRows 0 False) (fun H _ => Tidy H) (createTask r) [] := by
  have hambient : ∀ H c, (conduct Call.keepsRows 0 False).allowed H (.ambient c) := ambient_conduct fun _ => rfl
  apply obeys_createTask_of hambient
  . exact ⟨rfl, Call.conducted_role⟩
  . exact fun _ _ => ⟨rfl, Call.conducted_of_closed (closed_of_none rfl) rfl rfl rfl rfl nofun nofun⟩
  . exact fun _ _ hclosed hnone => tidy_of_fruitless hclosed hnone
  . exact fun _ _ => ⟨rfl, Call.conducted_of_closed (closed_of_none rfl) rfl rfl rfl rfl nofun nofun⟩
  . intro d
    have hfruit := fruitful_of_effect (d.fruitless_past r) (e := ⟨.insert (d.task r), .ok ()⟩) rfl
    have hunrecorded := (untouched_past d r).unrecorded.push (e := ⟨.insert (d.task r), .ok ()⟩) rfl
    apply conduct_told (fun c _ => keepsRows_of_commitsOnly c) rfl hfruit hunrecorded
    intro H hclosed _ hrecorded
    exact ⟨closed_of_none hclosed, .inr hrecorded⟩

theorem phases_createTask (r : CreateRequest) :
    Obeys (phases fun _ => true) (fun H _ => Closed H) (createTask r) [] :=
  (((conduct_createTask r).refines conduct_refines).refines phases_refines).mono fun _ _ h => h.1

end Create

namespace Renormalize

variable {r : RenormalizeRequest} {lane : Lane}

theorem conduct_lockAndRespace (hH : Untouched False count H) (hb : Begun H) :
    Obeys (conduct Call.commitsOnly limit False) (fun H _ => Untouched False count H ∧ Begun H) (lockAndRespace r lane) H := by
  have hinner : ∀ c, Call.Within r.workspace lane c → c.isInner = true ∧ (False → c.persists? = none) :=
    fun c hc => ⟨Call.isInner_of_within hc, nofun⟩
  exact obeys_inner (only_within.mono hinner) commitsOnly_of_inner hH hb

theorem conduct_renormalizeLane (r : RenormalizeRequest) :
    Obeys (conduct Call.commitsOnly 1 False) (fun H _ => Tidy H) (renormalizeLane r) [] := by
  apply obeys_renormalizeLane_of ambient_commitsOnly
  . exact ⟨rfl, Call.conducted_role⟩
  . exact fun _ => ⟨rfl, Call.conducted_begin (closed_of_none rfl) untouched_role Nat.one_pos⟩
  . exact fun _ _ hclosed hnone => tidy_of_fruitless hclosed hnone
  . intro lane reply _
    apply (conduct_lockAndRespace (untouched_role.begin (.ok ())) begun_begin).mono
    rintro H _ ⟨hH, hb⟩
    refine ⟨hH.fruitless, ⟨rfl, Call.conducted_rollback hb nofun⟩, ?_⟩
    intro placed _
    refine ⟨⟨rfl, Call.conducted_commit hb⟩, ?_⟩
    have hclosed : transacted (⟨.commit, .ok ()⟩ :: H) = none := transacted_end rfl rfl
    apply conduct_told (fun _ _ h => h) hclosed (fruitful_of_effect hH.fruitless rfl) (hH.unrecorded.push rfl)
    intro H hclosed _ hrecorded
    exact ⟨closed_of_none hclosed, .inr hrecorded⟩

theorem phases_renormalizeLane (r : RenormalizeRequest) :
    Obeys (phases Call.commitsOnly) (fun H _ => Closed H) (renormalizeLane r) [] :=
  ((conduct_renormalizeLane r).refines conduct_refines).mono fun _ _ h => h.1

end Renormalize

end LaneOrder
