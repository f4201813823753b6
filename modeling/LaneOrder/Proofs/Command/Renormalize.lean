import LaneOrder.Command.Renormalize
import LaneOrder.Proofs.Command.Basic
import LaneOrder.Proofs.Command.Phases
import LaneOrder.Proofs.Sort

/-!
This module contains what a renormalization calls, whatever a store answers. It locks the lane once, writes only rows
that were returned then, each at its place in their visual order, and commits when all of them are written.
-/

namespace LaneOrder

open Program

namespace Renormalize

def LaneLocked (r : RenormalizeRequest) (lane : Lane) (tasks : List Task) (t : History calls) : Prop :=
  ∃ newer, t = newer ++ [⟨.lockLane r.workspace lane, .ok tasks⟩]
    ∧ ∀ e ∈ newer, e.op.isQuiet = true ∨ e.op.persists?.isSome = true

def Writes (r : RenormalizeRequest) (lane : Lane) (H : History calls) (id : TaskId) (position : Position) : Prop :=
  ∃ t tasks index task, transacted H = some t ∧ LaneLocked r lane tasks t
    ∧ (sortBy Task.visualLe tasks)[index]? = some task ∧ task.id = id
    ∧ (⟨.ambient (.spaced index), position⟩ : Event calls) ∈ t

def Written (r : RenormalizeRequest) (lane : Lane) (tasks : List Task) (count : Nat) (t : History calls) : Prop :=
  ∀ index task, index < count → (sortBy Task.visualLe tasks)[index]? = some task →
    ∃ position, (⟨.ambient (.spaced index), position⟩ : Event calls) ∈ t
      ∧ (⟨.persist r.workspace task.id position lane, .ok ()⟩ : Event calls) ∈ t

def Performs (r : RenormalizeRequest) (H : History calls) : Call → Prop
  | .ambient _ | .role .. | .record _ | .begin | .rollback => True
  | .lockLane w lane => w = r.workspace ∧ Lane.parse r.lane = .ok lane
  | .persist w id position lane => w = r.workspace ∧ Lane.parse r.lane = .ok lane ∧ Writes r lane H id position
  | .commit => ∃ lane t tasks, Lane.parse r.lane = .ok lane ∧ transacted H = some t ∧ LaneLocked r lane tasks t
    ∧ Written r lane tasks tasks.length t
  | _ => False

def protocol (r : RenormalizeRequest) : Protocol calls where
  honest := callDiscipline.honest
  allowed H c := c.Allowed H ∧ Performs r H c

variable {r : RenormalizeRequest} {lane : Lane} {tasks : List Task} {H t : History calls} {e : Event calls} {count : Nat}

theorem protocol_refines : (protocol r).Refines callDiscipline where
  honest _ _ := .rfl
  allowed _ _ h := h.1

theorem ambient_performs (H : History calls) (c : AmbientCall) : (protocol r).allowed H (.ambient c) :=
  ⟨Call.allowed_of_idle rfl rfl rfl rfl, trivial⟩

theorem LaneLocked.push (h : LaneLocked r lane tasks t) (he : e.op.isQuiet = true ∨ e.op.persists?.isSome = true) :
    LaneLocked r lane tasks (e :: t) := by
  obtain ⟨newer, rfl, hnewer⟩ := h
  exact ⟨e :: newer, rfl, List.forall_mem_cons.2 ⟨he, hnewer⟩⟩

theorem LaneLocked.returned (h : LaneLocked r lane tasks t) {task : Task} (htask : task ∈ tasks) :
    Returned t task := by
  obtain ⟨newer, rfl, _⟩ := h
  exact ⟨⟨.lockLane r.workspace lane, .ok tasks⟩, by simp, htask⟩

theorem Written.push (h : Written r lane tasks count t) : Written r lane tasks count (e :: t) := by
  intro index task hindex htask
  obtain ⟨position, hspaced, hpersist⟩ := h index task hindex htask
  exact ⟨position, List.mem_cons_of_mem e hspaced, List.mem_cons_of_mem e hpersist⟩

def Respaced (r : RenormalizeRequest) (lane : Lane) (H : History calls) (reply : Outcome (List Task)) : Prop :=
  Fruitless H ∧ ∃ t, transacted H = some t ∧ ∀ placed, reply = .ok placed →
    ∃ tasks, LaneLocked r lane tasks t ∧ Written r lane tasks tasks.length t

theorem obeys_respace {time : Timestamp} {index : Nat} {rest : List Task} (hlane : Lane.parse r.lane = .ok lane)
    (hH : Fruitless H) (ht : transacted H = some t) (hl : LaneLocked r lane tasks t)
    (hw : Written r lane tasks index t) (hrest : (sortBy Task.visualLe tasks).drop index = rest) :
    Obeys (protocol r) (Respaced r lane) (respace r lane time index rest) H := by
  induction rest generalizing index H t with
  | nil =>
    refine ⟨hH, t, ht, ?_⟩
    intro _ _
    refine ⟨tasks, hl, ?_⟩
    rw [List.drop_eq_nil_iff, length_sortBy] at hrest
    intro index task hindex
    exact hw index task (Nat.lt_of_lt_of_le hindex hrest)
  | cons task rest ih =>
    have hget : (sortBy Task.visualLe tasks)[index]? = some task := by
      rw [← List.head?_drop, hrest]
      rfl
    have hmem : task ∈ tasks := by
      apply (sortBy_perm Task.visualLe tasks).mem_iff.1
      exact List.mem_of_getElem? hget
    apply obeys_bind
    apply obeys_ask (ambient_performs _ _)
    intro position _
    have ht' := transacted_push (e := ⟨.ambient (.spaced index), position⟩) rfl rfl ht
    have hl' := hl.push (e := ⟨.ambient (.spaced index), position⟩) (.inl rfl)
    apply obeys_bind
    apply obeys_ask
    . refine ⟨Call.allowed_of_persist ht' (hl'.returned hmem), rfl, hlane, ?_⟩
      exact ⟨_, tasks, index, task, ht', hl', hget, rfl, List.mem_cons_self⟩
    . intro reply _
      have ht'' := transacted_push (e := ⟨.persist r.workspace task.id position lane, reply⟩) rfl rfl ht'
      have hH' := (hH.push (e := ⟨.ambient (.spaced index), position⟩) rfl).push
        (e := ⟨.persist r.workspace task.id position lane, reply⟩) rfl
      apply obeys_orFail ambient_performs
      . rintro e rfl n error
        exact ⟨hH'.push rfl, _, transacted_push rfl rfl ht'', by rintro _ ⟨⟩⟩
      . rintro _ rfl
        apply obeys_bind
        apply (ih hH' ht'' (hl'.push (.inr rfl)) _ _).mono
        . rintro H' reply ⟨hnone, t', ht', hreply⟩
          cases reply with
          | ok placed => exact ⟨hnone, t', ht', fun _ _ => hreply placed rfl⟩
          | error e => exact ⟨hnone, t', ht', by rintro _ ⟨⟩⟩
        -- the rows before this one were written before, and this one just now
        . intro other task' hother htask'
          rcases Nat.lt_succ_iff_lt_or_eq.1 hother with hlt | rfl
          . exact hw.push.push other task' hlt htask'
          . rw [hget] at htask'
            cases htask'
            exact ⟨position, by simp, by simp⟩
        . rw [← List.drop_drop, hrest]
          rfl

theorem obeys_lockAndRespace (hlane : Lane.parse r.lane = .ok lane) (hH : Fruitless H) (ht : transacted H = some []) :
    Obeys (protocol r) (Respaced r lane) (lockAndRespace r lane) H := by
  apply obeys_bind
  apply obeys_ask
  . refine ⟨?_, rfl, hlane⟩
    constructor
    . rintro _ ⟨⟩
    . intro _
      exact ⟨[], ht, by simp⟩
    . intro _
      exact ⟨[], ht, by simp⟩
    . rintro _ ⟨⟩
    . rintro ⟨⟩
  . intro reply _
    have ht' := transacted_push (e := ⟨.lockLane r.workspace lane, reply⟩) rfl rfl ht
    have hH' := hH.push (e := ⟨.lockLane r.workspace lane, reply⟩) rfl
    apply obeys_orFail ambient_performs
    . rintro e rfl n error
      exact ⟨hH'.push rfl, _, transacted_push rfl rfl ht', by rintro _ ⟨⟩⟩
    . rintro tasks rfl
      apply obeys_bind
      apply obeys_ask (ambient_performs _ _)
      intro time _
      have hl : LaneLocked r lane tasks [⟨.lockLane r.workspace lane, .ok tasks⟩] := ⟨[], rfl, by simp⟩
      apply obeys_respace hlane (hH'.push rfl) (transacted_push rfl rfl ht') (hl.push (.inl rfl)) _ rfl
      intro _ _ hindex
      exact absurd hindex (Nat.not_lt_zero _)

/-- A renormalization keeps to a protocol if the lane is locked and respaced in a transaction that may be ended. It fails
if nothing has taken effect. -/
theorem obeys_renormalizeLane_of {P : Protocol calls} {post : History calls → Outcome RenormalizeOutcome → Prop}
    (hP : ∀ H c, P.allowed H (.ambient c)) (hrole : P.allowed [] (.role r.actor r.workspace))
    (hbegin : ∀ reply, P.allowed [⟨.role r.actor r.workspace, reply⟩] .begin)
    (hrefused : ∀ H error, Closed H → Fruitless H → post H (.error error))
    (hrespaced : ∀ lane reply, Lane.parse r.lane = .ok lane → Obeys P (fun H outcome => Fruitless H
      ∧ P.allowed H .rollback ∧ ∀ placed, outcome = .ok placed → P.allowed H .commit ∧ Obeys P post (do
        note .laneRenormalized
        record (.renormalized r.workspace r.actor lane placed.length)
        return .ok ⟨lane, placed⟩) (⟨.commit, .ok ()⟩ :: H))
      (lockAndRespace r lane) [⟨.begin, .ok ()⟩, ⟨.role r.actor r.workspace, reply⟩]) :
    Obeys P post (renormalizeLane r) [] := by
  apply obeys_authorized hP hrole
  . intro newer error hnewer
    rw [List.append_nil]
    exact hrefused newer error (closed_of_aside hnewer) (fruitless_of_aside hnewer)
  . intro role
    have hnone : Fruitless [(⟨.role r.actor r.workspace, role⟩ : Event calls)] := by
      simp [Fruitless, Event.takesEffect]
    apply obeys_withLane
    . exact fun error => hrefused _ error (closed_of_none rfl) hnone
    . intro lane hlane
      apply obeys_bind
      apply obeys_ask (hbegin role)
      intro reply _
      apply obeys_orFail hP
      . rintro e rfl n error
        exact hrefused _ error closed_of_unbegun ((hnone.push rfl).push rfl)
      . rintro _ rfl
        apply obeys_bind
        apply (hrespaced lane role hlane).mono
        rintro H outcome ⟨hnone, hrollback, hcommit⟩
        cases outcome with
        | error error =>
          apply obeys_bind
          apply obeys_abandon hP hrollback
          intro newer reply hnewer
          apply hrefused _ error (closed_of_none (unopened_abandoned hnewer))
          exact (hnone.push rfl).append (fruitless_of_aside (aside_of_quiet hnewer))
        | ok placed =>
          obtain ⟨hallowed, hrest⟩ := hcommit placed rfl
          apply obeys_bind
          apply obeys_ask hallowed
          intro reply _
          apply obeys_orFail hP
          . rintro e rfl n error
            have hclosed : transacted (⟨.commit, .error e⟩ :: H) = none := transacted_end rfl rfl
            exact hrefused _ error (closed_of_none (unopened_push hclosed rfl)) ((hnone.push rfl).push rfl)
          . rintro _ rfl
            exact hrest

theorem obeys_renormalizeLane (r : RenormalizeRequest) : Obeys (protocol r) Reports (renormalizeLane r) [] := by
  apply obeys_renormalizeLane_of ambient_performs
  . exact ⟨Call.allowed_of_idle rfl rfl rfl rfl, trivial⟩
  . exact fun _ => ⟨Call.allowed_of_idle rfl rfl rfl rfl, trivial⟩
  . exact fun _ error _ hnone => .inl ⟨hnone, error, rfl⟩
  . intro lane reply hlane
    have hbegun : Fruitless [⟨.begin, .ok ()⟩, (⟨.role r.actor r.workspace, reply⟩ : Event calls)] := by
      simp [Fruitless, Event.takesEffect]
    apply (obeys_lockAndRespace hlane hbegun transacted_begin).mono
    rintro H outcome ⟨hnone, t, ht, hreply⟩
    refine ⟨hnone, ⟨Call.allowed_of_end ht rfl rfl rfl, trivial⟩, ?_⟩
    intro placed hplaced
    obtain ⟨tasks, hl, hw⟩ := hreply placed hplaced
    refine ⟨⟨Call.allowed_of_end ht rfl rfl rfl, lane, t, tasks, hlane, ht, hl, hw⟩, ?_⟩
    have hfruit := fruitful_of_effect hnone (e := ⟨.commit, .ok ()⟩) rfl
    apply obeys_told ambient_performs
    . exact fun _ _ => ⟨Call.allowed_of_idle rfl rfl rfl rfl, trivial⟩
    . exact fun newer hnewer => .inr ⟨hfruit.append hnewer, .inl ⟨_, rfl⟩⟩

end Renormalize

end LaneOrder
