import LaneOrder.Call
import LaneOrder.Proofs.Program.Obeys

/-!
This module contains the protocol of calls that all commands obey, whatever a store answers: rows are waited for in
ascending order, what belongs to no row or to many is waited for first, nothing is locked or read after something
was written, and only rows that were returned under their locks are written.
-/

namespace LaneOrder

open Program

namespace Call

def starts : Call → Bool
  | begin => true
  | _ => false

def ends : Call → Bool
  | commit | rollback | delete .. => true
  | _ => false

def asks? : Call → Option TaskId
  | lockTarget _ id | lockNeighbor _ _ id | tryLockNeighbor _ _ id => some id
  | _ => none

def awaits? : Call → Option TaskId
  | lockTarget _ id | lockNeighbor _ _ id => some id
  | _ => none

def locksLane : Call → Bool
  | lockLane .. => true
  | _ => false

def locksSeed : Call → Bool
  | lockSeed .. | tryLockSeed .. => true
  | _ => false

def prepares : Call → Bool
  | adjacent .. => true
  | c => c.asks?.isSome || c.locksLane || c.locksSeed

def persists? : Call → Option TaskId
  | persist _ id _ _ => some id
  | _ => none

def isQuiet : Call → Bool
  | ambient (.allocate ..) => false
  | ambient _ => true
  | _ => false

def isAside : Call → Bool
  | role .. | record _ | find .. => true
  | c => c.isQuiet

def isEffect : Call → Bool
  | insert _ | commit | delete .. => true
  | _ => false

end Call

namespace Program.Event

def returned : Event calls → List Task
  | ⟨.lockTarget .., .ok t⟩ => [t]
  | ⟨.lockNeighbor .., .ok t⟩ => [t]
  | ⟨.tryLockNeighbor .., .ok t⟩ => t.toList
  | ⟨.lockLane .., .ok ts⟩ => ts
  | _ => []

def seeds? : Event calls → Option (WorkspaceId × Lane)
  | ⟨.lockSeed workspace lane, .ok ()⟩ => some (workspace, lane)
  | ⟨.tryLockSeed workspace lane, .ok true⟩ => some (workspace, lane)
  | _ => none

/-- Whether others see something new from then on. -/
def takesEffect : Event calls → Bool
  | ⟨.commit, .ok ()⟩ => true
  | ⟨.insert _, .ok ()⟩ => true
  | ⟨.delete .., .ok true⟩ => true
  | _ => false

def failsToFind : Event calls → Bool
  | ⟨.find .., .error _⟩ => true
  | _ => false

def IsFaithful (e : Event calls) : Prop :=
  ∀ id, e.op.asks? = some id → ∀ t ∈ e.returned, t.id = id

end Program.Event

def transacted (H : History calls) : Option (History calls) :=
  since Call.starts Call.ends H

def Returned (t : History calls) (row : Task) : Prop :=
  ∃ e ∈ t, row ∈ e.returned

def Seeds (t : History calls) (workspace : WorkspaceId) (lane : Lane) : Prop :=
  ∃ e ∈ t, e.seeds? = some (workspace, lane)

def Fruitless (H : History calls) : Prop :=
  ∀ e ∈ H, e.takesEffect = false

/-- Something has taken effect once, and tasks were left alone after that. -/
def Fruitful (H : History calls) : Prop :=
  ∃ newer e older, H = newer ++ e :: older ∧ e.takesEffect = true ∧ Fruitless older
    ∧ ∀ e ∈ newer, e.op.isAside = true

/-- A command fails if nothing has taken effect, and does not fail otherwise unless its look at a task did. -/
def Reports {α : Type} (H : History calls) (outcome : Except CommandError α) : Prop :=
  Fruitless H ∧ (∃ error, outcome = .error error)
    ∨ Fruitful H ∧ ((∃ a, outcome = .ok a) ∨ ∃ e ∈ H, e.failsToFind = true)

namespace Call

structure Allowed (H : History calls) (c : Call) : Prop where
  awaits : ∀ id, c.awaits? = some id → ∃ t, transacted H = some t
    ∧ ∀ e ∈ t, e.op.locksLane = false ∧ ∀ other, e.op.asks? = some other → other < id
  first : c.locksLane = true ∨ (∃ workspace lane, c = .lockSeed workspace lane) → ∃ t, transacted H = some t
    ∧ ∀ e ∈ t, e.op.asks? = none ∧ e.op.locksLane = false ∧ e.op.locksSeed = false
  prepares : c.prepares = true → ∃ t, transacted H = some t ∧ ∀ e ∈ t, e.op.persists? = none
  persists : ∀ id, c.persists? = some id → ∃ t row, transacted H = some t ∧ Returned t row ∧ row.id = id
  ends : c.isEnd = true → ∃ t, transacted H = some t

end Call

/-- The protocol of all commands. -/
def callDiscipline : Protocol calls where
  honest c reply := (Event.mk c reply).IsFaithful
  allowed := Call.Allowed

variable {H t t' : History calls} {e : Event calls} {row : Task} {workspace : WorkspaceId} {lane : Lane}

theorem transacted_begin : transacted (⟨.begin, .ok ()⟩ :: H) = some [] :=
  since_start rfl

theorem transacted_push (hs : e.op.starts = false) (he : e.op.ends = false) (ht : transacted H = some t) :
    transacted (e :: H) = some (e :: t) :=
  since_cons hs he ht

theorem Returned.mono (h : Returned t row) (ht : t ⊆ t') : Returned t' row := by
  obtain ⟨e, he, hrow⟩ := h
  exact ⟨e, ht he, hrow⟩

theorem Seeds.mono (h : Seeds t workspace lane) (ht : t ⊆ t') : Seeds t' workspace lane := by
  obtain ⟨e, he, hseeds⟩ := h
  exact ⟨e, ht he, hseeds⟩

theorem not_takesEffect_of_isAside (h : e.op.isAside = true) : e.takesEffect = false := by
  unfold Event.takesEffect
  split <;> first | rfl | cases h

theorem aside_of_quiet (h : ∀ e ∈ H, e.op.isQuiet = true) : ∀ e ∈ H, e.op.isAside = true := by
  intro e he
  obtain ⟨c, reply⟩ := e
  have hquiet := h _ he
  cases c <;> first | exact hquiet | cases hquiet

theorem fruitless_of_aside (h : ∀ e ∈ H, e.op.isAside = true) : Fruitless H :=
  fun e he => not_takesEffect_of_isAside (h e he)

theorem Fruitless.push (h : Fruitless H) (he : e.takesEffect = false) : Fruitless (e :: H) :=
  List.forall_mem_cons.2 ⟨he, h⟩

theorem Fruitless.append {newer : History calls} (h : Fruitless H) (hnewer : ∀ e ∈ newer, e.takesEffect = false) :
    Fruitless (newer ++ H) := by
  intro e he
  rcases List.mem_append.1 he with he | he
  . exact hnewer e he
  . exact h e he

theorem Fruitful.append {newer : History calls} (h : Fruitful H) (hnewer : ∀ e ∈ newer, e.op.isAside = true) :
    Fruitful (newer ++ H) := by
  obtain ⟨newer', e, older, rfl, he, holder, hnewer'⟩ := h
  refine ⟨newer ++ newer', e, older, by simp, he, holder, ?_⟩
  intro e' he'
  rcases List.mem_append.1 he' with he' | he'
  . exact hnewer e' he'
  . exact hnewer' e' he'

theorem Fruitful.push (h : Fruitful H) (he : e.op.isAside = true) : Fruitful (e :: H) := by
  have hnewer : ∀ e' ∈ [e], e'.op.isAside = true := by simpa using he
  exact h.append hnewer

theorem fruitful_of_effect (h : Fruitless H) (he : e.takesEffect = true) : Fruitful (e :: H) :=
  ⟨[], e, H, rfl, he, h, by simp⟩

namespace Call

theorem allowed_of_idle {c : Call} (hawaits : c.awaits? = none) (hprepares : c.prepares = false)
    (hpersists : c.persists? = none) (hends : c.isEnd = false) : c.Allowed H := by
  constructor
  . simp [hawaits]
  . rintro (hlane | ⟨_, _, rfl⟩)
    . cases c <;> cases hlane
      cases hprepares
    . cases hprepares
  . simp [hprepares]
  . simp [hpersists]
  . simp [hends]

theorem allowed_of_end {c : Call} (ht : transacted H = some t) (hawaits : c.awaits? = none)
    (hprepares : c.prepares = false) (hpersists : c.persists? = none) : c.Allowed H := by
  constructor
  . simp [hawaits]
  . rintro (hlane | ⟨_, _, rfl⟩)
    . cases c <;> cases hlane
      cases hprepares
    . cases hprepares
  . simp [hprepares]
  . simp [hpersists]
  . exact fun _ => ⟨t, ht⟩

theorem allowed_of_persist {position : Position} (ht : transacted H = some t) (hrow : Returned t row) :
    (Call.persist workspace row.id position lane).Allowed H := by
  constructor
  . rintro _ ⟨⟩
  . rintro (hlane | ⟨_, _, hseed⟩)
    . cases hlane
    . cases hseed
  . rintro ⟨⟩
  . rintro _ ⟨⟩
    exact ⟨t, row, ht, hrow, rfl⟩
  . rintro ⟨⟩

theorem allowed_lockSeed (ht : transacted H = some []) : (Call.lockSeed workspace lane).Allowed H := by
  constructor
  . rintro _ ⟨⟩
  . intro _
    exact ⟨[], ht, by simp⟩
  . intro _
    exact ⟨[], ht, by simp⟩
  . rintro _ ⟨⟩
  . rintro ⟨⟩

theorem plain_of_asks {c : Call} {id : TaskId} (h : c.asks? = some id) :
    c.starts = false ∧ c.ends = false ∧ c.locksLane = false ∧ c.persists? = none := by
  cases c <;> first | exact ⟨rfl, rfl, rfl, rfl⟩ | cases h

end Call

end LaneOrder
