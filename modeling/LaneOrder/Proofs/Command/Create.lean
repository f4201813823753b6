import LaneOrder.Command.Create
import LaneOrder.Proofs.Command.Basic
import LaneOrder.Proofs.Command.Phases

/-!
This module contains what a creation calls, whatever a store answers. It opens no transaction, and the position of the
new task was appended after the greatest one that it has read.
-/

namespace LaneOrder

open Program

namespace Create

/-- A task may be inserted with a position that was appended after the greatest one of its lane. -/
def Appends (r : CreateRequest) (H : History calls) (task : Task) : Prop :=
  ∃ lane greatest id position time title reply older,
    H = ⟨.ambient .now, time⟩ :: ⟨.ambient (.appendAfter greatest), position⟩ :: ⟨.ambient .freshId, id⟩
        :: ⟨.greatest r.workspace lane, .ok greatest⟩ :: ⟨.role r.actor r.workspace, reply⟩ :: older
      ∧ task = Task.new id r.workspace title lane position time ∧ Lane.parse r.lane = .ok lane

def Performs (r : CreateRequest) (H : History calls) : Call → Prop
  | .ambient _ | .role .. | .record _ | .greatest .. => True
  | .insert task => Appends r H task
  | _ => False

def protocol (r : CreateRequest) : Protocol calls where
  honest := callDiscipline.honest
  allowed H c := c.Allowed H ∧ Performs r H c

variable {r : CreateRequest}

theorem protocol_refines : (protocol r).Refines callDiscipline where
  honest _ _ := .rfl
  allowed _ _ h := h.1

theorem ambient_performs (H : History calls) (c : AmbientCall) : (protocol r).allowed H (.ambient c) :=
  ⟨Call.allowed_of_idle rfl rfl rfl rfl, trivial⟩

def Creates (H : History calls) (outcome : Outcome Task) : Prop :=
  Reports H outcome ∧ ∀ t, outcome = .ok t → (⟨.insert t, .ok ()⟩ : Event calls) ∈ H

theorem creates_of_fruitless {H : History calls} (h : Fruitless H) (e : CommandError) : Creates H (.error e) :=
  ⟨.inl ⟨h, e, rfl⟩, by rintro _ ⟨⟩⟩

/-- What a creation was told before it inserts a task. -/
structure Draft where
  role : Except RoleError Role
  lane : Lane
  greatest : Position
  id : TaskId
  position : Position
  time : Timestamp

def Draft.task (d : Draft) (r : CreateRequest) : Task :=
  .new d.id r.workspace (Text.trim r.title) d.lane d.position d.time

def Draft.past (d : Draft) (r : CreateRequest) : History calls :=
  [⟨.ambient .now, d.time⟩, ⟨.ambient (.appendAfter d.greatest), d.position⟩, ⟨.ambient .freshId, d.id⟩,
    ⟨.greatest r.workspace d.lane, .ok d.greatest⟩, ⟨.role r.actor r.workspace, d.role⟩]

theorem Draft.fruitless_past (d : Draft) (r : CreateRequest) : Fruitless (d.past r) := by
  simp [Fruitless, Draft.past, Event.takesEffect]

/-- A creation keeps to a protocol if a task may be inserted as drafted. It fails if nothing has taken effect. -/
theorem obeys_createTask_of {P : Protocol calls} {post : History calls → Outcome Task → Prop}
    (hP : ∀ H c, P.allowed H (.ambient c)) (hrole : P.allowed [] (.role r.actor r.workspace))
    (hgreatest : ∀ lane reply, P.allowed [⟨.role r.actor r.workspace, reply⟩] (.greatest r.workspace lane))
    (hrefused : ∀ H error, Closed H → Fruitless H → post H (.error error))
    (hinsert : ∀ d : Draft, Lane.parse r.lane = .ok d.lane → P.allowed (d.past r) (.insert (d.task r)))
    (hinserted : ∀ d : Draft, Obeys P post (do
      note .taskCreated
      record (.created r.workspace r.actor d.id d.lane d.position)
      return .ok (d.task r)) (⟨.insert (d.task r), .ok ()⟩ :: d.past r)) :
    Obeys P post (createTask r) [] := by
  apply obeys_authorized hP hrole
  . intro newer error hnewer
    rw [List.append_nil]
    exact hrefused newer error (closed_of_aside hnewer) (fruitless_of_aside hnewer)
  . intro role
    have hnone : Fruitless [(⟨.role r.actor r.workspace, role⟩ : Event calls)] := by
      simp [Fruitless, Event.takesEffect]
    apply obeys_ite
    . exact fun _ => hrefused _ _ (closed_of_none rfl) hnone
    . intro _
      apply obeys_withLane
      . exact fun error => hrefused _ error (closed_of_none rfl) hnone
      . intro lane hlane
        apply obeys_bind
        apply obeys_ask (hgreatest lane role)
        intro greatest _
        apply obeys_orFail hP
        . intro _ _ n error
          exact hrefused _ error (closed_of_none rfl) ((hnone.push rfl).push rfl)
        . rintro greatest rfl
          apply obeys_bind
          apply obeys_ask (hP _ _)
          intro id _
          apply obeys_bind
          apply obeys_ask (hP _ _)
          intro position _
          apply obeys_bind
          apply obeys_ask (hP _ _)
          intro time _
          let d : Draft := ⟨role, lane, greatest, id, position, time⟩
          apply obeys_bind
          apply obeys_ask (hinsert d hlane)
          intro inserted _
          apply obeys_orFail hP
          . rintro _ rfl n error
            exact hrefused _ error (closed_of_none rfl) (((d.fruitless_past r).push rfl).push rfl)
          . rintro _ rfl
            exact hinserted d

theorem obeys_createTask (r : CreateRequest) : Obeys (protocol r) Creates (createTask r) [] := by
  apply obeys_createTask_of ambient_performs
  . exact ⟨Call.allowed_of_idle rfl rfl rfl rfl, trivial⟩
  . exact fun _ _ => ⟨Call.allowed_of_idle rfl rfl rfl rfl, trivial⟩
  . exact fun _ error _ hnone => creates_of_fruitless hnone error
  . exact fun d hlane => ⟨Call.allowed_of_idle rfl rfl rfl rfl, _, _, _, _, _, _, _, _, rfl, rfl, hlane⟩
  . intro d
    have hfruit := fruitful_of_effect (d.fruitless_past r) (e := ⟨.insert (d.task r), .ok ()⟩) rfl
    apply obeys_told ambient_performs
    . exact fun _ _ => ⟨Call.allowed_of_idle rfl rfl rfl rfl, trivial⟩
    . intro newer hnewer
      refine ⟨.inr ⟨hfruit.append hnewer, .inl ⟨_, rfl⟩⟩, ?_⟩
      rintro t ⟨⟩
      simp

end Create

end LaneOrder
