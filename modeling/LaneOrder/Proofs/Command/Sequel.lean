import LaneOrder.Command.Create
import LaneOrder.Proofs.Command.Scope
import LaneOrder.Proofs.Program.Leaves

/-!
This module contains what commands do after they have taken effect, whatever a store answers: each of them makes a note,
records an entry about what it has written, and answers.
-/

namespace LaneOrder

open Program

variable {α β : Type} {H E : History calls} {c : Call} {workspace : WorkspaceId} {lane : Lane}

def sequel (notice : Notice) (entry : Timestamp → AuditEntry) (last : Commanding α) : Commanding α := do
  note notice
  record entry
  last

theorem sequel_bind {notice : Notice} {entry : Timestamp → AuditEntry} {last : Commanding α} {f : α → Commanding β} :
    sequel notice entry last >>= f = sequel notice entry (last >>= f) := by
  unfold sequel
  rw [bind_assoc]
  congr
  funext _
  rw [bind_assoc]

/-- A part of a command that takes no effect. -/
abbrev TakesNoEffect (p : Commanding α) : Prop :=
  Only (I := calls) (fun c => c.isEffect = false) p

theorem Call.not_isEffect_of_within (h : c.Within workspace lane) : c.isEffect = false := by
  cases c <;> first | rfl | exact h.elim

theorem Call.not_boundary_of_within (h : c.Within workspace lane) : c.starts = false ∧ c.ends = false := by
  cases c <;> first | exact ⟨rfl, rfl⟩ | exact h.elim

theorem takesNoEffect_of_within {p : Commanding α} (hp : Only (I := calls) (Call.Within workspace lane) p) :
    TakesNoEffect p :=
  hp.mono fun _ => Call.not_isEffect_of_within

theorem takesNoEffect_sequel {notice : Notice} {entry : Timestamp → AuditEntry} {last : Commanding α}
    (hlast : TakesNoEffect last) : TakesNoEffect (sequel notice entry last) := by
  have hkind : ∀ c, (Call.ambient c).isEffect = false := fun _ => rfl
  refine only_bind (only_ask (hkind _)) fun _ => ?_
  exact only_bind (only_record hkind fun _ => rfl) fun _ => hlast

section Effects

variable (hc : c.isEffect = true)

include hc

theorem not_leaves {p : Commanding α} {next : c.Reply → Commanding α} (hp : TakesNoEffect p) :
    ¬ Leaves p H (perform c next) :=
  hp.not_leaves (by simp [hc])

theorem leaves_call {c' : Call} {f : c'.Reply → Commanding α} {next : c.Reply → Commanding α} (hc' : c'.isEffect = false)
    (h : Leaves (call c' >>= f) H (perform c next)) :
    ∃ reply H', Leaves (f reply) H' (perform c next) ∧ H = H' ++ [⟨c', reply⟩] := by
  rcases leaves_perform.1 h with ⟨_, heq⟩ | hlater
  . cases heq
    exact nomatch hc.symm.trans hc'
  . exact hlater

omit hc in
theorem leaves_map {p : Commanding α} {f : α → β} {next : c.Reply → Commanding β}
    (h : Leaves (p >>= fun a => done (f a)) H (perform c next)) :
    ∃ next', Leaves p H (perform c next') ∧ ∀ reply, next reply = next' reply >>= fun a => done (f a) := by
  rcases leaves_bind h with ⟨next', hp, rfl⟩ | ⟨a, _, _, _, hdone, _⟩
  . exact ⟨next', hp, fun _ => rfl⟩
  . cases hdone

theorem leaves_after {p : Commanding α} {f : α → Commanding β} {next : c.Reply → Commanding β} (hp : TakesNoEffect p)
    (h : Leaves (p >>= f) H (perform c next)) :
    ∃ a E H', Ends p E a ∧ Leaves (f a) H' (perform c next) ∧ H = H' ++ E := by
  rcases leaves_bind h with ⟨next', hnext, _⟩ | hlater
  . exact absurd hnext (not_leaves hc hp)
  . exact hlater

variable {next : c.Reply → Commanding (Outcome β)}

theorem leaves_orFail {stage : Stage} {reply : Except StoreError α} {f : α → Commanding (Outcome β)}
    (h : Leaves (orFail stage reply f) H (perform c next)) : ∃ a, reply = .ok a ∧ Leaves (f a) H (perform c next) := by
  cases reply with
  | ok a => exact ⟨a, rfl, h⟩
  | error e => exact absurd h (not_leaves hc (only_storeFailed fun _ => rfl))

omit hc in
theorem leaves_withLane {name : String} {f : Lane → Commanding (Outcome β)}
    (h : Leaves (withLane name f) H (perform c next)) :
    ∃ lane, Lane.parse name = .ok lane ∧ Leaves (f lane) H (perform c next) := by
  unfold withLane at h
  split at h
  . next lane hlane => exact ⟨lane, hlane, h⟩
  . cases h

theorem leaves_authorized {actor : ActorId} {f : Commanding (Outcome β)}
    (h : Leaves (authorized actor workspace f) H (perform c next)) :
    ∃ reply H', Leaves f H' (perform c next) ∧ H = H' ++ [⟨.role actor workspace, reply⟩] := by
  obtain ⟨reply, H', hnext, rfl⟩ := leaves_call hc rfl h
  have hnote : ∀ n error, ¬ Leaves (note n >>= fun _ => done (.error error)) H' (perform c next) := by
    intro n error
    exact not_leaves hc (only_call rfl fun _ => trivial)
  refine ⟨reply, H', ?_, rfl⟩
  cases reply with
  | ok role =>
    dsimp only at hnext
    split at hnext
    . exact hnext
    . exact absurd hnext (hnote _ _)
  | error e =>
    cases e with
    | store e => exact absurd hnext (hnote _ _)
    | _ => cases hnext

end Effects

theorem not_ends_storeFailed {stage : Stage} {e : StoreError} {b : β} : ¬ Ends (storeFailed stage e) E (.ok b) := by
  intro h
  unfold storeFailed at h
  cases e <;>
  . obtain ⟨_, E₁, E₂, _, hdone, _⟩ := ends_bind h
    cases (ends_done.1 hdone).2

theorem ends_orFail {stage : Stage} {reply : Except StoreError α} {f : α → Commanding (Outcome β)} {b : β}
    (h : Ends (orFail stage reply f) E (.ok b)) : ∃ a, reply = .ok a ∧ Ends (f a) E (.ok b) := by
  cases reply with
  | ok a => exact ⟨a, rfl, h⟩
  | error e => exact absurd h not_ends_storeFailed

namespace Create

theorem leaves_insert {r : CreateRequest} {t : Task} {next : Except StoreError Unit → Commanding (Outcome Task)}
    (h : Leaves (I := calls) (createTask r) H (perform (I := calls) (.insert t) next)) :
    next (.ok ()) = sequel .taskCreated (.created r.workspace r.actor t.id t.lane t.position) (done (.ok t)) := by
  obtain ⟨_, H₁, h₁, rfl⟩ := leaves_authorized rfl h
  dsimp only at h₁
  split at h₁
  . cases h₁
  . obtain ⟨lane, hlane, h₂⟩ := leaves_withLane h₁
    obtain ⟨_, H₃, h₃, rfl⟩ := leaves_call rfl rfl h₂
    obtain ⟨greatest, _, h₄⟩ := leaves_orFail rfl h₃
    obtain ⟨id, H₅, h₅, rfl⟩ := leaves_call rfl rfl h₄
    obtain ⟨position, H₆, h₆, rfl⟩ := leaves_call rfl rfl h₅
    obtain ⟨time, H₇, h₇, rfl⟩ := leaves_call rfl rfl h₆
    rcases leaves_perform.1 h₇ with ⟨_, heq⟩ | ⟨reply, H₈, h₈, _⟩
    . cases heq
      rfl
    . obtain ⟨_, _, h₉⟩ := leaves_orFail rfl h₈
      exact absurd h₉ (not_leaves rfl (takesNoEffect_sequel trivial))

end Create

namespace Renormalize

theorem leaves_commit {r : RenormalizeRequest} {next : Except StoreError Unit → Commanding (Outcome RenormalizeOutcome)}
    (h : Leaves (I := calls) (renormalizeLane r) H (perform (I := calls) .commit next)) :
    ∃ lane tasks, Lane.parse r.lane = .ok lane ∧ next (.ok ()) = sequel .laneRenormalized
      (.renormalized r.workspace r.actor lane tasks.length) (done (.ok ⟨lane, tasks⟩)) := by
  obtain ⟨_, H₁, h₁, rfl⟩ := leaves_authorized rfl h
  obtain ⟨lane, hlane, h₂⟩ := leaves_withLane h₁
  obtain ⟨_, H₃, h₃, rfl⟩ := leaves_call rfl rfl h₂
  obtain ⟨_, _, h₄⟩ := leaves_orFail rfl h₃
  obtain ⟨outcome, E, H₅, _, h₅, rfl⟩ := leaves_after rfl (takesNoEffect_of_within only_within) h₄
  cases outcome with
  | error error => exact absurd h₅ (not_leaves rfl (only_bind (only_abandon (fun _ => rfl) rfl) fun _ => trivial))
  | ok tasks =>
    rcases leaves_perform.1 h₅ with ⟨_, heq⟩ | ⟨reply, H₆, h₆, _⟩
    . cases heq
      exact ⟨lane, tasks, hlane, rfl⟩
    . obtain ⟨_, _, h₇⟩ := leaves_orFail rfl h₆
      exact absurd h₇ (not_leaves rfl (takesNoEffect_sequel trivial))

end Renormalize

namespace Move

variable {r : MoveRequest} {p : Placement}

/-- What an attempt has locked and written. -/
structure Placed (r : MoveRequest) (lane : Lane) (p : Placement) (E older : History calls) (target : Task) : Prop where
  written : ∃ time, E = ⟨.ambient .now, time⟩ :: ⟨.persist r.workspace target.id p.placed.position lane, .ok ()⟩ :: older
  locked : ∃ id, (⟨.lockTarget r.workspace id, .ok target⟩ : Event calls) ∈ older
  source : p.source = target.lane

theorem ends_write {target : Task} {allocation : Allocation}
    (h : Ends (I := calls) (write r lane target allocation) E (.ok (.placed p))) :
    ∃ time, E = [⟨.ambient .now, time⟩, ⟨.persist r.workspace target.id p.placed.position lane, .ok ()⟩]
      ∧ p.source = target.lane := by
  obtain ⟨reply, E₁, E₂, hask, h₁, rfl⟩ := ends_bind h
  cases ends_ask hask
  obtain ⟨_, rfl, h₂⟩ := ends_orFail h₁
  obtain ⟨time, E₃, E₄, hask, h₃, rfl⟩ := ends_bind h₂
  cases ends_ask hask
  obtain ⟨rfl, heq⟩ := ends_done.1 h₃
  cases heq
  exact ⟨time, rfl, rfl⟩

theorem ends_settle {target : Task} {gap : Gap} (h : Ends (I := calls) (settle r lane target gap) E (.ok (.placed p))) :
    ∃ time older, E = ⟨.ambient .now, time⟩ :: ⟨.persist r.workspace target.id p.placed.position lane, .ok ()⟩ :: older
      ∧ p.source = target.lane := by
  obtain ⟨⟨position, exhausted⟩, E₁, E₂, _, h₁, rfl⟩ := ends_bind h
  cases exhausted with
  | false =>
    obtain ⟨time, rfl, hsource⟩ := ends_write h₁
    exact ⟨time, E₁, rfl, hsource⟩
  | true =>
    obtain ⟨_, E₃, E₄, _, h₂, rfl⟩ := ends_bind h₁
    obtain ⟨time, rfl, hsource⟩ := ends_write h₂
    exact ⟨time, E₃ ++ E₁, by simp, hsource⟩

/-- The target was known before, or a call has returned it. -/
def KnowsTarget (r : MoveRequest) (l l' : Locked) (H : History calls) : Prop :=
  ∀ target, l'.target = some target →
    l.target = some target ∨ ∃ id, (⟨.lockTarget r.workspace id, .ok target⟩ : Event calls) ∈ H

theorem KnowsTarget.push {l l₁ l₂ : Locked} {e : Event calls} (h : KnowsTarget r l l₁ H) (hl : l₂.target = l₁.target) :
    KnowsTarget r l l₂ (e :: H) := by
  intro target htarget
  rw [hl] at htarget
  rcases h target htarget with hbefore | ⟨id, hid⟩
  . exact .inl hbefore
  . exact .inr ⟨id, List.mem_cons_of_mem _ hid⟩

theorem keptBySteps_target (l : Locked) :
    KeptBySteps (.free calls) r lane (fun _ l' H => KnowsTarget r l l' H) fun _ => True where
  ambient _ _ := trivial
  asks _ _ := trivial
  locked step row hk _ := by
    obtain ⟨id, role⟩ := step
    cases role with
    | target =>
      rintro _ ⟨⟩
      exact .inr ⟨id, List.mem_cons_self⟩
    | _ => exact hk.push rfl
  skipped _ hk := hk.push rfl
  failed _ _ _ := trivial

theorem target_of_lockSteps {steps : List LockStep} {l l' : Locked} {target : Task}
    (h : Ends (I := calls) (lockSteps r lane steps l) E (.ok l')) (htarget : l'.target = some target) :
    l.target = some target ∨ ∃ id, (⟨.lockTarget r.workspace id, .ok target⟩ : Event calls) ∈ E := by
  have hnone : KnowsTarget r l l [] := fun _ hl => .inl hl
  have hobeys : Obeys (.free calls) _ (lockSteps r lane steps l) [] := (keptBySteps_target l).obeys_lockSteps hnone
  exact hobeys.of_ends_free h target htarget

/-- An attempt has locked the rows of its plan and secured the gap. What became of the gap decides how it has ended. -/
theorem ends_lockAndSettle {plan : LockPlan} {held : HeldLocks} {attempt : Attempt}
    (h : Ends (I := calls) (lockAndSettle r lane plan held) E (.ok attempt)) :
    ∃ l target securing locks checks rest, Ends (I := calls) (lockSteps r lane plan.steps { held }) locks (.ok l)
      ∧ l.target = some target
      ∧ Ends (I := calls) (Gap.secure r.workspace lane target.id l.anchors Gap.maxChecks l.held) checks (.ok securing)
      ∧ E = rest ++ checks ++ locks
      ∧ ((∃ gap, securing = .secured gap ∧ Ends (I := calls) (settle r lane target gap) rest (.ok attempt))
        ∨ ∃ bounds laneSeed, securing = .restart bounds laneSeed ∧ rest = []
          ∧ attempt = .retry (if laneSeed then (plan.withBounds bounds).withLaneSeed else plan.withBounds bounds)) := by
  obtain ⟨outcome, E₁, E₂, hlocked, h₁, rfl⟩ := ends_bind h
  cases outcome with
  | error e => cases (ends_done.1 h₁).2
  | ok l =>
    dsimp only at h₁
    split at h₁
    . cases (ends_done.1 h₁).2
    . next target htarget =>
      split at h₁
      . cases (ends_done.1 h₁).2
      . obtain ⟨reply, E₃, E₄, hsecure, h₂, rfl⟩ := ends_bind h₁
        obtain ⟨securing, rfl, h₃⟩ := ends_orFail h₂
        refine ⟨l, target, securing, E₁, E₃, E₄, hlocked, htarget, hsecure, rfl, ?_⟩
        cases securing with
        | secured gap => exact .inl ⟨gap, rfl, h₃⟩
        | restart bounds laneSeed =>
          obtain ⟨rfl, heq⟩ := ends_done.1 h₃
          cases heq
          exact .inr ⟨bounds, laneSeed, rfl, rfl, rfl⟩

/-- The seed of the lane is locked first if the plan says so. -/
theorem ends_place_inv {plan : LockPlan} {attempt : Attempt}
    (h : Ends (I := calls) (place r lane plan) E (.ok attempt)) :
    ∃ held rest older, Ends (I := calls) (lockAndSettle r lane plan held) rest (.ok attempt) ∧ E = rest ++ older
      ∧ held.laneSeed = plan.laneSeed
      ∧ (older = [] ∨ plan.laneSeed = true ∧ ∃ reply, older = [⟨.lockSeed r.workspace lane, reply⟩]) := by
  unfold place at h
  split at h
  . next hseed =>
    obtain ⟨reply, E₁, E₂, hask, h₁, rfl⟩ := ends_bind h
    cases ends_ask hask
    obtain ⟨_, _, h₂⟩ := ends_orFail h₁
    exact ⟨_, E₂, _, h₂, rfl, hseed.symm, .inr ⟨hseed, reply, rfl⟩⟩
  . next hseed => exact ⟨_, E, [], h, (List.append_nil E).symm, by simpa using hseed, .inl rfl⟩

theorem ends_place {plan : LockPlan} (h : Ends (I := calls) (place r lane plan) E (.ok (.placed p))) :
    ∃ older target, Placed r lane p E older target := by
  obtain ⟨held, rest, seed, hrest, rfl, _⟩ := ends_place_inv h
  obtain ⟨l, target, securing, locks, checks, rest, hlocks, htarget, _, rfl, hends⟩ := ends_lockAndSettle hrest
  rcases hends with ⟨gap, _, hsettle⟩ | ⟨_, _, _, _, hretry⟩
  . obtain ⟨time, older, rfl, hsource⟩ := ends_settle hsettle
    refine ⟨older ++ checks ++ locks ++ seed, target, ⟨time, by simp⟩, ?_, hsource⟩
    rcases target_of_lockSteps hlocks htarget with hnone | ⟨id, hid⟩
    . cases hnone
    . exact ⟨id, by simp [hid]⟩
  . cases hretry

def look (r : MoveRequest) (p : Placement) : Commanding (Outcome MoveOutcome) := do
  let reply ← call (.find r.workspace r.task)
  orFail .refetch reply fun
    | some task => return .ok ⟨task, p.exhausted⟩
    | none => do
      note .taskVanished
      return .ok ⟨p.placed, p.exhausted⟩

theorem finish_eq : finish r lane p
    = sequel .taskMoved (.moved r.workspace r.actor r.task p.source lane p.placed.position) (look r p) :=
  rfl

/-- What a move does once it has committed. -/
def Concluding (r : MoveRequest) (H : History calls) (rest : Commanding (Outcome MoveOutcome)) : Prop :=
  ∃ lane p E older target past, Lane.parse r.lane = .ok lane ∧ rest = finish r lane p ∧ Placed r lane p E older target
    ∧ H = E ++ ⟨.begin, .ok ()⟩ :: past ∧ ∀ e ∈ E, e.op.Within r.workspace lane

theorem Concluding.append {rest : Commanding (Outcome MoveOutcome)} (h : Concluding r H rest) (earlier : History calls) :
    Concluding r (H ++ earlier) rest := by
  obtain ⟨lane, p, E, older, target, past, hparsed, hrest, hplaced, rfl, hE⟩ := h
  exact ⟨lane, p, E, older, target, past ++ earlier, hparsed, hrest, hplaced, List.append_assoc .., hE⟩

theorem leaves_attempts {n : Nat} {plan : LockPlan} {next : Except StoreError Unit → Commanding (Outcome MoveOutcome)}
    (hlane : Lane.parse r.lane = .ok lane)
    (h : Leaves (I := calls) (attempts r lane n plan) H (perform (I := calls) .commit next)) :
    Concluding r H (next (.ok ())) := by
  induction n generalizing plan H with
  | zero => exact absurd h (not_leaves rfl (only_call rfl fun _ => trivial))
  | succ n ih =>
    obtain ⟨reply, H₁, h₁, rfl⟩ := leaves_call rfl rfl h
    obtain ⟨_, rfl, h₂⟩ := leaves_orFail rfl h₁
    obtain ⟨outcome, E, H₂, hplace, h₃, rfl⟩ := leaves_after rfl (takesNoEffect_of_within only_place) h₂
    cases outcome with
    | error error => exact absurd h₃ (not_leaves rfl (only_bind (only_abandon (fun _ => rfl) rfl) fun _ => trivial))
    | ok attempt =>
      cases attempt with
      | retry wider =>
        obtain ⟨_, _, H₃, _, h₄, rfl⟩ := leaves_after rfl (only_abandon (fun _ => rfl) rfl) h₃
        obtain ⟨_, H₄, h₅, rfl⟩ := leaves_call rfl rfl h₄
        exact ((((ih h₅).append _).append _).append _).append _
      | placed p =>
        rcases leaves_perform.1 h₃ with ⟨rfl, heq⟩ | ⟨reply, H₃, h₄, _⟩
        . cases heq
          obtain ⟨older, target, hplaced⟩ := ends_place hplace
          exact ⟨lane, p, E, older, target, [], hlane, rfl, hplaced, rfl, only_place.of_ends hplace⟩
        . obtain ⟨_, _, h₅⟩ := leaves_orFail rfl h₄
          exact absurd h₅ (not_leaves rfl (only_finish (fun _ => rfl) (fun _ => rfl) rfl))

theorem leaves_commit {next : Except StoreError Unit → Commanding (Outcome MoveOutcome)}
    (h : Leaves (I := calls) (moveTask r) H (perform (I := calls) .commit next)) : Concluding r H (next (.ok ())) := by
  obtain ⟨reply, H₁, h₁, rfl⟩ := leaves_authorized rfl h
  obtain ⟨lane, hlane, h₂⟩ := leaves_withLane h₁
  split at h₂
  . cases h₂
  . exact (leaves_attempts hlane h₂).append _

end Move

end LaneOrder
