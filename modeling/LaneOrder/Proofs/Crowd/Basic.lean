import LaneOrder.Proofs.Board.Change
import LaneOrder.Proofs.Sample
import LaneOrder.Request
import Mathlib.Data.List.Induction
import Mathlib.Logic.Function.Basic

/-!
This module contains crowds: a board that is used by any number of commands at once, one for each holder. At
its turn a holder performs the next operation of its command. Whose turn it is and what calls that need no
board are answered is not settled, so a statement about every list of turns is one about every interleaving.
-/

namespace LaneOrder

open Board Program

/-- A command under way: what it did, and what is left of it unless it was dropped. -/
structure Process where
  past : History ops
  rest : Option (Working Answer)

/-- What becomes of a command at its turn: it goes on, its wait for a lock is given up because it lasted too
long, or the whole command is dropped. Before it asks for a lock it may take turns to go inside of the table of
locks and to look the lock up there. -/
inductive Turn where
  | go (answer : (c : AmbientCall) → c.Reply)
  | giveUp
  | drop
  | enter
  | lookUp

def Turn.answered (s : Surroundings) : Turn :=
  .go fun c => (s.answer {} c).1

/-- Whether a command tries to perform its next operation at a turn. -/
def Turn.performs : Turn → Bool
  | go _ | giveUp => true
  | _ => false

namespace Process

/-- The lock that a command asks for next. -/
def wants? (p : Process) : Option LockKey :=
  match p.rest with
  | some (.perform op _) => op.locks?
  | _ => none

/-- The lock that a command has to look up before it asks for it. -/
def seeks? (p : Process) (b : Board) (h : Holder) : Option LockKey :=
  p.wants?.filter fun key => (b.transaction? h).isSome && !b.locks.knows h key

/-- Go inside of the table of locks, either for a lock or to prune the table after a transaction. -/
def enter (p : Process) (b : Board) (h : Holder) : Board :=
  if (p.seeks? b h).isSome || (b.transaction? h).isNone then { b with locks := b.locks.enter h } else b

/-- Take a turn. A command that has to wait for a lock stands in its queue from then on, and performs the same
action again at its next turn. As long as somebody else is inside of the table of locks, nothing comes of a turn
at which a lock has to be looked up. -/
def turn (p : Process) (b : Board) (h : Holder) (t : Turn) : Board × Process :=
  match p.rest, t with
  | _, .enter => (p.enter b h, p)
  | _, .lookUp => ({ b with locks := b.locks.lookUp h (p.seeks? b h) }, p)
  | some (.perform _ _), .drop => (b.release h, { p with rest := none })
  | some (.perform (.ambient c) next), .go answer =>
    (b, ⟨⟨.ambient c, answer c⟩ :: p.past, some (next (answer c))⟩)
  | some (.perform (.action a) next), t =>
    if (p.seeks? b h).isSome && !b.locks.isFree h then (b, p)
    else match b.act h a, t with
      | .replied reply b, _ => (b, ⟨⟨.action a, reply⟩ :: p.past, some (next reply)⟩)
      | .blocked key refusal b, .giveUp =>
        (b.leave h key, ⟨⟨.action a, refusal⟩ :: p.past, some (next refusal)⟩)
      | .blocked _ _ b, _ => (b, p)
  | _, _ => (b, p)

def commits (p : Process) : Bool :=
  match p.rest with
  | some (.perform (.action .commit) _) => true
  | _ => false

theorem rest_of_commits {p : Process} (hc : p.commits = true) :
    ∃ next, p.rest = some (.perform (I := ops) (.action .commit) next) := by
  unfold commits at hc
  split at hc
  . next next hrest => exact ⟨next, hrest⟩
  . cases hc

inductive Steps (h : Holder) : Board → Process → Board → Process → Prop where
  | stays {b : Board} {p : Process} {locks : LockTable} (hlocks : b.locks.Visits h (p.seeks? b h) locks) :
    Steps h b p { b with locks } p
  | drops (b : Board) (past : History ops) (rest : Working Answer) :
    Steps h b ⟨past, some rest⟩ (b.release h) ⟨past, none⟩
  | answered (b : Board) (past : History ops) (c : AmbientCall)
      (next : c.Reply → Working Answer) (reply : c.Reply) :
    Steps h b ⟨past, some (.perform (I := ops) (.ambient c) next)⟩
      b ⟨⟨.ambient c, reply⟩ :: past, some (next reply)⟩
  | acts {b b' : Board} {a : Action} {reply : a.Reply} (past : History ops)
      (next : a.Reply → Working Answer) (ha : b.act h a = .replied reply b') :
    Steps h b ⟨past, some (.perform (I := ops) (.action a) next)⟩
      b' ⟨⟨.action a, reply⟩ :: past, some (next reply)⟩
  | waits {b b' : Board} {a : Action} {key : LockKey} {refusal : a.Reply} (past : History ops)
      (next : a.Reply → Working Answer) (ha : b.act h a = .blocked key refusal b') :
    Steps h b ⟨past, some (.perform (I := ops) (.action a) next)⟩
      b' ⟨past, some (.perform (I := ops) (.action a) next)⟩
  | givesUp {b b' : Board} {a : Action} {key : LockKey} {refusal : a.Reply} (past : History ops)
      (next : a.Reply → Working Answer) (ha : b.act h a = .blocked key refusal b') :
    Steps h b ⟨past, some (.perform (I := ops) (.action a) next)⟩
      (b'.leave h key) ⟨⟨.action a, refusal⟩ :: past, some (next refusal)⟩

theorem steps_enter (p : Process) (b : Board) (h : Holder) : Steps h b p (p.enter b h) p := by
  unfold enter
  split
  . exact .stays LockTable.visits_enter
  . exact .stays .refl

theorem steps_turn (p : Process) (b : Board) (h : Holder) (t : Turn) :
    Steps h b p (p.turn b h t).1 (p.turn b h t).2 := by
  obtain ⟨past, rest⟩ := p
  cases t with
  | enter => exact steps_enter ⟨past, rest⟩ b h
  | lookUp => exact .stays LockTable.visits_lookUp
  | drop =>
    match rest with
    | none | some (.done a) => exact .stays .refl
    | some (.perform op next) => exact .drops b past _
  | go answer =>
    match rest with
    | none | some (.done a) => exact .stays .refl
    | some (.perform (.ambient c) next) => exact .answered b past c next (answer c)
    | some (.perform (.action a) next) =>
      unfold turn
      dsimp only
      split
      . exact .stays .refl
      . cases ha : b.act h a with
        | replied reply b' => exact .acts past next ha
        | blocked key refusal b' => exact .waits past next ha
  | giveUp =>
    match rest with
    | none | some (.done a) => exact .stays .refl
    | some (.perform (.ambient c) next) => exact .stays .refl
    | some (.perform (.action a) next) =>
      unfold turn
      dsimp only
      split
      . exact .stays .refl
      . cases ha : b.act h a with
        | replied reply b' => exact .acts past next ha
        | blocked key refusal b' => exact .givesUp past next ha

theorem Steps.past_subset {h : Holder} {b b' : Board} {p p' : Process} (hs : Steps h b p b' p') :
    p.past ⊆ p'.past := by
  cases hs <;> simp

end Process

structure Crowd where
  board : Board
  processes : Holder → Process

namespace Crowd

def start (b : Board) (requests : Holder → Request) : Crowd :=
  ⟨b, fun h => ⟨[], some (actionsOf (requests h).program)⟩⟩

def turn (c : Crowd) (h : Holder) (t : Turn) : Crowd :=
  let (board, p) := (c.processes h).turn c.board h t
  ⟨board, Function.update c.processes h p⟩

def run (c : Crowd) (turns : List (Holder × Turn)) : Crowd :=
  turns.foldl (fun c (h, t) => c.turn h t) c

/-- All that has happened to anyone has a property. -/
def Witnessed (c : Crowd) (property : Event ops → Prop) : Prop :=
  ∀ h, ∀ e ∈ (c.processes h).past, property e

variable {c : Crowd} {h : Holder} {t : Turn} {property : Event ops → Prop}

theorem steps_turn (c : Crowd) (h : Holder) (t : Turn) :
    Process.Steps h c.board (c.processes h) (c.turn h t).board ((c.turn h t).processes h) := by
  unfold turn
  simp only [Function.update_self]
  exact Process.steps_turn ..

theorem processes_turn_self : (c.turn h t).processes h = ((c.processes h).turn c.board h t).2 := by
  unfold turn
  simp

theorem processes_turn_of_ne {h' : Holder} (hh : h' ≠ h) :
    (c.turn h t).processes h' = c.processes h' := by
  unfold turn
  simp only [Function.update_of_ne hh]

theorem run_append {before after : List (Holder × Turn)} : c.run (before ++ after) = (c.run before).run after := by
  unfold run
  rw [List.foldl_append]

theorem Witnessed.of_turn (hw : (c.turn h t).Witnessed property) : c.Witnessed property := by
  intro h' e he
  apply hw h'
  by_cases hh : h' = h
  . subst hh
    exact (c.steps_turn h' t).past_subset he
  . rw [processes_turn_of_ne hh]
    exact he

theorem past_subset_run {later : List (Holder × Turn)} : (c.processes h).past ⊆ ((c.run later).processes h).past := by
  induction later generalizing c with
  | nil => exact List.Subset.refl _
  | cons x later ih =>
    obtain ⟨h', t⟩ := x
    have hturn : (c.processes h).past ⊆ ((c.turn h' t).processes h).past := by
      by_cases hh : h = h'
      . subst hh
        exact (c.steps_turn h t).past_subset
      . rw [processes_turn_of_ne hh]
        exact List.Subset.refl _
    exact List.Subset.trans hturn ih

theorem Witnessed.of_run {later : List (Holder × Turn)} (hw : (c.run later).Witnessed property) : c.Witnessed property :=
  fun h e he => hw h e (past_subset_run he)

theorem processes_run_of_ne {turns : List (Holder × Turn)} (hh : ∀ x ∈ turns, h ≠ x.1) :
    (c.run turns).processes h = c.processes h := by
  induction turns generalizing c with
  | nil => rfl
  | cons x turns ih =>
    obtain ⟨hx, hturns⟩ := List.forall_mem_cons.1 hh
    exact (ih hturns).trans (processes_turn_of_ne hx)

theorem witnessed_run {b : Board} {requests : Holder → Request} {turns : List (Holder × Turn)}
    (hw : ∀ x ∈ turns, ∀ e ∈ (((start b requests).run turns).processes x.1).past, property e) :
    ((start b requests).run turns).Witnessed property := by
  intro h e he
  by_cases hh : ∃ x ∈ turns, x.1 = h
  . obtain ⟨x, hx, rfl⟩ := hh
    exact hw x hx e he
  . rw [processes_run_of_ne (fun x hx heq => hh ⟨x, hx, heq.symm⟩)] at he
    cases he

/-- What holds at first and is kept by every turn holds at any time. -/
theorem run_induction (property : Event ops → Prop) (inv : Crowd → Prop) (hstart : inv c)
    (hturn : ∀ c h t, inv c → (turn c h t).Witnessed property → inv (turn c h t))
    (turns : List (Holder × Turn)) (hruns : (c.run turns).Witnessed property) : inv (c.run turns) := by
  induction turns using List.reverseRecOn with
  | nil => exact hstart
  | append_singleton turns last ih =>
    have hrun : c.run (turns ++ [last]) = (c.run turns).turn last.1 last.2 := run_append
    rw [hrun] at hruns ⊢
    exact hturn _ _ _ (ih hruns.of_turn) hruns

/-- Something is true whenever somebody is about to take a turn. -/
def Along (property : Crowd → Holder → Turn → Prop) : Crowd → List (Holder × Turn) → Prop
  | _, [] => True
  | c, (h, t) :: turns => property c h t ∧ Along property (c.turn h t) turns

instance decidableAlong (property : Crowd → Holder → Turn → Prop) [∀ c h t, Decidable (property c h t)] :
    (c : Crowd) → (turns : List (Holder × Turn)) → Decidable (c.Along property turns)
  | _, [] => isTrue trivial
  | c, (h, t) :: turns =>
    have := decidableAlong property (c.turn h t) turns
    inferInstanceAs (Decidable (_ ∧ _))

theorem Along.mono {property property' : Crowd → Holder → Turn → Prop} (himp : ∀ c h t, property c h t → property' c h t)
    {turns : List (Holder × Turn)} (hc : c.Along property turns) : c.Along property' turns := by
  induction turns generalizing c with
  | nil => trivial
  | cons x turns ih => exact ⟨himp _ _ _ hc.1, ih hc.2⟩

theorem along_append {property : Crowd → Holder → Turn → Prop} {turns later : List (Holder × Turn)} :
    c.Along property (turns ++ later) ↔ c.Along property turns ∧ (c.run turns).Along property later := by
  induction turns generalizing c with
  | nil => exact (and_iff_right trivial).symm
  | cons x turns ih => exact (and_congr_right fun _ => ih).trans and_assoc.symm

theorem Along.of_append {property : Crowd → Holder → Turn → Prop} {turns later : List (Holder × Turn)}
    (hc : c.Along property (turns ++ (h, t) :: later)) : property (c.run turns) h t :=
  (along_append.1 hc).2.1

end Crowd

def Sample.turns (holders : List Holder) : List (Holder × Turn) :=
  holders.map fun h => (h, .answered surroundings)

end LaneOrder
