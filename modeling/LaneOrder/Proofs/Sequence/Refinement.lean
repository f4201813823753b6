import LaneOrder.Proofs.Sequence.Effects

/-!
This module contains sequences of commands. Somebody who follows the answers of the commands knows the lists of all lanes,
as long as no move without anchors meets a row at infinity: such a row is not seen when the end of a lane is looked for.
-/

namespace LaneOrder

open Board Program

namespace Command

def Unrounded (c : Command) (b : Board) : Prop :=
  LaneOrder.Unrounded (c.complete b).past

/-- The positions that are allocated for a command are finite. -/
def StaysFinite (c : Command) (b : Board) : Prop :=
  ∀ e ∈ (c.complete b).past, AllocatesInside e

def FindsEnd (c : Command) (b : Board) : Prop :=
  (c.complete b).answer.succeeds = true → ∀ r, c.request = .move r → ∀ lane, Lane.parse r.lane = .ok lane →
    r.FindsEnd b.rows lane

instance (c : Command) (b : Board) : Decidable (c.Unrounded b) :=
  inferInstanceAs (Decidable (LaneOrder.Unrounded _))

theorem findsEnd_of_finite (c : Command) {b : Board} (hfinite : b.rows.Finite) : c.FindsEnd b := by
  intro _ _ _ _ _ _ _
  exact Rows.endsFinite_of_finite hfinite

end Command

namespace Board

/-- Something is true of every command of a sequence, and of the board that it finds. -/
def Along (property : Command → Board → Prop) : Board → List Command → Prop
  | _, [] => True
  | b, c :: cs => property c b ∧ Along property (c.complete b).board cs

instance decidableAlong (property : Command → Board → Prop) [∀ c b, Decidable (property c b)] :
    (b : Board) → (cs : List Command) → Decidable (b.Along property cs)
  | _, [] => isTrue trivial
  | b, c :: cs =>
    have := decidableAlong property (c.complete b).board cs
    inferInstanceAs (Decidable (property c b ∧ Along property (c.complete b).board cs))

theorem Along.mono {property property' : Command → Board → Prop} (h : ∀ c b, property c b → property' c b) {b : Board}
    {cs : List Command} (hcs : b.Along property cs) : b.Along property' cs := by
  induction cs generalizing b with
  | nil => trivial
  | cons c cs ih => exact ⟨h c b hcs.1, ih hcs.2⟩

/-- After every command of a sequence the lists are those that follow from the answers. -/
def Follows : Board → Lists → List Command → Prop
  | _, _, [] => True
  | b, lists, c :: cs =>
    let lists := c.request.follow (c.complete b).answer lists
    (c.complete b).board.rows.ids = lists ∧ Follows (c.complete b).board lists cs

end Board

/-- What a command does to the lists follows from its answer if and only if it finds the end of its lane. -/
theorem Command.follows (c : Command) (hc : c.request.IsCommand) {b : Board} (hd : b.rows.Distinct)
    (hun : c.Unrounded b) :
    (c.FindsEnd b → (c.complete b).board.rows.ids = c.request.follow (c.complete b).answer b.rows.ids
      ∧ (c.complete b).board.rows.Distinct)
      ∧ (c.StaysFinite b → (c.complete b).board.rows.ids = c.request.follow (c.complete b).answer b.rows.ids →
        c.FindsEnd b) := by
  obtain ⟨h, q, replies⟩ := c
  rcases Command.effective ⟨h, q, replies⟩ hc b with ⟨hfails, hrows⟩ | ⟨hsucceeds, newer, e, older, hpast, he⟩
  . unfold Request.follow FindsEnd
    rw [hfails, hrows]
    simp [hd]
  . have holder : older ⊆ (Command.complete ⟨h, q, replies⟩ b).past := by
      rw [hpast]
      simp
    have hold := hun.mono holder
    unfold Request.follow FindsEnd
    rw [if_pos hsucceeds]
    cases q with
    | move r =>
      obtain ⟨lane, hlane, hends, hback⟩ := he.move hd hold.apart
      dsimp only at *
      rw [hlane]
      refine ⟨fun hfinds => hends (hfinds hsucceeds r rfl lane hlane), ?_⟩
      rintro hfinite hids _ _ ⟨⟩ lane' hlane'
      rw [hlane] at hlane'
      cases hlane'
      exact hback (fun e he => hfinite e (holder he)) hids
    | create r =>
      obtain ⟨t, lane, hanswer, hlane, hids⟩ := he.create hd hold.apart
      dsimp only at *
      rw [hanswer]
      dsimp only
      rw [hlane]
      refine ⟨fun _ => hids, ?_⟩
      rintro _ _ _ _ ⟨⟩
    | renormalize r =>
      refine ⟨fun _ => he.renormalize hd hold, ?_⟩
      rintro _ _ _ _ ⟨⟩
    | call c =>
      obtain ⟨workspace, id, rfl⟩ := hc
      refine ⟨fun _ => he.delete hd, ?_⟩
      rintro _ _ _ _ ⟨⟩

/-- If no position is rounded to another one, the lists of all lanes follow from the answers as long as moves without
anchors find the ends of their lanes. If only finite positions are allocated, they follow only as long as this is so. -/
theorem lists_after_commands {b : Board} (hd : b.rows.Distinct) (cs : List Command)
    (hcommands : ∀ c ∈ cs, c.request.IsCommand) (hun : b.Along Command.Unrounded cs) :
    (b.Along Command.FindsEnd cs → b.Follows b.rows.ids cs)
      ∧ (b.Along Command.StaysFinite cs → (b.Follows b.rows.ids cs ↔ b.Along Command.FindsEnd cs)) := by
  have hboth : (b.Along Command.FindsEnd cs → b.Follows b.rows.ids cs)
      ∧ (b.Along Command.StaysFinite cs → b.Follows b.rows.ids cs → b.Along Command.FindsEnd cs) := by
    -- both directions together, since the rows stay distinct only as long as the ends are found
    induction cs generalizing b with
    | nil => exact ⟨fun _ => trivial, fun _ _ => trivial⟩
    | cons c cs ih =>
      obtain ⟨hc, hcs⟩ := List.forall_mem_cons.1 hcommands
      obtain ⟨hfollow, hback⟩ := c.follows hc hd hun.1
      constructor
      . rintro ⟨hfinds, hrest⟩
        obtain ⟨hids, hdistinct⟩ := hfollow hfinds
        refine ⟨hids, ?_⟩
        rw [← hids]
        exact (ih hdistinct hcs hun.2).1 hrest
      . rintro ⟨hfinite, hrest⟩ ⟨hids, hfollows⟩
        have hfinds := hback hfinite hids
        obtain ⟨_, hdistinct⟩ := hfollow hfinds
        refine ⟨hfinds, (ih hdistinct hcs hun.2).2 hrest ?_⟩
        rw [hids]
        exact hfollows
  exact ⟨hboth.1, fun hfinite => ⟨hboth.2 hfinite, hboth.1⟩⟩

section Sample

def Sample.commands (increment : Nat) (requests : List Request) : List Command :=
  let s : Surroundings := { Sample.surroundings with allocator := ⟨.ofNat increment, .ofNat 1⟩ }
  requests.map fun q => ⟨0, q, fun _ c => (s.answer {} c).1⟩

def Sample.twoLanes (position : Nat) : Rows where
  tasks := [Sample.task 1 .todo position, Sample.task 2 .done 1]
  nodup := show [Sample.id 1, Sample.id 2].Nodup by decide

def Sample.mixed : List Request := [
  .create ⟨Sample.workspace, Sample.actor, "t", "todo"⟩,
  .move ⟨Sample.workspace, Sample.id 2, Sample.actor, "todo", none, none⟩,
  .move ⟨Sample.workspace, Sample.id 2, Sample.actor, "todo", none, some (Sample.id 1)⟩,
  .renormalize ⟨Sample.workspace, Sample.actor, "todo"⟩,
  .call (.delete Sample.workspace (Sample.id 1))]

def Sample.immense : Nat :=
  Nat.pow 10 308

def Sample.far : List Request := [
  .create ⟨Sample.workspace, Sample.actor, "t", "todo"⟩,
  .call (.delete Sample.workspace (Sample.id 1)),
  .move ⟨Sample.workspace, Sample.id 2, Sample.actor, "todo", none, none⟩]

theorem lists_after_commands_mixed :
    (Sample.board (Sample.twoLanes 1000)).Along (fun c b => (c.complete b).answer.succeeds = true)
        (Sample.commands 1000 Sample.mixed)
      ∧ (Sample.board (Sample.twoLanes 1000)).Follows (Sample.twoLanes 1000).ids
        (Sample.commands 1000 Sample.mixed) := by
  have hd : (Sample.twoLanes 1000).Distinct := Rows.distinct_of_tasks (by decide +kernel) (by decide +kernel)
  have hcommands : ∀ c ∈ Sample.commands 1000 Sample.mixed, c.request.IsCommand := by
    intro c hc
    obtain ⟨q, hq, rfl⟩ := List.mem_map.1 hc
    have hmixed : ∀ q ∈ Sample.mixed, q.IsCommand := by simp [Sample.mixed, Request.IsCommand]
    exact hmixed q hq
  have hun : (Sample.board (Sample.twoLanes 1000)).Along Command.Unrounded (Sample.commands 1000 Sample.mixed) := by
    decide +kernel
  have hfinite : (Sample.board (Sample.twoLanes 1000)).Along (fun _ b => b.rows.Finite)
      (Sample.commands 1000 Sample.mixed) := by
    decide +kernel
  refine ⟨by decide +kernel, ?_⟩
  exact (lists_after_commands hd _ hcommands hun).1 (hfinite.mono fun c _ => c.findsEnd_of_finite)

/-- The task that is created is at infinity, so the last move takes the task below it for the end of the lane. -/
theorem move_misses_end : (Sample.twoLanes Sample.immense).Distinct ∧ (Sample.twoLanes Sample.immense).Finite
    ∧ (Sample.board (Sample.twoLanes Sample.immense)).Along Command.Unrounded (Sample.commands Sample.immense Sample.far)
    ∧ ¬ (Sample.board (Sample.twoLanes Sample.immense)).Follows (Sample.twoLanes Sample.immense).ids
      (Sample.commands Sample.immense Sample.far) := by
  refine ⟨Rows.distinct_of_tasks (by decide +kernel) (by decide +kernel), by decide +kernel, by decide +kernel, ?_⟩
  rintro ⟨_, _, hmoved, _⟩
  -- after the third command the lists of the lane differ
  have hlist := congrFun (congrFun hmoved Sample.workspace) Lane.todo
  revert hlist
  decide +kernel

end Sample

end LaneOrder
