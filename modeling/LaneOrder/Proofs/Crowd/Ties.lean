import LaneOrder.Proofs.Crowd.Arrivals

/-!
This module contains crowds of creations and moves. A creation looks at a lane without a lock, so rows may come to share a
position. A move gets into such a tie only if the gap that it has read was undercut while it was in flight.
-/

namespace LaneOrder

open Board Program

namespace Crowd

/-- Somebody has read a gap in its open transaction. What it had seen by then ends with this look. -/
def Reads (workspace : WorkspaceId) (lane : Lane) (c : Crowd) (h : Holder) (target : TaskId) (gap : Gap)
    (seen : History ops) : Prop :=
  ∃ rest anchors nearest, (c.processes h).rest = some rest ∧ gap = anchors.closed nearest
    ∧ HasRead workspace lane target anchors nearest seen (c.processes h).past

/-- A row gets into a lane at a turn. -/
structure Lands (workspace : WorkspaceId) (lane : Lane) (c : Crowd) (z : Task) (h : Holder) (t : Turn) : Prop where
  absent : z ∉ c.board.rows.lane workspace lane
  arrives : z ∈ (c.turn h t).board.rows.lane workspace lane

/-- At a turn a row gets into a gap of a lane that somebody has read for a target. -/
structure LandsIn (workspace : WorkspaceId) (lane : Lane) (c : Crowd) (z : Task) (h : Holder) (t : Turn) (reader : Holder)
    (target : TaskId) (gap : Gap) (seen : History ops) : Prop extends c.Lands workspace lane z h t where
  reads : c.Reads workspace lane reader target gap seen
  inside : gap.Contains z.position

/-- A gap was undercut since it was read, so there may be a row inside. Either the look at the end of the lane did not reach
that row, or the row was created, or somebody else had read a gap for it that overlaps. In this case the two gaps end at
different rows with one position, and each of these was locked by one of the two, or the other gap had been undercut
itself. -/
inductive Undercut (workspace : WorkspaceId) (lane : Lane) (c : Crowd) :
    List (Holder × Turn) → Holder → Gap → History ops → Prop where
  | blind {turns : List (Holder × Turn)} {h : Holder} {t : Turn} {target : TaskId} {gap : Gap} {nearest : Option Neighbor}
    {older : History ops} {z : Task}
    (hreads : ((c.run turns).turn h t).Reads workspace lane h target gap
      (⟨.action (.adjacent workspace lane Binary64.infinity .below target), nearest⟩ :: older))
    (hpast : (((c.run turns).turn h t).processes h).past
      = ⟨.action (.adjacent workspace lane Binary64.infinity .below target), nearest⟩ :: older)
    (hz : z ∈ (c.run turns).board.rows.lane workspace lane) (hid : z.id ≠ target) (hinside : gap.Contains z.position)
    (hend : ¬ z.position < Binary64.infinity) : Undercut workspace lane c (turns ++ [(h, t)]) h gap
      (⟨.action (.adjacent workspace lane Binary64.infinity .below target), nearest⟩ :: older)
  | created {turns : List (Holder × Turn)} {h reader : Holder} {t : Turn} {target : TaskId} {gap : Gap}
    {seen : History ops} {z : Task} (hlands : (c.run turns).LandsIn workspace lane z h t reader target gap seen)
    (hnew : (c.run turns).board.rows.find? z.id = none) :
    Undercut workspace lane c (turns ++ [(h, t)]) reader gap seen
  | beside {turns : List (Holder × Turn)} {h reader : Holder} {t : Turn} {target : TaskId} {gap gap' : Gap}
    {seen seen' : History ops} {z : Task} (hlands : (c.run turns).LandsIn workspace lane z h t reader target gap seen)
    (hmoves : (c.run turns).LandsIn workspace lane z h t h z.id gap' seen') (hne : reader ≠ h)
    (htied : (c.run turns).board.TiedBorders workspace lane reader h gap gap') :
    Undercut workspace lane c (turns ++ [(h, t)]) reader gap seen
  | passed {turns : List (Holder × Turn)} {h reader : Holder} {t : Turn} {target : TaskId} {gap gap' : Gap}
    {seen seen' : History ops} {z : Task} (hlands : (c.run turns).LandsIn workspace lane z h t reader target gap seen)
    (hmoves : (c.run turns).LandsIn workspace lane z h t h z.id gap' seen') (hne : reader ≠ h)
    (hundercut : Undercut workspace lane c turns h gap' seen') :
    Undercut workspace lane c (turns ++ [(h, t)]) reader gap seen
  | later {turns : List (Holder × Turn)} {h : Holder} {gap : Gap} {seen : History ops} {turn : Holder × Turn}
    (hundercut : Undercut workspace lane c turns h gap seen) : Undercut workspace lane c (turns ++ [turn]) h gap seen

/-- One row has got into a lane where another one was. Either it was created by somebody who had looked for the end of the
lane before the other one had its position there, or it was moved into a gap that had been undercut. -/
inductive Joins (workspace : WorkspaceId) (lane : Lane) (c : Crowd) (turns : List (Holder × Turn)) (z w : Task) :
    Prop where
  | created {early middle late : List (Holder × Turn)} {h : Holder} {t : Turn} {greatest : Position}
    {newer older : History ops} (hturns : turns = early ++ middle ++ (h, t) :: late)
    (hlooks : ((c.run early).processes h).past = ⟨.action (.greatest workspace lane), greatest⟩ :: older)
    (hmisses : ∀ u ∈ (c.run early).board.rows.lane workspace lane, u.id = w.id → u.position.rank ≠ w.position.rank)
    (hpast : ((c.run (early ++ middle)).processes h).past
      = newer ++ ⟨.action (.greatest workspace lane), greatest⟩ :: older)
    (hlast : ∀ e ∈ newer, ∃ call, e.op = .ambient call)
    (hlands : (c.run (early ++ middle)).Lands workspace lane z h t)
    (hnew : (c.run (early ++ middle)).board.rows.find? z.id = none)
    (hw : w ∈ (c.run (early ++ middle)).board.rows.lane workspace lane) : Joins workspace lane c turns z w
  | moved {early late : List (Holder × Turn)} {h : Holder} {t : Turn} {gap : Gap} {seen : History ops}
    (hturns : turns = early ++ (h, t) :: late) (hlands : (c.run early).LandsIn workspace lane z h t h z.id gap seen)
    (hundercut : c.Undercut workspace lane early h gap seen)
    (hw : w ∈ (c.run early).board.rows.lane workspace lane) : Joins workspace lane c turns z w

variable {c : Crowd} {b : Board} {requests : Holder → Request} {workspace : WorkspaceId} {lane : Lane} {h h' : Holder}
  {t : Turn} {target : TaskId} {gap : Gap} {seen : History ops} {x y z : Task} {turns : List (Holder × Turn)}

theorem Joins.append (hj : c.Joins workspace lane turns x y) (later : List (Holder × Turn)) :
    c.Joins workspace lane (turns ++ later) x y := by
  cases hj with
  | created hturns hlooks hmisses hpast hlast hlands hnew hw =>
    subst hturns
    rw [List.append_assoc, List.cons_append]
    exact .created rfl hlooks hmisses hpast hlast hlands hnew hw
  | moved hturns hlands hundercut hw =>
    subst hturns
    rw [List.append_assoc, List.cons_append]
    exact .moved rfl hlands hundercut hw

/-- Whoever has read a gap owns its border, and the gap is still empty or it was undercut. -/
structure Traced (requests : Holder → Request) (workspace : WorkspaceId) (lane : Lane) (c : Crowd)
    (turns : List (Holder × Turn)) : Prop where
  orderly : (c.run turns).Orderly (fun h => (requests h).protocol) (Answered requests)
  number : ∀ u ∈ (c.run turns).board.rows.lane workspace lane, u.position.isNaN = false
  gaps : ∀ h r target gap seen, requests h = .move r → (c.run turns).Reads workspace lane h target gap seen →
    OwnsBorder (c.run turns).board h workspace lane target gap
      ∧ ((c.run turns).board.IsClear workspace lane target gap ∨ c.Undercut workspace lane turns h gap seen)

section Turn

variable (hc : c.Traced requests workspace lane turns) (hapart : (c.run turns).Witnessed (·.keepsApart = true))

include hc

theorem Traced.gaps_of_self {r : MoveRequest} (hr : requests h = .move r)
    (hreads : ((c.run turns).turn h t).Reads workspace lane h target gap seen) :
    OwnsBorder ((c.run turns).turn h t).board h workspace lane target gap
      ∧ (((c.run turns).turn h t).board.IsClear workspace lane target gap
        ∨ c.Undercut workspace lane (turns ++ [(h, t)]) h gap seen) := by
  have hs := (c.run turns).steps_turn h t
  have hp := hc.orderly.processes h
  rw [hr] at hp
  have hreads' := hreads
  obtain ⟨rest, anchors, nearest, hrest, rfl, hread⟩ := hreads
  obtain ⟨hrows, howner, hcase⟩ := hs.hasRead hp hc.number hrest hread
  have hfind : ∀ id u, (c.run turns).board.locks.owner? (.row id) = some h → (c.run turns).board.rows.find? id = some u →
      ((c.run turns).turn h t).board.rows.find? id = some u := by
    intro id u _ hu
    rwa [hrows]
  have hstays : (c.run turns).board.IsClear workspace lane target (anchors.closed nearest) →
      ((c.run turns).turn h t).board.IsClear workspace lane target (anchors.closed nearest) := by
    intro hclear
    unfold IsClear
    rwa [hrows]
  rcases hcase with ⟨⟨_, hrunning⟩, hbefore⟩ | ⟨⟨older, hseen⟩, hpast, hlooks⟩
  . obtain ⟨hborder, hclear⟩ := hc.gaps h r target _ seen hr ⟨_, anchors, nearest, hrunning, rfl, hbefore⟩
    exact ⟨hborder.mono howner hfind, hclear.imp hstays .later⟩
  . refine ⟨hlooks.border.mono howner hfind, ?_⟩
    by_cases hmissed : ∃ z ∈ (c.run turns).board.rows.lane workspace lane, z.id ≠ target
        ∧ (anchors.closed nearest).Contains z.position
    . obtain ⟨z, hz, hid, hinside⟩ := hmissed
      obtain ⟨hopen, hend⟩ := hlooks.missed z hz hid hinside
      rw [Gap.lookout_of_isOpen hopen] at hseen
      subst hseen
      exact .inr (.blind hreads' hpast hz hid hinside hend)
    . exact .inl (hstays fun z hz hid hinside => hmissed ⟨z, hz, hid, hinside⟩)

include hapart

/-- A row that lands in an empty gap that somebody else has read undercuts it. -/
theorem Traced.undercut (hz : ((c.run turns).processes h).Arrives (requests h) (c.run turns).board h workspace lane z
      ((c.run turns).turn h t).board.rows) {r : MoveRequest} (hr : requests h' = .move r) (hne : h' ≠ h)
    (hclear : (c.run turns).board.IsClear workspace lane target gap)
    (hlands : (c.run turns).LandsIn workspace lane z h t h' target gap seen) :
    c.Undercut workspace lane (turns ++ [(h, t)]) h' gap seen := by
  have hborder := (hc.gaps h' r target gap seen hr hlands.reads).1
  generalize ((c.run turns).turn h t).board.rows = rows at hz
  cases hz with
  | created _ hrows => exact .created hlands (Rows.find?_of_insert hrows)
  | @moved r' rest anchors nearest a _ hq hrest hsettled hworkspace hid hposition =>
    subst hworkspace
    obtain ⟨seen', hread⟩ := hsettled.read
    have hreads : (c.run turns).Reads r'.workspace lane h r'.task (anchors.closed nearest) seen' :=
      ⟨rest, anchors, nearest, hrest, rfl, hread⟩
    have hinside := (Process.contains_of_settled hsettled hposition (hapart h)).2
    obtain ⟨hborder', hcase⟩ := hc.gaps h r' _ _ seen' hq hreads
    have hmoves : (c.run turns).LandsIn r'.workspace lane z h t h z.id (anchors.closed nearest) seen' :=
      ⟨hlands.toLands, hid ▸ hreads, hinside⟩
    rcases hcase with hclear' | hundercut
    . apply Undercut.beside hlands hmoves hne
      exact Guards.tiedBorders hc.number ⟨hborder, hclear⟩ ⟨hborder', hclear'⟩ hne hlands.inside hinside
    . exact .passed hlands hmoves hne hundercut

theorem Traced.gaps_of_ne (hq : (requests h).CreatesOrMoves) {r : MoveRequest} (hr : requests h' = .move r) (hne : h' ≠ h)
    (hreads : ((c.run turns).turn h t).Reads workspace lane h' target gap seen) :
    OwnsBorder ((c.run turns).turn h t).board h' workspace lane target gap
      ∧ (((c.run turns).turn h t).board.IsClear workspace lane target gap
        ∨ c.Undercut workspace lane (turns ++ [(h, t)]) h' gap seen) := by
  have hs := (c.run turns).steps_turn h t
  have hp := hc.orderly.processes h
  have hframe := hs.frame Request.protocol_refines hp hc.orderly.keyed hne
  unfold Reads at hreads
  rw [processes_turn_of_ne hne] at hreads
  obtain ⟨hborder, hcase⟩ := hc.gaps h' r target gap seen hr hreads
  refine ⟨hborder.mono hframe.owns hframe.rows, ?_⟩
  rcases hcase with hclear | hundercut
  . rcases hs.arrives hp hq workspace lane with hold | ⟨z, hz, harrives, hlane⟩
    . exact .inl (hclear.mono fun u hu _ => .inl (hold u hu))
    . by_cases hlands : z ∉ (c.run turns).board.rows.lane workspace lane ∧ gap.Contains z.position
      . right
        exact hc.undercut hapart hz hr hne hclear ⟨⟨hlands.1, harrives⟩, hreads, hlands.2⟩
      . left
        apply hclear.mono
        intro u hu _
        rcases hlane u hu with rfl | ⟨hu, _⟩
        . exact or_iff_not_imp_left.2 fun habsent hinside => hlands ⟨habsent, hinside⟩
        . exact .inl hu
  . exact .inr hundercut.later

end Turn

theorem greatest_of_happens {b' : Board} {greatest : Position}
    (he : Happens h b ⟨.action (.greatest workspace lane), greatest⟩ b') :
    b'.rows = b.rows ∧ greatest = b.rows.greatest workspace lane := by
  cases he with
  | givesUp ha => cases ha
  | acts ha =>
    cases ha
    exact ⟨rfl, rfl⟩

section Run

variable (hb : b.locks.Idle) (hd : b.rows.DistinctIn workspace lane) (hq : ∀ h, (requests h).CreatesOrMoves)

include hb hd hq

theorem traced_run (turns : List (Holder × Turn))
    (hapart : ((start b requests).run turns).Witnessed (·.keepsApart = true)) :
    (start b requests).Traced requests workspace lane turns := by
  induction turns using List.reverseRecOn with
  | nil =>
    refine ⟨orderly_run hb (fun h => (hq h).isCommand) [], hd.number, ?_⟩
    rintro h r target gap seen _ ⟨_, _, _, _, _, ⟨⟩⟩
  | append_singleton turns last ih =>
    obtain ⟨h, t⟩ := last
    have hrun : (start b requests).run (turns ++ [(h, t)]) = ((start b requests).run turns).turn h t := run_append
    have hbefore : ((start b requests).run turns).Witnessed (·.keepsApart = true) := by
      rw [hrun] at hapart
      exact hapart.of_turn
    have hc := ih hbefore
    constructor
    . exact orderly_run hb (fun h => (hq h).isCommand) _
    . exact number_run hb hd hq _ hapart
    . rw [hrun]
      intro h' r target gap seen hr hreads
      by_cases hne : h' = h
      . subst hne
        exact hc.gaps_of_self hr hreads
      . exact hc.gaps_of_ne hbefore (hq h) hr hne hreads

/-- If a row arrives where another one is, then this one was not there when somebody looked, or it has undercut a gap. -/
theorem joins_of_arrival (turns : List (Holder × Turn))
    (hapart : ((start b requests).run turns).Witnessed (·.keepsApart = true))
    (hz : (((start b requests).run turns).processes h).Arrives (requests h) ((start b requests).run turns).board h workspace
      lane z (((start b requests).run turns).turn h t).board.rows)
    (hlands : ((start b requests).run turns).Lands workspace lane z h t) {w : Task}
    (hw : w ∈ ((start b requests).run turns).board.rows.lane workspace lane) (hne : w.id ≠ z.id)
    (hrank : w.position.rank = z.position.rank) : (start b requests).Joins workspace lane (turns ++ [(h, t)]) z w := by
  have hc := traced_run hb hd hq turns hapart
  generalize (((start b requests).run turns).turn h t).board.rows = rows at hz
  cases hz with
  | @created _ _ greatest newer older _ hrows hpast hlast happend =>
    have hlt := hapart h _ happend
    simp only [Event.keepsApart, decide_eq_true_eq] at hlt
    have habove := (Binary64.lt_iff.1 hlt).2.2
    have hnew := Rows.find?_of_insert hrows
    -- go back to the look: the board is the one that was read then
    obtain ⟨early, t', late, next, rfl, _, hpast', hhappens⟩ := happened rfl hpast
    obtain ⟨hsame, hread⟩ := greatest_of_happens hhappens
    have hrun : (start b requests).run (early ++ [(h, t')]) = ((start b requests).run early).turn h t' := run_append
    rw [← List.singleton_append, ← List.append_assoc] at hpast hlands hw hnew ⊢
    rw [← hrun] at hpast'
    refine .created rfl hpast' ?_ hpast hlast hlands hnew hw
    intro u hu _
    rw [run_append] at hapart
    have hnumber := number_run hb hd hq early hapart.of_run
    rw [hrun, hsame] at hu
    have hle := Rows.rank_le_greatest hnumber hu
    rw [← hread] at hle
    omega
  | @moved r rest anchors nearest a _ hq' hrest hsettled hworkspace hid hposition =>
    subst hworkspace
    obtain ⟨seen, hread⟩ := hsettled.read
    have hreads : ((start b requests).run turns).Reads r.workspace lane h r.task (anchors.closed nearest) seen :=
      ⟨rest, anchors, nearest, hrest, rfl, hread⟩
    have hinside := (Process.contains_of_settled hsettled hposition (hapart h)).2
    have hundercut := (hc.gaps h r _ _ seen hq' hreads).2.resolve_left (by
      intro hclear
      exact hclear w hw (hid ▸ hne) (Between.congr hinside (hc.number w hw) hrank.symm))
    exact .moved rfl ⟨hlands, hid ▸ hreads, hinside⟩ hundercut hw

/-- However creations and moves take turns: if two live rows of a lane share a position, then the one that got there later
was created by a command that had looked at the lane before the other one was there, or it was moved into a gap that had
been undercut. -/
theorem joins_of_tie (turns : List (Holder × Turn))
    (hapart : ((start b requests).run turns).Witnessed (·.keepsApart = true)) :
    ∀ x ∈ ((start b requests).run turns).board.rows.lane workspace lane,
      ∀ y ∈ ((start b requests).run turns).board.rows.lane workspace lane, x.id ≠ y.id → x.position.rank = y.position.rank →
        (start b requests).Joins workspace lane turns x y ∨ (start b requests).Joins workspace lane turns y x := by
  induction turns using List.reverseRecOn with
  | nil =>
    intro x hx y hy hne hrank
    exact absurd (hd.distinct x hx y hy hrank) hne
  | append_singleton turns last ih =>
    obtain ⟨h, t⟩ := last
    have hrun : (start b requests).run (turns ++ [(h, t)]) = ((start b requests).run turns).turn h t := run_append
    rw [hrun] at hapart ⊢
    have hbefore : ((start b requests).run turns).Witnessed (·.keepsApart = true) := hapart.of_turn
    have ho := orderly_run hb (fun h => (hq h).isCommand) turns
    intro x hx y hy hne hrank
    by_cases hboth : x ∈ ((start b requests).run turns).board.rows.lane workspace lane
        ∧ y ∈ ((start b requests).run turns).board.rows.lane workspace lane
    . exact (ih hbefore x hboth.1 y hboth.2 hne hrank).imp (·.append _) (·.append _)
    . -- one of the two has arrived just now
      rcases (((start b requests).run turns).steps_turn h t).arrives (ho.processes h) (hq h) workspace lane with
        hold | ⟨z, hz, harrives, hlane⟩
      . exact absurd ⟨hold x hx, hold y hy⟩ hboth
      . rcases hlane x hx with rfl | ⟨hx', hxid⟩
        . rcases hlane y hy with rfl | ⟨hy', hyid⟩
          . exact absurd rfl hne
          . left
            exact joins_of_arrival hb hd hq turns hbefore hz ⟨fun hin => hboth ⟨hin, hy'⟩, harrives⟩ hy' hyid hrank.symm
        . rcases hlane y hy with rfl | ⟨hy', _⟩
          . right
            exact joins_of_arrival hb hd hq turns hbefore hz ⟨fun hin => hboth ⟨hx', hin⟩, harrives⟩ hx' hxid hrank
          . exact absurd ⟨hx', hy'⟩ hboth

end Run

section Crossing

/-- Two tasks are created in a lane at once. Then two others are each moved after one of them, while a fifth task is
created. -/
def crossRequests : Holder → Request
  | 2 => .create ⟨Sample.workspace, Sample.actor, "t", "done"⟩
  | 3 => .create ⟨Sample.workspace, Sample.actor, "t", "cancelled"⟩
  | 5 => .move ⟨Sample.workspace, Sample.id 2, Sample.actor, "todo", none, some (Sample.id 0)⟩
  | 6 => .move ⟨Sample.workspace, Sample.id 3, Sample.actor, "todo", none, some (Sample.id 1)⟩
  | _ => .create ⟨Sample.workspace, Sample.actor, "t", "todo"⟩

/-- A task is moved to the end of a lane in which two others were created. -/
def farRequests : Holder → Request
  | 2 => .create ⟨Sample.workspace, Sample.actor, "t", "done"⟩
  | 3 => .move ⟨Sample.workspace, Sample.id 2, Sample.actor, "todo", none, none⟩
  | _ => .create ⟨Sample.workspace, Sample.actor, "t", "todo"⟩

/-- Turns at which everybody who asks for a fresh identifier is given its own. -/
def ownTurns (increment : Nat) (holders : List Holder) : List (Holder × Turn) :=
  holders.map fun h => (h, .answered ⟨⟨.ofNat increment, .ofNat 1⟩, .epoch, fun _ => Sample.id h⟩)

def creationTurns : List (Holder × Turn) :=
  ownTurns 1000 [0, 0, 1, 1, 0, 0, 0, 0, 1, 1, 1, 1, 2, 2, 2, 2, 2, 2, 3, 3, 3, 3, 3, 3]

def crossTurns : List (Holder × Turn) :=
  creationTurns ++ ownTurns 1000 [4, 4, 5, 5, 5, 5, 5, 6, 6, 6, 6, 6, 5, 5, 5, 5, 5, 6, 6, 6, 6, 6, 4, 4, 4, 4]

def farTurns : List (Holder × Turn) :=
  ownTurns (Nat.pow 10 308) [0, 0, 0, 0, 0, 0, 1, 1, 1, 1, 1, 1, 2, 2, 2, 2, 2, 2, 3, 3, 3, 3, 3, 3, 3, 3, 3, 3, 3]

def crossing : Crowd :=
  start (Sample.board .empty) crossRequests

def places (c : Crowd) : List (TaskId × Lane × Position) :=
  c.board.rows.tasks.map fun t => (t.id, t.lane, t.position)

def crossTask (n : Nat) : Task :=
  .new (Sample.id n) Sample.workspace "t" .todo (.ofNat 2000) .epoch

theorem joins_of_tie_crossing :
    crossing.Joins Sample.workspace .todo crossTurns (crossTask 2) (crossTask 3)
      ∨ crossing.Joins Sample.workspace .todo crossTurns (crossTask 3) (crossTask 2) := by
  have hrequests : ∀ h, (crossRequests h).CreatesOrMoves := by
    intro h
    unfold crossRequests
    split
    . exact .inl ⟨_, rfl⟩
    . exact .inl ⟨_, rfl⟩
    . exact .inr ⟨_, rfl⟩
    . exact .inr ⟨_, rfl⟩
    . exact .inl ⟨_, rfl⟩
  have hempty : Rows.empty.DistinctIn Sample.workspace .todo := ⟨by decide, by decide⟩
  have hapart : (crossing.run crossTurns).Witnessed (·.keepsApart = true) := witnessed_run (by decide +kernel)
  apply joins_of_tie (b := Sample.board .empty) LockTable.idle_empty hempty hrequests crossTurns hapart
  . decide +kernel
  . decide +kernel
  . decide +kernel
  . rfl

/-- Two tasks that were moved share a position with each other and with one that was created meanwhile. And a task that is
moved to the end of a lane gets the same position as one at infinity, which is not seen. -/
theorem moves_share_position :
    (crossing.run crossTurns).Witnessed (·.keepsApart = true)
      ∧ (crossing.run creationTurns).places = [(Sample.id 0, .todo, .ofNat 1000), (Sample.id 1, .todo, .ofNat 1000),
        (Sample.id 2, .done, .ofNat 1000), (Sample.id 3, .cancelled, .ofNat 1000)]
      ∧ (crossing.run crossTurns).places = [(Sample.id 0, .todo, .ofNat 1000), (Sample.id 1, .todo, .ofNat 1000),
        (Sample.id 2, .todo, .ofNat 2000), (Sample.id 3, .todo, .ofNat 2000), (Sample.id 4, .todo, .ofNat 2000)]
      ∧ ((start (Sample.board .empty) farRequests).run farTurns).Witnessed (·.keepsApart = true)
      ∧ ((start (Sample.board .empty) farRequests).run farTurns).places = [(Sample.id 0, .todo, .ofNat (Nat.pow 10 308)),
        (Sample.id 1, .todo, Binary64.infinity), (Sample.id 2, .todo, Binary64.infinity)] := by
  refine ⟨witnessed_run ?_, ?_, ?_, witnessed_run ?_, ?_⟩
  . decide +kernel
  . decide +kernel
  . decide +kernel
  . decide +kernel
  . decide +kernel

end Crossing

end Crowd

end LaneOrder
