import LaneOrder.Command.Gap
import LaneOrder.Proofs.Command.Protocol
import LaneOrder.Proofs.Sort

/-!
This module contains how a gap is secured, whatever a store answers: what a transaction notes as locked was returned
under its lock, and the gap that it settles for was read after all rows of its border were locked.
-/

namespace LaneOrder

open Program

namespace Gap

def lookout (anchors : Gap) : Position × Direction :=
  match anchors.before, anchors.after with
  | _, some after => (after.position, .above)
  | some before, none => (before.position, .below)
  | none, none => (Binary64.infinity, .below)

theorem lookout_of_isOpen {anchors : Gap} (hopen : anchors.isOpen = true) :
    anchors.lookout = (Binary64.infinity, .below) := by
  obtain ⟨before, after⟩ := anchors
  cases before <;> cases after <;> first | rfl | cases hopen

def closed (anchors : Gap) (nearest : Option Neighbor) : Gap :=
  match anchors.before, anchors.after with
  | some before, some after =>
    ⟨some ((nearest.filter fun row => row.position < before.position).getD before), some after⟩
  | some before, none => ⟨some before, nearest⟩
  | none, some after => ⟨nearest, some after⟩
  | none, none => ⟨none, nearest⟩

theorem find_eq (workspace : WorkspaceId) (lane : Lane) (target : TaskId) (anchors : Gap) :
    find workspace lane target anchors
      = call (.adjacent workspace lane anchors.lookout.1 anchors.lookout.2 target) >>= fun reply =>
        .done (reply.map anchors.closed) := by
  obtain ⟨before, after⟩ := anchors
  unfold find
  cases before <;> cases after <;> simp only [lookout, call]
  all_goals
    congr
    funext reply
    cases reply <;> rfl

/-- A transaction has asked for no row above the highest one that it notes, and it has neither locked a lane nor written
a row. -/
structure Noted (held : HeldLocks) (t : History calls) : Prop where
  highest : ∀ e ∈ t, ∀ id, e.op.asks? = some id → ∃ highest, held.highest = some highest ∧ ¬ highest < id
  locksLane : ∀ e ∈ t, e.op.locksLane = false
  unwritten : ∀ e ∈ t, e.op.persists? = none

/-- What a transaction notes as locked was returned under its lock, and what it asked for it notes. -/
structure Backed (held : HeldLocks) (workspace : WorkspaceId) (lane : Lane) (t : History calls) : Prop where
  rows : ∀ id, held.holds id = true → ∃ row, Returned t row ∧ row.id = id
  highest : ∀ e ∈ t, ∀ id, e.op.asks? = some id → ∃ highest, held.highest = some highest ∧ ¬ highest < id
  seed : held.laneSeed = true → Seeds t workspace lane
  locksLane : ∀ e ∈ t, e.op.locksLane = false
  unwritten : ∀ e ∈ t, e.op.persists? = none

variable {held : HeldLocks} {workspace : WorkspaceId} {lane : Lane} {H t : History calls} {e : Event calls} {id : TaskId}

theorem mayWaitFor_iff : held.mayWaitFor id = true ↔ ∀ highest, held.highest = some highest → highest < id := by
  unfold HeldLocks.mayWaitFor
  cases held.highest <;> simp

theorem Backed.noted (hb : Backed held workspace lane t) : Noted held t :=
  ⟨hb.highest, hb.locksLane, hb.unwritten⟩

theorem Noted.lt_of_mayWaitFor (hn : Noted held t) (hid : held.mayWaitFor id = true) :
    ∀ e ∈ t, ∀ other, e.op.asks? = some other → other < id := by
  intro e he other hasks
  obtain ⟨highest, hhighest, hle⟩ := hn.highest e he other hasks
  have hlt := mayWaitFor_iff.1 hid highest hhighest
  rw [TaskId.lt_iff] at *
  omega

theorem Noted.push (hn : Noted held t) (hasks : e.op.asks? = none) (hlane : e.op.locksLane = false)
    (hpersists : e.op.persists? = none) : Noted held (e :: t) where
  highest := by
    rw [List.forall_mem_cons]
    constructor
    . simp [hasks]
    . exact hn.highest
  locksLane := List.forall_mem_cons.2 ⟨hlane, hn.locksLane⟩
  unwritten := List.forall_mem_cons.2 ⟨hpersists, hn.unwritten⟩

theorem Backed.push (hb : Backed held workspace lane t) (hasks : e.op.asks? = none) (hlane : e.op.locksLane = false)
    (hpersists : e.op.persists? = none) : Backed held workspace lane (e :: t) where
  rows id hid := by
    obtain ⟨row, hrow, hrid⟩ := hb.rows id hid
    exact ⟨row, hrow.mono (List.subset_cons_self e t), hrid⟩
  highest := (hb.noted.push hasks hlane hpersists).highest
  seed hseed := (hb.seed hseed).mono (List.subset_cons_self e t)
  locksLane := (hb.noted.push hasks hlane hpersists).locksLane
  unwritten := (hb.noted.push hasks hlane hpersists).unwritten

theorem Backed.seeded (hb : Backed held workspace lane t) (hseed : Seeds t workspace lane) :
    Backed held.seeded workspace lane t where
  rows := hb.rows
  highest := hb.highest
  seed _ := hseed
  locksLane := hb.locksLane
  unwritten := hb.unwritten

theorem highest_attempted : ∃ highest, (held.attempted id).highest = some highest ∧ ¬ highest < id := by
  unfold HeldLocks.attempted
  split
  . exact ⟨id, rfl, TaskId.lt_irrefl id⟩
  . next hwait =>
    unfold HeldLocks.mayWaitFor at hwait
    cases hhighest : held.highest with
    | none => simp [hhighest] at hwait
    | some highest => exact ⟨highest, rfl, by simpa [hhighest] using hwait⟩

theorem highest_attempted_of_highest {other highest : TaskId} (hhighest : held.highest = some highest)
    (hle : ¬ highest < other) : ∃ highest, (held.attempted id).highest = some highest ∧ ¬ highest < other := by
  unfold HeldLocks.attempted
  split
  . next hwait =>
    have hlt := mayWaitFor_iff.1 hwait highest hhighest
    refine ⟨id, rfl, ?_⟩
    rw [TaskId.lt_iff] at *
    omega
  . exact ⟨highest, hhighest, hle⟩

theorem laneSeed_attempted : (held.attempted id).laneSeed = held.laneSeed := by
  unfold HeldLocks.attempted
  split <;> rfl

theorem attempted_attempted : (held.attempted id).attempted id = held.attempted id := by
  have hwait : (held.attempted id).mayWaitFor id = false := by
    obtain ⟨highest, hhighest, hle⟩ : ∃ highest, (held.attempted id).highest = some highest ∧ ¬ highest < id :=
      highest_attempted
    unfold HeldLocks.mayWaitFor
    simp [hhighest, hle]
  rw [HeldLocks.attempted]
  simp [hwait]

theorem locked_attempted : (held.attempted id).locked id = held.locked id := by
  unfold HeldLocks.locked
  rw [attempted_attempted]

theorem mayWaitFor_attempted {other : TaskId} (hwait : held.mayWaitFor id = true) (hlt : id < other) :
    (held.attempted id).mayWaitFor other = true := by
  unfold HeldLocks.attempted
  rw [if_pos hwait]
  simpa [HeldLocks.mayWaitFor] using hlt

theorem Noted.attempted (hn : Noted held t) (hasks : e.op.asks? = some id) (hlane : e.op.locksLane = false)
    (hpersists : e.op.persists? = none) : Noted (held.attempted id) (e :: t) where
  highest := by
    rw [List.forall_mem_cons]
    constructor
    . intro other hother
      rw [hasks] at hother
      cases hother
      exact highest_attempted
    . intro e' he' other hother
      obtain ⟨highest, hhighest, hle⟩ := hn.highest e' he' other hother
      exact highest_attempted_of_highest hhighest hle
  locksLane := List.forall_mem_cons.2 ⟨hlane, hn.locksLane⟩
  unwritten := List.forall_mem_cons.2 ⟨hpersists, hn.unwritten⟩

theorem Backed.attempted (hb : Backed held workspace lane t) (hasks : e.op.asks? = some id)
    (hlane : e.op.locksLane = false) (hpersists : e.op.persists? = none) :
    Backed (held.attempted id) workspace lane (e :: t) where
  rows other hother := by
    rw [HeldLocks.holds_attempted] at hother
    obtain ⟨row, hrow, hrid⟩ := hb.rows other hother
    exact ⟨row, hrow.mono (List.subset_cons_self e t), hrid⟩
  highest := (hb.noted.attempted hasks hlane hpersists).highest
  seed hseed := by
    rw [laneSeed_attempted] at hseed
    exact (hb.seed hseed).mono (List.subset_cons_self e t)
  locksLane := (hb.noted.attempted hasks hlane hpersists).locksLane
  unwritten := (hb.noted.attempted hasks hlane hpersists).unwritten

theorem Backed.locked (hb : Backed (held.attempted id) workspace lane t) {row : Task} (hrow : Returned t row)
    (hid : row.id = id) : Backed (held.locked id) workspace lane t where
  rows other hother := by
    rw [HeldLocks.holds_locked] at hother
    by_cases heq : other = id
    . exact ⟨row, hrow, hid.trans heq.symm⟩
    . apply hb.rows other
      rw [HeldLocks.holds_attempted]
      simpa [heq] using hother
  highest := hb.highest
  seed := hb.seed
  locksLane := hb.locksLane
  unwritten := hb.unwritten

def Uses (workspace : WorkspaceId) (lane : Lane) : Call → Prop
  | .ambient _ => True
  | .lockNeighbor w l _ | .tryLockNeighbor w l _ | .tryLockSeed w l | .adjacent w l .. => w = workspace ∧ l = lane
  | _ => False

def protocol (workspace : WorkspaceId) (lane : Lane) : Protocol calls where
  honest := callDiscipline.honest
  allowed H c := c.Allowed H ∧ Uses workspace lane c

theorem Noted.allowed_await (hn : Noted held t) (ht : transacted H = some t) {c : Call}
    (hawaits : c.awaits? = some id) (hbelow : ∀ e ∈ t, ∀ other, e.op.asks? = some other → other < id) :
    c.Allowed H := by
  have hasks : c.locksLane = false ∧ c.persists? = none ∧ c.isEnd = false := by
    cases c <;> cases hawaits <;> exact ⟨rfl, rfl, rfl⟩
  constructor
  . intro other hother
    rw [hawaits] at hother
    cases hother
    exact ⟨t, ht, fun e he => ⟨hn.locksLane e he, hbelow e he⟩⟩
  . rintro (hlane | ⟨_, _, rfl⟩)
    . rw [hasks.1] at hlane
      cases hlane
    . cases hawaits
  . exact fun _ => ⟨t, ht, hn.unwritten⟩
  . simp [hasks]
  . simp [hasks]

theorem Noted.allowed_prepare (hn : Noted held t) (ht : transacted H = some t) {c : Call}
    (hawaits : c.awaits? = none) (hprepares : c.prepares = true) (hlane : c.locksLane = false)
    (hseed : ∀ workspace lane, c ≠ .lockSeed workspace lane) : c.Allowed H := by
  have hrest : c.persists? = none ∧ c.isEnd = false := by
    cases c <;> cases hprepares <;> exact ⟨rfl, rfl⟩
  constructor
  . simp [hawaits]
  . rintro (hlane' | ⟨workspace, lane, rfl⟩)
    . rw [hlane] at hlane'
      cases hlane'
    . exact absurd rfl (hseed workspace lane)
  . exact fun _ => ⟨t, ht, hn.unwritten⟩
  . simp [hrest]
  . simp [hrest]

theorem plain_of_uses {c : Call} (h : Uses workspace lane c) :
    c.starts = false ∧ c.ends = false ∧ c.locksLane = false ∧ c.persists? = none := by
  cases c <;> first | exact ⟨rfl, rfl, rfl, rfl⟩ | exact h.elim

theorem Noted.allowed_ask (hn : Noted held t) (ht : transacted H = some t) {c : Call} (hasks : c.asks? = some id)
    (hwait : c.awaits? = some id → held.mayWaitFor id = true) : c.Allowed H := by
  cases c with
  | lockTarget | lockNeighbor =>
    cases hasks
    exact hn.allowed_await ht rfl (hn.lt_of_mayWaitFor (hwait rfl))
  | tryLockNeighbor => exact hn.allowed_prepare ht rfl rfl rfl (by simp)
  | _ => cases hasks

theorem Noted.allowed_pass (hn : Noted held t) (ht : transacted H = some t) {c : Call} (huses : Uses workspace lane c)
    (hasks : c.asks? = none) : c.Allowed H := by
  cases c with
  | ambient => exact Call.allowed_of_idle rfl rfl rfl rfl
  | adjacent | tryLockSeed => exact hn.allowed_prepare ht rfl rfl rfl (by simp)
  | lockNeighbor | tryLockNeighbor => cases hasks
  | _ => exact huses.elim

section Kept

variable {P : Protocol calls} {known : TaskId → Prop} {kept : HeldLocks → History calls → Prop} {target : TaskId}
  {anchors : Gap}

/-- What is true of the locks that are held and of all calls before stays true, whatever known row is asked for. -/
structure KeptByLocks (P : Protocol calls) (workspace : WorkspaceId) (lane : Lane) (known : TaskId → Prop)
    (kept : HeldLocks → History calls → Prop) : Prop where
  asks : ∀ {held H id} {c : Call}, kept held H → Uses workspace lane c → c.asks? = some id → known id →
    (c.awaits? = some id → held.mayWaitFor id = true) → P.allowed H c
  attempted : ∀ {held H id} {e : Event calls}, kept held H → e.op.asks? = some id → kept (held.attempted id) (e :: H)
  locked : ∀ {held H id} {e : Event calls} {row : Task}, kept held H → e.op.asks? = some id →
    P.honest e.op e.reply → row ∈ e.returned → kept (held.locked id) (e :: H)

/-- It stays true also when the gap is read or the seed of the lane is asked for. -/
structure KeptByChecks (P : Protocol calls) (workspace : WorkspaceId) (lane : Lane) (known : TaskId → Prop)
    (kept : HeldLocks → History calls → Prop) : Prop extends KeptByLocks P workspace lane known kept where
  passes : ∀ {held H} {c : Call}, kept held H → Uses workspace lane c → c.asks? = none → P.allowed H c
  passed : ∀ {held H} {e : Event calls}, kept held H → Uses workspace lane e.op → e.op.asks? = none → kept held (e :: H)
  seeded : ∀ {held H}, kept held H → kept held.seeded (⟨.tryLockSeed workspace lane, .ok true⟩ :: H)

/-- What is true after rows were locked, or one of them was found busy by the last call. -/
def Locking.Follows (workspace : WorkspaceId) (lane : Lane) (known : TaskId → Prop)
    (kept : HeldLocks → History calls → Prop) (H : History calls) : Except StoreError Locking → Prop
  | .ok (.held held) => kept held H
  | .ok (.busy id) => known id ∧ (∃ older, H = ⟨.tryLockNeighbor workspace lane id, .ok none⟩ :: older)
    ∧ ∃ held, kept held H
  | .error _ => ∃ held, kept held H

/-- What is true after a gap was secured: the rows of its border or the seed were held when it was read. -/
def Securing.Follows (workspace : WorkspaceId) (lane : Lane) (target : TaskId) (anchors : Gap) (known : TaskId → Prop)
    (kept : HeldLocks → History calls → Prop) (H : History calls) : Except StoreError Securing → Prop
  | .ok (.secured gap) => ∃ nearest held older,
    H = ⟨.adjacent workspace lane anchors.lookout.1 anchors.lookout.2 target, .ok nearest⟩ :: older
      ∧ gap = anchors.closed nearest ∧ kept held older ∧ (∀ id ∈ gap.rows, held.holds id = true)
      ∧ (gap.isOpen = true → held.laneSeed = true)
  | .ok (.restart bounds _) => (∀ id ∈ bounds, known id) ∧ ∃ held, kept held H
  | .error _ => ∃ held, kept held H

theorem KeptByChecks.kept_of_follows (h : KeptByChecks P workspace lane known kept) {reply : Except StoreError Securing}
    (hreply : Securing.Follows workspace lane target anchors known kept H reply) : ∃ held, kept held H := by
  cases reply with
  | error e => exact hreply
  | ok securing =>
    cases securing with
    | restart bounds laneSeed => exact hreply.2
    | secured gap =>
      obtain ⟨nearest, held, older, rfl, _, hk, _⟩ := hreply
      exact ⟨held, h.passed hk ⟨rfl, rfl⟩ rfl⟩

theorem KeptByLocks.obeys_lockRows (h : KeptByLocks P workspace lane known kept) {ids : List TaskId}
    (hids : ∀ id ∈ ids, known id) (hk : kept held H) :
    Obeys P (Locking.Follows workspace lane known kept) (lockRows workspace lane held ids) H := by
  induction ids generalizing held H with
  | nil => exact hk
  | cons id ids ih =>
    obtain ⟨hid, hids⟩ := List.forall_mem_cons.1 hids
    unfold lockRows
    split
    . next hwait =>
      apply obeys_bind
      apply obeys_ask
      . exact h.asks hk ⟨rfl, rfl⟩ rfl hid fun _ => hwait
      . intro reply hreply
        cases reply with
        | ok row => exact ih hids (h.locked hk rfl hreply (List.mem_singleton_self row))
        | error e =>
          have hk' := h.attempted (e := ⟨.lockNeighbor workspace lane id, .error e⟩) hk rfl
          cases e with
          | notFound => exact ih hids hk'
          | _ => exact ⟨_, hk'⟩
    . apply obeys_bind
      apply obeys_ask
      . exact h.asks hk ⟨rfl, rfl⟩ rfl hid nofun
      . intro reply hreply
        cases reply with
        | ok row =>
          cases row with
          | some row => exact ih hids (h.locked hk rfl hreply (List.mem_singleton_self row))
          | none => exact ⟨hid, ⟨H, rfl⟩, _, h.attempted hk rfl⟩
        | error e => exact ⟨_, h.attempted hk rfl⟩

theorem mem_missing {gap : Gap} {id : TaskId} : id ∈ gap.missing held ↔ id ∈ gap.rows ∧ held.holds id = false := by
  unfold missing
  simp

theorem missing_eq_nil {gap : Gap} : gap.missing held = [] ↔ ∀ id ∈ gap.rows, held.holds id = true := by
  simp [List.eq_nil_iff_forall_not_mem, mem_missing]

theorem KeptByChecks.obeys_secure (h : KeptByChecks P workspace lane known kept) {checks : Nat}
    (hshown : ∀ nearest, P.honest (.adjacent workspace lane anchors.lookout.1 anchors.lookout.2 target) (.ok nearest) →
      ∀ id ∈ (anchors.closed nearest).rows, known id) (hk : kept held H) :
    Obeys P (Securing.Follows workspace lane target anchors known kept) (secure workspace lane target anchors checks held)
      H := by
  induction checks generalizing held H with
  | zero =>
    apply obeys_bind
    apply obeys_ask
    . exact h.passes hk trivial rfl
    . intro _ _
      exact ⟨List.forall_mem_nil _, held, h.passed hk trivial rfl⟩
  | succ checks ih =>
    unfold secure
    rw [find_eq]
    apply obeys_bind
    apply obeys_bind
    apply obeys_ask
    . exact h.passes hk ⟨rfl, rfl⟩ rfl
    . intro reply hreply
      have hread : kept held (⟨.adjacent workspace lane anchors.lookout.1 anchors.lookout.2 target, reply⟩ :: H) :=
        h.passed hk ⟨rfl, rfl⟩ rfl
      cases reply with
      | error e => exact ⟨held, hread⟩
      | ok nearest =>
        change Obeys _ _ (ite _ _ _) _
        split
        . next hmissing =>
          split
          . next hclosed =>
            -- what is held was locked before the gap was read, so it may be used
            refine ⟨nearest, held, H, rfl, rfl, hk, missing_eq_nil.1 (List.isEmpty_iff.1 hmissing), ?_⟩
            intro hopen
            simpa [hopen] using hclosed
          . apply obeys_bind
            apply obeys_ask
            . exact h.passes hread ⟨rfl, rfl⟩ rfl
            . intro reply _
              have htried : kept held (⟨.tryLockSeed workspace lane, reply⟩ :: _) := h.passed hread ⟨rfl, rfl⟩ rfl
              cases reply with
              | error e => exact ⟨held, htried⟩
              | ok taken =>
                cases taken with
                | false => exact ⟨List.forall_mem_nil _, held, htried⟩
                | true => exact ih (h.seeded hread)
        . have hids : ∀ id ∈ (anchors.closed nearest).missing held, known id :=
            fun id hid => hshown nearest hreply id (mem_missing.1 hid).1
          apply obeys_bind
          apply (h.obeys_lockRows hids hread).mono
          intro H' reply hfollows
          cases reply with
          | error e => exact hfollows
          | ok locking =>
            cases locking with
            | busy id => exact ⟨List.forall_mem_singleton.2 hfollows.1, hfollows.2.2⟩
            | held held => exact ih hfollows

/-- All calls that secure a gap belong to one transaction. What is true of its calls is kept if every single call keeps
it, and if it includes all that the order of locks depends on. -/
theorem keptByChecks_of_noted {inv : HeldLocks → History calls → Prop}
    (hP : ∀ {H} {c : Call}, c.Allowed H → Uses workspace lane c → P.allowed H c)
    (hnoted : ∀ {held t}, inv held t → Noted held t)
    (hpush : ∀ {held t} {e : Event calls}, inv held t →
      e.op.asks? = none → e.op.locksLane = false → e.op.persists? = none → inv held (e :: t))
    (hattempted : ∀ {held : HeldLocks} {t id} {e : Event calls}, inv held t →
      e.op.asks? = some id → e.op.locksLane = false → e.op.persists? = none → inv (held.attempted id) (e :: t))
    (hlocked : ∀ {held : HeldLocks} {t id} {e : Event calls} {row : Task}, inv (held.attempted id) (e :: t) →
      e.op.asks? = some id → P.honest e.op e.reply → row ∈ e.returned → inv (held.locked id) (e :: t))
    (hseeded : ∀ {held : HeldLocks} {t}, inv held (⟨.tryLockSeed workspace lane, .ok true⟩ :: t) →
      inv held.seeded (⟨.tryLockSeed workspace lane, .ok true⟩ :: t)) :
    KeptByChecks P workspace lane (fun _ => True)
      fun held H => ∃ t', transacted H = some t' ∧ t ⊆ t' ∧ inv held t' where
  asks hk huses hasks _ hwait := by
    obtain ⟨t', ht', _, hi⟩ := hk
    exact hP ((hnoted hi).allowed_ask ht' hasks hwait) huses
  attempted hk hasks := by
    obtain ⟨t', ht', hsub, hi⟩ := hk
    obtain ⟨hs, he, hlane, hpersists⟩ := Call.plain_of_asks hasks
    exact ⟨_, transacted_push hs he ht', List.subset_cons_of_subset _ hsub, hattempted hi hasks hlane hpersists⟩
  locked hk hasks hhonest hrow := by
    obtain ⟨t', ht', hsub, hi⟩ := hk
    obtain ⟨hs, he, hlane, hpersists⟩ := Call.plain_of_asks hasks
    have hi' := hattempted hi hasks hlane hpersists
    exact ⟨_, transacted_push hs he ht', List.subset_cons_of_subset _ hsub, hlocked hi' hasks hhonest hrow⟩
  passes hk huses hasks := by
    obtain ⟨t', ht', _, hi⟩ := hk
    exact hP ((hnoted hi).allowed_pass ht' huses hasks) huses
  passed hk huses hasks := by
    obtain ⟨t', ht', hsub, hi⟩ := hk
    obtain ⟨hs, he, hlane, hpersists⟩ := plain_of_uses huses
    exact ⟨_, transacted_push hs he ht', List.subset_cons_of_subset _ hsub, hpush hi hasks hlane hpersists⟩
  seeded hk := by
    obtain ⟨t', ht', hsub, hi⟩ := hk
    exact ⟨_, transacted_push rfl rfl ht', List.subset_cons_of_subset _ hsub, hseeded (hpush hi rfl rfl rfl)⟩

end Kept

section Secure

variable {target : TaskId} {anchors : Gap}

/-- A gap was read after all rows of its border were locked, or after the seed of the lane was locked if there is no
row at its border. -/
structure Bounded (workspace : WorkspaceId) (lane : Lane) (gap : Gap) (older : History calls) : Prop where
  rows : ∀ id ∈ gap.rows, ∃ row, Returned older row ∧ row.id = id
  seed : gap.isOpen = true → Seeds older workspace lane

def Securing.IsBounded (workspace : WorkspaceId) (lane : Lane) (target : TaskId) (anchors : Gap)
    (t t' : History calls) : Except StoreError Securing → Prop
  | .ok (.secured gap) => ∃ nearest older,
    t' = ⟨.adjacent workspace lane anchors.lookout.1 anchors.lookout.2 target, .ok nearest⟩ :: older
      ∧ gap = anchors.closed nearest ∧ t ⊆ older ∧ Bounded workspace lane gap older
      ∧ ∀ e ∈ older, e.op.persists? = none
  | _ => True

theorem keptByChecks_backed : KeptByChecks (protocol workspace lane) workspace lane (fun _ => True)
    fun held H => ∃ t', transacted H = some t' ∧ t ⊆ t' ∧ Backed held workspace lane t' := by
  apply keptByChecks_of_noted
  . exact fun hallowed huses => ⟨hallowed, huses⟩
  . exact Backed.noted
  . exact Backed.push
  . exact Backed.attempted
  . exact fun hb hasks hfaithful hrow =>
      hb.locked ⟨_, List.mem_cons_self, hrow⟩ (hfaithful _ hasks _ hrow)
  . exact fun hb => hb.seeded ⟨_, List.mem_cons_self, rfl⟩

theorem obeys_secure {checks : Nat} (ht : transacted H = some t) (hb : Backed held workspace lane t) :
    Obeys (protocol workspace lane)
      (fun H' reply => ∃ t', transacted H' = some t' ∧ Securing.IsBounded workspace lane target anchors t t' reply)
      (secure workspace lane target anchors checks held) H := by
  apply (keptByChecks_backed.obeys_secure (fun _ _ _ _ => trivial) ⟨t, ht, List.Subset.refl t, hb⟩).mono
  intro H' reply hreply
  cases reply with
  | error e =>
    obtain ⟨_, t', ht', _, _⟩ := hreply
    exact ⟨t', ht', trivial⟩
  | ok securing =>
    cases securing with
    | restart bounds laneSeed =>
      obtain ⟨_, _, t', ht', _, _⟩ := hreply
      exact ⟨t', ht', trivial⟩
    | secured gap =>
      obtain ⟨nearest, held', older, rfl, rfl, ⟨t', ht', hsub, hb'⟩, hrows, hseed⟩ := hreply
      refine ⟨_, transacted_push rfl rfl ht', nearest, t', rfl, rfl, hsub, ⟨?_, ?_⟩, hb'.unwritten⟩
      . exact fun id hid => hb'.rows id (hrows id hid)
      . exact fun hopen => hb'.seed (hseed hopen)

end Secure

end Gap

end LaneOrder
