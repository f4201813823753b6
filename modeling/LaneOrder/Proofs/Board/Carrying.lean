import LaneOrder.Proofs.Board.Discipline
import LaneOrder.Proofs.Command.Protocol

/-!
This module contains how a board carries out calls: if the calls of a command obey the protocol of calls, then the
actions that they are carried out by obey the discipline of the board.
-/

namespace LaneOrder

open Board Program

namespace Board

/-- The operations that a call is carried out by. -/
def Serves : Call → Op → Prop
  | .ambient c, op => op = .ambient c
  | .role actor workspace, op => op = .action (.role actor workspace)
  | .record entry, op => op = .action (.record entry)
  | .begin, op => op = .action .start
  | .insert t, op => op = .action (.insert t)
  | .find workspace id, op => op = .action (.find workspace id)
  | .list workspace lane, op => op = .action (.list workspace lane)
  | .greatest workspace lane, op => op = .action (.greatest workspace lane)
  | .delete _ id, op => op = .action .start ∨ op = .action (.lockRow id) ∨ op = .ambient .now
    ∨ (∃ time, op = .action (.delete id time)) ∨ op = .action .commit ∨ op = .action .rollback
  | .lockTarget _ id, op => op = .action (.lockRow id)
  | .lockNeighbor _ _ id, op => op = .action (.lockRow id)
  | .tryLockNeighbor _ _ id, op => op = .action (.tryLockRow id)
  | .lockLane workspace lane, op => op = .action (.laneIds workspace lane) ∨ ∃ id, op = .action (.lockRow id)
  | .lockSeed workspace lane, op => op = .action (.lockSeed workspace lane)
  | .tryLockSeed workspace lane, op => op = .action (.tryLockSeed workspace lane)
  | .adjacent workspace lane pivot direction exclude, op =>
    op = .action (.adjacent workspace lane pivot direction exclude)
  | .persist workspace id position lane, op =>
    op = .ambient .now ∨ ∃ time, op = .action (.stage workspace ⟨id, position, lane, time⟩)
  | .commit, op => op = .action .commit
  | .rollback, op => op = .action .rollback

variable {kind : Op → Prop}

theorem only_lockRow {id : TaskId} {wanted : Task → Bool} {missing : StoreError}
    (hkind : kind (.action (.lockRow id))) : Only kind (lockRow id wanted missing) := by
  apply only_bind (only_ask hkind)
  intro reply
  cases reply with
  | refused => exact trivial
  | granted row =>
    dsimp only
    split <;> exact trivial

theorem only_lockRows {wanted : Task → Bool} {ids : List TaskId}
    (hkind : ∀ id ∈ ids, kind (.action (.lockRow id))) : Only kind (lockRows wanted ids) := by
  induction ids with
  | nil => exact trivial
  | cons id ids ih =>
    obtain ⟨hid, hids⟩ := List.forall_mem_cons.1 hkind
    apply only_bind (only_ask hid)
    intro reply
    cases reply with
    | refused => exact trivial
    | granted row =>
      apply only_bind (ih hids)
      intro rows
      cases rows <;> exact trivial

theorem only_deleteTask {workspace : WorkspaceId} {id : TaskId} :
    Only (Serves (.delete workspace id)) (deleteTask workspace id) := by
  unfold Serves
  apply only_bind (only_ask (by simp))
  intro _
  apply only_bind (only_lockRow (by simp))
  intro reply
  cases reply with
  | ok t =>
    apply only_bind (only_ask (by simp))
    intro now
    apply only_bind (only_ask (by simp))
    intro _
    apply only_bind (only_ask (by simp))
    intro _
    exact trivial
  | error e =>
    apply only_bind (only_ask (by simp))
    intro _
    cases e <;> exact trivial

theorem serves_carryOut (c : Call) : Only (Serves c) (carryOut c) := by
  cases c with
  | lockLane workspace lane =>
    apply only_bind (only_ask (.inl rfl))
    intro ids
    exact only_lockRows fun id _ => .inr ⟨id, rfl⟩
  | lockTarget workspace id => exact only_lockRow rfl
  | lockNeighbor workspace lane id => exact only_lockRow rfl
  | delete workspace id => exact only_deleteTask
  | persist workspace id position lane =>
    apply only_bind (only_ask (.inl rfl))
    intro now
    apply only_bind (only_ask (.inr ⟨now, rfl⟩))
    intro staged
    cases staged <;> exact trivial
  | _ =>
    constructor
    . rfl
    . intro reply
      first
      | exact trivial
      | (cases reply <;> exact trivial)

section Serves

variable {c : Call} {op : Op} {x : Event ops} {key : LockKey}

theorem Serves.boundary (h : Serves c op) (hs : c.starts = false) (he : c.ends = false) :
    op.starts = false ∧ op.ends = false := by
  cases c with
  | begin | commit | rollback | delete => cases hs <;> cases he
  | lockLane | persist =>
    rcases h with rfl | ⟨_, rfl⟩
    . exact ⟨rfl, rfl⟩
    . exact ⟨rfl, rfl⟩
  | _ =>
    cases h
    exact ⟨rfl, rfl⟩

theorem Serves.writes (h : Serves c x.op) {w : StagedWrite} (hw : x.writes? = some w) : c.persists? = some w.id := by
  obtain ⟨op, reply⟩ := x
  cases c with
  | persist =>
    rcases h with rfl | ⟨_, rfl⟩
    . cases hw
    . cases reply <;> cases hw
      rfl
  | lockLane =>
    rcases h with rfl | ⟨_, rfl⟩
    . cases hw
    . cases hw
  | delete =>
    rcases h with rfl | rfl | rfl | ⟨_, rfl⟩ | rfl | rfl <;> cases hw
  | _ =>
    cases h
    cases hw

theorem Serves.gets (h : Serves c x.op) (hends : c.ends = false) (hkey : x.gets? = some key) :
    (∃ id, c.asks? = some id ∧ key = .row id) ∨ c.locksLane = true
      ∨ c.locksSeed = true ∧ ∃ workspace lane, key = .seed workspace lane := by
  obtain ⟨op, reply⟩ := x
  cases c with
  | lockLane => exact .inr (.inl rfl)
  | delete => cases hends
  | persist =>
    rcases h with rfl | ⟨_, rfl⟩ <;> cases hkey
  | lockTarget _ id | lockNeighbor _ _ id | tryLockNeighbor _ _ id =>
    cases h
    cases reply <;> cases hkey
    exact .inl ⟨id, rfl, rfl⟩
  | lockSeed workspace lane | tryLockSeed workspace lane =>
    cases h
    cases reply <;> cases hkey
    exact .inr (.inr ⟨rfl, workspace, lane, rfl⟩)
  | _ =>
    cases h
    cases hkey

end Serves

section Returned

variable {E : History ops} {id : TaskId} {wanted : Task → Bool} {missing : StoreError} {t : Task}

theorem ends_lockRow (h : Ends (lockRow id wanted missing) E (.ok t)) :
    wanted t = true ∧ E = [⟨.action (.lockRow id), .granted (some t)⟩] := by
  obtain ⟨reply, E₁, E₂, hask, hrest, rfl⟩ := ends_bind h
  cases ends_ask hask
  cases reply with
  | refused => cases (ends_done.1 hrest).2
  | granted row =>
    dsimp only at hrest
    split at hrest
    . next t' hrow =>
      obtain ⟨rfl, heq⟩ := ends_done.1 hrest
      cases heq
      obtain ⟨hsome, hw⟩ := Option.filter_eq_some_iff.1 hrow
      rw [hsome]
      exact ⟨hw, rfl⟩
    . cases (ends_done.1 hrest).2

theorem ends_lockRows {ids : List TaskId} {ts : List Task} (h : Ends (lockRows wanted ids) E (.ok ts)) :
    ∀ t ∈ ts, wanted t = true ∧ ∃ x ∈ E, x.sees? = some t := by
  induction ids generalizing E ts with
  | nil =>
    cases (ends_done.1 h).2
    simp
  | cons id ids ih =>
    obtain ⟨reply, E₁, E₂, hask, hrest, rfl⟩ := ends_bind h
    cases ends_ask hask
    cases reply with
    | refused => cases (ends_done.1 hrest).2
    | granted row =>
      obtain ⟨reply, E₃, E₄, hrows, hrest, rfl⟩ := ends_bind hrest
      cases reply with
      | error e => cases (ends_done.1 hrest).2
      | ok rows =>
        obtain ⟨rfl, heq⟩ := ends_done.1 hrest
        cases heq
        intro t ht
        rcases List.mem_append.1 ht with ht | ht
        . obtain ⟨hsome, hw⟩ := Option.filter_eq_some_iff.1 (Option.mem_toList.1 ht)
          rw [hsome]
          exact ⟨hw, ⟨.action (.lockRow id), .granted (some t)⟩, by simp, rfl⟩
        . obtain ⟨hw, x, hx, hsees⟩ := ih hrows t ht
          exact ⟨hw, x, by simp [hx], hsees⟩

theorem ends_persist {workspace : WorkspaceId} {lane : Lane} {position : Position}
    (h : Ends (carryOut (.persist workspace id position lane)) E (.ok ())) :
    ∃ time, E = [⟨.action (.stage workspace ⟨id, position, lane, time⟩), true⟩, ⟨.ambient .now, time⟩] := by
  obtain ⟨time, E₁, E₂, hask, hrest, rfl⟩ := ends_bind h
  cases ends_ask hask
  obtain ⟨staged, E₃, E₄, hask', hrest', rfl⟩ := ends_bind hrest
  cases ends_ask hask'
  cases staged with
  | false => cases (ends_done.1 hrest').2
  | true =>
    obtain ⟨rfl, _⟩ := ends_done.1 hrest'
    exact ⟨time, rfl⟩

theorem sees_of_returned {c : Call} {reply : c.Reply} (h : Ends (carryOut c) E reply)
    (ht : t ∈ (Event.mk (I := calls) c reply).returned) : ∃ x ∈ E, x.sees? = some t := by
  cases c with
  | lockTarget workspace id | lockNeighbor workspace lane id =>
    cases reply with
    | error e => cases ht
    | ok t' =>
      cases List.mem_singleton.1 ht
      obtain ⟨_, rfl⟩ := ends_lockRow h
      exact ⟨_, List.mem_singleton_self _, rfl⟩
  | tryLockNeighbor workspace lane id =>
    obtain ⟨granted, E₁, E₂, hask, hrest, rfl⟩ := ends_bind h
    cases ends_ask hask
    cases granted with
    | refused =>
      cases (ends_done.1 hrest).2
      cases ht
    | granted row =>
      obtain ⟨rfl, heq⟩ := ends_done.1 hrest
      cases heq
      obtain ⟨hsome, _⟩ := Option.filter_eq_some_iff.1 (Option.mem_toList.1 ht)
      rw [hsome]
      exact ⟨_, List.mem_singleton_self _, rfl⟩
  | lockLane workspace lane =>
    cases reply with
    | error e => cases ht
    | ok ts =>
      obtain ⟨ids, E₁, E₂, _, hrows, rfl⟩ := ends_bind h
      obtain ⟨_, x, hx, hsees⟩ := ends_lockRows hrows t ht
      exact ⟨x, List.mem_append_left _ hx, hsees⟩
  | _ => cases ht

end Returned

section Reached

variable {E : History ops} {op : Op} {workspace : WorkspaceId} {id : TaskId} {wanted : Task → Bool} {missing : StoreError}

theorem reaches_lockRow (h : Reaches (lockRow id wanted missing) E op) : E = [] ∧ op = .action (.lockRow id) := by
  rcases reaches_bind h with hask | ⟨reply, E₁, E₂, _, hrest, rfl⟩
  . obtain ⟨rfl, rfl⟩ := reaches_ask hask
    exact ⟨rfl, rfl⟩
  . exfalso
    cases reply with
    | refused => exact reaches_done hrest
    | granted row =>
      dsimp only at hrest
      split at hrest <;> exact reaches_done hrest

theorem ends_lockRow_eq {reply : Except StoreError Task} (h : Ends (lockRow id wanted missing) E reply) :
    ∃ granted, E = [⟨.action (.lockRow id), granted⟩] := by
  obtain ⟨granted, E₁, E₂, hask, hrest, rfl⟩ := ends_bind h
  cases ends_ask hask
  refine ⟨granted, ?_⟩
  cases granted with
  | refused =>
    obtain ⟨rfl, _⟩ := ends_done.1 hrest
    rfl
  | granted row =>
    dsimp only at hrest
    split at hrest
    . obtain ⟨rfl, _⟩ := ends_done.1 hrest
      rfl
    . obtain ⟨rfl, _⟩ := ends_done.1 hrest
      rfl

theorem reaches_lockLane {lane : Lane} (h : Reaches (lockLane workspace lane) E op) :
    op = .action (.laneIds workspace lane)
      ∨ ∃ ids, (⟨.action (.laneIds workspace lane), ids⟩ : Event ops) ∈ E ∧ ∃ id ∈ ids, op = .action (.lockRow id) := by
  rcases reaches_bind h with hids | ⟨ids, E₁, E₂, hids, hrows, rfl⟩
  . exact .inl (reaches_ask hids).2.symm
  . cases ends_ask hids
    right
    refine ⟨ids, List.mem_append_right _ List.mem_cons_self, ?_⟩
    have honly : Only (I := ops) (fun op => ∃ id ∈ ids, op = .action (.lockRow id))
        (lockRows (·.isInLane workspace lane) ids) :=
      only_lockRows fun id hid => ⟨id, hid, rfl⟩
    exact honly.of_reaches hrows

/-- Wherever a deletion has arrived, this is all that it has done before. -/
theorem reaches_deleteTask (h : Reaches (deleteTask workspace id) E op) :
    (E = [] ∧ op = .action .start)
      ∨ (E = [⟨.action .start, ()⟩] ∧ op = .action (.lockRow id))
      ∨ (∃ granted, E = [⟨.action (.lockRow id), granted⟩, ⟨.action .start, ()⟩]
        ∧ (op = .ambient .now ∨ op = .action .rollback))
      ∨ (∃ granted now, E = [⟨.ambient .now, now⟩, ⟨.action (.lockRow id), granted⟩, ⟨.action .start, ()⟩]
        ∧ op = .action (.delete id now))
      ∨ (∃ granted now, E = [⟨.action (.delete id now), ()⟩, ⟨.ambient .now, now⟩, ⟨.action (.lockRow id), granted⟩,
          ⟨.action .start, ()⟩] ∧ op = .action .commit) := by
  rcases reaches_bind h with hstart | ⟨_, E₁, E₂, hstart, hrest, rfl⟩
  . obtain ⟨rfl, rfl⟩ := reaches_ask hstart
    exact .inl ⟨rfl, rfl⟩
  . cases ends_ask hstart
    right
    rcases reaches_bind hrest with hlock | ⟨locked, E₃, E₄, hlock, hrest, rfl⟩
    . obtain ⟨rfl, rfl⟩ := reaches_lockRow hlock
      exact .inl ⟨rfl, rfl⟩
    . obtain ⟨granted, rfl⟩ := ends_lockRow_eq hlock
      right
      cases locked with
      | error error =>
        left
        rcases reaches_bind hrest with hrollback | ⟨_, E₅, E₆, _, hlast, _⟩
        . obtain ⟨rfl, rfl⟩ := reaches_ask hrollback
          exact ⟨granted, rfl, .inr rfl⟩
        . split at hlast <;> exact absurd hlast reaches_done
      | ok t =>
        rcases reaches_bind hrest with hnow | ⟨now, E₅, E₆, hnow, hdeletes, rfl⟩
        . obtain ⟨rfl, rfl⟩ := reaches_ask hnow
          exact .inl ⟨granted, rfl, .inl rfl⟩
        . cases ends_ask hnow
          right
          rcases reaches_bind hdeletes with hdelete | ⟨_, E₇, E₈, hdelete, hcommits, rfl⟩
          . obtain ⟨rfl, rfl⟩ := reaches_ask hdelete
            exact .inl ⟨granted, now, rfl, rfl⟩
          . cases ends_ask hdelete
            rcases reaches_bind hcommits with hcommit | ⟨_, E₉, E₁₀, _, hlast, _⟩
            . obtain ⟨rfl, rfl⟩ := reaches_ask hcommit
              exact .inr ⟨granted, now, rfl, rfl⟩
            . exact absurd hlast reaches_done

/-- A deletion gives up its transaction, or it deletes one row and commits. -/
theorem ends_deleteTask {reply : Except StoreError Bool} (h : Ends (deleteTask workspace id) E reply) :
    (∃ granted, E = [⟨.action .rollback, ()⟩, ⟨.action (.lockRow id), granted⟩, ⟨.action .start, ()⟩] ∧ reply ≠ .ok true)
      ∨ ∃ granted now, E = [⟨.action .commit, ()⟩, ⟨.action (.delete id now), ()⟩, ⟨.ambient .now, now⟩,
          ⟨.action (.lockRow id), granted⟩, ⟨.action .start, ()⟩] ∧ reply = .ok true := by
  obtain ⟨_, E₁, E₂, hstart, hrest, rfl⟩ := ends_bind h
  cases ends_ask hstart
  obtain ⟨locked, E₃, E₄, hlock, hrest, rfl⟩ := ends_bind hrest
  obtain ⟨granted, rfl⟩ := ends_lockRow_eq hlock
  cases locked with
  | error error =>
    left
    obtain ⟨_, E₅, E₆, hrollback, hlast, rfl⟩ := ends_bind hrest
    cases ends_ask hrollback
    split at hlast
    . obtain ⟨rfl, rfl⟩ := ends_done.1 hlast
      exact ⟨granted, rfl, by simp⟩
    . obtain ⟨rfl, rfl⟩ := ends_done.1 hlast
      exact ⟨granted, rfl, by simp⟩
  | ok t =>
    right
    obtain ⟨now, E₅, E₆, htime, hdeletes, rfl⟩ := ends_bind hrest
    cases ends_ask htime
    obtain ⟨_, E₇, E₈, hdelete, hcommits, rfl⟩ := ends_bind hdeletes
    cases ends_ask hdelete
    obtain ⟨_, E₉, E₁₀, hcommit, hlast, rfl⟩ := ends_bind hcommits
    cases ends_ask hcommit
    obtain ⟨rfl, rfl⟩ := ends_done.1 hlast
    exact ⟨granted, now, rfl, rfl⟩

end Reached

section Mirrors

variable {H t : History calls} {T s : History ops}

theorem opened_of_transacted (hm : Mirrors carryOut H T) (ht : transacted H = some t) :
    ∃ s, opened T = some s ∧ Mirrors carryOut t s := by
  induction hm generalizing t with
  | nil => cases ht
  | @cons e E T H hE rest ih =>
    obtain ⟨c, reply⟩ := e
    cases hs : c.starts with
    | true =>
      unfold transacted at ht
      rw [since_start hs] at ht
      cases ht
      cases c with
      | begin =>
        obtain ⟨granted, E₁, E₂, hask, hrest, rfl⟩ := ends_bind hE
        cases ends_ask hask
        obtain ⟨rfl, _⟩ := ends_done.1 hrest
        exact ⟨[], opened_start rfl, .nil⟩
      | _ => cases hs
    | false =>
      cases he : c.ends with
      | true =>
        unfold transacted at ht
        rw [since_end hs he] at ht
        cases ht
      | false =>
        -- neither a start nor an end: the call belongs to the transaction that was open before
        have htail : (transacted H).map (⟨c, reply⟩ :: ·) = some t := by
          rw [← ht]
          unfold transacted
          simp [since, hs, he]
        obtain ⟨t', ht', rfl⟩ := Option.map_eq_some_iff.1 htail
        obtain ⟨s', hs', hm'⟩ := ih ht'
        refine ⟨E ++ s', since_append ?_ hs', .cons hE hm'⟩
        intro x hx
        exact Serves.boundary ((serves_carryOut c).of_ends hE x hx) hs he

theorem unwritten_of_mirrors (hm : Mirrors carryOut t s) (ht : ∀ e ∈ t, e.op.persists? = none) : Unwritten s := by
  intro x hx
  obtain ⟨e, he, E, hE, hxE⟩ := hm.exists_of_mem hx
  cases hw : x.writes? with
  | none => rfl
  | some w =>
    have := Serves.writes ((serves_carryOut e.op).of_ends hE x hxE) hw
    rw [ht e he] at this
    cases this

theorem sees_of_mirrors (hm : Mirrors carryOut t s) {row : Task} (hrow : Returned t row) : Sees s row := by
  obtain ⟨e, he, hrow⟩ := hrow
  obtain ⟨E, hE, hmem⟩ := hm.mem he
  obtain ⟨x, hx, hsees⟩ := sees_of_returned hE hrow
  exact ⟨x, hmem x hx, hsees⟩

theorem gets_of_mirrors (hm : Mirrors carryOut t s) (ht : transacted H = some t) {key : LockKey} (hkey : Gets s key) :
    ∃ e ∈ t, (∃ id, e.op.asks? = some id ∧ key = .row id) ∨ e.op.locksLane = true
      ∨ e.op.locksSeed = true ∧ ∃ workspace lane, key = .seed workspace lane := by
  obtain ⟨x, hx, hgets⟩ := hkey
  obtain ⟨e, he, E, hE, hxE⟩ := hm.exists_of_mem hx
  refine ⟨e, he, ?_⟩
  exact Serves.gets ((serves_carryOut e.op).of_ends hE x hxE) (not_boundary_of_since ht e he).2 hgets

end Mirrors

theorem allowed_of_idle {T : History ops} {op : Op} (hawaits : op.awaits? = none) (hprepares : op.prepares = false)
    (hchanges : op.changes? = none) (hends : op.ends = false) : Op.Allowed T op := by
  constructor <;> simp [hawaits, hprepares, hchanges, hends]

theorem allowed_of_ends {T : History ops} {op : Op} (h : ∃ s, opened T = some s) (hawaits : op.awaits? = none)
    (hprepares : op.prepares = false) (hchanges : op.changes? = none) : Op.Allowed T op := by
  constructor <;> simp [hawaits, hprepares, hchanges, h]

theorem allowed_of_changes {T : History ops} {op : Op} (hawaits : op.awaits? = none)
    (hprepares : op.prepares = false) (hends : op.ends = false)
    (h : ∀ id, op.changes? = some id → ∃ s t, opened T = some s ∧ Sees s t ∧ t.id = id) : Op.Allowed T op := by
  constructor <;> simp_all

theorem allowed_of_prepares {T : History ops} {op : Op} (hawaits : op.awaits? = none)
    (hchanges : op.changes? = none) (hends : op.ends = false) (h : ∃ s, opened T = some s ∧ Unwritten s) :
    Op.Allowed T op := by
  constructor <;> simp_all

section Carried

variable {H : History calls} {T : History ops} {c : Call}

theorem allowed_awaits {id : TaskId} (hm : Mirrors carryOut H T) (hc : c.Allowed H) (hid : c.awaits? = some id) :
    ∃ s, opened T = some s ∧ ∀ got, Gets s got → got.rank < (LockKey.row id).rank := by
  obtain ⟨t, ht, hbelow⟩ := hc.awaits id hid
  obtain ⟨s, hs, hm'⟩ := opened_of_transacted hm ht
  refine ⟨s, hs, ?_⟩
  intro got hgot
  obtain ⟨e, he, hcase⟩ := gets_of_mirrors hm' ht hgot
  rcases hcase with ⟨other, hasks, rfl⟩ | hlane | ⟨_, workspace, lane, rfl⟩
  . exact Nat.succ_lt_succ ((hbelow e he).2 other hasks)
  . rw [(hbelow e he).1] at hlane
    cases hlane
  . exact Nat.succ_pos _

theorem allowed_first (hm : Mirrors carryOut H T) (hc : c.Allowed H)
    (hfirst : c.locksLane = true ∨ ∃ workspace lane, c = .lockSeed workspace lane) :
    ∃ s, opened T = some s ∧ ∀ got, ¬ Gets s got := by
  obtain ⟨t, ht, hnone⟩ := hc.first hfirst
  obtain ⟨s, hs, hm'⟩ := opened_of_transacted hm ht
  refine ⟨s, hs, ?_⟩
  intro got hgot
  obtain ⟨e, he, hcase⟩ := gets_of_mirrors hm' ht hgot
  obtain ⟨hasks, hlane, hseed⟩ := hnone e he
  rcases hcase with ⟨other, hasks', _⟩ | hlane' | ⟨hseed', _⟩
  . rw [hasks] at hasks'
    cases hasks'
  . rw [hlane] at hlane'
    cases hlane'
  . rw [hseed] at hseed'
    cases hseed'

theorem allowed_prepares (hm : Mirrors carryOut H T) (hc : c.Allowed H) (hprepares : c.prepares = true) :
    ∃ s, opened T = some s ∧ Unwritten s := by
  obtain ⟨t, ht, hun⟩ := hc.prepares hprepares
  obtain ⟨s, hs, hm'⟩ := opened_of_transacted hm ht
  exact ⟨s, hs, unwritten_of_mirrors hm' hun⟩

theorem id_of_granted {id : TaskId} {row : Option Task} {t : Task}
    (h : discipline.honest (.action (.lockRow id)) (.granted row)) (hrow : row = some t) : t.id = id := by
  subst hrow
  have := Event.IsHonest.sees h t rfl
  cases this
  rfl

theorem obeys_lockRow {id : TaskId} {wanted : Task → Bool} {missing : StoreError}
    {post : History ops → Except StoreError Task → Prop} (hallowed : Op.Allowed T (.action (.lockRow id)))
    (herror : ∀ granted e, post (⟨.action (.lockRow id), granted⟩ :: T) (.error e))
    (hok : ∀ t, t.id = id → post (⟨.action (.lockRow id), .granted (some t)⟩ :: T) (.ok t)) :
    Obeys discipline post (lockRow id wanted missing) T := by
  apply obeys_bind
  apply obeys_ask hallowed
  intro granted hgranted
  cases granted with
  | refused => exact herror .refused _
  | granted row =>
    dsimp only
    split
    . next t hrow =>
      have hsome := (Option.filter_eq_some_iff.1 hrow).1
      rw [hsome] at hgranted ⊢
      exact hok t (id_of_granted hgranted rfl)
    . exact herror (.granted row) _

theorem obeys_lockRows {wanted : Task → Bool} {ids : List TaskId} {s : History ops} (hs : opened T = some s)
    (hun : Unwritten s) (hbelow : ∀ got, Gets s got → ∀ id ∈ ids, got.rank < (LockKey.row id).rank)
    (hids : ids.Pairwise (· < ·)) : Obeys discipline (fun _ _ => True) (lockRows wanted ids) T := by
  induction ids generalizing T s with
  | nil => trivial
  | cons id ids ih =>
    obtain ⟨hid, hids⟩ := List.pairwise_cons.1 hids
    apply obeys_bind
    apply obeys_ask
    . constructor
      . rintro key ⟨⟩
        exact ⟨s, hs, fun got hgot => hbelow got hgot id List.mem_cons_self⟩
      . intro _
        exact ⟨s, hs, hun⟩
      . rintro _ ⟨⟩
      . rintro ⟨⟩
    . intro granted _
      cases granted with
      | refused => trivial
      | granted row =>
        apply obeys_bind
        apply (ih ((opened_cons_eq_some rfl rfl).2 ⟨s, hs, rfl⟩) (unwritten_cons.2 ⟨rfl, hun⟩) _ hids).mono
        . intro T' reply _
          cases reply <;> trivial
        . intro got hgot other hother
          rcases gets_cons.1 hgot with hgot | hgot
          . cases hgot
            exact Nat.succ_lt_succ (hid other hother)
          . exact hbelow got hgot other (List.mem_cons_of_mem _ hother)

theorem obeys_deleteTask {workspace : WorkspaceId} {id : TaskId} :
    Obeys discipline (fun _ _ => True) (deleteTask workspace id) T := by
  have hopen : opened (⟨.action .start, ()⟩ :: T) = some [] := opened_start rfl
  apply obeys_bind
  apply obeys_ask (allowed_of_idle rfl rfl rfl rfl)
  intro _ _
  apply obeys_bind
  apply obeys_lockRow
  . constructor
    . rintro key ⟨⟩
      exact ⟨[], hopen, by simp [Gets]⟩
    . intro _
      exact ⟨[], hopen, by simp [Unwritten]⟩
    . rintro _ ⟨⟩
    . rintro ⟨⟩
  . intro granted e
    have hlocked := opened_push (e := ⟨.action (.lockRow id), granted⟩) rfl rfl hopen
    apply obeys_bind
    apply obeys_ask (allowed_of_ends ⟨_, hlocked⟩ rfl rfl rfl)
    intro _ _
    cases e <;> trivial
  . intro t ht
    have hlocked := opened_push (e := ⟨.action (.lockRow id), .granted (some t)⟩) rfl rfl hopen
    apply obeys_bind
    apply obeys_ask (allowed_of_idle rfl rfl rfl rfl)
    intro now _
    have htimed := opened_push (e := ⟨.ambient .now, now⟩) rfl rfl hlocked
    apply obeys_bind
    apply obeys_ask
    . apply allowed_of_changes rfl rfl rfl
      rintro _ ⟨⟩
      refine ⟨_, t, htimed, ?_, ht⟩
      exact sees_cons.2 (.inr (sees_cons.2 (.inl rfl)))
    . intro _ _
      have hdeleted := opened_push (e := ⟨.action (.delete id now), ()⟩) rfl rfl htimed
      apply obeys_bind
      apply obeys_ask (allowed_of_ends ⟨_, hdeleted⟩ rfl rfl rfl)
      intro _ _
      trivial

theorem obeys_lockLane {workspace : WorkspaceId} {lane : Lane} (hc : Call.Allowed H (.lockLane workspace lane))
    (hm : Mirrors carryOut H T) : Obeys discipline (fun _ _ => True) (lockLane workspace lane) T := by
  obtain ⟨s, hs, hnone⟩ := allowed_first hm hc (.inl rfl)
  obtain ⟨s', hs', hun⟩ := allowed_prepares hm hc rfl
  -- the lane is locked first in its transaction, so its rows can be waited for in ascending order
  cases hs.symm.trans hs'
  apply obeys_bind
  apply obeys_ask (allowed_of_prepares rfl rfl rfl ⟨s, hs, hun⟩)
  intro ids hids
  apply obeys_lockRows (opened_push rfl rfl hs) (unwritten_cons.2 ⟨rfl, hun⟩) _ (hids.lists ids rfl)
  intro got hgot
  rcases gets_cons.1 hgot with hgot | hgot
  . cases hgot
  . exact absurd hgot (hnone got)

theorem obeys_persist {workspace : WorkspaceId} {id : TaskId} {position : Position} {lane : Lane}
    (hc : Call.Allowed H (.persist workspace id position lane)) (hm : Mirrors carryOut H T) :
    Obeys discipline (fun _ _ => True) (carryOut (.persist workspace id position lane)) T := by
  obtain ⟨t, row, ht, hrow, hid⟩ := hc.persists id rfl
  obtain ⟨s, hs, hm'⟩ := opened_of_transacted hm ht
  apply obeys_bind
  apply obeys_ask (allowed_of_idle rfl rfl rfl rfl)
  intro now _
  apply obeys_bind
  apply obeys_ask
  . apply allowed_of_changes rfl rfl rfl
    rintro _ ⟨⟩
    exact ⟨_, row, opened_push rfl rfl hs, sees_cons.2 (.inr (sees_of_mirrors hm' hrow)), hid⟩
  . intro staged _
    cases staged <;> trivial

/-- The actions of a call obey the discipline of the board if the call obeys the protocol of calls. -/
theorem obeys_carryOut (hc : c.Allowed H) (hm : Mirrors carryOut H T) :
    Obeys discipline (fun _ reply => (Event.mk (I := calls) c reply).IsFaithful) (carryOut c) T := by
  cases c with
  | delete =>
    apply obeys_deleteTask.mono
    rintro _ _ _ _ ⟨⟩
  | lockLane workspace lane =>
    apply (obeys_lockLane hc hm).mono
    rintro _ _ _ _ ⟨⟩
  | lockTarget workspace id | lockNeighbor workspace lane id =>
    apply obeys_lockRow
    . constructor
      . rintro key ⟨⟩
        exact allowed_awaits hm hc rfl
      . intro _
        exact allowed_prepares hm hc rfl
      . rintro _ ⟨⟩
      . rintro ⟨⟩
    . rintro _ _ _ _ _ ⟨⟩
    . rintro t ht _ ⟨⟩ t' ht'
      cases List.mem_singleton.1 ht'
      exact ht
  | tryLockNeighbor workspace lane id =>
    apply obeys_bind
    apply obeys_ask (allowed_of_prepares rfl rfl rfl (allowed_prepares hm hc rfl))
    intro granted hgranted
    cases granted with
    | refused => rintro _ _ _ ⟨⟩
    | granted row =>
      rintro _ ⟨⟩ t ht
      obtain ⟨rfl, _⟩ := Option.filter_eq_some_iff.1 (Option.mem_toList.1 ht)
      cases hgranted.sees t rfl
      rfl
  | lockSeed workspace lane =>
    obtain ⟨s, hs, hnone⟩ := allowed_first hm hc (.inr ⟨workspace, lane, rfl⟩)
    apply obeys_bind
    apply obeys_ask
    . constructor
      . rintro _ ⟨⟩
        exact ⟨s, hs, fun got hgot => absurd hgot (hnone got)⟩
      . intro _
        exact allowed_prepares hm hc rfl
      . rintro _ ⟨⟩
      . rintro ⟨⟩
    . intro granted _
      cases granted <;> rintro _ ⟨⟩
  | tryLockSeed workspace lane =>
    apply obeys_bind
    apply obeys_ask (allowed_of_prepares rfl rfl rfl (allowed_prepares hm hc rfl))
    intro granted _
    cases granted <;> rintro _ ⟨⟩
  | adjacent workspace lane pivot direction exclude =>
    apply obeys_bind
    apply obeys_ask (allowed_of_prepares rfl rfl rfl (allowed_prepares hm hc rfl))
    rintro _ _ _ ⟨⟩
  | persist workspace id position lane =>
    apply (obeys_persist hc hm).mono
    rintro _ _ _ _ ⟨⟩
  | commit | rollback =>
    obtain ⟨t, ht⟩ := hc.ends rfl
    obtain ⟨s, hs, _⟩ := opened_of_transacted hm ht
    apply obeys_bind
    apply obeys_ask (allowed_of_ends ⟨s, hs⟩ rfl rfl rfl)
    rintro _ _ _ ⟨⟩
  | role | insert =>
    apply obeys_bind
    apply obeys_ask (allowed_of_idle rfl rfl rfl rfl)
    intro reply _
    cases reply <;> rintro _ ⟨⟩
  | _ =>
    constructor
    . exact allowed_of_idle rfl rfl rfl rfl
    . rintro _ _ _ ⟨⟩

end Carried

theorem obeys_actionsOf {α : Type} {P : Protocol calls} (hP : P.Refines callDiscipline) {p : Commanding α}
    {post : History calls → α → Prop} (hp : Obeys P post p []) :
    Obeys (discipline.carried carryOut P) (fun T a => ∃ H, Lawful P H ∧ Mirrors carryOut H T ∧ post H a)
      (actionsOf p) [] := by
  apply obeys_implement _ hp trivial .nil trivial
  intro c H T _ hc hm _
  apply (obeys_carryOut (hP.allowed H c hc) hm).mono
  intro _ reply hreply
  exact (hP.honest c reply).2 hreply

end Board

end LaneOrder
