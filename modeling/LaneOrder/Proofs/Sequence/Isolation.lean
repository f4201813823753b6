import LaneOrder.Proofs.Board.Tenants
import LaneOrder.Proofs.Command.Oblivious
import LaneOrder.Proofs.Crowd.Failures
import LaneOrder.Proofs.Crowd.Locking
import LaneOrder.Proofs.Sequence.Parallel
import LaneOrder.Proofs.Sequence.Refinement

/-!
This module contains the isolation of workspaces from each other. Commands for one workspace, one after the other, are
answered alike on boards that differ in other workspaces, and they leave the rows of these alone.
-/

namespace LaneOrder

open Board Program

/-- Whoever uses the board alone has changed only rows of a workspace. The other rows are still as given. -/
structure Board.Confined (workspace : WorkspaceId) (h : Holder) (others : List Task) (b : Board) : Prop where
  belongs : b.BelongsTo h
  others : b.rows.besides workspace = others
  writes : ∀ tx, b.transaction? h = some tx → ∀ w ∈ tx.writes, ∃ t ∈ b.rows.of workspace, t.id = w.id

/-- Two boards cannot be told apart by somebody who uses them for one workspace. -/
structure Moment.Alike (workspace : WorkspaceId) (h : Holder) (others₁ others₂ : List Task) (m₁ m₂ : Moment) : Prop where
  confined₁ : m₁.board.Confined workspace h others₁
  confined₂ : m₂.board.Confined workspace h others₂
  rows : m₁.board.rows.of workspace = m₂.board.rows.of workspace
  roles : ∀ actor, m₁.board.role? actor workspace = m₂.board.role? actor workspace
  transaction : m₁.board.transaction? h = m₂.board.transaction? h
  readings : readings m₁.past = readings m₂.past

/-- What happened between two moments changes nothing that matters to commands. -/
structure Moment.Unseen (h : Holder) (m m' : Moment) : Prop where
  belongs : m'.board.BelongsTo h
  rows : m'.board.rows = m.board.rows
  members : m'.board.members = m.board.members
  transaction : m'.board.transaction? h = m.board.transaction? h
  readings : readings m'.past = LaneOrder.readings m.past

namespace Board

/-- An operation that changes neither rows nor transactions, and is no reading of the supply. -/
def Op.looks : Op → Bool
  | .ambient .now | .ambient .freshId => false
  | .action .start | .action (.insert _) | .action (.stage ..) | .action (.delete ..) | .action .commit
  | .action .rollback => false
  | _ => true

variable {b : Board} {h : Holder} {workspace : WorkspaceId} {others : List Task} {tx : Transaction}

theorem overlay_of_besides (hb : b.Confined workspace h others) (htx : b.transaction? h = some tx) {t : Task}
    (ht : t ∈ b.rows.besides workspace) : tx.overlay t = t := by
  unfold Transaction.overlay
  split
  . next w hw =>
    obtain ⟨ht, hworkspace⟩ := Rows.mem_besides.1 ht
    have hid : w.id = t.id := by simpa using List.find?_some hw
    obtain ⟨u, hu, huid⟩ := hb.writes tx htx w (List.mem_of_find?_eq_some hw)
    obtain ⟨hu, huw⟩ := Rows.mem_of.1 hu
    rw [Rows.eq_of_id_eq ht hu (hid.symm.trans huid.symm)] at hworkspace
    exact absurd huw hworkspace
  . rfl

theorem of_view (b : Board) (h : Holder) : (b.view h).of workspace
    = match b.transaction? h with
      | some tx => (b.rows.of workspace).map tx.overlay
      | none => b.rows.of workspace := by
  unfold view
  cases b.transaction? h with
  | none => rfl
  | some tx => exact Rows.of_map tx.overlay_id (overlay_workspace tx)

theorem exists_of_view {id : TaskId} {t : Task} (hfind : (b.view h).find? id = some t) (ht : t.workspace = workspace) :
    ∃ u ∈ b.rows.of workspace, u.id = id := by
  obtain ⟨hmem, hid⟩ := Rows.find?_eq_some.1 hfind
  have hof := Rows.mem_of.2 ⟨hmem, ht⟩
  rw [of_view] at hof
  split at hof
  . next tx _ =>
    obtain ⟨u, hu, rfl⟩ := List.mem_map.1 hof
    exact ⟨u, hu, (tx.overlay_id u).symm.trans hid⟩
  . exact ⟨t, hof, hid⟩

theorem besides_view (hb : b.Confined workspace h others) : (b.view h).besides workspace = others := by
  rw [← hb.others]
  unfold view
  split
  . next tx htx => exact Rows.besides_map tx.overlay_id (overlay_workspace tx) fun t ht => overlay_of_besides hb htx ht
  . rfl

theorem Confined.release (hb : b.Confined workspace h others) : (b.release h).Confined workspace h others where
  belongs := hb.belongs.release
  others := hb.others
  writes tx htx := by simp [transaction?_release] at htx

theorem Confined.withTransaction (hb : b.Confined workspace h others)
    (htx : ∀ w ∈ tx.writes, ∃ t ∈ b.rows.of workspace, t.id = w.id) :
    (b.withTransaction h tx).Confined workspace h others where
  belongs := belongsTo_withTransaction hb.belongs.locks hb.belongs.transactions
  others := hb.others
  writes tx' htx' := by
    simp only [transaction?_withTransaction, if_true] at htx'
    cases htx'
    exact htx

theorem Confined.commit (hb : b.Confined workspace h others) : (b.commit h).Confined workspace h others where
  belongs := by
    have hviewed : BelongsTo { b with rows := b.view h } h :=
      ⟨hb.belongs.locks, hb.belongs.transactions, hb.belongs.opened⟩
    exact hviewed.release
  others := besides_view hb
  writes tx htx := by simp [Board.commit, transaction?_release] at htx

theorem Confined.insert {rows : Rows} {t : Task} (hb : b.Confined workspace h others)
    (hrows : rows.tasks = b.rows.tasks ++ [t]) (ht : t.workspace = workspace) :
    Confined workspace h others { b with rows } where
  belongs := ⟨hb.belongs.locks, hb.belongs.transactions, hb.belongs.opened⟩
  others := (Rows.besides_append hrows ht).trans hb.others
  writes tx htx w hw := by
    obtain ⟨u, hu, hid⟩ := hb.writes tx htx w hw
    refine ⟨u, ?_, hid⟩
    rw [Rows.of_append hrows ht]
    exact List.mem_append_left _ hu

theorem id_of_deleted {id : TaskId} {time : Timestamp} (t : Task) :
    (if t.id = id then t.deleted time else t).id = t.id := by
  split <;> rfl

theorem workspace_of_deleted {id : TaskId} {time : Timestamp} (t : Task) :
    (if t.id = id then t.deleted time else t).workspace = t.workspace := by
  split <;> rfl

theorem of_delete {id : TaskId} {time : Timestamp} : (b.delete id time).rows.of workspace
    = (b.rows.of workspace).map fun t => if t.id = id then t.deleted time else t :=
  Rows.of_map id_of_deleted workspace_of_deleted

theorem Confined.delete {id : TaskId} {time : Timestamp} (hb : b.Confined workspace h others)
    (hid : ∃ t ∈ b.rows.of workspace, t.id = id) : (b.delete id time).Confined workspace h others where
  belongs := ⟨hb.belongs.locks, hb.belongs.transactions, hb.belongs.opened⟩
  others := by
    have hkept : ∀ t ∈ b.rows.besides workspace, (if t.id = id then t.deleted time else t) = t := by
      intro t ht
      obtain ⟨u, hu, rfl⟩ := hid
      obtain ⟨ht, hworkspace⟩ := Rows.mem_besides.1 ht
      apply if_neg
      intro hsame
      rw [Rows.eq_of_id_eq ht (Rows.mem_of.1 hu).1 hsame] at hworkspace
      exact hworkspace (Rows.mem_of.1 hu).2
    exact (Rows.besides_map id_of_deleted workspace_of_deleted hkept).trans hb.others
  writes tx htx w hw := by
    obtain ⟨u, hu, hid⟩ := hb.writes tx htx w hw
    rw [of_delete]
    refine ⟨_, List.mem_map_of_mem hu, ?_⟩
    exact (id_of_deleted u).trans hid

end Board

namespace Moment

variable {α : Type} {s : Supply} {h : Holder} {workspace : WorkspaceId} {others₁ others₂ : List Task}
  {m m' m₁ m₂ m₁' m₂' : Moment} {fresh : TaskId → Prop}

theorem Alike.view (ha : Alike workspace h others₁ others₂ m₁ m₂) :
    (m₁.board.view h).of workspace = (m₂.board.view h).of workspace := by
  rw [of_view, of_view, ha.transaction, ha.rows]

theorem Unseen.confined {others : List Task} (hu : Unseen h m m') (hm : m.board.Confined workspace h others) :
    m'.board.Confined workspace h others where
  belongs := hu.belongs
  others := by
    rw [hu.rows]
    exact hm.others
  writes tx htx := by
    rw [hu.transaction] at htx
    rw [hu.rows]
    exact hm.writes tx htx

theorem Alike.unseen (ha : Alike workspace h others₁ others₂ m₁ m₂) (h₁ : Unseen h m₁ m₁') (h₂ : Unseen h m₂ m₂') :
    Alike workspace h others₁ others₂ m₁' m₂' where
  confined₁ := h₁.confined ha.confined₁
  confined₂ := h₂.confined ha.confined₂
  rows := by rw [h₁.rows, h₂.rows, ha.rows]
  roles actor := by
    have := ha.roles actor
    unfold role? at *
    rw [h₁.members, h₂.members, this]
  transaction := by rw [h₁.transaction, h₂.transaction, ha.transaction]
  readings := by rw [h₁.readings, h₂.readings, ha.readings]

theorem readings_of_looks {op : Op} {reply : op.Reply} {T : History ops} (hop : op.looks = true) :
    LaneOrder.readings (⟨op, reply⟩ :: T) = LaneOrder.readings T := by
  cases op with
  | action => rfl
  | ambient c => cases c <;> first | rfl | cases hop

theorem unseen_next {op : Op} (hop : op.looks = true) (hm : m.board.BelongsTo h) : Unseen h m (m.next s h op).2 := by
  cases op with
  | ambient c => exact ⟨hm, rfl, rfl, rfl, readings_of_looks hop⟩
  | action a =>
    unfold Moment.next
    dsimp only
    cases ha : m.board.act h a with
    | blocked key refusal b => exact absurd ha hm.not_blocked
    | replied reply b =>
      have hc := act_change ha
      refine ⟨hc.belongsTo hm, ?_, ?_, ?_, readings_of_looks hop⟩ <;> cases hc with
      | none | gets => rfl
      | inserts he | starts he | writes he | deletes he | commits he | releases he =>
        cases he
        cases hop

theorem advance_perform (a : Action) (m : Moment) : advance s h (perform a) m = m.next s h (.action a) :=
  rfl

theorem Alike.next {op : Op} (ha : Alike workspace h others₁ others₂ m₁ m₂) (hop : op.looks = true) :
    Alike workspace h others₁ others₂ (m₁.next s h op).2 (m₂.next s h op).2 :=
  ha.unseen (unseen_next hop ha.confined₁.belongs) (unseen_next hop ha.confined₂.belongs)

theorem reply_lockRow {id : TaskId} (hm : m.board.BelongsTo h) : (m.next s h (.action (.lockRow id))).1
    = if (m.board.transaction? h).isSome then .granted ((m.board.view h).find? id) else .refused := by
  obtain ⟨b, hb⟩ := hm.acquire (.row id) ((m.board.view h).find? id)
  unfold Moment.next act
  dsimp only
  rw [hb]

theorem reply_tryLockRow {id : TaskId} (hm : m.board.BelongsTo h) : (m.next s h (.action (.tryLockRow id))).1
    = if (m.board.transaction? h).isSome then .granted ((m.board.view h).find? id) else .refused := by
  obtain ⟨b, hb⟩ := hm.tryAcquire (.row id) ((m.board.view h).find? id)
  unfold Moment.next act
  dsimp only
  rw [hb]

/-- A program that locks a row and shows it as a transaction sees it, or that is refused without a transaction. -/
def Locks (s : Supply) (h : Holder) (id : TaskId) (p : Working (Grant (Option Task))) : Prop :=
  ∀ m : Moment, m.board.BelongsTo h → (advance s h p m).1
      = (if (m.board.transaction? h).isSome then .granted ((m.board.view h).find? id) else .refused)
    ∧ Unseen h m (advance s h p m).2

theorem reply_lockSeed {lane : Lane} (hm : m.board.BelongsTo h) :
    (m.next s h (.action (.lockSeed workspace lane))).1
      = if (m.board.transaction? h).isSome then .granted () else .refused := by
  obtain ⟨b, hb⟩ := hm.acquire (.seed workspace lane) ()
  unfold Moment.next act
  dsimp only
  rw [hb]

theorem reply_tryLockSeed {lane : Lane} (hm : m.board.BelongsTo h) :
    (m.next s h (.action (.tryLockSeed workspace lane))).1
      = if (m.board.transaction? h).isSome then .granted () else .refused := by
  obtain ⟨b, hb⟩ := hm.tryAcquire (.seed workspace lane) ()
  unfold Moment.next act
  dsimp only
  rw [hb]

section Changes

variable {e₁ e₂ : Event ops} {T₁ T₂ : History ops} {b₁ b₂ : Board}
  (ha : Alike workspace h others₁ others₂ ⟨T₁, b₁⟩ ⟨T₂, b₂⟩)

include ha

theorem Alike.reads (c : AmbientCall) {r₁ r₂ : c.Reply} :
    Alike workspace h others₁ others₂ ⟨⟨.ambient c, r₁⟩ :: T₁, b₁⟩ ⟨⟨.ambient c, r₂⟩ :: T₂, b₂⟩ where
  confined₁ := ha.confined₁
  confined₂ := ha.confined₂
  rows := ha.rows
  roles := ha.roles
  transaction := ha.transaction
  readings := by
    have hreadings : LaneOrder.readings T₁ = LaneOrder.readings T₂ := ha.readings
    cases c with
    | now | freshId =>
      unfold LaneOrder.readings
      rw [hreadings]
    | _ => exact hreadings

theorem Alike.acts (a : Action) {r₁ r₂ : a.Reply} :
    Alike workspace h others₁ others₂ ⟨⟨.action a, r₁⟩ :: T₁, b₁⟩ ⟨⟨.action a, r₂⟩ :: T₂, b₂⟩ where
  confined₁ := ha.confined₁
  confined₂ := ha.confined₂
  rows := ha.rows
  roles := ha.roles
  transaction := ha.transaction
  readings := ha.readings

theorem Alike.release : Alike workspace h others₁ others₂ ⟨T₁, b₁.release h⟩ ⟨T₂, b₂.release h⟩ where
  confined₁ := ha.confined₁.release
  confined₂ := ha.confined₂.release
  rows := ha.rows
  roles := ha.roles
  transaction := by simp [transaction?_release]
  readings := ha.readings

theorem Alike.withTransaction {tx : Transaction} (htx : ∀ w ∈ tx.writes, ∃ t ∈ b₁.rows.of workspace, t.id = w.id) :
    Alike workspace h others₁ others₂ ⟨T₁, b₁.withTransaction h tx⟩ ⟨T₂, b₂.withTransaction h tx⟩ where
  confined₁ := ha.confined₁.withTransaction htx
  confined₂ := by
    have hrows : b₁.rows.of workspace = b₂.rows.of workspace := ha.rows
    rw [hrows] at htx
    exact ha.confined₂.withTransaction htx
  rows := ha.rows
  roles := ha.roles
  transaction := by simp
  readings := ha.readings

theorem Alike.commit : Alike workspace h others₁ others₂ ⟨T₁, b₁.commit h⟩ ⟨T₂, b₂.commit h⟩ where
  confined₁ := ha.confined₁.commit
  confined₂ := ha.confined₂.commit
  rows := ha.view
  roles := ha.roles
  transaction := by simp [Board.commit, transaction?_release]
  readings := ha.readings

theorem Alike.insert {t : Task} {rows₁ rows₂ : Rows} (h₁ : rows₁.tasks = b₁.rows.tasks ++ [t])
    (h₂ : rows₂.tasks = b₂.rows.tasks ++ [t]) (ht : t.workspace = workspace) :
    Alike workspace h others₁ others₂ ⟨T₁, { b₁ with rows := rows₁ }⟩ ⟨T₂, { b₂ with rows := rows₂ }⟩ where
  confined₁ := ha.confined₁.insert h₁ ht
  confined₂ := ha.confined₂.insert h₂ ht
  rows := by
    have hrows : b₁.rows.of workspace = b₂.rows.of workspace := ha.rows
    rw [Rows.of_append h₁ ht, Rows.of_append h₂ ht, hrows]
  roles := ha.roles
  transaction := ha.transaction
  readings := ha.readings

theorem Alike.delete {id : TaskId} {time : Timestamp} (hid : ∃ t ∈ b₁.rows.of workspace, t.id = id) :
    Alike workspace h others₁ others₂ ⟨T₁, b₁.delete id time⟩ ⟨T₂, b₂.delete id time⟩ where
  confined₁ := ha.confined₁.delete hid
  confined₂ := by
    have hrows : b₁.rows.of workspace = b₂.rows.of workspace := ha.rows
    rw [hrows] at hid
    exact ha.confined₂.delete hid
  rows := by
    have hrows : b₁.rows.of workspace = b₂.rows.of workspace := ha.rows
    dsimp only
    rw [of_delete, of_delete, hrows]
  roles := ha.roles
  transaction := ha.transaction
  readings := ha.readings

end Changes

/-- Two runs of a program have the same result, and the boards cannot be told apart after them. -/
def Coincide (s : Supply) (h : Holder) (workspace : WorkspaceId) (others₁ others₂ : List Task) (p : Working α)
    (m₁ m₂ : Moment) : Prop :=
  Related s h (fun a₁ a₂ m₁ m₂ => a₁ = a₂ ∧ Alike workspace h others₁ others₂ m₁ m₂) p p m₁ m₂

theorem Coincide.bind {β : Type} {p : Working α} {f : α → Working β} (hp : Coincide s h workspace others₁ others₂ p m₁ m₂)
    (hf : ∀ a m₁ m₂, Alike workspace h others₁ others₂ m₁ m₂ → Coincide s h workspace others₁ others₂ (f a) m₁ m₂) :
    Coincide s h workspace others₁ others₂ (p >>= f) m₁ m₂ := by
  obtain ⟨hsame, ha⟩ := hp
  apply related_bind
  unfold Related
  rw [← hsame]
  exact hf _ _ _ ha

section Calls

variable (ha : Alike workspace h others₁ others₂ m₁ m₂)

include ha

theorem coincide_done (a : α) : Coincide s h workspace others₁ others₂ (.done a) m₁ m₂ :=
  ⟨rfl, ha⟩

theorem coincide_look {a : Action} (hop : (Op.action a).looks = true)
    (hsame : (m₁.next s h (.action a)).1 = (m₂.next s h (.action a)).1) :
    Coincide s h workspace others₁ others₂ (perform a) m₁ m₂ :=
  ⟨hsame, ha.next hop⟩

theorem related_ambient (c : AmbientCall) :
    Related s h (fun a₁ a₂ m₁' m₂' => a₁ = a₂ ∧ Alike workspace h others₁ others₂ m₁' m₂' ∧ m₁'.board = m₁.board)
      (ask (I := ops) (.ambient c)) (ask (I := ops) (.ambient c)) m₁ m₂ := by
  refine ⟨?_, ha.reads c, rfl⟩
  show s.reply (LaneOrder.readings m₁.past) c = s.reply (LaneOrder.readings m₂.past) c
  rw [ha.readings]

theorem coincide_ambient (c : AmbientCall) :
    Coincide s h workspace others₁ others₂ (ask (I := ops) (.ambient c)) m₁ m₂ :=
  (related_ambient ha c).mono fun _ _ _ _ hpost => ⟨hpost.1, hpost.2.1⟩

omit ha in
theorem locks_lockRow {id : TaskId} : Locks s h id (perform (.lockRow id)) :=
  fun _ hm => ⟨reply_lockRow (s := s) hm, unseen_next rfl hm⟩

omit ha in
theorem locks_tryLockRow {id : TaskId} : Locks s h id (perform (.tryLockRow id)) :=
  fun _ hm => ⟨reply_tryLockRow (s := s) hm, unseen_next rfl hm⟩

/-- The replies to a lock may show different rows, but not to somebody who wants rows of the workspace only. -/
theorem related_locks {β γ : Type} {post : β → γ → Moment → Moment → Prop} {id : TaskId}
    {p : Working (Grant (Option Task))} {f : Grant (Option Task) → Working β} {g : Grant (Option Task) → Working γ}
    (hp : Locks s h id p)
    (hrefused : ∀ m₁ m₂, Alike workspace h others₁ others₂ m₁ m₂ → Related s h post (f .refused) (g .refused) m₁ m₂)
    (hgranted : ∀ row₁ row₂ m₁ m₂, Alike workspace h others₁ others₂ m₁ m₂ →
      (∀ wanted : Task → Bool, (∀ t, wanted t = true → t.workspace = workspace) →
        row₁.filter wanted = row₂.filter wanted) →
      (∀ t, row₁ = some t → t.workspace = workspace → ∃ u ∈ m₁.board.rows.of workspace, u.id = id) →
      Related s h post (f (.granted row₁)) (g (.granted row₂)) m₁ m₂) :
    Related s h post (p >>= f) (p >>= g) m₁ m₂ := by
  obtain ⟨hreply₁, hunseen₁⟩ := hp m₁ ha.confined₁.belongs
  obtain ⟨hreply₂, hunseen₂⟩ := hp m₂ ha.confined₂.belongs
  have hnext := ha.unseen hunseen₁ hunseen₂
  apply related_bind
  unfold Related
  rw [hreply₁, hreply₂, ← ha.transaction]
  split
  . apply hgranted _ _ _ _ hnext
    . intro wanted hwanted
      exact Rows.filter_find?_agree ha.view hwanted
    . intro t hfind ht
      rw [hunseen₁.rows]
      exact exists_of_view hfind ht
  . exact hrefused _ _ hnext

theorem related_lockRow {id : TaskId} {wanted : Task → Bool} {missing : StoreError}
    (hwanted : ∀ t, wanted t = true → t.workspace = workspace) :
    Related s h (fun a₁ a₂ m₁ m₂ => a₁ = a₂ ∧ Alike workspace h others₁ others₂ m₁ m₂
        ∧ ∀ t, a₁ = .ok t → ∃ u ∈ m₁.board.rows.of workspace, u.id = id)
      (lockRow id wanted missing) (lockRow id wanted missing) m₁ m₂ := by
  have hfails : ∀ (e : StoreError) (m₁ m₂ : Moment), Alike workspace h others₁ others₂ m₁ m₂ →
      Related s h (fun a₁ a₂ m₁ m₂ => a₁ = a₂ ∧ Alike workspace h others₁ others₂ m₁ m₂
          ∧ ∀ t, a₁ = .ok t → ∃ u ∈ m₁.board.rows.of workspace, u.id = id)
        (.done (.error e : Except StoreError Task)) (.done (.error e)) m₁ m₂ :=
    fun e _ _ ha => ⟨rfl, ha, fun t ht => nomatch ht⟩
  apply related_locks ha locks_lockRow
  . exact hfails _
  . intro row₁ row₂ m₁ m₂ ha hsame hrow
    dsimp only
    rw [← hsame wanted hwanted]
    cases hfound : row₁.filter wanted with
    | none => exact hfails missing m₁ m₂ ha
    | some t =>
      obtain ⟨hrow₁, ht⟩ := Option.filter_eq_some_iff.1 hfound
      exact ⟨rfl, ha, fun _ _ => hrow t hrow₁ (hwanted t ht)⟩

theorem coincide_lockRow {id : TaskId} {wanted : Task → Bool} {missing : StoreError}
    (hwanted : ∀ t, wanted t = true → t.workspace = workspace) :
    Coincide s h workspace others₁ others₂ (lockRow id wanted missing) m₁ m₂ :=
  (related_lockRow ha hwanted).mono fun _ _ _ _ hpost => ⟨hpost.1, hpost.2.1⟩

theorem coincide_lockRows {wanted : Task → Bool} (hwanted : ∀ t, wanted t = true → t.workspace = workspace)
    {ids : List TaskId} : Coincide s h workspace others₁ others₂ (lockRows wanted ids) m₁ m₂ := by
  induction ids generalizing m₁ m₂ with
  | nil => exact coincide_done ha _
  | cons id ids ih =>
    apply related_locks ha locks_lockRow
    . intro m₁ m₂ ha
      exact coincide_done ha _
    . intro row₁ row₂ m₁ m₂ ha hsame _
      dsimp only
      rw [← hsame wanted hwanted]
      apply (ih ha).bind
      intro reply m₁ m₂ ha
      cases reply with
      | ok tasks => exact coincide_done ha _
      | error e => exact coincide_done ha _

omit ha in
theorem coincide_act {a : Action} {reply : a.Reply} {b₁ b₂ : Board} (h₁ : m₁.board.act h a = .replied reply b₁)
    (h₂ : m₂.board.act h a = .replied reply b₂) (ha : Alike workspace h others₁ others₂ ⟨m₁.past, b₁⟩ ⟨m₂.past, b₂⟩) :
    Coincide s h workspace others₁ others₂ (perform a) m₁ m₂ := by
  have hnext : ∀ {m : Moment} {b : Board}, m.board.act h a = .replied reply b →
      advance s h (perform a) m = (reply, ⟨⟨.action a, reply⟩ :: m.past, b⟩) := by
    intro m b hact
    rw [advance_perform]
    unfold Moment.next
    dsimp only
    rw [hact]
  unfold Coincide Related
  rw [hnext h₁, hnext h₂]
  exact ⟨rfl, ha.acts a⟩

theorem coincide_start : Coincide s h workspace others₁ others₂ (perform .start) m₁ m₂ := by
  apply coincide_act rfl rfl
  apply ha.release.withTransaction
  simp

theorem coincide_commit : Coincide s h workspace others₁ others₂ (perform .commit) m₁ m₂ :=
  coincide_act rfl rfl ha.commit

theorem coincide_rollback : Coincide s h workspace others₁ others₂ (perform .rollback) m₁ m₂ :=
  coincide_act rfl rfl ha.release

theorem coincide_delete {id : TaskId} {time : Timestamp} (hid : ∃ t ∈ m₁.board.rows.of workspace, t.id = id) :
    Coincide s h workspace others₁ others₂ (perform (.delete id time)) m₁ m₂ :=
  coincide_act rfl rfl (ha.delete hid)

theorem coincide_stage {w : StagedWrite} :
    Coincide s h workspace others₁ others₂ (perform (.stage workspace w)) m₁ m₂ := by
  have hfind : (m₁.board.view h).findIn? workspace w.id = (m₂.board.view h).findIn? workspace w.id :=
    Rows.findIn?_agree ha.view
  have htransaction := ha.transaction
  cases htx : m₁.board.transaction? h with
  | none =>
    rw [htx] at htransaction
    apply coincide_act _ _ ha
    . exact false
    . simp [act, stage?, htx]
    . simp [act, stage?, ← htransaction]
  | some tx =>
    rw [htx] at htransaction
    cases hrow : (m₁.board.view h).findIn? workspace w.id with
    | none =>
      rw [hrow] at hfind
      apply coincide_act _ _ ha
      . exact false
      . simp [act, stage?, htx, hrow]
      . simp [act, stage?, ← htransaction, ← hfind]
    | some t =>
      rw [hrow] at hfind
      have hstaged : ∀ v ∈ (tx.stage w).writes, ∃ t ∈ m₁.board.rows.of workspace, t.id = v.id := by
        intro v hv
        rcases List.mem_cons.1 hv with rfl | hv
        . obtain ⟨hfound, ht⟩ := Option.filter_eq_some_iff.1 hrow
          exact exists_of_view hfound (Task.isIn_iff.1 ht).2
        . exact ha.confined₁.writes tx htx v (List.mem_filter.1 hv).1
      apply coincide_act _ _ (ha.withTransaction hstaged)
      . exact true
      . simp [act, stage?, htx, hrow]
      . simp [act, stage?, ← htransaction, ← hfind]

theorem coincide_insert {t : Task} (ht : t.workspace = workspace) (h₁ : ∀ u ∈ others₁, u.id ≠ t.id)
    (h₂ : ∀ u ∈ others₂, u.id ≠ t.id) : Coincide s h workspace others₁ others₂ (perform (.insert t)) m₁ m₂ := by
  rw [← ha.confined₁.others] at h₁
  rw [← ha.confined₂.others] at h₂
  rcases Rows.insert?_agree ha.rows h₁ h₂ with ⟨hnone₁, hnone₂⟩ | ⟨rows₁, rows₂, hsome₁, hsome₂, hrows₁, hrows₂⟩
  . apply coincide_act _ _ ha
    . exact false
    . simp [act, hnone₁]
    . simp [act, hnone₂]
  . apply coincide_act _ _ (ha.insert hrows₁ hrows₂ ht)
    . exact true
    . simp [act, hsome₁]
    . simp [act, hsome₂]

theorem coincide_deleteTask {id : TaskId} : Coincide s h workspace others₁ others₂ (deleteTask workspace id) m₁ m₂ := by
  apply (coincide_start ha).bind
  intro _ m₁ m₂ ha
  apply related_bind
  apply (related_lockRow ha fun _ ht => (Task.isIn_iff.1 ht).2).mono
  rintro reply _ m₁ m₂ ⟨rfl, ha, hfound⟩
  cases reply with
  | error e =>
    apply (coincide_rollback ha).bind
    intro _ m₁ m₂ ha
    cases e <;> exact coincide_done ha _
  | ok t =>
    apply related_bind
    apply (related_ambient ha .now).mono
    rintro now _ m₁' m₂' ⟨rfl, ha, hboard⟩
    have hid : ∃ u ∈ m₁'.board.rows.of workspace, u.id = id := by
      rw [hboard]
      exact hfound t rfl
    apply (coincide_delete ha hid).bind
    intro _ m₁ m₂ ha
    apply (coincide_commit ha).bind
    intro _ m₁ m₂ ha
    exact coincide_done ha _

theorem coincide_lockLane {lane : Lane} : Coincide s h workspace others₁ others₂ (lockLane workspace lane) m₁ m₂ := by
  apply Coincide.bind
  . exact coincide_look ha rfl (Rows.laneIds_agree ha.view)
  . intro ids m₁ m₂ ha
    exact coincide_lockRows ha fun _ ht => (Task.isInLane_iff.1 ht).2.1

theorem coincide_carryOut {c : Call} (hc : c.Concerns workspace fresh)
    (hothers : ∀ t ∈ others₁ ++ others₂, ¬ fresh t.id) : Coincide s h workspace others₁ others₂ (carryOut c) m₁ m₂ := by
  have hin : ∀ t : Task, t.isIn workspace = true → t.workspace = workspace := fun _ ht => (Task.isIn_iff.1 ht).2
  have hlane : ∀ (lane : Lane) (t : Task), t.isInLane workspace lane = true → t.workspace = workspace :=
    fun _ _ ht => (Task.isInLane_iff.1 ht).2.1
  cases c with
  | ambient c => exact coincide_ambient ha c
  | role actor =>
    cases hc
    apply Coincide.bind
    . exact coincide_look ha rfl (ha.roles actor)
    . intro role m₁ m₂ ha
      cases role <;> exact coincide_done ha _
  | record | rollback => exact hc.elim
  | begin => exact (coincide_start ha).bind fun _ _ _ ha => coincide_done ha _
  | insert t =>
    obtain ⟨ht, hfresh⟩ := hc
    apply (coincide_insert ha ht _ _).bind
    . intro inserted m₁ m₂ ha
      cases inserted <;> exact coincide_done ha _
    . intro u hu heq
      exact hothers u (List.mem_append_left _ hu) (heq ▸ hfresh)
    . intro u hu heq
      exact hothers u (List.mem_append_right _ hu) (heq ▸ hfresh)
  | find =>
    cases hc
    exact Coincide.bind (coincide_look ha rfl (Rows.findIn?_agree ha.rows)) fun _ _ _ ha => coincide_done ha _
  | list =>
    cases hc
    exact Coincide.bind (coincide_look ha rfl (Rows.list_agree ha.rows)) fun _ _ _ ha => coincide_done ha _
  | greatest =>
    cases hc
    exact Coincide.bind (coincide_look ha rfl (Rows.greatest_agree ha.rows)) fun _ _ _ ha => coincide_done ha _
  | delete =>
    cases hc
    exact coincide_deleteTask ha
  | lockTarget =>
    cases hc
    exact coincide_lockRow ha hin
  | lockNeighbor _ lane =>
    cases hc
    exact coincide_lockRow ha (hlane lane)
  | tryLockNeighbor _ lane id =>
    cases hc
    apply related_locks ha locks_tryLockRow
    . intro m₁ m₂ ha
      exact coincide_done ha _
    . intro row₁ row₂ m₁ m₂ ha hsame _
      dsimp only
      rw [hsame _ (hlane lane)]
      exact coincide_done ha _
  | lockLane =>
    cases hc
    exact coincide_lockLane ha
  | lockSeed =>
    cases hc
    apply (coincide_look ha rfl _).bind
    . intro reply m₁ m₂ ha
      cases reply <;> exact coincide_done ha _
    . rw [reply_lockSeed ha.confined₁.belongs, reply_lockSeed ha.confined₂.belongs, ha.transaction]
  | tryLockSeed =>
    cases hc
    apply (coincide_look ha rfl _).bind
    . intro reply m₁ m₂ ha
      cases reply <;> exact coincide_done ha _
    . rw [reply_tryLockSeed ha.confined₁.belongs, reply_tryLockSeed ha.confined₂.belongs, ha.transaction]
  | adjacent =>
    cases hc
    exact Coincide.bind (coincide_look ha rfl (Rows.adjacent?_agree ha.view)) fun _ _ _ ha => coincide_done ha _
  | persist =>
    cases hc
    apply (coincide_ambient ha .now).bind
    intro now m₁ m₂ ha
    apply (coincide_stage ha).bind
    intro staged m₁ m₂ ha
    cases staged <;> exact coincide_done ha _
  | commit => exact (coincide_commit ha).bind fun _ _ _ ha => coincide_done ha _

theorem coincide_note {n : Notice} : Coincide s h workspace others₁ others₂ (actionsOf (note n)) m₁ m₂ :=
  coincide_ambient ha (.note n)

theorem coincide_abandon : Coincide s h workspace others₁ others₂ (actionsOf abandon) m₁ m₂ := by
  unfold actionsOf abandon
  rw [implement_bind]
  apply Coincide.bind
  . apply Coincide.bind (coincide_rollback ha)
    intro _ m₁ m₂ ha
    exact coincide_done ha _
  . intro reply m₁ m₂ ha
    cases reply with
    | ok _ => exact coincide_done ha _
    | error e => exact coincide_note ha

omit ha in
theorem unseen_of_notes {p : Commanding α} (hp : Only (I := calls) (·.isNote = true) p) (hm : m.board.BelongsTo h) :
    Unseen h m (advance s h (actionsOf p) m).2 := by
  induction p generalizing m with
  | done a => exact ⟨hm, rfl, rfl, rfl, rfl⟩
  | perform c next ih =>
    obtain ⟨hc, hnext⟩ := hp
    cases c with
    | ambient c =>
      cases c with
      | note n =>
        obtain ⟨hbelongs, hrows, hmembers, htransaction, hreadings⟩ :=
          ih () (hnext ()) (m := ⟨⟨.ambient (.note n), ()⟩ :: m.past, m.board⟩) hm
        exact ⟨hbelongs, hrows, hmembers, htransaction, hreadings⟩
      | _ => cases hc
    | _ => cases hc

/-- Only one of the boards may be unable to record, but no command tells its caller. -/
theorem coincide_record {entry : Timestamp → AuditEntry} :
    Coincide s h workspace others₁ others₂ (actionsOf (record entry)) m₁ m₂ := by
  unfold actionsOf record
  rw [implement_bind]
  apply Coincide.bind
  . exact coincide_ambient ha .now
  . intro now m₁ m₂ ha
    rw [implement_bind]
    have hnext : Alike workspace h others₁ others₂ (m₁.next s h (.action (.record (entry now)))).2
        (m₂.next s h (.action (.record (entry now)))).2 := ha.next rfl
    apply related_bind
    refine ⟨rfl, hnext.unseen ?_ ?_⟩
    . apply unseen_of_notes _ hnext.confined₁.belongs
      split
      . trivial
      . exact only_ask rfl
    . apply unseen_of_notes _ hnext.confined₂.belongs
      split
      . trivial
      . exact only_ask rfl

end Calls

theorem fresh_advance (hfresh : ∀ n, fresh (s.freshId n)) (c : Call) (m : Moment) :
    Call.Fresh fresh c (advance s h (carryOut c) m).1 := by
  unfold Call.Fresh
  split
  . exact hfresh _
  . trivial

theorem coincide_of_oblivious {p : Commanding α}
    (hp : Oblivious (Call.Fresh fresh) (Call.Concerns workspace fresh) p) (hfresh : ∀ n, fresh (s.freshId n))
    (hothers : ∀ t ∈ others₁ ++ others₂, ¬ fresh t.id) (ha : Alike workspace h others₁ others₂ m₁ m₂) :
    Coincide s h workspace others₁ others₂ (actionsOf p) m₁ m₂ := by
  induction hp generalizing m₁ m₂ with
  | done a => exact coincide_done ha a
  | @calls c next hc _ ih =>
    obtain ⟨hsame, hnext⟩ := coincide_carryOut (s := s) ha hc hothers
    apply related_bind (p := carryOut c) (q := carryOut c)
    unfold Related
    rw [← hsame]
    exact ih _ (fresh_advance hfresh c m₁) hnext
  | records entry _ ih =>
    unfold actionsOf
    rw [implement_bind]
    exact (coincide_record ha).bind fun _ _ _ ha => ih ha
  | abandons _ ih =>
    unfold actionsOf
    rw [implement_bind]
    exact (coincide_abandon ha).bind fun _ _ _ ha => ih ha

end Moment

namespace Board

/-- Give requests to a board, one after the other. Each one is carried out for a holder. -/
def issue (s : Supply) (b : Board) : List (Holder × Request) → List Answer × Board
  | [] => ([], b)
  | (h, q) :: requests =>
    let completed := Command.complete ⟨h, q, s.replies⟩ b
    let (answers, b') := issue (s.after (readings completed.past)) completed.board requests
    (completed.answer :: answers, b')

variable {b b' : Board} {h : Holder} {T : History ops} {q : Request} {workspace : WorkspaceId}

theorem Ran.isOpen (hr : Ran h b T b') (hb : b.transaction? h = none) :
    (b'.transaction? h).isSome = (opened T).isSome := by
  induction hr with
  | nil =>
    rw [hb]
    rfl
  | cons _ he ih =>
    cases he with
    | answered c reply =>
      rw [opened_cons rfl rfl, Option.isSome_map]
      exact ih
    | acts ha => exact (act_change ha).isOpen ih
    | givesUp ha =>
      have hblocking := act_blocking ha
      rw [opened_cons hblocking.quiet.starts hblocking.quiet.ends, Option.isSome_map, ← ih, hblocking.board]
      rfl

theorem Ran.belongsTo (hr : Ran h b T b') (hb : b.BelongsTo h) : b'.BelongsTo h := by
  induction hr with
  | nil => exact hb
  | cons _ he ih =>
    cases he with
    | answered => exact ih
    | acts ha => exact (act_change ha).belongsTo ih
    | givesUp ha => exact absurd ha ih.not_blocked

theorem transaction?_of_atRest (hb : b.AtRest) : b.transaction? h = none := by
  unfold transaction?
  rw [hb.transactions]
  rfl

theorem alike_of_atRest {b₁ b₂ : Board} (h₁ : b₁.AtRest) (h₂ : b₂.AtRest)
    (hrows : b₁.rows.of workspace = b₂.rows.of workspace)
    (hroles : ∀ actor, b₁.role? actor workspace = b₂.role? actor workspace) :
    Moment.Alike workspace h (b₁.rows.besides workspace) (b₂.rows.besides workspace) ⟨[], b₁⟩ ⟨[], b₂⟩ where
  confined₁ := ⟨h₁.belongsTo, rfl, fun _ htx => nomatch (transaction?_of_atRest h₁).symm.trans htx⟩
  confined₂ := ⟨h₂.belongsTo, rfl, fun _ htx => nomatch (transaction?_of_atRest h₂).symm.trans htx⟩
  rows := hrows
  roles := hroles
  transaction := (transaction?_of_atRest h₁).trans (transaction?_of_atRest h₂).symm
  readings := rfl

end Board

def Supply.Offers (s : Supply) (id : TaskId) : Prop :=
  ∃ n, s.freshId n = id

theorem Command.alike {workspace : WorkspaceId} {b₁ b₂ : Board} {s : Supply} {h : Holder} {q : Request}
    (hq : q.IsFor workspace) (hrest₁ : b₁.AtRest) (hrest₂ : b₂.AtRest)
    (hrows : b₁.rows.of workspace = b₂.rows.of workspace)
    (hroles : ∀ actor, b₁.role? actor workspace = b₂.role? actor workspace)
    (hfresh : ∀ t ∈ b₁.rows.besides workspace ++ b₂.rows.besides workspace, ¬ s.Offers t.id) :
    (Command.complete ⟨h, q, s.replies⟩ b₁).answer = (Command.complete ⟨h, q, s.replies⟩ b₂).answer
      ∧ Moment.Alike workspace h (b₁.rows.besides workspace) (b₂.rows.besides workspace)
        ⟨(Command.complete ⟨h, q, s.replies⟩ b₁).past, (Command.complete ⟨h, q, s.replies⟩ b₁).board⟩
        ⟨(Command.complete ⟨h, q, s.replies⟩ b₂).past, (Command.complete ⟨h, q, s.replies⟩ b₂).board⟩ := by
  have hcomplete : ∀ b, Command.complete ⟨h, q, s.replies⟩ b
      = ⟨(Moment.advance s h (actionsOf q.program) ⟨[], b⟩).2.board,
        (Moment.advance s h (actionsOf q.program) ⟨[], b⟩).2.past,
        (Moment.advance s h (actionsOf q.program) ⟨[], b⟩).1⟩ :=
    fun b => Moment.complete_eq _ ⟨[], b⟩
  have hprogram : Oblivious (Call.Fresh s.Offers) (Call.Concerns workspace s.Offers) q.program :=
    Request.oblivious_program hq
  rw [hcomplete, hcomplete]
  exact Moment.coincide_of_oblivious hprogram (fun n => ⟨n, rfl⟩) hfresh (alike_of_atRest hrest₁ hrest₂ hrows hroles)

section Sample

def Sample.visits : List (Holder × Request) := [
  (0, .move ⟨Sample.workspace, Sample.id 2, Sample.actor, "todo", none, some (Sample.id 5)⟩),
  (1, .move ⟨Sample.workspace, Sample.id 2, Sample.actor, "todo", none, some (Sample.id 1)⟩),
  (0, .create ⟨Sample.workspace, Sample.actor, "t", "todo"⟩),
  (0, .call (.delete Sample.workspace (Sample.id 5))),
  (0, .renormalize ⟨Sample.workspace, Sample.actor, "todo"⟩),
  (1, .call (.list Sample.workspace .todo))]

end Sample

end LaneOrder
