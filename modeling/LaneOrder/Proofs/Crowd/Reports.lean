import LaneOrder.Proofs.Crowd.Commits

/-!
This module contains what entries of the audit trail tell: what a creation, a move or a renormalization has done to the
rows. When such a command takes effect, it is about to record an entry that tells just that.
-/

namespace LaneOrder

open Board Program

/-- A finite key is written as the number that it is, any other key as null. -/
def Json.IsKey (j : Json) (x : Position) : Prop :=
  if x.isFinite then j = .number (x.toNumeral Binary64.documentLayout) else j = .null

namespace AuditEntry

variable {id : TaskId} {entry : AuditEntry} {entries entries' : List AuditEntry} {lane lane' lane'' : Option Lane}

structure Says (entry : AuditEntry) (workspace : WorkspaceId) (actor : ActorId) (action : AuditAction) (resource : Uuid)
    (fields : List (String × Json)) : Prop where
  workspace : entry.workspace = workspace
  actor : entry.actor = actor
  action : entry.action = action
  resource : entry.resource = resource
  metadata : entry.metadata = .record fields

def names (id : TaskId) (entry : AuditEntry) : Bool :=
  decide (entry.action ≠ .renormalize ∧ entry.resource = id.uuid)

/-- Entries lead a task from lane to lane: it is created if it has none, and moved on from where it is. -/
inductive Leads : Option Lane → List AuditEntry → Option Lane → Prop where
  | nil (lane : Option Lane) : Leads lane [] lane
  | created {lane : Lane} {last : Option Lane} {key : Json} {entry : AuditEntry} {entries : List AuditEntry}
      (hmeta : entry.metadata = .record [("lane", .ofString lane.name), ("position", key)])
      (h : Leads (some lane) entries last) : Leads none (entry :: entries) last
  | moved {source destination : Lane} {last : Option Lane} {key : Json} {entry : AuditEntry} {entries : List AuditEntry}
      (hmeta : entry.metadata = .record [("fromLane", .ofString source.name), ("newPosition", key),
        ("toLane", .ofString destination.name)])
      (h : Leads (some destination) entries last) : Leads (some source) (entry :: entries) last

theorem Leads.append (h : Leads lane entries lane') (h' : Leads lane' entries' lane'') :
    Leads lane (entries ++ entries') lane'' := by
  induction h with
  | nil => exact h'
  | created hmeta _ ih => exact .created hmeta (ih h')
  | moved hmeta _ ih => exact .moved hmeta (ih h')

theorem isKey_toJson (x : Position) : x.toJson.IsKey x := by
  unfold Json.IsKey Binary64.toJson
  split <;> rfl

theorem says_created {workspace : WorkspaceId} {actor : ActorId} {lane : Lane} {x : Position} {time : Timestamp} :
    (created workspace actor id lane x time).Says workspace actor .create id.uuid
      [("lane", .ofString lane.name), ("position", x.toJson)] :=
  ⟨rfl, rfl, rfl, rfl, rfl⟩

theorem says_moved {workspace : WorkspaceId} {actor : ActorId} {source destination : Lane} {x : Position}
    {time : Timestamp} : (moved workspace actor id source destination x time).Says workspace actor .move id.uuid
      [("fromLane", .ofString source.name), ("newPosition", x.toJson), ("toLane", .ofString destination.name)] :=
  ⟨rfl, rfl, rfl, rfl, rfl⟩

theorem says_renormalized {workspace : WorkspaceId} {actor : ActorId} {lane : Lane} {count : Nat} {time : Timestamp} :
    (renormalized workspace actor lane count time).Says workspace actor .renormalize workspace.uuid
      [("lane", .ofString lane.name), ("taskCount", .ofNat count)] :=
  ⟨rfl, rfl, rfl, rfl, rfl⟩

theorem Says.names_iff {workspace : WorkspaceId} {actor : ActorId} {action : AuditAction} {task : TaskId}
    {fields : List (String × Json)} (h : entry.Says workspace actor action task.uuid fields)
    (haction : action ≠ .renormalize) : entry.names id = true ↔ task = id := by
  unfold names
  rw [decide_eq_true_iff, h.action, h.resource]
  constructor
  . rintro ⟨_, huuid⟩
    exact congrArg TaskId.mk huuid
  . rintro rfl
    exact ⟨haction, rfl⟩

theorem Says.not_names {workspace : WorkspaceId} {actor : ActorId} {resource : Uuid} {fields : List (String × Json)}
    (h : entry.Says workspace actor .renormalize resource fields) : entry.names id = false := by
  unfold names
  rw [decide_eq_false_iff_not, h.action]
  exact fun hnames => hnames.1 rfl

end AuditEntry

/-- An entry tells what a request has done to the rows. -/
def Request.Tells : Request → Rows → Rows → AuditEntry → Prop
  | create r, before, after, entry => ∃ t key, before.insert? t = some after ∧ key.IsKey t.position
    ∧ entry.Says r.workspace r.actor .create t.id.uuid [("lane", .ofString t.lane.name), ("position", key)]
  | move r, before, after, entry => ∃ s t key, before.find? r.task = some s ∧ after.find? r.task = some t
    ∧ key.IsKey t.position ∧ entry.Says r.workspace r.actor .move r.task.uuid
      [("fromLane", .ofString s.lane.name), ("newPosition", key), ("toLane", .ofString t.lane.name)]
  | renormalize r, _, _, entry => ∃ lane count, Lane.parse r.lane = .ok lane
    ∧ entry.Says r.workspace r.actor .renormalize r.workspace.uuid [("lane", .ofString lane.name), ("taskCount", .ofNat count)]
  | call _, _, _, _ => False

namespace Request

variable {q : Request} {before after rows : Rows} {entry : AuditEntry} {T : History ops} {b b' : Board} {h : Holder}
  {e : Event ops}

/-- How a command ends after its record, depending on the rows: with an answer, or with a look at the task that was
moved. -/
inductive Closes : Request → Rows → Commanding Answer → Prop where
  | answers {q : Request} {rows : Rows} {a : Answer} (hq : ∀ r, q ≠ move r) (ha : a.succeeds = true) :
    Closes q rows (done a)
  | looks {r : MoveRequest} {rows : Rows} {t : Task} {next : Except StoreError (Option Task) → Commanding Answer}
      (hrow : rows.findIn? r.workspace r.task = some t)
      (hnext : ∃ exhausted, next (.ok (some t)) = done (.moved ⟨t, exhausted⟩)) :
    Closes (move r) rows (LaneOrder.call (.find r.workspace r.task) >>= next)

theorem closes_cases {last : Commanding Answer} (h : q.Closes rows last) :
    (∃ a, last = done a ∧ (∀ r, q ≠ move r) ∧ a.succeeds = true)
      ∨ ∃ r t next, q = move r ∧ last = LaneOrder.call (.find r.workspace r.task) >>= next
        ∧ rows.findIn? r.workspace r.task = some t ∧ ∃ exhausted, next (.ok (some t)) = done (.moved ⟨t, exhausted⟩) := by
  cases h with
  | answers hq ha => exact .inl ⟨_, rfl, hq, ha⟩
  | looks hrow hnext => exact .inr ⟨_, _, _, rfl, rfl, hrow, hnext⟩

/-- What a command that has changed the rows is going to do. -/
structure Reporting (q : Request) (before after : Rows) (entry : Timestamp → AuditEntry) (last : Commanding Answer) :
    Prop where
  tells : ∀ time, q.Tells before after (entry time)
  lanes : ∀ time id, (entry time).names id = false → after.lane? id = before.lane? id
  closes : q.Closes after last

theorem leads_of_tells (htells : q.Tells before after entry)
    (hlanes : ∀ id, entry.names id = false → after.lane? id = before.lane? id) (id : TaskId) :
    AuditEntry.Leads (before.lane? id) ([entry].filter (·.names id)) (after.lane? id) := by
  cases hnames : entry.names id with
  | false =>
    rw [List.filter_cons_of_neg (by simp [hnames]), hlanes id hnames]
    exact .nil _
  | true =>
    rw [List.filter_cons_of_pos hnames]
    cases q with
    | call c => exact htells.elim
    | renormalize r =>
      obtain ⟨_, _, _, hentry⟩ := htells
      exact nomatch hentry.not_names.symm.trans hnames
    | create r =>
      obtain ⟨t, key, hinsert, _, hentry⟩ := htells
      cases (hentry.names_iff (by decide)).1 hnames
      unfold Rows.lane?
      rw [Rows.find?_of_insert hinsert, Rows.find?_insert_self hinsert]
      exact .created hentry.metadata (.nil _)
    | move r =>
      obtain ⟨s, t, key, hs, ht, _, hentry⟩ := htells
      cases (hentry.names_iff (by decide)).1 hnames
      unfold Rows.lane?
      rw [hs, ht]
      exact .moved hentry.metadata (.nil _)

theorem reporting_of_create {r : CreateRequest} {t : Task} (hinsert : before.insert? t = some after) :
    (create r).Reporting before after (.created r.workspace r.actor t.id t.lane t.position) (done (.created t)) where
  tells _ := ⟨t, _, hinsert, AuditEntry.isKey_toJson _, AuditEntry.says_created⟩
  lanes _ id hid := by
    have hne : id ≠ t.id := by
      rintro rfl
      exact nomatch hid.symm.trans ((AuditEntry.says_created.names_iff (by decide)).2 rfl)
    unfold Rows.lane?
    rw [Rows.find?_insert_of_ne hinsert hne]
  closes := .answers (by rintro _ ⟨⟩) rfl

theorem reporting_of_move {r : MoveRequest} {p : Move.Placement} {s : Task} {time : Timestamp} {lane : Lane}
    (hs : before.find? r.task = some s) (hin : s.isIn r.workspace = true) (hsource : s.lane = p.source)
    (ht : after.find? r.task = some (s.placed p.placed.position lane time))
    (hothers : ∀ id, id ≠ r.task → after.find? id = before.find? id) :
    (move r).Reporting before after (.moved r.workspace r.actor r.task p.source lane p.placed.position)
      (Move.look r p >>= fun outcome => done (.ofOutcome .moved outcome)) where
  tells _ := ⟨s, _, _, hs, ht, AuditEntry.isKey_toJson _, hsource ▸ AuditEntry.says_moved⟩
  lanes _ id hid := by
    have hne : id ≠ r.task := by
      rintro rfl
      exact nomatch hid.symm.trans ((AuditEntry.says_moved.names_iff (by decide)).2 rfl)
    unfold Rows.lane?
    rw [hothers id hne]
  closes := by
    refine .looks (t := s.placed p.placed.position lane time) ?_ ⟨p.exhausted, rfl⟩
    unfold Rows.findIn?
    rw [ht]
    exact Option.filter_eq_some_iff.2 ⟨rfl, hin⟩

theorem reporting_of_renormalize {r : RenormalizeRequest} {lane : Lane} (tasks : List Task)
    (hlane : Lane.parse r.lane = .ok lane) (hlanes : ∀ id, after.lane? id = before.lane? id) :
    (renormalize r).Reporting before after (.renormalized r.workspace r.actor lane tasks.length)
      (done (.renormalized ⟨lane, tasks⟩)) where
  tells _ := ⟨lane, _, hlane, AuditEntry.says_renormalized⟩
  lanes _ id _ := hlanes id
  closes := .answers (by rintro _ ⟨⟩) rfl

theorem reporting_of_publishes {next : e.op.Reply → Working Answer}
    (hleaves : Leaves (I := ops) (actionsOf q.program) T (.perform e.op next)) (he : Happens h b e b')
    (hpublishes : q.publishes e = true) (hb : Holds b h T) (hT : Lawful q.protocol (e :: T)) :
    ∃ notice entry last, next e.reply = actionsOf (sequel notice entry last) ∧ q.Reporting b.rows b'.rows entry last := by
  rcases publishes_cases hpublishes with ⟨r, t, rfl, rfl⟩ | ⟨⟨r, rfl⟩ | ⟨r, rfl⟩, rfl⟩
  . obtain ⟨H, f, hm, hp, heq⟩ := leaves_insert hleaves
    obtain ⟨f', hcreate, hmap⟩ := leaves_map hp
    have hinsert : b.rows.insert? t = some b'.rows := by
      cases he with
      | acts ha =>
        unfold act at ha
        dsimp only at ha
        split at ha
        . next rows hrows =>
          cases ha
          exact hrows
        . cases ha
      | givesUp ha => 
        unfold act at ha
        dsimp only at ha
        split at ha <;> cases ha
    refine ⟨.taskCreated, _, _, ?_, reporting_of_create hinsert⟩
    rw [heq, hmap, Create.leaves_insert hcreate, sequel_bind]
    rfl
  . have hworks : Only (I := calls) (Call.WorksOn r.workspace r.lane) (move r).program :=
      only_bind (Move.only_moveTask r) fun _ => trivial
    obtain ⟨H, f, hm, hp, heq⟩ := leaves_commit hworks hleaves
    obtain ⟨f', hmove, hmap⟩ := leaves_map hp
    have hrest := Move.leaves_commit hmove
    obtain ⟨lane, p, s, time, hfinish, hs, hin, hsource, ht, hothers⟩ := rows_of_move hb hT.2 hT.1.1 hm hrest
    cases he with
    | acts ha =>
      cases ha
      refine ⟨.taskMoved, _, _, ?_, reporting_of_move hs hin hsource ht hothers⟩
      rw [heq, hmap, hfinish, Move.finish_eq, sequel_bind]
    | givesUp ha => cases ha
  . have hworks : Only (I := calls) (Call.WorksOn r.workspace r.lane) (renormalize r).program :=
      only_bind ((Renormalize.only_renormalizeLane r).mono fun _ => Renormalize.worksOn_of_uses) fun _ => trivial
    obtain ⟨H, f, hm, hp, heq⟩ := leaves_commit hworks hleaves
    obtain ⟨f', hrenormalize, hmap⟩ := leaves_map hp
    obtain ⟨lane, tasks, hlane, hfinish⟩ := Renormalize.leaves_commit hrenormalize
    cases he with
    | acts ha =>
      cases ha
      refine ⟨.laneRenormalized, _, _, ?_, reporting_of_renormalize tasks hlane (lane?_of_renormalization hb hT.2 hT.1.1)⟩
      rw [heq, hmap, hfinish, sequel_bind]
      rfl
    | givesUp ha => cases ha

end Request

end LaneOrder
