import DianService.Store.Jobs
import DianService.Domain.Numbering

/-
  Store: the documents of `PgStore` (`DocumentRepository` but for `issue_outbound`): the signed
  XML, the events and the transitions with their outbox.

  `apply_transition` is one transaction: the change of status, the notifications it triggers, its
  event, the closing of the job in course and the job that follows are committed together or not
  at all.
-/

namespace DianService

open Lib

/-- Delivery attempts before a notification is dead. -/
def MAX_DELIVERY_ATTEMPTS : Int := 10

/-- `webhooks::notification_data` -/
def notificationData (document_id : Uuid) (document_type pfx : String) (number : Int)
    (status : DocumentStatus) (cufe : Option String) : Value :=
  .object [("document_id", .string (uuidText document_id)),
    ("document_type", .string document_type),
    ("prefix", .string pfx),
    ("number", .number number),
    ("status", .string status.asStr),
    ("cufe", ((cufe.filter (· ≠ "")).map Value.string).getD .null)]

def Document.signed (cufe original_xml signed_xml : String) (d : Document) : Document :=
  { d with
    cufe_cude := cufe
    original_xml := some original_xml
    signed_xml := some signed_xml }

/-- What a delivery is about: the document, the webhook and the event. -/
def DeliveryRow.notice (r : DeliveryRow) : Uuid × Uuid × String :=
  (r.document_id, r.webhook_id, r.event_type)

namespace Db

def storeArtifacts (db : Db) (id : Uuid) (cufe original_xml signed_xml : String) :
    Except DomainError Db :=
  match db.document? id with
  | none => .error (.notFound ("document " ++ uuidText id))
  | some _ => .ok (db.updateDocument id (Document.signed cufe original_xml signed_xml))

/-- `insert_event` -/
def insertEvent (db : Db) (event : DianEvent) : Except DomainError Db :=
  if db.dian_events.any fun e => e.id = event.id then
    .error (refused "duplicate key value violates unique constraint \"dian_events_pkey\"")
  else if (db.document? event.document_id).isNone then
    .error (refused ("insert or update on table \"dian_events\" violates foreign key constraint " ++
      "\"dian_events_document_id_fkey\""))
  else .ok { db with dian_events := db.dian_events ++ [event] }

/-! ## Transitions -/

/-- The subscriptions of the tenant to an event. -/
def subscribers (db : Db) (tenant_id : Uuid) (event_type : String) : List Webhook :=
  db.webhooks.filter fun w => w.tenant_id = tenant_id ∧ w.subscription_status = .active ∧
    (w.event_type = event_type ∨ w.event_type = "*")

/-- A new row of the outbox. -/
def deliveryRow (d : Document) (target : DocumentStatus) (event_type : String) (now : Time)
    (id : Uuid) (w : Webhook) : DeliveryRow where
  id := id
  webhook_id := w.id
  document_id := d.id
  event_type := event_type
  data := notificationData d.id d.document_type.asStr d.pfx d.document_number target
    (some d.cufe_cude)
  status := .queued
  attempts := 0
  max_attempts := MAX_DELIVERY_ATTEMPTS
  run_at := now
  locked_until := none
  last_error := none
  last_status_code := none
  created_at := now

/-- Whom an arrival of `d` at `target` is notified to, with its event. -/
def notified (db : Db) (d : Document) (target : DocumentStatus) : List (Uuid × Uuid × String) :=
  match eventFor target with
  | none => []
  | some event_type => (db.subscribers d.tenant_id event_type).map fun w => (d.id, w.id, event_type)

/-- The outbox of a transition of `d`; `fresh` are the ids `gen_random_uuid()` draws. -/
def notify (db : Db) (d : Document) (target : DocumentStatus) (now : Time) (fresh : Nat → Uuid) :
    Except DomainError Db :=
  match eventFor target with
  | none => .ok db
  | some event_type =>
      let rows := (db.subscribers d.tenant_id event_type).mapIdx fun i w =>
        deliveryRow d target event_type now (fresh i) w
      if ¬ ((db.webhook_deliveries ++ rows).map DeliveryRow.id).Nodup then
        .error (refused "duplicate key value violates unique constraint \"webhook_deliveries_pkey\"")
      else .ok { db with webhook_deliveries := db.webhook_deliveries ++ rows }

def closeJob (db : Db) : Option JobOutcome → Db
  | none => db
  | some (.complete id) => db.complete id
  | some (.bury id error) => db.bury id error

def insertEvent? (db : Db) : Option DianEvent → Except DomainError Db
  | none => .ok db
  | some event => db.insertEvent event

def insertJob? (db : Db) : Option NewJob → Except DomainError Db
  | none => .ok db
  | some job => do
      let db' ← db.insertJob job
      if (db.document? job.document_id).isNone then
        .error (refused ("insert or update on table \"jobs\" violates foreign key constraint " ++
          "\"jobs_document_id_fkey\""))
      else return db'

def applyTransition (db : Db) (t : Transition) (now : Time) (fresh : Nat → Uuid) :
    Except DomainError (Db × Bool) :=
  match (db.document? t.document_id).filter fun d =>
      d.status ∈ t.target.allowedPredecessors with
  | none => .ok (db, false)
  | some d => do
      let db := db.updateDocument d.id (Document.moved t.target)
      let db ← db.notify d t.target now fresh
      let db ← db.insertEvent? t.event
      let db ← (db.closeJob t.job).insertJob? t.follow_up
      return (db, true)

/-! ### What they do -/

@[simp] theorem closeJob_documents (db : Db) (o : Option JobOutcome) :
    (db.closeJob o).documents = db.documents := by
  rcases o with _ | _ | _ <;> rfl

@[simp] theorem closeJob_dian_events (db : Db) (o : Option JobOutcome) :
    (db.closeJob o).dian_events = db.dian_events := by
  rcases o with _ | _ | _ <;> rfl

@[simp] theorem closeJob_webhook_deliveries (db : Db) (o : Option JobOutcome) :
    (db.closeJob o).webhook_deliveries = db.webhook_deliveries := by
  rcases o with _ | _ | _ <;> rfl

@[simp] theorem closeJob_numbering_ranges (db : Db) (o : Option JobOutcome) :
    (db.closeJob o).numbering_ranges = db.numbering_ranges := by
  rcases o with _ | _ | _ <;> rfl

@[simp] theorem closeJob_webhooks (db : Db) (o : Option JobOutcome) :
    (db.closeJob o).webhooks = db.webhooks := by
  rcases o with _ | _ | _ <;> rfl

theorem closeJob_jobs_congr {db db' : Db} (h : db'.jobs = db.jobs) (o : Option JobOutcome) :
    (db'.closeJob o).jobs = (db.closeJob o).jobs := by
  rcases o with _ | _ | _ <;> simp [closeJob, complete, bury, h]

theorem storeArtifacts_ok {db db' : Db} {id : Uuid} {cufe original_xml signed_xml : String}
    (h : db.storeArtifacts id cufe original_xml signed_xml = .ok db') :
    db' = db.updateDocument id (Document.signed cufe original_xml signed_xml) := by
  unfold storeArtifacts at h
  split at h <;> cases h
  rfl

theorem insertEvent_ok {db db' : Db} {event : DianEvent} (h : db.insertEvent event = .ok db') :
    db' = { db with dian_events := db.dian_events ++ [event] } := by
  unfold insertEvent at h
  split at h
  · cases h
  · split at h <;> cases h
    rfl

/-- Deliveries are only added to the outbox, in the queue, not attempted yet and with ids of their
    own. -/
def Outbox (db db' : Db) : Prop :=
  ∃ rows : List DeliveryRow, db'.webhook_deliveries = db.webhook_deliveries ++ rows ∧
    (∀ r ∈ rows, r.status = .queued ∧ r.attempts = 0 ∧ r.max_attempts = MAX_DELIVERY_ATTEMPTS) ∧
    ((db.webhook_deliveries.map DeliveryRow.id).Nodup →
      (db'.webhook_deliveries.map DeliveryRow.id).Nodup)

theorem Outbox.of_eq {db db' : Db} (h : db'.webhook_deliveries = db.webhook_deliveries) :
    db.Outbox db' :=
  ⟨[], by simp [h], by simp, by simp [h]⟩

theorem notify_ok {db db' : Db} {d : Document} {target : DocumentStatus} {now : Time}
    {fresh : Nat → Uuid} (h : db.notify d target now fresh = .ok db') :
    db' = { db with webhook_deliveries := db'.webhook_deliveries } ∧ db.Outbox db' ∧
      db'.webhook_deliveries.map DeliveryRow.notice =
        db.webhook_deliveries.map DeliveryRow.notice ++ db.notified d target := by
  unfold notify at h
  split at h
  · rename_i hnone
    cases h
    exact ⟨rfl, .of_eq rfl, by simp [notified, hnone]⟩
  · rename_i event_type hsome
    dsimp only at h
    split at h
    · cases h
    · rename_i hids
      cases h
      refine ⟨rfl, ⟨_, rfl, ?_, fun _ => not_not.mp hids⟩, ?_⟩
      · intro r hr
        obtain ⟨i, hi, rfl⟩ := List.mem_mapIdx.mp hr
        exact ⟨rfl, rfl, rfl⟩
      · dsimp only
        have hnotices : ∀ i w, (deliveryRow d target event_type now (fresh i) w).notice =
            (d.id, w.id, event_type) := fun _ _ => rfl
        rw [List.map_append, notified, hsome, map_mapIdx hnotices]

theorem insertEvent?_ok {db db' : Db} {event : Option DianEvent}
    (h : db.insertEvent? event = .ok db') :
    db' = { db with dian_events := db.dian_events ++ event.toList } := by
  cases event with
  | none =>
      cases h
      simp
  | some event => exact insertEvent_ok h

theorem insertJob?_ok {db db' : Db} {job : Option NewJob} (h : db.insertJob? job = .ok db') :
    db' = { db with jobs := db.jobs ++ job.toList.map NewJob.row } ∧
      ∀ new ∈ job, (∀ j ∈ db.jobs, j.id ≠ new.id) ∧
        db.hasActiveJob new.document_id new.kind = false ∧
        (∃ d ∈ db.documents, d.id = new.document_id) ∧ 0 < new.max_attempts := by
  cases job with
  | none =>
      cases h
      simp
  | some job =>
      simp only [insertJob?, bind, Except.bind, pure, Except.pure] at h
      split at h
      · cases h
      · rename_i db₁ hinsert
        split at h
        · cases h
        · rename_i hfound
          cases h
          obtain ⟨hdb, hid, hactive, hmax⟩ := insertJob_ok hinsert
          refine ⟨hdb, ?_⟩
          rintro new ⟨⟩
          obtain ⟨d, hd⟩ := Option.isSome_iff_exists.mp (Option.isSome_iff_ne_none.mpr
            (by simpa using hfound))
          exact ⟨hid, hactive, ⟨d, document?_mem hd⟩, hmax⟩

/-- What a transition that is applied does to the tables. -/
structure Applied (db : Db) (t : Transition) (d : Document) (db' : Db) : Prop where
  found : db.document? t.document_id = some d
  allowed : d.status ∈ t.target.allowedPredecessors
  documents : db'.documents =
    db.documents.map fun e => if e.id = d.id then e.moved t.target else e
  dian_events : db'.dian_events = db.dian_events ++ t.event.toList
  jobs : db'.jobs = (db.closeJob t.job).jobs ++ t.follow_up.toList.map NewJob.row
  follow_up : ∀ new ∈ t.follow_up, (∀ j ∈ (db.closeJob t.job).jobs, j.id ≠ new.id) ∧
    (db.closeJob t.job).hasActiveJob new.document_id new.kind = false ∧
    (∃ e ∈ db'.documents, e.id = new.document_id) ∧ 0 < new.max_attempts
  outbox : db.Outbox db'
  notices : db'.webhook_deliveries.map DeliveryRow.notice =
    db.webhook_deliveries.map DeliveryRow.notice ++ db.notified d t.target
  numbering_ranges : db'.numbering_ranges = db.numbering_ranges
  webhooks : db'.webhooks = db.webhooks

theorem applyTransition_ok {db db' : Db} {t : Transition} {now : Time} {fresh : Nat → Uuid}
    {b : Bool} (h : db.applyTransition t now fresh = .ok (db', b)) :
    (b = false ∧ db' = db ∧ ∀ d, db.document? t.document_id = some d →
      d.status ∉ t.target.allowedPredecessors) ∨
    (b = true ∧ ∃ d, db.Applied t d db') := by
  unfold applyTransition at h
  split at h
  · rename_i hnone
    cases h
    refine .inl ⟨rfl, rfl, fun d hd => ?_⟩
    simpa [hd] using hnone
  · rename_i d hd
    rw [Option.filter_eq_some_iff, decide_eq_true_eq] at hd
    simp only [bind, Except.bind, pure, Except.pure] at h
    split at h
    · cases h
    · rename_i db₁ h₁
      split at h
      · cases h
      · rename_i db₂ h₂
        split at h
        · cases h
        · rename_i db₃ h₃
          cases h
          obtain ⟨hn, hout, hnotices⟩ := notify_ok h₁
          have he := insertEvent?_ok h₂
          obtain ⟨hj, hnew⟩ := insertJob?_ok h₃
          have hjobs : db₂.jobs = db.jobs := by rw [he, hn]; rfl
          have hclose := closeJob_jobs_congr hjobs t.job
          have hdocs : db₁.documents = (db.updateDocument d.id (Document.moved t.target)).documents := by
            rw [hn]
          have hevents : db₁.dian_events = db.dian_events := by rw [hn]; rfl
          have hsame : db'.webhook_deliveries = db₁.webhook_deliveries := by
            rw [hj, closeJob_webhook_deliveries, he]
          refine .inr ⟨rfl, d, hd.1, hd.2, ?_, ?_, ?_, ?_, ?_, hsame ▸ hnotices, ?_, ?_⟩
          · rw [hj]
            simp [he, hdocs]
          · rw [hj]
            simp [he, hevents]
          · rw [hj, hclose]
          · intro new hmem
            have := hnew new hmem
            rw [hclose] at this
            refine ⟨this.1, by simpa [hasActiveJob, hclose] using this.2.1, ?_⟩
            rw [hj]
            exact this.2.2
          · obtain ⟨rows, hrows, hqueued, hnodup⟩ := hout
            exact ⟨rows, hsame.trans hrows, hqueued, fun hn => hsame ▸ hnodup hn⟩
          · rw [hj, closeJob_numbering_ranges, he, hn]
            rfl
          · rw [hj, closeJob_webhooks, he, hn]
            rfl

end Db

end DianService
