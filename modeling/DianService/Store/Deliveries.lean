import DianService.Store.Documents

/-
  Store: the webhooks and the outbox of their deliveries of `PgStore` (`WebhookRepository` and
  `retry_dead_delivery`), and what the dispatcher (`webhooks.rs`) records of a delivery it sent.
  A claim of deliveries is one statement and has no bound on the attempts; it is the dispatcher
  that buries a delivery after its last one.
-/

namespace DianService

open Lib

/-- A claimed delivery, with the data of its webhook. -/
structure WebhookDelivery where
  id : Uuid
  tenant_id : Uuid
  event_type : String
  data : Value
  attempts : Int
  max_attempts : Int
  created_at : Time
  target_url : String
  secret : String
  active : Bool

/-! ## Rows -/

namespace DeliveryRow

def ready (d : DeliveryRow) (now : Time) : Bool :=
  (d.status = .queued ∧ d.run_at ≤ now) ∨ (d.status = .running ∧ d.locked_until.any (· < now))

def claimed (lease : Nat) (now : Time) (d : DeliveryRow) : DeliveryRow :=
  { d with
    status := .running
    attempts := d.attempts + 1
    locked_until := some (now + lease) }

def completed (status_code : Int) (d : DeliveryRow) : DeliveryRow :=
  { d with
    status := .delivered
    locked_until := none
    last_status_code := some status_code }

def retried (run_at : Time) (error : String) (status_code : Option Int) (d : DeliveryRow) :
    DeliveryRow :=
  { d with
    status := .queued
    run_at := run_at
    locked_until := none
    last_error := some error
    last_status_code := status_code }

def buried (error : String) (status_code : Option Int) (d : DeliveryRow) : DeliveryRow :=
  { d with
    status := .dead
    locked_until := none
    last_error := some error
    last_status_code := status_code }

/-- What `retry_dead_delivery` makes of a dead delivery. -/
def revived (now : Time) (d : DeliveryRow) : DeliveryRow :=
  { d with
    status := .queued
    attempts := 0
    run_at := now
    locked_until := none }

/-- The delivery a dispatcher gets from the row it claimed. -/
def delivery (d : DeliveryRow) (w : Webhook) : WebhookDelivery where
  id := d.id
  tenant_id := w.tenant_id
  event_type := d.event_type
  data := d.data
  attempts := d.attempts
  max_attempts := d.max_attempts
  created_at := d.created_at
  target_url := w.target_url
  secret := w.webhook_secret
  active := w.subscription_status = .active

end DeliveryRow

namespace Db

/-! ## Subscriptions -/

def createWebhook (db : Db) (webhook : Webhook) : Except DomainError Db :=
  if db.webhooks.any fun w => w.id = webhook.id then
    .error (refused "duplicate key value violates unique constraint \"webhooks_pkey\"")
  else if ¬ db.tenants.any fun t => t.id = webhook.tenant_id then
    .error (refused ("insert or update on table \"webhooks\" violates foreign key constraint " ++
      "\"webhooks_tenant_id_fkey\""))
  else .ok { db with webhooks := db.webhooks ++ [webhook] }

/-- `ON DELETE CASCADE` takes the deliveries of the webhook along. -/
def deleteWebhook (db : Db) (tenant_id webhook_id : Uuid) : Db × Bool :=
  if db.webhooks.any fun w => w.id = webhook_id ∧ w.tenant_id = tenant_id then
    ({ db with
      webhooks := db.webhooks.filter fun w => ¬ (w.id = webhook_id ∧ w.tenant_id = tenant_id)
      webhook_deliveries := db.webhook_deliveries.filter fun d => d.webhook_id ≠ webhook_id },
      true)
  else (db, false)

theorem createWebhook_ok {db db' : Db} {webhook : Webhook} (h : db.createWebhook webhook = .ok db') :
    db' = { db with webhooks := db.webhooks ++ [webhook] } ∧
      ∀ w ∈ db.webhooks, w.id ≠ webhook.id := by
  unfold createWebhook at h
  split at h
  · cases h
  · rename_i hfree
    split at h <;> cases h
    exact ⟨rfl, by simpa using hfree⟩

/-! ## Statements -/

/-- `UPDATE webhook_deliveries SET ...`, row by row. -/
def mapDeliveries (db : Db) (f : DeliveryRow → DeliveryRow) : Db :=
  { db with webhook_deliveries := db.webhook_deliveries.map f }

def updateDelivery (db : Db) (id : Uuid) (f : DeliveryRow → DeliveryRow) : Db :=
  db.mapDeliveries fun d => if d.id = id then f d else d

def completeDelivery (db : Db) (delivery_id : Uuid) (status_code : Int) : Db :=
  db.updateDelivery delivery_id (DeliveryRow.completed status_code)

def retryDelivery (db : Db) (delivery_id : Uuid) (run_at : Time) (error : String)
    (status_code : Option Int) : Db :=
  db.updateDelivery delivery_id (DeliveryRow.retried run_at error status_code)

def buryDelivery (db : Db) (delivery_id : Uuid) (error : String) (status_code : Option Int) : Db :=
  db.updateDelivery delivery_id (DeliveryRow.buried error status_code)

def webhook? (db : Db) (id : Uuid) : Option Webhook := db.webhooks.find? fun w => w.id = id

/-- The deliveries that `claim_deliveries` picks, each with its webhook. -/
def readyDeliveries (db : Db) (limit : Nat) (now : Time) (skipped : List Uuid) :
    List (DeliveryRow × Webhook) :=
  ((orderBy DeliveryRow.run_at (db.webhook_deliveries.filter fun d =>
    d.ready now ∧ d.id ∉ skipped)).take limit).filterMap fun d =>
      (db.webhook? d.webhook_id).map fun w => (d, w)

def claimDeliveries (db : Db) (limit lease : Nat) (now : Time) (skipped : List Uuid) :
    Db × List WebhookDelivery :=
  let picked := db.readyDeliveries limit now skipped
  (db.mapDeliveries fun d =>
      if d.id ∈ picked.map (fun p => p.1.id) then d.claimed lease now else d,
    picked.map fun p => (p.1.claimed lease now).delivery p.2)

/-- Only a dead delivery is put back in the queue. -/
def retryDeadDelivery (db : Db) (delivery_id : Uuid) (audit : AuditEntry) (now : Time) :
    Db × Bool :=
  if db.webhook_deliveries.any fun d => d.id = delivery_id ∧ d.status = .dead then
    ({ db.mapDeliveries fun d =>
        if d.id = delivery_id ∧ d.status = .dead then d.revived now else d with
      admin_audit_log := db.admin_audit_log ++ [audit] }, true)
  else (db, false)

end Db

/-! ## The dispatcher -/

/-- What the dispatcher records of a delivery. -/
inductive DeliveryOutcome where
  | delivered (status_code : Int)
  | retried (run_at : Time) (error : String) (status_code : Option Int)
  | dead (error : String) (status_code : Option Int)

/-- The end of `deliver`: `now` is the instant it started at, `post` the outcome of the request
    and `delay` the backoff. -/
def deliverOutcome (delivery : WebhookDelivery) (now : Time) (post : Except DomainError Nat)
    (delay : Int) : DeliveryOutcome :=
  if ¬ delivery.active then .dead "subscription inactive" none
  else
    let failed (error : String) (status_code : Option Int) : DeliveryOutcome :=
      if delivery.attempts ≥ delivery.max_attempts then .dead error status_code
      else .retried (now + delay) error status_code
    match post with
    | .ok code =>
        if 200 ≤ code ∧ code < 300 then .delivered code
        else failed ("HTTP " ++ toString code) (some code)
    | .error e => failed e.message none

def Db.recordDelivery (db : Db) (delivery_id : Uuid) : DeliveryOutcome → Db
  | .delivered status_code => db.completeDelivery delivery_id status_code
  | .retried run_at error status_code => db.retryDelivery delivery_id run_at error status_code
  | .dead error status_code => db.buryDelivery delivery_id error status_code

end DianService
