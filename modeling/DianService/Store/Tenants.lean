import Mathlib.Data.List.Flatten
import DianService.Application.Inbound
import DianService.Issue.Alone
import DianService.Lib.Isolation
import DianService.Store.Deliveries

/-
  Store: the calls that tenants make of `PgStore`, one after the other, and what of the tables is
  of one tenant. Every query of these calls names the tenant; where it does not (a primary key, a
  job's document, the deliveries of a webhook) the ids and the foreign keys keep the tenants
  apart.
-/

namespace DianService

open Lib

/-! ## The calls -/

inductive TenantCall where
  /-- `now` is the clock at the first statement and `later` at those that follow. -/
  | issueOutbound (r : Request) (now : Time) (later : List Time)
  | insertInbound (document : NewInboundDocument) (now : Time)
  | findTenantDocument (tenant_id id : Uuid)
  | createWebhook (webhook : Webhook)
  | listWebhooks (tenant_id : Uuid)
  | deleteWebhook (tenant_id webhook_id : Uuid)

inductive TenantAnswer where
  /-- The connection was lost on the way. -/
  | lost
  | issued (result : Except DomainError IssueOutcome)
  | inserted (result : Except DomainError Bool)
  | document (d : Option Document)
  | created (result : Except DomainError Unit)
  | webhooks (ws : List Webhook)
  | deleted (result : Except DomainError Bool)

namespace TenantCall

def tenant : TenantCall → Uuid
  | .issueOutbound r _ _ => r.document.tenant_id
  | .insertInbound document _ => document.tenant_id
  | .findTenantDocument tenant_id _ | .listWebhooks tenant_id | .deleteWebhook tenant_id _ =>
      tenant_id
  | .createWebhook webhook => webhook.tenant_id

/-- The ids drawn for the rows of the call. -/
def newIds : TenantCall → List Uuid
  | .issueOutbound r _ _ => [r.document.id, r.job_id]
  | .insertInbound document _ => [document.id]
  | .createWebhook webhook => [webhook.id]
  | _ => []

end TenantCall

/-- No two calls draw the same id, nor one that is taken. -/
structure FreshIds (calls : List TenantCall) (taken : List Uuid) : Prop where
  nodup : (calls.flatMap TenantCall.newIds).Nodup
  new : ∀ id ∈ calls.flatMap TenantCall.newIds, id ∉ taken

theorem FreshIds.sublist {calls calls' : List TenantCall} {taken : List Uuid}
    (h : FreshIds calls taken) (hsub : calls'.Sublist calls) : FreshIds calls' taken where
  nodup := h.nodup.sublist (hsub.flatMap _)
  new id hid := h.new id ((hsub.flatMap _).subset hid)

/-- The ids of the first call are taken once it is made. -/
theorem FreshIds.tail {c : TenantCall} {calls : List TenantCall} {taken taken' : List Uuid}
    (h : FreshIds (c :: calls) taken) (htaken : ∀ id ∈ taken', id ∈ taken ∨ id ∈ c.newIds) :
    FreshIds calls taken' := by
  have hnodup := h.nodup
  rw [List.flatMap_cons, List.nodup_append] at hnodup
  refine ⟨hnodup.2.1, fun id hid hmem => ?_⟩
  cases htaken id hmem with
  | inl hold => exact h.new id (((List.sublist_cons_self c calls).flatMap _).subset hid) hold
  | inr hfirst => exact hnodup.2.2 id hfirst id hid rfl

theorem FreshIds.head {c : TenantCall} {calls : List TenantCall} {taken : List Uuid}
    (h : FreshIds (c :: calls) taken) : ∀ id ∈ c.newIds, id ∉ taken := fun id hid =>
  h.new id (List.mem_flatMap.mpr ⟨c, List.mem_cons_self, hid⟩)

/-! ## `PgStore` -/

/-- The unique key `uq_tenant_document` of a received document. -/
def Document.isReceived (d : Document) (document : NewInboundDocument) : Bool :=
  d.tenant_id = document.tenant_id ∧ d.direction = .inbound ∧
    d.issuer_nit = document.issuer_nit ∧ d.document_type = document.document_type ∧
    d.pfx = document.pfx ∧ d.document_number = document.document_number

def NewInboundDocument.row (document : NewInboundDocument) (now : Time) : Document where
  id := document.id
  tenant_id := document.tenant_id
  direction := .inbound
  issuer_nit := document.issuer_nit
  document_type := document.document_type
  pfx := document.pfx
  document_number := document.document_number
  numbering_range_id := none
  cufe_cude := document.cufe
  payload := document.payload
  original_xml := none
  signed_xml := some document.signed_xml
  status := document.status
  created_at := now

namespace Db

/-- `ON CONFLICT ON CONSTRAINT uq_tenant_document DO NOTHING` -/
def insertInbound (db : Db) (document : NewInboundDocument) (now : Time) :
    Except DomainError (Db × Bool) :=
  if db.documents.any fun d => d.isReceived document then .ok (db, false)
  else if db.documents.any fun d => d.id = document.id then
    .error (refused "duplicate key value violates unique constraint \"documents_pkey\"")
  else if ¬ db.tenants.any fun t => t.id = document.tenant_id then
    .error (refused ("insert or update on table \"documents\" violates foreign key constraint " ++
      "\"documents_tenant_id_fkey\""))
  else .ok ({ db with documents := db.documents ++ [document.row now] }, true)

def findTenantDocument (db : Db) (tenant_id id : Uuid) : Option Document :=
  db.documents.find? fun d => d.id = id ∧ d.tenant_id = tenant_id

/-- `ORDER BY id` -/
def listWebhooks (db : Db) (tenant_id : Uuid) : List Webhook :=
  orderBy (fun w => w.id) (db.webhooks.filter fun w => w.tenant_id = tenant_id)

end Db

def Phase.answer : Phase → TenantAnswer
  | .done result => .issued result
  | _ => .lost

/-- The statements of `issue_outbound` with nothing else in course, and its answer. -/
def issueCall (r : Request) : List Time → Db → Phase → TenantAnswer × Db
  | [], db, p => (p.answer, db)
  | now :: times, db, p =>
      match advance db [] r now p with
      | none => (p.answer, db)
      | some (db', p') => issueCall r times db' p'

/-- It is the transaction `issueAlone` that leaves the tables. -/
theorem issueCall_db (r : Request) (times : List Time) (db : Db) (p : Phase) :
    (issueCall r times db p).2 = issueAlone r times db p := by
  induction times generalizing db p with
  | nil => rfl
  | cons now times ih =>
      unfold issueCall issueAlone
      cases advance db [] r now p with
      | none => rfl
      | some next => exact ih next.1 next.2

/-- A statement that is refused changes nothing. -/
def Db.answered {α : Type} (db : Db) (f : Except DomainError α → TenantAnswer) :
    Except DomainError (Db × α) → TenantAnswer × Db
  | .ok (db', a) => (f (.ok a), db')
  | .error e => (f (.error e), db)

def tenantCall (c : TenantCall) (db : Db) : TenantAnswer × Db :=
  match c with
  | .issueOutbound r now later => issueCall r (now :: later) db .lookup
  | .insertInbound document now => db.answered .inserted (db.insertInbound document now)
  | .findTenantDocument tenant_id id => (.document (db.findTenantDocument tenant_id id), db)
  | .createWebhook webhook =>
      db.answered .created ((db.createWebhook webhook).map (·, ()))
  | .listWebhooks tenant_id => (.webhooks (db.listWebhooks tenant_id), db)
  | .deleteWebhook tenant_id webhook_id =>
      let r := db.deleteWebhook tenant_id webhook_id
      (.deleted (.ok r.2), r.1)

def pgService : Lib.Service Db TenantCall TenantAnswer Uuid where
  call := tenantCall
  domain := TenantCall.tenant

/-! ## What is of a tenant -/

namespace Db

def ownsJob (db : Db) (tenant_id : Uuid) (j : JobRow) : Bool :=
  db.documents.any fun d => d.id = j.document_id ∧ d.tenant_id = tenant_id

def ownsDelivery (db : Db) (tenant_id : Uuid) (r : DeliveryRow) : Bool :=
  db.webhooks.any fun w => w.id = r.webhook_id ∧ w.tenant_id = tenant_id

/-- The documents, numbering ranges, idempotency keys, jobs, webhooks and deliveries of the
    tenant, and the tables none of the calls writes. -/
def ofTenant (tenant_id : Uuid) (db : Db) : Db :=
  { db with
    numbering_ranges := db.numbering_ranges.filter fun r => r.tenant_id = tenant_id
    documents := db.documents.filter fun d => d.tenant_id = tenant_id
    idempotency_keys := db.idempotency_keys.filter fun k => k.tenant_id = tenant_id
    jobs := db.jobs.filter fun j => db.ownsJob tenant_id j
    webhooks := db.webhooks.filter fun w => w.tenant_id = tenant_id
    webhook_deliveries := db.webhook_deliveries.filter fun r => db.ownsDelivery tenant_id r }

/-- The primary keys and foreign keys of the schema that the calls rest on. -/
structure Linked (db : Db) : Prop where
  numbering_ranges : (db.numbering_ranges.map NumberingRange.id).Nodup
  webhooks : (db.webhooks.map Webhook.id).Nodup
  jobs : ∀ j ∈ db.jobs, ∃ d ∈ db.documents, d.id = j.document_id
  deliveries : ∀ r ∈ db.webhook_deliveries, ∃ w ∈ db.webhooks, w.id = r.webhook_id

def takenIds (db : Db) : List Uuid :=
  db.documents.map Document.id ++ db.jobs.map JobRow.id ++ db.webhooks.map Webhook.id

end Db

end DianService
