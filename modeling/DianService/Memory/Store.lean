import DianService.Application.Inbound
import DianService.Memory.State
import DianService.Store.Issue

/-
  Memory: the documents, the webhooks and the administration of `InMemoryStore`
  (`DocumentRepository`, `WebhookRepository`, `AdminRepository`).
-/

namespace DianService.Memory

open Lib

/-! ## Documents -/

/-- `max_by_key`: the last of the largest. -/
def maxByKey {ρ : Type} (f : ρ → Int) (rows : List ρ) : Option ρ := latestBy f rows.reverse

def State.findRange (s : State) (document : NewOutboundDocument) (now : Time) :
    Option NumberingRange :=
  maxByKey NumberingRange.valid_date_from (s.ranges.rows.filter fun r => r.serves document now)

def State.hasNumber (s : State) (document : NewOutboundDocument) (number : Int) : Bool :=
  s.documents.rows.any fun d => d.tenant_id = document.tenant_id ∧ d.direction = .outbound ∧
    d.document_type = document.document_type ∧ d.pfx = document.pfx ∧ d.document_number = number

def State.findIdempotency (s : State) (document : NewOutboundDocument) : Option IdempotencyRow :=
  document.idempotency.bind fun key => s.idempotency.get? (document.tenant_id, key.key)

/-- What `issue_outbound` finds out before it writes anything: the answer of an earlier request
    with the key, or the range and the number. -/
inductive Numbering where
  | replayed (issued : IssuedDocument)
  | given (range : NumberingRange) (number : Int)

def State.number (s : State) (document : NewOutboundDocument) (now : Time) :
    Except DomainError Numbering :=
  match s.findIdempotency document with
  | some row =>
      if some row.request_hash ≠ document.idempotency.map (·.request_hash) then
        .error (.validation "La clave de idempotencia ya se uso con un cuerpo distinto")
      else .ok (.replayed row.issued)
  | none =>
      match s.findRange document now with
      | none => .error (noRange document)
      | some range =>
          match nextNumber range document.requested_number now with
          | .error e => .error e
          | .ok number =>
              if s.hasNumber document number then .error (documentExists document number)
              else .ok (.given range number)

def outboundRow (document : NewOutboundDocument) (range : NumberingRange) (number : Int)
    (now : Time) : Document where
  id := document.id
  tenant_id := document.tenant_id
  direction := .outbound
  issuer_nit := ""
  document_type := document.document_type
  pfx := document.pfx
  document_number := number
  numbering_range_id := some range.id
  cufe_cude := ""
  payload := document.payload
  original_xml := none
  signed_xml := none
  status := .pending
  created_at := now

/-- The counter and the document, before the job is inserted. -/
def State.numbered (s : State) (document : NewOutboundDocument) (range : NumberingRange)
    (number : Int) (now : Time) : State :=
  { s with
    ranges := s.ranges.modify range.id (fun r => { r with current_counter := number }) fun _ => rfl
    documents := s.documents.insert (outboundRow document range number now) }

def State.withKey (s : State) (document : NewOutboundDocument) (number : Int) : State :=
  match document.idempotency with
  | none => s
  | some key =>
      { s with
        idempotency := s.idempotency.insert
          ⟨document.tenant_id, key.key, key.request_hash, document.id, number⟩ }

def issueOutbound (document : NewOutboundDocument) (initial_job : NewJob) (now : Time) :
    StoreM IssueOutcome := do
  match (← get).number document now with
  | .error e => throw e
  | .ok (.replayed issued) => return .replayed issued
  | .ok (.given range number) =>
      modify fun s => s.numbered document range number now
      insertJob initial_job
      modify fun s => s.withKey document number
      return .created ⟨document.id, number⟩

def State.hasInbound (s : State) (document : NewInboundDocument) : Bool :=
  s.documents.rows.any fun d => d.tenant_id = document.tenant_id ∧ d.direction = .inbound ∧
    d.issuer_nit = document.issuer_nit ∧ d.document_type = document.document_type ∧
    d.pfx = document.pfx ∧ d.document_number = document.document_number

def inboundRow (document : NewInboundDocument) (now : Time) : Document where
  id := document.id
  tenant_id := document.tenant_id
  direction := .inbound
  issuer_nit := document.issuer_nit
  document_type := document.document_type
  pfx := document.pfx
  document_number := document.document_number
  numbering_range_id := none
  cufe_cude := document.cufe
  payload := document.payload
  original_xml := none
  signed_xml := some document.signed_xml
  status := document.status
  created_at := now

def insertInbound (document : NewInboundDocument) (now : Time) : StoreM Bool := do
  let s ← get
  if s.hasInbound document then return false
  set { s with documents := s.documents.insert (inboundRow document now) }
  return true

def storeArtifacts (id : Uuid) (cufe original_xml signed_xml : String) : StoreM Unit :=
  documentMut id (Document.signed cufe original_xml signed_xml) fun _ => rfl

def recordEvent (event : DianEvent) : StoreM Unit :=
  modify fun s => { s with events := s.events ++ [event] }

/-- The outbox of a transition: one delivery for each subscription of the tenant, with the ids of
    `fresh`. -/
def State.notify (s : State) (d : Document) (target : DocumentStatus) (now : Time)
    (fresh : Nat → Uuid) : State :=
  match eventFor target with
  | none => s
  | some event_type =>
      let targets := s.webhooks.filter fun w => w.tenant_id = d.tenant_id ∧
        w.subscription_status = .active ∧ (w.event_type = event_type ∨ w.event_type = "*")
      let rows := targets.mapIdx fun i w => Db.deliveryRow d target event_type now (fresh i) w
      { s with deliveries := rows.foldl Table.insert s.deliveries }

/-- The status, the outbox and the event of a transition of `d`. -/
def State.moved (s : State) (d : Document) (t : Transition) (now : Time) (fresh : Nat → Uuid) :
    State :=
  let s := { s with
    documents := s.documents.modify d.id (Document.moved t.target) fun _ => rfl }
  let s := s.notify d t.target now fresh
  { s with events := s.events ++ t.event.toList }

def closeJob : Option JobOutcome → StoreM Unit
  | none => return
  | some (.complete id) => complete id
  | some (.bury id error) => bury id error

def insertJob? : Option NewJob → StoreM Unit
  | none => return
  | some job => insertJob job

def applyTransition (t : Transition) (now : Time) (fresh : Nat → Uuid) : StoreM Bool := do
  let s ← get
  match s.documents.get? t.document_id with
  | none => throw (noDocument t.document_id)
  | some d =>
      if !d.status.canTransitionTo t.target then return false
      set (s.moved d t now fresh)
      closeJob t.job
      insertJob? t.follow_up
      return true

/-! ## Webhooks -/

def createWebhook (webhook : Webhook) : StoreM Unit :=
  modify fun s => { s with webhooks := s.webhooks ++ [webhook] }

def deleteWebhook (tenant_id webhook_id : Uuid) : StoreM Bool := do
  let s ← get
  let webhooks := s.webhooks.filter fun w => ¬ (w.id = webhook_id ∧ w.tenant_id = tenant_id)
  let deleted := webhooks.length < s.webhooks.length
  set { s with
    webhooks := webhooks
    deliveries := if deleted then s.deliveries.retain fun d => d.webhook_id ≠ webhook_id
      else s.deliveries }
  return deleted

def State.webhook? (s : State) (id : Uuid) : Option Webhook := s.webhooks.find? fun w => w.id = id

/-- The deliveries `claim_deliveries` picks. -/
def State.readyDeliveries (s : State) (limit : Int) (now : Time) : List StoredDelivery :=
  (orderBy DeliveryRow.run_at (s.deliveries.rows.filter fun d => d.ready now)).take limit.toNat

/-- One delivery: it is marked before its webhook is looked for. -/
def claimDelivery (lease : Nat) (now : Time) (d : StoredDelivery) : StoreM WebhookDelivery := do
  modify fun s =>
    { s with deliveries := s.deliveries.modify d.id (DeliveryRow.claimed lease now) fun _ => rfl }
  match (← get).webhook? d.webhook_id with
  | none => throw (.internal "delivery without webhook")
  | some w => return (d.claimed lease now).delivery w

def claimEach (lease : Nat) (now : Time) : List StoredDelivery → StoreM (List WebhookDelivery)
  | [] => return []
  | d :: ready => do
      let first ← claimDelivery lease now d
      let rest ← claimEach lease now ready
      return first :: rest

def claimDeliveries (limit : Int) (lease : Nat) (now : Time) : StoreM (List WebhookDelivery) := do
  let s ← get
  let ready := s.readyDeliveries limit now
  match fromStd? lease with
  | none =>
      throw (.internal "Source duration value is out of range for the target type")
  | some _ => claimEach lease now ready

def completeDelivery (delivery_id : Uuid) (status_code : Int) : StoreM Unit :=
  deliveryMut delivery_id (DeliveryRow.completed status_code) fun _ => rfl

def retryDelivery (delivery_id : Uuid) (run_at : Time) (error : String)
    (status_code : Option Int) : StoreM Unit :=
  deliveryMut delivery_id (DeliveryRow.retried run_at error status_code) fun _ => rfl

def buryDelivery (delivery_id : Uuid) (error : String) (status_code : Option Int) : StoreM Unit :=
  deliveryMut delivery_id (DeliveryRow.buried error status_code) fun _ => rfl

/-! ## Administration -/

/-- `iter_mut().find(p)`, and the change made to what it finds. -/
def updateFirst {ρ : Type} (p : ρ → Bool) (f : ρ → ρ) : List ρ → List ρ
  | [] => []
  | r :: rows => if p r then f r :: rows else r :: updateFirst p f rows

def createTenant (tenant : NewTenant) (audit : AuditEntry) (now : Time) : StoreM TenantRow := do
  let s ← get
  if s.tenants.any fun t => t.tax_id = tenant.tax_id then
    throw (.conflict ("Ya existe un tenant con NIT " ++ tenant.tax_id))
  set { s with tenants := s.tenants ++ [tenant.row now] }
  pushAudit audit
  return tenant.row now

def createApiKey (key : ApiKeyRecord) (audit : AuditEntry) : StoreM Unit := do
  modify fun s => { s with api_keys := s.api_keys ++ [key] }
  pushAudit audit

def revokeApiKey (tenant_id key_id : Uuid) (audit : AuditEntry) (now : Time) : StoreM Bool := do
  let s ← get
  if !s.api_keys.any fun k => k.isActive tenant_id key_id then return false
  let revoked := updateFirst (fun k => k.isActive tenant_id key_id)
    (fun k => { k with revoked_at := some now }) s.api_keys
  set { s with api_keys := revoked }
  pushAudit audit
  return true

def activateCertificate (certificate : Certificate) (audit : AuditEntry) : StoreM Unit := do
  modify fun s =>
    { s with
      certificates := (s.certificates.map fun c =>
        if c.isActive certificate.tenant_id then { c with status := .revoked } else c) ++
          [certificate] }
  pushAudit audit

def addNumberingRange (range : NumberingRange) (audit : AuditEntry) : StoreM Unit := do
  let s ← get
  if s.ranges.rows.any fun r => r.overlaps range then
    throw (.conflict "El rango se solapa en vigencia con otro del mismo tipo y prefijo")
  set { s with ranges := s.ranges.insert range }
  pushAudit audit

def retryDeadJob (job_id : Uuid) (audit : AuditEntry) (now : Time) : StoreM Bool := do
  let s ← get
  match (s.jobs.get? job_id).filter fun j => j.status = .dead with
  | none => return false
  | some job =>
      match s.documents.get? job.document_id with
      | none => throw (noDocument job.document_id)
      | some d =>
          if !Db.retryAllowed job.kind d.status then
            throw (Db.noLongerApplies job.kind d.status)
          if s.hasActiveJob job.document_id job.kind then
            throw (.conflict "El documento ya tiene un trabajo activo")
          let status := if job.kind = .transmit then .pending else d.status
          set { s with
            documents := s.documents.modify job.document_id (Document.moved status) fun _ => rfl
            jobs := s.jobs.modify job_id (StoredJob.revived now) fun _ => rfl }
          pushAudit audit
          return true

def retryDeadDelivery (delivery_id : Uuid) (audit : AuditEntry) (now : Time) : StoreM Bool := do
  let s ← get
  match (s.deliveries.get? delivery_id).filter fun d => d.status = .dead with
  | none => return false
  | some _ =>
      set { s with
        deliveries := s.deliveries.modify delivery_id
          (fun d => { d with status := .queued, attempts := 0, run_at := now }) fun _ => rfl }
      pushAudit audit
      return true

end DianService.Memory
