import DianService.Lib.Transaction
import DianService.Application.Ranges
import DianService.Store.Deliveries

/-
  Store: the administrative operations of `PgStore`, call by call. Each opens a transaction, runs
  its statements, adds its row to `admin_audit_log` and commits; an error on the way drops the
  transaction. A statement is refused by the constraints of its table (`migrations/`); whatever
  else the server or the connection refuses (a text longer than its column, a lost connection) is
  a call that fails.
-/

namespace DianService

open Lib Lib.Tx

/-! ## Rows -/

structure NewTenant where
  id : Uuid
  tax_id : String
  registration_name : String
  tax_regime : String
  reception_email : String

/-- The row `create_tenant` returns. Every column is NOT NULL and of the type `tenant_from_row`
    reads it as. -/
structure TenantRow extends Tenant where
  registration_name : String
  tax_regime : String
  address_info : Value
  reception_email : String
  api_keys : Value
  created_at : Time
  updated_at : Time

/-- An API key without the key. -/
structure ApiKeyRecord where
  id : Uuid
  tenant_id : Uuid
  name : String
  pfx : String
  key_hash : String
  created_at : Time
  revoked_at : Option Time
  deriving DecidableEq

inductive CertificateStatus where
  | active
  | expired
  | revoked
  deriving DecidableEq

structure Certificate where
  id : Uuid
  tenant_id : Uuid
  vault_reference_path : String
  thumbprint : String
  expiration_date : Time
  status : CertificateStatus
  deriving DecidableEq

/-- The tables, with those that only the administrator writes; `tenant_rows` are the rows of
    `tenants` with all their columns. -/
structure AdminDb extends Db where
  tenant_rows : List TenantRow
  api_keys : List ApiKeyRecord
  certificates : List Certificate

abbrev AdminTx := Lib.Tx AdminDb DomainError

/-- The row of a new tenant, with the defaults of its columns. -/
def NewTenant.row (tenant : NewTenant) (now : Time) : TenantRow where
  id := tenant.id
  tax_id := tenant.tax_id
  registration_name := tenant.registration_name
  tax_regime := tenant.tax_regime
  address_info := .object []
  reception_email := tenant.reception_email
  api_keys := .object []
  created_at := now
  updated_at := now

/-- The row of a new key: `revoked_at` is not among the columns of the insert. -/
def ApiKeyRecord.row (key : ApiKeyRecord) : ApiKeyRecord := { key with revoked_at := none }

def ApiKeyRecord.isActive (tenant_id key_id : Uuid) (k : ApiKeyRecord) : Bool :=
  k.id = key_id ∧ k.tenant_id = tenant_id ∧ k.revoked_at = none

def Certificate.isActive (tenant_id : Uuid) (c : Certificate) : Bool :=
  c.tenant_id = tenant_id ∧ c.status = .active

namespace AdminDb

/-! ## Statements -/

def duplicateKey (constraint : String) : DomainError :=
  refused ("duplicate key value violates unique constraint \"" ++ constraint ++ "\"")

def missingTenant (table : String) : DomainError :=
  refused ("insert or update on table \"" ++ table ++ "\" violates foreign key constraint \"" ++
    table ++ "_tenant_id_fkey\"")

def failsCheck (table constraint : String) : DomainError :=
  refused ("new row for relation \"" ++ table ++ "\" violates check constraint \"" ++
    constraint ++ "\"")

def hasTenant (db : AdminDb) (tenant_id : Uuid) : Bool := db.tenants.any fun t => t.id = tenant_id

/-- `INSERT INTO admin_audit_log`. -/
def record (db : AdminDb) (audit : AuditEntry) : AdminDb :=
  { db with admin_audit_log := db.admin_audit_log ++ [audit] }

def withTenant (db : AdminDb) (row : TenantRow) : AdminDb :=
  { db with
    tenants := db.tenants ++ [row.toTenant]
    tenant_rows := db.tenant_rows ++ [row] }

def insertTenant (tenant : NewTenant) (now : Time) (db : AdminDb) :
    Except DomainError (AdminDb × TenantRow) :=
  if db.tenants.any fun t => t.id = tenant.id ∨ t.tax_id = tenant.tax_id then
    .error (.conflict ("Ya existe un tenant con NIT " ++ tenant.tax_id))
  else .ok (db.withTenant (tenant.row now), tenant.row now)

def withApiKey (db : AdminDb) (key : ApiKeyRecord) : AdminDb :=
  { db with api_keys := db.api_keys ++ [key.row] }

def insertApiKey (key : ApiKeyRecord) (db : AdminDb) : Except DomainError (AdminDb × Unit) :=
  if db.api_keys.any fun k => k.id = key.id then .error (duplicateKey "api_keys_pkey")
  else if db.api_keys.any fun k => k.key_hash = key.key_hash then
    .error (duplicateKey "api_keys_key_hash_key")
  else if !db.hasTenant key.tenant_id then .error (missingTenant "api_keys")
  else .ok (db.withApiKey key, ())

/-- `UPDATE api_keys SET revoked_at = now() WHERE ... AND revoked_at IS NULL`. -/
def withKeyRevoked (db : AdminDb) (tenant_id key_id : Uuid) (now : Time) : AdminDb :=
  { db with
    api_keys := db.api_keys.map fun k =>
      if k.isActive tenant_id key_id then { k with revoked_at := some now } else k }

/-- The rows affected are at most one, since `id` is the primary key. -/
def updateKey (tenant_id key_id : Uuid) (now : Time) (db : AdminDb) :
    Except DomainError (AdminDb × Nat) :=
  .ok (db.withKeyRevoked tenant_id key_id now,
    if db.api_keys.any (·.isActive tenant_id key_id) then 1 else 0)

def revokeActive (db : AdminDb) (tenant_id : Uuid) : AdminDb :=
  { db with
    certificates := db.certificates.map fun c =>
      if c.isActive tenant_id then { c with status := .revoked } else c }

def withCertificate (db : AdminDb) (certificate : Certificate) : AdminDb :=
  { db with certificates := db.certificates ++ [certificate] }

def insertCertificate (certificate : Certificate) (db : AdminDb) :
    Except DomainError (AdminDb × Unit) :=
  if (db.certificates.any fun c => c.id = certificate.id) ∨
      certificate.status = .active ∧ db.certificates.any (·.isActive certificate.tenant_id) then
    .error (.conflict "El tenant ya tiene otro certificado activo")
  else if !db.hasTenant certificate.tenant_id then .error (missingTenant "certificates")
  else .ok (db.withCertificate certificate, ())

def withRange (db : AdminDb) (range : NumberingRange) : AdminDb :=
  { db with numbering_ranges := db.numbering_ranges ++ [range] }

/-- `INSERT INTO numbering_ranges ... SELECT ... WHERE NOT EXISTS (...)`: the rows inserted. -/
def insertRange (range : NumberingRange) (db : AdminDb) : Except DomainError (AdminDb × Nat) :=
  if db.numbering_ranges.any fun r => r.overlaps range then .ok (db, 0)
  else if range.current_counter < 0 then .error (failsCheck "numbering_ranges" "chk_counter")
  else if range.to_number < range.from_number then
    .error (failsCheck "numbering_ranges" "chk_range_limits")
  else if db.numbering_ranges.any fun r => r.id = range.id then
    .error (duplicateKey "numbering_ranges_pkey")
  else .ok (db.withRange range, 1)

/-- A dead job with the status of its document. -/
def deadJob? (db : AdminDb) (job_id : Uuid) : Option (JobKind × DocumentStatus × Uuid) := do
  let j ← (db.job? job_id).filter fun j => j.status = .dead
  let d ← db.document? j.document_id
  return (j.kind, d.status, j.document_id)

def withDocumentPending (db : AdminDb) (document_id : Uuid) : AdminDb :=
  { db with toDb := db.toDb.updateDocument document_id (Document.moved .pending) }

def withJobRevived (db : AdminDb) (job_id : Uuid) (now : Time) : AdminDb :=
  { db with toDb := db.toDb.updateJob job_id (JobRow.revived now) }

def updateDeadJob (job_id : Uuid) (now : Time) (db : AdminDb) :
    Except DomainError (AdminDb × Unit) :=
  if db.wouldDuplicate job_id then .error (.conflict "El documento ya tiene un trabajo activo")
  else .ok (db.withJobRevived job_id now, ())

def isDead (delivery_id : Uuid) (d : DeliveryRow) : Bool := d.id = delivery_id ∧ d.status = .dead

def withDeliveryRevived (db : AdminDb) (delivery_id : Uuid) (now : Time) : AdminDb :=
  { db with
    toDb := db.toDb.mapDeliveries fun d => if isDead delivery_id d then d.revived now else d }

def updateDeadDelivery (delivery_id : Uuid) (now : Time) (db : AdminDb) :
    Except DomainError (AdminDb × Nat) :=
  .ok (db.withDeliveryRevived delivery_id now,
    if db.webhook_deliveries.any (isDead delivery_id) then 1 else 0)

end AdminDb

/-! ## Operations; `now` is the `now()` of the transaction -/

namespace PgStore

open AdminDb

def insertAudit (audit : AuditEntry) : AdminTx Unit := exec fun db => .ok (db.record audit, ())

def createTenant (tenant : NewTenant) (audit : AuditEntry) (now : Time) : AdminTx TenantRow := do
  begin
  let row ← exec (insertTenant tenant now)
  insertAudit audit
  commit
  return row

def createApiKey (key : ApiKeyRecord) (audit : AuditEntry) : AdminTx Unit := do
  begin
  exec (insertApiKey key)
  insertAudit audit
  commit

def revokeApiKey (tenant_id key_id : Uuid) (audit : AuditEntry) (now : Time) : AdminTx Bool := do
  begin
  let rows ← exec (updateKey tenant_id key_id now)
  let revoked := rows == 1
  if revoked then insertAudit audit
  commit
  return revoked

def activateCertificate (certificate : Certificate) (audit : AuditEntry) : AdminTx Unit := do
  begin
  exec fun db => .ok (db.revokeActive certificate.tenant_id, ())
  exec (insertCertificate certificate)
  insertAudit audit
  commit

def addNumberingRange (range : NumberingRange) (audit : AuditEntry) : AdminTx Unit := do
  begin
  let found ← query fun db : AdminDb => db.hasTenant range.tenant_id
  if !found then
    throw (.notFound ("Tenant " ++ uuidText range.tenant_id ++ " no encontrado"))
  let inserted ← exec (insertRange range)
  if inserted = 0 then
    throw (.conflict "El rango se solapa en vigencia con otro del mismo tipo y prefijo")
  insertAudit audit
  commit

def retryDeadJob (job_id : Uuid) (audit : AuditEntry) (now : Time) : AdminTx Bool := do
  begin
  match ← query fun db : AdminDb => db.deadJob? job_id with
  | none =>
      rollback
      return false
  | some (kind, status, document_id) =>
      if !Db.retryAllowed kind status then
        throw (Db.noLongerApplies kind status)
      if kind = .transmit ∧ status = .contingencyPending then
        exec fun db : AdminDb => .ok (db.withDocumentPending document_id, ())
      exec (updateDeadJob job_id now)
      insertAudit audit
      commit
      return true

def retryDeadDelivery (delivery_id : Uuid) (audit : AuditEntry) (now : Time) : AdminTx Bool := do
  begin
  let rows ← exec (updateDeadDelivery delivery_id now)
  let retried := rows == 1
  if retried then insertAudit audit
  commit
  return retried

end PgStore

end DianService
