import DianService.Domain.Text
import DianService.Domain.Numbering

/-
  Store: the tables of PostgreSQL (`migrations/`) that the modelled operations of `PgStore`
  read and write, as lists of rows in insertion order, and their unique keys.

  A statement that would break a unique key is refused by the database before it changes
  anything, so the operations below test the key first. Columns no modelled operation uses
  (`pdf_url`, `updated_at`, the tenants' contact data) are left out.
-/

namespace DianService

structure JobRow where
  id : Uuid
  kind : JobKind
  document_id : Uuid
  payload : Value
  status : JobStatus
  attempts : Int
  max_attempts : Int
  run_at : Time
  locked_until : Option Time
  locked_by : Option String
  last_error : Option String

structure IdempotencyRow where
  tenant_id : Uuid
  idempotency_key : String
  request_hash : HexDigest
  document_id : Uuid
  document_number : Int
  deriving DecidableEq

structure DeliveryRow where
  id : Uuid
  webhook_id : Uuid
  document_id : Uuid
  event_type : String
  data : Value
  status : DeliveryStatus
  attempts : Int
  max_attempts : Int
  run_at : Time
  locked_until : Option Time
  last_error : Option String
  last_status_code : Option Int
  created_at : Time

structure AuditEntry where
  action : String
  tenant_id : Option Uuid
  subject_id : Option Uuid
  details : Value

structure Db where
  tenants : List Tenant
  numbering_ranges : List NumberingRange
  documents : List Document
  idempotency_keys : List IdempotencyRow
  dian_events : List DianEvent
  jobs : List JobRow
  webhooks : List Webhook
  webhook_deliveries : List DeliveryRow
  admin_audit_log : List AuditEntry

namespace Db

/-- The tables right after the migrations, with the tenants already registered. -/
def fresh (tenants : List Tenant) : Db := ⟨tenants, [], [], [], [], [], [], [], []⟩

def document? (db : Db) (id : Uuid) : Option Document := db.documents.find? fun d => d.id = id

def range? (db : Db) (id : Uuid) : Option NumberingRange :=
  db.numbering_ranges.find? fun r => r.id = id

def job? (db : Db) (id : Uuid) : Option JobRow := db.jobs.find? fun j => j.id = id

theorem document?_mem {db : Db} {id : Uuid} {d : Document} (h : db.document? id = some d) :
    d ∈ db.documents ∧ d.id = id :=
  ⟨List.mem_of_find?_eq_some h, by simpa using List.find?_some h⟩

theorem range?_mem {db : Db} {id : Uuid} {r : NumberingRange} (h : db.range? id = some r) :
    r ∈ db.numbering_ranges ∧ r.id = id :=
  ⟨List.mem_of_find?_eq_some h, by simpa using List.find?_some h⟩

theorem job?_mem {db : Db} {id : Uuid} {j : JobRow} (h : db.job? id = some j) :
    j ∈ db.jobs ∧ j.id = id :=
  ⟨List.mem_of_find?_eq_some h, by simpa using List.find?_some h⟩

end Db

/-! ## Job rows -/

/-- `status IN ('queued', 'running')`: the rows of the partial index
    `uq_jobs_active_per_document`. -/
def JobRow.active (j : JobRow) : Bool := j.status = .queued ∨ j.status = .running

/-- The row `insert_job` writes. -/
def NewJob.row (job : NewJob) : JobRow where
  id := job.id
  kind := job.kind
  document_id := job.document_id
  payload := job.payload
  status := .queued
  attempts := 0
  max_attempts := job.max_attempts
  run_at := job.run_at
  locked_until := none
  locked_by := none
  last_error := none

/-- Another active job of the same kind for the document (`uq_jobs_active_per_document`). -/
def Db.hasActiveJob (db : Db) (document_id : Uuid) (kind : JobKind) : Bool :=
  db.jobs.any fun j => j.document_id = document_id ∧ j.kind = kind ∧ j.active

/-- `db(e)` of a statement the server refused. -/
def refused (message : String) : DomainError :=
  .database ("error returned from database: " ++ message)

/-- `insert_job`. -/
def Db.insertJob (db : Db) (job : NewJob) : Except DomainError Db :=
  if (db.jobs.any fun j => j.id = job.id) ∨ db.hasActiveJob job.document_id job.kind then
    .error (.conflict ("document " ++ uuidText job.document_id ++ " already has an active " ++
      job.kind.asStr ++ " job"))
  else if job.max_attempts ≤ 0 then
    .error (refused "new row for relation \"jobs\" violates check constraint \"chk_jobs_attempts\"")
  else .ok { db with jobs := db.jobs ++ [job.row] }

/-- All an accepted `insert_job` does is add the row. -/
theorem Db.insertJob_ok {db db' : Db} {job : NewJob} (h : db.insertJob job = .ok db') :
    db' = { db with jobs := db.jobs ++ [job.row] } ∧ (∀ j ∈ db.jobs, j.id ≠ job.id) ∧
      db.hasActiveJob job.document_id job.kind = false ∧ 0 < job.max_attempts := by
  unfold Db.insertJob at h
  split at h
  · cases h
  · rename_i hfree
    split at h
    · cases h
    · rename_i hmax
      cases h
      simp only [List.any_eq_true, decide_eq_true_eq, not_or, not_exists, not_and,
        Bool.not_eq_true] at hfree
      exact ⟨rfl, hfree.1, hfree.2, by omega⟩

end DianService
