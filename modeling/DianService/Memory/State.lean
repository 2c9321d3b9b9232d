import DianService.Lib.Table
import DianService.Store.Admin

/-
  Memory: the state of `InMemoryStore` (`testing.rs`), the store every use-case test runs on. Its
  mutex makes each operation of a port one step, and an operation that returns an error keeps
  what it had changed so far: `StoreM` is a state that survives `throw`. The operations follow
  the source statement by statement; a hash map iterates its rows in the order of its list.

  `now` is the reading of `Utc::now()` and `fresh` the ids `Uuid::new_v4()` draws.
-/

namespace DianService.Memory

open Lib

structure StoredJob where
  id : Uuid
  kind : JobKind
  document_id : Uuid
  payload : Value
  status : JobStatus
  attempts : Int
  max_attempts : Int
  run_at : Time
  locked_until : Option Time
  last_error : Option String

/-- `StoredDelivery` has the columns of the outbox. -/
abbrev StoredDelivery := DeliveryRow

def IdempotencyRow.key (row : IdempotencyRow) : Uuid × String :=
  (row.tenant_id, row.idempotency_key)

structure State where
  tenants : List TenantRow
  certificates : List Certificate
  ranges : Table NumberingRange.id
  documents : Table Document.id
  events : List DianEvent
  jobs : Table StoredJob.id
  idempotency : Table IdempotencyRow.key
  webhooks : List Webhook
  deliveries : Table DeliveryRow.id
  api_keys : List ApiKeyRecord
  audit : List AuditEntry

/-- An operation on the state; one that ends with an error keeps what it has changed. -/
abbrev StoreM := EStateM DomainError State

def StoredJob.active (j : StoredJob) : Bool := j.status = .queued ∨ j.status = .running

/-- The row `insert_job` writes. -/
def storedJob (job : NewJob) : StoredJob where
  id := job.id
  kind := job.kind
  document_id := job.document_id
  payload := job.payload
  status := .queued
  attempts := 0
  max_attempts := job.max_attempts
  run_at := job.run_at
  locked_until := none
  last_error := none

namespace State

def hasActiveJob (s : State) (document_id : Uuid) (kind : JobKind) : Bool :=
  s.jobs.rows.any fun j => j.document_id = document_id ∧ j.kind = kind ∧ j.active

end State

/-! ## Steps the operations share -/

def noDocument (id : Uuid) : DomainError := .notFound ("document " ++ uuidText id)

def noJob (id : Uuid) : DomainError := .notFound ("job " ++ uuidText id)

def noDelivery (id : Uuid) : DomainError := .notFound ("delivery " ++ uuidText id)

def activeJobExists (job : NewJob) : DomainError :=
  .conflict ("document " ++ uuidText job.document_id ++ " already has an active " ++
    job.kind.asStr ++ " job")

def insertJob (job : NewJob) : StoreM Unit := do
  let s ← get
  if s.hasActiveJob job.document_id job.kind then throw (activeJobExists job)
  set { s with jobs := s.jobs.insert (storedJob job) }

/-- `job_mut`, and the change made to the job it returns. -/
def jobMut (id : Uuid) (f : StoredJob → StoredJob) (hf : ∀ j, (f j).id = j.id) : StoreM Unit := do
  let s ← get
  if (s.jobs.get? id).isNone then throw (noJob id)
  set { s with jobs := s.jobs.modify id f hf }

def documentMut (id : Uuid) (f : Document → Document) (hf : ∀ d, (f d).id = d.id) :
    StoreM Unit := do
  let s ← get
  if (s.documents.get? id).isNone then throw (noDocument id)
  set { s with documents := s.documents.modify id f hf }

def deliveryMut (id : Uuid) (f : StoredDelivery → StoredDelivery) (hf : ∀ d, (f d).id = d.id) :
    StoreM Unit := do
  let s ← get
  if (s.deliveries.get? id).isNone then throw (noDelivery id)
  set { s with deliveries := s.deliveries.modify id f hf }

def pushAudit (audit : AuditEntry) : StoreM Unit :=
  modify fun s => { s with audit := s.audit ++ [audit] }

/-! ## The queue (`JobRepository`) -/

namespace StoredJob

/-- Due, or with a lease that has run out, and attempts left. -/
def ready (j : StoredJob) (now : Time) : Bool :=
  ((j.status = .queued ∧ j.run_at ≤ now) ∨
    (j.status = .running ∧ j.locked_until.any (· < now))) ∧ j.attempts < j.max_attempts

def claimed (lease : Int) (now : Time) (j : StoredJob) : StoredJob :=
  { j with
    status := .running
    attempts := j.attempts + 1
    locked_until := some (now + lease) }

def retried (run_at : Time) (error : String) (j : StoredJob) : StoredJob :=
  { j with
    status := .queued
    run_at := run_at
    locked_until := none
    last_error := some error }

def released (run_at : Time) (j : StoredJob) : StoredJob :=
  { j with
    status := .queued
    run_at := run_at
    locked_until := none
    attempts := max (j.attempts - 1) 0 }

def completed (j : StoredJob) : StoredJob := { j with status := .done }

def buried (error : String) (j : StoredJob) : StoredJob :=
  { j with
    status := .dead
    last_error := some error }

def revived (now : Time) (j : StoredJob) : StoredJob :=
  { j with
    status := .queued
    attempts := 0
    run_at := now
    locked_until := none }

def job (j : StoredJob) : Job where
  id := j.id
  kind := j.kind
  document_id := j.document_id
  payload := j.payload
  attempts := j.attempts
  max_attempts := j.max_attempts

end StoredJob

/-- The longest duration `chrono` represents, in microseconds. -/
def MAX_DURATION : Nat := 9223372036854775807000

/-- `chrono::Duration::from_std` -/
def fromStd? (lease : Nat) : Option Int := if lease ≤ MAX_DURATION then some lease else none

/-- The jobs `claim` picks. -/
def State.readyJobs (s : State) (limit : Int) (now : Time) : List StoredJob :=
  (orderBy StoredJob.run_at (s.jobs.rows.filter fun j => j.ready now)).take limit.toNat

/-- The worker's id is not kept. -/
def claim (limit : Int) (lease : Nat) (now : Time) : StoreM (List Job) := do
  let s ← get
  let ready := s.readyJobs limit now
  -- ten minutes when the lease does not fit
  let lease := (fromStd? lease).getD 600000000
  let picked := fun j : StoredJob => decide (j.id ∈ ready.map StoredJob.id)
  set { s with jobs := s.jobs.update picked (StoredJob.claimed lease now) fun _ => rfl }
  return ready.map fun j => (j.claimed lease now).job

def complete (job_id : Uuid) : StoreM Unit := jobMut job_id StoredJob.completed fun _ => rfl

def retry (job_id : Uuid) (run_at : Time) (error : String) : StoreM Unit :=
  jobMut job_id (StoredJob.retried run_at error) fun _ => rfl

def release (job_id : Uuid) (run_at : Time) : StoreM Unit :=
  jobMut job_id (StoredJob.released run_at) fun _ => rfl

def bury (job_id : Uuid) (error : String) : StoreM Unit :=
  jobMut job_id (StoredJob.buried error) fun _ => rfl

/-- The documents in contingency without a transmit job, in the order of the map. -/
def State.contingencyDocuments (s : State) : List Document :=
  s.documents.rows.filter fun d =>
    d.status = .contingencyPending ∧ ¬ s.hasActiveJob d.id .transmit

/-- One candidate: its status changes before its job is inserted. -/
def requeueDocument (max_attempts : Int) (now : Time) (fresh : Uuid → Uuid) (id : Uuid) :
    StoreM Unit := do
  modify fun s =>
    { s with documents := s.documents.modify id (Document.moved .pending) fun _ => rfl }
  insertJob (.transmit (fresh id) now id max_attempts)

/-- `fresh id` is the id drawn for the job of the document `id`. -/
def requeueContingency (limit max_attempts : Int) (now : Time) (fresh : Uuid → Uuid) :
    StoreM Nat := do
  let s ← get
  let candidates := (s.contingencyDocuments.map Document.id).take limit.toNat
  candidates.forM (requeueDocument max_attempts now fresh)
  return candidates.length

structure QueueDepth where
  ready : Nat
  scheduled : Nat
  running : Nat
  dead : Nat
  deriving DecidableEq

def queueDepth (now : Time) : StoreM QueueDepth := do
  let s ← get
  let count (p : StoredJob → Bool) : Nat := s.jobs.rows.countP p
  return {
    ready := count fun j => j.status = .queued ∧ j.run_at ≤ now
    scheduled := count fun j => j.status = .queued ∧ ¬ j.run_at ≤ now
    running := count fun j => j.status = .running
    dead := count fun j => j.status = .dead }

end DianService.Memory
