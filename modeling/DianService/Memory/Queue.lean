import DianService.Memory.Atomic
import DianService.Store.Jobs

/-
  Memory: the queue of `InMemoryStore` beside the queue of `PgStore`, call by call. Of a job both
  stores keep a `JobView`. Neither says in which order it meets rows that are equally due: a hash
  map iterates as it likes and PostgreSQL scans as it likes. `ScanOrder` is that order in one
  call, the same in both. Nothing else runs in PostgreSQL meanwhile, so no row is skipped.
-/

namespace DianService.Memory

open Lib

/-! ## What both stores keep -/

structure JobView where
  id : Uuid
  kind : JobKind
  document_id : Uuid
  payload : Value
  status : JobStatus
  attempts : Int
  max_attempts : Int
  run_at : Time
  lease : Option Time

/-- The lease of a running job; in memory a job that is done or dead still carries its last. -/
def runningLease (status : JobStatus) (locked_until : Option Time) : Option Time :=
  if status = .running then locked_until else none

def viewStored (j : StoredJob) : JobView where
  id := j.id
  kind := j.kind
  document_id := j.document_id
  payload := j.payload
  status := j.status
  attempts := j.attempts
  max_attempts := j.max_attempts
  run_at := j.run_at
  lease := runningLease j.status j.locked_until

def viewRow (j : JobRow) : JobView where
  id := j.id
  kind := j.kind
  document_id := j.document_id
  payload := j.payload
  status := j.status
  attempts := j.attempts
  max_attempts := j.max_attempts
  run_at := j.run_at
  lease := runningLease j.status j.locked_until

structure DocumentView where
  id : Uuid
  status : DocumentStatus
  created_at : Time

def viewDocument (d : Document) : DocumentView := ⟨d.id, d.status, d.created_at⟩

/-- Both stores hold the same jobs and documents, and every job is of a document (the foreign key
    `jobs.document_id`). -/
structure Agree (s : State) (db : Db) : Prop where
  jobs : (s.jobs.rows.map viewStored).Perm (db.jobs.map viewRow)
  documents : (s.documents.rows.map viewDocument).Perm (db.documents.map viewDocument)
  owned : ∀ j ∈ s.jobs.rows, ∃ d ∈ s.documents.rows, d.id = j.document_id

/-! ## The order of one call -/

structure ScanOrder where
  rank : Uuid → Int
  injective : Function.Injective rank

/-- The rows of a map, met in the order of `f`. -/
def orderTable {ρ κ : Type} {key : ρ → κ} (f : ρ → Int) (t : Table key) : Table key where
  rows := orderBy f t.rows
  nodup := ((orderBy_perm f t.rows).map key).nodup_iff.mpr t.nodup

def scanState (order : ScanOrder) (s : State) : State :=
  { s with
    documents := orderTable (fun d => order.rank d.id) s.documents
    jobs := orderTable (fun j => order.rank j.id) s.jobs }

def scanDb (order : ScanOrder) (db : Db) : Db :=
  { db with
    documents := orderBy (fun d => order.rank d.id) db.documents
    jobs := orderBy (fun j => order.rank j.id) db.jobs }

/-! ## The calls -/

inductive QueueOp where
  | claim (worker_id : String) (limit : Int) (lease : Nat) (now : Time) (order : ScanOrder)
  | complete (job_id : Uuid)
  | retry (job_id : Uuid) (run_at : Time) (error : String)
  | release (job_id : Uuid) (run_at : Time)
  | bury (job_id : Uuid) (error : String)
  /-- `fresh id` is the id drawn for the job of the document `id`. -/
  | requeueContingency (limit max_attempts : Int) (now : Time) (fresh : Uuid → Uuid)
      (order : ScanOrder)
  | retryDeadJob (job_id : Uuid) (audit : AuditEntry) (now : Time)
  | queueDepth (now : Time)

inductive QueueAnswer where
  | jobs (claimed : List Job)
  | done
  | count (n : Nat)
  | flag (b : Bool)
  | depth (d : QueueDepth)

/-! ### In memory -/

/-- What a call answers, and the state it leaves. -/
def answered {α : Type} (f : α → QueueAnswer) :
    EStateM.Result DomainError State α → Except DomainError QueueAnswer × State
  | .ok a s => (.ok (f a), s)
  | .error e s => (.error e, s)

def inMemory (op : QueueOp) (s : State) : Except DomainError QueueAnswer × State :=
  match op with
  | .claim _ limit lease now order => answered .jobs (claim limit lease now (scanState order s))
  | .complete job_id => answered (fun _ => .done) (complete job_id s)
  | .retry job_id run_at error => answered (fun _ => .done) (retry job_id run_at error s)
  | .release job_id run_at => answered (fun _ => .done) (release job_id run_at s)
  | .bury job_id error => answered (fun _ => .done) (bury job_id error s)
  | .requeueContingency limit max_attempts now fresh order =>
      answered .count (requeueContingency limit max_attempts now fresh (scanState order s))
  | .retryDeadJob job_id audit now => answered .flag (retryDeadJob job_id audit now s)
  | .queueDepth now => answered .depth (queueDepth now s)

/-! ### In PostgreSQL -/

def negativeLimit : DomainError := refused "LIMIT must not be negative"

/-- A statement or a transaction: refused, it changes nothing. -/
def committed {α : Type} (f : α → QueueAnswer) (db : Db) :
    Except DomainError (Db × α) → Except DomainError QueueAnswer × Db
  | .ok (db', a) => (.ok (f a), db')
  | .error e => (.error e, db)

/-- Two statements, each with its own commit. -/
def pgClaim (db : Db) (worker_id : String) (limit : Int) (lease : Nat) (now : Time) :
    Except DomainError QueueAnswer × Db :=
  let db := db.buryExpired now
  if limit < 0 then (.error negativeLimit, db)
  else committed .jobs db (.ok (db.claim worker_id limit.toNat lease now []))

/-- The ids of the inserted jobs, by the place of their document among the candidates. -/
def freshAt (picked : List Document) (fresh : Uuid → Uuid) (i : Nat) : Uuid :=
  (picked[i]?.map fun d => fresh d.id).getD 0

def pgRequeueContingency (db : Db) (limit max_attempts : Int) (now : Time)
    (fresh : Uuid → Uuid) : Except DomainError QueueAnswer × Db :=
  if limit < 0 then (.error negativeLimit, db)
  else
    let picked := db.contingencyCandidates limit.toNat []
    committed .count db
      (db.requeueContingency limit.toNat max_attempts now (freshAt picked fresh) [])

def pgQueueDepth (db : Db) (now : Time) : QueueDepth where
  ready := db.jobs.countP fun j => j.status = .queued ∧ j.run_at ≤ now
  scheduled := db.jobs.countP fun j => j.status = .queued ∧ now < j.run_at
  running := db.jobs.countP fun j => j.status = .running
  dead := db.jobs.countP fun j => j.status = .dead

def inPostgres (op : QueueOp) (db : Db) : Except DomainError QueueAnswer × Db :=
  match op with
  | .claim worker_id limit lease now order =>
      pgClaim (scanDb order db) worker_id limit lease now
  | .complete job_id => (.ok .done, db.complete job_id)
  | .retry job_id run_at error =>
      committed (fun _ => .done) db ((db.retry job_id run_at error).map (·, ()))
  | .release job_id run_at =>
      committed (fun _ => .done) db ((db.release job_id run_at).map (·, ()))
  | .bury job_id error => (.ok .done, db.bury job_id error)
  | .requeueContingency limit max_attempts now fresh order =>
      pgRequeueContingency (scanDb order db) limit max_attempts now fresh
  | .retryDeadJob job_id audit now => committed .flag db (db.retryDeadJob job_id audit now)
  | .queueDepth now => (.ok (.depth (pgQueueDepth db now)), db)

/-! ### Runs -/

/-- The answers of a run, and the state it ends in. -/
def runAll {σ : Type} (call : QueueOp → σ → Except DomainError QueueAnswer × σ) :
    List QueueOp → σ → List (Except DomainError QueueAnswer) × σ
  | [], s => ([], s)
  | op :: ops, s =>
      let first := call op s
      let rest := runAll call ops first.2
      (first.1 :: rest.1, rest.2)

/-! ## Where the two stores do the same -/

namespace State

/-- A job whose lease ran out on its last attempt: PostgreSQL buries it, the map leaves it. -/
def hasExpired (s : State) (now : Time) : Bool :=
  s.jobs.rows.any fun j =>
    j.status = .running ∧ j.locked_until.any (· < now) ∧ j.max_attempts ≤ j.attempts

/-- The job may be put back in the queue: no other is active in its place. Only PostgreSQL has
    the unique index that refuses it otherwise. -/
def mayQueue (s : State) (job_id : Uuid) : Bool :=
  (s.jobs.get? job_id).any fun j => !s.jobs.rows.any fun k =>
    k.id ≠ job_id ∧ k.document_id = j.document_id ∧ k.kind = j.kind ∧ k.active

/-- The ids drawn for the candidates are new. -/
def drawsNew (s : State) (limit : Int) (fresh : Uuid → Uuid) : Bool :=
  ((s.candidates limit).map fresh).Nodup ∧
    ∀ id ∈ s.candidates limit, (s.jobs.get? (fresh id)).isNone

/-- The candidates that the map gives first are those that PostgreSQL takes: the oldest. -/
def oldestFirst (s : State) (limit : Int) : Bool :=
  ∀ a ∈ s.contingencyDocuments.take limit.toNat, ∀ b ∈ s.contingencyDocuments.drop limit.toNat,
    a.created_at ≤ b.created_at

/-- What `requeue_contingency` asks of the state. -/
def requeuesAlike (s : State) (limit max_attempts : Int) (fresh : Uuid → Uuid) : Bool :=
  0 ≤ limit ∧ (0 < max_attempts ∨ s.candidates limit = []) ∧ s.drawsNew limit fresh ∧
    s.oldestFirst limit

end State

def alike (op : QueueOp) (s : State) : Bool :=
  match op with
  | .claim _ limit lease now _ => 0 ≤ limit ∧ lease ≤ MAX_DURATION ∧ ¬ s.hasExpired now
  | .complete job_id | .bury job_id _ => (s.jobs.get? job_id).isSome
  | .retry job_id _ _ | .release job_id _ => s.mayQueue job_id
  | .requeueContingency limit max_attempts _ fresh order =>
      (scanState order s).requeuesAlike limit max_attempts fresh
  | .retryDeadJob _ _ _ | .queueDepth _ => true

/-- Every call of the run meets its condition, in the state it is made in. -/
def alikeAll : List QueueOp → State → Bool
  | [], _ => true
  | op :: ops, s => alike op s && alikeAll ops (inMemory op s).2

end DianService.Memory
