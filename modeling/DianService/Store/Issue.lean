import DianService.Application.Ranges
import DianService.Lib.Machine
import DianService.Lib.Rows

/-
  Store: `PgStore::issue_outbound`, statement by statement.

  A request is a client call in course. Its transaction sees committed rows only, and what it
  wrote is seen by nobody before the commit; other transactions notice it through what it
  holds: the row lock of its numbering range from `SELECT ... FOR UPDATE` on, and the unique
  keys of the rows it inserted. A statement that meets a key held by a transaction in course
  waits for its end (the step is not enabled); one that meets a committed row is refused. Any
  call to the database may fail, which drops the transaction (`fail`). A commit is all or
  nothing and the caller learns its outcome.
-/

namespace DianService

open Lib

/-! ## Requests -/

structure IdempotencyKey where
  key : String
  request_hash : HexDigest
  deriving DecidableEq

structure NewOutboundDocument where
  id : Uuid
  tenant_id : Uuid
  document_type : DocumentType
  pfx : String
  requested_number : Option Int
  payload : Value
  idempotency : Option IdempotencyKey

structure IssuedDocument where
  document_id : Uuid
  document_number : Int
  deriving DecidableEq

inductive IssueOutcome where
  | created (issued : IssuedDocument)
  | replayed (issued : IssuedDocument)
  deriving DecidableEq

/-- A call to `issue_outbound` with the transmit job `IssueService::issue` passes along. -/
structure Request where
  document : NewOutboundDocument
  job_id : Uuid
  job_run_at : Time
  max_attempts : Int

def Request.initialJob (r : Request) : NewJob :=
  .transmit r.job_id r.job_run_at r.document.id r.max_attempts

/-- `replay`: compares the stored fingerprint with the one of the request. -/
def replay (stored_hash : HexDigest) (issued : IssuedDocument) (key : IdempotencyKey) :
    Except DomainError IssueOutcome :=
  if trim stored_hash.text ≠ key.request_hash.text then
    .error (.validation "La clave de idempotencia ya se uso con un cuerpo distinto")
  else .ok (.replayed issued)

theorem replay_eq (stored_hash : HexDigest) (issued : IssuedDocument) (key : IdempotencyKey) :
    replay stored_hash issued key =
      if stored_hash = key.request_hash then .ok (.replayed issued)
      else .error (.validation "La clave de idempotencia ya se uso con un cuerpo distinto") := by
  unfold replay
  rw [HexDigest.trim_text]
  by_cases h : stored_hash = key.request_hash
  · simp [h]
  · have h' : stored_hash.text ≠ key.request_hash.text := fun ht => h (HexDigest.ext ht)
    simp [h, h']

def IdempotencyRow.issued (row : IdempotencyRow) : IssuedDocument :=
  ⟨row.document_id, row.document_number⟩

def Db.idempotency? (db : Db) (tenant_id : Uuid) (key : String) : Option IdempotencyRow :=
  db.idempotency_keys.find? fun k => k.tenant_id = tenant_id ∧ k.idempotency_key = key

/-- `find_idempotency`. -/
def Db.findIdempotency (db : Db) (tenant_id : Uuid) (key : IdempotencyKey) :
    Except DomainError (Option IssueOutcome) :=
  match db.idempotency? tenant_id key.key with
  | none => .ok none
  | some row => (replay row.request_hash row.issued key).map some

/-- The range serves the document's type and prefix and is in force at `now`. -/
def NumberingRange.serves (range : NumberingRange) (document : NewOutboundDocument) (now : Time) :
    Bool :=
  range.tenant_id = document.tenant_id ∧ range.document_type = document.document_type ∧
    range.pfx = document.pfx ∧ range.valid_date_from ≤ now ∧ range.valid_date_to ≥ now

/-- `... ORDER BY valid_date_from DESC LIMIT 1`. -/
def Db.selectRange (db : Db) (document : NewOutboundDocument) (now : Time) :
    Option NumberingRange :=
  latestBy NumberingRange.valid_date_from
    (db.numbering_ranges.filter fun r => r.serves document now)

/-- The unique key `uq_tenant_document` of an issued document. -/
def Document.isIssued (d : Document) (document : NewOutboundDocument) (number : Int) : Bool :=
  d.tenant_id = document.tenant_id ∧ d.direction = .outbound ∧ d.issuer_nit = "" ∧
    d.document_type = document.document_type ∧ d.pfx = document.pfx ∧ d.document_number = number

/-- A committed document has the primary key or `uq_tenant_document` of the one to insert. -/
def Db.documentTaken (db : Db) (document : NewOutboundDocument) (number : Int) : Bool :=
  db.documents.any fun d => d.id = document.id ∨ d.isIssued document number

/-! ## The transaction -/

/-- What a transaction knows once it has a number: the `now()` it began at, the range row it
    locked and the number it gives out. -/
structure Tx where
  now : Time
  range : NumberingRange
  number : Int

/-- The statement a request is about to run. -/
inductive Phase where
  | lookup
  | beginTx
  | waiting (now : Time) (range_id : Uuid)
  | locked (now : Time) (range : NumberingRange)
  | numbered (tx : Tx)
  | documentInserted (tx : Tx)
  | jobInserted (tx : Tx)
  | keyInserted (tx : Tx)
  | rolledBack
  | done (result : Except DomainError IssueOutcome)

namespace Phase

/-- The numbering range whose row the request has locked. -/
def range? : Phase → Option NumberingRange
  | locked _ range => some range
  | numbered tx | documentInserted tx | jobInserted tx | keyInserted tx => some tx.range
  | _ => none

def tx? : Phase → Option Tx
  | numbered tx | documentInserted tx | jobInserted tx | keyInserted tx => some tx
  | _ => none

/-- The transaction whose document row is inserted and not yet committed. -/
def documentTx? : Phase → Option Tx
  | documentInserted tx | jobInserted tx | keyInserted tx => some tx
  | _ => none

def hasJob : Phase → Bool
  | jobInserted _ | keyInserted _ => true
  | _ => false

def hasKey : Phase → Bool
  | keyInserted _ => true
  | _ => false

def isDone : Phase → Bool
  | done _ => true
  | _ => false

end Phase

/-! ### What a request in course holds -/

def holdsRange (id : Uuid) (x : Request × Phase) : Bool :=
  match x.2.range? with
  | some range => range.id = id
  | none => false

/-- It inserted a document with the same id, or the same type, prefix and number. -/
def holdsDocument (document : NewOutboundDocument) (number : Int) (x : Request × Phase) : Bool :=
  match x.2.documentTx? with
  | some tx => x.1.document.id = document.id ∨
      (x.1.document.tenant_id = document.tenant_id ∧
        x.1.document.document_type = document.document_type ∧ x.1.document.pfx = document.pfx ∧
        tx.number = number)
  | none => false

def holdsJob (job_id : Uuid) (x : Request × Phase) : Bool :=
  x.2.hasJob ∧ x.1.job_id = job_id

def holdsKey (tenant_id : Uuid) (key : String) (x : Request × Phase) : Bool :=
  x.2.hasKey ∧ x.1.document.tenant_id = tenant_id ∧
    x.1.document.idempotency.map (·.key) = some key

/-! ### The rows it writes -/

def Request.documentRow (r : Request) (tx : Tx) : Document where
  id := r.document.id
  tenant_id := r.document.tenant_id
  direction := .outbound
  issuer_nit := ""
  document_type := r.document.document_type
  pfx := r.document.pfx
  document_number := tx.number
  numbering_range_id := some tx.range.id
  cufe_cude := ""
  payload := r.document.payload
  original_xml := none
  signed_xml := none
  status := .pending
  created_at := tx.now

def Request.issued (r : Request) (tx : Tx) : IssuedDocument := ⟨r.document.id, tx.number⟩

def Request.keyRows (r : Request) (tx : Tx) : List IdempotencyRow :=
  match r.document.idempotency with
  | none => []
  | some key => [⟨r.document.tenant_id, key.key, key.request_hash, r.document.id, tx.number⟩]

/-- `UPDATE numbering_ranges SET current_counter = number WHERE id = id`. -/
def setCounter (id : Uuid) (number : Int) (r : NumberingRange) : NumberingRange :=
  if r.id = id then { r with current_counter := number } else r

/-- The rows once the transaction has committed. -/
def Db.commitIssue (db : Db) (r : Request) (tx : Tx) : Db :=
  { db with
    numbering_ranges := db.numbering_ranges.map (setCounter tx.range.id tx.number)
    documents := db.documents ++ [r.documentRow tx]
    jobs := db.jobs ++ [r.initialJob.row]
    idempotency_keys := db.idempotency_keys ++ r.keyRows tx }

def noRange (document : NewOutboundDocument) : DomainError :=
  .validation ("No hay una resolucion de numeracion vigente para el prefijo '" ++ document.pfx ++
    "' y tipo '" ++ document.document_type.asStr ++ "'")

def counterRefused : DomainError :=
  refused "new row for relation \"numbering_ranges\" violates check constraint \"chk_counter\""

def documentExists (document : NewOutboundDocument) (number : Int) : DomainError :=
  .conflict ("El documento " ++ document.pfx ++ toString number ++ " ya existe")

def keyVanished : DomainError := .internal "idempotency key vanished"

/-- The result of `find_idempotency` as the end of the request, `otherwise` when the key is not
    registered. -/
def Db.replayOr (db : Db) (r : Request) (key : IdempotencyKey) (otherwise : Phase) : Phase :=
  match db.findIdempotency r.document.tenant_id key with
  | .error e => .done (.error e)
  | .ok (some outcome) => .done (.ok outcome)
  | .ok none => otherwise

/-- The next statement of request `r`, when the requests `others` are in course: the committed
    rows and the phase after it, or `none` while it waits. -/
def advance (db : Db) (others : List (Request × Phase)) (r : Request) (now : Time) :
    Phase → Option (Db × Phase)
  | .lookup =>
      match r.document.idempotency with
      | none => some (db, .beginTx)
      | some key => some (db, db.replayOr r key .beginTx)
  | .beginTx =>
      match db.selectRange r.document now with
      | none => some (db, .done (.error (noRange r.document)))
      | some range => some (db, .waiting now range.id)
  | .waiting tx_now range_id =>
      if others.any (holdsRange range_id) then none
      else
        -- the row as it is once the lock is ours, the condition tested again on it
        match (db.range? range_id).filter fun range => range.serves r.document tx_now with
        | none => some (db, .done (.error (noRange r.document)))
        | some range => some (db, .locked tx_now range)
  | .locked tx_now range =>
      match nextNumber range r.document.requested_number now with
      | .error e => some (db, .done (.error e))
      | .ok number =>
          -- `chk_counter`, on the counter the range is about to get
          if number < 0 then some (db, .done (.error counterRefused))
          else some (db, .numbered ⟨tx_now, range, number⟩)
  | .numbered tx =>
      if others.any (holdsDocument r.document tx.number) then none
      else if db.documentTaken r.document tx.number then
        some (db, .done (.error (documentExists r.document tx.number)))
      else some (db, .documentInserted tx)
  | .documentInserted tx =>
      if others.any (holdsJob r.job_id) then none
      else
        match db.insertJob r.initialJob with
        | .error e => some (db, .done (.error e))
        | .ok _ => some (db, .jobInserted tx)
  | .jobInserted tx =>
      match r.document.idempotency with
      | none => some (db.commitIssue r tx, .done (.ok (.created (r.issued tx))))
      | some key =>
          if others.any (holdsKey r.document.tenant_id key.key) then none
          else if (db.idempotency? r.document.tenant_id key.key).isSome then
            some (db, .rolledBack)
          else some (db, .keyInserted tx)
  | .keyInserted tx => some (db.commitIssue r tx, .done (.ok (.created (r.issued tx))))
  | .rolledBack =>
      match r.document.idempotency with
      | none => none
      | some key => some (db, db.replayOr r key (.done (.error keyVanished)))
  | .done _ => none

/-! ## All requests together -/

/-- `registered` keeps the rows of the numbering ranges as they were when registered. -/
structure IssueState where
  db : Db
  requests : List (Request × Phase)
  registered : List NumberingRange

inductive IssueAction where
  | register (id tenant_id : Uuid) (request : RegisterNumberingRange)
  | submit (r : Request)
  | advance (i : Nat) (now : Time)
  | fail (i : Nat) (message : String)

/-- The request a step is about. -/
def IssueAction.request? : IssueAction → Option Nat
  | .advance i _ | .fail i _ => some i
  | _ => none

def IssueState.setPhase (s : IssueState) (i : Nat) (db : Db) (r : Request) (p : Phase) :
    IssueState :=
  { s with db := db, requests := s.requests.set i (r, p) }

def issueStep (s : IssueState) : IssueAction → Option IssueState
  | .register id tenant_id request =>
      match s.db.registerNumberingRange id tenant_id request with
      | .error _ => some s
      | .ok (db, range) => some { s with db := db, registered := s.registered ++ [range] }
  | .submit r => some { s with requests := s.requests ++ [(r, .lookup)] }
  | .advance i now =>
      match s.requests[i]? with
      | none => none
      | some (r, p) =>
          match advance s.db (s.requests.eraseIdx i) r now p with
          | none => none
          | some (db, p') => some (s.setPhase i db r p')
  | .fail i message =>
      match s.requests[i]? with
      | none => none
      | some (r, p) =>
          if p.isDone then none
          else some (s.setPhase i s.db r (.done (.error (.database message))))

/-- Any interleaving of the requests of any clients, from the tables after the migrations. -/
def issuing : Machine IssueState IssueAction where
  start s := ∃ tenants, s = ⟨Db.fresh tenants, [], []⟩
  step := issueStep

end DianService
