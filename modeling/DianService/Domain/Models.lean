import Mathlib.Data.Rat.Defs
import Mathlib.Data.Rat.Cast.Defs

/-
  Domain: the records of `core-domain` (`models.rs`, `jobs.rs`, `ports.rs`, `admin.rs`) that the
  store, the worker and the use cases read and write, with the texts they are stored under.

  Conventions used below. A `Uuid` is its 128-bit value and a `Time` is a `DateTime<Utc>` in
  microseconds since the epoch. An `i32` is an `Int`; the places where the code adds or
  subtracts in `i32` go through `wrap32` (release arithmetic), so overflow is visible. A
  `serde_json::Value` is `Value`, whose numbers are rationals (every finite `f64` is one).
-/

namespace DianService

abbrev Uuid := Nat

/-- The last `n` hexadecimal digits of `x`. -/
def hexDigits : Nat → Nat → List Char
  | 0, _ => []
  | n + 1, x => hexDigits n (x / 16) ++ [Nat.digitChar (x % 16)]

/-- The hyphenated form in which a `Uuid` is displayed. -/
def uuidText (id : Uuid) : String :=
  let h := hexDigits 32 id
  String.ofList (h.take 8 ++ '-' :: (h.drop 8).take 4 ++ '-' :: (h.drop 12).take 4 ++
    '-' :: (h.drop 16).take 4 ++ '-' :: h.drop 20)

example : uuidText 0x123e4567e89b12d3a456426614174000 =
    "123e4567-e89b-12d3-a456-426614174000" := by decide +kernel

abbrev Time := Int

/-- `x` is the value of an `i32`. -/
def InI32 (x : Int) : Prop := -2 ^ 31 ≤ x ∧ x < 2 ^ 31

instance (x : Int) : Decidable (InI32 x) := inferInstanceAs (Decidable (_ ∧ _))

/-- The value an `i32` register holds after a computation whose exact result is `x`. -/
def wrap32 (x : Int) : Int := Int.bmod x (2 ^ 32)

theorem wrap32_of_inI32 {x : Int} (h : InI32 x) : wrap32 x = x := by
  obtain ⟨h₁, h₂⟩ := h
  unfold wrap32
  exact Int.bmod_eq_of_le (by omega) (by omega)

/-- `serde_json::Value`. -/
inductive Value where
  | null
  | bool (b : Bool)
  | number (q : Rat)
  | string (s : String)
  | array (xs : List Value)
  | object (kvs : List (String × Value))

namespace Value

/-- `Value::get` on an object; `None` on anything else. -/
def get? : Value → String → Option Value
  | .object kvs, k => (kvs.find? fun kv => kv.1 = k).map (·.2)
  | _, _ => none

/-- `Value::as_str`. -/
def asStr? : Value → Option String
  | .string s => some s
  | _ => none

/-- `value[key] = new` (`IndexMut`): replaces the entry or adds it. -/
def set : Value → String → Value → Value
  | .object kvs, k, v =>
      if kvs.any (fun kv => kv.1 = k) then
        .object (kvs.map fun kv => if kv.1 = k then (k, v) else kv)
      else .object (kvs ++ [(k, v)])
  | .null, k, v => .object [(k, v)]
  | other, _, _ => other

end Value

/-! ## Text enums -/

inductive DocumentType where
  | invoice | creditNote | debitNote | supportDocument | payroll
  deriving DecidableEq, Repr

namespace DocumentType

def asStr : DocumentType → String
  | invoice => "invoice"
  | creditNote => "credit_note"
  | debitNote => "debit_note"
  | supportDocument => "support_document"
  | payroll => "payroll"

/-- `DocumentType::from_str`. -/
def fromStr? : String → Option DocumentType
  | "invoice" => some invoice
  | "credit_note" => some creditNote
  | "debit_note" => some debitNote
  | "support_document" => some supportDocument
  | "payroll" => some payroll
  | _ => none

theorem fromStr?_asStr (t : DocumentType) : fromStr? t.asStr = some t := by
  cases t <;> rfl

end DocumentType

inductive DocumentStatus where
  | draft | pending | sentDian | dianAccepted | dianRejected
  | contingencyPending | contingencySent | processingFailed
  deriving DecidableEq, Repr

def DocumentStatus.asStr : DocumentStatus → String
  | .draft => "draft"
  | .pending => "pending"
  | .sentDian => "sent_dian"
  | .dianAccepted => "dian_accepted"
  | .dianRejected => "dian_rejected"
  | .contingencyPending => "contingency_pending"
  | .contingencySent => "contingency_sent"
  | .processingFailed => "processing_failed"

inductive EventStatus where
  | sent | accepted | rejected | error
  deriving DecidableEq, Repr

inductive WebhookSubscriptionStatus where
  | active | inactive
  deriving DecidableEq, Repr

inductive Direction where
  | outbound | inbound
  deriving DecidableEq, Repr

inductive JobKind where
  | transmit | pollStatus
  deriving DecidableEq, Repr

def JobKind.asStr : JobKind → String
  | .transmit => "transmit"
  | .pollStatus => "poll_status"

inductive JobStatus where
  | queued | running | done | dead
  deriving DecidableEq, Repr

inductive DeliveryStatus where
  | queued | running | delivered | dead
  deriving DecidableEq, Repr

/-! ## Errors of the ports -/

inductive DomainError where
  | database (message : String)
  | notFound (message : String)
  | conflict (message : String)
  | validation (message : String)
  | forbidden (message : String)
  | crypto (message : String)
  | soap (message : String)
  | queue (message : String)
  | internal (message : String)
  deriving DecidableEq, Repr

/-- The `Display` text of the error. -/
def DomainError.message : DomainError → String
  | .database m => "Database error: " ++ m
  | .notFound m => "Entity not found: " ++ m
  | .conflict m => "Conflict error: " ++ m
  | .validation m => "Validation error: " ++ m
  | .forbidden m => "Forbidden: " ++ m
  | .crypto m => "Cryptographic signing error: " ++ m
  | .soap m => "SOAP communication error: " ++ m
  | .queue m => "Queue/Broker error: " ++ m
  | .internal m => "Internal/Unexpected error: " ++ m

def DomainError.isDatabase : DomainError → Bool
  | .database _ => true
  | _ => false

/-! ## Records -/

structure Tenant where
  id : Uuid
  tax_id : String

structure NumberingRange where
  id : Uuid
  tenant_id : Uuid
  document_type : DocumentType
  pfx : String
  from_number : Int
  to_number : Int
  technical_key : String
  valid_date_from : Time
  valid_date_to : Time
  /-- Last number assigned (0: none yet). -/
  current_counter : Int
  deriving DecidableEq

structure Document where
  id : Uuid
  tenant_id : Uuid
  direction : Direction
  issuer_nit : String
  document_type : DocumentType
  pfx : String
  document_number : Int
  numbering_range_id : Option Uuid
  cufe_cude : String
  payload : Value
  original_xml : Option String
  signed_xml : Option String
  status : DocumentStatus
  created_at : Time

structure DianEvent where
  id : Uuid
  document_id : Uuid
  event_status : EventStatus
  dian_response_code : Option String
  dian_response_message : Option String
  soap_trace_id : Option String
  xml_response : Option String
  created_at : Time
  deriving DecidableEq

structure DianResponse where
  status_code : String
  message : String
  xml_response : Option String
  soap_trace_id : Option String
  deriving DecidableEq

structure Webhook where
  id : Uuid
  tenant_id : Uuid
  target_url : String
  webhook_secret : String
  event_type : String
  subscription_status : WebhookSubscriptionStatus

/-- A job claimed by a worker; `attempts` already counts the attempt in course. -/
structure Job where
  id : Uuid
  kind : JobKind
  document_id : Uuid
  payload : Value
  attempts : Int
  max_attempts : Int

namespace Job

def isLastAttempt (job : Job) : Bool := job.attempts ≥ job.max_attempts

/-- The tracking key (`ZipKey`) of a status query job. -/
def zipKey (job : Job) : Option String := (job.payload.get? "zip_key").bind Value.asStr?

end Job

structure NewJob where
  id : Uuid
  kind : JobKind
  document_id : Uuid
  payload : Value
  max_attempts : Int
  run_at : Time

namespace NewJob

/-- `NewJob::transmit`; `id` and `now` are the `Uuid::new_v4()` and `Utc::now()` it draws. -/
def transmit (id : Uuid) (now : Time) (document_id : Uuid) (max_attempts : Int) : NewJob where
  id := id
  kind := .transmit
  document_id := document_id
  payload := .object []
  max_attempts := max_attempts
  run_at := now

def pollStatus (id : Uuid) (document_id : Uuid) (zip_key : String) (max_attempts : Int)
    (run_at : Time) : NewJob where
  id := id
  kind := .pollStatus
  document_id := document_id
  payload := .object [("zip_key", .string zip_key)]
  max_attempts := max_attempts
  run_at := run_at

end NewJob

/-- What to do with the job in course when a transition is applied. -/
inductive JobOutcome where
  | complete (id : Uuid)
  | bury (id : Uuid) (error : String)

structure Transition where
  document_id : Uuid
  target : DocumentStatus
  event : Option DianEvent
  job : Option JobOutcome
  follow_up : Option NewJob

namespace Transition

def new (document_id : Uuid) (target : DocumentStatus) : Transition :=
  ⟨document_id, target, none, none, none⟩

def withEvent (t : Transition) (event : DianEvent) : Transition := { t with event := some event }

def withJob (t : Transition) (outcome : JobOutcome) : Transition := { t with job := some outcome }

def withFollowUp (t : Transition) (job : NewJob) : Transition := { t with follow_up := some job }

end Transition

end DianService
