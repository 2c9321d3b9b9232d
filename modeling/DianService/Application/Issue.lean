import DianService.Store.Issue
import DianService.Ubl.Payloads

/-
  Application: the issuing of documents (`issue.rs`). A request is checked, must be of the tenant
  itself, and is handed to `issue_outbound` in its JSON form.
-/

namespace DianService

open Lib Lib.Checked

/-- The text of the error. A template error is shown as `minijinja` shows it. -/
def Ubl.UblError.message : Ubl.UblError → String
  | .calculation m => "CUFE/CUDE calculation failed: " ++ m
  | .validation m => "XML payload validation failed: " ++ m
  | .template m => "XML template rendering failed: " ++ m
  | .formatting m => "Formatting error: " ++ m

def MAX_IDEMPOTENCY_KEY_LEN : Nat := 255

/-- `is_ascii` -/
def isAscii (s : String) : Bool := s.toList.all fun c => c.toNat < 128

/-- `json_text` prints a JSON value and `sha256` is SHA-256 in hexadecimal. -/
structure IssueService where
  arithmetic : Arithmetic
  floats : Ubl.Floats
  json_text : Value → String
  sha256 : String → HexDigest
  transmit_max_attempts : Int

/-- The ids and the instant that a request draws. -/
structure Draw where
  id : Uuid
  job_id : Uuid
  now : Time

namespace IssueService

def validation {α : Type} (x : Checked Ubl.UblError α) : Checked DomainError α :=
  ExceptT.mk (x.run.map fun r => r.mapError fun e => .validation e.message)

def requireIssuer (tenant : Tenant) (nit role : String) : Except DomainError Unit :=
  if nit ≠ tenant.tax_id then
    .error (.forbidden ("El NIT del " ++ role ++ " no coincide con el del tenant autenticado"))
  else .ok ()

variable (s : IssueService)

def requestHash (document_type : DocumentType) (payload : Value) : HexDigest :=
  s.sha256 (document_type.asStr ++ "\n" ++ s.json_text payload)

def idempotency (key : Option String) (document_type : DocumentType) (payload : Value) :
    Except DomainError (Option IdempotencyKey) :=
  match key with
  | none => .ok none
  | some key =>
      let key := trim key
      if key = "" ∨ MAX_IDEMPOTENCY_KEY_LEN < key.utf8ByteSize ∨ isAscii key = false then
        .error (.validation ("Idempotency-Key debe tener entre 1 y " ++
          toString MAX_IDEMPOTENCY_KEY_LEN ++ " caracteres ASCII"))
      else .ok (some ⟨key, s.requestHash document_type payload⟩)

/-- The arguments of `issue_outbound`. -/
def issue (tenant : Tenant) (document_type : DocumentType) (pfx : String)
    (requested_number : Option Int) (payload : Value) (idempotency_key : Option String)
    (draw : Draw) : Except DomainError Request := do
  let idempotency ← s.idempotency idempotency_key document_type payload
  return {
    document := {
      id := draw.id
      tenant_id := tenant.id
      document_type := document_type
      pfx := pfx
      requested_number := requested_number
      payload := payload
      idempotency := idempotency }
    job_id := draw.job_id
    job_run_at := draw.now
    max_attempts := s.transmit_max_attempts }

def issueInvoice (tenant : Tenant) (payload : Ubl.InvoicePayload)
    (idempotency_key : Option String) (draw : Draw) : Checked DomainError Request := do
  validation (payload.validate s.arithmetic)
  requireIssuer tenant payload.company_nit "emisor"
  let document_type : DocumentType :=
    if payload.document_type = "credit_note" then .creditNote
    else if payload.document_type = "debit_note" then .debitNote
    else .invoice
  s.issue tenant document_type payload.pfx (some payload.number) (payload.toValue s.floats)
    idempotency_key draw

def issuePayroll (tenant : Tenant) (payload : Ubl.PayrollPayload)
    (idempotency_key : Option String) (draw : Draw) : Checked DomainError Request := do
  validation (payload.validate s.arithmetic)
  requireIssuer tenant payload.employer_nit "empleador"
  s.issue tenant .payroll payload.pfx (some payload.number) (payload.toValue s.floats)
    idempotency_key draw

/-- The server assigns the number; the one of the payload is ignored. -/
def issueSupportDocument (tenant : Tenant) (payload : Ubl.SupportDocumentPayload)
    (idempotency_key : Option String) (draw : Draw) : Checked DomainError Request := do
  validation (payload.validate s.arithmetic)
  requireIssuer tenant payload.buyer_nit "comprador"
  s.issue tenant .supportDocument payload.pfx none (payload.toValue s.floats) idempotency_key draw

/-- The operation for a payload. -/
def issuePayload (tenant : Tenant) (payload : Ubl.Payload) (idempotency_key : Option String)
    (draw : Draw) : Checked DomainError Request :=
  match payload with
  | .invoice p => s.issueInvoice tenant p idempotency_key draw
  | .payroll p => s.issuePayroll tenant p idempotency_key draw
  | .supportDocument p => s.issueSupportDocument tenant p idempotency_key draw

/-! ## What is handed to the store -/

@[simp] theorem returns_validation {α : Type} {x : Checked Ubl.UblError α} {a : α} :
    Returns (validation x) a ↔ Returns x a := by
  show (x.run.map _ : Option (Except DomainError α)) = _ ↔ x.run = _
  cases x.run with
  | none => exact iff_of_false nofun nofun
  | some r =>
    cases r with
    | error e => exact iff_of_false nofun nofun
    | ok b => exact ⟨fun h => by cases h; rfl, fun h => by cases h; rfl⟩

theorem requireIssuer_ok {tenant : Tenant} {nit role : String} {u : Unit}
    (h : requireIssuer tenant nit role = .ok u) : nit = tenant.tax_id := by
  unfold requireIssuer at h
  split at h
  · cases h
  · rename_i heq
    exact not_not.mp heq

theorem issue_ok {tenant : Tenant} {document_type : DocumentType} {pfx : String}
    {requested_number : Option Int} {payload : Value} {key : Option String} {draw : Draw}
    {r : Request} (h : s.issue tenant document_type pfx requested_number payload key draw = .ok r) :
    r.document.tenant_id = tenant.id ∧ r.document.document_type = document_type ∧
      r.document.pfx = pfx ∧ r.document.payload = payload := by
  unfold issue at h
  cases hkey : s.idempotency key document_type payload with
  | error e =>
    rw [hkey] at h
    cases h
  | ok idempotency =>
    rw [hkey] at h
    cases h
    exact ⟨rfl, rfl, rfl, rfl⟩

/-- An accepted request is valid, of the tenant itself, and stored as it is. -/
structure Accepts (tenant : Tenant) (payload : Ubl.Payload) (r : Request) : Prop where
  valid : Returns (payload.validate s.arithmetic) ()
  issuer : payload.issuer = tenant.tax_id
  tenant_id : r.document.tenant_id = tenant.id
  document_type : r.document.document_type = payload.documentType
  pfx : r.document.pfx = payload.pfx
  payload : r.document.payload = payload.toValue s.floats

theorem issuePayload_returns {tenant : Tenant} {payload : Ubl.Payload} {key : Option String}
    {draw : Draw} {r : Request} (h : Returns (s.issuePayload tenant payload key draw) r) :
    s.Accepts tenant payload r := by
  cases payload with
  | invoice p =>
    simp only [issuePayload, issueInvoice, returns_bind, returns_validation, returns_except] at h
    obtain ⟨_, hvalid, _, hissuer, h⟩ := h
    obtain ⟨htenant, htype, hpfx, hpayload⟩ := s.issue_ok h
    exact ⟨hvalid, requireIssuer_ok hissuer, htenant, htype, hpfx, hpayload⟩
  | payroll p =>
    simp only [issuePayload, issuePayroll, returns_bind, returns_validation, returns_except] at h
    obtain ⟨_, hvalid, _, hissuer, h⟩ := h
    obtain ⟨htenant, htype, hpfx, hpayload⟩ := s.issue_ok h
    exact ⟨hvalid, requireIssuer_ok hissuer, htenant, htype, hpfx, hpayload⟩
  | supportDocument p =>
    simp only [issuePayload, issueSupportDocument, returns_bind, returns_validation,
      returns_except] at h
    obtain ⟨_, hvalid, _, hissuer, h⟩ := h
    obtain ⟨htenant, htype, hpfx, hpayload⟩ := s.issue_ok h
    exact ⟨hvalid, requireIssuer_ok hissuer, htenant, htype, hpfx, hpayload⟩

end IssueService

end DianService
