import DianService.Lib.Prog
import DianService.Domain.Numbering

/-
  Application: `processing.rs`, a claimed job from its first call to its last.

  A processing is a program over the ports it is given: every repository, signer, SOAP, breaker
  and clock call is a `Call`, answered by whatever the other side replies, errors included.
  Nothing is assumed here about the replies. `UblEngine` stands for the pure functions of
  `ubl_engine` and for deserialising a payload.
-/

namespace DianService

open Lib

/-! ## Ports -/

/-- The accepted values of `StatusCode`. -/
def ACCEPTED_CODES : List String := ["00", "1"]

def REJECTED_CODE : String := "99"

inductive Call where
  | findDocument (id : Uuid)
  | findNumberingRange (id : Uuid)
  | storeArtifacts (id : Uuid) (cufe original_xml signed_xml : String)
  | recordEvent (event : DianEvent)
  | applyTransition (transition : Transition)
  | complete (job_id : Uuid)
  | retry (job_id : Uuid) (run_at : Time) (error : String)
  | release (job_id : Uuid) (run_at : Time)
  | bury (job_id : Uuid) (error : String)
  | signForTenant (tenant_id : Uuid) (xml : String)
  | sendBillSync (tenant_id : Uuid) (zip : List UInt8) (is_hab : Bool)
  | sendTestSetAsync (tenant_id : Uuid) (zip : List UInt8) (test_set_id : String) (is_hab : Bool)
  | getStatus (tenant_id : Uuid) (cufe : String) (is_hab : Bool)
  | getStatusZip (tenant_id : Uuid) (zip_key : String) (is_hab : Bool)
  | canExecute (is_hab : Bool)
  | recordSuccess (is_hab : Bool)
  | recordFailure (is_hab : Bool)
  | utcNow
  | newUuid
  | backoffWithJitter (attempt : Int)

abbrev Reply : Call → Type
  | .findDocument _ => Except DomainError (Option Document)
  | .findNumberingRange _ => Except DomainError (Option NumberingRange)
  | .storeArtifacts .. | .recordEvent _ | .complete _ | .retry .. | .release .. | .bury .. =>
      Except DomainError Unit
  | .applyTransition _ => Except DomainError Bool
  | .signForTenant .. | .sendTestSetAsync .. => Except DomainError String
  | .sendBillSync .. | .getStatus .. | .getStatusZip .. => Except DomainError DianResponse
  | .canExecute _ => Bool
  | .recordSuccess _ | .recordFailure _ => Unit
  | .utcNow => Time
  | .newUuid => Uuid
  | .backoffWithJitter _ => Int

/-- The calls and replies of one processing so far. -/
abbrev History := Prog.Trace Call Reply

/-- An `async fn` that returns a `Result` with error `ε`. -/
abbrev Service (ε : Type) := ExceptT ε (Prog Call Reply)

/-- Go on with the value of a `Result`, or return its error (`?`). -/
def ofExcept {ε α : Type} (r : Except ε α) : Service ε α := ExceptT.mk (pure r)

/-! ### Calls whose error is passed on -/

def findDocument (id : Uuid) : Service DomainError (Option Document) :=
  ExceptT.mk (Prog.request (Call.findDocument id))

def recordEvent (event : DianEvent) : Service DomainError Unit :=
  ExceptT.mk (Prog.request (Call.recordEvent event))

def applyTransition (transition : Transition) : Service DomainError Bool :=
  ExceptT.mk (Prog.request (Call.applyTransition transition))

def complete (job_id : Uuid) : Service DomainError Unit :=
  ExceptT.mk (Prog.request (Call.complete job_id))

def retry (job_id : Uuid) (run_at : Time) (error : String) : Service DomainError Unit :=
  ExceptT.mk (Prog.request (Call.retry job_id run_at error))

def release (job_id : Uuid) (run_at : Time) : Service DomainError Unit :=
  ExceptT.mk (Prog.request (Call.release job_id run_at))

def bury (job_id : Uuid) (error : String) : Service DomainError Unit :=
  ExceptT.mk (Prog.request (Call.bury job_id error))

/-! ### Calls whose reply is looked at -/

section Ports

variable {ε : Type}

def findNumberingRange (id : Uuid) : Service ε (Except DomainError (Option NumberingRange)) :=
  ExceptT.lift (Prog.request (Call.findNumberingRange id))

def storeArtifacts (id : Uuid) (cufe original_xml signed_xml : String) :
    Service ε (Except DomainError Unit) :=
  ExceptT.lift (Prog.request (Call.storeArtifacts id cufe original_xml signed_xml))

def signForTenant (tenant_id : Uuid) (xml : String) : Service ε (Except DomainError String) :=
  ExceptT.lift (Prog.request (Call.signForTenant tenant_id xml))

def sendBillSync (tenant_id : Uuid) (zip : List UInt8) (is_hab : Bool) :
    Service ε (Except DomainError DianResponse) :=
  ExceptT.lift (Prog.request (Call.sendBillSync tenant_id zip is_hab))

def sendTestSetAsync (tenant_id : Uuid) (zip : List UInt8) (test_set_id : String) (is_hab : Bool) :
    Service ε (Except DomainError String) :=
  ExceptT.lift (Prog.request (Call.sendTestSetAsync tenant_id zip test_set_id is_hab))

def getStatus (tenant_id : Uuid) (cufe : String) (is_hab : Bool) :
    Service ε (Except DomainError DianResponse) :=
  ExceptT.lift (Prog.request (Call.getStatus tenant_id cufe is_hab))

def getStatusZip (tenant_id : Uuid) (zip_key : String) (is_hab : Bool) :
    Service ε (Except DomainError DianResponse) :=
  ExceptT.lift (Prog.request (Call.getStatusZip tenant_id zip_key is_hab))

def canExecute (is_hab : Bool) : Service ε Bool := ExceptT.lift (Prog.request (Call.canExecute is_hab))

def recordSuccess (is_hab : Bool) : Service ε Unit :=
  ExceptT.lift (Prog.request (Call.recordSuccess is_hab))

def recordFailure (is_hab : Bool) : Service ε Unit :=
  ExceptT.lift (Prog.request (Call.recordFailure is_hab))

def utcNow : Service ε Time := ExceptT.lift (Prog.request Call.utcNow)

def newUuid : Service ε Uuid := ExceptT.lift (Prog.request Call.newUuid)

def backoffWithJitter (attempt : Int) : Service ε Int :=
  ExceptT.lift (Prog.request (Call.backoffWithJitter attempt))

end Ports

/-! ## What processing uses of `ubl_engine` -/

/-- The fields of `InvoicePayload` that processing reads, and the rest. -/
structure InvoicePayload where
  company_nit : String
  technical_key : Option String
  body : Value

structure PayrollPayload where
  employer_nit : String
  body : Value

structure SupportDocumentPayload where
  buyer_nit : String
  body : Value

structure UblEngine where
  invoice_payload : Value → Except String InvoicePayload
  payroll_payload : Value → Except String PayrollPayload
  support_document_payload : Value → Except String SupportDocumentPayload
  generate_invoice_xml : InvoicePayload → String → Except String (String × String)
  generate_payroll_xml : PayrollPayload → Except String (String × String)
  generate_support_document_xml : SupportDocumentPayload → Except String (String × String)
  generate_attached_document_xml : InvoicePayload → String → String → String → String → String →
    String → Except String String
  compress_xml_to_zip : String → String → String → Int → Except String (List UInt8 × String)

structure ProcessorConfig where
  transmit_max_attempts : Int
  poll_max_attempts : Int
  poll_initial_delay : Int
  breaker_cooldown : Int

/-- A signed XML ready to be sent. -/
structure Artifacts where
  signed_xml : String
  cufe : String
  issuer_nit : String

/-! ## Reading a document -/

def isHabilitacion (document : Document) : Bool :=
  (document.payload.get? "environment").bind Value.asStr? = some "2"

def testSetId (document : Document) : Option String :=
  (document.payload.get? "test_set_id").bind Value.asStr?

/-- `DianEvent::new` with the id and the clock it reads. -/
def newEvent {ε : Type} (document_id : Uuid) (event_status : EventStatus) (code message : String) :
    Service ε DianEvent := do
  let id ← newUuid
  let created_at ← utcNow
  return {
    id := id
    document_id := document_id
    event_status := event_status
    dian_response_code := some code
    dian_response_message := some message
    soap_trace_id := none
    xml_response := none
    created_at := created_at }

def responseEvent {ε : Type} (document_id : Uuid) (status : EventStatus) (response : DianResponse) :
    Service ε DianEvent := do
  let event ← newEvent document_id status response.status_code response.message
  return { event with
    soap_trace_id := response.soap_trace_id
    xml_response := response.xml_response }

/-- The payload with the prefix and number of the stored document. The payload of an issued
    document is a JSON object. -/
def payloadWithNumber {α : Type} (parse : Value → Except String α) (document : Document) :
    Except String α :=
  (parse ((document.payload.set "prefix" (.string document.pfx)).set "number"
    (.number document.document_number))).mapError fun e =>
      "Invalid " ++ document.document_type.asStr ++ " payload JSON: " ++ e

section Processor

variable (ubl : UblEngine) (config : ProcessorConfig)

def issuerNit (document : Document) : Except String String :=
  match document.document_type with
  | .invoice | .creditNote | .debitNote =>
      (payloadWithNumber ubl.invoice_payload document).map (·.company_nit)
  | .payroll => (payloadWithNumber ubl.payroll_payload document).map (·.employer_nit)
  | .supportDocument =>
      (payloadWithNumber ubl.support_document_payload document).map (·.buyer_nit)

/-! ## Signing -/

/-- The technical key of the resolution the document was numbered with. -/
def technicalKey (document : Document) (payload : InvoicePayload) : Service String String :=
  match document.numbering_range_id with
  | some range_id => do
      let range ← ofExcept ((← findNumberingRange range_id).mapError fun e =>
        "Could not load numbering range: " ++ e.message)
      match range with
      | some range => return range.technical_key
      | none => throw ("Numbering range " ++ uuidText range_id ++ " not found")
  | none =>
      match payload.technical_key with
      | some key => return key
      | none => throw "Document has no numbering range nor legacy technical_key"

def generate (document : Document) : Service String (String × String) :=
  match document.document_type with
  | .invoice => do
      let payload ← ofExcept (payloadWithNumber ubl.invoice_payload document)
      let technical_key ← technicalKey document payload
      ofExcept ((ubl.generate_invoice_xml payload technical_key).mapError fun e =>
        "Invoice generation failed: " ++ e)
  | .creditNote | .debitNote => do
      let payload ← ofExcept (payloadWithNumber ubl.invoice_payload document)
      ofExcept ((ubl.generate_invoice_xml payload "").mapError fun e =>
        "Note generation failed: " ++ e)
  | .payroll => do
      let payload ← ofExcept (payloadWithNumber ubl.payroll_payload document)
      ofExcept ((ubl.generate_payroll_xml payload).mapError fun e =>
        "Payroll generation failed: " ++ e)
  | .supportDocument => do
      let payload ← ofExcept (payloadWithNumber ubl.support_document_payload document)
      ofExcept ((ubl.generate_support_document_xml payload).mapError fun e =>
        "Support document generation failed: " ++ e)

/-- The signed XML of an earlier attempt. -/
def storedArtifacts (document : Document) (issuer_nit : String) : Option Artifacts :=
  match document.signed_xml with
  | some signed_xml =>
      if document.cufe_cude ≠ "" then some ⟨signed_xml, document.cufe_cude, issuer_nit⟩ else none
  | none => none

/-- The signed XML: the one of an earlier attempt, or a new one. -/
def artifacts (document : Document) : Service String Artifacts := do
  let issuer_nit ← ofExcept (issuerNit ubl document)
  match storedArtifacts document issuer_nit with
  | some stored => return stored
  | none => do
      let (unsigned_xml, cufe) ← generate ubl document
      let signed_xml ← ofExcept ((← signForTenant document.tenant_id unsigned_xml).mapError
        fun e => "Cryptographic signature failed: " ++ e.message)
      ofExcept ((← storeArtifacts document.id cufe unsigned_xml signed_xml).mapError
        fun e => "Could not store signed XML: " ++ e.message)
      return ⟨signed_xml, cufe, issuer_nit⟩

/-- Hours, minutes and seconds of a day, of an instant already shifted to its zone. -/
def timeOfDay (t : Time) : String :=
  let s := t % 86400000000 / 1000000
  padLeft 2 (toString (s / 3600)) ++ ":" ++ padLeft 2 (toString (s / 60 % 60)) ++ ":" ++
    padLeft 2 (toString (s % 60))

/-- `colombia_date_time` -/
def colombiaDateTime (instant : Time) : String × String :=
  let local_time := instant - 5 * 3600 * 1000000
  (dateNaive local_time, timeOfDay local_time ++ "-05:00")

/-- Builds and signs the AttachedDocument. Its outcome is only logged. -/
def attachedDocument {ε : Type} (document : Document) (a : Artifacts) (dian_response_xml : String) :
    Service ε Unit := do
  let build : Service String Nat := do
    let payload ← ofExcept (payloadWithNumber ubl.invoice_payload document)
    let (issue_date, issue_time) := colombiaDateTime (← utcNow)
    let id ← newUuid
    let xml ← ofExcept (ubl.generate_attached_document_xml payload ("ATT-" ++ uuidText id)
      issue_date issue_time a.cufe a.signed_xml dian_response_xml)
    let signed ← ofExcept ((← signForTenant document.tenant_id xml).mapError
      DomainError.message)
    return signed.utf8ByteSize
  let _ ← ExceptT.lift build.run
  return ()

/-! ## Transitions -/

/-- Applies the transition; if the document had already moved on, only closes the job. -/
def transition (job : Job) (t : Transition) : Service DomainError Unit := do
  if ← applyTransition t then return ()
  else complete job.id

def fail (job : Job) (document : Document) (reason : String) : Service DomainError Unit := do
  let event ← newEvent document.id .error "PROCESSING_FAILED" reason
  transition job (((Transition.new document.id .processingFailed).withEvent event).withJob
    (.complete job.id))

/-- The transition for an answer of the DIAN. -/
def closeWith (job : Job) (document : Document) (status : DocumentStatus)
    (event_status : EventStatus) (response : DianResponse) : Service DomainError Unit := do
  let event ← responseEvent document.id event_status response
  transition job (((Transition.new document.id status).withEvent event).withJob (.complete job.id))

/-- `Utc::now() + delay`, the delay drawn after the clock is read. -/
def afterBackoff (attempts : Int) : Service DomainError Time := do
  let now ← utcNow
  let delay ← backoffWithJitter attempts
  return now + delay

def transmissionFailed (job : Job) (document : Document) (error : DomainError) :
    Service DomainError Unit := do
  recordFailure (isHabilitacion document)
  let event ← newEvent document.id .error "HTTP_ERROR" error.message
  if job.isLastAttempt then
    transition job (((Transition.new document.id .contingencyPending).withEvent event).withJob
      (.bury job.id error.message))
  else do
    recordEvent event
    let run_at ← afterBackoff job.attempts
    retry job.id run_at error.message

/-! ## Transmission -/

/-- The accepted answer of the DIAN to an earlier attempt, if this is not the first one. -/
def acceptedBefore (job : Job) (document : Document) (a : Artifacts) :
    Service DomainError (Option DianResponse) :=
  if job.attempts > 1 ∧ (testSetId document).isNone then do
    match ← getStatus document.tenant_id a.cufe (isHabilitacion document) with
    | .ok status =>
        if status.status_code ∈ ACCEPTED_CODES then return some status else return none
    | .error _ => return none
  else return none

def sendTestSet (job : Job) (document : Document) (zip : List UInt8) (test_set_id : String) :
    Service DomainError Unit := do
  let is_hab := isHabilitacion document
  match ← sendTestSetAsync document.tenant_id zip test_set_id is_hab with
  | .ok zip_key => do
      recordSuccess is_hab
      let first_poll := (← utcNow) + config.poll_initial_delay
      let event ← newEvent document.id .sent "SENT_ASYNC" "Enviado asincronamente para habilitacion"
      let poll_id ← newUuid
      transition job ((((Transition.new document.id .sentDian).withEvent
        { event with soap_trace_id := some zip_key }).withJob (.complete job.id)).withFollowUp
          (.pollStatus poll_id document.id zip_key config.poll_max_attempts first_poll))
  | .error e => transmissionFailed job document e

def sendBill (job : Job) (document : Document) (a : Artifacts) (zip : List UInt8) :
    Service DomainError Unit := do
  let is_hab := isHabilitacion document
  match ← sendBillSync document.tenant_id zip is_hab with
  | .ok response => do
      recordSuccess is_hab
      if response.status_code ∈ ACCEPTED_CODES then do
        closeWith job document .dianAccepted .accepted response
        if document.document_type = .invoice then
          attachedDocument ubl document a (response.xml_response.getD "")
        else return ()
      else closeWith job document .dianRejected .rejected response
  | .error e => transmissionFailed job document e

def submit (job : Job) (document : Document) (a : Artifacts) : Service DomainError Unit :=
  match ubl.compress_xml_to_zip a.signed_xml a.issuer_nit document.pfx document.document_number with
  | .error e => fail job document ("ZIP compression failed: " ++ e)
  | .ok (zip, _) =>
      match testSetId document with
      | some test_set_id => sendTestSet config job document zip test_set_id
      | none => sendBill ubl job document a zip

/-- Puts the job off while the circuit breaker is open. -/
def releaseAfterCooldown (job : Job) : Service DomainError Unit := do
  let now ← utcNow
  release job.id (now + config.breaker_cooldown)

/-- The transmission of a document that is `Pending`. -/
def transmitPending (job : Job) (document : Document) : Service DomainError Unit := do
  if ← canExecute (isHabilitacion document) then
    match ← ExceptT.lift (artifacts ubl document).run with
    | .error reason => fail job document reason
    | .ok a => do
        -- an earlier attempt may have reached the DIAN
        match ← acceptedBefore job document a with
        | some status => do
            recordSuccess (isHabilitacion document)
            closeWith job document .dianAccepted .accepted status
        | none => submit ubl config job document a
  else releaseAfterCooldown config job

def transmit (job : Job) : Service DomainError Unit := do
  match ← findDocument job.document_id with
  | none => bury job.id "document not found"
  | some document =>
      if document.status ≠ .pending then complete job.id
      else transmitPending ubl config job document

/-! ## Status query -/

/-- After a query without a verdict. -/
def pollAgain (job : Job) (document : Document) (outcome : String) : Service DomainError Unit := do
  if job.isLastAttempt then
    let reason := "Status polling exhausted after " ++ toString job.attempts ++ " attempts: " ++
      outcome
    let event ← newEvent document.id .error "POLLING_EXHAUSTED" reason
    recordEvent event
    bury job.id reason
  else do
    let run_at ← afterBackoff job.attempts
    retry job.id run_at outcome

def pollStatus (job : Job) (document : Document) (zip_key : String) : Service DomainError Unit := do
  let is_hab := isHabilitacion document
  match ← getStatusZip document.tenant_id zip_key is_hab with
  | .ok response => do
      recordSuccess is_hab
      if response.status_code ∈ ACCEPTED_CODES then
        closeWith job document .dianAccepted .accepted response
      else if response.status_code = REJECTED_CODE then
        closeWith job document .dianRejected .rejected response
      else do
        let outcome := "DIAN reports status " ++ response.status_code ++ " (" ++ response.message ++ ")"
        pollAgain job document outcome
  | .error e => do
      recordFailure is_hab
      pollAgain job document e.message

def poll (job : Job) : Service DomainError Unit := do
  match ← findDocument job.document_id with
  | none => bury job.id "document not found"
  | some document =>
      if document.status ≠ .sentDian then complete job.id
      else
        match job.zipKey with
        | none => bury job.id "poll job without zip_key"
        | some zip_key => do
            if ← canExecute (isHabilitacion document) then
              pollStatus job document zip_key
            else releaseAfterCooldown config job

/-- `DocumentProcessor::process` -/
def process (job : Job) : Service DomainError Unit :=
  match job.kind with
  | .transmit => transmit ubl config job
  | .pollStatus => poll config job

end Processor

end DianService
