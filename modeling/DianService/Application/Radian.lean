import DianService.Application.Issue
import DianService.Application.ProcessingCalls
import DianService.Application.Registration

/-
  Application: the RADIAN events on received invoices (`radian.rs`). An event has the effects of a
  negotiable instrument; it is only sent about a document that the store has for this tenant, that
  is received and that was verified. `RadianCalled` is what holds of every call, whatever the
  replies.
-/

namespace DianService

open Lib Lib.Prog

/-- The calls of `register_event`; `port` is a call that the processing of jobs makes too. -/
inductive RadianCall where
  | port (c : Call)
  | findTenantDocument (tenant_id id : Uuid)
  | sendEventUpdateStatus (tenant_id : Uuid) (zip : List UInt8) (is_hab : Bool)

abbrev RadianReply : RadianCall → Type
  | .port c => Reply c
  | .findTenantDocument .. => Except DomainError (Option Document)
  | .sendEventUpdateStatus .. => Except DomainError DianResponse

abbrev RadianHistory := Prog.Trace RadianCall RadianReply

abbrev RadianM := ExceptT DomainError (Prog RadianCall RadianReply)

structure RadianEventRequest where
  event_code : String
  software_pin : String
  environment : String

structure RadianEventOutcome where
  event_id : Uuid
  event_code : String
  cude : String
  dian_status : String
  dian_message : String
  soap_trace_id : Option String

def eventDescription : String → Option String
  | "030" => some "Acuse de recibo de Factura Electronica de Venta"
  | "032" => some "Recibo de las mercancias o servicios"
  | "033" => some "Aceptacion expresa"
  | "034" => some "Aceptacion tacita"
  | _ => none

/-- What an event says of the invoice. -/
structure EventSubject where
  sender_nit : String
  sender_name : String
  parent_document_id : String
  description : String

/-- The closure `field`. -/
def payloadField (payload : Value) (name : String) : Except DomainError String :=
  match (payload.get? name).bind Value.asStr? with
  | some v => .ok v
  | none => .error (.internal ("Missing " ++ name ++ " in document payload"))

/-- The checks of the document and of the code of the event. -/
def eventSubject (document : Document) (event_code : String) : Except DomainError EventSubject := do
  if !document.payload.flag "inbound" then
    throw (.validation "Solo se pueden emitir eventos del RADIAN sobre facturas inbound de proveedores")
  if !document.payload.flag "signature_verified" then
    throw (.validation
      "No se pueden emitir eventos RADIAN sobre una factura cuya firma no fue verificada")
  let sender_nit ← payloadField document.payload "sender_nit"
  let sender_name ← payloadField document.payload "sender_name"
  let parent_document_id ← payloadField document.payload "parent_document_id"
  let some description := eventDescription event_code
    | throw (.validation ("Codigo de evento '" ++ event_code ++
        "' invalido. Debe ser 030, 032, 033 o 034"))
  return ⟨sender_nit, sender_name, parent_document_id, description⟩

/-- Who calls, with the name that is in the tenant's row beside its `tax_id`. -/
structure EventIssuer where
  tenant : Tenant
  registration_name : String

/-- The tenant, who bought, issues the event, and the supplier receives it. -/
def eventInput (issuer : EventIssuer) (document : Document) (request : RadianEventRequest)
    (subject : EventSubject) (id : Uuid) (now : Time) : Ubl.EventInput where
  id := "EV-" ++ uuidText id
  issue_date := (colombiaDateTime now).1
  issue_time := (colombiaDateTime now).2
  sender_nit := issuer.tenant.tax_id
  sender_name := issuer.registration_name
  sender_id_type := "31"
  receiver_nit := subject.sender_nit
  receiver_name := subject.sender_name
  receiver_id_type := "31"
  event_code := request.event_code
  event_description := subject.description
  parent_document_id := subject.parent_document_id
  parent_document_uuid := document.cufe_cude
  software_pin := request.software_pin
  environment := request.environment

/-! ## The program -/

/-- Go on with the value of a `Result`, or return its error. -/
def radianExcept {α : Type} (r : Except DomainError α) : RadianM α := ExceptT.mk (pure r)

def radianUuid : RadianM Uuid := ExceptT.lift (Prog.request (RadianCall.port .newUuid))

def radianNow : RadianM Time := ExceptT.lift (Prog.request (RadianCall.port .utcNow))

def signEvent (tenant_id : Uuid) (xml : String) : RadianM String :=
  ExceptT.mk (Prog.request (RadianCall.port (.signForTenant tenant_id xml)))

def recordAnswer (event : DianEvent) : RadianM Unit :=
  ExceptT.mk (Prog.request (RadianCall.port (.recordEvent event)))

def findTenantDocument (tenant_id id : Uuid) : RadianM (Option Document) :=
  ExceptT.mk (Prog.request (RadianCall.findTenantDocument tenant_id id))

def sendEventUpdateStatus (tenant_id : Uuid) (zip : List UInt8) (is_hab : Bool) :
    RadianM DianResponse :=
  ExceptT.mk (Prog.request (RadianCall.sendEventUpdateStatus tenant_id zip is_hab))

section Program

variable (k : Ubl.Codes)
  (compress : String → String → String → Int → Except String (List UInt8 × String))

/-- The event of the DIAN's answer, which is recorded. -/
def answerEvent (document : Document) (response : DianResponse) (id : Uuid) (created_at : Time) :
    DianEvent where
  id := id
  document_id := document.id
  event_status := if response.status_code = "00" then .accepted else .rejected
  dian_response_code := some response.status_code
  dian_response_message := some response.message
  soap_trace_id := response.soap_trace_id
  xml_response := response.xml_response
  created_at := created_at

/-- From the document on. The number in the name of the ZIP is 1 for every event. -/
def registerEventOn (issuer : EventIssuer) (request : RadianEventRequest) (document : Document) :
    RadianM RadianEventOutcome := do
  let subject ← radianExcept (eventSubject document request.event_code)
  let id ← radianUuid
  let now ← radianNow
  let (unsigned_xml, cude) ← radianExcept ((Ubl.generateApplicationResponseXml k
    (eventInput issuer document request subject id now)).mapError fun e => .internal e.message)
  let signed_xml ← signEvent issuer.tenant.id unsigned_xml
  let (zip, _) ← radianExcept
    ((compress signed_xml issuer.tenant.tax_id "EV" 1).mapError DomainError.internal)
  let response ← sendEventUpdateStatus issuer.tenant.id zip (request.environment = "2")
  let event_id ← radianUuid
  let created_at ← radianNow
  let event := answerEvent document response event_id created_at
  recordAnswer event
  return {
    event_id := event.id
    event_code := request.event_code
    cude := cude
    dian_status := response.status_code
    dian_message := response.message
    soap_trace_id := response.soap_trace_id }

def registerEvent (issuer : EventIssuer) (document_id : Uuid) (request : RadianEventRequest) :
    RadianM RadianEventOutcome := do
  let found ← findTenantDocument issuer.tenant.id document_id
  match found with
  | none => throw (.notFound ("Documento " ++ uuidText document_id ++ " no encontrado"))
  | some document => registerEventOn k compress issuer request document

/-! ## Its calls -/

/-- The event about the document that was signed for the tenant. -/
def SignedEvent (issuer : EventIssuer) (request : RadianEventRequest) (document : Document)
    (t : RadianHistory) (signed_xml : String) : Prop :=
  ∃ subject id now xml cude, eventSubject document request.event_code = .ok subject ∧
    Ubl.generateApplicationResponseXml k (eventInput issuer document request subject id now) =
      .ok (xml, cude) ∧
    (⟨.port (.signForTenant issuer.tenant.id xml), .ok signed_xml⟩ :
      Exchange RadianCall RadianReply) ∈ t

/-- The store has answered with the document. -/
def FoundFor (issuer : EventIssuer) (document_id : Uuid) (t : RadianHistory) (d : Document) : Prop :=
  (⟨.findTenantDocument issuer.tenant.id document_id, .ok (some d)⟩ :
    Exchange RadianCall RadianReply) ∈ t

def RadianCalled (issuer : EventIssuer) (document_id : Uuid) (request : RadianEventRequest)
    (t : RadianHistory) : RadianCall → Prop
  | .findTenantDocument tenant_id id => tenant_id = issuer.tenant.id ∧ id = document_id
  | .sendEventUpdateStatus tenant_id zip is_hab => tenant_id = issuer.tenant.id ∧
      is_hab = decide (request.environment = "2") ∧
      ∃ d signed_xml name, FoundFor issuer document_id t d ∧
        SignedEvent k issuer request d t signed_xml ∧
        compress signed_xml issuer.tenant.tax_id "EV" 1 = .ok (zip, name)
  | .port .newUuid => True
  | .port .utcNow => True
  | .port (.signForTenant tenant_id _) => tenant_id = issuer.tenant.id
  | .port (.recordEvent event) => ∃ d zip is_hab response id created_at,
      FoundFor issuer document_id t d ∧
      (⟨.sendEventUpdateStatus issuer.tenant.id zip is_hab, .ok response⟩ :
        Exchange RadianCall RadianReply) ∈ t ∧
      event = answerEvent d response id created_at
  | .port _ => False

variable {k compress} {P : RadianHistory → RadianCall → Prop} {t : RadianHistory}

@[simp] theorem wp_radianExcept {α : Type} (r : Except DomainError α)
    {Q : RadianHistory → Except DomainError α → Prop} :
    wp P Q t (radianExcept r).run ↔ Q t r := Iff.rfl

theorem wp_radian_request (c : RadianCall)
    {Q : RadianHistory → Except DomainError (RadianReply c) → Prop} :
    wp P Q t (ExceptT.lift (request c)).run ↔ P t c ∧ ∀ r, Q (t ++ [⟨c, r⟩]) (.ok r) := by
  show wp P Q t (Except.ok <$> request c) ↔ _
  rw [wp_map_ok]
  rfl

@[simp] theorem wp_radianUuid {Q : RadianHistory → Except DomainError Uuid → Prop} :
    wp P Q t radianUuid.run ↔
      P t (.port .newUuid) ∧ ∀ r : Uuid, Q (t ++ [⟨.port .newUuid, r⟩]) (.ok r) :=
  wp_radian_request (.port .newUuid)

@[simp] theorem wp_radianNow {Q : RadianHistory → Except DomainError Time → Prop} :
    wp P Q t radianNow.run ↔
      P t (.port .utcNow) ∧ ∀ r : Time, Q (t ++ [⟨.port .utcNow, r⟩]) (.ok r) :=
  wp_radian_request (.port .utcNow)

@[simp] theorem wp_signEvent (tenant_id : Uuid) (xml : String)
    {Q : RadianHistory → Except DomainError String → Prop} :
    wp P Q t (signEvent tenant_id xml).run ↔ P t (.port (.signForTenant tenant_id xml)) ∧
      ∀ r, Q (t ++ [⟨.port (.signForTenant tenant_id xml), r⟩]) r := Iff.rfl

@[simp] theorem wp_recordAnswer (event : DianEvent)
    {Q : RadianHistory → Except DomainError Unit → Prop} :
    wp P Q t (recordAnswer event).run ↔ P t (.port (.recordEvent event)) ∧
      ∀ r, Q (t ++ [⟨.port (.recordEvent event), r⟩]) r := Iff.rfl

@[simp] theorem wp_findTenantDocument (tenant_id id : Uuid)
    {Q : RadianHistory → Except DomainError (Option Document) → Prop} :
    wp P Q t (findTenantDocument tenant_id id).run ↔ P t (.findTenantDocument tenant_id id) ∧
      ∀ r, Q (t ++ [⟨.findTenantDocument tenant_id id, r⟩]) r := Iff.rfl

@[simp] theorem wp_sendEventUpdateStatus (tenant_id : Uuid) (zip : List UInt8) (is_hab : Bool)
    {Q : RadianHistory → Except DomainError DianResponse → Prop} :
    wp P Q t (sendEventUpdateStatus tenant_id zip is_hab).run ↔
      P t (.sendEventUpdateStatus tenant_id zip is_hab) ∧
        ∀ r, Q (t ++ [⟨.sendEventUpdateStatus tenant_id zip is_hab, r⟩]) r := Iff.rfl

theorem FoundFor.append {issuer : EventIssuer} {document_id : Uuid} {d : Document}
    (h : FoundFor issuer document_id t d) (q : RadianHistory) :
    FoundFor issuer document_id (t ++ q) d :=
  List.mem_append_left _ h

/-- Only an answer of the DIAN is recorded, and only a signed event is sent. -/
theorem registerEventOn_calls {issuer : EventIssuer} {document_id : Uuid}
    {request : RadianEventRequest} {d : Document} (hfound : FoundFor issuer document_id t d) :
    wp (RadianCalled k compress issuer document_id request) (fun _ _ => True) t
      (registerEventOn k compress issuer request d).run := by
  unfold registerEventOn
  simp only [wp_run_bind, wp_radianExcept, wp_radianUuid, wp_radianNow, wp_signEvent,
    wp_sendEventUpdateStatus, wp_recordAnswer, wp_run_pure]
  split
  · rename_i subject hsubject
    refine ⟨trivial, fun id => ⟨trivial, fun now => ?_⟩⟩
    split
    · rename_i xml hxml
      refine ⟨rfl, fun signed => ?_⟩
      split
      · rename_i signed_xml
        split
        · rename_i zip hzip
          have hsigned : SignedEvent k issuer request d (t ++ [⟨.port .newUuid, id⟩] ++
              [⟨.port .utcNow, now⟩] ++ [⟨.port (.signForTenant issuer.tenant.id xml.1),
                .ok signed_xml⟩]) signed_xml :=
            ⟨subject, id, now, xml.1, xml.2, hsubject, InboundService.ok_of_mapError hxml,
              List.mem_append_right _ (List.mem_singleton_self _)⟩
          refine ⟨⟨rfl, rfl, d, signed_xml, zip.2, ?_, hsigned,
            InboundService.ok_of_mapError hzip⟩, fun response => ?_⟩
          · exact ((hfound.append _).append _).append _
          · split
            · rename_i response
              refine ⟨trivial, fun event_id => ⟨trivial, fun created_at => ⟨?_, fun recorded => ?_⟩⟩⟩
              · refine ⟨d, zip.1, decide (request.environment = "2"), response, event_id, created_at,
                  ?_, ?_, rfl⟩
                · exact (((((hfound.append _).append _).append _).append _).append _).append _
                · exact List.mem_append_left _ (List.mem_append_left _
                    (List.mem_append_right _ (List.mem_singleton_self _)))
              · split <;> trivial
            · trivial
        · trivial
      · trivial
    · trivial
  · trivial

/-- Every call of `register_event`, whatever the replies. -/
theorem registerEvent_calls (issuer : EventIssuer) (document_id : Uuid)
    (request : RadianEventRequest) :
    wp (RadianCalled k compress issuer document_id request) (fun _ _ => True) []
      (registerEvent k compress issuer document_id request).run := by
  unfold registerEvent
  simp only [wp_run_bind, wp_findTenantDocument]
  refine ⟨⟨rfl, rfl⟩, fun found => ?_⟩
  split
  · rename_i found
    cases found with
    | none => trivial
    | some d => exact registerEventOn_calls (List.mem_singleton_self _)
  · trivial

end Program

end DianService
