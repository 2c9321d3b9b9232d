import DianService.Domain.Models
import DianService.Application.Xml
import Mathlib.Data.List.Infix

/-
  Application: registration of the invoices received from suppliers (`inbound.rs`), and the verifier
  it calls (`SignatureVerifier for XmlSignatureVerifier` in `verify.rs`). What the data are read from
  is the invoice inside the container, after the three signatures have been verified.

  Parameters stand for `quick_xml` (how a text is read) and for the run of `xmlsec1`, of which the
  code learns no more than whether it succeeded.
-/

namespace DianService

open Lib.Xml

/-- `str::contains` -/
def containsText (s needle : String) : Bool := decide (needle.toList <:+: s.toList)

theorem ok_of_bind {ε α β : Type} {x : Except ε α} {f : α → Except ε β} {b : β}
    (h : x >>= f = .ok b) : ∃ a, x = .ok a ∧ f a = .ok b := by
  cases x with
  | error e => cases h
  | ok a => exact ⟨a, rfl, h⟩

/-! ## The verifier -/

structure XmlSignatureVerifier where
  reader : String → EventStream Tag Leaf
  run_xmlsec1 : String → Except CryptoError Unit
  certificates : CertificateReader

namespace XmlSignatureVerifier

/-- `XmlSignatureVerifier::verify` -/
def check (v : XmlSignatureVerifier) (xml : String) : Except CryptoError Unit := do
  if xml.utf8ByteSize > MAX_DOCUMENT_BYTES then throw (.signing "Document too large to verify")
  checkSignatureStructure (v.reader xml)
  v.run_xmlsec1 xml

/-- What the port reports of an error. -/
def portError : CryptoError → DomainError
  | .signing message => .validation message
  | .xml message => .validation message
  | other => .crypto other.message

/-- The operation of the port: the subject of the signer. -/
def verify (v : XmlSignatureVerifier) (xml : String) : Except DomainError String :=
  (do v.check xml; signerSubject v.certificates (v.reader xml)).mapError portError

theorem verify_ok {v : XmlSignatureVerifier} {xml signer : String} (h : v.verify xml = .ok signer) :
    v.check xml = .ok () ∧ signerSubject v.certificates (v.reader xml) = .ok signer := by
  unfold verify at h
  cases hrun : (do v.check xml; signerSubject v.certificates (v.reader xml)) with
  | error e =>
      rw [hrun] at h
      cases h
  | ok s =>
      rw [hrun] at h
      cases h
      obtain ⟨_, hcheck, hsigner⟩ := ok_of_bind hrun
      exact ⟨hcheck, hsigner⟩

end XmlSignatureVerifier

/-! ## The use case -/

structure NewInboundDocument where
  id : Uuid
  tenant_id : Uuid
  issuer_nit : String
  document_type : DocumentType
  pfx : String
  document_number : Int
  cufe : String
  payload : Value
  signed_xml : String
  status : DocumentStatus

structure InboundRegistered where
  document_id : Uuid
  parent_document_id : String

/-- `verify` is the operation of the port. -/
structure InboundVerification where
  verify : String → Except DomainError String
  dian_signer_subject : String

structure InboundService where
  reader : String → EventStream Tag Leaf
  verification : Option InboundVerification

namespace InboundService

def ATTACHED_INVOICE : List String :=
  ["AttachedDocument", "Attachment", "ExternalReference", "Description"]

def ATTACHED_RESPONSE : List String :=
  ["AttachedDocument", "ParentDocumentLineReference", "DocumentReference", "Attachment",
    "ExternalReference", "Description"]

def SUPPLIER : List String := ["Invoice", "AccountingSupplierParty", "Party", "PartyTaxScheme"]

def CUSTOMER : List String := ["Invoice", "AccountingCustomerParty", "Party", "PartyTaxScheme"]

def PARENT_DOCUMENT_ID : List String := ["AttachedDocument", "ParentDocumentID"]

def RESPONSE_CODE : List String :=
  ["ApplicationResponse", "DocumentResponse", "Response", "ResponseCode"]

def VALIDATED_UUID : List String :=
  ["ApplicationResponse", "DocumentResponse", "DocumentReference", "UUID"]

def PAYABLE_AMOUNT : List String := ["Invoice", "LegalMonetaryTotal", "PayableAmount"]

/-- All the paths that `register_verified` reads. -/
def readPaths : List (List String) :=
  [ATTACHED_INVOICE, ATTACHED_RESPONSE, PARENT_DOCUMENT_ID, ["Invoice", "ID"], ["Invoice", "UUID"],
    ["Invoice", "IssueDate"], PAYABLE_AMOUNT, SUPPLIER ++ ["CompanyID"],
    SUPPLIER ++ ["RegistrationName"], CUSTOMER ++ ["CompanyID"], CUSTOMER ++ ["RegistrationName"],
    RESPONSE_CODE, VALIDATED_UUID]

/-- `invalid` -/
def refuse {α : Type} (message : String) : Except DomainError α := .error (.validation message)

def required (doc : XmlDoc) (path : List String) (what : String) : Except DomainError String :=
  match (doc.text path).filter fun v => v ≠ "" with
  | some v => .ok v
  | none => refuse ("No se encontro " ++ what)

/-- The closure `verify`. -/
def verifyAs (verification : InboundVerification) (what xml : String) : Except DomainError String :=
  match verification.verify xml with
  | .error (.validation reason) => refuse ("Firma invalida en " ++ what ++ ": " ++ reason)
  | r => r

/-- The container with the two documents embedded in it. -/
structure Attached where
  container : XmlDoc
  invoice_xml : String
  response_xml : String

def openContainer (s : InboundService) (attached_xml : String) : Except DomainError Attached := do
  let container ← (XmlDoc.parse (s.reader attached_xml)).mapError DomainError.validation
  if container.root ≠ "AttachedDocument" then
    refuse "El documento recibido no es un AttachedDocument"
  let invoice_xml ← required container ATTACHED_INVOICE "la factura embebida en el AttachedDocument"
  let response_xml ← required container ATTACHED_RESPONSE
    "el ApplicationResponse de la DIAN en el AttachedDocument"
  return ⟨container, invoice_xml, response_xml⟩

/-- The subjects of the two signers that are recorded. -/
structure Signers where
  invoice : String
  response : String

def verifySignatures (verification : InboundVerification) (attached_xml : String) (a : Attached) :
    Except DomainError Signers := do
  let _ ← verifyAs verification "el AttachedDocument" attached_xml
  let invoice ← verifyAs verification "la factura" a.invoice_xml
  let response ← verifyAs verification "el ApplicationResponse" a.response_xml
  if !containsText response verification.dian_signer_subject then
    refuse ("El ApplicationResponse no esta firmado por la DIAN (firmante: " ++ response ++ ")")
  return ⟨invoice, response⟩

theorem verifyAs_ok {verification : InboundVerification} {what xml signer : String}
    (h : verifyAs verification what xml = .ok signer) : verification.verify xml = .ok signer := by
  unfold verifyAs at h
  split at h
  · cases h
  · exact h

/-- What is known of the signatures once they are verified. -/
structure Verified (verification : InboundVerification) (attached_xml : String) (a : Attached)
    (signers : Signers) : Prop where
  container : ∃ signer, verification.verify attached_xml = .ok signer
  invoice : verification.verify a.invoice_xml = .ok signers.invoice
  response : verification.verify a.response_xml = .ok signers.response
  dian : containsText signers.response verification.dian_signer_subject

theorem verifySignatures_ok {verification : InboundVerification} {attached_xml : String}
    {a : Attached} {signers : Signers}
    (h : verifySignatures verification attached_xml a = .ok signers) :
    Verified verification attached_xml a signers := by
  obtain ⟨container, hcontainer, h⟩ := ok_of_bind h
  obtain ⟨invoice, hinvoice, h⟩ := ok_of_bind h
  obtain ⟨response, hresponse, h⟩ := ok_of_bind h
  dsimp only at h
  split at h
  · cases h
  · rename_i hdian
    cases h
    exact ⟨⟨container, verifyAs_ok hcontainer⟩, verifyAs_ok hinvoice, verifyAs_ok hresponse,
      by simpa using hdian⟩

/-- `str::eq_ignore_ascii_case` -/
def eqIgnoreAsciiCase (a b : String) : Bool := a.toList.map Char.toLower = b.toList.map Char.toLower

/-- What is recorded of the verified documents. -/
def inboundDocument (s : InboundService) (tenant : Tenant) (id : Uuid) (attached_xml : String)
    (a : Attached) (signers : Signers) : Except DomainError (NewInboundDocument × String) := do
  let invoice ← (XmlDoc.parse (s.reader a.invoice_xml)).mapError fun e =>
    .validation ("Factura embebida: " ++ e)
  if invoice.root ≠ "Invoice" then
    refuse "El documento embebido no es una factura (Invoice)"
  let response ← (XmlDoc.parse (s.reader a.response_xml)).mapError fun e =>
    .validation ("ApplicationResponse: " ++ e)
  if response.root ≠ "ApplicationResponse" then
    refuse "La respuesta embebida no es un ApplicationResponse"
  let invoice_id ← required invoice ["Invoice", "ID"] "el numero de la factura"
  let cufe ← required invoice ["Invoice", "UUID"] "el CUFE de la factura"
  let sender_nit ← required invoice (SUPPLIER ++ ["CompanyID"]) "el NIT del emisor en la factura"
  let sender_name ← required invoice (SUPPLIER ++ ["RegistrationName"])
    "el nombre del emisor en la factura"
  let receiver_nit ← required invoice (CUSTOMER ++ ["CompanyID"])
    "el NIT del adquirente en la factura"
  let receiver_name := (invoice.text (CUSTOMER ++ ["RegistrationName"])).getD ""
  let response_code ← required response RESPONSE_CODE "el codigo de respuesta de la DIAN"
  let validated_cufe ← required response VALIDATED_UUID "el CUFE validado por la DIAN"
  if response_code ≠ "02" then
    refuse ("La DIAN no valido la factura (ResponseCode " ++ response_code ++ "; se esperaba 02)")
  if !eqIgnoreAsciiCase validated_cufe cufe then
    refuse "El ApplicationResponse de la DIAN corresponde a otra factura (CUFE distinto)"
  if a.container.text PARENT_DOCUMENT_ID ≠ some invoice_id then
    refuse "El ParentDocumentID del contenedor no coincide con el numero de la factura"
  if receiver_nit ≠ tenant.tax_id then
    throw (.forbidden ("El adquirente de la factura (" ++ receiver_nit ++
      ") no es el tenant autenticado"))
  let some (pfx, number) := splitDocumentId invoice_id
    | refuse ("El numero de factura '" ++ invoice_id ++ "' no tiene un consecutivo numerico valido")
  return ({
    id := id
    tenant_id := tenant.id
    issuer_nit := sender_nit
    document_type := .invoice
    pfx := pfx
    document_number := number
    cufe := cufe
    payload := .object [
      ("inbound", .bool true),
      ("signature_verified", .bool true),
      ("parent_document_id", .string invoice_id),
      ("cufe", .string cufe),
      ("issue_date", ((invoice.text ["Invoice", "IssueDate"]).map Value.string).getD .null),
      ("payable_amount", ((invoice.text PAYABLE_AMOUNT).map Value.string).getD .null),
      ("sender_nit", .string sender_nit),
      ("sender_name", .string sender_name),
      ("receiver_nit", .string receiver_nit),
      ("receiver_name", .string receiver_name),
      ("invoice_signer", .string signers.invoice),
      ("dian_signer", .string signers.response)]
    signed_xml := attached_xml
    status := .dianAccepted }, invoice_id)

/-- `id` is the `Uuid::new_v4()` it draws, `insert` the operation `insert_inbound` of the store. -/
def registerVerified (s : InboundService) (insert : NewInboundDocument → Except DomainError Bool)
    (tenant : Tenant) (id : Uuid) (attached_xml : String) : Except DomainError InboundRegistered := do
  let some verification := s.verification
    | throw (.internal "Inbound signature verification is not configured")
  let a ← s.openContainer attached_xml
  let signers ← verifySignatures verification attached_xml a
  let (document, invoice_id) ← s.inboundDocument tenant id attached_xml a signers
  let inserted ← insert document
  if !inserted then
    throw (.conflict ("La factura " ++ invoice_id ++ " del emisor " ++ document.issuer_nit ++
      " ya estaba registrada"))
  return ⟨id, invoice_id⟩

end InboundService

end DianService
