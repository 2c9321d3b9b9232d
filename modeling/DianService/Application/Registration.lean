import DianService.Application.Inbound
import DianService.Application.Tags
import DianService.Lib.Xml.Reader

/-
  Application: what the two registrations of `inbound.rs` record of a received invoice. The verified
  one takes everything from the invoice inside the container; the other one searches the text of
  the container for its tags and checks no signature.
-/

namespace DianService

open Lib.Xml

/-- What a search for `needle` finds from its first occurrence on. -/
def fromFirst (needle text : List Char) : Option (List Char) :=
  (splitAtFirst needle text).map fun found => needle ++ found.2

def tagInSection (xml section_start section_end tag_name : String) : Option String := do
  let start ← fromFirst section_start.toList xml.toList
  let (inner, _) ← splitAtFirst section_end.toList start
  tagContent (String.ofList inner) tag_name

/-- `Value::as_bool` -/
def Value.asBool? : Value → Option Bool
  | .bool b => some b
  | _ => none

/-- The field of the payload is `true`. -/
def Value.flag (payload : Value) (name : String) : Bool :=
  (payload.get? name).bind Value.asBool? = some true

namespace InboundService

/-! ## Verified -/

/-- `register_verified` up to the insertion. -/
def verifiedDocument (s : InboundService) (tenant : Tenant) (id : Uuid) (attached_xml : String) :
    Except DomainError (NewInboundDocument × String) := do
  let some verification := s.verification
    | throw (.internal "Inbound signature verification is not configured")
  let a ← s.openContainer attached_xml
  let signers ← verifySignatures verification attached_xml a
  s.inboundDocument tenant id attached_xml a signers

/-- The insertion, which ends both registrations. -/
def record (insert : NewInboundDocument → Except DomainError Bool)
    (new : NewInboundDocument × String) : Except DomainError InboundRegistered := do
  let inserted ← insert new.1
  if !inserted then
    throw (.conflict ("La factura " ++ new.2 ++ " del emisor " ++ new.1.issuer_nit ++
      " ya estaba registrada"))
  return ⟨new.1.id, new.2⟩

/-- The documents that are recorded as verified: all three signatures are good, the signer of the
    answer is the DIAN, which validated this invoice, and the tenant is who bought. -/
inductive VerifiedInvoice (s : InboundService) (verification : InboundVerification)
    (tenant : Tenant) (attached_xml : String) : NewInboundDocument → Prop where
  | mk {a : Attached} {signers : Signers} {invoice response : XmlDoc} {validated_cufe : String}
      {document : NewInboundDocument}
      (hcontainer : s.openContainer attached_xml = .ok a)
      (hverified : Verified verification attached_xml a signers)
      (hinvoice : XmlDoc.parse (s.reader a.invoice_xml) = .ok invoice)
      (hresponse : XmlDoc.parse (s.reader a.response_xml) = .ok response)
      (hcode : response.text RESPONSE_CODE = some "02")
      (hvalidated : response.text VALIDATED_UUID = some validated_cufe)
      (hcufe : invoice.text ["Invoice", "UUID"] = some document.cufe)
      (hsame : eqIgnoreAsciiCase validated_cufe document.cufe = true)
      (hsupplier : invoice.text (SUPPLIER ++ ["CompanyID"]) = some document.issuer_nit)
      (hcustomer : invoice.text (CUSTOMER ++ ["CompanyID"]) = some tenant.tax_id)
      (htenant : document.tenant_id = tenant.id) :
      VerifiedInvoice s verification tenant attached_xml document

theorem required_ok {doc : XmlDoc} {path : List String} {what v : String}
    (h : required doc path what = .ok v) : doc.text path = some v := by
  unfold required at h
  split at h
  · rename_i heq
    cases h
    exact (Option.filter_eq_some_iff.mp heq).1
  · cases h

theorem ok_of_mapError {ε δ α : Type} {f : ε → δ} {x : Except ε α} {a : α}
    (h : x.mapError f = .ok a) : x = .ok a := by
  cases x with
  | error e => cases h
  | ok b =>
    cases h
    rfl

/-- A check of a `do` block that let the block go on. -/
theorem ok_of_check {α : Type} {p : Prop} [Decidable p] {e : DomainError}
    {x : Except DomainError α} {r : α}
    (h : (if p then Except.error e >>= fun _ : PUnit => x else x) = .ok r) : ¬ p ∧ x = .ok r := by
  split at h
  · cases h
  · exact ⟨‹_›, h⟩

variable {s : InboundService} {tenant : Tenant} {id : Uuid} {attached_xml : String}

/-- What `inboundDocument` records was read of the invoice, and was checked. -/
theorem inboundDocument_ok {verification : InboundVerification} {a : Attached} {signers : Signers}
    {document : NewInboundDocument} {invoice_id : String}
    (hcontainer : s.openContainer attached_xml = .ok a)
    (hverified : Verified verification attached_xml a signers)
    (h : s.inboundDocument tenant id attached_xml a signers = .ok (document, invoice_id)) :
    VerifiedInvoice s verification tenant attached_xml document ∧ document.id = id ∧
      document.status = .dianAccepted := by
  obtain ⟨invoice, hinvoice, h⟩ := ok_of_bind h
  obtain ⟨-, h⟩ := ok_of_check h
  obtain ⟨response, hresponse, h⟩ := ok_of_bind h
  obtain ⟨-, h⟩ := ok_of_check h
  obtain ⟨number, -, h⟩ := ok_of_bind h
  obtain ⟨cufe, hcufe, h⟩ := ok_of_bind h
  obtain ⟨sender_nit, hsender, h⟩ := ok_of_bind h
  obtain ⟨sender_name, -, h⟩ := ok_of_bind h
  obtain ⟨receiver_nit, hreceiver, h⟩ := ok_of_bind h
  obtain ⟨response_code, hcode, h⟩ := ok_of_bind h
  obtain ⟨validated_cufe, hvalidated, h⟩ := ok_of_bind h
  obtain ⟨haccepted, h⟩ := ok_of_check h
  obtain ⟨hsame, h⟩ := ok_of_check h
  obtain ⟨-, h⟩ := ok_of_check h
  obtain ⟨htenant, h⟩ := ok_of_check h
  have hcode : response.text RESPONSE_CODE = some "02" :=
    not_not.mp haccepted ▸ required_ok hcode
  have hreceiver : invoice.text (CUSTOMER ++ ["CompanyID"]) = some tenant.tax_id :=
    not_not.mp htenant ▸ required_ok hreceiver
  split at h
  · cases h
    exact ⟨.mk hcontainer hverified (ok_of_mapError hinvoice) (ok_of_mapError hresponse)
      hcode (required_ok hvalidated) (required_ok hcufe) (by simpa using hsame)
      (required_ok hsender) hreceiver rfl, rfl, rfl⟩
  · cases h

theorem verifiedDocument_ok {new : NewInboundDocument × String}
    (h : s.verifiedDocument tenant id attached_xml = .ok new) :
    ∃ verification, s.verification = some verification ∧
      VerifiedInvoice s verification tenant attached_xml new.1 ∧ new.1.id = id ∧
      new.1.status = .dianAccepted := by
  unfold verifiedDocument at h
  split at h
  · rename_i verification hsome
    obtain ⟨a, hcontainer, h⟩ := ok_of_bind h
    obtain ⟨signers, hsigners, h⟩ := ok_of_bind h
    exact ⟨verification, hsome, inboundDocument_ok hcontainer (verifySignatures_ok hsigners) h⟩
  · cases h

/-- `register_verified` inserts what `verifiedDocument` has checked, and nothing else. -/
theorem registerVerified_eq (insert : NewInboundDocument → Except DomainError Bool) :
    s.registerVerified insert tenant id attached_xml = (do
      let new ← s.verifiedDocument tenant id attached_xml
      record insert new) := by
  unfold registerVerified verifiedDocument
  cases hverification : s.verification with
  | none => rfl
  | some verification =>
    cases hcontainer : s.openContainer attached_xml with
    | error e => rfl
    | ok a =>
      cases hsigners : verifySignatures verification attached_xml a with
      | error e =>
        show (verifySignatures verification attached_xml a >>= _) =
          ((verifySignatures verification attached_xml a >>= _) >>= _)
        rw [hsigners]
        rfl
      | ok signers =>
        show (verifySignatures verification attached_xml a >>= _) =
          ((verifySignatures verification attached_xml a >>= _) >>= _)
        rw [hsigners]
        cases hdocument : s.inboundDocument tenant id attached_xml a signers with
        | error e =>
          show (s.inboundDocument tenant id attached_xml a signers >>= _) =
            (s.inboundDocument tenant id attached_xml a signers >>= _)
          rw [hdocument]
          rfl
        | ok new =>
          obtain ⟨-, rfl, -⟩ := inboundDocument_ok hcontainer (verifySignatures_ok hsigners)
            (show _ = Except.ok (new.1, new.2) from hdocument)
          show (s.inboundDocument tenant _ attached_xml a signers >>= _) =
            (s.inboundDocument tenant _ attached_xml a signers >>= _)
          rw [hdocument]
          rfl

/-! ## Not verified -/

/-- `register_unverified` up to the insertion. -/
def unverifiedDocument (tenant : Tenant) (id : Uuid) (xml : String) :
    Except DomainError (NewInboundDocument × String) := do
  if !containsText xml "<ds:Signature" && !containsText xml "<Signature" then
    refuse "El AttachedDocument XML no esta firmado digitalmente"
  if tagContent xml "ResponseCode" ≠ some "02" then
    refuse "El AttachedDocument no contiene el codigo de aceptacion reglamentario de la DIAN ('02')"
  let party (part tag : String) : Option String :=
    tagInSection xml ("<cac:" ++ part ++ ">") ("</cac:" ++ part ++ ">") tag
  let some sender_nit := party "SenderParty" "CompanyID"
    | refuse "No se encontro el NIT del emisor en el AttachedDocument"
  let sender_name := ((party "SenderParty" "RegistrationName").or
    (party "SenderParty" "Name")).getD "Proveedor Inbound"
  let some receiver_nit := party "ReceiverParty" "CompanyID"
    | refuse "No se encontro el NIT del receptor en el AttachedDocument"
  let receiver_name := ((party "ReceiverParty" "RegistrationName").or
    (party "ReceiverParty" "Name")).getD "Tenant Receptor"
  let some parent_document_id := tagContent xml "ParentDocumentID"
    | refuse "No se encontro el ParentDocumentID (Numero de factura)"
  let some cufe := tagContent xml "UUID"
    | refuse "No se encontro el CUFE/UUID de la factura original"
  if receiver_nit ≠ tenant.tax_id then
    throw (.forbidden ("El NIT receptor del documento (" ++ receiver_nit ++
      ") no coincide con el del tenant autenticado"))
  let some (pfx, number) := splitDocumentId parent_document_id
    | refuse ("El ParentDocumentID '" ++ parent_document_id ++
        "' no tiene un consecutivo numerico valido")
  return ({
    id := id
    tenant_id := tenant.id
    issuer_nit := sender_nit
    document_type := .invoice
    pfx := pfx
    document_number := number
    cufe := cufe
    payload := .object [
      ("inbound", .bool true),
      ("signature_verified", .bool false),
      ("parent_document_id", .string parent_document_id),
      ("cufe", .string cufe),
      ("sender_nit", .string sender_nit),
      ("sender_name", .string sender_name),
      ("receiver_nit", .string receiver_nit),
      ("receiver_name", .string receiver_name)]
    signed_xml := xml
    status := .dianAccepted }, parent_document_id)

def registerUnverified (insert : NewInboundDocument → Except DomainError Bool) (tenant : Tenant)
    (id : Uuid) (xml : String) : Except DomainError InboundRegistered := do
  let new ← unverifiedDocument tenant id xml
  record insert new

/-- What is not verified is recorded as such. -/
theorem unverifiedDocument_ok {new : NewInboundDocument × String}
    (h : unverifiedDocument tenant id attached_xml = .ok new) :
    new.1.payload.flag "signature_verified" = false ∧ new.1.tenant_id = tenant.id ∧
      new.1.id = id ∧ new.1.status = .dianAccepted := by
  unfold unverifiedDocument at h
  obtain ⟨-, h⟩ := ok_of_check h
  dsimp only at h
  obtain ⟨-, h⟩ := ok_of_check h
  split at h
  · split at h
    · split at h
      · split at h
        · obtain ⟨-, h⟩ := ok_of_check h
          split at h
          · cases h
            exact ⟨rfl, rfl, rfl, rfl⟩
          · cases h
        · cases h
      · cases h
    · cases h
  · cases h

end InboundService

end DianService
