import DianService.Platform.Safe
import DianService.Signature.Structure
import DianService.Ubl.Rendered
import DianService.Worker.Verdicts

/-
  Platform: RADIAN events and received invoices. Only `register_verified` makes rows that count as
  received and verified: no payload that a client issues, no other registration and no step of a
  worker does. Hence an event is only ever sent about an invoice that was verified for the tenant
  who sends it, whatever runs between the lookup of the document and the sending.
-/

namespace DianService

open Lib Lib.Prog

/-! ## What is sent -/

/-- The event on its way to the DIAN is about an invoice that was registered for the tenant. -/
def EventTask.AboutRegistered (c : PlatformConfig) (s : Platform) (t : EventTask)
    (tenant_id : Uuid) (zip : List UInt8) : Prop :=
  ∃ r ∈ s.registrations, r.Accepted c s.system.db ∧ r.row ∈ s.system.db.documents ∧
    r.tenant.id = tenant_id ∧ ∃ signed_xml name,
      SignedEvent c.codes t.issuer t.request r.row t.history signed_xml ∧
      c.compress signed_xml t.issuer.tenant.tax_id "EV" 1 = .ok (zip, name)

structure VerifiedOnly (c : PlatformConfig) (s : Platform) : Prop where
  rows : ∀ d ∈ s.system.db.documents, d.payload.flag "inbound" = true →
    d.payload.flag "signature_verified" = true →
      ∃ r ∈ s.registrations, r.Accepted c s.system.db ∧ d = r.row
  stays : ∀ r ∈ s.registrations, r.row ∈ s.system.db.documents
  sent : ∀ t ∈ s.events, ∀ tenant_id zip is_hab k,
    t.rest = .call (.sendEventUpdateStatus tenant_id zip is_hab) k →
      t.AboutRegistered c s tenant_id zip

variable {c : PlatformConfig} {s : Platform}

theorem eventSubject_ok {d : Document} {event_code : String} {subject : EventSubject}
    (h : eventSubject d event_code = .ok subject) : d.payload.flag "inbound" = true ∧
      d.payload.flag "signature_verified" = true := by
  obtain ⟨hinbound, h⟩ := InboundService.ok_of_check h
  obtain ⟨hverified, h⟩ := InboundService.ok_of_check h
  exact ⟨by simpa using hinbound, by simpa using hverified⟩

theorem Platform.Safe.sent (hs : s.Safe c) {t : EventTask} (ht : t ∈ s.events) {tenant_id : Uuid}
    {zip : List UInt8} {is_hab : Bool}
    {k : RadianReply (.sendEventUpdateStatus tenant_id zip is_hab) →
      Prog RadianCall RadianReply (Except DomainError RadianEventOutcome)}
    (hrest : t.rest = .call (.sendEventUpdateStatus tenant_id zip is_hab) k) :
    t.AboutRegistered c s tenant_id zip := by
  obtain ⟨-, hpath, hfound⟩ := hs.events t ht
  rw [hrest] at hpath
  obtain ⟨rfl, -, d, signed_xml, name, hd, hsigned, hzip⟩ :=
    call_of_path (registerEvent_calls t.issuer t.document_id t.request) hpath
  obtain ⟨htenant, hregistered⟩ := hfound d hd
  have hsubject := hsigned
  obtain ⟨subject, -, -, -, -, hsubject, -, -⟩ := hsubject
  obtain ⟨hinbound, hverified⟩ := eventSubject_ok hsubject
  obtain ⟨r, hr, rfl⟩ := hregistered hinbound hverified
  obtain ⟨haccepted, hrow⟩ := hs.registrations r hr
  have hid : r.tenant.id = t.issuer.tenant.id := by
    obtain ⟨subject, -, hinvoice⟩ := haccepted.verified
    cases hinvoice with
    | mk _ _ _ _ _ _ _ _ _ _ htenant' => exact htenant'.symm.trans htenant
  exact ⟨r, hr, haccepted, hrow, hid, signed_xml, name, hsigned, hzip⟩

theorem events_about_verified (h : (platform c).Reachable s) : VerifiedOnly c s := by
  have hs := safe_of_reachable h
  refine ⟨fun d hd hinbound hverified => ?_, fun r hr => (hs.registrations r hr).2,
    fun t ht tenant_id zip is_hab k hrest => hs.sent ht hrest⟩
  obtain ⟨r, hr, hrow⟩ := hs.registered hd hinbound hverified
  exact ⟨r, hr, (hs.registrations r hr).1, hrow⟩

/-! ## A run -/

/-- An element that has nothing but text. -/
def valued (name value : String) (rest : Doc) : Doc :=
  .node (plainTag name) (.leaf (.text value) .nil) rest

/-- A party of an invoice. -/
def partyElement (name company_id registration_name : String) (rest : Doc) : Doc :=
  .node (plainTag name) (.node (plainTag "Party") (.node (plainTag "PartyTaxScheme")
    (valued "CompanyID" company_id (valued "RegistrationName" registration_name .nil)) .nil) .nil)
    rest

def suppliedInvoice : Doc :=
  .node (plainTag "Invoice") (valued "ID" "FE-7" (valued "UUID" "ab"
    (partyElement "AccountingSupplierParty" "800" "Proveedor"
      (partyElement "AccountingCustomerParty" "900" "Comprador" .nil)))) .nil

def acceptingAnswer : Doc :=
  .node (plainTag "ApplicationResponse") (.node (plainTag "DocumentResponse")
    (.node (plainTag "Response") (valued "ResponseCode" "02" .nil)
      (.node (plainTag "DocumentReference") (valued "UUID" "AB" .nil) .nil)) .nil) .nil

/-- What is attached stands as text in the container. -/
def attachment (text : String) (rest : Doc) : Doc :=
  .node (plainTag "Attachment") (.node (plainTag "ExternalReference")
    (valued "Description" text .nil) .nil) rest

def suppliedContainer : Doc :=
  .node (plainTag "AttachedDocument") (valued "ParentDocumentID" "FE-7" (attachment "<Invoice/>"
    (.node (plainTag "ParentDocumentLineReference") (.node (plainTag "DocumentReference")
      (attachment "<ApplicationResponse/>" .nil) .nil) .nil))) .nil

/-- The three documents as `quick_xml` reads them. -/
def suppliedReader (text : String) : Lib.Xml.EventStream Lib.Xml.Tag Lib.Xml.Leaf :=
  if text = "<Invoice/>" then suppliedInvoice.stream
  else if text = "<ApplicationResponse/>" then acceptingAnswer.stream
  else suppliedContainer.stream

def samplePlatform : PlatformConfig where
  issuing := ⟨halfEven, Ubl.jsonNumbers, fun _ => "", fun _ => sampleHash 'a' rfl, 5⟩
  codes := Ubl.hexCodes
  compress _ _ _ _ := .ok ([80, 75], "z.zip")
  processing := sampleConfig
  reader := suppliedReader
  dian_signer_subject := some "DIAN"

def buyerStart : Platform := ⟨⟨Db.fresh [⟨1, "900"⟩], 0, [], [], []⟩, [], []⟩

/-- A received invoice is registered, and an event about it goes as far as the DIAN. -/
def buyerRun : List PlatformAction :=
  [.registerVerified 1 "<AttachedDocument/>" 10 (fun _ => .ok "CN=DIAN") .none,
    .registerEvent 1 "Comprador" 10 ⟨"030", "pin", "2"⟩] ++
  List.replicate 4 (.answerEvent 0 ⟨sampleWorld calmAnswer, .error (.internal "")⟩)

/-- The event that waits for the answer of the DIAN. -/
def EventTask.isSending (t : EventTask) : Bool :=
  match t.rest with
  | .call (.sendEventUpdateStatus ..) _ => true
  | _ => false

theorem buyerRun_sends : ((platform samplePlatform).run buyerStart buyerRun).any (fun s =>
    s.events.any EventTask.isSending) = true := by decide +kernel

theorem events_about_verified_supplier : ∃ s, (platform samplePlatform).run buyerStart buyerRun =
    some s ∧ ∃ t ∈ s.events, ∃ tenant_id zip, t.AboutRegistered samplePlatform s tenant_id zip := by
  obtain ⟨s, hrun, hsends⟩ := (Option.any_eq_true _ _).mp buyerRun_sends
  obtain ⟨t, ht, hsending⟩ := List.any_eq_true.mp hsends
  have hreachable : (platform samplePlatform).Reachable s :=
    Machine.Reachable.run (.start ⟨_, _, rfl⟩) hrun
  unfold EventTask.isSending at hsending
  split at hsending
  · rename_i tenant_id zip is_hab k hrest
    exact ⟨s, hrun, t, ht, tenant_id, zip,
      (events_about_verified hreachable).sent t ht tenant_id zip is_hab k hrest⟩
  · cases hsending

end DianService
