import DianService.Application.Issue
import DianService.Application.Processing

/-
  Application: `ubl_engine` as the worker calls it. The payload of a stored document is read with
  the prefix and the number of the document in it; where the payload was accepted when the document
  was issued, that and the generation succeed.
-/

namespace DianService

open Lib Lib.Checked Lib.Prog

/-- A panic ends the task of the worker. -/
def outcome {α : Type} (x : Checked Ubl.UblError α) : Except String α :=
  match x.run with
  | some r => r.mapError Ubl.UblError.message
  | none => .error "panicked"

/-- `compress` is `compress_xml_to_zip`. -/
def ublEngine (A : Arithmetic) (k : Ubl.Codes) (J : Ubl.Floats)
    (compress : String → String → String → Int → Except String (List UInt8 × String)) :
    UblEngine where
  invoice_payload v := (Ubl.InvoicePayload.ofValue J v).map fun p =>
    ⟨p.company_nit, p.technical_key, v⟩
  payroll_payload v := (Ubl.PayrollPayload.ofValue J v).map fun p => ⟨p.employer_nit, v⟩
  support_document_payload v := (Ubl.SupportDocumentPayload.ofValue J v).map fun p =>
    ⟨p.buyer_nit, v⟩
  generate_invoice_xml payload technical_key := do
    let p ← Ubl.InvoicePayload.ofValue J payload.body
    outcome (Ubl.generateInvoiceXml A k p technical_key)
  generate_payroll_xml payload := do
    let p ← Ubl.PayrollPayload.ofValue J payload.body
    outcome (Ubl.generatePayrollXml A k p)
  generate_support_document_xml payload := do
    let p ← Ubl.SupportDocumentPayload.ofValue J payload.body
    outcome (Ubl.generateSupportDocumentXml A k p)
  generate_attached_document_xml payload unique_id issue_date issue_time cufe signed_invoice_xml
      dian_response_xml := do
    let p ← Ubl.InvoicePayload.ofValue J payload.body
    (Ubl.generateAttachedDocumentXml p unique_id issue_date issue_time cufe signed_invoice_xml
      dian_response_xml).mapError Ubl.UblError.message
  compress_xml_to_zip := compress

/-- The document was stored for the payload, which was accepted. -/
structure Document.Carries (A : Arithmetic) (J : Ubl.Floats) (d : Document) (p : Ubl.Payload) :
    Prop where
  valid : Returns (p.validate A) ()
  document_type : d.document_type = p.documentType
  pfx : d.pfx = p.pfx
  payload : d.payload = p.toValue J

/-- What the worker reads of the document. -/
def Document.reads (d : Document) (p : Ubl.Payload) : Ubl.Payload :=
  p.renumbered d.pfx d.document_number

section Generation

variable {A : Arithmetic} {k : Ubl.Codes} {J : Ubl.Floats}
  {compress : String → String → String → Int → Except String (List UInt8 × String)}
  {d : Document}

theorem outcome_of_returns {α : Type} {x : Checked Ubl.UblError α} {a : α} (h : Returns x a) :
    outcome x = .ok a := by
  rw [outcome, show x.run = _ from h]
  rfl

/-- The payload that the worker reads. -/
def Document.numberedPayload (d : Document) : Value :=
  (d.payload.set "prefix" (.string d.pfx)).set "number" (.number d.document_number)

theorem payloadWithNumber_ok {α : Type} {read : Value → Except String α} {a : α}
    (h : read d.numberedPayload = .ok a) : payloadWithNumber read d = .ok a := by
  show (read d.numberedPayload).mapError _ = _
  rw [h]
  rfl

/-! ### The payload that is read -/

section Read

variable (hnumber : InI32 d.document_number)
include hnumber

theorem Document.Carries.read_invoice {p : Ubl.InvoicePayload} (h : d.Carries A J (.invoice p)) :
    Ubl.InvoicePayload.ofValue J d.numberedPayload = .ok
      { p with pfx := d.pfx, number := d.document_number, technical_key := none } := by
  rw [Document.numberedPayload, h.payload]
  exact Ubl.InvoicePayload.ofValue_renumbered (Ubl.InvoicePayload.finite h.valid) _ hnumber

theorem Document.Carries.read_payroll {p : Ubl.PayrollPayload} (h : d.Carries A J (.payroll p)) :
    Ubl.PayrollPayload.ofValue J d.numberedPayload = .ok
      { p with pfx := d.pfx, number := d.document_number } := by
  rw [Document.numberedPayload, h.payload]
  exact Ubl.PayrollPayload.ofValue_renumbered (Ubl.PayrollPayload.finite h.valid) _ hnumber

theorem Document.Carries.read_supportDocument {p : Ubl.SupportDocumentPayload}
    (h : d.Carries A J (.supportDocument p)) :
    Ubl.SupportDocumentPayload.ofValue J d.numberedPayload = .ok
      { p with pfx := d.pfx, number := d.document_number } := by
  rw [Document.numberedPayload, h.payload]
  exact Ubl.SupportDocumentPayload.ofValue_renumbered
    (Ubl.SupportDocumentPayload.finite h.valid) _ hnumber

end Read

theorem invoice_payload_ok {p : Ubl.InvoicePayload}
    (hread : Ubl.InvoicePayload.ofValue J d.numberedPayload = .ok p) :
    payloadWithNumber (ublEngine A k J compress).invoice_payload d =
      .ok ⟨p.company_nit, p.technical_key, d.numberedPayload⟩ := by
  apply payloadWithNumber_ok
  show Except.map _ (Ubl.InvoicePayload.ofValue J d.numberedPayload) = _
  rw [hread]
  rfl

theorem payroll_payload_ok {p : Ubl.PayrollPayload}
    (hread : Ubl.PayrollPayload.ofValue J d.numberedPayload = .ok p) :
    payloadWithNumber (ublEngine A k J compress).payroll_payload d =
      .ok ⟨p.employer_nit, d.numberedPayload⟩ := by
  apply payloadWithNumber_ok
  show Except.map _ (Ubl.PayrollPayload.ofValue J d.numberedPayload) = _
  rw [hread]
  rfl

theorem support_document_payload_ok {p : Ubl.SupportDocumentPayload}
    (hread : Ubl.SupportDocumentPayload.ofValue J d.numberedPayload = .ok p) :
    payloadWithNumber (ublEngine A k J compress).support_document_payload d =
      .ok ⟨p.buyer_nit, d.numberedPayload⟩ := by
  apply payloadWithNumber_ok
  show Except.map _ (Ubl.SupportDocumentPayload.ofValue J d.numberedPayload) = _
  rw [hread]
  rfl

/-- The types of the documents that are generated from an invoice payload. -/
theorem Document.Carries.note_types {p : Ubl.InvoicePayload} (h : d.Carries A J (.invoice p))
    (htype : p.document_type ≠ "invoice") :
    d.document_type = .creditNote ∨ d.document_type = .debitNote := by
  obtain ⟨type, _, _, _, _, hkind, -⟩ := p.accepted h.valid
  obtain ⟨hinvoice, -⟩ | ⟨hcredit, -⟩ | ⟨hdebit, -⟩ := p.type_cases hkind
  · exact absurd hinvoice htype
  · left
    rw [h.document_type, Ubl.Payload.documentType, hcredit]
    rfl
  · right
    rw [h.document_type, Ubl.Payload.documentType, hdebit]
    rfl

theorem Document.Carries.invoice_type {p : Ubl.InvoicePayload} (h : d.Carries A J (.invoice p))
    (htype : p.document_type = "invoice") : d.document_type = .invoice := by
  rw [h.document_type, Ubl.Payload.documentType, htype]
  rfl

theorem issuerNit_ok {p : Ubl.Payload} (h : d.Carries A J p) (hnumber : InI32 d.document_number) :
    ∃ nit, issuerNit (ublEngine A k J compress) d = .ok nit := by
  unfold issuerNit
  cases p with
  | invoice p =>
    have hpayload : payloadWithNumber (ublEngine A k J compress).invoice_payload d =
        .ok ⟨p.company_nit, none, d.numberedPayload⟩ := invoice_payload_ok (h.read_invoice hnumber)
    have hdoc : d.document_type = .invoice ∨ d.document_type = .creditNote ∨
        d.document_type = .debitNote := by
      by_cases htype : p.document_type = "invoice"
      · exact .inl (h.invoice_type htype)
      · exact .inr (h.note_types htype)
    obtain hdoc | hdoc | hdoc := hdoc <;> rw [hdoc] <;> exact ⟨_, by rw [hpayload]; rfl⟩
  | payroll p =>
    rw [show d.document_type = .payroll from h.document_type]
    exact ⟨_, by rw [payroll_payload_ok (h.read_payroll hnumber)]; rfl⟩
  | supportDocument p =>
    rw [show d.document_type = .supportDocument from h.document_type]
    exact ⟨_, by rw [support_document_payload_ok (h.read_supportDocument hnumber)]; rfl⟩

/-! ### Generation -/

/-- What the environment replies to the lookup of the range of the document. -/
def RangeFound (d : Document) (answer : ∀ c, Reply c) (range : NumberingRange) : Prop :=
  ∃ id, d.numbering_range_id = some id ∧ answer (.findNumberingRange id) = .ok (some range)

theorem technicalKey_run {answer : ∀ c, Reply c} {range : NumberingRange}
    (h : RangeFound d answer range) (payload : InvoicePayload)
    (f : String → Service String (String × String)) :
    ((technicalKey d payload >>= f).run.runWith answer).2 =
      ((f range.technical_key).run.runWith answer).2 := by
  obtain ⟨id, hid, hanswer⟩ := h
  rw [technicalKey, hid]
  show ((Prog.bind (ExceptT.bindCont _ (.ok (answer (.findNumberingRange id)))) _).runWith answer).2 = _
  rw [hanswer]
  rfl

/-- The key of a note is the PIN of the software. -/
theorem Ubl.InvoicePayload.key_of_note {p : Ubl.InvoicePayload} (h : p.document_type ≠ "invoice")
    (technical_key : String) : p.key technical_key = p.key "" := by
  rw [Ubl.InvoicePayload.key, if_neg h, Ubl.InvoicePayload.key, if_neg h]

/-- A note is generated without a technical key. -/
theorem Ubl.Payload.prints_of_note {p : Ubl.InvoicePayload} (h : p.document_type ≠ "invoice")
    {xml code : String} (hprints : (Ubl.Payload.invoice p).Prints k "" xml code)
    (technical_key : String) : (Ubl.Payload.invoice p).Prints k technical_key xml code := by
  cases hprints with
  | invoice htype htemplate hxml hid hcode hdigest =>
    refine .invoice htype htemplate hxml hid hcode ?_
    rw [Ubl.InvoicePayload.key_of_note h]
    exact hdigest

theorem generateInvoice_eq {v : Value} {p : Ubl.InvoicePayload}
    (hread : Ubl.InvoicePayload.ofValue J v = .ok p)
    {technical_key : String} {r : String × String}
    (h : Returns (Ubl.generateInvoiceXml A k p technical_key) r) :
    (ublEngine A k J compress).generate_invoice_xml ⟨p.company_nit, p.technical_key, v⟩
      technical_key = .ok r := by
  show (Ubl.InvoicePayload.ofValue J v >>= _) = _
  rw [hread]
  exact outcome_of_returns h

/-- The number and the code of every issued document are in its XML, and the code is the digest of
    what the XML shows. -/
theorem generate_run {p : Ubl.Payload} (h : d.Carries A J p) (hnumber : InI32 d.document_number)
    {answer : ∀ c, Reply c} {range : NumberingRange} (hrange : RangeFound d answer range) :
    ∃ xml code, ((generate (ublEngine A k J compress) d).run.runWith answer).2 = .ok (xml, code) ∧
      (d.reads p).Prints k range.technical_key xml code := by
  have hvalid : Returns ((d.reads p).validate A) () := by
    rw [Document.reads, Ubl.Payload.validate_renumbered]
    exact h.valid
  cases p with
  | invoice p =>
    have hread := h.read_invoice hnumber
    have hpayload : payloadWithNumber (ublEngine A k J compress).invoice_payload d =
        .ok ⟨p.company_nit, none, d.numberedPayload⟩ := invoice_payload_ok hread
    by_cases htype : p.document_type = "invoice"
    · obtain ⟨xml, code, hgen, hprints⟩ := Ubl.Payload.generated (k := k) hvalid range.technical_key
      refine ⟨xml, code, ?_, hprints⟩
      rw [generate, h.invoice_type htype]
      show ((ofExcept _ >>= fun payload => technicalKey d payload >>= _).run.runWith answer).2 = _
      rw [hpayload]
      show ((technicalKey d _ >>= _).run.runWith answer).2 = _
      rw [technicalKey_run hrange, generateInvoice_eq hread hgen]
      rfl
    · obtain ⟨xml, code, hgen, hprints⟩ := Ubl.Payload.generated (k := k) hvalid ""
      refine ⟨xml, code, ?_, Ubl.Payload.prints_of_note (p := { p with
        pfx := d.pfx, number := d.document_number, technical_key := none }) htype hprints _⟩
      have hrun : ((ofExcept (payloadWithNumber (ublEngine A k J compress).invoice_payload d) >>=
          fun payload => ofExcept (((ublEngine A k J compress).generate_invoice_xml payload "").mapError
            fun e => "Note generation failed: " ++ e) : Service String (String × String)).run.runWith
              answer).2 = .ok (xml, code) := by
        rw [hpayload]
        show Except.mapError _ ((ublEngine A k J compress).generate_invoice_xml _ "") = _
        rw [generateInvoice_eq hread hgen]
        rfl
      rw [generate]
      obtain hdoc | hdoc := h.note_types htype <;> rw [hdoc] <;> exact hrun
  | payroll p =>
    have hread := h.read_payroll hnumber
    obtain ⟨xml, code, hgen, hprints⟩ := Ubl.Payload.generated (k := k) hvalid range.technical_key
    refine ⟨xml, code, ?_, hprints⟩
    have hxml : (ublEngine A k J compress).generate_payroll_xml
        ⟨p.employer_nit, d.numberedPayload⟩ = .ok (xml, code) := by
      show (Ubl.PayrollPayload.ofValue J d.numberedPayload >>= _) = _
      rw [hread]
      exact outcome_of_returns hgen
    rw [generate, show d.document_type = .payroll from h.document_type]
    show ((ofExcept _ >>= _ : Service String (String × String)).run.runWith answer).2 = _
    rw [payroll_payload_ok hread]
    show Except.mapError _ ((ublEngine A k J compress).generate_payroll_xml _) = _
    rw [hxml]
    rfl
  | supportDocument p =>
    have hread := h.read_supportDocument hnumber
    obtain ⟨xml, code, hgen, hprints⟩ := Ubl.Payload.generated (k := k) hvalid range.technical_key
    refine ⟨xml, code, ?_, hprints⟩
    have hxml : (ublEngine A k J compress).generate_support_document_xml
        ⟨p.buyer_nit, d.numberedPayload⟩ = .ok (xml, code) := by
      show (Ubl.SupportDocumentPayload.ofValue J d.numberedPayload >>= _) = _
      rw [hread]
      exact outcome_of_returns hgen
    rw [generate, show d.document_type = .supportDocument from h.document_type]
    show ((ofExcept _ >>= _ : Service String (String × String)).run.runWith answer).2 = _
    rw [support_document_payload_ok hread]
    show Except.mapError _ ((ublEngine A k J compress).generate_support_document_xml _) = _
    rw [hxml]
    rfl

end Generation

end DianService
