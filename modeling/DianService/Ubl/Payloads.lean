import DianService.Ubl.Json
import DianService.Ubl.Texts

/-
  Ubl: the three kinds of payload as one. What `validate` accepts is read back from its JSON form
  with any prefix and number put into it, is accepted again, and is generated; the code of the
  document is the digest of the very texts that the XML shows.
-/

namespace DianService.Ubl

open Lib Lib.Checked Lib.Xml

inductive Payload where
  | invoice (p : InvoicePayload)
  | payroll (p : PayrollPayload)
  | supportDocument (p : SupportDocumentPayload)

namespace Payload

def toValue (J : Floats) : Payload → Value
  | .invoice p => p.toValue J
  | .payroll p => p.toValue J
  | .supportDocument p => p.toValue J

def validate (A : Arithmetic) : Payload → Checked UblError Unit
  | .invoice p => p.validate A
  | .payroll p => p.validate A
  | .supportDocument p => p.validate A

/-- What it is stored as. -/
def documentType : Payload → DianService.DocumentType
  | .invoice p =>
      if p.document_type = "credit_note" then .creditNote
      else if p.document_type = "debit_note" then .debitNote
      else .invoice
  | .payroll _ => .payroll
  | .supportDocument _ => .supportDocument

/-- The party that must be the tenant. -/
def issuer : Payload → String
  | .invoice p => p.company_nit
  | .payroll p => p.employer_nit
  | .supportDocument p => p.buyer_nit

def pfx : Payload → String
  | .invoice p => p.pfx
  | .payroll p => p.pfx
  | .supportDocument p => p.pfx

/-- The payload that a worker reads: without the technical key, which is not stored. -/
def renumbered (pfx : String) (number : Int) : Payload → Payload
  | .invoice p => .invoice { p with pfx := pfx, number := number, technical_key := none }
  | .payroll p => .payroll { p with pfx := pfx, number := number }
  | .supportDocument p => .supportDocument { p with pfx := pfx, number := number }

def generate (A : Arithmetic) (k : Codes) (technical_key : String) :
    Payload → Checked UblError (String × String)
  | .invoice p => generateInvoiceXml A k p technical_key
  | .payroll p => generatePayrollXml A k p
  | .supportDocument p => generateSupportDocumentXml A k p

end Payload

/-! ## What is stored is accepted again -/

section Accepted

variable {A : Arithmetic} {J : Floats}

theorem finite_of_amount {field : String} {value : F64} {d : Decimal}
    (h : amount field value = .ok d) : F64.IsFinite value := by
  rw [amount_ok] at h
  cases value with
  | nan | infinite => cases h
  | finite x => trivial

theorem finite_of_read {value : F64} {max_scale : Nat} {allow_zero : Bool} {d : Decimal}
    (h : ReadAs value max_scale allow_zero d) : F64.IsFinite value := by
  have h := (@decimal_ok "" _ _ _ _).mpr h
  cases value with
  | nan | infinite => cases h
  | finite x => trivial

theorem LinePayload.Says.finite {line : LinePayload} {input : LineInput} (h : line.Says input) :
    line.Finite :=
  ⟨finite_of_read h.quantity, finite_of_read h.unit_price, finite_of_read h.percent⟩

theorem computeEach_finite {n : Nat} {lines : List LinePayload} {computed : List ComputedLine}
    (h : Returns (computeEach A n lines) computed) : ∀ l ∈ lines, l.Finite := by
  induction lines generalizing n computed with
  | nil => exact List.forall_mem_nil _
  | cons first lines ih =>
    obtain ⟨input, pair, rest, hread, -, hrest, -⟩ := computeEach_cons.mp h
    exact List.forall_mem_cons.mpr ⟨hread.finite, ih hrest⟩

theorem finiteLines {lines : Option (List LinePayload)} {net tax : Decimal}
    {computed : List ComputedLine} (h : Returns (compute A lines net tax) computed) :
    FiniteLines lines := by
  rintro ls rfl
  exact computeEach_finite (compute_some.mp h).2.1

theorem InvoicePayload.finite {p : InvoicePayload} (h : Returns (p.validate A) ()) : p.Finite := by
  obtain ⟨type, net, tax, total, computed, -, haccepted⟩ := p.accepted h
  have haccepted := haccepted ""
  exact ⟨finite_of_amount haccepted.net, finite_of_amount haccepted.tax,
    finite_of_amount haccepted.total, finiteLines haccepted.lines⟩

theorem SupportDocumentPayload.finite {p : SupportDocumentPayload}
    (h : Returns (p.validate A) ()) : p.Finite := by
  obtain ⟨net, tax, total, computed, haccepted⟩ := p.accepted h
  have haccepted := haccepted ""
  exact ⟨finite_of_amount haccepted.net, finite_of_amount haccepted.tax,
    finite_of_amount haccepted.total, finiteLines haccepted.lines⟩

/-- The amounts of an accepted payroll. -/
theorem PayrollPayload.accepted {p : PayrollPayload} (h : Returns (p.validate A) ()) :
    ∃ devengado deducido total, amount "devengado" p.devengado = .ok devengado ∧
      amount "deducido" p.deducido = .ok deducido ∧ amount "total" p.total = .ok total := by
  simp only [PayrollPayload.validate, returns_bind, returns_except] at h
  obtain ⟨-, -, devengado, hdevengado, deducido, hdeducido, total, htotal, -⟩ := h
  exact ⟨devengado, deducido, total, hdevengado, hdeducido, htotal⟩

theorem PayrollPayload.finite {p : PayrollPayload} (h : Returns (p.validate A) ()) : p.Finite := by
  obtain ⟨_, _, _, hdevengado, hdeducido, htotal⟩ := p.accepted h
  exact ⟨finite_of_amount hdevengado, finite_of_amount hdeducido, finite_of_amount htotal⟩

/-- `validate` looks at neither the prefix nor the number. -/
theorem Payload.validate_renumbered (p : Payload) (pfx : String) (number : Int) :
    (p.renumbered pfx number).validate A = p.validate A := by
  cases p <;> rfl

theorem Payload.documentType_renumbered (p : Payload) (pfx : String) (number : Int) :
    (p.renumbered pfx number).documentType = p.documentType := by
  cases p <;> rfl

end Accepted

/-! ## What is generated of it -/

/-- What a CUFE or CUDE is the digest of, in the texts of the document. -/
def CommercialDocument.cufeText (doc : CommercialDocument) (key : String) : String :=
  doc.id ++ doc.issue_date ++ doc.issue_time ++ doc.net ++ "01" ++ doc.tax ++ "04" ++ "0.00" ++
    "03" ++ "0.00" ++ doc.total ++ doc.supplier.id ++ doc.customer.id ++ key ++
    doc.profile_execution_id

/-- What a CUDS is the digest of. -/
def CommercialDocument.cudsText (doc : CommercialDocument) (tax_code software_pin : String) :
    String :=
  doc.id ++ doc.issue_date ++ doc.issue_time ++ doc.net ++ tax_code ++ doc.tax ++ doc.total ++
    doc.supplier.id ++ doc.customer.id ++ software_pin ++ doc.profile_execution_id

/-- What a CUNE is the digest of. -/
def Templates.Payroll.cuneText (c : Templates.Payroll) (software_pin environment : String) :
    String :=
  c.pfx ++ toString c.number ++ c.issue_date ++ c.issue_time ++ c.devengado ++ c.deducido ++
    c.total ++ c.employer_nit ++ c.employee_id ++ "102" ++ software_pin ++ environment

/-- The XML shows the number of the payload and its own code, and the code is the digest of the
    texts that the XML shows and of the key. -/
inductive Payload.Prints (k : Codes) (technical_key xml code : String) : Payload → Prop where
  | invoice {p : InvoicePayload} {type : DocumentType} {template : CommercialDocument → Markup}
      {doc : CommercialDocument} (htype : p.documentType = .ok type)
      (htemplate : commercialTemplate type.template = some template)
      (hxml : xml = String.ofList (template doc).print) (hid : doc.id = p.pfx ++ toString p.number)
      (hcode : doc.uuid = code) (hdigest : code = k.sha384 (doc.cufeText (p.key technical_key))) :
      Prints k technical_key xml code (.invoice p)
  | payroll {p : PayrollPayload} {c : Templates.Payroll}
      (hxml : xml = String.ofList (Templates.payroll c).print) (hpfx : c.pfx = p.pfx)
      (hnumber : c.number = p.number) (hcode : c.cune = code)
      (hdigest : code = k.sha384 (c.cuneText p.software_pin p.environment)) :
      Prints k technical_key xml code (.payroll p)
  | supportDocument {p : SupportDocumentPayload} {doc : CommercialDocument}
      (hxml : xml = String.ofList (Templates.invoice doc).print)
      (hid : doc.id = p.pfx ++ toString p.number) (hcode : doc.uuid = code)
      (hdigest : code = k.sha384 (doc.cudsText (if positive p.tax_amount then "01" else "00")
        p.software_pin)) :
      Prints k technical_key xml code (.supportDocument p)

section Generated

variable {A : Arithmetic} {k : Codes}

theorem formatAmount_zero : k.formatAmount zeroAmount = "0.00" := by
  have hread : toAmount "amount" zeroAmount = .ok .zero := by decide +kernel
  have hprint : formatAmount .zero = "0.00" := by decide +kernel
  rw [Codes.formatAmount, hread]
  exact hprint

theorem InvoicePayload.code_eq {p : InvoicePayload} {type : DocumentType} {net tax total : Decimal}
    {computed : List ComputedLine} (h : Accepted A (p.input type "") net tax total computed)
    (technical_key code : String) (groups : List TaxGroup) :
    p.code k technical_key = k.sha384 (((p.input type code).document net tax total computed
      groups).cufeText (p.key technical_key)) := by
  have hnet : k.formatAmount p.net_amount = formatAmount net := formatAmount_of_amount h.net
  have htax : k.formatAmount p.tax_amount = formatAmount tax := formatAmount_of_amount h.tax
  have htotal : k.formatAmount p.total_amount = formatAmount total :=
    formatAmount_of_amount h.total
  rw [InvoicePayload.code, calculateCufeCude, hnet, htax, htotal, formatAmount_zero]
  rfl

theorem SupportDocumentPayload.code_eq {p : SupportDocumentPayload} {net tax total : Decimal}
    {computed : List ComputedLine} (h : Accepted A (p.input "") net tax total computed)
    (code : String) (groups : List TaxGroup) :
    p.code k = k.sha384 (((p.input code).document net tax total computed groups).cudsText
      (if positive p.tax_amount then "01" else "00") p.software_pin) := by
  have hnet : k.formatAmount p.net_amount = formatAmount net := formatAmount_of_amount h.net
  have htax : k.formatAmount p.tax_amount = formatAmount tax := formatAmount_of_amount h.tax
  have htotal : k.formatAmount p.total_amount = formatAmount total :=
    formatAmount_of_amount h.total
  rw [SupportDocumentPayload.code, calculateCuds, hnet, htax, htotal]
  rfl

/-- An accepted payload is generated. -/
theorem Payload.generated {p : Payload} (h : Returns (p.validate A) ()) (technical_key : String) :
    ∃ xml code, Returns (p.generate A k technical_key) (xml, code) ∧
      p.Prints k technical_key xml code := by
  cases p with
  | invoice p =>
    obtain ⟨type, net, tax, total, computed, htype, haccepted⟩ := p.accepted h
    obtain ⟨groups, -, hdoc⟩ := commercialDocument_eq (haccepted (p.code k technical_key))
    obtain ⟨template, htemplate⟩ : ∃ template, commercialTemplate type.template = some template := by
      obtain ⟨-, rfl⟩ | ⟨-, rfl⟩ | ⟨-, rfl⟩ := p.type_cases htype <;> exact ⟨_, rfl⟩
    have hcode := p.code_eq (k := k) (haccepted "") technical_key (p.code k technical_key) groups
    refine ⟨_, p.code k technical_key, ?_, .invoice htype htemplate rfl rfl rfl hcode⟩
    simp only [generate, generateInvoiceXml, returns_bind, returns_except, returns_pure]
    refine ⟨(), h, type, htype, _, hdoc, _, ?_, rfl⟩
    rw [render, htemplate]
  | payroll p =>
    refine ⟨_, p.code k, ?_, @Prints.payroll k technical_key _ _ p (p.context k (p.code k)) rfl rfl
      rfl rfl rfl⟩
    simp only [generate, generatePayrollXml, returns_bind, returns_pure]
    exact ⟨(), h, trivial⟩
  | supportDocument p =>
    obtain ⟨net, tax, total, computed, haccepted⟩ := p.accepted h
    obtain ⟨groups, -, hdoc⟩ := commercialDocument_eq (haccepted (p.code k))
    have hcode := p.code_eq (k := k) (haccepted "") (p.code k) groups
    refine ⟨_, p.code k, ?_, .supportDocument rfl rfl rfl hcode⟩
    simp only [generate, generateSupportDocumentXml, returns_bind, returns_except, returns_pure]
    exact ⟨(), h, _, hdoc, _, rfl, rfl⟩

end Generated

end DianService.Ubl
