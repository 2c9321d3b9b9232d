import DianService.Ubl.Templates

/-
  Ubl: the documents that `lib.rs` generates, each with its unique code (`cufe.rs`). Rendering does
  not fail: the templates are part of the program.
-/

namespace DianService.Ubl

open Lib Lib.Xml

/-! ## Unique codes -/

/-- What the codes are computed with: SHA-384 in hexadecimal, and `{:.2}` of an `f64`. -/
structure Codes where
  sha384 : String → String
  fixed : F64 → String

/-- `format_amount` -/
def Codes.formatAmount (k : Codes) (amount : F64) : String :=
  match toAmount "amount" amount with
  | .ok d => DianService.formatAmount d
  | .error _ => k.fixed amount

/-- `0.00` -/
def zeroAmount : F64 := .finite ⟨false, 0, 0, by decide, .inr ⟨rfl, rfl⟩⟩

def calculateCufeCude (k : Codes) (num_fac fec_fac hor_fac : String) (val_fac : F64)
    (cod_imp1 : String) (val_imp1 : F64) (cod_imp2 : String) (val_imp2 : F64) (cod_imp3 : String)
    (val_imp3 val_tol_fac : F64) (nit_ofe num_adq key tipo_ambiente : String) : String :=
  k.sha384 (num_fac ++ fec_fac ++ hor_fac ++ k.formatAmount val_fac ++ cod_imp1 ++
    k.formatAmount val_imp1 ++ cod_imp2 ++ k.formatAmount val_imp2 ++ cod_imp3 ++
    k.formatAmount val_imp3 ++ k.formatAmount val_tol_fac ++ nit_ofe ++ num_adq ++ key ++
    tipo_ambiente)

/-! ## Invoices and notes -/

/-- The key of the code: technical for an invoice, the PIN of the software for a note. -/
def InvoicePayload.key (p : InvoicePayload) (technical_key : String) : String :=
  if p.document_type = "invoice" then technical_key else p.software_pin.getD ""

/-- `IVA`, `INC` and `ICA`, of which only the first has an amount. -/
def InvoicePayload.code (k : Codes) (p : InvoicePayload) (technical_key : String) : String :=
  calculateCufeCude k (p.pfx ++ toString p.number) p.issue_date p.issue_time p.net_amount
    "01" p.tax_amount "04" zeroAmount "03" zeroAmount p.total_amount p.company_nit p.customer_id
    (p.key technical_key) p.environment

/-- The templates of `CommercialDocument`. -/
def commercialTemplate (name : String) : Option (CommercialDocument → Markup) :=
  if name = "invoice.xml" then some Templates.invoice
  else if name = "credit_note.xml" then some Templates.creditNote
  else if name = "debit_note.xml" then some Templates.debitNote
  else none

theorem commercialTemplate_sound {name : String} {template : CommercialDocument → Markup}
    (h : commercialTemplate name = some template) (doc : CommercialDocument) :
    (template doc).sound = true := by
  unfold commercialTemplate at h
  split at h
  · cases h
    exact Templates.invoice_sound doc
  · split at h
    · cases h
      exact Templates.creditNote_sound doc
    · split at h
      · cases h
        exact Templates.debitNote_sound doc
      · cases h

def render (name : String) (doc : CommercialDocument) : Except UblError String :=
  match commercialTemplate name with
  | some template => .ok (String.ofList (template doc).print)
  | none => .error (.template ("template not found: template \"" ++ name ++ "\" does not exist"))

/-- The XML without a signature, and the CUFE or CUDE. -/
def generateInvoiceXml (A : Arithmetic) (k : Codes) (p : InvoicePayload) (technical_key : String) :
    Checked UblError (String × String) := do
  p.validate A
  let type ← p.documentType
  let code := p.code k technical_key
  let document ← commercialDocument A (p.input type code)
  let xml ← render type.template document
  return (xml, code)

/-! ## Support documents -/

/-- `0.0 < x` -/
def positive (x : F64) : Bool :=
  match x with
  | .nan => false
  | .infinite negative => !negative
  | .finite x => 0 < x.display.value

def calculateCuds (k : Codes) (num_ds fec_ds hor_ds : String) (val_ds : F64) (cod_imp : String)
    (val_imp val_tot : F64) (nit_ofe num_adq software_pin tipo_ambiente : String) : String :=
  k.sha384 (num_ds ++ fec_ds ++ hor_ds ++ k.formatAmount val_ds ++ cod_imp ++
    k.formatAmount val_imp ++ k.formatAmount val_tot ++ nit_ofe ++ num_adq ++ software_pin ++
    tipo_ambiente)

/-- `IVA` where there is tax, and no tax otherwise. -/
def SupportDocumentPayload.code (k : Codes) (p : SupportDocumentPayload) : String :=
  calculateCuds k (p.pfx ++ toString p.number) p.issue_date p.issue_time p.net_amount
    (if positive p.tax_amount then "01" else "00") p.tax_amount p.total_amount p.seller_nit
    p.buyer_nit p.software_pin p.environment

/-- The XML without a signature, and the CUDS. -/
def generateSupportDocumentXml (A : Arithmetic) (k : Codes) (p : SupportDocumentPayload) :
    Checked UblError (String × String) := do
  p.validate A
  let code := p.code k
  let document ← commercialDocument A (p.input code)
  let xml ← render "invoice.xml" document
  return (xml, code)

/-! ## Events -/

def calculateCudeEvent (k : Codes) (num_documento_event fec_event hor_event nit_emisor_event
    num_receptor_event software_pin tipo_ambiente : String) : String :=
  k.sha384 (num_documento_event ++ fec_event ++ hor_event ++ "0.00010.000.00" ++
    nit_emisor_event ++ num_receptor_event ++ software_pin ++ tipo_ambiente)

/-- The arguments of `generate_application_response_xml`. -/
structure EventInput where
  id : String
  issue_date : String
  issue_time : String
  sender_nit : String
  sender_name : String
  sender_id_type : String
  receiver_nit : String
  receiver_name : String
  receiver_id_type : String
  event_code : String
  event_description : String
  parent_document_id : String
  parent_document_uuid : String
  software_pin : String
  environment : String

def EventInput.code (k : Codes) (e : EventInput) : String :=
  calculateCudeEvent k e.id e.issue_date e.issue_time e.sender_nit e.receiver_nit e.software_pin
    e.environment

def EventInput.context (e : EventInput) (cude : String) : Templates.ApplicationResponse where
  id := e.id
  cude := cude
  issue_date := e.issue_date
  issue_time := e.issue_time
  environment := e.environment
  sender := .new e.sender_id_type e.sender_nit e.sender_name
  receiver := .new e.receiver_id_type e.receiver_nit e.receiver_name
  event_code := e.event_code
  event_description := e.event_description
  parent_document_id := e.parent_document_id
  parent_document_uuid := e.parent_document_uuid

/-- The XML without a signature, and the CUDE. -/
def generateApplicationResponseXml (k : Codes) (e : EventInput) :
    Except UblError (String × String) :=
  let cude := e.code k
  .ok (String.ofList (Templates.applicationResponse (e.context cude)).print, cude)

/-! ## The container -/

def attachedContext (p : InvoicePayload) (unique_id issue_date issue_time cufe signed_invoice_xml
    dian_response_xml : String) : Templates.AttachedDocument where
  unique_id := unique_id
  issue_date := issue_date
  issue_time := issue_time
  parent_document_id := p.pfx ++ toString p.number
  parent_document_uuid := cufe
  parent_document_issue_date := p.issue_date
  sender := .new "31" p.company_nit p.company_name
  receiver := .new p.customer_id_type p.customer_id p.customer_name
  signed_invoice_xml := signed_invoice_xml
  dian_response_xml := dian_response_xml

def generateAttachedDocumentXml (p : InvoicePayload) (unique_id issue_date issue_time cufe
    signed_invoice_xml dian_response_xml : String) : Except UblError String :=
  .ok (String.ofList (Templates.attachedDocument (attachedContext p unique_id issue_date issue_time
    cufe signed_invoice_xml dian_response_xml)).print)

end DianService.Ubl
