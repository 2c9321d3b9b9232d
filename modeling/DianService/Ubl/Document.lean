import DianService.Ubl.Validation

/-
  Ubl: the data of a commercial document (`CommercialDocument`, `commercial_document`), which is
  what the templates of invoices, notes and support documents print. The unique code is computed
  before and handed in.
-/

namespace DianService.Ubl

open Lib

/-! ## Parties -/

def WEIGHTS : List Nat := [3, 7, 13, 17, 19, 23, 29, 37, 41, 43, 47, 53, 59, 67, 71]

/-- `nit::check_digit` -/
def checkDigit (nit : String) : Option Nat :=
  if nit = "" ∨ WEIGHTS.length < nit.utf8ByteSize ∨ allDigits nit = false then none
  else
    let sum := (List.zipWith (fun c weight => (c.toNat - '0'.toNat) * weight) nit.toList.reverse
      WEIGHTS).sum
    let remainder := sum % 11
    some (if 2 ≤ remainder then 11 - remainder else remainder)

structure PartyData where
  id_type : String
  id : String
  check_digit : String
  name : String
  deriving DecidableEq

def PartyData.new (id_type id name : String) : PartyData where
  id_type := id_type
  id := id
  check_digit := if id_type = "31" then ((checkDigit id).map toString).getD "" else ""
  name := name

/-! ## The document -/

structure CommercialInput where
  customization_id : String
  type_code : String
  uuid : String
  uuid_scheme : String
  id : String
  issue_date : String
  issue_time : String
  environment : String
  supplier : PartyData
  customer : PartyData
  lines : Option (List LinePayload)
  net_amount : F64
  tax_amount : F64
  total_amount : F64
  billing_reference : Option BillingReferencePayload
  discrepancy : Option DiscrepancyPayload

structure CommercialDocument where
  customization_id : String
  profile_execution_id : String
  id : String
  uuid : String
  uuid_scheme : String
  issue_date : String
  issue_time : String
  type_code : String
  supplier : PartyData
  customer : PartyData
  lines : List LineData
  tax_subtotals : List TaxSubtotalData
  net : String
  tax : String
  total : String
  billing_reference : Option BillingReferencePayload
  discrepancy : Option DiscrepancyPayload

section Documents

variable (A : Arithmetic)

def commercialDocument (input : CommercialInput) : Checked UblError CommercialDocument := do
  let net ← amount "net_amount" input.net_amount
  let tax ← amount "tax_amount" input.tax_amount
  let total ← amount "total_amount" input.total_amount
  let lines ← computeLines A input.lines net tax
  let tax_subtotals ← taxSubtotals A input.lines net tax
  return {
    customization_id := input.customization_id
    profile_execution_id := input.environment
    id := input.id
    uuid := input.uuid
    uuid_scheme := input.uuid_scheme
    issue_date := input.issue_date
    issue_time := input.issue_time
    type_code := input.type_code
    supplier := input.supplier
    customer := input.customer
    lines := lines
    tax_subtotals := tax_subtotals
    net := formatAmount net
    tax := formatAmount tax
    total := formatAmount total
    billing_reference := input.billing_reference
    discrepancy := input.discrepancy }

/-! ## Invoices and notes -/

/-- What depends on the type of an invoice or note. -/
structure DocumentType where
  template : String
  customization_id : String
  type_code : String
  uuid_scheme : String
  deriving DecidableEq

def InvoicePayload.documentType (p : InvoicePayload) : Except UblError DocumentType :=
  if p.document_type = "invoice" then .ok ⟨"invoice.xml", "10", "01", "CUFE-SHA384"⟩
  else if p.document_type = "credit_note" then
    .ok ⟨"credit_note.xml", "20", "91", "CUDE-SHA384"⟩
  else if p.document_type = "debit_note" then .ok ⟨"debit_note.xml", "30", "92", "CUDE-SHA384"⟩
  else .error (.validation ("Tipo de documento no soportado: " ++ p.document_type))

def InvoicePayload.input (p : InvoicePayload) (type : DocumentType) (code : String) :
    CommercialInput where
  customization_id := type.customization_id
  type_code := type.type_code
  uuid := code
  uuid_scheme := type.uuid_scheme
  id := p.pfx ++ toString p.number
  issue_date := p.issue_date
  issue_time := p.issue_time
  environment := p.environment
  supplier := .new "31" p.company_nit p.company_name
  customer := .new p.customer_id_type p.customer_id p.customer_name
  lines := p.lines
  net_amount := p.net_amount
  tax_amount := p.tax_amount
  total_amount := p.total_amount
  billing_reference := p.billing_reference
  discrepancy := p.discrepancy

/-- What `generate_invoice_xml` gives to the template. -/
def InvoicePayload.document (p : InvoicePayload) (code : String) :
    Checked UblError CommercialDocument := do
  p.validate A
  let type ← p.documentType
  commercialDocument A (p.input type code)

/-! ## Support documents -/

def SupportDocumentPayload.input (p : SupportDocumentPayload) (code : String) :
    CommercialInput where
  customization_id := "10"
  type_code := "05"
  uuid := code
  uuid_scheme := "CUDS-SHA384"
  id := p.pfx ++ toString p.number
  issue_date := p.issue_date
  issue_time := p.issue_time
  environment := p.environment
  supplier := .new "31" p.seller_nit p.seller_name
  customer := .new "31" p.buyer_nit p.buyer_name
  lines := p.lines
  net_amount := p.net_amount
  tax_amount := p.tax_amount
  total_amount := p.total_amount
  billing_reference := none
  discrepancy := none

/-- What `generate_support_document_xml` gives to the template. -/
def SupportDocumentPayload.document (p : SupportDocumentPayload) (code : String) :
    Checked UblError CommercialDocument := do
  p.validate A
  commercialDocument A (p.input code)

end Documents

end DianService.Ubl
