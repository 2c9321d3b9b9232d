import DianService.Domain.Money
import DianService.Domain.Text
import DianService.Lib.Checked

/-
  Ubl: the payloads of `payload.rs` and the checks of `validate` that look at texts only. The
  checks stand in the order of the source, each with its message.
-/

namespace DianService.Ubl

open Lib

inductive UblError where
  | calculation (message : String)
  | validation (message : String)
  | template (message : String)
  | formatting (message : String)
  deriving DecidableEq

/-! ## Payloads -/

structure LinePayload where
  description : String
  quantity : F64
  unit_price : F64
  tax_percent : F64
  unit_code : Option String

structure BillingReferencePayload where
  number : String
  cufe : String
  issue_date : String

structure DiscrepancyPayload where
  code : String
  description : String

structure InvoicePayload where
  pfx : String
  number : Int
  issue_date : String
  issue_time : String
  company_nit : String
  company_name : String
  customer_id_type : String
  customer_id : String
  customer_name : String
  customer_email : String
  net_amount : F64
  tax_amount : F64
  total_amount : F64
  environment : String
  technical_key : Option String
  document_type : String
  test_set_id : Option String
  lines : Option (List LinePayload)
  billing_reference : Option BillingReferencePayload
  discrepancy : Option DiscrepancyPayload
  software_pin : Option String

structure PayrollPayload where
  pfx : String
  number : Int
  issue_date : String
  issue_time : String
  employer_nit : String
  employer_name : String
  employee_id_type : String
  employee_id : String
  employee_name : String
  devengado : F64
  deducido : F64
  total : F64
  software_pin : String
  environment : String

structure SupportDocumentPayload where
  pfx : String
  number : Int
  issue_date : String
  issue_time : String
  seller_nit : String
  seller_name : String
  buyer_nit : String
  buyer_name : String
  net_amount : F64
  tax_amount : F64
  total_amount : F64
  software_pin : String
  environment : String
  lines : Option (List LinePayload)

/-! ## Checks of texts -/

/-- The character at `i` is `c`. -/
def charAt (s : String) (i : Nat) (c : Char) : Bool := s.toList[i]? = some c

/-- The test for YYYY-MM-DD that every payload starts with. -/
def dateShaped (s : String) : Bool := s.utf8ByteSize = 10 ∧ charAt s 4 '-' ∧ charAt s 7 '-'

/-- The test for HH:MM:SS-05:00. -/
def timeShaped (s : String) : Bool :=
  s.utf8ByteSize = 14 ∧ charAt s 2 ':' ∧ charAt s 5 ':' ∧ charAt s 8 '-'

def allDigits (s : String) : Bool := s.toList.all Char.isDigit

def numeric (s : String) : Bool := s ≠ "" ∧ allDigits s

def isEnvironment (s : String) : Bool := s = "1" ∨ s = "2"

/-- `valid_date` -/
def validDate (value : String) : Bool :=
  value.utf8ByteSize = 10 ∧ (value.toList.zipIdx.all fun ci =>
    if ci.2 = 4 ∨ ci.2 = 7 then ci.1 = '-' else ci.1.isDigit)

def isHexDigit (c : Char) : Bool := c.isDigit ∨ ('a' ≤ c ∧ c ≤ 'f') ∨ ('A' ≤ c ∧ c ≤ 'F')

/-- `trim().is_empty()` -/
def isBlank (s : String) : Bool := trim s = ""

/-- `parse::<u8>` -/
def parseU8 (s : String) : Option Nat := (fromStrRadix 10 s.toList).filter (· < 256)

/-- Fail with the message unless the test is met. -/
def require (test : Bool) (message : String) : Except UblError Unit :=
  if test then .ok () else .error (.validation message)

namespace InvoicePayload

def validateNoteFields (p : InvoicePayload) : Except UblError Unit := do
  match p.billing_reference with
  | none =>
      throw (.validation "Las notas requieren billing_reference (factura que corrigen)")
  | some reference =>
      require (!isBlank reference.number) "billing_reference.number es obligatorio"
      require (reference.cufe.utf8ByteSize = 96 ∧ reference.cufe.toList.all isHexDigit)
        "billing_reference.cufe debe ser el CUFE de 96 caracteres hexadecimales"
      require (validDate reference.issue_date)
        "billing_reference.issue_date debe tener formato YYYY-MM-DD"
      require (reference.issue_date ≤ p.issue_date)
        "La factura referenciada no puede ser posterior a la nota"
      match p.discrepancy with
      | none => throw (.validation "Las notas requieren discrepancy (concepto de corrección)")
      | some discrepancy =>
          let max_code := if p.document_type = "credit_note" then 6 else 4
          require (((parseU8 discrepancy.code).any fun code => 1 ≤ code ∧ code ≤ max_code) ∧
              discrepancy.code.utf8ByteSize = 1)
            ("discrepancy.code debe ser un concepto de corrección entre 1 y " ++ toString max_code)
          require (!isBlank discrepancy.description) "discrepancy.description es obligatoria"
          require (p.software_pin.any fun pin => !isBlank pin)
            "Las notas requieren software_pin para calcular el CUDE"

/-- The checks before the amounts. -/
def validateHeader (p : InvoicePayload) : Except UblError Unit := do
  require (dateShaped p.issue_date) "La fecha debe tener el formato YYYY-MM-DD"
  require (timeShaped p.issue_time) "La hora debe tener el formato HH:MM:SS-05:00"
  require (numeric p.company_nit)
    "El NIT de la empresa debe ser únicamente numérico (sin puntos ni dígito de verificación)"
  require (p.customer_id ≠ "") "La identificación del adquiriente no puede estar vacía"
  require (p.customer_email.toList.contains '@') "El correo del adquiriente debe ser válido"

def validateDocumentType (p : InvoicePayload) : Except UblError Unit :=
  if p.document_type = "invoice" then .ok ()
  else if p.document_type = "credit_note" ∨ p.document_type = "debit_note" then
    p.validateNoteFields
  else .error (.validation
    "Tipo de documento inválido. Debe ser 'invoice', 'credit_note' o 'debit_note'")

/-- The checks after the lines. -/
def validateFooter (p : InvoicePayload) : Except UblError Unit := do
  require (p.test_set_id.all fun id => id ≠ "" ∧ id.utf8ByteSize ≤ 64 ∧
      id.toList.all fun c => c.isAlphanum ∨ c = '-')
    "El test_set_id solo puede contener letras, números y guiones (máximo 64)"
  require (isEnvironment p.environment)
    "El ambiente debe ser '1' (producción) o '2' (habilitación)"

end InvoicePayload

def PayrollPayload.validateHeader (p : PayrollPayload) : Except UblError Unit := do
  require (dateShaped p.issue_date) "La fecha de nomina debe tener el formato YYYY-MM-DD"
  require (p.issue_time ≠ "") "La hora de nomina no puede estar vacia"
  require (numeric p.employer_nit) "El NIT del empleador debe ser numerico"
  require (p.employee_id ≠ "") "La identificacion del empleado no puede estar vacia"

def SupportDocumentPayload.validateHeader (p : SupportDocumentPayload) : Except UblError Unit := do
  require (dateShaped p.issue_date)
    "La fecha del documento soporte debe tener el formato YYYY-MM-DD"
  require (timeShaped p.issue_time)
    "La hora del documento soporte debe tener el formato HH:MM:SS-05:00"
  require (numeric p.seller_nit) "La identificacion del vendedor debe ser numerica"
  require (numeric p.buyer_nit) "El NIT del comprador debe ser numerico"

def requireEnvironment (environment : String) : Except UblError Unit :=
  require (isEnvironment environment)
    "El ambiente debe ser '1' (produccion) o '2' (habilitacion)"

end DianService.Ubl
