import DianService.Ubl.Model

/-
  Ubl: `validate` of the payloads (`payload.rs`): the texts, the amounts, their equation and the
  lines, in the order of the source.
-/

namespace DianService.Ubl

open Lib

/-! ## The validation -/

def amount (field : String) (value : F64) : Except UblError Decimal :=
  (toAmount field value).mapError fun e => .validation e.message

def equal (description : String) (expected actual : Decimal) : Except UblError Unit :=
  (requireEqual description expected actual).mapError fun e => .validation e.message

section Validation

variable (A : Arithmetic)

def InvoicePayload.validate (p : InvoicePayload) : Checked UblError Unit := do
  p.validateHeader
  let net ← amount "net_amount" p.net_amount
  let tax ← amount "tax_amount" p.tax_amount
  let total ← amount "total_amount" p.total_amount
  equal "total_amount debe ser net_amount + tax_amount" (← A.add net tax) total
  p.validateDocumentType
  let _ ← computeLines A p.lines net tax
  p.validateFooter

def PayrollPayload.validate (p : PayrollPayload) : Checked UblError Unit := do
  p.validateHeader
  let devengado ← amount "devengado" p.devengado
  let deducido ← amount "deducido" p.deducido
  let total ← amount "total" p.total
  equal "total debe ser devengado - deducido" (← A.sub devengado deducido) total
  requireEnvironment p.environment

def SupportDocumentPayload.validate (p : SupportDocumentPayload) : Checked UblError Unit := do
  p.validateHeader
  let net ← amount "net_amount" p.net_amount
  let tax ← amount "tax_amount" p.tax_amount
  let total ← amount "total_amount" p.total_amount
  equal "total_amount debe ser net_amount + tax_amount" (← A.add net tax) total
  let _ ← computeLines A p.lines net tax
  requireEnvironment p.environment

end Validation

end DianService.Ubl
