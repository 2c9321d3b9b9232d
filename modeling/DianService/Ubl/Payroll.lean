import DianService.Ubl.Generate

/-
  Ubl: payroll documents, their template and `generate_payroll_xml`. The template uses none of the
  macros; half of its values are in attributes.
-/

namespace DianService.Ubl

open Lib Lib.Xml

namespace Templates

def emptyElement (name : String) (attributes : List PartAttribute) : Markup :=
  .empty ⟨name, attributes⟩ .nil

/-- The context of `payroll.xml`. -/
structure Payroll where
  pfx : String
  number : Int
  cune : String
  issue_date : String
  issue_time : String
  employer_nit : String
  employer_name : String
  employee_id : String
  employee_name : String
  devengado : String
  deducido : String
  total : String

def payrollRoot : PartTag where
  name := "NominaIndividual"
  attributes := [
    ⟨" ", "xmlns", [.lit "dian:gov:co:facturacion:NominaIndividual"]⟩,
    ⟨"\n                  ", "xmlns:xs", [.lit "http://www.w3.org/2001/XMLSchema-instance"]⟩,
    ⟨"\n                  ", "xmlns:ext",
      [.lit "urn:oasis:names:specification:ubl:schema:xsd:CommonExtensionComponents-2"]⟩,
    ⟨"\n                  ", "xmlns:cbc",
      [.lit "urn:oasis:names:specification:ubl:schema:xsd:CommonBasicComponents-2"]⟩,
    ⟨"\n                  ", "xmlns:cac",
      [.lit "urn:oasis:names:specification:ubl:schema:xsd:CommonAggregateComponents-2"]⟩,
    ⟨"\n                  ", "xmlns:ds", [.lit "http://www.w3.org/2000/09/xmldsig#"]⟩]

/-- No names of persons, for a company. -/
def noNames : List PartAttribute :=
  [litAttr "PrimerApellido" "", litAttr "SegundoApellido" "", litAttr "PrimerNombre" "",
    litAttr "OtrosNombres" ""]

def place : List PartAttribute :=
  [litAttr "Pais" "CO", litAttr "Departamento" "11", litAttr "Municipio" "11001"]

def provider (c : Payroll) : Markup :=
  emptyElement "ProveedorXML"
    (valAttr "RazonSocial" c.employer_name :: noNames ++ [valAttr "NIT" c.employer_nit,
      litAttr "DV" "0", litAttr "SoftwareID" "software_id_dummy",
      litAttr "SoftwareSC" "software_sc_dummy"])

def employer (c : Payroll) : Markup :=
  emptyElement "Empleador"
    (valAttr "RazonSocial" c.employer_name :: noNames ++ [valAttr "NIT" c.employer_nit,
      litAttr "DV" "0"] ++ place ++ [litAttr "Direccion" "Calle Falsa 123"])

def employee (c : Payroll) : Markup :=
  emptyElement "Trabajador" [
    litAttr "TipoTrabajador" "01",
    litAttr "SubTipoTrabajador" "00",
    valAttr "CodigoTrabajador" c.employee_id,
    litAttr "TipoDocumento" "13",
    valAttr "NumeroDocumento" c.employee_id,
    valAttr "PrimerApellido" c.employee_name,
    litAttr "SegundoApellido" "",
    valAttr "PrimerNombre" c.employee_name,
    litAttr "LugarTrabajoPais" "CO",
    litAttr "LugarTrabajoDepartamento" "11",
    litAttr "LugarTrabajoMunicipio" "11001",
    litAttr "LugarTrabajoDireccion" "Direccion Trabajador",
    litAttr "Sueldo" "0.00"]

def payrollContent (c : Payroll) : Markup :=
  onLines "\n    " [extensions] ++
    onLines "\n    \n    " [constant "Novedad" "false"] ++
    onLines "\n    " [
      emptyElement "Periodo" [
        valAttr "FechaIngreso" c.issue_date,
        valAttr "FechaLiquidacionInicio" c.issue_date,
        valAttr "FechaLiquidacionFin" c.issue_date,
        litAttr "TiempoLaborado" "30.00",
        valAttr "FechaGen" c.issue_date],
      emptyElement "NumeroSecuenciaXML" [
        valAttr "Prefijo" c.pfx,
        valAttr "Consecutivo" (toString c.number),
        ⟨" ", "Numero", [.val c.pfx, .val (toString c.number)]⟩],
      emptyElement "LugarGeneracionXML" (place ++ [litAttr "Idioma" "es"]),
      provider c,
      field "CodigoUnicoDocumentoElectronico" c.cune [litAttr "schemeName" "CUNE"],
      field "FechaGen" c.issue_date,
      field "HoraGen" c.issue_time] ++
    onLines "\n    \n    " [
      employer c,
      employee c,
      element "Devengados" []
        (onLines "\n        " [emptyElement "Basico" [litAttr "DiasTrabajados" "30",
          valAttr "SueldoTrabajado" c.devengado]] ++
          text "\n    ")] ++
    onLines "\n    " [
      element "Deducciones" []
        (onLines "\n        " [emptyElement "Salud" [litAttr "Porcentaje" "4.00",
          valAttr "Deduccion" c.deducido]] ++
          text "\n    ")] ++
    onLines "\n    \n    " [field "DevengadosTotal" c.devengado] ++
    onLines "\n    " [
      field "DeduccionesTotal" c.deducido,
      field "ComprobanteTotal" c.total] ++
    text "\n"

def payroll (c : Payroll) : Markup := .document DECLARATION payrollRoot (payrollContent c)

@[simp] theorem sound_emptyElement (name : String) (attributes : List PartAttribute) :
    (emptyElement name attributes).sound =
      (isQName name.toList && attributes.all PartAttribute.sound) := by
  simp [emptyElement, Markup.sound, PartTag.sound]

theorem payroll_names_sound :
    isQName "Basico".toList ∧ isQName "CodigoTrabajador".toList ∧
    isQName "CodigoUnicoDocumentoElectronico".toList ∧ isQName "ComprobanteTotal".toList ∧
    isQName "Consecutivo".toList ∧ isQName "DV".toList ∧ isQName "Deduccion".toList ∧
    isQName "Deducciones".toList ∧ isQName "DeduccionesTotal".toList ∧
    isQName "Departamento".toList ∧ isQName "Devengados".toList ∧
    isQName "DevengadosTotal".toList ∧ isQName "DiasTrabajados".toList ∧
    isQName "Direccion".toList ∧ isQName "Empleador".toList ∧ isQName "FechaGen".toList ∧
    isQName "FechaIngreso".toList ∧ isQName "FechaLiquidacionFin".toList ∧
    isQName "FechaLiquidacionInicio".toList ∧ isQName "HoraGen".toList ∧
    isQName "Idioma".toList ∧ isQName "LugarGeneracionXML".toList ∧
    isQName "LugarTrabajoDepartamento".toList ∧ isQName "LugarTrabajoDireccion".toList ∧
    isQName "LugarTrabajoMunicipio".toList ∧ isQName "LugarTrabajoPais".toList ∧
    isQName "Municipio".toList ∧ isQName "NIT".toList ∧ isQName "Novedad".toList ∧
    isQName "Numero".toList ∧ isQName "NumeroDocumento".toList ∧
    isQName "NumeroSecuenciaXML".toList ∧ isQName "OtrosNombres".toList ∧
    isQName "Pais".toList ∧ isQName "Periodo".toList ∧ isQName "Porcentaje".toList ∧
    isQName "Prefijo".toList ∧ isQName "PrimerApellido".toList ∧
    isQName "PrimerNombre".toList ∧ isQName "ProveedorXML".toList ∧
    isQName "RazonSocial".toList ∧ isQName "Salud".toList ∧ isQName "SegundoApellido".toList ∧
    isQName "SoftwareID".toList ∧ isQName "SoftwareSC".toList ∧
    isQName "SubTipoTrabajador".toList ∧ isQName "Sueldo".toList ∧
    isQName "SueldoTrabajado".toList ∧ isQName "TiempoLaborado".toList ∧
    isQName "TipoDocumento".toList ∧ isQName "TipoTrabajador".toList ∧
    isQName "Trabajador".toList ∧ isQName "schemeName".toList := by
  decide +kernel

/-- The values of the attributes. -/
theorem payroll_values_quoted :
    (isPlain "" && "".toList.all (· ≠ '"')) ∧
    (isPlain "0" && "0".toList.all (· ≠ '"')) ∧
    (isPlain "0.00" && "0.00".toList.all (· ≠ '"')) ∧
    (isPlain "00" && "00".toList.all (· ≠ '"')) ∧
    (isPlain "11" && "11".toList.all (· ≠ '"')) ∧
    (isPlain "11001" && "11001".toList.all (· ≠ '"')) ∧
    (isPlain "13" && "13".toList.all (· ≠ '"')) ∧
    (isPlain "30" && "30".toList.all (· ≠ '"')) ∧
    (isPlain "30.00" && "30.00".toList.all (· ≠ '"')) ∧
    (isPlain "4.00" && "4.00".toList.all (· ≠ '"')) ∧
    (isPlain "CO" && "CO".toList.all (· ≠ '"')) ∧
    (isPlain "CUNE" && "CUNE".toList.all (· ≠ '"')) ∧
    (isPlain "Calle Falsa 123" && "Calle Falsa 123".toList.all (· ≠ '"')) ∧
    (isPlain "Direccion Trabajador" && "Direccion Trabajador".toList.all (· ≠ '"')) ∧
    (isPlain "es" && "es".toList.all (· ≠ '"')) ∧
    (isPlain "software_id_dummy" && "software_id_dummy".toList.all (· ≠ '"')) ∧
    (isPlain "software_sc_dummy" && "software_sc_dummy".toList.all (· ≠ '"')) ∧
    "01".toList.all (· ≠ '"') ∧ isPlain "false" := by
  decide +kernel

theorem payrollRoot_sound : payrollRoot.sound = true := by
  decide +kernel

theorem payroll_sound (c : Payroll) : (payroll c).sound = true := by
  have hnumber : PartAttribute.sound ⟨" ", "Numero", [.val c.pfx, .val (toString c.number)]⟩ =
      isQName "Numero".toList := by
    simp [PartAttribute.sound, Part.quoted, isSpace]
  refine sound_document payrollRoot_sound ?_
  simp only [payrollContent, provider, employer, employee, noNames, place, Markup.sound_append,
    sound_onLines, List.all_cons, List.all_nil, List.cons_append, List.nil_append,
    extensions_sound, sound_element, sound_emptyElement, sound_field,
    sound_constant, sound_litAttr, sound_valAttr, sound_text, hnumber, payroll_names_sound,
    payroll_values_quoted, texts_plain, Bool.and_self]

end Templates

def calculateCune (k : Codes) (num_ne fec_ne hor_ne : String) (val_dev val_ded val_tol_ne : F64)
    (nit_ne doc_emp tipo_xml software_pin tipo_ambiente : String) : String :=
  k.sha384 (num_ne ++ fec_ne ++ hor_ne ++ k.formatAmount val_dev ++ k.formatAmount val_ded ++
    k.formatAmount val_tol_ne ++ nit_ne ++ doc_emp ++ tipo_xml ++ software_pin ++ tipo_ambiente)

def PayrollPayload.code (k : Codes) (p : PayrollPayload) : String :=
  calculateCune k (p.pfx ++ toString p.number) p.issue_date p.issue_time p.devengado p.deducido
    p.total p.employer_nit p.employee_id "102" p.software_pin p.environment

def PayrollPayload.context (k : Codes) (p : PayrollPayload) (cune : String) :
    Templates.Payroll where
  pfx := p.pfx
  number := p.number
  cune := cune
  issue_date := p.issue_date
  issue_time := p.issue_time
  employer_nit := p.employer_nit
  employer_name := p.employer_name
  employee_id := p.employee_id
  employee_name := p.employee_name
  devengado := k.formatAmount p.devengado
  deducido := k.formatAmount p.deducido
  total := k.formatAmount p.total

/-- The XML without a signature, and the CUNE. -/
def generatePayrollXml (A : Arithmetic) (k : Codes) (p : PayrollPayload) :
    Checked UblError (String × String) := do
  p.validate A
  let cune := p.code k
  return (String.ofList (Templates.payroll (p.context k cune)).print, cune)

end DianService.Ubl
