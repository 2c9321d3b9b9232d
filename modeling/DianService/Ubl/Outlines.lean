import DianService.Lib.Xml.Filled
import DianService.Ubl.Payroll

/-
  Ubl: the outlines of the templates. Names and prefixes are those of the template, and a document
  has the same outline as any other with as many lines and subtotals and the same check digits.
-/

namespace DianService.Ubl

open Lib Lib.Xml

namespace Templates

/-! ## The blocks -/

def PREFIXES : List Text := [[], "cac".toList, "cbc".toList, "ds".toList, "ext".toList]

section Blocks

variable (prefixes : List Text)

@[simp] theorem isPlaced_nil : Outline.isPlaced prefixes (.nil : Outline) = true := rfl

@[simp] theorem isPlaced_text (s : String) :
    Outline.isPlaced prefixes (text s).outline = true := rfl

@[simp] theorem isPlaced_comment (raw : String) :
    Outline.isPlaced prefixes (Markup.outline (.leaf (.comment raw) .nil)) =
      isComment raw.toList := by
  simp [Markup.outline, Outline.isPlaced, Event.isPlaced]

@[simp] theorem isPlaced_element (name : String) (attributes : List PartAttribute)
    (content : Markup) : Outline.isPlaced prefixes (element name attributes content).outline =
      (isPlaced prefixes (name, attributes.map PartAttribute.key) &&
        Outline.isPlaced prefixes content.outline) := by
  simp [element, Markup.outline, Outline.isPlaced, Event.isPlaced, PartTag.shape]

@[simp] theorem isPlaced_field (name value : String) (attributes : List PartAttribute) :
    Outline.isPlaced prefixes (field name value attributes).outline =
      isPlaced prefixes (name, attributes.map PartAttribute.key) := by
  rw [field, isPlaced_element]
  exact Bool.and_true _

@[simp] theorem isPlaced_constant (name value : String) :
    Outline.isPlaced prefixes (constant name value).outline = isPlaced prefixes (name, []) := by
  rw [constant, isPlaced_element, isPlaced_text, Bool.and_true, List.map_nil]

@[simp] theorem isPlaced_emptyElement (name : String) (attributes : List PartAttribute) :
    Outline.isPlaced prefixes (emptyElement name attributes).outline =
      isPlaced prefixes (name, attributes.map PartAttribute.key) := by
  simp [emptyElement, Markup.outline, Outline.isPlaced, Event.isPlaced, PartTag.shape]

@[simp] theorem isPlaced_markup_append (m n : Markup) :
    Outline.isPlaced prefixes (Markup.outline (m ++ n)) =
      (Outline.isPlaced prefixes m.outline && Outline.isPlaced prefixes n.outline) := by
  rw [outline_append, isPlaced_append]

@[simp] theorem isPlaced_onLines (indent : String) (ms : List Markup) :
    Outline.isPlaced prefixes (onLines indent ms).outline =
      ms.all fun m => Outline.isPlaced prefixes m.outline := by
  induction ms with
  | nil => rfl
  | cons m ms ih =>
    rw [onLines, isPlaced_markup_append, isPlaced_markup_append, isPlaced_text, ih, List.all_cons,
      Bool.true_and]

end Blocks

@[simp] theorem key_litAttr (key value : String) : (litAttr key value).key = key := rfl

@[simp] theorem key_valAttr (key value : String) : (valAttr key value).key = key := rfl

/-- The tags with elements in them. -/
theorem aggregates_placed :
    isPlaced PREFIXES ("cac:AccountingCustomerParty", []) ∧
    isPlaced PREFIXES ("cac:AccountingSupplierParty", []) ∧
    isPlaced PREFIXES ("cac:Attachment", []) ∧ isPlaced PREFIXES ("cac:BillingReference", []) ∧
    isPlaced PREFIXES ("cac:CreditNoteLine", []) ∧ isPlaced PREFIXES ("cac:DebitNoteLine", []) ∧
    isPlaced PREFIXES ("cac:DiscrepancyResponse", []) ∧
    isPlaced PREFIXES ("cac:DocumentReference", []) ∧
    isPlaced PREFIXES ("cac:DocumentResponse", []) ∧
    isPlaced PREFIXES ("cac:ExternalReference", []) ∧
    isPlaced PREFIXES ("cac:InvoiceDocumentReference", []) ∧
    isPlaced PREFIXES ("cac:InvoiceLine", []) ∧ isPlaced PREFIXES ("cac:Item", []) ∧
    isPlaced PREFIXES ("cac:LegalMonetaryTotal", []) ∧
    isPlaced PREFIXES ("cac:ParentDocumentLineReference", []) ∧
    isPlaced PREFIXES ("cac:Party", []) ∧ isPlaced PREFIXES ("cac:PartyName", []) ∧
    isPlaced PREFIXES ("cac:PartyTaxScheme", []) ∧ isPlaced PREFIXES ("cac:Price", []) ∧
    isPlaced PREFIXES ("cac:ReceiverParty", []) ∧
    isPlaced PREFIXES ("cac:RequestedMonetaryTotal", []) ∧ isPlaced PREFIXES ("cac:Response", []) ∧
    isPlaced PREFIXES ("cac:SenderParty", []) ∧ isPlaced PREFIXES ("cac:TaxCategory", []) ∧
    isPlaced PREFIXES ("cac:TaxScheme", []) ∧ isPlaced PREFIXES ("cac:TaxSubtotal", []) ∧
    isPlaced PREFIXES ("cac:TaxTotal", []) ∧ isPlaced PREFIXES ("ext:ExtensionContent", []) ∧
    isPlaced PREFIXES ("ext:UBLExtension", []) ∧ isPlaced PREFIXES ("ext:UBLExtensions", []) := by
  decide +kernel

/-- The tags with text in them. -/
theorem components_placed :
    isPlaced PREFIXES ("cbc:AdditionalAccountID", []) ∧
    isPlaced PREFIXES ("cbc:BaseQuantity", ["unitCode"]) ∧
    isPlaced PREFIXES ("cbc:CompanyID", ["schemeAgencyID", "schemeAgencyName", "schemeID", "schemeName"]) ∧
    isPlaced PREFIXES ("cbc:CompanyID", ["schemeAgencyID", "schemeAgencyName", "schemeName"]) ∧
    isPlaced PREFIXES ("cbc:CreditNoteTypeCode", []) ∧
    isPlaced PREFIXES ("cbc:CreditedQuantity", ["unitCode"]) ∧
    isPlaced PREFIXES ("cbc:CustomizationID", []) ∧
    isPlaced PREFIXES ("cbc:DebitedQuantity", ["unitCode"]) ∧
    isPlaced PREFIXES ("cbc:Description", []) ∧ isPlaced PREFIXES ("cbc:DocumentCurrencyCode", []) ∧
    isPlaced PREFIXES ("cbc:DocumentType", []) ∧ isPlaced PREFIXES ("cbc:EncodingCode", []) ∧
    isPlaced PREFIXES ("cbc:ID", []) ∧ isPlaced PREFIXES ("cbc:InvoiceTypeCode", []) ∧
    isPlaced PREFIXES ("cbc:InvoicedQuantity", ["unitCode"]) ∧
    isPlaced PREFIXES ("cbc:IssueDate", []) ∧ isPlaced PREFIXES ("cbc:IssueTime", []) ∧
    isPlaced PREFIXES ("cbc:LineCountNumeric", []) ∧
    isPlaced PREFIXES ("cbc:LineExtensionAmount", ["currencyID"]) ∧
    isPlaced PREFIXES ("cbc:LineID", []) ∧ isPlaced PREFIXES ("cbc:MimeCode", []) ∧
    isPlaced PREFIXES ("cbc:Name", []) ∧ isPlaced PREFIXES ("cbc:ParentDocumentID", []) ∧
    isPlaced PREFIXES ("cbc:PayableAmount", ["currencyID"]) ∧
    isPlaced PREFIXES ("cbc:Percent", []) ∧ isPlaced PREFIXES ("cbc:PriceAmount", ["currencyID"]) ∧
    isPlaced PREFIXES ("cbc:ProfileExecutionID", []) ∧ isPlaced PREFIXES ("cbc:ProfileID", []) ∧
    isPlaced PREFIXES ("cbc:ReferenceID", []) ∧ isPlaced PREFIXES ("cbc:RegistrationName", []) ∧
    isPlaced PREFIXES ("cbc:ResponseCode", []) ∧
    isPlaced PREFIXES ("cbc:TaxAmount", ["currencyID"]) ∧
    isPlaced PREFIXES ("cbc:TaxExclusiveAmount", ["currencyID"]) ∧
    isPlaced PREFIXES ("cbc:TaxInclusiveAmount", ["currencyID"]) ∧
    isPlaced PREFIXES ("cbc:TaxableAmount", ["currencyID"]) ∧
    isPlaced PREFIXES ("cbc:UBLVersionID", []) ∧
    isPlaced PREFIXES ("cbc:UUID", ["schemeID", "schemeName"]) ∧
    isPlaced PREFIXES ("cbc:UUID", ["schemeName"]) := by
  decide +kernel

theorem extensions_placed : Outline.isPlaced PREFIXES extensions.outline = true := by
  have hcomment : isComment PLACEHOLDER.toList = true := by decide
  simp only [extensions, isPlaced_element, isPlaced_onLines, isPlaced_comment, isPlaced_text,
    isPlaced_markup_append, List.all_cons, List.all_nil, List.map_nil, aggregates_placed, hcomment,
    Bool.and_self]

theorem head_placed (doc : CommercialDocument) :
    Outline.isPlaced PREFIXES (head doc).outline = true := by
  simp only [head, isPlaced_constant, isPlaced_field, isPlaced_onLines, isPlaced_markup_append,
    List.all_cons, List.all_nil, List.map_cons, List.map_nil, key_valAttr, components_placed,
    Bool.and_self]

theorem companyId_placed (p : PartyData) :
    Outline.isPlaced PREFIXES (companyId p).outline = true := by
  rw [companyId, isPlaced_field]
  split
  · simp only [List.map_cons, List.map_nil, List.cons_append, List.nil_append, key_litAttr,
      key_valAttr, components_placed]
  · simp only [List.map_cons, List.map_nil, List.cons_append, List.nil_append, key_litAttr,
      key_valAttr, components_placed]

theorem partyTaxScheme_placed (p : PartyData) :
    Outline.isPlaced PREFIXES (partyTaxScheme p).outline = true := by
  simp only [partyTaxScheme, isPlaced_element, isPlaced_constant, isPlaced_field, isPlaced_text,
    isPlaced_onLines, isPlaced_markup_append, companyId_placed, List.all_cons, List.all_nil,
    List.map_nil, aggregates_placed, components_placed, Bool.and_self]

section Parties

variable (tag : String) (htag : isPlaced PREFIXES (tag, []) = true)

include htag

theorem tradeParty_placed (p : PartyData) :
    Outline.isPlaced PREFIXES (tradeParty tag p).outline = true := by
  simp only [tradeParty, isPlaced_element, htag, isPlaced_field, isPlaced_text, isPlaced_onLines,
    isPlaced_markup_append, partyTaxScheme_placed, List.all_cons, List.all_nil, List.map_nil,
    aggregates_placed, components_placed, Bool.and_self]

theorem plainParty_placed (p : PartyData) :
    Outline.isPlaced PREFIXES (plainParty tag p).outline = true := by
  simp only [plainParty, isPlaced_element, htag, isPlaced_text, isPlaced_markup_append,
    partyTaxScheme_placed, List.map_nil, Bool.and_self]

theorem monetaryTotal_placed (doc : CommercialDocument) :
    Outline.isPlaced PREFIXES (monetaryTotal tag doc).outline = true := by
  simp only [monetaryTotal, isPlaced_element, htag, isPlaced_field, currency, isPlaced_text,
    isPlaced_onLines, isPlaced_markup_append, List.all_cons, List.all_nil, List.map_cons,
    List.map_nil, key_litAttr, components_placed, Bool.and_self]

end Parties

theorem taxCategory_placed (percent : String) :
    Outline.isPlaced PREFIXES (taxCategory percent).outline = true := by
  simp only [taxCategory, isPlaced_element, isPlaced_constant, isPlaced_field,
    isPlaced_markup_append, List.map_nil, aggregates_placed, components_placed, Bool.and_self]

/-- Elements of any number. -/
theorem placed_onLines_map {α : Type} (indent : String) {f : α → Markup}
    (hf : ∀ a, Outline.isPlaced PREFIXES (f a).outline = true) (as : List α) :
    Outline.isPlaced PREFIXES (onLines indent (as.map f)).outline = true := by
  rw [isPlaced_onLines, List.all_map, List.all_eq_true]
  exact fun a _ => hf a

theorem taxSubtotal_placed (s : TaxSubtotalData) :
    Outline.isPlaced PREFIXES (taxSubtotal s).outline = true := by
  simp only [taxSubtotal, isPlaced_element, isPlaced_field, currency, isPlaced_text,
    isPlaced_onLines, isPlaced_markup_append, taxCategory_placed, List.all_cons, List.all_nil,
    List.map_cons, List.map_nil, key_litAttr, aggregates_placed, components_placed, Bool.and_self]

theorem taxTotal_placed (doc : CommercialDocument) :
    Outline.isPlaced PREFIXES (taxTotal doc).outline = true := by
  have hsubtotals := placed_onLines_map "\n        " taxSubtotal_placed doc.tax_subtotals
  simp only [taxTotal, isPlaced_element, isPlaced_field, currency, isPlaced_text,
    isPlaced_markup_append, hsubtotals, isPlaced_onLines, List.all_cons, List.all_nil,
    List.map_cons, List.map_nil, key_litAttr, aggregates_placed, components_placed, Bool.and_self]

theorem lines_placed (tag quantity_tag : String) (htag : isPlaced PREFIXES (tag, []) = true)
    (hquantity : isPlaced PREFIXES (quantity_tag, ["unitCode"]) = true)
    (doc : CommercialDocument) :
    Outline.isPlaced PREFIXES (lines tag quantity_tag doc).outline = true := by
  refine placed_onLines_map "\n    " (fun l => ?_) doc.lines
  simp only [line, isPlaced_element, htag, isPlaced_field, hquantity, currency, isPlaced_text,
    isPlaced_markup_append, isPlaced_onLines, taxCategory_placed, List.all_cons, List.all_nil,
    List.map_cons, List.map_nil, key_litAttr, key_valAttr, aggregates_placed, components_placed, Bool.and_self]

theorem noteReferences_placed (doc : CommercialDocument) :
    Outline.isPlaced PREFIXES (noteReferences doc).outline = true := by
  simp only [noteReferences, isPlaced_element, isPlaced_field, isPlaced_text,
    isPlaced_markup_append, isPlaced_onLines, List.all_cons, List.all_nil, List.map_cons,
    List.map_nil, key_litAttr, aggregates_placed, components_placed, Bool.and_self]

theorem attachment_placed (outer middle inner xml : String) :
    Outline.isPlaced PREFIXES (attachment outer middle inner xml).outline = true := by
  simp only [attachment, isPlaced_element, isPlaced_constant, isPlaced_field, isPlaced_text,
    isPlaced_markup_append, isPlaced_onLines, List.all_cons, List.all_nil, List.map_nil,
    aggregates_placed, components_placed, Bool.and_self]

/-! ## Documents -/

/-- The XML declaration, as a tag. -/
def declaration : PartTag where
  name := "xml"
  attributes := [litAttr "version" "1.0", litAttr "encoding" "UTF-8", litAttr "standalone" "no"]

theorem declaration_spelled : SpellsDeclaration DECLARATION := by
  have hsound : declaration.sound = true := by decide +kernel
  have hspelled := PartTag.spells hsound
  refine ⟨_, [], _, ?_, hspelled, List.forall_mem_nil _, ?_⟩
  · decide +kernel
  · simp only [declaration, PartTag.raw, List.map_cons, List.map_nil, PartAttribute.raw, litAttr]
    decide +kernel

/-- The root tags. -/
theorem roots_declare : ∀ t ∈ [root "Invoice" "\n         ", root "CreditNote" "\n            ",
    root "DebitNote" "\n           ", root "AttachedDocument" "\n                  ",
    root "ApplicationResponse" "\n                     "], t.declares = true ∧
      (t.attributes.filterMap fun a => declared? a.key.toList) = PREFIXES := by
  decide +kernel

theorem isTemplate {name indent : String} {content : Markup}
    (hroot : root name indent ∈ [root "Invoice" "\n         ", root "CreditNote" "\n            ",
      root "DebitNote" "\n           ", root "AttachedDocument" "\n                  ",
      root "ApplicationResponse" "\n                     "])
    (hsound : (Markup.document DECLARATION (root name indent) content).sound = true)
    (hplaced : Outline.isPlaced PREFIXES content.outline = true) :
    (Markup.document DECLARATION (root name indent) content).IsTemplate := by
  obtain ⟨hdeclares, hprefixes⟩ := roots_declare _ hroot
  refine ⟨hsound, DECLARATION, root name indent, content, rfl, declaration_spelled, hdeclares, ?_⟩
  rw [hprefixes]
  exact hplaced

section Commercial

variable (doc : CommercialDocument)

theorem parties_placed : ∀ m ∈ parties doc, Outline.isPlaced PREFIXES (Markup.outline m) = true := by
  rw [parties, List.forall_mem_cons, List.forall_mem_singleton]
  exact ⟨tradeParty_placed _ (by simp only [aggregates_placed]) _,
    tradeParty_placed _ (by simp only [aggregates_placed]) _⟩

theorem invoice_isTemplate : (invoice doc).IsTemplate := by
  have hlines := lines_placed "cac:InvoiceLine" "cbc:InvoicedQuantity"
    (by simp only [aggregates_placed]) (by simp only [components_placed]) doc
  have htotal := monetaryTotal_placed "cac:LegalMonetaryTotal" (by simp only [aggregates_placed]) doc
  refine isTemplate (by simp) (invoice_sound doc) ?_
  simp only [isPlaced_markup_append, isPlaced_onLines, List.all_append, List.all_cons,
    List.all_nil, extensions_placed, head_placed, isPlaced_field, isPlaced_constant, isPlaced_text,
    List.all_eq_true.mpr (parties_placed doc), taxTotal_placed, htotal, hlines, components_placed,
    List.map_nil, Bool.and_self]

theorem creditNote_isTemplate : (creditNote doc).IsTemplate := by
  have hlines := lines_placed "cac:CreditNoteLine" "cbc:CreditedQuantity"
    (by simp only [aggregates_placed]) (by simp only [components_placed]) doc
  have htotal := monetaryTotal_placed "cac:LegalMonetaryTotal" (by simp only [aggregates_placed]) doc
  refine isTemplate (by simp) (creditNote_sound doc) ?_
  simp only [isPlaced_markup_append, isPlaced_onLines, List.all_append, List.all_cons,
    List.all_nil, extensions_placed, head_placed, isPlaced_field, isPlaced_constant, isPlaced_text,
    noteReferences_placed, List.all_eq_true.mpr (parties_placed doc), taxTotal_placed, htotal,
    hlines, components_placed, List.map_nil, Bool.and_self]

theorem debitNote_isTemplate : (debitNote doc).IsTemplate := by
  have hlines := lines_placed "cac:DebitNoteLine" "cbc:DebitedQuantity"
    (by simp only [aggregates_placed]) (by simp only [components_placed]) doc
  have htotal := monetaryTotal_placed "cac:RequestedMonetaryTotal"
    (by simp only [aggregates_placed]) doc
  refine isTemplate (by simp) (debitNote_sound doc) ?_
  simp only [isPlaced_markup_append, isPlaced_onLines, List.all_append, List.all_cons,
    List.all_nil, extensions_placed, head_placed, isPlaced_field, isPlaced_constant, isPlaced_text,
    noteReferences_placed, List.all_eq_true.mpr (parties_placed doc), taxTotal_placed, htotal,
    hlines, components_placed, List.map_nil, Bool.and_self]

end Commercial

theorem attachedDocument_isTemplate (c : AttachedDocument) : (attachedDocument c).IsTemplate := by
  have hsender := plainParty_placed "cac:SenderParty" (by simp only [aggregates_placed]) c.sender
  have hreceiver := plainParty_placed "cac:ReceiverParty" (by simp only [aggregates_placed])
    c.receiver
  refine isTemplate (by simp) (attachedDocument_sound c) ?_
  simp only [isPlaced_markup_append, isPlaced_onLines, List.all_cons, List.all_nil,
    extensions_placed, isPlaced_element, isPlaced_field, isPlaced_constant, isPlaced_text, hsender,
    hreceiver, attachment_placed, aggregates_placed, components_placed, List.map_cons, List.map_nil,
    key_litAttr, Bool.and_self]

theorem applicationResponse_isTemplate (c : ApplicationResponse) :
    (applicationResponse c).IsTemplate := by
  have hsender := plainParty_placed "cac:SenderParty" (by simp only [aggregates_placed]) c.sender
  have hreceiver := plainParty_placed "cac:ReceiverParty" (by simp only [aggregates_placed])
    c.receiver
  refine isTemplate (by simp) (applicationResponse_sound c) ?_
  simp only [isPlaced_markup_append, isPlaced_onLines, List.all_cons, List.all_nil,
    extensions_placed, isPlaced_element, isPlaced_field, isPlaced_constant, isPlaced_text, hsender,
    hreceiver, aggregates_placed, components_placed, List.map_cons, List.map_nil, key_litAttr,
    key_valAttr, Bool.and_self]

/-! ## Payroll -/

/-- The names of the payroll template, and the keys beside them. -/
theorem payroll_placed :
    isPlaced PREFIXES ("Novedad", []) ∧
    isPlaced PREFIXES ("Periodo", ["FechaIngreso", "FechaLiquidacionInicio", "FechaLiquidacionFin",
      "TiempoLaborado", "FechaGen"]) ∧
    isPlaced PREFIXES ("NumeroSecuenciaXML", ["Prefijo", "Consecutivo", "Numero"]) ∧
    isPlaced PREFIXES ("LugarGeneracionXML", ["Pais", "Departamento", "Municipio", "Idioma"]) ∧
    isPlaced PREFIXES ("ProveedorXML", ["RazonSocial", "PrimerApellido", "SegundoApellido",
      "PrimerNombre", "OtrosNombres", "NIT", "DV", "SoftwareID", "SoftwareSC"]) ∧
    isPlaced PREFIXES ("CodigoUnicoDocumentoElectronico", ["schemeName"]) ∧
    isPlaced PREFIXES ("FechaGen", []) ∧ isPlaced PREFIXES ("HoraGen", []) ∧
    isPlaced PREFIXES ("Empleador", ["RazonSocial", "PrimerApellido", "SegundoApellido",
      "PrimerNombre", "OtrosNombres", "NIT", "DV", "Pais", "Departamento", "Municipio",
      "Direccion"]) ∧
    isPlaced PREFIXES ("Trabajador", ["TipoTrabajador", "SubTipoTrabajador", "CodigoTrabajador",
      "TipoDocumento", "NumeroDocumento", "PrimerApellido", "SegundoApellido", "PrimerNombre",
      "LugarTrabajoPais", "LugarTrabajoDepartamento", "LugarTrabajoMunicipio",
      "LugarTrabajoDireccion", "Sueldo"]) ∧
    isPlaced PREFIXES ("Devengados", []) ∧
    isPlaced PREFIXES ("Basico", ["DiasTrabajados", "SueldoTrabajado"]) ∧
    isPlaced PREFIXES ("Deducciones", []) ∧
    isPlaced PREFIXES ("Salud", ["Porcentaje", "Deduccion"]) ∧
    isPlaced PREFIXES ("DevengadosTotal", []) ∧ isPlaced PREFIXES ("DeduccionesTotal", []) ∧
    isPlaced PREFIXES ("ComprobanteTotal", []) := by
  decide +kernel

theorem payrollRoot_declares : payrollRoot.declares = true ∧
    ∀ p ∈ PREFIXES, p ∈ payrollRoot.attributes.filterMap fun a => declared? a.key.toList := by
  decide +kernel

theorem payroll_isTemplate (c : Payroll) : (payroll c).IsTemplate := by
  obtain ⟨hdeclares, hprefixes⟩ := payrollRoot_declares
  refine ⟨payroll_sound c, DECLARATION, payrollRoot, payrollContent c, rfl, declaration_spelled,
    hdeclares, isPlaced_mono hprefixes ?_⟩
  simp only [payrollContent, provider, employer, employee, noNames, place, isPlaced_markup_append,
    isPlaced_onLines, isPlaced_element, isPlaced_emptyElement, isPlaced_field, isPlaced_constant,
    isPlaced_text, extensions_placed, List.all_cons, List.all_nil, List.map_cons, List.map_nil,
    List.cons_append, List.nil_append, key_litAttr, key_valAttr, payroll_placed, Bool.and_self]

theorem payroll_outline (c c' : Payroll) : (payroll c).outline = (payroll c').outline := rfl

/-! ## Shapes -/

section Outlines

@[simp] theorem outline_text (s : String) : (text s).outline = .nil := rfl

@[simp] theorem outline_element (name : String) (attributes : List PartAttribute)
    (content : Markup) : (element name attributes content).outline =
      .node (name, attributes.map PartAttribute.key) content.outline .nil := rfl

@[simp] theorem outline_onLines (indent : String) (ms : List Markup) :
    (onLines indent ms).outline = ms.foldr (fun m o => Markup.outline m ++ o) .nil := by
  induction ms with
  | nil => rfl
  | cons m ms ih =>
    rw [onLines, outline_append, outline_append, outline_text, ih]
    rfl

/-- Elements of the same number. -/
theorem outline_map {α : Type} (indent : String) {f : α → Markup}
    (hf : ∀ a b, (f a).outline = (f b).outline) {as bs : List α} (h : as.length = bs.length) :
    (onLines indent (as.map f)).outline = (onLines indent (bs.map f)).outline := by
  rw [outline_onLines, outline_onLines]
  induction as generalizing bs with
  | nil => rw [List.eq_nil_of_length_eq_zero h.symm]
  | cons a as ih =>
    cases bs with
    | nil => cases h
    | cons b bs =>
      rw [List.map_cons, List.map_cons, List.foldr_cons, List.foldr_cons, hf a b,
        ih (Nat.succ.inj h)]

end Outlines

end Templates

/-- What the elements of a document depend on. -/
structure Shape where
  lines : Nat
  subtotals : Nat
  supplier_digit : Bool
  customer_digit : Bool
  deriving DecidableEq

def CommercialDocument.shape (doc : CommercialDocument) : Shape where
  lines := doc.lines.length
  subtotals := doc.tax_subtotals.length
  supplier_digit := doc.supplier.check_digit ≠ ""
  customer_digit := doc.customer.check_digit ≠ ""

namespace Templates

theorem partyTaxScheme_outline {p p' : PartyData}
    (h : decide (p.check_digit ≠ "") = decide (p'.check_digit ≠ "")) :
    (partyTaxScheme p).outline = (partyTaxScheme p').outline := by
  have hcompany : (companyId p).outline = (companyId p').outline := by
    have hiff := decide_eq_decide.mp h
    by_cases hdigit : p.check_digit ≠ ""
    · rw [companyId, companyId, if_pos hdigit, if_pos (hiff.mp hdigit)]
      rfl
    · rw [companyId, companyId, if_neg hdigit, if_neg fun hp => hdigit (hiff.mpr hp)]
      rfl
  simp only [partyTaxScheme, outline_element, outline_append, outline_onLines, List.foldr_cons,
    hcompany]
  rfl

theorem tradeParty_outline (tag : String) {p p' : PartyData}
    (h : decide (p.check_digit ≠ "") = decide (p'.check_digit ≠ "")) :
    (tradeParty tag p).outline = (tradeParty tag p').outline := by
  simp only [tradeParty, outline_element, outline_append, outline_onLines, List.foldr_cons,
    partyTaxScheme_outline h]
  rfl

theorem line_outline (tag quantity_tag : String) (l l' : LineData) :
    (line tag quantity_tag l).outline = (line tag quantity_tag l').outline := rfl

section Shapes

variable {doc doc' : CommercialDocument} (h : doc.shape = doc'.shape)

include h

theorem lines_outline (tag quantity_tag : String) :
    (lines tag quantity_tag doc).outline = (lines tag quantity_tag doc').outline :=
  outline_map _ (line_outline tag quantity_tag) (congrArg Shape.lines h)

theorem taxTotal_outline : (taxTotal doc).outline = (taxTotal doc').outline := by
  have hsubtotals := outline_map "\n        " (f := taxSubtotal) (fun _ _ => rfl)
    (congrArg Shape.subtotals h)
  simp only [taxTotal, outline_element, outline_append, hsubtotals]
  rfl

theorem parties_outline (o : Outline) :
    (parties doc).foldr (fun m o => Markup.outline m ++ o) o =
      (parties doc').foldr (fun m o => Markup.outline m ++ o) o := by
  simp only [parties, List.foldr_cons, tradeParty_outline _ (congrArg Shape.supplier_digit h),
    tradeParty_outline _ (congrArg Shape.customer_digit h)]

/-- The texts of a document have no part in its elements. -/
theorem invoice_outline : (invoice doc).outline = (invoice doc').outline := by
  have hhead : (head doc).outline = (head doc').outline := rfl
  have htotal : (monetaryTotal "cac:LegalMonetaryTotal" doc).outline =
    (monetaryTotal "cac:LegalMonetaryTotal" doc').outline := rfl
  simp only [invoice, Markup.document, Markup.outline, outline_append, outline_onLines,
    List.foldr_append, List.foldr_cons, hhead, taxTotal_outline h, htotal, parties_outline h,
    lines_outline h]
  rfl

theorem creditNote_outline : (creditNote doc).outline = (creditNote doc').outline := by
  have hhead : (head doc).outline = (head doc').outline := rfl
  have hreferences : (noteReferences doc).outline = (noteReferences doc').outline := rfl
  have htotal : (monetaryTotal "cac:LegalMonetaryTotal" doc).outline =
    (monetaryTotal "cac:LegalMonetaryTotal" doc').outline := rfl
  simp only [creditNote, Markup.document, Markup.outline, outline_append, outline_onLines,
    List.foldr_append, List.foldr_cons, List.cons_append, hhead, hreferences, taxTotal_outline h,
    htotal, parties_outline h, lines_outline h]
  rfl

theorem debitNote_outline : (debitNote doc).outline = (debitNote doc').outline := by
  have hhead : (head doc).outline = (head doc').outline := rfl
  have hreferences : (noteReferences doc).outline = (noteReferences doc').outline := rfl
  have htotal : (monetaryTotal "cac:RequestedMonetaryTotal" doc).outline =
    (monetaryTotal "cac:RequestedMonetaryTotal" doc').outline := rfl
  simp only [debitNote, Markup.document, Markup.outline, outline_append, outline_onLines,
    List.foldr_append, List.foldr_cons, List.cons_append, hhead, hreferences, taxTotal_outline h,
    htotal, parties_outline h, lines_outline h]
  rfl

end Shapes

section Events

variable {c d : ApplicationResponse}

theorem plainParty_outline (tag : String) {p p' : PartyData}
    (h : decide (p.check_digit ≠ "") = decide (p'.check_digit ≠ "")) :
    (plainParty tag p).outline = (plainParty tag p').outline := by
  simp only [plainParty, outline_element, outline_append, partyTaxScheme_outline h]

theorem applicationResponse_outline
    (hsender : decide (c.sender.check_digit ≠ "") = decide (d.sender.check_digit ≠ ""))
    (hreceiver : decide (c.receiver.check_digit ≠ "") = decide (d.receiver.check_digit ≠ "")) :
    (applicationResponse c).outline = (applicationResponse d).outline := by
  simp only [applicationResponse, Markup.document, Markup.outline, outline_append, outline_onLines,
    List.foldr_cons, plainParty_outline _ hsender, plainParty_outline _ hreceiver]
  rfl

end Events

end Templates

end DianService.Ubl
