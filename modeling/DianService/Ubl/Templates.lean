import DianService.Lib.Xml.Markup
import DianService.Ubl.Document

/-
  Ubl: the templates as MiniJinja renders them, `macros.xml` first. Where a template has a value
  there is a `val`, which is escaped; `-%}` and `{%-` take the white space next to them, and the
  newline at the end of a template is dropped.
-/

namespace DianService.Ubl.Templates

open Lib Lib.Xml

/-! ## Building blocks -/

def text (s : String) : Markup := .leaf (.text [.lit s]) .nil

def litAttr (key value : String) : PartAttribute := ⟨" ", key, [.lit value]⟩

/-- An attribute whose value is interpolated. -/
def valAttr (key value : String) : PartAttribute := ⟨" ", key, [.val value]⟩

def element (name : String) (attributes : List PartAttribute) (content : Markup) : Markup :=
  .node ⟨name, attributes⟩ content .nil

/-- An element with text of the template. -/
def constant (name value : String) : Markup := element name [] (text value)

/-- An element with an interpolated value. -/
def field (name value : String) (attributes : List PartAttribute := []) : Markup :=
  element name attributes (.leaf (.text [.val value]) .nil)

/-- Each on a line of its own. -/
def onLines (indent : String) : List Markup → Markup
  | [] => .nil
  | m :: ms => text indent ++ m ++ onLines indent ms

/-! What can be checked of the blocks does not depend on the values. -/

@[simp] theorem sound_text (s : String) : (text s).sound = isPlain s := by
  simp [text, Markup.sound, PartLeaf.sound, Part.plain]

@[simp] theorem sound_comment (raw : String) : Markup.sound (.leaf (.comment raw) .nil) =
    (PartLeaf.comment raw).sound := by
  simp [Markup.sound]

@[simp] theorem sound_litAttr (key value : String) : (litAttr key value).sound =
    (isQName key.toList && (isPlain value && value.toList.all (· ≠ '"'))) := by
  simp [litAttr, PartAttribute.sound, Part.quoted, isSpace]

@[simp] theorem sound_valAttr (key value : String) :
    (valAttr key value).sound = isQName key.toList := by
  simp [valAttr, PartAttribute.sound, Part.quoted, isSpace]

@[simp] theorem sound_element (name : String) (attributes : List PartAttribute)
    (content : Markup) : (element name attributes content).sound =
      (isQName name.toList && attributes.all PartAttribute.sound && content.sound) := by
  simp [element, Markup.sound, PartTag.sound]

@[simp] theorem sound_constant (name value : String) : (constant name value).sound =
    (isQName name.toList && isPlain value) := by
  simp [constant]

@[simp] theorem sound_field (name value : String) (attributes : List PartAttribute) :
    (field name value attributes).sound =
      (isQName name.toList && attributes.all PartAttribute.sound) := by
  simp [field, Markup.sound, PartLeaf.sound, Part.plain]

@[simp] theorem sound_onLines (indent : String) (ms : List Markup) :
    (onLines indent ms).sound = ms.all fun m => isPlain indent && m.sound := by
  induction ms with
  | nil => rfl
  | cons m ms ih =>
    rw [onLines, Markup.sound_append, Markup.sound_append, sound_text, ih, List.all_cons]

/-! ## `macros.xml` -/

def currency : List PartAttribute := [litAttr "currencyID" "COP"]

def PLACEHOLDER : String := " PLACEHOLDER_FOR_SIGNATURE "

def extensions : Markup :=
  element "ext:UBLExtensions" []
    (onLines "\n        " [element "ext:UBLExtension" []
      (onLines "\n            " [element "ext:ExtensionContent" []
        (onLines "\n                " [.leaf (.comment PLACEHOLDER) .nil] ++
          text "\n            ")] ++
        text "\n        ")] ++
      text "\n    ")

def head (doc : CommercialDocument) : Markup :=
  constant "cbc:UBLVersionID" "UBL 2.1" ++
    onLines "\n    " [
      field "cbc:CustomizationID" doc.customization_id,
      constant "cbc:ProfileID" "DIAN 2.1",
      field "cbc:ProfileExecutionID" doc.profile_execution_id,
      field "cbc:ID" doc.id,
      field "cbc:UUID" doc.uuid [valAttr "schemeID" doc.profile_execution_id,
        valAttr "schemeName" doc.uuid_scheme],
      field "cbc:IssueDate" doc.issue_date,
      field "cbc:IssueTime" doc.issue_time]

def companyId (p : PartyData) : Markup :=
  field "cbc:CompanyID" p.id
    ([litAttr "schemeAgencyID" "195",
      litAttr "schemeAgencyName" "CO, DIAN (Dirección de Impuestos y Aduanas Nacionales)"] ++
      (if p.check_digit ≠ "" then [valAttr "schemeID" p.check_digit] else []) ++
      [valAttr "schemeName" p.id_type])

def partyTaxScheme (p : PartyData) : Markup :=
  element "cac:PartyTaxScheme" []
    (onLines "\n                " [
      field "cbc:RegistrationName" p.name,
      companyId p,
      element "cac:TaxScheme" []
        (onLines "\n                    " [constant "cbc:ID" "01", constant "cbc:Name" "IVA"] ++
          text "\n                ")] ++
      text "\n            ")

def tradeParty (tag : String) (p : PartyData) : Markup :=
  element tag []
    (onLines "\n        " [
      field "cbc:AdditionalAccountID" p.id_type,
      element "cac:Party" []
        (onLines "\n            " [
          element "cac:PartyName" []
            (onLines "\n                " [field "cbc:Name" p.name] ++ text "\n            ")] ++
          text "\n" ++ partyTaxScheme p ++ text "\n        ")] ++
      text "\n    ")

def plainParty (tag : String) (p : PartyData) : Markup :=
  element tag [] (text "\n" ++ partyTaxScheme p ++ text "\n    ")

def taxCategory (percent : String) : Markup :=
  element "cac:TaxCategory" []
    (field "cbc:Percent" percent ++
      element "cac:TaxScheme" [] (constant "cbc:ID" "01" ++ constant "cbc:Name" "IVA"))

def taxSubtotal (s : TaxSubtotalData) : Markup :=
  element "cac:TaxSubtotal" []
    (onLines "\n            " [
      field "cbc:TaxableAmount" s.taxable currency,
      field "cbc:TaxAmount" s.tax currency,
      taxCategory s.percent] ++
      text "\n        ")

def taxTotal (doc : CommercialDocument) : Markup :=
  element "cac:TaxTotal" []
    (onLines "\n        " [field "cbc:TaxAmount" doc.tax currency] ++
      onLines "\n        " (doc.tax_subtotals.map taxSubtotal) ++
      text "\n    ")

def monetaryTotal (tag : String) (doc : CommercialDocument) : Markup :=
  element tag []
    (onLines "\n        " [
      field "cbc:LineExtensionAmount" doc.net currency,
      field "cbc:TaxExclusiveAmount" doc.net currency,
      field "cbc:TaxInclusiveAmount" doc.total currency,
      field "cbc:PayableAmount" doc.total currency] ++
      text "\n    ")

def line (tag quantity_tag : String) (l : LineData) : Markup :=
  element tag []
    (onLines "\n        " [
      field "cbc:ID" (toString l.id),
      field quantity_tag l.quantity [valAttr "unitCode" l.unit_code],
      field "cbc:LineExtensionAmount" l.line_extension currency,
      element "cac:TaxTotal" []
        (onLines "\n            " [
          field "cbc:TaxAmount" l.tax_amount currency,
          element "cac:TaxSubtotal" []
            (onLines "\n                " [
              field "cbc:TaxableAmount" l.line_extension currency,
              field "cbc:TaxAmount" l.tax_amount currency,
              taxCategory l.tax_percent] ++
              text "\n            ")] ++
          text "\n        "),
      element "cac:Item" []
        (onLines "\n            " [field "cbc:Description" l.description] ++ text "\n        "),
      element "cac:Price" []
        (onLines "\n            " [
          field "cbc:PriceAmount" l.unit_price currency,
          element "cbc:BaseQuantity" [valAttr "unitCode" l.unit_code] (text "1")] ++
          text "\n        ")] ++
      text "\n    ")

def lines (tag quantity_tag : String) (doc : CommercialDocument) : Markup :=
  onLines "\n    " (doc.lines.map (line tag quantity_tag))

/-- What is not there is printed as nothing. -/
def noteReferences (doc : CommercialDocument) : Markup :=
  let number := (doc.billing_reference.map BillingReferencePayload.number).getD ""
  element "cac:DiscrepancyResponse" []
    (onLines "\n        " [
      field "cbc:ReferenceID" number,
      field "cbc:ResponseCode" ((doc.discrepancy.map DiscrepancyPayload.code).getD ""),
      field "cbc:Description" ((doc.discrepancy.map DiscrepancyPayload.description).getD "")] ++
      text "\n    ") ++
    onLines "\n    " [
      element "cac:BillingReference" []
        (onLines "\n        " [
          element "cac:InvoiceDocumentReference" []
            (onLines "\n            " [
              field "cbc:ID" number,
              field "cbc:UUID" ((doc.billing_reference.map BillingReferencePayload.cufe).getD "")
                [litAttr "schemeName" "CUFE-SHA384"],
              field "cbc:IssueDate"
                ((doc.billing_reference.map BillingReferencePayload.issue_date).getD "")] ++
              text "\n        ")] ++
          text "\n    ")]

/-! ## Documents -/

def DECLARATION : String := "xml version=\"1.0\" encoding=\"UTF-8\" standalone=\"no\""

/-- The root tag, with its declarations on lines of their own. -/
def root (name indent : String) : PartTag where
  name := name
  attributes := [
    ⟨" ", "xmlns", [.lit "urn:oasis:names:specification:ubl:schema:xsd:", .lit name, .lit "-2"]⟩,
    ⟨indent, "xmlns:cac",
      [.lit "urn:oasis:names:specification:ubl:schema:xsd:CommonAggregateComponents-2"]⟩,
    ⟨indent, "xmlns:cbc",
      [.lit "urn:oasis:names:specification:ubl:schema:xsd:CommonBasicComponents-2"]⟩,
    ⟨indent, "xmlns:ds", [.lit "http://www.w3.org/2000/09/xmldsig#"]⟩,
    ⟨indent, "xmlns:ext",
      [.lit "urn:oasis:names:specification:ubl:schema:xsd:CommonExtensionComponents-2"]⟩]

def parties (doc : CommercialDocument) : List Markup :=
  [tradeParty "cac:AccountingSupplierParty" doc.supplier,
    tradeParty "cac:AccountingCustomerParty" doc.customer]

def invoice (doc : CommercialDocument) : Markup :=
  .document DECLARATION (root "Invoice" "\n         ")
    (onLines "\n" [extensions, head doc] ++
      onLines "\n    " [
        field "cbc:InvoiceTypeCode" doc.type_code,
        constant "cbc:DocumentCurrencyCode" "COP",
        field "cbc:LineCountNumeric" (toString doc.lines.length)] ++
      onLines "\n" (parties doc ++ [taxTotal doc, monetaryTotal "cac:LegalMonetaryTotal" doc]) ++
      text "\n" ++ lines "cac:InvoiceLine" "cbc:InvoicedQuantity" doc ++ text "\n")

def creditNote (doc : CommercialDocument) : Markup :=
  .document DECLARATION (root "CreditNote" "\n            ")
    (onLines "\n" [extensions, head doc] ++
      onLines "\n    " [
        field "cbc:CreditNoteTypeCode" doc.type_code,
        constant "cbc:DocumentCurrencyCode" "COP",
        field "cbc:LineCountNumeric" (toString doc.lines.length)] ++
      onLines "\n" (noteReferences doc :: parties doc ++
        [taxTotal doc, monetaryTotal "cac:LegalMonetaryTotal" doc]) ++
      text "\n" ++ lines "cac:CreditNoteLine" "cbc:CreditedQuantity" doc ++ text "\n")

def debitNote (doc : CommercialDocument) : Markup :=
  .document DECLARATION (root "DebitNote" "\n           ")
    (onLines "\n" [extensions, head doc] ++
      onLines "\n    " [
        constant "cbc:DocumentCurrencyCode" "COP",
        field "cbc:LineCountNumeric" (toString doc.lines.length)] ++
      onLines "\n" (noteReferences doc :: parties doc ++
        [taxTotal doc, monetaryTotal "cac:RequestedMonetaryTotal" doc]) ++
      text "\n" ++ lines "cac:DebitNoteLine" "cbc:DebitedQuantity" doc ++ text "\n")

/-- The context of `attached_document.xml`. -/
structure AttachedDocument where
  unique_id : String
  issue_date : String
  issue_time : String
  parent_document_id : String
  parent_document_uuid : String
  parent_document_issue_date : String
  sender : PartyData
  receiver : PartyData
  signed_invoice_xml : String
  dian_response_xml : String

/-- A document in the container; the lines of the element start with `outer`, `middle` and
    `inner`. -/
def attachment (outer middle inner xml : String) : Markup :=
  element "cac:Attachment" []
    (onLines middle [
      element "cac:ExternalReference" []
        (onLines inner [
          constant "cbc:MimeCode" "text/xml",
          constant "cbc:EncodingCode" "UTF-8",
          field "cbc:Description" xml] ++
          text middle)] ++
      text outer)

def attachedDocument (c : AttachedDocument) : Markup :=
  .document DECLARATION (root "AttachedDocument" "\n                  ")
    (onLines "\n    " [
      extensions,
      constant "cbc:UBLVersionID" "UBL 2.1",
      constant "cbc:CustomizationID" "1.0",
      constant "cbc:ProfileID" "Factura Electrónica de Venta",
      field "cbc:ID" c.unique_id,
      field "cbc:IssueDate" c.issue_date,
      field "cbc:IssueTime" c.issue_time,
      constant "cbc:DocumentType" "Contenedor de Factura Electrónica",
      field "cbc:ParentDocumentID" c.parent_document_id] ++
      onLines "\n    \n" [
        plainParty "cac:SenderParty" c.sender,
        plainParty "cac:ReceiverParty" c.receiver] ++
      onLines "\n    \n    " [
        attachment "\n    " "\n        " "\n            " c.signed_invoice_xml,
        element "cac:ParentDocumentLineReference" []
          (onLines "\n        " [
            constant "cbc:LineID" "1",
            element "cac:DocumentReference" []
              (onLines "\n            " [
                field "cbc:ID" c.parent_document_id,
                field "cbc:UUID" c.parent_document_uuid [litAttr "schemeName" "CUFE-SHA384"],
                field "cbc:IssueDate" c.parent_document_issue_date,
                constant "cbc:DocumentType" "ApplicationResponse",
                attachment "\n            " "\n                " "\n                    "
                  c.dian_response_xml] ++
                text "\n        ")] ++
            text "\n    ")] ++
      text "\n")

/-- The context of `application_response.xml`. -/
structure ApplicationResponse where
  id : String
  cude : String
  issue_date : String
  issue_time : String
  environment : String
  sender : PartyData
  receiver : PartyData
  event_code : String
  event_description : String
  parent_document_id : String
  parent_document_uuid : String

def applicationResponse (c : ApplicationResponse) : Markup :=
  .document DECLARATION (root "ApplicationResponse" "\n                     ")
    (onLines "\n    " [
      extensions,
      constant "cbc:UBLVersionID" "UBL 2.1",
      constant "cbc:CustomizationID" "1.0",
      constant "cbc:ProfileID" "DIAN 2.1",
      field "cbc:ProfileExecutionID" c.environment,
      field "cbc:ID" c.id,
      field "cbc:UUID" c.cude [valAttr "schemeID" c.environment,
        litAttr "schemeName" "CUDE-SHA384"],
      field "cbc:IssueDate" c.issue_date,
      field "cbc:IssueTime" c.issue_time] ++
      onLines "\n    \n" [
        plainParty "cac:SenderParty" c.sender,
        plainParty "cac:ReceiverParty" c.receiver] ++
      onLines "\n    \n    " [
        element "cac:DocumentResponse" []
          (onLines "\n        " [
            element "cac:Response" []
              (onLines "\n            " [
                field "cbc:ResponseCode" c.event_code,
                field "cbc:Description" c.event_description] ++
                text "\n        "),
            element "cac:DocumentReference" []
              (onLines "\n            " [
                field "cbc:ID" c.parent_document_id,
                field "cbc:UUID" c.parent_document_uuid [litAttr "schemeName" "CUFE-SHA384"],
                constant "cbc:DocumentType" "Factura Electrónica de Venta"] ++
                text "\n        ")] ++
            text "\n    ")] ++
      text "\n")

/-! ## What the templates have of markup -/

/-- The names of the elements and of the attributes. -/
theorem names_sound :
    isQName "cac:Attachment".toList ∧ isQName "cac:BillingReference".toList ∧
    isQName "cac:DiscrepancyResponse".toList ∧ isQName "cac:DocumentReference".toList ∧
    isQName "cac:ExternalReference".toList ∧ isQName "cac:InvoiceDocumentReference".toList ∧
    isQName "cac:Item".toList ∧ isQName "cac:ParentDocumentLineReference".toList ∧
    isQName "cac:Party".toList ∧ isQName "cac:PartyName".toList ∧
    isQName "cac:PartyTaxScheme".toList ∧ isQName "cac:Price".toList ∧
    isQName "cac:TaxCategory".toList ∧ isQName "cac:TaxScheme".toList ∧
    isQName "cac:TaxSubtotal".toList ∧ isQName "cac:TaxTotal".toList ∧
    isQName "cbc:AdditionalAccountID".toList ∧ isQName "cbc:BaseQuantity".toList ∧
    isQName "cbc:CompanyID".toList ∧ isQName "cbc:CreditNoteTypeCode".toList ∧
    isQName "cbc:CustomizationID".toList ∧ isQName "cbc:Description".toList ∧
    isQName "cbc:DocumentCurrencyCode".toList ∧ isQName "cbc:DocumentType".toList ∧
    isQName "cbc:EncodingCode".toList ∧ isQName "cbc:ID".toList ∧
    isQName "cbc:InvoiceTypeCode".toList ∧ isQName "cbc:IssueDate".toList ∧
    isQName "cbc:IssueTime".toList ∧ isQName "cbc:LineCountNumeric".toList ∧
    isQName "cbc:LineExtensionAmount".toList ∧ isQName "cbc:LineID".toList ∧
    isQName "cbc:MimeCode".toList ∧ isQName "cbc:Name".toList ∧
    isQName "cbc:ParentDocumentID".toList ∧ isQName "cbc:PayableAmount".toList ∧
    isQName "cbc:Percent".toList ∧ isQName "cbc:PriceAmount".toList ∧
    isQName "cbc:ProfileExecutionID".toList ∧ isQName "cbc:ProfileID".toList ∧
    isQName "cbc:ReferenceID".toList ∧ isQName "cbc:RegistrationName".toList ∧
    isQName "cbc:ResponseCode".toList ∧ isQName "cbc:TaxAmount".toList ∧
    isQName "cbc:TaxExclusiveAmount".toList ∧ isQName "cbc:TaxInclusiveAmount".toList ∧
    isQName "cbc:TaxableAmount".toList ∧ isQName "cbc:UBLVersionID".toList ∧
    isQName "cbc:UUID".toList ∧ isQName "ext:ExtensionContent".toList ∧
    isQName "ext:UBLExtension".toList ∧ isQName "ext:UBLExtensions".toList ∧
    isQName "currencyID".toList ∧ isQName "schemeAgencyID".toList ∧
    isQName "schemeAgencyName".toList ∧ isQName "schemeID".toList ∧ isQName "schemeName".toList ∧
    isQName "unitCode".toList := by
  decide +kernel

/-- The texts between the tags, and the comment. -/
theorem texts_plain :
    isPlain "01" ∧ isPlain "1" ∧ isPlain "1.0" ∧ isPlain "195" ∧ isPlain "ApplicationResponse" ∧
    isPlain "CO, DIAN (Dirección de Impuestos y Aduanas Nacionales)" ∧ isPlain "COP" ∧
    isPlain "CUFE-SHA384" ∧ isPlain "Contenedor de Factura Electrónica" ∧ isPlain "DIAN 2.1" ∧
    isPlain "Factura Electrónica de Venta" ∧ isPlain "IVA" ∧ isPlain "UBL 2.1" ∧ isPlain "UTF-8" ∧
    isPlain "\n" ∧ isPlain "\n    " ∧ isPlain "\n        " ∧ isPlain "\n            " ∧
    isPlain "\n                " ∧ isPlain "\n                    " ∧ isPlain "\n    \n" ∧
    isPlain "\n    \n    " ∧ isPlain "text/xml" ∧ (PartLeaf.comment PLACEHOLDER).sound := by
  decide +kernel

/-- The values of the attributes have no quotation marks. -/
theorem values_quoted :
    "195".toList.all (· ≠ '"') ∧
    "CO, DIAN (Dirección de Impuestos y Aduanas Nacionales)".toList.all (· ≠ '"') ∧
    "COP".toList.all (· ≠ '"') ∧ "CUFE-SHA384".toList.all (· ≠ '"') := by
  decide +kernel

theorem extensions_sound : extensions.sound = true := by
  simp only [extensions, sound_element, sound_onLines, sound_comment, sound_text,
    Markup.sound_append, List.all_cons, List.all_nil, names_sound, texts_plain, Bool.and_self]

theorem head_sound (doc : CommercialDocument) : (head doc).sound = true := by
  simp only [head, sound_constant, sound_field, sound_valAttr, sound_onLines, Markup.sound_append,
    List.all_cons, List.all_nil, names_sound, texts_plain, Bool.and_self]

theorem companyId_sound (p : PartyData) : (companyId p).sound = true := by
  rw [companyId, sound_field, List.all_append, List.all_append]
  split
  · simp only [List.all_cons, List.all_nil, sound_litAttr, sound_valAttr, names_sound,
      texts_plain, values_quoted, Bool.and_self]
  · simp only [List.all_cons, List.all_nil, sound_litAttr, sound_valAttr, names_sound,
      texts_plain, values_quoted, Bool.and_self]

theorem partyTaxScheme_sound (p : PartyData) : (partyTaxScheme p).sound = true := by
  simp only [partyTaxScheme, sound_element, sound_constant, sound_field, sound_text,
    sound_onLines, Markup.sound_append, companyId_sound, List.all_cons, List.all_nil, names_sound,
    texts_plain, Bool.and_self]

section Parties

variable {tag : String} (htag : isQName tag.toList = true)

include htag

theorem tradeParty_sound (p : PartyData) : (tradeParty tag p).sound = true := by
  simp only [tradeParty, sound_element, htag, sound_field, sound_text, sound_onLines,
    Markup.sound_append, partyTaxScheme_sound, List.all_cons, List.all_nil, names_sound,
    texts_plain, Bool.and_self]

theorem plainParty_sound (p : PartyData) : (plainParty tag p).sound = true := by
  simp only [plainParty, sound_element, htag, sound_text, Markup.sound_append,
    partyTaxScheme_sound, List.all_nil, texts_plain, Bool.and_self]

theorem monetaryTotal_sound (doc : CommercialDocument) : (monetaryTotal tag doc).sound = true := by
  simp only [monetaryTotal, sound_element, htag, sound_field, currency, sound_litAttr, sound_text,
    sound_onLines, Markup.sound_append, List.all_cons, List.all_nil, names_sound, texts_plain,
    values_quoted, Bool.and_self]

end Parties

theorem taxCategory_sound (percent : String) : (taxCategory percent).sound = true := by
  simp only [taxCategory, sound_element, sound_constant, sound_field, Markup.sound_append,
    List.all_nil, names_sound, texts_plain, Bool.and_self]

theorem taxSubtotal_sound (s : TaxSubtotalData) : (taxSubtotal s).sound = true := by
  simp only [taxSubtotal, sound_element, sound_field, currency, sound_litAttr, sound_text,
    sound_onLines, Markup.sound_append, taxCategory_sound, List.all_cons, List.all_nil, names_sound,
    texts_plain, values_quoted, Bool.and_self]

/-- Elements of any number. -/
theorem sound_onLines_map {α : Type} {indent : String} (hindent : isPlain indent = true)
    {f : α → Markup} (hf : ∀ a, (f a).sound = true) (as : List α) :
    (onLines indent (as.map f)).sound = true := by
  rw [sound_onLines, List.all_map, List.all_eq_true]
  intro a _
  rw [Function.comp, hindent, hf]
  rfl

theorem taxTotal_sound (doc : CommercialDocument) : (taxTotal doc).sound = true := by
  have hindent : isPlain "\n        " = true := by decide
  have hsubtotals := sound_onLines_map hindent taxSubtotal_sound doc.tax_subtotals
  simp only [taxTotal, sound_element, sound_field, currency, sound_litAttr, sound_text,
    Markup.sound_append, hsubtotals, sound_onLines, List.all_cons, List.all_nil, names_sound,
    texts_plain, values_quoted, Bool.and_self]

theorem line_sound {tag quantity_tag : String} (htag : isQName tag.toList = true)
    (hquantity : isQName quantity_tag.toList = true) (l : LineData) :
    (line tag quantity_tag l).sound = true := by
  simp only [line, sound_element, htag, sound_field, hquantity, currency, sound_litAttr,
    sound_valAttr, sound_text, Markup.sound_append, sound_onLines, taxCategory_sound, List.all_cons,
    List.all_nil, names_sound, texts_plain, values_quoted, Bool.and_self]

theorem lines_sound {tag quantity_tag : String} (htag : isQName tag.toList = true)
    (hquantity : isQName quantity_tag.toList = true) (doc : CommercialDocument) :
    (lines tag quantity_tag doc).sound = true :=
  sound_onLines_map (by decide) (line_sound htag hquantity) doc.lines

theorem noteReferences_sound (doc : CommercialDocument) : (noteReferences doc).sound = true := by
  simp only [noteReferences, sound_element, sound_field, sound_litAttr, sound_text,
    Markup.sound_append, sound_onLines, List.all_cons, List.all_nil, names_sound, texts_plain,
    values_quoted, Bool.and_self]

theorem attachment_sound {outer middle inner : String} (houter : isPlain outer = true)
    (hmiddle : isPlain middle = true) (hinner : isPlain inner = true) (xml : String) :
    (attachment outer middle inner xml).sound = true := by
  simp only [attachment, sound_element, sound_constant, sound_field, sound_text,
    Markup.sound_append, sound_onLines, houter, hmiddle, hinner, List.all_cons, List.all_nil,
    names_sound, texts_plain, Bool.and_self]

theorem parties_sound (doc : CommercialDocument) : (parties doc).all Markup.sound = true :=
  List.all_eq_true.mpr (List.forall_mem_cons.mpr ⟨tradeParty_sound (by decide) _,
    List.forall_mem_singleton.mpr (tradeParty_sound (by decide) _)⟩)

theorem sound_document {t : PartTag} (ht : t.sound = true) {content : Markup}
    (h : content.sound = true) : (Markup.document DECLARATION t content).sound = true := by
  have hdeclaration : (PartLeaf.decl DECLARATION).sound = true := by
    rw [DECLARATION, PartLeaf.sound, String.toList_ofList]
    decide +kernel
  have hnewline : (PartLeaf.text [.lit "\n"]).sound = true := by decide
  simp only [Markup.document, Markup.sound, hdeclaration, hnewline, ht, h, Bool.and_self]

theorem quoted_ofList (cs : Text) :
    (isPlain (String.ofList cs) && (String.ofList cs).toList.all (· ≠ '"')) =
      cs.all fun c => isXmlChar c && c ≠ '<' && c ≠ '>' && c ≠ '&' && c ≠ '"' := by
  rw [isPlain, String.toList_ofList, Bool.eq_iff_iff]
  simp only [Bool.and_eq_true, List.all_eq_true, forall₂_and]

theorem root_sound {name indent : String} (hname : isQName name.toList = true)
    (hquoted : (Part.lit name).quoted = true) (hsome : indent ≠ "")
    (hindent : indent.toList.all isSpace = true) : (root name indent).sound = true := by
  have hmk : ∀ space key value, PartAttribute.sound ⟨space, key, value⟩ = (decide (space ≠ "") &&
      space.toList.all isSpace && isQName key.toList && value.all Part.quoted) :=
    fun _ _ _ => rfl
  simp only [root, PartTag.sound, hmk, List.all_cons, List.all_nil, hname, hquoted,
    decide_eq_true hsome, hindent]
  simp only [Part.quoted]
  -- the texts are brought to characters before they are evaluated
  repeat rw [quoted_ofList]
  decide +kernel

theorem invoice_sound (doc : CommercialDocument) : (invoice doc).sound = true := by
  have hlines : (lines "cac:InvoiceLine" "cbc:InvoicedQuantity" doc).sound = true :=
    lines_sound (by decide) (by decide) doc
  have htotal : (monetaryTotal "cac:LegalMonetaryTotal" doc).sound = true :=
    monetaryTotal_sound (by decide) doc
  refine sound_document (root_sound (by decide) (by decide) (by decide) (by decide)) ?_
  simp only [Markup.sound_append, sound_onLines, List.all_append, List.all_cons, List.all_nil,
    extensions_sound, head_sound, sound_field, sound_constant, sound_text, parties_sound, taxTotal_sound,
    htotal, hlines, names_sound, texts_plain, Bool.true_and]

theorem creditNote_sound (doc : CommercialDocument) : (creditNote doc).sound = true := by
  have hlines : (lines "cac:CreditNoteLine" "cbc:CreditedQuantity" doc).sound = true :=
    lines_sound (by decide) (by decide) doc
  have htotal : (monetaryTotal "cac:LegalMonetaryTotal" doc).sound = true :=
    monetaryTotal_sound (by decide) doc
  refine sound_document (root_sound (by decide) (by decide) (by decide) (by decide)) ?_
  simp only [Markup.sound_append, sound_onLines, List.all_append, List.all_cons, List.all_nil,
    extensions_sound, head_sound, sound_field, sound_constant, sound_text, noteReferences_sound,
    parties_sound, taxTotal_sound, htotal, hlines, names_sound, texts_plain, Bool.true_and]

theorem debitNote_sound (doc : CommercialDocument) : (debitNote doc).sound = true := by
  have hlines : (lines "cac:DebitNoteLine" "cbc:DebitedQuantity" doc).sound = true :=
    lines_sound (by decide) (by decide) doc
  have htotal : (monetaryTotal "cac:RequestedMonetaryTotal" doc).sound = true :=
    monetaryTotal_sound (by decide) doc
  refine sound_document (root_sound (by decide) (by decide) (by decide) (by decide)) ?_
  simp only [Markup.sound_append, sound_onLines, List.all_append, List.all_cons, List.all_nil,
    extensions_sound, head_sound, sound_field, sound_constant, sound_text, noteReferences_sound,
    parties_sound, taxTotal_sound, htotal, hlines, names_sound, texts_plain, Bool.true_and]

theorem attachedDocument_sound (c : AttachedDocument) : (attachedDocument c).sound = true := by
  have hsender : (plainParty "cac:SenderParty" c.sender).sound = true :=
    plainParty_sound (by decide) c.sender
  have hreceiver : (plainParty "cac:ReceiverParty" c.receiver).sound = true :=
    plainParty_sound (by decide) c.receiver
  have hinvoice : (attachment "\n    " "\n        " "\n            "
      c.signed_invoice_xml).sound = true := attachment_sound (by decide) (by decide) (by decide) _
  have hresponse : (attachment "\n            " "\n                " "\n                    "
      c.dian_response_xml).sound = true := attachment_sound (by decide) (by decide) (by decide) _
  refine sound_document (root_sound (by decide) (by decide) (by decide) (by decide)) ?_
  simp only [Markup.sound_append, sound_onLines, List.all_cons, List.all_nil, extensions_sound,
    sound_element, sound_field, sound_constant, sound_litAttr, sound_text, hsender, hreceiver,
    hinvoice, hresponse, names_sound, texts_plain, values_quoted, Bool.and_self]

theorem applicationResponse_sound (c : ApplicationResponse) :
    (applicationResponse c).sound = true := by
  have hsender : (plainParty "cac:SenderParty" c.sender).sound = true :=
    plainParty_sound (by decide) c.sender
  have hreceiver : (plainParty "cac:ReceiverParty" c.receiver).sound = true :=
    plainParty_sound (by decide) c.receiver
  have hnames : isQName "cac:DocumentResponse".toList ∧ isQName "cac:Response".toList := by decide
  have hscheme : isPlain "CUDE-SHA384" ∧ "CUDE-SHA384".toList.all (· ≠ '"') := by decide
  refine sound_document (root_sound (by decide) (by decide) (by decide) (by decide)) ?_
  simp only [Markup.sound_append, sound_onLines, List.all_cons, List.all_nil, extensions_sound,
    sound_element, sound_field, sound_constant, sound_litAttr, sound_valAttr, sound_text, hsender,
    hreceiver, hnames, hscheme, names_sound, texts_plain, values_quoted, Bool.and_self]

end DianService.Ubl.Templates
