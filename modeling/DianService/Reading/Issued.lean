import DianService.Application.Inbound
import DianService.Reading.Printed
import DianService.Ubl.Subtotals

/-
  Reading: what this service issues, as its inbound side reads it. The container keeps the two
  documents in it apart by their paths, and escapes are undone by `XmlDoc::text`, so both come out
  as they went in, but for white space at their ends.
-/

namespace DianService

open Lib Lib.Checked Lib.Xml Ubl

/-- A value on its own. -/
theorem text_value (s : String) : Markup.text (.leaf (.text [.val s]) .nil) = s.toList := by
  simp [Markup.text, Part.text]

/-- What `XmlDoc` returns of a document whose template has a value at the path. -/
theorem text_of_value {doc : XmlDoc} {m : Markup} {path : List String} {s : String}
    (h : doc.text path = (printedAt path m).map fun k => String.ofList (trimChars k.text))
    (hat : printedAt path m = some (.leaf (.text [.val s]) .nil)) :
    doc.text path = some (trim s) := by
  rw [h, hat, Option.map_some, text_value]
  rfl

/-! ## The container -/

/-- Starts and ends with a tag. -/
def Tagged (s : String) : Prop := s.toList.head? = some '<' ∧ s.toList.getLast? = some '>'

theorem trim_of_tagged {s : String} (h : Tagged s) : trim s = s := by
  obtain ⟨hfirst, hlast⟩ := h
  obtain ⟨cs, hcs⟩ := List.head?_eq_some_iff.mp hfirst
  obtain ⟨ds, hds⟩ := List.getLast?_eq_some_iff.mp hlast
  have hleft : s.toList.dropWhile isWhitespace = s.toList := by
    rw [hcs]
    rfl
  have hright : s.toList.reverse.dropWhile isWhitespace = s.toList.reverse := by
    rw [hds, List.reverse_append]
    rfl
  rw [trim, trimChars, hleft, hright, List.reverse_reverse, String.ofList_toList]

theorem container_texts {q : QuickXml} (hq : q.Tokenizes) (c : Templates.AttachedDocument) :
    ∃ doc, XmlDoc.ofText q (String.ofList (Templates.attachedDocument c).print) = .ok doc ∧
      doc.root = "AttachedDocument" ∧
      doc.text InboundService.ATTACHED_INVOICE = some (trim c.signed_invoice_xml) ∧
      doc.text InboundService.ATTACHED_RESPONSE = some (trim c.dian_response_xml) ∧
      doc.text InboundService.PARENT_DOCUMENT_ID = some (trim c.parent_document_id) := by
  obtain ⟨doc, hdoc, hroot, htext⟩ := printed_read hq (Templates.attachedDocument_sound c)
  exact ⟨doc, hdoc, hroot, text_of_value (htext _ (List.cons_ne_nil _ _)) rfl,
    text_of_value (htext _ (List.cons_ne_nil _ _)) rfl,
    text_of_value (htext _ (List.cons_ne_nil _ _)) rfl⟩

/-- The container is lossless: its two documents and the number of the invoice are read back, but
    for white space at their ends, which documents that start and end with a tag do not have. -/
theorem attached_read {q : QuickXml} (hq : q.Tokenizes) (p : Ubl.InvoicePayload)
    (unique_id issue_date issue_time cufe signed_invoice_xml dian_response_xml : String) :
    ∃ xml doc, generateAttachedDocumentXml p unique_id issue_date issue_time cufe
        signed_invoice_xml dian_response_xml = .ok xml ∧
      XmlDoc.ofText q xml = .ok doc ∧ doc.root = "AttachedDocument" ∧
      doc.text InboundService.ATTACHED_INVOICE = some (trim signed_invoice_xml) ∧
      doc.text InboundService.ATTACHED_RESPONSE = some (trim dian_response_xml) ∧
      doc.text InboundService.PARENT_DOCUMENT_ID = some (trim (p.pfx ++ toString p.number)) ∧
      (Tagged signed_invoice_xml →
        doc.text InboundService.ATTACHED_INVOICE = some signed_invoice_xml) ∧
      (Tagged dian_response_xml →
        doc.text InboundService.ATTACHED_RESPONSE = some dian_response_xml) := by
  obtain ⟨doc, hdoc, hroot, hinvoice, hresponse, hparent⟩ := container_texts hq
    (attachedContext p unique_id issue_date issue_time cufe signed_invoice_xml dian_response_xml)
  refine ⟨_, doc, rfl, hdoc, hroot, hinvoice, hresponse, hparent, fun htagged => ?_,
    fun htagged => ?_⟩
  · exact hinvoice.trans (congrArg some (trim_of_tagged htagged))
  · exact hresponse.trans (congrArg some (trim_of_tagged htagged))

/-- An invoice and a response with markup in them. -/
theorem container_read : ∃ xml doc,
    generateAttachedDocumentXml plainInvoice "A1" "2026-05-23" "11:00:00-05:00" "c"
      "<Invoice>a &amp; b</Invoice>" "<R/>" = .ok xml ∧ XmlDoc.ofText textReader xml = .ok doc ∧
    doc.text InboundService.ATTACHED_INVOICE = some "<Invoice>a &amp; b</Invoice>" := by
  obtain ⟨xml, doc, hxml, hdoc, -, -, -, -, htagged, -⟩ := attached_read
    textReader_tokenizes plainInvoice "A1" "2026-05-23" "11:00:00-05:00" "c"
    "<Invoice>a &amp; b</Invoice>" "<R/>"
  exact ⟨xml, doc, hxml, hdoc, htagged ⟨by decide, by decide⟩⟩

/-- White space at the start of a prefix is not read back. -/
theorem spaced_prefix_read : ∃ (p : Ubl.InvoicePayload) (xml : String) (doc : XmlDoc),
    generateAttachedDocumentXml p "A1" "2026-05-23" "11:00:00-05:00" "c" "<I/>" "<R/>" =
      .ok xml ∧ XmlDoc.ofText textReader xml = .ok doc ∧
    doc.text InboundService.PARENT_DOCUMENT_ID ≠ some (p.pfx ++ toString p.number) := by
  obtain ⟨doc, hdoc, -, -, -, hparent⟩ := container_texts textReader_tokenizes
    (attachedContext { plainInvoice with pfx := " A", number := 1 } "A1" "2026-05-23"
      "11:00:00-05:00" "c" "<I/>" "<R/>")
  refine ⟨_, _, doc, rfl, hdoc, ?_⟩
  rw [hparent]
  decide

/-! ## Paths in the templates -/

/-- What follows the colon of a name. -/
def colonLocal (name : String) : String := String.ofList (afterLastColon name.toList)

section Paths

variable (n : String) (path : List String)

theorem printedAt_append (m m' : Markup) :
    printedAt (n :: path) (m ++ m') = (printedAt (n :: path) m).or (printedAt (n :: path) m') := by
  show printedAt (n :: path) (Forest.append m m') = _
  induction m with
  | nil => rfl
  | leaf l rest ih => exact ih
  | empty t rest ih =>
    rw [Forest.append, printedAt, printedAt, ih]
    split <;> rfl
  | node t kids rest _ ih =>
    rw [Forest.append, printedAt, printedAt, ih]
    split
    · split
      · rfl
      · rw [Option.or_assoc]
    · rfl

theorem printedAt_text (s : String) : printedAt (n :: path) (Templates.text s) = none := rfl

theorem printedAt_onLines (indent : String) (ms : List Markup) :
    printedAt (n :: path) (Templates.onLines indent ms) =
      ms.findSome? (printedAt (n :: path)) := by
  induction ms with
  | nil => rfl
  | cons m ms ih =>
    rw [Templates.onLines, printedAt_append, printedAt_append, printedAt_text, ih,
      List.findSome?_cons]
    cases printedAt (n :: path) m <;> rfl

theorem printedAt_element (name : String) (attributes : List PartAttribute) (content : Markup) :
    printedAt (n :: path) (Templates.element name attributes content) =
      if n = colonLocal name then (if path = [] then some content else printedAt path content)
      else none := by
  show (if n = colonLocal name then _ else _) = _
  rw [printedAt, Option.or_none]

theorem printedAt_field (name value : String) (attributes : List PartAttribute) :
    printedAt (n :: path) (Templates.field name value attributes) =
      if n = colonLocal name ∧ path = [] then some (.leaf (.text [.val value]) .nil) else none := by
  rw [Templates.field, printedAt_element]
  by_cases hn : n = colonLocal name
  · by_cases hpath : path = []
    · rw [if_pos hn, if_pos hpath, if_pos ⟨hn, hpath⟩]
    · rw [if_pos hn, if_neg hpath, if_neg fun h => hpath h.2]
      cases path with
      | nil => exact absurd rfl hpath
      | cons => rfl
  · rw [if_neg hn, if_neg fun h => hn h.1]

end Paths

/-! ## Invoices -/

/-- The names of `invoice.xml` that stand on or beside its paths. -/
theorem invoice_names :
    colonLocal "Invoice" = "Invoice" ∧ colonLocal "ext:UBLExtensions" = "UBLExtensions" ∧
    colonLocal "cbc:UBLVersionID" = "UBLVersionID" ∧
    colonLocal "cbc:CustomizationID" = "CustomizationID" ∧
    colonLocal "cbc:ProfileID" = "ProfileID" ∧
    colonLocal "cbc:ProfileExecutionID" = "ProfileExecutionID" ∧
    colonLocal "cbc:ID" = "ID" ∧ colonLocal "cbc:UUID" = "UUID" ∧
    colonLocal "cbc:IssueDate" = "IssueDate" ∧ colonLocal "cbc:IssueTime" = "IssueTime" ∧
    colonLocal "cbc:InvoiceTypeCode" = "InvoiceTypeCode" ∧
    colonLocal "cbc:DocumentCurrencyCode" = "DocumentCurrencyCode" ∧
    colonLocal "cbc:LineCountNumeric" = "LineCountNumeric" ∧
    colonLocal "cac:AccountingSupplierParty" = "AccountingSupplierParty" ∧
    colonLocal "cac:AccountingCustomerParty" = "AccountingCustomerParty" ∧
    colonLocal "cbc:AdditionalAccountID" = "AdditionalAccountID" ∧
    colonLocal "cac:Party" = "Party" ∧ colonLocal "cac:PartyName" = "PartyName" ∧
    colonLocal "cac:PartyTaxScheme" = "PartyTaxScheme" ∧
    colonLocal "cbc:RegistrationName" = "RegistrationName" ∧
    colonLocal "cbc:CompanyID" = "CompanyID" ∧ colonLocal "cac:TaxTotal" = "TaxTotal" ∧
    colonLocal "cac:LegalMonetaryTotal" = "LegalMonetaryTotal" ∧
    colonLocal "cbc:LineExtensionAmount" = "LineExtensionAmount" ∧
    colonLocal "cbc:TaxExclusiveAmount" = "TaxExclusiveAmount" ∧
    colonLocal "cbc:TaxInclusiveAmount" = "TaxInclusiveAmount" ∧
    colonLocal "cbc:PayableAmount" = "PayableAmount" := by
  decide +kernel

/-- A value as the content of its element. -/
abbrev printedValue (s : String) : Markup := .leaf (.text [.val s]) .nil

theorem printedAt_document (n declaration : String) (path : List String) (root : PartTag)
    (content : Markup) :
    printedAt (partName root :: n :: path) (Markup.document declaration root content) =
      printedAt (n :: path) content := by
  show printedAt _ (.node root content .nil) = _
  rw [printedAt, if_pos rfl, if_neg (List.cons_ne_nil _ _)]
  exact Option.or_none

theorem printedAt_head (d : CommercialDocument) :
    printedAt ["ID"] (Templates.head d) = some (printedValue d.id) ∧
    printedAt ["UUID"] (Templates.head d) = some (printedValue d.uuid) ∧
    printedAt ["IssueDate"] (Templates.head d) = some (printedValue d.issue_date) := by
  simp [Templates.head, Templates.constant, printedAt_append, printedAt_onLines, printedAt_element,
    printedAt_field, invoice_names]

theorem printedAt_partyTaxScheme (p : PartyData) :
    printedAt ["PartyTaxScheme", "CompanyID"] (Templates.partyTaxScheme p) =
      some (printedValue p.id) ∧
    printedAt ["PartyTaxScheme", "RegistrationName"] (Templates.partyTaxScheme p) =
      some (printedValue p.name) := by
  simp [Templates.partyTaxScheme, Templates.companyId, printedAt_append, printedAt_onLines,
    printedAt_text, printedAt_element, printedAt_field, invoice_names]

theorem printedAt_tradeParty (tag n : String) (p : PartyData) :
    printedAt [colonLocal tag, "Party", "PartyTaxScheme", n] (Templates.tradeParty tag p) =
      printedAt ["PartyTaxScheme", n] (Templates.partyTaxScheme p) := by
  simp [Templates.tradeParty, printedAt_append, printedAt_onLines, printedAt_text,
    printedAt_element, printedAt_field, invoice_names]

theorem printedAt_monetaryTotal (tag : String) (d : CommercialDocument) :
    printedAt [colonLocal tag, "PayableAmount"] (Templates.monetaryTotal tag d) =
      some (printedValue d.total) := by
  simp [Templates.monetaryTotal, printedAt_append, printedAt_onLines, printedAt_text,
    printedAt_element, printedAt_field, invoice_names]

/-- The elements of an invoice that none of its paths leads into. -/
def besidePaths : List String :=
  ["ext:UBLExtensions", "cbc:InvoiceTypeCode", "cbc:DocumentCurrencyCode", "cbc:LineCountNumeric",
    "cac:TaxTotal"]

theorem printedAt_invoice (d : CommercialDocument) {n : String} (path : List String)
    (h : ∀ name ∈ besidePaths, n ≠ colonLocal name) :
    printedAt ("Invoice" :: n :: path) (Templates.invoice d) =
      (printedAt (n :: path) (Templates.head d)).or
        (((Templates.parties d).findSome? (printedAt (n :: path))).or
          ((printedAt (n :: path) (Templates.monetaryTotal "cac:LegalMonetaryTotal" d)).or
            (printedAt (n :: path)
              (Templates.lines "cac:InvoiceLine" "cbc:InvoicedQuantity" d)))) := by
  have hroot : partName (Templates.root "Invoice" "\n         ") = "Invoice" := invoice_names.1
  have hcontent := printedAt_document n Templates.DECLARATION path
    (Templates.root "Invoice" "\n         ")
  rw [hroot] at hcontent
  rw [besidePaths] at h
  rw [Templates.invoice, hcontent]
  simp [printedAt_append, printedAt_onLines, printedAt_text, printedAt_element, printedAt_field,
    Templates.extensions, Templates.constant, Templates.taxTotal, h, List.findSome?_append,
    Option.or_assoc]

theorem beside_paths {n : String} (h : n ∈ ["ID", "UUID", "IssueDate", "AccountingSupplierParty",
    "AccountingCustomerParty", "LegalMonetaryTotal"]) :
    ∀ name ∈ besidePaths, n ≠ colonLocal name := by
  revert n
  simp [besidePaths, invoice_names]

/-- The paths of an invoice lead to the values of the document. -/
structure InvoiceValues (m : Markup) (d : CommercialDocument) : Prop where
  id : printedAt ["Invoice", "ID"] m = some (printedValue d.id)
  uuid : printedAt ["Invoice", "UUID"] m = some (printedValue d.uuid)
  issue_date : printedAt ["Invoice", "IssueDate"] m = some (printedValue d.issue_date)
  supplier : ∀ n k, printedAt ["PartyTaxScheme", n] (Templates.partyTaxScheme d.supplier) = some k →
    printedAt (InboundService.SUPPLIER ++ [n]) m = some k
  customer : ∀ n k, printedAt ["PartyTaxScheme", n] (Templates.partyTaxScheme d.customer) = some k →
    printedAt (InboundService.CUSTOMER ++ [n]) m = some k
  payable_amount : printedAt InboundService.PAYABLE_AMOUNT m = some (printedValue d.total)

/-- What comes before a path's element does not have its name. -/
theorem printedAt_head_none (d : CommercialDocument) {n : String} (path : List String)
    (h : n ∈ ["AccountingSupplierParty", "AccountingCustomerParty", "LegalMonetaryTotal"]) :
    printedAt (n :: path) (Templates.head d) = none := by
  have hne : ∀ name ∈ ["cbc:UBLVersionID", "cbc:CustomizationID", "cbc:ProfileID",
      "cbc:ProfileExecutionID", "cbc:ID", "cbc:UUID", "cbc:IssueDate", "cbc:IssueTime"],
      n ≠ colonLocal name := by
    revert n
    simp [invoice_names]
  simp [Templates.head, Templates.constant, printedAt_append, printedAt_onLines, printedAt_element,
    printedAt_field, hne]

theorem printedAt_tradeParty_none {n tag : String} (h : n ≠ colonLocal tag) (path : List String)
    (p : PartyData) : printedAt (n :: path) (Templates.tradeParty tag p) = none := by
  rw [Templates.tradeParty, printedAt_element, if_neg h]

theorem invoiceValues (d : CommercialDocument) : InvoiceValues (Templates.invoice d) d := by
  obtain ⟨hid, huuid, hdate⟩ := printedAt_head d
  have hhead {n : String} := printedAt_head_none d (n := n)
  have hsupplier := printedAt_tradeParty "cac:AccountingSupplierParty"
  have hcustomer := printedAt_tradeParty "cac:AccountingCustomerParty"
  have htotal := printedAt_monetaryTotal "cac:LegalMonetaryTotal" d
  simp only [invoice_names] at hsupplier hcustomer htotal
  constructor
  · rw [printedAt_invoice d _ (beside_paths (by decide)), hid, Option.some_or]
  · rw [printedAt_invoice d _ (beside_paths (by decide)), huuid, Option.some_or]
  · rw [printedAt_invoice d _ (beside_paths (by decide)), hdate, Option.some_or]
  · intro n k hk
    show printedAt ["Invoice", "AccountingSupplierParty", "Party", "PartyTaxScheme", n] _ = _
    rw [printedAt_invoice d _ (beside_paths (by decide)), hhead _ (by decide), Templates.parties,
      List.findSome?_cons, hsupplier, hk]
    rfl
  · intro n k hk
    show printedAt ["Invoice", "AccountingCustomerParty", "Party", "PartyTaxScheme", n] _ = _
    rw [printedAt_invoice d _ (beside_paths (by decide)), hhead _ (by decide), Templates.parties,
      List.findSome?_cons, printedAt_tradeParty_none (by simp [invoice_names]), List.findSome?_cons,
      hcustomer, hk]
    rfl
  · show printedAt ["Invoice", "LegalMonetaryTotal", "PayableAmount"] _ = _
    rw [printedAt_invoice d _ (beside_paths (by decide)), hhead _ (by decide), Templates.parties,
      List.findSome?_cons, printedAt_tradeParty_none (by simp [invoice_names]), List.findSome?_cons,
      printedAt_tradeParty_none (by simp [invoice_names]), htotal]
    rfl

/-- `XmlDoc` reads an invoice, and the values at its paths. -/
theorem invoice_texts {q : QuickXml} (hq : q.Tokenizes) (d : CommercialDocument) :
    ∃ doc, XmlDoc.ofText q (String.ofList (Templates.invoice d).print) = .ok doc ∧
      doc.root = "Invoice" ∧
      doc.text ["Invoice", "ID"] = some (trim d.id) ∧
      doc.text ["Invoice", "UUID"] = some (trim d.uuid) ∧
      doc.text ["Invoice", "IssueDate"] = some (trim d.issue_date) ∧
      doc.text (InboundService.SUPPLIER ++ ["CompanyID"]) = some (trim d.supplier.id) ∧
      doc.text (InboundService.SUPPLIER ++ ["RegistrationName"]) = some (trim d.supplier.name) ∧
      doc.text (InboundService.CUSTOMER ++ ["CompanyID"]) = some (trim d.customer.id) ∧
      doc.text (InboundService.CUSTOMER ++ ["RegistrationName"]) = some (trim d.customer.name) ∧
      doc.text InboundService.PAYABLE_AMOUNT = some (trim d.total) := by
  obtain ⟨doc, hdoc, hroot, htext⟩ := printed_read hq (Templates.invoice_sound d)
  have hvalues := invoiceValues d
  have hsupplier := printedAt_partyTaxScheme d.supplier
  have hcustomer := printedAt_partyTaxScheme d.customer
  have hread {path : List String} {s : String} (hne : path ≠ [])
      (hat : printedAt path (Templates.invoice d) = some (printedValue s)) :
      doc.text path = some (trim s) := text_of_value (htext path hne) hat
  refine ⟨doc, hdoc, hroot.trans invoice_names.1, hread (by decide) hvalues.id,
    hread (by decide) hvalues.uuid, hread (by decide) hvalues.issue_date,
    hread (by decide) (hvalues.supplier _ _ hsupplier.1),
    hread (by decide) (hvalues.supplier _ _ hsupplier.2),
    hread (by decide) (hvalues.customer _ _ hcustomer.1),
    hread (by decide) (hvalues.customer _ _ hcustomer.2),
    hread (by decide) hvalues.payable_amount⟩

theorem isHexDigit_of_isDigit {c : Char} (h : c.isDigit = true) : isHexDigit c = true := by
  simp only [Char.isDigit, Bool.and_eq_true, decide_eq_true_eq, UInt32.le_iff_toNat_le] at h
  have hrange : 0x30 ≤ c.toNat ∧ c.toNat ≤ 0x39 := h
  rw [isHexDigit, decide_eq_true hrange.1, decide_eq_true hrange.2]
  rfl

/-- An amount is written without white space. -/
theorem trim_formatAmount (d : Decimal) : trim (formatAmount d) = formatAmount d := by
  refine trim_of_no_whitespace fun c hc => ?_
  have hdigit (h : c.isDigit = true) : isWhitespace c = false :=
    isWhitespace_of_isHexDigit (isHexDigit_of_isDigit h)
  have hdigits : ∀ n, c ∈ positionalDigits MAX_SCALE n → isWhitespace c = false := by
    intro n hmem
    rw [positionalDigits, if_neg (by decide)] at hmem
    obtain hwhole | hfraction := List.mem_append.mp hmem
    · exact hdigit (Nat.isDigit_of_mem_toDigits (by decide) (by decide) hwhole)
    · obtain rfl | hpadded := List.mem_cons.mp hfraction
      · rfl
      · exact hdigit (isDigit_of_mem_padded hpadded)
  rw [formatAmount, Decimal.toFixed, positional, String.toList_ofList] at hc
  split at hc
  · obtain rfl | hpositive := List.mem_cons.mp hc
    · rfl
    · exact hdigits _ hpositive
  · exact hdigits _ hc

section Generated

variable {A : Arithmetic} {p : Ubl.InvoicePayload}

/-- An accepted invoice is rendered from the document of its payload. -/
theorem generate_of_accepted (k : Codes) (technical_key : String)
    (htype : p.document_type = "invoice") (h : Returns (p.validate A) ()) :
    ∃ d total, amount "total_amount" p.total_amount = .ok total ∧
      d.Of (p.input ⟨"invoice.xml", "10", "01", "CUFE-SHA384"⟩ (p.code k technical_key)) total ∧
      Returns (generateInvoiceXml A k p technical_key)
        (String.ofList (Templates.invoice d).print, p.code k technical_key) := by
  obtain ⟨type, net, tax, total, computed, hdocument, haccepted⟩ := p.accepted h
  rw [Ubl.InvoicePayload.documentType, if_pos htype] at hdocument
  cases hdocument
  obtain ⟨d, hd, hof⟩ := commercialDocument_of_accepted (haccepted (p.code k technical_key))
  refine ⟨d, total, (haccepted "").total, hof, ?_⟩
  simp only [generateInvoiceXml, returns_bind, returns_except, returns_pure]
  refine ⟨(), h, _, ?_, d, hd, _, rfl, rfl⟩
  rw [Ubl.InvoicePayload.documentType, if_pos htype]

end Generated

/-- An invoice is read back by the inbound side as it was issued: what `register_verified` reads
    are the values of the payload and the code, but for white space at their ends. -/
theorem invoice_read {q : QuickXml} (hq : q.Tokenizes) {A : Arithmetic} (k : Codes)
    {p : Ubl.InvoicePayload} (technical_key : String) (htype : p.document_type = "invoice")
    (h : Returns (p.validate A) ()) :
    ∃ xml cufe total doc, Returns (generateInvoiceXml A k p technical_key) (xml, cufe) ∧
      amount "total_amount" p.total_amount = .ok total ∧
      XmlDoc.ofText q xml = .ok doc ∧ doc.root = "Invoice" ∧
      doc.text ["Invoice", "ID"] = some (trim (p.pfx ++ toString p.number)) ∧
      doc.text ["Invoice", "UUID"] = some (trim cufe) ∧
      doc.text ["Invoice", "IssueDate"] = some (trim p.issue_date) ∧
      doc.text (InboundService.SUPPLIER ++ ["CompanyID"]) = some (trim p.company_nit) ∧
      doc.text (InboundService.SUPPLIER ++ ["RegistrationName"]) = some (trim p.company_name) ∧
      doc.text (InboundService.CUSTOMER ++ ["CompanyID"]) = some (trim p.customer_id) ∧
      doc.text (InboundService.CUSTOMER ++ ["RegistrationName"]) = some (trim p.customer_name) ∧
      doc.text InboundService.PAYABLE_AMOUNT = some (formatAmount total) ∧
      Shows (formatAmount total) 2 total.value := by
  obtain ⟨d, total, htotal, hof, hreturns⟩ := generate_of_accepted k technical_key htype h
  obtain ⟨doc, hdoc, hroot, hid, huuid, hdate, hnit, hname, hcustomer, hcustomer_name, hpayable⟩ :=
    invoice_texts hq d
  rw [hof.id] at hid
  rw [hof.uuid] at huuid
  rw [hof.issue_date] at hdate
  rw [hof.supplier] at hnit hname
  rw [hof.customer] at hcustomer hcustomer_name
  rw [hof.total, trim_formatAmount] at hpayable
  exact ⟨_, _, total, doc, hreturns, htotal, hdoc, hroot, hid, huuid, hdate, hnit, hname,
    hcustomer, hcustomer_name, hpayable, shows_formatAmount (toAmount_ok (amount_ok.mp htotal)).2⟩

/-- An invoice with characters that are escaped. -/
def escapedInvoice : Ubl.InvoicePayload := { plainInvoice with company_name := " A & <B> " }

def plainCodes : Codes where
  sha384 text := text
  fixed _ := ""

theorem escaped_invoice_read : ∃ xml cufe doc,
    Returns (generateInvoiceXml halfEven plainCodes escapedInvoice "key") (xml, cufe) ∧
    XmlDoc.ofText textReader xml = .ok doc ∧
    doc.text ["Invoice", "ID"] = some "FE1002" ∧
    doc.text (InboundService.SUPPLIER ++ ["RegistrationName"]) = some "A & <B>" := by
  have haccepted : Returns (escapedInvoice.validate halfEven) () :=
    plainAmounts_accepted halfEven rfl (by decide +kernel) hugeInvoice_checks.2.1
      hugeInvoice_checks.2.2 rfl rfl rfl
  obtain ⟨xml, cufe, -, doc, hreturns, -, hdoc, -, hid, -, -, -, hname, -⟩ :=
    invoice_read textReader_tokenizes plainCodes "key" rfl haccepted
  refine ⟨xml, cufe, doc, hreturns, hdoc, hid.trans ?_, hname.trans ?_⟩
  · decide +kernel
  · decide +kernel

end DianService
