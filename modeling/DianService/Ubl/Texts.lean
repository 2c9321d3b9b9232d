import DianService.Ubl.Outlines
import DianService.Ubl.Payroll
import DianService.Ubl.Subtotals

/-
  Ubl: the texts of a document. Those that the program computes are digits and signs; those of the
  payload are printed as they came, so what is printed may stand in XML if the payload's texts may.
-/

namespace DianService.Ubl

open Lib Lib.Checked Lib.Xml

/-! ## What the program writes -/

theorem isXmlText_append {s t : String} : IsXmlText (s ++ t) ↔ IsXmlText s ∧ IsXmlText t := by
  rw [IsXmlText, String.toList_append, List.forall_mem_append]
  rfl

theorem isXmlChar_of_isDigit {c : Char} (h : c.isDigit = true) : isXmlChar c = true :=
  isXmlChar_of_isAlphanum (by rw [Char.isAlphanum, h, Bool.or_true])

theorem isXmlText_positional (places : ℕ) (m : ℤ) : IsXmlText (positional places m) := by
  have hdigits : ∀ n, ∀ c ∈ positionalDigits places n, isXmlChar c = true := by
    intro n c hc
    obtain hwhole | hfraction := List.mem_append.mp hc
    · exact isXmlChar_of_isDigit (Nat.isDigit_of_mem_toDigits (by decide) (by decide) hwhole)
    · split at hfraction
      · cases hfraction
      · obtain rfl | hpadded := List.mem_cons.mp hfraction
        · rfl
        · exact isXmlChar_of_isDigit (isDigit_of_mem_padded hpadded)
  rw [IsXmlText, positional, String.toList_ofList]
  split
  · exact List.forall_mem_cons.mpr ⟨rfl, hdigits _⟩
  · exact hdigits _

@[simp] theorem isXmlText_formatAmount (d : Decimal) : IsXmlText (formatAmount d) :=
  isXmlText_positional _ _

@[simp] theorem isXmlText_toText (d : Decimal) : IsXmlText d.toText := isXmlText_positional _ _

@[simp] theorem isXmlText_formatDecimal (d : Decimal) : IsXmlText (formatDecimal d) := by
  unfold formatDecimal
  split
  · exact isXmlText_formatAmount d
  · exact isXmlText_toText d

@[simp] theorem isXmlText_natToString (n : Nat) : IsXmlText (toString n) := by
  intro c hc
  rw [Nat.toString_eq_ofList_toDigits, String.toList_ofList] at hc
  exact isXmlChar_of_isDigit (Nat.isDigit_of_mem_toDigits (by decide) (by decide) hc)

@[simp] theorem isXmlText_intToString (n : Int) : IsXmlText (toString n) := by
  cases n with
  | ofNat n => exact isXmlText_natToString n
  | negSucc n =>
    show IsXmlText ("-" ++ toString (n + 1))
    exact isXmlText_append.mpr ⟨by decide, isXmlText_natToString _⟩

theorem isXmlText_checkDigit (id_type id name : String) :
    IsXmlText (PartyData.new id_type id name).check_digit := by
  show IsXmlText (if id_type = "31" then _ else "")
  split
  · cases checkDigit id with
    | none => decide
    | some digit => exact isXmlText_natToString digit
  · decide

/-! ## What the templates print -/

namespace Templates

@[simp] theorem legal_litAttr (key value : String) : (litAttr key value).Legal :=
  List.forall_mem_nil _

@[simp] theorem legal_valAttr (key value : String) :
    (valAttr key value).Legal ↔ IsXmlText value := List.forall_mem_singleton

@[simp] theorem legal_append (m n : Markup) :
    Markup.Legal (m ++ n) ↔ Markup.Legal m ∧ Markup.Legal n := by
  rw [Markup.Legal, values_append, List.forall_mem_append]
  rfl

@[simp] theorem legal_text (s : String) : Markup.Legal (text s) := List.forall_mem_nil _

@[simp] theorem legal_comment (raw : String) : Markup.Legal (.leaf (.comment raw) .nil) :=
  List.forall_mem_nil _

theorem legal_tag {name : String} {attributes : List PartAttribute} :
    (∀ v ∈ (⟨name, attributes⟩ : PartTag).values, IsXmlText v) ↔
      ∀ a ∈ attributes, PartAttribute.Legal a :=
  List.forall_mem_flatMap

@[simp] theorem legal_element (name : String) (attributes : List PartAttribute)
    (content : Markup) : Markup.Legal (element name attributes content) ↔
      (∀ a ∈ attributes, a.Legal) ∧ Markup.Legal content := by
  show (∀ v ∈ _ ++ (_ ++ []), _) ↔ _
  rw [List.append_nil, List.forall_mem_append, legal_tag]
  rfl

@[simp] theorem legal_emptyElement (name : String) (attributes : List PartAttribute) :
    Markup.Legal (emptyElement name attributes) ↔ ∀ a ∈ attributes, a.Legal := by
  show (∀ v ∈ _ ++ [], _) ↔ _
  rw [List.append_nil, legal_tag]

@[simp] theorem legal_field (name value : String) (attributes : List PartAttribute) :
    Markup.Legal (field name value attributes) ↔
      (∀ a ∈ attributes, a.Legal) ∧ IsXmlText value := by
  rw [field, legal_element]
  exact and_congr_right fun _ => List.forall_mem_singleton

@[simp] theorem legal_constant (name value : String) : Markup.Legal (constant name value) := by
  rw [constant, legal_element]
  exact ⟨List.forall_mem_nil _, legal_text value⟩

@[simp] theorem legal_onLines (indent : String) (ms : List Markup) :
    Markup.Legal (onLines indent ms) ↔ ∀ m ∈ ms, Markup.Legal m := by
  induction ms with
  | nil => exact iff_of_true (List.forall_mem_nil _) (List.forall_mem_nil _)
  | cons m ms ih =>
    rw [onLines, legal_append, legal_append, ih, List.forall_mem_cons,
      and_iff_right (legal_text indent)]

/-- The root only declares. -/
theorem legal_document (name indent : String) (content : Markup) :
    Markup.Legal (.document DECLARATION (root name indent) content) ↔ Markup.Legal content := by
  show (∀ v ∈ [] ++ ([] ++ (_ ++ (_ ++ []))), _) ↔ _
  rw [List.nil_append, List.nil_append, List.append_nil]
  rfl

theorem legal_extensions : Markup.Legal extensions := by simp [extensions]

end Templates

/-! ## Blocks -/

/-- The texts of a party can be printed. -/
structure PartyData.Legal (p : PartyData) : Prop where
  id_type : IsXmlText p.id_type
  id : IsXmlText p.id
  check_digit : IsXmlText p.check_digit
  name : IsXmlText p.name

structure LineData.Legal (l : LineData) : Prop where
  description : IsXmlText l.description
  quantity : IsXmlText l.quantity
  unit_code : IsXmlText l.unit_code
  unit_price : IsXmlText l.unit_price
  line_extension : IsXmlText l.line_extension
  tax_percent : IsXmlText l.tax_percent
  tax_amount : IsXmlText l.tax_amount

structure TaxSubtotalData.Legal (s : TaxSubtotalData) : Prop where
  taxable : IsXmlText s.taxable
  tax : IsXmlText s.tax
  percent : IsXmlText s.percent

namespace Templates

theorem legal_head {doc : CommercialDocument} : Markup.Legal (head doc) ↔
    IsXmlText doc.customization_id ∧ IsXmlText doc.profile_execution_id ∧ IsXmlText doc.id ∧
      IsXmlText doc.uuid ∧ IsXmlText doc.uuid_scheme ∧ IsXmlText doc.issue_date ∧
      IsXmlText doc.issue_time := by
  simp only [head, legal_append, legal_constant, legal_onLines, List.forall_mem_cons,
    legal_field, legal_valAttr]
  simp
  tauto

theorem legal_companyId {p : PartyData} : Markup.Legal (companyId p) ↔
    IsXmlText p.id_type ∧ IsXmlText p.id ∧ IsXmlText p.check_digit := by
  by_cases h : p.check_digit = ""
  · have hblank : IsXmlText "" := by decide
    simp only [companyId, h, ne_eq, not_true, if_false, hblank, legal_field, List.forall_mem_append,
      List.forall_mem_cons, legal_litAttr, legal_valAttr]
    simp
  · simp only [companyId, h, ne_eq, not_false_eq_true, if_true, legal_field,
      List.forall_mem_append, List.forall_mem_cons, legal_litAttr, legal_valAttr]
    simp
    tauto

theorem legal_partyTaxScheme {p : PartyData} : Markup.Legal (partyTaxScheme p) ↔ p.Legal := by
  simp only [partyTaxScheme, legal_element, legal_append, legal_onLines, List.forall_mem_cons,
    legal_field, legal_companyId, legal_constant, legal_text]
  simp only [List.not_mem_nil, false_imp_iff, implies_true, true_and, and_true]
  constructor
  · rintro ⟨hname, htype, hid, hdigit⟩
    exact ⟨htype, hid, hdigit, hname⟩
  · intro h
    exact ⟨h.name, h.id_type, h.id, h.check_digit⟩

theorem legal_tradeParty {tag : String} {p : PartyData} :
    Markup.Legal (tradeParty tag p) ↔ p.Legal := by
  simp only [tradeParty, legal_element, legal_append, legal_onLines, List.forall_mem_cons,
    legal_field, legal_partyTaxScheme, legal_text]
  simp only [List.not_mem_nil, false_imp_iff, implies_true, true_and, and_true]
  exact ⟨fun h => h.2.2, fun h => ⟨h.id_type, h.name, h⟩⟩

theorem legal_plainParty {tag : String} {p : PartyData} :
    Markup.Legal (plainParty tag p) ↔ p.Legal := by
  simp [plainParty, legal_partyTaxScheme]

theorem legal_taxCategory {percent : String} :
    Markup.Legal (taxCategory percent) ↔ IsXmlText percent := by
  simp [taxCategory]

theorem legal_currency : ∀ a ∈ currency, a.Legal :=
  List.forall_mem_singleton.mpr (legal_litAttr _ _)

theorem legal_amount {name value : String} :
    Markup.Legal (field name value currency) ↔ IsXmlText value := by
  rw [legal_field, and_iff_right legal_currency]

theorem legal_taxSubtotal {s : TaxSubtotalData} : Markup.Legal (taxSubtotal s) ↔ s.Legal := by
  simp only [taxSubtotal, legal_element, legal_append, legal_onLines, List.forall_mem_cons,
    legal_amount, legal_taxCategory, legal_text]
  simp only [List.not_mem_nil, false_imp_iff, implies_true, true_and, and_true]
  exact ⟨fun h => ⟨h.1, h.2.1, h.2.2⟩, fun h => ⟨h.taxable, h.tax, h.percent⟩⟩

theorem legal_taxTotal {doc : CommercialDocument} : Markup.Legal (taxTotal doc) ↔
    IsXmlText doc.tax ∧ ∀ s ∈ doc.tax_subtotals, s.Legal := by
  simp only [taxTotal, legal_element, legal_append, legal_onLines, List.forall_mem_cons,
    legal_amount, legal_text, List.forall_mem_map, legal_taxSubtotal]
  simp only [List.not_mem_nil, false_imp_iff, implies_true, true_and, and_true]

theorem legal_monetaryTotal {tag : String} {doc : CommercialDocument} :
    Markup.Legal (monetaryTotal tag doc) ↔ IsXmlText doc.net ∧ IsXmlText doc.total := by
  simp only [monetaryTotal, legal_element, legal_append, legal_onLines, List.forall_mem_cons,
    legal_amount, legal_text]
  simp only [List.not_mem_nil, false_imp_iff, implies_true, true_and, and_true]
  tauto

theorem legal_line {tag quantity_tag : String} {l : LineData} :
    Markup.Legal (line tag quantity_tag l) ↔ l.Legal := by
  simp only [line, legal_element, legal_append, legal_onLines, List.forall_mem_cons, legal_field,
    eq_true legal_currency, legal_valAttr, legal_taxCategory, legal_text, isXmlText_natToString]
  simp only [List.not_mem_nil, false_imp_iff, implies_true, true_and, and_true]
  constructor
  · rintro ⟨⟨hunit, hquantity⟩, hextension, ⟨htax, -, -, hpercent⟩, hdescription, hprice, -⟩
    exact ⟨hdescription, hquantity, hunit, hprice, hextension, hpercent, htax⟩
  · intro h
    exact ⟨⟨h.unit_code, h.quantity⟩, h.line_extension,
      ⟨h.tax_amount, h.line_extension, h.tax_amount, h.tax_percent⟩, h.description, h.unit_price,
      h.unit_code⟩

theorem legal_lines {tag quantity_tag : String} {doc : CommercialDocument} :
    Markup.Legal (lines tag quantity_tag doc) ↔ ∀ l ∈ doc.lines, l.Legal := by
  simp only [lines, legal_onLines, List.forall_mem_map, legal_line]

end Templates

/-! ## Lines -/

/-- What the clients write of the lines. -/
def descriptions (lines : Option (List LinePayload)) : List String :=
  (lines.getD []).map LinePayload.description

section Lines

variable {A : Arithmetic} {net tax : Decimal} {computed : List ComputedLine}

theorem LinePayload.Says.legal_unit {line : LinePayload} {input : LineInput}
    (h : line.Says input) : IsXmlText input.unit_code := by
  have hcode := h.code
  simp only [Bool.decide_and, Bool.and_eq_true, decide_eq_true_eq, List.all_eq_true] at hcode
  exact fun c hc => isXmlChar_of_isAlphanum (hcode.2.2 c hc)

theorem computeEach_legal {n : Nat} {lines : List LinePayload}
    (h : Returns (computeEach A n lines) computed) :
    (∀ line ∈ computed, line.data.Legal) ↔ ∀ line ∈ lines, IsXmlText line.description := by
  induction lines generalizing n computed with
  | nil =>
    obtain rfl := returns_pure.mp h
    exact iff_of_true (List.forall_mem_nil _) (List.forall_mem_nil _)
  | cons first lines ih =>
    obtain ⟨input, pair, rest, hread, -, hrest, rfl⟩ := computeEach_cons.mp h
    rw [List.forall_mem_cons, List.forall_mem_cons, ih hrest]
    refine and_congr_left fun _ => ⟨fun hline => hline.description, fun hdescription => ?_⟩
    exact ⟨hdescription, isXmlText_toText _, hread.legal_unit, isXmlText_formatDecimal _,
      isXmlText_formatAmount _, isXmlText_formatAmount _, isXmlText_formatAmount _⟩

theorem syntheticLine_legal (net tax percent : Decimal) :
    (syntheticLine net tax percent).data.Legal where
  description := by
    show IsXmlText SYNTHETIC_LINE_DESCRIPTION
    decide
  quantity := by
    show IsXmlText "1"
    decide
  unit_code := by
    show IsXmlText DEFAULT_UNIT_CODE
    decide
  unit_price := isXmlText_formatAmount _
  line_extension := isXmlText_formatAmount _
  tax_percent := isXmlText_formatAmount _
  tax_amount := isXmlText_formatAmount _

/-- The lines can be printed if their descriptions can. -/
theorem compute_legal {lines : Option (List LinePayload)}
    (h : Returns (compute A lines net tax) computed) :
    (∀ line ∈ computed, line.data.Legal) ↔ ∀ v ∈ descriptions lines, IsXmlText v := by
  cases lines with
  | none =>
    obtain ⟨percent, -, rfl⟩ := compute_none.mp h
    refine iff_of_true (List.forall_mem_singleton.mpr ?_) (List.forall_mem_nil _)
    exact syntheticLine_legal net tax percent
  | some lines =>
    rw [computeEach_legal (compute_some.mp h).2.1]
    exact List.forall_mem_map.symm

end Lines

/-! ## Invoices and notes -/

/-- The document of an input, once its amounts are computed. -/
def CommercialInput.document (input : CommercialInput) (net tax total : Decimal)
    (computed : List ComputedLine) (groups : List TaxGroup) : CommercialDocument where
  customization_id := input.customization_id
  profile_execution_id := input.environment
  id := input.id
  uuid := input.uuid
  uuid_scheme := input.uuid_scheme
  issue_date := input.issue_date
  issue_time := input.issue_time
  type_code := input.type_code
  supplier := input.supplier
  customer := input.customer
  lines := computed.map ComputedLine.data
  tax_subtotals := groups.map TaxGroup.data
  net := formatAmount net
  tax := formatAmount tax
  total := formatAmount total
  billing_reference := input.billing_reference
  discrepancy := input.discrepancy

/-- What the clients write of the invoice that a note is about. -/
def references (billing_reference : Option BillingReferencePayload)
    (discrepancy : Option DiscrepancyPayload) : List String :=
  ((billing_reference.map fun b => [b.number, b.cufe, b.issue_date]).getD []) ++
    (discrepancy.map fun d => [d.code, d.description]).getD []

/-- The texts of the input, those that only notes print excepted. -/
structure CommercialInput.Legal (input : CommercialInput) : Prop where
  texts : ∀ v ∈ [input.customization_id, input.environment, input.id, input.uuid,
    input.uuid_scheme, input.issue_date, input.issue_time], IsXmlText v
  supplier : input.supplier.Legal
  customer : input.customer.Legal
  lines : ∀ v ∈ descriptions input.lines, IsXmlText v

namespace Templates

theorem legal_noteReferences {doc : CommercialDocument} : Markup.Legal (noteReferences doc) ↔
    ∀ v ∈ references doc.billing_reference doc.discrepancy, IsXmlText v := by
  have hblank : IsXmlText "" := by decide
  simp only [noteReferences, legal_element, legal_append, legal_onLines, List.forall_mem_cons,
    legal_field, legal_litAttr, legal_text]
  simp only [List.not_mem_nil, false_imp_iff, implies_true, true_and, and_true]
  cases doc.billing_reference with
  | none =>
    cases doc.discrepancy with
    | none => simp [references, hblank]
    | some d => simp [references, hblank]
  | some b =>
    cases doc.discrepancy with
    | none => simp [references, hblank]
    | some d => simp [references]; tauto

end Templates

/-- An accepted amount is printed in the codes as it is in the document. -/
theorem formatAmount_of_amount {k : Codes} {field : String} {value : F64} {d : Decimal}
    (h : amount field value = .ok d) : k.formatAmount value = formatAmount d := by
  have hread : toAmount "amount" value = .ok d := by
    rw [amount_ok] at h
    unfold toAmount at h ⊢
    split at h
    · cases h
    · cases h
    · split at h
      · cases h
      · rename_i amount hamount
        split_ifs at h with hsign hscale
        cases h
        simp only [if_neg hsign, if_neg hscale]
  rw [Codes.formatAmount, hread]

/-- The three types, with what their templates print. -/
theorem InvoicePayload.type_cases {p : InvoicePayload} {type : DocumentType}
    (h : p.documentType = .ok type) :
    (p.document_type = "invoice" ∧ type = ⟨"invoice.xml", "10", "01", "CUFE-SHA384"⟩) ∨
    (p.document_type = "credit_note" ∧ type = ⟨"credit_note.xml", "20", "91", "CUDE-SHA384"⟩) ∨
    (p.document_type = "debit_note" ∧ type = ⟨"debit_note.xml", "30", "92", "CUDE-SHA384"⟩) := by
  unfold InvoicePayload.documentType at h
  split_ifs at h with hinvoice hcredit hdebit <;> cases h
  · exact .inl ⟨hinvoice, rfl⟩
  · exact .inr (.inl ⟨hcredit, rfl⟩)
  · exact .inr (.inr ⟨hdebit, rfl⟩)

section Documents

variable {A : Arithmetic} {input : CommercialInput} {net tax total : Decimal}
  {computed : List ComputedLine} (groups : List TaxGroup)

theorem commercialDocument_eq (h : Accepted A input net tax total computed) :
    ∃ groups, groupLines A [] computed = some groups ∧
      Returns (commercialDocument A input) (input.document net tax total computed groups) := by
  obtain ⟨groups, hgroups⟩ := groupLines_of_compute (amount_nonneg h.net) (amount_nonneg h.tax)
    h.lines
  refine ⟨groups, hgroups, ?_⟩
  simp only [commercialDocument, computeLines, taxSubtotals, returns_bind, returns_except,
    returns_option, returns_pure]
  exact ⟨net, h.net, tax, h.tax, total, h.total, _, ⟨computed, h.lines, rfl⟩, _,
    ⟨computed, h.lines, groups, hgroups, rfl⟩, rfl⟩

theorem legal_subtotals :
    Markup.Legal (Templates.taxTotal (input.document net tax total computed groups)) := by
  refine Templates.legal_taxTotal.mpr ⟨isXmlText_formatAmount tax, List.forall_mem_map.mpr ?_⟩
  exact fun group _ => ⟨isXmlText_formatAmount _, isXmlText_formatAmount _,
    isXmlText_formatAmount _⟩

theorem legal_totals (tag : String) :
    Markup.Legal (Templates.monetaryTotal tag (input.document net tax total computed groups)) :=
  Templates.legal_monetaryTotal.mpr ⟨isXmlText_formatAmount net, isXmlText_formatAmount total⟩

section Legal

variable (h : Returns (compute A input.lines net tax) computed)

include h

theorem legal_computed (tag quantity_tag : String) :
    Markup.Legal (Templates.lines tag quantity_tag
      (input.document net tax total computed groups)) ↔
      ∀ v ∈ descriptions input.lines, IsXmlText v := by
  rw [Templates.legal_lines, ← compute_legal h]
  exact List.forall_mem_map

/-- The parts that all documents have. -/
theorem legal_parts (tag quantity_tag : String) :
    (Markup.Legal (Templates.head (input.document net tax total computed groups)) ∧
      (input.supplier.Legal ∧ input.customer.Legal) ∧
      Markup.Legal (Templates.lines tag quantity_tag
        (input.document net tax total computed groups))) ↔ input.Legal := by
  have htexts : Markup.Legal (Templates.head (input.document net tax total computed groups)) ↔
      ∀ v ∈ [input.customization_id, input.environment, input.id, input.uuid, input.uuid_scheme,
        input.issue_date, input.issue_time], IsXmlText v := by
    rw [Templates.legal_head]
    simp [CommercialInput.document]
  rw [htexts, legal_computed groups h]
  exact ⟨fun ⟨htexts, ⟨hsupplier, hcustomer⟩, hlines⟩ => ⟨htexts, hsupplier, hcustomer, hlines⟩,
    fun hlegal => ⟨hlegal.texts, ⟨hlegal.supplier, hlegal.customer⟩, hlegal.lines⟩⟩

theorem legal_invoice :
    Markup.Legal (Templates.invoice (input.document net tax total computed groups)) ↔
      input.Legal ∧ IsXmlText input.type_code := by
  rw [Templates.invoice, Templates.legal_document, ← legal_parts groups h "cac:InvoiceLine"
    "cbc:InvoicedQuantity"]
  simp only [Templates.legal_append, Templates.legal_onLines, Templates.parties,
    List.forall_mem_append, List.forall_mem_cons, Templates.legal_field, Templates.legal_constant,
    Templates.legal_tradeParty, Templates.legal_text, Templates.legal_extensions,
    legal_subtotals groups, legal_totals groups, isXmlText_natToString]
  simp only [List.not_mem_nil, false_imp_iff, implies_true, true_and, and_true]
  constructor
  · rintro ⟨⟨⟨hhead, htype⟩, hparties⟩, hlines⟩
    exact ⟨⟨hhead, hparties, hlines⟩, htype⟩
  · rintro ⟨⟨hhead, hparties, hlines⟩, htype⟩
    exact ⟨⟨⟨hhead, htype⟩, hparties⟩, hlines⟩

theorem legal_creditNote :
    Markup.Legal (Templates.creditNote (input.document net tax total computed groups)) ↔
      input.Legal ∧ IsXmlText input.type_code ∧
        ∀ v ∈ references input.billing_reference input.discrepancy, IsXmlText v := by
  rw [Templates.creditNote, Templates.legal_document, ← legal_parts groups h "cac:CreditNoteLine"
    "cbc:CreditedQuantity"]
  simp only [Templates.legal_append, Templates.legal_onLines, Templates.parties,
    List.forall_mem_append, List.forall_mem_cons, Templates.legal_field, Templates.legal_constant,
    Templates.legal_tradeParty, Templates.legal_text, Templates.legal_extensions,
    Templates.legal_noteReferences, legal_subtotals groups, legal_totals groups,
    isXmlText_natToString]
  simp only [List.not_mem_nil, false_imp_iff, implies_true, true_and, and_true]
  constructor
  · rintro ⟨⟨⟨hhead, htype⟩, hreferences, hparties⟩, hlines⟩
    exact ⟨⟨hhead, hparties, hlines⟩, htype, hreferences⟩
  · rintro ⟨⟨hhead, hparties, hlines⟩, htype, hreferences⟩
    exact ⟨⟨⟨hhead, htype⟩, hreferences, hparties⟩, hlines⟩

/-- A debit note has no type code. -/
theorem legal_debitNote :
    Markup.Legal (Templates.debitNote (input.document net tax total computed groups)) ↔
      input.Legal ∧ ∀ v ∈ references input.billing_reference input.discrepancy, IsXmlText v := by
  rw [Templates.debitNote, Templates.legal_document, ← legal_parts groups h "cac:DebitNoteLine"
    "cbc:DebitedQuantity"]
  simp only [Templates.legal_append, Templates.legal_onLines, Templates.parties,
    List.forall_mem_append, List.forall_mem_cons, Templates.legal_field, Templates.legal_constant,
    Templates.legal_tradeParty, Templates.legal_text, Templates.legal_extensions,
    Templates.legal_noteReferences, legal_subtotals groups, legal_totals groups,
    isXmlText_natToString]
  simp only [List.not_mem_nil, false_imp_iff, implies_true, true_and, and_true]
  constructor
  · rintro ⟨⟨hhead, hreferences, hparties⟩, hlines⟩
    exact ⟨⟨hhead, hparties, hlines⟩, hreferences⟩
  · rintro ⟨⟨hhead, hparties, hlines⟩, hreferences⟩
    exact ⟨⟨hhead, hreferences, hparties⟩, hlines⟩

end Legal

end Documents

/-! ## What a payload decides -/

/-- The rates of the lines. -/
def rates (lines : List LinePayload) : List Decimal :=
  lines.filterMap fun line => (decimal "tax_percent" line.tax_percent 2 true).toOption

/-- What the elements of the document are, from the payload. -/
def payloadShape (lines : Option (List LinePayload)) (supplier customer : PartyData) : Shape where
  lines := (lines.map List.length).getD 1
  subtotals := (lines.map fun lines => (rates lines).dedup.length).getD 1
  supplier_digit := supplier.check_digit ≠ ""
  customer_digit := customer.check_digit ≠ ""

/-- A document of the shape, without texts. -/
def Shape.document (s : Shape) : CommercialDocument where
  customization_id := ""
  profile_execution_id := ""
  id := ""
  uuid := ""
  uuid_scheme := ""
  issue_date := ""
  issue_time := ""
  type_code := ""
  supplier := ⟨"", "", if s.supplier_digit then "0" else "", ""⟩
  customer := ⟨"", "", if s.customer_digit then "0" else "", ""⟩
  lines := List.replicate s.lines ⟨0, "", "", "", "", "", "", ""⟩
  tax_subtotals := List.replicate s.subtotals ⟨"", "", ""⟩
  net := ""
  tax := ""
  total := ""
  billing_reference := none
  discrepancy := none

theorem Shape.shape_document (s : Shape) : s.document.shape = s := by
  obtain ⟨n, m, supplier, customer⟩ := s
  cases supplier <;> cases customer <;> simp [CommercialDocument.shape, Shape.document]

section Shapes

variable {A : Arithmetic} {input : CommercialInput} {net tax : Decimal}
  {computed : List ComputedLine} {groups : List TaxGroup}

theorem computeEach_rates {n : Nat} {lines : List LinePayload}
    (h : Returns (computeEach A n lines) computed) :
    computed.map ComputedLine.tax_percent = rates lines := by
  induction lines generalizing n computed with
  | nil =>
    obtain rfl := returns_pure.mp h
    rfl
  | cons first lines ih =>
    obtain ⟨input, pair, rest, hread, -, hrest, rfl⟩ := computeEach_cons.mp h
    have hrate : (decimal "tax_percent" first.tax_percent 2 true).toOption = some input.percent := by
      rw [decimal_ok.mpr hread.percent]
      rfl
    rw [List.map_cons, ih hrest, rates, rates, List.filterMap_cons, hrate]

/-- A group for each rate. -/
theorem Grouped.length_eq (h : Grouped A groups computed) :
    groups.length = (computed.map ComputedLine.tax_percent).dedup.length := by
  rw [← List.length_map (f := TaxGroup.percent)]
  refine List.Perm.length_eq ((List.perm_ext_iff_of_nodup h.ascending.nodup
    (List.nodup_dedup _)).mpr fun rate => ?_)
  rw [h.rates, List.mem_dedup]

/-- The elements of the document are those that the payload decides. -/
theorem shape_document (h : Returns (compute A input.lines net tax) computed)
    (hgroups : groupLines A [] computed = some groups) (total : Decimal) :
    (input.document net tax total computed groups).shape =
      payloadShape input.lines input.supplier input.customer := by
  have hlength := (grouped hgroups).length_eq
  simp only [CommercialDocument.shape, CommercialInput.document, payloadShape, List.length_map,
    hlength]
  cases hlines : input.lines with
  | none =>
    rw [hlines] at h
    obtain ⟨percent, -, rfl⟩ := compute_none.mp h
    rfl
  | some lines =>
    rw [hlines] at h
    have hcomputed := (compute_some.mp h).2.1
    have horder := congrArg List.length (computeEach_order hcomputed).2
    rw [List.length_map, List.length_map] at horder
    rw [computeEach_rates hcomputed, horder]
    rfl

end Shapes

end DianService.Ubl
