import DianService.Crypto.Xades
import DianService.Ubl.Texts

/-
  Ubl: what the generators return. Every accepted payload is rendered, with the placeholder of the
  signature in it once and with the elements of its template; whether it is XML at all depends on
  the characters of the payload alone.
-/

namespace DianService.Ubl

open Lib Lib.Checked Lib.Xml

/-! ## Occurrences of a comment -/

section Matches

variable {p s : Text}

theorem matchesFrom_skip (n : Nat) :
    XmlUtil.matchesFrom p n s = XmlUtil.countMatches p (s.drop n) := by
  induction s generalizing n with
  | nil =>
    rw [List.drop_nil]
    cases n <;> rfl
  | cons c cs ih =>
    cases n with
    | zero => rfl
    | succ n => exact ih n

theorem countMatches_cons {c : Char} (h : p.isPrefixOf (c :: s) = false) :
    XmlUtil.countMatches p (c :: s) = XmlUtil.countMatches p s := by
  rw [XmlUtil.countMatches, XmlUtil.matchesFrom, if_neg (Bool.eq_false_iff.mp h)]
  rfl

theorem countMatches_of_not_lt {b : Text} (h : '<' ∉ b) :
    XmlUtil.countMatches ('<' :: p) (b ++ s) =
      XmlUtil.countMatches ('<' :: p) s := by
  induction b with
  | nil => rfl
  | cons c cs ih =>
    rw [List.mem_cons, not_or] at h
    rw [List.cons_append, countMatches_cons, ih h.2]
    rw [List.isPrefixOf, beq_false_of_ne h.1, Bool.false_and]

/-- A tag is no comment. -/
theorem countMatches_tag {c : Char} (h : c ≠ '!') :
    XmlUtil.countMatches ('<' :: '!' :: p) ('<' :: c :: s) =
      XmlUtil.countMatches ('<' :: '!' :: p) (c :: s) := by
  rw [countMatches_cons]
  rw [List.isPrefixOf, List.isPrefixOf, beq_false_of_ne h.symm, Bool.false_and, Bool.and_false]

theorem countMatches_self :
    XmlUtil.countMatches ('<' :: p) ('<' :: p ++ s) =
      XmlUtil.countMatches ('<' :: p) s + 1 := by
  have hprefix : ('<' :: p).isPrefixOf ('<' :: (p ++ s)) = true :=
    List.isPrefixOf_iff_prefix.mpr (List.prefix_append _ _)
  rw [XmlUtil.countMatches, List.cons_append, XmlUtil.matchesFrom, if_pos hprefix, matchesFrom_skip,
    List.length_cons, Nat.add_sub_cancel, List.drop_left]

end Matches

/-- What is no text of a markup. -/
def marks : Markup → List PartLeaf
  | .nil => []
  | .leaf (.text _) rest => marks rest
  | .leaf l rest => l :: marks rest
  | .empty _ rest => marks rest
  | .node _ kids rest => marks kids ++ marks rest

section Print

theorem lt_not_mem_space {s : String} (h : s.toList.all isSpace = true) : '<' ∉ s.toList :=
  fun hmem => absurd (List.all_eq_true.mp h _ hmem) (by decide)

theorem lt_not_mem_part {part : Part} (h : part.plain = true ∨ part.quoted = true) :
    '<' ∉ part.print := by
  cases part with
  | lit s =>
    have hplain : isPlain s = true := h.elim id fun hquoted => (Bool.and_eq_true_iff.mp hquoted).1
    simp only [isPlain, List.all_eq_true, Bool.and_eq_true, decide_eq_true_eq] at hplain
    exact fun hmem => (hplain _ hmem).1.1.2 rfl
  | val s =>
    intro hmem
    obtain ⟨c, -, hc⟩ := List.mem_flatMap.mp hmem
    exact (escapeChar_quoted hc).1 rfl

theorem lt_not_mem_tag {t : PartTag} (h : t.sound = true) : '<' ∉ t.print := by
  obtain ⟨hname, hattributes⟩ := Bool.and_eq_true_iff.mp h
  intro hmem
  obtain hmem | hmem := List.mem_append.mp hmem
  · exact not_mem_of_isQName hname rfl (by decide) hmem
  · obtain ⟨a, ha, hmem⟩ := List.mem_flatMap.mp hmem
    have hsound := List.all_eq_true.mp hattributes a ha
    simp only [PartAttribute.sound, Bool.and_eq_true] at hsound
    obtain ⟨⟨⟨-, hspace⟩, hkey⟩, hvalue⟩ := hsound
    simp only [PartAttribute.print, List.mem_append, List.mem_cons, List.not_mem_nil,
      or_false] at hmem
    obtain ((hmem | hmem) | hmem | hmem | hmem) | hmem := hmem
    · exact lt_not_mem_space hspace hmem
    · exact @not_mem_of_isQName _ hkey '<' rfl (by decide) hmem
    · exact absurd hmem (by decide)
    · exact absurd hmem (by decide)
    · obtain ⟨part, hpart, hmem⟩ := List.mem_flatMap.mp hmem
      exact lt_not_mem_part (.inr (List.all_eq_true.mp hvalue part hpart)) hmem
    · exact absurd hmem (by decide)

section Pattern

variable {p s : Text}

/-- Nothing is found in a start tag. -/
theorem countMatches_start {t : PartTag} (h : t.sound = true) :
    XmlUtil.countMatches ('<' :: '!' :: p) ('<' :: (t.print ++ s)) =
      XmlUtil.countMatches ('<' :: '!' :: p) s := by
  have hname := (Bool.and_eq_true_iff.mp h).1
  obtain ⟨c, cs, hcs⟩ := exists_name hname
  have hne : c ≠ '!' := by
    intro hc
    refine @not_mem_of_isQName _ hname '!' rfl (by decide) ?_
    rw [hcs, hc]
    exact List.mem_cons_self
  refine Eq.trans ?_ (countMatches_of_not_lt (lt_not_mem_tag h))
  rw [PartTag.print, hcs]
  exact countMatches_tag hne

theorem countMatches_close {name : Text} (h : isQName name = true) :
    XmlUtil.countMatches ('<' :: '!' :: p) ('<' :: '/' :: (name ++ '>' :: s)) =
      XmlUtil.countMatches ('<' :: '!' :: p) s := by
  have hlt : '<' ∉ '/' :: (name ++ ['>']) := by
    simp only [List.mem_cons, List.mem_append, List.not_mem_nil, or_false, not_or]
    exact ⟨by decide, not_mem_of_isQName h rfl (by decide), by decide⟩
  rw [countMatches_tag (by decide)]
  have hclose := countMatches_of_not_lt (p := '!' :: p) (s := s) hlt
  rw [List.cons_append, List.append_assoc] at hclose
  exact hclose

end Pattern

/-- The occurrences of a comment in what is printed are those of the template. -/
theorem countMatches_print {raw : String} {m : Markup} (hsound : m.sound = true)
    (hmarks : ∀ l ∈ marks m, l = .comment raw) (s : Text) :
    XmlUtil.countMatches (PartLeaf.comment raw).print (m.print ++ s) =
      (marks m).length + XmlUtil.countMatches (PartLeaf.comment raw).print s := by
  obtain ⟨p, hpattern⟩ : ∃ p, (PartLeaf.comment raw).print = '<' :: '!' :: p :=
    ⟨_, rfl⟩
  induction m generalizing s with
  | nil => exact (Nat.zero_add _).symm
  | leaf l rest ih =>
    rw [Markup.sound, Bool.and_eq_true] at hsound
    cases l with
    | text parts =>
      have hparts : '<' ∉ printParts parts := fun hmem => by
        obtain ⟨part, hpart, hmem⟩ := List.mem_flatMap.mp hmem
        exact lt_not_mem_part (.inl (List.all_eq_true.mp hsound.1 part hpart)) hmem
      rw [Markup.print, List.append_assoc]
      exact (countMatches_of_not_lt hparts).trans (ih hsound.2 hmarks s)
    | comment raw' =>
      obtain ⟨hhead, hrest⟩ := List.forall_mem_cons.mp hmarks
      cases hhead
      have hself := countMatches_self (p := '!' :: p) (s := Markup.print rest ++ s)
      rw [← hpattern, ih hsound.2 hrest] at hself
      rw [Markup.print, List.append_assoc, hself]
      exact Nat.add_right_comm _ _ _
    | decl raw' => cases (List.forall_mem_cons.mp hmarks).1
  | empty t rest ih =>
    rw [Markup.sound, Bool.and_eq_true] at hsound
    have hstart := countMatches_start (p := p)
      (s := '/' :: '>' :: (Markup.print rest ++ s)) hsound.1
    have hend := countMatches_of_not_lt (p := '!' :: p) (b := ['/', '>'])
      (s := Markup.print rest ++ s) (by decide)
    rw [marks, ← ih hsound.2 hmarks, Markup.print, hpattern, List.cons_append, List.cons_append,
      List.append_assoc]
    exact hstart.trans hend
  | node t kids rest ihk ihr =>
    rw [Markup.sound, Bool.and_eq_true, Bool.and_eq_true] at hsound
    obtain ⟨hkids, hrest⟩ := List.forall_mem_append.mp hmarks
    have hstart := countMatches_start (p := p) (s := '>' :: (Markup.print kids ++
      '<' :: '/' :: (t.name.toList ++ '>' :: (Markup.print rest ++ s)))) hsound.1.1
    have hend := countMatches_of_not_lt (p := '!' :: p) (b := ['>'])
      (s := Markup.print kids ++ '<' :: '/' :: (t.name.toList ++
        '>' :: (Markup.print rest ++ s))) (by decide)
    have hclose := countMatches_close (p := p) (s := Markup.print rest ++ s)
      (Bool.and_eq_true_iff.mp hsound.1.1).1
    rw [← hpattern] at hstart hend hclose
    calc XmlUtil.countMatches (PartLeaf.comment raw).print
          (Markup.print (.node t kids rest) ++ s)
        = XmlUtil.countMatches (PartLeaf.comment raw).print ('<' :: (t.print ++ '>' ::
            (Markup.print kids ++ '<' :: '/' :: (t.name.toList ++
              '>' :: (Markup.print rest ++ s))))) := by rw [Markup.print]; simp
      _ = (marks kids).length + XmlUtil.countMatches (PartLeaf.comment raw).print
            ('<' :: '/' :: (t.name.toList ++ '>' :: (Markup.print rest ++ s))) :=
          (hstart.trans hend).trans (ihk hsound.1.2 hkids _)
      _ = (marks (.node t kids rest)).length +
            XmlUtil.countMatches (PartLeaf.comment raw).print s := by
          rw [hclose, ihr hsound.2 hrest, marks, List.length_append, Nat.add_assoc]

end Print

/-! ## The placeholder in the templates -/

namespace Templates

theorem marks_append (m n : Markup) : marks (m ++ n) = marks m ++ marks n := by
  show marks (Forest.append m n) = _
  induction m with
  | nil => rfl
  | leaf l rest ih =>
    cases l with
    | text parts => exact ih
    | comment raw | decl raw => exact congrArg (_ :: ·) ih
  | empty t rest ih => exact ih
  | node t kids rest _ ih => rw [Forest.append, marks, ih, marks, List.append_assoc]

@[simp] theorem marks_text (s : String) : marks (text s) = [] := rfl

@[simp] theorem marks_element (name : String) (attributes : List PartAttribute)
    (content : Markup) : marks (element name attributes content) = marks content :=
  List.append_nil _

@[simp] theorem marks_emptyElement (name : String) (attributes : List PartAttribute) :
    marks (emptyElement name attributes) = [] := rfl

@[simp] theorem marks_field (name value : String) (attributes : List PartAttribute) :
    marks (field name value attributes) = [] := rfl

@[simp] theorem marks_constant (name value : String) : marks (constant name value) = [] := rfl

@[simp] theorem marks_onLines (indent : String) (ms : List Markup) :
    marks (onLines indent ms) = ms.flatMap marks := by
  induction ms with
  | nil => rfl
  | cons m ms ih =>
    rw [onLines, marks_append, marks_append, ih, marks_text, List.nil_append, List.flatMap_cons]

theorem marks_map {α : Type} {f : α → Markup} (h : ∀ a, marks (f a) = []) (as : List α) :
    (as.map f).flatMap marks = [] :=
  List.flatMap_eq_nil_iff.mpr (List.forall_mem_map.mpr fun a _ => h a)

theorem marks_extensions : marks extensions = [.comment PLACEHOLDER] := rfl

theorem marks_taxTotal (doc : CommercialDocument) : marks (taxTotal doc) = [] := by
  have hsubtotals := marks_map (f := taxSubtotal) (fun _ => rfl) doc.tax_subtotals
  simp only [taxTotal, marks_element, marks_append, marks_onLines, hsubtotals, marks_text,
    marks_field, List.flatMap_cons, List.flatMap_nil, List.append_nil]

theorem marks_lines (tag quantity_tag : String) (doc : CommercialDocument) :
    marks (lines tag quantity_tag doc) = [] := by
  rw [lines, marks_onLines]
  exact marks_map (fun _ => rfl) doc.lines

@[simp] theorem marks_head (doc : CommercialDocument) : marks (head doc) = [] := rfl

@[simp] theorem marks_parties (doc : CommercialDocument) : (parties doc).flatMap marks = [] := rfl

@[simp] theorem marks_noteReferences (doc : CommercialDocument) : marks (noteReferences doc) = [] :=
  rfl

@[simp] theorem marks_monetaryTotal (tag : String) (doc : CommercialDocument) :
    marks (monetaryTotal tag doc) = [] := rfl

end Templates

theorem placeholder_eq : (PartLeaf.comment Templates.PLACEHOLDER).print =
    SIGNATURE_PLACEHOLDER.toList := by
  decide +kernel

/-- Nothing of the declaration is taken for the placeholder. -/
theorem placeholder_once {root : PartTag} {content : Markup}
    (h : (Markup.document Templates.DECLARATION root content).sound = true)
    (hmarks : marks content = [.comment Templates.PLACEHOLDER]) :
    XmlUtil.countMatches SIGNATURE_PLACEHOLDER.toList
      (Markup.document Templates.DECLARATION root content).print = 1 := by
  rw [← placeholder_eq]
  obtain ⟨pattern, hpattern⟩ : ∃ pattern, (PartLeaf.comment Templates.PLACEHOLDER).print =
      '<' :: '!' :: pattern := ⟨_, rfl⟩
  have hdeclaration : '<' ∉ '?' :: (Templates.DECLARATION.toList ++ "?>\n".toList) := by
    decide +kernel
  have hroot : Markup.sound (.node root content .nil) = true := by
    rw [Markup.document, Markup.sound, Markup.sound] at h
    simp only [Bool.and_eq_true] at h
    exact h.2.2
  have hall : marks (.node root content .nil) = [.comment Templates.PLACEHOLDER] := by
    rw [marks, hmarks]
    rfl
  have hcontent := countMatches_print hroot (by
    rw [hall]
    exact List.forall_mem_singleton.mpr rfl) []
  rw [hall, hpattern] at hcontent
  have hprint : (Markup.document Templates.DECLARATION root content).print =
      '<' :: ('?' :: (Templates.DECLARATION.toList ++ "?>\n".toList) ++
        (Markup.print (.node root content .nil) ++ [])) := by
    simp [Markup.document, Markup.print, PartLeaf.print, printParts]
    rfl
  rw [hprint, hpattern, List.cons_append, countMatches_tag (by decide), ← List.cons_append,
    countMatches_of_not_lt hdeclaration, hcontent]
  rfl

/-! ## Rendered documents -/

/-- What a generator returns has the placeholder once. It is a well-formed document with the
    outline if all characters of the texts may stand in XML, and no document otherwise. -/
structure Rendered (xml : String) (o : Outline) (texts : List String) : Prop where
  placeholder : XmlUtil.countMatches SIGNATURE_PLACEHOLDER.toList xml.toList = 1
  document_iff : IsDocumentOf xml.toList o ↔ ∀ v ∈ texts, IsXmlText v
  of_document : (∃ node, IsDocument xml.toList node) → IsDocumentOf xml.toList o

theorem rendered_of_template {m : Markup} {texts : List String} (h : m.IsTemplate)
    (hplaceholder : XmlUtil.countMatches SIGNATURE_PLACEHOLDER.toList m.print = 1)
    (hlegal : m.Legal ↔ ∀ v ∈ texts, IsXmlText v) :
    Rendered (String.ofList m.print) m.outline texts := by
  obtain ⟨hiff, hdocument⟩ := h.isDocument_iff
  rw [← String.toList_ofList (l := m.print)] at hiff hdocument hplaceholder
  exact ⟨hplaceholder, hiff.trans hlegal, hdocument⟩

/-! ## Invoices and notes -/

theorem commercialTemplate_cases {name : String} {template : CommercialDocument → Markup}
    (h : commercialTemplate name = some template) :
    template = Templates.invoice ∨ template = Templates.creditNote ∨
      template = Templates.debitNote := by
  unfold commercialTemplate at h
  split_ifs at h <;> cases h <;> simp

/-- The templates have the placeholder once. -/
theorem commercialTemplate_placeholder (name : String) {template : CommercialDocument → Markup}
    (h : commercialTemplate name = some template) (doc : CommercialDocument) :
    XmlUtil.countMatches SIGNATURE_PLACEHOLDER.toList (template doc).print = 1 := by
  have hsound := commercialTemplate_sound h doc
  obtain rfl | rfl | rfl := commercialTemplate_cases h
  all_goals
    refine placeholder_once hsound ?_
    simp [Templates.marks_append, Templates.marks_extensions, Templates.marks_taxTotal,
      Templates.marks_lines]

/-- The texts of an invoice or note that are printed. -/
def InvoicePayload.texts (p : InvoicePayload) : List String :=
  [p.pfx, p.issue_date, p.issue_time, p.environment, p.company_nit, p.company_name,
    p.customer_id_type, p.customer_id, p.customer_name] ++ descriptions p.lines ++
    if p.document_type = "invoice" then [] else references p.billing_reference p.discrepancy

def InvoicePayload.shape (p : InvoicePayload) : Shape :=
  payloadShape p.lines (.new "31" p.company_nit p.company_name)
    (.new p.customer_id_type p.customer_id p.customer_name)

theorem partyData_legal {id_type id name : String} : (PartyData.new id_type id name).Legal ↔
    IsXmlText id_type ∧ IsXmlText id ∧ IsXmlText name :=
  ⟨fun h => ⟨h.id_type, h.id, h.name⟩,
    fun h => ⟨h.1, h.2.1, isXmlText_checkDigit _ _ _, h.2.2⟩⟩

section Payload

variable {k : Codes} {p : InvoicePayload}

theorem InvoicePayload.input_legal (type : DocumentType) (code : String)
    (htype : IsXmlText type.customization_id ∧ IsXmlText type.uuid_scheme)
    (hcode : IsXmlText code) : (p.input type code).Legal ↔
      ∀ v ∈ [p.pfx, p.issue_date, p.issue_time, p.environment, p.company_nit, p.company_name,
        p.customer_id_type, p.customer_id, p.customer_name] ++ descriptions p.lines,
        IsXmlText v := by
  have hnit : IsXmlText "31" := by decide
  have hid : IsXmlText (p.pfx ++ toString p.number) ↔ IsXmlText p.pfx := by
    rw [isXmlText_append, and_iff_left (isXmlText_intToString _)]
  rw [List.forall_mem_append]
  constructor
  · intro h
    have htexts := h.texts
    have hsupplier := partyData_legal.mp h.supplier
    have hcustomer := partyData_legal.mp h.customer
    refine ⟨?_, h.lines⟩
    simp only [InvoicePayload.input, List.forall_mem_cons, hid] at htexts ⊢
    tauto
  · intro ⟨htexts, hlines⟩
    simp only [List.forall_mem_cons] at htexts
    refine ⟨?_, partyData_legal.mpr ?_, partyData_legal.mpr ?_, hlines⟩
    · simp only [InvoicePayload.input, List.forall_mem_cons, hid]
      tauto
    · tauto
    · tauto

section Rendered

variable {A : Arithmetic} {type : DocumentType} {code : String} {net tax : Decimal}
  (total : Decimal) {computed : List ComputedLine} (groups : List TaxGroup)

theorem template_legal (htype : p.documentType = .ok type) (hcode : IsXmlText code)
    (h : Returns (compute A p.lines net tax) computed) :
    ∃ template, commercialTemplate type.template = some template ∧
      (∀ doc, (template doc).IsTemplate) ∧
      (∀ doc doc' : CommercialDocument, doc.shape = doc'.shape →
        (template doc).outline = (template doc').outline) ∧
      (Markup.Legal (template ((p.input type code).document net tax total computed groups)) ↔
        ∀ v ∈ p.texts, IsXmlText v) := by
  have hlegal := p.input_legal type code
  have htexts : (∀ v ∈ p.texts, IsXmlText v) ↔
      (∀ v ∈ [p.pfx, p.issue_date, p.issue_time, p.environment, p.company_nit, p.company_name,
        p.customer_id_type, p.customer_id, p.customer_name] ++ descriptions p.lines,
        IsXmlText v) ∧ (p.document_type ≠ "invoice" →
          ∀ v ∈ references p.billing_reference p.discrepancy, IsXmlText v) := by
    rw [InvoicePayload.texts, List.forall_mem_append]
    refine and_congr_right fun _ => ?_
    by_cases hinvoice : p.document_type = "invoice" <;> simp [hinvoice]
  obtain ⟨hinvoice, rfl⟩ | ⟨hcredit, rfl⟩ | ⟨hdebit, rfl⟩ := p.type_cases htype
  · refine ⟨_, rfl, Templates.invoice_isTemplate, fun _ _ => Templates.invoice_outline, ?_⟩
    have hlegal := hlegal ⟨by decide, by decide⟩ hcode
    have htype : IsXmlText "01" := by decide
    rw [htexts, ← hlegal, legal_invoice groups h]
    exact and_congr_right fun _ => iff_of_true htype fun hne => absurd hinvoice hne
  · refine ⟨_, rfl, Templates.creditNote_isTemplate, fun _ _ => Templates.creditNote_outline, ?_⟩
    have hlegal := hlegal ⟨by decide, by decide⟩ hcode
    have htype : IsXmlText "91" := by decide
    rw [htexts, ← hlegal, legal_creditNote groups h, hcredit]
    refine and_congr_right fun _ => ?_
    exact (and_iff_right htype).trans (imp_iff_right (by decide)).symm
  · refine ⟨_, rfl, Templates.debitNote_isTemplate, fun _ _ => Templates.debitNote_outline, ?_⟩
    have hlegal := hlegal ⟨by decide, by decide⟩ hcode
    rw [htexts, ← hlegal, legal_debitNote groups h, hdebit]
    exact and_congr_right fun _ => (imp_iff_right (by decide)).symm

end Rendered

/-- An accepted invoice or note is rendered with the elements that its template has for as many
    lines and rates, whatever the texts are. -/
theorem invoice_rendered (hk : ∀ text, IsXmlText (k.sha384 text)) {A : Arithmetic}
    (h : Returns (p.validate A) ()) (technical_key : String) :
    ∃ type template xml code, p.documentType = .ok type ∧
      commercialTemplate type.template = some template ∧
      Returns (generateInvoiceXml A k p technical_key) (xml, code) ∧
      Rendered xml (template p.shape.document).outline p.texts := by
  obtain ⟨type, net, tax, total, computed, htype, haccepted⟩ := p.accepted h
  have haccepted := haccepted (p.code k technical_key)
  obtain ⟨groups, hgroups, hdoc⟩ := commercialDocument_eq haccepted
  have hcode : IsXmlText (p.code k technical_key) := hk _
  obtain ⟨template, htemplate, his, houtline, hlegal⟩ := template_legal total groups
    htype hcode haccepted.lines
  have hshape : ((p.input type (p.code k technical_key)).document net tax total computed
      groups).shape = p.shape.document.shape :=
    (shape_document haccepted.lines hgroups total).trans (Shape.shape_document _).symm
  generalize hd : (p.input type (p.code k technical_key)).document net tax total computed groups =
    doc at hdoc hlegal hshape
  refine ⟨type, template, String.ofList (template doc).print, p.code k technical_key, htype,
    htemplate, ?_, ?_⟩
  · simp only [generateInvoiceXml, returns_bind, returns_except, returns_pure]
    refine ⟨(), h, type, htype, doc, hdoc, _, ?_, rfl⟩
    rw [render, htemplate]
  · rw [← houtline doc _ hshape]
    exact rendered_of_template (his doc) (commercialTemplate_placeholder _ htemplate doc) hlegal

end Payload

/-! ## Support documents -/

def SupportDocumentPayload.texts (p : SupportDocumentPayload) : List String :=
  [p.pfx, p.issue_date, p.issue_time, p.environment, p.seller_nit, p.seller_name, p.buyer_nit,
    p.buyer_name] ++ descriptions p.lines

def SupportDocumentPayload.shape (p : SupportDocumentPayload) : Shape :=
  payloadShape p.lines (.new "31" p.seller_nit p.seller_name) (.new "31" p.buyer_nit p.buyer_name)

section Support

variable {k : Codes} {p : SupportDocumentPayload}

theorem SupportDocumentPayload.input_legal {code : String} (hcode : IsXmlText code) :
    (p.input code).Legal ↔ ∀ v ∈ p.texts, IsXmlText v := by
  have hconstants : IsXmlText "31" ∧ IsXmlText "10" ∧ IsXmlText "CUDS-SHA384" := by decide
  have hid : IsXmlText (p.pfx ++ toString p.number) ↔ IsXmlText p.pfx := by
    rw [isXmlText_append, and_iff_left (isXmlText_intToString _)]
  rw [SupportDocumentPayload.texts, List.forall_mem_append]
  constructor
  · intro h
    have htexts := h.texts
    have hsupplier := partyData_legal.mp h.supplier
    have hcustomer := partyData_legal.mp h.customer
    refine ⟨?_, h.lines⟩
    simp only [SupportDocumentPayload.input, List.forall_mem_cons, hid] at htexts ⊢
    tauto
  · intro ⟨htexts, hlines⟩
    simp only [List.forall_mem_cons] at htexts
    refine ⟨?_, partyData_legal.mpr ?_, partyData_legal.mpr ?_, hlines⟩
    · simp only [SupportDocumentPayload.input, List.forall_mem_cons, hid]
      tauto
    · tauto
    · tauto

theorem support_document_rendered (hk : ∀ text, IsXmlText (k.sha384 text)) {A : Arithmetic}
    (h : Returns (p.validate A) ()) :
    ∃ xml code, Returns (generateSupportDocumentXml A k p) (xml, code) ∧
      Rendered xml (Templates.invoice p.shape.document).outline p.texts := by
  obtain ⟨net, tax, total, computed, haccepted⟩ := p.accepted h
  have haccepted := haccepted (p.code k)
  have hcode : IsXmlText (p.code k) := hk _
  have htype : IsXmlText "05" := by decide
  obtain ⟨groups, hgroups, hdoc⟩ := commercialDocument_eq haccepted
  have hlegal := (@legal_invoice _ _ _ _ total _ groups haccepted.lines).trans
    ((and_iff_left htype).trans (p.input_legal hcode))
  have hshape : ((p.input (p.code k)).document net tax total computed groups).shape =
      p.shape.document.shape :=
    (shape_document haccepted.lines hgroups total).trans (Shape.shape_document _).symm
  generalize (p.input (p.code k)).document net tax total computed groups = doc
    at hdoc hlegal hshape
  refine ⟨String.ofList (Templates.invoice doc).print, p.code k, ?_, ?_⟩
  · simp only [generateSupportDocumentXml, returns_bind, returns_except, returns_pure]
    exact ⟨(), h, doc, hdoc, _, rfl, rfl⟩
  · rw [← Templates.invoice_outline hshape]
    exact rendered_of_template (Templates.invoice_isTemplate doc)
      (commercialTemplate_placeholder "invoice.xml" rfl doc) hlegal

end Support

/-! ## Payroll -/

/-- The environment and the type of the employee's document are not printed. -/
def PayrollPayload.texts (p : PayrollPayload) : List String :=
  [p.pfx, p.issue_date, p.issue_time, p.employer_nit, p.employer_name, p.employee_id,
    p.employee_name]

section Payroll

variable {k : Codes}

theorem marks_payroll (c : Templates.Payroll) :
    marks (Templates.payrollContent c) = [.comment Templates.PLACEHOLDER] := rfl

theorem isXmlText_amount {field : String} {value : F64} {d : Decimal}
    (h : amount field value = .ok d) : IsXmlText (k.formatAmount value) := by
  rw [formatAmount_of_amount h]
  exact isXmlText_formatAmount d

theorem payroll_legal {c : Templates.Payroll} : Markup.Legal (Templates.payroll c) ↔
    ∀ v ∈ [c.pfx, c.cune, c.issue_date, c.issue_time, c.employer_nit, c.employer_name,
      c.employee_id, c.employee_name, c.devengado, c.deducido, c.total], IsXmlText v := by
  have hroot : Markup.Legal (Templates.payroll c) ↔ Markup.Legal (Templates.payrollContent c) := by
    show (∀ v ∈ [] ++ ([] ++ (_ ++ (_ ++ []))), _) ↔ _
    rw [List.nil_append, List.nil_append, List.append_nil]
    rfl
  have hnumber : PartAttribute.Legal ⟨" ", "Numero", [.val c.pfx, .val (toString c.number)]⟩ ↔
      IsXmlText c.pfx := by
    show (∀ v ∈ [c.pfx, toString c.number], IsXmlText v) ↔ _
    rw [List.forall_mem_cons, List.forall_mem_singleton, and_iff_left (isXmlText_intToString _)]
  rw [hroot]
  simp only [Templates.payrollContent, Templates.provider, Templates.employer, Templates.employee,
    Templates.noNames, Templates.place, Templates.legal_append, Templates.legal_onLines,
    Templates.legal_element, Templates.legal_emptyElement, Templates.legal_field,
    Templates.legal_constant, Templates.legal_text, Templates.legal_extensions,
    Templates.legal_litAttr, Templates.legal_valAttr, hnumber, List.forall_mem_cons,
    List.forall_mem_append, isXmlText_intToString]
  simp only [List.not_mem_nil, false_imp_iff, implies_true, true_and, and_true]
  tauto

theorem payroll_rendered (hk : ∀ text, IsXmlText (k.sha384 text)) {A : Arithmetic}
    {p : PayrollPayload} (h : Returns (p.validate A) ()) (blank : Templates.Payroll) :
    ∃ xml cune, Returns (generatePayrollXml A k p) (xml, cune) ∧
      Rendered xml (Templates.payroll blank).outline p.texts := by
  have hlegal : Markup.Legal (Templates.payroll (p.context k (p.code k))) ↔
      ∀ v ∈ p.texts, IsXmlText v := by
    have hcode : IsXmlText (p.code k) := hk _
    simp only [PayrollPayload.validate, returns_bind, returns_except] at h
    obtain ⟨-, -, _, hdevengado, _, hdeducido, _, htotal, -⟩ := h
    rw [payroll_legal]
    simp only [PayrollPayload.texts, PayrollPayload.context, List.forall_mem_cons, hcode,
      isXmlText_amount hdevengado, isXmlText_amount hdeducido, isXmlText_amount htotal, true_and]
  refine ⟨String.ofList (Templates.payroll (p.context k (p.code k))).print, p.code k, ?_, ?_⟩
  · simp only [generatePayrollXml, returns_bind, returns_pure]
    exact ⟨(), h, trivial⟩
  · rw [Templates.payroll_outline blank (p.context k (p.code k))]
    exact rendered_of_template (Templates.payroll_isTemplate _)
      (placeholder_once (Templates.payroll_sound _) (marks_payroll _)) hlegal

end Payroll

/-! ## Events -/

section Events

variable {k : Codes} {e : EventInput}

/-- The PIN is not printed. -/
def EventInput.texts (e : EventInput) : List String :=
  [e.id, e.issue_date, e.issue_time, e.environment, e.sender_nit, e.sender_name, e.sender_id_type,
    e.receiver_nit, e.receiver_name, e.receiver_id_type, e.event_code, e.event_description,
    e.parent_document_id, e.parent_document_uuid]

theorem applicationResponse_legal {c : Templates.ApplicationResponse} :
    Markup.Legal (Templates.applicationResponse c) ↔
      (∀ v ∈ [c.id, c.cude, c.issue_date, c.issue_time, c.environment, c.event_code,
        c.event_description, c.parent_document_id, c.parent_document_uuid], IsXmlText v) ∧
        c.sender.Legal ∧ c.receiver.Legal := by
  rw [Templates.applicationResponse, Templates.legal_document]
  simp only [Templates.legal_append, Templates.legal_onLines, Templates.legal_element,
    Templates.legal_field, Templates.legal_constant, Templates.legal_text,
    Templates.legal_extensions, Templates.legal_litAttr, Templates.legal_valAttr,
    Templates.legal_plainParty, List.forall_mem_cons]
  simp only [List.not_mem_nil, false_imp_iff, implies_true, true_and, and_true]
  tauto

theorem event_rendered (hk : ∀ text, IsXmlText (k.sha384 text)) :
    ∃ xml cude, generateApplicationResponseXml k e = .ok (xml, cude) ∧
      Rendered xml (Templates.applicationResponse (e.context "")).outline e.texts := by
  have hcode : IsXmlText (e.code k) := hk _
  have hlegal : Markup.Legal (Templates.applicationResponse (e.context (e.code k))) ↔
      ∀ v ∈ e.texts, IsXmlText v := by
    rw [applicationResponse_legal]
    simp only [EventInput.texts, EventInput.context, List.forall_mem_cons, partyData_legal, hcode,
      true_and]
    tauto
  refine ⟨_, e.code k, rfl, ?_⟩
  rw [Templates.applicationResponse_outline (c := e.context "") (d := e.context (e.code k)) rfl rfl]
  exact rendered_of_template (Templates.applicationResponse_isTemplate _)
    (placeholder_once (Templates.applicationResponse_sound _) rfl) hlegal

end Events

/-- Every accepted payload is rendered. The elements of the document are those of its template, for
    as many lines and rates as the payload has; no text of it becomes markup, and the document is
    well formed exactly if no text has a character that XML leaves out. -/
theorem accepted_rendered (k : Codes) (hk : ∀ text, IsXmlText (k.sha384 text)) (A : Arithmetic) :
    (∀ (p : InvoicePayload) (technical_key : String), Returns (p.validate A) () →
      ∃ type template xml code, p.documentType = .ok type ∧
        commercialTemplate type.template = some template ∧
        Returns (generateInvoiceXml A k p technical_key) (xml, code) ∧
        Rendered xml (template p.shape.document).outline p.texts) ∧
    (∀ p : SupportDocumentPayload, Returns (p.validate A) () →
      ∃ xml code, Returns (generateSupportDocumentXml A k p) (xml, code) ∧
        Rendered xml (Templates.invoice p.shape.document).outline p.texts) ∧
    (∀ (p : PayrollPayload) (blank : Templates.Payroll), Returns (p.validate A) () →
      ∃ xml cune, Returns (generatePayrollXml A k p) (xml, cune) ∧
        Rendered xml (Templates.payroll blank).outline p.texts) ∧
    ∀ e : EventInput, ∃ xml cude, generateApplicationResponseXml k e = .ok (xml, cude) ∧
      Rendered xml (Templates.applicationResponse (e.context "")).outline e.texts :=
  ⟨fun _ technical_key h => invoice_rendered hk h technical_key,
    fun _ h => support_document_rendered hk h, fun _ blank h => payroll_rendered hk h blank,
    fun _ => event_rendered hk⟩

/-- The code of `plainInvoice` with the key `key`. -/
def plainCode : String :=
  "f4ed75e9f992564de90b495e09668d8d345b1359e633f34d" ++
    "e6f744af8e098f5ed9c7fc4e0c897598188ba7d8b0931ca0"

def hexCodes : Codes where
  sha384 _ := plainCode
  fixed _ := ""

/-- A company with markup in its name, and one with a character that is none of XML. -/
theorem names_rendered :
    (∃ xml code, Returns (generateInvoiceXml halfEven hexCodes
        { plainInvoice with company_name := "A & <B/>" } "key") (xml, code) ∧
      IsDocumentOf xml.toList (Templates.invoice (Shape.document ⟨1, 1, true, true⟩)).outline) ∧
    ∃ xml code, Returns (generateInvoiceXml halfEven hexCodes
        { plainInvoice with company_name := "A\x00" } "key") (xml, code) ∧
      ¬ ∃ node, IsDocument xml.toList node := by
  have hcode : IsXmlText plainCode := by decide +kernel
  have hall := (accepted_rendered hexCodes (fun _ => hcode) halfEven).1
  have hchecks := hugeInvoice_checks
  have haccepted : ∀ name : String,
      (InvoicePayload.validateHeader { plainInvoice with company_name := name }) = .ok () →
      Returns (InvoicePayload.validate halfEven { plainInvoice with company_name := name }) () :=
    fun _ hheader => plainAmounts_accepted halfEven rfl hheader hchecks.2.1 hchecks.2.2 rfl rfl rfl
  have hshape : InvoicePayload.shape { plainInvoice with company_name := "A & <B/>" } =
      ⟨1, 1, true, true⟩ := by decide +kernel
  constructor
  · obtain ⟨type, template, xml, code, htype, htemplate, hreturns, hrendered⟩ :=
      hall _ "key" (haccepted "A & <B/>" (by decide +kernel))
    cases htype
    cases htemplate
    rw [hshape] at hrendered
    exact ⟨xml, code, hreturns, hrendered.document_iff.mpr (by decide)⟩
  · obtain ⟨type, template, xml, code, htype, htemplate, hreturns, hrendered⟩ :=
      hall _ "key" (haccepted "A\x00" (by decide +kernel))
    exact ⟨xml, code, hreturns, fun hnode =>
      absurd (hrendered.document_iff.mp (hrendered.of_document hnode)) (by decide)⟩

end DianService.Ubl
