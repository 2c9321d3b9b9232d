import DianService.Lib.Xml.Tokens

/-
  The characters of a well-formed document: every one of them may stand in XML. Tags and leaves say
  so of their names, values and text (`Event.Legal`), and a text has no characters but those of its
  tokens.
-/

namespace DianService.Lib.Xml

/-! ## Kinds of characters -/

theorem isXmlChar_of_between {a b c : Char} (h : a ≤ c ∧ c ≤ b)
    (hab : 0x20 ≤ a.toNat ∧ b.toNat < 0xFFFE) : isXmlChar c = true := by
  have hlow : a.toNat ≤ c.toNat := h.1
  have hhigh : c.toNat ≤ b.toNat := h.2
  simp only [isXmlChar, Bool.or_eq_true, Bool.and_eq_true, decide_eq_true_eq]
  omega

theorem isXmlChar_of_isNameChar {c : Char} (h : isNameChar c = true) : isXmlChar c = true := by
  simp only [isNameChar, isNameStart, isXmlChar, Bool.or_eq_true, Bool.and_eq_true,
    decide_eq_true_eq] at h ⊢
  omega

theorem isXmlChar_of_mem_qName {name : Text} (h : isQName name = true) {c : Char}
    (hc : c ∈ name) : isXmlChar c = true := by
  by_cases hname : isNameChar c = true
  · exact isXmlChar_of_isNameChar hname
  · by_cases hcolon : c = ':'
    · rw [hcolon]
      rfl
    · exact absurd hc (not_mem_of_isQName h (Bool.eq_false_iff.mpr hname) hcolon)

theorem isXmlChar_of_isSpace {c : Char} (h : isSpace c = true) : isXmlChar c = true := by
  simp only [isSpace, Bool.or_eq_true, decide_eq_true_eq] at h
  obtain ((rfl | rfl) | rfl) | rfl := h <;> rfl

theorem isXmlChar_of_isAlphanum {c : Char} (h : c.isAlphanum = true) : isXmlChar c = true := by
  obtain halpha | hdigit := (Bool.or_eq_true _ _).mp h
  · obtain hupper | hlower := (Bool.or_eq_true _ _).mp halpha
    · have hupper : 'A' ≤ c ∧ c ≤ 'Z' := of_decide_eq_true hupper
      exact isXmlChar_of_between hupper (by decide)
    · obtain ⟨hleft, hright⟩ := Bool.and_eq_true_iff.mp hlower
      have hlower : 'a' ≤ c ∧ c ≤ 'z' := ⟨of_decide_eq_true hleft, of_decide_eq_true hright⟩
      exact isXmlChar_of_between hlower (by decide)
  · obtain ⟨hleft, hright⟩ := Bool.and_eq_true_iff.mp hdigit
    have hdigit : '0' ≤ c ∧ c ≤ '9' := ⟨of_decide_eq_true hleft, of_decide_eq_true hright⟩
    exact isXmlChar_of_between hdigit (by decide)

theorem isXmlChar_of_digit? {b : Nat} {c : Char} (h : (digit? b c).isSome) :
    isXmlChar c = true := by
  cases hd : hexDigit? c with
  | none =>
    rw [digit?, hd] at h
    cases h
  | some d =>
    unfold hexDigit? at hd
    split at hd
    · exact isXmlChar_of_between ‹_› (by decide)
    · split at hd
      · exact isXmlChar_of_between ‹_› (by decide)
      · split at hd
        · exact isXmlChar_of_between ‹_› (by decide)
        · cases hd

theorem isXmlChar_of_mem_digits {b n : Nat} {digits : Text} (h : (digits? b n digits).isSome)
    {c : Char} (hc : c ∈ digits) : isXmlChar c = true := by
  induction digits generalizing n with
  | nil => cases hc
  | cons d ds ih =>
    rw [digits?] at h
    cases hd : digit? b d with
    | none =>
      rw [hd] at h
      cases h
    | some value =>
      rw [hd] at h
      obtain rfl | hc := List.mem_cons.mp hc
      · exact isXmlChar_of_digit? (by rw [hd]; rfl)
      · exact ih h hc

/-- Nothing but letters, digits and `#` stands in a reference. -/
theorem isXmlChar_of_mem_reference {name : Text} (h : (reference? name).isSome) {c : Char}
    (hc : c ∈ name) : isXmlChar c = true := by
  have hdigits : ∀ {b : Nat} {digits : Text}, (charRef? b digits).isSome → c ∈ digits →
      isXmlChar c = true := by
    intro b digits hsome hmem
    rw [charRef?] at hsome
    split at hsome
    · cases hsome
    · cases hd : digits? b 0 digits with
      | none =>
        rw [hd] at hsome
        cases hsome
      | some n => exact isXmlChar_of_mem_digits (by rw [hd]; rfl) hmem
  have hnames : ∀ entity ∈ ["amp", "lt", "gt", "quot", "apos"], ∀ d ∈ entity.toList,
      isXmlChar d = true := by decide
  unfold reference? at h
  split at h
  · exact hnames "amp" (by decide) c (by rwa [‹name = _›] at hc)
  · split at h
    · exact hnames "lt" (by decide) c (by rwa [‹name = _›] at hc)
    · split at h
      · exact hnames "gt" (by decide) c (by rwa [‹name = _›] at hc)
      · split at h
        · exact hnames "quot" (by decide) c (by rwa [‹name = _›] at hc)
        · split at h
          · exact hnames "apos" (by decide) c (by rwa [‹name = _›] at hc)
          · split at h
            · obtain rfl | hc := List.mem_cons.mp hc
              · rfl
              · obtain rfl | hc := List.mem_cons.mp hc
                · rfl
                · exact hdigits h hc
            · obtain rfl | hc := List.mem_cons.mp hc
              · rfl
              · exact hdigits h hc
            · cases h

/-! ## Tokens -/

def Attribute.Legal (a : Attribute) : Prop :=
  ∀ c ∈ a.key.toList ++ a.raw.toList, isXmlChar c = true

def Event.Legal : Event RawTag Leaf → Prop
  | .start t | .empty t | .close t => isQName t.name.toList ∧ ∀ a ∈ t.attributes, a.Legal
  | .leaf l => ∀ c ∈ l.spelling, isXmlChar c = true

theorem SpellsAttributes.legal {t : Text} {attributes : List Attribute}
    (h : SpellsAttributes t attributes) (ha : ∀ a ∈ attributes, a.Legal) :
    ∀ c ∈ t, isXmlChar c = true := by
  induction h with
  | nil => exact List.forall_mem_nil _
  | @cons space before after quote a t attributes hspace _ hbefore hafter hquote _ _ ih =>
    obtain ⟨ha, hrest⟩ := List.forall_mem_cons.mp ha
    obtain ⟨hkey, hraw⟩ := List.forall_mem_append.mp ha
    have hspaces : ∀ {s : Text}, IsSpaces s → ∀ c ∈ s, isXmlChar c = true :=
      fun hs c hc => isXmlChar_of_isSpace (hs c hc)
    have hquote : isXmlChar quote = true := by
      obtain rfl | rfl := hquote <;> rfl
    simp only [List.forall_mem_append, List.forall_mem_cons]
    exact ⟨⟨⟨⟨⟨hspaces hspace, hkey⟩, hspaces hbefore⟩, rfl, hspaces hafter⟩, hquote, hraw⟩,
      hquote, ih hrest⟩

theorem SpellsTokens.legal {t : Text} {es : List (Event RawTag Leaf)} (h : SpellsTokens t es)
    (hes : ∀ e ∈ es, e.Legal) : ∀ c ∈ t, isXmlChar c = true := by
  have hspaces : ∀ {s : Text}, IsSpaces s → ∀ c ∈ s, isXmlChar c = true :=
    fun hs c hc => isXmlChar_of_isSpace (hs c hc)
  induction h with
  | nil => exact List.forall_mem_nil _
  | text _ _ ih =>
    obtain ⟨hl, hrest⟩ := List.forall_mem_cons.mp hes
    exact List.forall_mem_append.mpr ⟨hl, ih hrest⟩
  | leaf _ _ ih =>
    obtain ⟨hl, hrest⟩ := List.forall_mem_cons.mp hes
    exact List.forall_mem_append.mpr ⟨hl, ih hrest⟩
  | empty ha hspace _ ih =>
    obtain ⟨⟨hname, hattributes⟩, hrest⟩ := List.forall_mem_cons.mp hes
    simp only [List.forall_mem_append, List.forall_mem_cons]
    exact ⟨⟨⟨⟨rfl, fun c => isXmlChar_of_mem_qName hname⟩, ha.legal hattributes⟩,
      hspaces hspace⟩, rfl, rfl, ih hrest⟩
  | start ha hspace _ ih =>
    obtain ⟨⟨hname, hattributes⟩, hrest⟩ := List.forall_mem_cons.mp hes
    simp only [List.forall_mem_append, List.forall_mem_cons]
    exact ⟨⟨⟨⟨rfl, fun c => isXmlChar_of_mem_qName hname⟩, ha.legal hattributes⟩,
      hspaces hspace⟩, rfl, ih hrest⟩
  | close hspace _ ih =>
    obtain ⟨⟨hname, -⟩, hrest⟩ := List.forall_mem_cons.mp hes
    simp only [List.forall_mem_append, List.forall_mem_cons]
    exact ⟨⟨⟨rfl, rfl, fun c => isXmlChar_of_mem_qName hname⟩, hspaces hspace⟩, rfl, ih hrest⟩

/-! ## Documents -/

theorem isXmlChar_of_isXml {cs : Text} {p : Char → Bool} (h : (cs.all p) = true)
    (hp : ∀ c, p c = true → isXmlChar c = true) : ∀ c ∈ cs, isXmlChar c = true :=
  fun c hc => hp c (List.all_eq_true.mp h c hc)

/-- The pseudo-attributes of a declaration. -/
theorem legal_of_isDeclaration {attributes : List Attribute} (h : isDeclaration attributes = true) :
    ∀ a ∈ attributes, a.Legal := by
  have hversion : ∀ a : Attribute, (decide (a.key = "version") && isVersion a.raw.toList) = true →
      a.Legal := by
    intro a ha
    simp only [isVersion, Bool.and_eq_true, decide_eq_true_eq] at ha
    obtain ⟨hkey, ⟨htake, -⟩, hdrop⟩ := ha
    rw [Attribute.Legal, hkey, List.forall_mem_append, ← List.take_append_drop 2 a.raw.toList,
      htake, List.forall_mem_append]
    exact ⟨by decide, by decide, isXmlChar_of_isXml hdrop fun c hc =>
      isXmlChar_of_isAlphanum (by rw [Char.isAlphanum, hc, Bool.or_true])⟩
  have hencoding : ∀ a : Attribute, isDeclaration.encoding a = true → a.Legal := by
    intro a ha
    simp only [isDeclaration.encoding, Bool.and_eq_true, decide_eq_true_eq] at ha
    rw [Attribute.Legal, ha.1, List.forall_mem_append]
    refine ⟨by decide, ?_⟩
    have hname := ha.2
    generalize a.raw.toList = raw at hname ⊢
    cases raw with
    | nil => exact List.forall_mem_nil _
    | cons c cs =>
      rw [isEncodingName, Bool.and_eq_true] at hname
      refine List.forall_mem_cons.mpr ⟨isXmlChar_of_isAlphanum
        (by rw [Char.isAlphanum, hname.1, Bool.true_or]), isXmlChar_of_isXml hname.2 fun d hd => ?_⟩
      simp only [Bool.or_eq_true, decide_eq_true_eq] at hd
      obtain ((hd | rfl) | rfl) | rfl := hd
      · exact isXmlChar_of_isAlphanum hd
      · rfl
      · rfl
      · rfl
  have hstandalone : ∀ a : Attribute, isDeclaration.standalone a = true → a.Legal := by
    intro a ha
    simp only [isDeclaration.standalone, Bool.and_eq_true, Bool.or_eq_true, decide_eq_true_eq] at ha
    obtain ⟨hkey, hraw | hraw⟩ := ha <;> rw [Attribute.Legal, hkey, hraw] <;> decide
  cases attributes with
  | nil => cases h
  | cons version others =>
    obtain ⟨hfirst, hothers⟩ := Bool.and_eq_true_iff.mp h
    refine List.forall_mem_cons.mpr ⟨hversion version hfirst, ?_⟩
    cases others with
    | nil => exact List.forall_mem_nil _
    | cons a others =>
      cases others with
      | nil =>
        exact List.forall_mem_singleton.mpr
          ((Bool.or_eq_true_iff.mp hothers).elim (hencoding a) (hstandalone a))
      | cons b others =>
        cases others with
        | nil =>
          obtain ⟨ha, hb⟩ := Bool.and_eq_true_iff.mp hothers
          exact List.forall_mem_cons.mpr
            ⟨hencoding a ha, List.forall_mem_singleton.mpr (hstandalone b hb)⟩
        | cons => cases hothers

theorem SpellsDeclaration.legal {raw : String} (h : SpellsDeclaration raw) :
    ∀ c ∈ raw.toList, isXmlChar c = true := by
  obtain ⟨a, space, attributes, hraw, ha, hspace, hdeclaration⟩ := h
  rw [hraw]
  simp only [List.forall_mem_append]
  exact ⟨⟨by decide, ha.legal (legal_of_isDeclaration hdeclaration)⟩,
    fun c hc => isXmlChar_of_isSpace (hspace c hc)⟩

theorem isXmlChar_of_isPi {raw : Text} (h : isPi raw = true) : ∀ c ∈ raw, isXmlChar c = true := by
  simp only [isPi, Bool.and_eq_true] at h
  exact List.all_eq_true.mp h.1.2

theorem isXmlChar_of_isComment {raw : Text} (h : isComment raw = true) :
    ∀ c ∈ raw, isXmlChar c = true := by
  simp only [isComment, Bool.and_eq_true] at h
  exact List.all_eq_true.mp h.1.1

theorem Leaf.legal_of_spelling {l : Leaf} {start stop raw : Text}
    (hl : l.spelling = start ++ raw ++ stop) (hstart : ∀ c ∈ start, isXmlChar c = true)
    (hstop : ∀ c ∈ stop, isXmlChar c = true) (hraw : ∀ c ∈ raw, isXmlChar c = true) :
    Event.Legal (.leaf l) := by
  show ∀ c ∈ l.spelling, isXmlChar c = true
  rw [hl, List.forall_mem_append, List.forall_mem_append]
  exact ⟨⟨hstart, hraw⟩, hstop⟩

theorem Leaf.WellFormed.legal {l : Leaf} (h : l.WellFormed) : Event.Legal (.leaf l) := by
  cases l with
  | text raw =>
    intro c hc
    have hchar := List.all_eq_true.mp h.2.1 c hc
    simp only [Bool.and_eq_true] at hchar
    exact hchar.1.1
  | cdata raw => exact legal_of_spelling rfl (by decide) (by decide) (List.all_eq_true.mp h.1)
  | ref name =>
    exact @legal_of_spelling _ ['&'] [';'] _ rfl (by decide) (by decide)
      fun c => isXmlChar_of_mem_reference h
  | pi raw => exact legal_of_spelling rfl (by decide) (by decide) (isXmlChar_of_isPi h)
  | comment raw => exact legal_of_spelling rfl (by decide) (by decide) (isXmlChar_of_isComment h)
  | decl raw | doctype raw => cases h

theorem Leaf.legal_of_isMisc {l : Leaf} (h : l.isMisc = true) : Event.Legal (.leaf l) := by
  cases l with
  | text raw => exact fun c hc => isXmlChar_of_isSpace (List.all_eq_true.mp h c hc)
  | pi raw => exact legal_of_spelling rfl (by decide) (by decide) (isXmlChar_of_isPi h)
  | comment raw => exact legal_of_spelling rfl (by decide) (by decide) (isXmlChar_of_isComment h)
  | cdata raw | ref name | decl raw | doctype raw => cases h

theorem RawTag.WellFormed.legal {outer : Bindings} {t : RawTag} (h : t.WellFormed outer) :
    isQName t.name.toList ∧ ∀ a ∈ t.attributes, a.Legal := by
  refine ⟨h.name, fun a ha => List.forall_mem_append.mpr
    ⟨fun c => isXmlChar_of_mem_qName (h.qnames a ha), fun c hc => ?_⟩⟩
  have hliteral := h.literals a ha
  rw [isLiteral, Bool.and_eq_true, List.all_eq_true] at hliteral
  exact (Bool.and_eq_true_iff.mp (hliteral.1 c hc)).1

theorem WellFormedIn.legal {outer : Bindings} {f : Forest RawTag Leaf} (h : WellFormedIn outer f) :
    ∀ e ∈ f.events, e.Legal := by
  induction f generalizing outer with
  | nil => exact List.forall_mem_nil _
  | leaf l rest ih => exact List.forall_mem_cons.mpr ⟨h.1.legal, ih h.2⟩
  | empty t rest ih => exact List.forall_mem_cons.mpr ⟨h.1.legal, ih h.2⟩
  | node t kids rest ihk ihr =>
    rw [Forest.events, List.forall_mem_cons, List.forall_mem_append, List.forall_mem_cons]
    exact ⟨h.1.legal, ihk h.2.1, h.1.legal, ihr h.2.2⟩

/-- A document has no characters that XML does not admit. -/
theorem IsDocument.legal {t : Text} {d : DocumentNode} (h : IsDocument t d) :
    ∀ c ∈ t, isXmlChar c = true := by
  refine h.1.spells.tokens.legal ?_
  have hmisc : ∀ ls : List Leaf, (∀ l ∈ ls, l.isMisc = true) →
      ∀ e ∈ ls.map Event.leaf, Event.Legal e := fun ls hls e he => by
    obtain ⟨l, hl, rfl⟩ := List.mem_map.mp he
    exact Leaf.legal_of_isMisc (hls l hl)
  have hepilog : ∀ e ∈ (d.epilog.foldr Forest.leaf (.nil : Forest RawTag Leaf)).events,
      Event.Legal e := by
    rw [(Forest.foldr_leaf _ _).1, List.forall_mem_append]
    exact ⟨hmisc _ h.2.epilog, List.forall_mem_nil _⟩
  rw [DocumentNode.forest, (Forest.foldr_leaf _ _).1, List.map_append, List.forall_mem_append,
    List.forall_mem_append]
  refine ⟨⟨fun e he => ?_, hmisc _ h.2.prolog⟩, ?_⟩
  · obtain ⟨l, hl, rfl⟩ := List.mem_map.mp he
    obtain ⟨raw, hraw, rfl⟩ := List.mem_map.mp hl
    exact Leaf.legal_of_spelling rfl (by decide) (by decide)
      (h.1.declaration raw (Option.mem_toList.mp hraw)).legal
  · have hroot := h.2.element
    unfold DocumentNode.element at hroot ⊢
    cases hcontent : d.content with
    | none =>
      rw [hcontent] at hroot
      exact List.forall_mem_cons.mpr ⟨hroot.1.legal, hepilog⟩
    | some kids =>
      rw [hcontent] at hroot
      show ∀ e ∈ Forest.events (.node d.root kids _), Event.Legal e
      rw [Forest.events, List.forall_mem_cons, List.forall_mem_append, List.forall_mem_cons]
      exact ⟨hroot.1.legal, hroot.2.1.legal, hroot.1.legal, hepilog⟩

end DianService.Lib.Xml
