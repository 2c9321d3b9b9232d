import DianService.Lib.Xml.Characters
import DianService.Lib.Xml.Markup
import DianService.Lib.Xml.Written
import Mathlib.Data.List.Infix
import Mathlib.Data.List.Nodup

/-
  When filled markup is well formed. Names, attributes and namespaces are those of the template and
  can be checked on its outline, the tree of its tags without text; then what is printed is well
  formed if every character of the values may stand in XML, and no document otherwise.
-/

namespace DianService.Lib.Xml

/-! ## Outlines -/

/-- The name of a tag and the keys of its attributes. -/
abbrev TagShape := String × List String

/-- A tree without character data. -/
abbrev Outline := Forest TagShape Leaf

def RawTag.shape (t : RawTag) : TagShape := (t.name, t.attributes.map Attribute.key)

def PartTag.shape (t : PartTag) : TagShape := (t.name, t.attributes.map PartAttribute.key)

def Forest.outline : Forest RawTag Leaf → Outline
  | .nil => .nil
  | .leaf l rest => if l.isCharacters then outline rest else .leaf l (outline rest)
  | .empty t rest => .empty t.shape (outline rest)
  | .node t kids rest => .node t.shape (outline kids) (outline rest)

def Markup.outline : Markup → Outline
  | .nil => .nil
  | .leaf (.text _) rest => outline rest
  | .leaf (.comment raw) rest => .leaf (.comment raw) (outline rest)
  | .leaf (.decl raw) rest => .leaf (.decl raw) (outline rest)
  | .empty t rest => .empty t.shape (outline rest)
  | .node t kids rest => .node t.shape (outline kids) (outline rest)

theorem PartTag.raw_shape (t : PartTag) : t.raw.shape = t.shape := by
  rw [PartTag.raw, RawTag.shape, List.map_map]
  rfl

theorem outline_consChar (c : Char) (f : Forest RawTag Leaf) :
    (f.consChar c).outline = f.outline := by
  obtain ⟨raw, rest, rfl, hchar⟩ | ⟨-, hchar⟩ := consChar_cases c f
  · rw [hchar]
    rfl
  · rw [hchar]
    rfl

theorem outline_consValue (c : Char) (f : Forest RawTag Leaf) :
    (f.consValue c).outline = f.outline := by
  unfold Forest.consValue
  cases escapeName? c with
  | none => exact outline_consChar c f
  | some name => exact if_pos rfl

theorem outline_part (part : Part) (f : Forest RawTag Leaf) :
    (part.before f).outline = f.outline := by
  cases part with
  | lit s =>
    exact List.foldrRecOn (motive := fun g => Forest.outline g = f.outline) _ _ rfl
      fun g hg c _ => (outline_consChar c g).trans hg
  | val s =>
    exact List.foldrRecOn (motive := fun g => Forest.outline g = f.outline) _ _ rfl
      fun g hg c _ => (outline_consValue c g).trans hg

/-- What is spelled has the outline of the markup. -/
theorem outline_forest (m : Markup) : m.forest.outline = m.outline := by
  induction m with
  | nil => rfl
  | leaf l rest ih =>
    cases l with
    | comment raw | decl raw => exact congrArg (Forest.leaf _) ih
    | text parts =>
      exact (List.foldrRecOn (motive := fun g => Forest.outline g = Forest.outline (Markup.forest rest)) parts _
        rfl fun g hg part _ => (outline_part part g).trans hg).trans ih
  | empty t rest ih =>
    rw [Markup.forest, Forest.outline, ih, PartTag.raw_shape, Markup.outline]
  | node t kids rest ihk ihr =>
    rw [Markup.forest, Forest.outline, ihk, ihr, PartTag.raw_shape, Markup.outline]

theorem outline_append (m n : Markup) :
    Markup.outline (m ++ n) = Markup.outline m ++ Markup.outline n := by
  show Markup.outline (Forest.append m n) = Forest.append (Markup.outline m) (Markup.outline n)
  induction m with
  | nil => rfl
  | leaf l rest ih =>
    cases l with
    | text parts => exact ih
    | comment raw | decl raw => exact congrArg (Forest.leaf _) ih
  | empty t rest ih => exact congrArg (Forest.empty _) ih
  | node t kids rest _ ih => exact congrArg (Forest.node _ _) ih

/-! ## What can be checked of an outline -/

/-- Names without declarations, where the prefixes are declared. -/
def isPlaced (prefixes : List Text) (t : TagShape) : Bool :=
  isQName t.1.toList && ((splitName t.1.toList).1 = [] || prefixes.contains (splitName t.1.toList).1) &&
    (t.2.all fun key => isNCName key.toList && key ≠ "xmlns") && t.2.Nodup

def Event.isPlaced (prefixes : List Text) : Event TagShape Leaf → Bool
  | .start t | .empty t => Xml.isPlaced prefixes t
  | .close _ => true
  | .leaf (.comment raw) => isComment raw.toList
  | .leaf _ => false

/-- Content whose elements declare nothing. -/
def Outline.isPlaced (prefixes : List Text) (o : Outline) : Bool :=
  (Forest.events o).all (Event.isPlaced prefixes)

theorem events_append {τ ν : Type} (f g : Forest τ ν) :
    (f ++ g).events = f.events ++ g.events := by
  show (Forest.append f g).events = _
  induction f with
  | nil => rfl
  | leaf l rest ih => exact congrArg (_ :: ·) ih
  | empty t rest ih => exact congrArg (_ :: ·) ih
  | node t kids rest _ ih => rw [Forest.append, Forest.events, ih]; simp

theorem isPlaced_append (prefixes : List Text) (o o' : Outline) :
    Outline.isPlaced prefixes (o ++ o') = (o.isPlaced prefixes && o'.isPlaced prefixes) := by
  rw [Outline.isPlaced, events_append, List.all_append]
  rfl

theorem isPlaced_mono {prefixes prefixes' : List Text} (h : ∀ p ∈ prefixes, p ∈ prefixes')
    {o : Outline} (ho : o.isPlaced prefixes = true) : o.isPlaced prefixes' = true := by
  have htag : ∀ t, isPlaced prefixes t = true → isPlaced prefixes' t = true := by
    intro t ht
    simp only [isPlaced, Bool.and_eq_true, Bool.or_eq_true, decide_eq_true_eq,
      List.contains_iff_mem] at ht ⊢
    exact ⟨⟨⟨ht.1.1.1, ht.1.1.2.imp_right (h _)⟩, ht.1.2⟩, ht.2⟩
  refine List.all_eq_true.mpr fun e he => ?_
  have hevent := List.all_eq_true.mp ho e he
  cases e with
  | start t | empty t => exact htag t hevent
  | close n => rfl
  | leaf l =>
    cases l with
    | comment raw => exact hevent
    | _ => cases hevent

/-! ## Values -/

/-- Every character may stand in XML. -/
def IsXmlText (s : String) : Prop := ∀ c ∈ s.toList, isXmlChar c = true

instance (s : String) : Decidable (IsXmlText s) := inferInstanceAs (Decidable (∀ c ∈ _, _))

def Part.value? : Part → Option String
  | .lit _ => none
  | .val s => some s

def PartTag.values (t : PartTag) : List String :=
  t.attributes.flatMap fun a => a.value.filterMap Part.value?

def PartLeaf.values : PartLeaf → List String
  | .text parts => parts.filterMap Part.value?
  | .comment _ | .decl _ => []

/-- The values that are printed, in order. -/
def Markup.values : Markup → List String
  | .nil => []
  | .leaf l rest => l.values ++ values rest
  | .empty t rest => t.values ++ values rest
  | .node t kids rest => t.values ++ (values kids ++ values rest)

theorem values_append (m n : Markup) : Markup.values (m ++ n) = m.values ++ n.values := by
  show Markup.values (Forest.append m n) = _
  induction m with
  | nil => rfl
  | leaf l rest ih => rw [Forest.append, Markup.values, ih, Markup.values, List.append_assoc]
  | empty t rest ih => rw [Forest.append, Markup.values, ih, Markup.values, List.append_assoc]
  | node t kids rest _ ih =>
    rw [Forest.append, Markup.values, ih, Markup.values, List.append_assoc, List.append_assoc]

/-- Every value may stand in XML. -/
def Markup.Legal (m : Markup) : Prop := ∀ v ∈ m.values, IsXmlText v

def PartAttribute.Legal (a : PartAttribute) : Prop :=
  ∀ v ∈ a.value.filterMap Part.value?, IsXmlText v

/-! ## Attributes -/

theorem lit_quoted {s : String} (h : (Part.lit s).quoted = true) :
    ∀ c ∈ s.toList, isXmlChar c = true ∧ c ≠ '<' ∧ c ≠ '&' ∧ c ≠ '"' := by
  have hall : (isPlain s && s.toList.all (· ≠ '"')) = true := h
  simp only [isPlain, Bool.and_eq_true, List.all_eq_true, decide_eq_true_eq] at hall
  obtain ⟨hplain, hquote⟩ := hall
  intro c hc
  obtain ⟨⟨⟨hxml, hlt⟩, -⟩, hamp⟩ := hplain c hc
  exact ⟨hxml, hlt, hamp, hquote c hc⟩

/-- The references of a value resolve. -/
def Resolves (raw : Text) : Prop := (attributeValue raw).isSome

theorem resolves_cons {c : Char} (hc : c ≠ '&') {t : Text} (h : Resolves t) : Resolves (c :: t) := by
  have hcons : ∀ d, d ≠ '&' → (valueFrom none (d :: normalizeEol t)).isSome = true := by
    intro d hd
    rw [valueFrom, if_neg hd, Option.isSome_map]
    exact h
  show (valueFrom none (normalizeEol (c :: t))).isSome = true
  by_cases hr : c = '\r'
  · cases t with
    | nil =>
      rw [hr]
      rfl
    | cons d t =>
      by_cases hd : d = '\n'
      · -- the two are one line end
        rw [hr, hd, normalizeEol]
        rw [hd] at h
        exact h
      · have heol : normalizeEol (c :: d :: t) = '\n' :: normalizeEol (d :: t) := by
          rw [hr, normalizeEol]
          exact fun cs heq => hd (List.cons.inj heq).1
        rw [heol]
        exact hcons _ (by decide)
  · have heol : normalizeEol (c :: t) = c :: normalizeEol t := by
      rw [normalizeEol]
      · exact fun _ heq => absurd heq hr
      · exact fun heq => absurd heq hr
    rw [heol]
    exact hcons c hc

theorem resolves_escape (c : Char) {t : Text} (h : Resolves t) :
    Resolves (escapeChar c ++ t) := by
  cases hc : escapeName? c with
  | none =>
    rw [escapeChar_of_none hc]
    exact resolves_cons (escapeName?_none hc).2.2.1 h
  | some name =>
    have hvalue : attributeValue (escapeChar c ++ t) = (attributeValue t).map (c :: ·) := by
      rw [escapeChar_of_some hc]
      unfold escapeName? at hc
      split at hc <;> cases hc <;> rfl
    rw [Resolves, hvalue, Option.isSome_map]
    exact h

theorem resolves_parts {parts : List Part} (h : ∀ part ∈ parts, part.quoted = true) :
    Resolves (printParts parts) := by
  induction parts with
  | nil => rfl
  | cons part parts ih =>
    obtain ⟨hpart, hlater⟩ := List.forall_mem_cons.mp h
    rw [printParts, List.flatMap_cons]
    have hrest : Resolves (printParts parts) := ih hlater
    show Resolves (part.print ++ printParts parts)
    cases part with
    | lit s =>
      have hchars := lit_quoted hpart
      show Resolves (s.toList ++ _)
      generalize s.toList = chars at hchars ⊢
      induction chars with
      | nil => exact hrest
      | cons c cs ihs =>
        obtain ⟨hc, hcs⟩ := List.forall_mem_cons.mp hchars
        exact resolves_cons hc.2.2.1 (ihs hcs)
    | val s =>
      show Resolves (s.toList.flatMap escapeChar ++ _)
      induction s.toList with
      | nil => exact hrest
      | cons c cs ihs =>
        rw [List.flatMap_cons, List.append_assoc]
        exact resolves_escape c ihs

theorem isXmlChar_escapeChar {c d : Char} (hc : isXmlChar c = true) (h : d ∈ escapeChar c) :
    isXmlChar d = true := by
  cases hname : escapeName? c with
  | none =>
    rw [escapeChar_of_none hname, List.mem_singleton] at h
    rw [h]
    exact hc
  | some name =>
    have hall : (escapeChar c).all isXmlChar = true := by
      rw [escapeChar_of_some hname]
      unfold escapeName? at hname
      split at hname <;> cases hname <;> decide
    exact List.all_eq_true.mp hall d h

/-- What is printed between quotes is a literal. -/
theorem isLiteral_parts {parts : List Part} (h : ∀ part ∈ parts, part.quoted = true)
    (hvalues : ∀ v ∈ parts.filterMap Part.value?, IsXmlText v) :
    isLiteral (printParts parts) = true := by
  have hall : ∀ c ∈ printParts parts, isXmlChar c = true ∧ c ≠ '<' ∧ c ≠ '"' := by
    intro c hc
    obtain ⟨part, hpart, hc⟩ := List.mem_flatMap.mp hc
    cases part with
    | lit s =>
      obtain ⟨hxml, hlt, -, hquote⟩ := lit_quoted (h _ hpart) c hc
      exact ⟨hxml, hlt, hquote⟩
    | val s =>
      obtain ⟨d, hd, hc⟩ := List.mem_flatMap.mp hc
      have hs : IsXmlText s := hvalues s (List.mem_filterMap.mpr ⟨_, hpart, rfl⟩)
      obtain ⟨hlt, -, hquote⟩ := escapeChar_quoted hc
      exact ⟨isXmlChar_escapeChar (hs d hd) hc, hlt, hquote⟩
  have hquote : '"' ∉ printParts parts := fun hmem => (hall _ hmem).2.2 rfl
  rw [isLiteral, decide_eq_true hquote, Bool.true_or, Bool.and_true, List.all_eq_true]
  intro c hc
  obtain ⟨hxml, hlt, -⟩ := hall c hc
  rw [hxml, decide_eq_true hlt]
  rfl

/-! ## Tags -/

/-- What a template has to say of a tag where `b` is in scope. -/
structure PartTag.Placed (b : Bindings) (t : PartTag) : Prop where
  sound : t.sound = true
  keys : (t.attributes.map PartAttribute.key).Nodup
  declarations : Bindings.Valid t.raw.bindings
  element : Usable (t.raw.bindings ++ b) (splitName t.name.toList).1
  attributes : ∀ a ∈ t.raw.plain, Usable (t.raw.bindings ++ b) (splitName a.key.toList).1
  locals : (t.raw.plain.map fun a => (splitName a.key.toList).2).Nodup

theorem PartTag.Placed.wellFormed {b : Bindings} {t : PartTag} (h : t.Placed b)
    (hvalues : ∀ v ∈ t.values, IsXmlText v) : t.raw.WellFormed b := by
  obtain ⟨hname, hattributes⟩ := Bool.and_eq_true_iff.mp h.sound
  have hsound : ∀ a ∈ t.attributes, isQName a.key.toList = true ∧
      ∀ part ∈ a.value, part.quoted = true := by
    intro a ha
    have hall := List.all_eq_true.mp hattributes a ha
    simp only [PartAttribute.sound, Bool.and_eq_true, List.all_eq_true] at hall
    exact ⟨hall.1.2, hall.2⟩
  have hraw : ∀ P : Attribute → Prop, (∀ a ∈ t.attributes, P a.raw) →
      ∀ a ∈ t.raw.attributes, P a := fun P hP a ha => by
    obtain ⟨part, hpart, rfl⟩ := List.mem_map.mp ha
    exact hP part hpart
  have hkeys : t.raw.attributes.map Attribute.key = t.attributes.map PartAttribute.key := by
    rw [PartTag.raw, List.map_map]
    rfl
  refine ⟨hraw _ fun a ha => ?_, hraw _ fun a ha => ?_, hkeys ▸ h.keys, hname,
    hraw _ fun a ha => (hsound a ha).1, h.declarations, h.element, h.attributes, ?_⟩
  · rw [PartAttribute.raw, String.toList_ofList]
    exact resolves_parts (hsound a ha).2
  · rw [PartAttribute.raw, String.toList_ofList]
    exact isLiteral_parts (hsound a ha).2 fun v hv =>
      hvalues v (List.mem_flatMap.mpr ⟨a, ha, hv⟩)
  · -- names with different local parts are different
    refine List.Nodup.of_map Prod.snd ?_
    rw [List.map_map]
    exact h.locals

/-- A key without a prefix declares nothing, but for `xmlns`. -/
theorem declared?_none {key : String} (h : isNCName key.toList = true) (hne : key ≠ "xmlns") :
    declared? key.toList = none := by
  have hcolon : ':' ∉ key.toList := not_mem_of_isNCName h rfl
  unfold declared?
  rw [if_neg fun heq => hne (String.toList_injective heq), if_neg]
  intro heq
  refine hcolon (List.mem_of_mem_take (i := 6) ?_)
  rw [heq]
  decide

/-- What the keys of a tag that declares nothing are. -/
theorem keys_of_shape {prefixes : List Text} {t : PartTag} (h : isPlaced prefixes t.shape = true) :
    ∀ a ∈ t.raw.attributes, isNCName a.key.toList = true ∧ declared? a.key.toList = none := by
  simp only [isPlaced, PartTag.shape, Bool.and_eq_true, List.all_eq_true, List.forall_mem_map] at h
  intro a ha
  obtain ⟨part, hpart, rfl⟩ := List.mem_map.mp ha
  obtain ⟨hname, hne⟩ := h.1.2 part hpart
  exact ⟨hname, declared?_none hname (of_decide_eq_true hne)⟩

theorem bindings_of_shape {prefixes : List Text} {t : PartTag}
    (h : isPlaced prefixes t.shape = true) : t.raw.bindings = [] :=
  List.filterMap_eq_nil_iff.mpr fun a ha => by rw [(keys_of_shape h a ha).2]; rfl

theorem PartTag.placed_of_shape {prefixes : List Text} {b : Bindings} {t : PartTag}
    (hsound : t.sound = true) (h : isPlaced prefixes t.shape = true)
    (hprefixes : ∀ p ∈ prefixes, p ∈ b.map Prod.fst) : t.Placed b := by
  have hkeys := keys_of_shape h
  have hplain : t.raw.plain = t.raw.attributes :=
    List.filter_eq_self.mpr fun a ha => by rw [(hkeys a ha).2]; rfl
  have hsplit : ∀ a ∈ t.raw.attributes, splitName a.key.toList = ([], a.key.toList) :=
    fun a ha => splitName_of_not_colon (not_mem_of_isNCName (hkeys a ha).1 rfl)
  have hbindings := bindings_of_shape h
  simp only [isPlaced, PartTag.shape, Bool.and_eq_true, Bool.or_eq_true] at h
  obtain ⟨⟨⟨-, hname⟩, -⟩, hnodup⟩ := h
  have hnodup : (t.attributes.map PartAttribute.key).Nodup := of_decide_eq_true hnodup
  refine ⟨hsound, hnodup, ?_, ?_, fun a ha => ?_, ?_⟩
  · rw [hbindings]
    exact ⟨List.forall_mem_nil _, List.forall_mem_nil _, List.forall_mem_nil _⟩
  · rw [hbindings, List.nil_append]
    exact hname.imp of_decide_eq_true fun hmem =>
      Or.inr (hprefixes _ (List.contains_iff_mem.mp hmem))
  · rw [hplain] at ha
    rw [hsplit a ha]
    exact Or.inl rfl
  · have hlocals : (t.raw.plain.map fun a => (splitName a.key.toList).2) =
        (t.attributes.map PartAttribute.key).map String.toList := by
      rw [hplain, List.map_congr_left fun a ha => by rw [hsplit a ha], PartTag.raw, List.map_map,
        List.map_map]
      rfl
    rw [hlocals]
    exact hnodup.map fun _ _ heq => String.toList_injective heq

/-! ## Tags that declare -/

/-- A declaration of a namespace, as it should be. -/
def Declares (p uri : Text) : Prop :=
  (p ≠ [] → isNCName p = true) ∧ p ≠ "xml".toList ∧ p ≠ "xmlns".toList ∧
    uri ≠ [] ∧ uri ≠ XML_NAMESPACE ∧ uri ≠ XMLNS_NAMESPACE ∧
    ∀ c ∈ uri, c ≠ '&' ∧ isSpace c = false

instance (p uri : Text) : Decidable (Declares p uri) := inferInstanceAs (Decidable (_ ∧ _))

def PartAttribute.declares (a : PartAttribute) : Bool :=
  match declared? a.key.toList with
  | none => false
  | some p => Declares p (printParts a.value)

/-- A tag that only declares. -/
def PartTag.declares (t : PartTag) : Bool :=
  isNCName t.name.toList && t.attributes.all PartAttribute.declares &&
    (t.attributes.map PartAttribute.key).Nodup

theorem attributeValue_of_plain {raw : Text} (h : ∀ c ∈ raw, c ≠ '&' ∧ isSpace c = false) :
    attributeValue raw = some raw := by
  have hlines : normalizeEol raw = raw := by
    induction raw with
    | nil => rfl
    | cons c cs ih =>
      obtain ⟨hc, hcs⟩ := List.forall_mem_cons.mp h
      have hne : c ≠ '\r' := fun heq => by
        rw [heq] at hc
        cases hc.2
      rw [normalizeEol]
      · rw [ih hcs]
      · exact fun _ heq => absurd heq hne
      · exact fun heq => absurd heq hne
  rw [attributeValue, hlines]
  clear hlines
  induction raw with
  | nil => rfl
  | cons c cs ih =>
    obtain ⟨hc, hcs⟩ := List.forall_mem_cons.mp h
    rw [valueFrom, if_neg hc.1, ih hcs, hc.2]
    rfl

theorem PartAttribute.declares_iff {a : PartAttribute} : a.declares = true ↔
    ∃ p, declared? a.key.toList = some p ∧ Declares p (printParts a.value) := by
  unfold PartAttribute.declares
  cases declared? a.key.toList with
  | none => simp
  | some p => simp

section Declares

variable {t : PartTag} (h : t.declares = true)

include h

theorem PartTag.binding_of_declares {d : Text × Text} (hd : d ∈ t.raw.bindings) :
    (d.1 ≠ [] → isNCName d.1 = true) ∧ d.1 ≠ "xml".toList ∧ d.1 ≠ "xmlns".toList ∧
      d.2 ≠ [] ∧ d.2 ≠ XML_NAMESPACE ∧ d.2 ≠ XMLNS_NAMESPACE := by
  simp only [PartTag.declares, Bool.and_eq_true, List.all_eq_true] at h
  obtain ⟨a, ha, hd⟩ := List.mem_filterMap.mp hd
  obtain ⟨part, hpart, rfl⟩ := List.mem_map.mp ha
  obtain ⟨p, hp, hname, hxml, hxmlns, hsome, hne, hne', hplain⟩ :=
    PartAttribute.declares_iff.mp (h.1.2 part hpart)
  have hvalue : part.raw.value = printParts part.value := by
    rw [Attribute.value, PartAttribute.raw, String.toList_ofList, attributeValue_of_plain hplain]
    rfl
  rw [PartAttribute.raw, hp, Option.map_some, Option.some.injEq] at hd
  rw [← hd]
  show _ ∧ _ ∧ _ ∧ part.raw.value ≠ [] ∧ part.raw.value ≠ _ ∧ part.raw.value ≠ _
  rw [hvalue]
  exact ⟨hname, hxml, hxmlns, hsome, hne, hne'⟩

theorem PartTag.placed_of_declares (hsound : t.sound = true) : t.Placed [] := by
  have hbinding := fun d hd => binding_of_declares h (d := d) hd
  simp only [PartTag.declares, Bool.and_eq_true, List.all_eq_true] at h
  obtain ⟨⟨hname, hattributes⟩, hnodup⟩ := h
  have hplain : t.raw.plain = [] := by
    rw [RawTag.plain, List.filter_eq_nil_iff]
    intro a ha
    obtain ⟨part, hpart, rfl⟩ := List.mem_map.mp ha
    obtain ⟨p, hp, -⟩ := PartAttribute.declares_iff.mp (hattributes part hpart)
    rw [PartAttribute.raw, hp]
    exact Bool.false_ne_true
  refine ⟨hsound, of_decide_eq_true hnodup, ⟨fun d hd hne => ?_, fun d hd => ?_, fun d hd => ?_⟩,
    .inl ?_, ?_, ?_⟩
  · exact ⟨(hbinding d hd).1 hne, (hbinding d hd).2.2.2.1⟩
  · exact iff_of_false (hbinding d hd).2.1 (hbinding d hd).2.2.2.2.1
  · exact ⟨(hbinding d hd).2.2.1, (hbinding d hd).2.2.2.2.2⟩
  · rw [splitName_of_not_colon (not_mem_of_isNCName hname rfl)]
  · rw [hplain]
    exact List.forall_mem_nil _
  · rw [hplain]
    exact List.nodup_nil

end Declares

theorem PartTag.prefixes_of_bindings (t : PartTag) : t.raw.bindings.map Prod.fst =
    t.attributes.filterMap fun a => declared? a.key.toList := by
  rw [RawTag.bindings, PartTag.raw, List.filterMap_map, List.map_filterMap]
  refine List.filterMap_congr fun a _ => ?_
  cases h : declared? a.key.toList <;> simp [PartAttribute.raw, h]

/-! ## Content -/

section Content

variable {b : Bindings}

/-- Well-formed content whose character data, if it starts with some, could be continued. -/
def Continues (b : Bindings) (f : Forest RawTag Leaf) : Prop :=
  WellFormedIn b f ∧ ∀ raw rest, f = .leaf (.text raw) rest → '>' ∉ raw.toList

theorem continues_consChar {c : Char} (hxml : isXmlChar c = true) (hlt : c ≠ '<') (hgt : c ≠ '>')
    (hamp : c ≠ '&') {f : Forest RawTag Leaf} (h : Continues b f) : Continues b (f.consChar c) := by
  have hleaf : ∀ {cs : Text} {g : Forest RawTag Leaf}, '>' ∉ cs →
      (∀ d ∈ cs, (isXmlChar d && d ≠ '<' && d ≠ '&') = true) → WellFormedIn b g →
      Continues b (.leaf (.text (String.ofList (c :: cs))) g) := by
    intro cs g hcs hall hg
    have hnot : '>' ∉ c :: cs := by
      rw [List.mem_cons, not_or]
      exact ⟨hgt.symm, hcs⟩
    refine ⟨⟨⟨fun heq => ?_, ?_, ?_⟩, hg⟩, fun raw rest heq => ?_⟩
    · have hnil := congrArg String.toList heq
      rw [String.toList_ofList] at hnil
      cases hnil
    · rw [String.toList_ofList, List.all_cons, List.all_eq_true.mpr hall, hxml,
        decide_eq_true hlt, decide_eq_true hamp]
      rfl
    · -- the end of a CDATA section has a character that is not there
      rw [String.toList_ofList, Bool.eq_false_iff]
      intro hin
      obtain ⟨u, hu, hprefix⟩ := List.any_eq_true.mp hin
      obtain ⟨v, rfl⟩ := List.isPrefixOf_iff_prefix.mp hprefix
      have hend : '>' ∈ "]]>".toList ++ v := List.mem_append_left v (by decide)
      rw [String.toList_ofList] at hu
      exact hnot (((List.mem_tails _ _).mp hu).subset hend)
    · cases heq
      rw [String.toList_ofList]
      exact hnot
  obtain ⟨raw, rest, rfl, hchar⟩ | ⟨-, hchar⟩ := consChar_cases c f
  · rw [hchar]
    obtain ⟨⟨⟨-, hall, -⟩, hrest⟩, hgt⟩ := h
    exact hleaf (hgt raw rest rfl) (List.all_eq_true.mp hall) hrest
  · rw [hchar]
    exact hleaf List.not_mem_nil (List.forall_mem_nil _) h.1

theorem continues_consValue {c : Char} (hxml : isXmlChar c = true) {f : Forest RawTag Leaf}
    (h : Continues b f) : Continues b (f.consValue c) := by
  unfold Forest.consValue
  cases hc : escapeName? c with
  | none =>
    obtain ⟨hlt, hgt, hamp, -⟩ := escapeName?_none hc
    exact continues_consChar hxml hlt hgt hamp h
  | some name =>
    refine ⟨⟨?_, h.1⟩, fun raw rest heq => by cases heq⟩
    show (reference? (String.ofList name).toList).isSome = true
    rw [String.toList_ofList, (escapeName?_some hc).1]
    rfl

theorem continues_part {part : Part} (hplain : part.plain = true)
    (hvalue : ∀ v, part.value? = some v → IsXmlText v) {f : Forest RawTag Leaf}
    (h : Continues b f) : Continues b (part.before f) := by
  cases part with
  | lit s =>
    have hall : isPlain s = true := hplain
    simp only [isPlain, List.all_eq_true, Bool.and_eq_true, decide_eq_true_eq] at hall
    refine List.foldrRecOn _ _ h fun g hg c hc => ?_
    obtain ⟨⟨⟨hxml, hlt⟩, hgt⟩, hamp⟩ := hall c hc
    exact continues_consChar hxml hlt hgt hamp hg
  | val s =>
    exact List.foldrRecOn _ _ h fun g hg c hc => continues_consValue (hvalue s rfl c hc) hg

/-- Filled content is well formed where the prefixes that it uses are declared. -/
theorem continues_forest {prefixes : List Text} (hprefixes : ∀ p ∈ prefixes, p ∈ b.map Prod.fst)
    {m : Markup} (hsound : m.sound = true) (hplaced : Outline.isPlaced prefixes m.outline = true)
    (hvalues : ∀ v ∈ m.values, IsXmlText v) : Continues b m.forest := by
  induction m with
  | nil => exact ⟨trivial, fun _ _ heq => by cases heq⟩
  | leaf l rest ih =>
    rw [Markup.sound, Bool.and_eq_true] at hsound
    rw [Markup.values, List.forall_mem_append] at hvalues
    cases l with
    | decl raw => cases hplaced
    | text parts =>
      have hparts : ∀ part ∈ parts, part.plain = true := List.all_eq_true.mp hsound.1
      refine List.foldrRecOn parts _ (ih hsound.2 hplaced hvalues.2) fun g hg part hpart => ?_
      exact continues_part (hparts part hpart)
        (fun v hv => hvalues.1 v (List.mem_filterMap.mpr ⟨part, hpart, hv⟩)) hg
    | comment raw =>
      obtain ⟨hcomment, hrest⟩ := Bool.and_eq_true_iff.mp hplaced
      exact ⟨⟨hcomment, (ih hsound.2 hrest hvalues.2).1⟩, fun _ _ heq => by cases heq⟩
  | empty t rest ih =>
    rw [Markup.sound, Bool.and_eq_true] at hsound
    rw [Markup.values, List.forall_mem_append] at hvalues
    obtain ⟨hshape, hrest⟩ := Bool.and_eq_true_iff.mp hplaced
    have htag := (PartTag.placed_of_shape hsound.1 hshape hprefixes).wellFormed hvalues.1
    exact ⟨⟨htag, (ih hsound.2 hrest hvalues.2).1⟩, fun _ _ heq => by cases heq⟩
  | node t kids rest ihk ihr =>
    rw [Markup.sound, Bool.and_eq_true, Bool.and_eq_true] at hsound
    rw [Markup.values, List.forall_mem_append, List.forall_mem_append] at hvalues
    rw [Outline.isPlaced, Markup.outline, Forest.events, List.all_cons, List.all_append,
      List.all_cons, Bool.and_eq_true, Bool.and_eq_true, Bool.and_eq_true] at hplaced
    obtain ⟨hshape, hkids, -, hrest⟩ := hplaced
    have htag := PartTag.placed_of_shape hsound.1.1 hshape hprefixes
    refine ⟨⟨htag.wellFormed hvalues.1, ?_, (ihr hsound.2 hrest hvalues.2.2).1⟩,
      fun _ _ heq => by cases heq⟩
    rw [bindings_of_shape hshape]
    exact (ihk hsound.1.2 hkids hvalues.2.1).1

end Content

/-! ## Filled documents -/

/-- The values stand in what is printed. -/
theorem mem_print {m : Markup} {v : String} (hv : v ∈ m.values) {c : Char} (hc : c ∈ v.toList)
    {d : Char} (hd : d ∈ escapeChar c) : d ∈ m.print := by
  have hparts : ∀ {parts : List Part}, v ∈ parts.filterMap Part.value? → d ∈ printParts parts := by
    intro parts hv
    obtain ⟨part, hpart, hvalue⟩ := List.mem_filterMap.mp hv
    cases part with
    | lit s => cases hvalue
    | val s =>
      cases hvalue
      exact List.mem_flatMap.mpr ⟨_, hpart, List.mem_flatMap.mpr ⟨c, hc, hd⟩⟩
  have htag : ∀ {t : PartTag}, v ∈ t.values → d ∈ t.print := by
    intro t hv
    obtain ⟨a, ha, hv⟩ := List.mem_flatMap.mp hv
    refine List.mem_append_right _ (List.mem_flatMap.mpr ⟨a, ha, ?_⟩)
    simp [PartAttribute.print, hparts hv]
  induction m with
  | nil => cases hv
  | leaf l rest ih =>
    rw [Markup.print, List.mem_append]
    refine (List.mem_append.mp hv).imp (fun hv => ?_) ih
    cases l with
    | text parts => exact hparts hv
    | comment raw | decl raw => cases hv
  | empty t rest ih =>
    obtain hv | hv := List.mem_append.mp hv
    · simp [Markup.print, htag hv]
    · simp [Markup.print, ih hv]
  | node t kids rest ihk ihr =>
    obtain hv | hv := List.mem_append.mp hv
    · simp [Markup.print, htag hv]
    · obtain hv | hv := List.mem_append.mp hv
      · simp [Markup.print, ihk hv]
      · simp [Markup.print, ihr hv]

/-- What is printed of other values is no document. -/
theorem values_of_isDocument {m : Markup} {node : DocumentNode} (h : IsDocument m.print node) :
    ∀ v ∈ m.values, IsXmlText v := by
  intro v hv c hc
  cases hname : escapeName? c with
  | none =>
    refine h.legal c (mem_print hv hc ?_)
    rw [escapeChar_of_none hname]
    exact List.mem_singleton.mpr rfl
  | some name =>
    unfold escapeName? at hname
    split at hname <;> first
      | rfl
      | cases hname

section Documents

variable (declaration : String) (root : PartTag) (content : Markup)

/-- The document that filled markup is. -/
def filledDocument : DocumentNode :=
  ⟨some declaration, [.text "\n"], root.raw, some content.forest, []⟩

theorem filledDocument_outline : (filledDocument declaration root content).forest.outline =
    (Markup.document declaration root content).outline :=
  outline_forest (.document declaration root content)

variable {declaration root content}

theorem isDocument_filled (hdeclaration : SpellsDeclaration declaration)
    (hroot : (∀ v ∈ root.values, IsXmlText v) → root.raw.WellFormed [])
    (hsound : (Markup.document declaration root content).sound = true)
    (hplaced : Outline.isPlaced (root.raw.bindings.map Prod.fst) content.outline = true)
    (hvalues : ∀ v ∈ (Markup.document declaration root content).values, IsXmlText v) :
    IsDocument (Markup.document declaration root content).print
      (filledDocument declaration root content) := by
  have hcontent : content.sound = true := by
    rw [Markup.document, Markup.sound, Markup.sound, Markup.sound] at hsound
    simp only [Bool.and_eq_true] at hsound
    exact hsound.2.2.1.2
  have hparts : (∀ v ∈ root.values, IsXmlText v) ∧ ∀ v ∈ content.values, IsXmlText v := by
    have happend : (Markup.document declaration root content).values =
        root.values ++ (content.values ++ []) := rfl
    rw [happend, List.append_nil, List.forall_mem_append] at hvalues
    exact hvalues
  have hforest := continues_forest (b := root.raw.bindings ++ []) (fun p hp => by
    rwa [List.append_nil]) hcontent hplaced hparts.2
  refine ⟨⟨Markup.spells hsound, fun raw hraw => ?_⟩, ?_, ?_, List.forall_mem_nil _⟩
  · cases hraw
    exact hdeclaration
  · exact List.forall_mem_singleton.mpr (by decide)
  · exact ⟨hroot hparts.1, hforest.1, trivial⟩

end Documents

/-- Markup that is a document if it is filled with text that XML admits. -/
structure Markup.IsTemplate (m : Markup) : Prop where
  sound : m.sound = true
  placed : ∃ declaration root content, m = .document declaration root content ∧
    SpellsDeclaration declaration ∧ root.declares = true ∧
    Outline.isPlaced (root.attributes.filterMap fun a => declared? a.key.toList)
      (Markup.outline content) = true

/-- Text that is a well-formed document with the outline. -/
def IsDocumentOf (t : Text) (o : Outline) : Prop :=
  ∃ node, IsDocument t node ∧ node.forest.outline = o

/-- What is printed is a document of the template, or none at all. -/
theorem Markup.IsTemplate.isDocument_iff {m : Markup} (h : m.IsTemplate) :
    (IsDocumentOf m.print m.outline ↔ m.Legal) ∧
      ((∃ node, IsDocument m.print node) → IsDocumentOf m.print m.outline) := by
  have hfilled : m.Legal → IsDocumentOf m.print m.outline := by
    intro hvalues
    obtain ⟨hsound, declaration, root, content, rfl, hdeclaration, hroot, hplaced⟩ := h
    have hroots : root.sound = true := by
      rw [Markup.document, Markup.sound, Markup.sound, Markup.sound] at hsound
      simp only [Bool.and_eq_true] at hsound
      exact hsound.2.2.1.1
    refine ⟨_, isDocument_filled hdeclaration (fun hv => ?_) hsound ?_ hvalues,
      filledDocument_outline declaration root content⟩
    · exact (PartTag.placed_of_declares hroot hroots).wellFormed hv
    · rw [PartTag.prefixes_of_bindings]
      exact hplaced
  have hvalues : (∃ node, IsDocument m.print node) → m.Legal := by
    rintro ⟨node, hnode⟩
    exact values_of_isDocument hnode
  exact ⟨⟨fun h => hvalues (h.imp fun _ => And.left), hfilled⟩, fun h => hfilled (hvalues h)⟩

end DianService.Lib.Xml
