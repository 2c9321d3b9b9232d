import DianService.Lib.Xml.Tree
import DianService.Lib.Xml.Values

/-
  Namespaces in XML 1.0, over tags as they are written: the declarations of a tag, the namespaces in
  scope, and when a document is namespace-well-formed. There is no DTD.
-/

namespace DianService.Lib.Xml

abbrev Text := List Char

/-- A tag as written. -/
structure RawTag where
  name : String
  attributes : List Attribute
  deriving DecidableEq

def XML_NAMESPACE : Text := "http://www.w3.org/XML/1998/namespace".toList

def XMLNS_NAMESPACE : Text := "http://www.w3.org/2000/xmlns/".toList

/-! ## Names -/

/-- Production `NameStartChar` without the colon. -/
def isNameStart (c : Char) : Bool :=
  let n := c.toNat
  (0x41 ≤ n && n ≤ 0x5A) || n = 0x5F || (0x61 ≤ n && n ≤ 0x7A) || (0xC0 ≤ n && n ≤ 0xD6) ||
    (0xD8 ≤ n && n ≤ 0xF6) || (0xF8 ≤ n && n ≤ 0x2FF) || (0x370 ≤ n && n ≤ 0x37D) ||
    (0x37F ≤ n && n ≤ 0x1FFF) || (0x200C ≤ n && n ≤ 0x200D) || (0x2070 ≤ n && n ≤ 0x218F) ||
    (0x2C00 ≤ n && n ≤ 0x2FEF) || (0x3001 ≤ n && n ≤ 0xD7FF) || (0xF900 ≤ n && n ≤ 0xFDCF) ||
    (0xFDF0 ≤ n && n ≤ 0xFFFD) || (0x10000 ≤ n && n ≤ 0xEFFFF)

/-- Production `NameChar` without the colon. -/
def isNameChar (c : Char) : Bool :=
  let n := c.toNat
  isNameStart c || n = 0x2D || n = 0x2E || (0x30 ≤ n && n ≤ 0x39) || n = 0xB7 ||
    (0x300 ≤ n && n ≤ 0x36F) || (0x203F ≤ n && n ≤ 0x2040)

/-- Production `NCName`. -/
def isNCName (name : Text) : Bool :=
  match name with
  | [] => false
  | c :: cs => isNameStart c && cs.all isNameChar

/-- The prefix of a qualified name, empty if there is none, and its local part. -/
def splitName (name : Text) : Text × Text :=
  if ':' ∈ name then (name.takeWhile (· ≠ ':'), (name.dropWhile (· ≠ ':')).tail) else ([], name)

/-- Production `QName`. -/
def isQName (name : Text) : Bool :=
  isNCName (splitName name).2 && (':' ∉ name || isNCName (splitName name).1)

example : splitName "cac:Party".toList = ("cac".toList, "Party".toList) := by decide

theorem splitName_of_colon {name : Text} (h : ':' ∈ name) :
    name = (splitName name).1 ++ ':' :: (splitName name).2 := by
  unfold splitName
  rw [if_pos h]
  have hhead : name.dropWhile (· ≠ ':') = ':' :: (name.dropWhile (· ≠ ':')).tail := by
    induction name with
    | nil => cases h
    | cons c cs ih =>
        by_cases hc : c = ':'
        · simp [hc]
        · have hcs : ':' ∈ cs := (List.mem_cons.mp h).resolve_left (Ne.symm hc)
          rw [List.dropWhile_cons_of_pos (by simpa using hc)]
          exact ih hcs
  conv_lhs => rw [← List.takeWhile_append_dropWhile (p := (· ≠ ':')) (l := name), hhead]

theorem splitName_of_not_colon {name : Text} (h : ':' ∉ name) : splitName name = ([], name) := by
  unfold splitName
  rw [if_neg h]

theorem not_mem_of_isNCName {name : Text} (h : isNCName name) {ch : Char}
    (hch : isNameChar ch = false) : ch ∉ name := by
  cases name with
  | nil => exact List.not_mem_nil
  | cons c cs =>
      simp only [isNCName, Bool.and_eq_true, List.all_eq_true] at h
      intro hmem
      rcases List.mem_cons.mp hmem with rfl | hmem
      · simp [isNameChar, h.1] at hch
      · rw [h.2 ch hmem] at hch
        cases hch

theorem not_mem_of_isQName {name : Text} (h : isQName name) {ch : Char}
    (hch : isNameChar ch = false) (hcolon : ch ≠ ':') : ch ∉ name := by
  unfold isQName at h
  rw [Bool.and_eq_true] at h
  by_cases hc : ':' ∈ name
  · have hfst : isNCName (splitName name).1 := by simpa [hc] using h.2
    rw [splitName_of_colon hc, List.mem_append, List.mem_cons, not_or, not_or]
    exact ⟨not_mem_of_isNCName hfst hch, hcolon, not_mem_of_isNCName h.1 hch⟩
  · have hsnd := h.1
    rw [splitName_of_not_colon hc] at hsnd
    exact not_mem_of_isNCName hsnd hch

theorem takeWhile_append_stop {p : Char → Bool} {u v : Text} (hu : ∀ ch ∈ u, p ch)
    (hv : ∀ ch ∈ v.head?, p ch = false) : (u ++ v).takeWhile p = u ∧ (u ++ v).dropWhile p = v := by
  rw [List.takeWhile_append_of_pos hu, List.dropWhile_append_of_pos hu]
  cases v with
  | nil => simp
  | cons ch v =>
      have hch := hv ch rfl
      simp [hch]

/-! ## Declarations -/

/-- The prefix that an attribute declares, empty for the default namespace. -/
def declared? (key : Text) : Option Text :=
  if key = "xmlns".toList then some []
  else if key.take 6 = "xmlns:".toList then some (key.drop 6)
  else none

/-- The value of an attribute. -/
def Attribute.value (a : Attribute) : Text := (attributeValue a.raw.toList).getD []

/-- Prefixes with their namespace names, nearest first. -/
abbrev Bindings := List (Text × Text)

/-- The declarations of a tag. -/
def RawTag.bindings (t : RawTag) : Bindings :=
  t.attributes.filterMap fun a => (declared? a.key.toList).map fun p => (p, a.value)

/-- The attributes that are no declarations. -/
def RawTag.plain (t : RawTag) : List Attribute :=
  t.attributes.filter fun a => (declared? a.key.toList).isNone

/-- The namespace name that a prefix stands for, empty if it stands for none. -/
def uriOf (b : Bindings) (p : Text) : Text := (b.lookup p).getD []

/-- The namespace name of an attribute: one without a prefix is in none. -/
def attributeUri (b : Bindings) (key : Text) : Text :=
  if (splitName key).1 = [] then []
  else if (splitName key).1 = "xml".toList then XML_NAMESPACE
  else uriOf b (splitName key).1

/-- A prefix that a name may have. -/
def Usable (b : Bindings) (p : Text) : Prop := p = [] ∨ p = "xml".toList ∨ p ∈ b.map Prod.fst

instance (b : Bindings) (p : Text) : Decidable (Usable b p) :=
  inferInstanceAs (Decidable (_ ∨ _ ∨ _))

/-! ## Well-formed documents -/

/-- Declarations that Namespaces in XML 1.0 admits. -/
structure Bindings.Valid (b : Bindings) : Prop where
  named : ∀ d ∈ b, d.1 ≠ [] → isNCName d.1 ∧ d.2 ≠ []
  xml : ∀ d ∈ b, d.1 = "xml".toList ↔ d.2 = XML_NAMESPACE
  xmlns : ∀ d ∈ b, d.1 ≠ "xmlns".toList ∧ d.2 ≠ XMLNS_NAMESPACE

instance (b : Bindings) : Decidable b.Valid :=
  decidable_of_iff ((∀ d ∈ b, d.1 ≠ [] → isNCName d.1 ∧ d.2 ≠ []) ∧
    (∀ d ∈ b, d.1 = "xml".toList ↔ d.2 = XML_NAMESPACE) ∧
    (∀ d ∈ b, d.1 ≠ "xmlns".toList ∧ d.2 ≠ XMLNS_NAMESPACE))
    ⟨fun h => ⟨h.1, h.2.1, h.2.2⟩, fun h => ⟨h.named, h.xml, h.xmlns⟩⟩

/-- What can stand between quotes. -/
def isLiteral (raw : Text) : Bool :=
  raw.all (fun c => isXmlChar c && c ≠ '<') && ('"' ∉ raw || '\'' ∉ raw)

/-- A tag where `outer` is in scope. -/
structure RawTag.WellFormed (outer : Bindings) (t : RawTag) : Prop where
  values : ∀ a ∈ t.attributes, (attributeValue a.raw.toList).isSome
  literals : ∀ a ∈ t.attributes, isLiteral a.raw.toList
  keys : (t.attributes.map Attribute.key).Nodup
  name : isQName t.name.toList
  qnames : ∀ a ∈ t.attributes, isQName a.key.toList
  declarations : Bindings.Valid t.bindings
  element_usable : Usable (t.bindings ++ outer) (splitName t.name.toList).1
  attributes_usable : ∀ a ∈ t.plain, Usable (t.bindings ++ outer) (splitName a.key.toList).1
  expanded : (t.plain.map fun a =>
    (attributeUri (t.bindings ++ outer) a.key.toList, (splitName a.key.toList).2)).Nodup

instance (outer : Bindings) (t : RawTag) : Decidable (t.WellFormed outer) :=
  decidable_of_iff ((∀ a ∈ t.attributes, (attributeValue a.raw.toList).isSome) ∧
    (∀ a ∈ t.attributes, isLiteral a.raw.toList) ∧
    (t.attributes.map Attribute.key).Nodup ∧ isQName t.name.toList ∧
    (∀ a ∈ t.attributes, isQName a.key.toList) ∧ Bindings.Valid t.bindings ∧
    Usable (t.bindings ++ outer) (splitName t.name.toList).1 ∧
    (∀ a ∈ t.plain, Usable (t.bindings ++ outer) (splitName a.key.toList).1) ∧
    (t.plain.map fun a =>
      (attributeUri (t.bindings ++ outer) a.key.toList, (splitName a.key.toList).2)).Nodup)
    ⟨fun ⟨h₁, h₂, h₃, h₄, h₅, h₆, h₇, h₈, h₉⟩ => ⟨h₁, h₂, h₃, h₄, h₅, h₆, h₇, h₈, h₉⟩,
      fun h => ⟨h.values, h.literals, h.keys, h.name, h.qnames, h.declarations,
        h.element_usable, h.attributes_usable, h.expanded⟩⟩

/-- The target of a processing instruction and its data. -/
def piTarget (raw : Text) : Text := raw.takeWhile fun c => !isSpace c

def piData (raw : Text) : Text := (raw.dropWhile fun c => !isSpace c).dropWhile isSpace

/-- `part` stands somewhere in `text`. -/
def occursIn (part text : Text) : Bool := text.tails.any fun t => part.isPrefixOf t

def isPi (raw : Text) : Bool :=
  isNCName (piTarget raw) && (piTarget raw).map Char.toLower ≠ "xml".toList &&
    raw.all isXmlChar && !occursIn "?>".toList raw

def isComment (raw : Text) : Bool :=
  raw.all isXmlChar && !occursIn "--".toList raw && raw.getLast? ≠ some '-'

/-- A leaf inside an element. -/
def Leaf.WellFormed : Leaf → Prop
  | .text raw => raw ≠ "" ∧ (raw.toList.all fun c => isXmlChar c && c ≠ '<' && c ≠ '&') ∧
      occursIn "]]>".toList raw.toList = false
  | .cdata raw => raw.toList.all isXmlChar ∧ occursIn "]]>".toList raw.toList = false
  | .ref name => (reference? name.toList).isSome
  | .pi raw => isPi raw.toList
  | .comment raw => isComment raw.toList
  | .decl _ => False
  | .doctype _ => False

instance (l : Leaf) : Decidable l.WellFormed := by
  cases l <;> unfold Leaf.WellFormed <;> infer_instance

/-- Content where `outer` is in scope. -/
def WellFormedIn (outer : Bindings) : Forest RawTag Leaf → Prop
  | .nil => True
  | .leaf l rest => l.WellFormed ∧ WellFormedIn outer rest
  | .empty t rest => t.WellFormed outer ∧ WellFormedIn outer rest
  | .node t kids rest =>
      t.WellFormed outer ∧ WellFormedIn (t.bindings ++ outer) kids ∧ WellFormedIn outer rest

instance WellFormedIn.decidable : (outer : Bindings) → (f : Forest RawTag Leaf) →
    Decidable (WellFormedIn outer f)
  | _, .nil => instDecidableTrue
  | outer, .leaf _ rest =>
      have := WellFormedIn.decidable outer rest
      inferInstanceAs (Decidable (_ ∧ _))
  | outer, .empty _ rest =>
      have := WellFormedIn.decidable outer rest
      inferInstanceAs (Decidable (_ ∧ _))
  | outer, .node t kids rest =>
      have := WellFormedIn.decidable (t.bindings ++ outer) kids
      have := WellFormedIn.decidable outer rest
      inferInstanceAs (Decidable (_ ∧ _ ∧ _))

/-- A leaf before or after the root element. -/
def Leaf.isMisc : Leaf → Bool
  | .text raw => raw.toList.all isSpace
  | .pi raw => isPi raw.toList
  | .comment raw => isComment raw.toList
  | _ => false

/-- A document: the root element with its content, or without one as an empty-element tag, and what
    stands before and after it. -/
structure DocumentNode where
  declaration : Option String
  prolog : List Leaf
  root : RawTag
  content : Option (Forest RawTag Leaf)
  epilog : List Leaf

namespace DocumentNode

/-- The root element as a forest, before `rest`. -/
def element (d : DocumentNode) (rest : Forest RawTag Leaf) : Forest RawTag Leaf :=
  match d.content with
  | none => .empty d.root rest
  | some kids => .node d.root kids rest

def forest (d : DocumentNode) : Forest RawTag Leaf :=
  (d.declaration.toList.map Leaf.decl ++ d.prolog).foldr Forest.leaf
    (d.element (d.epilog.foldr Forest.leaf .nil))

/-- A namespace-well-formed document without a DTD. -/
structure WellFormed (d : DocumentNode) : Prop where
  prolog : ∀ l ∈ d.prolog, l.isMisc
  element : WellFormedIn [] (d.element .nil)
  epilog : ∀ l ∈ d.epilog, l.isMisc

instance (d : DocumentNode) : Decidable d.WellFormed :=
  decidable_of_iff ((∀ l ∈ d.prolog, l.isMisc) ∧ WellFormedIn [] (d.element .nil) ∧
    (∀ l ∈ d.epilog, l.isMisc))
    ⟨fun ⟨h₁, h₂, h₃⟩ => ⟨h₁, h₂, h₃⟩, fun h => ⟨h.prolog, h.element, h.epilog⟩⟩

end DocumentNode

end DianService.Lib.Xml
