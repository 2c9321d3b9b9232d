import DianService.Lib.Xml.Namespaces
import Mathlib.Data.List.Sort
import Mathlib.Data.List.Lex
import Mathlib.Data.List.Dedup
import Mathlib.Data.Char

/-
  Canonical XML 1.0 and Exclusive XML Canonicalization 1.0 of whole documents, both without
  comments, as functions on trees.

  The two differ in the prefixes that an element *considers*: all of them, or those that the element
  or an attribute of it uses, and those of the PrefixList. A declaration is output for a considered
  prefix when its namespace is not the one of the nearest ancestor that considered it: in Canonical
  XML that ancestor is the parent, in Exclusive Canonicalization the nearest output ancestor that
  visibly utilizes the prefix (or, for a prefix of the list, the parent again). The namespace of a
  prefix in no scope is the empty one, so `xmlns=""` comes out of the same rule. The namespace node
  of the prefix `xml` is never output.
-/

namespace DianService.Lib.Xml

/-! ## Characters -/

def textChar (c : Char) : Text :=
  if c = '&' then "&amp;".toList
  else if c = '<' then "&lt;".toList
  else if c = '>' then "&gt;".toList
  else if c = '\r' then "&#xD;".toList
  else [c]

def attributeChar (c : Char) : Text :=
  if c = '&' then "&amp;".toList
  else if c = '<' then "&lt;".toList
  else if c = '"' then "&quot;".toList
  else if c = '\t' then "&#x9;".toList
  else if c = '\n' then "&#xA;".toList
  else if c = '\r' then "&#xD;".toList
  else [c]

/-- ` key="value"` -/
def attributeText (key value : Text) : Text :=
  ' ' :: key ++ "=\"".toList ++ value.flatMap attributeChar ++ ['"']

/-! ## Order -/

/-- The texts of a list in order, each once. -/
def ordered (l : List Text) : List Text := l.dedup.insertionSort (· ≤ ·)

theorem mem_ordered {l : List Text} {x : Text} : x ∈ ordered l ↔ x ∈ l := by
  unfold ordered
  rw [(List.perm_insertionSort _ _).mem_iff, List.mem_dedup]

theorem ordered_pairwise (l : List Text) : (ordered l).Pairwise (· < ·) := by
  unfold ordered
  have hsorted := List.pairwise_insertionSort (· ≤ · : Text → Text → Prop) l.dedup
  have hnodup : (l.dedup.insertionSort (· ≤ ·)).Nodup :=
    (List.perm_insertionSort _ _).nodup_iff.mpr l.nodup_dedup
  exact (hsorted.and hnodup).imp fun h => lt_of_le_of_ne h.1 h.2

/-- Lists in order with the same members are equal. -/
theorem eq_of_ordered {l m : List Text} (hl : l.Pairwise (· < ·)) (hm : m.Pairwise (· < ·))
    (h : ∀ x, x ∈ l ↔ x ∈ m) : l = m := by
  have hperm : l.Perm m := by
    refine (List.perm_ext_iff_of_nodup ?_ ?_).mpr h
    · exact hl.imp fun hlt => ne_of_lt hlt
    · exact hm.imp fun hlt => ne_of_lt hlt
  exact hperm.eq_of_pairwise (fun a b _ _ hab hba => absurd hab (lt_asymm hba)) hl hm

/-- An attribute of an element with its expanded name. -/
structure Expanded where
  uri : Text
  localName : Text
  key : Text
  value : Text
  deriving DecidableEq

/-- By namespace name first, by local name second. -/
def Expanded.le (a b : Expanded) : Prop := a.uri < b.uri ∨ (a.uri = b.uri ∧ a.localName ≤ b.localName)

instance : DecidableRel Expanded.le := fun _ _ => inferInstanceAs (Decidable (_ ∨ _))

/-! ## Elements -/

inductive Mode where
  | inclusive
  | exclusive (prefixes : List Text)

/-- The prefixes that the name of an element and those of its attributes use. -/
def RawTag.used (t : RawTag) : List Text :=
  (splitName t.name.toList).1 ::
    ((t.plain.map fun a => (splitName a.key.toList).1).filter fun p => p ≠ [])

def Mode.considers (m : Mode) (t : RawTag) (p : Text) : Bool :=
  match m with
  | .inclusive => true
  | .exclusive prefixes => p ∈ prefixes || p ∈ t.used

/-- An ancestor, nearest first in a list: what it considers and what is in scope in it. -/
structure Ancestor where
  considers : Text → Bool
  bindings : Bindings

/-- The namespace of a prefix in the nearest ancestor that considers it. -/
def known (ancestors : List Ancestor) (p : Text) : Text :=
  match ancestors.find? fun a => a.considers p with
  | some a => uriOf a.bindings p
  | none => []

/-- The namespaces in scope right around an element. -/
def outerBindings (ancestors : List Ancestor) : Bindings :=
  match ancestors with
  | [] => []
  | a :: _ => a.bindings

/-- The element itself, as an ancestor of its content. -/
def RawTag.ancestor (m : Mode) (ancestors : List Ancestor) (t : RawTag) : Ancestor :=
  ⟨m.considers t, t.bindings ++ outerBindings ancestors⟩

/-- The prefixes whose declarations are output, in order. -/
def declaredPrefixes (m : Mode) (ancestors : List Ancestor) (t : RawTag) : List Text :=
  let b := t.bindings ++ outerBindings ancestors
  (ordered ([] :: b.map Prod.fst)).filter fun p =>
    p ≠ "xml".toList && m.considers t p && uriOf b p ≠ known ancestors p

def declarationText (p uri : Text) : Text :=
  attributeText (if p = [] then "xmlns".toList else "xmlns:".toList ++ p) uri

def expandedAttributes (b : Bindings) (t : RawTag) : List Expanded :=
  t.plain.map fun a =>
    ⟨attributeUri b a.key.toList, (splitName a.key.toList).2, a.key.toList, a.value⟩

/-- The start tag. -/
def startText (m : Mode) (ancestors : List Ancestor) (t : RawTag) : Text :=
  let b := t.bindings ++ outerBindings ancestors
  '<' :: t.name.toList ++
    ((declaredPrefixes m ancestors t).flatMap fun p => declarationText p (uriOf b p)) ++
    (((expandedAttributes b t).insertionSort Expanded.le).flatMap fun a =>
      attributeText a.key a.value) ++ ['>']

def endText (t : RawTag) : Text := "</".toList ++ t.name.toList ++ ['>']

/-- A processing instruction. -/
def piText (raw : Text) : Text :=
  "<?".toList ++ piTarget raw ++
    (if piData raw = [] then [] else ' ' :: normalizeEol (piData raw)) ++ "?>".toList

/-- A leaf in an element: comments are left out. -/
def leafText : Leaf → Text
  | .text raw => (normalizeEol raw.toList).flatMap textChar
  | .cdata raw => (normalizeEol raw.toList).flatMap textChar
  | .ref name => (reference? name.toList).toList.flatMap textChar
  | .pi raw => piText raw.toList
  | .comment _ => []
  | .decl _ => []
  | .doctype _ => []

def contentText (m : Mode) : (ancestors : List Ancestor) → Forest RawTag Leaf → Text
  | _, .nil => []
  | ancestors, .leaf l rest => leafText l ++ contentText m ancestors rest
  | ancestors, .empty t rest => startText m ancestors t ++ endText t ++ contentText m ancestors rest
  | ancestors, .node t kids rest =>
      startText m ancestors t ++ contentText m (t.ancestor m ancestors :: ancestors) kids ++
        endText t ++ contentText m ancestors rest

/-! ## Documents -/

/-- A processing instruction before the root element. -/
def beforeText : Leaf → Text
  | .pi raw => piText raw.toList ++ ['\n']
  | _ => []

/-- A processing instruction after the root element. -/
def afterText : Leaf → Text
  | .pi raw => '\n' :: piText raw.toList
  | _ => []

def DocumentNode.canonicalText (d : DocumentNode) (m : Mode) : Text :=
  d.prolog.flatMap beforeText ++ contentText m [] (d.element .nil) ++ d.epilog.flatMap afterText

/-- Production `scheme` of RFC 2396, and a colon. -/
def hasScheme (uri : Text) : Bool :=
  match uri with
  | [] => false
  | c :: cs =>
      c.isAlpha && (cs.dropWhile fun c => c.isAlphanum || c = '+' || c = '-' || c = '.').head? = some ':'

/-- A tag that names no namespace by a relative URI. -/
def RawTag.Absolute (t : RawTag) : Prop := ∀ d ∈ t.bindings, d.2 = [] ∨ hasScheme d.2

instance (t : RawTag) : Decidable t.Absolute := inferInstanceAs (Decidable (∀ d ∈ _, _))

/-- The octets that are prescribed: none for a document with relative namespace URIs, which an
    implementation has to refuse. -/
def DocumentNode.canonicalForm (d : DocumentNode) (m : Mode) : Option Text :=
  if ∀ e ∈ (d.element .nil).elements, e.1.Absolute then some (d.canonicalText m) else none

end DianService.Lib.Xml
