import DianService.Crypto.Verify
import DianService.Lib.Xml.Canonical

/-
  Crypto: the canonicalizer (`c14n.rs`), a pass over the events of a reader without namespaces. A
  `BTreeMap` of namespaces is a list of bindings, the one inserted last first, and is iterated in
  the order of its keys; the stacks have their top first.
-/

namespace DianService

open Lib.Xml

/-- What the code uses of the crate `quick_xml`: the events of a text, and
    `Attribute::normalized_value` for XML 1.0. -/
structure QuickXml where
  reader : String → EventStream RawTag Leaf
  normalized_value : String → Except String String

/-- Values of attributes are normalized as XML 1.0 says. -/
def QuickXml.Normalizes (q : QuickXml) : Prop :=
  ∀ raw v, attributeValue raw.toList = some v → q.normalized_value raw = .ok (String.ofList v)

namespace C14n

def err {α : Type} (message : Text) : Except CryptoError α := .error (.c14n (String.ofList message))

def normalizeEol (text : Text) : Text :=
  replace ['\r'] ['\n'] (replace ['\r', '\n'] ['\n'] text)

def escapeText (value : Text) : Text :=
  value.flatMap fun c =>
    match c with
    | '&' => "&amp;".toList
    | '<' => "&lt;".toList
    | '>' => "&gt;".toList
    | '\r' => "&#xD;".toList
    | _ => [c]

def escapeAttribute (value : Text) : Text :=
  value.flatMap fun c =>
    match c with
    | '&' => "&amp;".toList
    | '<' => "&lt;".toList
    | '"' => "&quot;".toList
    | '\t' => "&#x9;".toList
    | '\n' => "&#xA;".toList
    | '\r' => "&#xD;".toList
    | _ => [c]

def resolveReference (name : Text) : Except CryptoError Char :=
  match resolvedName name with
  | some c => .ok c
  | none => err ("Unsupported entity reference &".toList ++ name ++ [';'])

abbrev Scope := Bindings

def Scope.containsKey (s : Scope) (k : Text) : Bool := (s.lookup k).isSome

structure Canonicalizer where
  out : Text
  scopes : List Scope
  rendered : List Scope
  exclusive : Option (List Text)
  depth : Nat
  seen_root : Bool

/-- One attribute in the first loop of `start_element`: a declaration, or an attribute to keep. -/
def readAttribute (q : QuickXml) (acc : Scope × List (Text × Text)) (a : Attribute) :
    Except CryptoError (Scope × List (Text × Text)) := do
  let key := a.key.toList
  let value ← match q.normalized_value a.raw with
    | .ok value => pure value.toList
    | .error e => err e.toList
  if key = "xmlns".toList then return (([], value) :: acc.1, acc.2)
  else if key.take 6 = "xmlns:".toList then
    if value = [] then err "Namespace undeclaration (XML 1.1) is not supported".toList
    else return ((key.drop 6, value) :: acc.1, acc.2)
  else return (acc.1, acc.2 ++ [(key, value)])

def undeclared {α : Type} (p : Text) : Except CryptoError α :=
  err ("Undeclared prefix '".toList ++ p ++ ['\''])

/-- The second loop: an attribute with its namespace. -/
def expand (scope : Scope) : Text × Text → Except CryptoError Expanded
  | (qname, value) =>
    if ':' ∈ qname then
      let (p, localName) := splitName qname
      if p = "xml".toList then .ok ⟨XML_NAMESPACE, localName, qname, value⟩
      else
        match scope.lookup p with
        | some uri => .ok ⟨uri, localName, qname, value⟩
        | none => undeclared p
    else .ok ⟨[], qname, qname, value⟩

/-- The prefixes that the attributes use, but for `xml`. -/
def usedByAttributes (attributes : List Expanded) : List Text :=
  ((attributes.filter fun a => ':' ∈ a.key).map fun a => (splitName a.key).1).filter fun p =>
    p ≠ "xml".toList

def candidates (exclusive : Option (List Text)) (scope : Scope) (name : Text)
    (attributes : List Expanded) : List Text :=
  match exclusive with
  | none => ordered (scope.map Prod.fst)
  | some inclusive_prefixes =>
      ordered ((splitName name).1 :: (usedByAttributes attributes ++
        inclusive_prefixes.filter fun p => scope.containsKey p))

/-- One prefix in the loop that renders declarations. -/
def render (scope inherited : Scope) (acc : Scope × Text) (p : Text) : Scope × Text :=
  let uri := (scope.lookup p).getD []
  if uri = (inherited.lookup p).getD [] then acc
  else
    ((p, uri) :: acc.1,
      acc.2 ++ (if p = [] then " xmlns=\"".toList else " xmlns:".toList ++ p ++ "=\"".toList) ++
        escapeAttribute uri ++ ['"'])

def startElement (q : QuickXml) (c : Canonicalizer) (start : RawTag) :
    Except CryptoError Canonicalizer := do
  let name := start.name.toList
  let (scope, raw_attributes) ← start.attributes.foldlM (readAttribute q) (c.scopes.headD [], [])
  let attributes ← raw_attributes.mapM (expand scope)
  let attributes := attributes.insertionSort Expanded.le
  let candidates := candidates c.exclusive scope name attributes
  if let some p := candidates.find? fun p => p ≠ [] && !scope.containsKey p then undeclared p
  let inherited := c.rendered.headD []
  let (now_rendered, rendered) := candidates.foldl (render scope inherited) (inherited, [])
  return { c with
    out := c.out ++ ('<' :: name ++ rendered ++
      (attributes.flatMap fun a =>
        ' ' :: a.key ++ "=\"".toList ++ escapeAttribute a.value ++ ['"']) ++ ['>'])
    scopes := scope :: c.scopes
    rendered := now_rendered :: c.rendered
    depth := c.depth + 1
    seen_root := true }

def endElement (c : Canonicalizer) (tag : RawTag) : Canonicalizer :=
  { c with
    out := c.out ++ ("</".toList ++ tag.name.toList ++ ['>'])
    scopes := c.scopes.tail
    rendered := c.rendered.tail
    depth := c.depth - 1 }

/-- The text of a processing instruction, cut at the first white space. -/
def processingInstruction (raw : Text) : Text :=
  let target := raw.takeWhile fun ch => !isWhitespace ch
  let data := (raw.dropWhile fun ch => !isWhitespace ch).dropWhile isWhitespace
  "<?".toList ++ target ++ (if data = [] then [] else ' ' :: normalizeEol data) ++ "?>".toList

def Canonicalizer.push (c : Canonicalizer) (text : Text) : Canonicalizer :=
  { c with out := c.out ++ text }

def leafEvent (c : Canonicalizer) : Leaf → Except CryptoError Canonicalizer
  | .text raw => .ok (if c.depth > 0 then c.push (escapeText (normalizeEol raw.toList)) else c)
  | .cdata raw => .ok (if c.depth > 0 then c.push (escapeText (normalizeEol raw.toList)) else c)
  | .ref name =>
      if c.depth > 0 then do
        let resolved ← resolveReference name.toList
        return c.push (escapeText [resolved])
      else .ok c
  | .pi raw =>
      .ok (c.push ((if c.depth = 0 ∧ c.seen_root then ['\n'] else []) ++
        processingInstruction raw.toList ++
        (if c.depth = 0 ∧ ¬ c.seen_root then ['\n'] else [])))
  | .doctype _ => err "DTDs are not allowed".toList
  | .comment _ => .ok c
  | .decl _ => .ok c

def step (q : QuickXml) (c : Canonicalizer) : Event RawTag Leaf → Except CryptoError Canonicalizer
  | .start t => startElement q c t
  | .empty t => do
      let c ← startElement q c t
      return endElement c t
  | .close t => .ok (endElement c t)
  | .leaf l => leafEvent c l

def canonicalizeEvents (q : QuickXml) (xml : EventStream RawTag Leaf)
    (exclusive : Option (List Text)) : Except CryptoError String := do
  let c ← xml.events.foldlM (step q) ⟨[], [], [], exclusive, 0, false⟩
  if let some e := xml.error then err ("Invalid XML: ".toList ++ e.toList)
  if c.depth ≠ 0 then err "Unclosed elements".toList
  return String.ofList c.out

def canonicalize (q : QuickXml) (xml_content : String) (exclusive : Option (List Text)) :
    Except CryptoError String :=
  canonicalizeEvents q (q.reader xml_content) exclusive

def canonicalizeXml (q : QuickXml) (xml_content : String) : Except CryptoError String :=
  canonicalize q xml_content none

def canonicalizeXmlExclusive (q : QuickXml) (xml_content : String)
    (inclusive_prefixes : List String) : Except CryptoError String :=
  canonicalize q xml_content (some (inclusive_prefixes.map String.toList))

end C14n

end DianService
