import DianService.Crypto.C14n

/-
  Crypto: `xmlutil.rs`, with which a node is signed in its context: the namespaces in scope at a
  point of a text, the elements with a prefixed `Id`, and the declarations put into the root of a
  fragment. Positions are counted in characters; `buffer_positions` of a text says where the
  reader stands after each of its events.
-/

namespace DianService

open Lib.Xml

namespace XmlUtil

/-- What is before the first occurrence of the marker (`str::find`). -/
def before? (marker : Text) : Text → Option Text
  | [] => if marker = [] then some [] else none
  | c :: cs => if marker.isPrefixOf (c :: cs) then some [] else (before? marker cs).map (c :: ·)

/-- The rest of `countMatches`, after `skip` more characters. -/
def matchesFrom (pattern : Text) : (skip : Nat) → Text → Nat
  | _, [] => 0
  | skip + 1, _ :: cs => matchesFrom pattern skip cs
  | 0, c :: cs =>
      if pattern.isPrefixOf (c :: cs) then matchesFrom pattern (pattern.length - 1) cs + 1
      else matchesFrom pattern 0 cs

/-- `str::matches(pattern).count()` of a pattern that is not empty. -/
def countMatches (pattern text : Text) : Nat := matchesFrom pattern 0 text

/-- `str::replace` -/
def replaceAll (text pattern replacement : String) : String :=
  String.ofList (replace pattern.toList replacement.toList text.toList)

def escapeText (value : Text) : Text :=
  value.flatMap fun c =>
    match c with
    | '&' => "&amp;".toList
    | '<' => "&lt;".toList
    | '>' => "&gt;".toList
    | _ => [c]

def escapeAttribute (value : Text) : Text :=
  (escapeText value).flatMap fun c => if c = '"' then "&quot;".toList else [c]

/-! ## Namespaces in scope -/

/-- One attribute of a start tag: a declaration, or nothing. -/
def readDeclaration (q : QuickXml) (declarations : List (Text × Text)) (a : Attribute) :
    Except CryptoError (List (Text × Text)) :=
  match declared? a.key.toList with
  | none => .ok declarations
  | some p =>
      match q.normalized_value a.raw with
      | .ok value => .ok (declarations ++ [(p, value.toList)])
      | .error e => .error (.xml e)

/-- `stack` has the innermost element first. -/
def scopeStep (q : QuickXml) (stack : List (List (Text × Text))) :
    Event RawTag Leaf → Except CryptoError (List (List (Text × Text)))
  | .start t => do
      let declarations ← t.attributes.foldlM (readDeclaration q) []
      return declarations :: stack
  | .close _ => .ok stack.tail
  | .empty _ | .leaf _ => .ok stack

/-- `namespaces_in_scope_before`, of the text up to the position. -/
def namespacesInScopeBefore (q : QuickXml) (text : Text) : Except CryptoError Bindings := do
  let xml := q.reader (String.ofList text)
  let stack ← xml.events.foldlM (scopeStep q) []
  if let some e := xml.error then throw (CryptoError.xml ("Invalid XML before signature: " ++ e))
  return stack.flatMap List.reverse

def namespacesInScopeAt (q : QuickXml) (xml marker : String) : Except CryptoError Bindings :=
  match before? marker.toList xml.toList with
  | some text => namespacesInScopeBefore q text
  | none => .error (.xml ("marker '" ++ marker ++ "' not found"))

/-! ## Elements with a prefixed `Id` -/

/-- `open` has the innermost element first: its `Id`, where it begins and its depth. -/
structure IdScan where
  found : List (String × Nat × Nat)
  opened : List (String × Nat × Nat)
  depth : Nat

/-- The key is `prefix:Id`, of a prefix other than `xmlns`. -/
def isPrefixedId (key : Text) : Bool :=
  ':' ∈ key && (splitName key).2 = "Id".toList && (splitName key).1 ≠ "xmlns".toList

def readId (q : QuickXml) (id : Option String) (a : Attribute) :
    Except CryptoError (Option String) :=
  if isPrefixedId a.key.toList then (q.normalized_value a.raw).mapError .xml |>.map some
  else .ok id

/-- An event that reaches from `start` to `stop`. -/
def idStep (q : QuickXml) (s : IdScan) :
    Event RawTag Leaf × Nat × Nat → Except CryptoError IdScan
  | (.start t, start, _) => do
      match ← t.attributes.foldlM (readId q) none with
      | some id => return { s with opened := (id, start, s.depth) :: s.opened, depth := s.depth + 1 }
      | none => return { s with depth := s.depth + 1 }
  | (.empty t, start, stop) => do
      match ← t.attributes.foldlM (readId q) none with
      | some id => return { s with found := s.found ++ [(id, start, stop)] }
      | none => return s
  | (.close _, _, stop) =>
      let depth := s.depth - 1
      match s.opened with
      | (id, begin_, d) :: rest =>
          if d = depth then
            .ok ⟨s.found ++ [(id, begin_, stop)], rest, depth⟩
          else .ok { s with depth := depth }
      | [] => .ok { s with depth := depth }
  | (.leaf _, _, _) => .ok s

/-- The elements that carry such an `Id`, in document order: the `Id`, the start and the end. -/
def elementsWithPrefixedId (q : QuickXml) (buffer_positions : String → List Nat) (xml : String) :
    Except CryptoError (List (String × Nat × Nat)) := do
  let stream := q.reader xml
  let stops := buffer_positions xml
  let s ← (stream.events.zip ((0 :: stops).zip stops)).foldlM (idStep q) ⟨[], [], 0⟩
  if let some e := stream.error then throw (CryptoError.xml ("Invalid XML: " ++ e))
  return s.found.insertionSort fun a b => a.2.1 ≤ b.2.1

/-! ## Declarations put into a fragment -/

/-- The declaration of a prefix that the start tag does not have yet. -/
def missingDeclaration (start_tag : Text) (namespaces : Bindings) (p : Text) : Text :=
  let key := if p = [] then "xmlns".toList else "xmlns:".toList ++ p
  if occursIn (key ++ ['=']) start_tag then []
  else ' ' :: key ++ "=\"".toList ++ escapeAttribute (uriOf namespaces p) ++ ['"']

/-- The fragment with the declarations of `namespaces` that its root element lacks. -/
def withNamespaces (fragment : Text) (namespaces : Bindings) : Text :=
  let nameEnds := fun c => isWhitespace c || c = '>' || c = '/'
  let name := fragment.take 1 ++ (fragment.drop 1).takeWhile fun c => !nameEnds c
  let start_tag := fragment.takeWhile fun c => c ≠ '>'
  name ++ (ordered (namespaces.map Prod.fst)).flatMap (missingDeclaration start_tag namespaces) ++
    fragment.drop name.length

end XmlUtil

end DianService
