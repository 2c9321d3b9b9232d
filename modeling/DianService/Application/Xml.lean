import DianService.Crypto.Verify
import DianService.Lib.Xml.Values

/-
  Application: values of UBL documents (`xml.rs`). `XmlDoc` reads a document by the path of the
  local names from the root.
-/

namespace DianService

open Lib.Xml

def resolveReference (name : String) : Option Char := resolvedName name.toList

/-- `local_name` of a qualified name. -/
def localName (t : Tag) : String := t.name.text

/-- A well-formed document without a DTD. -/
structure XmlDoc where
  xml : EventStream Tag Leaf
  root : String

namespace XmlDoc

structure ParseState where
  root : Option String
  depth : Nat

/-- `root.replace(..).is_some()` -/
def ParseState.setRoot (s : ParseState) (t : Tag) : Except String ParseState :=
  if s.root.isSome then .error "XML invalido: mas de un elemento raiz"
  else .ok { s with root := some (localName t) }

def parseStep (s : ParseState) : Node → Except String ParseState
  | .start t => do
      let s ← if s.depth = 0 then s.setRoot t else pure s
      return { s with depth := s.depth + 1 }
  | .empty t => if s.depth = 0 then s.setRoot t else .ok s
  | .close _ => .ok { s with depth := s.depth - 1 }
  | .leaf (.doctype _) => .error "XML invalido: no se admiten DTD"
  | .leaf (.ref name) =>
      if (resolveReference name).isNone then
        .error ("XML invalido: entidad no admitida &" ++ name ++ ";")
      else .ok s
  | .leaf _ => .ok s

def parse (xml : EventStream Tag Leaf) : Except String XmlDoc := do
  let s ← xml.events.foldlM parseStep ⟨none, 0⟩
  if let some e := xml.error then throw ("XML invalido: " ++ e)
  match s.root, s.depth with
  | some root, 0 => return ⟨xml, root⟩
  | _, _ => throw "XML invalido: documento incompleto"

/-- What a leaf adds to the text. -/
def leafText : Leaf → Option (List Char)
  | .text raw => some raw.toList
  | .cdata raw => some raw.toList
  | .ref name => (resolveReference name).map fun c => [c]
  | _ => some []

/-- The loop of `text`; `stack` has the innermost element first. -/
def textFrom (path : List String) :
    (stack : List String) → (capture : Option (Nat × List Char)) → List Node → Option String
  | _, _, [] => none
  | stack, capture, .start t :: events =>
      let stack := localName t :: stack
      if capture.isNone && stack.reverse = path then
        textFrom path stack (some (stack.length, [])) events
      else textFrom path stack capture events
  | stack, capture, .empty t :: events =>
      if capture.isNone && (localName t :: stack).reverse = path then some ""
      else textFrom path stack capture events
  | stack, some (depth, text), .close _ :: events =>
      if depth = stack.length then some (String.ofList (trimChars text))
      else textFrom path stack.tail (some (depth, text)) events
  | stack, none, .close _ :: events => textFrom path stack.tail none events
  | stack, some (depth, text), .leaf l :: events =>
      (leafText l).bind fun more => textFrom path stack (some (depth, text ++ more)) events
  | stack, none, .leaf _ :: events => textFrom path stack none events

/-- The text of the first element whose path of local names from the root, the root included, is
    `path`. -/
def text (doc : XmlDoc) (path : List String) : Option String :=
  textFrom path [] none doc.xml.events

end XmlDoc

/-- `split_document_id`: the parts of an identifier such as `FEV-1002` or `SETP990001`. -/
def splitDocumentId (document_id : String) : Option (String × Int) :=
  let cs := document_id.toList
  let parts :=
    if '-' ∈ cs then
      some ((cs.reverse.dropWhile (· ≠ '-')).tail.reverse, (cs.reverse.takeWhile (· ≠ '-')).reverse)
    else if cs.any Char.isDigit then
      some (cs.takeWhile fun c => !c.isDigit, cs.dropWhile fun c => !c.isDigit)
    else none
  parts.bind fun (pfx, digits) =>
    if digits = [] || !digits.all Char.isDigit then none
    else (digits? 10 0 digits).bind fun n =>
      if n < 2147483648 then some (String.ofList pfx, (n : Int)) else none

example : splitDocumentId "FEV-1002" = some ("FEV", 1002) := by decide

example : splitDocumentId "SETP990001" = some ("SETP", 990001) := by decide

example : splitDocumentId "FE12A" = none := by decide

end DianService
