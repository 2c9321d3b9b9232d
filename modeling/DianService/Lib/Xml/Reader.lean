import DianService.Lib.Xml.Namespaces

/-
  A reader of XML text without a document type declaration, event by event: start tags with their
  attributes as written, references apart from the character data around them. It looks at no more
  than it needs to tell the events apart; names, references and the nesting of tags are for the
  code that reads the events.
-/

namespace DianService.Lib.Xml

/-- What is before the first occurrence of `stop`, and what follows it. -/
def splitAtFirst (stop : Text) : Text → Option (Text × Text)
  | [] => none
  | c :: cs =>
      if stop.isPrefixOf (c :: cs) then some ([], (c :: cs).drop stop.length)
      else (splitAtFirst stop cs).map fun p => (c :: p.1, p.2)

/-- The attributes of a tag, whether the tag is that of an empty element, and what follows it. -/
def readAttributes : (fuel : Nat) → Text → Option (List Attribute × Bool × Text)
  | 0, _ => none
  | fuel + 1, text =>
      match text.dropWhile isSpace with
      | '>' :: rest => some ([], false, rest)
      | '/' :: '>' :: rest => some ([], true, rest)
      | cs => do
          let (key, rest) ← splitAtFirst ['='] cs
          match rest.dropWhile isSpace with
          | quote :: rest =>
              if quote = '"' ∨ quote = '\'' then do
                let (raw, rest) ← splitAtFirst [quote] rest
                let (attributes, isEmpty, rest) ← readAttributes fuel rest
                return (⟨String.ofList (key.takeWhile fun c => !isSpace c), String.ofList raw⟩ ::
                  attributes, isEmpty, rest)
              else none
          | [] => none

/-- The first event of a text that is not empty, and what follows it. -/
def readEvent (text : Text) : Option (Event RawTag Leaf × Text) :=
  match text with
  | '<' :: '!' :: '-' :: '-' :: cs =>
      (splitAtFirst "-->".toList cs).map fun p => (.leaf (.comment (String.ofList p.1)), p.2)
  | '<' :: '!' :: '[' :: 'C' :: 'D' :: 'A' :: 'T' :: 'A' :: '[' :: cs =>
      (splitAtFirst "]]>".toList cs).map fun p => (.leaf (.cdata (String.ofList p.1)), p.2)
  | '<' :: '?' :: cs =>
      (splitAtFirst "?>".toList cs).map fun p =>
        if piTarget p.1 = "xml".toList then (.leaf (.decl (String.ofList p.1)), p.2)
        else (.leaf (.pi (String.ofList p.1)), p.2)
  | '<' :: '/' :: cs =>
      (splitAtFirst ['>'] cs).map fun p =>
        (.close ⟨String.ofList (p.1.takeWhile fun c => !isSpace c), []⟩, p.2)
  | '<' :: cs =>
      let name := cs.takeWhile fun c => !isSpace c && c ≠ '>' && c ≠ '/'
      (readAttributes (cs.length + 1) (cs.drop name.length)).map fun (attributes, isEmpty, rest) =>
        (if isEmpty then .empty ⟨String.ofList name, attributes⟩
          else .start ⟨String.ofList name, attributes⟩, rest)
  | '&' :: cs =>
      (splitAtFirst [';'] cs).map fun p => (.leaf (.ref (String.ofList p.1)), p.2)
  | cs =>
      some (.leaf (.text (String.ofList (cs.takeWhile fun c => c ≠ '<' && c ≠ '&'))),
        cs.dropWhile fun c => c ≠ '<' && c ≠ '&')

def readFrom : (fuel : Nat) → Text → EventStream RawTag Leaf
  | 0, _ => ⟨[], none⟩
  | fuel + 1, text =>
      if text = [] then ⟨[], none⟩
      else
        match readEvent text with
        | none => ⟨[], some "unexpected end of input"⟩
        | some (event, rest) =>
            let stream := readFrom fuel rest
            ⟨event :: stream.events, stream.error⟩

/-- The events of a text. -/
def readXml (text : Text) : EventStream RawTag Leaf := readFrom (text.length + 1) text

example : (readXml "<a x=\"1\">b&amp;<c/></a>".toList).events =
    [.start ⟨"a", [⟨"x", "1"⟩]⟩, .leaf (.text "b"), .leaf (.ref "amp"), .empty ⟨"c", []⟩,
      .close ⟨"a", []⟩] := by decide +kernel

end DianService.Lib.Xml
