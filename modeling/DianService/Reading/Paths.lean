import DianService.Crypto.C14n
import DianService.Lib.Xml.Nesting
import DianService.Signature.SignedText

/-
  Reading: what `XmlDoc::text` computes. `located` searches the tree: the elements with the local
  names that lead to them. The reader of `XmlDoc` knows no namespaces; of a tag it uses what
  follows the last colon of its name.
-/

namespace DianService

open Lib.Xml

/-! ## Documents as text -/

/-- `quick_xml` reports an end tag that does not close the open element. -/
def QuickXml.Nests (q : QuickXml) : Prop := ∀ text, Nested (q.reader text).events

def afterLastColon (qname : Text) : Text := (qname.reverse.takeWhile (· ≠ ':')).reverse

theorem colon_notMem_afterLastColon (qname : Text) : ':' ∉ afterLastColon qname := by
  intro h
  have hall := List.all_eq_true.mp (List.all_takeWhile (p := fun c => decide (c ≠ ':'))) _
    (List.mem_reverse.mp h)
  simp at hall

/-- A tag as `XmlDoc` sees it. -/
def readTag (t : RawTag) : Tag where
  uri := none
  pfx := none
  name := ⟨String.ofList (afterLastColon t.name.toList), by
    rw [String.toList_ofList]
    exact colon_notMem_afterLastColon t.name.toList⟩
  attributes := t.attributes

/-- `XmlDoc::parse` of a text. -/
def XmlDoc.ofText (q : QuickXml) (xml : String) : Except String XmlDoc :=
  parse ((q.reader xml).mapTags readTag)

section Parsed

variable {q : QuickXml} {xml : String} {doc : XmlDoc}

theorem setRoot_depth {s s' : XmlDoc.ParseState} {t : Tag} (h : s.setRoot t = .ok s') :
    s'.depth = s.depth := by
  rw [XmlDoc.ParseState.setRoot] at h
  split at h
  · cases h
  · cases h
    rfl

theorem parseStep_start {s s' : XmlDoc.ParseState} {t : Tag}
    (h : XmlDoc.parseStep s (.start t) = .ok s') : s'.depth = s.depth + 1 := by
  by_cases hzero : s.depth = 0
  · simp only [XmlDoc.parseStep, hzero, if_true] at h
    obtain ⟨s₁, hroot, hend⟩ := ok_of_bind h
    cases hend
    exact congrArg (· + 1) (setRoot_depth hroot)
  · simp only [XmlDoc.parseStep, hzero, if_false] at h
    cases h
    rfl

theorem parseStep_empty {s s' : XmlDoc.ParseState} {t : Tag}
    (h : XmlDoc.parseStep s (.empty t) = .ok s') : s'.depth = s.depth := by
  change (if s.depth = 0 then s.setRoot t else .ok s) = _ at h
  split at h
  · exact setRoot_depth h
  · cases h
    rfl

theorem parseStep_leaf {s s' : XmlDoc.ParseState} {l : Leaf}
    (h : XmlDoc.parseStep s (.leaf l) = .ok s') : s' = s := by
  cases l with
  | ref name =>
    change (if (resolveReference name).isNone then _ else _) = _ at h
    split at h
    · cases h
    · cases h
      rfl
  | doctype raw => cases h
  | text | cdata | pi | comment | decl =>
    cases h
    rfl

theorem depth_of_parseSteps {es : List (Event RawTag Leaf)} {stack stack' : List RawTag}
    {s s' : XmlDoc.ParseState} (hdepth : s.depth = stack.length)
    (hopen : openAfter stack es = some stack')
    (h : (es.map (Event.mapTag readTag)).foldlM XmlDoc.parseStep s = .ok s') :
    s'.depth = stack'.length := by
  induction es generalizing stack s with
  | nil =>
    cases hopen
    cases h
    exact hdepth
  | cons e es ih =>
    rw [List.map_cons, List.foldlM_cons] at h
    obtain ⟨s₁, hstep, hrest⟩ := ok_of_bind h
    cases e with
    | start t =>
      have hinner : openAfter (t :: stack) es = some stack' := hopen
      exact ih ((parseStep_start hstep).trans (congrArg (· + 1) hdepth)) hinner hrest
    | close t =>
      cases stack with
      | nil => cases hopen
      | cons u stack =>
        rw [openAfter] at hopen
        split at hopen
        · cases hstep
          exact ih (by rw [hdepth]; rfl) hopen hrest
        · cases hopen
    | empty t =>
      have hsame : openAfter stack es = some stack' := hopen
      exact ih ((parseStep_empty hstep).trans hdepth) hsame hrest
    | leaf l =>
      have hsame : openAfter stack es = some stack' := hopen
      obtain rfl := parseStep_leaf hstep
      exact ih hdepth hsame hrest

/-- A text that `XmlDoc::parse` accepts is read to its end, and is that of a tree. -/
theorem ofText_stream (hnest : q.Nests) (h : XmlDoc.ofText q xml = .ok doc) :
    ∃ d : Forest RawTag Leaf, q.reader xml = d.stream := by
  obtain ⟨stack, hopen⟩ := Option.isSome_iff_exists.mp (hnest xml)
  obtain ⟨s, hsteps, h⟩ := ok_of_bind h
  have hdepth : s.depth = stack.length := depth_of_parseSteps rfl hopen hsteps
  cases herror : (q.reader xml).error with
  | some e =>
    rw [EventStream.mapTags, herror] at h
    cases h
  | none =>
    rw [EventStream.mapTags, herror] at h
    have hzero : s.depth = 0 := by
      dsimp only at h
      split at h
      · rename_i hfinal
        exact hfinal
      · cases h
    obtain rfl := List.eq_nil_of_length_eq_zero (hdepth.symm.trans hzero)
    obtain ⟨d, hd⟩ := exists_forest hopen
    exact ⟨d, by rw [Forest.stream, hd, ← herror]⟩

end Parsed

/-! ## Elements and their paths -/

/-- The elements in document order, each with the local names from the root to it and its
    content. -/
def located {ν : Type} (above : List String) : Forest Tag ν → List (List String × Forest Tag ν)
  | .nil => []
  | .leaf _ rest => located above rest
  | .empty t rest => (above ++ [localName t], .nil) :: located above rest
  | .node t kids rest =>
      (above ++ [localName t], kids) ::
        (located (above ++ [localName t]) kids ++ located above rest)

/-- Character data, references resolved. -/
def allText (content : Doc) : List Char := content.leaves.flatMap leafChars

theorem characters_eq (f : Doc) : characters f = allText f := by
  induction f with
  | nil => rfl
  | leaf l rest ih => rw [characters, ih]; rfl
  | empty t rest ih => exact ih
  | node t kids rest ihk ihr =>
    rw [characters, ihk, ihr, allText, allText, allText, Forest.leaves, List.flatMap_append]

theorem firstAt_located {ν : Type} (path : List String) (f : Forest Tag ν) (stack : List String) :
    firstAt path stack f =
      ((located stack.reverse f).find? fun e => e.1 = path).map Prod.snd := by
  induction f generalizing stack with
  | nil => rfl
  | leaf l rest ih => exact ih stack
  | empty t rest ih =>
    rw [firstAt, located, List.find?_cons, List.reverse_cons]
    by_cases hpath : stack.reverse ++ [localName t] = path
    · simp only [hpath, if_true, decide_true]
      rfl
    · simp only [hpath, if_false, decide_false]
      exact ih stack
  | node t kids rest ihk ihr =>
    rw [firstAt, located, List.find?_cons, List.reverse_cons]
    by_cases hpath : stack.reverse ++ [localName t] = path
    · simp only [hpath, if_true, decide_true]
      rfl
    · simp only [hpath, if_false, decide_false]
      rw [ihk, ihr, List.find?_append, List.reverse_cons]
      cases (located (stack.reverse ++ [localName t]) kids).find? fun e => e.1 = path <;> rfl

theorem textAt_located (path : List String) (d : Doc) :
    textAt path d = ((located [] d).find? fun e => e.1 = path).map fun e =>
      String.ofList (trimChars (allText e.2)) := by
  rw [textAt, firstAt_located, Option.map_map]
  congr 1
  funext e
  rw [Function.comp, characters_eq]

/-- `<Inv><Party>A &amp; B</Party><ID/></Inv>` -/
def partyDocument : Forest RawTag Leaf :=
  .node ⟨"Inv", []⟩
    (.node ⟨"Party", []⟩ (.leaf (.text "A ") (.leaf (.ref "amp") (.leaf (.text " B") .nil)))
      (.empty ⟨"ID", []⟩ .nil)) .nil

/-- Every text is that document. -/
def partyReader : QuickXml := ⟨fun _ => partyDocument.stream, .ok⟩

end DianService
