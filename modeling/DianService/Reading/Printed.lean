import DianService.Lib.Xml.Markup
import DianService.Reading.Canonicalized

/-
  Reading: what `XmlDoc` returns of a document that a template printed. The elements of the
  document are those of the template, so a path leads to the same place whatever the values are,
  and the text there is that of the template and the values.
-/

namespace DianService

open Lib.Xml

/-- `quick_xml` delivers what a text spells, where its tokens can be told apart. It passes over a
    byte order mark. -/
def QuickXml.Tokenizes (q : QuickXml) : Prop :=
  ∀ (text : Text) (f : Forest RawTag Leaf), text.head? ≠ some '\uFEFF' → Spells text f →
    f.Lexical → q.reader (String.ofList text) = f.stream

def textReader : QuickXml where
  reader xml := readNested xml.toList
  normalized_value raw :=
    match attributeValue raw.toList with
    | some value => .ok (String.ofList value)
    | none => .error "unterminated entity"

theorem textReader_tokenizes : textReader.Tokenizes := by
  intro text f _ hspells hlexical
  show readNested (String.ofList text).toList = f.stream
  rw [String.toList_ofList]
  exact readNested_spelled hspells hlexical

/-! ## Paths in markup -/

/-- The local name of a tag. -/
def partName (t : PartTag) : String := localName (readTag t.raw)

/-- The content of the first element that the local names lead to. -/
def printedAt : List String → Markup → Option Markup
  | _, .nil => none
  | path, .leaf _ rest => printedAt path rest
  | path, .empty t rest => if path = [partName t] then some .nil else printedAt path rest
  | [], .node _ _ _ => none
  | n :: path, .node t kids rest =>
      if n = partName t then
        if path = [] then some kids else (printedAt path kids).or (printedAt (n :: path) rest)
      else printedAt (n :: path) rest

/-! ## Characters of values -/

section Leaves

variable {f : Forest RawTag Leaf}

theorem characters_consChar (c : Char) :
    characters ((f.consChar c).mapTags readTag) = c :: characters (f.mapTags readTag) := by
  obtain ⟨raw, rest, rfl, hchar⟩ | ⟨-, hchar⟩ := consChar_cases c f
  · rw [hchar]
    show (String.ofList (c :: raw.toList)).toList ++ _ = _
    rw [String.toList_ofList]
    rfl
  · rw [hchar]
    show (String.ofList [c]).toList ++ _ = _
    rw [String.toList_ofList]
    rfl

theorem leafText_escape {c : Char} {name : Text} (h : escapeName? c = some name) :
    XmlDoc.leafText (.ref (String.ofList name)) = some [c] := by
  show (resolvedName (String.ofList name).toList).map _ = _
  rw [String.toList_ofList, C14n.resolvedName_eq (escapeName?_some h).1]
  rfl

theorem characters_consValue (c : Char) :
    characters ((f.consValue c).mapTags readTag) = c :: characters (f.mapTags readTag) := by
  unfold Forest.consValue
  cases hc : escapeName? c with
  | none => exact characters_consChar c
  | some name =>
    show leafChars (.ref (String.ofList name)) ++ _ = _
    rw [leafChars, leafText_escape hc]
    rfl

end Leaves

theorem characters_forest {m : Markup} (h : m.sound = true) :
    characters (m.forest.mapTags readTag) = m.text := by
  induction m with
  | nil => rfl
  | leaf l rest ih =>
    rw [Markup.sound, Bool.and_eq_true] at h
    cases l with
    | comment raw | decl raw => exact ih h.2
    | text parts =>
      exact text_before (P := fun _ u f => characters (f.mapTags readTag) = u)
        (fun _ h => (characters_consChar _).trans (congrArg _ h))
        (fun h => (characters_consValue _).trans (congrArg _ h)) (List.all_eq_true.mp h.1)
        (t := []) (ih h.2)
  | empty t rest ih =>
    rw [Markup.sound, Bool.and_eq_true] at h
    exact ih h.2
  | node t kids rest ihk ihr =>
    rw [Markup.sound, Bool.and_eq_true, Bool.and_eq_true] at h
    show characters ((Markup.forest kids).mapTags readTag) ++
      characters ((Markup.forest rest).mapTags readTag) = _
    rw [ihk h.1.2, ihr h.2, Markup.text]

/-! ## Elements of the template -/

theorem firstAt_consChar (path stack : List String) (c : Char) (f : Forest RawTag Leaf) :
    firstAt path stack ((f.consChar c).mapTags readTag) =
      firstAt path stack (f.mapTags readTag) := by
  obtain ⟨raw, rest, rfl, hchar⟩ | ⟨-, hchar⟩ := consChar_cases c f <;> rw [hchar] <;> rfl

theorem firstAt_consValue (path stack : List String) (c : Char) (f : Forest RawTag Leaf) :
    firstAt path stack ((f.consValue c).mapTags readTag) =
      firstAt path stack (f.mapTags readTag) := by
  unfold Forest.consValue
  cases escapeName? c with
  | none => exact firstAt_consChar path stack c f
  | some name => rfl

theorem firstAt_before (path stack : List String) {l : PartLeaf} (hl : l.sound = true)
    (f : Forest RawTag Leaf) : firstAt path stack ((l.before f).mapTags readTag) =
      firstAt path stack (f.mapTags readTag) := by
  cases l with
  | comment raw | decl raw => rfl
  | text parts =>
    exact text_before (P := fun _ _ g => firstAt path stack (g.mapTags readTag) =
        firstAt path stack (f.mapTags readTag))
      (fun _ h => (firstAt_consChar path stack _ _).trans h)
      (fun h => (firstAt_consValue path stack _ _).trans h) (List.all_eq_true.mp hl) (t := [])
      (u := []) rfl

theorem not_prefix_cons {path stack : List String} (h : ¬ stack.reverse <+: path) (n : String) :
    ¬ (n :: stack).reverse <+: path := by
  intro hprefix
  rw [List.reverse_cons] at hprefix
  exact h ((List.prefix_append _ _).trans hprefix)

/-- A path that does not go through the open elements leads nowhere inside them. -/
theorem firstAt_outside {ν : Type} {path stack : List String} (h : ¬ stack.reverse <+: path)
    (f : Forest Tag ν) : firstAt path stack f = none := by
  have hne : ∀ n, (n :: stack).reverse ≠ path := fun n heq =>
    not_prefix_cons h n (heq ▸ List.prefix_refl _)
  induction f generalizing stack with
  | nil => rfl
  | leaf l rest ih => exact ih h hne
  | empty t rest ih =>
    rw [firstAt, if_neg (hne _)]
    exact ih h hne
  | node t kids rest ihk ihr =>
    have hkids := not_prefix_cons h (localName t)
    rw [firstAt, if_neg (hne _), ihr h hne, ihk hkids fun n heq =>
      not_prefix_cons hkids n (heq ▸ List.prefix_refl _)]
    rfl

/-- An element has the path where its name is all that is left of it. -/
theorem reverse_eq_append_iff {n : String} {stack path : List String} :
    (n :: stack).reverse = stack.reverse ++ path ↔ path = [n] := by
  rw [List.reverse_cons, List.append_right_inj, eq_comm]

theorem firstAt_forest {path : List String} (hpath : path ≠ []) {m : Markup}
    (h : m.sound = true) (stack : List String) :
    firstAt (stack.reverse ++ path) stack (m.forest.mapTags readTag) =
      (printedAt path m).map fun k => k.forest.mapTags readTag := by
  induction m generalizing path stack with
  | nil => cases path <;> rfl
  | leaf l rest ih =>
    rw [Markup.sound, Bool.and_eq_true] at h
    rw [Markup.forest, firstAt_before _ _ h.1, ih hpath h.2]
    cases path <;> rfl
  | empty t rest ih =>
    rw [Markup.sound, Bool.and_eq_true] at h
    show (if (partName t :: stack).reverse = stack.reverse ++ path then _ else _) = _
    rw [ih hpath h.2]
    by_cases hname : path = [partName t]
    · rw [if_pos (reverse_eq_append_iff.mpr hname), printedAt, if_pos hname]
      rfl
    · rw [if_neg (fun heq => hname (reverse_eq_append_iff.mp heq)), printedAt, if_neg hname]
  | node t kids rest ihk ihr =>
    rw [Markup.sound, Bool.and_eq_true, Bool.and_eq_true] at h
    show (if (partName t :: stack).reverse = stack.reverse ++ path then _ else
      (firstAt _ (partName t :: stack) _).or _) = _
    rw [ihr hpath h.2]
    obtain ⟨n, path, rfl⟩ := List.exists_cons_of_ne_nil hpath
    rw [printedAt]
    by_cases hn : n = partName t
    · rw [if_pos hn]
      by_cases hlast : path = []
      · rw [if_pos hlast, if_pos (reverse_eq_append_iff.mpr (by rw [hlast, hn]))]
        rfl
      · have hnot : n :: path ≠ [partName t] := fun heq => hlast (List.cons.inj heq).2
        have hinside : stack.reverse ++ n :: path = (partName t :: stack).reverse ++ path := by
          rw [List.reverse_cons, List.append_assoc, hn]
          rfl
        rw [if_neg hlast, if_neg fun heq => hnot (reverse_eq_append_iff.mp heq), hinside,
          ihk hlast h.1.2, Option.map_or]
    · have hnot : n :: path ≠ [partName t] := fun heq => hn (List.cons.inj heq).1
      have houtside : ¬ (partName t :: stack).reverse <+: stack.reverse ++ n :: path := by
        rw [List.reverse_cons, List.prefix_append_right_inj, List.cons_prefix_cons]
        exact fun h => hn h.1.symm
      rw [if_neg hn, if_neg fun heq => hnot (reverse_eq_append_iff.mp heq),
        firstAt_outside houtside]
      rfl

/-! ## Printed documents -/

theorem printedAt_sound {path : List String} {m k : Markup} (h : m.sound = true)
    (hk : printedAt path m = some k) : k.sound = true := by
  induction m generalizing path with
  | nil =>
    cases path <;> cases hk
  | leaf l rest ih =>
    rw [Markup.sound, Bool.and_eq_true] at h
    have hrest : printedAt path rest = some k := by cases path <;> exact hk
    exact ih h.2 hrest
  | empty t rest ih =>
    rw [Markup.sound, Bool.and_eq_true] at h
    rw [printedAt] at hk
    split at hk
    · cases hk
      rfl
    · exact ih h.2 hk
  | node t kids rest ihk ihr =>
    rw [Markup.sound, Bool.and_eq_true, Bool.and_eq_true] at h
    cases path with
    | nil => cases hk
    | cons n path =>
      rw [printedAt] at hk
      split at hk
      · split at hk
        · cases hk
          exact h.1.2
        · rcases Option.or_eq_some_iff.mp hk with hinside | ⟨-, hafter⟩
          · exact ihk h.1.2 hinside
          · exact ihr h.2 hafter
      · exact ihr h.2 hk

theorem printed_events (declaration : String) (root : PartTag) (content : Markup) :
    ((Markup.document declaration root content).forest.mapTags readTag).events =
      .leaf (.decl declaration) :: .leaf (.text "\n") :: .start (readTag root.raw) ::
        ((content.forest.mapTags readTag).events ++ [.close (readTag root.raw)]) := rfl

/-- `XmlDoc` accepts a printed document. It finds at a path what the template has there. -/
theorem printed_read {q : QuickXml} (hq : q.Tokenizes) {declaration : String} {root : PartTag}
    {content : Markup} (h : (Markup.document declaration root content).sound = true) :
    ∃ doc, XmlDoc.ofText q (String.ofList (Markup.document declaration root content).print) =
        .ok doc ∧
      doc.root = partName root ∧
      ∀ path ≠ [], doc.text path =
        (printedAt path (Markup.document declaration root content)).map fun k =>
          String.ofList (trimChars k.text) := by
  have hevents := printed_events declaration root content
  have hstart : (Markup.document declaration root content).print.head? ≠ some '\uFEFF' := by
    show some '<' ≠ _
    decide
  have hkids : ∀ l ∈ (content.forest.mapTags readTag).leaves, Admitted l := by
    intro l hl
    rw [leaves_mapTags] at hl
    refine (Markup.sound_leaves h l ?_).admitted
    exact List.mem_cons_of_mem _ (List.mem_cons_of_mem _ (List.mem_append_left _ hl))
  generalize Markup.document declaration root content = m at *
  have hparse : XmlDoc.parse (m.forest.mapTags readTag).stream =
      .ok ⟨(m.forest.mapTags readTag).stream, partName root⟩ := by
    have hsteps : (m.forest.mapTags readTag).events.foldlM XmlDoc.parseStep ⟨none, 0⟩ =
        .ok ⟨some (partName root), 0⟩ := by
      rw [hevents]
      exact parseSteps_inside (s := ⟨some (partName root), 1⟩) hkids Nat.one_ne_zero
    rw [XmlDoc.parse, Forest.stream, hsteps]
    rfl
  refine ⟨⟨(m.forest.mapTags readTag).stream, partName root⟩, ?_, rfl, fun path hpath => ?_⟩
  · rw [XmlDoc.ofText, hq _ _ hstart (Markup.spells h) (Markup.lexical h), Forest.stream_mapTags,
      hparse]
  · have hat := firstAt_forest hpath h []
    rw [List.reverse_nil, List.nil_append] at hat
    rw [text_parsed hparse, textAt, hat, Option.map_map]
    cases hk : printedAt path m with
    | none => rfl
    | some k =>
      rw [Option.map_some, Option.map_some, Function.comp,
        characters_forest (printedAt_sound h hk)]

end DianService
