import DianService.Reading.Tags
import Mathlib.Data.List.Basic

/-
  Reading: what the two searches should return of an element, and what they take for its content.
  They do not undo references, take the first `>` for the end of a tag and the first `</` for the
  end of the element; the one of the SOAP client does not see an element that is written `<X/>`.
-/

namespace DianService

open Lib.Xml

/-! ## What the tree has -/

/-- The local name of a tag. -/
def named (tag_name : Text) (t : WrittenTag) : Bool := (splitName t.name.toList).2 = tag_name

def firstNamed (tag_name : Text) (d : WrittenDocument) : Option ElementAt :=
  firstElement (fun t _ => named tag_name t) (d.element .nil)

/-- The content of an element. -/
def ElementAt.kids (e : ElementAt) : Forest WrittenTag Leaf := e.content.getD .nil

/-- The leaves before the first element. -/
def leading : Forest WrittenTag Leaf → Text
  | .leaf l rest => l.spelling ++ leading rest
  | _ => []

/-- The leaves after each element. -/
def runs : Forest WrittenTag Leaf → List Text
  | .nil => []
  | .leaf _ rest => runs rest
  | .empty _ rest | .node _ _ rest => leading rest :: runs rest

/-- What is written in an element and not in another: its attributes with the leaves that follow,
    and the leaves after each element in it. -/
def ElementAt.pieces (e : ElementAt) : List Text :=
  (e.tag.inside ++ '>' :: leading e.kids) :: runs e.kids

/-- The answer fits the element. -/
structure ElementAt.Gives (e : ElementAt) (answer : Option String) : Prop where
  nothing : e.kids = .nil → answer = none ∨ answer = some ""
  text : e.kids ≠ .nil → e.kids.OnlyText →
    answer = some (trim (String.ofList (e.kids.leaves.flatMap Leaf.characters)))
  /-- Nothing of another element. -/
  other : ¬ e.kids.OnlyText → ∀ s, answer = some s → ∃ piece ∈ e.pieces, s.toList <:+: piece

structure Correct (first : Option ElementAt) (answer : Option String) : Prop where
  absent : first = none → answer = none
  found : ∀ e, first = some e → e.Gives answer

/-- Both functions answer what the tree has, and the same. -/
structure AgreeWithTree (d : WrittenDocument) (tag_name : Text) : Prop where
  soap : Correct (firstNamed tag_name d)
    (extractTagContent (String.ofList d.text) (String.ofList tag_name))
  inbound : Correct (firstNamed tag_name d)
    (tagContent (String.ofList d.text) (String.ofList tag_name))
  same : extractTagContent (String.ofList d.text) (String.ofList tag_name) =
    tagContent (String.ofList d.text) (String.ofList tag_name)

/-! ## When they agree -/

/-- The elements that the SOAP client sees. -/
def soapSees (tag_name : Text) (t : WrittenTag) (isEmpty : Bool) : Bool :=
  named tag_name t && !(isEmpty && t.inside = [])

/-- Both searches read the name of the tag as it is, the one of the SOAP client with the `/` of
    `<X/>`; a processing instruction, an XML declaration and a DTD have no other `<` and are not
    read as a tag with the name. -/
def Legible (tag_name : Text) : Event WrittenTag Leaf → Prop
  | .start t => (readName endsName (t.opened false) = tag_name ↔ named tag_name t = true) ∧
      (readName soapEndsName (t.opened false) = tag_name ↔ named tag_name t = true)
  | .empty t => (readName endsName (t.opened true) = tag_name ↔ named tag_name t = true) ∧
      (readName soapEndsName (t.opened true) = tag_name ↔ soapSees tag_name t true = true)
  | .close _ => True
  | .leaf l => ∀ rest, l.spelling = '<' :: rest → '<' ∉ rest ∧
      readName endsName rest ≠ tag_name ∧ readName soapEndsName rest ≠ tag_name

/-- White space and nothing else. -/
def Blank (f : Forest WrittenTag Leaf) : Prop :=
  f.children = [] ∧ ∀ l ∈ f.leaves, ∃ raw, l = .text raw ∧ raw.toList.all isWhitespace = true

/-- Nothing is taken for the content of the element. -/
structure ElementAt.Blank (e : ElementAt) : Prop where
  inside : '>' ∉ e.tag.inside
  content : DianService.Blank (e.content.getD e.rest)

/-- What is taken for the content of the element is its content. -/
structure ElementAt.Direct (e : ElementAt) : Prop where
  empty : e.content = none → e.Blank
  text : e.content ≠ none → e.kids.OnlyText →
    '>' ∉ e.tag.inside ∧ ∀ l ∈ e.kids.leaves, l.isReference = false
  other : ¬ e.kids.OnlyText → e.kids.children = []

/-- The first element with the name is direct, unless the root is an empty-element tag. If it is
    written `<X/>`, so that the SOAP client takes the next one that is not, nothing is taken for the
    content of that either. -/
def Answerable (d : WrittenDocument) (tag_name : Text) : Prop :=
  d.content ≠ none → ∀ e, firstNamed tag_name d = some e → e.Direct ∧
    (e.content = none → e.tag.inside = [] →
      ∃ e', firstElement (soapSees tag_name) (d.element .nil) = some e' ∧ e'.Blank)

/-! ## Trimming -/

theorem trimChars_eq_nil {t : Text} : trimChars t = [] ↔ t.all isWhitespace = true := by
  constructor
  · intro h
    have hfilter := filter_trimChars t
    rw [h, List.filter_nil] at hfilter
    simpa [List.filter_eq_nil_iff] using hfilter.symm
  · intro h
    have hnil : trimChars (t ++ []) = trimChars [] := trimChars_append_left h []
    rwa [List.append_nil] at hnil

/-- What starts with another character is not trimmed, nor what follows it. -/
theorem dropWhile_before {u m : Text} {a : Char} (hfirst : m.head? = some a)
    (ha : isWhitespace a = false) (v : Text) :
    ∃ u', (u ++ (m ++ v)).dropWhile isWhitespace = u' ++ (m ++ v) := by
  obtain ⟨cs, rfl⟩ := List.head?_eq_some_iff.mp hfirst
  cases hu : u.all isWhitespace with
  | true =>
    rw [dropWhile_append_of_all hu, List.cons_append,
      List.dropWhile_cons_of_neg (by simp [ha])]
    exact ⟨[], rfl⟩
  | false =>
    rw [dropWhile_append_of_not_all hu]
    exact ⟨_, rfl⟩

theorem infix_trimChars {m : Text} {a b : Char} (hfirst : m.head? = some a)
    (hlast : m.getLast? = some b) (ha : isWhitespace a = false) (hb : isWhitespace b = false)
    (u v : Text) : m <:+: trimChars (u ++ (m ++ v)) := by
  obtain ⟨u', hleft⟩ := dropWhile_before (u := u) hfirst ha v
  have hback : m.reverse.head? = some b := by rwa [List.head?_reverse]
  obtain ⟨v', hright⟩ := dropWhile_before (u := v.reverse) hback hb u'.reverse
  have hreverse : (u' ++ (m ++ v)).reverse = v.reverse ++ (m.reverse ++ u'.reverse) := by simp
  rw [trimChars, hleft, hreverse, hright]
  exact ⟨u', v'.reverse, by simp⟩

theorem trimChars_within (t : Text) : trimChars t <:+: t := by
  have hright := (List.dropWhile_suffix isWhitespace (l := (t.dropWhile isWhitespace).reverse))
  rw [← List.reverse_prefix, List.reverse_reverse] at hright
  exact hright.isInfix.trans (List.dropWhile_suffix _).isInfix

/-- The characters that are no white space. -/
def dense (t : Text) : Nat := (t.filter fun c => !isWhitespace c).length

theorem dense_append (t u : Text) : dense (t ++ u) = dense t + dense u := by
  rw [dense, List.filter_append, List.length_append]
  rfl

theorem dense_trimChars (t : Text) : dense (trimChars t) = dense t :=
  congrArg List.length (filter_trimChars t)

theorem dense_pos {t : Text} {c : Char} (hc : c ∈ t) (hspace : isWhitespace c = false) :
    0 < dense t :=
  List.length_pos_of_mem (List.mem_filter.mpr ⟨hc, by rw [hspace]; rfl⟩)

/-! ## What is taken for the content -/

theorem leftOver_eq_nil {t : WrittenTag} (h : '>' ∉ t.inside) (isEmpty : Bool) :
    leftOver t isEmpty = [] := by
  have hall : ∀ c ∈ t.inside, decide (c ≠ '>') = true :=
    fun c hc => decide_eq_true fun heq => h (heq ▸ hc)
  rw [leftOver, List.dropWhile_append_of_pos hall]
  cases isEmpty <;> rfl

theorem gt_mem_leftOver {t : WrittenTag} (h : '>' ∈ t.inside) (isEmpty : Bool) :
    '>' ∈ leftOver t isEmpty := by
  have hsome : t.inside.dropWhile (fun c => decide (c ≠ '>')) ≠ [] := by
    intro hnil
    simpa using List.dropWhile_eq_nil_iff.mp hnil _ h
  rw [leftOver, List.dropWhile_append, if_neg (by simpa using hsome),
    List.drop_append_of_le_length (List.length_pos_iff.mpr hsome)]
  exact List.mem_append_right _ (gt_mem_tagEnd isEmpty)

theorem leftOver_blank_iff {t : WrittenTag} {isEmpty : Bool} :
    (leftOver t isEmpty).all isWhitespace = true ↔ '>' ∉ t.inside := by
  constructor
  · intro hall hgt
    have hspace := List.all_eq_true.mp hall _ (gt_mem_leftOver hgt isEmpty)
    cases hspace
  · intro h
    rw [leftOver_eq_nil h]
    rfl

theorem spelling_blank_iff {l : Leaf} : l.spelling.all isWhitespace = true ↔
    ∃ raw, l = .text raw ∧ raw.toList.all isWhitespace = true := by
  cases l with
  | text raw => exact ⟨fun h => ⟨raw, rfl, h⟩, fun ⟨_, heq, h⟩ => Leaf.text.inj heq ▸ h⟩
  | cdata | ref | pi | comment | decl | doctype =>
    refine ⟨fun h => ?_, fun ⟨_, heq, _⟩ => Leaf.noConfusion heq⟩
    have hfirst := List.all_eq_true.mp h _ List.mem_cons_self
    cases hfirst

theorem beforeEnd_blank_iff {f : Forest WrittenTag Leaf} :
    (beforeEnd f).all isWhitespace = true ↔ Blank f := by
  induction f with
  | nil => exact ⟨fun _ => ⟨rfl, List.forall_mem_nil _⟩, fun _ => rfl⟩
  | leaf l rest ih =>
    rw [beforeEnd, List.all_append, Bool.and_eq_true, spelling_blank_iff, ih]
    constructor
    · rintro ⟨hl, hchildren, hrest⟩
      exact ⟨hchildren, List.forall_mem_cons.mpr ⟨hl, hrest⟩⟩
    · rintro ⟨hchildren, hleaves⟩
      obtain ⟨hl, hrest⟩ := List.forall_mem_cons.mp hleaves
      exact ⟨hl, hchildren, hrest⟩
  | empty | node =>
    refine ⟨fun h => ?_, fun h => absurd h.1 (List.cons_ne_nil _ _)⟩
    have hfirst := List.all_eq_true.mp h _ List.mem_cons_self
    cases hfirst

theorem ElementAt.raw_blank_iff {e : ElementAt} :
    e.raw.all isWhitespace = true ↔ e.Blank := by
  rw [ElementAt.raw, List.all_append, Bool.and_eq_true, leftOver_blank_iff, beforeEnd_blank_iff]
  exact ⟨fun h => ⟨h.1, h.2⟩, fun h => ⟨h.inside, h.content⟩⟩

section Kids

variable {f : Forest WrittenTag Leaf}

theorem beforeEnd_of_leaves (h : f.children = []) :
    beforeEnd f = f.leaves.flatMap Leaf.spelling := by
  induction f with
  | nil => rfl
  | leaf l rest ih => exact congrArg _ (ih h)
  | empty | node => cases h

theorem leading_of_leaves (h : f.children = []) : leading f = beforeEnd f := by
  induction f with
  | nil => rfl
  | leaf l rest ih => exact congrArg _ (ih h)
  | empty | node => cases h

/-- The tag of the first element. -/
theorem beforeEnd_of_children (h : f.children ≠ []) (hf : ∀ e ∈ f.events, e.Written) :
    ∃ t isEmpty v, WrittenTag.Sound t ∧
      beforeEnd f = leading f ++ ('<' :: t.opened isEmpty ++ v) := by
  induction f with
  | nil => exact absurd rfl h
  | leaf l rest ih =>
    obtain ⟨-, hrest⟩ := List.forall_mem_cons.mp hf
    obtain ⟨t, isEmpty, v, ht, heq⟩ := ih h hrest
    exact ⟨t, isEmpty, v, ht, by rw [beforeEnd, heq, leading, List.append_assoc]⟩
  | empty t rest => exact ⟨t, true, _, (List.forall_mem_cons.mp hf).1, rfl⟩
  | node t kids rest => exact ⟨t, false, _, (List.forall_mem_cons.mp hf).1, rfl⟩

end Kids

/-! ## Text -/

/-- A reference takes more characters than the one it stands for. -/
theorem dense_characters {ls : List Leaf} (h : ∀ l ∈ ls, l.isCharacters = true) :
    dense (ls.flatMap Leaf.characters) + (ls.filter Leaf.isReference).length ≤
      dense (ls.flatMap Leaf.spelling) := by
  induction ls with
  | nil => exact Nat.le_refl _
  | cons l ls ih =>
    obtain ⟨hl, hls⟩ := List.forall_mem_cons.mp h
    have hrest := ih hls
    rw [List.flatMap_cons, List.flatMap_cons, dense_append, dense_append]
    cases l with
    | text raw =>
      show dense raw.toList + _ + _ ≤ dense raw.toList + _
      exact (Nat.add_assoc _ _ _).le.trans (Nat.add_le_add_left hrest _)
    | ref name =>
      have hspelling : 2 ≤ dense (Leaf.ref name).spelling := by
        show 2 ≤ dense ('&' :: (name.toList ++ [';']))
        rw [← List.singleton_append, dense_append, dense_append]
        have hamp : dense ['&'] = 1 := rfl
        have hsemicolon : dense [';'] = 1 := rfl
        omega
      have hcharacters : dense (Leaf.ref name).characters ≤ 1 := by
        have hle := List.length_filter_le (fun c => !isWhitespace c) (Leaf.ref name).characters
        exact hle.trans Option.length_toList_le
      rw [List.filter_cons_of_pos rfl, List.length_cons]
      omega
    | cdata | pi | comment | decl | doctype => cases hl

theorem characters_eq_spelling {ls : List Leaf} (h : ∀ l ∈ ls, l.isCharacters = true)
    (href : ∀ l ∈ ls, l.isReference = false) :
    ls.flatMap Leaf.characters = ls.flatMap Leaf.spelling := by
  refine List.flatMap_congr fun l hl => ?_
  have hcharacters := h l hl
  have hreference := href l hl
  cases l with
  | text raw => rfl
  | ref name => cases hreference
  | cdata | pi | comment | decl | doctype => cases hcharacters

/-- The text of an element with text only is returned where no attribute has a `>` and no reference
    is in it. -/
theorem text_iff {t : WrittenTag} {kids : Forest WrittenTag Leaf} (h : kids.OnlyText) :
    trimChars (leftOver t false ++ beforeEnd kids) =
        trimChars (kids.leaves.flatMap Leaf.characters) ↔
      '>' ∉ t.inside ∧ ∀ l ∈ kids.leaves, l.isReference = false := by
  rw [beforeEnd_of_leaves h.1]
  constructor
  · intro heq
    have hdense := congrArg dense heq
    rw [dense_trimChars, dense_trimChars, dense_append] at hdense
    have hle := dense_characters h.2
    refine ⟨fun hgt => ?_, fun l hl => ?_⟩
    · have hpos := dense_pos (gt_mem_leftOver hgt false) (by decide)
      omega
    · have hnone : kids.leaves.filter Leaf.isReference = [] :=
        List.length_eq_zero_iff.mp (by omega)
      simpa using List.filter_eq_nil_iff.mp hnone l hl
  · rintro ⟨hgt, hreferences⟩
    rw [leftOver_eq_nil hgt, characters_eq_spelling h.2 hreferences]
    rfl

/-! ## Other content -/

/-- Some `<` is followed by a character other than `?` and `!`. -/
def startsTag : Text → Bool
  | [] => false
  | c :: rest => (c = '<' && rest.head?.any fun d => d ≠ '?' && d ≠ '!') || startsTag rest

theorem startsTag_append_left {t : Text} (h : startsTag t = true) (u : Text) :
    startsTag (t ++ u) = true := by
  induction t with
  | nil => cases h
  | cons c rest ih =>
    rw [startsTag, Bool.or_eq_true] at h
    rw [List.cons_append, startsTag, Bool.or_eq_true]
    obtain hhere | hlater := h
    · left
      cases rest with
      | nil => simp at hhere
      | cons d rest => exact hhere
    · exact .inr (ih hlater)

theorem startsTag_append_right {u : Text} (h : startsTag u = true) (t : Text) :
    startsTag (t ++ u) = true := by
  induction t with
  | nil => exact h
  | cons c rest ih => rw [List.cons_append, startsTag, ih, Bool.or_true]

theorem startsTag_infix {t u : Text} (h : t <:+: u) (ht : startsTag t = true) :
    startsTag u = true := by
  obtain ⟨a, b, rfl⟩ := h
  exact startsTag_append_left (startsTag_append_right ht a) b

theorem startsTag_append {t : Text} (h : '<' ∉ t) (u : Text) :
    startsTag (t ++ u) = startsTag u := by
  induction t with
  | nil => rfl
  | cons c t ih =>
    rw [List.mem_cons, not_or] at h
    rw [List.cons_append, startsTag, decide_eq_false (Ne.symm h.1), Bool.false_and, Bool.false_or,
      ih h.2]

theorem startsTag_opened {t : WrittenTag} (h : t.Sound) (isEmpty : Bool) :
    startsTag ('<' :: t.opened isEmpty) = true := by
  obtain ⟨c, w, hname⟩ := exists_name h.name
  have hmem : c ∈ t.name.toList := hname ▸ List.mem_cons_self
  have hmarkup := (ne_of_mem_name h.name hmem).2
  simp only [List.mem_cons, not_or] at hmarkup
  rw [WrittenTag.opened, hname, List.cons_append, startsTag, Bool.or_eq_true]
  left
  simp [hmarkup]

section Pieces

variable {f : Forest WrittenTag Leaf} (hwritten : ∀ e ∈ f.events, e.Written)
  (hquiet : ∀ l ∈ f.leaves, '<' ∉ l.spelling.tail)

include hwritten hquiet

theorem startsTag_leading : startsTag (leading f) = false := by
  induction f with
  | nil | empty | node => rfl
  | leaf l rest ih =>
    obtain ⟨hl, hwritten⟩ := List.forall_mem_cons.mp hwritten
    obtain ⟨hlquiet, hquiet⟩ := List.forall_mem_cons.mp hquiet
    rw [leading]
    obtain hnone | ⟨c, w, hspelling, hc, hlt, -⟩ := spelling_cases hl hlquiet
    · rw [startsTag_append hnone, ih hwritten hquiet]
    · have hmark : (decide (c ≠ '?') && decide (c ≠ '!')) = false := by
        obtain rfl | rfl := hc <;> rfl
      rw [hspelling, List.cons_append, startsTag, startsTag_append hlt, ih hwritten hquiet,
        List.cons_append, List.head?_cons, Option.any_some, hmark]
      rfl

theorem startsTag_runs : ∀ run ∈ runs f, startsTag run = false := by
  induction f with
  | nil => exact List.forall_mem_nil _
  | leaf l rest ih =>
    exact ih (List.forall_mem_cons.mp hwritten).2 (List.forall_mem_cons.mp hquiet).2
  | empty t rest ih =>
    have hrest := (List.forall_mem_cons.mp hwritten).2
    exact List.forall_mem_cons.mpr ⟨startsTag_leading hrest hquiet, ih hrest hquiet⟩
  | node t kids rest _ ih =>
    rw [Forest.events, List.forall_mem_cons, List.forall_mem_append, List.forall_mem_cons]
      at hwritten
    obtain ⟨-, -, -, hrest⟩ := hwritten
    have hrquiet := (List.forall_mem_append.mp hquiet).2
    exact List.forall_mem_cons.mpr ⟨startsTag_leading hrest hrquiet, ih hrest hrquiet⟩

end Pieces

/-- What is taken for the content lies in the element, and in no other, where no element is in
    it. -/
theorem other_iff {e : ElementAt} {kids : Forest WrittenTag Leaf} (he : e.content = some kids)
    (htag : e.tag.Sound) (hwritten : ∀ ev ∈ kids.events, ev.Written)
    (hquiet : ∀ l ∈ kids.leaves, '<' ∉ l.spelling.tail) :
    (∃ piece ∈ e.pieces, trimChars e.raw <:+: piece) ↔ kids.children = [] := by
  have hkids : e.kids = kids := by rw [ElementAt.kids, he]; rfl
  have hraw : e.raw = leftOver e.tag false ++ beforeEnd kids := by rw [ElementAt.raw, he]; rfl
  rw [hraw, ElementAt.pieces, hkids]
  constructor
  · rintro ⟨piece, hpiece, hinfix⟩
    by_contra hchildren
    obtain ⟨t, isEmpty, v, ht, hbefore⟩ := beforeEnd_of_children hchildren hwritten
    have hlast : ('<' :: t.opened isEmpty).getLast? = some '>' := by
      have hend : (tagEnd isEmpty).getLast? = some '>' := by cases isEmpty <;> rfl
      rw [WrittenTag.opened, ← List.cons_append, ← List.append_assoc, List.getLast?_append, hend]
      rfl
    have hmarkup : '<' :: t.opened isEmpty <:+:
        trimChars (leftOver e.tag false ++ beforeEnd kids) := by
      rw [hbefore, ← List.append_assoc]
      exact infix_trimChars rfl hlast rfl rfl _ v
    have hstarts := startsTag_infix (hmarkup.trans hinfix) (startsTag_opened ht isEmpty)
    have hnot : startsTag piece = false := by
      obtain rfl | hrun := List.mem_cons.mp hpiece
      · rw [startsTag_append htag.inside, startsTag]
        exact startsTag_leading hwritten hquiet
      · exact startsTag_runs hwritten hquiet piece hrun
    rw [hnot] at hstarts
    cases hstarts
  · intro hchildren
    refine ⟨_, List.mem_cons_self, (trimChars_within _).trans ?_⟩
    rw [leading_of_leaves hchildren, leftOver, ← List.singleton_append, ← List.append_assoc]
    obtain ⟨u, hu⟩ := (List.drop_suffix 1 _).trans
      (List.dropWhile_suffix (fun c => decide (c ≠ '>')) (l := e.tag.inside ++ tagEnd false))
    refine ⟨u, [], ?_⟩
    rw [List.append_nil, ← List.append_assoc, hu]
    rfl

end DianService
