import DianService.Reading.Contents

/-
  Reading: where the two searches agree with the element tree. Each is brought to the element that
  it ends at, by what it reads after every `<`.
-/

namespace DianService

open Lib.Xml

/-! ## What the searches read -/

theorem lt_not_mem_reference {name : Text} (h : (reference? name).isSome = true) : '<' ∉ name := by
  have hdigits : ∀ (b n : Nat) (digits : Text), '<' ∈ digits → digits? b n digits = none := by
    intro b n digits
    induction digits generalizing n with
    | nil => exact fun hmem => absurd hmem List.not_mem_nil
    | cons c cs ih =>
      intro hmem
      rw [digits?]
      obtain rfl | hcs := List.mem_cons.mp hmem
      · rfl
      · cases digit? b c with
        | none => rfl
        | some d => exact ih _ hcs
  have hchar : ∀ (b : Nat) (digits : Text), '<' ∈ digits → charRef? b digits = none := by
    intro b digits hmem
    rw [charRef?, if_neg (List.ne_nil_of_mem hmem), hdigits b 0 digits hmem]
    rfl
  intro hmem
  unfold reference? at h
  split_ifs at h with hamp hlt hgt hquot hapos
  · exact absurd (hamp ▸ hmem) (by decide)
  · exact absurd (hlt ▸ hmem) (by decide)
  · exact absurd (hgt ▸ hmem) (by decide)
  · exact absurd (hquot ▸ hmem) (by decide)
  · exact absurd (hapos ▸ hmem) (by decide)
  · split at h
    · rename_i digits
      rw [hchar 16 digits (by simpa using hmem)] at h
      cases h
    · rename_i digits _
      rw [hchar 10 digits (by simpa using hmem)] at h
      cases h
    · cases h

theorem lt_not_mem_spelling {tag_name : Text} {l : Leaf} (hl : l.Plain)
    (hread : Legible tag_name (.leaf l)) : '<' ∉ l.spelling.tail := by
  cases l with
  | text raw => exact fun hmem => (hl _ (List.mem_of_mem_tail hmem)).1 rfl
  | ref name =>
    show '<' ∉ name.toList ++ [';']
    rw [List.mem_append, not_or]
    exact ⟨lt_not_mem_reference hl, by decide⟩
  | pi raw | decl raw | doctype raw => exact (hread _ rfl).1
  | cdata raw | comment raw => cases hl

theorem localPart_of_colon {l : Text} (h : ':' ∉ l) (u : Text) : localPart (u ++ ':' :: l) = l := by
  have hall : ∀ c ∈ l.reverse, decide (c ≠ ':') = true := by
    intro c hc
    exact decide_eq_true fun heq => h (heq ▸ List.mem_reverse.mp hc)
  have htake := (takeWhile_append_stop (v := ':' :: u.reverse) hall (by simp)).1
  rw [localPart, List.reverse_append, List.reverse_cons, List.append_assoc, List.singleton_append,
    htake, List.reverse_reverse]

theorem localPart_name {name : Text} (h : isQName name = true) :
    localPart name = (splitName name).2 := by
  by_cases hcolon : ':' ∈ name
  · have hlocal : isNCName (splitName name).2 = true := (Bool.and_eq_true_iff.mp h).1
    have hnone : ':' ∉ (splitName name).2 := not_mem_of_isNCName hlocal rfl
    conv_lhs => rw [splitName_of_colon hcolon]
    exact localPart_of_colon hnone _
  · rw [localPart_of_not_colon hcolon, splitName_of_not_colon hcolon]

/-- What a search reads of a tag with nothing after its name that ends no name. -/
theorem readName_opened (tag_name : Text) {nameEnds : Char → Bool} {t : WrittenTag} (ht : t.Sound)
    (hin : ∀ c ∈ t.name.toList, nameEnds c = false) {isEmpty : Bool}
    (hend : ∀ c ∈ (t.inside ++ tagEnd isEmpty).head?, nameEnds c = true) :
    readName nameEnds (t.opened isEmpty) = tag_name ↔ named tag_name t = true := by
  have htake := (takeWhile_append_stop (p := fun c => !nameEnds c) (u := t.name.toList)
    (v := t.inside ++ tagEnd isEmpty) (fun c hc => by rw [hin c hc]; rfl)
    (fun c hc => by rw [hend c hc]; rfl)).1
  rw [readName, WrittenTag.opened, htake, localPart_name ht.name, named, decide_eq_true_iff]

theorem not_endsName {t : WrittenTag} (ht : t.Sound)
    (hspaces : ∀ c ∈ t.name.toList, isWhitespace c = false) :
    ∀ c ∈ t.name.toList, endsName c = false ∧ soapEndsName c = false := by
  intro c hc
  have hmarkup := (ne_of_mem_name ht.name hc).2
  have hblank : c ≠ ' ' := by
    rintro rfl
    exact absurd (hspaces _ hc) (by decide)
  simp only [List.mem_cons, not_or] at hmarkup
  simp [endsName, soapEndsName, hblank, hmarkup, hspaces c hc]

section Legible

variable {tag_name : Text} (hname : isNCName tag_name = true)

include hname

theorem reads_of_legible {ev : Event WrittenTag Leaf} (hwritten : ev.Written)
    (h : Legible tag_name ev) : Reads endsName tag_name (fun t _ => named tag_name t) ev := by
  cases ev with
  | start t | empty t => exact h.1
  | close t =>
    intro hread
    -- no character of an end tag is before the `/`
    have hnil : tag_name = [] := hread.symm
    rw [hnil] at hname
    cases hname
  | leaf l => exact ⟨lt_not_mem_spelling hwritten h, fun rest hrest => (h rest hrest).2.1⟩

/-- The SOAP client reads the `/` of an end tag as a part of its name. -/
theorem named_of_closed {t : WrittenTag} (ht : t.Sound)
    (hread : readName soapEndsName t.closed = tag_name) : named tag_name t = true := by
  have hin : ∀ c ∈ '/' :: t.name.toList, (!soapEndsName c) = true := by
    intro c hc
    obtain rfl | hmem := List.mem_cons.mp hc
    · rfl
    · obtain ⟨hspace, hmarkup⟩ := ne_of_mem_name ht.name hmem
      have hblank : c ≠ ' ' := by
        rintro rfl
        cases hspace
      have hgt : c ≠ '>' := fun heq => hmarkup (by simp [heq])
      simp [soapEndsName, hblank, hgt]
  have hfull : readName soapEndsName t.closed = localPart ('/' :: (t.name.toList ++
      (t.closing ++ ['>']).takeWhile fun c => !soapEndsName c)) := by
    rw [readName, WrittenTag.closed, ← List.cons_append, List.takeWhile_append_of_pos hin]
    rfl
  have hspaces : ∀ c ∈ (t.closing ++ ['>']).takeWhile (fun c => !soapEndsName c),
      isSpace c = true := by
    intro c hc
    have hstop := List.mem_takeWhile_imp hc
    obtain hmem | hmem := List.mem_append.mp ((List.takeWhile_prefix _).mem hc)
    · exact ht.closing c hmem
    · rw [List.mem_singleton.mp hmem] at hstop
      cases hstop
  rw [hfull] at hread
  generalize (t.closing ++ ['>']).takeWhile (fun c => !soapEndsName c) = spaces at hread hspaces
  have hcolon : ':' ∉ spaces := fun hmem => by cases hspaces _ hmem
  by_cases hprefix : ':' ∈ t.name.toList
  · have hsplit := splitName_of_colon hprefix
    have hlocal : isNCName (splitName t.name.toList).2 = true :=
      (Bool.and_eq_true_iff.mp ht.name).1
    have hnone : ':' ∉ (splitName t.name.toList).2 ++ spaces := by
      rw [List.mem_append, not_or]
      exact ⟨not_mem_of_isNCName hlocal rfl, hcolon⟩
    have hpart := localPart_of_colon hnone ('/' :: (splitName t.name.toList).1)
    have hfull : '/' :: (t.name.toList ++ spaces) = '/' :: (splitName t.name.toList).1 ++
        ':' :: ((splitName t.name.toList).2 ++ spaces) := by
      conv_lhs => rw [hsplit]
      simp
    rw [hfull, hpart] at hread
    cases spaces with
    | nil =>
      rw [List.append_nil] at hread
      exact decide_eq_true hread
    | cons c cs =>
      have hmem : c ∈ tag_name := hread ▸ List.mem_append_right _ List.mem_cons_self
      have hchar : isNameChar c = false := by
        have hspace := hspaces c List.mem_cons_self
        simp only [isSpace, Bool.or_eq_true, decide_eq_true_eq] at hspace
        obtain ((rfl | rfl) | rfl) | rfl := hspace <;> rfl
      exact absurd hmem (not_mem_of_isNCName hname hchar)
  · have hnone : ':' ∉ '/' :: (t.name.toList ++ spaces) := by
      rw [List.mem_cons, List.mem_append, not_or, not_or]
      exact ⟨by decide, hprefix, hcolon⟩
    rw [localPart_of_not_colon hnone] at hread
    have hslash : '/' ∈ tag_name := hread ▸ List.mem_cons_self
    exact absurd hslash (not_mem_of_isNCName hname rfl)

theorem soap_reads_of_legible {ev : Event WrittenTag Leaf} (hwritten : ev.Written)
    (h : Legible tag_name ev) : Reads soapEndsName tag_name (soapSees tag_name) ev := by
  have hstart : ∀ t, soapSees tag_name t false = named tag_name t := fun t => Bool.and_true _
  cases ev with
  | start t =>
    rw [Reads, hstart]
    exact h.2
  | empty t => exact h.2
  | close t =>
    rw [Reads, hstart]
    exact named_of_closed hname hwritten
  | leaf l => exact ⟨lt_not_mem_spelling hwritten h, fun rest hrest => (h rest hrest).2.2⟩

/-- A tag whose name is followed by a space, by `>` or by `/` is read as it is. One of the
    characters of names is white space for `char::is_whitespace`, the Ogham space mark. -/
theorem legible_of_spaced {t : WrittenTag} (ht : t.Sound)
    (hspaces : ∀ c ∈ t.name.toList, isWhitespace c = false)
    (hinside : ∀ c ∈ t.inside.head?, c = ' ') :
    Legible tag_name (.start t) ∧ Legible tag_name (.empty t) := by
  have hin := not_endsName ht hspaces
  have hends : ∀ isEmpty, ∀ c ∈ (t.inside ++ tagEnd isEmpty).head?, endsName c = true := by
    intro isEmpty c hc
    cases htext : t.inside with
    | nil =>
      rw [htext] at hc
      cases isEmpty <;> cases hc <;> rfl
    | cons d ds =>
      rw [htext] at hc hinside
      rw [hinside c hc]
      rfl
  have hsoap : ∀ isEmpty, (isEmpty = true → t.inside ≠ []) →
      ∀ c ∈ (t.inside ++ tagEnd isEmpty).head?, soapEndsName c = true := by
    intro isEmpty hsome c hc
    cases htext : t.inside with
    | nil =>
      rw [htext] at hc
      cases isEmpty with
      | false =>
        cases hc
        rfl
      | true => exact absurd htext (hsome rfl)
    | cons d ds =>
      rw [htext] at hc hinside
      rw [hinside c hc]
      rfl
  have hread (isEmpty : Bool) := readName_opened tag_name ht
    (fun c hc => (hin c hc).1) (hends isEmpty)
  have hread_soap (isEmpty : Bool) (hsome : isEmpty = true → t.inside ≠ []) :=
    readName_opened tag_name ht (fun c hc => (hin c hc).2) (hsoap isEmpty hsome)
  refine ⟨⟨hread false, hread_soap false fun h => by cases h⟩, hread true, ?_⟩
  by_cases hempty : t.inside = []
  · have hslash : ¬ readName soapEndsName (t.opened true) = tag_name := by
      have htake := (takeWhile_append_stop (p := fun c => !soapEndsName c)
        (u := t.name.toList ++ ['/']) (v := ['>']) (fun c hc => by
          obtain hmem | hmem := List.mem_append.mp hc
          · rw [(hin c hmem).2]
            rfl
          · rw [List.mem_singleton.mp hmem]
            rfl) (fun c hc => by cases hc; rfl)).1
      have hopened : t.opened true = t.name.toList ++ ['/'] ++ ['>'] := by
        rw [WrittenTag.opened, hempty, List.append_assoc]
        rfl
      intro hread
      rw [readName, hopened, htake, localPart, List.reverse_append] at hread
      have hmem : '/' ∈ tag_name := hread ▸ List.mem_reverse.mpr List.mem_cons_self
      exact not_mem_of_isNCName hname rfl hmem
    simp [hslash, soapSees, hempty]
  · rw [hread_soap true fun _ => hempty]
    simp [soapSees, hempty]

end Legible

/-! ## Agreement -/

theorem ofList_inj {t u : Text} : String.ofList t = String.ofList u ↔ t = u := by
  constructor
  · intro h
    have hlist := congrArg String.toList h
    rwa [String.toList_ofList, String.toList_ofList] at hlist
  · exact congrArg String.ofList

theorem trim_ofList (t : Text) : trim (String.ofList t) = String.ofList (trimChars t) := by
  rw [trim, String.toList_ofList]

theorem ElementAt.of_content {e : ElementAt} {kids : Forest WrittenTag Leaf}
    (h : e.content = some kids) :
    e.kids = kids ∧ e.raw = leftOver e.tag false ++ beforeEnd kids := by
  rw [ElementAt.kids, ElementAt.raw, h]
  exact ⟨rfl, rfl⟩

/-- Nothing is returned where nothing is taken for the content. -/
theorem ElementAt.answer_empty_iff {e : ElementAt} :
    some (String.ofList (trimChars e.raw)) = some "" ↔ e.Blank := by
  rw [← e.raw_blank_iff, ← trimChars_eq_nil]
  exact ⟨fun h => ofList_inj.mp (Option.some.inj h), fun h => congrArg _ (ofList_inj.mpr h)⟩

section Answer

variable {e : ElementAt} (htag : e.tag.Sound)
  (hinner : ∀ ev ∈ (e.content.getD e.rest).events, ev.Written)
  (hquiet : ∀ l ∈ (e.content.getD e.rest).leaves, '<' ∉ l.spelling.tail)

include htag hinner hquiet

/-- What is taken for the content fits the element where it is direct. -/
theorem gives_iff : e.Gives (some (String.ofList (trimChars e.raw))) ↔ e.Direct := by
  cases hcontent : e.content with
  | none =>
    have hkids : e.kids = .nil := by rw [ElementAt.kids, hcontent]; rfl
    have honly : e.kids.OnlyText := by rw [hkids]; exact ⟨rfl, List.forall_mem_nil _⟩
    constructor
    · intro h
      have hempty := (h.nothing hkids).resolve_left (Option.some_ne_none _)
      exact ⟨fun _ => ElementAt.answer_empty_iff.mp hempty, fun hsome => absurd hcontent hsome,
        fun hother => absurd honly hother⟩
    · intro h
      exact ⟨fun _ => .inr (ElementAt.answer_empty_iff.mpr (h.empty hcontent)),
        fun hne => absurd hkids hne, fun hother => absurd honly hother⟩
  | some kids =>
    obtain ⟨hkids, hraw⟩ := ElementAt.of_content hcontent
    have hsome : e.content ≠ none := by rw [hcontent]; exact Option.some_ne_none _
    have htext (h : kids.OnlyText) := text_iff (t := e.tag) h
    rw [← hraw] at htext
    rw [hcontent] at hinner hquiet
    have hother := other_iff hcontent htag hinner hquiet
    constructor
    · intro h
      refine ⟨fun hnone => absurd hnone hsome, fun _ honly => ?_, fun hnot => ?_⟩
      · rw [hkids] at honly ⊢
        refine (htext honly).mp ?_
        by_cases hnil : kids = .nil
        · have hempty := (h.nothing (hkids.trans hnil)).resolve_left (Option.some_ne_none _)
          rw [hnil]
          exact ofList_inj.mp (Option.some.inj hempty)
        · have hanswer := Option.some.inj (h.text (hkids ▸ hnil) (hkids ▸ honly))
          rw [trim_ofList, hkids] at hanswer
          exact ofList_inj.mp hanswer
      · obtain ⟨piece, hpiece, hinfix⟩ := h.other hnot _ rfl
        rw [String.toList_ofList] at hinfix
        rw [hkids]
        exact hother.mp ⟨piece, hpiece, hinfix⟩
    · intro h
      refine ⟨fun hnil => .inr ?_, fun _ honly => ?_, fun hnot s hs => ?_⟩
      · rw [hkids] at hnil
        have honly : kids.OnlyText := by rw [hnil]; exact ⟨rfl, List.forall_mem_nil _⟩
        have hanswer := (htext honly).mpr (hkids ▸ h.text hsome (hkids ▸ honly))
        rw [hanswer, hnil]
        rfl
      · rw [trim_ofList, hkids, (htext (hkids ▸ honly)).mpr (hkids ▸ h.text hsome honly)]
      · cases hs
        rw [String.toList_ofList]
        exact hother.mpr (hkids ▸ h.other hnot)

end Answer

section Agreement

variable {d : WrittenDocument} {tag_name : Text} (hname : isNCName tag_name = true)
  (hd : d.Sound) (hlegible : ∀ ev ∈ d.forest.events, Legible tag_name ev)

include hname hd hlegible

theorem tagContent_document : tagContent (String.ofList d.text) (String.ofList tag_name) =
    d.content.bind fun _ => (firstNamed tag_name d).map fun e =>
      String.ofList (trimChars e.raw) := by
  have hsearch := @search_document endsName tag_name rfl _ d hd fun ev hev =>
    reads_of_legible hname (hd ev hev) (hlegible ev hev)
  rw [tagContent, String.toList_ofList, String.toList_ofList, hsearch, Option.map_bind]
  simp only [Function.comp_def, Option.map_map]
  rfl

theorem extractTagContent_document :
    extractTagContent (String.ofList d.text) (String.ofList tag_name) =
      d.content.bind fun _ => (firstElement (soapSees tag_name) (d.element .nil)).map fun e =>
        String.ofList (trimChars e.raw) := by
  have hsearch := @search_document soapEndsName tag_name rfl _ d hd fun ev hev =>
    soap_reads_of_legible hname (hd ev hev) (hlegible ev hev)
  rw [extractTagContent_eq, String.toList_ofList, String.toList_ofList, hsearch, Option.map_bind]
  simp only [Function.comp_def, Option.map_map]

end Agreement

theorem soapSees_named (tag_name : Text) (t : WrittenTag) (isEmpty : Bool)
    (h : soapSees tag_name t isEmpty = true) : named tag_name t = true :=
  (Bool.and_eq_true_iff.mp h).1

theorem element_events {d : WrittenDocument} {P : Event WrittenTag Leaf → Prop}
    (h : ∀ ev ∈ d.forest.events, P ev) : ∀ ev ∈ (d.element .nil).events, P ev := by
  obtain ⟨before, root, content, after⟩ := d
  rw [WrittenDocument.forest, (Forest.foldr_leaf _ _).1, List.forall_mem_append] at h
  cases content with
  | none => exact List.forall_mem_cons.mpr ⟨(List.forall_mem_cons.mp h.2).1, List.forall_mem_nil _⟩
  | some kids =>
    simp only [WrittenDocument.element, Forest.events, List.forall_mem_cons,
      List.forall_mem_append] at h ⊢
    exact ⟨h.2.1, h.2.2.1, h.2.2.2.1, List.forall_mem_nil _⟩

/-- The root of a document that is an empty-element tag has no text. -/
theorem correct_none {d : WrittenDocument} {tag_name : Text} (hcontent : d.content = none) :
    Correct (firstNamed tag_name d) none := by
  refine ⟨fun _ => rfl, fun e he => ?_⟩
  have hkids : e.kids = .nil := by
    rw [firstNamed, WrittenDocument.element, hcontent] at he
    simp only [firstElement] at he
    split at he
    · cases he
      rfl
    · cases he
  refine ⟨fun _ => .inl rfl, fun hne => absurd hkids hne, fun _ s hs => ?_⟩
  cases hs

theorem correct_absent {first : Option ElementAt} (h : first = none) : Correct first none :=
  ⟨fun _ => rfl, fun e he => by rw [h] at he; cases he⟩

theorem correct_found {e : ElementAt} {answer : Option String} :
    Correct (some e) answer ↔ e.Gives answer := by
  refine ⟨fun h => h.found e rfl, fun h => ⟨fun hnone => ?_, fun e' he' => ?_⟩⟩
  · cases hnone
  · cases he'
    exact h

/-- Both functions with one answer. -/
theorem agree_of_same {d : WrittenDocument} {tag_name : Text} {answer : Option String}
    (hsoap : extractTagContent (String.ofList d.text) (String.ofList tag_name) = answer)
    (hinbound : tagContent (String.ofList d.text) (String.ofList tag_name) = answer) :
    AgreeWithTree d tag_name ↔ Correct (firstNamed tag_name d) answer :=
  ⟨fun h => hinbound ▸ h.inbound, fun h => ⟨hsoap ▸ h, hinbound ▸ h, hsoap.trans hinbound.symm⟩⟩

section Iff

variable {d : WrittenDocument} {tag_name : Text} (hname : isNCName tag_name = true)
  (hd : d.Sound) (hlegible : ∀ ev ∈ d.forest.events, Legible tag_name ev)

include hname hd hlegible

theorem gives_first {e : ElementAt} (hfirst : firstNamed tag_name d = some e) :
    e.Gives (some (String.ofList (trimChars e.raw))) ↔ e.Direct := by
  obtain ⟨-, htag, hinner⟩ := firstElement_forall (element_events hd) hfirst
  obtain ⟨-, -, hreads⟩ := firstElement_forall (element_events fun ev hev =>
    reads_of_legible hname (hd ev hev) (hlegible ev hev)) hfirst
  exact gives_iff (ElementAt.tag_sound htag) hinner fun l hl => (hreads _ (leaf_mem_events hl)).1

/-- Both searches end at the element, or it is written `<X/>` and one goes on to the next. -/
theorem agree_found {e : ElementAt} (hcontent : d.content ≠ none)
    (hfirst : firstNamed tag_name d = some e) :
    AgreeWithTree d tag_name ↔ e.Direct ∧ (e.content = none → e.tag.inside = [] →
      ∃ e', firstElement (soapSees tag_name) (d.element .nil) = some e' ∧ e'.Blank) := by
  obtain ⟨kids, hkids⟩ := Option.ne_none_iff_exists'.mp hcontent
  have hinbound := tagContent_document hname hd hlegible
  have hsoap := extractTagContent_document hname hd hlegible
  have hgives := gives_first hname hd hlegible hfirst
  rw [hkids, Option.bind_some] at hinbound hsoap
  rw [hfirst, Option.map_some] at hinbound
  by_cases hseen : soapSees tag_name e.tag e.content.isNone = true
  · rw [firstElement_of_imp (soapSees_named tag_name) hfirst hseen, Option.map_some] at hsoap
    rw [agree_of_same hsoap hinbound, hfirst, correct_found, hgives]
    refine (and_iff_left fun hnone hinside => ?_).symm
    rw [soapSees, hnone, hinside] at hseen
    simp at hseen
  · obtain ⟨hnone, hinside⟩ : e.content = none ∧ e.tag.inside = [] := by
      rw [soapSees, (firstElement_forall (element_events hd) hfirst).1, Bool.true_and,
        Bool.not_eq_true', Bool.not_eq_false, Bool.and_eq_true, decide_eq_true_iff] at hseen
      exact ⟨Option.isNone_iff_eq_none.mp hseen.1, hseen.2⟩
    constructor
    · intro h
      have hdirect := hgives.mp (correct_found.mp (hfirst ▸ hinbound ▸ h.inbound))
      have hempty := ElementAt.answer_empty_iff.mpr (hdirect.empty hnone)
      have hnext := hsoap.symm.trans (h.same.trans (hinbound.trans hempty))
      obtain ⟨e', he', hanswer⟩ := Option.map_eq_some_iff.mp hnext
      exact ⟨hdirect, fun _ _ => ⟨e', he', ElementAt.answer_empty_iff.mp (congrArg some hanswer)⟩⟩
    · rintro ⟨hdirect, hnext⟩
      obtain ⟨e', he', hblank⟩ := hnext hnone hinside
      have hempty := ElementAt.answer_empty_iff.mpr (hdirect.empty hnone)
      rw [he', Option.map_some, ElementAt.answer_empty_iff.mpr hblank, ← hempty] at hsoap
      rw [agree_of_same hsoap hinbound, hfirst, correct_found, hgives]
      exact hdirect

/-- Where the names of tags are read as they are and no other `<` is, the functions agree with the
    element tree exactly if the first element with the name is direct. -/
theorem agree_iff : AgreeWithTree d tag_name ↔ Answerable d tag_name := by
  have hinbound := tagContent_document hname hd hlegible
  have hsoap := extractTagContent_document hname hd hlegible
  by_cases hcontent : d.content = none
  · rw [hcontent, Option.bind_none] at hinbound hsoap
    rw [agree_of_same hsoap hinbound]
    exact iff_of_true (correct_none hcontent) fun hsome => absurd hcontent hsome
  · cases hfirst : firstNamed tag_name d with
    | none =>
      obtain ⟨kids, hkids⟩ := Option.ne_none_iff_exists'.mp hcontent
      rw [hkids, Option.bind_some] at hinbound hsoap
      rw [hfirst, Option.map_none] at hinbound
      rw [firstElement_none_of_imp (soapSees_named tag_name) hfirst, Option.map_none] at hsoap
      rw [agree_of_same hsoap hinbound]
      refine iff_of_true (correct_absent hfirst) fun _ e he => ?_
      rw [hfirst] at he
      cases he
    | some e =>
      rw [agree_found hname hd hlegible hcontent hfirst, Answerable, hfirst]
      refine ⟨fun h _ e' he' => ?_, fun h => h hcontent e rfl⟩
      cases he'
      exact h

end Iff

/-- `<s:Body><b:StatusCode>00</b:StatusCode></s:Body>` -/
def statusAnswer : WrittenDocument :=
  ⟨[], ⟨"s:Body", [], []⟩,
    some (.node ⟨"b:StatusCode", [], []⟩ (.leaf (.text "00") .nil) .nil), []⟩

instance (t : WrittenTag) : Decidable t.Sound :=
  decidable_of_iff (isQName t.name.toList ∧ '<' ∉ t.inside ∧ t.inside.head?.all isSpace = true ∧
    ∀ c ∈ t.closing, isSpace c = true)
    ⟨fun ⟨h₁, h₂, h₃, h₄⟩ => ⟨h₁, h₂, fun c hc => by rw [Option.mem_def.mp hc] at h₃; exact h₃, h₄⟩,
      fun h => ⟨h.name, h.inside, by
        cases hc : t.inside.head? with
        | none => rfl
        | some c => exact h.spaced c hc, h.closing⟩⟩

/-- `<r><X/>abc</r>` -/
def shortElement : WrittenDocument :=
  ⟨[], ⟨"r", [], []⟩, some (.empty ⟨"X", [], []⟩ (.leaf (.text "abc") .nil)), []⟩

/-- The same as a document of the standard. -/
def shortNode : DocumentNode :=
  ⟨none, [], ⟨"r", []⟩, some (.empty ⟨"X", []⟩ (.leaf (.text "abc") .nil)), []⟩

theorem short_isDocument : IsDocument "<r><X/>abc</r>".toList shortNode := by
  have hinside : Spells "<X/>abc".toList
      (.empty ⟨"X", []⟩ (.leaf (.text "abc") .nil) : Forest RawTag Leaf) :=
    @Spells.empty ⟨"X", []⟩ [] [] _ _ .nil (List.forall_mem_nil _)
      (@Spells.text "abc" [] _ trivial .nil)
  have hspells : Spells "<r><X/>abc</r>".toList shortNode.forest :=
    @Spells.node ⟨"r", []⟩ [] [] _ [] _ _ _ .nil (List.forall_mem_nil _) hinside
      (List.forall_mem_nil _) .nil
  exact ⟨⟨hspells, fun raw hraw => by cases hraw⟩, by decide⟩

end DianService
