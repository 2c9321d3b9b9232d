import DianService.Application.Tags
import DianService.Lib.Xml.Written
import Mathlib.Data.List.TakeWhile

/-
  Reading: what the two searches for a tag return, `extract_tag_content` and `tag_content`. They see
  a `<` and the name after it, nothing else of the markup: where all of these are read as they are
  meant, the searches end at an element of the document.
-/

namespace DianService

open Lib.Xml

/-! ## Elements -/

/-- An element, with what stands after it in its parent. `content` is `none` for an empty-element
    tag. -/
structure ElementAt where
  tag : WrittenTag
  content : Option (Forest WrittenTag Leaf)
  rest : Forest WrittenTag Leaf

/-- The first element in document order whose tag has the property; the property is told whether it
    is an empty-element tag. -/
def firstElement (p : WrittenTag → Bool → Bool) : Forest WrittenTag Leaf → Option ElementAt
  | .nil => none
  | .leaf _ rest => firstElement p rest
  | .empty t rest => if p t true then some ⟨t, none, rest⟩ else firstElement p rest
  | .node t kids rest =>
      if p t false then some ⟨t, some kids, rest⟩
      else (firstElement p kids).or (firstElement p rest)

/-- The element after its `<`, up to the end of its parent. -/
def ElementAt.text (e : ElementAt) : Text :=
  match e.content with
  | none => e.tag.opened true ++ e.rest.written
  | some kids => e.tag.opened false ++ (kids.written ++ '<' :: (e.tag.closed ++ e.rest.written))

/-! ## Names that are read -/

/-- The local name that a search reads after a `<`. -/
def readName (nameEnds : Char → Bool) (tag_rest : Text) : Text :=
  localPart (tag_rest.takeWhile fun c => !nameEnds c)

/-- The search takes a tag for one with the name where it has the property, and nothing else for
    one. -/
def Reads (nameEnds : Char → Bool) (tag_name : Text) (p : WrittenTag → Bool → Bool) :
    Event WrittenTag Leaf → Prop
  | .start t => readName nameEnds (t.opened false) = tag_name ↔ p t false = true
  | .empty t => readName nameEnds (t.opened true) = tag_name ↔ p t true = true
  | .close t => readName nameEnds t.closed = tag_name → p t false = true
  | .leaf l => '<' ∉ l.spelling.tail ∧
      ∀ rest, l.spelling = '<' :: rest → readName nameEnds rest ≠ tag_name

theorem gt_mem_tagEnd (isEmpty : Bool) : '>' ∈ tagEnd isEmpty := by
  cases isEmpty <;> decide

theorem lt_not_mem_opened {t : WrittenTag} (h : t.Sound) (isEmpty : Bool) :
    '<' ∉ t.opened isEmpty := by
  have hname : '<' ∉ t.name.toList := not_mem_of_isQName h.name rfl (by decide)
  have hend : '<' ∉ tagEnd isEmpty := by cases isEmpty <;> decide
  rw [WrittenTag.opened, List.mem_append, List.mem_append, not_or, not_or]
  exact ⟨hname, h.inside, hend⟩

theorem lt_not_mem_closed {t : WrittenTag} (h : t.Sound) : '<' ∉ t.closed := by
  have hname : '<' ∉ t.name.toList := not_mem_of_isQName h.name rfl (by decide)
  have hclosing : '<' ∉ t.closing := not_mem_spaces h.closing rfl
  simp only [WrittenTag.closed, List.mem_cons, List.mem_append, not_or]
  exact ⟨by decide, hname, hclosing, by decide, List.not_mem_nil⟩

/-- A leaf starts with `<?` or `<!`, or has no `<`, where there is none in the rest of it. -/
theorem spelling_cases {l : Leaf} (hl : l.Plain) (hquiet : '<' ∉ l.spelling.tail) :
    '<' ∉ l.spelling ∨ ∃ c w, l.spelling = '<' :: c :: w ∧ (c = '?' ∨ c = '!') ∧
      '<' ∉ c :: w ∧ '>' ∈ c :: w := by
  cases l with
  | text raw => exact .inl fun hmem => (hl _ hmem).1 rfl
  | ref name =>
    left
    show '<' ∉ '&' :: (name.toList ++ [';'])
    rw [List.mem_cons, not_or]
    exact ⟨by decide, hquiet⟩
  | cdata raw | comment raw => cases hl
  | pi raw | decl raw =>
    refine .inr ⟨'?', raw.toList ++ ['?', '>'], rfl, .inl rfl, hquiet, ?_⟩
    exact List.mem_cons_of_mem _ (List.mem_append_right _ (by decide))
  | doctype raw =>
    refine .inr ⟨'!', "DOCTYPE".toList ++ raw.toList ++ ['>'], rfl, .inr rfl, hquiet, ?_⟩
    exact List.mem_cons_of_mem _ (List.mem_append_right _ (by decide))

/-! ## Where a search ends -/

section Search

variable {nameEnds : Char → Bool} {tag_name : Text}

theorem findTag_append {t : Text} (h : '<' ∉ t) (u : Text) :
    findTag nameEnds tag_name (t ++ u) = findTag nameEnds tag_name u := by
  induction t with
  | nil => rfl
  | cons c t ih =>
    rw [List.mem_cons, not_or] at h
    rw [List.cons_append, findTag, if_neg (Ne.symm h.1), ih h.2]

theorem readName_append {w : Text} (hends : nameEnds '>' = true) (hw : '>' ∈ w) (u : Text) :
    readName nameEnds (w ++ u) = readName nameEnds w := by
  have hstop : ∃ c ∈ w, ¬ (!nameEnds c) = true := ⟨'>', hw, by simp [hends]⟩
  have htake : (w ++ u).takeWhile (fun c => !nameEnds c) = w.takeWhile fun c => !nameEnds c := by
    rw [List.takeWhile_append]
    split
    · rename_i hlength
      have hall := List.takeWhile_eq_self_iff.mp
        ((List.takeWhile_prefix fun c => !nameEnds c).eq_of_length hlength)
      obtain ⟨c, hc, hnot⟩ := hstop
      exact absurd (hall c hc) hnot
    · rfl
  rw [readName, readName, htake]

/-- At a tag, up to its `>`. -/
theorem findTag_tag (hends : nameEnds '>' = true) {w : Text} (hw : '>' ∈ w) (hlt : '<' ∉ w)
    (u : Text) : findTag nameEnds tag_name ('<' :: (w ++ u)) =
      if readName nameEnds w = tag_name then some (w ++ u) else findTag nameEnds tag_name u := by
  have hany : (w ++ u).any nameEnds = true :=
    List.any_eq_true.mpr ⟨'>', List.mem_append_left _ hw, hends⟩
  rw [findTag, if_pos rfl, if_pos hany, findTag_append hlt]
  show (if readName nameEnds (w ++ u) = tag_name then _ else _) = _
  rw [readName_append hends hw]

variable (hends : nameEnds '>' = true) {p : WrittenTag → Bool → Bool}
  {f : Forest WrittenTag Leaf} (hwritten : ∀ e ∈ f.events, e.Written)
  (hreads : ∀ e ∈ f.events, Reads nameEnds tag_name p e)

include hends

theorem findTag_opened {t : WrittenTag} (ht : t.Sound) (isEmpty : Bool) (u : Text) :
    findTag nameEnds tag_name ('<' :: (t.opened isEmpty ++ u)) =
      if readName nameEnds (t.opened isEmpty) = tag_name then some (t.opened isEmpty ++ u)
      else findTag nameEnds tag_name u := by
  have hgt : '>' ∈ t.opened isEmpty :=
    List.mem_append_right _ (List.mem_append_right _ (gt_mem_tagEnd isEmpty))
  exact findTag_tag hends hgt (lt_not_mem_opened ht isEmpty) u

theorem findTag_closed {t : WrittenTag} (ht : t.Sound)
    (hread : ¬ readName nameEnds t.closed = tag_name) (u : Text) :
    findTag nameEnds tag_name ('<' :: (t.closed ++ u)) = findTag nameEnds tag_name u := by
  have hgt : '>' ∈ t.closed := by simp [WrittenTag.closed]
  rw [findTag_tag hends hgt (lt_not_mem_closed ht), if_neg hread]

theorem findTag_leaf {l : Leaf} (hl : l.Plain)
    (hread : Reads nameEnds tag_name p (.leaf l)) (u : Text) :
    findTag nameEnds tag_name (l.spelling ++ u) = findTag nameEnds tag_name u := by
  obtain hnone | ⟨c, w, hspelling, -, hlt, hgt⟩ := spelling_cases hl hread.1
  · exact findTag_append hnone u
  · rw [hspelling, List.cons_append, findTag_tag hends hgt hlt, if_neg (hread.2 _ hspelling)]

include hwritten hreads

/-- Past elements that it does not look for. -/
theorem findTag_none (hnone : firstElement p f = none) (u : Text) :
    findTag nameEnds tag_name (f.written ++ u) = findTag nameEnds tag_name u := by
  induction f generalizing u with
  | nil => rfl
  | leaf l rest ih =>
    obtain ⟨hl, hwritten⟩ := List.forall_mem_cons.mp hwritten
    obtain ⟨hread, hreads⟩ := List.forall_mem_cons.mp hreads
    rw [Forest.written, List.append_assoc, findTag_leaf hends hl hread, ih hwritten hreads hnone]
  | empty t rest ih =>
    obtain ⟨ht, hwritten⟩ := List.forall_mem_cons.mp hwritten
    obtain ⟨hread, hreads⟩ := List.forall_mem_cons.mp hreads
    rw [firstElement] at hnone
    split at hnone
    · cases hnone
    · rename_i hp
      rw [Forest.written, List.cons_append, List.append_assoc, findTag_opened hends ht,
        if_neg (fun h => hp (hread.mp h)), ih hwritten hreads hnone]
  | node t kids rest ihk ihr =>
    rw [Forest.events, List.forall_mem_cons, List.forall_mem_append, List.forall_mem_cons]
      at hwritten hreads
    obtain ⟨ht, hkids, -, hrest⟩ := hwritten
    obtain ⟨hopened, hkreads, hclosed, hrreads⟩ := hreads
    rw [firstElement] at hnone
    split at hnone
    · cases hnone
    · rename_i hp
      obtain ⟨hknone, hrnone⟩ := Option.or_eq_none_iff.mp hnone
      rw [Forest.written, List.cons_append, List.append_assoc, findTag_opened hends ht,
        if_neg (fun h => hp (hopened.mp h)), List.append_assoc, ihk hkids hkreads hknone,
        List.cons_append, List.append_assoc, findTag_closed hends ht (fun h => hp (hclosed h)),
        ihr hrest hrreads hrnone]

/-- At the first element that it looks for. What follows the parent of the element, if it has one,
    starts with an end tag. -/
theorem findTag_some {e : ElementAt} (hsome : firstElement p f = some e) (u : Text) :
    ∃ v, (v = u ∨ ∃ w, v = '<' :: '/' :: w) ∧
      findTag nameEnds tag_name (f.written ++ u) = some (e.text ++ v) := by
  induction f generalizing u with
  | nil => cases hsome
  | leaf l rest ih =>
    obtain ⟨hl, hwritten⟩ := List.forall_mem_cons.mp hwritten
    obtain ⟨hread, hreads⟩ := List.forall_mem_cons.mp hreads
    obtain ⟨v, hv, hfound⟩ := ih hwritten hreads hsome u
    refine ⟨v, hv, ?_⟩
    rw [Forest.written, List.append_assoc, findTag_leaf hends hl hread, hfound]
  | empty t rest ih =>
    obtain ⟨ht, hwritten⟩ := List.forall_mem_cons.mp hwritten
    obtain ⟨hread, hreads⟩ := List.forall_mem_cons.mp hreads
    rw [firstElement] at hsome
    rw [Forest.written, List.cons_append, List.append_assoc, findTag_opened hends ht]
    split at hsome
    · rename_i hp
      cases hsome
      refine ⟨u, .inl rfl, ?_⟩
      rw [if_pos (hread.mpr hp)]
      exact congrArg some (List.append_assoc _ _ _).symm
    · rename_i hp
      rw [if_neg (fun h => hp (hread.mp h))]
      exact ih hwritten hreads hsome u
  | node t kids rest ihk ihr =>
    rw [Forest.events, List.forall_mem_cons, List.forall_mem_append, List.forall_mem_cons]
      at hwritten hreads
    obtain ⟨ht, hkids, -, hrest⟩ := hwritten
    obtain ⟨hopened, hkreads, hclosed, hrreads⟩ := hreads
    rw [firstElement] at hsome
    rw [Forest.written, List.cons_append, List.append_assoc, findTag_opened hends ht]
    split at hsome
    · rename_i hp
      cases hsome
      refine ⟨u, .inl rfl, ?_⟩
      rw [if_pos (hopened.mpr hp)]
      exact congrArg some (List.append_assoc _ _ _).symm
    · rename_i hp
      rw [if_neg (fun h => hp (hopened.mp h)), List.append_assoc]
      obtain hinside | ⟨hknone, hafter⟩ := Option.or_eq_some_iff.mp hsome
      · obtain ⟨v, hv, hfound⟩ := ihk hkids hkreads hinside
          ('<' :: (t.closed ++ rest.written) ++ u)
        refine ⟨v, .inr ?_, hfound⟩
        obtain rfl | hv := hv
        · exact ⟨_, rfl⟩
        · exact hv
      · rw [findTag_none hends hkids hkreads hknone, List.cons_append, List.append_assoc,
          findTag_closed hends ht (fun h => hp (hclosed h))]
        exact ihr hrest hrreads hafter u

end Search

/-! ## What a search returns -/

/-- What stands before the first end tag. -/
def beforeEnd : Forest WrittenTag Leaf → Text
  | .nil => []
  | .leaf l rest => l.spelling ++ beforeEnd rest
  | .empty t rest => '<' :: (t.opened true ++ beforeEnd rest)
  | .node t kids _ => '<' :: (t.opened false ++ beforeEnd kids)

/-- What a tag has after its first `>`: nothing, unless an attribute has a `>`. -/
def leftOver (t : WrittenTag) (isEmpty : Bool) : Text :=
  ((t.inside ++ tagEnd isEmpty).dropWhile (· ≠ '>')).drop 1

/-- What is taken for the content of an element. -/
def ElementAt.raw (e : ElementAt) : Text :=
  leftOver e.tag e.content.isNone ++ beforeEnd (e.content.getD e.rest)

theorem untilClosing_append {t : Text} (h : '<' ∉ t) (u : Text) :
    untilClosing (t ++ u) = (untilClosing u).map (t ++ ·) := by
  induction t with
  | nil =>
    rw [List.nil_append]
    exact Option.map_id'.symm
  | cons c t ih =>
    rw [List.mem_cons, not_or] at h
    rw [List.cons_append, untilClosing, if_neg (fun hc => h.1 hc.1.symm), ih h.2, Option.map_map]
    rfl

/-- At markup that is no end tag. -/
theorem untilClosing_markup {c : Char} (hc : c ≠ '/') {w : Text} (hw : '<' ∉ c :: w) (u : Text) :
    untilClosing ('<' :: (c :: w ++ u)) = (untilClosing u).map ('<' :: (c :: w) ++ ·) := by
  have hnot : ¬ ('<' = '<' ∧ (c :: w ++ u).head? = some '/') := fun h => hc (by simpa using h.2)
  rw [untilClosing, if_neg hnot, untilClosing_append hw, Option.map_map]
  rfl

theorem opened_cons {t : WrittenTag} (h : t.Sound) (isEmpty : Bool) :
    ∃ c w, t.opened isEmpty = c :: w ∧ c ≠ '/' := by
  obtain ⟨c, w, hname⟩ := exists_name h.name
  refine ⟨c, w ++ (t.inside ++ tagEnd isEmpty), ?_, ?_⟩
  · rw [WrittenTag.opened, hname, List.cons_append]
  · have hmem : c ∈ t.name.toList := hname ▸ List.mem_cons_self
    intro heq
    exact (ne_of_mem_name h.name hmem).2 (by simp [heq])

theorem untilClosing_opened {t : WrittenTag} (h : t.Sound) (isEmpty : Bool) (u : Text) :
    untilClosing ('<' :: (t.opened isEmpty ++ u)) =
      (untilClosing u).map ('<' :: t.opened isEmpty ++ ·) := by
  obtain ⟨c, w, hopened, hc⟩ := opened_cons h isEmpty
  have hlt := lt_not_mem_opened h isEmpty
  rw [hopened] at hlt ⊢
  exact untilClosing_markup hc hlt u

section Content

variable {f : Forest WrittenTag Leaf} (hwritten : ∀ e ∈ f.events, e.Written)
  (hquiet : ∀ l ∈ f.leaves, '<' ∉ l.spelling.tail)

include hwritten hquiet

theorem untilClosing_written (u : Text) :
    untilClosing (f.written ++ '<' :: '/' :: u) = some (beforeEnd f) := by
  induction f generalizing u with
  | nil => exact if_pos ⟨rfl, rfl⟩
  | leaf l rest ih =>
    obtain ⟨hl, hwritten⟩ := List.forall_mem_cons.mp hwritten
    obtain ⟨hlquiet, hquiet⟩ := List.forall_mem_cons.mp hquiet
    have hrest := ih hwritten hquiet u
    rw [Forest.written, List.append_assoc]
    obtain hnone | ⟨c, w, hspelling, hc, hlt, -⟩ := spelling_cases hl hlquiet
    · rw [untilClosing_append hnone, hrest]
      rfl
    · have hslash : c ≠ '/' := by
        obtain rfl | rfl := hc <;> decide
      rw [hspelling, List.cons_append, untilClosing_markup hslash hlt, hrest, beforeEnd, hspelling]
      rfl
  | empty t rest ih =>
    obtain ⟨ht, hwritten⟩ := List.forall_mem_cons.mp hwritten
    rw [Forest.written, List.cons_append, List.append_assoc, untilClosing_opened ht,
      ih hwritten hquiet]
    rfl
  | node t kids rest ihk _ =>
    rw [Forest.events, List.forall_mem_cons, List.forall_mem_append] at hwritten
    obtain ⟨ht, hkids, -⟩ := hwritten
    have hkquiet := fun l hl => hquiet l (List.mem_append_left _ hl)
    rw [Forest.written, List.cons_append, List.append_assoc, untilClosing_opened ht,
      List.append_assoc]
    exact congrArg _ (ihk hkids hkquiet _)

end Content

theorem dropWhile_opened {t : WrittenTag} (h : t.Sound) (isEmpty : Bool) (u : Text) :
    ((t.opened isEmpty ++ u).dropWhile (· ≠ '>')).drop 1 = leftOver t isEmpty ++ u := by
  have hname : ∀ c ∈ t.name.toList, decide (c ≠ '>') = true := by
    intro c hc
    refine decide_eq_true fun heq => ?_
    exact (ne_of_mem_name h.name hc).2 (by simp [heq])
  have hgt : '>' ∈ t.inside ++ tagEnd isEmpty := List.mem_append_right _ (gt_mem_tagEnd isEmpty)
  have hstop : ((t.inside ++ tagEnd isEmpty).dropWhile (· ≠ '>')) ≠ [] := by
    intro hnil
    simpa using List.dropWhile_eq_nil_iff.mp hnil _ hgt
  rw [WrittenTag.opened, List.append_assoc, List.dropWhile_append_of_pos hname,
    List.dropWhile_append, if_neg (by simpa using hstop), leftOver]
  exact List.drop_append_of_le_length (List.length_pos_iff.mpr hstop)

theorem lt_not_mem_leftOver {t : WrittenTag} (h : t.Sound) (isEmpty : Bool) :
    '<' ∉ leftOver t isEmpty := by
  have hlt := lt_not_mem_opened h isEmpty
  rw [WrittenTag.opened, List.mem_append, not_or] at hlt
  intro hmem
  exact hlt.2 ((List.dropWhile_suffix _).mem (List.mem_of_mem_drop hmem))

theorem leaf_mem_events {f : Forest WrittenTag Leaf} {l : Leaf} (h : l ∈ f.leaves) :
    Event.leaf l ∈ f.events := by
  induction f with
  | nil => cases h
  | leaf l' rest ih =>
    obtain rfl | h := List.mem_cons.mp h
    · exact List.mem_cons_self
    · exact List.mem_cons_of_mem _ (ih h)
  | empty t rest ih => exact List.mem_cons_of_mem _ (ih h)
  | node t kids rest ihk ihr =>
    rw [Forest.events, List.mem_cons, List.mem_append, List.mem_cons]
    obtain h | h := List.mem_append.mp h
    · exact .inr (.inl (ihk h))
    · exact .inr (.inr (.inr (ihr h)))

/-- The tag of an element, as an event. -/
def ElementAt.event (e : ElementAt) : Event WrittenTag Leaf :=
  if e.content.isNone then .empty e.tag else .start e.tag

theorem ElementAt.tag_sound {e : ElementAt} (h : e.event.Written) : e.tag.Sound := by
  unfold ElementAt.event at h
  split at h <;> exact h

section First

variable {p q : WrittenTag → Bool → Bool} {f : Forest WrittenTag Leaf} {e : ElementAt}

/-- What holds of all that a forest has holds of an element in it. -/
theorem firstElement_forall {P : Event WrittenTag Leaf → Prop} (hf : ∀ ev ∈ f.events, P ev)
    (h : firstElement p f = some e) : p e.tag e.content.isNone = true ∧ P e.event ∧
      ∀ ev ∈ (e.content.getD e.rest).events, P ev := by
  induction f with
  | nil => cases h
  | leaf l rest ih => exact ih (List.forall_mem_cons.mp hf).2 h
  | empty t rest ih =>
    obtain ⟨ht, hrest⟩ := List.forall_mem_cons.mp hf
    rw [firstElement] at h
    split at h
    · rename_i hp
      cases h
      exact ⟨hp, ht, hrest⟩
    · exact ih hrest h
  | node t kids rest ihk ihr =>
    rw [Forest.events, List.forall_mem_cons, List.forall_mem_append, List.forall_mem_cons] at hf
    obtain ⟨ht, hkids, -, hrest⟩ := hf
    rw [firstElement] at h
    split at h
    · rename_i hp
      cases h
      exact ⟨hp, ht, hkids⟩
    · obtain hinside | ⟨-, hafter⟩ := Option.or_eq_some_iff.mp h
      · exact ihk hkids hinside
      · exact ihr hrest hafter

/-- A search for fewer elements, where there are none. -/
theorem firstElement_none_of_imp (hqp : ∀ t b, q t b = true → p t b = true)
    (h : firstElement p f = none) : firstElement q f = none := by
  induction f with
  | nil => rfl
  | leaf l rest ih => exact ih h
  | empty t rest ih =>
    rw [firstElement] at h ⊢
    split at h
    · cases h
    · rename_i hp
      rw [if_neg fun hq => hp (hqp t true hq)]
      exact ih h
  | node t kids rest ihk ihr =>
    rw [firstElement] at h ⊢
    split at h
    · cases h
    · rename_i hp
      obtain ⟨hkids, hrest⟩ := Option.or_eq_none_iff.mp h
      rw [if_neg fun hq => hp (hqp t false hq), ihk hkids, ihr hrest]
      rfl

/-- A search for fewer elements, where the first is one of them. -/
theorem firstElement_of_imp (hqp : ∀ t b, q t b = true → p t b = true)
    (h : firstElement p f = some e) (hq : q e.tag e.content.isNone = true) :
    firstElement q f = some e := by
  induction f with
  | nil => cases h
  | leaf l rest ih => exact ih h
  | empty t rest ih =>
    rw [firstElement] at h ⊢
    split at h
    · cases h
      exact if_pos hq
    · rename_i hp
      rw [if_neg fun hq => hp (hqp t true hq)]
      exact ih h
  | node t kids rest ihk ihr =>
    rw [firstElement] at h ⊢
    split at h
    · cases h
      exact if_pos hq
    · rename_i hp
      rw [if_neg fun hq => hp (hqp t false hq)]
      obtain hinside | ⟨hkids, hafter⟩ := Option.or_eq_some_iff.mp h
      · rw [ihk hinside, Option.some_or]
      · rw [firstElement_none_of_imp hqp hkids, Option.none_or, ihr hafter]

end First

theorem contentAfter_opened {t : WrittenTag} (h : t.Sound) (isEmpty : Bool) (u : Text) :
    contentAfter (t.opened isEmpty ++ u) =
      (untilClosing u).map fun w => trimChars (leftOver t isEmpty ++ w) := by
  have hgt : '>' ∈ t.opened isEmpty ++ u := List.mem_append_left _
    (List.mem_append_right _ (List.mem_append_right _ (gt_mem_tagEnd isEmpty)))
  rw [contentAfter, if_pos hgt, dropWhile_opened h, untilClosing_append (lt_not_mem_leftOver h _),
    Option.map_map]
  rfl

/-- The content of an element that is followed by an end tag. -/
theorem contentAfter_found {e : ElementAt} (htag : e.tag.Sound)
    (hinner : ∀ ev ∈ (e.content.getD e.rest).events, ev.Written)
    (hquiet : ∀ l ∈ (e.content.getD e.rest).leaves, '<' ∉ l.spelling.tail) {v : Text}
    (hv : e.content = none → ∃ w, v = '<' :: '/' :: w) :
    contentAfter (e.text ++ v) = some (trimChars e.raw) := by
  obtain ⟨tag, content, rest⟩ := e
  cases content with
  | none =>
    obtain ⟨w, rfl⟩ := hv rfl
    show contentAfter (tag.opened true ++ rest.written ++ _) = _
    rw [List.append_assoc, contentAfter_opened htag]
    exact congrArg _ (untilClosing_written hinner hquiet w)
  | some kids =>
    show contentAfter (tag.opened false ++ (kids.written ++ '<' :: (tag.closed ++ rest.written)) ++
      v) = _
    rw [List.append_assoc, List.append_assoc, contentAfter_opened htag]
    exact congrArg _ (untilClosing_written hinner hquiet _)

/-! ## Documents -/

section Document

variable {nameEnds : Char → Bool} {tag_name : Text} (hends : nameEnds '>' = true)
  {p : WrittenTag → Bool → Bool}

include hends

theorem findTag_leaves {ls : List Leaf} (hplain : ∀ l ∈ ls, l.Plain)
    (hreads : ∀ l ∈ ls, Reads nameEnds tag_name p (.leaf l)) (f : Forest WrittenTag Leaf) :
    findTag nameEnds tag_name (ls.foldr Forest.leaf f).written =
      findTag nameEnds tag_name f.written := by
  induction ls with
  | nil => rfl
  | cons l ls ih =>
    obtain ⟨hl, hplain⟩ := List.forall_mem_cons.mp hplain
    obtain ⟨hread, hreads⟩ := List.forall_mem_cons.mp hreads
    rw [List.foldr_cons, Forest.written, findTag_leaf hends hl hread, ih hplain hreads]

/-- Nothing is returned of an empty-element tag that no end tag follows. -/
theorem search_last {t : WrittenTag} (ht : t.Sound) {ls : List Leaf} (hplain : ∀ l ∈ ls, l.Plain)
    (hreads : ∀ l ∈ ls, Reads nameEnds tag_name p (.leaf l)) :
    (findTag nameEnds tag_name
      (Forest.empty t (ls.foldr Forest.leaf .nil)).written).bind contentAfter = none := by
  have hclosing : untilClosing (ls.foldr Forest.leaf .nil).written = none := by
    induction ls with
    | nil => rfl
    | cons l ls ih =>
      obtain ⟨hl, hplain⟩ := List.forall_mem_cons.mp hplain
      obtain ⟨hread, hreads⟩ := List.forall_mem_cons.mp hreads
      rw [List.foldr_cons, Forest.written]
      obtain hnone | ⟨c, w, hspelling, hc, hlt, -⟩ := spelling_cases hl hread.1
      · rw [untilClosing_append hnone, ih hplain hreads]
        rfl
      · have hslash : c ≠ '/' := by
          obtain rfl | rfl := hc <;> decide
        rw [hspelling, List.cons_append, untilClosing_markup hslash hlt, ih hplain hreads]
        rfl
  rw [Forest.written, findTag_opened hends ht]
  split
  · rw [Option.bind_some, contentAfter_opened ht, hclosing]
    rfl
  · rw [findTag_leaves hends hplain hreads]
    rfl

/-- What a search returns of a document where it reads all tags as it should: what is taken for the
    content of the first element that it looks for. -/
theorem search_document {d : WrittenDocument} (hd : d.Sound)
    (hreads : ∀ e ∈ d.forest.events, Reads nameEnds tag_name p e) :
    (findTag nameEnds tag_name d.text).bind contentAfter =
      d.content.bind fun _ => (firstElement p (d.element .nil)).map fun e => trimChars e.raw := by
  obtain ⟨before, root, content, after⟩ := d
  rw [WrittenDocument.Sound, WrittenDocument.forest, (Forest.foldr_leaf _ _).1,
    List.forall_mem_append] at hd
  rw [WrittenDocument.forest, (Forest.foldr_leaf _ _).1, List.forall_mem_append] at hreads
  obtain ⟨hbefore, hroot⟩ := hd
  obtain ⟨hbreads, hrreads⟩ := hreads
  have hleaves : ∀ {ls : List Leaf} {P : Event WrittenTag Leaf → Prop},
      (∀ e ∈ ls.map Event.leaf, P e) → ∀ l ∈ ls, P (.leaf l) :=
    fun h l hl => h _ (List.mem_map_of_mem hl)
  rw [WrittenDocument.text, WrittenDocument.forest,
    findTag_leaves hends (hleaves hbefore) (hleaves hbreads)]
  cases content with
  | none =>
    obtain ⟨ht, hafter⟩ := List.forall_mem_cons.mp hroot
    obtain ⟨-, hareads⟩ := List.forall_mem_cons.mp hrreads
    rw [(Forest.foldr_leaf _ _).1, List.forall_mem_append] at hafter hareads
    exact search_last hends ht (hleaves hafter.1) (hleaves hareads.1)
  | some kids =>
    simp only [WrittenDocument.element, Forest.events, List.forall_mem_cons,
      List.forall_mem_append, (Forest.foldr_leaf _ _).1] at hroot hrreads
    obtain ⟨ht, hkids, -, hafter, -⟩ := hroot
    obtain ⟨hopened, hkreads, hclosed, hareads, -⟩ := hrreads
    have hquiet : ∀ {f : Forest WrittenTag Leaf},
        (∀ e ∈ f.events, Reads nameEnds tag_name p e) → ∀ l ∈ f.leaves, '<' ∉ l.spelling.tail :=
      fun h l hl => (h _ (leaf_mem_events hl)).1
    show (findTag nameEnds tag_name ('<' :: (root.opened false ++ (kids.written ++
      '<' :: (root.closed ++ (after.foldr Forest.leaf .nil).written))))).bind contentAfter =
        (if p root false then some _ else (firstElement p kids).or none).map _
    rw [findTag_opened hends ht, Option.or_none]
    by_cases hp : p root false = true
    · rw [if_pos hp, if_pos (hopened.mpr hp), Option.bind_some, Option.map_some]
      rw [contentAfter_opened ht]
      exact congrArg _ (untilClosing_written hkids (hquiet hkreads) _)
    · rw [if_neg hp, if_neg fun h => hp (hopened.mp h)]
      cases hfirst : firstElement p kids with
      | none =>
        rw [findTag_none hends hkids hkreads hfirst,
          findTag_closed hends ht fun h => hp (hclosed h),
          findTag_leaves hends (hleaves hafter) (hleaves hareads)]
        rfl
      | some e =>
        obtain ⟨v, hv, hfound⟩ := findTag_some hends hkids hkreads hfirst
          ('<' :: (root.closed ++ (after.foldr Forest.leaf .nil).written))
        have hend : ∃ w, v = '<' :: '/' :: w := by
          obtain rfl | hv := hv
          · exact ⟨_, rfl⟩
          · exact hv
        obtain ⟨-, htag, hinner⟩ := firstElement_forall hkids hfirst
        obtain ⟨-, -, hireads⟩ := firstElement_forall hkreads hfirst
        rw [hfound, Option.bind_some]
        exact contentAfter_found (ElementAt.tag_sound htag) hinner (hquiet hireads) fun _ => hend

end Document

end DianService
