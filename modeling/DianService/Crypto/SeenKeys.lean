import DianService.Crypto.XmlUtil
import DianService.Lib.Xml.Lexing
import DianService.Lib.Xml.Spelled
import Mathlib.Data.List.Infix

/-
  Crypto: what `with_namespaces` sees of a start tag. Whether a prefix is declared it tells from the
  text before the first `>`: the word `xmlns:p=` stands there, in an attribute's name or in a value.
-/

namespace DianService

open Lib.Xml

namespace XmlUtil

/-! ## Words between delimiters -/

section Words

variable {α : Type} {word init u v : List α} {c : α}

/-- A word does not reach across what is not in it. -/
theorem infix_delimited (hc : c ∉ word) : word <:+: u ++ c :: v ↔ word <:+: u ∨ word <:+: v := by
  have hstarts : ∀ w ≠ [], w <+: c :: v → c ∈ w := by
    intro w hw h
    obtain ⟨d, ds, rfl⟩ := List.exists_cons_of_ne_nil hw
    rw [(List.cons_prefix_cons.mp h).1]
    exact List.mem_cons_self
  by_cases hnil : word = []
  · rw [hnil]
    exact iff_of_true List.nil_infix (.inl List.nil_infix)
  rw [List.infix_append_iff_ne_nil, List.infix_cons_iff]
  constructor
  · intro h
    obtain hleft | (hstart | hright) | ⟨w, w', -, hw', rfl, -, hstart⟩ := h
    · exact .inl hleft
    · exact absurd (hstarts _ hnil hstart) hc
    · exact .inr hright
    · exact absurd (List.mem_append_right w (hstarts _ hw' hstart)) hc
  · intro h
    exact h.imp id fun hright => .inl (.inr hright)

theorem prefix_terminated (hinit : c ∉ init) (hu : c ∉ u) :
    init ++ [c] <+: u ++ c :: v ↔ init = u := by
  induction u generalizing init with
  | nil =>
    cases init with
    | nil => exact iff_of_true ⟨v, rfl⟩ rfl
    | cons d ds =>
      rw [List.mem_cons, not_or] at hinit
      rw [List.cons_append, List.nil_append, List.cons_prefix_cons]
      exact iff_of_false (fun h => hinit.1 h.1.symm) (List.cons_ne_nil d ds)
  | cons e es ih =>
    rw [List.mem_cons, not_or] at hu
    cases init with
    | nil =>
      rw [List.nil_append, List.cons_append, List.cons_prefix_cons]
      exact iff_of_false (fun h => hu.1 h.1) (List.cons_ne_nil e es).symm
    | cons d ds =>
      rw [List.mem_cons, not_or] at hinit
      rw [List.cons_append, List.cons_append, List.cons_prefix_cons, ih hinit.2 hu.2,
        List.cons.injEq]

/-- A word that a delimiter ends, and that has no other, stands before it or later. -/
theorem infix_terminated (hinit : c ∉ init) (hu : c ∉ u) :
    init ++ [c] <:+: u ++ c :: v ↔ init <:+ u ∨ init ++ [c] <:+: v := by
  induction u with
  | nil =>
    have hprefix := prefix_terminated (v := v) hinit List.not_mem_nil
    rw [List.nil_append] at hprefix
    rw [List.nil_append, List.infix_cons_iff, hprefix, List.suffix_nil]
  | cons e es ih =>
    have hes : c ∉ es := fun h => hu (List.mem_cons_of_mem e h)
    have hprefix := prefix_terminated (v := v) hinit hu
    rw [List.cons_append] at hprefix
    rw [List.cons_append, List.infix_cons_iff, hprefix, ih hes, List.suffix_cons_iff, or_assoc]

theorem suffix_delimited (hc : c ∉ word) : word <:+ u ++ c :: v ↔ word <:+ v := by
  constructor
  · intro h
    obtain hword | hdelimiter := List.suffix_or_suffix_of_suffix h (List.suffix_append u (c :: v))
    · obtain rfl | hv := List.suffix_cons_iff.mp hword
      · exact absurd List.mem_cons_self hc
      · exact hv
    · exact absurd (hdelimiter.subset List.mem_cons_self) hc
  · intro h
    exact h.trans ((List.suffix_cons c v).trans (List.suffix_append u _))

end Words

theorem occursIn_iff {part text : Text} : occursIn part text = true ↔ part <:+: text := by
  rw [occursIn, List.any_eq_true, List.infix_iff_prefix_suffix]
  constructor
  · intro h
    obtain ⟨t, ht, hprefix⟩ := h
    exact ⟨t, List.isPrefixOf_iff_prefix.mp hprefix, (List.mem_tails _ _).mp ht⟩
  · intro h
    obtain ⟨t, hprefix, ht⟩ := h
    exact ⟨t, (List.mem_tails _ _).mpr ht, List.isPrefixOf_iff_prefix.mpr hprefix⟩

/-! ## Keys of declarations -/

/-- The attribute that declares a prefix. -/
def declarationKey (p : Text) : Text := if p = [] then "xmlns".toList else "xmlns:".toList ++ p

/-- What a map of namespaces has for keys: prefixes, and the empty one. -/
def IsPrefix (p : Text) : Prop := p = [] ∨ isNCName p = true

instance (p : Text) : Decidable (IsPrefix p) := inferInstanceAs (Decidable (_ ∨ _))

theorem declared?_key (p : Text) : declared? (declarationKey p) = some p := by
  unfold declarationKey declared?
  by_cases hp : p = []
  · rw [if_pos hp, if_pos rfl, hp]
  · have hne : "xmlns:".toList ++ p ≠ "xmlns".toList := by
      intro h
      have hlength := congrArg List.length h
      simp at hlength
    have htake : ("xmlns:".toList ++ p).take 6 = "xmlns:".toList := rfl
    rw [if_neg hp, if_neg hne, if_pos htake]
    rfl

theorem declarationKey_inj {p p' : Text} (h : declarationKey p = declarationKey p') : p = p' := by
  have hsome := declared?_key p
  rw [h, declared?_key] at hsome
  exact (Option.some.inj hsome).symm

theorem isQName_key {p : Text} (hp : IsPrefix p) : isQName (declarationKey p) = true := by
  obtain rfl | hname := hp
  · rfl
  · have hne : p ≠ [] := by
      intro h
      rw [h] at hname
      cases hname
    have hcolon : ':' ∈ "xmlns:".toList ++ p := List.mem_append_left _ (by decide)
    have hsplit : splitName ("xmlns:".toList ++ p) = ("xmlns".toList, p) := by
      rw [splitName, if_pos hcolon]
      rfl
    rw [declarationKey, if_neg hne, isQName, hsplit, hname, Bool.true_and, Bool.or_eq_true]
    exact .inr rfl

/-- A qualified name that declares a prefix is that prefix's key. -/
theorem eq_key_of_declared? {key p : Text} (hkey : isQName key) (h : declared? key = some p) :
    key = declarationKey p := by
  unfold declared? at h
  split at h
  · rename_i hxmlns
    cases h
    exact hxmlns
  · split at h
    · rename_i hnamed
      cases h
      have hsplit : key = "xmlns:".toList ++ key.drop 6 := by
        rw [← hnamed, List.take_append_drop]
      have hne : key.drop 6 ≠ [] := by
        intro hnil
        rw [hnil] at hsplit
        rw [hsplit] at hkey
        cases hkey
      rw [declarationKey, if_neg hne]
      exact hsplit
    · cases h

/-! ## What the search sees -/

/-- The attribute has the word `xmlns:p=` to show: at the end of its key, where no white space
    comes before the `=`, or in its value before a `>`. -/
def showsKey (p : Text) (a : SpelledAttribute) : Prop :=
  (a.before = [] ∧ declarationKey p <:+ a.key.toList) ∨
    declarationKey p ++ ['='] <:+: a.raw.toList.takeWhile (· ≠ '>')

/-- The attributes up to the first that has a `>` in its value. -/
def visible : List SpelledAttribute → List SpelledAttribute
  | [] => []
  | a :: as => if '>' ∈ a.raw.toList then [a] else a :: visible as

def Shows (t : SpelledTag) (p : Text) : Prop := ∃ a ∈ visible t.attributes, showsKey p a

instance (p : Text) (a : SpelledAttribute) : Decidable (showsKey p a) :=
  inferInstanceAs (Decidable (_ ∨ _))

instance (t : SpelledTag) (p : Text) : Decidable (Shows t p) :=
  inferInstanceAs (Decidable (∃ a ∈ visible t.attributes, showsKey p a))

theorem ne_nil_key (p : Text) : declarationKey p ≠ [] := by
  unfold declarationKey
  split
  · exact List.cons_ne_nil _ _
  · exact List.cons_ne_nil _ _

/-- Neither white space nor a quote is in the word, nor the end of a tag. -/
theorem not_mem_word {p : Text} (hp : IsPrefix p) {c : Char}
    (hc : isSpace c = true ∨ c ∈ ['"', '\'', '/']) : c ∉ declarationKey p ++ ['='] := by
  intro hmem
  rcases List.mem_append.mp hmem with hkey | hlast
  · obtain ⟨hspace, hmarkup⟩ := ne_of_mem_name (isQName_key hp) hkey
    obtain hc | hc := hc
    · rw [hspace] at hc
      cases hc
    · refine hmarkup ?_
      simp only [List.mem_cons, List.not_mem_nil, or_false] at hc
      obtain rfl | rfl | rfl := hc <;> decide
  · rw [List.mem_singleton.mp hlast] at hc
    revert hc
    decide

theorem quote_not_mem_word {p : Text} (hp : IsPrefix p) (a : SpelledAttribute) :
    a.quote ∉ declarationKey p ++ ['='] := by
  refine not_mem_word hp (.inr ?_)
  obtain h | h := a.hquote <;> rw [h] <;> decide

theorem terminator_not_mem_key {p : Text} (hp : IsPrefix p) : '=' ∉ declarationKey p :=
  fun hmem => (ne_of_mem_name (isQName_key hp) hmem).2 (by decide)

/-- The key ends where the `=` stands, if no white space comes between. -/
theorem suffix_head_iff {p : Text} (hp : IsPrefix p) (a : SpelledAttribute) :
    declarationKey p <:+ a.space ++ (a.key.toList ++ a.before) ↔
      a.before = [] ∧ declarationKey p <:+ a.key.toList := by
  have hno : ∀ c, isSpace c = true → c ∉ declarationKey p := fun c hc hmem =>
    not_mem_word hp (.inl hc) (List.mem_append_left _ hmem)
  obtain hbefore | ⟨init, last, hbefore⟩ := List.eq_nil_or_concat a.before
  · obtain hspace | ⟨init, last, hspace⟩ := List.eq_nil_or_concat a.space
    · exact absurd hspace a.hsome
    · have hlast : last ∉ declarationKey p := hno last (a.hspace last (by simp [hspace]))
      rw [hbefore, hspace, List.append_nil, List.concat_append,
        suffix_delimited hlast, eq_self_iff_true, true_and]
  · have hlast : last ∉ declarationKey p := hno last (a.hbefore last (by simp [hbefore]))
    have hne : a.before ≠ [] := by simp [hbefore]
    have hsplit : a.space ++ (a.key.toList ++ a.before) =
        (a.space ++ (a.key.toList ++ init)) ++ last :: [] := by simp [hbefore]
    rw [hsplit, suffix_delimited hlast, List.suffix_nil]
    exact iff_of_false (ne_nil_key p) fun h => hne h.1

theorem not_mem_spaces' {t : Text} (h : IsSpaces t) : '=' ∉ t ∧ '>' ∉ t :=
  ⟨not_mem_spaces h rfl, not_mem_spaces h rfl⟩

/-- Nothing is seen in a text without `=`. -/
theorem word_absent {p t : Text} (ht : '=' ∉ t) : ¬ declarationKey p ++ ['='] <:+: t :=
  fun h => ht (h.subset (List.mem_append_right _ List.mem_cons_self))

/-- What is seen of one attribute, whose value is `value` there, and of what comes after it. -/
theorem infix_attribute {p : Text} (hp : IsPrefix p) {a : SpelledAttribute}
    (ha : isQName a.key.toList) (value : Text) :
    declarationKey p ++ ['='] <:+: a.space ++ (a.key.toList ++ (a.before ++ '=' :: (a.after ++
      a.quote :: value))) ↔
    (a.before = [] ∧ declarationKey p <:+ a.key.toList) ∨ declarationKey p ++ ['='] <:+: value := by
  have hkey : '=' ∉ a.key.toList := fun h => (ne_of_mem_name ha h).2 (by decide)
  have hhead : '=' ∉ a.space ++ (a.key.toList ++ a.before) := by
    simp only [List.mem_append, not_or]
    exact ⟨(not_mem_spaces' a.hspace).1, hkey, (not_mem_spaces' a.hbefore).1⟩
  have hquote : a.quote ∉ declarationKey p ++ ['='] := quote_not_mem_word hp a
  have hsplit : a.space ++ (a.key.toList ++ (a.before ++ '=' :: (a.after ++ a.quote :: value))) =
      (a.space ++ (a.key.toList ++ a.before)) ++ '=' :: (a.after ++ a.quote :: value) := by
    simp only [List.append_assoc]
  rw [hsplit, infix_terminated (terminator_not_mem_key hp) hhead, suffix_head_iff hp,
    infix_delimited hquote, or_iff_right (word_absent (not_mem_spaces' a.hafter).1)]

theorem takeWhile_append_of_not_mem {u v : Text} (hu : '>' ∉ u) :
    (u ++ v).takeWhile (· ≠ '>') = u ++ v.takeWhile (· ≠ '>') := by
  refine List.takeWhile_append_of_pos fun c hc => ?_
  rw [decide_eq_true_eq]
  exact fun heq => hu (heq ▸ hc)

theorem takeWhile_append_of_mem {u v : Text} (hu : '>' ∈ u) :
    (u ++ v).takeWhile (· ≠ '>') = u.takeWhile (· ≠ '>') := by
  induction u with
  | nil => cases hu
  | cons c cs ih =>
    by_cases hc : c = '>'
    · simp [hc]
    · have hcs : '>' ∈ cs := (List.mem_cons.mp hu).resolve_left (Ne.symm hc)
      rw [List.cons_append, List.takeWhile_cons_of_pos (by simpa using hc),
        List.takeWhile_cons_of_pos (by simpa using hc), ih hcs]

/-- What is seen of the attributes up to the first `>`. -/
theorem infix_attributes {p : Text} (hp : IsPrefix p) {as : List SpelledAttribute}
    (has : ∀ a ∈ as, isQName a.key.toList) {last : Text} (hlast : '=' ∉ last.takeWhile (· ≠ '>')) :
    declarationKey p ++ ['='] <:+:
        (as.flatMap SpelledAttribute.text ++ last).takeWhile (· ≠ '>') ↔
      ∃ a ∈ visible as, showsKey p a := by
  induction as with
  | nil => exact iff_of_false (word_absent hlast) fun ⟨a, ha, _⟩ => by cases ha
  | cons a as ih =>
    obtain ⟨ha, has'⟩ := List.forall_mem_cons.mp has
    have hkey : '>' ∉ a.key.toList := fun h => (ne_of_mem_name ha h).2 (by decide)
    have hquote : '>' ≠ a.quote := by
      obtain h | h := a.hquote <;> rw [h] <;> decide
    have hhead : '>' ∉ a.space ++ (a.key.toList ++
        (a.before ++ '=' :: (a.after ++ [a.quote]))) := by
      simp only [List.mem_append, List.mem_cons, List.not_mem_nil, not_or]
      exact ⟨(not_mem_spaces' a.hspace).2, hkey, (not_mem_spaces' a.hbefore).2, by decide,
        (not_mem_spaces' a.hafter).2, hquote, not_false⟩
    have htext : (a :: as).flatMap SpelledAttribute.text ++ last =
        a.space ++ (a.key.toList ++ (a.before ++ '=' :: (a.after ++ [a.quote]))) ++
          (a.raw.toList ++ a.quote :: (as.flatMap SpelledAttribute.text ++ last)) := by
      simp [SpelledAttribute.text]
    have hgather : ∀ value, a.space ++ (a.key.toList ++ (a.before ++ '=' :: (a.after ++
        [a.quote]))) ++ value = a.space ++ (a.key.toList ++ (a.before ++ '=' :: (a.after ++
          a.quote :: value))) := by
      intro value
      simp
    rw [htext, takeWhile_append_of_not_mem hhead, hgather, infix_attribute hp ha]
    by_cases hmem : '>' ∈ a.raw.toList
    · rw [takeWhile_append_of_mem hmem, visible, if_pos hmem]
      simp only [List.mem_singleton, exists_eq_left, showsKey]
    · have hwhole : a.raw.toList.takeWhile (· ≠ '>') = a.raw.toList := by
        have happend := takeWhile_append_of_not_mem (v := []) hmem
        simpa using happend
      rw [takeWhile_append_of_not_mem hmem, List.takeWhile_cons_of_pos (by simpa using hquote.symm),
        infix_delimited (quote_not_mem_word hp a), ih has', visible, if_neg hmem]
      simp only [List.mem_cons, exists_eq_or_imp, showsKey, hwhole, or_assoc]

/-! ## The fragment -/

/-- What comes after the start tag. -/
def afterTag (t : SpelledTag) : Option (Forest SpelledTag Leaf) → Text
  | none => []
  | some kids => kids.spelling ++ '<' :: t.written.closed

theorem element_spelling (t : SpelledTag) (content : Option (Forest SpelledTag Leaf)) :
    (t.element content).spelling = '<' :: (t.name.toList ++ (t.inside ++
      (tagEnd content.isNone ++ afterTag t content))) := by
  cases content with
  | none =>
    simp [SpelledTag.element, Forest.spelling, Forest.mapTags, Forest.written, WrittenTag.opened,
      SpelledTag.written, afterTag]
  | some kids =>
    simp [SpelledTag.element, Forest.spelling, Forest.mapTags, Forest.written, WrittenTag.opened,
      SpelledTag.written, afterTag]

/-- What comes before the first attribute does not matter. -/
theorem infix_after {p u v : Text} (hu : '=' ∉ u)
    (hv : ∀ c ∈ v.head?, c ∉ declarationKey p ++ ['=']) :
    declarationKey p ++ ['='] <:+: u ++ v ↔ declarationKey p ++ ['='] <:+: v := by
  cases v with
  | nil =>
    rw [List.append_nil]
    exact iff_of_false (word_absent hu) (word_absent List.not_mem_nil)
  | cons c cs =>
    have hc := hv c rfl
    rw [infix_delimited hc, or_iff_right (word_absent hu), ← List.nil_append (c :: cs),
      infix_delimited hc, or_iff_right (word_absent List.not_mem_nil)]

theorem mem_head?_takeWhile {q : Char → Bool} {t : Text} {c : Char}
    (h : c ∈ (t.takeWhile q).head?) : c ∈ t.head? ∧ q c = true := by
  cases t with
  | nil => cases h
  | cons d ds =>
    by_cases hd : q d = true
    · rw [List.takeWhile_cons_of_pos hd] at h
      cases h
      exact ⟨rfl, hd⟩
    · rw [List.takeWhile_cons_of_neg hd] at h
      cases h

/-- What the search sees in the start tag. -/
theorem seen_iff {p : Text} (hp : IsPrefix p) {t : SpelledTag} (ht : t.tag.Lexical)
    (content : Option (Forest SpelledTag Leaf)) :
    occursIn (declarationKey p ++ ['=']) ((t.element content).spelling.takeWhile (· ≠ '>')) =
      true ↔ Shows t p := by
  obtain ⟨hname, hkeys⟩ := ht
  have hattributes : ∀ a ∈ t.attributes, isQName a.key.toList := fun a ha =>
    hkeys a.read (List.mem_map_of_mem ha)
  have hlast : '=' ∉ (t.space ++ (tagEnd content.isNone ++ afterTag t content)).takeWhile
      (· ≠ '>') := by
    rw [takeWhile_append_of_not_mem (not_mem_spaces' t.hspace).2, List.mem_append, not_or]
    refine ⟨(not_mem_spaces' t.hspace).1, ?_⟩
    cases content with
    | none => exact List.not_mem_cons_of_ne_of_not_mem (by decide) List.not_mem_nil
    | some kids => exact List.not_mem_nil
  have hstart : '>' ∉ '<' :: t.name.toList ∧ '=' ∉ '<' :: t.name.toList := by
    simp only [List.mem_cons, not_or]
    exact ⟨⟨by decide, fun h => (ne_of_mem_name hname h).2 (by decide)⟩,
      by decide, fun h => (ne_of_mem_name hname h).2 (by decide)⟩
  rw [occursIn_iff, element_spelling, ← List.cons_append, takeWhile_append_of_not_mem hstart.1,
    SpelledTag.inside, List.append_assoc, infix_after hstart.2,
    infix_attributes hp hattributes hlast]
  · rfl
  · intro c hc
    obtain ⟨hhead, hne⟩ := mem_head?_takeWhile hc
    rcases head?_afterName (spellsAttributes t.attributes) t.hspace _ _ hhead with h | rfl | rfl
    · exact not_mem_word hp (.inl h)
    · exact absurd hne (by decide)
    · exact not_mem_word hp (.inr (by decide))

end XmlUtil

end DianService
