import DianService.Canonical.Conformance
import DianService.Crypto.SeenKeys

/-
  Crypto: what `with_namespaces` makes of an element. The declarations it writes come after the
  name, before the element's own attributes, and a reader reads them back. The result is the
  element with the missing declarations exactly where the search sees those that there are, the
  names of namespaces can be read back, and the element's name is taken whole.
-/

namespace DianService

open Lib.Xml

namespace XmlUtil

/-! ## Escaped values -/

def escapedChar : Char → Text
  | '&' => "&amp;".toList
  | '<' => "&lt;".toList
  | '>' => "&gt;".toList
  | '"' => "&quot;".toList
  | c => [c]

theorem escapeAttribute_eq (value : Text) : escapeAttribute value = value.flatMap escapedChar := by
  rw [escapeAttribute, escapeText, List.flatMap_assoc]
  refine List.flatMap_congr fun c _ => ?_
  unfold escapedChar
  split
  · rfl
  · rfl
  · rfl
  · rename_i hamp hlt hgt
    by_cases hquote : c = '"'
    · rw [hquote]
      rfl
    · rw [List.flatMap_singleton, if_neg hquote]
      split
      · exact absurd rfl hamp
      · exact absurd rfl hlt
      · exact absurd rfl hgt
      · exact absurd rfl hquote
      · rfl

theorem valueFrom_escaped (c : Char) (rest : Text) : valueFrom none (escapedChar c ++ rest) =
    (valueFrom none rest).map ((if isSpace c then ' ' else c) :: ·) := by
  unfold escapedChar
  split
  · rfl
  · rfl
  · rfl
  · rfl
  · rename_i hamp _ _ _
    rw [List.singleton_append, valueFrom, if_neg hamp]

theorem normalizeEol_escaped {c : Char} (hc : c ≠ '\r') (rest : Text) :
    normalizeEol (escapedChar c ++ rest) = escapedChar c ++ normalizeEol rest := by
  unfold escapedChar
  split
  · rfl
  · rfl
  · rfl
  · rfl
  · exact C14n.normalizeEol_cons hc rest

theorem head?_escaped (value : Text) (h : ∀ cs, value ≠ '\n' :: cs) (cs : Text) :
    value.flatMap escapedChar ≠ '\n' :: cs := by
  cases value with
  | nil => exact (List.cons_ne_nil _ _).symm
  | cons c ds =>
    intro heq
    rw [List.flatMap_cons] at heq
    unfold escapedChar at heq
    split at heq
    · cases heq
    · cases heq
    · cases heq
    · cases heq
    · exact h ds (by rw [(List.cons.inj heq).1])

theorem normalizeEol_escapedChars (value : Text) :
    normalizeEol (value.flatMap escapedChar) = (normalizeEol value).flatMap escapedChar := by
  fun_induction normalizeEol value with
  | case1 => rfl
  | case2 cs ih => exact congrArg ('\n' :: ·) ih
  | case3 cs h ih =>
    have hhead := head?_escaped cs fun ds heq => h ds heq
    rw [List.flatMap_cons, List.flatMap_cons, ← ih]
    show normalizeEol ('\r' :: cs.flatMap escapedChar) = '\n' :: _
    rw [normalizeEol]
    · rfl
    · exact fun ds heq => hhead ds heq
  | case4 c cs _ hc ih =>
    rw [List.flatMap_cons, List.flatMap_cons, ← ih, normalizeEol_escaped]
    exact fun heq => hc heq

/-- An escaped value is read back with its white space turned into spaces. -/
theorem attributeValue_escaped (value : Text) : attributeValue (escapeAttribute value) =
    some ((normalizeEol value).map fun c => if isSpace c then ' ' else c) := by
  rw [attributeValue, escapeAttribute_eq, normalizeEol_escapedChars]
  induction normalizeEol value with
  | nil => rfl
  | cons c cs ih =>
    rw [List.flatMap_cons, valueFrom_escaped, ih]
    rfl

/-- It comes back as it was if it has no white space but spaces. -/
theorem attributeValue_escaped_iff {value : Text} :
    attributeValue (escapeAttribute value) = some value ↔
      ∀ c ∈ value, isSpace c = true → c = ' ' := by
  rw [attributeValue_escaped, Option.some.injEq]
  constructor
  · intro h c hc hspace
    rw [← h] at hc
    obtain ⟨d, -, rfl⟩ := List.mem_map.mp hc
    by_cases hd : isSpace d = true
    · rw [if_pos hd]
    · rw [if_neg hd] at hspace
      exact absurd hspace hd
  · intro h
    have hlines : normalizeEol value = value := by
      induction value with
      | nil => rfl
      | cons c cs ih =>
        obtain ⟨hc, hcs⟩ := List.forall_mem_cons.mp h
        have hne : c ≠ '\r' := by
          intro heq
          rw [heq] at hc
          exact absurd (hc rfl) (by decide)
        rw [C14n.normalizeEol_cons hne, ih hcs]
    rw [hlines]
    calc value.map (fun c => if isSpace c then ' ' else c)
        = value.map id := List.map_congr_left fun c hc => by
          by_cases hspace : isSpace c = true
          · rw [if_pos hspace, h c hc hspace, id]
          · rw [if_neg hspace, id]
      _ = value := List.map_id value

theorem ne_of_mem_escapedChar {c d : Char} (h : d ∈ escapedChar c) : d ≠ '<' ∧ d ≠ '"' := by
  have hnames : ∀ name ∈ ["&amp;", "&lt;", "&gt;", "&quot;"], ∀ d ∈ name.toList,
      d ≠ '<' ∧ d ≠ '"' := by decide
  unfold escapedChar at h
  split at h
  · exact hnames _ (by decide) d h
  · exact hnames _ (by decide) d h
  · exact hnames _ (by decide) d h
  · exact hnames _ (by decide) d h
  · rename_i hlt _ hquote
    rw [List.mem_singleton.mp h]
    exact ⟨hlt, hquote⟩

theorem isXmlChar_escapedChar {c : Char} :
    (∀ d ∈ escapedChar c, isXmlChar d = true) ↔ isXmlChar c = true := by
  unfold escapedChar
  split
  · exact iff_of_true (by decide) rfl
  · exact iff_of_true (by decide) rfl
  · exact iff_of_true (by decide) rfl
  · exact iff_of_true (by decide) rfl
  · exact List.forall_mem_singleton

theorem quote_not_mem_escaped (value : Text) : '"' ∉ escapeAttribute value := by
  rw [escapeAttribute_eq, List.mem_flatMap]
  intro h
  obtain ⟨c, -, hc⟩ := h
  exact (ne_of_mem_escapedChar hc).2 rfl

theorem isLiteral_escaped {value : Text} :
    isLiteral (escapeAttribute value) = true ↔ ∀ c ∈ value, isXmlChar c = true := by
  have hquote := quote_not_mem_escaped value
  rw [isLiteral, decide_eq_true hquote, Bool.true_or, Bool.and_true, List.all_eq_true,
    escapeAttribute_eq]
  simp only [List.mem_flatMap, Bool.and_eq_true, decide_eq_true_eq]
  constructor
  · intro h c hc
    exact isXmlChar_escapedChar.mp fun d hd => (h d ⟨c, hc, hd⟩).1
  · intro h d hd
    obtain ⟨c, hc, hmem⟩ := hd
    exact ⟨isXmlChar_escapedChar.mpr (h c hc) d hmem, (ne_of_mem_escapedChar hmem).1⟩

/-! ## The result -/

/-- The declaration that is written for a prefix. -/
def declaration (namespaces : Bindings) (p : Text) : SpelledAttribute :=
  .quoted (String.ofList (declarationKey p)) (String.ofList (escapeAttribute (uriOf namespaces p)))
    (by
      rw [String.toList_ofList]
      exact quote_not_mem_escaped _)

/-- The prefixes whose declaration is not seen. -/
def missing (fragment : Text) (namespaces : Bindings) : List Text :=
  (ordered (namespaces.map Prod.fst)).filter fun p =>
    !occursIn (declarationKey p ++ ['=']) (fragment.takeWhile (· ≠ '>'))

def withDeclarations (t : SpelledTag) (as : List SpelledAttribute) : SpelledTag :=
  { t with attributes := as ++ t.attributes }

/-- The tag with the declarations that the code adds. -/
def extended (t : SpelledTag) (content : Option (Forest SpelledTag Leaf))
    (namespaces : Bindings) : SpelledTag :=
  withDeclarations t ((missing (t.element content).spelling namespaces).map
    (declaration namespaces))

theorem mem_missing {fragment : Text} {namespaces : Bindings} {p : Text} :
    p ∈ missing fragment namespaces ↔ p ∈ namespaces.map Prod.fst ∧
      ¬ occursIn (declarationKey p ++ ['=']) (fragment.takeWhile (· ≠ '>')) = true := by
  rw [missing, List.mem_filter, mem_ordered, Bool.not_eq_true', Bool.not_eq_true]

theorem missing_nodup (fragment : Text) (namespaces : Bindings) :
    (missing fragment namespaces).Nodup :=
  ((ordered_pairwise _).imp fun hlt => ne_of_lt hlt).filter _

theorem declaration_text (namespaces : Bindings) (p : Text) : (declaration namespaces p).text =
    ' ' :: (declarationKey p ++ '=' :: '"' ::
      (escapeAttribute (uriOf namespaces p) ++ ['"'])) := by
  show [' '] ++ ((String.ofList (declarationKey p)).toList ++ '=' :: '"' ::
    ((String.ofList (escapeAttribute (uriOf namespaces p))).toList ++ ['"'])) = _
  rw [String.toList_ofList, String.toList_ofList]
  rfl

theorem flatMap_missing (fragment : Text) (namespaces : Bindings) :
    (ordered (namespaces.map Prod.fst)).flatMap
        (missingDeclaration (fragment.takeWhile fun c => c ≠ '>') namespaces) =
      ((missing fragment namespaces).map (declaration namespaces)).flatMap
        SpelledAttribute.text := by
  have hone : ∀ p, missingDeclaration (fragment.takeWhile fun c => c ≠ '>') namespaces p =
      if occursIn (declarationKey p ++ ['=']) (fragment.takeWhile (· ≠ '>')) = true then []
      else (declaration namespaces p).text := by
    intro p
    unfold missingDeclaration
    refine if_congr Iff.rfl rfl ?_
    rw [declaration_text]
    show ' ' :: (declarationKey p ++ ['=', '"'] ++ _ ++ ['"']) = _
    rw [List.append_assoc, List.append_assoc]
    rfl
  unfold missing
  induction ordered (namespaces.map Prod.fst) with
  | nil => rfl
  | cons p ps ih =>
    rw [List.flatMap_cons, ih, hone]
    by_cases hseen : occursIn (declarationKey p ++ ['=']) (fragment.takeWhile (· ≠ '>')) = true
    · rw [if_pos hseen, List.filter_cons_of_neg (by rw [hseen]; exact Bool.false_ne_true)]
      rfl
    · rw [if_neg hseen, List.filter_cons_of_pos (by rw [Bool.eq_false_iff.mpr hseen]; rfl),
        List.map_cons, List.flatMap_cons]

/-- The code takes the name to end here. -/
def endsRootName (c : Char) : Bool := isWhitespace c || c = '>' || c = '/'

theorem withNamespaces_cons (c : Char) (cs : Text) (namespaces : Bindings) :
    withNamespaces (c :: cs) namespaces = c :: (cs.takeWhile (fun d => !endsRootName d) ++
      (((missing (c :: cs) namespaces).map (declaration namespaces)).flatMap
        SpelledAttribute.text ++ cs.dropWhile fun d => !endsRootName d)) := by
  have hdrop : (c :: cs).drop (c :: cs.takeWhile fun d => !endsRootName d).length =
      cs.dropWhile fun d => !endsRootName d := by
    have hsplit := List.takeWhile_append_dropWhile (p := fun d => !endsRootName d) (l := cs)
    have hrest := congrArg (List.drop (cs.takeWhile fun d => !endsRootName d).length) hsplit
    rw [List.drop_left] at hrest
    exact hrest.symm
  rw [← flatMap_missing, ← hdrop]
  simp only [withNamespaces, List.take_succ_cons, List.take_zero, List.drop_succ_cons,
    List.drop_zero, List.cons_append, List.nil_append, List.append_assoc]
  rfl

theorem withDeclarations_spelling (t : SpelledTag) (as : List SpelledAttribute)
    (content : Option (Forest SpelledTag Leaf)) :
    ((withDeclarations t as).element content).spelling =
      '<' :: (t.name.toList ++ (as.flatMap SpelledAttribute.text ++ (t.inside ++
        (tagEnd content.isNone ++ afterTag t content)))) := by
  rw [element_spelling]
  have hafter : afterTag (withDeclarations t as) content = afterTag t content := by
    cases content <;> rfl
  rw [hafter, SpelledTag.inside, SpelledTag.inside, withDeclarations, List.flatMap_append]
  simp only [List.append_assoc]

theorem endsRootName_of_mem_name {name : Text} (h : isQName name) {c : Char} (hc : c ∈ name) :
    endsRootName c = isWhitespace c := by
  obtain ⟨-, hmarkup⟩ := ne_of_mem_name h hc
  have hgt : c ≠ '>' := fun heq => hmarkup (by simp [heq])
  have hslash : c ≠ '/' := fun heq => hmarkup (by simp [heq])
  rw [endsRootName, decide_eq_false hgt, decide_eq_false hslash, Bool.or_false, Bool.or_false]

theorem isWhitespace_of_isSpace {c : Char} (h : isSpace c = true) : isWhitespace c = true := by
  simp only [isSpace, Bool.or_eq_true, decide_eq_true_eq] at h
  obtain ((rfl | rfl) | rfl) | rfl := h <;> rfl

section Result

variable {t : SpelledTag} {content : Option (Forest SpelledTag Leaf)} {namespaces : Bindings}

/-- Where the name is taken whole, or nothing is written, the tag is extended. -/
theorem withNamespaces_eq (ht : t.tag.Lexical)
    (h : (∀ c ∈ t.name.toList, isWhitespace c = false) ∨
      missing (t.element content).spelling namespaces = []) :
    withNamespaces (t.element content).spelling namespaces =
      ((extended t content namespaces).element content).spelling := by
  rw [extended, withDeclarations_spelling]
  rcases h with hname | hnone
  · have hends : ∀ c ∈ (t.inside ++ (tagEnd content.isNone ++ afterTag t content)).head?,
        (!endsRootName c) = false := by
      intro c hc
      rw [SpelledTag.inside, List.append_assoc] at hc
      rcases head?_afterName (spellsAttributes t.attributes) t.hspace _ _ hc with h | rfl | rfl
      · rw [endsRootName, isWhitespace_of_isSpace h]
        rfl
      · rfl
      · rfl
    have hsplit := takeWhile_append_stop (p := fun d => !endsRootName d) (u := t.name.toList)
      (fun c hc => by rw [endsRootName_of_mem_name ht.1 hc, hname c hc]; rfl) hends
    rw [element_spelling, withNamespaces_cons, hsplit.1, hsplit.2]
  · rw [hnone, element_spelling, withNamespaces_cons, ← element_spelling, hnone]
    exact congrArg ('<' :: ·) (List.takeWhile_append_dropWhile)

/-- A declaration in the middle of the name leaves another name. -/
theorem name_whole (ht : t.tag.Lexical) {t' : SpelledTag} (hname : t'.name = t.name)
    (h : withNamespaces (t.element content).spelling namespaces = (t'.element content).spelling)
    (hsome : missing (t.element content).spelling namespaces ≠ []) :
    ∀ c ∈ t.name.toList, isWhitespace c = false := by
  by_contra hnot
  obtain ⟨u, w, v, hsplit, hu, hw⟩ : ∃ u w v, t.name.toList = u ++ w :: v ∧
      (∀ c ∈ u, (!endsRootName c) = true) ∧ (!endsRootName w) = false := by
    have hall := List.takeWhile_append_dropWhile (p := fun d => !endsRootName d)
      (l := t.name.toList)
    cases hdrop : t.name.toList.dropWhile fun d => !endsRootName d with
    | nil =>
      refine absurd (fun c hc => ?_) hnot
      have hc' := List.dropWhile_eq_nil_iff.mp hdrop c hc
      rwa [endsRootName_of_mem_name ht.1 hc, Bool.not_eq_true'] at hc'
    | cons w v =>
      refine ⟨_, w, v, by rw [← hdrop, hall], List.all_eq_true.mp List.all_takeWhile, ?_⟩
      have hhead := List.head?_dropWhile_not (p := fun d => !endsRootName d) t.name.toList
      rw [hdrop] at hhead
      exact hhead
  have hmem : w ∈ t.name.toList := by
    rw [hsplit]
    exact List.mem_append_right _ List.mem_cons_self
  obtain ⟨p, ps, hps⟩ := List.exists_cons_of_ne_nil hsome
  have hends := takeWhile_append_stop (p := fun d => !endsRootName d)
    (v := w :: (v ++ (t.inside ++ (tagEnd content.isNone ++ afterTag t content)))) hu
    (fun c hc => by cases hc; exact hw)
  have hfragment : (t.element content).spelling =
      '<' :: (u ++ w :: (v ++ (t.inside ++ (tagEnd content.isNone ++ afterTag t content)))) := by
    rw [element_spelling, hsplit, List.append_assoc, List.cons_append]
  have hout := withNamespaces_cons '<' (u ++ w :: (v ++ (t.inside ++
    (tagEnd content.isNone ++ afterTag t content)))) namespaces
  rw [hends.1, hends.2, ← hfragment, h, hps, element_spelling, hname, hsplit,
    List.append_assoc] at hout
  -- where the name goes on there is a space
  have hspace : w = ' ' := (List.cons.inj (List.append_cancel_left (List.cons.inj hout).2)).1
  have hnot' := (ne_of_mem_name ht.1 hmem).1
  rw [hspace] at hnot'
  cases hnot'

/-- Two tags with one text are read alike. -/
theorem tag_eq {t' : SpelledTag} (ht : t.tag.Lexical) (ht' : t'.tag.Lexical)
    (h : (t.element content).spelling = (t'.element content).spelling) : t.tag = t'.tag := by
  have hread : ∀ u : SpelledTag, u.tag.Lexical →
      readEvent (u.element content).spelling =
        some (tagEvent content.isNone u.tag, afterTag u content) := by
    intro u hu
    rw [element_spelling, SpelledTag.inside, List.append_assoc]
    exact readEvent_tag hu (spellsAttributes u.attributes) u.hspace _ _
  have hevent := hread t ht
  rw [h, hread t' ht', Option.some.injEq, Prod.mk.injEq] at hevent
  have htag := hevent.1
  unfold tagEvent at htag
  split at htag
  · exact (Event.empty.inj htag).symm
  · exact (Event.start.inj htag).symm

end Result

/-! ## Well-formed elements -/

/-- A tag that is well formed in itself; its prefixes may be declared around it. -/
structure ProperTag (t : RawTag) : Prop where
  name : isQName t.name.toList
  qnames : ∀ a ∈ t.attributes, isQName a.key.toList
  keys : (t.attributes.map Attribute.key).Nodup
  literals : ∀ a ∈ t.attributes, isLiteral a.raw.toList
  values : ∀ a ∈ t.attributes, (attributeValue a.raw.toList).isSome

instance (t : RawTag) : Decidable (ProperTag t) :=
  decidable_of_iff (isQName t.name.toList ∧ (∀ a ∈ t.attributes, isQName a.key.toList) ∧
    (t.attributes.map Attribute.key).Nodup ∧ (∀ a ∈ t.attributes, isLiteral a.raw.toList) ∧
    ∀ a ∈ t.attributes, (attributeValue a.raw.toList).isSome)
    ⟨fun ⟨h₁, h₂, h₃, h₄, h₅⟩ => ⟨h₁, h₂, h₃, h₄, h₅⟩,
      fun h => ⟨h.name, h.qnames, h.keys, h.literals, h.values⟩⟩

theorem ProperTag.lexical {t : RawTag} (h : ProperTag t) : t.Lexical := ⟨h.name, h.qnames⟩

def ProperEvent : Event RawTag Leaf → Prop
  | .start t | .empty t | .close t => ProperTag t
  | .leaf l => l.WellFormed

instance : (e : Event RawTag Leaf) → Decidable (ProperEvent e)
  | .start t | .empty t | .close t => inferInstanceAs (Decidable (ProperTag t))
  | .leaf l => inferInstanceAs (Decidable l.WellFormed)

def Proper (g : Forest SpelledTag Leaf) : Prop :=
  ∀ e ∈ (g.mapTags SpelledTag.tag).events, ProperEvent e

instance (g : Forest SpelledTag Leaf) : Decidable (Proper g) :=
  inferInstanceAs (Decidable (∀ e ∈ _, _))

theorem proper_element {t : SpelledTag} {content : Option (Forest SpelledTag Leaf)} :
    Proper (t.element content) ↔ ProperTag t.tag ∧ ∀ kids ∈ content, Proper kids := by
  cases content with
  | none =>
    have hempty : Proper (t.element none) ↔ ProperTag t.tag := List.forall_mem_singleton
    rw [hempty]
    exact (and_iff_left fun kids hkids => by cases hkids).symm
  | some kids =>
    have hnode : Proper (t.element (some kids)) ↔
        ProperTag t.tag ∧ Proper kids ∧ ProperTag t.tag := by
      unfold Proper SpelledTag.element
      rw [Forest.mapTags, Forest.events, List.forall_mem_cons, List.forall_mem_append]
      exact and_congr_right fun _ => and_congr_right fun _ => List.forall_mem_singleton
    rw [hnode]
    constructor
    · intro h
      refine ⟨h.1, fun kids' hkids => ?_⟩
      cases hkids
      exact h.2.1
    · intro h
      exact ⟨h.1, h.2 kids rfl, h.1⟩

/-! ## The extended tag -/

/-- The prefixes that a tag declares. -/
def declaredPrefixes (t : SpelledTag) : List Text := t.tag.bindings.map Prod.fst

theorem mem_declaredPrefixes {t : SpelledTag} (ht : t.tag.Lexical) {p : Text} :
    p ∈ declaredPrefixes t ↔ ∃ a ∈ t.tag.attributes, a.key.toList = declarationKey p := by
  simp only [declaredPrefixes, RawTag.bindings, List.mem_map, List.mem_filterMap,
    Option.map_eq_some_iff]
  constructor
  · intro h
    obtain ⟨_, ⟨a, ha, p', hp', rfl⟩, rfl⟩ := h
    exact ⟨a, ha, eq_key_of_declared? (ht.2 a ha) hp'⟩
  · intro h
    obtain ⟨a, ha, hkey⟩ := h
    exact ⟨(p, a.value), ⟨a, ha, p, by rw [hkey, declared?_key], rfl⟩, rfl⟩

section Extended

variable {t : SpelledTag} {namespaces : Bindings} {ps : List Text}

/-- What is read of the declaration that is written. -/
def writtenUri (namespaces : Bindings) (p : Text) : Text :=
  (attributeValue (escapeAttribute (uriOf namespaces p))).getD []

theorem withDeclarations_attributes (as : List SpelledAttribute) :
    (withDeclarations t as).tag.attributes =
      as.map SpelledAttribute.read ++ t.tag.attributes := List.map_append

theorem declaration_read (p : Text) : (declaration namespaces p).read =
    ⟨String.ofList (declarationKey p), String.ofList (escapeAttribute (uriOf namespaces p))⟩ := rfl

theorem filterMap_declarations {β : Type} (f : Attribute → Option β) (ps : List Text) :
    ((ps.map (declaration namespaces)).map SpelledAttribute.read).filterMap f =
      ps.filterMap fun p => f (declaration namespaces p).read := by
  rw [List.filterMap_map, List.filterMap_map]
  rfl

theorem bindings_withDeclarations (ps : List Text) :
    (withDeclarations t (ps.map (declaration namespaces))).tag.bindings =
      ps.map (fun p => (p, writtenUri namespaces p)) ++ t.tag.bindings := by
  have hone : ∀ p, ((declared? (declaration namespaces p).read.key.toList).map fun p' =>
      (p', (declaration namespaces p).read.value)) = some (p, writtenUri namespaces p) := by
    intro p
    rw [declaration_read, String.toList_ofList, declared?_key, Option.map_some, Attribute.value,
      String.toList_ofList]
    rfl
  rw [RawTag.bindings, withDeclarations_attributes, List.filterMap_append,
    filterMap_declarations]
  simp only [hone, List.filterMap_eq_map']
  rfl

theorem plain_withDeclarations (ps : List Text) :
    (withDeclarations t (ps.map (declaration namespaces))).tag.plain = t.tag.plain := by
  rw [RawTag.plain, withDeclarations_attributes, List.filter_append]
  have hnone : ((ps.map (declaration namespaces)).map SpelledAttribute.read).filter
      (fun a => (declared? a.key.toList).isNone) = [] := by
    rw [List.filter_eq_nil_iff]
    intro a ha
    obtain ⟨_, hmem, rfl⟩ := List.mem_map.mp ha
    obtain ⟨p, -, rfl⟩ := List.mem_map.mp hmem
    rw [declaration_read, String.toList_ofList, declared?_key]
    exact Bool.false_ne_true
  rw [hnone]
  rfl

theorem lookup_pairs (f : Text → Text) (ps : List Text) (p : Text) :
    (ps.map fun p => (p, f p)).lookup p = if p ∈ ps then some (f p) else none := by
  induction ps with
  | nil => rfl
  | cons q qs ih =>
    rw [List.map_cons, List.lookup_cons, ih]
    by_cases hq : p = q
    · rw [hq, beq_self_eq_true, if_pos List.mem_cons_self]
    · rw [beq_false_of_ne hq]
      exact if_congr (by rw [List.mem_cons, or_iff_right hq]) rfl rfl

theorem lookup_withDeclarations (ps : List Text) (p : Text) :
    (withDeclarations t (ps.map (declaration namespaces))).tag.bindings.lookup p =
      if p ∈ ps then some (writtenUri namespaces p) else t.tag.bindings.lookup p := by
  rw [bindings_withDeclarations, List.lookup_append, lookup_pairs]
  split <;> rfl

theorem forall_declarations {q : Attribute → Prop} :
    (∀ a ∈ (withDeclarations t (ps.map (declaration namespaces))).tag.attributes, q a) ↔
      (∀ p ∈ ps, q ⟨String.ofList (declarationKey p),
        String.ofList (escapeAttribute (uriOf namespaces p))⟩) ∧ ∀ a ∈ t.tag.attributes, q a := by
  rw [withDeclarations_attributes, List.forall_mem_append, List.map_map, List.forall_mem_map]
  rfl

theorem keys_nodup_iff (ht : ProperTag t.tag) (hnodup : ps.Nodup) :
    ((withDeclarations t (ps.map (declaration namespaces))).tag.attributes.map
      Attribute.key).Nodup ↔ ∀ p ∈ ps, p ∉ declaredPrefixes t := by
  have hkeys : ((withDeclarations t (ps.map (declaration namespaces))).tag.attributes.map
      Attribute.key) = ps.map (fun p => String.ofList (declarationKey p)) ++
        t.tag.attributes.map Attribute.key := by
    rw [withDeclarations_attributes, List.map_append, List.map_map, List.map_map]
    rfl
  have hnew : (ps.map fun p => String.ofList (declarationKey p)).Nodup :=
    hnodup.map fun p p' h => declarationKey_inj (String.ofList_injective h)
  have hmem : ∀ p, String.ofList (declarationKey p) ∈ t.tag.attributes.map Attribute.key ↔
      p ∈ declaredPrefixes t := by
    intro p
    rw [mem_declaredPrefixes ht.lexical, List.mem_map]
    refine exists_congr fun a => and_congr_right fun _ => ?_
    rw [← String.toList_inj, String.toList_ofList]
  rw [hkeys, List.nodup_append]
  constructor
  · intro h p hp hdeclared
    exact h.2.2 _ (List.mem_map_of_mem hp) _ ((hmem p).mpr hdeclared) rfl
  · intro h
    refine ⟨hnew, ht.keys, fun k hk k' hk' heq => ?_⟩
    obtain ⟨p, hp, rfl⟩ := List.mem_map.mp hk
    exact h p hp ((hmem p).mp (heq ▸ hk'))

/-- The tag stays well formed where the prefixes are new, and their names can be written. -/
theorem properTag_withDeclarations (ht : ProperTag t.tag) (hps : ∀ p ∈ ps, IsPrefix p)
    (hnodup : ps.Nodup) :
    ProperTag (withDeclarations t (ps.map (declaration namespaces))).tag ↔
      (∀ p ∈ ps, p ∉ declaredPrefixes t) ∧
        ∀ p ∈ ps, ∀ c ∈ uriOf namespaces p, isXmlChar c = true := by
  have hliteral : ∀ p, isLiteral (String.ofList (escapeAttribute (uriOf namespaces p))).toList =
      true ↔ ∀ c ∈ uriOf namespaces p, isXmlChar c = true := by
    intro p
    rw [String.toList_ofList, isLiteral_escaped]
  constructor
  · intro h
    refine ⟨(keys_nodup_iff ht hnodup).mp h.keys, fun p hp => (hliteral p).mp ?_⟩
    exact (forall_declarations.mp h.literals).1 p hp
  · intro h
    refine ⟨ht.name, forall_declarations.mpr ⟨fun p hp => ?_, ht.qnames⟩,
      (keys_nodup_iff ht hnodup).mpr h.1,
      forall_declarations.mpr ⟨fun p hp => (hliteral p).mpr (h.2 p hp), ht.literals⟩,
      forall_declarations.mpr ⟨fun p hp => ?_, ht.values⟩⟩
    · rw [String.toList_ofList]
      exact isQName_key (hps p hp)
    · rw [String.toList_ofList, attributeValue_escaped]
      rfl

end Extended

/-! ## When the declarations are added -/

/-- What should come out: the same element, of which the start tag alone is another. It declares
    what it declared, and the rest of the map. -/
def Declares (t : SpelledTag) (content : Option (Forest SpelledTag Leaf)) (namespaces : Bindings)
    (out : Text) : Prop :=
  ∃ t' : SpelledTag, out = (t'.element content).spelling ∧ Proper (t'.element content) ∧
    t'.name = t.name ∧ t'.closing = t.closing ∧ t'.tag.plain = t.tag.plain ∧
    ∀ p, t'.tag.bindings.lookup p = (t.tag.bindings.lookup p).or (namespaces.lookup p)

/-- The search sees the declarations that there are, what is written can be read back, and the
    name is taken whole. -/
structure Addable (t : SpelledTag) (namespaces : Bindings) : Prop where
  seen : ∀ p ∈ namespaces.map Prod.fst, Shows t p ↔ p ∈ declaredPrefixes t
  uris : ∀ p ∈ namespaces.map Prod.fst, p ∉ declaredPrefixes t →
    ∀ c ∈ uriOf namespaces p, isXmlChar c = true ∧ (isSpace c = true → c = ' ')
  name : (∀ c ∈ t.name.toList, isWhitespace c = false) ∨
    ∀ p ∈ namespaces.map Prod.fst, p ∈ declaredPrefixes t

instance (t : SpelledTag) (p : Text) : Decidable (p ∈ declaredPrefixes t) :=
  decidable_of_iff (∃ q ∈ declaredPrefixes t, q = p) exists_eq_right

instance (t : SpelledTag) (namespaces : Bindings) : Decidable (Addable t namespaces) :=
  decidable_of_iff ((∀ p ∈ namespaces.map Prod.fst, Shows t p ↔ p ∈ declaredPrefixes t) ∧
    (∀ p ∈ namespaces.map Prod.fst, p ∉ declaredPrefixes t →
      ∀ c ∈ uriOf namespaces p, isXmlChar c = true ∧ (isSpace c = true → c = ' ')) ∧
    ((∀ c ∈ t.name.toList, isWhitespace c = false) ∨
      ∀ p ∈ namespaces.map Prod.fst, p ∈ declaredPrefixes t))
    ⟨fun ⟨h₁, h₂, h₃⟩ => ⟨h₁, h₂, h₃⟩, fun h => ⟨h.seen, h.uris, h.name⟩⟩

section Added

variable {t : SpelledTag} {content : Option (Forest SpelledTag Leaf)} {namespaces : Bindings}

theorem mem_missing_iff (ht : t.tag.Lexical) (hps : ∀ p ∈ namespaces.map Prod.fst, IsPrefix p)
    {p : Text} : p ∈ missing (t.element content).spelling namespaces ↔
      p ∈ namespaces.map Prod.fst ∧ ¬ Shows t p := by
  rw [mem_missing]
  exact and_congr_right fun hp => not_congr (seen_iff (hps p hp) ht content)

theorem lookup_of_mem {b : Bindings} {p : Text} (hp : p ∈ b.map Prod.fst) :
    b.lookup p = some (uriOf b p) := by
  obtain ⟨u, hu⟩ := Option.isSome_iff_exists.mp (C14n.mem_keys.mp hp)
  rw [uriOf, hu, Option.getD_some]

theorem lookup_of_not_mem {b : Bindings} {p : Text} (hp : p ∉ b.map Prod.fst) :
    b.lookup p = none :=
  Option.not_isSome_iff_eq_none.mp fun h => hp (C14n.mem_keys.mpr h)

theorem writtenUri_eq_iff {p : Text} : writtenUri namespaces p = uriOf namespaces p ↔
    ∀ c ∈ uriOf namespaces p, isSpace c = true → c = ' ' := by
  rw [← attributeValue_escaped_iff, writtenUri, attributeValue_escaped, Option.getD_some,
    Option.some.injEq]

theorem extended_lexical (ht : ProperTag t.tag)
    (hps : ∀ p ∈ namespaces.map Prod.fst, IsPrefix p) :
    (extended t content namespaces).tag.Lexical := by
  refine ⟨ht.name, forall_declarations.mpr ⟨fun p hp => ?_, ht.qnames⟩⟩
  rw [String.toList_ofList]
  exact isQName_key (hps p ((mem_missing_iff ht.lexical hps).mp hp).1)

/-- The extended tag is as it should be where the search sees what there is. -/
theorem extended_iff (ht : ProperTag t.tag) (hps : ∀ p ∈ namespaces.map Prod.fst, IsPrefix p) :
    (ProperTag (extended t content namespaces).tag ∧
      ∀ p, (extended t content namespaces).tag.bindings.lookup p =
        (t.tag.bindings.lookup p).or (namespaces.lookup p)) ↔
    (∀ p ∈ namespaces.map Prod.fst, Shows t p ↔ p ∈ declaredPrefixes t) ∧
      ∀ p ∈ namespaces.map Prod.fst, p ∉ declaredPrefixes t →
        ∀ c ∈ uriOf namespaces p, isXmlChar c = true ∧ (isSpace c = true → c = ' ') := by
  have hmissing : ∀ p, p ∈ missing (t.element content).spelling namespaces ↔
      p ∈ namespaces.map Prod.fst ∧ ¬ Shows t p := fun p => mem_missing_iff ht.lexical hps
  have hproper := @properTag_withDeclarations t namespaces _ ht
    (fun p hp => hps p ((hmissing p).mp hp).1) (missing_nodup _ _)
  unfold extended
  rw [hproper]
  simp only [lookup_withDeclarations]
  constructor
  · intro h
    obtain ⟨⟨hnew, hchars⟩, hlookup⟩ := h
    have hseen : ∀ p ∈ namespaces.map Prod.fst, Shows t p ↔ p ∈ declaredPrefixes t := by
      intro p hp
      constructor
      · intro hshows
        by_contra hnot
        have hp' := hlookup p
        rw [if_neg fun h => ((hmissing p).mp h).2 hshows, lookup_of_not_mem hnot,
          lookup_of_mem hp] at hp'
        cases hp'
      · intro hdeclared
        by_contra hnot
        exact hnew p ((hmissing p).mpr ⟨hp, hnot⟩) hdeclared
    refine ⟨hseen, fun p hp hnot c hc => ?_⟩
    have hmem := (hmissing p).mpr ⟨hp, fun h => hnot ((hseen p hp).mp h)⟩
    have hp' := hlookup p
    rw [if_pos hmem, lookup_of_not_mem hnot, lookup_of_mem hp] at hp'
    exact ⟨hchars p hmem c hc, writtenUri_eq_iff.mp (Option.some.inj hp') c hc⟩
  · intro h
    obtain ⟨hseen, huris⟩ := h
    have hnew : ∀ p ∈ missing (t.element content).spelling namespaces,
        p ∈ namespaces.map Prod.fst ∧ p ∉ declaredPrefixes t := by
      intro p hp
      obtain ⟨hkey, hnot⟩ := (hmissing p).mp hp
      exact ⟨hkey, fun h => hnot ((hseen p hkey).mpr h)⟩
    refine ⟨⟨fun p hp => (hnew p hp).2, fun p hp c hc =>
      (huris p (hnew p hp).1 (hnew p hp).2 c hc).1⟩, fun p => ?_⟩
    by_cases hp : p ∈ missing (t.element content).spelling namespaces
    · obtain ⟨hkey, hnot⟩ := hnew p hp
      rw [if_pos hp, lookup_of_not_mem hnot, lookup_of_mem hkey,
        writtenUri_eq_iff.mpr fun c hc => (huris p hkey hnot c hc).2]
      rfl
    · rw [if_neg hp]
      by_cases hkey : p ∈ namespaces.map Prod.fst
      · have hshows : Shows t p := by
          by_contra hnot
          exact hp ((hmissing p).mpr ⟨hkey, hnot⟩)
        rw [lookup_of_mem ((hseen p hkey).mp hshows)]
        rfl
      · rw [lookup_of_not_mem hkey, Option.or_none]

theorem addable_of_declares (hwf : Proper (t.element content))
    (hps : ∀ p ∈ namespaces.map Prod.fst, IsPrefix p)
    (h : Declares t content namespaces (withNamespaces (t.element content).spelling namespaces)) :
    Addable t namespaces := by
  obtain ⟨t', hout, hproper, hname, -, -, hlookup⟩ := h
  have ht := (proper_element.mp hwf).1
  have ht' := (proper_element.mp hproper).1
  have hwhole : (∀ c ∈ t.name.toList, isWhitespace c = false) ∨
      missing (t.element content).spelling namespaces = [] := by
    by_cases hnone : missing (t.element content).spelling namespaces = []
    · exact .inr hnone
    · exact .inl (name_whole ht.lexical hname hout hnone)
  rw [withNamespaces_eq ht.lexical hwhole] at hout
  have htag := tag_eq (extended_lexical ht hps) ht'.lexical hout
  rw [← htag] at ht' hlookup
  obtain ⟨hseen, huris⟩ := (extended_iff ht hps).mp ⟨ht', hlookup⟩
  refine ⟨hseen, huris, hwhole.imp id fun hnone p hp => (hseen p hp).mp ?_⟩
  by_contra hnot
  have hmem : p ∈ missing (t.element content).spelling namespaces :=
    (mem_missing_iff ht.lexical hps).mpr ⟨hp, hnot⟩
  rw [hnone] at hmem
  cases hmem

theorem declares_of_addable (hwf : Proper (t.element content))
    (hps : ∀ p ∈ namespaces.map Prod.fst, IsPrefix p) (h : Addable t namespaces) :
    Declares t content namespaces (withNamespaces (t.element content).spelling namespaces) := by
  obtain ⟨ht, hcontent⟩ := proper_element.mp hwf
  have hwhole : (∀ c ∈ t.name.toList, isWhitespace c = false) ∨
      missing (t.element content).spelling namespaces = [] := by
    refine h.name.imp id fun hall => List.eq_nil_iff_forall_not_mem.mpr fun p hp => ?_
    obtain ⟨hkey, hnot⟩ := (mem_missing_iff ht.lexical hps).mp hp
    exact hnot ((h.seen p hkey).mpr (hall p hkey))
  obtain ⟨hproper, hlookup⟩ := (@extended_iff t content namespaces ht hps).mpr ⟨h.seen, h.uris⟩
  exact ⟨extended t content namespaces, withNamespaces_eq ht.lexical hwhole,
    proper_element.mpr ⟨hproper, hcontent⟩, rfl, rfl, plain_withDeclarations _, hlookup⟩

end Added

end XmlUtil

open XmlUtil

/-- `with_namespaces` makes of a well-formed element the one with the declarations exactly where
    they are addable. Every text of an element is covered. -/
theorem declarations_added_iff {namespaces : Bindings}
    (hps : ∀ p ∈ namespaces.map Prod.fst, IsPrefix p) :
    (∀ text (tag : RawTag) f, Spells text f →
      f = .empty tag .nil ∨ (∃ kids, f = .node tag kids .nil) →
        ∃ t content, (SpelledTag.element t content).spelling = text ∧
          (SpelledTag.element t content).mapTags SpelledTag.tag = f) ∧
    ∀ (t : SpelledTag) content, Proper (t.element content) →
      (Declares t content namespaces (withNamespaces (t.element content).spelling namespaces) ↔
        Addable t namespaces) :=
  ⟨fun _ _ _ h hf => h.element hf, fun _ _ hwf =>
    ⟨addable_of_declares hwf hps, declares_of_addable hwf hps⟩⟩

/-! ## Elements -/

/-- `<ds:A xmlns:ds="urn:other"/>` -/
def declaring : SpelledTag := .plain "ds:A" [.quoted "xmlns:ds" "urn:other" (by decide)]

theorem declaring_added : Declares declaring none
    [([], "urn:default".toList), ("ds".toList, "urn:ds".toList)]
    (withNamespaces "<ds:A xmlns:ds=\"urn:other\"/>".toList
      [([], "urn:default".toList), ("ds".toList, "urn:ds".toList)]) :=
  ((declarations_added_iff (by decide)).2 declaring none (by decide)).mpr (by decide)

/-- `<ds:A xmlns:ds = "u"/>` -/
def spaced : SpelledTag := .plain "ds:A" [
  { SpelledAttribute.quoted "xmlns:ds" "u" (by decide) with
    before := [' '], after := [' '], hbefore := single_space, hafter := single_space }]

/-- A declaration with white space before its `=` is not seen: the prefix is declared twice. -/
theorem spaced_declared_twice :
    (spaced.element none).spelling = "<ds:A xmlns:ds = \"u\"/>".toList ∧
      Proper (spaced.element none) ∧
      withNamespaces "<ds:A xmlns:ds = \"u\"/>".toList [("ds".toList, "v".toList)] =
        "<ds:A xmlns:ds=\"v\" xmlns:ds = \"u\"/>".toList ∧
      ¬ Declares spaced none [("ds".toList, "v".toList)]
        (withNamespaces "<ds:A xmlns:ds = \"u\"/>".toList [("ds".toList, "v".toList)]) := by
  have hproper : Proper (spaced.element none) := by decide
  have htext : (spaced.element none).spelling = "<ds:A xmlns:ds = \"u\"/>".toList := by
    decide +kernel
  refine ⟨htext, hproper, by decide +kernel, fun h => ?_⟩
  rw [← htext] at h
  have haddable := addable_of_declares hproper (by decide) h
  revert haddable
  decide

end DianService
