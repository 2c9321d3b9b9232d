import DianService.Canonical.Attributes
import DianService.Lib.Clash

/-
  Start tags: what `start_element` writes, against Canonical XML.

  `Follows` relates the stacks of the pass to the ancestors on the tree: what is in scope, and what
  the ancestors have output of every prefix but `xml`. Under it the pass declares the prefixes that
  it should (`changed_filter`), and `xml` besides, unless the tag is `Quiet`.
-/

namespace DianService.C14n

open Lib Lib.Xml

def Mode.exclusive? : Mode → Option (List Text)
  | .inclusive => none
  | .exclusive prefixes => some prefixes

/-- Modes in which every element that has `xml` in scope considers it. -/
def Mode.ListsXml : Mode → Prop
  | .inclusive => True
  | .exclusive prefixes => "xml".toList ∈ prefixes

/-- A tag at which nothing invites the pass to declare `xml`. -/
def Quiet (m : Mode) (t : RawTag) : Prop :=
  (Mode.ListsXml m → "xml".toList ∉ t.bindings.map Prod.fst) ∧
    (Mode.exclusive? m ≠ none → (splitName t.name.toList).1 ≠ "xml".toList)

structure Follows (m : Mode) (ancestors : List Ancestor) (c : Canonicalizer) : Prop where
  exclusive : c.exclusive = Mode.exclusive? m
  scope : ∀ p, (c.scopes.headD []).lookup p = (outerBindings ancestors).lookup p
  rendered : ∀ p, p ≠ "xml".toList → uriOf (c.rendered.headD []) p = known ancestors p
  xml_rendered : uriOf (c.rendered.headD []) "xml".toList = []
  xml_scope : Mode.ListsXml m → "xml".toList ∉ (outerBindings ancestors).map Prod.fst
  grounded : ∀ p, known ancestors p ≠ [] → p ∈ (outerBindings ancestors).map Prod.fst
  named : ∀ d ∈ outerBindings ancestors, d.1 ≠ [] → isNCName d.1 ∧ d.2 ≠ []

/-! ## What is in scope -/

section
variable {m : Mode} {ancestors : List Ancestor} {c : Canonicalizer} {t : RawTag}

/-- The declarations in scope in the element. -/
abbrev inner (ancestors : List Ancestor) (t : RawTag) : Bindings :=
  t.bindings ++ outerBindings ancestors

theorem scope_tag (hf : Follows m ancestors c) (ht : t.WellFormed (outerBindings ancestors))
    (p : Text) :
    (t.bindings.reverse ++ c.scopes.headD []).lookup p = (inner ancestors t).lookup p := by
  rw [List.lookup_append, List.lookup_append, lookup_reverse (bindings_nodup ht), hf.scope]

theorem uriOf_eq_nil {b : Bindings} {p : Text} (h : p ∉ b.map Prod.fst) : uriOf b p = [] := by
  rw [mem_keys, Bool.not_eq_true, Option.isSome_eq_false_iff, Option.isNone_iff_eq_none] at h
  rw [uriOf, h, Option.getD_none]

theorem mem_inner_of_outer {p : Text} (h : p ∈ (outerBindings ancestors).map Prod.fst) :
    p ∈ (inner ancestors t).map Prod.fst := by
  rw [List.map_append]
  exact List.mem_append_right _ h

/-- A prefix whose namespace changes is in scope. -/
theorem mem_inner_of_changed (hf : Follows m ancestors c) {p : Text}
    (h : uriOf (inner ancestors t) p ≠ known ancestors p) :
    p ∈ (inner ancestors t).map Prod.fst := by
  by_contra hnot
  rw [uriOf_eq_nil hnot] at h
  exact hnot (mem_inner_of_outer (hf.grounded p (Ne.symm h)))

theorem named_inner (hf : Follows m ancestors c) (ht : t.WellFormed (outerBindings ancestors)) :
    ∀ d ∈ inner ancestors t, d.1 ≠ [] → isNCName d.1 ∧ d.2 ≠ [] := by
  intro d hd
  rcases List.mem_append.mp hd with hd | hd
  · exact ht.declarations.named d hd
  · exact hf.named d hd

theorem exists_mem_of_mem_keys {b : Bindings} {p : Text} (h : p ∈ b.map Prod.fst) :
    (p, uriOf b p) ∈ b := by
  obtain ⟨uri, huri⟩ := Option.isSome_iff_exists.mp (mem_keys.mp h)
  obtain ⟨l₁, l₂, heq, _⟩ := List.lookup_eq_some_iff.mp huri
  rw [uriOf, huri, Option.getD_some, heq]
  simp

/-! ## Candidates -/

theorem mem_usedByAttributes {b : Bindings} {outer : Bindings} (ht : t.WellFormed outer)
    {p : Text} :
    p ∈ usedByAttributes ((expandedAttributes b t).insertionSort Expanded.le) ↔
      (∃ a ∈ t.plain, (splitName a.key.toList).1 = p) ∧ p ≠ [] ∧ p ≠ "xml".toList := by
  unfold usedByAttributes expandedAttributes
  simp only [List.mem_filter, List.mem_map, (List.perm_insertionSort _ _).mem_iff,
    decide_eq_true_eq]
  constructor
  · rintro ⟨⟨e, ⟨⟨a, ha, rfl⟩, hcolon⟩, rfl⟩, hx⟩
    exact ⟨⟨a, ha, rfl⟩, prefixOf_ne_nil (ht.qnames a (mem_of_mem_plain ha)) hcolon, hx⟩
  · rintro ⟨⟨a, ha, rfl⟩, hne, hx⟩
    exact ⟨⟨_, ⟨⟨a, ha, rfl⟩, colon_of_prefixOf_ne_nil hne⟩, rfl⟩, hx⟩

theorem mem_used {p : Text} :
    p ∈ t.used ↔ p = (splitName t.name.toList).1 ∨
      ((∃ a ∈ t.plain, (splitName a.key.toList).1 = p) ∧ p ≠ []) := by
  unfold RawTag.used
  simp only [List.mem_cons, List.mem_filter, List.mem_map, decide_eq_true_eq]

/-- The candidates of the code, of all prefixes. -/
theorem mem_candidates (hf : Follows m ancestors c) (ht : t.WellFormed (outerBindings ancestors))
    {p : Text} :
    p ∈ candidates c.exclusive (t.bindings.reverse ++ c.scopes.headD []) t.name.toList
        ((expandedAttributes (inner ancestors t) t).insertionSort Expanded.le) ↔
      match m with
      | .inclusive => p ∈ (inner ancestors t).map Prod.fst
      | .exclusive prefixes =>
          p = (splitName t.name.toList).1 ∨
            ((∃ a ∈ t.plain, (splitName a.key.toList).1 = p) ∧ p ≠ [] ∧ p ≠ "xml".toList) ∨
            (p ∈ prefixes ∧ p ∈ (inner ancestors t).map Prod.fst) := by
  have hkeys : ∀ p, p ∈ (t.bindings.reverse ++ c.scopes.headD []).map Prod.fst ↔
      p ∈ (inner ancestors t).map Prod.fst := by
    intro p
    rw [mem_keys, scope_tag hf ht, ← mem_keys]
  rw [hf.exclusive]
  unfold candidates
  cases m with
  | inclusive => exact mem_ordered.trans (hkeys p)
  | exclusive prefixes =>
      dsimp only [Mode.exclusive?]
      rw [mem_ordered, List.mem_cons, List.mem_append, mem_usedByAttributes ht, List.mem_filter]
      unfold Scope.containsKey
      rw [← mem_keys, hkeys]

theorem ListsXml_inclusive : Mode.ListsXml .inclusive := trivial

/-- Where a prefix but `xml` changes its namespace, the code and the standard agree on whether the
    element declares it. -/
theorem candidates_considers (hf : Follows m ancestors c)
    (ht : t.WellFormed (outerBindings ancestors)) {p : Text} (hx : p ≠ "xml".toList)
    (hin : p ∈ (inner ancestors t).map Prod.fst) :
    p ∈ candidates c.exclusive (t.bindings.reverse ++ c.scopes.headD []) t.name.toList
        ((expandedAttributes (inner ancestors t) t).insertionSort Expanded.le) ↔
      m.considers t p := by
  rw [mem_candidates hf ht]
  cases m with
  | inclusive => exact iff_of_true hin rfl
  | exclusive prefixes =>
      simp only [Mode.considers, Bool.or_eq_true, decide_eq_true_eq, mem_used, hin, and_true, ne_eq,
        hx, not_false_eq_true]
      rw [← or_assoc, or_comm]

/-- The prefixes that the code declares. -/
def changed (ancestors : List Ancestor) (c : Canonicalizer) (t : RawTag) : List Text :=
  (candidates c.exclusive (t.bindings.reverse ++ c.scopes.headD []) t.name.toList
    ((expandedAttributes (inner ancestors t) t).insertionSort Expanded.le)).filter fun p =>
      uriOf (inner ancestors t) p ≠ uriOf (c.rendered.headD []) p

theorem candidates_pairwise (exclusive : Option (List Text)) (scope : Scope) (name : Text)
    (attributes : List Expanded) :
    (candidates exclusive scope name attributes).Pairwise (· < ·) := by
  unfold candidates
  split <;> exact ordered_pairwise _

theorem changed_filter (hf : Follows m ancestors c) (ht : t.WellFormed (outerBindings ancestors)) :
    (changed ancestors c t).filter (fun p => p ≠ "xml".toList) = declaredPrefixes m ancestors t := by
  refine eq_of_ordered (((candidates_pairwise _ _ _ _).filter _).filter _)
    ((ordered_pairwise _).filter _) fun p => ?_
  unfold changed declaredPrefixes
  simp only [List.mem_filter, mem_ordered, List.mem_cons, Bool.and_eq_true, decide_eq_true_eq]
  constructor
  · rintro ⟨⟨hcand, hne⟩, hx⟩
    rw [hf.rendered p hx] at hne
    have hin := mem_inner_of_changed hf hne
    exact ⟨Or.inr hin, ⟨hx, (candidates_considers hf ht hx hin).mp hcand⟩, hne⟩
  · rintro ⟨-, ⟨hx, hcons⟩, hne⟩
    have hin := mem_inner_of_changed hf hne
    rw [hf.rendered p hx]
    exact ⟨⟨(candidates_considers hf ht hx hin).mpr hcons, hne⟩, hx⟩

theorem Quiet.xml_not_mem (hf : Follows m ancestors c) (ht : t.WellFormed (outerBindings ancestors))
    (h : Quiet m t) :
    "xml".toList ∉ candidates c.exclusive (t.bindings.reverse ++ c.scopes.headD []) t.name.toList
        ((expandedAttributes (inner ancestors t) t).insertionSort Expanded.le) := by
  have hin : Mode.ListsXml m → "xml".toList ∉ (inner ancestors t).map Prod.fst := by
    intro hl
    rw [List.map_append, List.mem_append, not_or]
    exact ⟨h.1 hl, hf.xml_scope hl⟩
  rw [mem_candidates hf ht]
  cases m with
  | inclusive => exact hin ListsXml_inclusive
  | exclusive prefixes =>
      rintro (hname | ⟨-, -, hx⟩ | ⟨hl, hmem⟩)
      · exact h.2 (Option.some_ne_none _) hname.symm
      · exact hx rfl
      · exact hin hl hmem

/-- Elsewhere `xml` is a candidate, and when it is not in scope the code gives up. -/
theorem xml_mem_changed (hf : Follows m ancestors c) (ht : t.WellFormed (outerBindings ancestors))
    (h : ¬ Quiet m t)
    (hfind : ∀ p ∈ candidates c.exclusive (t.bindings.reverse ++ c.scopes.headD []) t.name.toList
        ((expandedAttributes (inner ancestors t) t).insertionSort Expanded.le),
      p ≠ [] → p ∈ (inner ancestors t).map Prod.fst) :
    "xml".toList ∈ changed ancestors c t := by
  have hne : "xml".toList ≠ [] := by decide
  have hdeclared : "xml".toList ∈ t.bindings.map Prod.fst →
      "xml".toList ∈ (inner ancestors t).map Prod.fst := by
    intro hmem
    rw [List.map_append]
    exact List.mem_append_left _ hmem
  have hcand : "xml".toList ∈ candidates c.exclusive (t.bindings.reverse ++ c.scopes.headD [])
      t.name.toList ((expandedAttributes (inner ancestors t) t).insertionSort Expanded.le) := by
    rw [mem_candidates hf ht]
    unfold Quiet at h
    cases m with
    | inclusive =>
        simp only [Mode.ListsXml, Mode.exclusive?, true_implies, ne_eq, not_true_eq_false,
          false_implies, and_true, not_not] at h
        exact hdeclared h
    | exclusive prefixes =>
        simp only [Mode.ListsXml, Mode.exclusive?, ne_eq, reduceCtorEq, not_false_eq_true,
          true_implies, not_and_or, not_not, Classical.not_imp] at h
        rcases h with ⟨hl, hmem⟩ | hname
        · exact Or.inr (Or.inr ⟨hl, hdeclared hmem⟩)
        · exact Or.inl hname.symm
  have hin := hfind _ hcand hne
  refine List.mem_filter.mpr ⟨hcand, decide_eq_true ?_⟩
  rw [hf.xml_rendered]
  exact (named_inner hf ht _ (exists_mem_of_mem_keys hin) hne).2

/-! ## What is rendered -/

theorem declarationText_eq (p uri : Text) :
    (if p = [] then " xmlns=\"".toList else " xmlns:".toList ++ p ++ "=\"".toList) ++
        escapeAttribute uri ++ ['"'] = declarationText p uri := by
  unfold declarationText attributeText
  rw [escapeAttribute_eq]
  split
  · rfl
  · simp

theorem render_eq (scope inherited : Scope) (acc : Scope × Text) (p : Text) :
    render scope inherited acc p =
      if uriOf scope p = uriOf inherited p then acc
      else ((p, uriOf scope p) :: acc.1, acc.2 ++ declarationText p (uriOf scope p)) := by
  unfold render
  dsimp only
  rw [List.append_assoc, List.append_assoc, ← List.append_assoc (ite _ _ _), declarationText_eq]
  rfl

theorem foldl_render {scope inherited : Scope} (prefixes : List Text) (acc : Scope × Text) :
    prefixes.foldl (render scope inherited) acc =
      ((((prefixes.filter fun p => uriOf scope p ≠ uriOf inherited p).map fun p =>
          (p, uriOf scope p)).reverse ++ acc.1),
        acc.2 ++ (prefixes.filter fun p => uriOf scope p ≠ uriOf inherited p).flatMap fun p =>
          declarationText p (uriOf scope p)) := by
  induction prefixes generalizing acc with
  | nil => simp
  | cons p ps ih =>
      rw [List.foldl_cons, ih, render_eq]
      by_cases h : uriOf scope p = uriOf inherited p
      · rw [List.filter_cons_of_neg (by simpa using h), if_pos h]
      · rw [List.filter_cons_of_pos (by simpa using h), if_neg h, List.map_cons, List.reverse_cons,
          List.flatMap_cons, List.append_assoc, List.append_assoc]
        rfl

def attributesText (b : Bindings) (t : RawTag) : Text :=
  ((expandedAttributes b t).insertionSort Expanded.le).flatMap fun a => attributeText a.key a.value

/-- The state inside the element, where the code gets there. -/
def opened (ancestors : List Ancestor) (c : Canonicalizer) (t : RawTag) : Canonicalizer :=
  { c with
    out := c.out ++ ('<' :: t.name.toList ++
      ((changed ancestors c t).flatMap fun p => declarationText p (uriOf (inner ancestors t) p)) ++
      attributesText (inner ancestors t) t ++ ['>'])
    scopes := (t.bindings.reverse ++ c.scopes.headD []) :: c.scopes
    rendered :=
      (((changed ancestors c t).map fun p => (p, uriOf (inner ancestors t) p)).reverse ++
        c.rendered.headD []) :: c.rendered
    depth := c.depth + 1
    seen_root := true }

theorem startElement_eq {q : QuickXml} (hq : q.Normalizes) (hf : Follows m ancestors c)
    (ht : t.WellFormed (outerBindings ancestors)) :
    startElement q c t =
      match (candidates c.exclusive (t.bindings.reverse ++ c.scopes.headD []) t.name.toList
        ((expandedAttributes (inner ancestors t) t).insertionSort Expanded.le)).find? fun p =>
          p ≠ [] && !Scope.containsKey (t.bindings.reverse ++ c.scopes.headD []) p with
      | some p => undeclared p
      | none => .ok (opened ancestors c t) := by
  have huri : uriOf (t.bindings.reverse ++ c.scopes.headD []) = uriOf (inner ancestors t) := by
    funext p
    rw [uriOf, scope_tag hf ht, uriOf]
  have hattr : ∀ l : List Expanded, (l.flatMap fun a =>
      ' ' :: a.key ++ "=\"".toList ++ escapeAttribute a.value ++ ['"']) =
        l.flatMap fun a => attributeText a.key a.value := by
    intro l
    congr 1
    funext a
    rw [attributeText, escapeAttribute_eq]
  have hbind : ∀ {α β : Type} (a : α) (f : α → Except CryptoError β), (Except.ok a >>= f) = f a :=
    fun _ _ => rfl
  unfold startElement
  rw [readAttributes_tag hq ht, hbind]
  dsimp only
  rw [expandAttributes_eq ht (scope_tag hf ht), hbind]
  unfold inner at huri
  split
  · rename_i hfind
    rw [hfind]
    rfl
  · rename_i hnone
    rw [Option.eq_none_iff_forall_ne_some.mpr fun p => hnone p, foldl_render, huri, hattr]
    rfl

/-! ## Tags without a declaration of `xml` -/

theorem changed_quiet (hf : Follows m ancestors c) (ht : t.WellFormed (outerBindings ancestors))
    (h : Quiet m t) : changed ancestors c t = declaredPrefixes m ancestors t := by
  rw [← changed_filter hf ht]
  refine (List.filter_eq_self.mpr fun p hp => decide_eq_true ?_).symm
  rintro rfl
  exact h.xml_not_mem hf ht (List.mem_filter.mp hp).1

theorem startElement_quiet {q : QuickXml} (hq : q.Normalizes) (hf : Follows m ancestors c)
    (ht : t.WellFormed (outerBindings ancestors)) (h : Quiet m t) :
    startElement q c t = .ok (opened ancestors c t) := by
  rw [startElement_eq hq hf ht, List.find?_eq_none.mpr]
  intro p hp
  have hx : p ≠ "xml".toList := by
    rintro rfl
    exact h.xml_not_mem hf ht hp
  -- every candidate that is not the default namespace is in scope
  have hin : p ≠ [] → p ∈ (inner ancestors t).map Prod.fst := by
    intro hne
    have hcand := (mem_candidates hf ht).mp hp
    cases m with
    | inclusive => exact hcand
    | exclusive prefixes =>
        rcases hcand with rfl | ⟨⟨a, ha, rfl⟩, -⟩ | ⟨-, hmem⟩
        · exact (ht.element_usable.resolve_left hne).resolve_left hx
        · exact ((ht.attributes_usable a ha).resolve_left hne).resolve_left hx
        · exact hmem
  unfold Scope.containsKey
  rw [scope_tag hf ht]
  by_cases hne : p = []
  · simp [hne]
  · simp [mem_keys.mp (hin hne)]

theorem opened_out (hf : Follows m ancestors c) (ht : t.WellFormed (outerBindings ancestors))
    (h : Quiet m t) : (opened ancestors c t).out = c.out ++ startText m ancestors t := by
  unfold opened
  rw [changed_quiet hf ht h]
  rfl

theorem uriOf_rendered (l : List Text) (g : Text → Text) (s : Scope) (p : Text) :
    uriOf ((l.map fun p => (p, g p)).reverse ++ s) p = if p ∈ l then g p else uriOf s p := by
  induction l generalizing s with
  | nil => rfl
  | cons x l ih =>
      rw [List.map_cons, List.reverse_cons, List.append_assoc, ih]
      by_cases hl : p ∈ l
      · rw [if_pos hl, if_pos (List.mem_cons_of_mem _ hl)]
      · rw [if_neg hl]
        unfold uriOf
        by_cases hx : p = x
        · subst hx
          simp
        · have hne : (p == x) = false := by simp [hx]
          simp [List.lookup_cons, hl, hx, hne]

theorem known_cons (a : Ancestor) (ancestors : List Ancestor) (p : Text) :
    known (a :: ancestors) p =
      if a.considers p then uriOf a.bindings p else known ancestors p := by
  unfold known
  rw [List.find?_cons]
  cases a.considers p <;> rfl

theorem mem_declaredPrefixes (hf : Follows m ancestors c) {p : Text} :
    p ∈ declaredPrefixes m ancestors t ↔
      p ≠ "xml".toList ∧ m.considers t p ∧ uriOf (inner ancestors t) p ≠ known ancestors p := by
  unfold declaredPrefixes
  simp only [List.mem_filter, mem_ordered, List.mem_cons, Bool.and_eq_true, decide_eq_true_eq,
    and_assoc]
  constructor
  · exact fun h => h.2
  · exact fun h => ⟨Or.inr (mem_inner_of_changed hf h.2.2), h⟩

/-- What the elements of the content may rely on. -/
theorem Follows.opened (hf : Follows m ancestors c) (ht : t.WellFormed (outerBindings ancestors))
    (h : Quiet m t) :
    Follows m (t.ancestor m ancestors :: ancestors) (opened ancestors c t) where
  exclusive := hf.exclusive
  scope := scope_tag hf ht
  rendered := by
    intro p hx
    show uriOf (((changed ancestors c t).map fun p => (p, uriOf (inner ancestors t) p)).reverse ++
      c.rendered.headD []) p = _
    rw [uriOf_rendered, changed_quiet hf ht h, hf.rendered p hx, known_cons]
    show (if p ∈ declaredPrefixes m ancestors t then uriOf (inner ancestors t) p else _) =
      if m.considers t p then uriOf (inner ancestors t) p else _
    by_cases hcons : m.considers t p
    · rw [if_pos hcons]
      split
      · rfl
      · rename_i hnot
        rw [mem_declaredPrefixes hf] at hnot
        by_contra hne
        exact hnot ⟨hx, hcons, Ne.symm hne⟩
    · rw [if_neg hcons, if_neg]
      exact fun hmem => hcons ((mem_declaredPrefixes hf).mp hmem).2.1
  xml_rendered := by
    show uriOf (((changed ancestors c t).map fun p => (p, uriOf (inner ancestors t) p)).reverse ++
      c.rendered.headD []) "xml".toList = []
    rw [uriOf_rendered, if_neg, hf.xml_rendered]
    exact fun hmem => h.xml_not_mem hf ht (List.mem_filter.mp hmem).1
  xml_scope := by
    intro hl
    show _ ∉ (t.bindings ++ outerBindings ancestors).map Prod.fst
    rw [List.map_append, List.mem_append, not_or]
    exact ⟨h.1 hl, hf.xml_scope hl⟩
  grounded := by
    intro p hne
    rw [known_cons] at hne
    show p ∈ (inner ancestors t).map Prod.fst
    split at hne
    · by_contra hnot
      exact hne (uriOf_eq_nil hnot)
    · exact mem_inner_of_outer (hf.grounded p hne)
  named := named_inner hf ht

/-! ## Tags with one -/

theorem clash_attributeText {k l : Text} (hk : '=' ∉ k) (hl : '=' ∉ l) (hne : k ≠ l)
    (v w : Text) : Clash (attributeText k v) (attributeText l w) := by
  unfold attributeText
  rw [List.append_assoc, List.append_assoc, List.append_assoc, List.append_assoc]
  show Clash ((' ' :: k) ++ '=' :: _) ((' ' :: l) ++ '=' :: _)
  refine clash_of_names ?_ ?_ (fun h => hne (List.tail_eq_of_cons_eq h)) _ _
  · simpa using hk
  · simpa using hl

def declarationKey (p : Text) : Text := if p = [] then "xmlns".toList else "xmlns:".toList ++ p

theorem declarationKey_injective {p r : Text} (h : declarationKey p = declarationKey r) : p = r := by
  unfold declarationKey at h
  have hne : ∀ p : Text, "xmlns".toList ≠ "xmlns:".toList ++ p := by
    intro p heq
    have hlen := congrArg List.length heq
    rw [List.length_append] at hlen
    have h5 : "xmlns".toList.length = 5 := rfl
    have h6 : "xmlns:".toList.length = 6 := rfl
    omega
  split at h
  · split at h
    · rename_i hp hr
      rw [hp, hr]
    · exact absurd h (hne r)
  · split at h
    · exact absurd h.symm (hne p)
    · exact List.append_cancel_left h

theorem not_mem_declarationKey {p : Text} (h : '=' ∉ p) : '=' ∉ declarationKey p := by
  unfold declarationKey
  split
  · decide
  · rw [List.mem_append, not_or]
    exact ⟨by decide, h⟩

theorem clash_declarations {p r : Text} (hp : '=' ∉ p) (hr : '=' ∉ r) (hne : p ≠ r)
    (v w : Text) : Clash (declarationText p v) (declarationText r w) :=
  clash_attributeText (not_mem_declarationKey hp) (not_mem_declarationKey hr)
    (fun h => hne (declarationKey_injective h)) v w

/-- A declaration of `xml` instead of the end of the tag or of an attribute. -/
theorem clash_attributes {outer : Bindings} (ht : t.WellFormed outer) (b : Bindings)
    (uri : Text) :
    Clash (declarationText "xml".toList uri) (attributesText b t ++ ['>']) := by
  unfold attributesText
  cases hl : (expandedAttributes b t).insertionSort Expanded.le with
  | nil => exact clash_of_head (by decide) _ _
  | cons e es =>
      have hmem : e ∈ expandedAttributes b t :=
        (List.perm_insertionSort Expanded.le _).mem_iff.mp (hl ▸ List.mem_cons_self)
      obtain ⟨a, ha, rfl⟩ := List.mem_map.mp hmem
      have hkey : '=' ∉ a.key.toList :=
        not_mem_of_isQName (ht.qnames a (mem_of_mem_plain ha)) rfl (by decide)
      have hne : declarationKey "xml".toList ≠ a.key.toList := by
        intro heq
        have hplain := (List.mem_filter.mp ha).2
        rw [← heq] at hplain
        exact absurd hplain (by decide)
      have hclash := clash_attributeText (not_mem_declarationKey (by decide)) hkey hne uri a.value
      have happ := hclash.append [] ((es.flatMap fun a => attributeText a.key a.value) ++ ['>'])
      rw [List.append_nil, ← List.append_assoc] at happ
      exact happ

/-- One declaration of `xml` among declarations without it. -/
theorem clash_filter {l : List Text} (hl : ∀ p ∈ l, '=' ∉ p) (hmem : "xml".toList ∈ l)
    (g : Text → Text) {w : Text} (hw : ∀ uri, Clash (declarationText "xml".toList uri) w) :
    Clash ((l.flatMap fun p => declarationText p (g p)) ++ w)
      (((l.filter fun p => p ≠ "xml".toList).flatMap fun p => declarationText p (g p)) ++ w) := by
  induction l with
  | nil => cases hmem
  | cons p l ih =>
      have hl' : ∀ r ∈ l, '=' ∉ r := fun r hr => hl r (List.mem_cons_of_mem _ hr)
      rw [List.flatMap_cons, List.append_assoc]
      by_cases hx : p = "xml".toList
      · rw [List.filter_cons_of_neg (by simpa using hx)]
        subst hx
        cases hf : l.filter fun p => p ≠ "xml".toList with
        | nil =>
            have h := (hw (g "xml".toList)).append
              ((l.flatMap fun p => declarationText p (g p)) ++ w) []
            rw [List.append_nil] at h
            exact h
        | cons r rs =>
            have hr : r ∈ l.filter fun p => p ≠ "xml".toList := hf ▸ List.mem_cons_self
            obtain ⟨hrl, hrx⟩ := List.mem_filter.mp hr
            have hne : "xml".toList ≠ r := Ne.symm (of_decide_eq_true hrx)
            rw [List.flatMap_cons, List.append_assoc]
            exact (clash_declarations (by decide) (hl' r hrl) hne _ _).append _ _
      · have hmem' := (List.mem_cons.mp hmem).resolve_left (Ne.symm hx)
        rw [List.filter_cons_of_pos (by simpa using hx), List.flatMap_cons, List.append_assoc,
          clash_append_left]
        exact ih hl' hmem'

theorem startElement_loud {q : QuickXml} (hq : q.Normalizes) (hf : Follows m ancestors c)
    (ht : t.WellFormed (outerBindings ancestors)) (h : ¬ Quiet m t) {c' : Canonicalizer}
    (hok : startElement q c t = .ok c') :
    ∃ u, c'.out = c.out ++ u ∧ Clash u (startText m ancestors t) := by
  rw [startElement_eq hq hf ht] at hok
  split at hok
  · cases hok
  · rename_i hfind
    cases hok
    have hin : ∀ p ∈ candidates c.exclusive (t.bindings.reverse ++ c.scopes.headD [])
        t.name.toList ((expandedAttributes (inner ancestors t) t).insertionSort Expanded.le),
        p ≠ [] → p ∈ (inner ancestors t).map Prod.fst := by
      intro p hp hne
      have hscope := List.find?_eq_none.mp hfind p hp
      unfold Scope.containsKey at hscope
      rw [scope_tag hf ht] at hscope
      rw [mem_keys]
      simpa [hne] using hscope
    have hxml := xml_mem_changed hf ht h hin
    have hnames : ∀ p ∈ changed ancestors c t, '=' ∉ p := by
      intro p hp
      by_cases hne : p = []
      · rw [hne]
        exact List.not_mem_nil
      · have hmem := exists_mem_of_mem_keys (hin p (List.mem_filter.mp hp).1 hne)
        exact not_mem_of_isNCName (named_inner hf ht _ hmem hne).1 rfl
    refine ⟨_, rfl, ?_⟩
    have hclash := clash_filter hnames hxml (uriOf (inner ancestors t))
      (clash_attributes ht (inner ancestors t))
    rw [changed_filter hf ht] at hclash
    unfold startText
    simp only [List.append_assoc, List.cons_append]
    refine (clash_append_left ['<']).mpr ((clash_append_left t.name.toList).mpr ?_)
    exact hclash

end

end DianService.C14n
