import DianService.Canonical.Scopes
import DianService.Reading.Accepted

/-
  Reading: the texts that the canonicalizer accepts. It counts no roots, and resolves references
  inside elements only. Of a tag it asks that its values can be normalized and its prefixes are in
  scope; the prefix `xml` need not be declared, but on an element, in exclusive mode.
-/

namespace DianService

open Lib.Xml

namespace C14n

variable {q : QuickXml} {c c' : Canonicalizer} {t : RawTag} {exclusive : Option (List Text)}
  {scope : Scope}

/-! ## Tags -/

/-- The scope inside a tag, where the loops of `start_element` go through. -/
def tagScope (q : QuickXml) (exclusive : Option (List Text)) (scope : Scope) (t : RawTag) :
    Option Scope :=
  match t.attributes.foldlM (readAttribute q) (scope, []) with
  | .error _ => none
  | .ok (inner, raw_attributes) =>
      match raw_attributes.mapM (expand inner) with
      | .error _ => none
      | .ok attributes =>
          if (candidates exclusive inner t.name.toList
              (attributes.insertionSort Expanded.le)).any
                fun p => p ≠ [] && !inner.containsKey p then none
          else some inner

theorem find?_eq_none_iff_any {α : Type} {p : α → Bool} {l : List α} :
    l.find? p = none ↔ l.any p = false := by
  rw [List.find?_eq_none, List.any_eq_false]

/-- `start_element` fails where one of its loops does, and else opens the scope. -/
theorem startElement_of_tagScope :
    (tagScope q c.exclusive (c.scopes.headD []) t = none → ∃ e, startElement q c t = .error e) ∧
      ∀ inner, tagScope q c.exclusive (c.scopes.headD []) t = some inner →
        ∃ c', startElement q c t = .ok c' ∧ c'.scopes = inner :: c.scopes ∧
          c'.exclusive = c.exclusive ∧ c'.depth = c.depth + 1 := by
  unfold tagScope startElement
  cases hread : t.attributes.foldlM (readAttribute q) (c.scopes.headD [], []) with
  | error e => exact ⟨fun _ => ⟨e, rfl⟩, fun inner h => by cases h⟩
  | ok acc =>
    obtain ⟨scope, raw_attributes⟩ := acc
    rw [ok_bind]
    dsimp only
    cases hexpand : raw_attributes.mapM (expand scope) with
    | error e => exact ⟨fun _ => ⟨e, rfl⟩, fun inner h => by cases h⟩
    | ok attributes =>
      rw [ok_bind]
      dsimp only
      split
      · rename_i hany
        obtain ⟨p, hp⟩ : ∃ p, (candidates c.exclusive scope t.name.toList
            (attributes.insertionSort Expanded.le)).find?
              (fun p => p ≠ [] && !scope.containsKey p) = some p := by
          apply Option.ne_none_iff_exists'.mp
          intro hnone
          rw [find?_eq_none_iff_any.mp hnone] at hany
          cases hany
        rw [hp]
        exact ⟨fun _ => ⟨_, rfl⟩, fun inner h => by cases h⟩
      · rename_i hall
        rw [find?_eq_none_iff_any.mpr (Bool.not_eq_true _ ▸ hall)]
        refine ⟨fun h => absurd h (Option.some_ne_none scope), fun inner h => ?_⟩
        cases h
        exact ⟨_, rfl, rfl, rfl, rfl⟩

theorem startElement_opens (h : startElement q c t = .ok c') :
    ∃ inner, tagScope q c.exclusive (c.scopes.headD []) t = some inner ∧
      c'.scopes = inner :: c.scopes ∧ c'.exclusive = c.exclusive ∧ c'.depth = c.depth + 1 := by
  cases hscope : tagScope q c.exclusive (c.scopes.headD []) t with
  | none =>
    obtain ⟨e, he⟩ := startElement_of_tagScope.1 hscope
    rw [h] at he
    cases he
  | some inner =>
    obtain ⟨c₁, hsame, hrest⟩ := startElement_of_tagScope.2 inner hscope
    rw [h] at hsame
    cases hsame
    exact ⟨inner, rfl, hrest⟩

/-! ## Content -/

/-- A leaf: no DTD, and inside an element no reference but one that can be resolved. -/
def LeafTaken (inside : Bool) (l : Leaf) : Prop :=
  (∀ raw, l ≠ .doctype raw) ∧
    (inside = true → ∀ name, l = .ref name → (resolvedName name.toList).isSome)

/-- Content, inside an element or outside the root, where `scope` is in scope. -/
def Taken (q : QuickXml) (exclusive : Option (List Text)) :
    (scope : Scope) → (inside : Bool) → Forest RawTag Leaf → Prop
  | _, _, .nil => True
  | scope, inside, .leaf l rest => LeafTaken inside l ∧ Taken q exclusive scope inside rest
  | scope, inside, .empty t rest =>
      (tagScope q exclusive scope t).isSome ∧ Taken q exclusive scope inside rest
  | scope, inside, .node t kids rest =>
      (∃ inner, tagScope q exclusive scope t = some inner ∧ Taken q exclusive inner true kids) ∧
        Taken q exclusive scope inside rest

/-- All but what was output. -/
structure Same (c c' : Canonicalizer) : Prop where
  scopes : c'.scopes = c.scopes
  exclusive : c'.exclusive = c.exclusive
  depth : c'.depth = c.depth

theorem Same.trans {c₁ : Canonicalizer} (h : Same c c₁) (h' : Same c₁ c') : Same c c' :=
  ⟨h'.scopes.trans h.scopes, h'.exclusive.trans h.exclusive, h'.depth.trans h.depth⟩

theorem leafTaken_of_ne {inside : Bool} {l : Leaf} (hdoctype : ∀ raw, l ≠ .doctype raw)
    (href : ∀ name, l ≠ .ref name) : LeafTaken inside l :=
  ⟨hdoctype, fun _ name h => absurd h (href name)⟩

theorem leafEvent_taken {l : Leaf} :
    (LeafTaken (decide (0 < c.depth)) l → ∃ c', leafEvent c l = .ok c' ∧ Same c c') ∧
      ∀ c', leafEvent c l = .ok c' → LeafTaken (decide (0 < c.depth)) l ∧ Same c c' := by
  have htext : ∀ raw : Text, Same c (if c.depth > 0 then c.push raw else c) := by
    intro raw
    split <;> exact ⟨rfl, rfl, rfl⟩
  cases l with
  | text raw | cdata raw =>
    refine ⟨fun _ => ⟨_, rfl, htext _⟩, fun c' h => ?_⟩
    cases h
    exact ⟨leafTaken_of_ne (by simp) (by simp), htext _⟩
  | pi raw | comment raw | decl raw =>
    refine ⟨fun _ => ⟨_, rfl, rfl, rfl, rfl⟩, fun c' h => ?_⟩
    cases h
    exact ⟨leafTaken_of_ne (by simp) (by simp), rfl, rfl, rfl⟩
  | doctype raw => exact ⟨fun h => absurd rfl (h.1 raw), fun c' h => by cases h⟩
  | ref name =>
    by_cases hdepth : 0 < c.depth
    · simp only [leafEvent, hdepth, if_true, decide_true, resolveReference]
      cases hname : resolvedName name.toList with
      | none =>
        refine ⟨fun h => ?_, fun c' h => by cases h⟩
        have hsome := h.2 rfl name rfl
        rw [hname] at hsome
        cases hsome
      | some ch =>
        refine ⟨fun _ => ⟨_, rfl, rfl, rfl, rfl⟩, fun c' h => ?_⟩
        cases h
        refine ⟨⟨by simp, fun _ name' hsame => ?_⟩, rfl, rfl, rfl⟩
        cases hsame
        rw [hname]
        rfl
    · simp only [leafEvent, hdepth, if_false, decide_false]
      refine ⟨fun _ => ⟨c, rfl, rfl, rfl, rfl⟩, fun c' h => ?_⟩
      cases h
      exact ⟨⟨by simp, fun hinside => absurd hinside Bool.false_ne_true⟩, rfl, rfl, rfl⟩

/-- An element: its tag, its content, and back to the state before it. -/
theorem endElement_same {c₁ c₂ : Canonicalizer} {inner : Scope}
    (hscopes : c₁.scopes = inner :: c.scopes) (hexclusive : c₁.exclusive = c.exclusive)
    (hdepth : c₁.depth = c.depth + 1) (h : Same c₁ c₂) : Same c (endElement c₂ t) where
  scopes := by rw [endElement, h.scopes, hscopes, List.tail_cons]
  exclusive := h.exclusive.trans hexclusive
  depth := by
    show c₂.depth - 1 = c.depth
    rw [h.depth, hdepth, Nat.add_sub_cancel]

/-- The pass goes through what is taken. -/
theorem steps_of_taken {f : Forest RawTag Leaf}
    (h : Taken q c.exclusive (c.scopes.headD []) (decide (0 < c.depth)) f) :
    ∃ c', f.events.foldlM (step q) c = .ok c' ∧ Same c c' := by
  induction f generalizing c with
  | nil => exact ⟨c, rfl, rfl, rfl, rfl⟩
  | leaf l rest ih =>
    obtain ⟨c₁, hstep, hsame⟩ := leafEvent_taken.1 h.1
    obtain ⟨c', hrest, hsame'⟩ := ih (c := c₁) (by
      rw [hsame.exclusive, hsame.scopes, hsame.depth]
      exact h.2)
    refine ⟨c', ?_, hsame.trans hsame'⟩
    rw [Forest.events, List.foldlM_cons, step, hstep]
    exact hrest
  | empty t rest ih =>
    obtain ⟨inner, hinner⟩ := Option.isSome_iff_exists.mp h.1
    obtain ⟨c₁, hstart, hscopes, hexclusive, hdepth⟩ := startElement_of_tagScope.2 inner hinner
    have hsame : Same c (endElement c₁ t) :=
      endElement_same hscopes hexclusive hdepth ⟨rfl, rfl, rfl⟩
    obtain ⟨c', hrest, hsame'⟩ := ih (c := endElement c₁ t) (by
      rw [hsame.exclusive, hsame.scopes, hsame.depth]
      exact h.2)
    refine ⟨c', ?_, hsame.trans hsame'⟩
    rw [Forest.events, List.foldlM_cons, step, hstart]
    exact hrest
  | node t kids rest ihk ihr =>
    obtain ⟨⟨inner, hinner, hkids⟩, hrest⟩ := h
    obtain ⟨c₁, hstart, hscopes, hexclusive, hdepth⟩ := startElement_of_tagScope.2 inner hinner
    obtain ⟨c₂, hcontent, hsame₂⟩ := ihk (c := c₁) (by
      rw [hexclusive, hscopes, hdepth, decide_eq_true (Nat.succ_pos _)]
      exact hkids)
    have hsame : Same c (endElement c₂ t) := endElement_same hscopes hexclusive hdepth hsame₂
    obtain ⟨c', hafter, hsame'⟩ := ihr (c := endElement c₂ t) (by
      rw [hsame.exclusive, hsame.scopes, hsame.depth]
      exact hrest)
    refine ⟨c', ?_, hsame.trans hsame'⟩
    rw [Forest.events, List.foldlM_cons, step, hstart, ok_bind, List.foldlM_append, hcontent,
      ok_bind, List.foldlM_cons]
    exact hafter

/-- What the pass goes through is taken. -/
theorem taken_of_steps {f : Forest RawTag Leaf} (h : f.events.foldlM (step q) c = .ok c') :
    Taken q c.exclusive (c.scopes.headD []) (decide (0 < c.depth)) f ∧ Same c c' := by
  induction f generalizing c c' with
  | nil =>
    cases h
    exact ⟨trivial, rfl, rfl, rfl⟩
  | leaf l rest ih =>
    rw [Forest.events, List.foldlM_cons] at h
    obtain ⟨c₁, hstep, hrest⟩ := bind_ok h
    obtain ⟨hleaf, hsame⟩ := leafEvent_taken.2 c₁ hstep
    obtain ⟨htaken, hsame'⟩ := ih hrest
    rw [hsame.exclusive, hsame.scopes, hsame.depth] at htaken
    exact ⟨⟨hleaf, htaken⟩, hsame.trans hsame'⟩
  | empty t rest ih =>
    rw [Forest.events, List.foldlM_cons] at h
    obtain ⟨c₁, hstep, hrest⟩ := bind_ok h
    obtain ⟨c₂, hstart, hend⟩ := bind_ok hstep
    cases hend
    obtain ⟨inner, hinner, hscopes, hexclusive, hdepth⟩ := startElement_opens hstart
    have hsame : Same c (endElement c₂ t) :=
      endElement_same hscopes hexclusive hdepth ⟨rfl, rfl, rfl⟩
    obtain ⟨htaken, hsame'⟩ := ih hrest
    rw [hsame.exclusive, hsame.scopes, hsame.depth] at htaken
    exact ⟨⟨Option.isSome_iff_exists.mpr ⟨inner, hinner⟩, htaken⟩, hsame.trans hsame'⟩
  | node t kids rest ihk ihr =>
    rw [Forest.events, List.foldlM_cons] at h
    obtain ⟨c₁, hstart, hrest⟩ := bind_ok h
    rw [List.foldlM_append] at hrest
    obtain ⟨c₂, hcontent, hrest⟩ := bind_ok hrest
    rw [List.foldlM_cons] at hrest
    obtain ⟨c₃, hend, hrest⟩ := bind_ok hrest
    cases hend
    obtain ⟨inner, hinner, hscopes, hexclusive, hdepth⟩ := startElement_opens hstart
    obtain ⟨hkids, hsame₂⟩ := ihk hcontent
    rw [hexclusive, hscopes, hdepth, decide_eq_true (Nat.succ_pos _)] at hkids
    have hsame : Same c (endElement c₂ t) := endElement_same hscopes hexclusive hdepth hsame₂
    obtain ⟨htaken, hsame'⟩ := ihr hrest
    rw [hsame.exclusive, hsame.scopes, hsame.depth] at htaken
    exact ⟨⟨⟨inner, hinner, hkids⟩, htaken⟩, hsame.trans hsame'⟩

/-! ## Documents -/

/-- What the pass does not look at, in a text that it goes through: how many roots there are, what
    characters are outside, and lax references. -/
structure CanonicalSlip (q : QuickXml) (exclusive : Option (List Text)) (d : Forest RawTag Leaf) :
    Prop where
  taken : Taken q exclusive [] false d
  slip : d.children.length ≠ 1 ∨ (∃ l ∈ outerLeaves d, l.isBlank = false) ∨
    ∃ name, .ref name ∈ innerLeaves d ∧ LaxReference name.toList

theorem canonicalize_ok {xml : String} {out : String}
    (h : canonicalize q xml exclusive = .ok out) : (q.reader xml).error = none ∧
      ∃ c, (q.reader xml).events.foldlM (step q) ⟨[], [], [], exclusive, 0, false⟩ = .ok c ∧
        c.depth = 0 := by
  obtain ⟨c, hsteps, h⟩ := bind_ok h
  cases herror : (q.reader xml).error with
  | some e =>
    rw [herror] at h
    cases h
  | none =>
    rw [herror] at h
    refine ⟨rfl, c, hsteps, ?_⟩
    by_contra hdepth
    dsimp only at h
    rw [if_pos hdepth] at h
    cases h

/-- The depth is that of the open tags. -/
theorem depth_of_steps {es : List (Event RawTag Leaf)} {stack stack' : List RawTag}
    (hdepth : c.depth = stack.length) (hopen : openAfter stack es = some stack')
    (h : es.foldlM (step q) c = .ok c') : c'.depth = stack'.length := by
  induction es generalizing stack c with
  | nil =>
    cases hopen
    cases h
    exact hdepth
  | cons e es ih =>
    rw [List.foldlM_cons] at h
    obtain ⟨c₁, hstep, hrest⟩ := bind_ok h
    cases e with
    | start t =>
      obtain ⟨-, -, -, -, hopened⟩ := startElement_opens hstep
      rw [openAfter] at hopen
      exact ih (by rw [hopened, hdepth, List.length_cons]) hopen hrest
    | close t =>
      cases stack with
      | nil => cases hopen
      | cons u stack =>
        rw [openAfter] at hopen
        split at hopen
        · cases hstep
          have hclosed : (endElement c t).depth = stack.length := by
            show c.depth - 1 = _
            rw [hdepth, List.length_cons, Nat.add_sub_cancel]
          exact ih hclosed hopen hrest
        · cases hopen
    | empty t =>
      obtain ⟨c₂, hstart, hend⟩ := bind_ok hstep
      cases hend
      obtain ⟨inner, -, hscopes, hexclusive, hopened⟩ := startElement_opens hstart
      have hsame : Same c (endElement c₂ t) :=
        endElement_same hscopes hexclusive hopened ⟨rfl, rfl, rfl⟩
      rw [openAfter] at hopen
      exact ih (hsame.depth.trans hdepth) hopen hrest
    | leaf l =>
      rw [openAfter] at hopen
      exact ih ((leafEvent_taken.2 c₁ hstep).2.depth.trans hdepth) hopen hrest

/-- A text that the canonicalizer accepts is that of a tree. -/
theorem canonicalize_stream {xml : String} (hnest : q.Nests)
    (h : ∃ out, canonicalize q xml exclusive = .ok out) :
    ∃ d : Forest RawTag Leaf, q.reader xml = d.stream := by
  obtain ⟨out, h⟩ := h
  obtain ⟨herror, c, hsteps, hdepth⟩ := canonicalize_ok h
  obtain ⟨stack, hopen⟩ := Option.isSome_iff_exists.mp (hnest xml)
  have hstart : (⟨[], [], [], exclusive, 0, false⟩ : Canonicalizer).depth =
      ([] : List RawTag).length := rfl
  have hstack := depth_of_steps hstart hopen hsteps
  rw [hdepth] at hstack
  obtain rfl := List.eq_nil_of_length_eq_zero hstack.symm
  obtain ⟨d, hd⟩ := exists_forest hopen
  exact ⟨d, by rw [Forest.stream, hd, ← herror]⟩

/-- The texts that the canonicalizer accepts. -/
theorem canonicalize_accepts_iff {xml : String} {d : Forest RawTag Leaf}
    (hd : q.reader xml = d.stream) :
    (∃ out, canonicalize q xml exclusive = .ok out) ↔ Taken q exclusive [] false d := by
  constructor
  · rintro ⟨out, h⟩
    obtain ⟨-, c, hsteps, -⟩ := canonicalize_ok h
    rw [hd] at hsteps
    exact (taken_of_steps hsteps).1
  · intro h
    obtain ⟨c, hsteps, hsame⟩ := steps_of_taken (c := ⟨[], [], [], exclusive, 0, false⟩) h
    have hdepth : ¬ c.depth ≠ 0 := fun hne => hne hsame.depth
    refine ⟨String.ofList c.out, ?_⟩
    rw [canonicalize, hd, canonicalizeEvents]
    show (List.foldlM (step q) _ d.events >>= _) = _
    rw [hsteps, ok_bind]
    dsimp only [Forest.stream]
    rw [if_neg hdepth]
    rfl

/-- The references inside elements that are taken are resolved. -/
theorem resolved_of_taken {scope : Scope} {inside : Bool} {f : Forest RawTag Leaf}
    (h : Taken q exclusive scope inside f) {name : String}
    (hname : .ref name ∈ innerLeaves f ∨ (inside = true ∧ .ref name ∈ f.leaves)) :
    (resolvedName name.toList).isSome := by
  induction f generalizing scope inside with
  | nil =>
    rcases hname with hname | ⟨-, hname⟩
    · cases hname
    · cases hname
  | leaf l rest ih =>
    rcases hname with hname | ⟨hinside, hname⟩
    · exact ih h.2 (Or.inl hname)
    · rcases List.mem_cons.mp hname with rfl | hname
      · exact h.1.2 hinside name rfl
      · exact ih h.2 (Or.inr ⟨hinside, hname⟩)
  | empty t rest ih => exact ih h.2 (hname.imp_left fun hname => hname)
  | node t kids rest ihk ihr =>
    obtain ⟨⟨inner, -, hkids⟩, hrest⟩ := h
    have hin : .ref name ∈ kids.leaves ∨ .ref name ∈ innerLeaves rest ∨
        (inside = true ∧ .ref name ∈ rest.leaves) := by
      rcases hname with hname | ⟨hinside, hname⟩
      · exact (List.mem_append.mp hname).imp_right Or.inl
      · exact (List.mem_append.mp hname).imp_right fun h => Or.inr ⟨hinside, h⟩
    rcases hin with hin | hin
    · exact ihk hkids (Or.inr ⟨rfl, hin⟩)
    · exact ihr hrest hin

/-- Whatever the canonicalizer accepts is a proper document, but for what the pass does not look
    at. -/
theorem canonicalize_proper_iff {xml : String} {d : Forest RawTag Leaf}
    (hd : q.reader xml = d.stream) :
    ((∃ out, canonicalize q xml exclusive = .ok out) → Proper d) ↔
      ¬ CanonicalSlip q exclusive d := by
  rw [canonicalize_accepts_iff hd]
  constructor
  · intro h hslip
    have hproper := h hslip.taken
    rcases hslip.slip with hroot | ⟨l, hl, hblank⟩ | ⟨name, hname, hlax⟩
    · exact hroot hproper.root
    · rw [hproper.outside l hl] at hblank
      cases hblank
    · have hsome := hproper.references name hname
      rw [((laxReference_iff _).mp hlax).2] at hsome
      cases hsome
  · intro hnot htaken
    refine ⟨?_, fun l hl => ?_, fun name hname => ?_⟩
    · by_contra hroot
      exact hnot ⟨htaken, Or.inl hroot⟩
    · by_contra hblank
      exact hnot ⟨htaken, Or.inr (Or.inl ⟨l, hl, Bool.eq_false_iff.mpr hblank⟩)⟩
    · by_contra hnone
      exact hnot ⟨htaken, Or.inr (Or.inr ⟨name, hname, (laxReference_iff _).mpr
        ⟨resolved_of_taken htaken (Or.inl hname), Option.not_isSome_iff_eq_none.mp hnone⟩⟩)⟩

/-! ## Well-formed documents -/

/-- Where an element has the prefix `xml`, the prefix is declared. -/
def XmlDeclared (outer : Bindings) : Forest RawTag Leaf → Prop
  | .nil => True
  | .leaf _ rest => XmlDeclared outer rest
  | .empty t rest =>
      ((splitName t.name.toList).1 = "xml".toList →
          "xml".toList ∈ (t.bindings ++ outer).map Prod.fst) ∧
        XmlDeclared outer rest
  | .node t kids rest =>
      ((splitName t.name.toList).1 = "xml".toList →
          "xml".toList ∈ (t.bindings ++ outer).map Prod.fst) ∧
        XmlDeclared (t.bindings ++ outer) kids ∧ XmlDeclared outer rest

section WellFormed

variable {outer : Bindings}

/-- The only prefix considered that may be out of scope is `xml`, of the element. -/
theorem outOfScope_iff (ht : t.WellFormed outer)
    (hkey : ∀ p, Scope.containsKey scope p = true ↔ p ∈ (t.bindings ++ outer).map Prod.fst) :
    (candidates exclusive scope t.name.toList
        ((expandedAttributes (t.bindings ++ outer) t).insertionSort Expanded.le)).any
          (fun p => p ≠ [] && !scope.containsKey p) = true ↔
      exclusive ≠ none ∧ (splitName t.name.toList).1 = "xml".toList ∧
        "xml".toList ∉ (t.bindings ++ outer).map Prod.fst := by
  have hout : ∀ p, (p ≠ [] && !Scope.containsKey scope p) = true ↔
      p ≠ [] ∧ p ∉ (t.bindings ++ outer).map Prod.fst := by
    intro p
    rw [← hkey]
    simp
  simp only [List.any_eq_true, hout]
  cases exclusive with
  | none =>
    simp only [candidates, mem_ordered, ne_eq, not_true_eq_false, false_and, iff_false]
    rintro ⟨p, hp, -, hnot⟩
    exact hnot ((hkey p).mp (mem_keys.mp hp))
  | some prefixes =>
    simp only [candidates, mem_ordered, List.mem_cons, List.mem_append, mem_usedByAttributes ht,
      List.mem_filter, hkey, ne_eq, reduceCtorEq, not_false_eq_true, true_and]
    constructor
    · rintro ⟨p, hp, hne, hnot⟩
      rcases hp with rfl | ⟨⟨a, ha, rfl⟩, -, hx⟩ | ⟨-, hin⟩
      · have hx := (ht.element_usable.resolve_left hne).resolve_right hnot
        exact ⟨hx, hx ▸ hnot⟩
      · exact absurd (((ht.attributes_usable a ha).resolve_left hne).resolve_left hx) hnot
      · exact absurd hin hnot
    · rintro ⟨hx, hnot⟩
      exact ⟨"xml".toList, Or.inl hx.symm, by decide, hnot⟩

/-- The scope inside a well-formed tag. The exclusive mode wants the prefix of the element in scope
    even if it is `xml`. -/
theorem tagScope_eq (hq : q.Normalizes) (ht : t.WellFormed outer)
    (hs : ∀ p, scope.lookup p = outer.lookup p) :
    tagScope q exclusive scope t =
      if exclusive = none ∨ ((splitName t.name.toList).1 = "xml".toList →
          "xml".toList ∈ (t.bindings ++ outer).map Prod.fst) then
        some (t.bindings.reverse ++ scope)
      else none := by
  have hscope : ∀ p, (t.bindings.reverse ++ scope).lookup p = (t.bindings ++ outer).lookup p := by
    intro p
    rw [List.lookup_append, List.lookup_append, lookup_reverse (bindings_nodup ht), hs]
  have hkey : ∀ p, Scope.containsKey (t.bindings.reverse ++ scope) p = true ↔
      p ∈ (t.bindings ++ outer).map Prod.fst := by
    intro p
    rw [Scope.containsKey, hscope, mem_keys]
  have hout := @outOfScope_iff t exclusive _ outer ht hkey
  unfold tagScope
  rw [readAttributes_tag hq ht]
  dsimp only
  rw [expandAttributes_eq ht hscope]
  dsimp only
  by_cases hdeclared : exclusive = none ∨ ((splitName t.name.toList).1 = "xml".toList →
      "xml".toList ∈ (t.bindings ++ outer).map Prod.fst)
  · rw [if_pos hdeclared, if_neg]
    rw [hout]
    tauto
  · rw [if_neg hdeclared, if_pos]
    rw [hout]
    tauto

theorem leafTaken_of_wellFormed {inside : Bool} {l : Leaf} (h : l.Sound) : LeafTaken inside l := by
  refine ⟨h.1, fun _ name hname => ?_⟩
  obtain ⟨ch, hch⟩ := Option.isSome_iff_exists.mp (h.2 name hname)
  rw [resolvedName_eq hch]
  rfl

/-- Well-formed content is taken, in exclusive mode where the prefix `xml` of elements is
    declared. -/
theorem taken_iff (hq : q.Normalizes) {f : Forest RawTag Leaf} {inside : Bool}
    (hf : WellFormedIn outer f) (hs : ∀ p, scope.lookup p = outer.lookup p) :
    Taken q exclusive scope inside f ↔ exclusive = none ∨ XmlDeclared outer f := by
  induction f generalizing outer scope inside with
  | nil => exact iff_of_true trivial (Or.inr trivial)
  | leaf l rest ih =>
    rw [Taken, ih hf.2 hs, XmlDeclared]
    exact and_iff_right (leafTaken_of_wellFormed hf.1.sound)
  | empty t rest ih =>
    rw [Taken, ih hf.2 hs, tagScope_eq hq hf.1 hs, XmlDeclared]
    split
    · rename_i hdeclared
      simp only [Option.isSome_some, true_and]
      tauto
    · rename_i hdeclared
      simp only [Option.isSome_none, Bool.false_eq_true, false_and, false_iff]
      tauto
  | node t kids rest ihk ihr =>
    have hinner : ∀ p, (t.bindings.reverse ++ scope).lookup p = (t.bindings ++ outer).lookup p := by
      intro p
      rw [List.lookup_append, List.lookup_append, lookup_reverse (bindings_nodup hf.1), hs]
    rw [Taken, ihr hf.2.2 hs, tagScope_eq hq hf.1 hs, XmlDeclared]
    split
    · rename_i hdeclared
      simp only [Option.some.injEq, exists_eq_left', ihk hf.2.1 hinner]
      tauto
    · rename_i hdeclared
      simp only [reduceCtorEq, false_and, exists_false, false_iff]
      tauto

theorem taken_leaves {ls : List Leaf} {inside : Bool} {f : Forest RawTag Leaf}
    (hls : ∀ l ∈ ls, l.Sound) :
    Taken q exclusive scope inside (ls.foldr Forest.leaf f) ↔ Taken q exclusive scope inside f := by
  induction ls with
  | nil => exact Iff.rfl
  | cons l ls ih =>
    rw [List.foldr_cons, Taken, ih fun l' hl' => hls l' (List.mem_cons_of_mem l hl')]
    exact and_iff_right (leafTaken_of_wellFormed (hls l List.mem_cons_self))

end WellFormed

/-- A well-formed document is taken. -/
theorem document_taken_iff (hq : q.Normalizes) {d : DocumentNode} (hd : d.WellFormed) :
    Taken q exclusive [] false d.forest ↔ exclusive = none ∨ XmlDeclared [] (d.element .nil) := by
  have hbefore : ∀ l ∈ d.declaration.toList.map Leaf.decl ++ d.prolog, l.Sound := by
    intro l hl
    rcases List.mem_append.mp hl with hdecl | hmisc
    · obtain ⟨raw, -, rfl⟩ := List.mem_map.mp hdecl
      exact Leaf.sound_decl raw
    · exact Leaf.sound_of_isMisc (hd.prolog l hmisc)
  have hafter : Taken q exclusive [] false (d.epilog.foldr Forest.leaf .nil) :=
    (taken_leaves fun l hl => Leaf.sound_of_isMisc (hd.epilog l hl)).mpr trivial
  have helement : Taken q exclusive [] false (d.element (d.epilog.foldr Forest.leaf .nil)) ↔
      Taken q exclusive [] false (d.element .nil) := by
    unfold DocumentNode.element
    cases d.content with
    | none => exact and_congr_right fun _ => iff_of_true hafter trivial
    | some kids => exact and_congr_right fun _ => iff_of_true hafter trivial
  rw [DocumentNode.forest, taken_leaves hbefore, helement]
  exact taken_iff hq hd.element fun p => rfl

end C14n

open C14n

theorem sound_of_wellFormedIn {outer : Bindings} {f : Forest RawTag Leaf}
    (h : WellFormedIn outer f) : ∀ l ∈ f.leaves, l.Sound := by
  induction f generalizing outer with
  | nil => exact List.forall_mem_nil _
  | leaf l rest ih => exact List.forall_mem_cons.mpr ⟨h.1.sound, ih h.2⟩
  | empty t rest ih => exact ih h.2
  | node t kids rest ihk ihr => exact List.forall_mem_append.mpr ⟨ihk h.2.1, ihr h.2.2⟩

theorem Lib.Xml.Leaf.Sound.admitted {l : Leaf} (h : l.Sound) : Admitted l := by
  refine ⟨h.1, fun name hname => ?_⟩
  obtain ⟨ch, hch⟩ := Option.isSome_iff_exists.mp (h.2 name hname)
  rw [resolvedName_eq hch]
  rfl

/-- A well-formed document has one root and nothing that `parse` rejects. -/
theorem document_admitted {d : DocumentNode} (hd : d.WellFormed) :
    d.forest.children.length = 1 ∧ ∀ l ∈ d.forest.leaves, Admitted l := by
  have hleaves : ∀ (ls : List Leaf) (f : Forest RawTag Leaf),
      (ls.foldr Forest.leaf f).children = f.children := by
    intro ls f
    induction ls with
    | nil => rfl
    | cons l ls ih => exact ih
  constructor
  · rw [DocumentNode.forest, hleaves]
    unfold DocumentNode.element
    cases d.content with
    | none => rw [Forest.children, hleaves]; rfl
    | some kids => rw [Forest.children, hleaves]; rfl
  · intro l hl
    rw [(forest_parts d).2.2] at hl
    rcases List.mem_append.mp hl with hbefore | hl
    · rcases List.mem_append.mp hbefore with hdecl | hmisc
      · obtain ⟨raw, -, rfl⟩ := List.mem_map.mp hdecl
        exact (Leaf.sound_decl raw).admitted
      · exact (Leaf.sound_of_isMisc (hd.prolog l hmisc)).admitted
    · rcases List.mem_append.mp hl with hinside | hafter
      · exact (sound_of_wellFormedIn hd.element l hinside).admitted
      · exact (Leaf.sound_of_isMisc (hd.epilog l hafter)).admitted

theorem readerOf_nests (text : String) (d : DocumentNode) : (readerOf text d).Nests := by
  intro s
  show Nested (if s = text then d.forest.stream else ⟨[], some "syntax error"⟩).events
  split
  · exact nested_events d.forest
  · rfl

/-- `<a>&#+65;</a>` -/
def signedReference : DocumentNode := ⟨none, [], ⟨"a", []⟩, some (.leaf (.ref "#+65") .nil), []⟩

end DianService
