import DianService.Canonical.Conformance
import DianService.Crypto.XmlUtil
import DianService.Lib.Xml.Tokens

/-
  Namespaces in scope at a node. `namespaces_in_scope_before` reads the text up to the node and
  keeps the declarations of the open elements; the canonicalizer carries the scope of each open
  element along. Both are measured against `inScope`, on the tags that are open.
-/

namespace DianService

open Lib.Xml

/-- The reader delivers the events that the text spells. -/
structure QuickXml.Reads (q : QuickXml) (text : Text) (es : List (Event RawTag Leaf)) : Prop where
  spelled : SpellsTokens text es
  delivered : q.reader (String.ofList text) = ⟨es, none⟩

/-- A node of a document, after the events `passed`, which `before` spells. -/
structure NodeAt (d : DocumentNode) (before : Text) (passed : List (Event RawTag Leaf)) : Prop where
  spelled : SpellsTokens before passed
  followed : ∃ after e rest, SpellsTokens after (e :: rest) ∧
    d.forest.events = passed ++ e :: rest ∧ SpellsDocument (before ++ after) d

namespace C14n

open XmlUtil

variable {q : QuickXml}

/-! ## The declarations of the open elements -/

theorem readDeclarations_eq (hq : q.Normalizes) {attributes : List Attribute}
    (h : ∀ a ∈ attributes, (attributeValue a.raw.toList).isSome) (acc : List (Text × Text)) :
    attributes.foldlM (readDeclaration q) acc = .ok (acc ++ attributes.filterMap fun a =>
      (declared? a.key.toList).map fun p => (p, a.value)) := by
  induction attributes generalizing acc with
  | nil =>
    rw [List.filterMap_nil, List.append_nil]
    rfl
  | cons a as ih =>
    have ihs := ih fun b hb => h b (List.mem_cons_of_mem a hb)
    rw [List.foldlM_cons, readDeclaration]
    cases hdeclared : declared? a.key.toList with
    | none =>
      rw [List.filterMap_cons, hdeclared]
      exact ihs acc
    | some p =>
      rw [normalized_value_eq hq (h a List.mem_cons_self), List.filterMap_cons, hdeclared]
      refine (ihs _).trans ?_
      simp

theorem readDeclarations_tag (hq : q.Normalizes) {outer : Bindings} {t : RawTag}
    (h : t.WellFormed outer) :
    t.attributes.foldlM (readDeclaration q) [] = .ok t.bindings :=
  readDeclarations_eq hq h.values []

/-- The stack of the scan holds the declarations of the open tags. -/
theorem scopeSteps_eq (hq : q.Normalizes) {es : List (Event RawTag Leaf)}
    {stack stack' : List RawTag} (hwf : WellFormedFrom stack es)
    (hopen : openAfter stack es = some stack') :
    es.foldlM (scopeStep q) (stack.map RawTag.bindings) = .ok (stack'.map RawTag.bindings) := by
  induction es generalizing stack with
  | nil =>
    cases hopen
    rfl
  | cons e es ih =>
    rw [List.foldlM_cons]
    cases e with
    | start t =>
      rw [scopeStep, readDeclarations_tag hq hwf.1]
      rw [openAfter] at hopen
      exact ih hwf.2 hopen
    | close t =>
      cases stack with
      | nil => cases hopen
      | cons u stack =>
        rw [openAfter] at hopen
        split at hopen
        · exact ih hwf hopen
        · cases hopen
    | empty t | leaf l =>
      rw [openAfter] at hopen
      exact ih hwf.2 hopen

theorem lookup_flatMap_reverse {bs : List Bindings} (h : ∀ b ∈ bs, (b.map Prod.fst).Nodup)
    (p : Text) : (bs.flatMap List.reverse).lookup p = bs.flatten.lookup p := by
  induction bs with
  | nil => rfl
  | cons b bs ih =>
    rw [List.flatMap_cons, List.flatten_cons, List.lookup_append, List.lookup_append,
      lookup_reverse (h b List.mem_cons_self), ih fun b' hb' => h b' (List.mem_cons_of_mem b hb')]

theorem wellFormed_of_start {es : List (Event RawTag Leaf)} {stack : List RawTag}
    (hwf : WellFormedFrom stack es) {t : RawTag} (ht : .start t ∈ es) :
    ∃ outer, t.WellFormed outer := by
  induction es generalizing stack with
  | nil => cases ht
  | cons e es ih =>
    rcases List.mem_cons.mp ht with rfl | hlater
    · exact ⟨_, hwf.1⟩
    · cases e with
      | close u =>
        have hrest : WellFormedFrom stack.tail es := hwf
        exact ih hrest hlater
      | start u | empty u | leaf l => exact ih hwf.2 hlater

/-! ## The scope of the canonicalizer -/

/-- Each scope is that of the tag opened with it. -/
def Accumulates : List RawTag → List Scope → Prop
  | [], [] => True
  | t :: stack, scope :: scopes =>
      (∀ p, scope.lookup p = (inScope (t :: stack)).lookup p) ∧ Accumulates stack scopes
  | _, _ => False

theorem Accumulates.head {stack : List RawTag} {scopes : List Scope} (h : Accumulates stack scopes)
    (p : Text) : (scopes.headD []).lookup p = (inScope stack).lookup p := by
  cases stack with
  | nil =>
    cases scopes with
    | nil => rfl
    | cons scope scopes => exact h.elim
  | cons t stack =>
    cases scopes with
    | nil => exact h.elim
    | cons scope scopes => exact h.1 p

/-- The scope inside a tag. -/
theorem Accumulates.push {stack : List RawTag} {scopes : List Scope} (h : Accumulates stack scopes)
    {t : RawTag} (ht : t.WellFormed (inScope stack)) :
    Accumulates (t :: stack) ((t.bindings.reverse ++ scopes.headD []) :: scopes) := by
  refine ⟨fun p => ?_, h⟩
  rw [inScope, List.flatMap_cons, List.lookup_append, List.lookup_append,
    lookup_reverse (bindings_nodup ht), h.head, inScope]

theorem ok_bind {α β : Type} (a : α) (f : α → Except CryptoError β) : (Except.ok a >>= f) = f a :=
  rfl

theorem startElement_scopes (hq : q.Normalizes) {c c' : Canonicalizer} {t : RawTag}
    {outer : Bindings} (ht : t.WellFormed outer) (h : startElement q c t = .ok c') :
    c'.scopes = (t.bindings.reverse ++ c.scopes.headD []) :: c.scopes := by
  unfold startElement at h
  rw [readAttributes_tag hq ht, ok_bind] at h
  dsimp only at h
  obtain ⟨attributes, -, hdeclare⟩ := bind_ok h
  split at hdeclare
  · cases hdeclare
  · cases hdeclare
    rfl

theorem leafEvent_scopes {c c' : Canonicalizer} {l : Leaf} (h : leafEvent c l = .ok c') :
    c'.scopes = c.scopes ∧ c'.exclusive = c.exclusive := by
  cases l with
  | text raw | cdata raw =>
    simp only [leafEvent] at h
    split at h
    · cases h
      exact ⟨rfl, rfl⟩
    · cases h
      exact ⟨rfl, rfl⟩
  | ref name =>
    simp only [leafEvent] at h
    split at h
    · obtain ⟨resolved, -, hpush⟩ := bind_ok h
      cases hpush
      exact ⟨rfl, rfl⟩
    · cases h
      exact ⟨rfl, rfl⟩
  | doctype raw => cases h
  | pi raw | comment raw | decl raw =>
    cases h
    exact ⟨rfl, rfl⟩

/-- The stack of scopes follows that of the open tags. -/
theorem steps_accumulate (hq : q.Normalizes) {es : List (Event RawTag Leaf)}
    {stack stack' : List RawTag} {c c' : Canonicalizer} (hwf : WellFormedFrom stack es)
    (hopen : openAfter stack es = some stack') (hc : Accumulates stack c.scopes)
    (h : es.foldlM (step q) c = .ok c') : Accumulates stack' c'.scopes := by
  induction es generalizing stack c with
  | nil =>
    cases hopen
    cases h
    exact hc
  | cons e es ih =>
    rw [List.foldlM_cons] at h
    obtain ⟨c₁, hstep, hrest⟩ := bind_ok h
    cases e with
    | start t =>
      have hc₁ : Accumulates (t :: stack) c₁.scopes := by
        rw [startElement_scopes hq hwf.1 hstep]
        exact hc.push hwf.1
      exact ih hwf.2 hopen hc₁ hrest
    | close t =>
      cases stack with
      | nil => cases hopen
      | cons u stack =>
        rw [openAfter] at hopen
        split at hopen
        · cases hstep
          have htail : Accumulates stack c.scopes.tail := by
            cases hscopes : c.scopes with
            | nil =>
              rw [hscopes] at hc
              exact hc.elim
            | cons scope scopes =>
              rw [hscopes] at hc
              exact hc.2
          have hwf' : WellFormedFrom stack es := hwf
          exact ih hwf' hopen htail hrest
        · cases hopen
    | empty t =>
      obtain ⟨c₂, hstart, hend⟩ := bind_ok hstep
      cases hend
      have hsame : (endElement c₂ t).scopes = c.scopes := by
        rw [endElement, startElement_scopes hq hwf.1 hstart, List.tail_cons]
      rw [openAfter] at hopen
      rw [← hsame] at hc
      exact ih hwf.2 hopen hc hrest
    | leaf l =>
      rw [openAfter] at hopen
      rw [← (leafEvent_scopes hstep).1] at hc
      exact ih hwf.2 hopen hc hrest

/-! ## The inclusive pass reaches every node -/

/-- In inclusive mode the prefixes that are considered are those in scope. -/
theorem startElement_inclusive (hq : q.Normalizes) {c : Canonicalizer} {stack : List RawTag}
    {t : RawTag} (hc : Accumulates stack c.scopes) (ht : t.WellFormed (inScope stack))
    (hinclusive : c.exclusive = none) :
    ∃ c', startElement q c t = .ok c' ∧ c'.exclusive = none := by
  have hscope : ∀ p, (t.bindings.reverse ++ c.scopes.headD []).lookup p =
      (t.bindings ++ inScope stack).lookup p := (hc.push ht).1
  have hall : (candidates c.exclusive (t.bindings.reverse ++ c.scopes.headD []) t.name.toList
      ((expandedAttributes (t.bindings ++ inScope stack) t).insertionSort Expanded.le)).find?
        (fun p => p ≠ [] && !Scope.containsKey (t.bindings.reverse ++ c.scopes.headD []) p) =
          none := by
    rw [hinclusive, candidates, List.find?_eq_none]
    intro p hp
    have hkey : Scope.containsKey (t.bindings.reverse ++ c.scopes.headD []) p = true :=
      mem_keys.mp (mem_ordered.mp hp)
    rw [hkey, Bool.not_true, Bool.and_false]
    exact Bool.false_ne_true
  unfold startElement
  rw [readAttributes_tag hq ht, ok_bind]
  dsimp only
  rw [expandAttributes_eq ht hscope, ok_bind, hall]
  exact ⟨_, rfl, hinclusive⟩

theorem leafEvent_sound (c : Canonicalizer) {l : Leaf} (hl : l.Sound) :
    ∃ c', leafEvent c l = .ok c' := by
  cases l with
  | ref name =>
    obtain ⟨ch, hch⟩ := Option.isSome_iff_exists.mp (hl.2 name rfl)
    simp only [leafEvent, resolveReference, resolvedName_eq hch]
    split
    · exact ⟨_, rfl⟩
    · exact ⟨_, rfl⟩
  | doctype raw => exact absurd rfl (hl.1 raw)
  | text | cdata | pi | comment | decl => exact ⟨_, rfl⟩

theorem steps_inclusive (hq : q.Normalizes) {es : List (Event RawTag Leaf)}
    {stack stack' : List RawTag} {c : Canonicalizer} (hwf : WellFormedFrom stack es)
    (hopen : openAfter stack es = some stack') (hc : Accumulates stack c.scopes)
    (hinclusive : c.exclusive = none) : ∃ c', es.foldlM (step q) c = .ok c' := by
  induction es generalizing stack c with
  | nil => exact ⟨c, rfl⟩
  | cons e es ih =>
    -- one step is taken, and the rest from where it leads
    have hnext : ∀ {stack₁ : List RawTag} {c₁ : Canonicalizer}, step q c e = .ok c₁ →
        WellFormedFrom stack₁ es → openAfter stack₁ es = some stack' →
        Accumulates stack₁ c₁.scopes → c₁.exclusive = none →
        ∃ c', (e :: es).foldlM (step q) c = .ok c' := by
      intro stack₁ c₁ hstep hwf₁ hopen₁ hc₁ hexclusive
      obtain ⟨c', hc'⟩ := ih hwf₁ hopen₁ hc₁ hexclusive
      refine ⟨c', ?_⟩
      rw [List.foldlM_cons, hstep]
      exact hc'
    cases e with
    | start t =>
      obtain ⟨c₁, hstep, hexclusive⟩ := startElement_inclusive hq hc hwf.1 hinclusive
      refine hnext hstep hwf.2 hopen ?_ hexclusive
      rw [startElement_scopes hq hwf.1 hstep]
      exact hc.push hwf.1
    | close t =>
      cases stack with
      | nil => cases hopen
      | cons u stack =>
        rw [openAfter] at hopen
        split at hopen
        · cases hscopes : c.scopes with
          | nil =>
            rw [hscopes] at hc
            exact hc.elim
          | cons scope scopes =>
            rw [hscopes] at hc
            refine hnext rfl hwf hopen ?_ hinclusive
            rw [endElement, hscopes]
            exact hc.2
        · cases hopen
    | empty t =>
      obtain ⟨c₁, hstep, hexclusive⟩ := startElement_inclusive hq hc hwf.1 hinclusive
      have hend : step q c (.empty t) = .ok (endElement c₁ t) := by
        rw [step, hstep]
        rfl
      rw [openAfter] at hopen
      refine hnext hend hwf.2 hopen ?_ hexclusive
      rw [endElement, startElement_scopes hq hwf.1 hstep]
      exact hc
    | leaf l =>
      obtain ⟨c₁, hstep⟩ := leafEvent_sound c hwf.1
      obtain ⟨hscopes, hexclusive⟩ := leafEvent_scopes hstep
      rw [openAfter] at hopen
      rw [← hscopes] at hc
      exact hnext hstep hwf.2 hopen hc (hexclusive.trans hinclusive)

end C14n

open C14n XmlUtil

/-- `<a xmlns="urn:a">T</a>` -/
def namedText : DocumentNode :=
  ⟨none, [], ⟨"a", [⟨"xmlns", "urn:a"⟩]⟩, some (.leaf (.text "T") .nil), []⟩

def namedReader : QuickXml where
  reader _ := ⟨[.start namedText.root], none⟩
  normalized_value := (readerOf "" namedText).normalized_value

end DianService
