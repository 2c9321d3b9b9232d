import DianService.Canonical.Scopes
import DianService.Lib.Xml.Spelled
import Mathlib.Data.List.Pairwise

/-
  Crypto: what `elements_with_prefixed_id` returns. `placed` lists the elements of a tree in
  document order, each with where its `<` stands. The scan finds them when they end, an element
  after those in it; sorting by the start gives the document order back.

  References to entities that a DTD declares are an error of the reader, here as in the
  canonicalizer (`declared_entity_refused`).
-/

namespace DianService

open Lib.Xml

namespace XmlUtil

/-! ## Identifiers -/

theorem isPrefixedId_iff {key : Text} : isPrefixedId key = true ↔
    ∃ p, key = p ++ ":Id".toList ∧ ':' ∉ p ∧ p ≠ "xmlns".toList := by
  simp only [isPrefixedId, Bool.and_eq_true, decide_eq_true_eq]
  constructor
  · intro h
    obtain ⟨⟨hcolon, hlocal⟩, hxmlns⟩ := h
    refine ⟨(splitName key).1, ?_, ?_, hxmlns⟩
    · have hsplit := splitName_of_colon hcolon
      rw [hlocal] at hsplit
      exact hsplit
    · rw [splitName, if_pos hcolon]
      intro hmem
      have hall := List.all_takeWhile (p := (· ≠ ':')) (l := key)
      simpa using List.all_eq_true.mp hall _ hmem
  · intro h
    obtain ⟨p, rfl, hp, hxmlns⟩ := h
    have hcolon : ':' ∈ p ++ ":Id".toList := List.mem_append_right _ List.mem_cons_self
    have hsplit : (p ++ ":Id".toList).takeWhile (· ≠ ':') = p ∧
        (p ++ ":Id".toList).dropWhile (· ≠ ':') = ":Id".toList := by
      refine takeWhile_append_stop (fun c hc => ?_) fun c hc => ?_
      · rw [decide_eq_true_eq]
        exact fun heq => hp (heq ▸ hc)
      · cases hc
        rfl
    rw [splitName, if_pos hcolon, hsplit.1, hsplit.2]
    exact ⟨⟨hcolon, rfl⟩, hxmlns⟩

def namesId (a : Attribute) : Bool := isPrefixedId a.key.toList

/-- The value of the last such attribute. -/
def lastId (attributes : List Attribute) : Option String :=
  (attributes.filter namesId).getLast?.map fun a => String.ofList a.value

def prefixedId (t : RawTag) : Option String := lastId t.attributes

/-- The attributes of this kind refer to nothing that a DTD declares. -/
def IdsResolved : Event RawTag Leaf → Prop
  | .start t | .empty t => ∀ a ∈ t.attributes, namesId a → (attributeValue a.raw.toList).isSome
  | .close _ | .leaf _ => True

theorem prefixedId_isSome {t : RawTag} : (prefixedId t).isSome ↔
    ∃ a ∈ t.attributes, ∃ p, a.key.toList = p ++ ":Id".toList ∧ ':' ∉ p ∧ p ≠ "xmlns".toList := by
  simp only [prefixedId, lastId, Option.isSome_map, ← isPrefixedId_iff]
  constructor
  · intro h
    obtain ⟨a, ha⟩ := Option.isSome_iff_exists.mp h
    obtain ⟨hmem, hid⟩ := List.mem_filter.mp (List.mem_of_getLast? ha)
    exact ⟨a, hmem, hid⟩
  · intro h
    obtain ⟨a, hmem, hid⟩ := h
    have ha : a ∈ t.attributes.filter namesId := List.mem_filter.mpr ⟨hmem, hid⟩
    rw [List.getLast?_eq_some_getLast (List.ne_nil_of_mem ha)]
    rfl

theorem readIds_eq {q : QuickXml} (hq : q.Normalizes) {attributes : List Attribute}
    (h : ∀ a ∈ attributes, namesId a → (attributeValue a.raw.toList).isSome)
    (id : Option String) :
    attributes.foldlM (readId q) id = .ok ((lastId attributes).or id) := by
  induction attributes generalizing id with
  | nil => rfl
  | cons a as ih =>
    obtain ⟨ha, has⟩ := List.forall_mem_cons.mp h
    rw [List.foldlM_cons, readId]
    by_cases hid : namesId a = true
    · rw [if_pos (show isPrefixedId a.key.toList = true from hid),
        C14n.normalized_value_eq hq (ha hid)]
      refine (ih has _).trans (congrArg _ ?_)
      rw [lastId, lastId, List.filter_cons_of_pos hid, List.getLast?_cons]
      cases (as.filter namesId).getLast? <;> rfl
    · rw [if_neg (show ¬ isPrefixedId a.key.toList = true from hid)]
      refine (ih has id).trans (congrArg _ ?_)
      rw [lastId, lastId, List.filter_cons_of_neg hid]

theorem readIds_tag {q : QuickXml} (hq : q.Normalizes) {t : RawTag}
    (h : ∀ a ∈ t.attributes, namesId a → (attributeValue a.raw.toList).isSome) :
    t.attributes.foldlM (readId q) none = .ok (prefixedId t) := by
  rw [readIds_eq hq h, Option.or_none]
  rfl

/-! ## Elements and where they stand -/

structure PlacedElement where
  tag : SpelledTag
  content : Option (Forest SpelledTag Leaf)
  start : ℕ

namespace PlacedElement

/-- From its `<` to the `>` of its end tag or of its only tag. -/
def text (e : PlacedElement) : Text := (e.tag.element e.content).spelling

def stop (e : PlacedElement) : ℕ := e.start + e.text.length

/-- What the scan says of an element. -/
def entry (e : PlacedElement) : Option (String × ℕ × ℕ) :=
  (prefixedId e.tag.tag).map fun id => (id, e.start, e.stop)

end PlacedElement

/-- The elements in document order, where the first node begins at the position. -/
def placed : ℕ → Forest SpelledTag Leaf → List PlacedElement
  | _, .nil => []
  | n, .leaf l rest => placed (n + l.spelling.length) rest
  | n, .empty t rest => ⟨t, none, n⟩ :: placed (PlacedElement.stop ⟨t, none, n⟩) rest
  | n, .node t kids rest =>
      ⟨t, some kids, n⟩ :: (placed (n + (Event.token (.start t)).length) kids ++
        placed (PlacedElement.stop ⟨t, some kids, n⟩) rest)

/-- The elements in the order of their ends. -/
def closedInOrder : ℕ → Forest SpelledTag Leaf → List PlacedElement
  | _, .nil => []
  | n, .leaf l rest => closedInOrder (n + l.spelling.length) rest
  | n, .empty t rest => ⟨t, none, n⟩ :: closedInOrder (PlacedElement.stop ⟨t, none, n⟩) rest
  | n, .node t kids rest =>
      closedInOrder (n + (Event.token (.start t)).length) kids ++
        ⟨t, some kids, n⟩ :: closedInOrder (PlacedElement.stop ⟨t, some kids, n⟩) rest

theorem element_none (t : SpelledTag) : (t.element none).spelling = Event.token (.empty t) := by
  rw [Forest.spelling_eq]
  exact List.append_nil _

theorem element_some (t : SpelledTag) (kids : Forest SpelledTag Leaf) :
    (t.element (some kids)).spelling =
      Event.token (.start t) ++ (kids.spelling ++ Event.token (.close t)) := by
  rw [Forest.spelling_eq, Forest.spelling_eq, SpelledTag.element]
  simp

theorem spelling_empty (t : SpelledTag) (rest : Forest SpelledTag Leaf) :
    (Forest.empty t rest).spelling = (t.element none).spelling ++ rest.spelling := by
  rw [element_none, Forest.spelling_eq, Forest.spelling_eq]
  rfl

theorem spelling_node (t : SpelledTag) (kids rest : Forest SpelledTag Leaf) :
    (Forest.node t kids rest).spelling = (t.element (some kids)).spelling ++ rest.spelling := by
  rw [element_some, Forest.spelling_eq, Forest.spelling_eq, Forest.spelling_eq]
  simp

theorem closedInOrder_perm (n : ℕ) (g : Forest SpelledTag Leaf) :
    (closedInOrder n g).Perm (placed n g) := by
  induction g generalizing n with
  | nil => exact .nil
  | leaf l rest ih => exact ih _
  | empty t rest ih => exact (ih _).cons _
  | node t kids rest ihk ihr =>
    have hfirst : (closedInOrder n (.node t kids rest)).Perm (⟨t, some kids, n⟩ ::
        (closedInOrder (n + (Event.token (.start t)).length) kids ++
          closedInOrder (PlacedElement.stop ⟨t, some kids, n⟩) rest)) := List.perm_middle
    exact hfirst.trans (((ihk _).append (ihr _)).cons _)

/-- The text of an element stands at its place. -/
theorem placed_split {n : ℕ} {g : Forest SpelledTag Leaf} {e : PlacedElement}
    (he : e ∈ placed n g) : ∃ before after,
      g.spelling = before ++ (e.text ++ after) ∧ e.start = n + before.length := by
  induction g generalizing n with
  | nil => cases he
  | leaf l rest ih =>
    obtain ⟨before, after, htext, hstart⟩ := ih he
    refine ⟨l.spelling ++ before, after, ?_, ?_⟩
    · rw [List.append_assoc, ← htext]
      rfl
    · rw [hstart, List.length_append, Nat.add_assoc]
  | empty t rest ih =>
    rw [spelling_empty]
    rcases List.mem_cons.mp he with rfl | hlater
    · exact ⟨[], rest.spelling, rfl, rfl⟩
    · obtain ⟨before, after, htext, hstart⟩ := ih hlater
      refine ⟨(t.element none).spelling ++ before, after, ?_, ?_⟩
      · rw [List.append_assoc, ← htext]
      · rw [hstart, List.length_append, ← Nat.add_assoc]
        rfl
  | node t kids rest ihk ihr =>
    rw [spelling_node]
    rcases List.mem_cons.mp he with rfl | hlater
    · exact ⟨[], rest.spelling, rfl, rfl⟩
    rcases List.mem_append.mp hlater with hinside | hafter
    · obtain ⟨before, after, htext, hstart⟩ := ihk hinside
      refine ⟨Event.token (.start t) ++ before,
        after ++ (Event.token (.close t) ++ rest.spelling), ?_, ?_⟩
      · rw [element_some, htext]
        simp only [List.append_assoc]
      · rw [hstart, List.length_append, Nat.add_assoc]
    · obtain ⟨before, after, htext, hstart⟩ := ihr hafter
      refine ⟨(t.element (some kids)).spelling ++ before, after, ?_, ?_⟩
      · rw [List.append_assoc, ← htext]
      · rw [hstart, List.length_append, ← Nat.add_assoc]
        rfl

theorem text_length_pos (e : PlacedElement) : 0 < e.text.length := by
  obtain ⟨t, content, n⟩ := e
  rw [PlacedElement.text]
  cases content with
  | none =>
    rw [element_none]
    exact Nat.succ_pos _
  | some kids =>
    rw [element_some]
    exact Nat.succ_pos _

theorem placed_bounds {n : ℕ} {g : Forest SpelledTag Leaf} {e : PlacedElement}
    (he : e ∈ placed n g) : n ≤ e.start ∧ e.start < n + g.spelling.length := by
  obtain ⟨before, after, htext, hstart⟩ := placed_split he
  have hpos := text_length_pos e
  rw [htext, List.length_append, List.length_append]
  omega

/-- In document order the starts grow. -/
theorem placed_ascending (n : ℕ) (g : Forest SpelledTag Leaf) :
    (placed n g).Pairwise fun e e' => e.start < e'.start := by
  induction g generalizing n with
  | nil => exact .nil
  | leaf l rest ih => exact ih _
  | empty t rest ih =>
    refine List.Pairwise.cons (fun e he => ?_) (ih _)
    have hpos := text_length_pos ⟨t, none, n⟩
    exact Nat.lt_of_lt_of_le (Nat.lt_add_of_pos_right hpos) (placed_bounds he).1
  | node t kids rest ihk ihr =>
    refine List.Pairwise.cons (fun e he => ?_)
      (List.pairwise_append.mpr ⟨ihk _, ihr _, fun e he e' he' => ?_⟩)
    · rcases List.mem_append.mp he with hinside | hafter
      · have htoken : 0 < (Event.token (.start t)).length := Nat.succ_pos _
        have hbounds := (placed_bounds hinside).1
        show n < e.start
        omega
      · have hpos := text_length_pos ⟨t, some kids, n⟩
        exact Nat.lt_of_lt_of_le (Nat.lt_add_of_pos_right hpos) (placed_bounds hafter).1
    · have hinside := (placed_bounds he).2
      have hafter := (placed_bounds he').1
      have hlength : PlacedElement.stop ⟨t, some kids, n⟩ = n +
          ((Event.token (.start t)).length +
            (kids.spelling.length + (Event.token (.close t)).length)) := by
        rw [PlacedElement.stop, PlacedElement.text, element_some, List.length_append,
          List.length_append]
      omega

theorem placed_slice {g : Forest SpelledTag Leaf} {e : PlacedElement} (he : e ∈ placed 0 g) :
    (g.spelling.drop e.start).take (e.stop - e.start) = e.text := by
  obtain ⟨before, after, htext, hstart⟩ := placed_split he
  rw [Nat.zero_add] at hstart
  rw [PlacedElement.stop, Nat.add_sub_cancel_left, htext, hstart, List.drop_left, List.take_left]

/-! ## The scan -/

/-- The events with the positions before and after each. -/
def located : ℕ → List (Event SpelledTag Leaf) → List (Event RawTag Leaf × ℕ × ℕ)
  | _, [] => []
  | n, e :: es => (e.mapTag SpelledTag.tag, n, n + e.token.length) ::
      located (n + e.token.length) es

theorem zip_tokenEnds (n : ℕ) (es : List (Event SpelledTag Leaf)) :
    (es.map (Event.mapTag SpelledTag.tag)).zip ((n :: tokenEnds n (es.map Event.token)).zip
      (tokenEnds n (es.map Event.token))) = located n es := by
  induction es generalizing n with
  | nil => rfl
  | cons e es ih => exact congrArg (_ :: ·) (ih (n + e.token.length))

theorem located_append (n : ℕ) (es fs : List (Event SpelledTag Leaf)) :
    located n (es ++ fs) = located n es ++ located (n + (es.flatMap Event.token).length) fs := by
  induction es generalizing n with
  | nil => rfl
  | cons e es ih =>
    rw [List.cons_append, located, located, ih, List.flatMap_cons, List.length_append,
      Nat.add_assoc]
    rfl

variable {q : QuickXml}

theorem idStep_start (hq : q.Normalizes) {t : RawTag} (ht : IdsResolved (.start t))
    (s : IdScan) (n m : ℕ) : idStep q s (.start t, n, m) = .ok
      ⟨s.found, ((prefixedId t).map fun id => (id, n, s.depth)).toList ++ s.opened,
        s.depth + 1⟩ := by
  rw [idStep, readIds_tag hq ht]
  cases prefixedId t <;> rfl

theorem idStep_empty (hq : q.Normalizes) {t : RawTag} (ht : IdsResolved (.empty t))
    (s : IdScan) (n m : ℕ) : idStep q s (.empty t, n, m) = .ok
      { s with found := s.found ++ ((prefixedId t).map fun id => (id, n, m)).toList } := by
  rw [idStep, readIds_tag hq ht]
  cases prefixedId t with
  | none =>
    rw [Option.map_none, Option.toList_none, List.append_nil]
    rfl
  | some id => rfl

/-- An end tag ends the element that was opened at this depth. -/
theorem idStep_close (t : RawTag) {found opened : List (String × ℕ × ℕ)} {depth : ℕ}
    (hopened : ∀ x ∈ opened, x.2.2 < depth) (id : Option String) (n k m : ℕ) :
    idStep q ⟨found, (id.map fun id => (id, n, depth)).toList ++ opened, depth + 1⟩
      (.close t, k, m) =
        .ok ⟨found ++ (id.map fun id => (id, n, m)).toList, opened, depth⟩ := by
  cases id with
  | some id =>
    simp only [idStep, Option.map_some, Option.toList_some, List.singleton_append,
      Nat.add_sub_cancel, if_pos]
  | none =>
    rw [Option.map_none, Option.map_none, Option.toList_none, List.nil_append, List.append_nil]
    cases opened with
    | nil => rfl
    | cons x opened =>
      have hne : x.2.2 ≠ depth := (hopened x List.mem_cons_self).ne
      simp only [idStep, Nat.add_sub_cancel, if_neg hne]

theorem entries_cons (e : PlacedElement) (es : List PlacedElement) :
    (e :: es).filterMap PlacedElement.entry =
      e.entry.toList ++ es.filterMap PlacedElement.entry := by
  rw [List.filterMap_cons]
  cases e.entry <;> rfl

/-- A tree is scanned with the open elements as they were, and leaves its own behind. -/
theorem idSteps_eq (hq : q.Normalizes) {g : Forest SpelledTag Leaf}
    (hg : ∀ e ∈ (g.mapTags SpelledTag.tag).events, IdsResolved e) (n : ℕ) {s : IdScan}
    (hs : ∀ x ∈ s.opened, x.2.2 < s.depth) : (located n g.events).foldlM (idStep q) s =
      .ok { s with found := s.found ++ (closedInOrder n g).filterMap PlacedElement.entry } := by
  induction g generalizing n s with
  | nil =>
    rw [closedInOrder, List.filterMap_nil, List.append_nil]
    rfl
  | leaf l rest ih =>
    obtain ⟨-, hrest⟩ := List.forall_mem_cons.mp hg
    exact ih hrest _ hs
  | empty t rest ih =>
    obtain ⟨ht, hrest⟩ := List.forall_mem_cons.mp hg
    rw [Forest.events, located, List.foldlM_cons, Event.mapTag, idStep_empty hq ht,
      C14n.ok_bind]
    have hstop : n + (Event.token (.empty t)).length = PlacedElement.stop ⟨t, none, n⟩ := by
      rw [PlacedElement.stop, PlacedElement.text, element_none]
    rw [hstop]
    refine (ih (s := ⟨s.found ++ (PlacedElement.entry ⟨t, none, n⟩).toList, s.opened, s.depth⟩)
      hrest _ hs).trans ?_
    rw [closedInOrder, entries_cons, ← List.append_assoc]
  | node t kids rest ihk ihr =>
    rw [Forest.mapTags, Forest.events, List.forall_mem_cons, List.forall_mem_append,
      List.forall_mem_cons] at hg
    obtain ⟨ht, hkids, -, hrest⟩ := hg
    have hinner : ∀ x ∈ ((prefixedId t.tag).map fun id => (id, n, s.depth)).toList ++ s.opened,
        x.2.2 < s.depth + 1 := by
      intro x hx
      rcases List.mem_append.mp hx with hnew | hold
      · rw [Option.mem_toList, Option.map_eq_some_iff] at hnew
        obtain ⟨id, -, rfl⟩ := hnew
        exact Nat.lt_succ_self _
      · exact Nat.lt_succ_of_lt (hs x hold)
    have hstop : n + (Event.token (.start t)).length + (kids.events.flatMap Event.token).length +
        (Event.token (.close t)).length = PlacedElement.stop ⟨t, some kids, n⟩ := by
      rw [PlacedElement.stop, PlacedElement.text, element_some, ← Forest.spelling_eq,
        List.length_append, List.length_append, Nat.add_assoc, Nat.add_assoc]
    rw [Forest.events, located, List.foldlM_cons, Event.mapTag, idStep_start hq ht,
      C14n.ok_bind, located_append, List.foldlM_append, ihk hkids _ hinner, C14n.ok_bind, located,
      List.foldlM_cons, Event.mapTag, idStep_close t.tag hs, C14n.ok_bind, hstop]
    refine (ihr (s := ⟨s.found ++ (closedInOrder _ kids).filterMap PlacedElement.entry ++
      (PlacedElement.entry ⟨t, some kids, n⟩).toList, s.opened, s.depth⟩) hrest _ hs).trans ?_
    rw [closedInOrder, List.filterMap_append, entries_cons, List.append_assoc, List.append_assoc]

/-! ## Sorted by the start -/

theorem placed_tags (n : ℕ) (g : Forest SpelledTag Leaf) :
    (placed n g).map PlacedElement.tag = g.elements.map Prod.fst := by
  induction g generalizing n with
  | nil => rfl
  | leaf l rest ih => exact ih _
  | empty t rest ih => exact congrArg (t :: ·) (ih _)
  | node t kids rest ihk ihr =>
    rw [placed, Forest.elements, List.map_cons, List.map_cons, List.map_append, List.map_append,
      ihk, ihr]

def Resolved (g : Forest SpelledTag Leaf) : Prop :=
  ∀ e ∈ (g.mapTags SpelledTag.tag).events, IdsResolved e

instance (e : Event RawTag Leaf) : Decidable (IdsResolved e) := by
  cases e <;> unfold IdsResolved <;> infer_instance

instance (g : Forest SpelledTag Leaf) : Decidable (Resolved g) :=
  inferInstanceAs (Decidable (∀ e ∈ _, _))

theorem resolved_of_wellFormed {stack : List RawTag} {es : List (Event RawTag Leaf)}
    (h : WellFormedFrom stack es) : ∀ e ∈ es, IdsResolved e := by
  induction es generalizing stack with
  | nil => exact List.forall_mem_nil _
  | cons e es ih =>
    cases e with
    | start t | empty t =>
      exact List.forall_mem_cons.mpr ⟨fun a ha _ => h.1.values a ha, ih h.2⟩
    | close t =>
      have hrest : WellFormedFrom stack.tail es := h
      exact List.forall_mem_cons.mpr ⟨trivial, ih hrest⟩
    | leaf l => exact List.forall_mem_cons.mpr ⟨trivial, ih h.2⟩

/-- What the scan says, in document order. -/
def entries (g : Forest SpelledTag Leaf) : List (String × ℕ × ℕ) :=
  (placed 0 g).filterMap PlacedElement.entry

theorem entries_ascending (g : Forest SpelledTag Leaf) :
    (entries g).Pairwise fun a b => a.2.1 < b.2.1 := by
  rw [entries, List.pairwise_filterMap]
  refine (placed_ascending 0 g).imp fun {e e'} hlt a ha b hb => ?_
  obtain ⟨id, -, rfl⟩ := Option.map_eq_some_iff.mp ha
  obtain ⟨id', -, rfl⟩ := Option.map_eq_some_iff.mp hb
  exact hlt

theorem sort_closed (g : Forest SpelledTag Leaf) :
    ((closedInOrder 0 g).filterMap PlacedElement.entry).insertionSort
      (fun a b => a.2.1 ≤ b.2.1) = entries g := by
  have htotal : Std.Total fun a b : String × ℕ × ℕ => a.2.1 ≤ b.2.1 :=
    ⟨fun a b => Nat.le_total _ _⟩
  have htrans : IsTrans (String × ℕ × ℕ) fun a b => a.2.1 ≤ b.2.1 :=
    ⟨fun a b c => Nat.le_trans⟩
  have hsymm : Std.Symm fun a b : String × ℕ × ℕ => a.2.1 ≠ b.2.1 := ⟨fun _ _ => Ne.symm⟩
  have hperm : ((closedInOrder 0 g).filterMap PlacedElement.entry).Perm (entries g) :=
    (closedInOrder_perm 0 g).filterMap _
  have hsorted := (List.perm_insertionSort (fun a b => a.2.1 ≤ b.2.1)
    ((closedInOrder 0 g).filterMap PlacedElement.entry)).trans hperm
  have hdistinct : (entries g).Pairwise fun a b => a.2.1 ≠ b.2.1 :=
    (entries_ascending g).imp Nat.ne_of_lt
  refine List.Perm.eq_of_pairwise (fun a b ha hb hab hba => ?_)
    (List.pairwise_insertionSort _ _) ((entries_ascending g).imp Nat.le_of_lt) hsorted
  by_contra hne
  exact hdistinct.forall (hsorted.subset ha) hb hne (Nat.le_antisymm hab hba)

end XmlUtil

open XmlUtil

/-- The reader delivers the events of the text, and after each it stands where its token ends. -/
structure QuickXml.Locates (q : QuickXml) (buffer_positions : String → List ℕ)
    (g : Forest SpelledTag Leaf) : Prop where
  delivered : q.reader (String.ofList g.spelling) = (g.mapTags SpelledTag.tag).stream
  positions : buffer_positions (String.ofList g.spelling) = tokenEnds 0 (g.events.map Event.token)

/-- One entry for each element that carries such an attribute, in document order, with the place of
    the element's text. Every well-formed document is the text of a tree in which the values can be
    resolved. -/
theorem elements_identified {q : QuickXml} (hq : q.Normalizes)
    (buffer_positions : String → List ℕ) :
    (∀ text d, IsDocument text d →
      ∃ g, g.spelling = text ∧ g.mapTags SpelledTag.tag = d.forest ∧ Resolved g) ∧
    ∀ g, q.Locates buffer_positions g → Resolved g →
      elementsWithPrefixedId q buffer_positions (String.ofList g.spelling) =
          .ok ((placed 0 g).filterMap fun e =>
            (prefixedId e.tag.tag).map fun id => (id, e.start, e.stop)) ∧
        (placed 0 g).map PlacedElement.tag = g.elements.map Prod.fst ∧
        (∀ t, (prefixedId t).isSome ↔ ∃ a ∈ t.attributes, ∃ p,
          a.key.toList = p ++ ":Id".toList ∧ ':' ∉ p ∧ p ≠ "xmlns".toList) ∧
        (∀ e ∈ placed 0 g, (g.spelling.drop e.start).take (e.stop - e.start) =
          (e.tag.element e.content).spelling) ∧
        (placed 0 g).Pairwise fun e e' => e.start < e'.start := by
  refine ⟨fun text d hd => ?_, fun g hread hg => ⟨?_, placed_tags 0 g, fun t => prefixedId_isSome,
    fun e he => placed_slice he, placed_ascending 0 g⟩⟩
  · obtain ⟨g, hspelling, htree⟩ := hd.1.spells.spelled
    refine ⟨g, hspelling, htree, ?_⟩
    rw [Resolved, htree]
    exact resolved_of_wellFormed hd.2.events
  · have hevents : (g.mapTags SpelledTag.tag).events =
        g.events.map (Event.mapTag SpelledTag.tag) := Forest.events_mapTags _ _
    have hscan := idSteps_eq hq hg 0 (s := ⟨[], [], 0⟩) (List.forall_mem_nil _)
    rw [elementsWithPrefixedId, hread.delivered, hread.positions, Forest.stream, hevents,
      zip_tokenEnds, hscan, C14n.ok_bind, List.nil_append]
    exact congrArg Except.ok (sort_closed g)

/-! ## Documents -/

/-- A reader of the one tree. -/
def treeReader (g : Forest SpelledTag Leaf) : QuickXml where
  reader _ := (g.mapTags SpelledTag.tag).stream
  normalized_value := (C14n.readerOf "" C14n.defaultUndeclared).normalized_value

def treePositions (g : Forest SpelledTag Leaf) (_ : String) : List ℕ :=
  tokenEnds 0 (g.events.map Event.token)

theorem treeReader_locates (g : Forest SpelledTag Leaf) :
    (treeReader g).Normalizes ∧ (treeReader g).Locates (treePositions g) g :=
  ⟨C14n.readerOf_normalizes "" C14n.defaultUndeclared, rfl, rfl⟩

/-- `<a u:Id="A"><b u:Id="B"/></a>` -/
def nestedIds : Forest SpelledTag Leaf :=
  .node (.plain "a" [.quoted "u:Id" "A" (by decide)])
    (.empty (.plain "b" [.quoted "u:Id" "B" (by decide)]) .nil) .nil

theorem nestedIds_found : elementsWithPrefixedId (treeReader nestedIds) (treePositions nestedIds)
    (String.ofList nestedIds.spelling) = .ok [("A", 0, 29), ("B", 12, 25)] :=
  ((elements_identified (treeReader_locates nestedIds).1 (treePositions nestedIds)).2 nestedIds
    (treeReader_locates nestedIds).2 (by decide)).1.trans (by decide)

/-- `<!DOCTYPE r [<!ENTITY e "x">]><r xmlns:u="urn:u" u:Id="&e;"/>` -/
def declaredEntity : Forest SpelledTag Leaf :=
  .leaf (.doctype " r [<!ENTITY e \"x\">]")
    (.empty (.plain "r" [.quoted "xmlns:u" "urn:u" (by decide), .quoted "u:Id" "&e;" (by decide)])
      .nil)

theorem declared_entity_refused :
    (treeReader declaredEntity).Normalizes ∧
      (treeReader declaredEntity).Locates (treePositions declaredEntity) declaredEntity ∧
      declaredEntity.spelling =
        "<!DOCTYPE r [<!ENTITY e \"x\">]><r xmlns:u=\"urn:u\" u:Id=\"&e;\"/>".toList ∧
      (∀ e ∈ placed 0 declaredEntity, (prefixedId e.tag.tag).isSome) ∧
      elementsWithPrefixedId (treeReader declaredEntity) (treePositions declaredEntity)
        (String.ofList declaredEntity.spelling) = .error (.xml "unrecognized entity") := by
  refine ⟨(treeReader_locates _).1, (treeReader_locates _).2, by decide +kernel, by decide, ?_⟩
  decide +kernel

end DianService
