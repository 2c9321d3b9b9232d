import DianService.Lib.Xml.Lexing

/-
  Documents with their text: a tag keeps what is written between its name and its end, so that the
  text of a document is a function of it. Every text that spells a well-formed document is that of
  one (`IsDocument.written`).
-/

namespace DianService.Lib.Xml

/-! ## Tags -/

structure WrittenTag where
  name : String
  /-- The attributes, and the white space around them. -/
  inside : Text
  /-- White space after the name in the end tag. -/
  closing : Text
  deriving DecidableEq

namespace WrittenTag

/-- A start tag or an empty-element tag, after its `<`. -/
def opened (t : WrittenTag) (isEmpty : Bool) : Text :=
  t.name.toList ++ (t.inside ++ tagEnd isEmpty)

/-- An end tag, after its `<`. -/
def closed (t : WrittenTag) : Text := '/' :: (t.name.toList ++ (t.closing ++ ['>']))

structure Sound (t : WrittenTag) : Prop where
  name : isQName t.name.toList
  inside : '<' ∉ t.inside
  spaced : ∀ c ∈ t.inside.head?, isSpace c
  closing : IsSpaces t.closing

end WrittenTag

/-! ## Content -/

/-- What is read without regard to markup in it. -/
def Leaf.isVerbatim : Leaf → Bool
  | .cdata _ | .comment _ => true
  | _ => false

/-- What content has besides elements, without comments and CDATA sections. -/
def Leaf.Plain : Leaf → Prop
  | .text raw => ∀ c ∈ raw.toList, c ≠ '<' ∧ c ≠ '&'
  | .ref name => (reference? name.toList).isSome
  | .pi _ | .decl _ | .doctype _ => True
  | .cdata _ | .comment _ => False

/-- Text, as itself or as a reference. -/
def Leaf.isCharacters : Leaf → Bool
  | .text _ | .ref _ => true
  | _ => false

def Leaf.isReference : Leaf → Bool
  | .ref _ => true
  | _ => false

/-- The characters that a leaf stands for. -/
def Leaf.characters : Leaf → Text
  | .text raw => raw.toList
  | .ref name => (reference? name.toList).toList
  | _ => []

/-- No elements, and of the leaves text and references only. -/
def Forest.OnlyText {τ : Type} (f : Forest τ Leaf) : Prop :=
  f.children = [] ∧ ∀ l ∈ f.leaves, l.isCharacters = true

def Event.Written : Event WrittenTag Leaf → Prop
  | .start t | .empty t | .close t => t.Sound
  | .leaf l => l.Plain

def Forest.written : Forest WrittenTag Leaf → Text
  | .nil => []
  | .leaf l rest => l.spelling ++ written rest
  | .empty t rest => '<' :: (t.opened true ++ written rest)
  | .node t kids rest =>
      '<' :: (t.opened false ++ (written kids ++ '<' :: (t.closed ++ written rest)))

/-! ## Documents -/

/-- A document: the root element, without content if it is an empty-element tag, and the leaves
    before and after it. -/
structure WrittenDocument where
  before : List Leaf
  root : WrittenTag
  content : Option (Forest WrittenTag Leaf)
  after : List Leaf
  deriving DecidableEq

namespace WrittenDocument

def element (d : WrittenDocument) (rest : Forest WrittenTag Leaf) : Forest WrittenTag Leaf :=
  match d.content with
  | none => .empty d.root rest
  | some kids => .node d.root kids rest

def forest (d : WrittenDocument) : Forest WrittenTag Leaf :=
  d.before.foldr Forest.leaf (d.element (d.after.foldr Forest.leaf .nil))

def text (d : WrittenDocument) : Text := d.forest.written

def Sound (d : WrittenDocument) : Prop := ∀ e ∈ d.forest.events, e.Written

end WrittenDocument

/-! ## Texts of well-formed documents -/

/-- What well-formed documents have of tags and leaves, where there are no comments and CDATA
    sections. -/
def Event.Plain : Event RawTag Leaf → Prop
  | .start t | .empty t | .close t =>
      isQName t.name.toList ∧ ∀ a ∈ t.attributes, isQName a.key.toList ∧ '<' ∉ a.raw.toList
  | .leaf l => l.Plain

theorem not_mem_spaces {space : Text} (h : IsSpaces space) {c : Char} (hc : isSpace c = false) :
    c ∉ space := by
  intro hmem
  rw [h c hmem] at hc
  cases hc

theorem SpellsAttributes.not_mem {t : Text} {attributes : List Attribute}
    (h : SpellsAttributes t attributes)
    (ha : ∀ a ∈ attributes, isQName a.key.toList ∧ '<' ∉ a.raw.toList) : '<' ∉ t := by
  induction h with
  | nil => exact List.not_mem_nil
  | @cons space before after quote a t attributes hspace _ hbefore hafter hquote _ _ ih =>
    obtain ⟨⟨hkey, hraw⟩, hrest⟩ := List.forall_mem_cons.mp ha
    have hkey : '<' ∉ a.key.toList := not_mem_of_isQName hkey rfl (by decide)
    have hquote : '<' ≠ quote := by
      obtain rfl | rfl := hquote <;> decide
    simp only [List.mem_append, List.mem_cons, not_or]
    exact ⟨⟨⟨⟨⟨not_mem_spaces hspace rfl, hkey⟩, not_mem_spaces hbefore rfl⟩, by decide,
      not_mem_spaces hafter rfl⟩, hquote, hraw⟩, hquote, ih hrest⟩

theorem SpellsAttributes.spaced {t : Text} {attributes : List Attribute}
    (h : SpellsAttributes t attributes) {space : Text} (hspace : IsSpaces space) :
    ∀ c ∈ (t ++ space).head?, isSpace c = true := by
  intro c hc
  cases h with
  | nil => exact hspace c (List.mem_of_mem_head? hc)
  | @cons space' _ _ _ _ _ _ hspace' hsome =>
    cases space' with
    | nil => exact absurd rfl hsome
    | cons d ds =>
      cases hc
      exact hspace' c List.mem_cons_self

/-- What stands between the name of a tag and its end. -/
theorem sound_mk {tag : RawTag} (htag : isQName tag.name.toList ∧
    ∀ a ∈ tag.attributes, isQName a.key.toList ∧ '<' ∉ a.raw.toList) {a space space' : Text}
    (ha : SpellsAttributes a tag.attributes) (hspace : IsSpaces space)
    (hspace' : IsSpaces space') : WrittenTag.Sound ⟨tag.name, a ++ space, space'⟩ where
  name := htag.1
  inside := by
    rw [List.mem_append, not_or]
    exact ⟨ha.not_mem htag.2, not_mem_spaces hspace rfl⟩
  spaced := ha.spaced hspace
  closing := hspace'

theorem Spells.written {t : Text} {f : Forest RawTag Leaf} (h : Spells t f)
    (hf : ∀ e ∈ f.events, e.Plain) :
    ∃ g : Forest WrittenTag Leaf, g.written = t ∧
      g.mapTags WrittenTag.name = f.mapTags RawTag.name ∧ ∀ e ∈ g.events, e.Written := by
  induction h with
  | nil => exact ⟨.nil, rfl, rfl, List.forall_mem_nil _⟩
  | @text raw t rest _ _ ih =>
    obtain ⟨hleaf, hrest⟩ := List.forall_mem_cons.mp hf
    obtain ⟨g, rfl, hnames, hsound⟩ := ih hrest
    exact ⟨.leaf (.text raw) g, rfl, congrArg (Forest.leaf _) hnames,
      List.forall_mem_cons.mpr ⟨hleaf, hsound⟩⟩
  | @leaf l t rest _ _ ih =>
    obtain ⟨hleaf, hrest⟩ := List.forall_mem_cons.mp hf
    obtain ⟨g, rfl, hnames, hsound⟩ := ih hrest
    exact ⟨.leaf l g, rfl, congrArg (Forest.leaf _) hnames,
      List.forall_mem_cons.mpr ⟨hleaf, hsound⟩⟩
  | @empty tag a space t rest ha hspace _ ih =>
    obtain ⟨htag, hrest⟩ := List.forall_mem_cons.mp hf
    obtain ⟨g, rfl, hnames, hsound⟩ := ih hrest
    refine ⟨.empty ⟨tag.name, a ++ space, []⟩ g, ?_, congrArg (Forest.empty _) hnames,
      List.forall_mem_cons.mpr ⟨sound_mk htag ha hspace (List.forall_mem_nil _), hsound⟩⟩
    simp [Forest.written, WrittenTag.opened, tagEnd]
  | @node tag a space k space' t kids rest ha hspace _ hspace' _ ihk ihr =>
    rw [Forest.events, List.forall_mem_cons, List.forall_mem_append, List.forall_mem_cons] at hf
    obtain ⟨htag, hkids, -, hrest⟩ := hf
    obtain ⟨gk, rfl, hknames, hksound⟩ := ihk hkids
    obtain ⟨gr, rfl, hrnames, hrsound⟩ := ihr hrest
    have hsound := sound_mk htag ha hspace hspace'
    refine ⟨.node ⟨tag.name, a ++ space, space'⟩ gk gr, ?_, ?_, ?_⟩
    · simp [Forest.written, WrittenTag.opened, WrittenTag.closed, tagEnd]
    · rw [Forest.mapTags, Forest.mapTags, hknames, hrnames]
    · rw [Forest.events, List.forall_mem_cons, List.forall_mem_append, List.forall_mem_cons]
      exact ⟨hsound, hksound, hsound, hrsound⟩

/-! The parts of a document can be told by its events. -/

theorem mapTags_foldr {τ τ' ν : Type} (g : τ → τ') (ls : List ν) (f : Forest τ ν) :
    (ls.foldr Forest.leaf f).mapTags g = ls.foldr Forest.leaf (f.mapTags g) := by
  induction ls with
  | nil => rfl
  | cons l ls ih => exact congrArg (Forest.leaf l) ih

theorem eq_foldr_of_mapTags {τ τ' ν : Type} {g : τ → τ'} {ls : List ν} {f : Forest τ ν}
    {f' : Forest τ' ν} (h : f.mapTags g = ls.foldr Forest.leaf f') :
    ∃ rest, f = ls.foldr Forest.leaf rest ∧ rest.mapTags g = f' := by
  induction ls generalizing f with
  | nil => exact ⟨f, rfl, h⟩
  | cons l ls ih =>
    cases f with
    | nil | empty | node => cases h
    | leaf l' f =>
      obtain ⟨rfl, htail⟩ := Forest.leaf.inj h
      obtain ⟨rest, rfl, hrest⟩ := ih htail
      exact ⟨rest, rfl, hrest⟩

theorem RawTag.WellFormed.plain {outer : Bindings} {t : RawTag} (h : t.WellFormed outer) :
    isQName t.name.toList ∧ ∀ a ∈ t.attributes, isQName a.key.toList ∧ '<' ∉ a.raw.toList := by
  refine ⟨h.name, fun a ha => ⟨h.qnames a ha, fun hmem => ?_⟩⟩
  have hliteral := h.literals a ha
  rw [isLiteral, Bool.and_eq_true, List.all_eq_true] at hliteral
  simpa using hliteral.1 _ hmem

theorem Leaf.WellFormed.plain {l : Leaf} (h : l.WellFormed) (hl : l.isVerbatim = false) :
    l.Plain := by
  cases l with
  | text raw =>
    intro c hc
    have hchars := List.all_eq_true.mp h.2.1 c hc
    simp only [Bool.and_eq_true, decide_eq_true_eq] at hchars
    exact ⟨hchars.1.2, hchars.2⟩
  | ref name => exact h
  | pi raw | decl raw | doctype raw => trivial
  | cdata raw | comment raw => cases hl

theorem Leaf.plain_of_isMisc {l : Leaf} (h : l.isMisc = true) (hl : l.isVerbatim = false) :
    l.Plain := by
  cases l with
  | text raw =>
    intro c hc
    have hspace : isSpace c = true := List.all_eq_true.mp h c hc
    refine ⟨fun heq => ?_, fun heq => ?_⟩
    · rw [heq] at hspace
      cases hspace
    · rw [heq] at hspace
      cases hspace
  | pi raw => trivial
  | cdata raw | comment raw => cases hl
  | ref | decl | doctype => cases h

theorem WellFormedIn.plain {outer : Bindings} {f : Forest RawTag Leaf} (h : WellFormedIn outer f)
    (hf : ∀ l ∈ f.leaves, l.isVerbatim = false) : ∀ e ∈ f.events, e.Plain := by
  induction f generalizing outer with
  | nil => exact List.forall_mem_nil _
  | leaf l rest ih =>
    obtain ⟨hl, hrest⟩ := List.forall_mem_cons.mp hf
    exact List.forall_mem_cons.mpr ⟨h.1.plain hl, ih h.2 hrest⟩
  | empty t rest ih => exact List.forall_mem_cons.mpr ⟨h.1.plain, ih h.2 hf⟩
  | node t kids rest ihk ihr =>
    obtain ⟨hkids, hrest⟩ := List.forall_mem_append.mp hf
    rw [Forest.events, List.forall_mem_cons, List.forall_mem_append, List.forall_mem_cons]
    exact ⟨h.1.plain, ihk h.2.1 hkids, h.1.plain, ihr h.2.2 hrest⟩

theorem DocumentNode.WellFormed.plain {d : DocumentNode} (h : d.WellFormed)
    (hd : ∀ l ∈ d.forest.leaves, l.isVerbatim = false) : ∀ e ∈ d.forest.events, e.Plain := by
  have helement : ∀ rest : Forest RawTag Leaf,
      (d.element rest).events = (d.element .nil).events ++ rest.events ∧
        (d.element rest).leaves = (d.element .nil).leaves ++ rest.leaves := by
    intro rest
    unfold DocumentNode.element
    cases d.content with
    | none => exact ⟨rfl, rfl⟩
    | some kids => simp
  rw [DocumentNode.forest, (Forest.foldr_leaf _ _).2.2, (helement _).2,
    (Forest.foldr_leaf _ _).2.2, List.forall_mem_append, List.forall_mem_append,
    List.forall_mem_append, List.forall_mem_append] at hd
  obtain ⟨⟨-, hprolog⟩, hroot, hepilog, -⟩ := hd
  have hmisc : ∀ ls : List Leaf, (∀ l ∈ ls, l.isMisc = true) →
      (∀ l ∈ ls, l.isVerbatim = false) → ∀ e ∈ ls.map Event.leaf, Event.Plain e := by
    intro ls hls hplain e he
    obtain ⟨l, hl, rfl⟩ := List.mem_map.mp he
    exact Leaf.plain_of_isMisc (hls l hl) (hplain l hl)
  rw [DocumentNode.forest, (Forest.foldr_leaf _ _).1, (helement _).1, (Forest.foldr_leaf _ _).1,
    List.map_append, List.forall_mem_append, List.forall_mem_append, List.forall_mem_append,
    List.forall_mem_append]
  refine ⟨⟨fun e he => ?_, hmisc _ h.prolog hprolog⟩, h.element.plain hroot,
    hmisc _ h.epilog hepilog, List.forall_mem_nil _⟩
  obtain ⟨l, hl, rfl⟩ := List.mem_map.mp he
  obtain ⟨raw, -, rfl⟩ := List.mem_map.mp hl
  trivial

/-- A well-formed document without comments and CDATA sections is one of these, with its text. -/
theorem IsDocument.written {t : Text} {d : DocumentNode} (h : IsDocument t d)
    (hd : ∀ l ∈ d.forest.leaves, l.isVerbatim = false) :
    ∃ w : WrittenDocument, w.text = t ∧ w.Sound ∧
      w.forest.mapTags WrittenTag.name = d.forest.mapTags RawTag.name := by
  obtain ⟨g, hg, hnames, hsound⟩ := h.1.spells.written (h.2.plain hd)
  have hshape := hnames
  rw [DocumentNode.forest, mapTags_foldr] at hshape
  obtain ⟨g', rfl, hroot⟩ := eq_foldr_of_mapTags hshape
  have hafter : ∀ rest : Forest WrittenTag Leaf,
      rest.mapTags WrittenTag.name = (d.epilog.foldr Forest.leaf .nil).mapTags RawTag.name →
        rest = d.epilog.foldr Forest.leaf .nil := by
    intro rest hrest
    rw [mapTags_foldr] at hrest
    obtain ⟨last, rfl, hlast⟩ := eq_foldr_of_mapTags hrest
    cases last with
    | nil => rfl
    | leaf | empty | node => cases hlast
  have hdocument : ∃ root content, g' =
      WrittenDocument.element ⟨[], root, content, []⟩ (d.epilog.foldr Forest.leaf .nil) := by
    rw [DocumentNode.element] at hroot
    cases hcontent : d.content with
    | none =>
      rw [hcontent] at hroot
      cases g' with
      | nil | leaf | node => cases hroot
      | empty root rest => exact ⟨root, none, congrArg _ (hafter rest (Forest.empty.inj hroot).2)⟩
    | some kids =>
      rw [hcontent] at hroot
      cases g' with
      | nil | leaf | empty => cases hroot
      | node root kids' rest =>
        exact ⟨root, some kids', congrArg _ (hafter rest (Forest.node.inj hroot).2.2)⟩
  obtain ⟨root, content, rfl⟩ := hdocument
  exact ⟨⟨_, root, content, d.epilog⟩, hg, hsound, hnames⟩

end DianService.Lib.Xml
