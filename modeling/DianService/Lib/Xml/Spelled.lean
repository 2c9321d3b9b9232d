import DianService.Lib.Xml.Written

/-
  Trees whose tags keep their attributes and how each of them is spelled, so that the text of a
  tree is a function of it and a tag can be exchanged for another in the text. Every text that
  spells a tree is that of one of these (`Spells.spelled`).
-/

namespace DianService.Lib.Xml

/-! ## Tags -/

structure SpelledAttribute where
  key : String
  raw : String
  /-- White space before the attribute, and on either side of its `=`. -/
  space : Text
  before : Text
  after : Text
  quote : Char
  hspace : IsSpaces space
  hsome : space ≠ []
  hbefore : IsSpaces before
  hafter : IsSpaces after
  hquote : quote = '"' ∨ quote = '\''
  hraw : quote ∉ raw.toList
  deriving DecidableEq

def SpelledAttribute.read (a : SpelledAttribute) : Attribute := ⟨a.key, a.raw⟩

def SpelledAttribute.text (a : SpelledAttribute) : Text :=
  a.space ++ (a.key.toList ++ (a.before ++ '=' :: (a.after ++
    a.quote :: (a.raw.toList ++ [a.quote]))))

theorem single_space : ∀ c ∈ [' '], isSpace c = true := List.forall_mem_singleton.mpr rfl

/-- One space, and double quotes. -/
def SpelledAttribute.quoted (key raw : String) (hraw : '"' ∉ raw.toList) : SpelledAttribute where
  key := key
  raw := raw
  space := [' ']
  before := []
  after := []
  quote := '"'
  hspace := single_space
  hsome := List.cons_ne_nil _ _
  hbefore := List.forall_mem_nil _
  hafter := List.forall_mem_nil _
  hquote := .inl rfl
  hraw := hraw

structure SpelledTag where
  name : String
  attributes : List SpelledAttribute
  /-- White space after the attributes, and after the name in the end tag. -/
  space : Text
  closing : Text
  hspace : IsSpaces space
  hclosing : IsSpaces closing
  deriving DecidableEq

namespace SpelledTag

def tag (t : SpelledTag) : RawTag := ⟨t.name, t.attributes.map SpelledAttribute.read⟩

/-- What stands between the name and the end of the tag. -/
def inside (t : SpelledTag) : Text := t.attributes.flatMap SpelledAttribute.text ++ t.space

def written (t : SpelledTag) : WrittenTag := ⟨t.name, t.inside, t.closing⟩

/-- Without other white space than that of its attributes. -/
def plain (name : String) (attributes : List SpelledAttribute) : SpelledTag :=
  ⟨name, attributes, [], [], List.forall_mem_nil _, List.forall_mem_nil _⟩

end SpelledTag

theorem spellsAttributes (as : List SpelledAttribute) :
    SpellsAttributes (as.flatMap SpelledAttribute.text) (as.map SpelledAttribute.read) := by
  induction as with
  | nil => exact .nil
  | cons a as ih =>
    have hcons := @SpellsAttributes.cons _ _ _ _ a.read _ _ a.hspace a.hsome a.hbefore a.hafter
      a.hquote a.hraw ih
    simpa only [List.flatMap_cons, List.map_cons, SpelledAttribute.text, SpelledAttribute.read,
      List.append_assoc, List.cons_append, List.nil_append] using hcons

theorem SpellsAttributes.spelled {t : Text} {attributes : List Attribute}
    (h : SpellsAttributes t attributes) : ∃ as : List SpelledAttribute,
      as.flatMap SpelledAttribute.text = t ∧ as.map SpelledAttribute.read = attributes := by
  induction h with
  | nil => exact ⟨[], rfl, rfl⟩
  | @cons space before after quote a t attributes hspace hsome hbefore hafter hquote hraw _ ih =>
    obtain ⟨as, rfl, rfl⟩ := ih
    refine ⟨⟨a.key, a.raw, space, before, after, quote, hspace, hsome, hbefore, hafter, hquote,
      hraw⟩ :: as, ?_, rfl⟩
    simp only [List.flatMap_cons, SpelledAttribute.text, List.append_assoc, List.cons_append,
      List.nil_append]

/-! ## Trees -/

def Forest.spelling (g : Forest SpelledTag Leaf) : Text :=
  (g.mapTags SpelledTag.written).written

/-- An element, without content if it is an empty-element tag. -/
def SpelledTag.element (t : SpelledTag) (content : Option (Forest SpelledTag Leaf)) :
    Forest SpelledTag Leaf :=
  match content with
  | none => .empty t .nil
  | some kids => .node t kids .nil

theorem Spells.spelled {t : Text} {f : Forest RawTag Leaf} (h : Spells t f) :
    ∃ g : Forest SpelledTag Leaf, g.spelling = t ∧ g.mapTags SpelledTag.tag = f := by
  induction h with
  | nil => exact ⟨.nil, rfl, rfl⟩
  | @text raw t rest _ _ ih =>
    obtain ⟨g, rfl, rfl⟩ := ih
    exact ⟨.leaf (.text raw) g, rfl, rfl⟩
  | @leaf l t rest _ _ ih =>
    obtain ⟨g, rfl, rfl⟩ := ih
    exact ⟨.leaf l g, rfl, rfl⟩
  | @empty tag a space t rest ha hspace _ ih =>
    obtain ⟨g, rfl, rfl⟩ := ih
    obtain ⟨as, rfl, hattributes⟩ := ha.spelled
    refine ⟨.empty ⟨tag.name, as, space, [], hspace, List.forall_mem_nil _⟩ g, ?_, ?_⟩
    · simp [Forest.spelling, Forest.mapTags, Forest.written, WrittenTag.opened,
        SpelledTag.written, SpelledTag.inside, tagEnd]
    · rw [Forest.mapTags, SpelledTag.tag, hattributes]
  | @node tag a space k space' t kids rest ha hspace _ hspace' _ ihk ihr =>
    obtain ⟨gk, rfl, rfl⟩ := ihk
    obtain ⟨gr, rfl, rfl⟩ := ihr
    obtain ⟨as, rfl, hattributes⟩ := ha.spelled
    refine ⟨.node ⟨tag.name, as, space, space', hspace, hspace'⟩ gk gr, ?_, ?_⟩
    · simp [Forest.spelling, Forest.mapTags, Forest.written, WrittenTag.opened,
        WrittenTag.closed, SpelledTag.written, SpelledTag.inside, tagEnd]
    · rw [Forest.mapTags, SpelledTag.tag, hattributes]

/-- The text of an element is that of a spelled tag with its content. -/
theorem Spells.element {text : Text} {tag : RawTag} {f : Forest RawTag Leaf}
    (h : Spells text f) (hf : f = .empty tag .nil ∨ ∃ kids, f = .node tag kids .nil) :
    ∃ t content, (SpelledTag.element t content).spelling = text ∧
      (SpelledTag.element t content).mapTags SpelledTag.tag = f := by
  obtain ⟨g, hspelling, htree⟩ := h.spelled
  have hnil : ∀ {g' : Forest SpelledTag Leaf}, g'.mapTags SpelledTag.tag = .nil → g' = .nil := by
    intro g' hg'
    cases g' with
    | nil => rfl
    | leaf | empty | node => cases hg'
  obtain rfl | ⟨kids, rfl⟩ := hf
  · cases g with
    | nil | leaf | node => cases htree
    | empty t rest =>
      rw [hnil (Forest.empty.inj htree).2] at hspelling htree
      exact ⟨t, none, hspelling, htree⟩
  · cases g with
    | nil | leaf | empty => cases htree
    | node t kids' rest =>
      rw [hnil (Forest.node.inj htree).2.2] at hspelling htree
      exact ⟨t, some kids', hspelling, htree⟩

/-! ## Tokens -/

/-- What an event is read from. -/
def Event.token : Event SpelledTag Leaf → Text
  | .start t => '<' :: t.written.opened false
  | .empty t => '<' :: t.written.opened true
  | .close t => '<' :: t.written.closed
  | .leaf l => l.spelling

theorem Forest.spelling_eq (g : Forest SpelledTag Leaf) :
    g.spelling = g.events.flatMap Event.token := by
  induction g with
  | nil => rfl
  | leaf l rest ih => exact congrArg (l.spelling ++ ·) ih
  | empty t rest ih => exact congrArg ('<' :: t.written.opened true ++ ·) ih
  | node t kids rest ihk ihr =>
    rw [Forest.events, List.flatMap_cons, List.flatMap_append, List.flatMap_cons, ← ihk, ← ihr]
    rfl

/-- Where the tokens end, the first of which begins at the position. -/
def tokenEnds : Nat → List Text → List Nat
  | _, [] => []
  | n, t :: ts => (n + t.length) :: tokenEnds (n + t.length) ts

end DianService.Lib.Xml
