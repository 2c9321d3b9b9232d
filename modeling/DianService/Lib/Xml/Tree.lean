import Mathlib.Data.List.Count

/-
  XML as a reader of events delivers it. A `Forest` is the content of an element: its leaves
  (character data, processing instructions, comments) and its elements, each with its tag and its
  own content; an empty-element tag is told apart from a start tag and an end tag with nothing in
  between. `events` walks a forest in document order.

  Tags and leaves are parameters: what a tag knows (names as written, names resolved to their
  namespaces) depends on the reader.
-/

namespace DianService.Lib.Xml

inductive Event (τ ν : Type) where
  | start (tag : τ)
  | empty (tag : τ)
  | close (tag : τ)
  | leaf (l : ν)
  deriving DecidableEq

/-- Content, first node first. -/
inductive Forest (τ ν : Type) where
  | nil
  | leaf (l : ν) (rest : Forest τ ν)
  | empty (tag : τ) (rest : Forest τ ν)
  | node (tag : τ) (kids rest : Forest τ ν)
  deriving DecidableEq

namespace Forest

variable {τ ν : Type}

@[simp] def events : Forest τ ν → List (Event τ ν)
  | nil => []
  | leaf l rest => .leaf l :: rest.events
  | empty tag rest => .empty tag :: rest.events
  | node tag kids rest => .start tag :: (kids.events ++ .close tag :: rest.events)

def append : Forest τ ν → Forest τ ν → Forest τ ν
  | nil, g => g
  | leaf l rest, g => leaf l (rest.append g)
  | empty tag rest, g => empty tag (rest.append g)
  | node tag kids rest, g => node tag kids (rest.append g)

instance : Append (Forest τ ν) := ⟨append⟩

/-- The elements at the top, each with its content. -/
@[simp] def children : Forest τ ν → List (τ × Forest τ ν)
  | nil => []
  | leaf _ rest => rest.children
  | empty tag rest => (tag, nil) :: rest.children
  | node tag kids rest => (tag, kids) :: rest.children

/-- All elements in document order, each with its content. -/
@[simp] def elements : Forest τ ν → List (τ × Forest τ ν)
  | nil => []
  | leaf _ rest => rest.elements
  | empty tag rest => (tag, nil) :: rest.elements
  | node tag kids rest => (tag, kids) :: (kids.elements ++ rest.elements)

/-- All leaves in document order. -/
@[simp] def leaves : Forest τ ν → List ν
  | nil => []
  | leaf l rest => l :: rest.leaves
  | empty _ rest => rest.leaves
  | node _ kids rest => kids.leaves ++ rest.leaves

/-- Leaves before a forest. -/
theorem foldr_leaf (ls : List ν) (f : Forest τ ν) :
    (ls.foldr leaf f).events = ls.map Event.leaf ++ f.events ∧
      (ls.foldr leaf f).elements = f.elements ∧ (ls.foldr leaf f).leaves = ls ++ f.leaves := by
  induction ls with
  | nil => exact ⟨rfl, rfl, rfl⟩
  | cons l ls ih =>
      refine ⟨?_, ih.2.1, ?_⟩
      · simp [ih.1]
      · simp [ih.2.2]

end Forest

/-! ## Names -/

/-- A name without a colon. -/
structure NCName where
  text : String
  no_colon : ':' ∉ text.toList
  deriving DecidableEq

/-- The text as a name, where it has no colon. -/
def NCName.of (s : String) : NCName :=
  if h : ':' ∉ s.toList then ⟨s, h⟩ else ⟨"", List.not_mem_nil⟩

/-- An attribute as written; `raw` is what stands between the quotes. -/
structure Attribute where
  key : String
  raw : String
  deriving DecidableEq

/-- The tag of an element with its name resolved to the namespace it is in. -/
structure Tag where
  uri : Option String
  pfx : Option NCName
  name : NCName
  attributes : List Attribute
  deriving DecidableEq

/-- The value of the attribute with this key, as written. -/
def Tag.raw? (t : Tag) (key : String) : Option String :=
  (t.attributes.find? fun a => a.key = key).map Attribute.raw

/-- What an element contains besides elements, as written. -/
inductive Leaf where
  | text (raw : String)
  | cdata (raw : String)
  | ref (name : String)
  | pi (raw : String)
  | comment (raw : String)
  | decl (raw : String)
  | doctype (raw : String)
  deriving DecidableEq

/-- The events of a reader up to the end of its input, or to the first error. -/
structure EventStream (τ ν : Type) where
  events : List (Event τ ν)
  error : Option String

/-- A document that the reader reads to its end. -/
def Forest.stream {τ ν : Type} (f : Forest τ ν) : EventStream τ ν := ⟨f.events, none⟩

end DianService.Lib.Xml
