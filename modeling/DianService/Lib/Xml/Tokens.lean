import DianService.Lib.Xml.Nesting
import DianService.Lib.Xml.Spelling

/-
  XML text as a sequence of tokens, one for each event. The text of a document is one, and so is
  what stands before any of its nodes. `WellFormedFrom` says of events what `WellFormedIn` says of
  a tree: the tags that are open carry what is in scope.
-/

namespace DianService.Lib.Xml

/-! ## Tokens -/

inductive SpellsTokens : Text → List (Event RawTag Leaf) → Prop where
  | nil : SpellsTokens [] []
  | text {raw : String} {t : Text} {es : List (Event RawTag Leaf)} (hends : EndsText t)
      (h : SpellsTokens t es) : SpellsTokens (raw.toList ++ t) (.leaf (.text raw) :: es)
  | leaf {l : Leaf} {t : Text} {es : List (Event RawTag Leaf)} (hl : l.isText = false)
      (h : SpellsTokens t es) : SpellsTokens (l.spelling ++ t) (.leaf l :: es)
  | empty {tag : RawTag} {a space t : Text} {es : List (Event RawTag Leaf)}
      (ha : SpellsAttributes a tag.attributes) (hspace : IsSpaces space) (h : SpellsTokens t es) :
      SpellsTokens ('<' :: tag.name.toList ++ a ++ space ++ '/' :: '>' :: t) (.empty tag :: es)
  | start {tag : RawTag} {a space t : Text} {es : List (Event RawTag Leaf)}
      (ha : SpellsAttributes a tag.attributes) (hspace : IsSpaces space) (h : SpellsTokens t es) :
      SpellsTokens ('<' :: tag.name.toList ++ a ++ space ++ '>' :: t) (.start tag :: es)
  | close {tag : RawTag} {space t : Text} {es : List (Event RawTag Leaf)} (hspace : IsSpaces space)
      (h : SpellsTokens t es) :
      SpellsTokens ('<' :: '/' :: tag.name.toList ++ space ++ '>' :: t) (.close tag :: es)

theorem EndsText.append {t u : Text} (ht : EndsText t) (hu : EndsText u) : EndsText (t ++ u) := by
  cases t with
  | nil => exact hu
  | cons c t => exact ht

theorem SpellsTokens.append {t u : Text} {es fs : List (Event RawTag Leaf)}
    (ht : SpellsTokens t es) (hends : EndsText u) (hu : SpellsTokens u fs) :
    SpellsTokens (t ++ u) (es ++ fs) := by
  induction ht with
  | nil => exact hu
  | text hends' h ih =>
    rw [List.append_assoc]
    exact .text (hends'.append hends) ih
  | leaf hl h ih =>
    rw [List.append_assoc]
    exact .leaf hl ih
  | empty ha hspace h ih =>
    have htoken := SpellsTokens.empty ha hspace ih
    simpa only [List.append_assoc, List.cons_append] using htoken
  | start ha hspace h ih =>
    have htoken := SpellsTokens.start ha hspace ih
    simpa only [List.append_assoc, List.cons_append] using htoken
  | @close tag space t es hspace h ih =>
    have htoken : SpellsTokens ('<' :: '/' :: tag.name.toList ++ space ++ '>' :: (t ++ u))
        (.close tag :: (es ++ fs)) := .close hspace ih
    simpa only [List.append_assoc, List.cons_append] using htoken

/-- The text of a tree is that of its events. -/
theorem Spells.tokens {t : Text} {f : Forest RawTag Leaf} (h : Spells t f) :
    SpellsTokens t f.events := by
  induction h with
  | nil => exact .nil
  | text hends h ih => exact .text hends ih
  | leaf hl h ih => exact .leaf hl ih
  | empty ha hspace h ih => exact .empty ha hspace ih
  | @node tag a space k space' t kids rest ha hspace hkids hspace' h ihk ih =>
    have hclose : SpellsTokens ('<' :: '/' :: tag.name.toList ++ space' ++ '>' :: t)
        (.close tag :: rest.events) := .close hspace' ih
    have hends : EndsText ('<' :: '/' :: tag.name.toList ++ space' ++ '>' :: t) := Or.inl rfl
    have htoken := SpellsTokens.start ha hspace (ihk.append hends hclose)
    simpa only [Forest.events, List.append_assoc, List.cons_append] using htoken

/-! ## Well-formed events -/

/-- The declarations in scope, given the open tags, innermost first. -/
def inScope (stack : List RawTag) : Bindings := stack.flatMap RawTag.bindings

/-- A leaf, inside an element or outside. -/
def Leaf.Sound (l : Leaf) : Prop :=
  (∀ raw, l ≠ .doctype raw) ∧ ∀ name, l = .ref name → (reference? name.toList).isSome

def WellFormedFrom : (stack : List RawTag) → List (Event RawTag Leaf) → Prop
  | _, [] => True
  | stack, .start t :: es => t.WellFormed (inScope stack) ∧ WellFormedFrom (t :: stack) es
  | stack, .close _ :: es => WellFormedFrom stack.tail es
  | stack, .empty t :: es => t.WellFormed (inScope stack) ∧ WellFormedFrom stack es
  | stack, .leaf l :: es => l.Sound ∧ WellFormedFrom stack es

theorem Leaf.WellFormed.sound {l : Leaf} (h : l.WellFormed) : l.Sound := by
  refine ⟨fun raw hraw => ?_, fun name hname => ?_⟩
  · rw [hraw] at h
    exact h
  · rw [hname] at h
    exact h

theorem Leaf.sound_of_isMisc {l : Leaf} (h : l.isMisc = true) : l.Sound := by
  refine ⟨fun raw hraw => ?_, fun name hname => ?_⟩
  · rw [hraw] at h
    cases h
  · rw [hname] at h
    cases h

theorem Leaf.sound_decl (raw : String) : (Leaf.decl raw).Sound :=
  ⟨fun _ h => Leaf.noConfusion h, fun _ h => Leaf.noConfusion h⟩

theorem WellFormedFrom.append_left {es fs : List (Event RawTag Leaf)} {stack : List RawTag}
    (h : WellFormedFrom stack (es ++ fs)) : WellFormedFrom stack es := by
  induction es generalizing stack with
  | nil => trivial
  | cons e es ih =>
    cases e with
    | close t =>
      have hrest : WellFormedFrom stack.tail (es ++ fs) := h
      exact ih hrest
    | start t | empty t | leaf l => exact ⟨h.1, ih h.2⟩

theorem wellFormedFrom_leaves {ls : List Leaf} {stack : List RawTag}
    {es : List (Event RawTag Leaf)} (hls : ∀ l ∈ ls, l.Sound) (hes : WellFormedFrom stack es) :
    WellFormedFrom stack (ls.map Event.leaf ++ es) := by
  induction ls with
  | nil => exact hes
  | cons l ls ih =>
    exact ⟨hls l List.mem_cons_self, ih fun l' hl' => hls l' (List.mem_cons_of_mem l hl')⟩

/-- Content that is well formed in the scope of the open tags. -/
theorem WellFormedIn.events {f : Forest RawTag Leaf} {stack : List RawTag}
    {es : List (Event RawTag Leaf)} (hf : WellFormedIn (inScope stack) f)
    (hes : WellFormedFrom stack es) : WellFormedFrom stack (f.events ++ es) := by
  induction f generalizing stack es with
  | nil => exact hes
  | leaf l rest ih => exact ⟨hf.1.sound, ih hf.2 hes⟩
  | empty t rest ih => exact ⟨hf.1, ih hf.2 hes⟩
  | node t kids rest ihk ihr =>
    have hkids : WellFormedIn (inScope (t :: stack)) kids := hf.2.1
    rw [Forest.events, List.cons_append, List.append_assoc]
    exact ⟨hf.1, ihk hkids (ihr hf.2.2 hes)⟩

theorem DocumentNode.WellFormed.events {d : DocumentNode} (h : d.WellFormed) :
    WellFormedFrom [] d.forest.events := by
  have hbefore : ∀ l ∈ d.declaration.toList.map Leaf.decl ++ d.prolog, l.Sound := by
    intro l hl
    rcases List.mem_append.mp hl with hdecl | hmisc
    · obtain ⟨raw, -, rfl⟩ := List.mem_map.mp hdecl
      exact Leaf.sound_decl raw
    · exact Leaf.sound_of_isMisc (h.prolog l hmisc)
  have hafter : WellFormedFrom [] (d.epilog.map Event.leaf ++ []) :=
    wellFormedFrom_leaves (fun l hl => Leaf.sound_of_isMisc (h.epilog l hl)) trivial
  have helement : ∀ rest : Forest RawTag Leaf,
      (d.element rest).events = (d.element .nil).events ++ rest.events := by
    intro rest
    unfold DocumentNode.element
    cases d.content with
    | none => rfl
    | some kids => simp
  rw [DocumentNode.forest, (Forest.foldr_leaf _ _).1, helement, (Forest.foldr_leaf _ _).1]
  have hroot : WellFormedIn (inScope []) (d.element .nil) := h.element
  exact wellFormedFrom_leaves hbefore (hroot.events hafter)

end DianService.Lib.Xml
