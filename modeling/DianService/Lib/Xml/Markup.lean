import DianService.Lib.Xml.Lexing

/-
  Markup with values in it, as a template prints it that escapes its values. Names, keys and text
  of the template are literal and can be checked once, without the values (`Markup.sound`): then
  what is printed spells the elements of the template, with each value as character data and
  references, whatever the values are.
-/

namespace DianService.Lib.Xml

/-! ## Values -/

/-- The name of the reference that stands for a character of a value. -/
def escapeName? : Char → Option Text
  | '<' => some "lt".toList
  | '>' => some "gt".toList
  | '&' => some "amp".toList
  | '"' => some "quot".toList
  | '\'' => some "#x27".toList
  | '/' => some "#x2f".toList
  | _ => none

def escapeChar (c : Char) : Text :=
  match escapeName? c with
  | some name => '&' :: name ++ [';']
  | none => [c]

/-- Text of the template, or a value. -/
inductive Part where
  | lit (s : String)
  | val (s : String)

def Part.print : Part → Text
  | .lit s => s.toList
  | .val s => s.toList.flatMap escapeChar

/-- What the part stands for. -/
def Part.text : Part → Text
  | .lit s => s.toList
  | .val s => s.toList

def printParts (parts : List Part) : Text := parts.flatMap Part.print

/-! ## Markup -/

/-- An attribute after white space. -/
structure PartAttribute where
  space : String
  key : String
  value : List Part

structure PartTag where
  name : String
  attributes : List PartAttribute

inductive PartLeaf where
  | text (parts : List Part)
  | comment (raw : String)
  | decl (raw : String)

abbrev Markup := Forest PartTag PartLeaf

def PartAttribute.print (a : PartAttribute) : Text :=
  a.space.toList ++ a.key.toList ++ '=' :: '"' :: printParts a.value ++ ['"']

/-- Name and attributes of a start tag. -/
def PartTag.print (t : PartTag) : Text :=
  t.name.toList ++ t.attributes.flatMap PartAttribute.print

def PartLeaf.print : PartLeaf → Text
  | .text parts => printParts parts
  | .comment raw => "<!--".toList ++ raw.toList ++ "-->".toList
  | .decl raw => "<?".toList ++ raw.toList ++ "?>".toList

namespace Markup

def print : Markup → Text
  | .nil => []
  | .leaf l rest => l.print ++ print rest
  | .empty t rest => '<' :: t.print ++ '/' :: '>' :: print rest
  | .node t kids rest =>
      '<' :: t.print ++ '>' :: print kids ++ '<' :: '/' :: t.name.toList ++ '>' :: print rest

/-- A declaration, and the root element on the next line. -/
def document (declaration : String) (root : PartTag) (content : Markup) : Markup :=
  .leaf (.decl declaration) (.leaf (.text [.lit "\n"]) (.node root content .nil))

/-- All text in it. -/
def text : Markup → Text
  | .nil => []
  | .leaf (.text parts) rest => parts.flatMap Part.text ++ text rest
  | .leaf _ rest => text rest
  | .empty _ rest => text rest
  | .node _ kids rest => text kids ++ text rest

end Markup

/-! ## What is spelled -/

def PartAttribute.raw (a : PartAttribute) : Attribute := ⟨a.key, String.ofList (printParts a.value)⟩

def PartTag.raw (t : PartTag) : RawTag := ⟨t.name, t.attributes.map PartAttribute.raw⟩

/-- Content after a character. -/
def Forest.consChar (c : Char) : Forest RawTag Leaf → Forest RawTag Leaf
  | .leaf (.text raw) rest => .leaf (.text (String.ofList (c :: raw.toList))) rest
  | f => .leaf (.text (String.ofList [c])) f

/-- Content after a character of a value. -/
def Forest.consValue (c : Char) (f : Forest RawTag Leaf) : Forest RawTag Leaf :=
  match escapeName? c with
  | some name => .leaf (.ref (String.ofList name)) f
  | none => f.consChar c

def Part.before (f : Forest RawTag Leaf) : Part → Forest RawTag Leaf
  | .lit s => s.toList.foldr Forest.consChar f
  | .val s => s.toList.foldr Forest.consValue f

def PartLeaf.before (f : Forest RawTag Leaf) : PartLeaf → Forest RawTag Leaf
  | .text parts => parts.foldr (fun part rest => part.before rest) f
  | .comment raw => .leaf (.comment raw) f
  | .decl raw => .leaf (.decl raw) f

def Markup.forest : Markup → Forest RawTag Leaf
  | .nil => .nil
  | .leaf l rest => l.before (forest rest)
  | .empty t rest => .empty t.raw (forest rest)
  | .node t kids rest => .node t.raw (forest kids) (forest rest)

/-! ## What can be checked of a template -/

/-- Text that needs no escapes. -/
def isPlain (s : String) : Bool :=
  s.toList.all fun c => isXmlChar c && c ≠ '<' && c ≠ '>' && c ≠ '&'

def Part.plain : Part → Bool
  | .lit s => isPlain s
  | .val _ => true

/-- For use between quotes. -/
def Part.quoted : Part → Bool
  | .lit s => isPlain s && s.toList.all (· ≠ '"')
  | .val _ => true

def PartAttribute.sound (a : PartAttribute) : Bool :=
  a.space ≠ "" && a.space.toList.all isSpace && isQName a.key.toList && a.value.all Part.quoted

def PartTag.sound (t : PartTag) : Bool :=
  isQName t.name.toList && t.attributes.all PartAttribute.sound

def PartLeaf.sound : PartLeaf → Bool
  | .text parts => parts.all Part.plain
  | .comment raw => !occursIn "--".toList raw.toList && raw.toList.getLast? ≠ some '-'
  | .decl raw => piTarget raw.toList = "xml".toList && !occursIn "?>".toList raw.toList

namespace Markup

def sound : Markup → Bool
  | .nil => true
  | .leaf l rest => l.sound && sound rest
  | .empty t rest => t.sound && sound rest
  | .node t kids rest => t.sound && sound kids && sound rest

theorem sound_append (m n : Markup) : sound (m ++ n) = (sound m && sound n) := by
  show sound (Forest.append m n) = _
  induction m with
  | nil => rfl
  | leaf l rest ih => rw [Forest.append, sound, ih, sound, Bool.and_assoc]
  | empty t rest ih => rw [Forest.append, sound, ih, sound, Bool.and_assoc]
  | node t kids rest _ ih => rw [Forest.append, sound, ih, sound, Bool.and_assoc, Bool.and_assoc,
      Bool.and_assoc]

end Markup

/-! ## Escaped values -/

theorem escapeName?_none {c : Char} (h : escapeName? c = none) :
    c ≠ '<' ∧ c ≠ '>' ∧ c ≠ '&' ∧ c ≠ '"' := by
  refine ⟨?_, ?_, ?_, ?_⟩ <;> intro heq <;> rw [heq] at h <;> exact absurd h (by decide)

/-- What an escape is made of. -/
theorem escapeName?_some {c : Char} {name : Text} (h : escapeName? c = some name) :
    reference? name = some c ∧
      ∀ d ∈ name, d ≠ '<' ∧ d ≠ '>' ∧ d ≠ '&' ∧ d ≠ '"' ∧ d ≠ ';' := by
  have hall : reference? name = some c ∧
      (name.all fun d => d ≠ '<' && d ≠ '>' && d ≠ '&' && d ≠ '"' && d ≠ ';') = true := by
    unfold escapeName? at h
    split at h <;> cases h <;> decide
  simpa [List.all_eq_true, and_assoc] using hall

theorem escapeChar_of_none {c : Char} (h : escapeName? c = none) : escapeChar c = [c] := by
  rw [escapeChar, h]

theorem escapeChar_of_some {c : Char} {name : Text} (h : escapeName? c = some name) :
    escapeChar c = '&' :: name ++ [';'] := by
  rw [escapeChar, h]

/-- Nothing of an escape is markup. -/
theorem escapeChar_quoted {c d : Char} (h : d ∈ escapeChar c) : d ≠ '<' ∧ d ≠ '>' ∧ d ≠ '"' := by
  cases hc : escapeName? c with
  | none =>
      rw [escapeChar_of_none hc, List.mem_singleton] at h
      obtain ⟨hlt, hgt, -, hquot⟩ := escapeName?_none hc
      rw [h]
      exact ⟨hlt, hgt, hquot⟩
  | some name =>
      obtain ⟨-, hname⟩ := escapeName?_some hc
      rw [escapeChar_of_some hc, List.cons_append, List.mem_cons, List.mem_append,
        List.mem_singleton] at h
      obtain rfl | h | rfl := h
      · decide
      · obtain ⟨hlt, hgt, -, hquot, -⟩ := hname d h
        exact ⟨hlt, hgt, hquot⟩
      · decide

/-! ## Characters -/

/-- A character joins the character data that follows it, or is character data of its own. -/
theorem consChar_cases (c : Char) (f : Forest RawTag Leaf) :
    (∃ raw rest, f = .leaf (.text raw) rest ∧
      f.consChar c = .leaf (.text (String.ofList (c :: raw.toList))) rest) ∨
    ((∀ raw rest, f ≠ .leaf (.text raw) rest) ∧
      f.consChar c = .leaf (.text (String.ofList [c])) f) := by
  unfold Forest.consChar
  split
  · exact Or.inl ⟨_, _, rfl, rfl⟩
  · rename_i hno
    exact Or.inr ⟨hno, rfl⟩

theorem Spells.consChar {t : Text} {f : Forest RawTag Leaf} (h : Spells t f) (c : Char) :
    Spells (c :: t) (f.consChar c) := by
  obtain ⟨raw, rest, rfl, hchar⟩ | ⟨hf, hchar⟩ := consChar_cases c f
  · rw [hchar]
    cases h with
    | text hends h =>
      have htext := @Spells.text (String.ofList (c :: raw.toList)) _ rest hends h
      rwa [String.toList_ofList] at htext
    | leaf hl h => cases hl
  · rw [hchar]
    have htext := @Spells.text (String.ofList [c]) t f (h.endsText hf) h
    rwa [String.toList_ofList] at htext

theorem Forest.Lexical.cons_leaf {l : Leaf} {f : Forest RawTag Leaf} :
    (Forest.leaf l f).Lexical ↔ l.Lexical ∧ f.Lexical := List.forall_mem_cons

theorem Forest.Lexical.consChar {c : Char} {f : Forest RawTag Leaf} (h : f.Lexical)
    (hc : c ≠ '<' ∧ c ≠ '&') : (f.consChar c).Lexical := by
  have hne : ∀ cs, String.ofList (c :: cs) ≠ "" := fun cs heq => by
    have hcs := congrArg String.toList heq
    rw [String.toList_ofList] at hcs
    cases hcs
  obtain ⟨raw, rest, rfl, hchar⟩ | ⟨-, hchar⟩ := consChar_cases c f
  · rw [hchar]
    obtain ⟨⟨-, hraw⟩, hrest⟩ := cons_leaf.mp h
    refine cons_leaf.mpr ⟨⟨hne _, ?_⟩, hrest⟩
    rw [String.toList_ofList]
    exact List.forall_mem_cons.mpr ⟨hc, hraw⟩
  · rw [hchar]
    refine cons_leaf.mpr ⟨⟨hne _, ?_⟩, h⟩
    rw [String.toList_ofList]
    exact List.forall_mem_singleton.mpr hc

theorem Spells.consValue {t : Text} {f : Forest RawTag Leaf} (h : Spells t f) (c : Char) :
    Spells (escapeChar c ++ t) (f.consValue c) := by
  unfold Forest.consValue
  cases hc : escapeName? c with
  | none =>
    rw [escapeChar_of_none hc]
    exact h.consChar c
  | some name =>
    have hspelling : (Leaf.ref (String.ofList name)).spelling =
        '&' :: (String.ofList name).toList ++ [';'] := rfl
    rw [String.toList_ofList, ← escapeChar_of_some hc] at hspelling
    rw [← hspelling]
    exact .leaf rfl h

theorem Forest.Lexical.consValue {f : Forest RawTag Leaf} (h : f.Lexical) (c : Char) :
    (f.consValue c).Lexical := by
  unfold Forest.consValue
  cases hc : escapeName? c with
  | none =>
    obtain ⟨hlt, -, hamp, -⟩ := escapeName?_none hc
    exact h.consChar ⟨hlt, hamp⟩
  | some name =>
    refine cons_leaf.mpr ⟨?_, h⟩
    intro d hd
    rw [String.toList_ofList] at hd
    obtain ⟨-, hname⟩ := escapeName?_some hc
    obtain ⟨hlt, -, hamp, -, hsemi⟩ := hname d hd
    exact ⟨hlt, hamp, hsemi⟩

theorem sound_consChar {f : Forest RawTag Leaf} (h : ∀ l ∈ f.leaves, l.Sound) (c : Char) :
    ∀ l ∈ (f.consChar c).leaves, l.Sound := by
  have htext : ∀ raw, (Leaf.text raw).Sound := fun raw =>
    ⟨fun _ heq => Leaf.noConfusion heq, fun _ heq => Leaf.noConfusion heq⟩
  obtain ⟨raw, rest, rfl, hchar⟩ | ⟨-, hchar⟩ := consChar_cases c f
  · rw [hchar]
    exact List.forall_mem_cons.mpr ⟨htext _, (List.forall_mem_cons.mp h).2⟩
  · rw [hchar]
    exact List.forall_mem_cons.mpr ⟨htext _, h⟩

theorem sound_consValue {f : Forest RawTag Leaf} (h : ∀ l ∈ f.leaves, l.Sound) (c : Char) :
    ∀ l ∈ (f.consValue c).leaves, l.Sound := by
  unfold Forest.consValue
  cases hc : escapeName? c with
  | none => exact sound_consChar h c
  | some name =>
    refine List.forall_mem_cons.mpr ⟨⟨fun _ heq => Leaf.noConfusion heq, fun n heq => ?_⟩, h⟩
    obtain rfl := Leaf.ref.inj heq
    rw [String.toList_ofList, (escapeName?_some hc).1]
    rfl

/-! ## Leaves -/

theorem Part.plain_lit {s : String} (h : (Part.lit s).plain = true) :
    ∀ c ∈ s.toList, c ≠ '<' ∧ c ≠ '&' := by
  have hall : isPlain s = true := h
  simp only [isPlain, List.all_eq_true, Bool.and_eq_true, decide_eq_true_eq] at hall
  intro c hc
  obtain ⟨⟨⟨-, hlt⟩, -⟩, hamp⟩ := hall c hc
  exact ⟨hlt, hamp⟩

/-- What a character keeps and a character of a value keeps, text keeps: `P` is about what is
    printed, what is meant and what is spelled. -/
theorem text_before {P : Text → Text → Forest RawTag Leaf → Prop}
    (hchar : ∀ {c t u f}, c ≠ '<' ∧ c ≠ '&' → P t u f → P (c :: t) (c :: u) (f.consChar c))
    (hvalue : ∀ {c t u f}, P t u f → P (escapeChar c ++ t) (c :: u) (f.consValue c))
    {parts : List Part} (hparts : ∀ part ∈ parts, part.plain = true) {t u : Text}
    {f : Forest RawTag Leaf} (h : P t u f) :
    P (printParts parts ++ t) (parts.flatMap Part.text ++ u) ((PartLeaf.text parts).before f) := by
  induction parts with
  | nil => exact h
  | cons part parts ih =>
    obtain ⟨hpart, hlater⟩ := List.forall_mem_cons.mp hparts
    have hrest := ih hlater
    rw [printParts, List.flatMap_cons, List.flatMap_cons, List.append_assoc, List.append_assoc]
    show P (part.print ++ (printParts parts ++ t)) _
      (part.before ((PartLeaf.text parts).before f))
    generalize printParts parts ++ t = t', (PartLeaf.text parts).before f = g,
      parts.flatMap Part.text ++ u = u' at hrest ⊢
    cases part with
    | lit s =>
      have hchars := Part.plain_lit hpart
      show P (s.toList ++ t') (s.toList ++ u') (s.toList.foldr Forest.consChar g)
      generalize s.toList = chars at hchars ⊢
      induction chars with
      | nil => exact hrest
      | cons c cs ihs =>
        obtain ⟨hc, hcs⟩ := List.forall_mem_cons.mp hchars
        exact hchar hc (ihs hcs)
    | val s =>
      show P (s.toList.flatMap escapeChar ++ t') (s.toList ++ u')
        (s.toList.foldr Forest.consValue g)
      induction s.toList with
      | nil => exact hrest
      | cons c cs ihs =>
        rw [List.flatMap_cons, List.append_assoc]
        exact hvalue ihs

theorem PartLeaf.spells {t : Text} {f : Forest RawTag Leaf} (h : Spells t f) {l : PartLeaf}
    (hl : l.sound = true) : Spells (l.print ++ t) (l.before f) := by
  cases l with
  | comment raw => exact @Spells.leaf (.comment raw) t f rfl h
  | decl raw => exact @Spells.leaf (.decl raw) t f rfl h
  | text parts =>
    exact text_before (P := fun t _ f => Spells t f) (fun _ h => h.consChar _)
      (fun h => h.consValue _) (List.all_eq_true.mp hl) (u := []) h

theorem PartLeaf.lexical {f : Forest RawTag Leaf} (h : f.Lexical) {l : PartLeaf}
    (hl : l.sound = true) : (l.before f).Lexical := by
  cases l with
  | comment raw =>
    simp only [PartLeaf.sound, Bool.and_eq_true, Bool.not_eq_true', decide_eq_true_eq] at hl
    exact Forest.Lexical.cons_leaf.mpr ⟨hl, h⟩
  | decl raw =>
    simp only [PartLeaf.sound, Bool.and_eq_true, Bool.not_eq_true', decide_eq_true_eq] at hl
    exact Forest.Lexical.cons_leaf.mpr ⟨hl, h⟩
  | text parts =>
    exact text_before (P := fun _ _ f => f.Lexical) (fun hc h => h.consChar hc)
      (fun h => h.consValue _) (List.all_eq_true.mp hl) (t := []) (u := []) h

theorem PartLeaf.sound_leaves {f : Forest RawTag Leaf} (h : ∀ l ∈ f.leaves, l.Sound)
    {l : PartLeaf} (hl : l.sound = true) : ∀ l' ∈ (l.before f).leaves, l'.Sound := by
  cases l with
  | comment raw | decl raw =>
    exact List.forall_mem_cons.mpr
      ⟨⟨fun _ heq => Leaf.noConfusion heq, fun _ heq => Leaf.noConfusion heq⟩, h⟩
  | text parts =>
    exact text_before (P := fun _ _ f => ∀ l ∈ f.leaves, l.Sound) (fun _ h => sound_consChar h _)
      (fun h => sound_consValue h _) (List.all_eq_true.mp hl) (t := []) (u := []) h

/-! ## Tags -/

theorem Part.quoted_print {part : Part} (h : part.quoted = true) : '"' ∉ part.print := by
  cases part with
  | lit s =>
    have hall : (isPlain s && s.toList.all (· ≠ '"')) = true := h
    simp only [Bool.and_eq_true, List.all_eq_true, decide_eq_true_eq] at hall
    exact fun hmem => hall.2 _ hmem rfl
  | val s =>
    intro hmem
    obtain ⟨c, -, hc⟩ := List.mem_flatMap.mp hmem
    exact (escapeChar_quoted hc).2.2 rfl

theorem PartTag.spells {t : PartTag} (h : t.sound = true) :
    SpellsAttributes (t.attributes.flatMap PartAttribute.print) t.raw.attributes := by
  have hall : ∀ a ∈ t.attributes, a.sound = true :=
    List.all_eq_true.mp (Bool.and_eq_true_iff.mp h).2
  show SpellsAttributes _ (t.attributes.map PartAttribute.raw)
  generalize t.attributes = attributes at hall ⊢
  induction attributes with
  | nil => exact .nil
  | cons a as ih =>
    obtain ⟨ha, has⟩ := List.forall_mem_cons.mp hall
    simp only [PartAttribute.sound, Bool.and_eq_true, List.all_eq_true, decide_eq_true_eq] at ha
    obtain ⟨⟨⟨hsome, hspace⟩, -⟩, hvalue⟩ := ha
    have hraw : '"' ∉ a.raw.raw.toList := by
      rw [PartAttribute.raw, String.toList_ofList]
      intro hmem
      obtain ⟨part, hpart, hmem⟩ := List.mem_flatMap.mp hmem
      exact Part.quoted_print (hvalue part hpart) hmem
    have hnone : IsSpaces [] := List.forall_mem_nil _
    have hcons := SpellsAttributes.cons (a := a.raw) hspace
      (fun hnil => hsome (String.toList_eq_nil_iff.mp hnil)) hnone hnone (Or.inl rfl) hraw (ih has)
    rw [PartAttribute.raw, String.toList_ofList] at hcons
    simpa [PartAttribute.print, PartAttribute.raw] using hcons

theorem PartTag.lexical {t : PartTag} (h : t.sound = true) : t.raw.Lexical := by
  simp only [PartTag.sound, Bool.and_eq_true, List.all_eq_true] at h
  refine ⟨h.1, fun b hb => ?_⟩
  obtain ⟨a, ha, rfl⟩ := List.mem_map.mp hb
  have hsound := h.2 a ha
  simp only [PartAttribute.sound, Bool.and_eq_true] at hsound
  exact hsound.1.2

/-! ## Content -/

namespace Markup

/-- What is printed spells the elements of the markup. -/
theorem spells {m : Markup} (h : m.sound = true) : Spells m.print m.forest := by
  have hnone : IsSpaces [] := List.forall_mem_nil _
  induction m with
  | nil => exact .nil
  | leaf l rest ih =>
    rw [sound, Bool.and_eq_true] at h
    exact PartLeaf.spells (ih h.2) h.1
  | empty t rest ih =>
    rw [sound, Bool.and_eq_true] at h
    have hempty : Spells _ (.empty t.raw (forest rest)) := .empty (PartTag.spells h.1) hnone
      (ih h.2)
    simpa [print, forest, PartTag.print, PartTag.raw] using hempty
  | node t kids rest ihk ihr =>
    rw [sound, Bool.and_eq_true, Bool.and_eq_true] at h
    have hnode : Spells _ (.node t.raw (forest kids) (forest rest)) :=
      .node (PartTag.spells h.1.1) hnone (ihk h.1.2) hnone (ihr h.2)
    simpa [print, forest, PartTag.print, PartTag.raw] using hnode

theorem lexical {m : Markup} (h : m.sound = true) : m.forest.Lexical := by
  induction m with
  | nil => exact List.forall_mem_nil _
  | leaf l rest ih =>
    rw [sound, Bool.and_eq_true] at h
    exact PartLeaf.lexical (ih h.2) h.1
  | empty t rest ih =>
    rw [sound, Bool.and_eq_true] at h
    exact List.forall_mem_cons.mpr ⟨PartTag.lexical h.1, ih h.2⟩
  | node t kids rest ihk ihr =>
    rw [sound, Bool.and_eq_true, Bool.and_eq_true] at h
    have htag := PartTag.lexical h.1.1
    exact List.forall_mem_cons.mpr ⟨htag, List.forall_mem_append.mpr ⟨ihk h.1.2,
      List.forall_mem_cons.mpr ⟨htag, ihr h.2⟩⟩⟩

/-- No DTD, and references to characters only. -/
theorem sound_leaves {m : Markup} (h : m.sound = true) : ∀ l ∈ m.forest.leaves, l.Sound := by
  induction m with
  | nil => exact List.forall_mem_nil _
  | leaf l rest ih =>
    rw [sound, Bool.and_eq_true] at h
    exact PartLeaf.sound_leaves (ih h.2) h.1
  | empty t rest ih =>
    rw [sound, Bool.and_eq_true] at h
    exact ih h.2
  | node t kids rest ihk ihr =>
    rw [sound, Bool.and_eq_true, Bool.and_eq_true] at h
    exact List.forall_mem_append.mpr ⟨ihk h.1.2, ihr h.2⟩

end Markup

end DianService.Lib.Xml
