import DianService.Lib.Xml.Namespaces

/-
  XML text and the document it spells: the productions of XML 1.0 with tags and leaves as written,
  one rule for each. Names, references and values are checked by `WellFormed`, on the document.
  A text that spells a well-formed document is well formed (`IsDocument`).
-/

namespace DianService.Lib.Xml

/-! ## Leaves and tags -/

def Leaf.spelling : Leaf → Text
  | .text raw => raw.toList
  | .cdata raw => "<![CDATA[".toList ++ raw.toList ++ "]]>".toList
  | .ref name => '&' :: name.toList ++ [';']
  | .pi raw => "<?".toList ++ raw.toList ++ "?>".toList
  | .comment raw => "<!--".toList ++ raw.toList ++ "-->".toList
  | .decl raw => "<?".toList ++ raw.toList ++ "?>".toList
  | .doctype raw => "<!DOCTYPE".toList ++ raw.toList ++ ">".toList

def Leaf.isText : Leaf → Bool
  | .text _ => true
  | _ => false

/-- White space, or nothing. -/
def IsSpaces (t : Text) : Prop := ∀ c ∈ t, isSpace c = true

/-- The attributes of a tag, each after white space. -/
inductive SpellsAttributes : Text → List Attribute → Prop where
  | nil : SpellsAttributes [] []
  | cons {space before after : Text} {quote : Char} {a : Attribute} {t : Text}
      {attributes : List Attribute} (hspace : IsSpaces space) (hsome : space ≠ [])
      (hbefore : IsSpaces before) (hafter : IsSpaces after) (hquote : quote = '"' ∨ quote = '\'')
      (hraw : quote ∉ a.raw.toList) (h : SpellsAttributes t attributes) :
      SpellsAttributes
        (space ++ a.key.toList ++ before ++ '=' :: after ++ quote :: a.raw.toList ++ quote :: t)
        (a :: attributes)

/-! ## Content -/

/-- Nothing, markup or a reference follows. -/
def EndsText : Text → Prop
  | [] => True
  | c :: _ => c = '<' ∨ c = '&'

inductive Spells : Text → Forest RawTag Leaf → Prop where
  | nil : Spells [] .nil
  | text {raw : String} {t : Text} {rest : Forest RawTag Leaf} (hends : EndsText t)
      (h : Spells t rest) : Spells (raw.toList ++ t) (.leaf (.text raw) rest)
  | leaf {l : Leaf} {t : Text} {rest : Forest RawTag Leaf} (hl : l.isText = false)
      (h : Spells t rest) : Spells (l.spelling ++ t) (.leaf l rest)
  | empty {tag : RawTag} {a space t : Text} {rest : Forest RawTag Leaf}
      (ha : SpellsAttributes a tag.attributes) (hspace : IsSpaces space) (h : Spells t rest) :
      Spells ('<' :: tag.name.toList ++ a ++ space ++ '/' :: '>' :: t) (.empty tag rest)
  | node {tag : RawTag} {a space k space' t : Text} {kids rest : Forest RawTag Leaf}
      (ha : SpellsAttributes a tag.attributes) (hspace : IsSpaces space) (hkids : Spells k kids)
      (hspace' : IsSpaces space') (h : Spells t rest) :
      Spells ('<' :: tag.name.toList ++ a ++ space ++ '>' :: k ++ '<' :: '/' :: tag.name.toList ++
        space' ++ '>' :: t) (.node tag kids rest)

/-! ## Documents -/

/-- Production `VersionNum`. -/
def isVersion (raw : Text) : Bool :=
  raw.take 2 = ['1', '.'] && raw.drop 2 ≠ [] && (raw.drop 2).all Char.isDigit

/-- Production `EncName`. -/
def isEncodingName : Text → Bool
  | [] => false
  | c :: cs => c.isAlpha && cs.all fun c => c.isAlphanum || c = '.' || c = '_' || c = '-'

/-- The pseudo-attributes of an XML declaration. -/
def isDeclaration : List Attribute → Bool
  | [] => false
  | version :: others =>
      version.key = "version" && isVersion version.raw.toList &&
        match others with
        | [] => true
        | [a] => encoding a || standalone a
        | [a, b] => encoding a && standalone b
        | _ => false
where
  encoding (a : Attribute) : Bool := a.key = "encoding" && isEncodingName a.raw.toList
  standalone (a : Attribute) : Bool := a.key = "standalone" && (a.raw = "yes" || a.raw = "no")

/-- What stands between `<?` and `?>`. -/
def SpellsDeclaration (raw : String) : Prop :=
  ∃ a space attributes, raw.toList = "xml".toList ++ a ++ space ∧
    SpellsAttributes a attributes ∧ IsSpaces space ∧ isDeclaration attributes = true

structure SpellsDocument (text : Text) (d : DocumentNode) : Prop where
  spells : Spells text d.forest
  declaration : ∀ raw ∈ d.declaration, SpellsDeclaration raw

/-- The text is a well-formed document, in the sense of namespaces too. -/
def IsDocument (text : Text) (d : DocumentNode) : Prop := SpellsDocument text d ∧ d.WellFormed

/-! ## What text is made of -/

/-- Content that does not start with text starts with markup or a reference. -/
theorem Spells.endsText {t : Text} {f : Forest RawTag Leaf} (h : Spells t f)
    (hf : ∀ raw rest, f ≠ .leaf (.text raw) rest) : EndsText t := by
  cases h with
  | nil => trivial
  | text => exact absurd rfl (hf _ _)
  | @leaf l t rest hl =>
      cases l with
      | text => cases hl
      | cdata | pi | comment | decl | doctype => exact .inl rfl
      | ref => exact .inr rfl
  | empty => exact .inl rfl
  | node => exact .inl rfl

end DianService.Lib.Xml
