import DianService.Lib.Xml.Reader
import DianService.Lib.Xml.Tokens

/-
  What a text spells is what a reader of it delivers, as long as its tokens can be told apart
  (`Lexical`): this takes less than well-formedness, and leaves every character to text and values.
  The reader of `Reader.lean` knows end tags by their name; `closeTags` gives them the start tags
  that they close, as the events of a tree have them.
-/

namespace DianService.Lib.Xml

/-! ## Tokens that can be told apart -/

/-- The names of a tag. -/
def RawTag.Lexical (t : RawTag) : Prop :=
  isQName t.name.toList ∧ ∀ a ∈ t.attributes, isQName a.key.toList

def Leaf.Lexical : Leaf → Prop
  | .text raw => raw ≠ "" ∧ ∀ c ∈ raw.toList, c ≠ '<' ∧ c ≠ '&'
  | .cdata raw => occursIn "]]>".toList raw.toList = false
  | .ref name => ∀ c ∈ name.toList, c ≠ '<' ∧ c ≠ '&' ∧ c ≠ ';'
  | .pi raw => isNCName (piTarget raw.toList) ∧ piTarget raw.toList ≠ "xml".toList ∧
      occursIn "?>".toList raw.toList = false
  | .comment raw => occursIn "--".toList raw.toList = false ∧ raw.toList.getLast? ≠ some '-'
  | .decl raw => piTarget raw.toList = "xml".toList ∧ occursIn "?>".toList raw.toList = false
  | .doctype _ => False

def Event.Lexical : Event RawTag Leaf → Prop
  | .start t | .empty t | .close t => t.Lexical
  | .leaf l => l.Lexical

def Forest.Lexical (f : Forest RawTag Leaf) : Prop := ∀ e ∈ f.events, e.Lexical

/-! ## Names -/

theorem exists_name {name : Text} (h : isQName name) : ∃ c cs, name = c :: cs := by
  cases name with
  | nil => cases h
  | cons c cs => exact ⟨c, cs, rfl⟩

/-- What ends a name is no part of one. -/
theorem ne_of_mem_name {name : Text} (h : isQName name) {c : Char} (hc : c ∈ name) :
    isSpace c = false ∧ c ∉ ['<', '>', '/', '=', '!', '?', '&', '"', '\''] := by
  have hnot : ∀ d, isNameChar d = false → d ≠ ':' → c ≠ d := by
    intro d hd hcolon heq
    rw [heq] at hc
    exact not_mem_of_isQName h hd hcolon hc
  constructor
  · simp only [isSpace, Bool.or_eq_false_iff, decide_eq_false_iff_not]
    exact ⟨⟨⟨hnot _ rfl (by decide), hnot _ rfl (by decide)⟩, hnot _ rfl (by decide)⟩,
      hnot _ rfl (by decide)⟩
  · intro hmem
    simp only [List.mem_cons, List.not_mem_nil, or_false] at hmem
    have hall : isNameChar c = false ∧ c ≠ ':' := by
      obtain rfl | rfl | rfl | rfl | rfl | rfl | rfl | rfl | rfl := hmem <;> decide
    exact hnot c hall.1 hall.2 rfl

/-! ## The end of a token -/

theorem occursIn_cons {stop : Text} {c : Char} {cs : Text} (h : occursIn stop (c :: cs) = false) :
    stop.isPrefixOf (c :: cs) = false ∧ occursIn stop cs = false := by
  rwa [occursIn, List.tails, List.any_cons, Bool.or_eq_false_iff] at h

/-- An occurrence of `init ++ [last]` that starts in `raw` lies in it: elsewhere its last character
    would be one of `init`. -/
theorem not_isPrefixOf_append {init raw rest : Text} {last c : Char} (hlast : last ∉ init)
    (h : (init ++ [last]).isPrefixOf (c :: raw) = false) :
    (init ++ [last]).isPrefixOf (c :: raw ++ (init ++ last :: rest)) = false := by
  rw [Bool.eq_false_iff, ne_eq, List.isPrefixOf_iff_prefix] at h ⊢
  intro hprefix
  by_cases hlen : (init ++ [last]).length ≤ (c :: raw).length
  · exact h (List.prefix_of_prefix_length_le hprefix (List.prefix_append _ _) hlen)
  · rw [List.length_append, List.length_singleton, Nat.not_le] at hlen
    obtain ⟨w, hw⟩ := hprefix
    have hat : (c :: raw ++ (init ++ last :: rest))[init.length]? = some last := by
      rw [← hw, List.append_assoc, List.getElem?_append_right (Nat.le_refl _), Nat.sub_self]
      rfl
    rw [List.getElem?_append_right (by omega), List.getElem?_append_left (by
      rw [List.length_cons] at hlen ⊢
      omega)] at hat
    exact hlast (List.mem_of_getElem? hat)

theorem splitAtFirst_append {init : Text} {last : Char} (hlast : last ∉ init) {raw : Text}
    (h : occursIn (init ++ [last]) raw = false) (rest : Text) :
    splitAtFirst (init ++ [last]) (raw ++ (init ++ last :: rest)) = some (raw, rest) := by
  induction raw with
  | nil =>
    have hstop : init ++ last :: rest = (init ++ [last]) ++ rest := by simp
    obtain ⟨c, cs, hcons⟩ : ∃ c cs, init ++ last :: rest = c :: cs := by
      cases init with
      | nil => exact ⟨_, _, rfl⟩
      | cons c cs => exact ⟨_, _, rfl⟩
    rw [List.nil_append, hcons, splitAtFirst, ← hcons, hstop, if_pos, List.drop_left]
    exact List.isPrefixOf_iff_prefix.mpr (List.prefix_append _ _)
  | cons c raw ih =>
    obtain ⟨hhere, hlater⟩ := occursIn_cons h
    rw [List.cons_append, splitAtFirst, ← List.cons_append, not_isPrefixOf_append hlast hhere,
      ih hlater]
    rfl

/-- One character ends the token. -/
theorem splitAtFirst_char {stop : Char} {raw : Text} (h : stop ∉ raw) (rest : Text) :
    splitAtFirst [stop] (raw ++ stop :: rest) = some (raw, rest) := by
  have hnot : occursIn ([] ++ [stop]) raw = false := by
    induction raw with
    | nil => rfl
    | cons c raw ih =>
      rw [List.mem_cons, not_or] at h
      rw [occursIn, List.tails, List.any_cons, Bool.or_eq_false_iff]
      exact ⟨by simp [List.isPrefixOf, h.1], ih h.2⟩
  exact splitAtFirst_append List.not_mem_nil hnot rest

/-! ## One event -/

theorem readEvent_text {raw : String} {t : Text} (hraw : (Leaf.text raw).Lexical)
    (hends : EndsText t) : readEvent (raw.toList ++ t) = some (.leaf (.text raw), t) := by
  obtain ⟨hne, hchars⟩ := hraw
  have hsplit : (raw.toList ++ t).takeWhile (fun c => c ≠ '<' && c ≠ '&') = raw.toList ∧
      (raw.toList ++ t).dropWhile (fun c => c ≠ '<' && c ≠ '&') = t := by
    refine takeWhile_append_stop (fun c hc => by simpa using hchars c hc) fun c hc => ?_
    cases t with
    | nil => cases hc
    | cons d t =>
      cases hc
      obtain rfl | rfl := hends <;> rfl
  cases hcs : raw.toList with
  | nil => exact absurd (String.toList_eq_nil_iff.mp hcs) hne
  | cons c cs =>
    rw [hcs] at hsplit hchars
    obtain ⟨hlt, hamp⟩ := hchars c List.mem_cons_self
    have hevent : readEvent (c :: (cs ++ t)) =
        some (.leaf (.text (String.ofList ((c :: (cs ++ t)).takeWhile fun c =>
          c ≠ '<' && c ≠ '&'))), (c :: (cs ++ t)).dropWhile fun c => c ≠ '<' && c ≠ '&') := by
      unfold readEvent
      split <;> first
        | exact absurd (List.cons.inj ‹_›).1 hlt
        | exact absurd (List.cons.inj ‹_›).1 hamp
        | rfl
    rw [List.cons_append, hevent, ← List.cons_append, hsplit.1, hsplit.2, ← hcs,
      String.ofList_toList]

theorem readEvent_leaf {l : Leaf} {t : Text} (hl : l.Lexical) (hmarkup : l.isText = false) :
    readEvent (l.spelling ++ t) = some (.leaf l, t) := by
  cases l with
  | text raw => cases hmarkup
  | doctype raw => cases hl
  | cdata raw =>
    have hsplit := @splitAtFirst_append [']', ']'] '>' (by decide) raw.toList hl t
    show (splitAtFirst _ (raw.toList ++ [']', ']', '>'] ++ t)).map _ = _
    rw [List.append_assoc]
    exact (congrArg _ hsplit).trans (by rw [Option.map_some, String.ofList_toList])
  | ref name =>
    have hsplit := @splitAtFirst_char ';' name.toList (fun h => (hl _ h).2.2 rfl) t
    show (splitAtFirst _ (name.toList ++ [';'] ++ t)).map _ = _
    rw [List.append_assoc]
    exact (congrArg _ hsplit).trans (by rw [Option.map_some, String.ofList_toList])
  | pi raw =>
    have hsplit := @splitAtFirst_append ['?'] '>' (by decide) raw.toList hl.2.2 t
    show (splitAtFirst _ (raw.toList ++ ['?', '>'] ++ t)).map _ = _
    rw [List.append_assoc]
    refine (congrArg _ hsplit).trans ?_
    rw [Option.map_some, if_neg hl.2.1, String.ofList_toList]
  | comment raw =>
    have hno : occursIn (['-', '-'] ++ ['>']) raw.toList = false := by
      rw [Bool.eq_false_iff]
      intro hyes
      refine Bool.eq_false_iff.mp hl.1 ?_
      rw [occursIn, List.any_eq_true] at hyes ⊢
      obtain ⟨u, hu, hprefix⟩ := hyes
      refine ⟨u, hu, ?_⟩
      rw [List.isPrefixOf_iff_prefix] at hprefix ⊢
      exact (List.prefix_append _ _).trans hprefix
    have hsplit := splitAtFirst_append (by decide) hno t
    show (splitAtFirst _ (raw.toList ++ ['-', '-', '>'] ++ t)).map _ = _
    rw [List.append_assoc]
    exact (congrArg _ hsplit).trans (by rw [Option.map_some, String.ofList_toList])
  | decl raw =>
    have hsplit := @splitAtFirst_append ['?'] '>' (by decide) raw.toList hl.2 t
    show (splitAtFirst _ (raw.toList ++ ['?', '>'] ++ t)).map _ = _
    rw [List.append_assoc]
    refine (congrArg _ hsplit).trans ?_
    rw [Option.map_some, if_pos hl.1, String.ofList_toList]

/-! ## Tags -/

/-- How a start tag or an empty-element tag ends. -/
def tagEnd (isEmpty : Bool) : Text := if isEmpty then ['/', '>'] else ['>']

theorem dropWhile_spaces {space : Text} (h : IsSpaces space) {c : Char} (hc : isSpace c = false)
    (t : Text) : (space ++ c :: t).dropWhile isSpace = c :: t :=
  (takeWhile_append_stop h fun d hd => by
    cases hd
    exact hc).2

theorem readAttributes_end {space : Text} (hspace : IsSpaces space) (isEmpty : Bool) (t : Text)
    (fuel : Nat) :
    readAttributes (fuel + 1) (space ++ (tagEnd isEmpty ++ t)) = some ([], isEmpty, t) := by
  cases isEmpty with
  | false =>
    have hdrop : (space ++ '>' :: t).dropWhile isSpace = '>' :: t := dropWhile_spaces hspace rfl t
    show readAttributes (fuel + 1) (space ++ '>' :: t) = _
    rw [readAttributes, hdrop]
    rfl
  | true =>
    have hdrop : (space ++ '/' :: '>' :: t).dropWhile isSpace = '/' :: '>' :: t :=
      dropWhile_spaces hspace rfl _
    show readAttributes (fuel + 1) (space ++ '/' :: '>' :: t) = _
    rw [readAttributes, hdrop]
    rfl

/-- The first attribute of a tag, and the others. -/
theorem readAttributes_cons {space key before after raw : Text} {quote : Char}
    (hspace : IsSpaces space) (hkey : isQName key) (hbefore : IsSpaces before)
    (hafter : IsSpaces after) (hquote : quote = '"' ∨ quote = '\'') (hraw : quote ∉ raw)
    (fuel : Nat) (text : Text) :
    readAttributes (fuel + 1)
        (space ++ (key ++ (before ++ '=' :: (after ++ quote :: (raw ++ quote :: text))))) =
      (readAttributes fuel text).map fun r =>
        (⟨String.ofList key, String.ofList raw⟩ :: r.1, r.2.1, r.2.2) := by
  obtain ⟨c, cs, rfl⟩ := exists_name hkey
  obtain ⟨hc, hmarkup⟩ := ne_of_mem_name hkey List.mem_cons_self
  have hequals : '=' ∉ (c :: cs) ++ before := by
    rw [List.mem_append, not_or]
    refine ⟨fun h => (ne_of_mem_name hkey h).2 (by decide), fun h => ?_⟩
    exact absurd (hbefore _ h) (by decide)
  have hsplit := splitAtFirst_char hequals (after ++ quote :: (raw ++ quote :: text))
  have hname : ((c :: cs) ++ before).takeWhile (fun c => !isSpace c) = c :: cs := by
    refine (takeWhile_append_stop (fun d hd => ?_) fun d hd => ?_).1
    · rw [(ne_of_mem_name hkey hd).1]
      rfl
    · rw [hbefore d (List.mem_of_mem_head? hd)]
      rfl
  have hquoted : isSpace quote = false := by
    obtain rfl | rfl := hquote <;> rfl
  have hgt : c ≠ '>' := fun h => hmarkup (by simp [h])
  have hslash : c ≠ '/' := fun h => hmarkup (by simp [h])
  rw [readAttributes]
  rw [List.cons_append, dropWhile_spaces hspace hc]
  split
  · exact absurd (List.cons.inj ‹_›).1 hgt
  · exact absurd (List.cons.inj ‹_›).1 hslash
  · rename_i heq
    rw [← List.cons_append, ← List.append_assoc, hsplit]
    simp only [Option.bind_eq_bind, Option.bind_some, dropWhile_spaces hafter hquoted,
      if_pos hquote, splitAtFirst_char hraw, hname]
    cases readAttributes fuel text with
    | none => rfl
    | some r => rfl

theorem readAttributes_spelled {a : Text} {attributes : List Attribute}
    (ha : SpellsAttributes a attributes) (hkeys : ∀ b ∈ attributes, isQName b.key.toList)
    {space : Text} (hspace : IsSpaces space) (isEmpty : Bool) (t : Text) {fuel : Nat}
    (hfuel : attributes.length < fuel) :
    readAttributes fuel (a ++ (space ++ (tagEnd isEmpty ++ t))) =
      some (attributes, isEmpty, t) := by
  induction ha generalizing fuel with
  | nil =>
    obtain ⟨fuel, rfl⟩ := Nat.exists_eq_succ_of_ne_zero (Nat.ne_of_gt hfuel)
    exact readAttributes_end hspace isEmpty t fuel
  | @cons space' before after quote b t' attributes hspace' _ hbefore hafter hquote hraw h ih =>
    obtain ⟨fuel, rfl⟩ := Nat.exists_eq_succ_of_ne_zero (Nat.ne_of_gt (Nat.zero_lt_of_lt hfuel))
    have hrest := ih (fun c hc => hkeys c (List.mem_cons_of_mem b hc))
      (Nat.lt_of_succ_lt_succ hfuel)
    have hcons := readAttributes_cons hspace' (hkeys b List.mem_cons_self) hbefore hafter hquote
      hraw fuel (t' ++ (space ++ (tagEnd isEmpty ++ t)))
    rw [hrest, Option.map_some, String.ofList_toList, String.ofList_toList] at hcons
    simpa only [List.append_assoc, List.cons_append] using hcons

theorem length_attributes {a : Text} {attributes : List Attribute}
    (ha : SpellsAttributes a attributes) : attributes.length ≤ a.length := by
  induction ha with
  | nil => exact Nat.le_refl _
  | cons _ _ _ _ _ _ _ ih =>
    simp only [List.length_append, List.length_cons]
    omega

/-- A start tag or an empty-element tag. -/
def tagEvent (isEmpty : Bool) (t : RawTag) : Event RawTag Leaf :=
  if isEmpty then .empty t else .start t

theorem head?_afterName {a space : Text} {attributes : List Attribute}
    (ha : SpellsAttributes a attributes) (hspace : IsSpaces space) (isEmpty : Bool) (t : Text)
    {c : Char} (hc : c ∈ (a ++ (space ++ (tagEnd isEmpty ++ t))).head?) :
    isSpace c = true ∨ c = '>' ∨ c = '/' := by
  cases ha with
  | nil =>
    cases space with
    | cons d space =>
      cases hc
      exact Or.inl (hspace c List.mem_cons_self)
    | nil =>
      cases isEmpty with
      | false =>
        cases hc
        exact Or.inr (Or.inl rfl)
      | true =>
        cases hc
        exact Or.inr (Or.inr rfl)
  | @cons space' before after quote b t' attributes hspace' hsome =>
    cases space' with
    | nil => exact absurd rfl hsome
    | cons d space' =>
      cases hc
      exact Or.inl (hspace' c List.mem_cons_self)

/-- What comes before the attributes is the name. -/
theorem readEvent_open {c : Char} {cs name t : Text} {attributes : List Attribute} {isEmpty : Bool}
    (hc : c ∉ ['!', '?', '/'])
    (hname : (c :: cs).takeWhile (fun d => !isSpace d && d ≠ '>' && d ≠ '/') = name)
    (hrest : readAttributes ((c :: cs).length + 1) ((c :: cs).drop name.length) =
      some (attributes, isEmpty, t)) :
    readEvent ('<' :: c :: cs) = some (tagEvent isEmpty ⟨String.ofList name, attributes⟩, t) := by
  have hevent : readEvent ('<' :: c :: cs) =
      (readAttributes ((c :: cs).length + 1) ((c :: cs).drop ((c :: cs).takeWhile fun d =>
        !isSpace d && d ≠ '>' && d ≠ '/').length)).map fun r => (tagEvent r.2.1
          ⟨String.ofList ((c :: cs).takeWhile fun d => !isSpace d && d ≠ '>' && d ≠ '/'), r.1⟩,
            r.2.2) := by
    have hbang : c ≠ '!' := fun h => hc (by simp [h])
    have hquestion : c ≠ '?' := fun h => hc (by simp [h])
    have hslash : c ≠ '/' := fun h => hc (by simp [h])
    unfold readEvent
    split
    · exact absurd (List.cons.inj (List.cons.inj ‹_›).2).1 hbang
    · exact absurd (List.cons.inj (List.cons.inj ‹_›).2).1 hbang
    · exact absurd (List.cons.inj (List.cons.inj ‹_›).2).1 hquestion
    · exact absurd (List.cons.inj (List.cons.inj ‹_›).2).1 hslash
    · rename_i heq
      cases heq
      rfl
    · rename_i heq
      cases heq
    · rename_i hne _
      exact absurd rfl (hne (c :: cs))
  rw [hevent, hname, hrest]
  rfl

theorem readEvent_tag {tag : RawTag} (htag : tag.Lexical) {a space : Text}
    (ha : SpellsAttributes a tag.attributes) (hspace : IsSpaces space) (isEmpty : Bool) (t : Text) :
    readEvent ('<' :: (tag.name.toList ++ (a ++ (space ++ (tagEnd isEmpty ++ t))))) =
      some (tagEvent isEmpty tag, t) := by
  obtain ⟨hname, hkeys⟩ := htag
  -- white space, '>' or '/' follows the name
  have hends : ∀ c ∈ (a ++ (space ++ (tagEnd isEmpty ++ t))).head?,
      (!isSpace c && c ≠ '>' && c ≠ '/') = false := by
    intro c hc
    rcases head?_afterName ha hspace isEmpty t hc with hcase | rfl | rfl
    · rw [hcase]
      rfl
    · rfl
    · rfl
  have hsplit := (takeWhile_append_stop (fun c hc => by
    obtain ⟨hc, hmarkup⟩ := ne_of_mem_name hname hc
    have hgt : c ≠ '>' := fun h => hmarkup (by simp [h])
    have hslash : c ≠ '/' := fun h => hmarkup (by simp [h])
    simp [hc, hgt, hslash]) hends).1
  have hattributes := @readAttributes_spelled _ _ ha hkeys _ hspace isEmpty t
    ((tag.name.toList ++ (a ++ (space ++ (tagEnd isEmpty ++ t)))).length + 1) (by
      have hlen := length_attributes ha
      simp only [List.length_append]
      omega)
  obtain ⟨c, cs, hcs⟩ := exists_name hname
  have hmem : c ∈ tag.name.toList := by
    rw [hcs]
    exact List.mem_cons_self
  have hc : c ∉ ['!', '?', '/'] := by
    intro h
    refine (ne_of_mem_name hname hmem).2 ?_
    revert h
    simp only [List.mem_cons, List.not_mem_nil]
    grind
  rw [hcs, List.cons_append] at hsplit hattributes ⊢
  have hevent := readEvent_open hc hsplit (by
    rw [← List.cons_append, List.drop_left]
    exact hattributes)
  rw [hevent, ← hcs, String.ofList_toList]

theorem readEvent_close {tag : RawTag} (htag : tag.Lexical) {space : Text} (hspace : IsSpaces space)
    (t : Text) :
    readEvent ('<' :: '/' :: (tag.name.toList ++ (space ++ '>' :: t))) =
      some (.close ⟨tag.name, []⟩, t) := by
  have hgt : '>' ∉ tag.name.toList ++ space := by
    rw [List.mem_append, not_or]
    refine ⟨fun h => (ne_of_mem_name htag.1 h).2 (by decide), fun h => ?_⟩
    exact absurd (hspace _ h) (by decide)
  have hname : (tag.name.toList ++ space).takeWhile (fun c => !isSpace c) = tag.name.toList := by
    refine (takeWhile_append_stop (fun c hc => ?_) fun c hc => ?_).1
    · rw [(ne_of_mem_name htag.1 hc).1]
      rfl
    · rw [hspace c (List.mem_of_mem_head? hc)]
      rfl
  have hsplit := splitAtFirst_char hgt t
  rw [List.append_assoc] at hsplit
  show (splitAtFirst ['>'] _).map _ = _
  rw [hsplit, Option.map_some, hname, String.ofList_toList]

/-! ## All events -/

/-- What an end tag says. -/
def Event.bare : Event RawTag Leaf → Event RawTag Leaf
  | .close t => .close ⟨t.name, []⟩
  | e => e

theorem readFrom_cons {text rest : Text} {e : Event RawTag Leaf} {es : List (Event RawTag Leaf)}
    {fuel : Nat} (hevent : readEvent text = some (e, rest)) (hne : text ≠ [])
    (hrest : readFrom fuel rest = ⟨es, none⟩) : readFrom (fuel + 1) text = ⟨e :: es, none⟩ := by
  rw [readFrom, if_neg hne, hevent]
  simp only [hrest]

theorem readFrom_spelled {t : Text} {es : List (Event RawTag Leaf)} (h : SpellsTokens t es)
    (hes : ∀ e ∈ es, e.Lexical) {fuel : Nat} (hfuel : t.length < fuel) :
    readFrom fuel t = ⟨es.map Event.bare, none⟩ := by
  induction h generalizing fuel with
  | nil =>
    obtain ⟨fuel, rfl⟩ := Nat.exists_eq_succ_of_ne_zero (Nat.ne_of_gt hfuel)
    rfl
  | @text raw t es hends h ih =>
    obtain ⟨fuel, rfl⟩ := Nat.exists_eq_succ_of_ne_zero (Nat.ne_of_gt (Nat.zero_lt_of_lt hfuel))
    obtain ⟨htext, hlater⟩ := List.forall_mem_cons.mp hes
    have hlen : 0 < raw.toList.length := List.length_pos_iff.mpr fun hnil =>
      htext.1 (String.toList_eq_nil_iff.mp hnil)
    rw [List.length_append] at hfuel
    refine readFrom_cons (readEvent_text htext hends) (fun hnil => ?_) (ih hlater (by omega))
    exact htext.1 (String.toList_eq_nil_iff.mp (List.append_eq_nil_iff.mp hnil).1)
  | @leaf l t es hl h ih =>
    obtain ⟨fuel, rfl⟩ := Nat.exists_eq_succ_of_ne_zero (Nat.ne_of_gt (Nat.zero_lt_of_lt hfuel))
    obtain ⟨hleaf, hlater⟩ := List.forall_mem_cons.mp hes
    obtain ⟨c, cs, hcs⟩ : ∃ c cs, l.spelling = c :: cs := by
      cases l with
      | text => cases hl
      | cdata | ref | pi | comment | decl | doctype => exact ⟨_, _, rfl⟩
    have hevent := readEvent_leaf hleaf hl (t := t)
    rw [hcs] at hevent hfuel ⊢
    simp only [List.length_append, List.length_cons] at hfuel
    exact readFrom_cons hevent (by simp) (ih hlater (by omega))
  | @empty tag a space t es ha hspace h ih =>
    obtain ⟨fuel, rfl⟩ := Nat.exists_eq_succ_of_ne_zero (Nat.ne_of_gt (Nat.zero_lt_of_lt hfuel))
    obtain ⟨htag, hlater⟩ := List.forall_mem_cons.mp hes
    have hevent := readEvent_tag htag ha hspace true t
    simp only [List.length_append, List.length_cons] at hfuel
    have hrest : readFrom fuel t = ⟨es.map Event.bare, none⟩ := ih hlater (by omega)
    simp only [List.append_assoc, List.cons_append]
    exact readFrom_cons hevent (by simp) hrest
  | @start tag a space t es ha hspace h ih =>
    obtain ⟨fuel, rfl⟩ := Nat.exists_eq_succ_of_ne_zero (Nat.ne_of_gt (Nat.zero_lt_of_lt hfuel))
    obtain ⟨htag, hlater⟩ := List.forall_mem_cons.mp hes
    have hevent := readEvent_tag htag ha hspace false t
    simp only [List.length_append, List.length_cons] at hfuel
    have hrest : readFrom fuel t = ⟨es.map Event.bare, none⟩ := ih hlater (by omega)
    simp only [List.append_assoc, List.cons_append]
    exact readFrom_cons hevent (by simp) hrest
  | @close tag space t es hspace h ih =>
    obtain ⟨fuel, rfl⟩ := Nat.exists_eq_succ_of_ne_zero (Nat.ne_of_gt (Nat.zero_lt_of_lt hfuel))
    obtain ⟨htag, hlater⟩ := List.forall_mem_cons.mp hes
    have hevent := readEvent_close htag hspace t
    simp only [List.length_append, List.length_cons] at hfuel
    have hrest : readFrom fuel t = ⟨es.map Event.bare, none⟩ := ih hlater (by omega)
    simp only [List.append_assoc, List.cons_append]
    exact readFrom_cons hevent (by simp) hrest

theorem readXml_spelled {t : Text} {es : List (Event RawTag Leaf)} (h : SpellsTokens t es)
    (hes : ∀ e ∈ es, e.Lexical) : readXml t = ⟨es.map Event.bare, none⟩ :=
  readFrom_spelled h hes (Nat.lt_succ_self _)

/-! ## End tags -/

def EventStream.cons {τ ν : Type} (e : Event τ ν) (s : EventStream τ ν) : EventStream τ ν :=
  ⟨e :: s.events, s.error⟩

/-- End tags with what they close; the first that does not close the open element ends the
    stream. -/
def closeTags (error : Option String) :
    (stack : List RawTag) → List (Event RawTag Leaf) → EventStream RawTag Leaf
  | _, [] => ⟨[], error⟩
  | stack, .start t :: es => (closeTags error (t :: stack) es).cons (.start t)
  | stack, .empty t :: es => (closeTags error stack es).cons (.empty t)
  | stack, .leaf l :: es => (closeTags error stack es).cons (.leaf l)
  | t :: stack, .close u :: es =>
      if t.name = u.name then (closeTags error stack es).cons (.close t)
      else ⟨[], some "mismatched end tag"⟩
  | [], .close _ :: _ => ⟨[], some "unmatched end tag"⟩

/-- The events of a text, nested. -/
def readNested (text : Text) : EventStream RawTag Leaf :=
  closeTags (readXml text).error [] (readXml text).events

theorem closeTags_events (error : Option String) (f : Forest RawTag Leaf) (stack : List RawTag)
    (es : List (Event RawTag Leaf)) :
    closeTags error stack (f.events.map Event.bare ++ es) =
      ⟨f.events ++ (closeTags error stack es).events, (closeTags error stack es).error⟩ := by
  induction f generalizing stack es with
  | nil => rfl
  | leaf l rest ih => exact congrArg (EventStream.cons (.leaf l)) (ih stack es)
  | empty t rest ih => exact congrArg (EventStream.cons (.empty t)) (ih stack es)
  | node t kids rest ihk ihr =>
    have hclose : closeTags error (t :: stack)
        (.close ⟨t.name, []⟩ :: (rest.events.map Event.bare ++ es)) =
          (closeTags error stack (rest.events.map Event.bare ++ es)).cons (.close t) := if_pos rfl
    have hkids := ihk (t :: stack) (.close ⟨t.name, []⟩ :: (rest.events.map Event.bare ++ es))
    rw [hclose, ihr] at hkids
    have hnode := congrArg (EventStream.cons (.start t)) hkids
    simp only [Forest.events, List.map_cons, List.map_append, List.cons_append, List.append_assoc]
    exact hnode

theorem readNested_spelled {t : Text} {f : Forest RawTag Leaf} (h : Spells t f)
    (hf : f.Lexical) : readNested t = f.stream := by
  have hclosed := closeTags_events none f [] []
  rw [List.append_nil] at hclosed
  rw [readNested, readXml_spelled h.tokens hf, hclosed]
  exact congrArg (EventStream.mk · none) (List.append_nil f.events)

end DianService.Lib.Xml
