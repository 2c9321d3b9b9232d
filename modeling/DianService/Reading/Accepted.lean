import DianService.Canonical.Attributes
import DianService.Reading.Paths

/-
  Reading: the texts that `XmlDoc::parse` accepts. It counts the root elements and resolves the
  references, with the parsers that Rust has for numbers; what stands outside the root it passes
  over. `Proper` is what XML asks of a document on these points.
-/

namespace DianService

open Lib.Xml

/-! ## References -/

/-- Digits that the parsers for numbers take, for a character, and XML does not: those of a
    character that XML leaves out, and those after a sign. -/
def LaxNumber (b : Nat) (digits : Text) : Prop :=
  (∃ n, digits ≠ [] ∧ digits? b 0 digits = some n ∧ n.isValidChar ∧ isXmlChar (.ofNat n) = false) ∨
    ∃ ds n, digits = '+' :: ds ∧ ds ≠ [] ∧ digits? b 0 ds = some n ∧ n.isValidChar

def LaxReference (name : Text) : Prop :=
  (∃ digits, name = '#' :: 'x' :: digits ∧ LaxNumber 16 digits) ∨
    ∃ digits, name = '#' :: digits ∧ digits.head? ≠ some 'x' ∧ LaxNumber 10 digits

theorem charOf?_eq_some {n : Nat} {c : Char} :
    charOf? n = some c ↔ n.isValidChar ∧ Char.ofNat n = c := by
  unfold charOf?
  split
  · rename_i h
    simp [h]
  · rename_i h
    simp [h]

theorem digits?_sign (b : Nat) (ds : Text) : digits? b 0 ('+' :: ds) = none := by
  have hsign : digit? b '+' = none := rfl
  rw [digits?, hsign, Option.bind_none]

/-- What both parsers take is taken by XML or lax. -/
theorem laxNumber_iff (b : Nat) (digits : Text) :
    LaxNumber b digits ↔
      ((fromStrRadix b digits).bind charOf?).isSome ∧ charRef? b digits = none := by
  by_cases hsign : ∃ ds, digits = '+' :: ds
  · obtain ⟨ds, rfl⟩ := hsign
    have hnone : charRef? b ('+' :: ds) = none := by
      rw [charRef?, if_neg (List.cons_ne_nil _ _), digits?_sign, Option.bind_none]
    simp only [LaxNumber, digits?_sign, hnone, fromStrRadix, reduceCtorEq, false_and, and_false,
      exists_false, false_or, and_true, List.cons.injEq, true_and]
    by_cases hds : ds = []
    · simp [hds]
    · rw [if_neg hds, Option.isSome_iff_exists]
      constructor
      · rintro ⟨_, n, rfl, -, hn, hvalid⟩
        exact ⟨.ofNat n, by rw [hn, Option.bind_some, charOf?_eq_some]; exact ⟨hvalid, rfl⟩⟩
      · rintro ⟨c, hc⟩
        obtain ⟨n, hn, hchar⟩ := Option.bind_eq_some_iff.mp hc
        exact ⟨ds, n, rfl, hds, hn, (charOf?_eq_some.mp hchar).1⟩
  · have hplain : ¬ ∃ ds n, digits = '+' :: ds ∧ ds ≠ [] ∧ digits? b 0 ds = some n ∧
        n.isValidChar := fun ⟨ds, _, hds, _⟩ => hsign ⟨ds, hds⟩
    rw [LaxNumber, or_iff_left hplain]
    by_cases hnil : digits = []
    · subst hnil
      simp [fromStrRadix]
    · have hradix : fromStrRadix b digits = digits? b 0 digits := by
        unfold fromStrRadix
        split
        · exact absurd rfl hnil
        · exact absurd ⟨_, rfl⟩ hsign
        · rfl
      rw [hradix, charRef?, if_neg hnil]
      cases hn : digits? b 0 digits with
      | none => simp
      | some n =>
        simp only [Option.bind_some, Option.some.injEq, charOf?]
        by_cases hvalid : n.isValidChar
        · simp [hvalid, hnil, Option.filter_some]
        · simp [hvalid]

theorem reference?_hex (digits : Text) :
    reference? ('#' :: 'x' :: digits) = charRef? 16 digits := by
  simp [reference?]

theorem reference?_dec {digits : Text} (h : ∀ hex, digits ≠ 'x' :: hex) :
    reference? ('#' :: digits) = charRef? 10 digits := by
  unfold reference?
  simp only [List.cons.injEq, Char.reduceEq, false_and, if_false]

/-- A name that is no number is resolved as XML does. -/
theorem resolvedName_of_ne_number {name : Text} (h : name.head? ≠ some '#') :
    resolvedName name = reference? name := by
  have hhex : ∀ digits, name ≠ '#' :: 'x' :: digits := fun digits heq => h (by rw [heq]; rfl)
  have hdec : ∀ digits, name ≠ '#' :: digits := fun digits heq => h (by rw [heq]; rfl)
  by_cases hamp : name = ['a', 'm', 'p']
  · rw [hamp]; rfl
  by_cases hlt : name = ['l', 't']
  · rw [hlt]; rfl
  by_cases hgt : name = ['g', 't']
  · rw [hgt]; rfl
  by_cases hquot : name = ['q', 'u', 'o', 't']
  · rw [hquot]; rfl
  by_cases hapos : name = ['a', 'p', 'o', 's']
  · rw [hapos]; rfl
  have hcode : resolvedName name = none := by
    unfold resolvedName
    rw [if_neg hamp, if_neg hlt, if_neg hgt, if_neg hquot, if_neg hapos]
    split
    · exact absurd rfl (hhex _)
    · exact absurd rfl (hdec _)
    · rfl
  have hxml : reference? name = none := by
    unfold reference?
    rw [if_neg hamp, if_neg hlt, if_neg hgt, if_neg hquot, if_neg hapos]
    split
    · exact absurd rfl (hhex _)
    · exact absurd rfl (hdec _)
    · rfl
  rw [hcode, hxml]

/-- The names of references that the code resolves and XML does not. -/
theorem laxReference_iff (name : Text) :
    LaxReference name ↔ (resolvedName name).isSome ∧ reference? name = none := by
  by_cases hnumber : name.head? = some '#'
  · obtain ⟨digits, rfl⟩ := List.head?_eq_some_iff.mp hnumber
    by_cases hx : ∃ hex, digits = 'x' :: hex
    · obtain ⟨hex, rfl⟩ := hx
      rw [C14n.resolvedName_hex, reference?_hex, ← laxNumber_iff]
      simp [LaxReference]
    · have hnot : ∀ hex, digits ≠ 'x' :: hex := fun hex heq => hx ⟨hex, heq⟩
      have hhead : digits.head? ≠ some 'x' := by
        intro hhead
        obtain ⟨hex, heq⟩ := List.head?_eq_some_iff.mp hhead
        exact hnot hex heq
      rw [C14n.resolvedName_dec hnot, reference?_dec hnot, ← laxNumber_iff]
      simp [LaxReference, hnot, hhead]
  · rw [resolvedName_of_ne_number hnumber]
    constructor
    · rintro (⟨digits, rfl, -⟩ | ⟨digits, rfl, -⟩)
      · exact absurd rfl hnumber
      · exact absurd rfl hnumber
    · rintro ⟨hsome, hnone⟩
      rw [hnone] at hsome
      cases hsome

/-! ## Documents -/

/-- White space, a comment, a processing instruction or a declaration. -/
def Lib.Xml.Leaf.isBlank : Leaf → Bool
  | .text raw => raw.toList.all isSpace
  | .cdata _ | .ref _ => false
  | .pi _ | .comment _ | .decl _ | .doctype _ => true

/-- The leaves outside the elements. -/
def outerLeaves {τ : Type} : Forest τ Leaf → List Leaf
  | .nil => []
  | .leaf l rest => l :: outerLeaves rest
  | .empty _ rest => outerLeaves rest
  | .node _ _ rest => outerLeaves rest

/-- The leaves inside the elements. -/
def innerLeaves {τ : Type} (f : Forest τ Leaf) : List Leaf :=
  f.children.flatMap fun e => e.2.leaves

/-- One root element, nothing but white space outside it, and references that XML knows inside. -/
structure Proper (d : Forest RawTag Leaf) : Prop where
  root : d.children.length = 1
  outside : ∀ l ∈ outerLeaves d, l.isBlank = true
  references : ∀ name, .ref name ∈ innerLeaves d → (reference? name.toList).isSome

/-- No DTD, and a reference that the code resolves. -/
def Admitted (l : Leaf) : Prop :=
  (∀ raw, l ≠ .doctype raw) ∧ ∀ name, l = .ref name → (resolvedName name.toList).isSome

theorem mem_leaves {τ : Type} {f : Forest τ Leaf} {l : Leaf} :
    l ∈ f.leaves ↔ l ∈ outerLeaves f ∨ l ∈ innerLeaves f := by
  induction f with
  | nil => simp [outerLeaves, innerLeaves]
  | leaf l' rest ih => simp only [Forest.leaves, outerLeaves, innerLeaves, List.mem_cons,
      Forest.children, ih, or_assoc]
  | empty t rest ih =>
    simp only [Forest.leaves, outerLeaves, innerLeaves, Forest.children, List.flatMap_cons,
      List.nil_append, ih]
  | node t kids rest _ ih =>
    simp only [Forest.leaves, outerLeaves, innerLeaves, Forest.children, List.flatMap_cons,
      List.mem_append, ih]
    tauto

/-- What the loop of `parse` does not look at, in a text that passes it: characters and references
    outside the root, and lax references. -/
structure ParseSlip (d : Forest RawTag Leaf) : Prop where
  root : d.children.length = 1
  admitted : ∀ l ∈ d.leaves, Admitted l
  slip : (∃ l ∈ outerLeaves d, l.isBlank = false) ∨
    ∃ name, .ref name ∈ innerLeaves d ∧ LaxReference name.toList

/-! ## The loop of `parse` -/

section Parse

variable {f : Doc} {s s' : XmlDoc.ParseState} {es : List Node}

theorem admitted_of_parseStep {l : Leaf} (h : XmlDoc.parseStep s (.leaf l) = .ok s') :
    Admitted l := by
  refine ⟨fun raw hraw => ?_, fun name hname => ?_⟩
  · rw [hraw] at h
    cases h
  · rw [hname] at h
    change (if (resolveReference name).isNone then _ else _) = _ at h
    split at h
    · cases h
    · rename_i hsome
      rwa [Bool.not_eq_true, Option.isNone_eq_false_iff] at hsome

theorem parseStep_admitted {l : Leaf} (h : Admitted l) (s : XmlDoc.ParseState) :
    XmlDoc.parseStep s (.leaf l) = .ok s := by
  cases l with
  | ref name =>
    have hsome : (resolveReference name).isNone = false :=
      Option.isNone_eq_false_iff.mpr (h.2 name rfl)
    change (if (resolveReference name).isNone then _ else _) = _
    rw [hsome]
    rfl
  | doctype raw => exact absurd rfl (h.1 raw)
  | text | cdata | pi | comment | decl => rfl

/-- The roots that the loop has met. -/
def rootCount (s : XmlDoc.ParseState) : Nat := if s.root.isSome then 1 else 0

theorem parseStep_root {t : Tag} {e : Node} (he : e = .start t ∨ e = .empty t)
    (hdepth : s.depth = 0) (h : XmlDoc.parseStep s e = .ok s') :
    rootCount s = 0 ∧ rootCount s' = 1 := by
  have hset : ∀ {s'' : XmlDoc.ParseState}, s.setRoot t = .ok s'' →
      rootCount s = 0 ∧ s''.root.isSome := by
    intro s'' hset
    rw [XmlDoc.ParseState.setRoot] at hset
    split at hset
    · cases hset
    · rename_i hnone
      cases hset
      exact ⟨if_neg hnone, rfl⟩
  rcases he with rfl | rfl
  · simp only [XmlDoc.parseStep, hdepth, if_true] at h
    obtain ⟨s₁, hroot, hend⟩ := ok_of_bind h
    cases hend
    exact ⟨(hset hroot).1, if_pos (hset hroot).2⟩
  · simp only [XmlDoc.parseStep, hdepth, if_true] at h
    exact ⟨(hset h).1, if_pos (hset h).2⟩

theorem parseStep_open (hdepth : s.depth ≠ 0) (t : Tag) :
    XmlDoc.parseStep s (.start t) = .ok { s with depth := s.depth + 1 } ∧
      XmlDoc.parseStep s (.empty t) = .ok s := by
  simp only [XmlDoc.parseStep, hdepth, if_false]
  exact ⟨rfl, trivial⟩

/-- A first root is set. -/
theorem parseStep_first (hdepth : s.depth = 0) (hroot : rootCount s = 0) (t : Tag) :
    XmlDoc.parseStep s (.start t) = .ok ⟨some (localName t), 1⟩ ∧
      XmlDoc.parseStep s (.empty t) = .ok ⟨some (localName t), 0⟩ := by
  have hnone : ¬ s.root.isSome = true := by
    intro hsome
    rw [rootCount, if_pos hsome] at hroot
    cases hroot
  have hset : s.setRoot t = .ok { s with root := some (localName t) } := by
    rw [XmlDoc.ParseState.setRoot, if_neg hnone]
  simp only [XmlDoc.parseStep, hdepth, if_true, hset]
  exact ⟨rfl, trivial⟩

/-- Inside an element the loop keeps the root and the depth. -/
theorem parseSteps_inside (hf : ∀ l ∈ f.leaves, Admitted l) (hdepth : s.depth ≠ 0) :
    (f.events ++ es).foldlM XmlDoc.parseStep s = es.foldlM XmlDoc.parseStep s := by
  induction f generalizing s es with
  | nil => rfl
  | leaf l rest ih =>
    rw [Forest.events, List.cons_append, List.foldlM_cons,
      parseStep_admitted (hf l List.mem_cons_self)]
    exact ih (fun l' hl' => hf l' (List.mem_cons_of_mem l hl')) hdepth
  | empty t rest ih =>
    rw [Forest.events, List.cons_append, List.foldlM_cons, (parseStep_open hdepth t).2]
    exact ih hf hdepth
  | node t kids rest ihk ihr =>
    rw [Forest.events, List.cons_append, List.append_assoc, List.foldlM_cons,
      (parseStep_open hdepth t).1]
    refine (ihk (fun l hl => hf l (List.mem_append_left _ hl)) (Nat.succ_ne_zero _)).trans ?_
    rw [List.cons_append, List.foldlM_cons]
    exact ihr (fun l hl => hf l (List.mem_append_right _ hl)) hdepth

theorem parseSteps_outside (hf : ∀ l ∈ f.leaves, Admitted l) (hdepth : s.depth = 0)
    (hroots : rootCount s + f.children.length ≤ 1) :
    ∃ s', f.events.foldlM XmlDoc.parseStep s = .ok s' ∧ s'.depth = 0 ∧
      rootCount s' = rootCount s + f.children.length := by
  induction f generalizing s with
  | nil => exact ⟨s, rfl, hdepth, rfl⟩
  | leaf l rest ih =>
    rw [Forest.events, List.foldlM_cons, parseStep_admitted (hf l List.mem_cons_self)]
    exact ih (fun l' hl' => hf l' (List.mem_cons_of_mem l hl')) hdepth hroots
  | empty t rest ih =>
    rw [Forest.children, List.length_cons] at hroots ⊢
    have hzero : rootCount s = 0 := by omega
    rw [Forest.events, List.foldlM_cons, (parseStep_first hdepth hzero t).2, hzero]
    have hone : rootCount ⟨some (localName t), 0⟩ = 1 := rfl
    obtain ⟨s', hs', hdepth', hcount⟩ := ih (s := ⟨some (localName t), 0⟩) hf rfl (by omega)
    exact ⟨s', hs', hdepth', by omega⟩
  | node t kids rest _ ih =>
    rw [Forest.children, List.length_cons] at hroots ⊢
    have hzero : rootCount s = 0 := by omega
    have hkids : ∀ l ∈ kids.leaves, Admitted l := fun l hl => hf l (List.mem_append_left _ hl)
    rw [Forest.events, List.foldlM_cons, (parseStep_first hdepth hzero t).1, hzero]
    have hone : rootCount ⟨some (localName t), 0⟩ = 1 := rfl
    obtain ⟨s', hs', hdepth', hcount⟩ := ih (s := ⟨some (localName t), 0⟩)
      (fun l hl => hf l (List.mem_append_right _ hl)) rfl (by omega)
    refine ⟨s', ?_, hdepth', by omega⟩
    exact (parseSteps_inside hkids Nat.one_ne_zero).trans hs'

/-- A step at a tag inside an element keeps the root. -/
theorem parseStep_inside {t : Tag} {e : Node} (he : e = .start t ∨ e = .empty t)
    (hdepth : s.depth ≠ 0) (h : XmlDoc.parseStep s e = .ok s') : rootCount s' = rootCount s := by
  rcases he with rfl | rfl
  · rw [(parseStep_open hdepth t).1] at h
    cases h
    rfl
  · rw [(parseStep_open hdepth t).2] at h
    cases h
    rfl

/-- What the loop has checked, and what it has counted at the top. -/
theorem of_parseSteps (h : (f.events ++ es).foldlM XmlDoc.parseStep s = .ok s') :
    (∀ l ∈ f.leaves, Admitted l) ∧ ∃ s₁, s₁.depth = s.depth ∧
      rootCount s₁ = rootCount s + (if s.depth = 0 then f.children.length else 0) ∧
      es.foldlM XmlDoc.parseStep s₁ = .ok s' := by
  induction f generalizing s es with
  | nil => exact ⟨List.forall_mem_nil _, s, rfl, by split <;> rfl, h⟩
  | leaf l rest ih =>
    rw [Forest.events, List.cons_append, List.foldlM_cons] at h
    obtain ⟨s₀, hstep, hrest⟩ := ok_of_bind h
    obtain rfl := parseStep_leaf hstep
    obtain ⟨hadmitted, hs₁⟩ := ih hrest
    exact ⟨List.forall_mem_cons.mpr ⟨admitted_of_parseStep hstep, hadmitted⟩, hs₁⟩
  | empty t rest ih =>
    rw [Forest.events, List.cons_append, List.foldlM_cons] at h
    obtain ⟨s₀, hstep, hrest⟩ := ok_of_bind h
    have hsame := parseStep_empty hstep
    obtain ⟨hadmitted, s₁, hdepth, hcount, hes⟩ := ih hrest
    refine ⟨hadmitted, s₁, hdepth.trans hsame, ?_, hes⟩
    rw [hcount, hsame, Forest.children, List.length_cons]
    by_cases hzero : s.depth = 0
    · obtain ⟨hbefore, hafter⟩ := parseStep_root (Or.inr rfl) hzero hstep
      rw [if_pos hzero, if_pos hzero]
      omega
    · rw [if_neg hzero, if_neg hzero, parseStep_inside (Or.inr rfl) hzero hstep]
  | node t kids rest ihk ihr =>
    rw [Forest.events, List.cons_append, List.append_assoc, List.foldlM_cons] at h
    obtain ⟨s₀, hstep, hrest⟩ := ok_of_bind h
    have hopened := parseStep_start hstep
    obtain ⟨hkids, s₂, hdepth₂, hcount₂, hclose⟩ := ihk hrest
    rw [List.cons_append, List.foldlM_cons] at hclose
    obtain ⟨s₃, hclosed, hafter⟩ := ok_of_bind hclose
    cases hclosed
    obtain ⟨hadmitted, s₁, hdepth, hcount, hes⟩ := ihr hafter
    have hback : s₂.depth - 1 = s.depth := by omega
    have hinner : rootCount s₂ = rootCount s₀ := by
      rw [hcount₂, if_neg (by omega), add_zero]
    refine ⟨List.forall_mem_append.mpr ⟨hkids, hadmitted⟩, s₁, hdepth.trans hback, ?_, hes⟩
    have hcount' : rootCount s₁ = rootCount s₂ +
        (if s₂.depth - 1 = 0 then rest.children.length else 0) := hcount
    rw [hcount', hback, hinner, Forest.children, List.length_cons]
    by_cases hzero : s.depth = 0
    · obtain ⟨hbefore, hroot⟩ := parseStep_root (Or.inl rfl) hzero hstep
      rw [if_pos hzero, if_pos hzero]
      omega
    · rw [if_neg hzero, if_neg hzero, parseStep_inside (Or.inl rfl) hzero hstep]

end Parse

theorem leaves_mapTags (d : Forest RawTag Leaf) : (d.mapTags readTag).leaves = d.leaves := by
  induction d with
  | nil => rfl
  | leaf l rest ih => rw [Forest.mapTags, Forest.leaves, ih, Forest.leaves]
  | empty t rest ih => exact ih
  | node t kids rest ihk ihr => rw [Forest.mapTags, Forest.leaves, ihk, ihr, Forest.leaves]

theorem children_mapTags (d : Forest RawTag Leaf) :
    (d.mapTags readTag).children.length = d.children.length := by
  induction d with
  | nil => rfl
  | leaf l rest ih => exact ih
  | empty t rest ih => exact congrArg (· + 1) ih
  | node t kids rest _ ih => exact congrArg (· + 1) ih

/-- The texts that `parse` accepts. -/
theorem parse_accepts_iff {q : QuickXml} {xml : String} {d : Forest RawTag Leaf}
    (hd : q.reader xml = d.stream) :
    (∃ doc, XmlDoc.ofText q xml = .ok doc) ↔
      d.children.length = 1 ∧ ∀ l ∈ d.leaves, Admitted l := by
  rw [XmlDoc.ofText, hd, Forest.stream_mapTags, ← children_mapTags, ← leaves_mapTags]
  constructor
  · rintro ⟨doc, h⟩
    obtain ⟨s, hsteps, hend⟩ := ok_of_bind h
    have hall : ((d.mapTags readTag).events ++ []).foldlM XmlDoc.parseStep ⟨none, 0⟩ = .ok s := by
      rw [List.append_nil]
      exact hsteps
    obtain ⟨hadmitted, s₁, hdepth, hcount, hs⟩ := of_parseSteps hall
    cases hs
    refine ⟨?_, hadmitted⟩
    have hroot : s.root.isSome := by
      dsimp only [Forest.stream] at hend
      split at hend
      · rename_i hsome _
        rw [hsome]
        rfl
      · cases hend
    rw [rootCount, if_pos hroot] at hcount
    exact (hcount.trans (zero_add _)).symm
  · rintro ⟨hone, hadmitted⟩
    have hfew : rootCount ⟨none, 0⟩ + (d.mapTags readTag).children.length ≤ 1 := by
      rw [hone]
      exact le_refl 1
    obtain ⟨s, hsteps, hdepth, hcount⟩ := parseSteps_outside hadmitted rfl hfew
    rw [hone] at hcount
    have hroot : ∃ root, s.root = some root := by
      apply Option.isSome_iff_exists.mp
      by_contra hnone
      rw [rootCount, if_neg hnone] at hcount
      cases hcount
    obtain ⟨root, hroot⟩ := hroot
    refine ⟨⟨(d.mapTags readTag).stream, root⟩, ?_⟩
    rw [XmlDoc.parse]
    change (List.foldlM XmlDoc.parseStep ⟨none, 0⟩ (d.mapTags readTag).events >>= _) = _
    rw [hsteps]
    cases s with
    | mk r n =>
      cases hroot
      cases hdepth
      rfl

/-- Whatever `parse` accepts is a proper document, but for what its loop does not look at. -/
theorem parse_proper_iff {q : QuickXml} {xml : String} {d : Forest RawTag Leaf}
    (hd : q.reader xml = d.stream) :
    ((∃ doc, XmlDoc.ofText q xml = .ok doc) → Proper d) ↔ ¬ ParseSlip d := by
  rw [parse_accepts_iff hd]
  constructor
  · intro h hslip
    have hproper := h ⟨hslip.root, hslip.admitted⟩
    rcases hslip.slip with ⟨l, hl, hblank⟩ | ⟨name, hname, hlax⟩
    · rw [hproper.outside l hl] at hblank
      cases hblank
    · have hsome := hproper.references name hname
      rw [((laxReference_iff _).mp hlax).2] at hsome
      cases hsome
  · rintro hnot ⟨hone, hadmitted⟩
    refine ⟨hone, fun l hl => ?_, fun name hname => ?_⟩
    · by_contra hblank
      exact hnot ⟨hone, hadmitted, Or.inl ⟨l, hl, Bool.eq_false_iff.mpr hblank⟩⟩
    · by_contra hnone
      have hresolved := (hadmitted _ (mem_leaves.mpr (Or.inr hname))).2 name rfl
      exact hnot ⟨hone, hadmitted, Or.inr ⟨name, hname, (laxReference_iff _).mpr
        ⟨hresolved, Option.not_isSome_iff_eq_none.mp hnone⟩⟩⟩

end DianService
