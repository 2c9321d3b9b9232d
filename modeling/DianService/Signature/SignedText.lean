import DianService.Application.Inbound
import DianService.Signature.Structure

/-
  What `XmlDoc::text` reads of a signed document. The enveloped-signature transform takes the
  `ds:Signature` element out before the digest; `text` takes every descendant of the element it
  selects, the signature included where it stands inside.

  `text_eq` says what the loop of `text` computes, on trees: the first element on the path, and the
  characters in it. `around` cuts those characters at the signature.
-/

namespace DianService

open Lib.Xml

/-! ## The loop of `text` on a tree -/

/-- The content of the first element on a path, given the names above it, innermost first. -/
def firstAt {ν : Type} (path : List String) : (stack : List String) → Forest Tag ν →
    Option (Forest Tag ν)
  | _, .nil => none
  | stack, .leaf _ rest => firstAt path stack rest
  | stack, .empty t rest =>
      if (localName t :: stack).reverse = path then some .nil else firstAt path stack rest
  | stack, .node t kids rest =>
      if (localName t :: stack).reverse = path then some kids
      else (firstAt path (localName t :: stack) kids).or (firstAt path stack rest)

/-- The characters that a leaf stands for. -/
def leafChars (l : Leaf) : List Char := (XmlDoc.leafText l).getD []

def characters : Doc → List Char
  | .nil => []
  | .leaf l rest => leafChars l ++ characters rest
  | .empty _ rest => characters rest
  | .node _ kids rest => characters kids ++ characters rest

/-- Every reference can be resolved. -/
def Resolves : Doc → Prop
  | .nil => True
  | .leaf l rest => (XmlDoc.leafText l).isSome ∧ Resolves rest
  | .empty _ rest => Resolves rest
  | .node _ kids rest => Resolves kids ∧ Resolves rest

/-- `text`, as a function of the tree. -/
def textAt (path : List String) (d : Doc) : Option String :=
  (firstAt path [] d).map fun kids => String.ofList (trimChars (characters kids))

theorem textFrom_captured (path : List String) {f : Doc} (hf : Resolves f) :
    ∀ (stack : List String) (depth : Nat) (text : List Char) (events : List Node),
      depth ≤ stack.length →
      XmlDoc.textFrom path stack (some (depth, text)) (f.events ++ events) =
        XmlDoc.textFrom path stack (some (depth, text ++ characters f)) events := by
  induction f with
  | nil =>
      intro stack depth text events hdepth
      rw [characters, List.append_nil]
      rfl
  | leaf l rest ih =>
      intro stack depth text events hdepth
      obtain ⟨more, hmore⟩ := Option.isSome_iff_exists.mp hf.1
      have hrest := ih hf.2 stack depth (text ++ more) events hdepth
      rw [characters, leafChars, hmore, Option.getD_some, ← List.append_assoc, ← hrest]
      simp [XmlDoc.textFrom, hmore]
  | empty t rest ih =>
      intro stack depth text events hdepth
      rw [characters, ← ih hf stack depth text events hdepth]
      simp [XmlDoc.textFrom]
  | node t kids rest ihk ihr =>
      intro stack depth text events hdepth
      have hkids := ihk hf.1 (localName t :: stack) depth text
        (Event.close t :: (rest.events ++ events)) (by
          rw [List.length_cons]
          omega)
      have hrest := ihr hf.2 stack depth (text ++ characters kids) events hdepth
      have hne : depth ≠ stack.length + 1 := by omega
      rw [characters, ← List.append_assoc, ← hrest]
      simp only [Forest.events, List.cons_append, List.append_assoc, XmlDoc.textFrom,
        Option.isNone_some, Bool.false_and, Bool.false_eq_true, if_false]
      rw [hkids]
      simp [XmlDoc.textFrom, hne]

theorem textFrom_events (path : List String) {f : Doc} (hf : Resolves f) :
    ∀ (stack : List String) (events : List Node),
      XmlDoc.textFrom path stack none (f.events ++ events) =
        match firstAt path stack f with
        | some kids => some (String.ofList (trimChars (characters kids)))
        | none => XmlDoc.textFrom path stack none events := by
  induction f with
  | nil => exact fun stack events => rfl
  | leaf l rest ih => exact fun stack events => ih hf.2 stack events
  | empty t rest ih =>
      intro stack events
      by_cases hpath : (localName t :: stack).reverse = path
      · simp only [Forest.events, List.cons_append, XmlDoc.textFrom, firstAt, hpath]
        rfl
      · simp only [Forest.events, List.cons_append, XmlDoc.textFrom, firstAt, hpath]
        simpa using ih hf stack events
  | node t kids rest ihk ihr =>
      intro stack events
      by_cases hpath : (localName t :: stack).reverse = path
      · have hkids := textFrom_captured path hf.1 (localName t :: stack) (stack.length + 1) []
          (Event.close t :: (rest.events ++ events)) (by simp)
        simp only [Forest.events, List.cons_append, List.append_assoc, XmlDoc.textFrom, firstAt,
          hpath]
        simp only [Option.isNone_none, decide_true, Bool.and_self, if_true, List.length_cons]
        rw [hkids]
        simp [XmlDoc.textFrom]
      · have hkids := ihk hf.1 (localName t :: stack) (Event.close t :: (rest.events ++ events))
        have hrest := ihr hf.2 stack events
        simp only [Forest.events, List.cons_append, List.append_assoc, XmlDoc.textFrom, firstAt,
          hpath]
        simp only [decide_false, Bool.and_false, Bool.false_eq_true, if_false]
        rw [hkids]
        cases hfirst : firstAt path (localName t :: stack) kids with
        | some k => rfl
        | none =>
            show XmlDoc.textFrom path stack none (rest.events ++ events) = _
            rw [hrest]
            rfl

theorem text_eq {d : Doc} (hd : Resolves d) (root : String) (path : List String) :
    XmlDoc.text ⟨d.stream, root⟩ path = textAt path d := by
  have h := textFrom_events path hd [] []
  rw [List.append_nil] at h
  show XmlDoc.textFrom path [] none d.events = _
  rw [h, textAt]
  cases firstAt path [] d <;> rfl

/-! ## What `parse` has checked -/

theorem resolves_of_parseSteps {f : Doc} :
    ∀ {s s' : XmlDoc.ParseState} {events : List Node},
      (f.events ++ events).foldlM XmlDoc.parseStep s = .ok s' → Resolves f ∧
        ∃ s'', events.foldlM XmlDoc.parseStep s'' = .ok s' := by
  induction f with
  | nil => exact fun h => ⟨trivial, _, h⟩
  | leaf l rest ih =>
      intro s s' events h
      rw [Forest.events, List.cons_append, List.foldlM_cons] at h
      obtain ⟨s1, hstep, h⟩ := ok_of_bind h
      have hrest := ih h
      refine ⟨⟨?_, hrest.1⟩, hrest.2⟩
      cases l with
      | ref name =>
          change (if (resolveReference name).isNone then _ else _) = _ at hstep
          cases hname : resolveReference name with
          | none =>
              rw [hname] at hstep
              cases hstep
          | some c => simp [XmlDoc.leafText, hname]
      | text _ => rfl
      | cdata _ => rfl
      | pi _ => rfl
      | comment _ => rfl
      | decl _ => rfl
      | doctype _ => rfl
  | empty t rest ih =>
      intro s s' events h
      rw [Forest.events, List.cons_append, List.foldlM_cons] at h
      obtain ⟨s1, -, h⟩ := ok_of_bind h
      exact ih h
  | node t kids rest ihk ihr =>
      intro s s' events h
      rw [Forest.events, List.cons_append, List.append_assoc, List.foldlM_cons] at h
      obtain ⟨s1, -, h⟩ := ok_of_bind h
      obtain ⟨hkids, s2, h⟩ := ihk h
      rw [List.cons_append, List.foldlM_cons] at h
      obtain ⟨s3, -, h⟩ := ok_of_bind h
      obtain ⟨hrest, h⟩ := ihr h
      exact ⟨⟨hkids, hrest⟩, h⟩

theorem parse_stream {d : Doc} {doc : XmlDoc} (h : XmlDoc.parse d.stream = .ok doc) :
    Resolves d ∧ doc.xml = d.stream := by
  obtain ⟨s, hsteps, h⟩ := ok_of_bind h
  have hres : Resolves d := by
    have happ : (d.events ++ []).foldlM XmlDoc.parseStep ⟨none, 0⟩ = .ok s := by
      rw [List.append_nil]
      exact hsteps
    exact (resolves_of_parseSteps happ).1
  refine ⟨hres, ?_⟩
  dsimp only [Forest.stream] at h
  split at h
  · cases h
    rfl
  · cases h

/-! ## The document without its signature -/

/-- What the enveloped-signature transform leaves. -/
def erase : Doc → Doc
  | .nil => .nil
  | .leaf l rest => .leaf l (erase rest)
  | .empty t rest => if t.isDs "Signature" then erase rest else .empty t (erase rest)
  | .node t kids rest =>
      if t.isDs "Signature" then erase rest else .node t (erase kids) (erase rest)

/-- The characters around the first signature, and those inside it. -/
structure Around where
  before : List Char
  inside : List Char
  after : List Char

def around : Doc → Option Around
  | .nil => none
  | .leaf l rest => (around rest).map fun a => { a with before := leafChars l ++ a.before }
  | .empty t rest => if t.isDs "Signature" then some ⟨[], [], characters rest⟩ else around rest
  | .node t kids rest =>
      if t.isDs "Signature" then some ⟨[], characters kids, characters rest⟩
      else
        match around kids with
        | some a => some { a with after := a.after ++ characters rest }
        | none => (around rest).map fun a => { a with before := characters kids ++ a.before }

theorem Lib.Xml.Tag.name_of_isDs {t : Tag} {name : String} (h : t.isDs name) :
    localName t = name := of_decide_eq_true (Bool.and_eq_true_iff.mp h).2

theorem erase_of_unsigned {f : Doc} (h : signatureElements f = []) : erase f = f := by
  induction f with
  | nil => rfl
  | leaf l rest ih => rw [erase, ih h]
  | empty t rest ih =>
      by_cases hsig : t.isDs "Signature" <;> simp [signatureElements, hsig] at h
      simp only [erase, hsig, Bool.false_eq_true, if_false]
      rw [ih (by simpa [signatureElements] using h)]
  | node t kids rest ihk ihr =>
      by_cases hsig : t.isDs "Signature" <;> simp [signatureElements, hsig] at h
      simp only [erase, hsig, Bool.false_eq_true, if_false]
      rw [ihk (by simpa [signatureElements] using h.1), ihr (by simpa [signatureElements] using h.2)]

theorem around_eq_none_iff {f : Doc} : around f = none ↔ signatureElements f = [] := by
  induction f with
  | nil => exact iff_of_true rfl rfl
  | leaf l rest ih => simpa [around, signatureElements] using ih
  | empty t rest ih =>
      by_cases hsig : t.isDs "Signature" <;> simp [around, signatureElements, hsig] at ih ⊢
      exact ih
  | node t kids rest ihk ihr =>
      by_cases hsig : t.isDs "Signature" <;> simp [around, signatureElements, hsig] at ihk ihr ⊢
      rw [← ihk, ← ihr]
      cases around kids <;> simp

/-- With one signature, its characters are those the transform takes away. -/
theorem characters_around {f : Doc} (hone : (signatureElements f).length ≤ 1) {a : Around}
    (h : around f = some a) :
    characters f = a.before ++ a.inside ++ a.after ∧
      characters (erase f) = a.before ++ a.after := by
  induction f generalizing a with
  | nil => cases h
  | leaf l rest ih =>
      obtain ⟨b, hb, rfl⟩ := Option.map_eq_some_iff.mp h
      obtain ⟨hfull, herased⟩ := ih hone hb
      simp [characters, erase, hfull, herased]
  | empty t rest ih =>
      by_cases hsig : t.isDs "Signature"
      · obtain rfl : (⟨[], [], characters rest⟩ : Around) = a := by simpa [around, hsig] using h
        have hrest : signatureElements rest = [] := by simpa [signatureElements, hsig] using hone
        simp [characters, erase, hsig, erase_of_unsigned hrest]
      · have hb : around rest = some a := by simpa [around, hsig] using h
        have hone : (signatureElements rest).length ≤ 1 := by
          simpa [signatureElements, hsig] using hone
        simpa [characters, erase, hsig] using ih hone hb
  | node t kids rest ihk ihr =>
      by_cases hsig : t.isDs "Signature"
      · obtain rfl : (⟨[], characters kids, characters rest⟩ : Around) = a := by
          simpa [around, hsig] using h
        have hrest : signatureElements rest = [] := by
          have hnone : signatureElements kids = [] ∧ signatureElements rest = [] := by
            simpa [signatureElements, hsig] using hone
          exact hnone.2
        simp [characters, erase, hsig, erase_of_unsigned hrest]
      · have hsum : (signatureElements kids).length + (signatureElements rest).length ≤ 1 := by
          simpa [signatureElements, hsig] using hone
        simp only [around, hsig, Bool.false_eq_true, if_false] at h
        simp only [characters, erase, hsig, Bool.false_eq_true, if_false]
        cases hk : around kids with
        | some b =>
            rw [hk] at h
            obtain rfl := Option.some.inj h
            have hrest : signatureElements rest = [] := by
              have hkids : signatureElements kids ≠ [] := fun hnil => by
                rw [around_eq_none_iff.mpr hnil] at hk
                cases hk
              have hpos := List.length_pos_iff.mpr hkids
              exact List.eq_nil_of_length_eq_zero (by omega)
            obtain ⟨hfull, herased⟩ := ihk (by omega) hk
            simp [hfull, herased, erase_of_unsigned hrest]
        | none =>
            rw [hk] at h
            obtain ⟨b, hb, rfl⟩ := Option.map_eq_some_iff.mp h
            obtain ⟨hfull, herased⟩ := ihr (by omega) hb
            simp [hfull, herased, erase_of_unsigned (around_eq_none_iff.mp hk)]

/-! ## The selected element -/

/-- No element inside a `ds:Signature` is on a path without that name. -/
theorem firstAt_inside {ν : Type} {path stack : List String} (hpath : "Signature" ∉ path)
    (hstack : "Signature" ∈ stack) (f : Forest Tag ν) : firstAt path stack f = none := by
  have hne : ∀ (t : Tag) {stack : List String}, "Signature" ∈ stack →
      (localName t :: stack).reverse ≠ path := by
    intro t stack hstack heq
    rw [← heq] at hpath
    exact hpath (by simp [hstack])
  induction f generalizing stack with
  | nil => rfl
  | leaf l rest ih => exact ih hstack
  | empty t rest ih =>
      rw [firstAt, if_neg (hne t hstack)]
      exact ih hstack
  | node t kids rest ihk ihr =>
      rw [firstAt, if_neg (hne t hstack), ihk (List.mem_cons_of_mem _ hstack), ihr hstack]
      rfl

theorem firstAt_erase {path : List String} (hpath : "Signature" ∉ path) (f : Doc) :
    ∀ stack, firstAt path stack (erase f) = (firstAt path stack f).map erase := by
  have hne : ∀ {t : Tag} (stack : List String), t.isDs "Signature" →
      (localName t :: stack).reverse ≠ path := by
    intro t stack hsig heq
    rw [← heq, Tag.name_of_isDs hsig] at hpath
    exact hpath (by simp)
  induction f with
  | nil => exact fun stack => rfl
  | leaf l rest ih => exact fun stack => ih stack
  | empty t rest ih =>
      intro stack
      by_cases hsig : t.isDs "Signature"
      · rw [firstAt, if_neg (hne stack hsig), erase, if_pos hsig]
        exact ih stack
      · rw [erase, if_neg hsig, firstAt, firstAt]
        split
        · rfl
        · exact ih stack
  | node t kids rest ihk ihr =>
      intro stack
      by_cases hsig : t.isDs "Signature"
      · have hin : "Signature" ∈ localName t :: stack := by
          rw [Tag.name_of_isDs hsig]
          exact List.mem_cons_self
        rw [firstAt, if_neg (hne stack hsig), erase, if_pos hsig, firstAt_inside hpath hin]
        exact ihr stack
      · rw [erase, if_neg hsig, firstAt, firstAt]
        split
        · rfl
        · rw [ihk, ihr]
          cases firstAt path (localName t :: stack) kids <;> rfl

/-- The selected element holds no more signatures than the document. -/
theorem signatureElements_firstAt {path : List String} {f kids : Doc} :
    ∀ {stack}, firstAt path stack f = some kids →
      (signatureElements kids).length ≤ (signatureElements f).length := by
  induction f with
  | nil => exact fun h => by cases h
  | leaf l rest ih => exact fun h => ih h
  | empty t rest ih =>
      intro stack h
      rw [firstAt] at h
      split at h
      · obtain rfl := Option.some.inj h
        exact Nat.zero_le _
      · have hrest := ih h
        by_cases hsig : t.isDs "Signature" <;> simp [signatureElements, hsig] at hrest ⊢ <;> omega
  | node t inner rest ihk ihr =>
      intro stack h
      have hle : (signatureElements inner).length + (signatureElements rest).length ≤
          (signatureElements (.node t inner rest)).length := by
        by_cases hsig : t.isDs "Signature" <;> simp [signatureElements, hsig]
      rw [firstAt] at h
      split at h
      · obtain rfl := Option.some.inj h
        omega
      · rcases Option.or_eq_some_iff.mp h with h | ⟨-, h⟩
        · have hk := ihk h
          omega
        · have hr := ihr h
          omega

/-! ## When the signature does not show -/

/-- The signature is not in the selected element, or its characters are trimmed away. -/
def Unread (path : List String) (d : Doc) : Prop :=
  ∀ a ∈ (firstAt path [] d).bind around,
    a.inside = [] ∨ (a.inside.all isWhitespace ∧
      (a.before.all isWhitespace ∨ a.after.all isWhitespace))

theorem textAt_erase {path : List String} (hpath : "Signature" ∉ path) {d : Doc}
    (hone : (signatureElements d).length = 1) :
    textAt path d = textAt path (erase d) ↔ Unread path d := by
  unfold textAt Unread
  rw [firstAt_erase hpath]
  cases hfirst : firstAt path [] d with
  | none => simp
  | some kids =>
      have hkids : (signatureElements kids).length ≤ 1 := hone ▸ signatureElements_firstAt hfirst
      cases haround : around kids with
      | none =>
          rw [Option.map_some, Option.map_some, Option.map_some,
            erase_of_unsigned (around_eq_none_iff.mp haround)]
          simp [haround]
      | some a =>
          obtain ⟨hfull, herased⟩ := characters_around hkids haround
          rw [Option.map_some, Option.map_some, Option.map_some, hfull, herased, Option.bind_some,
            haround, Option.some.injEq, String.ofList_inj, trimChars_insert]
          exact ⟨fun h b hb => Option.mem_some_iff.mp hb ▸ h, fun h => h a rfl⟩

/-- Elements with their tags, and characters: a document up to comments, processing instructions and
    the way its characters are written. -/
def content : Doc → Forest Tag Char
  | .nil => .nil
  | .leaf l rest => (leafChars l).foldr Forest.leaf (content rest)
  | .empty t rest => .node t .nil (content rest)
  | .node t kids rest => .node t (content kids) (content rest)

/-- The characters of a content. -/
def charactersOf : Forest Tag Char → List Char
  | .nil => []
  | .leaf c rest => c :: charactersOf rest
  | .empty _ rest => charactersOf rest
  | .node _ kids rest => charactersOf kids ++ charactersOf rest

theorem characters_content (f : Doc) : characters f = charactersOf (content f) := by
  induction f with
  | nil => rfl
  | leaf l rest ih =>
      rw [characters, content, ih]
      induction leafChars l with
      | nil => rfl
      | cons c cs ihc => rw [List.cons_append, ihc, List.foldr_cons, charactersOf]
  | empty t rest ih => exact ih
  | node t kids rest ihk ihr => rw [characters, content, ihk, ihr, charactersOf]

theorem firstAt_content (path : List String) (f : Doc) :
    ∀ stack, firstAt path stack (content f) = (firstAt path stack f).map content := by
  induction f with
  | nil => exact fun stack => rfl
  | leaf l rest ih =>
      intro stack
      rw [content, firstAt, ← ih]
      induction leafChars l with
      | nil => rfl
      | cons c cs ihc => exact ihc
  | empty t rest ih =>
      intro stack
      rw [content, firstAt, firstAt]
      split
      · rfl
      · rw [← ih]
        rfl
  | node t kids rest ihk ihr =>
      intro stack
      rw [content, firstAt, firstAt]
      split
      · rfl
      · rw [ihk, ihr]
        cases firstAt path (localName t :: stack) kids <;> rfl

/-- What `text` reads depends on the content alone. -/
theorem textAt_congr {d d' : Doc} (h : content d = content d') (path : List String) :
    textAt path d = textAt path d' := by
  have hfirst : (firstAt path [] d).map content = (firstAt path [] d').map content := by
    rw [← firstAt_content, ← firstAt_content, h]
  have hread : ∀ e : Doc, textAt path e =
      ((firstAt path [] e).map content).map fun c => String.ofList (trimChars (charactersOf c)) := by
    intro e
    rw [textAt, Option.map_map]
    congr 1
    funext kids
    rw [characters_content]
    rfl
  rw [hread d, hread d', hfirst]

theorem signature_notMem_readPaths : ∀ path ∈ InboundService.readPaths, "Signature" ∉ path := by
  decide

theorem resolves_erase {d : Doc} (h : Resolves d) : Resolves (erase d) := by
  induction d with
  | nil => exact h
  | leaf l rest ih => exact ⟨h.1, ih h.2⟩
  | empty t rest ih =>
      rw [erase]
      split
      · exact ih h
      · exact ih h
  | node t kids rest ihk ihr =>
      rw [erase]
      split
      · exact ihr h.2
      · exact ⟨ihk h.1, ihr h.2⟩

theorem text_parsed {d : Doc} {doc : XmlDoc} (h : XmlDoc.parse d.stream = .ok doc)
    (path : List String) : doc.text path = textAt path d := by
  obtain ⟨hres, hxml⟩ := parse_stream h
  have heta : doc = ⟨d.stream, doc.root⟩ := by rw [← hxml]
  rw [heta, text_eq hres]

/-- A signature of the whole document, with an object that it does not sign. -/
def signature (rest : Doc) : Doc :=
  .node (dsTag "Signature" [])
    (.node (dsTag "SignedInfo" []) wholeReference
      (.node (dsTag "Object" []) (.leaf (.text "9") .nil) .nil)) rest

/-- `<Invoice>` with the signature after its `<ID>`. -/
def signedBeside : Doc :=
  .node (plainTag "Invoice")
    (.node (plainTag "ID") (.leaf (.text "FE1") .nil) (signature .nil)) .nil

/-- `<Invoice>` with the signature inside its `<ID>`. -/
def signedInside : Doc :=
  .node (plainTag "Invoice")
    (.node (plainTag "ID") (.leaf (.text "FE1") (signature .nil)) .nil) .nil

/-- What `text` reads on a path of `register_verified`, the signature there or taken out, and in
    two documents that only differ in their signatures. -/
theorem text_of_signed {d : Doc} {doc : XmlDoc} {path : List String}
    (hone : (signatureElements d).length = 1) (hparse : XmlDoc.parse d.stream = .ok doc)
    (hpath : path ∈ InboundService.readPaths) :
    (doc.text path = XmlDoc.text ⟨(erase d).stream, doc.root⟩ path ↔ Unread path d) ∧
      (Unread path d → ∀ (d' : Doc) (doc' : XmlDoc), (signatureElements d').length = 1 →
        XmlDoc.parse d'.stream = .ok doc' → content (erase d') = content (erase d) →
          (doc'.text path = doc.text path ↔ Unread path d')) := by
  have hname := signature_notMem_readPaths path hpath
  rw [text_parsed hparse, text_eq (resolves_erase (parse_stream hparse).1)]
  refine ⟨textAt_erase hname hone, fun hunread d' doc' hone' hparse' hsame => ?_⟩
  rw [text_parsed hparse', (textAt_erase hname hone).mpr hunread, ← textAt_congr hsame]
  exact textAt_erase hname hone'

theorem text_of_signed_signedBeside :
    XmlDoc.text ⟨signedBeside.stream, "Invoice"⟩ ["Invoice", "ID"] =
      XmlDoc.text ⟨(erase signedBeside).stream, "Invoice"⟩ ["Invoice", "ID"] := by
  have hparse : XmlDoc.parse signedBeside.stream = .ok ⟨signedBeside.stream, "Invoice"⟩ := rfl
  have hunread : Unread ["Invoice", "ID"] signedBeside := by
    have hnone : (firstAt ["Invoice", "ID"] [] signedBeside).bind around = none := by decide
    intro a ha
    rw [hnone] at ha
    cases ha
  exact (text_of_signed (by decide) hparse (by decide)).1.mpr hunread

theorem signedInside_text :
    ¬ ∀ (d d' : Doc) (doc doc' : XmlDoc) (path : List String),
      checkSignatureStructure d.stream = .ok () → checkSignatureStructure d'.stream = .ok () →
      XmlDoc.parse d.stream = .ok doc → XmlDoc.parse d'.stream = .ok doc' →
      erase d = erase d' → path ∈ InboundService.readPaths → doc.text path = doc'.text path := by
  intro h
  have hsame := h signedInside signedBeside ⟨signedInside.stream, "Invoice"⟩
    ⟨signedBeside.stream, "Invoice"⟩ ["Invoice", "ID"] (by decide) (by decide) rfl rfl (by decide)
    (by decide)
  have hinside : XmlDoc.text ⟨signedInside.stream, "Invoice"⟩ ["Invoice", "ID"] = some "FE19" := by
    decide
  have hbeside : XmlDoc.text ⟨signedBeside.stream, "Invoice"⟩ ["Invoice", "ID"] = some "FE1" := by
    decide
  rw [hinside, hbeside] at hsame
  exact absurd hsame (by decide)

end DianService
