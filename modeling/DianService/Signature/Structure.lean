import DianService.Crypto.Verify
import DianService.Lib.Xml.Values
import Mathlib.Data.List.Induction

/-
  What `check_signature_structure` accepts. The check is one pass over the events, and of a document
  it sees no more than a list of marks in document order: the `ds:Reference` elements opened right
  under a `ds:SignedInfo`, the enveloped `ds:Transform` elements, and the end tags of `ds:Reference`.
  No mark knows which signature it belongs to.

  `structure_checked` compares this with what the check is for, a reference of the signature's own
  `ds:SignedInfo` to the whole document, and says on which documents the two differ.
-/

namespace DianService

open Lib.Xml

/-! ## What the check is for -/

/-- The value of an attribute, with its references resolved. -/
def Lib.Xml.Tag.value? (t : Tag) (key : String) : Option (List Char) :=
  (t.raw? key).bind fun raw => attributeValue raw.toList

/-- The `ds:Signature` elements, each with its content. -/
def signatureElements (d : Doc) : List (Tag × Doc) :=
  d.elements.filter fun e => e.1.isDs "Signature"

/-- A `ds:Transform` with the enveloped-signature algorithm. -/
def IsEnveloped (e : Tag × Doc) : Prop :=
  e.1.isDs "Transform" ∧ e.1.value? "Algorithm" = some ALG_ENVELOPED.toList

/-- A `ds:Reference` to the whole document, the enveloped signature taken out. -/
def IsWholeReference (e : Tag × Doc) : Prop :=
  e.1.isDs "Reference" ∧ e.1.value? "URI" = some [] ∧
    ∃ transforms ∈ e.2.children, transforms.1.isDs "Transforms" ∧
      ∃ transform ∈ transforms.2.children, IsEnveloped transform

/-- A signature's own `ds:SignedInfo` refers to the whole document. -/
def OwnReference (d : Doc) : Prop :=
  ∃ signature ∈ signatureElements d, ∃ info ∈ signature.2.children, info.1.isDs "SignedInfo" ∧
    ∃ reference ∈ info.2.children, IsWholeReference reference

/-- Exactly one signature, over the whole document. -/
def WholeSigned (d : Doc) : Prop := (signatureElements d).length = 1 ∧ OwnReference d

instance (e : Tag × Doc) : Decidable (IsEnveloped e) := by unfold IsEnveloped; infer_instance

instance (e : Tag × Doc) : Decidable (IsWholeReference e) := by
  unfold IsWholeReference; infer_instance

instance (d : Doc) : Decidable (OwnReference d) := by unfold OwnReference; infer_instance

instance (d : Doc) : Decidable (WholeSigned d) := by unfold WholeSigned; infer_instance

/-! ## Marks -/

inductive Mark where
  | reference (whole : Bool)
  | enveloped
  | closed
  deriving DecidableEq

/-- The marks of an opening tag; `inInfo` says that its parent is a `ds:SignedInfo`. -/
def Lib.Xml.Tag.marks (t : Tag) (inInfo : Bool) : List Mark :=
  (if t.isDs "Reference" && inInfo then [.reference (t.raw? "URI" = some "")] else []) ++
    if t.isDs "Transform" && t.raw? "Algorithm" = some ALG_ENVELOPED then [.enveloped] else []

def marksIn (inInfo : Bool) : Doc → List Mark
  | .nil => []
  | .leaf _ rest => marksIn inInfo rest
  | .empty t rest => t.marks inInfo ++ marksIn inInfo rest
  | .node t kids rest =>
      t.marks inInfo ++ marksIn (t.isDs "SignedInfo") kids ++
        (if t.isDs "Reference" then [.closed] else []) ++ marksIn inInfo rest

/-- The marks of a document, in document order. -/
def marks (d : Doc) : List Mark := marksIn false d

/-- The last reference opened is to the whole document, and no `ds:Reference` has ended since. -/
def Open (ms : List Mark) : Prop :=
  ∃ a b, ms = a ++ .reference true :: b ∧ ∀ m ∈ b, m = .enveloped

/-- An enveloped transform came under such a reference, and no `ds:Reference` has ended since. -/
def Armed (ms : List Mark) : Prop :=
  ∃ a b, ms = a ++ .enveloped :: b ∧ Open a ∧ .closed ∉ b

/-- Some `ds:Reference` ends with both in place. -/
def Covered (ms : List Mark) : Prop :=
  ∃ a b, ms = a ++ .closed :: b ∧ Open a ∧ Armed a

/-! ## The marks read so far, one more mark -/

theorem eq_snoc_cases {α : Type} {ms a b : List α} {m x : α} (h : ms ++ [m] = a ++ x :: b) :
    (b = [] ∧ m = x ∧ ms = a) ∨ ∃ b', b = b' ++ [m] ∧ ms = a ++ x :: b' := by
  rcases b.eq_nil_or_concat with rfl | ⟨b', y, rfl⟩
  · obtain ⟨hms, hm⟩ := List.append_inj' h rfl
    have hm : m = x := by simpa using hm
    exact Or.inl ⟨rfl, hm, hms⟩
  · have h' : ms ++ [m] = (a ++ x :: b') ++ [y] := by simpa using h
    obtain ⟨hms, hm⟩ := List.append_inj' h' rfl
    have hm : m = y := by simpa using hm
    exact Or.inr ⟨b', by simp [hm], hms⟩

theorem open_snoc (ms : List Mark) (m : Mark) :
    Open (ms ++ [m]) ↔ m = .reference true ∨ (m = .enveloped ∧ Open ms) := by
  constructor
  · rintro ⟨a, b, h, hb⟩
    rcases eq_snoc_cases h with ⟨-, rfl, -⟩ | ⟨b', rfl, hms⟩
    · exact Or.inl rfl
    · refine Or.inr ⟨hb m (by simp), a, b', hms, fun x hx => hb x ?_⟩
      exact List.mem_append_left _ hx
  · rintro (rfl | ⟨rfl, a, b, rfl, hb⟩)
    · exact ⟨ms, [], rfl, by simp⟩
    · refine ⟨a, b ++ [.enveloped], by simp, fun x hx => ?_⟩
      rcases List.mem_append.mp hx with hx | hx
      · exact hb x hx
      · simpa using hx

theorem armed_snoc (ms : List Mark) (m : Mark) :
    Armed (ms ++ [m]) ↔ (m = .enveloped ∧ Open ms) ∨ (m ≠ .closed ∧ Armed ms) := by
  constructor
  · rintro ⟨a, b, h, ha, hb⟩
    rcases eq_snoc_cases h with ⟨-, rfl, rfl⟩ | ⟨b', rfl, hms⟩
    · exact Or.inl ⟨rfl, ha⟩
    · simp only [List.mem_append, List.mem_singleton, not_or] at hb
      exact Or.inr ⟨Ne.symm hb.2, a, b', hms, ha, hb.1⟩
  · rintro (⟨rfl, h⟩ | ⟨hm, a, b, rfl, ha, hb⟩)
    · exact ⟨ms, [], rfl, h, by simp⟩
    · refine ⟨a, b ++ [m], by simp, ha, ?_⟩
      simpa [hb] using Ne.symm hm

theorem covered_snoc (ms : List Mark) (m : Mark) :
    Covered (ms ++ [m]) ↔ Covered ms ∨ (m = .closed ∧ Open ms ∧ Armed ms) := by
  constructor
  · rintro ⟨a, b, h, ha⟩
    rcases eq_snoc_cases h with ⟨-, rfl, rfl⟩ | ⟨b', rfl, hms⟩
    · exact Or.inr ⟨rfl, ha⟩
    · exact Or.inl ⟨a, b', hms, ha⟩
  · rintro (⟨a, b, rfl, ha⟩ | ⟨rfl, h⟩)
    · exact ⟨a, b ++ [m], by simp, ha⟩
    · exact ⟨ms, [], rfl, h⟩

/-! ## The pass over the events is a pass over the marks -/

/-- What a mark does to the flags. -/
def StructureCheck.mark (s : StructureCheck) : Mark → StructureCheck
  | .reference whole => { s with in_whole_reference := whole }
  | .enveloped => { s with enveloped := s.enveloped || s.in_whole_reference }
  | .closed =>
      { s with
        whole_document_reference := s.whole_document_reference || (s.in_whole_reference && s.enveloped)
        in_whole_reference := false
        enveloped := false }

theorem Lib.Xml.Tag.label_eq (t : Tag) (name : String) :
    t.label = "ds:" ++ name ↔ t.isDs name := by
  have hcolon : t.name.text ≠ "ds:" ++ name := by
    intro h
    have hn := t.name.no_colon
    rw [h] at hn
    simp at hn
  unfold Tag.label Tag.isDs
  by_cases hu : t.uri = some NS_DS
  · simp [hu]
  · simp [hu, hcolon]

namespace StructureCheck

/-- The same flags in another place of the document. -/
def within (s : StructureCheck) (p : List String) : StructureCheck := { s with path := p }

@[simp] theorem within_path (s : StructureCheck) (p : List String) : (s.within p).path = p := rfl

@[simp] theorem within_within (s : StructureCheck) (p q : List String) :
    (s.within p).within q = s.within q := rfl

@[simp] theorem within_self (s : StructureCheck) : s.within s.path = s := rfl

/-- `n` more signatures, and a list of marks. -/
def read (s : StructureCheck) (n : Nat) (ms : List Mark) : StructureCheck :=
  let r := ms.foldl mark s
  { r with signatures := r.signatures + n }

theorem foldl_mark_within (s : StructureCheck) (p : List String) (ms : List Mark) :
    ms.foldl mark (s.within p) = (ms.foldl mark s).within p := by
  induction ms generalizing s with
  | nil => rfl
  | cons m ms ih =>
      have hm : mark (s.within p) m = (mark s m).within p := by
        cases m <;> rfl
      rw [List.foldl_cons, hm, ih, List.foldl_cons]

theorem foldl_mark_signatures (s : StructureCheck) (n : Nat) (ms : List Mark) :
    ms.foldl mark { s with signatures := s.signatures + n } =
      { ms.foldl mark s with signatures := (ms.foldl mark s).signatures + n } := by
  induction ms generalizing s with
  | nil => rfl
  | cons m ms ih =>
      have hm : mark { s with signatures := s.signatures + n } m =
          { mark s m with signatures := (mark s m).signatures + n } := by
        cases m <;> rfl
      rw [List.foldl_cons, hm, ih, List.foldl_cons]

@[simp] theorem read_within (s : StructureCheck) (p : List String) (n : Nat) (ms : List Mark) :
    (s.within p).read n ms = (s.read n ms).within p := by
  unfold read
  rw [foldl_mark_within]
  rfl

@[simp] theorem within_read_self (s : StructureCheck) (n : Nat) (ms : List Mark) :
    (s.read n ms).within s.path = s.read n ms := by
  rw [← read_within, within_self]

@[simp] theorem read_path (s : StructureCheck) (n : Nat) (ms : List Mark) :
    (s.read n ms).path = s.path := by
  rw [← within_read_self, within_path]

@[simp] theorem read_read (s : StructureCheck) (m n : Nat) (as bs : List Mark) :
    (s.read m as).read n bs = s.read (m + n) (as ++ bs) := by
  unfold read
  rw [List.foldl_append, foldl_mark_signatures]
  simp only [Nat.add_assoc]

@[simp] theorem read_signatures (s : StructureCheck) (n : Nat) (ms : List Mark) :
    (s.read n ms).signatures = s.signatures + n := by
  have h : ∀ r : StructureCheck, (ms.foldl mark r).signatures = r.signatures := by
    induction ms with
    | nil => exact fun r => rfl
    | cons m ms ih =>
        intro r
        rw [List.foldl_cons, ih]
        cases m <;> rfl
  rw [read, h]

/-- The parent of the current position is a `ds:SignedInfo`. -/
def inInfo (s : StructureCheck) : Bool := s.path.head? = some "ds:SignedInfo"

@[simp] theorem read_inInfo (s : StructureCheck) (n : Nat) (ms : List Mark) :
    (s.read n ms).inInfo = s.inInfo := by
  unfold inInfo
  rw [read_path]

@[simp] theorem within_label_inInfo (s : StructureCheck) (t : Tag) (p : List String) :
    (s.within (t.label :: p)).inInfo = t.isDs "SignedInfo" := by
  have h : t.label = "ds:SignedInfo" ↔ t.isDs "SignedInfo" := t.label_eq "SignedInfo"
  by_cases hinfo : t.isDs "SignedInfo" <;> simp [inInfo, h, hinfo]

theorem opened_eq (s : StructureCheck) (t : Tag) :
    s.opened t = s.read (if t.isDs "Signature" then 1 else 0) (t.marks s.inInfo) := by
  have hone : t.isDs "Reference" → t.isDs "Transform" = false := by
    intro h
    have hname : t.name.text = "Reference" := of_decide_eq_true (Bool.and_eq_true_iff.mp h).2
    simp [Tag.isDs, hname]
  obtain ⟨n, path, covered, inWhole, enveloped⟩ := s
  unfold opened read Tag.marks inInfo
  by_cases href : t.isDs "Reference"
  · by_cases hsig : t.isDs "Signature" <;>
      by_cases hin : path.head? = some "ds:SignedInfo" <;> simp [hsig, href, hone, hin, mark]
  · by_cases hsig : t.isDs "Signature" <;> by_cases htr : t.isDs "Transform" <;>
      by_cases halg : t.raw? "Algorithm" = some ALG_ENVELOPED <;> cases inWhole <;>
      simp [hsig, href, htr, halg, mark]

theorem closed_within (s : StructureCheck) (t : Tag) (p : List String) :
    (s.within (t.label :: p)).closed =
      (s.read 0 (if t.isDs "Reference" then [.closed] else [])).within p := by
  have hlabel : t.label = "ds:Reference" ↔ t.isDs "Reference" := t.label_eq "Reference"
  unfold closed read within
  by_cases href : t.isDs "Reference" <;> simp [hlabel, href, mark]

/-- A forest read from any state: the path ends where it began. -/
theorem foldl_events (s : StructureCheck) (f : Doc) :
    f.events.foldl step s = s.read (signatureElements f).length (marksIn s.inInfo f) := by
  induction f generalizing s with
  | nil => rfl
  | leaf l rest ih => exact ih s
  | empty t rest ih =>
      show rest.events.foldl step (s.opened t) = _
      rw [opened_eq, ih, read_inInfo, read_read]
      congr 1
      by_cases hsig : t.isDs "Signature" <;> simp [signatureElements, hsig, Nat.add_comm]
  | node t kids rest ihk ihr =>
      show (kids.events ++ .close t :: rest.events).foldl step
        ((s.opened t).within (t.label :: s.path)) = _
      rw [List.foldl_append, ihk, within_label_inInfo, read_within, List.foldl_cons]
      show rest.events.foldl step (closed (within _ _)) = _
      rw [closed_within, ihr, opened_eq]
      by_cases hsig : t.isDs "Signature" <;>
        simp [signatureElements, marksIn, hsig, Nat.add_comm 1, Nat.add_right_comm]

/-- The flags after a list of marks. -/
theorem foldl_mark_flags (ms : List Mark) :
    ((ms.foldl mark init).in_whole_reference ↔ Open ms) ∧
      ((ms.foldl mark init).enveloped ↔ Armed ms) ∧
      ((ms.foldl mark init).whole_document_reference ↔ Covered ms) := by
  induction ms using List.reverseRecOn with
  | nil => simp [init, Open, Armed, Covered]
  | append_singleton ms m ih =>
      obtain ⟨hopen, harmed, hcovered⟩ := ih
      rw [List.foldl_append, open_snoc, armed_snoc, covered_snoc, ← hopen, ← harmed, ← hcovered]
      cases m <;> simp [mark, or_comm]

end StructureCheck

/-- What the check accepts. -/
theorem checkSignatureStructure_stream (d : Doc) :
    checkSignatureStructure d.stream = .ok () ↔
      (signatureElements d).length = 1 ∧ Covered (marks d) := by
  have hread := StructureCheck.foldl_events .init d
  have hflags := (StructureCheck.foldl_mark_flags (marks d)).2.2
  have hcount : (d.events.foldl StructureCheck.step .init).signatures =
      (signatureElements d).length := by
    rw [hread, StructureCheck.read_signatures]
    exact Nat.zero_add _
  have hcovered : (d.events.foldl StructureCheck.step .init).whole_document_reference ↔
      Covered (marks d) := by
    rw [hread, ← hflags]
    rfl
  unfold checkSignatureStructure
  simp only [Forest.stream, hcount]
  by_cases hone : (signatureElements d).length = 1
  · by_cases hc : Covered (marks d) <;> simp [hone, hcovered, hc]
  · by_cases hzero : (signatureElements d).length = 0 <;> simp [hone, hzero]

/-! ## Where the check and its purpose differ -/

/-- A document passes for what is not a reference of its signature. -/
def Decoyed (d : Doc) : Prop :=
  (signatureElements d).length = 1 ∧ Covered (marks d) ∧ ¬ OwnReference d

/-- The reference of its signature goes unseen. -/
def Obscured (d : Doc) : Prop :=
  (signatureElements d).length = 1 ∧ OwnReference d ∧ ¬ Covered (marks d)

theorem structure_checked (d : Doc) :
    (checkSignatureStructure d.stream = .ok () ↔ WholeSigned d) ↔ ¬ Decoyed d ∧ ¬ Obscured d := by
  rw [checkSignatureStructure_stream]
  unfold WholeSigned Decoyed Obscured
  tauto

/-- An element of XML-DSig with the prefix `ds`. -/
def dsTag (name : String) (attributes : List Attribute) : Tag :=
  ⟨some NS_DS, some (.of "ds"), .of name, attributes⟩

/-- An element without a namespace. -/
def plainTag (name : String) : Tag := ⟨none, none, .of name, []⟩

/-- `<ds:Reference URI="">` with an enveloped transform. -/
def wholeReference : Doc :=
  .node (dsTag "Reference" [⟨"URI", ""⟩])
    (.node (dsTag "Transforms" [])
      (.empty (dsTag "Transform" [⟨"Algorithm", ALG_ENVELOPED⟩]) .nil) .nil) .nil

/-- The signature refers to one element only; the reference to the document is of another
    `ds:SignedInfo`. -/
def decoyDocument : Doc :=
  .node (plainTag "Invoice")
    (.node (dsTag "Signature" [])
      (.node (dsTag "SignedInfo" []) (.node (dsTag "Reference" [⟨"URI", "#part"⟩]) .nil .nil) .nil)
      (.node (dsTag "SignedInfo" []) wholeReference .nil)) .nil

theorem decoyDocument_passes :
    ¬ ∀ d : Doc, checkSignatureStructure d.stream = .ok () ↔ WholeSigned d := by
  intro h
  have hpass : checkSignatureStructure decoyDocument.stream = .ok () := by decide
  have hown : ¬ WholeSigned decoyDocument := by decide
  exact hown ((h decoyDocument).mp hpass)

end DianService
