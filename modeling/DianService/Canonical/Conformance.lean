import DianService.Canonical.Tags
import Mathlib.Data.List.TakeWhile

/-
  Documents: when the canonicalizer returns the octets that Canonical XML and Exclusive XML
  Canonicalization prescribe.

  An event either writes what it should or writes something that no later event can repair
  (`Agrees`). The events of a forest compose, by induction on it.
-/

namespace DianService.C14n

open Lib Lib.Xml

/-! ## Processing instructions -/

/-- Text where Unicode white space does not pass for the white space of XML: in the target there is
    none, and none opens the data. -/
def PlainPi (raw : Text) : Prop :=
  (∀ ch ∈ piTarget raw, isWhitespace ch = false) ∧
    ∀ ch ∈ (piData raw).head?, isWhitespace ch = false

instance (raw : Text) : Decidable (PlainPi raw) :=
  decidable_of_iff ((piTarget raw).all (fun ch => !isWhitespace ch) ∧
    (piData raw).head?.all fun ch => !isWhitespace ch) (by simp [PlainPi, Option.all_eq_true])

theorem isWhitespace_of_isSpace {ch : Char} (h : isSpace ch) : isWhitespace ch := by
  simp only [isSpace, Bool.or_eq_true, decide_eq_true_eq] at h
  rcases h with ((rfl | rfl) | rfl) | rfl <;> rfl

theorem head?_dropWhile_not {p : Char → Bool} (cs : Text) :
    ∀ ch ∈ (cs.dropWhile p).head?, p ch = false := by
  intro ch hch
  have h := List.head?_dropWhile_not p cs
  rw [Option.mem_def.mp hch] at h
  simpa using h

/-- The text of an instruction is its target, white space and its data. -/
theorem pi_split (raw : Text) :
    ∃ gap, raw = piTarget raw ++ (gap ++ piData raw) ∧ (∀ ch ∈ gap, isSpace ch) ∧
      (gap = [] → piData raw = []) := by
  refine ⟨(raw.dropWhile fun c => !isSpace c).takeWhile isSpace, ?_, ?_, ?_⟩
  · unfold piTarget piData
    rw [List.takeWhile_append_dropWhile, List.takeWhile_append_dropWhile]
  · exact fun ch hch => List.mem_takeWhile_imp hch
  · intro hgap
    unfold piData
    cases hrest : raw.dropWhile fun c => !isSpace c with
    | nil => rfl
    | cons ch rest =>
        have hhead := head?_dropWhile_not (p := fun c => !isSpace c) raw
        rw [hrest] at hhead hgap
        have hspace : isSpace ch := by simpa using hhead ch rfl
        rw [List.takeWhile_cons_of_pos hspace] at hgap
        cases hgap

theorem head?_piData (raw : Text) : ∀ ch ∈ (piData raw).head?, isSpace ch = false :=
  head?_dropWhile_not _

theorem target_nonspace (raw : Text) : ∀ ch ∈ piTarget raw, isSpace ch = false := by
  intro ch hch
  simpa using List.mem_takeWhile_imp hch

theorem head?_gap_append {gap data : Text} (hgap : ∀ ch ∈ gap, isSpace ch)
    (hnil : gap = [] → data = []) : ∀ ch ∈ (gap ++ data).head?, isWhitespace ch = true := by
  intro ch hch
  cases gap with
  | nil =>
      rw [hnil rfl] at hch
      cases hch
  | cons g gap =>
      cases hch
      exact isWhitespace_of_isSpace (hgap ch List.mem_cons_self)

/-- The text that the code makes of an instruction whose target has no Unicode white space. -/
theorem processingInstruction_eq {raw : Text}
    (htarget : ∀ ch ∈ piTarget raw, isWhitespace ch = false) :
    processingInstruction raw =
      "<?".toList ++ piTarget raw ++
        (if (piData raw).dropWhile isWhitespace = [] then []
          else ' ' :: Lib.Xml.normalizeEol ((piData raw).dropWhile isWhitespace)) ++ "?>".toList := by
  obtain ⟨gap, hraw, hgap, hnil⟩ := pi_split raw
  have hhead : ∀ ch ∈ (gap ++ piData raw).head?, (!isWhitespace ch) = false := by
    intro ch hch
    rw [head?_gap_append hgap hnil ch hch]
    rfl
  have hsplit := takeWhile_append_stop (p := fun ch => !isWhitespace ch) (u := piTarget raw)
    (fun ch hch => by rw [htarget ch hch]; rfl) hhead
  rw [← hraw] at hsplit
  have hdrop : (gap ++ piData raw).dropWhile isWhitespace = (piData raw).dropWhile isWhitespace :=
    List.dropWhile_append_of_pos fun ch hch => isWhitespace_of_isSpace (hgap ch hch)
  unfold processingInstruction
  dsimp only
  rw [hsplit.1, hsplit.2, hdrop, normalizeEol_eq]

theorem processingInstruction_plain {raw : Text} (h : PlainPi raw) :
    processingInstruction raw = piText raw := by
  have hdata : (piData raw).dropWhile isWhitespace = piData raw := by
    cases hd : piData raw with
    | nil => rfl
    | cons ch data =>
        have hch := h.2 ch (by rw [hd]; rfl)
        exact List.dropWhile_cons_of_neg (by rw [hch]; exact Bool.false_ne_true)
  rw [processingInstruction_eq h.1, hdata]
  rfl

theorem normalizeEol_cons {ch : Char} (h : ch ≠ '\r') (cs : Text) :
    Lib.Xml.normalizeEol (ch :: cs) = ch :: Lib.Xml.normalizeEol cs := by
  rw [Lib.Xml.normalizeEol]
  · rintro _ rfl
    exact absurd rfl h
  · exact h

theorem ne_of_isWhitespace {a b : Char} (ha : isWhitespace a = true) (hb : isWhitespace b = false) :
    a ≠ b := by
  rintro rfl
  rw [ha] at hb
  cases hb

theorem ne_of_isSpace {a b : Char} (ha : isSpace a = true) (hb : isSpace b = false) : a ≠ b := by
  rintro rfl
  rw [ha] at hb
  cases hb

/-- Elsewhere the two part where the first character of Unicode white space stands. -/
theorem processingInstruction_clash {raw : Text} (h : ¬ PlainPi raw) :
    Clash (processingInstruction raw) (piText raw) := by
  by_cases htarget : ∀ ch ∈ piTarget raw, isWhitespace ch = false
  · have hdata : ¬ ∀ ch ∈ (piData raw).head?, isWhitespace ch = false := fun hd => h ⟨htarget, hd⟩
    rw [processingInstruction_eq htarget]
    unfold piText
    cases hd : piData raw with
    | nil =>
        rw [hd] at hdata
        exact absurd (fun _ hch => absurd hch (Option.not_mem_none _)) hdata
    | cons w data =>
        have hw : isWhitespace w = true := by
          rw [hd] at hdata
          simpa using hdata
        have hws : isSpace w = false := head?_piData raw w (by rw [hd]; rfl)
        rw [List.dropWhile_cons_of_pos hw, if_neg (List.cons_ne_nil w data),
          normalizeEol_cons (ne_of_isSpace (a := '\r') rfl hws).symm]
        simp only [List.append_assoc]
        refine (clash_append_left _).mpr ((clash_append_left _).mpr ?_)
        cases hrest : data.dropWhile isWhitespace with
        | nil => exact clash_of_head (by decide) _ _
        | cons x rest =>
            have hx : isWhitespace x = false := by
              have hhead := head?_dropWhile_not (p := isWhitespace) data
              rw [hrest] at hhead
              exact hhead x rfl
            rw [if_neg (List.cons_ne_nil x rest),
              normalizeEol_cons (ne_of_isWhitespace (a := '\r') rfl hx).symm]
            refine (clash_append_left [' ']).mpr ?_
            exact clash_of_head (ne_of_isWhitespace hw hx).symm _ _
  · -- the code cuts the target short
    obtain ⟨gap, hraw, -, -⟩ := pi_split raw
    have hcut := List.takeWhile_append_dropWhile (p := fun ch => !isWhitespace ch)
      (l := piTarget raw)
    cases hrest : (piTarget raw).dropWhile fun ch => !isWhitespace ch with
    | nil =>
        refine absurd (fun ch hch => ?_) htarget
        rw [hrest, List.append_nil] at hcut
        rw [← hcut] at hch
        simpa using List.mem_takeWhile_imp hch
    | cons w rest =>
        have hw : isWhitespace w = true := by
          have hhead := head?_dropWhile_not (p := fun ch => !isWhitespace ch) (piTarget raw)
          rw [hrest] at hhead
          simpa using hhead w rfl
        have hws : isSpace w = false := by
          refine target_nonspace raw w ?_
          rw [← hcut, hrest]
          exact List.mem_append_right _ List.mem_cons_self
        rw [hrest] at hcut
        have hraw' : raw = (piTarget raw).takeWhile (fun ch => !isWhitespace ch) ++
            (w :: (rest ++ (gap ++ piData raw))) := by
          rw [← List.cons_append, ← List.append_assoc, hcut]
          exact hraw
        have hcode := (takeWhile_append_stop (p := fun ch => !isWhitespace ch)
          (u := (piTarget raw).takeWhile fun ch => !isWhitespace ch)
          (v := w :: (rest ++ (gap ++ piData raw)))
          (fun ch hch => List.mem_takeWhile_imp (p := fun ch => !isWhitespace ch) hch)
          (fun ch hch => by cases hch; rw [hw]; rfl)).1
        rw [← hraw'] at hcode
        unfold processingInstruction piText
        dsimp only
        rw [hcode]
        conv => arg 2; rw [← hcut]
        simp only [List.append_assoc]
        refine (clash_append_left _).mpr ((clash_append_left _).mpr ?_)
        split
        · exact clash_of_head (ne_of_isWhitespace (b := '?') hw rfl).symm _ _
        · exact clash_of_head (ne_of_isSpace (a := ' ') rfl hws) _ _

/-! ## Writing -/

def Leaf.Plain : Leaf → Prop
  | .pi raw => PlainPi raw.toList
  | _ => True

instance : (l : Leaf) → Decidable (Leaf.Plain l)
  | .pi raw => inferInstanceAs (Decidable (PlainPi raw.toList))
  | .text _ | .cdata _ | .ref _ | .comment _ | .decl _ | .doctype _ => instDecidableTrue

@[simp] theorem push_out (c : Canonicalizer) (text : Text) : (c.push text).out = c.out ++ text :=
  rfl

theorem push_push (c : Canonicalizer) (s t : Text) : (c.push s).push t = c.push (s ++ t) := by
  simp [Canonicalizer.push, List.append_assoc]

theorem push_nil (c : Canonicalizer) : c.push [] = c := by
  simp [Canonicalizer.push]

/-- A part of the pass that should take `c` to `c'` and write `text` on the way: it does where
    `sound` holds, and elsewhere whatever it writes is wrong for good. -/
structure Agrees (sound : Prop) (c c' : Canonicalizer) (text : Text)
    (result : Except CryptoError Canonicalizer) : Prop where
  ok : sound → result = .ok c' ∧ c'.out = c.out ++ text
  off : ¬ sound → ∀ d, result = .ok d → ∃ u, d.out = c.out ++ u ∧ Clash u text

theorem Agrees.congr {A B : Prop} {c c' : Canonicalizer} {text : Text}
    {r : Except CryptoError Canonicalizer} (h : Agrees A c c' text r) (hAB : A ↔ B) :
    Agrees B c c' text r :=
  ⟨fun hb => h.ok (hAB.mpr hb), fun hb => h.off fun ha => hb (hAB.mp ha)⟩

theorem agrees_pure (c : Canonicalizer) : Agrees True c c [] (.ok c) :=
  ⟨fun _ => ⟨rfl, (List.append_nil _).symm⟩, fun h => absurd trivial h⟩

/-- One part after another, when the second only appends. -/
theorem Agrees.bind {A B : Prop} {c c₁ c₂ : Canonicalizer} {s t : Text}
    {r : Except CryptoError Canonicalizer} {k : Canonicalizer → Except CryptoError Canonicalizer}
    (h₁ : Agrees A c c₁ s r) (h₂ : A → Agrees B c₁ c₂ t (k c₁))
    (hk : ∀ d d', k d = .ok d' → ∃ u, d'.out = d.out ++ u) :
    Agrees (A ∧ B) c c₂ (s ++ t) (r >>= k) where
  ok := by
    rintro ⟨ha, hb⟩
    obtain ⟨hr, hout₁⟩ := h₁.ok ha
    obtain ⟨hk', hout₂⟩ := (h₂ ha).ok hb
    rw [hr]
    exact ⟨hk', by rw [hout₂, hout₁, List.append_assoc]⟩
  off := by
    intro hnot d hd
    by_cases ha : A
    · obtain ⟨hr, hout₁⟩ := h₁.ok ha
      rw [hr] at hd
      obtain ⟨u, hu, hclash⟩ := (h₂ ha).off (fun hb => hnot ⟨ha, hb⟩) d hd
      exact ⟨s ++ u, by rw [hu, hout₁, List.append_assoc], (clash_append_left s).mpr hclash⟩
    · cases r with
      | error e => cases hd
      | ok d₁ =>
          obtain ⟨u, hu, hclash⟩ := h₁.off ha d₁ rfl
          obtain ⟨v, hv⟩ := hk d₁ d hd
          exact ⟨u ++ v, by rw [hv, hu, List.append_assoc], hclash.append v t⟩

/-! ## The pass only appends -/

theorem bind_ok {α β : Type} {r : Except CryptoError α} {k : α → Except CryptoError β} {b : β}
    (h : r >>= k = .ok b) : ∃ a, r = .ok a ∧ k a = .ok b := by
  cases r with
  | error e => cases h
  | ok a => exact ⟨a, rfl, h⟩

theorem startElement_appends {q : QuickXml} {c d : Canonicalizer} {t : RawTag}
    (h : startElement q c t = .ok d) : ∃ u, d.out = c.out ++ u := by
  unfold startElement at h
  obtain ⟨⟨scope, raw⟩, -, h⟩ := bind_ok h
  obtain ⟨attributes, -, h⟩ := bind_ok h
  dsimp only at h
  split at h
  · cases h
  · cases h
    exact ⟨_, rfl⟩

theorem leafEvent_appends {c d : Canonicalizer} {l : Leaf} (h : leafEvent c l = .ok d) :
    ∃ u, d.out = c.out ++ u := by
  have hif : ∀ (p : Prop) [Decidable p] (text : Text),
      ∃ u, (if p then c.push text else c).out = c.out ++ u := by
    intro p _ text
    split
    · exact ⟨text, rfl⟩
    · exact ⟨[], (List.append_nil _).symm⟩
  cases l with
  | text raw => cases h; exact hif _ _
  | cdata raw => cases h; exact hif _ _
  | ref name =>
      rw [leafEvent] at h
      split at h
      · obtain ⟨r, -, h⟩ := bind_ok h
        cases h
        exact ⟨_, rfl⟩
      · cases h
        exact ⟨[], (List.append_nil _).symm⟩
  | pi raw => cases h; exact ⟨_, rfl⟩
  | comment raw => cases h; exact ⟨[], (List.append_nil _).symm⟩
  | decl raw => cases h; exact ⟨[], (List.append_nil _).symm⟩
  | doctype raw => cases h

theorem step_appends {q : QuickXml} {c d : Canonicalizer} {e : Event RawTag Leaf}
    (h : step q c e = .ok d) : ∃ u, d.out = c.out ++ u := by
  cases e with
  | start t => exact startElement_appends h
  | empty t =>
      obtain ⟨c₁, h₁, h⟩ := bind_ok h
      obtain ⟨u, hu⟩ := startElement_appends h₁
      cases h
      exact ⟨u ++ _, by rw [← List.append_assoc, ← hu]; rfl⟩
  | close t => cases h; exact ⟨_, rfl⟩
  | leaf l => exact leafEvent_appends h

theorem steps_append {q : QuickXml} {es : List (Event RawTag Leaf)} {c d : Canonicalizer}
    (h : es.foldlM (step q) c = .ok d) : ∃ u, d.out = c.out ++ u := by
  induction es generalizing c with
  | nil => cases h; exact ⟨[], (List.append_nil _).symm⟩
  | cons e es ih =>
      rw [List.foldlM_cons] at h
      obtain ⟨c₁, h₁, h⟩ := bind_ok h
      obtain ⟨u, hu⟩ := step_appends h₁
      obtain ⟨v, hv⟩ := ih h
      exact ⟨u ++ v, by rw [hv, hu, List.append_assoc]⟩

/-! ## Content -/

theorem escapeText_normalizeEol (raw : Text) :
    escapeText (normalizeEol raw) = (Lib.Xml.normalizeEol raw).flatMap textChar := by
  rw [escapeText_eq, normalizeEol_eq]

theorem agrees_pi {sound : Prop} {c : Canonicalizer} {raw before after : Text}
    {r : Except CryptoError Canonicalizer} (hsound : sound ↔ PlainPi raw)
    (hr : r = .ok (c.push (before ++ processingInstruction raw ++ after))) :
    Agrees sound c (c.push (before ++ piText raw ++ after)) (before ++ piText raw ++ after) r where
  ok h := by
    rw [hr, processingInstruction_plain (hsound.mp h)]
    exact ⟨rfl, rfl⟩
  off h := by
    intro d hd
    rw [hr] at hd
    cases hd
    refine ⟨_, rfl, ?_⟩
    rw [List.append_assoc, List.append_assoc, clash_append_left]
    exact (processingInstruction_clash fun hp => h (hsound.mpr hp)).append _ _

theorem agrees_push {c : Canonicalizer} {text : Text} {r : Except CryptoError Canonicalizer}
    (hr : r = .ok (c.push text)) : Agrees True c (c.push text) text r :=
  ⟨fun _ => ⟨hr, rfl⟩, fun h => absurd trivial h⟩

theorem leafEvent_agrees {c : Canonicalizer} (hc : 0 < c.depth) {l : Leaf} (hl : l.WellFormed) :
    Agrees (Leaf.Plain l) c (c.push (leafText l)) (leafText l) (leafEvent c l) := by
  cases l with
  | text raw =>
      refine agrees_push ?_
      rw [leafEvent, leafText, if_pos hc, escapeText_normalizeEol]
  | cdata raw =>
      refine agrees_push ?_
      rw [leafEvent, leafText, if_pos hc, escapeText_normalizeEol]
  | ref name =>
      refine agrees_push ?_
      obtain ⟨ch, hch⟩ := Option.isSome_iff_exists.mp (show (reference? name.toList).isSome from hl)
      rw [leafEvent, leafText, if_pos hc, resolveReference_eq hch, hch]
      show Except.ok (c.push (escapeText [ch])) = _
      rw [escapeText_eq]
      rfl
  | pi raw =>
      have hdepth : ¬ (c.depth = 0 ∧ c.seen_root = true) := fun h => by omega
      have hdepth' : ¬ (c.depth = 0 ∧ ¬ c.seen_root = true) := fun h => by omega
      have h : Agrees (Leaf.Plain (.pi raw)) c (c.push ([] ++ piText raw.toList ++ []))
          ([] ++ piText raw.toList ++ []) (leafEvent c (.pi raw)) :=
        agrees_pi Iff.rfl (by rw [leafEvent, if_neg hdepth, if_neg hdepth'])
      rw [List.nil_append, List.append_nil] at h
      exact h
  | comment raw => exact agrees_push (by rw [leafText, push_nil]; rfl)
  | decl raw => exact absurd hl id
  | doctype raw => exact absurd hl id

/-! ## Elements -/

section
variable {q : QuickXml} {m : Mode} {ancestors : List Ancestor} {c : Canonicalizer} {t : RawTag}

theorem Follows.of_eq (hf : Follows m ancestors c) (c' : Canonicalizer)
    (he : c'.exclusive = c.exclusive) (hs : c'.scopes = c.scopes) (hr : c'.rendered = c.rendered) :
    Follows m ancestors c' where
  exclusive := by rw [he]; exact hf.exclusive
  scope := by rw [hs]; exact hf.scope
  rendered := by rw [hr]; exact hf.rendered
  xml_rendered := by rw [hr]; exact hf.xml_rendered
  xml_scope := hf.xml_scope
  grounded := hf.grounded
  named := hf.named

theorem Agrees.state {A : Prop} {c c₁ c₂ : Canonicalizer} {text : Text}
    {r : Except CryptoError Canonicalizer} (h : Agrees A c c₁ text r) (heq : A → c₁ = c₂) :
    Agrees A c c₂ text r where
  ok ha := by
    rw [← heq ha]
    exact h.ok ha
  off := h.off

theorem startElement_agrees (hq : q.Normalizes) (hf : Follows m ancestors c)
    (ht : t.WellFormed (outerBindings ancestors)) :
    Agrees (Quiet m t) c (opened ancestors c t) (startText m ancestors t) (startElement q c t) where
  ok h := ⟨startElement_quiet hq hf ht h, opened_out hf ht h⟩
  off h := fun _ hok => startElement_loud hq hf ht h hok

/-- The state after an element. -/
def passed (c : Canonicalizer) (text : Text) : Canonicalizer :=
  { c.push text with seen_root := true }

theorem passed_eq (h : c.seen_root = true) (text : Text) : passed c text = c.push text := by
  unfold passed
  rw [← h]
  rfl

theorem endElement_opened (hf : Follows m ancestors c) (ht : t.WellFormed (outerBindings ancestors))
    (h : Quiet m t) (inside : Text) :
    endElement ((opened ancestors c t).push inside) t =
      passed c (startText m ancestors t ++ (inside ++ endText t)) := by
  have hout : (endElement ((opened ancestors c t).push inside) t).out =
      c.out ++ (startText m ancestors t ++ (inside ++ endText t)) := by
    show (opened ancestors c t).out ++ inside ++ endText t = _
    rw [opened_out hf ht h, List.append_assoc, List.append_assoc]
  show Canonicalizer.mk (endElement ((opened ancestors c t).push inside) t).out c.scopes c.rendered
    c.exclusive _ true = _
  rw [hout]
  rfl

/-- An element, given what its content does. -/
theorem element_agrees (hq : q.Normalizes) (hf : Follows m ancestors c)
    (ht : t.WellFormed (outerBindings ancestors)) {K : Prop} (kids : List (Event RawTag Leaf))
    (inside : Text)
    (hkids : Quiet m t → Agrees K (opened ancestors c t) ((opened ancestors c t).push inside) inside
      (kids.foldlM (step q) (opened ancestors c t))) :
    Agrees (Quiet m t ∧ K) c (passed c (startText m ancestors t ++ (inside ++ endText t)))
      (startText m ancestors t ++ (inside ++ endText t))
      (startElement q c t >>= fun c₁ => kids.foldlM (step q) c₁ >>= fun c₂ =>
        .ok (endElement c₂ t)) := by
  have hend : ∀ c₂ : Canonicalizer, Agrees True c₂ (endElement c₂ t) (endText t)
      (.ok (endElement c₂ t)) :=
    fun c₂ => ⟨fun _ => ⟨rfl, rfl⟩, fun h => absurd trivial h⟩
  have hrest : ∀ d d', (kids.foldlM (step q) d >>= fun c₂ => .ok (endElement c₂ t)) = .ok d' →
      ∃ u, d'.out = d.out ++ u := by
    intro d d' h
    obtain ⟨c₂, h₂, h⟩ := bind_ok h
    obtain ⟨u, hu⟩ := steps_append h₂
    cases h
    exact ⟨u ++ endText t, by rw [← List.append_assoc, ← hu]; rfl⟩
  have hbody : Quiet m t → Agrees (K ∧ True) (opened ancestors c t)
      (endElement ((opened ancestors c t).push inside) t) (inside ++ endText t)
      (kids.foldlM (step q) (opened ancestors c t) >>= fun c₂ => .ok (endElement c₂ t)) :=
    fun h => (hkids h).bind (fun _ => hend _) fun d d' h => by cases h; exact ⟨_, rfl⟩
  have hall := (startElement_agrees hq hf ht).bind hbody hrest
  refine (hall.state fun h => endElement_opened hf ht h.1 inside).congr ?_
  rw [and_true]

/-- What the elements and leaves of a forest have to be like. -/
def SoundIn (m : Mode) (f : Forest RawTag Leaf) : Prop :=
  (∀ e ∈ f.elements, Quiet m e.1) ∧ ∀ l ∈ f.leaves, Leaf.Plain l

theorem content_agrees (hq : q.Normalizes) (f : Forest RawTag Leaf) (hf : Follows m ancestors c)
    (hwf : WellFormedIn (outerBindings ancestors) f) (hdepth : 0 < c.depth)
    (hseen : c.seen_root = true) :
    Agrees (SoundIn m f) c (c.push (contentText m ancestors f)) (contentText m ancestors f)
      (f.events.foldlM (step q) c) := by
  have hsteps : ∀ (es : List (Event RawTag Leaf)) (d d' : Canonicalizer),
      es.foldlM (step q) d = .ok d' → ∃ u, d'.out = d.out ++ u := fun _ _ _ => steps_append
  induction f generalizing ancestors c with
  | nil =>
      rw [contentText, push_nil]
      exact (agrees_pure c).congr (by simp [SoundIn])
  | leaf l rest ih =>
      have hrest := ih (hf.of_eq (c.push (leafText l)) rfl rfl rfl) hwf.2 hdepth hseen
      have h := (leafEvent_agrees hdepth hwf.1).bind (fun _ => hrest) (hsteps _)
      rw [push_push] at h
      exact h.congr (by simp [SoundIn]; tauto)
  | empty t rest ih =>
      have helem := element_agrees hq hf hwf.1 [] [] fun _ => by
        rw [push_nil]
        exact agrees_pure _
      rw [passed_eq hseen] at helem
      have hrest := ih (hf.of_eq (c.push (startText m ancestors t ++ ([] ++ endText t)))
        rfl rfl rfl) hwf.2 hdepth hseen
      have h := helem.bind (fun _ => hrest) (hsteps _)
      rw [push_push] at h
      exact h.congr (by simp [SoundIn]; tauto)
  | node t kids rest ihk ih =>
      have helem := element_agrees hq hf hwf.1 kids.events
        (contentText m (t.ancestor m ancestors :: ancestors) kids) fun h =>
          ihk (hf.opened hwf.1 h) hwf.2.1 (Nat.succ_pos _) rfl
      rw [passed_eq hseen] at helem
      have hrest := ih (hf.of_eq (c.push (startText m ancestors t ++
        (contentText m (t.ancestor m ancestors :: ancestors) kids ++ endText t)))
        rfl rfl rfl) hwf.2.2 hdepth hseen
      have h := helem.bind (fun _ => hrest) (hsteps _)
      rw [push_push] at h
      have hfold : (Forest.node t kids rest).events.foldlM (step q) c =
          (startElement q c t >>= fun c₁ => kids.events.foldlM (step q) c₁ >>= fun c₂ =>
            .ok (endElement c₂ t)) >>= rest.events.foldlM (step q) := by
        simp only [Forest.events, List.foldlM_cons, List.foldlM_append, bind_assoc]
        rfl
      have htext : contentText m ancestors (.node t kids rest) =
          startText m ancestors t ++ (contentText m (t.ancestor m ancestors :: ancestors) kids ++
            endText t) ++ contentText m ancestors rest := by
        simp only [contentText, List.append_assoc]
      rw [hfold, htext]
      refine h.congr ?_
      unfold SoundIn
      simp only [Forest.elements, Forest.leaves, List.forall_mem_cons, List.forall_mem_append]
      tauto

/-! ## Documents -/

def Leaf.outerText (seen_root : Bool) (l : Leaf) : Text :=
  if seen_root then afterText l else beforeText l

theorem misc_agrees (hdepth : c.depth = 0) {l : Leaf} (hl : l.isMisc ∨ ∃ raw, l = .decl raw) :
    Agrees (Leaf.Plain l) c (c.push (Leaf.outerText c.seen_root l)) (Leaf.outerText c.seen_root l)
      (leafEvent c l) := by
  have hsilent : Leaf.outerText c.seen_root l = [] → leafEvent c l = .ok c →
      Agrees True c (c.push (Leaf.outerText c.seen_root l)) (Leaf.outerText c.seen_root l)
        (leafEvent c l) := by
    intro htext hr
    refine agrees_push ?_
    rw [htext, push_nil, hr]
  have hnot : ¬ c.depth > 0 := by omega
  cases l with
  | text raw => exact hsilent (ite_self _) (by rw [leafEvent, if_neg hnot])
  | comment raw => exact hsilent (ite_self _) rfl
  | decl raw => exact hsilent (ite_self _) rfl
  | pi raw =>
      cases hseen : c.seen_root with
      | true =>
          have h : Agrees (Leaf.Plain (.pi raw)) c (c.push (['\n'] ++ piText raw.toList ++ []))
              (['\n'] ++ piText raw.toList ++ []) (leafEvent c (.pi raw)) :=
            agrees_pi Iff.rfl (by rw [leafEvent, if_pos ⟨hdepth, hseen⟩, if_neg (by simp [hseen])])
          rw [List.append_nil] at h
          exact h
      | false =>
          have h : Agrees (Leaf.Plain (.pi raw)) c (c.push ([] ++ piText raw.toList ++ ['\n']))
              ([] ++ piText raw.toList ++ ['\n']) (leafEvent c (.pi raw)) :=
            agrees_pi Iff.rfl (by rw [leafEvent, if_neg (by simp [hseen]), if_pos (by simp [hdepth, hseen])])
          exact h
  | cdata raw => rcases hl with hl | ⟨_, hl⟩ <;> cases hl
  | ref name => rcases hl with hl | ⟨_, hl⟩ <;> cases hl
  | doctype raw => rcases hl with hl | ⟨_, hl⟩ <;> cases hl

theorem miscs_agree (hdepth : c.depth = 0) {ls : List Leaf}
    (hl : ∀ l ∈ ls, l.isMisc ∨ ∃ raw, l = .decl raw) :
    Agrees (∀ l ∈ ls, Leaf.Plain l) c (c.push (ls.flatMap (Leaf.outerText c.seen_root)))
      (ls.flatMap (Leaf.outerText c.seen_root)) ((ls.map Event.leaf).foldlM (step q) c) := by
  induction ls generalizing c with
  | nil =>
      rw [List.flatMap_nil, push_nil]
      exact (agrees_pure c).congr (by simp)
  | cons l ls ih =>
      have hrest := ih (c := c.push (Leaf.outerText c.seen_root l)) hdepth
        (fun l' hl' => hl l' (List.mem_cons_of_mem _ hl'))
      have h := (misc_agrees hdepth (hl l List.mem_cons_self)).bind (fun _ => hrest)
        (fun _ _ => steps_append)
      rw [push_push] at h
      exact h.congr List.forall_mem_cons.symm

end

def start (m : Mode) : Canonicalizer := ⟨[], [], [], Mode.exclusive? m, 0, false⟩

theorem follows_start (m : Mode) (text : Text) : Follows m [] ((start m).push text) where
  exclusive := rfl
  scope _ := rfl
  rendered _ _ := rfl
  xml_rendered := rfl
  xml_scope _ := List.not_mem_nil
  grounded _ h := absurd rfl h
  named _ h := absurd h List.not_mem_nil

/-- What the root element does. -/
theorem root_agrees {q : QuickXml} (hq : q.Normalizes) (m : Mode) {d : DocumentNode}
    (hd : d.WellFormed) (text : Text) :
    Agrees (SoundIn m (d.element .nil)) ((start m).push text)
      (passed ((start m).push text) (contentText m [] (d.element .nil)))
      (contentText m [] (d.element .nil))
      ((d.element .nil).events.foldlM (step q) ((start m).push text)) := by
  have hwf := hd.element
  have hf := follows_start m text
  unfold DocumentNode.element at hwf ⊢
  cases hc : d.content with
  | none =>
      rw [hc] at hwf
      have h := element_agrees hq hf hwf.1 [] [] fun _ => by
        rw [push_nil]
        exact agrees_pure _
      rw [List.nil_append] at h
      have htext : contentText m [] (.empty d.root .nil) = startText m [] d.root ++ endText d.root := by
        simp [contentText]
      have hfold : (Forest.empty d.root .nil : Forest RawTag Leaf).events.foldlM (step q)
          ((start m).push text) =
          (startElement q ((start m).push text) d.root >>= fun c₁ =>
            [].foldlM (step q) c₁ >>= fun c₂ => .ok (endElement c₂ d.root)) := by
        simp only [Forest.events, List.foldlM_cons, List.foldlM_nil, bind_pure]
        rfl
      dsimp only
      rw [htext, hfold]
      exact h.congr (by simp [SoundIn])
  | some kids =>
      rw [hc] at hwf
      have h := element_agrees hq hf hwf.1 kids.events
        (contentText m (d.root.ancestor m [] :: []) kids) fun hquiet =>
          content_agrees hq kids (hf.opened hwf.1 hquiet) hwf.2.1 (Nat.succ_pos _) rfl
      have htext : contentText m [] (.node d.root kids .nil) =
          startText m [] d.root ++ (contentText m (d.root.ancestor m [] :: []) kids ++
            endText d.root) := by
        simp [contentText]
      have hfold : (Forest.node d.root kids .nil).events.foldlM (step q) ((start m).push text) =
          (startElement q ((start m).push text) d.root >>= fun c₁ =>
            kids.events.foldlM (step q) c₁ >>= fun c₂ => .ok (endElement c₂ d.root)) := by
        simp only [Forest.events, List.foldlM_cons, List.foldlM_append, List.foldlM_nil, bind_pure]
        rfl
      dsimp only
      rw [htext, hfold]
      refine h.congr ?_
      unfold SoundIn
      simp only [Forest.elements, Forest.leaves, List.forall_mem_cons, List.append_nil]
      tauto

theorem element_parts (d : DocumentNode) (rest : Forest RawTag Leaf) :
    (d.element rest).events = (d.element .nil).events ++ rest.events ∧
      (d.element rest).elements = (d.element .nil).elements ++ rest.elements ∧
      (d.element rest).leaves = (d.element .nil).leaves ++ rest.leaves := by
  unfold DocumentNode.element
  cases d.content with
  | none => simp
  | some kids => simp

theorem forest_parts (d : DocumentNode) :
    d.forest.events = (d.declaration.toList.map Leaf.decl ++ d.prolog).map Event.leaf ++
        ((d.element .nil).events ++ d.epilog.map Event.leaf) ∧
      d.forest.elements = (d.element .nil).elements ∧
      d.forest.leaves = (d.declaration.toList.map Leaf.decl ++ d.prolog) ++
        ((d.element .nil).leaves ++ d.epilog) := by
  have hepilog := Forest.foldr_leaf d.epilog (.nil : Forest RawTag Leaf)
  have hroot := element_parts d (d.epilog.foldr Forest.leaf .nil)
  have hall := Forest.foldr_leaf (d.declaration.toList.map Leaf.decl ++ d.prolog)
    (d.element (d.epilog.foldr Forest.leaf .nil))
  rw [hroot.1, hroot.2.1, hroot.2.2, hepilog.1, hepilog.2.1, hepilog.2.2] at hall
  simp only [Forest.events, Forest.elements, Forest.leaves, List.append_nil] at hall
  exact hall

theorem soundIn_forest (m : Mode) (d : DocumentNode) :
    SoundIn m d.forest ↔
      ((∀ l ∈ d.declaration.toList.map Leaf.decl ++ d.prolog, Leaf.Plain l) ∧
        SoundIn m (d.element .nil)) ∧ ∀ l ∈ d.epilog, Leaf.Plain l := by
  unfold SoundIn
  rw [(forest_parts d).2.1, (forest_parts d).2.2]
  simp only [List.forall_mem_append]
  tauto

/-- The whole pass over a document. -/
theorem document_agrees {q : QuickXml} (hq : q.Normalizes) (m : Mode) {d : DocumentNode}
    (hd : d.WellFormed) :
    ∃ c, c.depth = 0 ∧ Agrees (SoundIn m d.forest) (start m) c (d.canonicalText m)
      (d.forest.events.foldlM (step q) (start m)) := by
  have hprolog : ∀ l ∈ d.declaration.toList.map Leaf.decl ++ d.prolog,
      l.isMisc ∨ ∃ raw, l = .decl raw := by
    intro l hl
    rcases List.mem_append.mp hl with hl | hl
    · obtain ⟨raw, -, rfl⟩ := List.mem_map.mp hl
      exact Or.inr ⟨raw, rfl⟩
    · exact Or.inl (hd.prolog l hl)
  have hdecl : (d.declaration.toList.map Leaf.decl).flatMap beforeText = [] := by
    rw [List.flatMap_eq_nil_iff]
    intro l hl
    obtain ⟨raw, -, rfl⟩ := List.mem_map.mp hl
    rfl
  have htext : (d.declaration.toList.map Leaf.decl ++ d.prolog).flatMap (Leaf.outerText false) =
      d.prolog.flatMap beforeText := by
    show List.flatMap beforeText _ = _
    rw [List.flatMap_append, hdecl, List.nil_append]
  have hbefore := miscs_agree (q := q) (c := start m) rfl hprolog
  have hroot := root_agrees hq m hd
    ((d.declaration.toList.map Leaf.decl ++ d.prolog).flatMap (Leaf.outerText false))
  have hafter := miscs_agree (q := q)
    (c := passed ((start m).push ((d.declaration.toList.map Leaf.decl ++ d.prolog).flatMap
      (Leaf.outerText false))) (contentText m [] (d.element .nil)))
    rfl fun l hl => Or.inl (hd.epilog l hl)
  have h := (hbefore.bind (fun _ => hroot) (fun _ _ => steps_append)).bind (fun _ => hafter)
    (fun _ _ => steps_append)
  have hfold : d.forest.events.foldlM (step q) (start m) =
      ((((d.declaration.toList.map Leaf.decl ++ d.prolog).map Event.leaf).foldlM (step q) (start m) >>=
        (d.element .nil).events.foldlM (step q)) >>=
          (d.epilog.map Event.leaf).foldlM (step q)) := by
    rw [(forest_parts d).1, List.foldlM_append, bind_assoc]
    congr 1
    funext c
    rw [List.foldlM_append]
  have hcanonical : d.canonicalText m =
      (d.declaration.toList.map Leaf.decl ++ d.prolog).flatMap (Leaf.outerText false) ++
        contentText m [] (d.element .nil) ++ d.epilog.flatMap (Leaf.outerText true) := by
    rw [htext]
    rfl
  rw [hfold, hcanonical]
  refine ⟨_, ?_, h.congr (soundIn_forest m d).symm⟩
  rfl

/-- When the canonicalizer returns the canonical text. -/
theorem canonicalizeEvents_eq_iff {q : QuickXml} (hq : q.Normalizes) (m : Mode) {d : DocumentNode}
    (hd : d.WellFormed) :
    canonicalizeEvents q d.forest.stream (Mode.exclusive? m) =
      .ok (String.ofList (d.canonicalText m)) ↔ SoundIn m d.forest := by
  obtain ⟨c, hdepth, h⟩ := document_agrees hq m hd
  have hrun : ∀ c' : Canonicalizer,
      d.forest.events.foldlM (step q) (start m) = .ok c' → c'.depth = 0 →
      canonicalizeEvents q d.forest.stream (Mode.exclusive? m) = .ok (String.ofList c'.out) := by
    intro c' hfold hzero
    have hbind : canonicalizeEvents q d.forest.stream (Mode.exclusive? m) =
        (Except.ok c' >>= fun c => do
          if c.depth ≠ 0 then err "Unclosed elements".toList
          return String.ofList c.out) := by
      rw [← hfold]
      rfl
    rw [hbind]
    show (if c'.depth ≠ 0 then _ else _) = _
    rw [if_neg (not_not_intro hzero)]
    rfl
  constructor
  · intro hok
    by_contra hnot
    unfold canonicalizeEvents at hok
    obtain ⟨c', hfold, hok⟩ := bind_ok hok
    obtain ⟨u, hu, hclash⟩ := h.off hnot c' hfold
    have hout : c'.out = d.canonicalText m := by
      dsimp only [Forest.stream] at hok
      split at hok
      · cases hok
      · exact String.ofList_injective (Except.ok.inj hok)
    rw [hu] at hout
    exact hclash.ne hout
  · intro hsound
    obtain ⟨hfold, hout⟩ := h.ok hsound
    rw [hrun c hfold hdepth, hout]
    rfl

theorem canonicalForm_eq_some {m : Mode} {d : DocumentNode} {octets : Text} :
    d.canonicalForm m = some octets ↔
      (∀ e ∈ d.forest.elements, e.1.Absolute) ∧ d.canonicalText m = octets := by
  unfold DocumentNode.canonicalForm
  rw [(forest_parts d).2.1]
  split
  · rename_i h
    exact ⟨fun heq => ⟨h, Option.some.inj heq⟩, fun heq => by rw [heq.2]⟩
  · rename_i h
    exact ⟨fun heq => absurd heq (Option.some_ne_none _).symm, fun heq => absurd heq.1 h⟩

/-- Documents with a canonical form that the canonicalizer is up to. -/
structure Regular (m : Mode) (d : DocumentNode) : Prop where
  absolute : ∀ e ∈ d.forest.elements, e.1.Absolute
  quiet : ∀ e ∈ d.forest.elements, Quiet m e.1
  plain : ∀ l ∈ d.forest.leaves, Leaf.Plain l

theorem conforms_iff {q : QuickXml} (hq : q.Normalizes) (m : Mode) {d : DocumentNode}
    (hd : d.WellFormed) :
    (∃ octets, d.canonicalForm m = some octets ∧
      canonicalizeEvents q d.forest.stream (Mode.exclusive? m) = .ok (String.ofList octets)) ↔
      Regular m d := by
  constructor
  · rintro ⟨octets, hform, hrun⟩
    obtain ⟨habsolute, rfl⟩ := canonicalForm_eq_some.mp hform
    obtain ⟨hquiet, hplain⟩ := (canonicalizeEvents_eq_iff hq m hd).mp hrun
    exact ⟨habsolute, hquiet, hplain⟩
  · intro h
    exact ⟨_, canonicalForm_eq_some.mpr ⟨h.absolute, rfl⟩,
      (canonicalizeEvents_eq_iff hq m hd).mpr ⟨h.quiet, h.plain⟩⟩

/-- On a document that the reader reads, both functions return the octets that are prescribed if
    and only if the document is regular. -/
theorem canonicalize_conforms {q : QuickXml} (hq : q.Normalizes) {d : DocumentNode}
    (hd : d.WellFormed) {xml : String} (hxml : q.reader xml = d.forest.stream) :
    ((∃ octets, d.canonicalForm .inclusive = some octets ∧
        canonicalizeXml q xml = .ok (String.ofList octets)) ↔ Regular .inclusive d) ∧
      ∀ prefixes : List String,
        (∃ octets, d.canonicalForm (.exclusive (prefixes.map String.toList)) = some octets ∧
          canonicalizeXmlExclusive q xml prefixes = .ok (String.ofList octets)) ↔
          Regular (.exclusive (prefixes.map String.toList)) d := by
  unfold canonicalizeXml canonicalizeXmlExclusive canonicalize
  rw [hxml]
  exact ⟨conforms_iff hq .inclusive hd,
    fun prefixes => conforms_iff hq (.exclusive (prefixes.map String.toList)) hd⟩

/-- A reader that knows one text. -/
def readerOf (text : String) (d : DocumentNode) : QuickXml where
  reader s := if s = text then d.forest.stream else ⟨[], some "syntax error"⟩
  normalized_value raw :=
    match attributeValue raw.toList with
    | some v => .ok (String.ofList v)
    | none => .error "unrecognized entity"

theorem readerOf_normalizes (text : String) (d : DocumentNode) : (readerOf text d).Normalizes := by
  intro raw v hv
  show (match attributeValue raw.toList with
    | some v => Except.ok (String.ofList v)
    | none => _) = _
  rw [hv]

theorem readerOf_reader (text : String) (d : DocumentNode) :
    (readerOf text d).reader text = d.forest.stream :=
  if_pos rfl

/-- `<a xmlns="urn:d"><b xmlns="" c="&lt;"/></a>` -/
def defaultUndeclared : DocumentNode :=
  ⟨none, [], ⟨"a", [⟨"xmlns", "urn:d"⟩]⟩,
    some (.empty ⟨"b", [⟨"xmlns", ""⟩, ⟨"c", "&lt;"⟩]⟩ .nil), []⟩

theorem canonicalize_conforms_defaultUndeclared :
    ∃ octets, defaultUndeclared.canonicalForm .inclusive = some octets ∧
      canonicalizeXml (readerOf "<a xmlns=\"urn:d\"><b xmlns=\"\" c=\"&lt;\"/></a>" defaultUndeclared)
        "<a xmlns=\"urn:d\"><b xmlns=\"\" c=\"&lt;\"/></a>" = .ok (String.ofList octets) :=
  (canonicalize_conforms (readerOf_normalizes _ _) (by decide) (readerOf_reader _ _)).1.mpr
    ⟨by decide, by simp [defaultUndeclared, DocumentNode.forest, DocumentNode.element, Quiet,
      Mode.ListsXml, Mode.exclusive?, RawTag.bindings, declared?],
      by simp [defaultUndeclared, DocumentNode.forest, DocumentNode.element]⟩

/-- `<a xmlns:xml="http://www.w3.org/XML/1998/namespace"/>` -/
def xmlDeclared : DocumentNode :=
  ⟨none, [], ⟨"a", [⟨"xmlns:xml", "http://www.w3.org/XML/1998/namespace"⟩]⟩, none, []⟩

/-- The declaration of `xml` comes out, where the standard leaves it out. -/
theorem xmlDeclared_rendered :
    xmlDeclared.WellFormed ∧ xmlDeclared.canonicalForm .inclusive = some "<a></a>".toList ∧
      canonicalizeXml
        (readerOf "<a xmlns:xml=\"http://www.w3.org/XML/1998/namespace\"/>" xmlDeclared)
        "<a xmlns:xml=\"http://www.w3.org/XML/1998/namespace\"/>" =
          .ok "<a xmlns:xml=\"http://www.w3.org/XML/1998/namespace\"></a>" := by
  refine ⟨by decide, by decide, ?_⟩
  unfold canonicalizeXml canonicalize
  rw [readerOf_reader]
  rfl

end DianService.C14n
