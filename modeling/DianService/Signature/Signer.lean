import DianService.Application.Inbound
import DianService.Signature.Structure
import Mathlib.Data.List.Perm.Subperm

/-
  Whom `signer_subject` names. It reads the certificates of every `ds:KeyInfo` of the document,
  while the key that verified the signature comes from the signature's own `ds:KeyInfo`.

  `foldl_protected` carries the certificates already read through the rest of the scan, so that the
  signature's own certificates are among all those read, in order and unchanged. What the others do
  to the choice of the signer is then a matter of lists of names.
-/

namespace DianService

open Lib.Xml

/-! ## The certificates of the signature -/

/-- The `ds:KeyInfo` elements among the children of an element, each with its content. -/
def keyInfosOf (content : Doc) : List (Tag × Doc) :=
  content.children.filter fun k => k.1.isDs "KeyInfo"

/-- The certificates read from one element alone. -/
def certificatesOf (e : Tag × Doc) : List String :=
  encodedCertificates (Forest.node e.1 e.2 .nil).events

/-- The certificates of the signature's own `ds:KeyInfo`. -/
def ownCertificates (d : Doc) : List String :=
  (signatureElements d).flatMap fun s => (keyInfosOf s.2).flatMap certificatesOf

/-- The certificates that are read besides the signature's own. -/
def foreignCertificates (d : Doc) : List String :=
  (encodedCertificates d.events).diff (ownCertificates d)

/-- The signer, as far as the signature's own `ds:KeyInfo` says. -/
def ownSigner (r : CertificateReader) (d : Doc) : Except CryptoError String := do
  let names ← (ownCertificates d).mapM r.read
  onlyLeaf names

/-! ## The scan keeps what it has read -/

namespace KeyInfoScan

/-- The certificates `o` are among those read, and no text can be added to them any more. -/
def Protected (o : List String) (s : KeyInfoScan) : Prop :=
  if s.in_certificate then o.Sublist s.encoded.dropLast else o.Sublist s.encoded

theorem pushText_concat (raw e : String) (encoded : List String) :
    pushText raw (encoded ++ [e]) = encoded ++ [e ++ raw] := by
  induction encoded with
  | nil => rfl
  | cons x encoded ih =>
      have h : pushText raw (x :: (encoded ++ [e])) = x :: pushText raw (encoded ++ [e]) := by
        cases encoded <;> rfl
      rw [List.cons_append, h, ih, List.cons_append]

theorem dropLast_pushText (raw : String) (encoded : List String) :
    (pushText raw encoded).dropLast = encoded.dropLast := by
  rcases encoded.eq_nil_or_concat with rfl | ⟨es, e, rfl⟩
  · rfl
  · rw [List.concat_eq_append, pushText_concat, List.dropLast_concat, List.dropLast_concat]

theorem step_protected {o : List String} {s : KeyInfoScan} (h : s.Protected o) (n : Node) :
    (s.step n).Protected o := by
  have hall : o.Sublist s.encoded := by
    unfold Protected at h
    split at h
    · exact h.trans s.encoded.dropLast_sublist
    · exact h
  unfold step
  split
  · split
    · exact h
    · split
      · simpa [Protected] using hall
      · exact h
  · split
    · exact h
    · split
      · simpa [Protected] using hall
      · exact h
  · split
    · rename_i hin
      simpa [Protected, hin, dropLast_pushText] using h
    · exact h
  · exact h

theorem foldl_protected {o : List String} {s : KeyInfoScan} (h : s.Protected o)
    (events : List Node) : (events.foldl step s).Protected o := by
  induction events generalizing s with
  | nil => exact h
  | cons n events ih => exact ih (step_protected h n)

/-- `s` goes on where `t` started with nothing read: what `s` had read before comes first. -/
def Shifted (o : List String) (s t : KeyInfoScan) : Prop :=
  s.in_key_info = t.in_key_info ∧ ∃ e, s.encoded = e ++ t.encoded ∧
    ((s.in_certificate = t.in_certificate ∧ o.Sublist e ∧
        (t.in_certificate = true → t.encoded ≠ [])) ∨
      (s.in_certificate = true ∧ t.in_certificate = false ∧ t.encoded = [] ∧ o.Sublist e.dropLast))

theorem pushText_append (raw : String) (e : List String) {encoded : List String}
    (h : encoded ≠ []) : pushText raw (e ++ encoded) = e ++ pushText raw encoded := by
  obtain ⟨es, x, rfl⟩ := encoded.eq_nil_or_concat.resolve_left h
  rw [List.concat_eq_append, ← List.append_assoc, pushText_concat, pushText_concat,
    List.append_assoc]

theorem pushText_ne_nil {raw : String} {encoded : List String} (h : encoded ≠ []) :
    pushText raw encoded ≠ [] := by
  obtain ⟨es, x, rfl⟩ := encoded.eq_nil_or_concat.resolve_left h
  rw [List.concat_eq_append, pushText_concat]
  simp

theorem step_shifted {o : List String} {s t : KeyInfoScan} (h : Shifted o s t) (n : Node) :
    Shifted o (s.step n) (t.step n) := by
  obtain ⟨hkey, e, he, hin⟩ := h
  have hall : o.Sublist e := by
    rcases hin with ⟨_, ho, _⟩ | ⟨_, _, _, ho⟩
    · exact ho
    · exact ho.trans e.dropLast_sublist
  cases n with
  | start tag =>
      by_cases hki : tag.isDs "KeyInfo"
      · simpa [step, hki, Shifted] using ⟨e, he, hin⟩
      · by_cases hcert : t.in_key_info = true ∧ tag.isDs "X509Certificate"
        · refine ⟨by simp [step, hki, hkey, hcert], e, ?_, Or.inl ?_⟩
          · simp [step, hki, hkey, hcert, he]
          · simp [step, hki, hkey, hcert, hall]
        · have hs : s.step (.start tag) = s := by simp_all [step]
          have ht : t.step (.start tag) = t := by simp_all [step]
          rw [hs, ht]
          exact ⟨hkey, e, he, hin⟩
  | empty tag => exact ⟨hkey, e, he, hin⟩
  | close tag =>
      by_cases hki : tag.isDs "KeyInfo"
      · simpa [step, hki, Shifted] using ⟨e, he, hin⟩
      · by_cases hcert : tag.isDs "X509Certificate"
        · refine ⟨by simp [step, hki, hkey, hcert], e, ?_, Or.inl ?_⟩
          · simp [step, hki, hcert, he]
          · simp [step, hki, hcert, hall]
        · simpa [step, hki, hcert] using ⟨hkey, e, he, hin⟩
  | leaf l =>
      cases l with
      | text raw =>
          rcases hin with ⟨hsame, ho, hne⟩ | ⟨hs, ht, hnil, ho⟩
          · cases hc : t.in_certificate with
            | false =>
                refine ⟨by simp [step, hsame, hc, hkey], e, ?_, Or.inl ?_⟩
                · simp [step, hsame, hc, he]
                · simp [step, hsame, hc, ho]
            | true =>
                have hne : t.encoded ≠ [] := hne hc
                refine ⟨by simp [step, hsame, hc, hkey], e, ?_, Or.inl ?_⟩
                · simp [step, hsame, hc, he, pushText_append raw e hne]
                · simp [step, hsame, hc, ho, pushText_ne_nil hne]
          · refine ⟨by simp [step, hs, ht, hkey], pushText raw e, ?_, Or.inr ?_⟩
            · simp [step, hs, ht, he, hnil]
            · simpa [step, hs, ht, hnil, dropLast_pushText] using ho
      | cdata _ => exact ⟨hkey, e, he, hin⟩
      | ref _ => exact ⟨hkey, e, he, hin⟩
      | pi _ => exact ⟨hkey, e, he, hin⟩
      | comment _ => exact ⟨hkey, e, he, hin⟩
      | decl _ => exact ⟨hkey, e, he, hin⟩
      | doctype _ => exact ⟨hkey, e, he, hin⟩

theorem foldl_shifted {o : List String} {s t : KeyInfoScan} (h : Shifted o s t)
    (events : List Node) : Shifted o (events.foldl step s) (events.foldl step t) := by
  induction events generalizing s t with
  | nil => exact h
  | cons n events ih => exact ih (step_shifted h n)

/-- A certificate that is open after a forest was open before it. -/
theorem in_certificate_of_foldl {s : KeyInfoScan} {f : Doc}
    (h : (f.events.foldl step s).in_certificate = true) : s.in_certificate = true := by
  induction f generalizing s with
  | nil => exact h
  | leaf l rest ih =>
      have h := ih h
      cases l <;> simp only [step] at h <;> try exact h
      split at h <;> exact h
  | empty t rest ih => exact ih h
  | node t kids rest ihk ihr =>
      rw [Forest.events, List.foldl_cons, List.foldl_append, List.foldl_cons] at h
      have hclosed := ihr h
      by_cases hki : t.isDs "KeyInfo"
      · have hkids := ihk (s := s.step (.start t)) (by simpa [step, hki] using hclosed)
        simpa [step, hki] using hkids
      · by_cases hcert : t.isDs "X509Certificate"
        · simp [step, hki, hcert] at hclosed
        · have hkids := ihk (s := s.step (.start t)) (by simpa [step, hki, hcert] using hclosed)
          simpa [step, hki, hcert] using hkids

/-- After an element of `ds:KeyInfo`, its certificates are kept too. -/
theorem protected_keyInfo {o : List String} {s : KeyInfoScan} (h : s.Protected o) {k : Tag}
    (hk : k.isDs "KeyInfo") (kids : Doc) :
    ((Forest.node k kids .nil).events.foldl step s).Protected (o ++ certificatesOf (k, kids)) := by
  have hstart : Shifted o (s.step (.start k)) (init.step (.start k)) := by
    refine ⟨by simp [step, hk], s.encoded, by simp [step, hk, init], ?_⟩
    unfold Protected at h
    cases hin : s.in_certificate <;> simpa [step, hk, hin, init] using h
  obtain ⟨_, e, he, hin⟩ := foldl_shifted hstart (kids.events ++ [Event.close k])
  have hclosed :
      ((kids.events ++ [Event.close k]).foldl step (init.step (.start k))).in_certificate = false := by
    rw [← Bool.not_eq_true]
    intro hopen
    exact Bool.false_ne_true (in_certificate_of_foldl (f := Forest.node k kids .nil) hopen)
  show Protected _ ((kids.events ++ [Event.close k]).foldl step (s.step (.start k)))
  have hown : certificatesOf (k, kids) =
      ((kids.events ++ [Event.close k]).foldl step (init.step (.start k))).encoded := rfl
  unfold Protected
  rw [he, ← hown]
  rcases hin with ⟨hsame, ho, _⟩ | ⟨hs, _, hnil, ho⟩
  · rw [hsame, hclosed]
    exact ho.append (List.Sublist.refl _)
  · rw [hs, hown, hnil]
    simpa using ho

/-- After the content of an element, the certificates of its own `ds:KeyInfo` are kept too. -/
theorem protected_keyInfosOf {o : List String} {s : KeyInfoScan} (h : s.Protected o) (f : Doc) :
    (f.events.foldl step s).Protected (o ++ (keyInfosOf f).flatMap certificatesOf) := by
  induction f generalizing o s with
  | nil => simpa [keyInfosOf] using h
  | leaf l rest ih => exact ih (step_protected h _)
  | empty t rest ih =>
      have hrest := ih (step_protected h (.empty t))
      by_cases hki : t.isDs "KeyInfo"
      · have hnone : certificatesOf (t, .nil) = [] := by
          simp [certificatesOf, encodedCertificates, step, init, hki]
        simpa [keyInfosOf, hki, hnone] using hrest
      · simpa [keyInfosOf, hki] using hrest
  | node t kids rest _ ih =>
      by_cases hki : t.isDs "KeyInfo"
      · have hrest := ih (protected_keyInfo h hki kids)
        simpa [keyInfosOf, hki] using hrest
      · have hnode := foldl_protected h (Forest.node t kids .nil).events
        have hrest := ih hnode
        simpa [keyInfosOf, hki] using hrest

theorem protected_ownCertificates {o : List String} {s : KeyInfoScan} (h : s.Protected o) {f : Doc}
    (hone : (signatureElements f).length ≤ 1) :
    (f.events.foldl step s).Protected (o ++ ownCertificates f) := by
  induction f generalizing o s with
  | nil => simpa [ownCertificates, signatureElements] using h
  | leaf l rest ih => exact ih (step_protected h _) hone
  | empty t rest ih =>
      by_cases hsig : t.isDs "Signature"
      · have hrest : signatureElements rest = [] := by
          simpa [signatureElements, hsig] using hone
        have hown : ownCertificates (.empty t rest) = [] := by
          unfold signatureElements at hrest
          simp [ownCertificates, signatureElements, hsig, hrest, keyInfosOf]
        rw [hown, List.append_nil]
        exact foldl_protected h _
      · have hone : (signatureElements rest).length ≤ 1 := by
          simpa [signatureElements, hsig] using hone
        have hrest := ih (step_protected h (.empty t)) hone
        simpa [ownCertificates, signatureElements, hsig] using hrest
  | node t kids rest ihk ihr =>
      by_cases hsig : t.isDs "Signature"
      · have hnone : signatureElements kids = [] ∧ signatureElements rest = [] := by
          simpa [signatureElements, hsig] using hone
        have hown : ownCertificates (.node t kids rest) =
            (keyInfosOf kids).flatMap certificatesOf := by
          unfold signatureElements at hnone
          simp [ownCertificates, signatureElements, hsig, hnone]
        have hkids := protected_keyInfosOf (step_protected h (.start t)) kids
        rw [hown, Forest.events, List.foldl_cons, List.foldl_append]
        exact foldl_protected hkids _
      · have hsum : (signatureElements kids).length + (signatureElements rest).length ≤ 1 := by
          simpa [signatureElements, hsig] using hone
        have hkids := ihk (step_protected h (.start t)) (by omega)
        have hrest := ihr (step_protected hkids (.close t)) (by omega)
        have hown : ownCertificates (.node t kids rest) =
            ownCertificates kids ++ ownCertificates rest := by
          simp [ownCertificates, signatureElements, hsig]
        rw [hown, ← List.append_assoc, Forest.events, List.foldl_cons, List.foldl_append]
        exact hrest

end KeyInfoScan

/-- The signature's own certificates are among those read, in their order. -/
theorem ownCertificates_sublist {d : Doc} (hone : (signatureElements d).length ≤ 1) :
    (ownCertificates d).Sublist (encodedCertificates d.events) := by
  have hstart : KeyInfoScan.init.Protected [] := List.nil_sublist _
  have hend := KeyInfoScan.protected_ownCertificates hstart hone
  unfold KeyInfoScan.Protected at hend
  split at hend
  · exact hend.trans (List.dropLast_sublist _)
  · exact hend

theorem perm_own_foreign {d : Doc} (hone : (signatureElements d).length ≤ 1) :
    (ownCertificates d ++ foreignCertificates d).Perm (encodedCertificates d.events) :=
  List.subperm_append_diff_self_of_count_le fun x _ =>
    (ownCertificates_sublist hone).count_le x

/-! ## What other certificates do to the choice -/

/-- A certificate of `names` was issued by `n`, under another subject. -/
def issued (names : List CertificateNames) (n : CertificateNames) : Bool :=
  names.any fun other => other.issuer = n.subject && other.subject ≠ n.subject

/-- The certificates of `part` that issued none of `all`. -/
def endEntities (part all : List CertificateNames) : List CertificateNames :=
  part.filter fun n => !issued all n

/-- The other certificates leave the choice of the signer as it is. -/
structure Undisturbed (own foreign : List CertificateNames) : Prop where
  no_leaf : endEntities own own = [] → endEntities foreign (own ++ foreign) = []
  one_leaf : ∀ a, endEntities own own = [a] →
    issued foreign a = false ∧ endEntities foreign (own ++ foreign) = []
  more_leaves : 2 ≤ (endEntities own own).length →
    2 ≤ (endEntities own (own ++ foreign)).length +
      (endEntities foreign (own ++ foreign)).length

theorem issued_append (own foreign : List CertificateNames) (n : CertificateNames) :
    issued (own ++ foreign) n = (issued own n || issued foreign n) := by
  simp [issued, List.any_append]

theorem issued_congr {names : List CertificateNames} {m n : CertificateNames}
    (h : m.subject = n.subject) : issued names m = issued names n := by
  simp [issued, h]

theorem endEntities_append (part other all : List CertificateNames) :
    endEntities (part ++ other) all = endEntities part all ++ endEntities other all :=
  List.filter_append ..

/-- The signer by the number of end-entity certificates. -/
theorem onlyLeaf_eq (names : List CertificateNames) :
    (∀ n, endEntities names names = [n] → onlyLeaf names = .ok n.subject) ∧
      (endEntities names names = [] → onlyLeaf names =
        .error (.signing "The signature does not include the signer certificate")) ∧
      (2 ≤ (endEntities names names).length → onlyLeaf names =
        .error (.signing "The signature includes more than one end-entity certificate")) := by
  have hleaves : leaves names = (endEntities names names).map CertificateNames.subject := rfl
  unfold onlyLeaf
  rw [hleaves]
  refine ⟨fun n h => by rw [h]; rfl, fun h => by rw [h]; rfl, fun h => ?_⟩
  obtain ⟨a, b, l, hl⟩ : ∃ a b l, endEntities names names = a :: b :: l := by
    match endEntities names names, h with
    | a :: b :: l, _ => exact ⟨a, b, l, rfl⟩
  rw [hl]
  rfl

theorem onlyLeaf_perm {l m : List CertificateNames} (h : l.Perm m) : onlyLeaf l = onlyLeaf m := by
  have hissued : issued l = issued m := by
    funext n
    exact h.any_eq
  have hperm : (endEntities l l).Perm (endEntities m m) := by
    unfold endEntities
    rw [hissued]
    exact h.filter _
  obtain ⟨honel, hnonel, hmorel⟩ := onlyLeaf_eq l
  obtain ⟨honem, hnonem, hmorem⟩ := onlyLeaf_eq m
  match hm : endEntities m m with
  | [] =>
      rw [hm] at hperm
      rw [hnonel hperm.eq_nil, hnonem hm]
  | [n] =>
      rw [hm] at hperm
      rw [honel n (List.perm_singleton.mp hperm), honem n hm]
  | a :: b :: r =>
      have hlen : (endEntities l l).length = (endEntities m m).length := hperm.length_eq
      have hm2 : 2 ≤ (endEntities m m).length := by simp [hm]
      rw [hmorel (by omega), hmorem hm2]

/-- Exactly when the other certificates do not matter. -/
theorem onlyLeaf_append (own foreign : List CertificateNames) :
    onlyLeaf (own ++ foreign) = onlyLeaf own ↔ Undisturbed own foreign := by
  have hkept : endEntities own (own ++ foreign) =
      (endEntities own own).filter fun n => !issued foreign n := by
    unfold endEntities
    rw [List.filter_filter]
    refine List.filter_congr fun n _ => ?_
    rw [issued_append]
    cases issued own n <;> cases issued foreign n <;> rfl
  have hall := endEntities_append own foreign (own ++ foreign)
  obtain ⟨hone, hnone, hmore⟩ := onlyLeaf_eq (own ++ foreign)
  obtain ⟨hone', hnone', hmore'⟩ := onlyLeaf_eq own
  rw [hall] at hone hnone hmore
  generalize hadded : endEntities foreign (own ++ foreign) = added at hone hnone hmore
  match hown : endEntities own own with
  | [] =>
      rw [hkept, hown, List.filter_nil, List.nil_append] at hone hnone hmore
      rw [hnone' hown]
      have hiff : Undisturbed own foreign ↔ added = [] := by
        refine ⟨fun h => hadded ▸ h.no_leaf hown, fun h => ⟨fun _ => hadded ▸ h, ?_, ?_⟩⟩
        · intro a ha
          simp [hown] at ha
        · intro hlen
          simp [hown] at hlen
      rw [hiff]
      match added with
      | [] => simp [hnone rfl]
      | [x] => simp [hone x rfl]
      | x :: y :: r => simp [hmore (by simp)]
  | [a] =>
      rw [hone' a hown]
      have hiff : Undisturbed own foreign ↔ issued foreign a = false ∧ added = [] := by
        refine ⟨fun h => hadded ▸ h.one_leaf a hown, fun h => ⟨?_, ?_, ?_⟩⟩
        · intro hnil
          simp [hown] at hnil
        · intro b hb
          obtain rfl : a = b := by simpa [hown] using hb
          exact ⟨h.1, hadded ▸ h.2⟩
        · intro hlen
          simp [hown] at hlen
      rw [hiff]
      cases hstruck : issued foreign a with
      | false =>
          have hleft : endEntities own (own ++ foreign) = [a] := by
            rw [hkept, hown]
            simp [hstruck]
          rw [hleft] at hone hmore
          match added with
          | [] => simp [hone a rfl]
          | x :: r => simp [hmore (by simp)]
      | true =>
          have hleft : endEntities own (own ++ foreign) = [] := by
            rw [hkept, hown]
            simp [hstruck]
          rw [hleft] at hone hnone hmore
          match added with
          | [] => simp [hnone rfl]
          | [x] =>
              -- a certificate under the same subject would be no end entity either
              have hx : x ∈ endEntities foreign (own ++ foreign) := by simp [hadded]
              have hfree : issued foreign x = false := by
                have hnot := (List.mem_filter.mp hx).2
                rw [issued_append] at hnot
                simp at hnot
                exact hnot.2
              have hne : x.subject ≠ a.subject := by
                intro hsame
                rw [issued_congr hsame, hstruck] at hfree
                cases hfree
              simp [hone x rfl, hne]
          | x :: y :: r => simp [hmore (by simp)]
  | a :: b :: r =>
      have hlen : 2 ≤ (endEntities own own).length := by simp [hown]
      rw [hmore' hlen]
      have hiff : Undisturbed own foreign ↔
          2 ≤ (endEntities own (own ++ foreign)).length + added.length := by
        refine ⟨fun h => hadded ▸ h.more_leaves hlen, fun h => ⟨?_, ?_, fun _ => hadded ▸ h⟩⟩
        · intro hnil
          simp [hown] at hnil
        · intro c hc
          simp [hown] at hc
      rw [hiff, ← List.length_append]
      match hleft : endEntities own (own ++ foreign) ++ added with
      | [] => simp [hnone hleft]
      | [x] => simp [hone x hleft]
      | x :: y :: l => simp [hmore (by simp [hleft])]

/-! ## Reading the certificates -/

namespace CertificateReader

variable (r : CertificateReader)

def Readable (b64 : String) : Prop := ∃ names, r.read b64 = .ok names

/-- The names of those certificates of a list that can be read. -/
def names (l : List String) : List CertificateNames := l.filterMap fun b64 => (r.read b64).toOption

theorem names_cons {b64 : String} {n : CertificateNames} (h : r.read b64 = .ok n)
    (l : List String) : r.names (b64 :: l) = n :: r.names l := by
  simp [names, h, Except.toOption]

theorem mapM_read {l : List String} (h : ∀ b64 ∈ l, r.Readable b64) :
    l.mapM r.read = .ok (r.names l) := by
  induction l with
  | nil => rfl
  | cons b l ih =>
      obtain ⟨n, hn⟩ := h b List.mem_cons_self
      have hl := ih fun x hx => h x (List.mem_cons_of_mem _ hx)
      rw [List.mapM_cons, hn, hl, r.names_cons hn]
      rfl

theorem readable_of_mapM {l : List String} {names : List CertificateNames}
    (h : l.mapM r.read = .ok names) : ∀ b64 ∈ l, r.Readable b64 := by
  induction l generalizing names with
  | nil => simp
  | cons b l ih =>
      rw [List.mapM_cons] at h
      cases hb : r.read b with
      | error e =>
          rw [hb] at h
          cases h
      | ok n =>
          rw [hb] at h
          cases hl : l.mapM r.read with
          | error e =>
              rw [hl] at h
              cases h
          | ok ns =>
              intro x hx
              rcases List.mem_cons.mp hx with rfl | hx
              · exact ⟨n, hb⟩
              · exact ih hl x hx

/-- The first certificate that cannot be read is the same with readable ones in between. -/
theorem mapM_error_of_sublist {own all : List String} (h : own.Sublist all)
    (hother : ∀ b64 ∈ all.diff own, r.Readable b64) {e : CryptoError}
    (he : own.mapM r.read = .error e) : all.mapM r.read = .error e := by
  induction h generalizing e with
  | slnil => exact he
  | @cons own all b hsub ih =>
      obtain ⟨n, hn⟩ : r.Readable b := by
        refine hother b ?_
        have hcount := hsub.count_le b
        rw [← List.count_pos_iff, List.count_diff, List.count_cons_self]
        omega
      have hall := ih (fun x hx => hother x ?_) he
      · rw [List.mapM_cons, hn, hall]
        rfl
      · rw [← List.count_pos_iff, List.count_diff] at hx ⊢
        have hle := List.count_le_count_cons (a := x) (b := b) (l := all)
        omega
  | @cons_cons own all b hsub ih =>
      rw [List.mapM_cons] at he ⊢
      cases hb : r.read b with
      | error e' =>
          rw [hb] at he
          exact he
      | ok n =>
          rw [hb] at he
          rw [List.diff_cons, List.erase_cons_head] at hother
          cases hown : own.mapM r.read with
          | error e' =>
              have hall := ih hother (e := e')
              rw [hown] at he hall
              rw [hall rfl]
              exact he
          | ok names =>
              rw [hown] at he
              cases he

end CertificateReader

theorem signerSubject_stream (r : CertificateReader) (d : Doc) :
    signerSubject r d.stream = (encodedCertificates d.events).mapM r.read >>= onlyLeaf := rfl

/-- The signer that is named is the one the signature's own `ds:KeyInfo` names, or neither can be
    told, exactly when the other certificates leave the choice as it is. -/
theorem signerSubject_eq_ownSigner (r : CertificateReader) {d : Doc}
    (hone : (signatureElements d).length = 1)
    (hforeign : ∀ b64 ∈ foreignCertificates d, r.Readable b64) :
    signerSubject r d.stream = ownSigner r d ↔
      ((∀ b64 ∈ ownCertificates d, r.Readable b64) →
        Undisturbed (r.names (ownCertificates d)) (r.names (foreignCertificates d))) := by
  have hperm := perm_own_foreign hone.le
  rw [signerSubject_stream, ownSigner]
  by_cases hown : ∀ b64 ∈ ownCertificates d, r.Readable b64
  · have hall : ∀ b64 ∈ encodedCertificates d.events, r.Readable b64 := by
      intro b64 hb
      rcases List.mem_append.mp (hperm.mem_iff.mpr hb) with hb | hb
      · exact hown b64 hb
      · exact hforeign b64 hb
    have hnames : (r.names (encodedCertificates d.events)).Perm
        (r.names (ownCertificates d) ++ r.names (foreignCertificates d)) := by
      unfold CertificateReader.names
      rw [← List.filterMap_append]
      exact (hperm.filterMap _).symm
    rw [r.mapM_read hall, r.mapM_read hown]
    show onlyLeaf _ = onlyLeaf _ ↔ _
    rw [onlyLeaf_perm hnames, onlyLeaf_append]
    exact ⟨fun h _ => h, fun h => h hown⟩
  · cases hread : (ownCertificates d).mapM r.read with
    | ok names => exact absurd (r.readable_of_mapM hread) hown
    | error e =>
        have hall := r.mapM_error_of_sublist (ownCertificates_sublist hone.le) hforeign hread
        rw [hall]
        exact iff_of_true rfl fun h => absurd h hown

/-! ## A supplier signs as the tax authority -/

def base64Digit? (c : Char) : Option Nat :=
  let n := c.toNat
  if 0x41 ≤ n ∧ n ≤ 0x5A then some (n - 0x41)
  else if 0x61 ≤ n ∧ n ≤ 0x7A then some (n - 0x61 + 26)
  else if 0x30 ≤ n ∧ n ≤ 0x39 then some (n - 0x30 + 52)
  else if n = 0x2B then some 62
  else if n = 0x2F then some 63
  else none

/-- The bytes of a text in Base64 with padding. -/
def base64Bytes : List Char → Option (List Nat)
  | [] => some []
  | a :: b :: c :: d :: rest => do
      let a ← base64Digit? a
      let b ← base64Digit? b
      if c = '=' ∧ d = '=' ∧ rest = [] then return [a * 4 + b / 16]
      let c ← base64Digit? c
      if d = '=' ∧ rest = [] then return [a * 4 + b / 16, b % 16 * 16 + c / 4]
      let d ← base64Digit? d
      let bytes ← base64Bytes rest
      return (a * 4 + b / 16) :: (b % 16 * 16 + c / 4) :: (c % 4 * 64 + d) :: bytes
  | _ => none

/-- The common names in a DER text, as UTF8String. -/
def commonNames : List Nat → List String
  | [] => []
  | byte :: rest =>
      if byte = 0x55 ∧ rest.take 3 = [4, 3, 0x0C] then
        match rest.drop 3 with
        | [] => []
        | len :: text => String.ofList ((text.take len).map Char.ofNat) :: commonNames rest
      else commonNames rest

/-- Reads certificates whose issuer and subject have a common name only. -/
def commonNameReader : CertificateReader where
  decode text := match base64Bytes text.toList with
    | some der => .ok (der.map UInt8.ofNat)
    | none => .error "Invalid padding"
  from_der der := match commonNames (der.map UInt8.toNat) with
    | [issuer, subject] => .ok ⟨"CN=" ++ subject, "CN=" ++ issuer⟩
    | _ => .error "unexpected ASN.1 DER tag"

/-- A text given by its lines. -/
def ofLines (lines : List String) : String := String.ofList (lines.flatMap String.toList)

/-- The certificate of the supplier, `CN=Proveedor`, issued by `CN=CA`. -/
def supplierCertificate : String :=
  ofLines ["MIHHMHsCAQIwBQYDK2VwMA0xCzAJBgNVBAMMAkNBMB4XDTI2MTExOTAzMTk0OFoX",
    "DTM2MTExNjAzMTk0OFowFDESMBAGA1UEAwwJUHJvdmVlZG9yMCowBQYDK2VwAyEA",
    "7Bcn96Cwisgcp1vajXcBKs9TAKivyttsmo5lX92w0d4wBQYDK2VwA0EAq/CbGdl8",
    "TvisdDZ0gwE8/mwttJs3COAEREH3q6VWDMHdoX2JJl9gX2xcxz1iaC3WqT5V9xqz",
    "7NkJnvz5yEFxBw=="]

/-- A certificate that the supplier issued to `CN=DIAN`. -/
def forgedCertificate : String :=
  ofLines ["MIHJMH0CAQMwBQYDK2VwMBQxEjAQBgNVBAMMCVByb3ZlZWRvcjAeFw0yNjExMTkw",
    "MzE5NDhaFw0zNjExMTYwMzE5NDhaMA8xDTALBgNVBAMMBERJQU4wKjAFBgMrZXAD",
    "IQC2sGINU66J3EeoRbRxuqjeZK7Uvt0l8jLGJa2v5FvwjTAFBgMrZXADQQDzKLWv",
    "+g7oSWUUqhbV3NR6uRSlAlT0ELsGrTrZJbDql6r8lDK1kNQf4eILUzmkWcdztCyM",
    "PJVj7e4zX3d2Xb8N"]

theorem read_ofLines {lines : List String} {issuer subject : String}
    (h : ((base64Bytes ((lines.flatMap String.toList).filter fun c => !isWhitespace c)).map fun der =>
      commonNames ((der.map UInt8.ofNat).map UInt8.toNat)) = some [issuer, subject]) :
    commonNameReader.read (ofLines lines) = .ok ⟨"CN=" ++ subject, "CN=" ++ issuer⟩ := by
  obtain ⟨der, hder, hnames⟩ := Option.map_eq_some_iff.mp h
  unfold CertificateReader.read commonNameReader ofLines
  simp only [String.toList_ofList, hder, hnames]

theorem read_supplierCertificate :
    commonNameReader.read supplierCertificate = .ok ⟨"CN=Proveedor", "CN=CA"⟩ :=
  @read_ofLines _ "CA" "Proveedor" (by decide +kernel)

theorem read_forgedCertificate :
    commonNameReader.read forgedCertificate = .ok ⟨"CN=DIAN", "CN=Proveedor"⟩ :=
  @read_ofLines _ "Proveedor" "DIAN" (by decide +kernel)

/-- `<ds:KeyInfo>` with one certificate. -/
def keyInfo (b64 : String) (rest : Doc) : Doc :=
  .node (dsTag "KeyInfo" [])
    (.node (dsTag "X509Data" [])
      (.node (dsTag "X509Certificate" []) (.leaf (.text b64) .nil) .nil) .nil) rest

/-- The supplier's signature, and a `ds:KeyInfo` outside it. -/
def forgedResponse : Doc :=
  .node (plainTag "ApplicationResponse")
    (.node (dsTag "Signature" [])
      (.node (dsTag "SignedInfo" []) wholeReference (keyInfo supplierCertificate .nil))
      (keyInfo forgedCertificate .nil)) .nil

theorem forgedResponse_certificates :
    ownCertificates forgedResponse = [supplierCertificate] ∧
      encodedCertificates forgedResponse.events = [supplierCertificate, forgedCertificate] := by
  have hempty : ∀ b64 : String, "" ++ b64 = b64 := fun _ => String.empty_append
  constructor
  · show ["" ++ supplierCertificate] = _
    rw [hempty]
  · show ["" ++ supplierCertificate, "" ++ forgedCertificate] = _
    rw [hempty, hempty]

theorem forgedResponse_foreign :
    foreignCertificates forgedResponse = [forgedCertificate] ∧
      ∀ b64 ∈ foreignCertificates forgedResponse, commonNameReader.Readable b64 := by
  obtain ⟨hown, hall⟩ := forgedResponse_certificates
  have hforeign : foreignCertificates forgedResponse = [forgedCertificate] := by
    rw [foreignCertificates, hown, hall, List.diff_cons, List.erase_cons_head, List.diff_nil]
  refine ⟨hforeign, fun b64 hb => ?_⟩
  rw [hforeign, List.mem_singleton] at hb
  exact ⟨_, hb ▸ read_forgedCertificate⟩

/-! ## The signer that `register_verified` looks at -/

/-- The service with the verifier of this repository. -/
def inboundService (v : XmlSignatureVerifier) (dian_signer_subject : String) : InboundService :=
  ⟨v.reader, some ⟨v.verify, dian_signer_subject⟩⟩

/-- A run of `register_verified` that accepts an ApplicationResponse which reads as `d`. -/
def Accepted (v : XmlSignatureVerifier) (dian_signer_subject : String) (d : Doc) : Prop :=
  ∃ insert tenant id xml registered a,
    (inboundService v dian_signer_subject).registerVerified insert tenant id xml = .ok registered ∧
    (inboundService v dian_signer_subject).openContainer xml = .ok a ∧
    v.reader a.response_xml = d.stream

theorem Accepted.signer {v : XmlSignatureVerifier} {dian : String} {d : Doc}
    (h : Accepted v dian d) : ∃ signer,
      signerSubject v.certificates d.stream = .ok signer ∧ containsText signer dian := by
  obtain ⟨insert, tenant, id, xml, registered, a, hrun, hopen, hread⟩ := h
  obtain ⟨a', hopen', hrun⟩ := ok_of_bind hrun
  obtain rfl : a = a' := Except.ok.inj (hopen.symm.trans hopen')
  obtain ⟨signers, hsigners, -⟩ := ok_of_bind hrun
  have hverified := InboundService.verifySignatures_ok hsigners
  have hsigner := (XmlSignatureVerifier.verify_ok hverified.response).2
  exact ⟨signers.response, hread ▸ hsigner, hverified.dian⟩

/-- The signer of a document by all its certificates and by those of the signature; and what the
    signer says of `key`, the certificate whose key verified an accepted ApplicationResponse. -/
theorem signer_by_keyInfo (v : XmlSignatureVerifier) (d : Doc)
    (hone : (signatureElements d).length = 1)
    (hforeign : ∀ b64 ∈ foreignCertificates d, v.certificates.Readable b64) :
    (signerSubject v.certificates d.stream = ownSigner v.certificates d ↔
      ((∀ b64 ∈ ownCertificates d, v.certificates.Readable b64) →
        Undisturbed (v.certificates.names (ownCertificates d))
          (v.certificates.names (foreignCertificates d)))) ∧
    ∀ dian key, Accepted v dian d → key ∈ v.certificates.names (ownCertificates d) →
      ∃ signer, signerSubject v.certificates d.stream = .ok signer ∧ containsText signer dian ∧
        (signer = key.subject ↔
          issued (v.certificates.names (encodedCertificates d.events)) key = false) := by
  refine ⟨signerSubject_eq_ownSigner v.certificates hone hforeign, fun dian key haccepted hkey => ?_⟩
  obtain ⟨signer, hsigner, hdian⟩ := haccepted.signer
  refine ⟨signer, hsigner, hdian, ?_⟩
  obtain ⟨names, hnames, hleaf⟩ := ok_of_bind hsigner
  have hall : names = v.certificates.names (encodedCertificates d.events) := by
    have hread := v.certificates.mapM_read (v.certificates.readable_of_mapM hnames)
    exact Except.ok.inj (hnames.symm.trans hread)
  have hkeyall : key ∈ names := by
    rw [hall]
    unfold CertificateReader.names at hkey ⊢
    exact ((ownCertificates_sublist hone.le).filterMap _).subset hkey
  rw [← hall]
  obtain ⟨hone', hnone, hmore⟩ := onlyLeaf_eq names
  obtain ⟨n, hn⟩ : ∃ n, endEntities names names = [n] := by
    match hl : endEntities names names with
    | [] => exact absurd (hleaf.symm.trans (hnone hl)) (by simp)
    | [n] => exact ⟨n, rfl⟩
    | x :: y :: l => exact absurd (hleaf.symm.trans (hmore (by simp [hl]))) (by simp)
  obtain rfl : n.subject = signer := Except.ok.inj ((hone' n hn).symm.trans hleaf)
  have hfree : issued names n = false := by
    have hmem : n ∈ endEntities names names := by simp [hn]
    simpa using (List.mem_filter.mp hmem).2
  constructor
  · intro hsame
    rw [← issued_congr hsame]
    exact hfree
  · intro hkeyfree
    have hmem : key ∈ endEntities names names := List.mem_filter.mpr ⟨hkeyall, by simp [hkeyfree]⟩
    rw [hn] at hmem
    rw [List.mem_singleton.mp hmem]

theorem signer_by_keyInfo_forgedResponse :
    ¬ (signerSubject commonNameReader forgedResponse.stream =
      ownSigner commonNameReader forgedResponse) := by
  have hboth := signer_by_keyInfo ⟨fun _ => forgedResponse.stream, fun _ => .ok (), commonNameReader⟩
    forgedResponse (by decide) forgedResponse_foreign.2
  rw [hboth.1]
  intro hquiet
  obtain ⟨hown, -⟩ := forgedResponse_certificates
  obtain ⟨hforeign, -⟩ := forgedResponse_foreign
  have hread : ∀ b64 ∈ ownCertificates forgedResponse, commonNameReader.Readable b64 := by
    intro b64 hb
    rw [hown, List.mem_singleton] at hb
    exact ⟨_, hb ▸ read_supplierCertificate⟩
  have hstruck := ((hquiet hread).one_leaf ⟨"CN=Proveedor", "CN=CA"⟩ (by
    rw [hown, CertificateReader.names_cons _ read_supplierCertificate]
    decide)).1
  rw [hforeign, CertificateReader.names_cons _ read_forgedCertificate] at hstruck
  revert hstruck
  decide

theorem forgedResponse_signer : ¬ ∀ (r : CertificateReader) (d : Doc),
    (signatureElements d).length = 1 → (∀ b64 ∈ foreignCertificates d, r.Readable b64) →
      signerSubject r d.stream = ownSigner r d := by
  intro h
  obtain ⟨hown, hall⟩ := forgedResponse_certificates
  have hsame := h commonNameReader forgedResponse (by decide) forgedResponse_foreign.2
  rw [signerSubject_stream, ownSigner, hown, hall, List.mapM_cons, List.mapM_cons, List.mapM_cons,
    read_supplierCertificate, read_forgedCertificate] at hsame
  have hdian : onlyLeaf [⟨"CN=Proveedor", "CN=CA"⟩, ⟨"CN=DIAN", "CN=Proveedor"⟩] =
    onlyLeaf [⟨"CN=Proveedor", "CN=CA"⟩] := hsame
  exact absurd hdian (by decide)

end DianService
