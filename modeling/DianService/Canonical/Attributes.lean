import DianService.Crypto.C14n

/-
  What the canonicalizer reads, against Namespaces in XML on trees: characters and references, the
  declarations of a tag and its other attributes.
-/

namespace DianService.C14n

open Lib.Xml

/-! ## Characters -/

theorem replace_one (a b : Char) (cs : Text) :
    replace [a] [b] cs = cs.map fun c => if c = a then b else c := by
  induction cs with
  | nil => rfl
  | cons c cs ih =>
      by_cases hc : c = a
      · have h := replace_append_self (List.cons_ne_nil a []) [b] cs
        rw [hc, List.map_cons, if_pos rfl, ← ih]
        exact h
      · have hnot : [a].isPrefixOf (c :: cs) = false := by
          simp [List.isPrefixOf, Ne.symm hc]
        rw [replace_cons_of_not hnot, List.map_cons, if_neg hc, ih]

theorem normalizeEol_eq (text : Text) : normalizeEol text = Lib.Xml.normalizeEol text := by
  unfold normalizeEol
  rw [replace_one]
  fun_induction Lib.Xml.normalizeEol text with
  | case1 => rfl
  | case2 cs ih =>
      have h := replace_append_self (List.cons_ne_nil '\r' ['\n']) ['\n'] cs
      rw [← ih]
      show List.map _ (replace _ _ (['\r', '\n'] ++ cs)) = _
      rw [h]
      rfl
  | case3 cs hnot ih =>
      have hno : (['\r', '\n'] : Text).isPrefixOf ('\r' :: cs) = false := by
        cases cs with
        | nil => rfl
        | cons d ds =>
            have hd : d ≠ '\n' := by
              rintro rfl
              exact hnot ds rfl
            simp [List.isPrefixOf, Ne.symm hd]
      rw [replace_cons_of_not hno, List.map_cons, if_pos rfl, ih]
  | case4 c cs hcrlf hcr ih =>
      have hc : c ≠ '\r' := by
        rintro rfl
        exact hcr rfl
      have hno : (['\r', '\n'] : Text).isPrefixOf (c :: cs) = false := by
        simp [List.isPrefixOf, Ne.symm hc]
      rw [replace_cons_of_not hno, List.map_cons, if_neg hc, ih]

theorem escapeText_eq (value : Text) : escapeText value = value.flatMap textChar := by
  unfold escapeText
  congr 1
  funext c
  unfold textChar
  split <;> simp_all

theorem escapeAttribute_eq (value : Text) : escapeAttribute value = value.flatMap attributeChar := by
  unfold escapeAttribute
  congr 1
  funext c
  unfold attributeChar
  split <;> simp_all

theorem fromStrRadix_eq {b : Nat} {digits : Text} {n : Nat} (hne : digits ≠ [])
    (h : digits? b 0 digits = some n) : fromStrRadix b digits = some n := by
  unfold fromStrRadix
  split
  · exact absurd rfl hne
  · -- a sign is no digit
    have hsign : digit? b '+' = none := rfl
    simp [digits?, hsign] at h
  · exact h

theorem charRef?_eq_some {b : Nat} {digits : Text} {c : Char} (h : charRef? b digits = some c) :
    (fromStrRadix b digits).bind charOf? = some c := by
  unfold charRef? at h
  split at h
  · cases h
  · rename_i hne
    obtain ⟨n, hn, h⟩ := Option.bind_eq_some_iff.mp h
    rw [fromStrRadix_eq hne hn]
    exact (Option.filter_eq_some_iff.mp h).1

theorem resolvedName_hex (hex : Text) :
    resolvedName ('#' :: 'x' :: hex) = (fromStrRadix 16 hex).bind charOf? := by
  simp [resolvedName]

theorem resolvedName_dec {digits : Text} (h : ∀ hex, digits ≠ 'x' :: hex) :
    resolvedName ('#' :: digits) = (fromStrRadix 10 digits).bind charOf? := by
  unfold resolvedName
  simp only [List.cons.injEq, Char.reduceEq, false_and, if_false]

theorem resolvedName_eq {name : Text} {c : Char} (h : reference? name = some c) :
    resolvedName name = some c := by
  unfold reference? at h
  by_cases hamp : name = ['a', 'm', 'p']
  · subst hamp; exact h
  by_cases hlt : name = ['l', 't']
  · subst hlt; exact h
  by_cases hgt : name = ['g', 't']
  · subst hgt; exact h
  by_cases hquot : name = ['q', 'u', 'o', 't']
  · subst hquot; exact h
  by_cases hapos : name = ['a', 'p', 'o', 's']
  · subst hapos; exact h
  rw [if_neg hamp, if_neg hlt, if_neg hgt, if_neg hquot, if_neg hapos] at h
  split at h
  · rw [resolvedName_hex]
    exact charRef?_eq_some h
  · rename_i digits hx
    rw [resolvedName_dec fun hex heq => hx hex (by rw [heq])]
    exact charRef?_eq_some h
  · cases h

theorem resolveReference_eq {name : Text} {c : Char} (h : reference? name = some c) :
    resolveReference name = .ok c := by
  rw [resolveReference, resolvedName_eq h]

/-! ## Declarations -/

theorem lookup_reverse {b : Bindings} (h : (b.map Prod.fst).Nodup) (p : Text) :
    b.reverse.lookup p = b.lookup p := by
  induction b with
  | nil => rfl
  | cons d b ih =>
      obtain ⟨k, v⟩ := d
      obtain ⟨hnot, hb⟩ := List.nodup_cons.mp h
      rw [List.reverse_cons, List.lookup_append, ih hb]
      simp only [List.lookup_cons, List.lookup_nil]
      by_cases hp : p = k
      · have hnone : b.lookup p = none := by
          rw [List.lookup_eq_none_iff]
          intro e he
          have hne : e.1 ≠ k := fun heq => hnot (List.mem_map.mpr ⟨e, he, heq⟩)
          simp [hp, Ne.symm hne]
        rw [hnone, hp]
        simp
      · have hk : (p == k) = false := by simp [hp]
        cases b.lookup p <;> simp [hk]

theorem declared?_xmlns_colon {key : Text} (hx : key ≠ "xmlns".toList)
    (h : key.take 6 = "xmlns:".toList) : declared? key = some (key.drop 6) := by
  unfold declared?
  rw [if_neg hx, if_pos h]

/-- The prefix of a qualified name in the namespace of declarations is not empty. -/
theorem declared_ne_nil {key : Text} (hq : isQName key) (h : key.take 6 = "xmlns:".toList) :
    key.drop 6 ≠ [] := by
  intro hnil
  have hkey : key = "xmlns:".toList := by
    rw [← List.take_append_drop 6 key, hnil, h, List.append_nil]
  subst hkey
  exact absurd hq (by decide)

theorem declared?_injective {k l p : Text} (hk : isQName k) (hl : isQName l)
    (hkp : declared? k = some p) (hlp : declared? l = some p) : k = l := by
  unfold declared? at hkp hlp
  split at hkp
  · rename_i hkx
    cases hkp
    split at hlp
    · rename_i hlx
      rw [hkx, hlx]
    · split at hlp
      · rename_i hl6
        exact absurd (Option.some.inj hlp) (declared_ne_nil hl hl6)
      · cases hlp
  · split at hkp
    · rename_i hk6
      split at hlp
      · cases hlp
        exact absurd (Option.some.inj hkp) (declared_ne_nil hk hk6)
      · split at hlp
        · rename_i hl6
          rw [← List.take_append_drop 6 k, ← List.take_append_drop 6 l, hk6, hl6,
            Option.some.inj hkp, Option.some.inj hlp]
        · cases hlp
    · cases hkp

theorem bindings_nodup {outer : Bindings} {t : RawTag} (h : t.WellFormed outer) :
    (t.bindings.map Prod.fst).Nodup := by
  have hkeys : t.attributes.Pairwise fun a b => a.key ≠ b.key := List.pairwise_map.mp h.keys
  unfold RawTag.bindings
  rw [List.Nodup, List.pairwise_map, List.pairwise_filterMap]
  refine hkeys.imp_of_mem fun ha hb hne d hd e he heq => hne ?_
  obtain ⟨p, hp, rfl⟩ := Option.map_eq_some_iff.mp hd
  obtain ⟨p', hp', rfl⟩ := Option.map_eq_some_iff.mp he
  cases heq
  exact String.toList_inj.mp
    (declared?_injective (h.qnames _ ha) (h.qnames _ hb) hp hp')

theorem mem_bindings {t : RawTag} {d : Text × Text} :
    d ∈ t.bindings ↔ ∃ a ∈ t.attributes, declared? a.key.toList = some d.1 ∧ a.value = d.2 := by
  unfold RawTag.bindings
  rw [List.mem_filterMap]
  refine exists_congr fun a => and_congr_right fun _ => ?_
  rw [Option.map_eq_some_iff]
  constructor
  · rintro ⟨p, hp, rfl⟩
    exact ⟨hp, rfl⟩
  · rintro ⟨hp, hv⟩
    exact ⟨d.1, hp, Prod.ext rfl hv⟩

/-! ## Reading the attributes -/

section
variable {q : QuickXml}

theorem normalized_value_eq (hq : q.Normalizes) {a : Attribute}
    (h : (attributeValue a.raw.toList).isSome) :
    q.normalized_value a.raw = .ok (String.ofList a.value) := by
  obtain ⟨v, hv⟩ := Option.isSome_iff_exists.mp h
  rw [hq a.raw v hv, Attribute.value, hv, Option.getD_some]

theorem readAttribute_eq (hq : q.Normalizes) {a : Attribute}
    (h : (attributeValue a.raw.toList).isSome)
    (hnamed : a.key.toList.take 6 = "xmlns:".toList → a.value ≠ [])
    (acc : Scope × List (Text × Text)) :
    readAttribute q acc a = .ok
      (((declared? a.key.toList).map fun p => (p, a.value)).toList ++ acc.1,
        acc.2 ++ if (declared? a.key.toList).isNone then [(a.key.toList, a.value)] else []) := by
  unfold readAttribute
  rw [normalized_value_eq hq h]
  simp only [pure_bind, String.toList_ofList]
  unfold declared?
  by_cases hx : a.key.toList = "xmlns".toList
  · simp [hx, pure, Except.pure]
  · rw [if_neg hx, if_neg hx]
    by_cases h6 : a.key.toList.take 6 = "xmlns:".toList
    · rw [if_pos h6, if_pos h6, if_neg (hnamed h6)]
      simp [pure, Except.pure]
    · rw [if_neg h6, if_neg h6]
      simp [pure, Except.pure]

theorem readAttributes_eq (hq : q.Normalizes) {attributes : List Attribute}
    (h : ∀ a ∈ attributes, (attributeValue a.raw.toList).isSome)
    (hnamed : ∀ a ∈ attributes, a.key.toList.take 6 = "xmlns:".toList → a.value ≠ [])
    (acc : Scope × List (Text × Text)) :
    attributes.foldlM (readAttribute q) acc = .ok
      ((attributes.filterMap fun a =>
          (declared? a.key.toList).map fun p => (p, a.value)).reverse ++ acc.1,
        acc.2 ++ (attributes.filter fun a => (declared? a.key.toList).isNone).map fun a =>
          (a.key.toList, a.value)) := by
  induction attributes generalizing acc with
  | nil => simp [pure, Except.pure]
  | cons a as ih =>
      rw [List.foldlM_cons, readAttribute_eq hq (h a List.mem_cons_self)
        (hnamed a List.mem_cons_self)]
      have ih := ih (fun b hb => h b (List.mem_cons_of_mem _ hb))
        (fun b hb => hnamed b (List.mem_cons_of_mem _ hb))
      show List.foldlM _ _ _ = _
      rw [ih]
      cases hd : declared? a.key.toList <;> simp [hd]

/-- The value of a declaration with a prefix is not empty. -/
theorem declared_value_ne_nil {outer : Bindings} {t : RawTag} (h : t.WellFormed outer)
    {a : Attribute} (ha : a ∈ t.attributes) (h6 : a.key.toList.take 6 = "xmlns:".toList) :
    a.value ≠ [] := by
  have hx : a.key.toList ≠ "xmlns".toList := by
    intro hx
    rw [hx] at h6
    exact absurd h6 (by decide)
  have hmem : (a.key.toList.drop 6, a.value) ∈ t.bindings :=
    mem_bindings.mpr ⟨a, ha, declared?_xmlns_colon hx h6, rfl⟩
  exact (h.declarations.named _ hmem (declared_ne_nil (h.qnames a ha) h6)).2

/-- The first loop of `start_element` on a well-formed tag. -/
theorem readAttributes_tag (hq : q.Normalizes) {outer : Bindings} {t : RawTag}
    (h : t.WellFormed outer) (s : Scope) :
    t.attributes.foldlM (readAttribute q) (s, []) =
      .ok (t.bindings.reverse ++ s, t.plain.map fun a => (a.key.toList, a.value)) :=
  readAttributes_eq hq h.values (fun _ ha => declared_value_ne_nil h ha) (s, [])

/-! ## The names of the attributes -/

theorem prefixOf_ne_nil {name : Text} (hq : isQName name) (h : ':' ∈ name) :
    (splitName name).1 ≠ [] := by
  intro hnil
  simp [isQName, h, hnil, isNCName] at hq

theorem colon_of_prefixOf_ne_nil {name : Text} (h : (splitName name).1 ≠ []) : ':' ∈ name := by
  by_contra hnot
  rw [splitName_of_not_colon hnot] at h
  exact h rfl

theorem mem_keys {b : Bindings} {p : Text} : p ∈ b.map Prod.fst ↔ (b.lookup p).isSome := by
  rw [List.lookup_isSome_iff, List.mem_map]
  exact exists_congr fun d => and_congr_right fun _ => by rw [beq_iff_eq, eq_comm]

/-- The second loop of `start_element` on one attribute. -/
theorem expand_eq {scope b : Bindings} (hs : ∀ p, scope.lookup p = b.lookup p) {a : Attribute}
    (hq : isQName a.key.toList) (hu : Usable b (splitName a.key.toList).1) :
    expand scope (a.key.toList, a.value) = .ok
      ⟨attributeUri b a.key.toList, (splitName a.key.toList).2, a.key.toList, a.value⟩ := by
  unfold expand attributeUri
  by_cases hc : ':' ∈ a.key.toList
  · have hne := prefixOf_ne_nil hq hc
    dsimp only
    rw [if_pos hc, if_neg hne]
    by_cases hx : (splitName a.key.toList).1 = "xml".toList
    · rw [if_pos hx, if_pos hx]
    · rw [if_neg hx, if_neg hx]
      have hin := mem_keys.mp ((hu.resolve_left hne).resolve_left hx)
      obtain ⟨uri, huri⟩ := Option.isSome_iff_exists.mp hin
      rw [hs, huri]
      show _ = Except.ok (Expanded.mk (uriOf b _) _ _ _)
      rw [uriOf, huri, Option.getD_some]
  · dsimp only
    rw [if_neg hc, splitName_of_not_colon hc]
    rfl

theorem mapM_ok {α β ε : Type} {f : α → Except ε β} {g : α → β} {l : List α}
    (h : ∀ x ∈ l, f x = .ok (g x)) : l.mapM f = .ok (l.map g) := by
  induction l with
  | nil => rfl
  | cons x l ih =>
      rw [List.mapM_cons, h x List.mem_cons_self, ih fun y hy => h y (List.mem_cons_of_mem _ hy)]
      rfl

theorem mem_of_mem_plain {t : RawTag} {a : Attribute} (h : a ∈ t.plain) : a ∈ t.attributes :=
  (List.mem_filter.mp h).1

theorem expandAttributes_eq {scope outer : Bindings} {t : RawTag} (h : t.WellFormed outer)
    (hs : ∀ p, scope.lookup p = (t.bindings ++ outer).lookup p) :
    (t.plain.map fun a => (a.key.toList, a.value)).mapM (expand scope) =
      .ok (expandedAttributes (t.bindings ++ outer) t) := by
  rw [List.mapM_map]
  exact mapM_ok fun a ha => expand_eq hs (h.qnames a (mem_of_mem_plain ha)) (h.attributes_usable a ha)

end

end DianService.C14n
