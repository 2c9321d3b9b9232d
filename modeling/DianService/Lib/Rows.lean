import Mathlib.Algebra.BigOperators.Group.List.Basic
import Mathlib.Data.List.Nodup
import Mathlib.Data.List.Sort

/-
  Tables as lists of rows: ordered selections, and what a unique key gives to a lookup.
-/

namespace DianService.Lib

variable {ρ κ : Type} {key : ρ → κ} {rows : List ρ}

/-- A list around one of its places. -/
theorem exists_split {i : Nat} {a : ρ} (h : rows[i]? = some a) :
    ∃ l₁ l₂, rows = l₁ ++ a :: l₂ ∧ (∀ b, rows.set i b = l₁ ++ b :: l₂) ∧
      rows.eraseIdx i = l₁ ++ l₂ := by
  obtain ⟨hi, rfl⟩ := List.getElem?_eq_some_iff.mp h
  refine ⟨rows.take i, rows.drop (i + 1), ?_, fun b => ?_, List.eraseIdx_eq_take_drop_succ rows i⟩
  · rw [List.getElem_cons_drop, List.take_append_drop]
  · rw [List.set_eq_take_append_cons_drop, if_pos hi]

/-- `UPDATE ... WHERE p` leaves the other rows. -/
theorem mem_map_ite {p : ρ → Prop} [DecidablePred p] {f : ρ → ρ} {r : ρ} (hr : r ∈ rows)
    (hp : ¬ p r) : r ∈ rows.map fun r => if p r then f r else r :=
  List.mem_map.mpr ⟨r, hr, if_neg hp⟩

/-- An update that changes a row it is about changes the table. -/
theorem map_ite_ne {p : ρ → Prop} [DecidablePred p] {f : ρ → ρ} {r : ρ}
    (hr : r ∈ rows) (hp : p r) (hf : f r ≠ r) :
    (rows.map fun r => if p r then f r else r) ≠ rows := by
  intro h
  have hsame : ∀ r ∈ rows, (if p r then f r else r) = r := by
    rw [← List.map_inj_left, h, List.map_id']
  have hself := hsame r hr
  rw [if_pos hp] at hself
  exact hf hself

/-- An update that is about no row changes nothing. -/
theorem map_ite_eq_self {p : ρ → Bool} {f : ρ → ρ}
    (h : ¬ rows.any p = true) : (rows.map fun r => if p r then f r else r) = rows := by
  rw [Bool.not_eq_true, List.any_eq_false] at h
  refine (List.map_congr_left fun r hr => ?_).trans (List.map_id' rows)
  rw [if_neg (h r hr)]

/-- What does not depend on the place. -/
theorem map_mapIdx {α β γ : Type} {f : Nat → α → β} {g : β → γ} {h : α → γ}
    (hf : ∀ i a, g (f i a) = h a) (l : List α) : (l.mapIdx f).map g = l.map h := by
  apply List.ext_getElem?
  intro i
  rw [List.getElem?_map, List.getElem?_mapIdx, List.getElem?_map]
  cases l[i]? with
  | none => rfl
  | some a => exact congrArg some (hf i a)

/-- `ORDER BY f DESC LIMIT 1`. -/
def latestBy (f : ρ → Int) : List ρ → Option ρ
  | [] => none
  | r :: rows =>
      match latestBy f rows with
      | none => some r
      | some s => if f r < f s then some s else some r

theorem mem_of_latestBy {f : ρ → Int} {r : ρ} (h : latestBy f rows = some r) : r ∈ rows := by
  induction rows with
  | nil => cases h
  | cons a rows ih =>
      unfold latestBy at h
      split at h
      · cases h
        exact List.mem_cons_self
      · split at h <;> cases h
        · exact List.mem_cons_of_mem a (ih ‹_›)
        · exact List.mem_cons_self

theorem latestBy_eq_none {f : ρ → Int} : latestBy f rows = none ↔ rows = [] := by
  cases rows with
  | nil => exact ⟨fun _ => rfl, fun _ => rfl⟩
  | cons a rows =>
      unfold latestBy
      cases latestBy f rows with
      | none => simp
      | some s =>
          simp only [reduceCtorEq, iff_false]
          split <;> simp

/-- No row is later. -/
theorem le_of_latestBy {f : ρ → Int} {r : ρ} (h : latestBy f rows = some r) :
    ∀ s ∈ rows, f s ≤ f r := by
  induction rows generalizing r with
  | nil => exact fun s hs => absurd hs List.not_mem_nil
  | cons a rows ih =>
      intro s hs
      unfold latestBy at h
      cases hrest : latestBy f rows with
      | none =>
          rw [hrest] at h
          cases h
          rw [latestBy_eq_none.mp hrest, List.mem_singleton] at hs
          rw [hs]
      | some t =>
          have hle := ih hrest
          simp only [hrest] at h
          split at h <;> cases h <;> cases hs with
          | head => omega
          | tail _ hs =>
              have := hle s hs
              omega

/-- What a selection makes of the rows of one key, where the key is unique. -/
theorem filter_flatMap_key {α β κ : Type} [DecidableEq κ] {key : α → κ} {key' : β → κ}
    {p : α → Bool} {g : α → List β} {rows : List α} (hkey : (rows.map key).Nodup)
    (hg : ∀ r, ∀ s ∈ g r, key' s = key r) {r : α} (hr : r ∈ rows) :
    ((rows.filter p).flatMap g).filter (fun s => key' s = key r) = if p r then g r else [] := by
  have hnone : ∀ {rows : List α}, key r ∉ rows.map key →
      ((rows.filter p).flatMap g).filter (fun s => key' s = key r) = [] := by
    intro rows hout
    refine List.filter_eq_nil_iff.mpr fun s hs heq => hout ?_
    obtain ⟨a, ha, hs⟩ := List.mem_flatMap.mp hs
    rw [← of_decide_eq_true heq, hg a s hs]
    exact List.mem_map_of_mem (List.mem_of_mem_filter ha)
  induction rows with
  | nil => cases hr
  | cons a rows ih =>
      obtain ⟨hout, hrest⟩ := List.nodup_cons.mp hkey
      have happend : ((a :: rows).filter p).flatMap g =
          (if p a then g a else []) ++ (rows.filter p).flatMap g := by
        rw [List.filter_cons]
        split <;> simp
      rw [happend, List.filter_append]
      cases hr with
      | head =>
          rw [hnone hout, List.append_nil]
          refine List.filter_eq_self.mpr fun s hs => decide_eq_true ?_
          split at hs
          · exact hg r s hs
          · cases hs
      | tail _ hr =>
          rw [ih hrest hr]
          have hne : key a ≠ key r := fun heq => hout (heq ▸ List.mem_map_of_mem hr)
          have hfirst : (if p a then g a else []).filter (fun s => key' s = key r) = [] := by
            refine List.filter_eq_nil_iff.mpr fun s hs heq => hne ?_
            split at hs
            · rw [← hg a s hs]
              exact of_decide_eq_true heq
            · cases hs
          rw [hfirst, List.nil_append]

/-- `ORDER BY f`. -/
def orderBy (f : ρ → Int) (rows : List ρ) : List ρ := rows.insertionSort fun a b => f a ≤ f b

theorem orderBy_perm (f : ρ → Int) (rows : List ρ) : (orderBy f rows).Perm rows :=
  List.perm_insertionSort _ rows

@[simp] theorem mem_orderBy {f : ρ → Int} {r : ρ} : r ∈ orderBy f rows ↔ r ∈ rows :=
  (orderBy_perm f rows).mem_iff

theorem pairwise_orderBy (f : ρ → Int) (rows : List ρ) :
    (orderBy f rows).Pairwise fun a b => f a ≤ f b := by
  have htotal : Std.Total fun a b : ρ => f a ≤ f b := ⟨fun a b => le_total (f a) (f b)⟩
  have htrans : IsTrans ρ fun a b => f a ≤ f b := ⟨fun a b c => le_trans⟩
  exact List.pairwise_insertionSort _ rows

/-- Rows that are seen through `g` are ordered as they are. -/
theorem map_orderBy {σ : Type} {f : ρ → Int} {f' : σ → Int} {g : ρ → σ} (h : ∀ r, f' (g r) = f r) :
    (orderBy f rows).map g = orderBy f' (rows.map g) :=
  List.map_insertionSort _ _ _ rows fun a _ b _ => by simp only [h]

/-- Where no two rows tie, the order does not depend on how they came. -/
theorem orderBy_eq_of_perm {f : ρ → Int} {rows' : List ρ} (h : rows.Perm rows')
    (hf : (rows.map f).Nodup) : orderBy f rows = orderBy f rows' := by
  have hperm : (orderBy f rows).Perm (orderBy f rows') :=
    (orderBy_perm f rows).trans (h.trans (orderBy_perm f rows').symm)
  refine hperm.eq_of_pairwise ?_ (pairwise_orderBy f rows) (pairwise_orderBy f rows')
  intro a b ha hb hab hba
  exact List.inj_on_of_nodup_map hf (mem_orderBy.mp ha)
    (h.mem_iff.mpr (mem_orderBy.mp hb)) (le_antisymm hab hba)

theorem orderedInsert_append {f : ρ → Int} {a : ρ} {l₁ l₂ : List ρ} (h : ∀ b ∈ l₂, f a ≤ f b) :
    (l₁ ++ l₂).orderedInsert (fun a b => f a ≤ f b) a =
      l₁.orderedInsert (fun a b => f a ≤ f b) a ++ l₂ := by
  induction l₁ with
  | nil =>
      cases l₂ with
      | nil => rfl
      | cons b l₂ => exact List.orderedInsert_cons_of_le _ l₂ (h b List.mem_cons_self)
  | cons c l₁ ih =>
      rw [List.cons_append, List.orderedInsert_cons, List.orderedInsert_cons, ih]
      split <;> rfl

/-- Rows none of which comes after any of the others are ordered before them. -/
theorem orderBy_append {f : ρ → Int} {l₁ l₂ : List ρ} (h : ∀ a ∈ l₁, ∀ b ∈ l₂, f a ≤ f b) :
    orderBy f (l₁ ++ l₂) = orderBy f l₁ ++ orderBy f l₂ := by
  induction l₁ with
  | nil => rfl
  | cons a l₁ ih =>
      have hrest := ih fun c hc => h c (List.mem_cons_of_mem a hc)
      show (orderBy f (l₁ ++ l₂)).orderedInsert (fun a b => f a ≤ f b) a = _
      rw [hrest]
      exact orderedInsert_append fun b hb => h a List.mem_cons_self b (mem_orderBy.mp hb)

/-- If the first `n` rows come no later than the rest, they are the first `n` of the order. -/
theorem take_orderBy_perm {f : ρ → Int} {n : Nat}
    (h : ∀ a ∈ rows.take n, ∀ b ∈ rows.drop n, f a ≤ f b) :
    ((orderBy f rows).take n).Perm (rows.take n) := by
  have hlen : (orderBy f (rows.take n)).length = (rows.take n).length :=
    (orderBy_perm f _).length_eq
  have horder : orderBy f rows = orderBy f (rows.take n) ++ orderBy f (rows.drop n) := by
    rw [← orderBy_append h, List.take_append_drop]
  have htake : (orderBy f rows).take n = orderBy f (rows.take n) := by
    rw [horder]
    by_cases hn : n ≤ rows.length
    · refine List.take_left' ?_
      rw [hlen, List.length_take]
      omega
    · have hdrop : orderBy f (rows.drop n) = [] := by
        rw [List.drop_eq_nil_of_le (by omega)]
        rfl
      rw [hdrop, List.append_nil, List.take_of_length_le]
      rw [hlen, List.length_take]
      omega
  rw [htake]
  exact orderBy_perm f _

/-- A row is among the first `n` of the order once at most `n` rows come no later than it. -/
theorem mem_take_orderBy {f : ρ → Int} {r : ρ} {n : Nat} (hr : r ∈ rows)
    (hn : rows.countP (fun a => f a ≤ f r) ≤ n) : r ∈ (orderBy f rows).take n := by
  have hmem : r ∈ (orderBy f rows).take n ++ (orderBy f rows).drop n := by
    rw [List.take_append_drop, mem_orderBy]
    exact hr
  rcases List.mem_append.mp hmem with h | h
  · exact h
  · exfalso
    have hsorted := pairwise_orderBy f rows
    rw [← List.take_append_drop n (orderBy f rows), List.pairwise_append] at hsorted
    have hall : ∀ a ∈ (orderBy f rows).take n, decide (f a ≤ f r) = true := fun a ha => by
      simpa using hsorted.2.2 a ha r h
    have hlen : ((orderBy f rows).take n).length = n := by
      have hpos := List.length_pos_of_mem h
      rw [List.length_drop] at hpos
      rw [List.length_take]
      omega
    have hone : 1 ≤ ((orderBy f rows).drop n).countP (fun a => f a ≤ f r) :=
      List.countP_pos_iff.mpr ⟨r, h, by simp⟩
    rw [← (orderBy_perm f rows).countP_eq, ← List.take_append_drop n (orderBy f rows),
      List.countP_append, List.countP_eq_length.mpr hall, hlen] at hn
    omega

/-- Under a unique key a row is the only one with its key. -/
theorem eq_of_key_eq (h : (rows.map key).Nodup) {a b : ρ} (ha : a ∈ rows) (hb : b ∈ rows)
    (hk : key a = key b) : a = b := by
  induction rows with
  | nil => cases ha
  | cons r rows ih =>
      rw [List.map_cons, List.nodup_cons] at h
      obtain ⟨hr, h⟩ := h
      have hnot : ∀ c ∈ rows, key c ≠ key r := fun c hc e => hr (e ▸ List.mem_map_of_mem hc)
      rcases List.mem_cons.mp ha with rfl | ha' <;> rcases List.mem_cons.mp hb with rfl | hb'
      · rfl
      · exact absurd hk.symm (hnot b hb')
      · exact absurd hk (hnot a ha')
      · exact ih h ha' hb'

/-- A test for a row does not depend on the order. -/
theorem any_eq_of_perm {rows' : List ρ} (h : rows.Perm rows') (p : ρ → Bool) :
    rows.any p = rows'.any p := by
  rw [Bool.eq_iff_iff, List.any_eq_true, List.any_eq_true]
  simp only [h.mem_iff]

variable [DecidableEq κ]

theorem filter_key_eq (h : (rows.map key).Nodup) {a : ρ} (ha : a ∈ rows) :
    rows.filter (fun r => key r = key a) = [a] := by
  induction rows with
  | nil => cases ha
  | cons r rows ih =>
      rw [List.map_cons, List.nodup_cons] at h
      obtain ⟨hr, h⟩ := h
      rcases List.mem_cons.mp ha with rfl | ha
      · have hnone : rows.filter (fun r => key r = key a) = [] := by
          rw [List.filter_eq_nil_iff]
          intro c hc hk
          exact hr (of_decide_eq_true hk ▸ List.mem_map_of_mem hc)
        rw [List.filter_cons_of_pos (by simp), hnone]
      · have hne : key r ≠ key a := fun e => hr (e ▸ List.mem_map_of_mem ha)
        rw [List.filter_cons_of_neg (by simpa using hne), ih h ha]

/-- A lookup by key finds the row. -/
theorem find?_key_eq (h : (rows.map key).Nodup) {a : ρ} (ha : a ∈ rows) :
    rows.find? (fun r => key r = key a) = some a := by
  rw [← List.head?_filter, filter_key_eq h ha]
  rfl

/-- A lookup after a change of the rows that keeps their keys. -/
theorem find?_map_key {f : ρ → ρ} (hf : ∀ r, key (f r) = key r) (k : κ) :
    (rows.map f).find? (fun r => key r = k) = (rows.find? fun r => key r = k).map f := by
  rw [List.find?_map]
  refine congrArg (Option.map f) (congrArg (List.find? · rows) (funext fun r => ?_))
  rw [Function.comp_apply, hf]

theorem key_update {f : ρ → ρ} (hf : ∀ r, key (f r) = key r) (k : κ) (r : ρ) :
    key (if key r = k then f r else r) = key r := by
  split
  · exact hf r
  · rfl

/-- A lookup after a change of the row with the key. -/
theorem find?_update_key (rows : List ρ) {f : ρ → ρ} (hf : ∀ r, key (f r) = key r) (k : κ) :
    (rows.map fun r => if key r = k then f r else r).find? (fun r => key r = k) =
      (rows.find? fun r => key r = k).map f := by
  rw [find?_map_key (key_update hf k)]
  cases hfind : rows.find? fun r => key r = k with
  | none => rfl
  | some r =>
      have hkey : key r = k := by simpa using List.find?_some hfind
      simp [hkey]

/-- A lookup after a change of the row with another key. -/
theorem find?_update_other (rows : List ρ) {f : ρ → ρ} (hf : ∀ r, key (f r) = key r) {k k' : κ}
    (hne : k ≠ k') :
    (rows.map fun r => if key r = k' then f r else r).find? (fun r => key r = k) =
      rows.find? fun r => key r = k := by
  rw [find?_map_key (key_update hf k')]
  cases hfind : rows.find? fun r => key r = k with
  | none => rfl
  | some r =>
      have hkey : key r = k := by simpa using List.find?_some hfind
      simp [hkey, hne]

/-- A lookup by a unique key does not depend on the order. -/
theorem find?_key_of_perm {rows' : List ρ} (h : rows.Perm rows') (hkey : (rows.map key).Nodup)
    (k : κ) : rows.find? (fun r => key r = k) = rows'.find? fun r => key r = k := by
  have hkey' : (rows'.map key).Nodup := (h.map key).nodup_iff.mp hkey
  cases hfind : rows'.find? fun r => key r = k with
  | none =>
      rw [List.find?_eq_none] at hfind ⊢
      exact fun r hr => hfind r (h.mem_iff.mp hr)
  | some a =>
      have hk : key a = k := by simpa using List.find?_some hfind
      rw [← hk]
      exact find?_key_eq hkey (h.mem_iff.mpr (List.mem_of_find?_eq_some hfind))

/-- A selection by key. -/
theorem filter_key_toList (h : (rows.map key).Nodup) (k : κ) :
    rows.filter (fun r => key r = k) = (rows.find? fun r => key r = k).toList := by
  cases hfind : rows.find? fun r => key r = k with
  | none =>
      rw [Option.toList_none, List.filter_eq_nil_iff]
      exact List.find?_eq_none.mp hfind
  | some a =>
      have hk : key a = k := by simpa using List.find?_some hfind
      rw [← hk, filter_key_eq h (List.mem_of_find?_eq_some hfind)]
      rfl

/-- A lookup by a unique key among the rows that meet `p`. -/
theorem filter_find?_key (h : (rows.map key).Nodup) (k : κ) (p : ρ → Bool) :
    (rows.find? fun r => key r = k).filter p = (rows.filter p).find? fun r => key r = k := by
  rw [← List.head?_filter (l := rows.filter p), List.filter_comm, filter_key_toList h]
  cases rows.find? fun r => key r = k with
  | none => rfl
  | some a => by_cases hp : p a = true <;> simp [hp]

/-- Of the rows with a key there is one, or none. -/
theorem map_filter_key (h : (rows.map key).Nodup) (k : κ) (p : ρ → Prop) [DecidablePred p]
    {β : Type} (b : β) :
    (rows.filter fun r => key r = k ∧ p r).map (fun _ => b) =
      if rows.any fun r => key r = k ∧ p r then [b] else [] := by
  have hfilter : (rows.filter fun r => key r = k ∧ p r) =
      (rows.find? fun r => key r = k).toList.filter fun r => p r := by
    rw [← filter_key_toList h, List.filter_filter]
    exact List.filter_congr fun r _ => by rw [Bool.decide_and, Bool.and_comm]
  have hany : (rows.any fun r => key r = k ∧ p r) = true ↔
      (rows.filter fun r => key r = k ∧ p r) ≠ [] := by
    rw [List.any_eq_true, Ne, List.filter_eq_nil_iff]
    simp
  simp only [hany, hfilter]
  cases rows.find? fun r => key r = k with
  | none => rfl
  | some a => by_cases hp : p a <;> simp [hp]

/-- A sum taken key by key. -/
theorem sum_groups {M : Type} [AddCommGroup M] {keys : List κ}
    (hkeys : keys.Nodup) (hmem : ∀ r ∈ rows, key r ∈ keys) (f : ρ → M) :
    (keys.map fun k => ((rows.filter (key · = k)).map f).sum).sum = (rows.map f).sum := by
  induction rows with
  | nil => simp
  | cons r rows ih =>
      have hrow : ∀ k, (((r :: rows).filter (key · = k)).map f).sum =
          if k = key r then f r + ((rows.filter (key · = k)).map f).sum
          else ((rows.filter (key · = k)).map f).sum := by
        intro k
        by_cases hk : key r = k
        · simp [hk]
        · rw [if_neg fun h => hk h.symm]
          simp [hk]
      have hcount : keys.count (key r) = 1 :=
        List.count_eq_one_of_mem hkeys (hmem r List.mem_cons_self)
      rw [funext hrow, List.sum_map_ite_eq, hcount, one_nsmul, add_sub_cancel_right,
        ih fun r' hr' => hmem r' (List.mem_cons_of_mem _ hr'), List.map_cons, List.sum_cons]

/-- The rows that an insert has added. -/
theorem filter_added {added : List ρ} (h : ((rows ++ added).map key).Nodup) :
    (rows ++ added).filter (fun r => ¬ rows.any fun q => key q = key r) = added := by
  rw [List.map_append, List.nodup_append] at h
  have hold : rows.filter (fun r => ¬ rows.any fun q => key q = key r) = [] := by
    rw [List.filter_eq_nil_iff]
    intro r hr
    simpa using ⟨r, hr, rfl⟩
  have hnew : added.filter (fun r => ¬ rows.any fun q => key q = key r) = added := by
    rw [List.filter_eq_self]
    intro r hr
    simpa using fun q hq => h.2.2 _ (List.mem_map_of_mem hq) _ (List.mem_map_of_mem hr)
  rw [List.filter_append, hold, hnew, List.nil_append]

end DianService.Lib
