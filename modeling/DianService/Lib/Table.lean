import DianService.Lib.Rows

/-
  A hash map as the list of its rows in the order it iterates them, one row for each key. The key
  is part of the row.
-/

namespace DianService.Lib

variable {κ ρ : Type}

/-- Rows with at most one of each key. -/
structure Table (key : ρ → κ) where
  rows : List ρ
  nodup : (rows.map key).Nodup

namespace Table

variable {key : ρ → κ}

@[ext] theorem ext {t u : Table key} (h : t.rows = u.rows) : t = u := by
  cases t
  cases u
  cases h
  rfl

/-- `HashMap::default`. -/
def empty (key : ρ → κ) : Table key := ⟨[], List.nodup_nil⟩

theorem map_key_ite {rows : List ρ} {p : ρ → Prop} [DecidablePred p] {f : ρ → ρ}
    (hf : ∀ r, p r → key (f r) = key r) :
    (rows.map fun r => if p r then f r else r).map key = rows.map key := by
  rw [List.map_map]
  refine List.map_congr_left fun r _ => ?_
  show key (if p r then f r else r) = key r
  split
  · exact hf r ‹_›
  · rfl

/-- A change of the rows that meet `p`. -/
def update (t : Table key) (p : ρ → Bool) (f : ρ → ρ) (hf : ∀ r, key (f r) = key r) : Table key where
  rows := t.rows.map fun r => if p r then f r else r
  nodup := by
    rw [map_key_ite fun r _ => hf r]
    exact t.nodup

/-- `retain`. -/
def retain (t : Table key) (p : ρ → Bool) : Table key where
  rows := t.rows.filter p
  nodup := t.nodup.sublist ((List.filter_sublist).map key)

theorem retain_congr {t : Table key} {p q : ρ → Bool} (h : ∀ r ∈ t.rows, p r = q r) :
    t.retain p = t.retain q :=
  ext (List.filter_congr h)

variable [DecidableEq κ]

/-- `get`. -/
def get? (t : Table key) (k : κ) : Option ρ := t.rows.find? fun r => key r = k

/-- `get_mut`, used to change the row. -/
def modify (t : Table key) (k : κ) (f : ρ → ρ) (hf : ∀ r, key (f r) = key r) : Table key :=
  t.update (fun r => key r = k) f hf

theorem mem_of_get? {t : Table key} {k : κ} {r : ρ} (h : t.get? k = some r) :
    r ∈ t.rows ∧ key r = k :=
  ⟨List.mem_of_find?_eq_some h, by simpa using List.find?_some h⟩

theorem get?_of_mem {t : Table key} {r : ρ} (h : r ∈ t.rows) : t.get? (key r) = some r :=
  find?_key_eq t.nodup h

theorem get?_eq_none {t : Table key} {k : κ} : t.get? k = none ↔ ∀ r ∈ t.rows, key r ≠ k := by
  simp [get?]

/-- `insert`: the row takes the place of the one with its key. -/
def insert (t : Table key) (new : ρ) : Table key :=
  if h : (t.get? (key new)).isSome then
    { rows := t.rows.map fun r => if key r = key new then new else r
      nodup := by
        rw [map_key_ite fun r hr => hr.symm]
        exact t.nodup }
  else
    { rows := t.rows ++ [new]
      nodup := by
        rw [List.map_append, List.nodup_append]
        refine ⟨t.nodup, List.nodup_singleton _, ?_⟩
        intro k hk l hl
        obtain ⟨r, hr, rfl⟩ := List.mem_map.mp hk
        rw [List.map_singleton, List.mem_singleton] at hl
        rw [hl]
        exact get?_eq_none.mp (by simpa using h) r hr }

/-- A new key goes to the end. -/
theorem insert_rows_of_new {t : Table key} {new : ρ} (h : ∀ r ∈ t.rows, key r ≠ key new) :
    (t.insert new).rows = t.rows ++ [new] := by
  unfold insert
  rw [dif_neg (by rw [get?_eq_none.mpr h]; simp)]

theorem mem_insert (t : Table key) (new : ρ) : new ∈ (t.insert new).rows := by
  unfold insert
  split
  · rename_i h
    obtain ⟨r, hr⟩ := Option.isSome_iff_exists.mp h
    obtain ⟨hmem, hkey⟩ := mem_of_get? hr
    exact List.mem_map.mpr ⟨r, hmem, if_pos hkey⟩
  · exact List.mem_append_right _ (List.mem_singleton_self new)

theorem get?_modify (t : Table key) (k : κ) (f : ρ → ρ) (hf : ∀ r, key (f r) = key r) :
    (t.modify k f hf).get? k = (t.get? k).map f := by
  simpa [get?, modify, update] using find?_update_key t.rows hf k

theorem get?_modify_other (t : Table key) {k k' : κ} (f : ρ → ρ) (hf : ∀ r, key (f r) = key r)
    (hne : k ≠ k') : (t.modify k' f hf).get? k = t.get? k := by
  simpa [get?, modify, update] using find?_update_other t.rows hf hne

theorem get?_insert (t : Table key) (new : ρ) : (t.insert new).get? (key new) = some new :=
  get?_of_mem (mem_insert t new)

theorem get?_insert_old {t : Table key} {new r : ρ} {k : κ} (hnew : t.get? (key new) = none)
    (h : t.get? k = some r) : (t.insert new).get? k = some r := by
  show (t.insert new).rows.find? _ = _
  rw [insert_rows_of_new (get?_eq_none.mp hnew), List.find?_append]
  show (t.get? k).or _ = _
  rw [h, Option.some_or]

/-! ### The rows that meet a test -/

theorem get?_retain (t : Table key) (p : ρ → Bool) (k : κ) :
    (t.retain p).get? k = (t.get? k).filter p :=
  (filter_find?_key t.nodup k p).symm

/-- A change of rows that keeps the test. -/
theorem retain_modify (t : Table key) {p : ρ → Bool} {k : κ} {f : ρ → ρ}
    (hf : ∀ r, key (f r) = key r) (hp : ∀ r, p (f r) = p r) :
    (t.modify k f hf).retain p = (t.retain p).modify k f hf := by
  apply ext
  show (t.rows.map _).filter p = (t.rows.filter p).map _
  rw [List.filter_map]
  congr 1
  refine List.filter_congr fun r _ => ?_
  rw [Function.comp_apply]
  split
  · exact hp r
  · rfl

/-- A change of a row that does not meet the test. -/
theorem retain_modify_other (t : Table key) {p : ρ → Bool} {k : κ} {f : ρ → ρ}
    (hf : ∀ r, key (f r) = key r) (hp : ∀ r, p (f r) = p r)
    (hk : ∀ r ∈ t.rows, key r = k → p r = false) : (t.modify k f hf).retain p = t.retain p := by
  rw [retain_modify t hf hp]
  apply ext
  refine (List.map_congr_left fun r hr => ?_).trans (List.map_id' _)
  obtain ⟨hmem, hpr⟩ := List.mem_filter.mp hr
  refine if_neg fun hkey => ?_
  rw [hk r hmem (of_decide_eq_true hkey)] at hpr
  exact Bool.false_ne_true hpr

theorem retain_insert_pos {t : Table key} {p : ρ → Bool} (new : ρ)
    (hnew : ∀ r ∈ t.rows, key r ≠ key new) (hp : p new = true) :
    (t.insert new).retain p = (t.retain p).insert new := by
  apply ext
  show (t.insert new).rows.filter p = _
  rw [insert_rows_of_new hnew, insert_rows_of_new fun r hr => hnew r (List.mem_of_mem_filter hr),
    List.filter_append, List.filter_cons_of_pos hp]
  rfl

theorem retain_insert_neg {t : Table key} {p : ρ → Bool} (new : ρ)
    (hnew : ∀ r ∈ t.rows, key r ≠ key new) (hp : p new = false) :
    (t.insert new).retain p = t.retain p := by
  apply ext
  show (t.insert new).rows.filter p = t.rows.filter p
  rw [insert_rows_of_new hnew, List.filter_append, List.filter_cons_of_neg (by simp [hp]),
    List.filter_nil, List.append_nil]

end Table

end DianService.Lib
