import DianService.Ubl.Model

/-
  Ubl: the `BTreeMap` of `tax_subtotals`, by rate. `Grouped` says what the groups are once some
  lines are added: one entry for each rate, in ascending order, with the sums of its lines in the
  order of the lines. It is kept by each line (`Grouped.add`), so it holds of all (`grouped`).
-/

namespace DianService.Ubl

open Lib

/-! ## The map -/

/-- The totals of a rate, zero where it has no entry yet. -/
def entry (groups : List TaxGroup) (rate : Decimal) : Decimal × Decimal :=
  ((groups.find? (·.percent = rate)).map fun group => (group.taxable, group.tax)).getD
    (.zero, .zero)

/-- The rates ascend. -/
def Ascending (groups : List TaxGroup) : Prop :=
  groups.Pairwise fun a b => a.percent.value < b.percent.value

/-- A group in the place of the one of its rate, or else before the greater ones. -/
def putGroup (group : TaxGroup) : List TaxGroup → List TaxGroup
  | [] => [group]
  | first :: groups =>
      if group.percent.value < first.percent.value then group :: first :: groups
      else if group.percent = first.percent then group :: groups
      else first :: putGroup group groups

section Map

variable {groups : List TaxGroup} {group : TaxGroup}

theorem mem_putGroup {g : TaxGroup} (h : g ∈ putGroup group groups) : g = group ∨ g ∈ groups := by
  induction groups with
  | nil => exact .inl (List.mem_singleton.mp h)
  | cons first groups ih =>
      rw [putGroup] at h
      split at h
      · exact List.mem_cons.mp h
      · split at h
        · obtain heq | hmem := List.mem_cons.mp h
          · exact .inl heq
          · exact .inr (List.mem_cons_of_mem _ hmem)
        · obtain rfl | hmem := List.mem_cons.mp h
          · exact .inr List.mem_cons_self
          · exact (ih hmem).imp_right (List.mem_cons_of_mem _)

theorem Ascending.put (h : Ascending groups) : Ascending (putGroup group groups) := by
  induction groups with
  | nil => exact List.pairwise_singleton _ _
  | cons first groups ih =>
      obtain ⟨hfirst, hrest⟩ := List.pairwise_cons.mp h
      rw [putGroup]
      split
      · rename_i hlt
        refine List.pairwise_cons.mpr ⟨fun g hg => ?_, h⟩
        obtain rfl | hmem := List.mem_cons.mp hg
        · exact hlt
        · exact hlt.trans (hfirst g hmem)
      · rename_i hge
        split
        · rename_i heq
          exact List.pairwise_cons.mpr ⟨fun g hg => heq ▸ hfirst g hg, hrest⟩
        · rename_i hne
          refine List.pairwise_cons.mpr ⟨fun g hg => ?_, ih hrest⟩
          obtain rfl | hmem := mem_putGroup hg
          · exact lt_of_le_of_ne (not_lt.mp hge) fun heq => hne (Decimal.ext heq.symm)
          · exact hfirst g hmem

theorem entry_cons (first : TaxGroup) (rate : Decimal) :
    entry (first :: groups) rate =
      if first.percent = rate then (first.taxable, first.tax) else entry groups rate := by
  by_cases h : first.percent = rate <;> simp [entry, h]

/-- A rate below all others has no entry. -/
theorem entry_of_lt {rate : Decimal} (h : ∀ g ∈ groups, rate.value < g.percent.value) :
    entry groups rate = (.zero, .zero) := by
  have hfind : groups.find? (·.percent = rate) = none := by
    refine List.find?_eq_none.mpr fun g hg heq => ?_
    have hlt := h g hg
    rw [of_decide_eq_true heq] at hlt
    exact lt_irrefl _ hlt
  rw [entry, hfind]
  rfl

theorem entry_putGroup (rate : Decimal) :
    entry (putGroup group groups) rate =
      if group.percent = rate then (group.taxable, group.tax) else entry groups rate := by
  induction groups with
  | nil => rw [putGroup, entry_cons]
  | cons first groups ih =>
      rw [putGroup]
      split
      · rw [entry_cons]
      · split
        · rename_i heq
          rw [entry_cons, entry_cons, heq]
          split <;> rfl
        · rename_i hne
          rw [entry_cons, ih, entry_cons]
          by_cases hrate : first.percent = rate
          · rw [if_pos hrate, if_pos hrate, if_neg fun heq => hne (heq.trans hrate.symm)]
          · rw [if_neg hrate, if_neg hrate]

theorem rates_putGroup (rate : Decimal) :
    rate ∈ (putGroup group groups).map TaxGroup.percent ↔
      rate = group.percent ∨ rate ∈ groups.map TaxGroup.percent := by
  induction groups with
  | nil => rw [putGroup, List.map_cons, List.mem_cons]
  | cons first groups ih =>
      rw [putGroup]
      split
      · rw [List.map_cons, List.mem_cons]
      · split
        · rename_i heq
          rw [List.map_cons, List.map_cons, List.mem_cons, List.mem_cons, heq, ← or_assoc, or_self]
        · rw [List.map_cons, List.map_cons, List.mem_cons, List.mem_cons, ih, or_left_comm]

theorem Ascending.entry_of_mem (h : Ascending groups) (hmem : group ∈ groups) :
    entry groups group.percent = (group.taxable, group.tax) := by
  induction groups with
  | nil => cases hmem
  | cons first groups ih =>
      obtain ⟨hfirst, hrest⟩ := List.pairwise_cons.mp h
      rw [entry_cons]
      obtain rfl | hmem := List.mem_cons.mp hmem
      · rw [if_pos rfl]
      · rw [if_neg fun heq => (hfirst group hmem).ne (congrArg Decimal.value heq), ih hrest hmem]

theorem Ascending.nodup (h : Ascending groups) : (groups.map TaxGroup.percent).Nodup :=
  List.pairwise_map.mpr (h.imp fun hlt heq => hlt.ne (congrArg Decimal.value heq))

end Map

/-! ## Adding lines -/

/-- The lines of a rate. -/
def atRate (rate : Decimal) (lines : List ComputedLine) : List ComputedLine :=
  lines.filter (·.tax_percent = rate)

theorem atRate_append (rate : Decimal) (lines rest : List ComputedLine) :
    atRate rate (lines ++ rest) = atRate rate lines ++ atRate rate rest :=
  List.filter_append _ _

section Grouping

variable {A : Arithmetic} {line : ComputedLine} {lines seen : List ComputedLine}
  {groups : List TaxGroup}

/-- A line is added to the totals of its rate. -/
theorem addToGroup_eq (h : Ascending groups) :
    addToGroup A line groups =
      (A.add (entry groups line.tax_percent).1 line.line_extension).bind fun taxable =>
        (A.add (entry groups line.tax_percent).2 line.tax_amount).bind fun tax =>
          some (putGroup ⟨line.tax_percent, taxable, tax⟩ groups) := by
  induction groups with
  | nil => rfl
  | cons first groups ih =>
      obtain ⟨hfirst, hrest⟩ := List.pairwise_cons.mp h
      simp only [addToGroup, putGroup]
      split
      · rename_i hlt
        rw [entry_of_lt fun g hg => ?_]
        · rfl
        · obtain rfl | hmem := List.mem_cons.mp hg
          · exact hlt
          · exact hlt.trans (hfirst g hmem)
      · split
        · rename_i heq
          rw [entry_cons, if_pos heq.symm, heq]
          rfl
        · rename_i hne
          rw [entry_cons, if_neg fun heq => hne heq.symm, ih hrest]
          simp [Option.bind_assoc]

variable (A) in
/-- What the groups are once the lines in `seen` are added. -/
structure Grouped (groups : List TaxGroup) (seen : List ComputedLine) : Prop where
  ascending : Ascending groups
  rates : ∀ rate, rate ∈ groups.map TaxGroup.percent ↔ rate ∈ seen.map ComputedLine.tax_percent
  taxable : ∀ rate, A.sum ((atRate rate seen).map ComputedLine.line_extension) =
    some (entry groups rate).1
  tax : ∀ rate, A.sum ((atRate rate seen).map ComputedLine.tax_amount) =
    some (entry groups rate).2

theorem Grouped.nil : Grouped A [] [] where
  ascending := List.Pairwise.nil
  rates rate := by simp
  taxable rate := rfl
  tax rate := rfl

/-- The amounts of a rate, with one more line. -/
theorem atRate_concat (f : ComputedLine → Decimal) (rate : Decimal) :
    (atRate rate (seen ++ [line])).map f =
      if line.tax_percent = rate then (atRate rate seen).map f ++ [f line]
      else (atRate rate seen).map f := by
  rw [atRate_append]
  by_cases h : line.tax_percent = rate <;> simp [atRate, h]

theorem Grouped.add {groups' : List TaxGroup} (h : Grouped A groups seen)
    (hadd : addToGroup A line groups = some groups') : Grouped A groups' (seen ++ [line]) := by
  rw [addToGroup_eq h.ascending] at hadd
  obtain ⟨taxable, htaxable, hadd⟩ := Option.bind_eq_some_iff.mp hadd
  obtain ⟨tax, htax, hadd⟩ := Option.bind_eq_some_iff.mp hadd
  cases hadd
  refine ⟨h.ascending.put, fun rate => ?_, fun rate => ?_, fun rate => ?_⟩
  · rw [rates_putGroup, h.rates, List.map_append, List.mem_append, or_comm]
    simp
  · rw [atRate_concat, entry_putGroup]
    split
    · rename_i heq
      rw [Arithmetic.sum_concat, h.taxable, Option.bind_some, ← heq, htaxable]
    · exact h.taxable rate
  · rw [atRate_concat, entry_putGroup]
    split
    · rename_i heq
      rw [Arithmetic.sum_concat, h.tax, Option.bind_some, ← heq, htax]
    · exact h.tax rate

theorem Grouped.groupLines {groups' : List TaxGroup} (h : Grouped A groups seen)
    (hgroups : groupLines A groups lines = some groups') : Grouped A groups' (seen ++ lines) := by
  induction lines generalizing groups seen with
  | nil =>
      cases hgroups
      rwa [List.append_nil]
  | cons line lines ih =>
      obtain ⟨next, hnext, hrest⟩ := Option.bind_eq_some_iff.mp hgroups
      have hall := ih (h.add hnext) hrest
      rwa [List.append_assoc, List.singleton_append] at hall

/-- The groups of all lines. -/
theorem grouped (h : Ubl.groupLines A [] lines = some groups) : Grouped A groups lines :=
  Grouped.nil.groupLines h

/-- Where no rate overflows, adding the lines does not. -/
theorem Grouped.groupLines_ne_none (h : Grouped A groups seen)
    (hsums : ∀ rate, A.sum ((atRate rate (seen ++ lines)).map ComputedLine.line_extension) ≠ none ∧
      A.sum ((atRate rate (seen ++ lines)).map ComputedLine.tax_amount) ≠ none) :
    Ubl.groupLines A groups lines ≠ none := by
  induction lines generalizing groups seen with
  | nil => exact Option.some_ne_none _
  | cons line lines ih =>
      -- the sums of the line's rate, with the line, are part of the sums of all
      have hpart : ∀ f : ComputedLine → Decimal,
          A.sum ((atRate line.tax_percent (seen ++ line :: lines)).map f) ≠ none →
            A.sum ((atRate line.tax_percent seen).map f ++ [f line]) ≠ none := by
        intro f hne hnone
        rw [← List.singleton_append, ← List.append_assoc, atRate_append, List.map_append,
          atRate_concat, if_pos rfl] at hne
        exact hne (Arithmetic.sum_append_eq_none hnone)
      have htaxable := hpart _ (hsums line.tax_percent).1
      have htax := hpart _ (hsums line.tax_percent).2
      rw [Arithmetic.sum_concat, h.taxable, Option.bind_some] at htaxable
      rw [Arithmetic.sum_concat, h.tax, Option.bind_some] at htax
      obtain ⟨taxable, htaxable⟩ := Option.ne_none_iff_exists'.mp htaxable
      obtain ⟨tax, htax⟩ := Option.ne_none_iff_exists'.mp htax
      have hadd : addToGroup A line groups = _ := addToGroup_eq h.ascending
      rw [htaxable, htax, Option.bind_some, Option.bind_some] at hadd
      have hnext := h.add hadd
      rw [Ubl.groupLines, hadd, Option.bind_eq_bind, Option.bind_some]
      apply ih hnext
      intro rate
      rw [List.append_assoc, List.singleton_append]
      exact hsums rate

end Grouping

end DianService.Ubl
