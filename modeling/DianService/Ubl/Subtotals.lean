import DianService.Ubl.Generate
import DianService.Ubl.Sums

/-
  Ubl: an accepted payload has a document. `validate` adds up all lines, and the template asks for
  the sums of each rate; none of the latter is out of range, since no amount is negative and
  rounding keeps the order of the running totals.
-/

namespace DianService.Ubl

open Lib Lib.Checked

variable {A : Arithmetic} {net tax total : Decimal} {computed : List ComputedLine}
  {input : CommercialInput}

def ComputedLine.Nonneg (line : ComputedLine) : Prop :=
  0 ≤ line.line_extension.value ∧ 0 ≤ line.tax_amount.value

theorem computeEach_nonneg {n : Nat} {lines : List LinePayload}
    (h : Returns (computeEach A n lines) computed) : ∀ line ∈ computed, line.Nonneg := by
  induction lines generalizing n computed with
  | nil =>
    obtain rfl := returns_pure.mp h
    exact List.forall_mem_nil _
  | cons first lines ih =>
    obtain ⟨input, pair, rest, hread, hprice, hrest, rfl⟩ := computeEach_cons.mp h
    exact List.forall_mem_cons.mpr ⟨priceLine_nonneg hread hprice, ih hrest⟩

theorem compute_nonneg {lines : Option (List LinePayload)} (hnet : 0 ≤ net.value)
    (htax : 0 ≤ tax.value) (h : Returns (compute A lines net tax) computed) :
    ∀ line ∈ computed, line.Nonneg := by
  cases lines with
  | none =>
    obtain ⟨percent, -, rfl⟩ := compute_none.mp h
    exact List.forall_mem_singleton.mpr ⟨hnet, htax⟩
  | some lines => exact computeEach_nonneg (compute_some.mp h).2.1

theorem amount_nonneg {field : String} {value : F64} {d : Decimal}
    (h : amount field value = .ok d) : 0 ≤ d.value := (toAmount_ok (amount_ok.mp h)).1

/-- Where all lines add up, those of each rate do. -/
theorem groupLines_of_compute {lines : Option (List LinePayload)} (hnet : 0 ≤ net.value)
    (htax : 0 ≤ tax.value) (h : Returns (compute A lines net tax) computed) :
    ∃ groups, groupLines A [] computed = some groups := by
  obtain ⟨hextensions, htaxes⟩ := compute_sums h
  have hnonneg := compute_nonneg hnet htax h
  have hpart : ∀ (f : ComputedLine → Decimal) (rate d : Decimal),
      (∀ line ∈ computed, 0 ≤ (f line).value) → A.sum (computed.map f) = some d →
        A.sum ((atRate rate computed).map f) ≠ none := by
    intro f rate d hf hsum
    have hall : A.sumFrom .zero (computed.map f) ≠ none := by
      rw [show A.sumFrom .zero (computed.map f) = some d from hsum]
      exact Option.some_ne_none d
    exact Arithmetic.sumFrom_filter_ne_none hf (le_refl 0) (le_refl _) hall
  refine Option.ne_none_iff_exists'.mp (Grouped.nil.groupLines_ne_none fun rate => ?_)
  rw [List.nil_append]
  exact ⟨hpart _ rate _ (fun line hline => (hnonneg line hline).1) hextensions,
    hpart _ rate _ (fun line hline => (hnonneg line hline).2) htaxes⟩

/-- The texts of the document are those of the input. -/
structure CommercialDocument.Of (doc : CommercialDocument) (input : CommercialInput)
    (total : Decimal) : Prop where
  id : doc.id = input.id
  uuid : doc.uuid = input.uuid
  issue_date : doc.issue_date = input.issue_date
  supplier : doc.supplier = input.supplier
  customer : doc.customer = input.customer
  total : doc.total = formatAmount total

theorem commercialDocument_of_accepted (h : Accepted A input net tax total computed) :
    ∃ doc, Returns (commercialDocument A input) doc ∧ doc.Of input total := by
  obtain ⟨groups, hgroups⟩ := groupLines_of_compute (amount_nonneg h.net) (amount_nonneg h.tax)
    h.lines
  simp only [commercialDocument, computeLines, taxSubtotals, returns_bind, returns_except,
    returns_option, returns_pure]
  exact ⟨_, ⟨net, h.net, tax, h.tax, total, h.total, _, ⟨computed, h.lines, rfl⟩, _,
    ⟨computed, h.lines, groups, hgroups, rfl⟩, rfl⟩, rfl, rfl, rfl, rfl, rfl, rfl⟩

end DianService.Ubl
