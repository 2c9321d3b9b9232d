import DianService.Lib.Rows
import DianService.Ubl.Document
import DianService.Ubl.Groups
import DianService.Ubl.Overflow

/-
  Ubl: whether the amounts of an accepted document add up. The sums are checked with the same
  `Decimal` additions that make them, and an addition drops the digits that do not fit: then a
  document is accepted whose printed amounts do not add up. `LosslessSums` is when no digit is
  missing in the end. For the lines it is enough that they add up to less than 7.9 × 10^26
  (`losslessLines_of_le`).
-/

namespace DianService.Ubl

open Lib Lib.Checked

/-! ## What is printed -/

/-- The number that a text denotes. -/
def shown (text : String) : ℚ := numeralValue text.toList

/-- The lines of a rate. -/
def CommercialDocument.linesAt (doc : CommercialDocument) (percent : String) : List LineData :=
  doc.lines.filter fun line => shown line.tax_percent = shown percent

/-- The printed amounts add up, in all and rate by rate. -/
structure CommercialDocument.AddsUp (doc : CommercialDocument)
    (lines : Option (List LinePayload)) : Prop where
  total : shown doc.total = shown doc.net + shown doc.tax
  ids : doc.lines.map LineData.id = List.range' 1 doc.lines.length
  order : doc.lines.map LineData.description =
    (lines.map fun lines => lines.map LinePayload.description).getD [SYNTHETIC_LINE_DESCRIPTION]
  net : (doc.lines.map fun line => shown line.line_extension).sum = shown doc.net
  tax : (doc.lines.map fun line => shown line.tax_amount).sum = shown doc.tax
  ascending : doc.tax_subtotals.Pairwise fun a b => shown a.percent < shown b.percent
  rates : ∀ rate, rate ∈ doc.tax_subtotals.map (fun subtotal => shown subtotal.percent) ↔
    rate ∈ doc.lines.map fun line => shown line.tax_percent
  taxable_of_rate : ∀ subtotal ∈ doc.tax_subtotals, shown subtotal.taxable =
    ((doc.linesAt subtotal.percent).map fun line => shown line.line_extension).sum
  tax_of_rate : ∀ subtotal ∈ doc.tax_subtotals, shown subtotal.tax =
    ((doc.linesAt subtotal.percent).map fun line => shown line.tax_amount).sum
  subtotals_net : (doc.tax_subtotals.map fun subtotal => shown subtotal.taxable).sum = shown doc.net
  subtotals_tax : (doc.tax_subtotals.map fun subtotal => shown subtotal.tax).sum = shown doc.tax

/-- The amounts of a computed line, with two decimals. -/
structure LineData.Prints (data : LineData) (line : ComputedLine) : Prop where
  line_extension : Shows data.line_extension 2 line.line_extension.value
  tax_amount : Shows data.tax_amount 2 line.tax_amount.value
  tax_percent : Shows data.tax_percent 2 line.tax_percent.value

structure TaxSubtotalData.Prints (data : TaxSubtotalData) (group : TaxGroup) : Prop where
  taxable : Shows data.taxable 2 group.taxable.value
  tax : Shows data.tax 2 group.tax.value
  percent : Shows data.percent 2 group.percent.value

section Statement

variable (A : Arithmetic)

/-- The amounts of a document, as computed, with two decimals. -/
def CommercialDocument.Prints (doc : CommercialDocument) (net_amount tax_amount total_amount : F64)
    (lines : Option (List LinePayload)) : Prop :=
  ∃ net tax total computed groups, amount "net_amount" net_amount = .ok net ∧
    amount "tax_amount" tax_amount = .ok tax ∧ amount "total_amount" total_amount = .ok total ∧
    Returns (compute A lines net tax) computed ∧ groupLines A [] computed = some groups ∧
    Shows doc.net 2 net.value ∧ Shows doc.tax 2 tax.value ∧ Shows doc.total 2 total.value ∧
    List.Forall₂ LineData.Prints doc.lines computed ∧
    List.Forall₂ TaxSubtotalData.Prints doc.tax_subtotals groups

/-- The document is made, prints what is computed, and adds up. -/
def InvoicePayload.Sums (p : InvoicePayload) (code : String) : Prop :=
  ∃ doc, Returns (p.document A code) doc ∧
    doc.Prints A p.net_amount p.tax_amount p.total_amount p.lines ∧ doc.AddsUp p.lines

def SupportDocumentPayload.Sums (p : SupportDocumentPayload) (code : String) : Prop :=
  ∃ doc, Returns (p.document A code) doc ∧
    doc.Prints A p.net_amount p.tax_amount p.total_amount p.lines ∧ doc.AddsUp p.lines

/-- The amounts of a line, as a group of its own. -/
def LinePayload.Amounts (line : LinePayload) (own : TaxGroup) : Prop :=
  ∃ input, line.Says input ∧ own.percent = input.percent ∧
    priceLine A input = some (own.taxable, own.tax)

/-- Adding up the lines, one after the other, loses nothing. -/
def ExactTotals (amounts : List TaxGroup) : Prop :=
  A.SumsExactly (amounts.map TaxGroup.taxable) ∧ A.SumsExactly (amounts.map TaxGroup.tax)

/-- Nor does adding up those of a rate. -/
def LosslessLines (lines : List LinePayload) : Prop :=
  ∃ amounts, List.Forall₂ (LinePayload.Amounts A) lines amounts ∧ ExactTotals A amounts ∧
    ∀ rate, ExactTotals A (amounts.filter fun own => own.percent = rate)

def LosslessSums (net_amount tax_amount : F64) (lines : Option (List LinePayload)) : Prop :=
  (∃ net tax, amount "net_amount" net_amount = .ok net ∧ amount "tax_amount" tax_amount = .ok tax ∧
    Fits (net.value + tax.value)) ∧ ∀ lines' ∈ lines, LosslessLines A lines'

end Statement

/-! ## What is computed -/

section Computed

variable {A : Arithmetic} {net tax : Decimal} {computed : List ComputedLine}

theorem shown_eq {text : String} {places : ℕ} {x : ℚ} (h : Shows text places x) : shown text = x :=
  h.value

/-- The data of a line are its amounts, formatted. -/
structure ComputedLine.Formatted (line : ComputedLine) : Prop where
  line_extension : line.data.line_extension = formatAmount line.line_extension ∧
    HasPlaces MAX_SCALE line.line_extension.value
  tax_amount : line.data.tax_amount = formatAmount line.tax_amount ∧
    HasPlaces MAX_SCALE line.tax_amount.value
  tax_percent : line.data.tax_percent = formatAmount line.tax_percent ∧
    HasPlaces MAX_SCALE line.tax_percent.value

theorem ComputedLine.Formatted.prints {line : ComputedLine} (h : line.Formatted) :
    line.data.Prints line where
  line_extension := h.line_extension.1 ▸ shows_formatAmount h.line_extension.2
  tax_amount := h.tax_amount.1 ▸ shows_formatAmount h.tax_amount.2
  tax_percent := h.tax_percent.1 ▸ shows_formatAmount h.tax_percent.2

/-- Both amounts of a line are rounded. -/
theorem priceLine_places {input : LineInput} {pair : Decimal × Decimal}
    (h : priceLine A input = some pair) :
    HasPlaces MAX_SCALE pair.1.value ∧ HasPlaces MAX_SCALE pair.2.value := by
  obtain ⟨product, -, h⟩ := Option.bind_eq_some_iff.mp h
  obtain ⟨taxed, -, h⟩ := Option.bind_eq_some_iff.mp h
  obtain ⟨quotient, -, h⟩ := Option.bind_eq_some_iff.mp h
  cases h
  exact ⟨hasPlaces_roundPlaces 2 _, hasPlaces_roundPlaces 2 _⟩

theorem computeEach_formatted {n : Nat} {lines : List LinePayload}
    (h : Returns (computeEach A n lines) computed) : ∀ line ∈ computed, line.Formatted := by
  induction lines generalizing n computed with
  | nil =>
      obtain rfl := returns_pure.mp h
      exact fun line hline => by cases hline
  | cons first lines ih =>
      obtain ⟨input, pair, rest, hread, hprice, hrest, rfl⟩ := computeEach_cons.mp h
      intro line hline
      obtain rfl | hmem := List.mem_cons.mp hline
      · obtain ⟨hextension, htax⟩ := priceLine_places hprice
        exact ⟨⟨rfl, hextension⟩, ⟨rfl, htax⟩, ⟨rfl, hread.percent.places⟩⟩
      · exact ih hrest line hmem

/-- The lines are numbered and described in order. -/
theorem computeEach_order {n : Nat} {lines : List LinePayload}
    (h : Returns (computeEach A n lines) computed) :
    computed.map (fun line => line.data.id) = List.range' n computed.length ∧
      computed.map (fun line => line.data.description) = lines.map LinePayload.description := by
  induction lines generalizing n computed with
  | nil =>
      obtain rfl := returns_pure.mp h
      exact ⟨rfl, rfl⟩
  | cons first lines ih =>
      obtain ⟨input, pair, rest, -, -, hrest, rfl⟩ := computeEach_cons.mp h
      obtain ⟨hids, hdescriptions⟩ := ih hrest
      constructor
      · rw [List.map_cons, hids, List.length_cons, List.range'_succ]
        rfl
      · rw [List.map_cons, List.map_cons, hdescriptions]
        rfl

/-- The amounts of the lines are those of the computed ones. -/
theorem computeEach_amounts {n : Nat} {lines : List LinePayload}
    (h : Returns (computeEach A n lines) computed) :
    List.Forall₂ (LinePayload.Amounts A) lines
      (computed.map fun c => ⟨c.tax_percent, c.line_extension, c.tax_amount⟩) := by
  induction lines generalizing n computed with
  | nil =>
      obtain rfl := returns_pure.mp h
      exact .nil
  | cons first lines ih =>
      obtain ⟨input, pair, rest, hread, hprice, hrest, rfl⟩ := computeEach_cons.mp h
      exact .cons ⟨input, hread, rfl, hprice⟩ (ih hrest)

theorem LinePayload.Amounts.unique {line : LinePayload} {own own' : TaxGroup}
    (h : line.Amounts A own) (h' : line.Amounts A own') : own = own' := by
  obtain ⟨input, hread, hpercent, hprice⟩ := h
  obtain ⟨input', hread', hpercent', hprice'⟩ := h'
  obtain rfl := hread.unique hread'
  rw [hprice] at hprice'
  obtain ⟨percent, taxable, tax⟩ := own
  obtain ⟨percent', taxable', tax'⟩ := own'
  cases hprice'
  cases hpercent
  cases hpercent'
  rfl

theorem amounts_unique {lines : List LinePayload} {amounts amounts' : List TaxGroup}
    (h : List.Forall₂ (LinePayload.Amounts A) lines amounts)
    (h' : List.Forall₂ (LinePayload.Amounts A) lines amounts') : amounts = amounts' := by
  induction h generalizing amounts' with
  | nil =>
      cases h'
      rfl
  | cons hline _ ih =>
      cases h' with
      | cons hline' hrest' => rw [hline.unique hline', ih hrest']

theorem checkTotals_returns {u : Unit} : Returns (checkTotals A net tax computed) u ↔
    A.sum (computed.map ComputedLine.line_extension) = some net ∧
      A.sum (computed.map ComputedLine.tax_amount) = some tax := by
  cases hnet : A.sum (computed.map ComputedLine.line_extension) with
  | none => exact iff_of_false (by simp [checkTotals, hnet]) (by simp)
  | some lines_net =>
      cases htax : A.sum (computed.map ComputedLine.tax_amount) with
      | none => exact iff_of_false (by simp [checkTotals, hnet, htax]) (by simp)
      | some lines_tax =>
          rw [Option.some.injEq, Option.some.injEq]
          by_cases hn : lines_net.value = net.value
          · by_cases ht : lines_tax.value = tax.value
            · refine iff_of_true ?_ ⟨Decimal.ext hn, Decimal.ext ht⟩
              simp [checkTotals, hnet, htax, hn, ht]
            · refine iff_of_false ?_ fun h => ht (congrArg Decimal.value h.2)
              simp [checkTotals, hnet, htax, hn, ht]
          · refine iff_of_false ?_ fun h => hn (congrArg Decimal.value h.1)
            simp [checkTotals, hnet, htax, hn]

theorem compute_none : Returns (compute A none net tax) computed ↔
    ∃ percent, syntheticPercent A net tax = some percent ∧
      computed = [syntheticLine net tax percent] := by
  simp only [compute, returns_bind, returns_option, returns_pure]
  exact exists_congr fun percent => and_congr_right fun _ => eq_comm

theorem compute_some {lines : List LinePayload} :
    Returns (compute A (some lines) net tax) computed ↔
      (lines ≠ [] ∧ lines.length ≤ MAX_LINES) ∧ Returns (computeEach A 1 lines) computed ∧
        A.sum (computed.map ComputedLine.line_extension) = some net ∧
        A.sum (computed.map ComputedLine.tax_amount) = some tax := by
  by_cases hlength : lines = [] ∨ MAX_LINES < lines.length
  · refine iff_of_false (by simp [compute, hlength]) fun h => ?_
    exact hlength.elim h.1.1 (not_lt.mpr h.1.2)
  · have hrun : Returns (compute A (some lines) net tax) computed ↔
        ∃ c, Returns (computeEach A 1 lines) c ∧ ∃ u, Returns (checkTotals A net tax c) u ∧
          c = computed := by
      simp [compute, hlength]
    push Not at hlength
    rw [hrun]
    constructor
    · rintro ⟨c, hc, u, hu, rfl⟩
      exact ⟨hlength, hc, checkTotals_returns.mp hu⟩
    · rintro ⟨-, hc, hsums⟩
      exact ⟨computed, hc, (), checkTotals_returns.mpr hsums, rfl⟩

/-- A rate of the totals has two decimals, as the rates of lines. -/
theorem syntheticPercent_places {percent : Decimal}
    (h : syntheticPercent A net tax = some percent) : HasPlaces MAX_SCALE percent.value := by
  unfold syntheticPercent at h
  split at h
  · cases h
    exact ⟨0, by simp⟩
  · obtain ⟨product, -, h⟩ := Option.bind_eq_some_iff.mp h
    obtain ⟨quotient, -, h⟩ := Option.bind_eq_some_iff.mp h
    cases h
    exact hasPlaces_roundPlaces 2 _

theorem compute_formatted {lines : Option (List LinePayload)}
    (hnet : HasPlaces MAX_SCALE net.value) (htax : HasPlaces MAX_SCALE tax.value)
    (h : Returns (compute A lines net tax) computed) : ∀ line ∈ computed, line.Formatted := by
  cases lines with
  | none =>
      obtain ⟨percent, hpercent, rfl⟩ := compute_none.mp h
      intro line hline
      obtain rfl := List.mem_singleton.mp hline
      exact ⟨⟨rfl, hnet⟩, ⟨rfl, htax⟩, ⟨rfl, syntheticPercent_places hpercent⟩⟩
  | some lines => exact computeEach_formatted (compute_some.mp h).2.1

theorem compute_order {lines : Option (List LinePayload)}
    (h : Returns (compute A lines net tax) computed) :
    computed.map (fun line => line.data.id) = List.range' 1 computed.length ∧
      computed.map (fun line => line.data.description) =
        (lines.map fun lines => lines.map LinePayload.description).getD
          [SYNTHETIC_LINE_DESCRIPTION] := by
  cases lines with
  | none =>
      obtain ⟨percent, -, rfl⟩ := compute_none.mp h
      exact ⟨rfl, rfl⟩
  | some lines => exact computeEach_order (compute_some.mp h).2.1

/-- The totals, as the additions of the lines give them. -/
theorem compute_sums {lines : Option (List LinePayload)}
    (h : Returns (compute A lines net tax) computed) :
    A.sum (computed.map ComputedLine.line_extension) = some net ∧
      A.sum (computed.map ComputedLine.tax_amount) = some tax := by
  cases lines with
  | none =>
      obtain ⟨percent, -, rfl⟩ := compute_none.mp h
      exact ⟨Arithmetic.sum_singleton net, Arithmetic.sum_singleton tax⟩
  | some lines => exact (compute_some.mp h).2.2

end Computed

/-! ## The document -/

section Filled

variable {A : Arithmetic} {net tax total : Decimal} {computed : List ComputedLine}
  {groups : List TaxGroup} {doc : CommercialDocument} {input : CommercialInput}

/-- The amounts of a document, as the checks of its payload leave them. -/
structure Accepted (A : Arithmetic) (input : CommercialInput) (net tax total : Decimal)
    (computed : List ComputedLine) : Prop where
  sum : A.add net tax = some total
  lines : Returns (compute A input.lines net tax) computed
  net : amount "net_amount" input.net_amount = .ok net
  tax : amount "tax_amount" input.tax_amount = .ok tax
  total : amount "total_amount" input.total_amount = .ok total

theorem amount_places {field : String} {value : F64} {d : Decimal}
    (h : amount field value = .ok d) : HasPlaces MAX_SCALE d.value :=
  (toAmount_ok (amount_ok.mp h)).2

/-- Where the amounts of a document come from. -/
structure CommercialDocument.Filled (doc : CommercialDocument) (net tax total : Decimal)
    (computed : List ComputedLine) (groups : List TaxGroup) : Prop where
  lines : doc.lines = computed.map ComputedLine.data
  tax_subtotals : doc.tax_subtotals = groups.map TaxGroup.data
  net : doc.net = formatAmount net
  tax : doc.tax = formatAmount tax
  total : doc.total = formatAmount total

theorem commercialDocument_returns (h : Accepted A input net tax total computed)
    (hdoc : Returns (commercialDocument A input) doc) :
    ∃ groups, groupLines A [] computed = some groups ∧
      doc.Filled net tax total computed groups := by
  simp only [commercialDocument, computeLines, taxSubtotals, returns_bind, returns_except,
    returns_option, returns_pure] at hdoc
  obtain ⟨_, hnet, _, htax, _, htotal, _, ⟨c, hc, rfl⟩, _, ⟨c', hc', groups, hgroups, rfl⟩, rfl⟩ :=
    hdoc
  rw [h.net] at hnet
  rw [h.tax] at htax
  rw [h.total] at htotal
  cases hnet
  cases htax
  cases htotal
  obtain rfl := h.lines.unique hc
  obtain rfl := h.lines.unique hc'
  exact ⟨groups, hgroups, rfl, rfl, rfl, rfl, rfl⟩

theorem commercialDocument_of_groups (h : Accepted A input net tax total computed)
    (hgroups : groupLines A [] computed = some groups) :
    ∃ doc, Returns (commercialDocument A input) doc := by
  simp only [commercialDocument, computeLines, taxSubtotals, returns_bind, returns_except,
    returns_option, returns_pure]
  exact ⟨_, net, h.net, tax, h.tax, total, h.total, _, ⟨computed, h.lines, rfl⟩, _,
    ⟨computed, h.lines, groups, hgroups, rfl⟩, rfl⟩

/-- The groups add up amounts with two decimals. -/
theorem groups_print (hgrouped : Grouped A groups computed)
    (hlines : ∀ line ∈ computed, line.Formatted) {group : TaxGroup} (hgroup : group ∈ groups) :
    group.data.Prints group := by
  have hentry := hgrouped.ascending.entry_of_mem hgroup
  have htaxable := hgrouped.taxable group.percent
  have htax := hgrouped.tax group.percent
  rw [hentry] at htaxable htax
  have hmem : ∀ line ∈ atRate group.percent computed, line.Formatted := fun line hline =>
    hlines line (List.mem_of_mem_filter hline)
  have hpercent : group.percent ∈ computed.map ComputedLine.tax_percent :=
    (hgrouped.rates _).mp (List.mem_map_of_mem hgroup)
  obtain ⟨line, hline, heq⟩ := List.mem_map.mp hpercent
  refine ⟨shows_formatAmount ?_, shows_formatAmount ?_, shows_formatAmount ?_⟩
  · refine Arithmetic.hasPlaces_sum htaxable fun d hd => ?_
    obtain ⟨line, hline, rfl⟩ := List.mem_map.mp hd
    exact (hmem line hline).line_extension.2
  · refine Arithmetic.hasPlaces_sum htax fun d hd => ?_
    obtain ⟨line, hline, rfl⟩ := List.mem_map.mp hd
    exact (hmem line hline).tax_amount.2
  · rw [← heq]
    exact (hlines line hline).tax_percent.2

theorem Accepted.formatted (h : Accepted A input net tax total computed) :
    ∀ line ∈ computed, line.Formatted :=
  compute_formatted (amount_places h.net) (amount_places h.tax) h.lines

theorem CommercialDocument.Filled.prints (h : Accepted A input net tax total computed)
    (hgroups : groupLines A [] computed = some groups)
    (hfilled : doc.Filled net tax total computed groups) :
    doc.Prints A input.net_amount input.tax_amount input.total_amount input.lines := by
  refine ⟨net, tax, total, computed, groups, h.net, h.tax, h.total, h.lines, hgroups,
    ?_, ?_, ?_, ?_, ?_⟩
  · rw [hfilled.net]
    exact shows_formatAmount (amount_places h.net)
  · rw [hfilled.tax]
    exact shows_formatAmount (amount_places h.tax)
  · rw [hfilled.total]
    exact shows_formatAmount (amount_places h.total)
  · rw [hfilled.lines, List.forall₂_map_left_iff]
    exact List.forall₂_same.mpr fun line hline => (h.formatted line hline).prints
  · rw [hfilled.tax_subtotals, List.forall₂_map_left_iff]
    exact List.forall₂_same.mpr fun group hgroup =>
      groups_print (grouped hgroups) h.formatted hgroup

/-! ## What the amounts denote -/

/-- The exact sum of an amount of the lines. -/
def exactSum (f : ComputedLine → Decimal) (lines : List ComputedLine) : ℚ :=
  (lines.map fun line => (f line).value).sum

theorem sumsExactly_map {f : ComputedLine → Decimal} {lines : List ComputedLine} {d : Decimal}
    (h : A.sum (lines.map f) = some d) :
    A.SumsExactly (lines.map f) ↔ d.value = exactSum f lines := by
  rw [Arithmetic.sumsExactly_iff h, List.map_map]
  rfl

theorem sum_shown {lines : List ComputedLine} {text : LineData → String}
    {f : ComputedLine → Decimal} (h : ∀ line ∈ lines, shown (text line.data) = (f line).value) :
    ((lines.map ComputedLine.data).map fun line => shown (text line)).sum = exactSum f lines := by
  rw [List.map_map]
  exact congrArg List.sum (List.map_congr_left h)

/-- The lines printed with a rate are those computed with it. -/
theorem CommercialDocument.Filled.linesAt (hfilled : doc.Filled net tax total computed groups)
    (hgrouped : Grouped A groups computed) (hlines : ∀ line ∈ computed, line.Formatted)
    {group : TaxGroup} (hgroup : group ∈ groups) :
    doc.linesAt group.data.percent = (atRate group.percent computed).map ComputedLine.data := by
  rw [CommercialDocument.linesAt, hfilled.lines, List.filter_map]
  refine congrArg (List.map _) (List.filter_congr fun line hline => decide_eq_decide.mpr ?_)
  rw [shown_eq (hlines line hline).prints.tax_percent,
    shown_eq (groups_print hgrouped hlines hgroup).percent]
  exact ⟨Decimal.ext, congrArg Decimal.value⟩

/-- What adding up the computed lines must not lose. -/
structure Lossless (A : Arithmetic) (computed : List ComputedLine) : Prop where
  net : A.SumsExactly (computed.map ComputedLine.line_extension)
  tax : A.SumsExactly (computed.map ComputedLine.tax_amount)
  taxable_of_rate : ∀ rate,
    A.SumsExactly ((atRate rate computed).map ComputedLine.line_extension)
  tax_of_rate : ∀ rate, A.SumsExactly ((atRate rate computed).map ComputedLine.tax_amount)

/-- The exact sum of a group's lines is what the group must be. -/
theorem Grouped.sumsExactly (h : Grouped A groups computed) {group : TaxGroup}
    (hgroup : group ∈ groups) :
    (A.SumsExactly ((atRate group.percent computed).map ComputedLine.line_extension) ↔
      group.taxable.value = exactSum ComputedLine.line_extension (atRate group.percent computed)) ∧
    (A.SumsExactly ((atRate group.percent computed).map ComputedLine.tax_amount) ↔
      group.tax.value = exactSum ComputedLine.tax_amount (atRate group.percent computed)) := by
  have hentry := h.ascending.entry_of_mem hgroup
  have htaxable := h.taxable group.percent
  have htax := h.tax group.percent
  rw [hentry] at htaxable htax
  exact ⟨sumsExactly_map htaxable, sumsExactly_map htax⟩

/-- The sums of all rates are the sums of all lines. -/
theorem Grouped.sum_groups (h : Grouped A groups computed) (f : ComputedLine → Decimal)
    {g : TaxGroup → Decimal}
    (hg : ∀ group ∈ groups, (g group).value = exactSum f (atRate group.percent computed)) :
    (groups.map fun group => (g group).value).sum = exactSum f computed := by
  have hrates : ∀ line ∈ computed, line.tax_percent ∈ groups.map TaxGroup.percent :=
    fun line hline => (h.rates _).mpr (List.mem_map_of_mem hline)
  have hall := Lib.sum_groups h.ascending.nodup hrates fun line => (f line).value
  rw [List.map_map] at hall
  rw [List.map_congr_left hg]
  exact hall

theorem shown_subtotals (hgrouped : Grouped A groups computed)
    (hlines : ∀ line ∈ computed, line.Formatted) :
    (∀ group ∈ groups, shown group.data.taxable = group.taxable.value) ∧
      (∀ group ∈ groups, shown group.data.tax = group.tax.value) ∧
        ∀ group ∈ groups, shown group.data.percent = group.percent.value :=
  ⟨fun _ h => shown_eq (groups_print hgrouped hlines h).taxable,
    fun _ h => shown_eq (groups_print hgrouped hlines h).tax,
    fun _ h => shown_eq (groups_print hgrouped hlines h).percent⟩

theorem CommercialDocument.Filled.shown_totals (h : Accepted A input net tax total computed)
    (hfilled : doc.Filled net tax total computed groups) :
    shown doc.net = net.value ∧ shown doc.tax = tax.value ∧ shown doc.total = total.value := by
  rw [hfilled.net, hfilled.tax, hfilled.total]
  exact ⟨shown_eq (shows_formatAmount (amount_places h.net)),
    shown_eq (shows_formatAmount (amount_places h.tax)),
    shown_eq (shows_formatAmount (amount_places h.total))⟩

theorem shown_lines (hlines : ∀ line ∈ computed, line.Formatted) :
    (∀ line ∈ computed, shown line.data.line_extension = line.line_extension.value) ∧
      (∀ line ∈ computed, shown line.data.tax_amount = line.tax_amount.value) ∧
        ∀ line ∈ computed, shown line.data.tax_percent = line.tax_percent.value :=
  ⟨fun line hline => shown_eq (hlines line hline).prints.line_extension,
    fun line hline => shown_eq (hlines line hline).prints.tax_amount,
    fun line hline => shown_eq (hlines line hline).prints.tax_percent⟩

/-- What the lines of a rate print adds up to what they have. -/
theorem CommercialDocument.Filled.sum_linesAt
    (hfilled : doc.Filled net tax total computed groups) (hgrouped : Grouped A groups computed)
    (hlines : ∀ line ∈ computed, line.Formatted) {group : TaxGroup} (hgroup : group ∈ groups) :
    ((doc.linesAt group.data.percent).map fun line => shown line.line_extension).sum =
        exactSum ComputedLine.line_extension (atRate group.percent computed) ∧
      ((doc.linesAt group.data.percent).map fun line => shown line.tax_amount).sum =
        exactSum ComputedLine.tax_amount (atRate group.percent computed) := by
  obtain ⟨hextensions, hamounts, -⟩ := shown_lines hlines
  rw [hfilled.linesAt hgrouped hlines hgroup]
  exact ⟨sum_shown fun line hline => hextensions line (List.mem_of_mem_filter hline),
    sum_shown fun line hline => hamounts line (List.mem_of_mem_filter hline)⟩

/-- A document whose sums lose nothing adds up. -/
theorem addsUp_of_lossless (h : Accepted A input net tax total computed)
    (hgroups : groupLines A [] computed = some groups)
    (hfilled : doc.Filled net tax total computed groups)
    (hfits : Fits (net.value + tax.value)) (hlossless : Lossless A computed) :
    doc.AddsUp input.lines := by
  have hgrouped := grouped hgroups
  have hlines := h.formatted
  obtain ⟨hnet, htax, htotal⟩ := hfilled.shown_totals h
  obtain ⟨hsum_net, hsum_tax⟩ := compute_sums h.lines
  obtain ⟨hids, horder⟩ := compute_order h.lines
  obtain ⟨htaxables, htaxes, hpercents⟩ := shown_subtotals hgrouped hlines
  obtain ⟨hextensions, hamounts, hrates⟩ := shown_lines hlines
  have hgroup_taxable : ∀ group ∈ groups, group.taxable.value =
      exactSum ComputedLine.line_extension (atRate group.percent computed) := fun group hgroup =>
    (hgrouped.sumsExactly hgroup).1.mp (hlossless.taxable_of_rate _)
  have hgroup_tax : ∀ group ∈ groups, group.tax.value =
      exactSum ComputedLine.tax_amount (atRate group.percent computed) := fun group hgroup =>
    (hgrouped.sumsExactly hgroup).2.mp (hlossless.tax_of_rate _)
  have hexact_net := (sumsExactly_map hsum_net).mp hlossless.net
  have hexact_tax := (sumsExactly_map hsum_tax).mp hlossless.tax
  constructor
  case total =>
    rw [hnet, htax, htotal]
    exact Arithmetic.value_of_fit h.sum hfits
  case ids =>
    rw [hfilled.lines, List.map_map, List.length_map]
    exact hids
  case order =>
    rw [hfilled.lines, List.map_map]
    exact horder
  case net =>
    rw [hfilled.lines, sum_shown hextensions, hnet, hexact_net]
  case tax =>
    rw [hfilled.lines, sum_shown hamounts, htax, hexact_tax]
  case ascending =>
    rw [hfilled.tax_subtotals, List.pairwise_map]
    refine hgrouped.ascending.imp_of_mem fun {a b} ha hb hlt => ?_
    rw [hpercents a ha, hpercents b hb]
    exact hlt
  case rates =>
    intro rate
    have hleft : doc.tax_subtotals.map (fun subtotal => shown subtotal.percent) =
        (groups.map TaxGroup.percent).map Decimal.value := by
      rw [hfilled.tax_subtotals, List.map_map, List.map_map]
      exact List.map_congr_left hpercents
    have hright : doc.lines.map (fun line => shown line.tax_percent) =
        (computed.map ComputedLine.tax_percent).map Decimal.value := by
      rw [hfilled.lines, List.map_map, List.map_map]
      exact List.map_congr_left hrates
    rw [hleft, hright, List.mem_map, List.mem_map]
    exact exists_congr fun d => and_congr_left fun _ => hgrouped.rates d
  case taxable_of_rate =>
    rw [hfilled.tax_subtotals]
    intro subtotal hsubtotal
    obtain ⟨group, hgroup, rfl⟩ := List.mem_map.mp hsubtotal
    rw [htaxables group hgroup, (hfilled.sum_linesAt hgrouped hlines hgroup).1]
    exact hgroup_taxable group hgroup
  case tax_of_rate =>
    rw [hfilled.tax_subtotals]
    intro subtotal hsubtotal
    obtain ⟨group, hgroup, rfl⟩ := List.mem_map.mp hsubtotal
    rw [htaxes group hgroup, (hfilled.sum_linesAt hgrouped hlines hgroup).2]
    exact hgroup_tax group hgroup
  case subtotals_net =>
    rw [hfilled.tax_subtotals, List.map_map, hnet, hexact_net,
      ← hgrouped.sum_groups ComputedLine.line_extension hgroup_taxable]
    exact congrArg List.sum (List.map_congr_left htaxables)
  case subtotals_tax =>
    rw [hfilled.tax_subtotals, List.map_map, htax, hexact_tax,
      ← hgrouped.sum_groups ComputedLine.tax_amount hgroup_tax]
    exact congrArg List.sum (List.map_congr_left htaxes)

/-- A rate is that of a group, or no line has it. -/
theorem Grouped.rate_cases (h : Grouped A groups computed) (rate : Decimal) :
    (∃ group ∈ groups, group.percent = rate) ∨ atRate rate computed = [] := by
  by_cases hrate : rate ∈ computed.map ComputedLine.tax_percent
  · exact .inl (List.mem_map.mp ((h.rates rate).mpr hrate))
  · refine .inr (List.filter_eq_nil_iff.mpr fun line hline heq => hrate ?_)
    rw [← of_decide_eq_true heq]
    exact List.mem_map_of_mem hline

theorem sumsExactly_nil : A.SumsExactly [] := ⟨.zero, rfl, rfl⟩

/-- A document that adds up has lost nothing. -/
theorem lossless_of_addsUp (h : Accepted A input net tax total computed)
    (hgroups : groupLines A [] computed = some groups)
    (hfilled : doc.Filled net tax total computed groups) (hdoc : doc.AddsUp input.lines) :
    Fits (net.value + tax.value) ∧ Lossless A computed := by
  have hgrouped := grouped hgroups
  have hlines := h.formatted
  obtain ⟨hnet, htax, htotal⟩ := hfilled.shown_totals h
  obtain ⟨hsum_net, hsum_tax⟩ := compute_sums h.lines
  obtain ⟨htaxables, htaxes, -⟩ := shown_subtotals hgrouped hlines
  obtain ⟨hextensions, hamounts, -⟩ := shown_lines hlines
  have hvalue := hdoc.total
  rw [hnet, htax, htotal] at hvalue
  have hexact_net := hdoc.net
  rw [hfilled.lines, sum_shown hextensions, hnet] at hexact_net
  have hexact_tax := hdoc.tax
  rw [hfilled.lines, sum_shown hamounts, htax] at hexact_tax
  refine ⟨hvalue ▸ total.fits, (sumsExactly_map hsum_net).mpr hexact_net.symm,
    (sumsExactly_map hsum_tax).mpr hexact_tax.symm, fun rate => ?_, fun rate => ?_⟩
  · obtain ⟨group, hgroup, rfl⟩ | hnone := hgrouped.rate_cases rate
    · rw [(hgrouped.sumsExactly hgroup).1, ← htaxables group hgroup]
      have hsubtotal := hdoc.taxable_of_rate group.data
        (hfilled.tax_subtotals ▸ List.mem_map_of_mem hgroup)
      rwa [(hfilled.sum_linesAt hgrouped hlines hgroup).1] at hsubtotal
    · rw [hnone]
      exact sumsExactly_nil
  · obtain ⟨group, hgroup, rfl⟩ | hnone := hgrouped.rate_cases rate
    · rw [(hgrouped.sumsExactly hgroup).2, ← htaxes group hgroup]
      have hsubtotal := hdoc.tax_of_rate group.data
        (hfilled.tax_subtotals ▸ List.mem_map_of_mem hgroup)
      rwa [(hfilled.sum_linesAt hgrouped hlines hgroup).2] at hsubtotal
    · rw [hnone]
      exact sumsExactly_nil

/-- A document is made, prints its amounts and adds up exactly where nothing is lost. -/
theorem document_iff (h : Accepted A input net tax total computed) :
    (∃ doc, Returns (commercialDocument A input) doc ∧
      doc.Prints A input.net_amount input.tax_amount input.total_amount input.lines ∧
        doc.AddsUp input.lines) ↔ Fits (net.value + tax.value) ∧ Lossless A computed := by
  constructor
  · rintro ⟨doc, hdoc, -, hadds⟩
    obtain ⟨groups, hgroups, hfilled⟩ := commercialDocument_returns h hdoc
    exact lossless_of_addsUp h hgroups hfilled hadds
  · rintro ⟨hfits, hlossless⟩
    have hsums : ∀ rate, A.sum ((atRate rate computed).map ComputedLine.line_extension) ≠ none ∧
        A.sum ((atRate rate computed).map ComputedLine.tax_amount) ≠ none := by
      intro rate
      obtain ⟨taxable, htaxable, -⟩ := hlossless.taxable_of_rate rate
      obtain ⟨tax, htax, -⟩ := hlossless.tax_of_rate rate
      rw [htaxable, htax]
      exact ⟨Option.some_ne_none _, Option.some_ne_none _⟩
    have hne : groupLines A [] computed ≠ none := Grouped.nil.groupLines_ne_none hsums
    obtain ⟨groups, hgroups⟩ := Option.ne_none_iff_exists'.mp hne
    obtain ⟨doc, hdoc⟩ := commercialDocument_of_groups h hgroups
    obtain ⟨groups', hgroups', hfilled⟩ := commercialDocument_returns h hdoc
    rw [hgroups] at hgroups'
    cases hgroups'
    have hadds := addsUp_of_lossless h hgroups hfilled hfits hlossless
    exact ⟨doc, hdoc, hfilled.prints h hgroups, hadds⟩

end Filled

/-! ## What the client sent -/

section Payloads

variable {A : Arithmetic} {net tax total : Decimal} {computed : List ComputedLine}
  {input : CommercialInput}

/-- A line as a group of its own. -/
def ComputedLine.own (line : ComputedLine) : TaxGroup :=
  ⟨line.tax_percent, line.line_extension, line.tax_amount⟩

theorem exactTotals_own {lines : List ComputedLine} : ExactTotals A (lines.map ComputedLine.own) ↔
    A.SumsExactly (lines.map ComputedLine.line_extension) ∧
      A.SumsExactly (lines.map ComputedLine.tax_amount) := by
  rw [ExactTotals, List.map_map, List.map_map]
  rfl

theorem own_filter (rate : Decimal) (lines : List ComputedLine) :
    (lines.map ComputedLine.own).filter (fun own => own.percent = rate) =
      (atRate rate lines).map ComputedLine.own := by
  rw [List.filter_map]
  rfl

/-- The computed lines lose what the lines of the client do. -/
theorem lossless_iff {lines : Option (List LinePayload)}
    (h : Returns (compute A lines net tax) computed) :
    (∀ lines' ∈ lines, LosslessLines A lines') ↔ Lossless A computed := by
  cases lines with
  | none =>
      obtain ⟨percent, -, rfl⟩ := compute_none.mp h
      refine iff_of_true (fun lines' hlines' => by cases hlines') ?_
      -- one number, or none, is its own sum
      have hone : ∀ d, A.SumsExactly [d] := fun d =>
        ⟨d, Arithmetic.sum_singleton d, (List.sum_singleton).symm⟩
      have hrate : ∀ rate (f : ComputedLine → Decimal),
          A.SumsExactly ((atRate rate [syntheticLine net tax percent]).map f) := by
        intro rate f
        by_cases hp : (syntheticLine net tax percent).tax_percent = rate
        · rw [atRate, List.filter_singleton, decide_eq_true hp]
          exact hone _
        · rw [atRate, List.filter_singleton, decide_eq_false hp]
          exact sumsExactly_nil
      exact ⟨hone net, hone tax, fun rate => hrate rate _, fun rate => hrate rate _⟩
  | some lines =>
      have hamounts := computeEach_amounts (compute_some.mp h).2.1
      have hlossless : LosslessLines A lines ↔ ExactTotals A (computed.map ComputedLine.own) ∧
          ∀ rate, ExactTotals A
            ((computed.map ComputedLine.own).filter fun own => own.percent = rate) := by
        constructor
        · rintro ⟨amounts, hlines, htotals, hrates⟩
          obtain rfl := amounts_unique hlines hamounts
          exact ⟨htotals, hrates⟩
        · rintro ⟨htotals, hrates⟩
          exact ⟨_, hamounts, htotals, hrates⟩
      have hsome : (∀ lines' ∈ some lines, LosslessLines A lines') ↔ LosslessLines A lines :=
        ⟨fun hall => hall lines rfl, fun hl lines' hlines' => by cases hlines'; exact hl⟩
      rw [hsome, hlossless, exactTotals_own]
      simp only [own_filter, exactTotals_own]
      constructor
      · rintro ⟨⟨hnet, htax⟩, hrates⟩
        exact ⟨hnet, htax, fun rate => (hrates rate).1, fun rate => (hrates rate).2⟩
      · intro hl
        exact ⟨⟨hl.net, hl.tax⟩, fun rate => ⟨hl.taxable_of_rate rate, hl.tax_of_rate rate⟩⟩

theorem losslessSums_iff (h : Accepted A input net tax total computed) :
    LosslessSums A input.net_amount input.tax_amount input.lines ↔
      Fits (net.value + tax.value) ∧ Lossless A computed := by
  rw [LosslessSums, lossless_iff h.lines]
  refine and_congr_left fun _ => ?_
  constructor
  · rintro ⟨net', tax', hnet, htax, hfits⟩
    rw [h.net] at hnet
    rw [h.tax] at htax
    cases hnet
    cases htax
    exact hfits
  · exact fun hfits => ⟨net, tax, h.net, h.tax, hfits⟩

/-- The texts of an accepted payload have passed their checks. -/
theorem InvoicePayload.checks {p : InvoicePayload} (h : Returns (p.validate A) ()) :
    p.validateHeader = .ok () ∧ p.validateDocumentType = .ok () ∧ p.validateFooter = .ok () := by
  simp only [InvoicePayload.validate, returns_bind, returns_except] at h
  obtain ⟨⟨⟩, hheader, -, -, -, -, -, -, -, -, -, -, ⟨⟩, htype, -, -, hfooter⟩ := h
  exact ⟨hheader, htype, hfooter⟩

theorem PayrollPayload.checks {p : PayrollPayload} (h : Returns (p.validate A) ()) :
    p.validateHeader = .ok () ∧ isEnvironment p.environment = true := by
  simp only [PayrollPayload.validate, requireEnvironment, returns_bind, returns_except,
    require_ok] at h
  obtain ⟨⟨⟩, hheader, -, -, -, -, -, -, -, -, -, -, henvironment⟩ := h
  exact ⟨hheader, henvironment⟩

theorem SupportDocumentPayload.checks {p : SupportDocumentPayload}
    (h : Returns (p.validate A) ()) :
    p.validateHeader = .ok () ∧ isEnvironment p.environment = true := by
  simp only [SupportDocumentPayload.validate, requireEnvironment, returns_bind, returns_except,
    require_ok] at h
  obtain ⟨⟨⟩, hheader, -, -, -, -, -, -, -, -, -, -, -, -, henvironment⟩ := h
  exact ⟨hheader, henvironment⟩

theorem InvoicePayload.accepted {p : InvoicePayload} (h : Returns (p.validate A) ()) :
    ∃ type net tax total computed, p.documentType = .ok type ∧
      ∀ code, Accepted A (p.input type code) net tax total computed := by
  simp only [InvoicePayload.validate, computeLines, returns_bind, returns_except, returns_option,
    returns_pure, equal_ok] at h
  obtain ⟨-, -, net, hnet, tax, htax, _, htotal, total, hsum, -, rfl, ⟨⟩, htype, -,
    ⟨computed, hcomputed, -⟩, -⟩ := h
  have hdocument : ∃ type, p.documentType = .ok type := by
    unfold InvoicePayload.validateDocumentType at htype
    unfold InvoicePayload.documentType
    split_ifs at htype ⊢ <;> first | exact ⟨_, rfl⟩ | skip
    · rename_i hcredit hdebit hnote
      exact absurd hnote (by simp [hcredit, hdebit])
  obtain ⟨type, htype⟩ := hdocument
  exact ⟨type, net, tax, total, computed, htype, fun code => ⟨hsum, hcomputed, hnet, htax, htotal⟩⟩

theorem SupportDocumentPayload.accepted {p : SupportDocumentPayload}
    (h : Returns (p.validate A) ()) :
    ∃ net tax total computed, ∀ code, Accepted A (p.input code) net tax total computed := by
  simp only [SupportDocumentPayload.validate, computeLines, returns_bind, returns_except,
    returns_option, returns_pure, equal_ok] at h
  obtain ⟨-, -, net, hnet, tax, htax, _, htotal, total, hsum, -, rfl, -, ⟨computed, hcomputed, -⟩,
    -⟩ := h
  exact ⟨net, tax, total, computed, fun code => ⟨hsum, hcomputed, hnet, htax, htotal⟩⟩

/-- The document of an accepted payload is the one of its input. -/
theorem InvoicePayload.document_returns {p : InvoicePayload} {type : DocumentType} {code : String}
    (h : Returns (p.validate A) ()) (htype : p.documentType = .ok type) :
    Returns (p.document A code) doc ↔ Returns (commercialDocument A (p.input type code)) doc := by
  simp only [InvoicePayload.document, returns_bind, returns_except, htype]
  constructor
  · rintro ⟨-, -, _, ⟨⟩, hdoc⟩
    exact hdoc
  · exact fun hdoc => ⟨(), h, type, rfl, hdoc⟩

theorem SupportDocumentPayload.document_returns {p : SupportDocumentPayload} {code : String}
    (h : Returns (p.validate A) ()) :
    Returns (p.document A code) doc ↔ Returns (commercialDocument A (p.input code)) doc := by
  simp only [SupportDocumentPayload.document, returns_bind]
  constructor
  · rintro ⟨-, -, hdoc⟩
    exact hdoc
  · exact fun hdoc => ⟨(), h, hdoc⟩

theorem invoice_sums {p : InvoicePayload} {code : String} (h : Returns (p.validate A) ()) :
    p.Sums A code ↔ LosslessSums A p.net_amount p.tax_amount p.lines := by
  obtain ⟨type, net, tax, total, computed, htype, haccepted⟩ := p.accepted h
  have hiff := document_iff (haccepted code)
  rw [← losslessSums_iff (haccepted code)] at hiff
  unfold InvoicePayload.Sums
  simp only [p.document_returns h htype]
  exact hiff

theorem support_document_sums {p : SupportDocumentPayload} {code : String}
    (h : Returns (p.validate A) ()) :
    p.Sums A code ↔ LosslessSums A p.net_amount p.tax_amount p.lines := by
  obtain ⟨net, tax, total, computed, haccepted⟩ := p.accepted h
  have hiff := document_iff (haccepted code)
  rw [← losslessSums_iff (haccepted code)] at hiff
  unfold SupportDocumentPayload.Sums
  simp only [p.document_returns h]
  exact hiff

/-- The amounts of a line are not negative. -/
theorem priceLine_nonneg {line : LinePayload} {lineInput : LineInput} {pair : Decimal × Decimal}
    (hread : line.Says lineInput) (h : priceLine A lineInput = some pair) :
    0 ≤ pair.1.value ∧ 0 ≤ pair.2.value := by
  obtain ⟨product, hproduct, h⟩ := Option.bind_eq_some_iff.mp h
  obtain ⟨taxed, htaxed, h⟩ := Option.bind_eq_some_iff.mp h
  obtain ⟨quotient, hquotient, h⟩ := Option.bind_eq_some_iff.mp h
  cases h
  have hvalue : 0 ≤ (round2 product).value := roundPlaces_nonneg
    (Arithmetic.fit_nonneg hproduct (mul_nonneg hread.quantity.nonneg hread.unit_price.nonneg))
  have htaxed : 0 ≤ taxed.value :=
    Arithmetic.fit_nonneg htaxed (mul_nonneg hvalue hread.percent.nonneg)
  rw [Arithmetic.div, if_neg (by norm_num)] at hquotient
  exact ⟨hvalue, roundPlaces_nonneg
    (Arithmetic.fit_nonneg hquotient (div_nonneg htaxed (by norm_num)))⟩

/-- Sums up to 792281625142643375935439503.35 lose nothing. -/
theorem losslessLines_of_le {lines : List LinePayload} {amounts : List TaxGroup}
    (h : List.Forall₂ (LinePayload.Amounts A) lines amounts)
    (htaxable : (amounts.map fun own => own.taxable.value).sum ≤ maxMantissa / 100)
    (htax : (amounts.map fun own => own.tax.value).sum ≤ maxMantissa / 100) :
    LosslessLines A lines := by
  have hown : ∀ own ∈ amounts,
      (0 ≤ own.taxable.value ∧ HasPlaces MAX_SCALE own.taxable.value) ∧
        0 ≤ own.tax.value ∧ HasPlaces MAX_SCALE own.tax.value := by
    intro own hown
    obtain ⟨i, hi, rfl⟩ := List.getElem_of_mem hown
    obtain ⟨lineInput, hread, -, hprice⟩ := h.get (by rwa [h.length_eq]) hi
    exact ⟨⟨(priceLine_nonneg hread hprice).1, (priceLine_places hprice).1⟩,
      (priceLine_nonneg hread hprice).2, (priceLine_places hprice).2⟩
  -- a part of the lines adds up to no more than all of them
  have hpart : ∀ (f : TaxGroup → Decimal) (part : List TaxGroup), part.Sublist amounts →
      (∀ own ∈ amounts, 0 ≤ (f own).value ∧ HasPlaces MAX_SCALE (f own).value) →
        (amounts.map fun own => (f own).value).sum ≤ maxMantissa / 100 →
          A.SumsExactly (part.map f) := by
    intro f part hsub hf hle
    have hmem : ∀ d ∈ part.map f, 0 ≤ d.value ∧ HasPlaces MAX_SCALE d.value := by
      intro d hd
      obtain ⟨own, howns, rfl⟩ := List.mem_map.mp hd
      exact hf own (hsub.subset howns)
    have hsum : ((part.map f).map Decimal.value).sum ≤
        (amounts.map fun own => (f own).value).sum := by
      rw [List.map_map]
      refine (hsub.map fun own => (f own).value).sum_le_sum fun x hx => ?_
      obtain ⟨own, howns, rfl⟩ := List.mem_map.mp hx
      exact (hf own howns).1
    refine Arithmetic.sumsExactly_of_le (k := MAX_SCALE) (by decide) (fun d hd => (hmem d hd).2)
      (fun d hd => (hmem d hd).1) ?_
    rw [show (10 : ℚ) ^ MAX_SCALE = 100 by norm_num [MAX_SCALE]]
    linarith
  have hall : ∀ part : List TaxGroup, part.Sublist amounts → ExactTotals A part := fun part hsub =>
    ⟨hpart _ part hsub (fun own ho => (hown own ho).1) htaxable,
      hpart _ part hsub (fun own ho => (hown own ho).2) htax⟩
  exact ⟨amounts, h, hall _ (List.Sublist.refl _), fun rate => hall _ List.filter_sublist⟩

/-- A payload without lines. -/
theorem validate_without_lines {p : InvoicePayload} (hlines : p.lines = none)
    (hheader : p.validateHeader = .ok ()) (hnet : amount "net_amount" p.net_amount = .ok net)
    (htax : amount "tax_amount" p.tax_amount = .ok tax)
    (htotal : amount "total_amount" p.total_amount = .ok total) (hsum : A.add net tax = some total)
    (htype : p.validateDocumentType = .ok ()) (hover : ¬ LinesOverflow A none net tax)
    (hfooter : p.validateFooter = .ok ()) : Returns (p.validate A) () := by
  rw [← syntheticPercent_eq_none (A := A) (amount_places htax)] at hover
  obtain ⟨percent, hpercent⟩ := Option.ne_none_iff_exists'.mp hover
  have hcompute := compute_none.mpr ⟨percent, hpercent, rfl⟩
  simp only [InvoicePayload.validate, computeLines, returns_bind, returns_except, returns_option,
    returns_pure, equal_ok, hlines]
  exact ⟨(), hheader, net, hnet, tax, htax, total, htotal, total, hsum, (), rfl, (), htype, _,
    ⟨_, hcompute, rfl⟩, hfooter⟩

end Payloads

/-- Of the accepted documents, those add up whose sums lose nothing. -/
theorem sums_iff (A : Arithmetic) :
    (∀ (p : InvoicePayload) (code : String), Returns (p.validate A) () →
      (p.Sums A code ↔ LosslessSums A p.net_amount p.tax_amount p.lines)) ∧
    ∀ (p : SupportDocumentPayload) (code : String), Returns (p.validate A) () →
      (p.Sums A code ↔ LosslessSums A p.net_amount p.tax_amount p.lines) :=
  ⟨fun _ _ h => invoice_sums h, fun _ _ h => support_document_sums h⟩

/-! ## Samples -/

section Samples

theorem one_short : 1 < 10 ^ 17 ∧ 1 % 10 ≠ 0 := by decide

def plainNet : Shortest := .ofDigits false 1 5 one_short

def plainTax : Shortest := .ofDigits false 19 3 (by decide)

def plainTotal : Shortest := .ofDigits false 119 3 (by decide)

def plainInvoice : InvoicePayload :=
  { hugeInvoice with
    net_amount := .finite plainNet
    tax_amount := .finite plainTax
    total_amount := .finite plainTotal }

theorem integer_read {x : Shortest} {m : ℤ} {hm : |m| ≤ maxMantissa}
    (hread : fromStr x.display = some (.ofInt m hm)) (hm0 : 0 ≤ m) (field : String) :
    amount field (.finite x) = .ok (.ofInt m hm) := by
  rw [amount_ok, toAmount_of_fromStr hread]
  exact ⟨rfl, show (0 : ℚ) ≤ (m : ℚ) by exact_mod_cast hm0, .intCast m⟩

theorem plainInvoice_read (field : String) :
    amount field (.finite plainNet) = .ok (.ofInt 100000 (by decide)) ∧
      amount field (.finite plainTax) = .ok (.ofInt 19000 (by decide)) ∧
        amount field (.finite plainTotal) = .ok (.ofInt 119000 (by decide)) :=
  ⟨integer_read (by decide +kernel) (by decide) field,
    integer_read (by decide +kernel) (by decide) field,
    integer_read (by decide +kernel) (by decide) field⟩

/-- Payloads of these amounts, without lines. -/
theorem plainAmounts_accepted (A : Arithmetic) {p : InvoicePayload} (hlines : p.lines = none)
    (hheader : p.validateHeader = .ok ()) (htype : p.validateDocumentType = .ok ())
    (hfooter : p.validateFooter = .ok ()) (hnet : p.net_amount = .finite plainNet)
    (htax : p.tax_amount = .finite plainTax) (htotal : p.total_amount = .finite plainTotal) :
    Returns (p.validate A) () := by
  have hproduct : ¬ Overflows ((19000 : ℤ) * 100) := by
    norm_num [Overflows, limit, maxMantissa]
  have hquotient : ¬ Overflows ((19000 : ℤ) * 100 / (100000 : ℤ)) := by
    norm_num [Overflows, limit, maxMantissa]
  have hsum : A.add (.ofInt 100000 (by decide)) (.ofInt 19000 (by decide)) =
      some (.ofInt 119000 (by decide)) := by
    rw [Arithmetic.add, ← A.exact]
    norm_num [Decimal.ofInt]
  refine validate_without_lines hlines hheader (hnet ▸ (plainInvoice_read _).1)
    (htax ▸ (plainInvoice_read _).2.1) (htotal ▸ (plainInvoice_read _).2.2) hsum htype ?_ hfooter
  rintro ⟨-, hover | hover⟩
  · exact hproduct hover
  · exact hquotient hover

theorem plainInvoice_accepted (A : Arithmetic) : Returns (plainInvoice.validate A) () :=
  plainAmounts_accepted A rfl hugeInvoice_checks.1 hugeInvoice_checks.2.1 hugeInvoice_checks.2.2
    rfl rfl rfl

/-- An invoice of 100000 and 19000 adds up. -/
theorem plain_invoice_sums : plainInvoice.Sums halfEven "" := by
  refine ((sums_iff halfEven).1 plainInvoice "" (plainInvoice_accepted _)).mpr ⟨?_, ?_⟩
  · refine ⟨_, _, (plainInvoice_read _).1, (plainInvoice_read _).2.1, ?_⟩
    rw [show (Decimal.ofInt 100000 _).value + (Decimal.ofInt 19000 _).value = (119000 : ℤ) by
      norm_num [Decimal.ofInt]]
    exact fits_intCast (by decide)
  · intro lines hlines
    cases hlines

def cent : Decimal := ⟨1 / 100, 2, by decide, 1, by decide, by norm_num⟩

def centAmount : F64 := .finite (.ofDigits false 1 (-2) one_short)

/-- A cent that no total of its size can hold. -/
def gapInvoice : InvoicePayload :=
  { hugeInvoice with tax_amount := centAmount }

/-- However the digits that do not fit are rounded, they are all decimals. -/
theorem huge_add_cent (A : Arithmetic) : A.add huge cent = some huge := by
  have hvalue : huge.value + cent.value = 7 * 10 ^ 28 + 1 / 100 := by
    norm_num [huge, cent, Decimal.ofInt]
  have hsome : A.add huge cent ≠ none := by
    rw [Ne, Arithmetic.add_eq_none, hvalue]
    norm_num [Overflows, limit, maxMantissa, abs_of_pos]
  obtain ⟨d, hd⟩ := Option.ne_none_iff_exists'.mp hsome
  obtain ⟨s, -, -, hnear, -⟩ := A.near _ d hd
  have hhalf : |d.value - (7 * 10 ^ 28 + 1 / 100)| ≤ 1 / 2 := by
    rw [← hvalue]
    exact hnear.trans (div_le_self (by norm_num) (one_le_pow₀ (by norm_num)))
  rw [abs_le] at hhalf
  obtain ⟨t, -, m, hm, hdm⟩ := d.fits
  have hmax : (m : ℚ) ≤ maxMantissa := by exact_mod_cast (abs_le.mp hm).2
  have ht : t = 0 := by
    by_contra hne
    have hten : (10 : ℚ) ≤ 10 ^ t := le_self_pow₀ (by norm_num) hne
    have hlow : (7 * 10 ^ 28 - 1) * 10 ≤ d.value * 10 ^ t :=
      mul_le_mul (by linarith) hten (by norm_num) (by linarith)
    rw [hdm] at hlow
    norm_num [maxMantissa] at hmax
    linarith
  rw [ht, pow_zero, mul_one] at hdm
  rw [hdm] at hhalf
  have hm7 : m = 7 * 10 ^ 28 := by
    have hlow : ((7 * 10 ^ 28 - 1 : ℤ) : ℚ) < m := by
      push_cast
      linarith
    have hhigh : (m : ℚ) < ((7 * 10 ^ 28 + 1 : ℤ) : ℚ) := by
      push_cast
      linarith
    have hlow' : 7 * 10 ^ 28 - 1 < m := by exact_mod_cast hlow
    have hhigh' : m < 7 * 10 ^ 28 + 1 := by exact_mod_cast hhigh
    omega
  rw [hd]
  refine congrArg some (Decimal.ext ?_)
  rw [hdm, hm7]
  rfl

theorem centAmount_read (field : String) : amount field centAmount = .ok cent := by
  have hread : fromStr (Shortest.ofDigits false 1 (-2) one_short).display =
      some cent := by decide +kernel
  rw [amount_ok, centAmount, toAmount_of_fromStr hread]
  exact ⟨rfl, by decide +kernel, by decide +kernel⟩

theorem gapInvoice_accepted (A : Arithmetic) : Returns (gapInvoice.validate A) () := by
  have hproduct : ¬ Overflows (cent.value * 100) := by
    norm_num [Overflows, limit, maxMantissa, cent]
  have hquotient : ¬ Overflows (cent.value * 100 / huge.value) := by
    norm_num [Overflows, limit, maxMantissa, cent, huge, Decimal.ofInt, abs_of_pos]
  refine validate_without_lines rfl hugeInvoice_checks.1 (hugeAmount_read _) (centAmount_read _)
    (hugeAmount_read _) (huge_add_cent A) hugeInvoice_checks.2.1 ?_ hugeInvoice_checks.2.2
  rintro ⟨-, hover | hover⟩
  · exact hproduct hover
  · exact hquotient hover

/-- The total of the invoice is its net amount, without the tax. -/
theorem gap_invoice_does_not_sum :
    ¬ ∃ A : Arithmetic, ∀ (p : InvoicePayload) (code : String), Returns (p.validate A) () →
      p.Sums A code := by
  rintro ⟨A, h⟩
  have hsums := (invoice_sums (gapInvoice_accepted A)).mp
    (h gapInvoice "" (gapInvoice_accepted A))
  obtain ⟨⟨net, tax, hnet, htax, hfits⟩, -⟩ := hsums
  rw [show amount "net_amount" gapInvoice.net_amount = .ok huge from hugeAmount_read _] at hnet
  rw [show amount "tax_amount" gapInvoice.tax_amount = .ok cent from centAmount_read _] at htax
  cases hnet
  cases htax
  have hnot : ¬ Fits (huge.value + cent.value) := by decide +kernel
  exact hnot hfits

end Samples

end DianService.Ubl
