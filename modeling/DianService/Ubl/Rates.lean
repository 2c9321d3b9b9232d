import DianService.Ubl.Sums

/-
  Ubl: whether each line of an accepted document is consistent on its own: value from quantity
  and price, tax from value and rate, rate of at most 100. The lines of the client are priced
  from their rate. The line that stands for the totals gets its rate from the tax, and then the
  law is not a matter of course: it takes a rate that gives the tax (`RateExists`). If there is
  one, the rate that is computed does too (`taxOf_of_near`), though it may be another one.
-/

namespace DianService.Ubl

open Lib Lib.Checked

/-! ## The law -/

structure LineData.Consistent (line : LineData) : Prop where
  line_extension : shown line.line_extension =
    roundPlaces 2 (shown line.quantity * shown line.unit_price)
  tax_amount : shown line.tax_amount =
    roundPlaces 2 (shown line.line_extension * shown line.tax_percent / 100)
  percent_nonneg : 0 ≤ shown line.tax_percent
  percent_le : shown line.tax_percent ≤ 100

def TaxSubtotalData.Consistent (subtotal : TaxSubtotalData) : Prop :=
  shown subtotal.tax = roundPlaces 2 (shown subtotal.taxable * shown subtotal.percent / 100)

section Statement

variable (A : Arithmetic)

/-- Every line that is emitted is consistent, and so is the subtotal of the one that stands for
    the totals. -/
def LinesConsistent (net_amount tax_amount : F64) (lines : Option (List LinePayload)) : Prop :=
  ∀ net tax, amount "net_amount" net_amount = .ok net → amount "tax_amount" tax_amount = .ok tax →
    (∀ data, Returns (computeLines A lines net tax) data → ∀ line ∈ data, line.Consistent) ∧
      (lines = none → ∀ subtotals, Returns (taxSubtotals A lines net tax) subtotals →
        ∀ subtotal ∈ subtotals, subtotal.Consistent)

/-- A rate of two decimals gives the tax. -/
def RateExists (net tax : ℚ) : Prop :=
  ∃ rate, HasPlaces 2 rate ∧ 0 ≤ rate ∧ rate ≤ 100 ∧ tax = roundPlaces 2 (net * rate / 100)

/-- The digits that the products of a line drop decide no cent. -/
def LineInput.KeepsCents (input : LineInput) : Prop :=
  ∃ product taxed quotient, A.mul input.quantity input.unit_price = some product ∧
    A.mul (round2 product) input.percent = some taxed ∧
    A.div taxed .hundred = some quotient ∧
    SameSide 2 product.value (input.quantity.value * input.unit_price.value) ∧
    SameSide 2 quotient.value ((round2 product).value * input.percent.value / 100)

def RatesAgree (net_amount tax_amount : F64) : Option (List LinePayload) → Prop
  | none => ∃ net tax, amount "net_amount" net_amount = .ok net ∧
      amount "tax_amount" tax_amount = .ok tax ∧ RateExists net.value tax.value
  | some lines => ∀ line ∈ lines, ∃ input, line.Says input ∧ input.KeepsCents A

end Statement

/-! ## The line that stands for the totals -/

section Synthetic

variable {N T P : ℤ} {u : ℚ}

/-- `P` hundredths of a percent of `N` cents are `T` cents. -/
def TaxOf (N P T : ℤ) : Prop := (T : ℚ) - 1 / 2 ≤ N * P / 10000 ∧ (N : ℚ) * P / 10000 < T + 1 / 2

theorem taxOf_iff (hN : 0 ≤ N) (hP : 0 ≤ P) :
    (T : ℚ) / 100 = roundPlaces 2 ((N : ℚ) / 100 * (P / 100) / 100) ↔ TaxOf N P T := by
  have hscale : (N : ℚ) / 100 * (P / 100) / 100 * 10 ^ 2 = N * P / 10000 := by ring
  have hnonneg : (0 : ℚ) ≤ N * P / 10000 := by
    have hNP : 0 ≤ N * P := mul_nonneg hN hP
    have hNP' : (0 : ℚ) ≤ N * P := by exact_mod_cast hNP
    linarith
  rw [roundPlaces, hscale, show (10 : ℚ) ^ 2 = 100 by norm_num, div_left_inj' (by norm_num),
    Int.cast_inj, eq_comm, roundAway_eq_iff hnonneg]
  rfl

/-- The rate that is computed from a tax gives the tax if any rate does. -/
theorem taxOf_of_near (hN : 0 < N) (h : TaxOf N P T) (hu0 : 0 ≤ u)
    (hu : |u - 10000 * T / N| ≤ 1 / 10 ^ 6) : TaxOf N (roundAway u) T := by
  have hNq : (0 : ℚ) < N := by exact_mod_cast hN
  obtain ⟨hlow, hhigh⟩ := h
  obtain ⟨hRlow, hRhigh⟩ := (roundAway_eq_iff hu0).mp rfl
  obtain ⟨hulow, huhigh⟩ := abs_le.mp hu
  have hw : (N : ℚ) * (10000 * T / N) = 10000 * T := mul_div_cancel₀ _ hNq.ne'
  obtain hsmall | rfl | hlarge := lt_trichotomy N 10000
  · -- half a unit of the rate is less than half a cent of tax
    have hN9 : (N : ℚ) ≤ 9999 := by exact_mod_cast (by omega : N ≤ 9999)
    have hup : (N : ℚ) * roundAway u ≤ N * (10000 * T / N + (1 / 2 + 1 / 10 ^ 6)) :=
      mul_le_mul_of_nonneg_left (by linarith) hNq.le
    have hdown : (N : ℚ) * (10000 * T / N - (1 / 2 + 1 / 10 ^ 6)) ≤ N * roundAway u :=
      mul_le_mul_of_nonneg_left (by linarith) hNq.le
    rw [mul_add, hw] at hup
    rw [mul_sub, hw] at hdown
    constructor
    · linarith
    · linarith
  · -- the rate is the tax
    have hR : roundAway u = T := by
      rw [roundAway_eq_iff hu0]
      push_cast at hulow huhigh
      constructor <;> linarith
    rw [hR]
    constructor <;> push_cast <;> linarith
  · -- only one rate gives the tax, and it is near
    have hN1 : (10001 : ℚ) ≤ N := by exact_mod_cast (by omega : 10001 ≤ N)
    have hR : roundAway u = P := by
      rw [roundAway_eq_iff hu0]
      have hPlow : (P : ℚ) - 10000 * T / N ≤ 5000 / 10001 := by
        rw [← mul_le_mul_iff_right₀ hNq, mul_sub, hw]
        linarith
      have hPhigh : 10000 * T / N - (P : ℚ) ≤ 5000 / 10001 := by
        rw [← mul_le_mul_iff_right₀ hNq, mul_sub, hw]
        linarith
      constructor <;> linarith
    rw [hR]
    exact ⟨hlow, hhigh⟩

end Synthetic

section Lines

variable {A : Arithmetic} {net tax : Decimal}

/-- A quotient of at most 100 is nearly exact. -/
theorem near_of_le {x : ℚ} {d : Decimal} (hfit : A.fit x = some d) (hx : 0 ≤ x) (hle : x ≤ 100) :
    |d.value - x| ≤ 1 / 10 ^ 8 := by
  obtain ⟨s, -, -, hnear, hplaces⟩ := A.near x d hfit
  have hpow : (10 : ℚ) ^ 8 ≤ 10 ^ s := by
    obtain rfl | hlimit := hplaces
    · exact pow_le_pow_right₀ (by norm_num) (by decide)
    · rw [abs_of_nonneg hx, pow_succ] at hlimit
      have hbound : limit ≤ 100 * (10 ^ s * 10) :=
        hlimit.trans (mul_le_mul_of_nonneg_right hle (by positivity))
      norm_num [limit, maxMantissa] at hbound ⊢
      linarith
  calc |d.value - x| ≤ 1 / 2 / 10 ^ s := hnear
    _ ≤ 1 / 2 / 10 ^ 8 := div_le_div_of_nonneg_left (by norm_num) (by positivity) hpow
    _ ≤ 1 / 10 ^ 8 := by norm_num

/-- The rate is the quotient, to two decimals. -/
theorem syntheticPercent_some {percent : Decimal} (htax : HasPlaces MAX_SCALE tax.value)
    (hnet : net.value ≠ 0) (h : syntheticPercent A net tax = some percent) :
    ∃ quotient, A.fit (tax.value * 100 / net.value) = some quotient ∧
      percent.value = roundPlaces 2 quotient.value := by
  rw [syntheticPercent, if_neg hnet] at h
  obtain ⟨product, hproduct, h⟩ := Option.bind_eq_some_iff.mp h
  obtain ⟨quotient, hquotient, h⟩ := Option.bind_eq_some_iff.mp h
  cases h
  rw [Arithmetic.div, if_neg hnet, product_value htax hproduct] at hquotient
  exact ⟨quotient, hquotient, rfl⟩

/-- In cents and hundredths of a percent. -/
theorem taxOf_quotient {N T P : ℤ} {quotient : Decimal} (hN : 0 < N) (hT : 0 ≤ T)
    (hP : P ≤ 10000) (h : TaxOf N P T) (hquotient : A.fit (100 * T / N) = some quotient) :
    TaxOf N (roundAway (quotient.value * 10 ^ 2)) T ∧ 0 ≤ roundAway (quotient.value * 10 ^ 2) ∧
      roundAway (quotient.value * 10 ^ 2) ≤ 10000 := by
  have hNq : (0 : ℚ) < N := by exact_mod_cast hN
  have hTq : (0 : ℚ) ≤ T := by exact_mod_cast hT
  -- the tax is at most the net amount
  have hTN : (T : ℚ) ≤ N := by
    have hP100 : (P : ℚ) ≤ 10000 := by exact_mod_cast hP
    have hNP : (N : ℚ) * P ≤ N * 10000 := mul_le_mul_of_nonneg_left hP100 hNq.le
    have hlt : (T : ℚ) < N + 1 := by linarith [h.1]
    have hlt' : T < N + 1 := by exact_mod_cast hlt
    exact_mod_cast (by omega : T ≤ N)
  have hx : 100 * (T : ℚ) / N ≤ 100 := by
    rw [div_le_iff₀ hNq]
    linarith
  have hx0 : 0 ≤ 100 * (T : ℚ) / N := by positivity
  have hnear := near_of_le hquotient hx0 hx
  have hu0 : 0 ≤ quotient.value * 10 ^ 2 :=
    mul_nonneg (Arithmetic.fit_nonneg hquotient hx0) (by norm_num)
  have hu : |quotient.value * 10 ^ 2 - 10000 * T / N| ≤ 1 / 10 ^ 6 := by
    rw [show quotient.value * 10 ^ 2 - 10000 * T / N =
      (quotient.value - 100 * T / N) * 10 ^ 2 by ring, abs_mul,
      abs_of_pos (by norm_num : (0 : ℚ) < 10 ^ 2)]
    linarith
  refine ⟨taxOf_of_near hN h hu0 hu, roundAway_nonneg hu0, ?_⟩
  rw [roundAway_le_iff hu0]
  push_cast
  linarith [(abs_le.mp hnear).2]

/-- The rate of the totals gives the tax if a rate does. -/
theorem syntheticPercent_agrees {percent : Decimal} (hnet0 : 0 ≤ net.value)
    (hnet : HasPlaces MAX_SCALE net.value) (htax0 : 0 ≤ tax.value)
    (htax : HasPlaces MAX_SCALE tax.value) (h : syntheticPercent A net tax = some percent) :
    (tax.value = roundPlaces 2 (net.value * percent.value / 100) ∧ 0 ≤ percent.value ∧
      percent.value ≤ 100) ↔ RateExists net.value tax.value := by
  constructor
  · rintro ⟨heq, hnonneg, hle⟩
    exact ⟨percent.value, syntheticPercent_places h, hnonneg, hle, heq⟩
  · rintro ⟨rate, ⟨P, hP⟩, hrate0, hrate, heq⟩
    by_cases hzero : net.value = 0
    · rw [syntheticPercent, if_pos hzero] at h
      cases h
      rw [hzero, zero_mul] at heq
      refine ⟨?_, le_refl _, by norm_num⟩
      rw [heq, Decimal.zero_value, mul_zero]
    · obtain ⟨quotient, hquotient, hpercent⟩ := syntheticPercent_some htax hzero h
      obtain ⟨N, hN⟩ := hnet
      obtain ⟨T, hT⟩ := htax
      have hMAX : (10 : ℚ) ^ MAX_SCALE = 100 := by norm_num [MAX_SCALE]
      have hnetN : net.value = N / 100 := by rw [← hN, hMAX]; ring
      have htaxT : tax.value = T / 100 := by rw [← hT, hMAX]; ring
      have hrateP : rate = P / 100 := by rw [← hP]; ring
      have hN0 : 0 < N := by
        have hpos := lt_of_le_of_ne hnet0 (Ne.symm hzero)
        rw [hnetN] at hpos
        have hNq : (0 : ℚ) < N := by linarith
        exact_mod_cast hNq
      have hT0 : 0 ≤ T := by
        rw [htaxT] at htax0
        have hTq : (0 : ℚ) ≤ T := by linarith
        exact_mod_cast hTq
      have hP0 : 0 ≤ P := by
        rw [hrateP] at hrate0
        have hPq : (0 : ℚ) ≤ P := by linarith
        exact_mod_cast hPq
      rw [htaxT, hnetN, hrateP, taxOf_iff hN0.le hP0] at heq
      have hP100 : P ≤ 10000 := by
        rw [hrateP] at hrate
        have hPq : (P : ℚ) ≤ 10000 := by linarith
        exact_mod_cast hPq
      rw [show tax.value * 100 / net.value = 100 * T / N by
        rw [htaxT, hnetN]
        field_simp] at hquotient
      obtain ⟨hgives, hR0, hR⟩ := taxOf_quotient hN0 hT0 hP100 heq hquotient
      have hpercentR : percent.value = (roundAway (quotient.value * 10 ^ 2) : ℤ) / 100 := by
        rw [hpercent, roundPlaces]
        norm_num
      rw [hpercentR]
      refine ⟨?_, div_nonneg (by exact_mod_cast hR0) (by norm_num), ?_⟩
      · rw [htaxT, hnetN, taxOf_iff hN0.le hR0]
        exact hgives
      · have hRq : ((roundAway (quotient.value * 10 ^ 2) : ℤ) : ℚ) ≤ 10000 := by exact_mod_cast hR
        rw [div_le_iff₀ (by norm_num)]
        exact hRq.trans (by norm_num)

/-- The line that stands for the totals, as it is printed. -/
theorem syntheticLine_consistent {percent : Decimal} (hnet0 : 0 ≤ net.value)
    (hnet : HasPlaces MAX_SCALE net.value) (htax0 : 0 ≤ tax.value)
    (htax : HasPlaces MAX_SCALE tax.value) (h : syntheticPercent A net tax = some percent) :
    (syntheticLine net tax percent).data.Consistent ↔ RateExists net.value tax.value := by
  have hshown_net : shown (formatAmount net) = net.value := shown_eq (shows_formatAmount hnet)
  have hshown_tax : shown (formatAmount tax) = tax.value := shown_eq (shows_formatAmount htax)
  have hshown_percent : shown (formatAmount percent) = percent.value :=
    shown_eq (shows_formatAmount (syntheticPercent_places h))
  have hone : shown "1" = 1 := by decide +kernel
  rw [← syntheticPercent_agrees hnet0 hnet htax0 htax h, ← hshown_tax, ← hshown_percent,
    ← hshown_net]
  constructor
  · exact fun hline => ⟨hline.tax_amount, hline.percent_nonneg, hline.percent_le⟩
  · rintro ⟨htax_amount, hnonneg, hle⟩
    refine ⟨?_, htax_amount, hnonneg, hle⟩
    show shown (formatAmount net) = roundPlaces 2 (shown "1" * shown (formatAmount net))
    rw [hone, one_mul, hshown_net]
    exact (roundPlaces_eq_self hnet).symm

/-- Its subtotal says what it says. -/
theorem syntheticSubtotal {percent : Decimal} :
    groupLines A [] [syntheticLine net tax percent] = some [⟨percent, net, tax⟩] := by
  have hzero : ∀ d, A.add .zero d = some d := by
    intro d
    rw [Arithmetic.add, Decimal.zero_value, zero_add]
    exact A.exact d
  rw [groupLines, addToGroup, syntheticLine, hzero, hzero]
  rfl

/-! ## The lines of the client -/

theorem shown_toText (d : Decimal) : shown d.toText = d.value := shown_eq d.shows_toText

theorem shown_formatDecimal (d : Decimal) : shown (formatDecimal d) = d.value := by
  unfold formatDecimal
  split
  · rename_i hscale
    exact shown_eq (shows_formatAmount ((d.scale_le_iff _).mp hscale.le))
  · exact shown_toText d

/-- A line is consistent exactly where the digits that are dropped decide no cent. -/
theorem lineData_consistent {n : Nat} {line : LinePayload} {input : LineInput}
    {pair : Decimal × Decimal} (hread : line.Says input) (hprice : priceLine A input = some pair) :
    (lineData n line input pair.1 pair.2).Consistent ↔ input.KeepsCents A := by
  have hpair := priceLine_places hprice
  obtain ⟨product, hproduct, h⟩ := Option.bind_eq_some_iff.mp hprice
  obtain ⟨taxed, htaxed, h⟩ := Option.bind_eq_some_iff.mp h
  obtain ⟨quotient, hquotient, h⟩ := Option.bind_eq_some_iff.mp h
  cases h
  have hextension : shown (formatAmount (round2 product)) = (round2 product).value :=
    shown_eq (shows_formatAmount hpair.1)
  have htax : shown (formatAmount (round2 quotient)) = (round2 quotient).value :=
    shown_eq (shows_formatAmount hpair.2)
  have hpercent : shown (formatAmount input.percent) = input.percent.value :=
    shown_eq (shows_formatAmount hread.percent.places)
  have hqp := mul_nonneg hread.quantity.nonneg hread.unit_price.nonneg
  have hproduct0 := Arithmetic.fit_nonneg hproduct hqp
  have hep : 0 ≤ (round2 product).value * input.percent.value :=
    mul_nonneg (roundPlaces_nonneg hproduct0) hread.percent.nonneg
  have hquotient' := hquotient
  rw [Arithmetic.div, if_neg (by norm_num)] at hquotient'
  have hquotient0 : 0 ≤ quotient.value := Arithmetic.fit_nonneg hquotient'
    (div_nonneg (Arithmetic.fit_nonneg htaxed hep) (by norm_num))
  have hvalue_iff := roundPlaces_eq_iff (s := 2) hproduct0 hqp
  have htax_iff := roundPlaces_eq_iff (s := 2) hquotient0
    (div_nonneg hep (by norm_num : (0 : ℚ) ≤ 100))
  constructor
  · rintro ⟨hline, hamount, -, -⟩
    refine ⟨product, taxed, quotient, hproduct, htaxed, hquotient, hvalue_iff.mp ?_,
      htax_iff.mp ?_⟩
    · have hprinted : shown (formatAmount (round2 product)) =
          roundPlaces 2 (shown input.quantity.toText * shown (formatDecimal input.unit_price)) :=
        hline
      rwa [hextension, shown_toText, shown_formatDecimal] at hprinted
    · have hprinted : shown (formatAmount (round2 quotient)) =
          roundPlaces 2 (shown (formatAmount (round2 product)) *
            shown (formatAmount input.percent) / 100) := hamount
      rwa [hextension, htax, hpercent] at hprinted
  · rintro ⟨product', taxed', quotient', hproduct', htaxed', hquotient', hline, hamount⟩
    rw [hproduct] at hproduct'
    cases hproduct'
    rw [htaxed] at htaxed'
    cases htaxed'
    rw [hquotient] at hquotient'
    cases hquotient'
    constructor
    case line_extension =>
      show shown (formatAmount (round2 product)) =
        roundPlaces 2 (shown input.quantity.toText * shown (formatDecimal input.unit_price))
      rw [hextension, shown_toText, shown_formatDecimal]
      exact hvalue_iff.mpr hline
    case tax_amount =>
      show shown (formatAmount (round2 quotient)) = roundPlaces 2
        (shown (formatAmount (round2 product)) * shown (formatAmount input.percent) / 100)
      rw [hextension, htax, hpercent]
      exact htax_iff.mpr hamount
    case percent_nonneg => exact hpercent.symm ▸ hread.percent.nonneg
    case percent_le => exact hpercent.symm ▸ hread.percent_le

/-- Products that fit drop nothing. -/
theorem keepsCents_of_fits {input : LineInput}
    (hvalue : Fits (input.quantity.value * input.unit_price.value))
    (htaxed : Fits ((roundPlaces 2 (input.quantity.value * input.unit_price.value)) *
      input.percent.value))
    (htax : Fits ((roundPlaces 2 (input.quantity.value * input.unit_price.value)) *
      input.percent.value / 100)) : input.KeepsCents A := by
  have hhundred : A.div ⟨_, htaxed⟩ .hundred = some ⟨_, htax⟩ := by
    rw [Arithmetic.div, if_neg (by norm_num)]
    exact Arithmetic.fit_of_fits htax
  exact ⟨⟨_, hvalue⟩, ⟨_, htaxed⟩, ⟨_, htax⟩, Arithmetic.fit_of_fits hvalue,
    Arithmetic.fit_of_fits htaxed, hhundred, fun _ => Iff.rfl, fun _ => Iff.rfl⟩

theorem computeEach_consistent {n : Nat} {lines : List LinePayload} {computed : List ComputedLine}
    (h : Returns (computeEach A n lines) computed) :
    (∀ line ∈ computed, line.data.Consistent) ↔
      ∀ line ∈ lines, ∃ input, line.Says input ∧ input.KeepsCents A := by
  induction lines generalizing n computed with
  | nil =>
      obtain rfl := returns_pure.mp h
      exact iff_of_true (fun _ h => by cases h) (fun _ h => by cases h)
  | cons first lines ih =>
      obtain ⟨input, pair, rest, hread, hprice, hrest, rfl⟩ := computeEach_cons.mp h
      rw [List.forall_mem_cons, List.forall_mem_cons, ih hrest]
      refine and_congr_left fun _ => (lineData_consistent hread hprice).trans ?_
      constructor
      · exact fun hkeeps => ⟨input, hread, hkeeps⟩
      · rintro ⟨input', hread', hkeeps⟩
        rwa [hread.unique hread']

/-! ## All documents -/

theorem linesConsistent_iff {input : CommercialInput} {total : Decimal}
    {computed : List ComputedLine} (h : Accepted A input net tax total computed) :
    LinesConsistent A input.net_amount input.tax_amount input.lines ↔
      RatesAgree A input.net_amount input.tax_amount input.lines := by
  obtain ⟨hnet0, hnet⟩ := toAmount_ok (amount_ok.mp h.net)
  obtain ⟨htax0, htax⟩ := toAmount_ok (amount_ok.mp h.tax)
  have hcomputed := h.lines
  have hdata : LinesConsistent A input.net_amount input.tax_amount input.lines ↔
      (∀ line ∈ computed, line.data.Consistent) ∧ (input.lines = none →
        ∀ groups, groupLines A [] computed = some groups →
          ∀ group ∈ groups, group.data.Consistent) := by
    constructor
    · intro hlines
      obtain ⟨hall, hsubtotals⟩ := hlines net tax h.net h.tax
      refine ⟨fun line hline => ?_, fun hnone groups hgroups group hgroup => ?_⟩
      · refine hall (computed.map ComputedLine.data) ?_ _ (List.mem_map_of_mem hline)
        simp only [computeLines, returns_bind, returns_pure]
        exact ⟨computed, hcomputed, rfl⟩
      · refine hsubtotals hnone (groups.map TaxGroup.data) ?_ _ (List.mem_map_of_mem hgroup)
        simp only [taxSubtotals, returns_bind, returns_option, returns_pure]
        exact ⟨computed, hcomputed, groups, hgroups, rfl⟩
    · rintro ⟨hall, hsubtotals⟩ net' tax' hnet' htax'
      rw [h.net] at hnet'
      rw [h.tax] at htax'
      cases hnet'
      cases htax'
      constructor
      · intro data hdata line hline
        simp only [computeLines, returns_bind, returns_pure] at hdata
        obtain ⟨computed', hcomputed', rfl⟩ := hdata
        obtain rfl := hcomputed.unique hcomputed'
        obtain ⟨c, hc, rfl⟩ := List.mem_map.mp hline
        exact hall c hc
      · intro hnone subtotals hreturns subtotal hsubtotal
        simp only [taxSubtotals, returns_bind, returns_option, returns_pure] at hreturns
        obtain ⟨computed', hcomputed', groups, hgroups, rfl⟩ := hreturns
        obtain rfl := hcomputed.unique hcomputed'
        obtain ⟨group, hgroup, rfl⟩ := List.mem_map.mp hsubtotal
        exact hsubtotals hnone groups hgroups group hgroup
  rw [hdata]
  cases hlines : input.lines with
  | none =>
      rw [hlines] at hcomputed
      obtain ⟨percent, hpercent, rfl⟩ := compute_none.mp hcomputed
      have hline := syntheticLine_consistent hnet0 hnet htax0 htax hpercent
      have hrate : RatesAgree A input.net_amount input.tax_amount none ↔
          RateExists net.value tax.value := by
        constructor
        · rintro ⟨net', tax', hnet', htax', hexists⟩
          rw [h.net] at hnet'
          rw [h.tax] at htax'
          cases hnet'
          cases htax'
          exact hexists
        · exact fun hexists => ⟨net, tax, h.net, h.tax, hexists⟩
      rw [hrate, ← hline, List.forall_mem_singleton, syntheticSubtotal]
      refine and_iff_left_of_imp fun hconsistent _ groups hgroups group hgroup => ?_
      cases hgroups
      obtain rfl := List.mem_singleton.mp hgroup
      exact hconsistent.tax_amount
  | some lines =>
      rw [hlines] at hcomputed
      have heach := computeEach_consistent (compute_some.mp hcomputed).2.1
      rw [heach]
      exact and_iff_left fun hnone => by cases hnone

end Lines

/-- The lines of an accepted document are consistent exactly where some rate gives the tax or,
    for lines of the client, dropped digits decide no cent. -/
theorem rates_iff (A : Arithmetic) :
    (∀ p : InvoicePayload, Returns (p.validate A) () →
      (LinesConsistent A p.net_amount p.tax_amount p.lines ↔
        RatesAgree A p.net_amount p.tax_amount p.lines)) ∧
    ∀ p : SupportDocumentPayload, Returns (p.validate A) () →
      (LinesConsistent A p.net_amount p.tax_amount p.lines ↔
        RatesAgree A p.net_amount p.tax_amount p.lines) := by
  constructor
  · intro p h
    obtain ⟨type, net, tax, total, computed, -, haccepted⟩ := p.accepted h
    exact linesConsistent_iff (haccepted "")
  · intro p h
    obtain ⟨net, tax, total, computed, haccepted⟩ := p.accepted h
    exact linesConsistent_iff (haccepted "")

/-- 19000 is 19 percent of 100000. -/
theorem plain_invoice_consistent :
    LinesConsistent halfEven plainInvoice.net_amount plainInvoice.tax_amount plainInvoice.lines := by
  have hrate : (19000 : ℚ) = roundPlaces 2 (100000 * 19 / 100) := by
    rw [roundPlaces_eq_self ⟨1900000, by norm_num⟩]
    norm_num
  refine ((rates_iff halfEven).1 plainInvoice (plainInvoice_accepted _)).mpr ?_
  refine ⟨_, _, (plainInvoice_read _).1, (plainInvoice_read _).2.1, 19, ⟨1900, by norm_num⟩,
    by norm_num, by norm_num, ?_⟩
  simpa [Decimal.ofInt] using hrate

/-! ## A tax that no rate gives -/

def oddTax : Shortest := .ofDigits false 19001 (-2) (by decide)

def oddTotal : Shortest := .ofDigits false 119001 (-2) (by decide)

def oddTaxAmount : Decimal := ⟨19001 / 100, 2, by decide, 19001, by decide, by norm_num⟩

def oddTotalAmount : Decimal := ⟨119001 / 100, 2, by decide, 119001, by decide, by norm_num⟩

/-- 190.01 on 1000. -/
def oddInvoice : InvoicePayload :=
  { hugeInvoice with
    net_amount := .finite (.ofDigits false 1 3 one_short)
    tax_amount := .finite oddTax
    total_amount := .finite oddTotal }

theorem oddInvoice_read (field : String) :
    amount field oddInvoice.net_amount = .ok (.ofInt 1000 (by decide)) ∧
      amount field (.finite oddTax) = .ok oddTaxAmount ∧
        amount field (.finite oddTotal) = .ok oddTotalAmount := by
  have htax : fromStr oddTax.display = some oddTaxAmount := by decide +kernel
  have htotal : fromStr oddTotal.display = some oddTotalAmount := by decide +kernel
  refine ⟨integer_read (by decide +kernel) (by decide) field, ?_, ?_⟩
  · rw [amount_ok, toAmount_of_fromStr htax]
    exact ⟨rfl, by decide +kernel, by decide +kernel⟩
  · rw [amount_ok, toAmount_of_fromStr htotal]
    exact ⟨rfl, by decide +kernel, by decide +kernel⟩

theorem oddInvoice_accepted (A : Arithmetic) : Returns (oddInvoice.validate A) () := by
  have hproduct : ¬ Overflows (oddTaxAmount.value * 100) := by
    norm_num [Overflows, limit, maxMantissa, oddTaxAmount]
  have hquotient : ¬ Overflows (oddTaxAmount.value * 100 / (1000 : ℤ)) := by
    norm_num [Overflows, limit, maxMantissa, oddTaxAmount]
  have hsum : A.add (.ofInt 1000 (by decide)) oddTaxAmount = some oddTotalAmount := by
    rw [Arithmetic.add, ← A.exact]
    norm_num [Decimal.ofInt, oddTaxAmount, oddTotalAmount]
  refine validate_without_lines rfl hugeInvoice_checks.1 (oddInvoice_read _).1
    (oddInvoice_read _).2.1 (oddInvoice_read _).2.2 hsum hugeInvoice_checks.2.1 ?_
    hugeInvoice_checks.2.2
  rintro ⟨-, hover | hover⟩
  · exact hproduct hover
  · exact hquotient hover

/-- 19.00 percent of 1000 are 190.00, and that is the rate that is printed. -/
theorem odd_invoice_inconsistent :
    ¬ ∃ A : Arithmetic, ∀ p : InvoicePayload, Returns (p.validate A) () →
      LinesConsistent A p.net_amount p.tax_amount p.lines := by
  rintro ⟨A, h⟩
  obtain ⟨type, net, tax, total, computed, -, haccepted⟩ := oddInvoice.accepted
    (oddInvoice_accepted A)
  have hagree := (linesConsistent_iff (haccepted "")).mp (h oddInvoice (oddInvoice_accepted A))
  obtain ⟨net', tax', hnet, htax, rate, ⟨P, hP⟩, -, -, heq⟩ := hagree
  rw [show amount "net_amount" (oddInvoice.input type "").net_amount = _ from
    (oddInvoice_read _).1] at hnet
  rw [show amount "tax_amount" (oddInvoice.input type "").tax_amount = _ from
    (oddInvoice_read _).2.1] at htax
  cases hnet
  cases htax
  -- ten times the rate has two decimals and one less
  have hvalue : (Decimal.ofInt 1000 (by decide)).value * rate / 100 = P / 10 := by
    show ((1000 : ℤ) : ℚ) * rate / 100 = P / 10
    rw [← hP]
    push_cast
    ring
  have hplaces : HasPlaces 2 ((P : ℚ) / 10) := ⟨P * 10, by push_cast; ring⟩
  rw [hvalue, roundPlaces_eq_self hplaces] at heq
  have hcents : (19001 : ℚ) / 100 = P / 10 := heq
  have hP' : ((19001 : ℤ) : ℚ) = ((P * 10 : ℤ) : ℚ) := by
    push_cast
    linarith
  have hint : (19001 : ℤ) = P * 10 := by exact_mod_cast hP'
  omega

end DianService.Ubl
