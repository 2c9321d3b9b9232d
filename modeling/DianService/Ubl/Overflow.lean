import DianService.Ubl.Validation

/-
  Ubl: when `validate` panics. Each amount is only checked to fit on its own, so a product, a
  quotient or a running total of accepted amounts may be too large. The predicates below follow
  the source to the first result that does not fit; everything before it has been accepted.
-/

namespace DianService.Ubl

open Lib Lib.Checked

section Overflow

variable (A : Arithmetic)

/-! ## What overflows -/

/-- The value of the line, or its tax before it is divided by 100. -/
def LineInput.Overflows (input : LineInput) : Prop :=
  Lib.Overflows (input.quantity.value * input.unit_price.value) ∨
    ∃ product, A.mul input.quantity input.unit_price = some product ∧
      Lib.Overflows ((round2 product).value * input.percent.value)

/-- A line after others that can be read. -/
def LineOverflows (lines : List LinePayload) : Prop :=
  ∃ before line rest input, lines = before ++ line :: rest ∧
    (∀ earlier ∈ before, ∃ input, earlier.Says input) ∧ line.Says input ∧ input.Overflows A

/-- The amounts of the lines: all of them can be read and none overflows. -/
def Priced (lines : List LinePayload) (amounts : List (Decimal × Decimal)) : Prop :=
  List.Forall₂ (fun line pair => ∃ input, line.Says input ∧ priceLine A input = some pair) lines
    amounts

def LinesOverflow (lines : Option (List LinePayload)) (net tax : Decimal) : Prop :=
  match lines with
  | none => net.value ≠ 0 ∧
      (Lib.Overflows (tax.value * 100) ∨ Lib.Overflows (tax.value * 100 / net.value))
  | some lines => lines ≠ [] ∧ lines.length ≤ MAX_LINES ∧
      (LineOverflows A lines ∨ ∃ amounts, Priced A lines amounts ∧
        (A.SumOverflows (amounts.map Prod.fst) ∨ A.SumOverflows (amounts.map Prod.snd)))

/-- The total of two amounts, or, where it is the one declared and the checks in between pass, the
    lines. -/
def AmountsOverflow (between : Except UblError Unit) (net_amount tax_amount total_amount : F64)
    (lines : Option (List LinePayload)) : Prop :=
  ∃ net tax total, amount "net_amount" net_amount = .ok net ∧
    amount "tax_amount" tax_amount = .ok tax ∧ amount "total_amount" total_amount = .ok total ∧
    (Lib.Overflows (net.value + tax.value) ∨
      A.add net tax = some total ∧ between = .ok () ∧ LinesOverflow A lines net tax)

def InvoicePayload.Overflows (p : InvoicePayload) : Prop :=
  p.validateHeader = .ok () ∧
    AmountsOverflow A p.validateDocumentType p.net_amount p.tax_amount p.total_amount p.lines

def SupportDocumentPayload.Overflows (p : SupportDocumentPayload) : Prop :=
  p.validateHeader = .ok () ∧
    AmountsOverflow A (.ok ()) p.net_amount p.tax_amount p.total_amount p.lines

end Overflow

/-! ## One line -/

section Lines

variable {A : Arithmetic}

theorem amount_ok {field : String} {value : F64} {d : Decimal} :
    amount field value = .ok d ↔ toAmount field value = .ok d := by
  unfold amount
  cases toAmount field value <;> simp [Except.mapError]

theorem equal_ok {description : String} {expected actual : Decimal} {u : Unit} :
    equal description expected actual = .ok u ↔ expected = actual := by
  unfold equal requireEqual
  split
  · rename_i hne
    exact iff_of_false (fun h => by cases h) fun h => hne (congrArg Decimal.value h)
  · rename_i heq
    exact iff_of_true rfl (Decimal.ext (not_not.mp heq))

theorem priceLine_eq_none {input : LineInput} :
    priceLine A input = none ↔ input.Overflows A := by
  have hhundred : Decimal.hundred.value ≠ 0 := by norm_num
  unfold priceLine LineInput.Overflows
  cases hmul : A.mul input.quantity input.unit_price with
  | none => exact iff_of_true rfl (.inl (Arithmetic.mul_eq_none.mp hmul))
  | some product =>
      have hfirst : ¬ Lib.Overflows (input.quantity.value * input.unit_price.value) := by
        rw [← Arithmetic.mul_eq_none (A := A), hmul]
        exact Option.some_ne_none _
      cases htax : A.mul (round2 product) input.percent with
      | none =>
          have hover := Arithmetic.mul_eq_none.mp htax
          refine iff_of_true ?_ (.inr ⟨product, rfl, hover⟩)
          simp [htax]
      | some taxed =>
          -- a hundredth of a number that fits does not overflow
          have hdiv : A.div taxed .hundred ≠ none := by
            rw [Ne, Arithmetic.div_eq_none hhundred, Lib.Overflows, not_le, Decimal.hundred_value,
              abs_div]
            have hlt := abs_lt_limit taxed
            have hnonneg := abs_nonneg taxed.value
            rw [abs_of_pos (by norm_num : (0 : ℚ) < 100)]
            linarith
          obtain ⟨quotient, hquotient⟩ := Option.ne_none_iff_exists'.mp hdiv
          refine iff_of_false (by simp [htax, hquotient]) ?_
          rintro (hover | ⟨product', hproduct, hover⟩)
          · exact hfirst hover
          · cases hproduct
            rw [← Arithmetic.mul_eq_none (A := A), htax] at hover
            cases hover

theorem computeLine_panics {n : Nat} {line : LinePayload} :
    Panics (computeLine A n line) ↔ ∃ input, line.Says input ∧ input.Overflows A := by
  simp [computeLine, readLine_ok, priceLine_eq_none]

theorem computeLine_returns {n : Nat} {line : LinePayload} {c : ComputedLine} :
    Returns (computeLine A n line) c ↔ ∃ input pair, line.Says input ∧
      priceLine A input = some pair ∧
      c = ⟨lineData n line input pair.1 pair.2, pair.1, pair.2, input.percent⟩ := by
  simp only [computeLine, returns_bind, returns_except, readLine_ok, returns_option, returns_pure]
  constructor
  · rintro ⟨input, hread, ⟨e, t⟩, hprice, rfl⟩
    exact ⟨input, (e, t), hread, hprice, rfl⟩
  · rintro ⟨input, ⟨e, t⟩, hread, hprice, rfl⟩
    exact ⟨input, hread, (e, t), hprice, rfl⟩

/-- The lines are computed one by one. -/
theorem computeEach_cons {n : Nat} {line : LinePayload} {lines : List LinePayload}
    {computed : List ComputedLine} :
    Returns (computeEach A n (line :: lines)) computed ↔ ∃ input pair rest, line.Says input ∧
      priceLine A input = some pair ∧ Returns (computeEach A (n + 1) lines) rest ∧
      computed = ⟨lineData n line input pair.1 pair.2, pair.1, pair.2, input.percent⟩ :: rest := by
  simp only [computeEach, returns_bind, returns_pure, computeLine_returns]
  constructor
  · rintro ⟨_, ⟨input, pair, hread, hprice, rfl⟩, rest, hrest, rfl⟩
    exact ⟨input, pair, rest, hread, hprice, hrest, rfl⟩
  · rintro ⟨input, pair, rest, hread, hprice, hrest, rfl⟩
    exact ⟨_, ⟨input, pair, hread, hprice, rfl⟩, rest, hrest, rfl⟩

/-- A line that can be read overflows or is priced. -/
theorem computeLine_cases {n : Nat} {line : LinePayload} {input : LineInput}
    (h : line.Says input) :
    Panics (computeLine A n line) ∨ ∃ c, Returns (computeLine A n line) c := by
  cases hprice : priceLine A input with
  | none => exact .inl (computeLine_panics.mpr ⟨input, h, priceLine_eq_none.mp hprice⟩)
  | some pair => exact .inr ⟨_, computeLine_returns.mpr ⟨input, pair, h, hprice, rfl⟩⟩

/-! ## All lines -/

theorem computeEach_panics {n : Nat} {lines : List LinePayload} :
    Panics (computeEach A n lines) ↔ LineOverflows A lines := by
  induction lines generalizing n with
  | nil =>
      refine iff_of_false panics_pure ?_
      rintro ⟨before, line, rest, input, heq, -⟩
      simp at heq
  | cons first lines ih =>
      simp only [computeEach, panics_bind, panics_pure, and_false, exists_false, or_false, ih]
      constructor
      · rintro (hfirst | ⟨c, hc, before, line, rest, input, rfl, hbefore, hline⟩)
        · obtain ⟨input, hread, hover⟩ := computeLine_panics.mp hfirst
          exact ⟨[], first, lines, input, rfl, (fun _ h => by cases h), hread, hover⟩
        · obtain ⟨input', pair, hread, -⟩ := computeLine_returns.mp hc
          refine ⟨first :: before, line, rest, input, rfl, fun earlier hmem => ?_, hline⟩
          cases hmem with
          | head => exact ⟨input', hread⟩
          | tail _ hmem => exact hbefore earlier hmem
      · rintro ⟨before, line, rest, input, heq, hbefore, hread, hover⟩
        cases before with
        | nil =>
            cases heq
            exact .inl (computeLine_panics.mpr ⟨input, hread, hover⟩)
        | cons earlier before =>
            cases heq
            obtain ⟨input', hread'⟩ := hbefore _ List.mem_cons_self
            obtain hpanics | ⟨c, hc⟩ := computeLine_cases (A := A) (n := n) hread'
            · exact .inl hpanics
            · exact .inr ⟨c, hc, before, line, rest, input, rfl,
                fun l hl => hbefore l (List.mem_cons_of_mem _ hl), hread, hover⟩

/-- The computed lines carry the amounts of the lines, in order. -/
theorem computeEach_returns {n : Nat} {lines : List LinePayload} {computed : List ComputedLine}
    (h : Returns (computeEach A n lines) computed) :
    Priced A lines (computed.map fun c => (c.line_extension, c.tax_amount)) := by
  induction lines generalizing n computed with
  | nil =>
      obtain rfl := returns_pure.mp h
      exact .nil
  | cons first lines ih =>
      obtain ⟨input, pair, rest, hread, hprice, hrest, rfl⟩ := computeEach_cons.mp h
      exact .cons ⟨input, hread, hprice⟩ (ih hrest)

theorem computeEach_of_priced {n : Nat} {lines : List LinePayload}
    {amounts : List (Decimal × Decimal)} (h : Priced A lines amounts) :
    ∃ computed, Returns (computeEach A n lines) computed := by
  induction h generalizing n with
  | nil => exact ⟨[], returns_pure.mpr rfl⟩
  | @cons line pair lines amounts hline _ ih =>
      obtain ⟨input, hread, hprice⟩ := hline
      obtain ⟨rest, hrest⟩ := @ih (n + 1)
      exact ⟨_, computeEach_cons.mpr ⟨input, pair, rest, hread, hprice, hrest, rfl⟩⟩

theorem Priced.unique {lines : List LinePayload} {amounts amounts' : List (Decimal × Decimal)}
    (h : Priced A lines amounts) (h' : Priced A lines amounts') : amounts = amounts' := by
  induction h generalizing amounts' with
  | nil =>
      cases h'
      rfl
  | cons hline _ ih =>
      cases h' with
      | cons hline' hrest' =>
          obtain ⟨input, hread, hprice⟩ := hline
          obtain ⟨input', hread', hprice'⟩ := hline'
          obtain rfl := hread.unique hread'
          rw [hprice] at hprice'
          cases hprice'
          rw [ih hrest']

theorem checkTotals_panics {net tax : Decimal} {computed : List ComputedLine} :
    Panics (checkTotals A net tax computed) ↔
      A.SumOverflows (computed.map ComputedLine.line_extension) ∨
        A.SumOverflows (computed.map ComputedLine.tax_amount) := by
  rw [← Arithmetic.sum_eq_none, ← Arithmetic.sum_eq_none]
  cases hnet : A.sum (computed.map ComputedLine.line_extension) with
  | none => exact iff_of_true (by simp [checkTotals, hnet]) (.inl rfl)
  | some lines_net =>
      cases htax : A.sum (computed.map ComputedLine.tax_amount) with
      | none => exact iff_of_true (by simp [checkTotals, hnet, htax]) (.inr rfl)
      | some lines_tax =>
          refine iff_of_false ?_ (by simp)
          simp only [checkTotals, hnet, htax]
          intro h
          have hsteps : ∀ (b : Prop) [Decidable b] (e e' : UblError) (b' : Prop) [Decidable b'],
              ¬ Panics (do
                if b then throw e
                if b' then throw e' : Checked UblError Unit) := by
            intro b _ e e' b' _ hpanics
            by_cases hb : b <;> by_cases hb' : b' <;> simp [hb, hb'] at hpanics
          exact hsteps _ _ _ _ h

theorem product_fits {tax product : Decimal} (h : A.mul tax .hundred = some product) :
    ¬ Lib.Overflows (tax.value * 100) := by
  rw [← Decimal.hundred_value, ← Arithmetic.mul_eq_none (A := A), h]
  exact Option.some_ne_none _

/-- A hundred times an amount is an integer, so the product is exact. -/
theorem product_value {tax product : Decimal} (htax : HasPlaces MAX_SCALE tax.value)
    (h : A.mul tax .hundred = some product) : product.value = tax.value * 100 := by
  have hint : HasPlaces 0 (tax.value * 100) := by
    obtain ⟨m, hm⟩ := htax
    exact ⟨m, by rw [← hm, MAX_SCALE]; norm_num⟩
  exact Arithmetic.value_of_fit h (fits_of_int hint (product_fits h))

theorem syntheticPercent_eq_none {net tax : Decimal} (htax : HasPlaces MAX_SCALE tax.value) :
    syntheticPercent A net tax = none ↔ LinesOverflow A none net tax := by
  by_cases hzero : net.value = 0
  · exact iff_of_false (by simp [syntheticPercent, hzero]) fun h => h.1 hzero
  · unfold syntheticPercent
    rw [if_neg hzero]
    cases hmul : A.mul tax .hundred with
    | none =>
        have hover := Arithmetic.mul_eq_none.mp hmul
        exact iff_of_true rfl ⟨hzero, .inl hover⟩
    | some product =>
        have hfit := product_fits hmul
        have hvalue := product_value htax hmul
        show (do let percent ← A.div product net; return round2 percent : Option Decimal) = none ↔ _
        rw [← hvalue] at hfit
        unfold LinesOverflow
        rw [← hvalue, ← Arithmetic.div_eq_none (A := A) hzero]
        cases hdiv : A.div product net with
        | none => exact iff_of_true rfl ⟨hzero, .inr rfl⟩
        | some quotient =>
            refine iff_of_false (fun h => by cases h) ?_
            rintro ⟨-, hover | hnone⟩
            · exact hfit hover
            · cases hnone

theorem map_fst_amounts (computed : List ComputedLine) :
    (computed.map fun c => (c.line_extension, c.tax_amount)).map Prod.fst =
      computed.map ComputedLine.line_extension := by
  rw [List.map_map]
  rfl

theorem map_snd_amounts (computed : List ComputedLine) :
    (computed.map fun c => (c.line_extension, c.tax_amount)).map Prod.snd =
      computed.map ComputedLine.tax_amount := by
  rw [List.map_map]
  rfl

theorem compute_panics {lines : Option (List LinePayload)} {net tax : Decimal}
    (htax : HasPlaces MAX_SCALE tax.value) :
    Panics (compute A lines net tax) ↔ LinesOverflow A lines net tax := by
  cases lines with
  | none =>
      rw [← syntheticPercent_eq_none htax]
      simp [compute]
  | some lines =>
      by_cases hlength : lines = [] ∨ MAX_LINES < lines.length
      · refine iff_of_false (by simp [compute, hlength]) ?_
        rintro ⟨hne, hle, -⟩
        exact hlength.elim hne (not_lt.mpr hle)
      · have hrun : Panics (compute A (some lines) net tax) ↔
            LineOverflows A lines ∨ ∃ computed, Returns (computeEach A 1 lines) computed ∧
              Panics (checkTotals A net tax computed) := by
          simp [compute, hlength, computeEach_panics]
        push Not at hlength
        rw [hrun]
        constructor
        · rintro (hline | ⟨computed, hcomputed, hpanics⟩)
          · exact ⟨hlength.1, hlength.2, .inl hline⟩
          · refine ⟨hlength.1, hlength.2, .inr ⟨_, computeEach_returns hcomputed, ?_⟩⟩
            rw [map_fst_amounts, map_snd_amounts]
            exact checkTotals_panics.mp hpanics
        · rintro ⟨-, -, hline | ⟨amounts, hpriced, hover⟩⟩
          · exact .inl hline
          · obtain ⟨computed, hcomputed⟩ := computeEach_of_priced (n := 1) hpriced
            refine .inr ⟨computed, hcomputed, checkTotals_panics.mpr ?_⟩
            rw [hpriced.unique (computeEach_returns hcomputed), map_fst_amounts,
              map_snd_amounts] at hover
            exact hover

/-! ## The payloads -/

/-- The amounts of a payload and what comes after them. -/
theorem amounts_panics {net_amount tax_amount total_amount : F64}
    {rest : Decimal → Decimal → Checked UblError Unit} :
    Panics (do
      let net ← amount "net_amount" net_amount
      let tax ← amount "tax_amount" tax_amount
      let total ← amount "total_amount" total_amount
      equal "total_amount debe ser net_amount + tax_amount" (← A.add net tax) total
      rest net tax : Checked UblError Unit) ↔
      ∃ net tax total, amount "net_amount" net_amount = .ok net ∧
        amount "tax_amount" tax_amount = .ok tax ∧ amount "total_amount" total_amount = .ok total ∧
        (Lib.Overflows (net.value + tax.value) ∨
          A.add net tax = some total ∧ Panics (rest net tax)) := by
  simp only [panics_bind, panics_except, false_or, returns_except, panics_option, returns_option,
    equal_ok, exists_const]
  constructor
  · rintro ⟨net, hnet, tax, htax, total, htotal, hover | ⟨sum, hsum, rfl, hrest⟩⟩
    · exact ⟨net, tax, total, hnet, htax, htotal, .inl (Arithmetic.add_eq_none.mp hover)⟩
    · exact ⟨net, tax, _, hnet, htax, htotal, .inr ⟨hsum, hrest⟩⟩
  · rintro ⟨net, tax, total, hnet, htax, htotal, hover | ⟨hsum, hrest⟩⟩
    · exact ⟨net, hnet, tax, htax, total, htotal, .inl (Arithmetic.add_eq_none.mpr hover)⟩
    · exact ⟨net, hnet, tax, htax, total, htotal, .inr ⟨total, hsum, rfl, hrest⟩⟩

/-- The checks between the amounts and the lines, the lines, and the checks after them. -/
theorem lines_panics (between : Except UblError Unit) {after : Except UblError Unit}
    {lines : Option (List LinePayload)}
    {net tax : Decimal} (htax : HasPlaces MAX_SCALE tax.value) :
    Panics (do
      between
      let _ ← computeLines A lines net tax
      after : Checked UblError Unit) ↔ between = .ok () ∧ LinesOverflow A lines net tax := by
  simp only [panics_bind, panics_except, false_or, returns_except, computeLines, panics_pure,
    and_false, exists_false, or_false, compute_panics htax]
  constructor
  · rintro ⟨⟨⟩, h⟩
    exact h
  · exact fun h => ⟨(), h⟩

/-- The amounts and the lines of a payload, with the checks before, between and after them. -/
theorem checks_panics (header between after : Except UblError Unit)
    (net_amount tax_amount total_amount : F64) (lines : Option (List LinePayload)) :
    Panics (do
      header
      let net ← amount "net_amount" net_amount
      let tax ← amount "tax_amount" tax_amount
      let total ← amount "total_amount" total_amount
      equal "total_amount debe ser net_amount + tax_amount" (← A.add net tax) total
      between
      let _ ← computeLines A lines net tax
      after : Checked UblError Unit) ↔
      header = .ok () ∧ AmountsOverflow A between net_amount tax_amount total_amount lines := by
  unfold AmountsOverflow
  rw [panics_bind, amounts_panics]
  simp only [panics_except, false_or, returns_except]
  constructor
  · rintro ⟨⟨⟩, hheader, net, tax, total, hnet, htax, htotal, hcases⟩
    refine ⟨hheader, net, tax, total, hnet, htax, htotal, hcases.imp_right fun h => ⟨h.1, ?_⟩⟩
    exact (lines_panics between (toAmount_ok (amount_ok.mp htax)).2).mp h.2
  · rintro ⟨hheader, net, tax, total, hnet, htax, htotal, hcases⟩
    refine ⟨(), hheader, net, tax, total, hnet, htax, htotal, hcases.imp_right fun h => ⟨h.1, ?_⟩⟩
    exact (lines_panics between (toAmount_ok (amount_ok.mp htax)).2).mpr h.2

theorem invoice_panics (p : InvoicePayload) : Panics (p.validate A) ↔ p.Overflows A :=
  checks_panics p.validateHeader p.validateDocumentType p.validateFooter _ _ _ _

theorem support_document_panics (p : SupportDocumentPayload) :
    Panics (p.validate A) ↔ p.Overflows A :=
  checks_panics p.validateHeader (.ok ()) (requireEnvironment p.environment) _ _ _ _

theorem payroll_panics (p : PayrollPayload) : ¬ Panics (p.validate A) := by
  simp only [PayrollPayload.validate, panics_bind, panics_except, false_or, returns_except,
    panics_option, returns_option, and_false, exists_false, or_false, amount_ok]
  rintro ⟨-, -, devengado, hdevengado, deducido, hdeducido, total, -, hnone⟩
  exact Arithmetic.sub_ne_none (toAmount_ok hdevengado).1 (toAmount_ok hdeducido).1 hnone

end Lines

/-- `validate` panics on the payloads whose amounts overflow, and on no others. -/
theorem validate_returns_iff (A : Arithmetic) :
    (∀ p : InvoicePayload, ¬ Panics (p.validate A) ↔ ¬ p.Overflows A) ∧
      (∀ p : PayrollPayload, ¬ Panics (p.validate A)) ∧
        ∀ p : SupportDocumentPayload, ¬ Panics (p.validate A) ↔ ¬ p.Overflows A :=
  ⟨fun p => not_congr (invoice_panics p), payroll_panics,
    fun p => not_congr (support_document_panics p)⟩

/-- An amount that fits, but not twice. -/
def huge : Decimal := .ofInt (7 * 10 ^ 28) (by decide)

def hugeShortest : Shortest := ⟨false, 7, 28, by decide, .inl (by decide)⟩

def hugeAmount : F64 := .finite hugeShortest

theorem hugeAmount_read (field : String) : amount field hugeAmount = .ok huge := by
  have hread : fromStr hugeShortest.display = some huge := by decide +kernel
  rw [amount_ok, hugeAmount, toAmount_of_fromStr hread]
  exact ⟨rfl, by decide +kernel, by decide +kernel⟩

def hugeInvoice : InvoicePayload where
  pfx := "FE"
  number := 1002
  issue_date := "2026-05-23"
  issue_time := "10:42:00-05:00"
  company_nit := "900123456"
  company_name := "Empresa Emisora"
  customer_id_type := "31"
  customer_id := "900999888"
  customer_name := "Cliente Receptor"
  customer_email := "cliente@receptor.com"
  net_amount := hugeAmount
  tax_amount := hugeAmount
  total_amount := hugeAmount
  environment := "2"
  technical_key := none
  document_type := "invoice"
  test_set_id := none
  lines := none
  billing_reference := none
  discrepancy := none
  software_pin := none

/-- The fields beside the amounts. -/
theorem hugeInvoice_checks : hugeInvoice.validateHeader = .ok () ∧
    hugeInvoice.validateDocumentType = .ok () ∧ hugeInvoice.validateFooter = .ok () := by
  decide +kernel

/-- The sum of the two amounts overflows. -/
theorem huge_invoice_panics :
    ¬ ∃ A : Arithmetic, ∀ p : InvoicePayload, ¬ Panics (p.validate A) := by
  rintro ⟨A, h⟩
  have hover : Lib.Overflows (huge.value + huge.value) := by
    norm_num [Lib.Overflows, limit, maxMantissa, huge, Decimal.ofInt, abs_of_pos]
  refine h hugeInvoice ((invoice_panics _).mpr ⟨hugeInvoice_checks.1, huge, huge, huge, ?_⟩)
  exact ⟨hugeAmount_read _, hugeAmount_read _, hugeAmount_read _, .inl hover⟩

end DianService.Ubl
