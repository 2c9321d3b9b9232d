import DianService.Ubl.Payload

/-
  Ubl: `model.rs`, the lines and the tax subtotals of a document, computed in `Decimal`.

  A line is first read (`readLine`: its texts and numbers are checked) and then priced
  (`priceLine`), which is where the arithmetic is.
-/

namespace DianService.Ubl

open Lib

def MAX_LINES : Nat := 500

def DEFAULT_UNIT_CODE : String := "94"

def SYNTHETIC_LINE_DESCRIPTION : String := "Venta de bienes y/o servicios"

def decimal (field : String) (value : F64) (max_scale : Nat) (allow_zero : Bool) :
    Except UblError Decimal :=
  match value with
  | .nan | .infinite _ => .error (.validation (field ++ " no es un numero valido"))
  | .finite x =>
      match fromStr x.display with
      | none => .error (.validation (field ++ " no es representable"))
      | some d =>
          if d.value < 0 ∨ (allow_zero = false ∧ d.value = 0) then
            .error (.validation (field ++ " debe ser " ++
              if allow_zero then "mayor o igual a cero" else "mayor que cero"))
          else if max_scale < d.scale then
            .error (.validation (field ++ " admite como maximo " ++ toString max_scale ++
              " decimales"))
          else .ok d

def round2 (d : Decimal) : Decimal := d.roundTo 2

/-- At least two decimals, and all that the number has. -/
def formatDecimal (d : Decimal) : String := if d.scale < 2 then formatAmount d else d.toText

structure LineData where
  id : Nat
  description : String
  quantity : String
  unit_code : String
  unit_price : String
  line_extension : String
  tax_percent : String
  tax_amount : String
  deriving DecidableEq

structure TaxSubtotalData where
  taxable : String
  tax : String
  percent : String
  deriving DecidableEq

structure ComputedLine where
  data : LineData
  line_extension : Decimal
  tax_amount : Decimal
  tax_percent : Decimal

/-! ## One line -/

/-- What a line says, checked. -/
structure LineInput where
  quantity : Decimal
  unit_price : Decimal
  percent : Decimal
  unit_code : String

/-- `lines[n].field` -/
def lineField (n : Nat) (field : String) : String := "lines[" ++ toString n ++ "]." ++ field

def readLine (n : Nat) (line : LinePayload) : Except UblError LineInput := do
  require (!isBlank line.description ∧ line.description.length ≤ 300)
    (lineField n "description" ++ " debe tener entre 1 y 300 caracteres")
  let quantity ← decimal (lineField n "quantity") line.quantity 6 false
  let unit_price ← decimal (lineField n "unit_price") line.unit_price 4 true
  let percent ← decimal (lineField n "tax_percent") line.tax_percent 2 true
  require (percent.value ≤ 100) (lineField n "tax_percent" ++ " no puede superar 100")
  let unit_code := line.unit_code.getD DEFAULT_UNIT_CODE
  require (unit_code ≠ "" ∧ unit_code.utf8ByteSize ≤ 3 ∧ unit_code.toList.all Char.isAlphanum)
    (lineField n "unit_code" ++ " no es un codigo valido")
  return ⟨quantity, unit_price, percent, unit_code⟩

section Arithmetic

variable (A : Arithmetic)

/-- The amounts of a line; `none` is a panic. -/
def priceLine (input : LineInput) : Option (Decimal × Decimal) := do
  let line_extension := round2 (← A.mul input.quantity input.unit_price)
  let tax_amount := round2 (← A.div (← A.mul line_extension input.percent) .hundred)
  return (line_extension, tax_amount)

def lineData (n : Nat) (line : LinePayload) (input : LineInput)
    (line_extension tax_amount : Decimal) : LineData where
  id := n
  description := line.description
  quantity := input.quantity.toText
  unit_code := input.unit_code
  unit_price := formatDecimal input.unit_price
  line_extension := formatAmount line_extension
  tax_percent := formatAmount input.percent
  tax_amount := formatAmount tax_amount

def computeLine (n : Nat) (line : LinePayload) : Checked UblError ComputedLine := do
  let input ← readLine n line
  let (line_extension, tax_amount) ← priceLine A input
  return ⟨lineData n line input line_extension tax_amount, line_extension, tax_amount,
    input.percent⟩

/-- The lines from number `n` on. -/
def computeEach (n : Nat) : List LinePayload → Checked UblError (List ComputedLine)
  | [] => return []
  | line :: lines => do
      let computed ← computeLine A n line
      let rest ← computeEach (n + 1) lines
      return computed :: rest

/-! ## All lines -/

/-- The rate of the line that stands for the totals. -/
def syntheticPercent (net tax : Decimal) : Option Decimal :=
  if net.value = 0 then some .zero
  else do
    let product ← A.mul tax .hundred
    let percent ← A.div product net
    return round2 percent

def syntheticLine (net tax percent : Decimal) : ComputedLine where
  data := {
    id := 1
    description := SYNTHETIC_LINE_DESCRIPTION
    quantity := "1"
    unit_code := DEFAULT_UNIT_CODE
    unit_price := formatAmount net
    line_extension := formatAmount net
    tax_percent := formatAmount percent
    tax_amount := formatAmount tax }
  line_extension := net
  tax_amount := tax
  tax_percent := percent

/-- The sums of the lines must be the totals. -/
def checkTotals (net tax : Decimal) (computed : List ComputedLine) : Checked UblError Unit := do
  let lines_net ← A.sum (computed.map ComputedLine.line_extension)
  let lines_tax ← A.sum (computed.map ComputedLine.tax_amount)
  if lines_net.value ≠ net.value then
    throw (.validation ("La suma de las lineas (" ++ formatAmount lines_net ++
      ") no coincide con net_amount (" ++ formatAmount net ++ ")"))
  if lines_tax.value ≠ tax.value then
    throw (.validation ("La suma del IVA de las lineas (" ++ formatAmount lines_tax ++
      ") no coincide con tax_amount (" ++ formatAmount tax ++ ")"))

def compute (lines : Option (List LinePayload)) (net tax : Decimal) :
    Checked UblError (List ComputedLine) := do
  match lines with
  | none =>
      let percent ← syntheticPercent A net tax
      return [syntheticLine net tax percent]
  | some lines =>
      if lines = [] ∨ MAX_LINES < lines.length then
        throw (.validation ("lines debe tener entre 1 y " ++ toString MAX_LINES ++ " elementos"))
      let computed ← computeEach A 1 lines
      checkTotals A net tax computed
      return computed

def computeLines (lines : Option (List LinePayload)) (net tax : Decimal) :
    Checked UblError (List LineData) := do
  return (← compute A lines net tax).map ComputedLine.data

/-! ## Subtotals -/

/-- An entry of the `BTreeMap` of rates. -/
structure TaxGroup where
  percent : Decimal
  taxable : Decimal
  tax : Decimal

/-- Add a line to the entry of its rate. -/
def addToGroup (line : ComputedLine) : List TaxGroup → Option (List TaxGroup)
  | [] => do
      return [⟨line.tax_percent, ← A.add .zero line.line_extension, ← A.add .zero line.tax_amount⟩]
  | group :: groups => do
      if line.tax_percent.value < group.percent.value then
        return ⟨line.tax_percent, ← A.add .zero line.line_extension,
          ← A.add .zero line.tax_amount⟩ :: group :: groups
      else if line.tax_percent = group.percent then
        return ⟨group.percent, ← A.add group.taxable line.line_extension,
          ← A.add group.tax line.tax_amount⟩ :: groups
      else return group :: (← addToGroup line groups)

/-- The groups once the lines are added, in order. -/
def groupLines : List TaxGroup → List ComputedLine → Option (List TaxGroup)
  | groups, [] => some groups
  | groups, line :: lines => do groupLines (← addToGroup A line groups) lines

def TaxGroup.data (group : TaxGroup) : TaxSubtotalData where
  taxable := formatAmount group.taxable
  tax := formatAmount group.tax
  percent := formatAmount group.percent

def taxSubtotals (lines : Option (List LinePayload)) (net tax : Decimal) :
    Checked UblError (List TaxSubtotalData) := do
  let groups ← groupLines A [] (← compute A lines net tax)
  return groups.map TaxGroup.data

end Arithmetic

/-! ## What is accepted -/

/-- `value` is read as `d`. -/
structure ReadAs (value : F64) (max_scale : Nat) (allow_zero : Bool) (d : Decimal) : Prop where
  finite : ∃ x, value = .finite x ∧ fromStr x.display = some d
  nonneg : 0 ≤ d.value
  nonzero : allow_zero = false → d.value ≠ 0
  places : HasPlaces max_scale d.value

theorem decimal_ok {field : String} {value : F64} {max_scale : Nat} {allow_zero : Bool}
    {d : Decimal} :
    decimal field value max_scale allow_zero = .ok d ↔ ReadAs value max_scale allow_zero d := by
  constructor
  · intro h
    unfold decimal at h
    split at h
    · cases h
    · cases h
    · rename_i x
      split at h
      · cases h
      · rename_i e he
        split at h
        · cases h
        · rename_i hsign
          split at h
          · cases h
          · rename_i hscale
            cases h
            push Not at hsign
            exact ⟨⟨x, rfl, he⟩, hsign.1, hsign.2, (d.scale_le_iff _).mp (not_lt.mp hscale)⟩
  · rintro ⟨⟨x, rfl, hread⟩, hnonneg, hnonzero, hplaces⟩
    have hsign : ¬ (d.value < 0 ∨ allow_zero = false ∧ d.value = 0) := by
      push Not
      exact ⟨hnonneg, hnonzero⟩
    have hscale : ¬ max_scale < d.scale := not_lt.mpr ((d.scale_le_iff _).mpr hplaces)
    simp only [decimal, hread, if_neg hsign, if_neg hscale]

@[simp] theorem require_ok {test : Bool} {message : String} {u : Unit} :
    require test message = .ok u ↔ test = true := by
  unfold require
  split
  · exact iff_of_true rfl ‹_›
  · exact iff_of_false (fun h => by cases h) ‹_›

theorem except_bind_ok {ε α β : Type} {x : Except ε α} {f : α → Except ε β} {b : β} :
    x >>= f = .ok b ↔ ∃ a, x = .ok a ∧ f a = .ok b := by
  cases x with
  | error e => exact iff_of_false (fun h => by cases h) fun ⟨a, ha, _⟩ => by cases ha
  | ok a => exact ⟨fun h => ⟨a, rfl, h⟩, fun ⟨_, ha, h⟩ => by cases ha; exact h⟩

/-- The line says `input`, whatever its number. -/
structure LinePayload.Says (line : LinePayload) (input : LineInput) : Prop where
  description : (!isBlank line.description ∧ line.description.length ≤ 300 : Bool) = true
  quantity : ReadAs line.quantity 6 false input.quantity
  unit_price : ReadAs line.unit_price 4 true input.unit_price
  percent : ReadAs line.tax_percent 2 true input.percent
  percent_le : input.percent.value ≤ 100
  unit_code : input.unit_code = line.unit_code.getD DEFAULT_UNIT_CODE
  code : (input.unit_code ≠ "" ∧ input.unit_code.utf8ByteSize ≤ 3 ∧
    input.unit_code.toList.all Char.isAlphanum : Bool) = true

theorem readLine_ok {n : Nat} {line : LinePayload} {input : LineInput} :
    readLine n line = .ok input ↔ line.Says input := by
  simp only [readLine, except_bind_ok, require_ok, decimal_ok, pure, Except.pure, Except.ok.injEq]
  constructor
  · rintro ⟨-, hdescription, q, hq, u, hu, p, hp, -, hle, -, hcode, rfl⟩
    exact ⟨hdescription, hq, hu, hp, of_decide_eq_true hle, rfl, hcode⟩
  · rintro ⟨hdescription, hq, hu, hp, hle, hunit, hcode⟩
    refine ⟨(), hdescription, _, hq, _, hu, _, hp, (), decide_eq_true hle, (), hunit ▸ hcode, ?_⟩
    rw [← hunit]

theorem LinePayload.Says.unique {line : LinePayload} {input input' : LineInput}
    (h : line.Says input) (h' : line.Says input') : input = input' := by
  have heq := (readLine_ok (n := 1)).mpr h
  rw [(readLine_ok (n := 1)).mpr h'] at heq
  cases heq
  rfl

end DianService.Ubl
