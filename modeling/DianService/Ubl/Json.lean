import DianService.Ubl.Payload
import Mathlib.Data.Nat.Prime.Basic
import Mathlib.Tactic.NormNum.Prime

/-
  Ubl: the payloads as `serde` writes them to JSON and reads them back. A request is stored in this
  form; a worker puts the prefix and the number of the stored document into it and reads it again.

  Of the errors of a text that is no payload only one is given, in the order of the fields. A struct
  may also be read from an array of its fields, which nothing here writes.
-/

namespace DianService

namespace Value

/-- `#[serde(skip_serializing_if = "Option::is_none")]` -/
def whenSome (name : String) (x : Option Value) : List (String × Value) :=
  (x.map fun v => (name, v)).toList

/-- An option that is always written. -/
def orNull (x : Option Value) : Value := x.getD .null

def readString : Value → Except String String
  | .string s => .ok s
  | _ => .error "invalid type, expected a string"

def readI32 : Value → Except String Int
  | .number q => if q.den = 1 ∧ InI32 q.num then .ok q.num else .error "invalid value, expected i32"
  | _ => .error "invalid type, expected i32"

def readArray {α : Type} (read : Value → Except String α) : Value → Except String (List α)
  | .array xs => xs.mapM read
  | _ => .error "invalid type, expected a sequence"

/-- A field that must be there. -/
def requiredField {α : Type} (read : Value → Except String α) (v : Value) (name : String) :
    Except String α :=
  match v.get? name with
  | some x => read x
  | none => .error ("missing field " ++ name)

/-- `#[serde(default)]` of an option. -/
def optionalField {α : Type} (read : Value → Except String α) (v : Value) (name : String) :
    Except String (Option α) :=
  match v.get? name with
  | none | some .null => .ok none
  | some x => (read x).map some

/-! ## Reading what was written -/

theorem ok_bind {α β : Type} (a : α) (f : α → Except String β) : (Except.ok a >>= f) = f a := rfl

@[simp] theorem get?_nil (k : String) : (object []).get? k = none := rfl

@[simp] theorem get?_cons (k k' : String) (v : Value) (kvs : List (String × Value)) :
    (object ((k', v) :: kvs)).get? k = if k' = k then some v else (object kvs).get? k := by
  by_cases h : k' = k <;> simp [get?, h]

@[simp] theorem get?_append (k : String) (kvs kvs' : List (String × Value)) :
    (object (kvs ++ kvs')).get? k = ((object kvs).get? k).or ((object kvs').get? k) := by
  simp only [get?, List.find?_append, Option.map_or]

@[simp] theorem get?_whenSome (k name : String) (x : Option Value) :
    (object (whenSome name x)).get? k = if name = k then x else none := by
  cases x <;> simp [whenSome]

theorem get?_replaced (k k' : String) (v : Value) (kvs : List (String × Value)) :
    (object (kvs.map fun kv => if kv.1 = k' then (k', v) else kv)).get? k =
      if k' = k then ((object kvs).get? k).map fun _ => v else (object kvs).get? k := by
  induction kvs with
  | nil => simp
  | cons kv kvs ih =>
    obtain ⟨name, x⟩ := kv
    rw [List.map_cons, get?_cons]
    by_cases hname : name = k'
    · rw [if_pos hname, get?_cons, ih, hname]
      by_cases hk : k' = k
      · simp [hk]
      · simp [hk]
    · rw [if_neg hname, get?_cons, ih]
      by_cases hk : k' = k
      · simp [hk, hk ▸ hname]
      · simp [hk]

theorem any_eq_isSome (k : String) (kvs : List (String × Value)) :
    kvs.any (fun kv => kv.1 = k) = ((object kvs).get? k).isSome := by
  rw [get?, Option.isSome_map, List.isSome_find?]

/-- The other fields are left alone. -/
@[simp] theorem get?_set (k k' : String) (v : Value) (kvs : List (String × Value)) :
    ((object kvs).set k' v).get? k = if k' = k then some v else (object kvs).get? k := by
  rw [set, any_eq_isSome]
  by_cases hsome : ((object kvs).get? k').isSome = true
  · rw [if_pos hsome, get?_replaced]
    by_cases hk : k' = k
    · obtain ⟨x, hx⟩ := Option.isSome_iff_exists.mp hsome
      rw [if_pos hk, if_pos hk, ← hk, hx, Option.map_some]
    · rw [if_neg hk, if_neg hk]
  · rw [if_neg hsome, get?_append, get?_cons, get?_nil]
    have hnone : (object kvs).get? k' = none := Option.not_isSome_iff_eq_none.mp hsome
    by_cases hk : k' = k
    · rw [if_pos hk, if_pos hk, ← hk, hnone, Option.none_or]
    · rw [if_neg hk, if_neg hk, Option.or_none]

theorem set_object (k : String) (v : Value) (kvs : List (String × Value)) :
    ∃ kvs', (object kvs).set k v = object kvs' := by
  by_cases hany : (kvs.any fun kv => kv.1 = k) = true
  · exact ⟨_, if_pos hany⟩
  · exact ⟨_, if_neg hany⟩

theorem readI32_number {n : Int} (h : InI32 n) : readI32 (.number n) = .ok n :=
  if_pos ⟨rfl, h⟩

theorem readArray_map {α : Type} {read : Value → Except String α} {write : α → Value} {xs : List α}
    (h : ∀ x ∈ xs, read (write x) = .ok x) : readArray read (.array (xs.map write)) = .ok xs := by
  show (xs.map write).mapM read = .ok xs
  induction xs with
  | nil => rfl
  | cons x xs ih =>
    obtain ⟨hx, hxs⟩ := List.forall_mem_cons.mp h
    rw [List.map_cons, List.mapM_cons, hx, ih hxs]
    rfl

section Fields

variable {α : Type} {read : Value → Except String α} {write : α → Value} {v : Value}
  {name : String}

theorem requiredField_eq {a : α} (h : v.get? name = some (write a)) (hread : read (write a) = .ok a) :
    requiredField read v name = .ok a := by
  rw [requiredField, h]
  exact hread

theorem optionalField_eq (write : α → Value) {x : Option α} (h : v.get? name = x.map write)
    (hread : ∀ a ∈ x, read (write a) = .ok a) (hnull : ∀ a, write a ≠ .null) :
    optionalField read v name = .ok x := by
  rw [optionalField, h]
  cases x with
  | none => rfl
  | some a =>
    rw [Option.map_some]
    split
    · contradiction
    · rename_i heq
      exact absurd (Option.some.inj heq) (hnull a)
    · rename_i heq
      rw [← Option.some.inj heq, hread a rfl]
      rfl

theorem optionalField_orNull (write : α → Value) {x : Option α} (h : v.get? name = some (orNull (x.map write)))
    (hread : ∀ a ∈ x, read (write a) = .ok a) (hnull : ∀ a, write a ≠ .null) :
    optionalField read v name = .ok x := by
  cases x with
  | none =>
    rw [optionalField, h]
    rfl
  | some a => exact optionalField_eq write h hread hnull

end Fields

/-- The object with two of its fields replaced. -/
theorem get?_set_set (k k₁ k₂ : String) (v₁ v₂ : Value) (kvs : List (String × Value)) :
    (((object kvs).set k₁ v₁).set k₂ v₂).get? k =
      if k₂ = k then some v₂ else if k₁ = k then some v₁ else (object kvs).get? k := by
  obtain ⟨kvs', hset⟩ := set_object k₁ v₁ kvs
  rw [hset, get?_set, ← hset, get?_set]

end Value

namespace Ubl

open Value

/-- How an `f64` is written and read. The finite ones come back as they were. -/
structure Floats where
  write : F64 → Value
  read : Value → Except String F64
  read_write : ∀ x, read (write (.finite x)) = .ok (.finite x)

variable (J : Floats)

/-! ## The forms of the payloads -/

def LinePayload.toValue (l : LinePayload) : Value :=
  .object ([
    ("description", .string l.description),
    ("quantity", J.write l.quantity),
    ("unit_price", J.write l.unit_price),
    ("tax_percent", J.write l.tax_percent)] ++
    whenSome "unit_code" (l.unit_code.map .string))

def LinePayload.ofValue (v : Value) : Except String LinePayload := do
  return {
    description := ← requiredField readString v "description"
    quantity := ← requiredField J.read v "quantity"
    unit_price := ← requiredField J.read v "unit_price"
    tax_percent := ← requiredField J.read v "tax_percent"
    unit_code := ← optionalField readString v "unit_code" }

def linesToValue (lines : List LinePayload) : Value := .array (lines.map (·.toValue J))

def BillingReferencePayload.toValue (r : BillingReferencePayload) : Value :=
  .object [
    ("number", .string r.number),
    ("cufe", .string r.cufe),
    ("issue_date", .string r.issue_date)]

def BillingReferencePayload.ofValue (v : Value) : Except String BillingReferencePayload := do
  return {
    number := ← requiredField readString v "number"
    cufe := ← requiredField readString v "cufe"
    issue_date := ← requiredField readString v "issue_date" }

def DiscrepancyPayload.toValue (d : DiscrepancyPayload) : Value :=
  .object [("code", .string d.code), ("description", .string d.description)]

def DiscrepancyPayload.ofValue (v : Value) : Except String DiscrepancyPayload := do
  return {
    code := ← requiredField readString v "code"
    description := ← requiredField readString v "description" }

/-- The technical key is never written. -/
def InvoicePayload.toValue (p : InvoicePayload) : Value :=
  .object ([
    ("prefix", .string p.pfx),
    ("number", .number p.number),
    ("issue_date", .string p.issue_date),
    ("issue_time", .string p.issue_time),
    ("company_nit", .string p.company_nit),
    ("company_name", .string p.company_name),
    ("customer_id_type", .string p.customer_id_type),
    ("customer_id", .string p.customer_id),
    ("customer_name", .string p.customer_name),
    ("customer_email", .string p.customer_email),
    ("net_amount", J.write p.net_amount),
    ("tax_amount", J.write p.tax_amount),
    ("total_amount", J.write p.total_amount),
    ("environment", .string p.environment),
    ("document_type", .string p.document_type),
    ("test_set_id", orNull (p.test_set_id.map .string))] ++
    whenSome "lines" (p.lines.map (linesToValue J)) ++
    whenSome "billing_reference" (p.billing_reference.map (·.toValue)) ++
    whenSome "discrepancy" (p.discrepancy.map (·.toValue)) ++
    whenSome "software_pin" (p.software_pin.map .string))

def InvoicePayload.ofValue (v : Value) : Except String InvoicePayload := do
  return {
    pfx := ← requiredField readString v "prefix"
    number := ← requiredField readI32 v "number"
    issue_date := ← requiredField readString v "issue_date"
    issue_time := ← requiredField readString v "issue_time"
    company_nit := ← requiredField readString v "company_nit"
    company_name := ← requiredField readString v "company_name"
    customer_id_type := ← requiredField readString v "customer_id_type"
    customer_id := ← requiredField readString v "customer_id"
    customer_name := ← requiredField readString v "customer_name"
    customer_email := ← requiredField readString v "customer_email"
    net_amount := ← requiredField J.read v "net_amount"
    tax_amount := ← requiredField J.read v "tax_amount"
    total_amount := ← requiredField J.read v "total_amount"
    environment := ← requiredField readString v "environment"
    technical_key := ← optionalField readString v "technical_key"
    document_type := ← requiredField readString v "document_type"
    test_set_id := ← optionalField readString v "test_set_id"
    lines := ← optionalField (readArray (LinePayload.ofValue J)) v "lines"
    billing_reference := ← optionalField BillingReferencePayload.ofValue v "billing_reference"
    discrepancy := ← optionalField DiscrepancyPayload.ofValue v "discrepancy"
    software_pin := ← optionalField readString v "software_pin" }

def PayrollPayload.toValue (p : PayrollPayload) : Value :=
  .object [
    ("prefix", .string p.pfx),
    ("number", .number p.number),
    ("issue_date", .string p.issue_date),
    ("issue_time", .string p.issue_time),
    ("employer_nit", .string p.employer_nit),
    ("employer_name", .string p.employer_name),
    ("employee_id_type", .string p.employee_id_type),
    ("employee_id", .string p.employee_id),
    ("employee_name", .string p.employee_name),
    ("devengado", J.write p.devengado),
    ("deducido", J.write p.deducido),
    ("total", J.write p.total),
    ("software_pin", .string p.software_pin),
    ("environment", .string p.environment)]

def PayrollPayload.ofValue (v : Value) : Except String PayrollPayload := do
  return {
    pfx := ← requiredField readString v "prefix"
    number := ← requiredField readI32 v "number"
    issue_date := ← requiredField readString v "issue_date"
    issue_time := ← requiredField readString v "issue_time"
    employer_nit := ← requiredField readString v "employer_nit"
    employer_name := ← requiredField readString v "employer_name"
    employee_id_type := ← requiredField readString v "employee_id_type"
    employee_id := ← requiredField readString v "employee_id"
    employee_name := ← requiredField readString v "employee_name"
    devengado := ← requiredField J.read v "devengado"
    deducido := ← requiredField J.read v "deducido"
    total := ← requiredField J.read v "total"
    software_pin := ← requiredField readString v "software_pin"
    environment := ← requiredField readString v "environment" }

def SupportDocumentPayload.toValue (p : SupportDocumentPayload) : Value :=
  .object ([
    ("prefix", .string p.pfx),
    ("number", .number p.number),
    ("issue_date", .string p.issue_date),
    ("issue_time", .string p.issue_time),
    ("seller_nit", .string p.seller_nit),
    ("seller_name", .string p.seller_name),
    ("buyer_nit", .string p.buyer_nit),
    ("buyer_name", .string p.buyer_name),
    ("net_amount", J.write p.net_amount),
    ("tax_amount", J.write p.tax_amount),
    ("total_amount", J.write p.total_amount),
    ("software_pin", .string p.software_pin),
    ("environment", .string p.environment)] ++
    whenSome "lines" (p.lines.map (linesToValue J)))

def SupportDocumentPayload.ofValue (v : Value) : Except String SupportDocumentPayload := do
  return {
    pfx := ← requiredField readString v "prefix"
    number := ← requiredField readI32 v "number"
    issue_date := ← requiredField readString v "issue_date"
    issue_time := ← requiredField readString v "issue_time"
    seller_nit := ← requiredField readString v "seller_nit"
    seller_name := ← requiredField readString v "seller_name"
    buyer_nit := ← requiredField readString v "buyer_nit"
    buyer_name := ← requiredField readString v "buyer_name"
    net_amount := ← requiredField J.read v "net_amount"
    tax_amount := ← requiredField J.read v "tax_amount"
    total_amount := ← requiredField J.read v "total_amount"
    software_pin := ← requiredField readString v "software_pin"
    environment := ← requiredField readString v "environment"
    lines := ← optionalField (readArray (LinePayload.ofValue J)) v "lines" }

/-! ## Round trips -/

def F64.IsFinite : F64 → Prop
  | .finite _ => True
  | _ => False

variable {J}

theorem Floats.kept {x : F64} (h : F64.IsFinite x) : J.read (J.write x) = .ok x := by
  cases x with
  | nan | infinite => cases h
  | finite x => exact J.read_write x

structure LinePayload.Finite (l : LinePayload) : Prop where
  quantity : F64.IsFinite l.quantity
  unit_price : F64.IsFinite l.unit_price
  tax_percent : F64.IsFinite l.tax_percent

theorem LinePayload.ofValue_toValue {l : LinePayload} (h : l.Finite) :
    LinePayload.ofValue J (l.toValue J) = .ok l := by
  have hquantity := J.kept h.quantity
  have hprice := J.kept h.unit_price
  have hpercent := J.kept h.tax_percent
  have hunit : optionalField readString (l.toValue J) "unit_code" = .ok l.unit_code :=
    optionalField_eq Value.string (by simp [toValue]) (fun _ _ => rfl) (fun _ => nofun)
  rw [ofValue, hunit]
  simp [requiredField, toValue, readString, hquantity, hprice, hpercent, ok_bind, pure, Except.pure]

/-- The lines of a payload. -/
def FiniteLines (lines : Option (List LinePayload)) : Prop := ∀ ls ∈ lines, ∀ l ∈ ls, l.Finite

theorem FiniteLines.kept {lines : Option (List LinePayload)} (h : FiniteLines lines) {v : Value}
    (hget : v.get? "lines" = lines.map (linesToValue J)) :
    optionalField (readArray (LinePayload.ofValue J)) v "lines" = .ok lines :=
  optionalField_eq _ hget (fun ls hls => readArray_map fun l hl => LinePayload.ofValue_toValue (h ls hls l hl))
    (fun _ => nofun)

structure InvoicePayload.Finite (p : InvoicePayload) : Prop where
  net_amount : F64.IsFinite p.net_amount
  tax_amount : F64.IsFinite p.tax_amount
  total_amount : F64.IsFinite p.total_amount
  lines : FiniteLines p.lines

/-- What a worker reads of a stored invoice or note. -/
theorem InvoicePayload.ofValue_renumbered {p : InvoicePayload} (h : p.Finite) (pfx : String)
    {number : Int} (hnumber : InI32 number) :
    InvoicePayload.ofValue J (((p.toValue J).set "prefix" (.string pfx)).set "number"
      (.number number)) =
      .ok { p with pfx := pfx, number := number, technical_key := none } := by
  have hget : ∀ k, (((p.toValue J).set "prefix" (.string pfx)).set "number" (.number number)).get? k =
      if "number" = k then some (.number number) else if "prefix" = k then some (.string pfx)
      else (p.toValue J).get? k := fun k => get?_set_set k _ _ _ _ _
  generalize ((p.toValue J).set "prefix" (.string pfx)).set "number" (.number number) = v at hget
  have hnet := J.kept h.net_amount
  have htax := J.kept h.tax_amount
  have htotal := J.kept h.total_amount
  have hkey : optionalField readString v "technical_key" = .ok none := by
    simp [optionalField, hget, toValue]
  have htest : optionalField readString v "test_set_id" = .ok p.test_set_id :=
    optionalField_orNull Value.string (by simp [hget, toValue]) (fun _ _ => rfl) (fun _ => nofun)
  have hlines := h.lines.kept (J := J) (v := v) (by simp [hget, toValue])
  have hreference : optionalField BillingReferencePayload.ofValue v "billing_reference" =
      .ok p.billing_reference :=
    optionalField_eq BillingReferencePayload.toValue (by simp [hget, toValue])
      (fun _ _ => rfl) (fun _ => nofun)
  have hdiscrepancy : optionalField DiscrepancyPayload.ofValue v "discrepancy" = .ok p.discrepancy :=
    optionalField_eq DiscrepancyPayload.toValue (by simp [hget, toValue])
      (fun _ _ => rfl) (fun _ => nofun)
  have hpin : optionalField readString v "software_pin" = .ok p.software_pin :=
    optionalField_eq Value.string (by simp [hget, toValue]) (fun _ _ => rfl) (fun _ => nofun)
  simp [ofValue, hkey, htest, hlines, hreference, hdiscrepancy, hpin, requiredField, hget, toValue,
    readString, readI32_number hnumber, hnet, htax, htotal, ok_bind, pure, Except.pure]

structure PayrollPayload.Finite (p : PayrollPayload) : Prop where
  devengado : F64.IsFinite p.devengado
  deducido : F64.IsFinite p.deducido
  total : F64.IsFinite p.total

theorem PayrollPayload.ofValue_renumbered {p : PayrollPayload} (h : p.Finite) (pfx : String)
    {number : Int} (hnumber : InI32 number) :
    PayrollPayload.ofValue J (((p.toValue J).set "prefix" (.string pfx)).set "number"
      (.number number)) = .ok { p with pfx := pfx, number := number } := by
  have hget : ∀ k, (((p.toValue J).set "prefix" (.string pfx)).set "number" (.number number)).get? k =
      if "number" = k then some (.number number) else if "prefix" = k then some (.string pfx)
      else (p.toValue J).get? k := fun k => get?_set_set k _ _ _ _ _
  generalize ((p.toValue J).set "prefix" (.string pfx)).set "number" (.number number) = v at hget
  have hdevengado := J.kept h.devengado
  have hdeducido := J.kept h.deducido
  have htotal := J.kept h.total
  simp [ofValue, requiredField, hget, toValue, readString, readI32_number hnumber, hdevengado,
    hdeducido, htotal, ok_bind, pure, Except.pure]

structure SupportDocumentPayload.Finite (p : SupportDocumentPayload) : Prop where
  net_amount : F64.IsFinite p.net_amount
  tax_amount : F64.IsFinite p.tax_amount
  total_amount : F64.IsFinite p.total_amount
  lines : FiniteLines p.lines

theorem SupportDocumentPayload.ofValue_renumbered {p : SupportDocumentPayload} (h : p.Finite)
    (pfx : String) {number : Int} (hnumber : InI32 number) :
    SupportDocumentPayload.ofValue J (((p.toValue J).set "prefix" (.string pfx)).set "number"
      (.number number)) = .ok { p with pfx := pfx, number := number } := by
  have hget : ∀ k, (((p.toValue J).set "prefix" (.string pfx)).set "number" (.number number)).get? k =
      if "number" = k then some (.number number) else if "prefix" = k then some (.string pfx)
      else (p.toValue J).get? k := fun k => get?_set_set k _ _ _ _ _
  generalize ((p.toValue J).set "prefix" (.string pfx)).set "number" (.number number) = v at hget
  have hnet := J.kept h.net_amount
  have htax := J.kept h.tax_amount
  have htotal := J.kept h.total_amount
  have hlines := h.lines.kept (J := J) (v := v) (by simp [hget, toValue])
  simp [ofValue, hlines, requiredField, hget, toValue, readString, readI32_number hnumber, hnet,
    htax, htotal, ok_bind, pure, Except.pure]

end Ubl

/-! ## Floats as numbers -/

theorem Shortest.value_display (x : Shortest) :
    x.display.value = (if x.negative then -1 else 1) * (x.digits * 10 ^ x.exponent) := by
  obtain ⟨n, hn | hn⟩ := x.exponent.eq_nat_or_neg <;>
    simp [Numeral.value, Shortest.display, hn, div_eq_mul_inv]

namespace Ubl

/-- The digits without the zeros at their end, and how many these are. -/
def stripZeros : ℕ → ℕ → ℕ × ℕ
  | 0, m => (m, 0)
  | fuel + 1, m =>
      if m % 10 = 0 then ((stripZeros fuel (m / 10)).1, (stripZeros fuel (m / 10)).2 + 1)
      else (m, 0)

theorem stripZeros_mul {digits : ℕ} (h : digits % 10 ≠ 0) {fuel z : ℕ} (hz : z ≤ fuel) :
    stripZeros fuel (digits * 10 ^ z) = (digits, z) := by
  induction z generalizing fuel with
  | zero =>
    cases fuel with
    | zero => simp [stripZeros]
    | succ fuel => simp [stripZeros, h]
  | succ z ih =>
    obtain ⟨fuel, rfl⟩ := Nat.exists_eq_succ_of_ne_zero (show fuel ≠ 0 by omega)
    have hmul : digits * 10 ^ (z + 1) = digits * 10 ^ z * 10 := by ring
    rw [hmul, stripZeros, if_pos (Nat.mul_mod_left _ _), Nat.mul_div_cancel _ (by norm_num),
      ih (by omega)]

theorem zero_trimmed : (0 : ℕ) % 10 ≠ 0 ∨ (0 : ℕ) = 0 ∧ (0 : ℤ) = 0 := .inr ⟨rfl, rfl⟩

/-- Either zero. -/
def zero (negative : Bool) : Shortest := ⟨negative, 0, 0, by norm_num, zero_trimmed⟩

/-- The `f64` whose shortest numeral denotes the number. -/
def shortestOf (q : ℚ) : Option Shortest :=
  if q = 0 then some (zero false)
  else
    let places := q.den.log2
    let units := q.num.natAbs * 10 ^ places / q.den
    let stripped := stripZeros units.log2 units
    if h : stripped.1 < 10 ^ 17 ∧ stripped.1 % 10 ≠ 0 then
      some (Shortest.ofDigits (q < 0) stripped.1 (stripped.2 - places) h)
    else none

/-- Enough places for all the decimals. -/
theorem places_le {digits den num p : ℕ} (hden : den ≠ 0) (h : num * 10 ^ p = digits * den)
    (hdigits : digits % 10 ≠ 0) : p ≤ den.log2 := by
  have hfactor : ∀ r : ℕ, 2 ≤ r → r ∣ 10 → Nat.Coprime r digits → p ≤ den.log2 := by
    intro r hr hten hcoprime
    have hdvd : r ^ p ∣ digits * den := (pow_dvd_pow_of_dvd hten p).trans (h ▸ dvd_mul_left _ _)
    have hle := Nat.le_of_dvd (Nat.pos_of_ne_zero hden) ((hcoprime.pow_left p).dvd_of_dvd_mul_left hdvd)
    exact (Nat.le_log2 hden).mpr ((Nat.pow_le_pow_left hr p).trans hle)
  by_cases htwo : 2 ∣ digits
  · refine hfactor 5 (by norm_num) (by norm_num) ((Nat.Prime.coprime_iff_not_dvd (by norm_num)).mpr ?_)
    omega
  · exact hfactor 2 (by norm_num) (by norm_num)
      ((Nat.Prime.coprime_iff_not_dvd (by norm_num)).mpr htwo)

theorem shortestOf_value (x : Shortest) (h : x.digits ≠ 0) : shortestOf x.display.value = some x := by
  have htrimmed : x.digits % 10 ≠ 0 := x.trimmed.resolve_right fun h0 => h h0.1
  have hvalue := x.value_display
  generalize x.display.value = q at hvalue
  have hden : (q.den : ℚ) ≠ 0 := Nat.cast_ne_zero.mpr q.den_ne_zero
  have hten : ∀ e : ℤ, (10 : ℚ) ^ e ≠ 0 := fun e => zpow_ne_zero e (by norm_num)
  have hpos : 0 < (x.digits : ℚ) * 10 ^ x.exponent :=
    mul_pos (by exact_mod_cast Nat.pos_of_ne_zero h) (zpow_pos (by norm_num) _)
  have hsize : (q.num.natAbs : ℚ) = x.digits * 10 ^ x.exponent * q.den := by
    have habs : |q| = x.digits * 10 ^ x.exponent := by
      rw [hvalue, abs_mul, abs_of_pos hpos]
      cases x.negative <;> simp
    rw [← habs, Nat.cast_natAbs, Int.cast_abs]
    conv_lhs => rw [← Rat.mul_den_eq_num]
    rw [abs_mul, Nat.abs_cast]
  have hplaces : 0 ≤ x.exponent + q.den.log2 := by
    by_contra hneg
    obtain ⟨p, hp⟩ := Int.eq_ofNat_of_zero_le (show 0 ≤ -x.exponent by omega)
    have hcast : (q.num.natAbs : ℚ) * 10 ^ p = x.digits * q.den := by
      rw [hsize, ← zpow_natCast (10 : ℚ) p, ← hp, zpow_neg]
      field_simp [hten]
    have hle := places_le q.den_ne_zero (by exact_mod_cast hcast) htrimmed
    omega
  obtain ⟨z, hz⟩ := Int.eq_ofNat_of_zero_le hplaces
  have hunits : q.num.natAbs * 10 ^ q.den.log2 / q.den = x.digits * 10 ^ z := by
    refine Nat.div_eq_of_eq_mul_left (Nat.pos_of_ne_zero q.den_ne_zero) ?_
    have hcast : (q.num.natAbs : ℚ) * 10 ^ q.den.log2 = x.digits * 10 ^ z * q.den := by
      rw [hsize, ← zpow_natCast (10 : ℚ) z, ← hz,
        zpow_add₀ (by norm_num), zpow_natCast]
      ring
    exact_mod_cast hcast
  have hstripped : stripZeros (x.digits * 10 ^ z).log2 (x.digits * 10 ^ z) = (x.digits, z) := by
    refine stripZeros_mul htrimmed ((Nat.le_log2 ?_).mpr ?_)
    · exact Nat.mul_ne_zero h (by positivity)
    · exact (Nat.pow_le_pow_left (by norm_num) z).trans (Nat.le_mul_of_pos_left _ (Nat.pos_of_ne_zero h))
  have hsign : decide (q < 0) = x.negative := by
    rw [hvalue]
    cases x.negative
    · simpa using hpos.le
    · simpa using hpos
  have hq : q ≠ 0 := by
    intro hzero
    rw [hzero] at hvalue
    rcases mul_eq_zero.mp hvalue.symm with hneg | hprod
    · cases hx : x.negative <;> simp [hx] at hneg
    · exact hpos.ne' hprod
  unfold shortestOf
  rw [if_neg hq]
  simp only [hunits, hstripped]
  rw [dif_pos ⟨x.short, htrimmed⟩]
  obtain ⟨negative, digits, exponent, _, _⟩ := x
  simp only [Shortest.ofDigits, Option.some.injEq, Shortest.mk.injEq]
  exact ⟨hsign, trivial, by dsimp only at hz; omega⟩

/-- The number. A `Value` has no negative zero, for which its text stands. -/
def numberValue (x : Shortest) : Value :=
  if x.digits = 0 ∧ x.negative then .string "-0.0" else .number x.display.value

def readNumber : Value → Except String F64
  | .number q =>
      match shortestOf q with
      | some x => .ok (.finite x)
      | none => .error "invalid value, expected f64"
  | .string "-0.0" => .ok (.finite (zero true))
  | _ => .error "invalid type, expected f64"

theorem readNumber_numberValue (x : Shortest) : readNumber (numberValue x) = .ok (.finite x) := by
  by_cases h : x.digits = 0
  · obtain ⟨negative, digits, exponent, hshort, htrimmed⟩ := x
    obtain rfl : digits = 0 := h
    obtain ⟨-, rfl⟩ := htrimmed.resolve_left (by simp)
    cases negative with
    | true => rfl
    | false =>
      have hzero : (Shortest.mk false 0 0 hshort htrimmed).display.value = 0 := by
        rw [Shortest.value_display]
        simp
      rw [numberValue, if_neg (by simp), hzero]
      rfl
  · rw [numberValue, if_neg fun h0 => h h0.1, readNumber, shortestOf_value x h]

def jsonNumbers : Floats where
  write
    | .finite x => numberValue x
    | _ => .null
  read := readNumber
  read_write := readNumber_numberValue

end Ubl

end DianService
