import DianService.Crypto.Xades
import DianService.Lib.Radix

/-
  Crypto: the serial number of a certificate in decimal (`decimal_from_be_bytes`), with the machine
  integers of the code. The digits are `u8`, the carry is a `u32`; `none` is an overflow. The carry
  of one byte into digits below 10 stays below 256, hence no product passes 2559 and no overflow
  is reached. `decimalFromBeBytes`, the same on natural numbers, is what it computes.
-/

namespace DianService.Serial

open DianService.Lib.Radix

/-- `a * b` in a `u32`. -/
def mulU32 (a b : UInt32) : Option UInt32 :=
  if a.toNat * b.toNat < 2 ^ 32 then some (a * b) else none

/-- `a + b` in a `u32`. -/
def addU32 (a b : UInt32) : Option UInt32 :=
  if a.toNat + b.toNat < 2 ^ 32 then some (a + b) else none

/-- `a + b` in a `u8`. -/
def addU8 (a b : UInt8) : Option UInt8 :=
  if a.toNat + b.toNat < 2 ^ 8 then some (a + b) else none

/-! ## The loops -/

/-- What one round leaves in `digit`, and the next carry. -/
def updateDigit (digit : UInt8) (carry : UInt32) : Option (UInt8 × UInt32) := do
  let product ← mulU32 digit.toUInt32 256
  let value ← addU32 product carry
  some ((value % 10).toUInt8, value / 10)

/-- `for digit in digits.iter_mut()` -/
def updateDigits : List UInt8 → UInt32 → Option (List UInt8 × UInt32)
  | [], carry => some ([], carry)
  | digit :: digits, carry => do
      let first ← updateDigit digit carry
      let rest ← updateDigits digits first.2
      some (first.1 :: rest.1, rest.2)

/-- `while carry > 0` -/
def pushCarry (digits : List UInt8) (carry : UInt32) : List UInt8 :=
  if 0 < carry then pushCarry (digits ++ [(carry % 10).toUInt8]) (carry / 10) else digits
termination_by carry.toNat
decreasing_by
  rename_i hcarry
  rw [UInt32.toNat_div]
  exact Nat.div_lt_self (UInt32.lt_iff_toNat_lt.mp hcarry) (by decide)

def pushByte (digits : List UInt8) (byte : UInt8) : Option (List UInt8) := do
  let updated ← updateDigits digits byte.toUInt32
  some (pushCarry updated.1 updated.2)

/-- `char::from(b'0' + d)` -/
def digitChar (d : UInt8) : Option Char := do
  let code ← addU8 48 d
  some (Char.ofNat code.toNat)

def decimalFromBeBytes (bytes : List UInt8) : Option String := do
  let digits ← bytes.foldlM pushByte [0]
  let characters ← digits.reverse.mapM digitChar
  some (String.ofList characters)

/-! ## One byte -/

/-- The digits as numbers. -/
def numbers (digits : List UInt8) : List ℕ := digits.map UInt8.toNat

theorem updateDigit_eq {digit : UInt8} {carry : UInt32} (hdigit : digit.toNat < 10)
    (hcarry : carry.toNat < 256) : ∃ d c, updateDigit digit carry = some (d, c) ∧
      d.toNat = (digit.toNat * 256 + carry.toNat) % 10 ∧
      c.toNat = (digit.toNat * 256 + carry.toNat) / 10 := by
  have hproduct : (digit.toUInt32 * 256).toNat = digit.toNat * 256 := by
    rw [UInt32.toNat_mul, UInt8.toNat_toUInt32]
    exact Nat.mod_eq_of_lt (by change digit.toNat * 256 < 2 ^ 32; omega)
  have hvalue : (digit.toUInt32 * 256 + carry).toNat = digit.toNat * 256 + carry.toNat := by
    rw [UInt32.toNat_add, hproduct]
    exact Nat.mod_eq_of_lt (by omega)
  have hmul : mulU32 digit.toUInt32 256 = some (digit.toUInt32 * 256) :=
    if_pos (by change digit.toNat * 256 < 2 ^ 32; omega)
  have hadd : addU32 (digit.toUInt32 * 256) carry = some (digit.toUInt32 * 256 + carry) :=
    if_pos (by rw [hproduct]; omega)
  refine ⟨_, _, by simp only [updateDigit, hmul, hadd, Option.bind_eq_bind, Option.bind_some];
                   rfl, ?_, ?_⟩
  · rw [UInt32.toNat_toUInt8, UInt32.toNat_mod, hvalue]
    change _ % 10 % 2 ^ 8 = _
    omega
  · rw [UInt32.toNat_div, hvalue]
    rfl

theorem pushCarry_numbers (digits : List UInt8) (carry : UInt32) :
    numbers (pushCarry digits carry) = numbers digits ++ Nat.digits 10 carry.toNat := by
  fun_induction pushCarry digits carry with
  | case1 digits carry hcarry ih =>
    have hpos : 0 < carry.toNat := UInt32.lt_iff_toNat_lt.mp hcarry
    have hlast : ((carry % 10).toUInt8).toNat = carry.toNat % 10 := by
      rw [UInt32.toNat_toUInt8, UInt32.toNat_mod]
      change _ % 10 % 2 ^ 8 = _
      omega
    rw [ih, Nat.digits_def' (by decide) hpos, UInt32.toNat_div]
    simp only [numbers, List.map_append, List.map_cons, List.map_nil, hlast, List.append_assoc,
      List.singleton_append]
    rfl
  | case2 digits carry hcarry =>
    have hzero : carry.toNat = 0 := by
      have hle := mt UInt32.lt_iff_toNat_lt.mpr hcarry
      change ¬ 0 < carry.toNat at hle
      omega
    rw [hzero, Nat.digits_zero, List.append_nil]

/-- The loop over the digits, and the pushes after it, are one multiplication with carry. -/
theorem updateDigits_eq {digits : List UInt8} (hdigits : ∀ d ∈ numbers digits, d < 10)
    {carry : UInt32} (hcarry : carry.toNat < 256) :
    ∃ ds c, updateDigits digits carry = some (ds, c) ∧
      numbers ds ++ Nat.digits 10 c.toNat = mulAdd 10 256 (numbers digits) carry.toNat := by
  induction digits generalizing carry with
  | nil => exact ⟨[], carry, rfl, rfl⟩
  | cons digit digits ih =>
    obtain ⟨hdigit, hrest⟩ := List.forall_mem_cons.mp hdigits
    obtain ⟨d, c, hfirst, hd, hc⟩ := updateDigit_eq hdigit hcarry
    have hnext : c.toNat < 256 := hc ▸ carry_lt hdigit hcarry
    obtain ⟨ds, last, hupdated, hnumbers⟩ := ih hrest hnext
    refine ⟨d :: ds, last, ?_, ?_⟩
    · simp only [updateDigits, hfirst, hupdated, Option.bind_eq_bind, Option.bind_some]
    · change d.toNat :: (numbers ds ++ Nat.digits 10 last.toNat) = mulAdd 10 256
        (digit.toNat :: numbers digits) carry.toNat
      rw [hnumbers, mulAdd, hd, hc]

theorem pushByte_eq {digits : List UInt8} (hdigits : ∀ d ∈ numbers digits, d < 10)
    (byte : UInt8) : ∃ ds, pushByte digits byte = some ds ∧
      numbers ds = mulAdd 10 256 (numbers digits) byte.toNat := by
  have hbyte : byte.toUInt32.toNat < 256 := by
    rw [UInt8.toNat_toUInt32]
    exact byte.toNat_lt
  obtain ⟨ds, c, hupdated, hnumbers⟩ := updateDigits_eq hdigits hbyte
  refine ⟨pushCarry ds c, ?_, ?_⟩
  · simp only [pushByte, hupdated, Option.bind_eq_bind, Option.bind_some]
  · rw [pushCarry_numbers, hnumbers, UInt8.toNat_toUInt32]

/-! ## All the bytes -/

theorem pushBytes_eq (bytes : List UInt8) {digits : List UInt8}
    (hdigits : ∀ d ∈ numbers digits, d < 10) : ∃ ds, bytes.foldlM pushByte digits = some ds ∧
      numbers ds = (numbers bytes).foldl (mulAdd 10 256) (numbers digits) := by
  induction bytes generalizing digits with
  | nil => exact ⟨digits, rfl, rfl⟩
  | cons byte bytes ih =>
    obtain ⟨next, hpush, hnext⟩ := pushByte_eq hdigits byte
    have hbelow : ∀ d ∈ numbers next, d < 10 := by
      rw [hnext]
      exact lt_of_mem_mulAdd (by decide)
    obtain ⟨ds, hfold, hnumbers⟩ := ih hbelow
    refine ⟨ds, ?_, ?_⟩
    · rw [List.foldlM_cons, hpush]
      exact hfold
    · rw [hnumbers, hnext]
      rfl

/-- The character of a digit. -/
def characterOf (d : ℕ) : Char := Char.ofNat (48 + d)

theorem digitChar_eq {d : UInt8} (hd : d.toNat < 10) :
    digitChar d = some (characterOf d.toNat) := by
  have hsum : (48 + d).toNat = 48 + d.toNat := by
    rw [UInt8.toNat_add]
    exact Nat.mod_eq_of_lt (by change 48 + d.toNat < 2 ^ 8; omega)
  have hadd : addU8 48 d = some (48 + d) :=
    if_pos (by change 48 + d.toNat < 2 ^ 8; omega)
  rw [digitChar, hadd, Option.bind_eq_bind, Option.bind_some, hsum]
  rfl

theorem digitChars_eq {digits : List UInt8} (hdigits : ∀ d ∈ numbers digits, d < 10) :
    digits.mapM digitChar = some ((numbers digits).map characterOf) := by
  induction digits with
  | nil => rfl
  | cons digit digits ih =>
    obtain ⟨hdigit, hrest⟩ := List.forall_mem_cons.mp hdigits
    rw [List.mapM_cons, digitChar_eq hdigit, ih hrest]
    rfl

/-! ## Decimal notation -/

theorem characterOf_eq {d : ℕ} (hd : d < 10) : characterOf d = Nat.digitChar d := by
  interval_cases d <;> rfl

theorem toDigits_eq {n : ℕ} (hn : n ≠ 0) :
    Nat.toDigits 10 n = (Nat.digits 10 n).reverse.map characterOf := by
  induction n using Nat.strong_induction_on with
  | h n ih =>
    rw [Nat.digits_def' (by decide) (Nat.pos_of_ne_zero hn), List.reverse_cons, List.map_append]
    have hlast : characterOf (n % 10) = Nat.digitChar (n % 10) :=
      characterOf_eq (Nat.mod_lt _ (by decide))
    by_cases hsmall : n < 10
    · rw [Nat.toDigits_of_lt_base hsmall, Nat.div_eq_of_lt hsmall, Nat.digits_zero,
        List.map_singleton, hlast, Nat.mod_eq_of_lt hsmall]
      rfl
    · have hdiv : n / 10 ≠ 0 := by omega
      rw [Nat.toDigits_of_base_le (by decide) (by omega),
        ih (n / 10) (Nat.div_lt_self (by omega) (by decide)) hdiv, List.map_singleton, hlast]

/-- The text of the digits that `convert` writes. -/
theorem text_of_convert {n : ℕ} :
    String.ofList ((if n = 0 then [0] else Nat.digits 10 n).reverse.map characterOf) =
      toString n := by
  rw [Nat.toString_eq_ofList_toDigits]
  by_cases hn : n = 0
  · rw [if_pos hn, hn]
    rfl
  · rw [if_neg hn, toDigits_eq hn]

/-- The number that the bytes denote, the most significant first. -/
def ofBeBytes (bytes : List UInt8) : ℕ := bytes.foldl (fun n byte => n * 256 + byte.toNat) 0

theorem convert_bytes (bytes : List UInt8) : convert 10 256 (numbers bytes) =
    if ofBeBytes bytes = 0 then [0] else Nat.digits 10 (ofBeBytes bytes) := by
  rw [convert_eq (by decide) (by decide), numbers, List.foldl_map]
  rfl

theorem carryInto_eq (digits : List ℕ) (carry : ℕ) :
    carryInto digits carry = mulAdd 10 256 digits carry := by
  induction digits generalizing carry with
  | nil => rfl
  | cons d ds ih => rw [carryInto, mulAdd, ih]

theorem decimal_of_bytes (bytes : List UInt8) :
    DianService.decimalFromBeBytes bytes = toString (ofBeBytes bytes) := by
  have hdigits : bytes.foldl (fun digits byte => carryInto digits byte.toNat) [0] =
      convert 10 256 (numbers bytes) := by
    rw [convert, numbers, List.foldl_map]
    simp only [carryInto_eq]
  rw [DianService.decimalFromBeBytes, hdigits, convert_bytes]
  exact text_of_convert

/-- No operation overflows, and the text is the decimal notation of the number. -/
theorem decimalFromBeBytes_eq (bytes : List UInt8) :
    decimalFromBeBytes bytes = some (toString (ofBeBytes bytes)) ∧
      DianService.decimalFromBeBytes bytes = toString (ofBeBytes bytes) := by
  have hzero : ∀ d ∈ numbers [0], d < 10 := by decide
  obtain ⟨ds, hfold, hnumbers⟩ := pushBytes_eq bytes hzero
  change numbers ds = convert 10 256 (numbers bytes) at hnumbers
  have hlt : ∀ d ∈ numbers ds.reverse, d < 10 := by
    intro d hd
    rw [numbers, List.map_reverse, List.mem_reverse] at hd
    rw [← numbers, hnumbers] at hd
    exact (convert_from (by decide) (by decide) (numbers bytes) (.inl rfl) (by decide)).2.1 d hd
  refine ⟨?_, decimal_of_bytes bytes⟩
  rw [decimalFromBeBytes, hfold, Option.bind_eq_bind, Option.bind_some, digitChars_eq hlt,
    Option.bind_eq_bind, Option.bind_some, numbers, List.map_reverse, ← numbers, hnumbers,
    convert_bytes, text_of_convert]

end DianService.Serial
