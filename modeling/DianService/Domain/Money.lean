import DianService.Domain.Models
import DianService.Lib.Numeral

/-
  Domain: `money.rs`, the amounts of the API. An `f64` is known by the shortest decimal numeral
  that denotes it, which is what `Display` prints and `Decimal::from_str` reads.
-/

namespace DianService

open Lib

/-! ## What `f64` prints -/

/-- A number in positional notation: its digits, `places` of them after the point. -/
structure Numeral where
  negative : Bool
  digits : ℕ
  places : ℕ

def Numeral.value (n : Numeral) : ℚ := (if n.negative then -1 else 1) * n.digits / 10 ^ n.places

/-- The shortest digits of a finite `f64`: at most seventeen, the last one not zero. -/
structure Shortest where
  negative : Bool
  digits : ℕ
  exponent : ℤ
  short : digits < 10 ^ 17
  trimmed : digits % 10 ≠ 0 ∨ digits = 0 ∧ exponent = 0

/-- A number other than zero. -/
def Shortest.ofDigits (negative : Bool) (digits : ℕ) (exponent : ℤ)
    (h : digits < 10 ^ 17 ∧ digits % 10 ≠ 0) : Shortest :=
  ⟨negative, digits, exponent, h.1, .inl h.2⟩

inductive F64 where
  | nan
  | infinite (negative : Bool)
  | finite (shortest : Shortest)

/-- `Display`: never in scientific notation. -/
def Shortest.display (x : Shortest) : Numeral where
  negative := x.negative
  digits := x.digits * 10 ^ x.exponent.toNat
  places := (-x.exponent).toNat

/-- The number that a value denotes. -/
def F64.number? : F64 → Option ℚ
  | .finite x => some x.display.value
  | _ => none

/-! ## Amounts -/

/-- The most decimals of an amount in COP. -/
def MAX_SCALE : ℕ := 2

/-- `Decimal::from_str` of a numeral of at most 17 significant digits: those past the 28th decimal
    are rounded, and it fails where the number is too large. -/
def fromStr (n : Numeral) : Option Decimal :=
  if n.places ≤ maxScale then Decimal.ofRat? n.value
  else Decimal.ofRat? (roundPlaces maxScale n.value)

def toAmount (field : String) : F64 → Except DomainError Decimal
  | .nan | .infinite _ => .error (.validation ("El monto '" ++ field ++ "' no es un numero valido"))
  | .finite x =>
      match fromStr x.display with
      | none => .error (.validation ("El monto '" ++ field ++ "' no es representable"))
      | some amount =>
          if amount.value < 0 then
            .error (.validation ("El monto '" ++ field ++ "' no puede ser negativo"))
          else if MAX_SCALE < amount.scale then
            .error (.validation ("El monto '" ++ field ++ "' admite como maximo " ++
              toString MAX_SCALE ++ " decimales"))
          else .ok amount

def formatAmount (amount : Decimal) : String := amount.toFixed MAX_SCALE

def requireEqual (description : String) (expected actual : Decimal) : Except DomainError Unit :=
  if expected.value ≠ actual.value then
    .error (.validation (description ++ ": se esperaba " ++ formatAmount expected ++
      " pero se recibio " ++ formatAmount actual))
  else .ok ()

/-! ## What is accepted -/

theorem toAmount_ok {field : String} {v : F64} {d : Decimal} (h : toAmount field v = .ok d) :
    0 ≤ d.value ∧ HasPlaces MAX_SCALE d.value := by
  unfold toAmount at h
  split at h
  · cases h
  · cases h
  · split at h
    · cases h
    · split at h
      · cases h
      · split at h
        · cases h
        · rename_i hneg hscale
          cases h
          exact ⟨not_lt.mp hneg, (Decimal.scale_le_iff _ _).mp (not_lt.mp hscale)⟩

/-- An amount is printed without loss. -/
theorem shows_formatAmount {d : Decimal} (h : HasPlaces MAX_SCALE d.value) :
    Shows (formatAmount d) MAX_SCALE d.value :=
  Decimal.shows_toFixed h

/-! ## What the conversion keeps -/

section Shortest

variable (x : Shortest)

theorem Shortest.units : ∃ m : ℤ, |m| = (x.display.digits : ℤ) ∧
    x.display.value * 10 ^ x.display.places = m := by
  refine ⟨(if x.negative then -1 else 1) * x.display.digits, ?_, ?_⟩
  · rw [abs_mul, Nat.abs_cast]
    split <;> simp
  · rw [Numeral.value, div_mul_cancel₀ _ (by positivity)]
    show (if x.negative then (-1 : ℚ) else 1) * _ = _
    push_cast
    rfl

/-- The shortest digits have no more decimals than the number. -/
theorem Shortest.places_le {s : ℕ} (h : HasPlaces s x.display.value) : x.display.places ≤ s := by
  by_contra hlt
  obtain ⟨n, hn⟩ := h
  obtain ⟨m, hm, hvalue⟩ := x.units
  have hplaces : x.display.places = (-x.exponent).toNat := rfl
  have hdigits : x.display.digits = x.digits := by
    show x.digits * 10 ^ x.exponent.toNat = _
    rw [show x.exponent.toNat = 0 by omega, pow_zero, mul_one]
  obtain ⟨k, hk⟩ : ∃ k, x.display.places = s + (k + 1) := ⟨x.display.places - s - 1, by omega⟩
  have hm' : m = n * 10 ^ k * 10 := by
    have hq : (m : ℚ) = ((n * 10 ^ k * 10 : ℤ) : ℚ) := by
      rw [← hvalue, hk, pow_add, pow_succ, ← mul_assoc, hn]
      push_cast
      ring
    exact_mod_cast hq
  obtain hlast | ⟨-, hexponent⟩ := x.trimmed
  · have hten : (10 : ℤ) ∣ x.display.digits := by
      rw [← hm, dvd_abs, hm']
      exact dvd_mul_left _ _
    omega
  · omega

theorem Shortest.places_le_iff {s : ℕ} : x.display.places ≤ s ↔ HasPlaces s x.display.value := by
  refine ⟨fun h => ?_, x.places_le⟩
  obtain ⟨m, -, hvalue⟩ := x.units
  exact HasPlaces.mono ⟨m, hvalue⟩ h

/-- A number with more than 28 decimals is small. -/
theorem Shortest.abs_lt_of_places (h : maxScale < x.display.places) :
    x.display.value ≠ 0 ∧ |x.display.value| < 1 / 10 ^ 12 := by
  obtain ⟨m, hm, hvalue⟩ := x.units
  have hplaces : x.display.places = (-x.exponent).toNat := rfl
  have hmax : maxScale = 28 := rfl
  have hdigits : x.display.digits = x.digits := by
    show x.digits * 10 ^ x.exponent.toNat = _
    rw [show x.exponent.toNat = 0 by omega, pow_zero, mul_one]
  have hpos : (0 : ℚ) < 10 ^ x.display.places := by positivity
  have hm0 : m ≠ 0 := by
    rintro rfl
    have htrimmed := x.trimmed
    rw [abs_zero] at hm
    omega
  have hmq : |x.display.value| * 10 ^ x.display.places = |(m : ℚ)| := by
    rw [← hvalue, abs_mul, abs_of_pos hpos]
  refine ⟨fun hzero => ?_, ?_⟩
  · rw [hzero, zero_mul] at hvalue
    exact hm0 (by exact_mod_cast hvalue.symm)
  · have hlt : |(m : ℚ)| < 10 ^ 17 := by
      have hshort : |m| < 10 ^ 17 := by
        rw [hm, hdigits]
        exact_mod_cast x.short
      exact_mod_cast hshort
    have hpow : (10 : ℚ) ^ 29 ≤ 10 ^ x.display.places := pow_le_pow_right₀ (by norm_num) (by omega)
    rw [lt_div_iff₀ (by positivity)]
    nlinarith [abs_nonneg x.display.value]

end Shortest

/-- An amount: not negative, with at most two decimals, and not too large. -/
def F64.IsAmount : F64 → Prop
  | .finite x => 0 ≤ x.display.value ∧ x.display.places ≤ MAX_SCALE ∧ Fits x.display.value
  | _ => False

/-- `to_amount` accepts the amounts, as the numbers that they denote. -/
def Converts (field : String) (v : F64) : Prop :=
  ((∃ d, toAmount field v = .ok d) ↔ v.IsAmount) ∧
    ∀ d, toAmount field v = .ok d →
      v.number? = some d.value ∧ Shows (formatAmount d) MAX_SCALE d.value

/-- A number that rounds to zero at the 28th decimal. -/
def F64.Vanishes (v : F64) : Prop := ∃ x, v.number? = some x ∧ x ≠ 0 ∧ |x| < 5 / 10 ^ 29

section Converts

variable {field : String} {x : Shortest}

/-- What `to_amount` makes of a number that is read as `d`. -/
theorem toAmount_of_fromStr {d e : Decimal} (h : fromStr x.display = some d) :
    toAmount field (.finite x) = .ok e ↔ e = d ∧ 0 ≤ d.value ∧ HasPlaces MAX_SCALE d.value := by
  simp only [toAmount, h]
  split
  · rename_i hneg
    exact iff_of_false (fun h => by cases h) fun h => absurd h.2.1 (not_le.mpr hneg)
  · rename_i hnonneg
    split
    · rename_i hscale
      refine iff_of_false (fun h => by cases h) fun h => ?_
      exact absurd ((d.scale_le_iff _).mpr h.2.2) (not_le.mpr hscale)
    · rename_i hscale
      rw [Except.ok.injEq]
      exact ⟨fun h => ⟨h.symm, not_lt.mp hnonneg, (d.scale_le_iff _).mp (not_lt.mp hscale)⟩,
        fun h => h.1.symm⟩

theorem toAmount_of_none (h : fromStr x.display = none) :
    ∀ e, toAmount field (.finite x) ≠ .ok e := by
  intro e heq
  simp only [toAmount, h] at heq
  cases heq

/-- A number with at most 28 decimals is read exactly. -/
theorem converts_of_places (h : x.display.places ≤ maxScale) : Converts field (.finite x) := by
  have hread : fromStr x.display = Decimal.ofRat? x.display.value := if_pos h
  have hplaces := x.places_le_iff (s := MAX_SCALE)
  cases hd : Decimal.ofRat? x.display.value with
  | none =>
      have hnone : ∀ e, toAmount field (.finite x) ≠ .ok e := toAmount_of_none (hread.trans hd)
      refine ⟨iff_of_false (fun ⟨e, he⟩ => hnone e he) fun hamount => ?_, fun e he => ?_⟩
      · rw [Decimal.ofRat?, dif_pos hamount.2.2] at hd
        cases hd
      · exact absurd he (hnone e)
  | some d =>
      have hvalue : d.value = x.display.value := Decimal.ofRat?_eq_some.mp hd
      have hok : ∀ e, toAmount field (.finite x) = .ok e ↔ _ := fun e =>
        toAmount_of_fromStr (hread.trans hd)
      refine ⟨⟨fun ⟨e, he⟩ => ?_, fun hamount => ⟨d, (hok d).mpr ⟨rfl, ?_, ?_⟩⟩⟩, fun e he => ?_⟩
      · obtain ⟨-, hnonneg, hscale⟩ := (hok e).mp he
        rw [hvalue] at hnonneg hscale
        exact ⟨hnonneg, hplaces.mpr hscale, hvalue ▸ d.fits⟩
      · rw [hvalue]
        exact hamount.1
      · rw [hvalue]
        exact hplaces.mp hamount.2.1
      · obtain ⟨rfl, -, hscale⟩ := (hok e).mp he
        exact ⟨congrArg some hvalue.symm, shows_formatAmount hscale⟩

/-- A number with more decimals is read as a tiny one, zero or not. -/
theorem fromStr_of_places (h : maxScale < x.display.places) :
    ∃ d, fromStr x.display = some d ∧ d.value = roundPlaces maxScale x.display.value := by
  obtain ⟨-, hsmall⟩ := x.abs_lt_of_places h
  have hfits : Fits (roundPlaces maxScale x.display.value) := by
    refine ⟨maxScale, le_refl _, _, abs_roundAway_le ?_, div_mul_cancel₀ _ (by positivity)⟩
    rw [abs_mul, abs_of_pos (by positivity : (0 : ℚ) < 10 ^ maxScale)]
    calc |x.display.value| * 10 ^ maxScale ≤ 1 / 10 ^ 12 * 10 ^ maxScale :=
          mul_le_mul_of_nonneg_right hsmall.le (by positivity)
      _ ≤ maxMantissa := by norm_num [maxScale, maxMantissa]
  refine ⟨⟨_, hfits⟩, ?_, rfl⟩
  rw [fromStr, if_neg (not_le.mpr h)]
  exact Decimal.ofRat?_eq_some.mpr rfl

/-- Zero is the only tiny amount. -/
theorem eq_zero_of_small {y : ℚ} (hplaces : HasPlaces MAX_SCALE y) (hsmall : |y| < 1 / 100) :
    y = 0 := by
  obtain ⟨m, hm⟩ := hplaces
  have hlt : |(m : ℚ)| < 1 := by
    rw [← hm, abs_mul, abs_of_pos (by positivity : (0 : ℚ) < 10 ^ MAX_SCALE)]
    calc |y| * 10 ^ MAX_SCALE < 1 / 100 * 10 ^ MAX_SCALE :=
          mul_lt_mul_of_pos_right hsmall (by positivity)
      _ = 1 := by norm_num [MAX_SCALE]
  have hzero : m = 0 := Int.abs_lt_one_iff.mp (by exact_mod_cast hlt)
  rw [hzero, Int.cast_zero, mul_eq_zero] at hm
  exact hm.resolve_right (by positivity)

theorem roundPlaces_eq_zero (y : ℚ) : roundPlaces maxScale y = 0 ↔ |y| < 5 / 10 ^ 29 := by
  have hpow : (0 : ℚ) < 10 ^ maxScale := by positivity
  rw [roundPlaces, div_eq_zero_iff, or_iff_left hpow.ne', Int.cast_eq_zero, roundAway_eq_zero,
    abs_mul, abs_of_pos hpow, ← lt_div_iff₀ hpow,
    show (1 / 2 : ℚ) / 10 ^ maxScale = 5 / 10 ^ 29 by norm_num [maxScale]]

end Converts

/-- `to_amount` does what it says of every value but those that vanish: it accepts them as zero,
    whatever their sign. -/
theorem converts_iff (field : String) (v : F64) : Converts field v ↔ ¬ v.Vanishes := by
  cases v with
  | nan | infinite negative =>
      refine iff_of_true ⟨iff_of_false (fun ⟨e, he⟩ => ?_) id, fun e he => ?_⟩ fun ⟨x, hx, _⟩ => ?_
      · cases he
      · cases he
      · cases hx
  | finite x =>
      by_cases hplaces : x.display.places ≤ maxScale
      · refine iff_of_true (converts_of_places hplaces) fun ⟨y, hy, hne, hsmall⟩ => ?_
        cases hy
        have hexact := roundPlaces_eq_self (x.places_le_iff.mp hplaces)
        rw [← roundPlaces_eq_zero, hexact] at hsmall
        exact hne hsmall
      · obtain ⟨hne, hbound⟩ := x.abs_lt_of_places (not_le.mp hplaces)
        obtain ⟨d, hd, hvalue⟩ := fromStr_of_places (not_le.mp hplaces)
        have hnot : ¬ F64.IsAmount (.finite x) := fun h =>
          hplaces (h.2.1.trans (by decide))
        have hok : ∀ e, toAmount field (.finite x) = .ok e ↔ _ := fun e => toAmount_of_fromStr hd
        constructor
        · rintro ⟨hiff, -⟩ ⟨y, hy, -, hsmall⟩
          cases hy
          rw [← roundPlaces_eq_zero, ← hvalue] at hsmall
          refine hnot (hiff.mp ⟨d, (hok d).mpr ⟨rfl, hsmall.ge, ?_⟩⟩)
          rw [hsmall]
          exact ⟨0, by simp⟩
        · intro hlarge
          -- what is left of the number is too small for two decimals
          have hrejected : ∀ e, toAmount field (.finite x) ≠ .ok e := by
            intro e he
            obtain ⟨-, -, hscale⟩ := (hok e).mp he
            refine hlarge ⟨_, rfl, hne, ?_⟩
            rw [← roundPlaces_eq_zero, ← hvalue]
            refine eq_zero_of_small hscale ?_
            have hround := abs_roundPlaces_sub maxScale x.display.value
            rw [← hvalue] at hround
            have htri := abs_sub_abs_le_abs_sub d.value x.display.value
            have htiny : (1 : ℚ) / 2 / 10 ^ maxScale ≤ 1 / 1000 := by norm_num [maxScale]
            have hbound' : (1 : ℚ) / 10 ^ 12 ≤ 1 / 1000 := by norm_num
            linarith
          exact ⟨iff_of_false (fun ⟨e, he⟩ => hrejected e he) hnot,
            fun e he => absurd he (hrejected e)⟩

/-- `-1e-30`. -/
def tinyDebt : Shortest := ⟨true, 1, -30, by decide, .inl (by decide)⟩

/-- It is accepted, as zero. -/
theorem tiny_debt_accepted :
    toAmount "net_amount" (.finite tinyDebt) = .ok .zero ∧ ¬ ∀ field v, Converts field v := by
  have hok : toAmount "net_amount" (.finite tinyDebt) = .ok .zero := by decide +kernel
  refine ⟨hok, fun hall => ?_⟩
  have hamount := (hall "net_amount" (.finite tinyDebt)).1.mp ⟨_, hok⟩
  exact absurd hamount.2.1 (by decide)

end DianService
