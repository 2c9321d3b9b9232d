import DianService.Lib.Decimal
import Mathlib.Data.List.TakeWhile

/-
  Numbers in positional notation: how a number of `places` decimals is written, and what number a
  text denotes. A number that has no more decimals than are written is denoted exactly.
-/

namespace DianService.Lib

/-! ## Writing -/

/-- The digits of `n`, with leading zeros. -/
def padded (places n : ℕ) : List Char :=
  List.replicate (places - (Nat.toDigits 10 n).length) '0' ++ Nat.toDigits 10 n

/-- The digits of `n` units of the last place. -/
def positionalDigits (places n : ℕ) : List Char :=
  Nat.toDigits 10 (n / 10 ^ places) ++
    if places = 0 then [] else '.' :: padded places (n % 10 ^ places)

def positional (places : ℕ) (m : ℤ) : String :=
  String.ofList (if m < 0 then '-' :: positionalDigits places m.natAbs
    else positionalDigits places m.natAbs)

/-! ## Reading -/

/-- The digits before the point. -/
def wholeDigits (text : List Char) : List Char := text.takeWhile (· ≠ '.')

/-- The digits after the point. -/
def fractionDigits (text : List Char) : List Char := (text.dropWhile (· ≠ '.')).drop 1

def digitsValue (text : List Char) : ℚ :=
  Nat.ofDigitChars 10 (wholeDigits text ++ fractionDigits text) 0 /
    10 ^ (fractionDigits text).length

def numeralValue : List Char → ℚ
  | '-' :: text => -digitsValue text
  | text => digitsValue text

/-- The text denotes `x` and has `places` digits after the point. -/
structure Shows (text : String) (places : ℕ) (x : ℚ) : Prop where
  places : (fractionDigits text.toList).length = places
  value : numeralValue text.toList = x

/-! ## What is written is read -/

section Digits

variable {places n : ℕ}

theorem isDigit_of_mem_padded {c : Char} (h : c ∈ padded places n) : c.isDigit = true := by
  obtain hzero | hdigit := List.mem_append.mp h
  · rw [List.eq_of_mem_replicate hzero]
    rfl
  · exact Nat.isDigit_of_mem_toDigits (by decide) (by decide) hdigit

theorem padded_length (hpos : 0 < places) (hn : n < 10 ^ places) :
    (padded places n).length = places := by
  have hle := (Nat.length_toDigits_le_iff (by decide) hpos).mpr hn
  rw [padded, List.length_append, List.length_replicate]
  omega

theorem ofDigitChars_padded (init : ℕ) :
    Nat.ofDigitChars 10 (padded places n) init = 10 ^ (padded places n).length * init + n := by
  rw [Nat.ofDigitChars_eq_ofDigitChars_zero]
  congr 1
  rw [padded, Nat.ofDigitChars_append, Nat.ofDigitChars_replicate_zero, Nat.mul_zero,
    Nat.ofDigitChars_ten_toDigits]

theorem toDigits_ne_point {c : Char} (h : c ∈ Nat.toDigits 10 n) : c ≠ '.' := by
  rintro rfl
  have hdigit := Nat.isDigit_of_mem_toDigits (by decide) (by decide) h
  exact absurd hdigit (by decide)

theorem digits_split {whole rest : List Char} (hwhole : ∀ c ∈ whole, c ≠ '.') :
    wholeDigits (whole ++ '.' :: rest) = whole ∧ fractionDigits (whole ++ '.' :: rest) = rest := by
  have hall : ∀ c ∈ whole, decide (c ≠ '.') = true := fun c hc => decide_eq_true (hwhole c hc)
  constructor
  · rw [wholeDigits, List.takeWhile_append_of_pos hall]
    simp
  · rw [fractionDigits, List.dropWhile_append_of_pos hall]
    simp

theorem digits_whole {whole : List Char} (hwhole : ∀ c ∈ whole, c ≠ '.') :
    wholeDigits whole = whole ∧ fractionDigits whole = [] := by
  have hall : ∀ c ∈ whole, decide (c ≠ '.') = true := fun c hc => decide_eq_true (hwhole c hc)
  constructor
  · rw [wholeDigits, List.takeWhile_eq_self_iff.mpr hall]
  · rw [fractionDigits, List.dropWhile_eq_nil_iff.mpr hall]
    rfl

theorem fractionDigits_positionalDigits :
    (fractionDigits (positionalDigits places n)).length = places := by
  have hwhole : ∀ c ∈ Nat.toDigits 10 (n / 10 ^ places), c ≠ '.' := fun c => toDigits_ne_point
  unfold positionalDigits
  split
  · rename_i hzero
    rw [List.append_nil, (digits_whole hwhole).2, hzero]
    rfl
  · rename_i hpos
    rw [(digits_split hwhole).2]
    exact padded_length (Nat.pos_of_ne_zero hpos) (Nat.mod_lt _ (by positivity))

theorem digitsValue_positionalDigits :
    digitsValue (positionalDigits places n) = n / 10 ^ places := by
  have hwhole : ∀ c ∈ Nat.toDigits 10 (n / 10 ^ places), c ≠ '.' := fun c => toDigits_ne_point
  rw [digitsValue, fractionDigits_positionalDigits]
  unfold positionalDigits
  split
  · rename_i hzero
    subst hzero
    rw [List.append_nil, (digits_whole hwhole).1, (digits_whole hwhole).2, List.append_nil,
      Nat.ofDigitChars_ten_toDigits]
    simp
  · rename_i hpos
    have hlength := padded_length (Nat.pos_of_ne_zero hpos)
      (Nat.mod_lt n (by positivity : 0 < 10 ^ places))
    rw [(digits_split hwhole).1, (digits_split hwhole).2, Nat.ofDigitChars_append,
      Nat.ofDigitChars_ten_toDigits, ofDigitChars_padded, hlength, Nat.div_add_mod]

end Digits

theorem positionalDigits_ne_minus (places n : ℕ) (text : List Char) :
    positionalDigits places n ≠ '-' :: text := by
  intro heq
  obtain ⟨c, rest, hdigits⟩ := List.exists_cons_of_ne_nil
    (Nat.toDigits_ne_nil (n := n / 10 ^ places) (b := 10))
  have hdigit := Nat.isDigit_of_mem_toDigits (n := n / 10 ^ places) (by decide) (by decide)
    (hdigits ▸ List.mem_cons_self : c ∈ Nat.toDigits 10 _)
  rw [positionalDigits, hdigits, List.cons_append] at heq
  cases heq
  exact absurd hdigit (by decide)

theorem numeralValue_of_digits (places n : ℕ) :
    numeralValue (positionalDigits places n) = digitsValue (positionalDigits places n) := by
  unfold numeralValue
  split
  · rename_i heq
    exact absurd heq (positionalDigits_ne_minus places n _)
  · rfl

theorem shows_positional (places : ℕ) (m : ℤ) :
    Shows (positional places m) places (m / 10 ^ places) := by
  by_cases hm : m < 0
  · have habs : ((m.natAbs : ℕ) : ℚ) = -m := by
      rw [← Int.cast_natCast, Int.ofNat_natAbs_of_nonpos hm.le, Int.cast_neg]
    have htext : (positional places m).toList = '-' :: positionalDigits places m.natAbs := by
      rw [positional, if_pos hm, String.toList_ofList]
    refine ⟨?_, ?_⟩
    · rw [htext]
      exact fractionDigits_positionalDigits
    · rw [htext]
      show -digitsValue _ = _
      rw [digitsValue_positionalDigits, habs, neg_div, neg_neg]
  · have habs : ((m.natAbs : ℕ) : ℚ) = m := by
      rw [← Int.cast_natCast, Int.natAbs_of_nonneg (not_lt.mp hm)]
    have htext : (positional places m).toList = positionalDigits places m.natAbs := by
      rw [positional, if_neg hm, String.toList_ofList]
    refine ⟨?_, ?_⟩
    · rw [htext]
      exact fractionDigits_positionalDigits
    · rw [htext, numeralValue_of_digits, digitsValue_positionalDigits, habs]

/-! ## Printing -/

namespace Decimal

/-- `round_dp(places)`, written with as many decimals. -/
def toFixed (places : ℕ) (d : Decimal) : String :=
  positional places (roundEven (d.value * 10 ^ places))

/-- `to_string`, without trailing zeros. -/
def toText (d : Decimal) : String := d.toFixed d.scale

/-- A number that has no more decimals than are written. -/
theorem shows_toFixed {d : Decimal} {places : ℕ} (h : HasPlaces places d.value) :
    Shows (d.toFixed places) places d.value := by
  obtain ⟨m, hm⟩ := h
  have hvalue : d.value = m / 10 ^ places := by
    rw [← hm, mul_div_cancel_right₀ _ (by positivity)]
  rw [toFixed, hm, roundEven_intCast, hvalue]
  exact shows_positional places m

theorem shows_toText (d : Decimal) : Shows d.toText d.scale d.value :=
  shows_toFixed d.hasPlaces_scale

end Decimal

end DianService.Lib
