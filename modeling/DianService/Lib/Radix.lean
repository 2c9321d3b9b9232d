import Mathlib.Data.Nat.Digits.Lemmas

/-
  Numbers as lists of digits, the least significant first: multiplication by `m` and addition of
  one digit of base `m`, in one pass with a carry. Repeated over the digits of a number of base `m`
  it converts the number to base `b`.
-/

namespace DianService.Lib.Radix

/-- `digits` in base `b`, times `m` plus `carry`. -/
def mulAdd (b m : ℕ) : List ℕ → ℕ → List ℕ
  | [], carry => b.digits carry
  | d :: ds, carry => (d * m + carry) % b :: mulAdd b m ds ((d * m + carry) / b)

/-- There is a digit, and the most significant one is not zero. -/
def Significant (digits : List ℕ) : Prop := digits ≠ [] ∧ digits.getLast? ≠ some 0

/-- Of zero one digit is written, of other numbers no leading zero. -/
def Canonical (digits : List ℕ) : Prop := digits = [0] ∨ Significant digits

section MulAdd

variable {b m : ℕ}

theorem ofDigits_mulAdd (digits : List ℕ) (carry : ℕ) :
    Nat.ofDigits b (mulAdd b m digits carry) = Nat.ofDigits b digits * m + carry := by
  induction digits generalizing carry with
  | nil => rw [mulAdd, Nat.ofDigits_digits, Nat.ofDigits_nil, Nat.zero_mul, Nat.zero_add]
  | cons d ds ih =>
    rw [mulAdd, Nat.ofDigits_cons, Nat.ofDigits_cons, ih]
    calc (d * m + carry) % b + b * (Nat.ofDigits b ds * m + (d * m + carry) / b)
        = (d * m + carry) % b + b * ((d * m + carry) / b) + b * Nat.ofDigits b ds * m := by ring
      _ = d * m + carry + b * Nat.ofDigits b ds * m := by rw [Nat.mod_add_div]
      _ = (d + b * Nat.ofDigits b ds) * m + carry := by ring

theorem lt_of_mem_mulAdd (hb : 1 < b) {digits : List ℕ} {carry : ℕ} :
    ∀ d ∈ mulAdd b m digits carry, d < b := by
  induction digits generalizing carry with
  | nil => exact fun d hd => Nat.digits_lt_base hb hd
  | cons d ds ih => exact List.forall_mem_cons.mpr ⟨Nat.mod_lt _ (by omega), ih⟩

/-- A carry that is a digit of base `m` stays one. -/
theorem carry_lt {d carry : ℕ} (hd : d < b) (hcarry : carry < m) : (d * m + carry) / b < m := by
  refine Nat.div_lt_of_lt_mul ?_
  have hle : (d + 1) * m ≤ b * m := Nat.mul_le_mul_right m hd
  have hexpand : (d + 1) * m = d * m + m := by ring
  omega

theorem significant_digits {n : ℕ} (hn : n ≠ 0) : Significant (b.digits n) := by
  have hne : b.digits n ≠ [] := Nat.digits_ne_nil_iff_ne_zero.mpr hn
  refine ⟨hne, ?_⟩
  rw [List.getLast?_eq_some_getLast hne, ne_eq, Option.some.injEq]
  exact Nat.getLast_digit_ne_zero b hn

theorem Significant.cons {digits : List ℕ} (h : Significant digits) (d : ℕ) :
    Significant (d :: digits) := by
  refine ⟨List.cons_ne_nil _ _, ?_⟩
  rw [List.getLast?_cons_of_ne_nil h.1]
  exact h.2

theorem significant_singleton {d : ℕ} (hd : d ≠ 0) : Significant [d] :=
  ⟨List.cons_ne_nil _ _, by simpa using hd⟩

/-- After a digit that is not zero there is a carry. -/
theorem mulAdd_significant (hb : 1 < b) (hm : b ≤ m) {digits : List ℕ} (h : Significant digits)
    (carry : ℕ) : Significant (mulAdd b m digits carry) := by
  induction digits generalizing carry with
  | nil => exact absurd rfl h.1
  | cons d ds ih =>
    rw [mulAdd]
    cases ds with
    | nil =>
      have hd : d ≠ 0 := by simpa using h.2
      have hlarge : b ≤ d * m + carry := by
        calc b ≤ m := hm
          _ ≤ d * m := Nat.le_mul_of_pos_left m (Nat.pos_of_ne_zero hd)
          _ ≤ d * m + carry := Nat.le_add_right _ _
      exact (significant_digits (Nat.div_pos hlarge (by omega)).ne').cons _
    | cons e es =>
      have hrest : Significant (e :: es) := by
        refine ⟨List.cons_ne_nil _ _, ?_⟩
        rw [← List.getLast?_cons_cons (a := d)]
        exact h.2
      exact (ih hrest _).cons _

theorem mulAdd_canonical (hb : 1 < b) (hm : b ≤ m) {digits : List ℕ} (h : Canonical digits)
    (carry : ℕ) : Canonical (mulAdd b m digits carry) := by
  obtain rfl | hsignificant := h
  · rw [mulAdd, Nat.zero_mul, Nat.zero_add, mulAdd]
    by_cases hsmall : carry < b
    · rw [Nat.div_eq_of_lt hsmall, Nat.digits_zero, Nat.mod_eq_of_lt hsmall]
      by_cases hzero : carry = 0
      · exact .inl (by rw [hzero])
      · exact .inr (significant_singleton hzero)
    · have hpos : carry / b ≠ 0 := (Nat.div_pos (not_lt.mp hsmall) (by omega)).ne'
      exact .inr ((significant_digits hpos).cons _)
  · exact .inr (mulAdd_significant hb hm hsignificant carry)

/-- The digits of a number are determined by it. -/
theorem Canonical.eq_digits (hb : 1 < b) {digits : List ℕ} (h : Canonical digits)
    (hlt : ∀ d ∈ digits, d < b) : digits =
      if Nat.ofDigits b digits = 0 then [0] else b.digits (Nat.ofDigits b digits) := by
  obtain rfl | ⟨hne, hlast⟩ := h
  · rw [if_pos (by simp)]
  · have hdigits : b.digits (Nat.ofDigits b digits) = digits := by
      refine Nat.digits_ofDigits b hb digits hlt fun hne' hzero => hlast ?_
      rw [List.getLast?_eq_some_getLast hne', hzero]
    rw [if_neg, hdigits]
    intro hzero
    rw [hzero, Nat.digits_zero] at hdigits
    exact hne hdigits.symm

end MulAdd

/-! ## Conversion -/

/-- The digits in base `b` of a number of base `m`, most significant first. -/
def convert (b m : ℕ) (input : List ℕ) : List ℕ := input.foldl (mulAdd b m) [0]

section Convert

variable {b m : ℕ}

/-- What all the digits read so far make, and how it is written. -/
theorem convert_from (hb : 1 < b) (hm : b ≤ m) (input : List ℕ) {digits : List ℕ}
    (h : Canonical digits) (hlt : ∀ d ∈ digits, d < b) :
    Canonical (input.foldl (mulAdd b m) digits) ∧
      (∀ d ∈ input.foldl (mulAdd b m) digits, d < b) ∧
      Nat.ofDigits b (input.foldl (mulAdd b m) digits) =
        input.foldl (fun n d => n * m + d) (Nat.ofDigits b digits) := by
  induction input generalizing digits with
  | nil => exact ⟨h, hlt, rfl⟩
  | cons c cs ih =>
    have hstep := ih (mulAdd_canonical hb hm h c) (lt_of_mem_mulAdd hb)
    rw [ofDigits_mulAdd] at hstep
    exact hstep

theorem convert_eq (hb : 1 < b) (hm : b ≤ m) (input : List ℕ) : convert b m input =
    if input.foldl (fun n d => n * m + d) 0 = 0 then [0]
    else b.digits (input.foldl (fun n d => n * m + d) 0) := by
  have hzero : ∀ d ∈ [0], d < b := by
    intro d hd
    rw [List.mem_singleton.mp hd]
    omega
  obtain ⟨hcanonical, hlt, hvalue⟩ := convert_from hb hm input (.inl rfl) hzero
  rw [Nat.ofDigits_singleton] at hvalue
  rw [convert, ← hvalue]
  exact hcanonical.eq_digits hb hlt

end Convert

end DianService.Lib.Radix
