import Mathlib.Algebra.Order.Round
import Mathlib.Data.Rat.Floor
import Mathlib.Tactic.Linarith
import Mathlib.Tactic.Ring
import Mathlib.Tactic.FieldSimp
import Mathlib.Tactic.Positivity

/-
  Decimal numbers with a mantissa of 96 bits and a scale of 0 to 28. A `Decimal` is known by its
  value: the scale is only looked at after trailing zeros are gone, when it is the number of
  decimals of the value, and zero has no sign then.

  `Arithmetic` is how results that do not fit are treated: exact where the result is a `Decimal`,
  no result (a panic) where not even the nearest integer has 96 bits, and in between the decimals
  that do not fit are rounded away. Which way ties go is left open; `halfEven` sends them to the
  even side.
-/

namespace DianService.Lib

/-! ## Rounding to an integer -/

/-- Ties go away from zero. -/
def roundAway (x : ℚ) : ℤ := if 0 ≤ x then round x else -round (-x)

theorem abs_roundAway_sub (x : ℚ) : |(roundAway x : ℚ) - x| ≤ 1 / 2 := by
  unfold roundAway
  split
  · rw [abs_sub_comm]
    exact abs_sub_round x
  · have h := abs_sub_round (-x)
    push_cast
    rw [show -(round (-x) : ℚ) - x = -x - round (-x) by ring]
    exact h

@[simp] theorem roundAway_intCast (m : ℤ) : roundAway (m : ℚ) = m := by
  unfold roundAway
  split
  · exact round_intCast m
  · rw [← Int.cast_neg, round_intCast, neg_neg]

theorem roundAway_eq_iff {x : ℚ} (hx : 0 ≤ x) {n : ℤ} :
    roundAway x = n ↔ (n : ℚ) - 1 / 2 ≤ x ∧ x < n + 1 / 2 := by
  rw [roundAway, if_pos hx, round_eq_iff, Set.mem_Ico]

theorem roundAway_nonneg {x : ℚ} (hx : 0 ≤ x) : 0 ≤ roundAway x := by
  by_contra hneg
  have hle : ((roundAway x : ℤ) : ℚ) ≤ -1 := by exact_mod_cast (by omega : roundAway x ≤ -1)
  have h := (abs_le.mp (abs_roundAway_sub x)).1
  linarith

/-- An integer bound on a number bounds its rounding. -/
theorem roundAway_le {x : ℚ} {n : ℤ} (hx : 0 ≤ x) (h : x ≤ n) : roundAway x ≤ n := by
  by_contra hlt
  have hge : (n : ℚ) + 1 ≤ roundAway x := by exact_mod_cast (by omega : n + 1 ≤ roundAway x)
  have h' := ((roundAway_eq_iff hx).mp rfl).1
  linarith

theorem roundAway_le_iff {x : ℚ} (hx : 0 ≤ x) {n : ℤ} : roundAway x ≤ n ↔ x < n + 1 / 2 := by
  obtain ⟨hlow, hhigh⟩ := (roundAway_eq_iff hx).mp rfl
  constructor
  · intro h
    have hq : ((roundAway x : ℤ) : ℚ) ≤ n := by exact_mod_cast h
    linarith
  · intro h
    by_contra hlt
    have hge : (n : ℚ) + 1 ≤ roundAway x := by exact_mod_cast (by omega : n + 1 ≤ roundAway x)
    linarith

theorem roundAway_neg (x : ℚ) : roundAway (-x) = -roundAway x := by
  unfold roundAway
  obtain hneg | rfl | hpos := lt_trichotomy x 0
  · rw [if_pos (by linarith), if_neg (not_le.mpr hneg), neg_neg]
  · simp
  · rw [if_neg (by linarith), if_pos hpos.le, neg_neg]

theorem roundAway_eq_zero {x : ℚ} : roundAway x = 0 ↔ |x| < 1 / 2 := by
  have hnonneg : ∀ y : ℚ, 0 ≤ y → (roundAway y = 0 ↔ |y| < 1 / 2) := by
    intro y hy
    rw [roundAway_eq_iff hy, abs_of_nonneg hy]
    push_cast
    constructor
    · exact fun h => by linarith [h.2]
    · exact fun h => ⟨by linarith, by linarith⟩
  obtain hx | hx := le_total 0 x
  · exact hnonneg x hx
  · have h := hnonneg (-x) (by linarith)
    rwa [roundAway_neg, neg_eq_zero, abs_neg] at h

theorem abs_roundAway_le {x : ℚ} {n : ℤ} (h : |x| ≤ n) : |roundAway x| ≤ n := by
  obtain hx | hx := le_total 0 x
  · rw [abs_of_nonneg (roundAway_nonneg hx)]
    exact roundAway_le hx ((le_abs_self x).trans h)
  · have hx' : 0 ≤ -x := by linarith
    rw [← abs_neg, ← roundAway_neg, abs_of_nonneg (roundAway_nonneg hx')]
    exact roundAway_le hx' ((neg_le_abs x).trans h)

/-- Ties go to the even side. -/
def roundEven (x : ℚ) : ℤ :=
  if 2 * Int.fract x < 1 then ⌊x⌋
  else if 1 < 2 * Int.fract x then ⌊x⌋ + 1
  else if Even ⌊x⌋ then ⌊x⌋ else ⌊x⌋ + 1

theorem abs_roundEven_sub (x : ℚ) : |(roundEven x : ℚ) - x| ≤ 1 / 2 := by
  have hfract := Int.self_sub_floor x
  have hnonneg := Int.fract_nonneg x
  have hlt := Int.fract_lt_one x
  rw [abs_le]
  unfold roundEven
  split_ifs <;> push_cast <;> constructor <;> linarith

@[simp] theorem roundEven_intCast (m : ℤ) : roundEven (m : ℚ) = m := by simp [roundEven]

/-! ## Decimals of a number -/

/-- At most `s` digits after the point. -/
def HasPlaces (s : ℕ) (x : ℚ) : Prop := ∃ m : ℤ, x * 10 ^ s = m

theorem hasPlaces_iff_den {s : ℕ} {x : ℚ} : HasPlaces s x ↔ (x * 10 ^ s).den = 1 := by
  rw [Rat.den_eq_one_iff]
  exact ⟨fun ⟨m, hm⟩ => by rw [hm, Rat.num_intCast], fun h => ⟨_, h.symm⟩⟩

instance (s : ℕ) (x : ℚ) : Decidable (HasPlaces s x) := decidable_of_iff _ hasPlaces_iff_den.symm

namespace HasPlaces

variable {s t : ℕ} {x y : ℚ}

theorem mono (h : HasPlaces s x) (hst : s ≤ t) : HasPlaces t x := by
  obtain ⟨m, hm⟩ := h
  refine ⟨m * 10 ^ (t - s), ?_⟩
  rw [show t = s + (t - s) by omega, pow_add, ← mul_assoc, hm]
  push_cast
  rw [Nat.add_sub_cancel_left]

theorem add (hx : HasPlaces s x) (hy : HasPlaces s y) : HasPlaces s (x + y) := by
  obtain ⟨m, hm⟩ := hx
  obtain ⟨n, hn⟩ := hy
  exact ⟨m + n, by rw [add_mul, hm, hn, Int.cast_add]⟩

theorem intCast (m : ℤ) : HasPlaces s (m : ℚ) := ⟨m * 10 ^ s, by push_cast; rfl⟩

theorem div_pow (m : ℤ) : HasPlaces s ((m : ℚ) / 10 ^ s) :=
  ⟨m, div_mul_cancel₀ _ (by positivity)⟩

/-- Two numbers of `s` decimals are a unit of the last place apart. -/
theorem gap (hx : HasPlaces s x) (hy : HasPlaces s y) (h : y < x) :
    1 / 10 ^ s ≤ x - y := by
  have hpos : (0 : ℚ) < 10 ^ s := by positivity
  obtain ⟨m, hm⟩ := hx
  obtain ⟨n, hn⟩ := hy
  have hlt : (n : ℚ) < m := by
    rw [← hm, ← hn]
    exact mul_lt_mul_of_pos_right h hpos
  have hle : (n : ℚ) + 1 ≤ m := by exact_mod_cast Int.add_one_le_of_lt (by exact_mod_cast hlt)
  rw [div_le_iff₀ hpos, sub_mul, hm, hn]
  linarith

end HasPlaces

theorem hasPlaces_listSum {s : ℕ} {xs : List ℚ} (h : ∀ x ∈ xs, HasPlaces s x) :
    HasPlaces s xs.sum := by
  induction xs with
  | nil => exact ⟨0, by simp⟩
  | cons x xs ih =>
      rw [List.sum_cons]
      exact (h x List.mem_cons_self).add (ih fun y hy => h y (List.mem_cons_of_mem _ hy))

/-- To `s` decimals, ties away from zero. -/
def roundPlaces (s : ℕ) (x : ℚ) : ℚ := roundAway (x * 10 ^ s) / 10 ^ s

theorem hasPlaces_roundPlaces (s : ℕ) (x : ℚ) : HasPlaces s (roundPlaces s x) := .div_pow _

theorem roundPlaces_eq_self {s : ℕ} {x : ℚ} (h : HasPlaces s x) : roundPlaces s x = x := by
  obtain ⟨m, hm⟩ := h
  rw [roundPlaces, hm, roundAway_intCast, ← hm, mul_div_cancel_right₀ _ (by positivity)]

theorem abs_roundPlaces_sub (s : ℕ) (x : ℚ) : |roundPlaces s x - x| ≤ 1 / 2 / 10 ^ s := by
  have hpos : (0 : ℚ) < 10 ^ s := by positivity
  have hdist : roundPlaces s x - x = (roundAway (x * 10 ^ s) - x * 10 ^ s) / 10 ^ s := by
    rw [roundPlaces, sub_div, mul_div_cancel_right₀ _ hpos.ne']
  rw [hdist, abs_div, abs_of_pos hpos]
  exact div_le_div_of_nonneg_right (abs_roundAway_sub _) hpos.le

theorem roundPlaces_nonneg {s : ℕ} {x : ℚ} (h : 0 ≤ x) : 0 ≤ roundPlaces s x := by
  have hround : 0 ≤ roundAway (x * 10 ^ s) := roundAway_nonneg (by positivity)
  exact div_nonneg (by exact_mod_cast hround) (by positivity)

/-- No number halfway between two of `s` decimals separates the two. -/
def SameSide (s : ℕ) (x y : ℚ) : Prop := ∀ n : ℤ, x * 10 ^ s < n + 1 / 2 ↔ y * 10 ^ s < n + 1 / 2

theorem roundPlaces_eq_iff {s : ℕ} {x y : ℚ} (hx : 0 ≤ x) (hy : 0 ≤ y) :
    roundPlaces s x = roundPlaces s y ↔ SameSide s x y := by
  have hpos : (0 : ℚ) < 10 ^ s := by positivity
  have hx' : 0 ≤ x * 10 ^ s := mul_nonneg hx hpos.le
  have hy' : 0 ≤ y * 10 ^ s := mul_nonneg hy hpos.le
  rw [roundPlaces, roundPlaces, div_left_inj' hpos.ne', Int.cast_inj]
  constructor
  · intro h n
    rw [← roundAway_le_iff hx', ← roundAway_le_iff hy', h]
  · intro h
    apply le_antisymm
    · rw [roundAway_le_iff hx', h, ← roundAway_le_iff hy']
    · rw [roundAway_le_iff hy', ← h, ← roundAway_le_iff hx']

/-! ## Numbers of 96 bits -/

/-- `Decimal::MAX` -/
def maxMantissa : ℤ := 79228162514264337593543950335

def maxScale : ℕ := 28

def Fits (x : ℚ) : Prop := ∃ s ≤ maxScale, ∃ m : ℤ, |m| ≤ maxMantissa ∧ x * 10 ^ s = m

theorem fits_iff_lt {x : ℚ} :
    Fits x ↔ ∃ s < maxScale + 1, (x * 10 ^ s).den = 1 ∧ |(x * 10 ^ s).num| ≤ maxMantissa := by
  constructor
  · rintro ⟨s, hs, m, hm, hx⟩
    exact ⟨s, by omega, by rw [hx]; rfl, by rwa [hx, Rat.num_intCast]⟩
  · rintro ⟨s, hs, hden, hnum⟩
    exact ⟨s, by omega, _, hnum, ((Rat.den_eq_one_iff _).mp hden).symm⟩

instance (x : ℚ) : Decidable (Fits x) := decidable_of_iff _ fits_iff_lt.symm

theorem fits_intCast {m : ℤ} (h : |m| ≤ maxMantissa) : Fits m :=
  ⟨0, Nat.zero_le _, m, h, by simp⟩

theorem Fits.hasPlaces {x : ℚ} (h : Fits x) : HasPlaces maxScale x := by
  obtain ⟨s, hs, m, -, hx⟩ := h
  exact HasPlaces.mono ⟨m, hx⟩ hs

theorem Fits.abs_le {x : ℚ} (h : Fits x) : |x| ≤ maxMantissa := by
  obtain ⟨s, hs, m, hm, hx⟩ := h
  have hone : (1 : ℚ) ≤ 10 ^ s := one_le_pow₀ (by norm_num)
  have habs : |x| * 10 ^ s = |m| := by
    rw [Int.cast_abs, ← hx, abs_mul, abs_of_pos (by positivity : (0 : ℚ) < 10 ^ s)]
  calc |x| ≤ |x| * 10 ^ s := le_mul_of_one_le_right (abs_nonneg x) hone
    _ = |m| := habs
    _ ≤ maxMantissa := by exact_mod_cast hm

structure Decimal where
  value : ℚ
  fits : Fits value
  deriving DecidableEq

namespace Decimal

theorem ext {a b : Decimal} (h : a.value = b.value) : a = b := by
  cases a
  cases b
  cases h
  rfl

def ofRat? (x : ℚ) : Option Decimal := if h : Fits x then some ⟨x, h⟩ else none

def ofInt (m : ℤ) (h : |m| ≤ maxMantissa) : Decimal := ⟨m, fits_intCast h⟩

def zero : Decimal := ⟨0, 0, Nat.zero_le _, 0, by decide, by simp⟩

def hundred : Decimal := ⟨100, 0, Nat.zero_le _, 100, by decide, by simp⟩

@[simp] theorem zero_value : zero.value = 0 := rfl

@[simp] theorem hundred_value : hundred.value = 100 := rfl

theorem ofRat?_eq_some {x : ℚ} {d : Decimal} : ofRat? x = some d ↔ d.value = x := by
  unfold ofRat?
  split
  · rw [Option.some.injEq]
    exact ⟨fun h => by rw [← h], fun h => ext h.symm⟩
  · rename_i hnot
    refine iff_of_false (Option.some_ne_none d).symm fun h => hnot ?_
    rw [← h]
    exact d.fits

/-- The scale without trailing zeros. -/
def scale (d : Decimal) : ℕ :=
  ((List.range maxScale).find? fun s => HasPlaces s d.value).getD maxScale

theorem scale_le_iff (d : Decimal) (s : ℕ) : d.scale ≤ s ↔ HasPlaces s d.value := by
  have hmax := d.fits.hasPlaces
  unfold scale
  cases hfind : (List.range maxScale).find? fun s => HasPlaces s d.value with
  | none =>
      have hnone : ∀ t < maxScale, ¬ HasPlaces t d.value := by simpa using hfind
      exact ⟨hmax.mono, fun h => by
        by_contra hlt
        exact hnone s (by simpa using hlt) h⟩
  | some k =>
      rw [List.find?_range_eq_some] at hfind
      obtain ⟨hk, -, hleast⟩ := hfind
      refine ⟨(of_decide_eq_true hk).mono, fun h => ?_⟩
      by_contra hlt
      exact absurd h (by simpa using hleast s (by simpa using hlt))

theorem hasPlaces_scale (d : Decimal) : HasPlaces d.scale d.value :=
  (d.scale_le_iff d.scale).mp (le_refl _)

/-- A number that needs more than `s` decimals is small. -/
theorem places_or_le {d : Decimal} (hd : 0 ≤ d.value) (s : ℕ) :
    HasPlaces s d.value ∨ d.value * 10 ^ (s + 1) ≤ maxMantissa := by
  obtain ⟨t, -, m, hm, hx⟩ := d.fits
  obtain hle | hlt := Nat.lt_or_ge s t
  · right
    calc d.value * 10 ^ (s + 1) ≤ d.value * 10 ^ t :=
          mul_le_mul_of_nonneg_left (pow_le_pow_right₀ (by norm_num) hle) hd
      _ = m := hx
      _ ≤ maxMantissa := by exact_mod_cast (le_abs_self m).trans hm
  · exact Or.inl (HasPlaces.mono ⟨m, hx⟩ hlt)

/-- `round_dp_with_strategy(s, MidpointAwayFromZero)` -/
def roundTo (s : ℕ) (d : Decimal) : Decimal where
  value := roundPlaces s d.value
  fits := by
    obtain ⟨t, ht, m, hm, hx⟩ := d.fits
    by_cases hst : t ≤ s
    · rw [roundPlaces_eq_self (HasPlaces.mono ⟨m, hx⟩ hst)]
      exact d.fits
    · refine ⟨s, by omega, _, ?_, div_mul_cancel₀ _ (by positivity)⟩
      refine abs_roundAway_le ?_
      have hpow : (1 : ℚ) ≤ 10 ^ (t - s) := one_le_pow₀ (by norm_num)
      have hsplit : (10 : ℚ) ^ t = 10 ^ s * 10 ^ (t - s) := by
        rw [← pow_add, show s + (t - s) = t by omega]
      have habs : |d.value * 10 ^ s| * 10 ^ (t - s) = |m| := by
        rw [Int.cast_abs, ← hx, hsplit, ← mul_assoc, abs_mul _ (10 ^ (t - s)),
          abs_of_pos (by positivity : (0 : ℚ) < 10 ^ (t - s))]
      calc |d.value * 10 ^ s| ≤ |d.value * 10 ^ s| * 10 ^ (t - s) :=
            le_mul_of_one_le_right (abs_nonneg _) hpow
        _ = |m| := habs
        _ ≤ maxMantissa := by exact_mod_cast hm

@[simp] theorem roundTo_value (s : ℕ) (d : Decimal) : (d.roundTo s).value = roundPlaces s d.value :=
  rfl

end Decimal

/-! ## Arithmetic -/

/-- Numbers from here on have no nearest integer of 96 bits. -/
def limit : ℚ := maxMantissa + 1 / 2

/-- A result that does not fit, however it is rounded. -/
def Overflows (x : ℚ) : Prop := limit ≤ |x|

instance (x : ℚ) : Decidable (Overflows x) := inferInstanceAs (Decidable (limit ≤ |x|))

theorem abs_lt_limit (d : Decimal) : |d.value| < limit := by
  have h := d.fits.abs_le
  rw [limit]
  linarith

theorem fits_of_int {x : ℚ} (h : HasPlaces 0 x) (hx : ¬ Overflows x) : Fits x := by
  obtain ⟨m, hm⟩ := h
  rw [pow_zero, mul_one] at hm
  subst hm
  rw [Overflows, not_le, limit, ← Int.cast_abs] at hx
  have hlt : ((|m| : ℤ) : ℚ) < ((maxMantissa + 1 : ℤ) : ℚ) := by
    push_cast
    push_cast at hx
    linarith
  have hle : |m| < maxMantissa + 1 := by exact_mod_cast hlt
  exact fits_intCast (by omega)

structure Arithmetic where
  fit : ℚ → Option Decimal
  exact : ∀ d : Decimal, fit d.value = some d
  overflow : ∀ x, fit x = none ↔ Overflows x
  /-- The digits that are dropped are those that do not fit. -/
  near : ∀ x d, fit x = some d → ∃ s ≤ maxScale, HasPlaces s d.value ∧
    |d.value - x| ≤ 1 / 2 / 10 ^ s ∧ (s = maxScale ∨ limit ≤ |x| * 10 ^ (s + 1))

namespace Arithmetic

variable (A : Arithmetic)

/-- `+`; `none` is a panic. -/
def add (a b : Decimal) : Option Decimal := A.fit (a.value + b.value)

def sub (a b : Decimal) : Option Decimal := A.fit (a.value - b.value)

def mul (a b : Decimal) : Option Decimal := A.fit (a.value * b.value)

def div (a b : Decimal) : Option Decimal :=
  if b.value = 0 then none else A.fit (a.value / b.value)

/-- `Iterator::sum`, from `acc` on. -/
def sumFrom (acc : Decimal) : List Decimal → Option Decimal
  | [] => some acc
  | d :: rest => (A.add acc d).bind fun acc => sumFrom acc rest

def sum (addends : List Decimal) : Option Decimal := A.sumFrom .zero addends

variable {A}

theorem fit_of_fits {x : ℚ} (h : Fits x) : A.fit x = some ⟨x, h⟩ := A.exact ⟨x, h⟩

/-- A number that fits is not changed. -/
theorem value_of_fit {x : ℚ} {d : Decimal} (hfit : A.fit x = some d) (h : Fits x) :
    d.value = x := by
  rw [fit_of_fits h] at hfit
  cases hfit
  rfl

/-- The result has no more decimals than the exact number. -/
theorem hasPlaces_fit {x : ℚ} {d : Decimal} {k : ℕ} (hfit : A.fit x = some d) (h : HasPlaces k x) :
    HasPlaces k d.value := by
  obtain ⟨s, -, hplaces, hnear, -⟩ := A.near x d hfit
  obtain hle | hlt := le_total s k
  · exact hplaces.mono hle
  · -- both are whole numbers of the last place, and less than one apart
    have hpos : (0 : ℚ) < 10 ^ s := by positivity
    obtain ⟨m, hm⟩ := hplaces
    obtain ⟨n, hn⟩ := h.mono hlt
    have hdist : |(m : ℚ) - n| < 1 := by
      rw [← hm, ← hn, ← sub_mul, abs_mul, abs_of_pos hpos]
      calc |d.value - x| * 10 ^ s ≤ 1 / 2 / 10 ^ s * 10 ^ s :=
            mul_le_mul_of_nonneg_right hnear hpos.le
        _ < 1 := by rw [div_mul_cancel₀ _ hpos.ne']; norm_num
    have hmn : m = n := by
      have hzero := Int.abs_lt_one_iff.mp (by exact_mod_cast hdist : |m - n| < 1)
      omega
    rw [hmn, ← hn] at hm
    rwa [mul_right_cancel₀ hpos.ne' hm]

theorem fit_nonneg {x : ℚ} {d : Decimal} (hfit : A.fit x = some d) (h : 0 ≤ x) : 0 ≤ d.value := by
  obtain ⟨s, -, ⟨m, hm⟩, hnear, -⟩ := A.near x d hfit
  have hpos : (0 : ℚ) < 10 ^ s := by positivity
  have hhalf : (1 : ℚ) / 2 / 10 ^ s * 10 ^ s = 1 / 2 := div_mul_cancel₀ _ hpos.ne'
  have hlow : -(1 / 2) ≤ (m : ℚ) := by
    rw [← hm, ← hhalf, ← neg_mul]
    exact mul_le_mul_of_nonneg_right (by linarith [(abs_le.mp hnear).1]) hpos.le
  have hm0 : 0 ≤ m := by
    by_contra hneg
    have hle : (m : ℚ) ≤ -1 := by exact_mod_cast (by omega : m ≤ -1)
    linarith
  have hm0' : (0 : ℚ) ≤ d.value * 10 ^ s := by
    rw [hm]
    exact_mod_cast hm0
  exact nonneg_of_mul_nonneg_left hm0' hpos

/-- Results are rounded in order. -/
theorem fit_mono {x y : ℚ} {d e : Decimal} (hx : 0 ≤ x) (hxy : x ≤ y) (hd : A.fit x = some d)
    (he : A.fit y = some e) : d.value ≤ e.value := by
  obtain rfl | hlt := eq_or_lt_of_le hxy
  · rw [hd] at he
    cases he
    exact le_refl _
  have hdpos := fit_nonneg hd hx
  have hepos := fit_nonneg he (hx.trans hxy)
  obtain ⟨s, hs, hdplaces, hdnear, hdrop⟩ := A.near x d hd
  obtain ⟨t, ht, heplaces, henear, herop⟩ := A.near y e he
  rw [abs_of_nonneg hx] at hdrop
  rw [abs_of_nonneg (hx.trans hxy)] at herop
  have hdnear := (abs_le.mp hdnear).2
  have henear := (abs_le.mp henear).1
  by_contra hgt
  rw [not_le] at hgt
  -- both have the places of the other, so `x` lies above their middle and `y` below it
  have hes : HasPlaces s e.value := by
    obtain hst | hts := Nat.lt_or_ge s t
    · refine (e.places_or_le hepos s).resolve_right fun hle => ?_
      have hlimit : limit ≤ x * 10 ^ (s + 1) := hdrop.resolve_left (by omega)
      have hpos : (0 : ℚ) < 10 ^ (s + 1) := by positivity
      have hscaled : (10 : ℚ) ^ (s + 1) ≤ 10 ^ t := pow_le_pow_right₀ (by norm_num) hst
      have hhalf : (1 : ℚ) / 2 / 10 ^ t * 10 ^ (s + 1) ≤ 1 / 2 := by
        rw [div_mul_eq_mul_div, div_le_iff₀ (by positivity)]
        linarith
      have hy : y * 10 ^ (s + 1) ≤ limit := by
        calc y * 10 ^ (s + 1) ≤ (e.value + 1 / 2 / 10 ^ t) * 10 ^ (s + 1) :=
              mul_le_mul_of_nonneg_right (by linarith) hpos.le
          _ = e.value * 10 ^ (s + 1) + 1 / 2 / 10 ^ t * 10 ^ (s + 1) := add_mul _ _ _
          _ ≤ limit := by rw [limit]; linarith
      have hxy' := mul_lt_mul_of_pos_right hlt hpos
      linarith
    · exact heplaces.mono hts
  have hdt : HasPlaces t d.value := by
    obtain hts | hst := Nat.lt_or_ge t s
    · refine (d.places_or_le hdpos t).resolve_right fun hle => ?_
      have hlimit : limit ≤ y * 10 ^ (t + 1) := herop.resolve_left (by omega)
      have hpos : (0 : ℚ) < 10 ^ (t + 1) := by positivity
      obtain ⟨n, hn⟩ := heplaces
      have hscaled : e.value * 10 ^ (t + 1) = ((10 * n : ℤ) : ℚ) := by
        rw [pow_succ, ← mul_assoc, hn]
        push_cast
        ring
      have hhalf : (1 : ℚ) / 2 / 10 ^ t * 10 ^ (t + 1) = 5 := by
        rw [pow_succ]
        field_simp
        norm_num
      have hy : y * 10 ^ (t + 1) ≤ ((10 * n + 5 : ℤ) : ℚ) := by
        calc y * 10 ^ (t + 1) ≤ (e.value + 1 / 2 / 10 ^ t) * 10 ^ (t + 1) :=
              mul_le_mul_of_nonneg_right (by linarith) hpos.le
          _ = ((10 * n + 5 : ℤ) : ℚ) := by rw [add_mul, hhalf, hscaled]; push_cast; ring
      have hlow : (maxMantissa : ℚ) < ((10 * n + 5 : ℤ) : ℚ) := by
        rw [limit] at hlimit
        linarith
      have hhigh : ((10 * n : ℤ) : ℚ) < maxMantissa := by
        rw [← hscaled]
        exact (mul_lt_mul_of_pos_right hgt hpos).trans_le hle
      -- the last digit of the largest mantissa is 5
      have hlow' : maxMantissa < 10 * n + 5 := by exact_mod_cast hlow
      have hhigh' : 10 * n < maxMantissa := by exact_mod_cast hhigh
      unfold maxMantissa at hlow' hhigh'
      omega
    · exact hdplaces.mono hst
  have hunit := hdplaces.gap hes hgt
  have hunit' := hdt.gap heplaces hgt
  have hhalf : ∀ k : ℕ, (1 : ℚ) / 2 / 10 ^ k * 2 = 1 / 10 ^ k := fun k => by ring
  have hs2 := hhalf s
  have ht2 := hhalf t
  linarith

theorem add_eq_none {a b : Decimal} : A.add a b = none ↔ Overflows (a.value + b.value) :=
  A.overflow _

theorem mul_eq_none {a b : Decimal} : A.mul a b = none ↔ Overflows (a.value * b.value) :=
  A.overflow _

theorem div_eq_none {a b : Decimal} (hb : b.value ≠ 0) :
    A.div a b = none ↔ Overflows (a.value / b.value) := by
  rw [div, if_neg hb]
  exact A.overflow _

/-- The difference of two numbers that are not negative. -/
theorem sub_ne_none {a b : Decimal} (ha : 0 ≤ a.value) (hb : 0 ≤ b.value) : A.sub a b ≠ none := by
  have ha' := (abs_le.mp (abs_lt_limit a).le).2
  have hb' := (abs_le.mp (abs_lt_limit b).le).2
  have ha'' := abs_lt_limit a
  have hb'' := abs_lt_limit b
  rw [abs_of_nonneg ha] at ha''
  rw [abs_of_nonneg hb] at hb''
  intro hnone
  have hover : limit ≤ |a.value - b.value| := (A.overflow _).mp hnone
  have hlt : |a.value - b.value| < limit := abs_lt.mpr ⟨by linarith, by linarith⟩
  exact absurd hover (not_le.mpr hlt)

variable (A) in
/-- Somewhere on the way the total does not fit. -/
def SumOverflows (addends : List Decimal) : Prop :=
  ∃ init d rest total, addends = init ++ d :: rest ∧ A.sum init = some total ∧
    Overflows (total.value + d.value)

theorem sumFrom_append (acc : Decimal) (init rest : List Decimal) :
    A.sumFrom acc (init ++ rest) = (A.sumFrom acc init).bind fun acc => A.sumFrom acc rest := by
  induction init generalizing acc with
  | nil => rfl
  | cons d init ih =>
      rw [List.cons_append, sumFrom, sumFrom, Option.bind_assoc]
      exact congrArg (Option.bind _) (funext ih)

theorem sum_concat (init : List Decimal) (d : Decimal) :
    A.sum (init ++ [d]) = (A.sum init).bind fun total => A.add total d := by
  rw [sum, sumFrom_append]
  refine congrArg (Option.bind _) (funext fun total => ?_)
  cases hadd : A.add total d <;> simp [sumFrom, hadd]

/-- The sum of a part, from the first on, comes before the sum of all. -/
theorem sum_append_eq_none {init rest : List Decimal} (h : A.sum init = none) :
    A.sum (init ++ rest) = none := by
  rw [sum, sumFrom_append, show A.sumFrom .zero init = none from h, Option.bind_none]

theorem sum_eq_none {addends : List Decimal} : A.sum addends = none ↔ A.SumOverflows addends := by
  constructor
  · intro h
    induction addends using List.reverseRecOn with
    | nil => cases h
    | append_singleton init d ih =>
        cases hinit : A.sum init with
        | none =>
            obtain ⟨pre, e, rest, total, heq, htotal, hover⟩ := ih hinit
            exact ⟨pre, e, rest ++ [d], total, by rw [heq]; simp, htotal, hover⟩
        | some total =>
            refine ⟨init, d, [], total, rfl, hinit, ?_⟩
            rw [sum, sumFrom_append, show A.sumFrom .zero init = some total from hinit,
              Option.bind_some, sumFrom] at h
            cases hadd : A.add total d with
            | none => exact add_eq_none.mp hadd
            | some acc =>
                rw [hadd] at h
                cases h
  · rintro ⟨init, d, rest, total, rfl, htotal, hover⟩
    rw [sum, sumFrom_append, show A.sumFrom .zero init = some total from htotal, Option.bind_some,
      sumFrom, add_eq_none.mpr hover]
    rfl

/-- The sum of the values, where nothing was lost. -/
theorem sumFrom_of_fits {addends : List Decimal} {acc : Decimal}
    (h : ∀ init d, init ++ [d] <+: addends → Fits (acc.value + ((init ++ [d]).map (·.value)).sum)) :
    ∃ d, A.sumFrom acc addends = some d ∧
      d.value = acc.value + (addends.map Decimal.value).sum := by
  induction addends generalizing acc with
  | nil => exact ⟨acc, rfl, by simp⟩
  | cons a rest ih =>
      have hfirst : Fits (acc.value + a.value) := by
        simpa using h [] a ⟨rest, rfl⟩
      obtain ⟨d, hd, hvalue⟩ := @ih ⟨_, hfirst⟩ fun init d hinit => by
        have hrest := h (a :: init) d (by simpa using hinit)
        simpa [add_assoc] using hrest
      refine ⟨d, ?_, ?_⟩
      · rw [sumFrom, add, fit_of_fits hfirst, Option.bind_some, hd]
      · rw [hvalue, List.map_cons, List.sum_cons, add_assoc]

/-- Part of the addends, none of them negative, is not out of range where all are not: its running
    total stays below that of all. -/
theorem sumFrom_filter_ne_none {α : Type} {f : α → Decimal} {p : α → Bool} {as : List α}
    (hf : ∀ a ∈ as, 0 ≤ (f a).value) {part all : Decimal} (hpart : 0 ≤ part.value)
    (hle : part.value ≤ all.value) (h : A.sumFrom all (as.map f) ≠ none) :
    A.sumFrom part ((as.filter p).map f) ≠ none := by
  induction as generalizing part all with
  | nil => exact Option.some_ne_none part
  | cons a as ih =>
      obtain ⟨ha, has⟩ := List.forall_mem_cons.mp hf
      rw [List.map_cons, sumFrom] at h
      obtain ⟨all', hall'⟩ : ∃ all', A.add all (f a) = some all' := by
        refine Option.ne_none_iff_exists'.mp fun hnone => h ?_
        rw [hnone, Option.bind_none]
      rw [hall', Option.bind_some] at h
      by_cases hp : p a = true
      · rw [List.filter_cons_of_pos hp, List.map_cons, sumFrom]
        have hsum : part.value + (f a).value ≤ all.value + (f a).value := by linarith
        have hnonneg : 0 ≤ part.value + (f a).value := add_nonneg hpart ha
        obtain ⟨part', hpart'⟩ : ∃ part', A.add part (f a) = some part' := by
          refine Option.ne_none_iff_exists'.mp fun hnone => ?_
          have hover : limit ≤ |part.value + (f a).value| := add_eq_none.mp hnone
          rw [abs_of_nonneg hnonneg] at hover
          have hall : Overflows (all.value + (f a).value) := by
            rw [Overflows, abs_of_nonneg (by linarith)]
            linarith
          rw [add_eq_none.mpr hall] at hall'
          cases hall'
        rw [hpart', Option.bind_some]
        exact ih has (fit_nonneg hpart' hnonneg) (fit_mono hnonneg hsum hpart' hall') h
      · rw [List.filter_cons_of_neg hp]
        have hgrown : all.value ≤ all'.value :=
          fit_mono (by linarith) (by linarith) (A.exact all) hall'
        exact ih has hpart (hle.trans hgrown) h

/-- The sum has no more decimals than the addends. -/
theorem hasPlaces_sum {k : ℕ} {addends : List Decimal} {total : Decimal}
    (h : A.sum addends = some total) (hplaces : ∀ d ∈ addends, HasPlaces k d.value) :
    HasPlaces k total.value := by
  induction addends using List.reverseRecOn generalizing total with
  | nil =>
      cases h
      exact ⟨0, by simp⟩
  | append_singleton init d ih =>
      rw [sum_concat] at h
      obtain ⟨before, hbefore, hadd⟩ := Option.bind_eq_some_iff.mp h
      have hinit := ih hbefore fun e he => hplaces e (List.mem_append_left _ he)
      exact hasPlaces_fit hadd (hinit.add (hplaces d (by simp)))

variable (A) in
/-- The digits that running totals drop, if any, cancel out. -/
def SumsExactly (addends : List Decimal) : Prop :=
  ∃ total, A.sum addends = some total ∧ total.value = (addends.map Decimal.value).sum

theorem sumsExactly_iff {addends : List Decimal} {total : Decimal}
    (h : A.sum addends = some total) :
    A.SumsExactly addends ↔ total.value = (addends.map Decimal.value).sum := by
  constructor
  · rintro ⟨total', htotal, hvalue⟩
    rw [h] at htotal
    cases htotal
    exact hvalue
  · exact fun hvalue => ⟨total, h, hvalue⟩

theorem sum_singleton (d : Decimal) : A.sum [d] = some d := by
  have hadd : A.add .zero d = some d := by
    rw [add, Decimal.zero_value, zero_add]
    exact A.exact d
  rw [sum, sumFrom, hadd, Option.bind_some, sumFrom]

/-- Numbers of few digits: no running total drops any. -/
theorem sumsExactly_of_le {k : ℕ} {addends : List Decimal} (hk : k ≤ maxScale)
    (hplaces : ∀ d ∈ addends, HasPlaces k d.value) (hnonneg : ∀ d ∈ addends, 0 ≤ d.value)
    (hle : (addends.map Decimal.value).sum * 10 ^ k ≤ maxMantissa) : A.SumsExactly addends := by
  have hfits : ∀ init d, init ++ [d] <+: addends →
      Fits (Decimal.zero.value + ((init ++ [d]).map Decimal.value).sum) := by
    rintro init d ⟨rest, rfl⟩
    rw [Decimal.zero_value, zero_add]
    rw [List.map_append, List.sum_append] at hle
    have hrest : 0 ≤ (rest.map Decimal.value).sum := by
      refine List.sum_nonneg fun x hx => ?_
      obtain ⟨e, he, rfl⟩ := List.mem_map.mp hx
      exact hnonneg e (List.mem_append_right _ he)
    have hinit : 0 ≤ ((init ++ [d]).map Decimal.value).sum := by
      refine List.sum_nonneg fun x hx => ?_
      obtain ⟨e, he, rfl⟩ := List.mem_map.mp hx
      exact hnonneg e (List.mem_append_left _ he)
    have hsum : HasPlaces k ((init ++ [d]).map Decimal.value).sum := by
      refine hasPlaces_listSum fun x hx => ?_
      obtain ⟨e, he, rfl⟩ := List.mem_map.mp hx
      exact hplaces e (List.mem_append_left _ he)
    obtain ⟨m, hm⟩ := hsum
    refine ⟨k, hk, m, ?_, hm⟩
    have hpow : (0 : ℚ) < 10 ^ k := by positivity
    have hm0 : (0 : ℚ) ≤ m := by
      rw [← hm]
      positivity
    have hmax : (m : ℚ) ≤ maxMantissa := by
      rw [← hm]
      exact (mul_le_mul_of_nonneg_right (le_add_of_nonneg_right hrest) hpow.le).trans hle
    rw [abs_of_nonneg (by exact_mod_cast hm0)]
    exact_mod_cast hmax
  obtain ⟨d, hd, hvalue⟩ := sumFrom_of_fits (A := A) hfits
  exact ⟨d, hd, by rw [hvalue, Decimal.zero_value, zero_add]⟩

end Arithmetic

/-! ## Ties to the even side -/

/-- The decimals are dropped one by one until the rest fits. -/
def fitFrom (x : ℚ) : (s : ℕ) → s ≤ maxScale → Option Decimal
  | 0, hs =>
      if h : |roundEven (x * 10 ^ 0)| ≤ maxMantissa then
        some ⟨_, 0, hs, _, h, div_mul_cancel₀ _ (by positivity)⟩
      else none
  | s + 1, hs =>
      if h : |roundEven (x * 10 ^ (s + 1))| ≤ maxMantissa then
        some ⟨_, s + 1, hs, _, h, div_mul_cancel₀ _ (by positivity)⟩
      else fitFrom x s (Nat.le_of_succ_le hs)

theorem fitFrom_none {x : ℚ} {s : ℕ} {hs : s ≤ maxScale} :
    fitFrom x s hs = none ↔ ∀ t ≤ s, maxMantissa < |roundEven (x * 10 ^ t)| := by
  induction s with
  | zero => simp [fitFrom]
  | succ s ih =>
      rw [fitFrom]
      split
      · rename_i h
        refine iff_of_false (Option.some_ne_none _) fun hall => ?_
        exact absurd h (not_le.mpr (hall (s + 1) (le_refl _)))
      · rename_i h
        rw [ih]
        refine ⟨fun hall t ht => ?_, fun hall t ht => hall t (by omega)⟩
        obtain rfl | hlt := eq_or_lt_of_le ht
        · exact not_le.mp h
        · exact hall t (by omega)

theorem fitFrom_some {x : ℚ} {s : ℕ} {hs : s ≤ maxScale} {d : Decimal}
    (h : fitFrom x s hs = some d) : ∃ t ≤ s, d.value = roundEven (x * 10 ^ t) / 10 ^ t ∧
      ∀ u ≤ s, t < u → maxMantissa < |roundEven (x * 10 ^ u)| := by
  induction s with
  | zero =>
      rw [fitFrom] at h
      split at h
      · cases h
        exact ⟨0, le_refl _, rfl, fun u hu hlt => by omega⟩
      · cases h
  | succ s ih =>
      rw [fitFrom] at h
      split at h
      · cases h
        exact ⟨s + 1, le_refl _, rfl, fun u hu hlt => by omega⟩
      · rename_i hlarge
        obtain ⟨t, ht, hvalue, hall⟩ := ih h
        refine ⟨t, by omega, hvalue, fun u hu hlt => ?_⟩
        obtain rfl | hlt' := eq_or_lt_of_le hu
        · exact not_le.mp hlarge
        · exact hall u (by omega) hlt

theorem roundEven_limit : roundEven limit = maxMantissa + 1 := by
  have hfloor : ⌊limit⌋ = maxMantissa := by
    norm_num [limit, maxMantissa]
  have hfract : Int.fract limit = 1 / 2 := by
    rw [Int.fract, hfloor, limit]
    ring
  rw [roundEven, hfract, hfloor, if_neg (by norm_num), if_neg (by norm_num), if_neg (by decide)]

theorem roundEven_neg_limit : roundEven (-limit) = -(maxMantissa + 1) := by
  have hfloor : ⌊-limit⌋ = -(maxMantissa + 1) := by
    norm_num [limit, maxMantissa]
  have hfract : Int.fract (-limit) = 1 / 2 := by
    rw [Int.fract, hfloor, limit]
    push_cast
    ring
  rw [roundEven, hfract, hfloor, if_neg (by norm_num), if_neg (by norm_num), if_pos (by decide)]

/-- The greatest mantissa is odd, so a tie above it does not fit. -/
theorem maxMantissa_lt_abs_roundEven {x : ℚ} : maxMantissa < |roundEven x| ↔ limit ≤ |x| := by
  have hnear := abs_roundEven_sub x
  constructor
  · intro h
    have hge : (maxMantissa : ℚ) + 1 ≤ |(roundEven x : ℚ)| := by
      rw [← Int.cast_abs]
      exact_mod_cast h
    have htri := abs_sub_abs_le_abs_sub (roundEven x : ℚ) x
    rw [limit]
    linarith
  · intro h
    by_contra hle
    have hle' : |(roundEven x : ℚ)| ≤ maxMantissa := by
      rw [← Int.cast_abs]
      exact_mod_cast not_lt.mp hle
    have htri := abs_sub_abs_le_abs_sub x (roundEven x : ℚ)
    rw [abs_sub_comm] at htri
    have habs : |x| = limit := le_antisymm (by rw [limit]; linarith) h
    rw [abs_eq (by norm_num [limit, maxMantissa])] at habs
    cases habs with
    | inl hx =>
        rw [hx, roundEven_limit] at hle
        exact hle (by decide)
    | inr hx =>
        rw [hx, roundEven_neg_limit] at hle
        exact hle (by decide)

def halfEven : Arithmetic where
  fit x := fitFrom x maxScale (le_refl _)
  exact d := by
    obtain ⟨s, hs, m, hm, hx⟩ := d.fits
    cases hfit : fitFrom d.value maxScale (le_refl _) with
    | none =>
        have hlarge := fitFrom_none.mp hfit s hs
        rw [hx, roundEven_intCast] at hlarge
        omega
    | some e =>
        obtain ⟨t, ht, hvalue, hall⟩ := fitFrom_some hfit
        have hst : s ≤ t := by
          by_contra hlt
          have hlarge := hall s hs (by omega)
          rw [hx, roundEven_intCast] at hlarge
          omega
        obtain ⟨n, hn⟩ := HasPlaces.mono ⟨m, hx⟩ hst
        rw [hn, roundEven_intCast, ← hn, mul_div_cancel_right₀ _ (by positivity)] at hvalue
        exact congrArg some (Decimal.ext hvalue)
  overflow x := by
    rw [fitFrom_none]
    constructor
    · intro hall
      have hlarge := hall 0 (Nat.zero_le _)
      rwa [pow_zero, mul_one, maxMantissa_lt_abs_roundEven] at hlarge
    · intro hlimit t _
      rw [maxMantissa_lt_abs_roundEven, abs_mul, abs_of_pos (by positivity : (0 : ℚ) < 10 ^ t)]
      exact hlimit.trans (le_mul_of_one_le_right (abs_nonneg x) (one_le_pow₀ (by norm_num)))
  near x d hfit := by
    obtain ⟨t, ht, hvalue, hall⟩ := fitFrom_some hfit
    have hpos : (0 : ℚ) < 10 ^ t := by positivity
    refine ⟨t, ht, hvalue ▸ .div_pow _, ?_, ?_⟩
    · have hdist : d.value - x = (roundEven (x * 10 ^ t) - x * 10 ^ t) / 10 ^ t := by
        rw [hvalue, sub_div, mul_div_cancel_right₀ _ hpos.ne']
      rw [hdist, abs_div, abs_of_pos hpos]
      exact div_le_div_of_nonneg_right (abs_roundEven_sub _) hpos.le
    · obtain rfl | hlt := eq_or_lt_of_le ht
      · exact .inl rfl
      · refine .inr ?_
        have hlarge := hall (t + 1) (by omega) (by omega)
        rwa [maxMantissa_lt_abs_roundEven, abs_mul,
          abs_of_pos (by positivity : (0 : ℚ) < 10 ^ (t + 1))] at hlarge

end DianService.Lib
