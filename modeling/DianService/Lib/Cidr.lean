import Mathlib.Data.Nat.Bitwise

/-
  Blocks of addresses in CIDR notation: the addresses of `width` bits whose first `length` bits are
  those of a base. A mask picks out such a block (`land_mask_eq_iff`).
-/

namespace DianService.Lib

structure Block where
  base : ℕ
  length : ℕ

def Block.Contains (width : ℕ) (b : Block) (address : ℕ) : Prop :=
  address / 2 ^ (width - b.length) = b.base / 2 ^ (width - b.length)

instance (width : ℕ) (b : Block) (address : ℕ) : Decidable (b.Contains width address) :=
  inferInstanceAs (Decidable (_ = _))

/-- In one of the blocks. -/
def Listed (width : ℕ) (blocks : List Block) (address : ℕ) : Prop :=
  ∃ b ∈ blocks, b.Contains width address

instance (width : ℕ) (blocks : List Block) (address : ℕ) :
    Decidable (Listed width blocks address) :=
  inferInstanceAs (Decidable (∃ b ∈ blocks, _))

@[simp] theorem listed_nil {width address : ℕ} : ¬ Listed width [] address := by
  rintro ⟨b, hb, -⟩
  cases hb

@[simp] theorem listed_cons {width address : ℕ} {b : Block} {blocks : List Block} :
    Listed width (b :: blocks) address ↔
      b.Contains width address ∨ Listed width blocks address := by
  simp [Listed]

theorem land_mask {w k x : ℕ} (hk : k ≤ w) (hx : x < 2 ^ w) :
    x &&& (2 ^ w - 2 ^ k) = 2 ^ k * (x / 2 ^ k) := by
  have hmask : 2 ^ w - 2 ^ k = 2 ^ k * (2 ^ (w - k) - 1) := by
    rw [Nat.mul_sub, ← pow_add, Nat.add_sub_cancel' hk, Nat.mul_one]
  rw [hmask]
  refine Nat.eq_of_testBit_eq fun i => ?_
  rw [Nat.testBit_land, Nat.testBit_two_pow_mul, Nat.testBit_two_pow_mul,
    Nat.testBit_two_pow_sub_one, Nat.testBit_div_two_pow]
  by_cases hi : k ≤ i
  · by_cases hw : i < w
    · have hlt : i - k < w - k := by omega
      simp [hi, hlt]
    · have hbit : x.testBit i = false :=
        Nat.testBit_lt_two_pow (hx.trans_le (Nat.pow_le_pow_right (by decide) (not_lt.mp hw)))
      simp [hi, hbit]
  · simp [hi]

/-- Comparing under a mask is comparing the first bits. -/
theorem land_mask_eq_iff {w k x b : ℕ} (hk : k ≤ w) (hx : x < 2 ^ w)
    (hbase : 2 ^ k ∣ b) : x &&& (2 ^ w - 2 ^ k) = b ↔ x / 2 ^ k = b / 2 ^ k := by
  rw [land_mask hk hx]
  constructor
  · intro h
    rw [← h, Nat.mul_div_cancel_left _ (Nat.two_pow_pos k)]
  · intro h
    rw [h, Nat.mul_div_cancel' hbase]

end DianService.Lib
