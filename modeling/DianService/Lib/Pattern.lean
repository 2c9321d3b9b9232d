import Mathlib.Algebra.Group.Nat.Defs
import Mathlib.Data.List.Forall2

/-
  Texts of a fixed shape, such as dates: a pattern has `9` where any digit may stand. Blocks of
  as many digits compare as the numbers they are (`digits_lt_iff`), and longer texts block by
  block (`append_lt_iff`).
-/

namespace DianService.Lib

/-- `c` may stand where the pattern has `p`. -/
def FitsPlace (p c : Char) : Prop := if p = '9' then c.isDigit = true else c = p

instance (p c : Char) : Decidable (FitsPlace p c) :=
  inferInstanceAs (Decidable (if p = '9' then c.isDigit = true else c = p))

def Follows (pattern text : String) : Prop :=
  List.Forall₂ FitsPlace pattern.toList text.toList

/-! ## Length -/

theorem utf8Size_of_isDigit {c : Char} (h : c.isDigit = true) : c.utf8Size = 1 := by
  rw [Char.utf8Size_eq_one_iff]
  simp only [Char.isDigit, Bool.and_eq_true, decide_eq_true_eq] at h
  exact Nat.le_trans h.2 (by decide)

theorem FitsPlace.utf8Size {p c : Char} (h : FitsPlace p c) (hp : p.utf8Size = 1) :
    c.utf8Size = 1 := by
  unfold FitsPlace at h
  split at h
  · exact utf8Size_of_isDigit h
  · rw [h, hp]

theorem utf8ByteSize_cons (c : Char) (cs : List Char) :
    (String.ofList (c :: cs)).utf8ByteSize = c.utf8Size + (String.ofList cs).utf8ByteSize := by
  rw [String.ofList_cons, String.utf8ByteSize_append, String.utf8ByteSize_singleton]

theorem length_le_utf8ByteSize (text : String) : text.toList.length ≤ text.utf8ByteSize := by
  have hlist : ∀ cs : List Char, cs.length ≤ (String.ofList cs).utf8ByteSize := by
    intro cs
    induction cs with
    | nil => exact Nat.zero_le _
    | cons c cs ih =>
      have hpos := c.utf8Size_pos
      rw [utf8ByteSize_cons, List.length_cons]
      omega
  have := hlist text.toList
  rwa [String.ofList_toList] at this

/-- A text of characters of one byte has as many characters as bytes. -/
theorem utf8ByteSize_of_ascii {text : String} (h : ∀ c ∈ text.toList, c.utf8Size = 1) :
    text.utf8ByteSize = text.toList.length := by
  have hlist : ∀ cs : List Char, (∀ c ∈ cs, c.utf8Size = 1) →
      (String.ofList cs).utf8ByteSize = cs.length := by
    intro cs
    induction cs with
    | nil => exact fun _ => rfl
    | cons c cs ih =>
      intro hcs
      have hrest := ih fun d hd => hcs d (List.mem_cons_of_mem _ hd)
      have hc := hcs c List.mem_cons_self
      rw [utf8ByteSize_cons, hrest, List.length_cons]
      omega
  have := hlist text.toList h
  rwa [String.ofList_toList] at this

theorem oneByte_of_all {pattern : String}
    (h : (pattern.toList.all fun p => p.utf8Size = 1) = true) :
    ∀ p ∈ pattern.toList, p.utf8Size = 1 := by
  simpa using h

/-- Of an ASCII pattern: as many bytes, and a place for each character. -/
theorem follows_iff {pattern text : String} (hpattern : ∀ p ∈ pattern.toList, p.utf8Size = 1) :
    Follows pattern text ↔ text.utf8ByteSize = pattern.toList.length ∧
      ∀ (i : ℕ) c, text.toList[i]? = some c → ∃ p, pattern.toList[i]? = some p ∧ FitsPlace p c := by
  constructor
  · intro h
    have hlength := h.length_eq
    have hplaces : ∀ (i : ℕ) c, text.toList[i]? = some c →
        ∃ p, pattern.toList[i]? = some p ∧ FitsPlace p c := by
      intro i c hc
      obtain ⟨hi, rfl⟩ := List.getElem?_eq_some_iff.mp hc
      have hi' : i < pattern.toList.length := by omega
      exact ⟨pattern.toList[i], List.getElem?_eq_getElem hi', h.get hi' hi⟩
    refine ⟨?_, hplaces⟩
    rw [utf8ByteSize_of_ascii, hlength]
    intro c hc
    obtain ⟨i, hi, rfl⟩ := List.getElem_of_mem hc
    obtain ⟨p, hp, hfits⟩ := hplaces i _ (List.getElem?_eq_getElem hi)
    exact hfits.utf8Size (hpattern p (List.mem_of_getElem? hp))
  · rintro ⟨hsize, hplaces⟩
    have hascii : ∀ c ∈ text.toList, c.utf8Size = 1 := by
      intro c hc
      obtain ⟨i, hi, rfl⟩ := List.getElem_of_mem hc
      obtain ⟨p, hp, hfits⟩ := hplaces i _ (List.getElem?_eq_getElem hi)
      exact hfits.utf8Size (hpattern p (List.mem_of_getElem? hp))
    rw [utf8ByteSize_of_ascii hascii] at hsize
    refine List.forall₂_iff_get.mpr ⟨hsize.symm, fun i hi hi' => ?_⟩
    obtain ⟨p, hp, hfits⟩ := hplaces i _ (List.getElem?_eq_getElem hi')
    obtain ⟨_, rfl⟩ := List.getElem?_eq_some_iff.mp hp
    exact hfits

/-! ## Places -/

/-- All characters but those at the given places are digits. -/
def DigitsBut (places : List ℕ) (text : String) : Prop :=
  ∀ (i : ℕ) c, text.toList[i]? = some c → i ∉ places → c.isDigit = true

/-- What stands at a place of the pattern. -/
theorem Follows.at_place {pattern text : String} (h : Follows pattern text) {i : ℕ} {p : Char}
    (hp : pattern.toList[i]? = some p) : ∃ c, text.toList[i]? = some c ∧ FitsPlace p c := by
  obtain ⟨hi, rfl⟩ := List.getElem?_eq_some_iff.mp hp
  have hi' : i < text.toList.length := by rwa [← List.Forall₂.length_eq h]
  exact ⟨_, List.getElem?_eq_getElem hi', List.Forall₂.get h hi hi'⟩

theorem Follows.literal {pattern text : String} (h : Follows pattern text) {i : ℕ} {p : Char}
    (hp : pattern.toList[i]? = some p) (hne : p ≠ '9') : text.toList[i]? = some p := by
  obtain ⟨c, hc, hfits⟩ := h.at_place hp
  rw [FitsPlace, if_neg hne] at hfits
  rw [hc, hfits]

theorem Follows.digitsBut {pattern text : String} (h : Follows pattern text)
    (hpattern : ∀ p ∈ pattern.toList, p.utf8Size = 1) {places : List ℕ}
    (hplaces : ∀ i < pattern.toList.length, i ∉ places → pattern.toList[i]? = some '9') :
    DigitsBut places text := by
  intro i c hc hi
  obtain ⟨p, hp, hfits⟩ := ((follows_iff hpattern).mp h).2 i c hc
  obtain ⟨hlt, -⟩ := List.getElem?_eq_some_iff.mp hp
  rw [hplaces i hlt hi] at hp
  obtain rfl := Option.some.inj hp
  exact hfits

/-- The literal characters of the pattern at `places`, digits elsewhere, and no byte more. -/
theorem follows_of_digitsBut {pattern text : String}
    (hpattern : ∀ p ∈ pattern.toList, p.utf8Size = 1)
    (hsize : text.utf8ByteSize = pattern.toList.length) {places : List ℕ}
    (hplaces : ∀ i < pattern.toList.length, i ∉ places → pattern.toList[i]? = some '9')
    (hliterals : ∀ i ∈ places, ∃ p, pattern.toList[i]? = some p ∧ p ≠ '9' ∧
      text.toList[i]? = some p)
    (hdigits : DigitsBut places text) : Follows pattern text := by
  refine (follows_iff hpattern).mpr ⟨hsize, fun i c hc => ?_⟩
  by_cases hi : i ∈ places
  · obtain ⟨p, hp, hne, hchar⟩ := hliterals i hi
    rw [hc] at hchar
    refine ⟨p, hp, ?_⟩
    rw [FitsPlace, if_neg hne]
    exact Option.some.inj hchar
  · obtain ⟨hlt, -⟩ := List.getElem?_eq_some_iff.mp hc
    have hle := length_le_utf8ByteSize text
    have hp := hplaces i (by omega) hi
    exact ⟨'9', hp, hdigits i c hc hi⟩

/-! ## Order -/

/-- The number that a block of digits is. -/
def numberOf (digits : List Char) : ℕ := Nat.ofDigitChars 10 digits 0

theorem digits_bounds {c : Char} (h : c.isDigit = true) : 48 ≤ c.toNat ∧ c.toNat ≤ 57 := by
  simp only [Char.isDigit, Bool.and_eq_true, decide_eq_true_eq, ge_iff_le] at h
  exact ⟨h.1, h.2⟩

theorem ofDigitChars_lt_iff {a b : List Char} (ha : ∀ c ∈ a, c.isDigit = true)
    (hb : ∀ c ∈ b, c.isDigit = true) (hlength : a.length = b.length) (x y : ℕ) :
    Nat.ofDigitChars 10 a x < Nat.ofDigitChars 10 b y ↔ x < y ∨ x = y ∧ a < b := by
  induction a generalizing b x y with
  | nil =>
    obtain rfl := List.length_eq_zero_iff.mp hlength.symm
    simp
  | cons c a ih =>
    cases b with
    | nil => cases hlength
    | cons d b =>
      obtain ⟨hc, ha⟩ := List.forall_mem_cons.mp ha
      obtain ⟨hd, hb⟩ := List.forall_mem_cons.mp hb
      obtain ⟨hc48, hc57⟩ := digits_bounds hc
      obtain ⟨hd48, hd57⟩ := digits_bounds hd
      have hlt : c < d ↔ c.toNat < d.toNat := Iff.rfl
      have heq : c = d ↔ c.toNat = d.toNat := ⟨congrArg _, fun h => Char.toNat_inj.mp h⟩
      have hzero : '0'.toNat = 48 := rfl
      rw [Nat.ofDigitChars_cons, Nat.ofDigitChars_cons, ih ha hb (Nat.succ.inj hlength),
        List.cons_lt_cons_iff, hlt, heq, hzero]
      by_cases hab : a < b <;> simp only [hab, and_true, and_false, or_false] <;> omega

theorem digits_lt_iff {a b : List Char} (ha : ∀ c ∈ a, c.isDigit = true)
    (hb : ∀ c ∈ b, c.isDigit = true) (hlength : a.length = b.length) :
    a < b ↔ numberOf a < numberOf b := by
  have h := ofDigitChars_lt_iff ha hb hlength 0 0
  simpa [numberOf] using h.symm

theorem append_lt_iff {a b s t : List Char} (hlength : a.length = b.length) :
    a ++ s < b ++ t ↔ a < b ∨ a = b ∧ s < t := by
  induction a generalizing b with
  | nil =>
    obtain rfl := List.length_eq_zero_iff.mp hlength.symm
    simp
  | cons c a ih =>
    cases b with
    | nil => cases hlength
    | cons d b =>
      rw [List.cons_append, List.cons_append, List.cons_lt_cons_iff, List.cons_lt_cons_iff,
        ih (Nat.succ.inj hlength), List.cons.injEq]
      tauto

/-- Blocks of digits with a number each: the same number, the same block. -/
theorem digits_eq_iff {a b : List Char} (ha : ∀ c ∈ a, c.isDigit = true)
    (hb : ∀ c ∈ b, c.isDigit = true) (hlength : a.length = b.length) :
    a = b ↔ numberOf a = numberOf b := by
  refine ⟨congrArg _, fun h => ?_⟩
  have hab : ¬ a < b := by
    rw [digits_lt_iff ha hb hlength]
    omega
  have hba : ¬ b < a := by
    rw [digits_lt_iff hb ha hlength.symm]
    omega
  exact List.le_antisymm hba hab

/-! ## Leading zeros -/

theorem numberOf_cons (c : Char) (digits : List Char) :
    numberOf (c :: digits) = 10 ^ digits.length * (c.toNat - 48) + numberOf digits := by
  rw [numberOf, Nat.ofDigitChars_cons, Nat.ofDigitChars_eq_ofDigitChars_zero, Nat.mul_zero,
    Nat.zero_add]
  rfl

theorem numberOf_lt {digits : List Char} (h : ∀ c ∈ digits, c.isDigit = true) :
    numberOf digits < 10 ^ digits.length := by
  induction digits with
  | nil => exact Nat.zero_lt_one
  | cons c digits ih =>
    obtain ⟨hc, hdigits⟩ := List.forall_mem_cons.mp h
    have hrest := ih hdigits
    obtain ⟨-, h57⟩ := digits_bounds hc
    have hle : 10 ^ digits.length * (c.toNat - 48) ≤ 10 ^ digits.length * 9 :=
      Nat.mul_le_mul_left _ (by omega)
    rw [numberOf_cons, List.length_cons, Nat.pow_succ]
    omega

/-- Digits are those of their number if they do not start with a zero. -/
theorem toDigits_numberOf_cons {c : Char} {digits : List Char} (hc : c.isDigit = true)
    (hdigits : ∀ d ∈ digits, d.isDigit = true) (hne : digits ≠ []) :
    Nat.toDigits 10 (numberOf (c :: digits)) = c :: digits ↔ c ≠ '0' := by
  have hpos : 0 < digits.length := List.length_pos_iff.mpr hne
  have hall : ∀ d ∈ c :: digits, d.isDigit = true := List.forall_mem_cons.mpr ⟨hc, hdigits⟩
  have hzero : '0'.toNat = 48 := rfl
  constructor
  · rintro h rfl
    have hlt : numberOf ('0' :: digits) < 10 ^ digits.length := by
      rw [numberOf_cons, hzero, Nat.sub_self, Nat.mul_zero, Nat.zero_add]
      exact numberOf_lt hdigits
    have hle := (Nat.length_toDigits_le_iff (by decide) hpos).mpr hlt
    rw [h, List.length_cons] at hle
    omega
  · intro hnonzero
    obtain ⟨h48, -⟩ := digits_bounds hc
    have hone : 1 ≤ c.toNat - 48 := by
      have hne48 : c.toNat ≠ 48 := fun heq => hnonzero (Char.toNat_inj.mp (heq.trans hzero.symm))
      omega
    have hge : 10 ^ digits.length ≤ numberOf (c :: digits) := by
      rw [numberOf_cons]
      exact Nat.le_add_right_of_le (Nat.le_mul_of_pos_right _ hone)
    have hlong : ¬ (Nat.toDigits 10 (numberOf (c :: digits))).length ≤ digits.length := by
      rw [Nat.length_toDigits_le_iff (by decide) hpos]
      omega
    have hshort : (Nat.toDigits 10 (numberOf (c :: digits))).length ≤ digits.length + 1 := by
      rw [Nat.length_toDigits_le_iff (by decide) (by omega)]
      exact numberOf_lt hall
    rw [digits_eq_iff (fun d hd => Nat.isDigit_of_mem_toDigits (by decide) (by decide) hd) hall
      (by rw [List.length_cons]; omega)]
    exact Nat.ofDigitChars_ten_toDigits

end DianService.Lib
