import Mathlib.Data.List.TakeWhile
import DianService.Lib.Pattern
import DianService.Application.Xml
import DianService.Issue.Identifiers

/-
  Application: `split_document_id` against the identifiers that are printed. With a hyphen the
  parts come back; without one the number is taken to begin at the first digit, so the digits of a
  prefix go to the number.
-/

namespace DianService

open Lib Lib.Xml

/-- A prefix that a numbering range may have. -/
def AdmittedPrefix (pfx : String) : Prop :=
  pfx.utf8ByteSize ≤ 4 ∧ pfx.toList.all isAsciiAlphanumeric = true

instance (pfx : String) : Decidable (AdmittedPrefix pfx) := inferInstanceAs (Decidable (_ ∧ _))

/-- What `split_document_id` makes of a number that is printed after its prefix. -/
structure ReadBack (pfx : String) (n : Int) : Prop where
  hyphen : splitDocumentId (pfx ++ "-" ++ toString n) = some (pfx, n)
  prints : ∃ p m, splitDocumentId (printedId pfx n) = some (p, m) ∧
    printedId p m = printedId pfx n
  letters : (∀ c ∈ pfx.toList, c.isDigit = false) →
    splitDocumentId (printedId pfx n) = some (pfx, n)

/-- The prefix from its first digit on. -/
def digitTail (pfx : String) : List Char := pfx.toList.dropWhile fun c => !c.isDigit

/-- The digits of the prefix are at its end, the first is no zero, and together with the number
    they are a number of 31 bits. -/
structure DigitsAtEnd (pfx : String) (n : Int) : Prop where
  digits : ∀ c ∈ digitTail pfx, c.isDigit = true
  no_zero : (digitTail pfx).head? ≠ some '0'
  fits : numberOf (digitTail pfx ++ (toString n).toList) < 2147483648

/-! ## Numbers -/

theorem toList_toString {n : Nat} : (toString (n : Int)).toList = Nat.toDigits 10 n := by
  show (Nat.repr n).toList = _
  rw [Nat.repr_eq_ofList_toDigits, String.toList_ofList]

theorem digits?_eq {digits : List Char} (h : ∀ c ∈ digits, c.isDigit = true) (init : Nat) :
    digits? 10 init digits = some (Nat.ofDigitChars 10 digits init) := by
  induction digits generalizing init with
  | nil => rfl
  | cons c digits ih =>
      obtain ⟨hc, hdigits⟩ := List.forall_mem_cons.mp h
      obtain ⟨h48, h57⟩ := digits_bounds hc
      have hzero : '0'.toNat = 48 := rfl
      have hdigit : digit? 10 c = some (c.toNat - '0'.toNat) := by
        have hrange : '0' ≤ c ∧ c ≤ '9' := ⟨h48, h57⟩
        rw [digit?, hexDigit?, if_pos hrange, Option.filter_some, if_pos]
        rw [hzero, decide_eq_true_eq]
        omega
      rw [digits?, hdigit, Option.bind_some, ih hdigits, Nat.ofDigitChars_cons, Nat.mul_comm]

theorem numberOf_toDigits (n : Nat) : numberOf (Nat.toDigits 10 n) = n :=
  Nat.ofDigitChars_ten_toDigits

theorem isDigit_of_toDigits {n : Nat} : ∀ c ∈ Nat.toDigits 10 n, c.isDigit = true :=
  fun _ hc => Nat.isDigit_of_mem_toDigits (by decide) (by decide) hc

/-- The end of `split_document_id`. -/
theorem splitParts_eq {p digits : List Char} (hne : digits ≠ []) :
    (if digits = [] || !digits.all Char.isDigit then none
      else (digits? 10 0 digits).bind fun n =>
        if n < 2147483648 then some (String.ofList p, (n : Int)) else none) =
      if digits.all Char.isDigit = true ∧ numberOf digits < 2147483648 then
        some (String.ofList p, (numberOf digits : Int)) else none := by
  by_cases hall : digits.all Char.isDigit = true
  · rw [if_neg (by simp [hne, hall]), digits?_eq (List.all_eq_true.mp hall), Option.bind_some]
    exact if_congr (and_iff_right hall).symm rfl rfl
  · rw [if_pos (by simp [hall]), if_neg fun h => hall h.1]

/-! ## Identifiers without a hyphen -/

section Printed

variable {pfx : String}

theorem hyphen_not_mem (h : AdmittedPrefix pfx) : '-' ∉ pfx.toList := by
  intro hmem
  have := List.all_eq_true.mp h.2 _ hmem
  exact absurd this (by decide)

theorem isDigit_ne_hyphen {c : Char} (h : c.isDigit = true) : c ≠ '-' := by
  rintro rfl
  exact absurd h (by decide)

/-- The first digit begins the number. -/
theorem splitDocumentId_printed (h : AdmittedPrefix pfx) (n : Nat) :
    splitDocumentId (printedId pfx n) =
      if (digitTail pfx).all Char.isDigit = true ∧
          numberOf (digitTail pfx ++ Nat.toDigits 10 n) < 2147483648 then
        some (String.ofList (pfx.toList.takeWhile fun c => !c.isDigit),
          (numberOf (digitTail pfx ++ Nat.toDigits 10 n) : Int)) else none := by
  have hchars : (printedId pfx n).toList = pfx.toList ++ Nat.toDigits 10 n := by
    rw [printedId, String.toList_append, toList_toString]
  have hhyphen : '-' ∉ (printedId pfx n).toList := by
    rw [hchars, List.mem_append]
    rintro (hmem | hmem)
    · exact hyphen_not_mem h hmem
    · exact isDigit_ne_hyphen (isDigit_of_toDigits _ hmem) rfl
  obtain ⟨d, ds, hd⟩ := List.exists_cons_of_ne_nil (Nat.toDigits_ne_nil (n := n) (b := 10))
  have hdigit : d.isDigit = true := isDigit_of_toDigits (n := n) d (hd ▸ List.mem_cons_self)
  have hany : (printedId pfx n).toList.any Char.isDigit = true := by
    refine List.any_eq_true.mpr ⟨d, ?_, hdigit⟩
    rw [hchars, hd]
    exact List.mem_append_right _ List.mem_cons_self
  have htake : (printedId pfx n).toList.takeWhile (fun c => !c.isDigit) =
      pfx.toList.takeWhile fun c => !c.isDigit := by
    rw [hchars, List.takeWhile_append]
    split
    · rename_i hlength
      rw [hd, List.takeWhile_cons_of_neg (by simp [hdigit]), List.append_nil,
        (List.takeWhile_prefix _).eq_of_length hlength]
    · rfl
  have hdrop : (printedId pfx n).toList.dropWhile (fun c => !c.isDigit) =
      digitTail pfx ++ Nat.toDigits 10 n := by
    rw [hchars, List.dropWhile_append, digitTail]
    split
    · rename_i hempty
      rw [List.isEmpty_iff.mp hempty, hd, List.dropWhile_cons_of_neg (by simp [hdigit]),
        List.nil_append]
    · rfl
  have hne : digitTail pfx ++ Nat.toDigits 10 n ≠ [] := by
    rw [hd]
    simp
  have hall : (digitTail pfx ++ Nat.toDigits 10 n).all Char.isDigit = true ↔
      (digitTail pfx).all Char.isDigit = true := by
    rw [List.all_append, Bool.and_eq_true]
    exact and_iff_left (List.all_eq_true.mpr isDigit_of_toDigits)
  unfold splitDocumentId
  simp only [if_neg hhyphen, if_pos hany, Option.bind_some, htake, hdrop]
  rw [splitParts_eq hne]
  exact if_congr (and_congr_left' hall) rfl rfl

/-- With a hyphen the parts come back. -/
theorem splitDocumentId_hyphen {n : Nat} (hn : n < 2147483648) :
    splitDocumentId (pfx ++ "-" ++ toString (n : Int)) = some (pfx, (n : Int)) := by
  have hchars : (pfx ++ "-" ++ toString (n : Int)).toList =
      pfx.toList ++ '-' :: Nat.toDigits 10 n := by
    rw [String.toList_append, String.toList_append, toList_toString, List.append_assoc]
    rfl
  have hreverse : (pfx ++ "-" ++ toString (n : Int)).toList.reverse =
      (Nat.toDigits 10 n).reverse ++ '-' :: pfx.toList.reverse := by
    rw [hchars, List.reverse_append, List.reverse_cons, List.append_assoc]
    rfl
  have hdigits : ∀ c ∈ (Nat.toDigits 10 n).reverse, decide (c ≠ '-') = true := fun c hc =>
    decide_eq_true (isDigit_ne_hyphen (isDigit_of_toDigits c (List.mem_reverse.mp hc)))
  have hmem : '-' ∈ (pfx ++ "-" ++ toString (n : Int)).toList := by
    rw [hchars]
    exact List.mem_append_right _ List.mem_cons_self
  have htake : (pfx ++ "-" ++ toString (n : Int)).toList.reverse.takeWhile (fun c => c ≠ '-') =
      (Nat.toDigits 10 n).reverse := by
    rw [hreverse, List.takeWhile_append_of_pos hdigits, List.takeWhile_cons_of_neg (by simp),
      List.append_nil]
  have hdrop : (pfx ++ "-" ++ toString (n : Int)).toList.reverse.dropWhile (fun c => c ≠ '-') =
      '-' :: pfx.toList.reverse := by
    rw [hreverse, List.dropWhile_append_of_pos hdigits, List.dropWhile_cons_of_neg (by simp)]
  unfold splitDocumentId
  simp only [if_pos hmem, Option.bind_some, htake, hdrop, List.tail_cons, List.reverse_reverse]
  rw [splitParts_eq Nat.toDigits_ne_nil, numberOf_toDigits, String.ofList_toList]
  exact if_pos ⟨List.all_eq_true.mpr isDigit_of_toDigits, hn⟩

/-! ## What is read back -/

variable {n : Nat}

theorem letters_append_digitTail :
    pfx.toList.takeWhile (fun c => !c.isDigit) ++ digitTail pfx = pfx.toList :=
  List.takeWhile_append_dropWhile

/-- A prefix without digits has no tail. -/
theorem digitTail_eq_nil (h : ∀ c ∈ pfx.toList, c.isDigit = false) : digitTail pfx = [] := by
  rw [digitTail, List.dropWhile_eq_nil_iff]
  simpa using h

/-- Printing the parts gives the identifier back if the number does not lose a zero. -/
theorem printedId_parts {m : Nat} :
    printedId (String.ofList (pfx.toList.takeWhile fun c => !c.isDigit)) m = printedId pfx n ↔
      Nat.toDigits 10 m = digitTail pfx ++ Nat.toDigits 10 n := by
  have hleft : (printedId (String.ofList (pfx.toList.takeWhile fun c => !c.isDigit)) m).toList =
      pfx.toList.takeWhile (fun c => !c.isDigit) ++ Nat.toDigits 10 m := by
    rw [printedId, String.toList_append, toList_toString, String.toList_ofList]
  have hright : (printedId pfx n).toList = pfx.toList.takeWhile (fun c => !c.isDigit) ++
      (digitTail pfx ++ Nat.toDigits 10 n) := by
    rw [printedId, String.toList_append, toList_toString, ← List.append_assoc,
      letters_append_digitTail]
  rw [← String.toList_inj, hleft, hright, List.append_cancel_left_eq]

/-- The number is printed with the digits of the prefix if these do not start with a zero. -/
theorem toDigits_numberOf_tail (htail : ∀ c ∈ digitTail pfx, c.isDigit = true) :
    Nat.toDigits 10 (numberOf (digitTail pfx ++ Nat.toDigits 10 n)) =
      digitTail pfx ++ Nat.toDigits 10 n ↔ (digitTail pfx).head? ≠ some '0' := by
  cases hcases : digitTail pfx with
  | nil =>
      rw [List.nil_append, numberOf_toDigits]
      exact iff_of_true rfl (by simp)
  | cons c tail =>
      rw [hcases] at htail
      obtain ⟨hc, htail⟩ := List.forall_mem_cons.mp htail
      have hdigits : ∀ d ∈ tail ++ Nat.toDigits 10 n, d.isDigit = true := fun d hd =>
        (List.mem_append.mp hd).elim (htail d) (isDigit_of_toDigits d)
      have hne : tail ++ Nat.toDigits 10 n ≠ [] := by
        simp [Nat.toDigits_ne_nil]
      rw [List.cons_append, toDigits_numberOf_cons hc hdigits hne, List.head?_cons, Ne, Ne,
        Option.some.injEq]

end Printed

/-- A number printed after its prefix is read back where the digits of the prefix are at its end,
    do not start with a zero and leave the number within 31 bits. -/
theorem read_back_iff {pfx : String} {n : Int} (hpfx : AdmittedPrefix pfx) (hn : 0 < n)
    (hmax : n < 2147483648) : ReadBack pfx n ↔ DigitsAtEnd pfx n := by
  obtain ⟨k, rfl⟩ := Int.eq_ofNat_of_zero_le hn.le
  have hk : k < 2147483648 := by omega
  have hsplit := splitDocumentId_printed hpfx k
  constructor
  · rintro ⟨-, ⟨p, m, hsome, hprints⟩, -⟩
    rw [hsplit] at hsome
    split at hsome
    · rename_i hread
      obtain ⟨hall, hfits⟩ := hread
      have hdigits := List.all_eq_true.mp hall
      cases hsome
      refine ⟨hdigits, ?_, by rwa [toList_toString]⟩
      exact (toDigits_numberOf_tail hdigits).mp (printedId_parts.mp hprints)
    · cases hsome
  · rintro ⟨hdigits, hzero, hfits⟩
    rw [toList_toString] at hfits
    rw [if_pos ⟨List.all_eq_true.mpr hdigits, hfits⟩] at hsplit
    refine ⟨splitDocumentId_hyphen hk, ⟨_, _, hsplit, ?_⟩, fun hletters => ?_⟩
    · exact printedId_parts.mpr ((toDigits_numberOf_tail hdigits).mpr hzero)
    · have htail := digitTail_eq_nil hletters
      have hall : pfx.toList.takeWhile (fun c => !c.isDigit) ++ digitTail pfx = pfx.toList :=
        letters_append_digitTail
      rw [htail, List.append_nil] at hall
      rw [hsplit, htail, hall, List.nil_append, numberOf_toDigits, String.ofList_toList]

theorem read_back_letters : ReadBack "SETP" 990001 := by
  have htail : digitTail "SETP" = [] := by decide
  refine (read_back_iff (by decide) (by decide) (by decide)).mpr ⟨?_, ?_, ?_⟩
  · rw [htail]
    exact List.forall_mem_nil _
  · rw [htail]
    exact (Option.some_ne_none '0').symm
  · decide

/-- `A1B5` has no number after its first digit. -/
theorem letter_after_digit_rejected : ¬ ∀ (pfx : String) (n : Int), AdmittedPrefix pfx → 0 < n →
    n < 2147483648 → ReadBack pfx n := by
  intro h
  obtain ⟨p, m, hsome, -⟩ := (h "A1B" 5 (by decide) (by decide) (by decide)).prints
  have hnone : splitDocumentId (printedId "A1B" 5) = none := by decide
  rw [hnone] at hsome
  cases hsome

end DianService
