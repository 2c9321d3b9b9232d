import DianService.Lib.Pattern
import DianService.Ubl.Sums

/-
  Ubl: dates and times of accepted payloads. `validate` counts the bytes of a date and looks at two
  of its characters; the date of a note's invoice goes through `valid_date`, which looks at all of
  them. Dates of that shape compare as texts as they do on the calendar (`notAfter_iff`).
-/

namespace DianService.Ubl

open Lib Lib.Checked

/-! ## Shapes -/

def IsDate (text : String) : Prop := Follows "9999-99-99" text

def IsTime (text : String) : Prop := Follows "99:99:99-99:99" text

theorem charAt_iff {s : String} {i : Nat} {c : Char} :
    charAt s i c = true ↔ s.toList[i]? = some c := by
  simp [charAt]

/-- The check of dates looks at two of ten characters. -/
theorem isDate_iff {text : String} :
    IsDate text ↔ dateShaped text = true ∧ DigitsBut [4, 7] text := by
  have hpattern : ∀ p ∈ "9999-99-99".toList, p.utf8Size = 1 := oneByte_of_all (by decide)
  have hplaces : ∀ i < "9999-99-99".toList.length, i ∉ [4, 7] →
      "9999-99-99".toList[i]? = some '9' := by decide
  simp only [dateShaped, decide_eq_true_eq]
  constructor
  · intro h
    exact ⟨⟨((follows_iff hpattern).mp h).1, charAt_iff.mpr (h.literal (i := 4) rfl (by decide)),
      charAt_iff.mpr (h.literal (i := 7) rfl (by decide))⟩, h.digitsBut hpattern hplaces⟩
  · rintro ⟨⟨hsize, h4, h7⟩, hdigits⟩
    refine follows_of_digitsBut hpattern hsize hplaces ?_ hdigits
    intro i hi
    obtain rfl | rfl : i = 4 ∨ i = 7 := by simpa using hi
    · exact ⟨'-', rfl, by decide, charAt_iff.mp h4⟩
    · exact ⟨'-', rfl, by decide, charAt_iff.mp h7⟩

/-- The check of times looks at three of fourteen. -/
theorem isTime_iff {text : String} :
    IsTime text ↔ timeShaped text = true ∧ charAt text 11 ':' = true ∧
      DigitsBut [2, 5, 8, 11] text := by
  have hpattern : ∀ p ∈ "99:99:99-99:99".toList, p.utf8Size = 1 := oneByte_of_all (by decide)
  have hplaces : ∀ i < "99:99:99-99:99".toList.length, i ∉ [2, 5, 8, 11] →
      "99:99:99-99:99".toList[i]? = some '9' := by decide
  simp only [timeShaped, decide_eq_true_eq]
  constructor
  · intro h
    exact ⟨⟨((follows_iff hpattern).mp h).1, charAt_iff.mpr (h.literal (i := 2) rfl (by decide)),
      charAt_iff.mpr (h.literal (i := 5) rfl (by decide)), charAt_iff.mpr (h.literal (i := 8) rfl (by decide))⟩,
      charAt_iff.mpr (h.literal (i := 11) rfl (by decide)), h.digitsBut hpattern hplaces⟩
  · rintro ⟨⟨hsize, h2, h5, h8⟩, h11, hdigits⟩
    refine follows_of_digitsBut hpattern hsize hplaces ?_ hdigits
    intro i hi
    obtain rfl | rfl | rfl | rfl : i = 2 ∨ i = 5 ∨ i = 8 ∨ i = 11 := by simpa using hi
    · exact ⟨':', rfl, by decide, charAt_iff.mp h2⟩
    · exact ⟨':', rfl, by decide, charAt_iff.mp h5⟩
    · exact ⟨'-', rfl, by decide, charAt_iff.mp h8⟩
    · exact ⟨':', rfl, by decide, charAt_iff.mp h11⟩

/-- `valid_date` accepts the dates. -/
theorem validDate_iff {text : String} : validDate text = true ↔ IsDate text := by
  have hplace : ∀ i < 10, "9999-99-99".toList[i]? =
      some (if i = 4 ∨ i = 7 then '-' else '9') := by decide
  rw [IsDate, follows_iff (oneByte_of_all (by decide))]
  simp only [validDate, decide_eq_true_eq, List.all_eq_true]
  refine and_congr_right fun hsize => ?_
  have hle := length_le_utf8ByteSize text
  constructor
  · intro h i c hc
    obtain ⟨hi, -⟩ := List.getElem?_eq_some_iff.mp hc
    have hic := h (c, i) (List.mk_mem_zipIdx_iff_getElem?.mpr hc)
    refine ⟨_, hplace i (by omega), ?_⟩
    by_cases hhyphen : i = 4 ∨ i = 7
    · simpa [FitsPlace, hhyphen] using hic
    · simpa [FitsPlace, hhyphen] using hic
  · rintro h ⟨c, i⟩ hmem
    have hc := List.mk_mem_zipIdx_iff_getElem?.mp hmem
    obtain ⟨hi, -⟩ := List.getElem?_eq_some_iff.mp hc
    obtain ⟨p, hp, hfits⟩ := h i c hc
    rw [hplace i (by omega), Option.some.injEq] at hp
    rw [← hp] at hfits
    by_cases hhyphen : i = 4 ∨ i = 7
    · simpa [FitsPlace, hhyphen] using hfits
    · simpa [FitsPlace, hhyphen] using hfits

/-! ## The calendar -/

structure CalendarDate where
  year : Nat
  month : Nat
  day : Nat

/-- The date that a text of its shape is. -/
def calendarDate (text : String) : CalendarDate where
  year := numberOf (text.toList.take 4)
  month := numberOf ((text.toList.drop 5).take 2)
  day := numberOf (text.toList.drop 8)

def CalendarDate.NotAfter (a b : CalendarDate) : Prop :=
  a.year < b.year ∨ a.year = b.year ∧
    (a.month < b.month ∨ a.month = b.month ∧ a.day ≤ b.day)

section Blocks

variable {text : String}

/-- Year, month and day, between hyphens. -/
theorem IsDate.blocks (h : IsDate text) :
    text.toList = text.toList.take 4 ++ '-' :: ((text.toList.drop 5).take 2 ++
      '-' :: text.toList.drop 8) := by
  have hlength : text.toList.length = 10 := (List.Forall₂.length_eq h).symm
  have hhyphen : ∀ i, (hi : i < text.toList.length) → text.toList[i]? = some '-' →
      text.toList.drop i = '-' :: text.toList.drop (i + 1) := by
    intro i hi hc
    rw [List.getElem?_eq_getElem hi, Option.some.injEq] at hc
    rw [List.drop_eq_getElem_cons hi, hc]
  have h4 := hhyphen 4 (by omega) (h.literal (i := 4) rfl (by decide))
  have h7 := hhyphen 7 (by omega) (h.literal (i := 7) rfl (by decide))
  rw [← h7, show 7 = 5 + 2 by rfl, ← List.drop_drop, List.take_append_drop, ← h4,
    List.take_append_drop]

/-- A block that has none of the hyphens. -/
theorem IsDate.digits (h : IsDate text) {start n : Nat} (hend : start + n ≤ 10)
    (hplaces : ∀ i, start ≤ i → i < start + n → i ≠ 4 ∧ i ≠ 7) :
    ((text.toList.drop start).take n).length = n ∧
      ∀ c ∈ (text.toList.drop start).take n, c.isDigit = true := by
  have hlength : text.toList.length = 10 := (List.Forall₂.length_eq h).symm
  constructor
  · rw [List.length_take, List.length_drop]
    omega
  · intro c hc
    obtain ⟨i, hi, rfl⟩ := List.getElem_of_mem hc
    rw [List.length_take, List.length_drop] at hi
    rw [List.getElem_take, List.getElem_drop]
    have hne := hplaces (start + i) (by omega) (by omega)
    exact (isDate_iff.mp h).2 (start + i) _ (List.getElem?_eq_getElem (by omega))
      (by simpa using hne)

theorem IsDate.year (h : IsDate text) : (text.toList.take 4).length = 4 ∧
    ∀ c ∈ text.toList.take 4, c.isDigit = true := by
  have hend : 0 + 4 ≤ 10 := by omega
  exact h.digits hend (by omega)

theorem IsDate.month (h : IsDate text) : ((text.toList.drop 5).take 2).length = 2 ∧
    ∀ c ∈ (text.toList.drop 5).take 2, c.isDigit = true :=
  h.digits (by omega) (by omega)

theorem IsDate.day (h : IsDate text) : (text.toList.drop 8).length = 2 ∧
    ∀ c ∈ text.toList.drop 8, c.isDigit = true := by
  have hlength : text.toList.length = 10 := (List.Forall₂.length_eq h).symm
  have htake : (text.toList.drop 8).take 2 = text.toList.drop 8 := by
    rw [List.take_of_length_le]
    rw [List.length_drop]
    omega
  rw [← htake]
  exact h.digits (by omega) (by omega)

end Blocks

/-- Dates compare as texts as they do on the calendar. -/
theorem notAfter_iff {s t : String} (hs : IsDate s) (ht : IsDate t) :
    s ≤ t ↔ (calendarDate s).NotAfter (calendarDate t) := by
  obtain ⟨hys, hyds⟩ := hs.year
  obtain ⟨hms, hmds⟩ := hs.month
  obtain ⟨hds, hdds⟩ := hs.day
  obtain ⟨hyt, hydt⟩ := ht.year
  obtain ⟨hmt, hmdt⟩ := ht.month
  obtain ⟨hdt, hddt⟩ := ht.day
  have hle : s ≤ t ↔ ¬ t.toList < s.toList := Iff.rfl
  have hhyphen : ¬ '-' < '-' := by decide
  rw [hle, ht.blocks, hs.blocks, append_lt_iff (by rw [hyt, hys]), List.cons_lt_cons_iff,
    append_lt_iff (by rw [hmt, hms]), List.cons_lt_cons_iff,
    digits_lt_iff hydt hyds (by rw [hyt, hys]), digits_eq_iff hydt hyds (by rw [hyt, hys]),
    digits_lt_iff hmdt hmds (by rw [hmt, hms]), digits_eq_iff hmdt hmds (by rw [hmt, hms]),
    digits_lt_iff hddt hdds (by rw [hdt, hds])]
  simp only [hhyphen, false_or, true_and, CalendarDate.NotAfter, calendarDate]
  omega

/-! ## Accepted payloads -/

def InvoicePayload.isNote (p : InvoicePayload) : Bool :=
  p.document_type = "credit_note" ∨ p.document_type = "debit_note"

/-- Date and time have their shapes, and the check of a note's dates compares them in time. -/
structure InvoicePayload.Dated (p : InvoicePayload) : Prop where
  date : IsDate p.issue_date
  time : IsTime p.issue_time
  order : p.isNote = true → ∀ reference ∈ p.billing_reference,
    (reference.issue_date ≤ p.issue_date ↔
      (calendarDate reference.issue_date).NotAfter (calendarDate p.issue_date))

/-- What no check of `issue_date` asks for. -/
def DateDigits (date : String) : Prop := DigitsBut [4, 7] date

/-- What no check of `issue_time` asks for. -/
def TimeDigits (time : String) : Prop :=
  charAt time 11 ':' = true ∧ DigitsBut [2, 5, 8, 11] time

section Accepted

variable {A : Arithmetic}

theorem header_shaped {p : InvoicePayload} (h : p.validateHeader = .ok ()) :
    dateShaped p.issue_date = true ∧ timeShaped p.issue_time = true := by
  simp only [InvoicePayload.validateHeader, except_bind_ok, require_ok] at h
  obtain ⟨-, hdate, -, htime, -⟩ := h
  exact ⟨hdate, htime⟩

/-- The date that a note refers to is one. -/
theorem note_reference_dated {p : InvoicePayload} (h : p.validateDocumentType = .ok ())
    (hnote : p.isNote = true) : ∀ reference ∈ p.billing_reference, IsDate reference.issue_date := by
  have hfields : p.validateNoteFields = .ok () := by
    unfold InvoicePayload.isNote at hnote
    unfold InvoicePayload.validateDocumentType at h
    split_ifs at h with hinvoice hkind
    · rw [hinvoice] at hnote
      exact absurd hnote (by decide)
    · exact h
  intro reference hreference
  unfold InvoicePayload.validateNoteFields at hfields
  rw [Option.mem_def.mp hreference] at hfields
  simp only [except_bind_ok, require_ok] at hfields
  obtain ⟨-, -, -, -, -, hdate, -⟩ := hfields
  exact validDate_iff.mp hdate

theorem invoice_dated {p : InvoicePayload} (h : Returns (p.validate A) ()) :
    p.Dated ↔ DateDigits p.issue_date ∧ TimeDigits p.issue_time := by
  obtain ⟨hheader, htype, -⟩ := p.checks h
  obtain ⟨hdate, htime⟩ := header_shaped hheader
  constructor
  · exact fun hdated => ⟨(isDate_iff.mp hdated.date).2, (isTime_iff.mp hdated.time).2⟩
  · rintro ⟨hdigits, htdigits⟩
    have hisdate := isDate_iff.mpr ⟨hdate, hdigits⟩
    refine ⟨hisdate, isTime_iff.mpr ⟨htime, htdigits⟩, fun hnote reference hreference => ?_⟩
    exact notAfter_iff (note_reference_dated htype hnote reference hreference) hisdate

theorem payroll_dated {p : PayrollPayload} (h : Returns (p.validate A) ()) :
    IsDate p.issue_date ↔ DateDigits p.issue_date := by
  have hheader := p.checks h |>.1
  simp only [PayrollPayload.validateHeader, except_bind_ok, require_ok] at hheader
  obtain ⟨-, hdate, -⟩ := hheader
  exact ⟨fun hisdate => (isDate_iff.mp hisdate).2, fun hdigits => isDate_iff.mpr ⟨hdate, hdigits⟩⟩

theorem support_document_dated {p : SupportDocumentPayload} (h : Returns (p.validate A) ()) :
    IsDate p.issue_date ∧ IsTime p.issue_time ↔
      DateDigits p.issue_date ∧ TimeDigits p.issue_time := by
  have hheader := p.checks h |>.1
  simp only [SupportDocumentPayload.validateHeader, except_bind_ok, require_ok] at hheader
  obtain ⟨-, hdate, -, htime, -⟩ := hheader
  exact and_congr
    ⟨fun hisdate => (isDate_iff.mp hisdate).2, fun hdigits => isDate_iff.mpr ⟨hdate, hdigits⟩⟩
    ⟨fun histime => (isTime_iff.mp histime).2, fun hdigits => isTime_iff.mpr ⟨htime, hdigits⟩⟩

end Accepted

/-- Of the accepted payloads, those have a date and a time that have digits where the checks do not
    look. -/
theorem dates_iff (A : Arithmetic) :
    (∀ p : InvoicePayload, Returns (p.validate A) () →
      (p.Dated ↔ DateDigits p.issue_date ∧ TimeDigits p.issue_time)) ∧
    (∀ p : PayrollPayload, Returns (p.validate A) () →
      (IsDate p.issue_date ↔ DateDigits p.issue_date)) ∧
    ∀ p : SupportDocumentPayload, Returns (p.validate A) () →
      (IsDate p.issue_date ∧ IsTime p.issue_time ↔
        DateDigits p.issue_date ∧ TimeDigits p.issue_time) :=
  ⟨fun _ h => invoice_dated h, fun _ h => payroll_dated h, fun _ h => support_document_dated h⟩

/-- The plain invoice has a date and a time. -/
theorem plain_invoice_dated : plainInvoice.Dated := by
  refine ((dates_iff halfEven).1 plainInvoice (plainInvoice_accepted _)).mpr ⟨?_, ?_⟩
  · have hdate : IsDate plainInvoice.issue_date := validDate_iff.mp (by decide +kernel)
    exact (isDate_iff.mp hdate).2
  · have htime : IsTime plainInvoice.issue_time := by
      unfold IsTime Follows
      decide +kernel
    exact (isTime_iff.mp htime).2

/-- Nine characters in ten bytes, none of them a digit. -/
def lettersInvoice : InvoicePayload := { plainInvoice with issue_date := "ñoab-cd-e" }

theorem letters_invoice_accepted (A : Arithmetic) : Returns (lettersInvoice.validate A) () :=
  plainAmounts_accepted A rfl (by decide +kernel) hugeInvoice_checks.2.1 hugeInvoice_checks.2.2
    rfl rfl rfl

theorem letters_invoice_undated :
    ¬ ∃ A : Arithmetic, ∀ p : InvoicePayload, Returns (p.validate A) () → p.Dated := by
  rintro ⟨A, h⟩
  have hdated := h lettersInvoice (letters_invoice_accepted A)
  have hdate := validDate_iff.mpr hdated.date
  exact absurd hdate (by decide +kernel)

end DianService.Ubl
