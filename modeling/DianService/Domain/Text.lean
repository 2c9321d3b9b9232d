import DianService.Lib.Xml.Values

/-
  Domain: the string functions of the Rust standard library that the code relies on, on the
  characters of a string, and the digest type of the idempotency keys.
-/

namespace DianService

/-- `char::is_whitespace`: the Unicode `White_Space` property. -/
def isWhitespace (c : Char) : Bool :=
  (9 ≤ c.toNat && c.toNat ≤ 13) || c.toNat == 0x20 || c.toNat == 0x85 || c.toNat == 0xA0 ||
    c.toNat == 0x1680 || (0x2000 ≤ c.toNat && c.toNat ≤ 0x200A) || c.toNat == 0x2028 ||
    c.toNat == 0x2029 || c.toNat == 0x202F || c.toNat == 0x205F || c.toNat == 0x3000

def trimChars (cs : List Char) : List Char :=
  ((cs.dropWhile isWhitespace).reverse.dropWhile isWhitespace).reverse

/-- `str::trim`. -/
def trim (s : String) : String := String.ofList (trimChars s.toList)

/-- `u32::from_str_radix`, which takes a sign; `str::parse` for base 10. A value over 32 bits is no
    character either. -/
def fromStrRadix (b : Nat) : List Char → Option Nat
  | [] => none
  | '+' :: digits => if digits = [] then none else Lib.Xml.digits? b 0 digits
  | digits => Lib.Xml.digits? b 0 digits

/-- What both functions `resolve_reference` make of a name. -/
def resolvedName (name : List Char) : Option Char :=
  if name = ['a', 'm', 'p'] then some '&'
  else if name = ['l', 't'] then some '<'
  else if name = ['g', 't'] then some '>'
  else if name = ['q', 'u', 'o', 't'] then some '"'
  else if name = ['a', 'p', 'o', 's'] then some '\''
  else
    match name with
    | '#' :: 'x' :: hex => (fromStrRadix 16 hex).bind Lib.Xml.charOf?
    | '#' :: dec => (fromStrRadix 10 dec).bind Lib.Xml.charOf?
    | _ => none

/-- Pieces of a text, as `format!` puts them together. -/
def concat (pieces : List String) : String := String.ofList (pieces.flatMap String.toList)

@[simp] theorem toList_concat (pieces : List String) :
    (concat pieces).toList = pieces.flatMap String.toList :=
  String.toList_ofList

/-- The rest of `replace`, after `skip` more characters. -/
def replaceFrom (pattern replacement : List Char) : (skip : Nat) → List Char → List Char
  | _, [] => []
  | skip + 1, _ :: cs => replaceFrom pattern replacement skip cs
  | 0, c :: cs =>
      if pattern.isPrefixOf (c :: cs) then
        replacement ++ replaceFrom pattern replacement (pattern.length - 1) cs
      else c :: replaceFrom pattern replacement 0 cs

/-- `str::replace` of a pattern that is not empty. -/
def replace (pattern replacement cs : List Char) : List Char :=
  replaceFrom pattern replacement 0 cs

theorem replaceFrom_skip (pattern replacement : List Char) (skip : Nat) (cs : List Char) :
    replaceFrom pattern replacement skip cs = replace pattern replacement (cs.drop skip) := by
  induction cs generalizing skip with
  | nil => cases skip <;> rfl
  | cons c cs ih =>
      cases skip with
      | zero => rfl
      | succ skip => exact ih skip

theorem replace_cons_of_not {pattern : List Char} {c : Char} {cs : List Char}
    (h : pattern.isPrefixOf (c :: cs) = false) (replacement : List Char) :
    replace pattern replacement (c :: cs) = c :: replace pattern replacement cs := by
  unfold replace
  rw [replaceFrom, if_neg (by rw [h]; exact Bool.false_ne_true)]

theorem replace_append_self {pattern : List Char} (h : pattern ≠ []) (replacement cs : List Char) :
    replace pattern replacement (pattern ++ cs) = replacement ++ replace pattern replacement cs := by
  obtain ⟨c, rest, rfl⟩ := List.exists_cons_of_ne_nil h
  have hin : (c :: rest).isPrefixOf (c :: (rest ++ cs)) = true := by
    rw [List.isPrefixOf_iff_prefix]
    exact ⟨cs, rfl⟩
  show replaceFrom _ _ 0 (c :: (rest ++ cs)) = _
  rw [replaceFrom, if_pos hin, replaceFrom_skip, List.length_cons, Nat.add_sub_cancel,
    List.drop_left]

theorem dropWhile_of_forall_not {p : Char → Bool} {cs : List Char} (h : ∀ c ∈ cs, p c = false) :
    cs.dropWhile p = cs := by
  cases cs with
  | nil => rfl
  | cons c cs => simp [h c (List.mem_cons_self)]

theorem trim_of_no_whitespace {s : String} (h : ∀ c ∈ s.toList, isWhitespace c = false) :
    trim s = s := by
  have h' : ∀ c ∈ s.toList.reverse, isWhitespace c = false := fun c hc =>
    h c (List.mem_reverse.mp hc)
  simp [trim, trimChars, dropWhile_of_forall_not h, dropWhile_of_forall_not h']

theorem dropWhile_append_of_all {p : Char → Bool} {u : List Char} (h : u.all p) (v : List Char) :
    (u ++ v).dropWhile p = v.dropWhile p := by
  induction u with
  | nil => rfl
  | cons c u ih =>
      simp only [List.all_cons, Bool.and_eq_true] at h
      rw [List.cons_append, List.dropWhile_cons_of_pos h.1, ih h.2]

theorem dropWhile_append_of_not_all {p : Char → Bool} {u : List Char} (h : u.all p = false)
    (v : List Char) : (u ++ v).dropWhile p = u.dropWhile p ++ v := by
  induction u with
  | nil => simp at h
  | cons c u ih =>
      by_cases hc : p c
      · simp only [List.all_cons, hc, Bool.true_and] at h
        rw [List.cons_append, List.dropWhile_cons_of_pos hc, List.dropWhile_cons_of_pos hc, ih h]
      · rw [List.cons_append, List.dropWhile_cons_of_neg hc, List.dropWhile_cons_of_neg hc,
          List.cons_append]

theorem trimChars_append_left {u : List Char} (h : u.all isWhitespace) (v : List Char) :
    trimChars (u ++ v) = trimChars v := by
  unfold trimChars
  rw [dropWhile_append_of_all h]

theorem trimChars_append_right (u : List Char) {v : List Char} (h : v.all isWhitespace) :
    trimChars (u ++ v) = trimChars u := by
  unfold trimChars
  have hv : v.reverse.all isWhitespace := by rw [List.all_reverse]; exact h
  by_cases hu : u.all isWhitespace
  · have hall : v.dropWhile isWhitespace = [] := by simpa using dropWhile_append_of_all h []
    have hnone : u.dropWhile isWhitespace = [] := by simpa using dropWhile_append_of_all hu []
    rw [dropWhile_append_of_all hu, hall, hnone]
  · rw [dropWhile_append_of_not_all (by simpa using hu), List.reverse_append,
      dropWhile_append_of_all hv]

/-- Between two texts that are not blank nothing is trimmed. -/
theorem trimChars_append_between {u v : List Char} (hu : u.all isWhitespace = false)
    (hv : v.all isWhitespace = false) (m : List Char) :
    trimChars (u ++ m ++ v) =
      u.dropWhile isWhitespace ++ m ++ (v.reverse.dropWhile isWhitespace).reverse := by
  have hv' : v.reverse.all isWhitespace = false := by rw [List.all_reverse]; exact hv
  unfold trimChars
  rw [List.append_assoc, dropWhile_append_of_not_all hu, List.reverse_append, List.reverse_append,
    List.append_assoc, dropWhile_append_of_not_all hv']
  simp

theorem filter_trimChars (cs : List Char) :
    (trimChars cs).filter (fun c => !isWhitespace c) = cs.filter fun c => !isWhitespace c := by
  have hdrop : ∀ l : List Char, (l.dropWhile isWhitespace).filter (fun c => !isWhitespace c) =
      l.filter fun c => !isWhitespace c := by
    intro l
    induction l with
    | nil => rfl
    | cons c l ih =>
        by_cases hc : isWhitespace c
        · rw [List.dropWhile_cons_of_pos hc, ih]
          simp [hc]
        · rw [List.dropWhile_cons_of_neg hc]
  unfold trimChars
  rw [List.filter_reverse, hdrop, List.filter_reverse, List.reverse_reverse, hdrop]

/-- When a piece of a text does not show after trimming. -/
theorem trimChars_insert (u m v : List Char) :
    trimChars (u ++ m ++ v) = trimChars (u ++ v) ↔
      m = [] ∨ (m.all isWhitespace ∧ (u.all isWhitespace ∨ v.all isWhitespace)) := by
  constructor
  · intro h
    have hm : m.all isWhitespace := by
      have hf := congrArg (List.filter fun c => !isWhitespace c) h
      rw [filter_trimChars, filter_trimChars] at hf
      have hlen := congrArg List.length hf
      simp only [List.filter_append, List.length_append] at hlen
      have hnil : (m.filter fun c => !isWhitespace c) = [] := List.eq_nil_of_length_eq_zero (by omega)
      simpa [List.filter_eq_nil_iff] using hnil
    cases hu : u.all isWhitespace with
    | true => exact Or.inr ⟨hm, Or.inl rfl⟩
    | false =>
        cases hv : v.all isWhitespace with
        | true => exact Or.inr ⟨hm, Or.inr rfl⟩
        | false =>
            left
            have hv0 := trimChars_append_between hu hv []
            rw [List.append_nil, List.append_nil] at hv0
            rw [trimChars_append_between hu hv, hv0] at h
            have hlen := congrArg List.length h
            simp only [List.length_append] at hlen
            exact List.eq_nil_of_length_eq_zero (by omega)
  · rintro (rfl | ⟨hm, hu | hv⟩)
    · rw [List.append_nil]
    · rw [List.append_assoc, trimChars_append_left hu, trimChars_append_left hm,
        trimChars_append_left hu]
    · rw [trimChars_append_right _ hv, trimChars_append_right _ hm, trimChars_append_right _ hv]

/-- A lowercase hexadecimal digit, as `{:02x}` prints it. -/
def isHexDigit (c : Char) : Bool :=
  (0x30 ≤ c.toNat && c.toNat ≤ 0x39) || (0x61 ≤ c.toNat && c.toNat ≤ 0x66)

/-- A SHA-256 in lowercase hexadecimal: the 64 characters a `CHAR(64)` column holds without
    padding. -/
structure HexDigest where
  text : String
  length_eq : text.toList.length = 64
  hex : ∀ c ∈ text.toList, isHexDigit c = true
  deriving DecidableEq

theorem isWhitespace_of_isHexDigit {c : Char} (h : isHexDigit c = true) :
    isWhitespace c = false := by
  simp only [isHexDigit, isWhitespace, Bool.or_eq_true, Bool.and_eq_true, decide_eq_true_eq,
    Bool.or_eq_false_iff, Bool.and_eq_false_iff, decide_eq_false_iff_not, beq_eq_false_iff_ne] at h ⊢
  omega

@[simp] theorem HexDigest.trim_text (d : HexDigest) : trim d.text = d.text :=
  trim_of_no_whitespace fun c hc => isWhitespace_of_isHexDigit (d.hex c hc)

@[ext] theorem HexDigest.ext {d e : HexDigest} (h : d.text = e.text) : d = e := by
  cases d; cases e; cases h; rfl

/-- `char::is_ascii_alphanumeric` -/
def isAsciiAlphanumeric (c : Char) : Bool :=
  (0x30 ≤ c.toNat && c.toNat ≤ 0x39) || (0x41 ≤ c.toNat && c.toNat ≤ 0x5A) ||
    (0x61 ≤ c.toNat && c.toNat ≤ 0x7A)

end DianService
