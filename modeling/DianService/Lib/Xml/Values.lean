/-
  XML 1.0: white space, line ends, references and the values of attributes (of type CDATA: there
  is no DTD). Texts are lists of characters.
-/

namespace DianService.Lib.Xml

/-- A property of the characters of a text is decided on these, not on all characters. -/
instance (priority := high) decidableForallChar (t : List Char) (P : Char → Prop)
    [DecidablePred P] : Decidable (∀ c ∈ t, P c) :=
  decidable_of_iff (t.all (fun c => decide (P c)) = true) (by simp)

/-- Production `S`. -/
def isSpace (c : Char) : Bool := c = ' ' || c = '\t' || c = '\n' || c = '\r'

/-- Production `Char`. -/
def isXmlChar (c : Char) : Bool :=
  c = '\t' || c = '\n' || c = '\r' || (0x20 ≤ c.toNat && c.toNat ≠ 0xFFFE && c.toNat ≠ 0xFFFF)

/-- Line ends as an application gets to see them. -/
def normalizeEol : List Char → List Char
  | [] => []
  | '\r' :: '\n' :: cs => '\n' :: normalizeEol cs
  | '\r' :: cs => '\n' :: normalizeEol cs
  | c :: cs => c :: normalizeEol cs

/-! ## References -/

/-- The digit `c` in base 16. -/
def hexDigit? (c : Char) : Option Nat :=
  if '0' ≤ c ∧ c ≤ '9' then some (c.toNat - '0'.toNat)
  else if 'a' ≤ c ∧ c ≤ 'f' then some (c.toNat - 'a'.toNat + 10)
  else if 'A' ≤ c ∧ c ≤ 'F' then some (c.toNat - 'A'.toNat + 10)
  else none

/-- The digit `c` in base `b`, up to 16. -/
def digit? (b : Nat) (c : Char) : Option Nat := (hexDigit? c).filter (· < b)

/-- The number that a list of digits denotes after the digits that make `n`. -/
def digits? (b : Nat) : Nat → List Char → Option Nat
  | n, [] => some n
  | n, c :: cs => (digit? b c).bind fun d => digits? b (n * b + d) cs

/-- The character with a code point. -/
def charOf? (n : Nat) : Option Char := if n.isValidChar then some (Char.ofNat n) else none

/-- What stands between `&#` or `&#x` and `;`. -/
def charRef? (b : Nat) (digits : List Char) : Option Char :=
  if digits = [] then none
  else (digits? b 0 digits).bind fun n => (charOf? n).filter isXmlChar

/-- The character that `&name;` stands for, of the predefined entities and the character
    references. -/
def reference? (name : List Char) : Option Char :=
  if name = ['a', 'm', 'p'] then some '&'
  else if name = ['l', 't'] then some '<'
  else if name = ['g', 't'] then some '>'
  else if name = ['q', 'u', 'o', 't'] then some '"'
  else if name = ['a', 'p', 'o', 's'] then some '\''
  else
    match name with
    | '#' :: 'x' :: digits => charRef? 16 digits
    | '#' :: digits => charRef? 10 digits
    | _ => none

/-! ## Attribute values -/

/-- The rest of a value whose line ends are normalized; `pending` is what was read of a reference,
    last character first. -/
def valueFrom : (pending : Option (List Char)) → List Char → Option (List Char)
  | none, [] => some []
  | some _, [] => none
  | none, c :: cs =>
      if c = '&' then valueFrom (some []) cs
      else (valueFrom none cs).map fun v => (if isSpace c then ' ' else c) :: v
  | some pending, c :: cs =>
      if c = ';' then
        (reference? pending.reverse).bind fun r => (valueFrom none cs).map fun v => r :: v
      else valueFrom (some (c :: pending)) cs

/-- The value of an attribute, given what stands between its quotes. -/
def attributeValue (raw : List Char) : Option (List Char) := valueFrom none (normalizeEol raw)

example : attributeValue "a\r\nb&#9;&lt;&#x41;".toList = some "a b\t<A".toList := by decide

end DianService.Lib.Xml
