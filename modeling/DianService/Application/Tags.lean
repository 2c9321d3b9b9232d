import DianService.Soap.Response

/-
  Application: `tag_content` of `xml.rs`, the search that the registration of documents without
  verification uses. It is that of the SOAP client but for the characters that end a name.
-/

namespace DianService

/-- What follows the `<` of the first tag with this name, whatever its prefix. A `<` after which no
    name ends is where the search ends. -/
def findTag (nameEnds : Char → Bool) (tag_name : List Char) : List Char → Option (List Char)
  | [] => none
  | c :: rest =>
      if c = '<' then
        if rest.any nameEnds then
          if localPart (rest.takeWhile fun c => !nameEnds c) = tag_name then some rest
          else findTag nameEnds tag_name rest
        else none
      else findTag nameEnds tag_name rest

/-- What stands between the next `>` and the `</` after it. -/
def contentAfter (tag_rest : List Char) : Option (List Char) :=
  if '>' ∈ tag_rest then (untilClosing ((tag_rest.dropWhile (· ≠ '>')).drop 1)).map trimChars
  else none

/-- What ends a name in `tag_content`. -/
def endsName (c : Char) : Bool := c = ' ' || c = '>' || c = '/' || isWhitespace c

/-- `tag_content` -/
def tagContent (xml tag_name : String) : Option String :=
  ((findTag endsName tag_name.toList xml.toList).bind contentAfter).map String.ofList

/-- What ends a name in `extract_tag_content`. -/
def soapEndsName (c : Char) : Bool := c = ' ' || c = '>'

theorem localPart_of_not_colon {full_tag : List Char} (h : ':' ∉ full_tag) :
    localPart full_tag = full_tag := by
  have hall : ∀ c ∈ full_tag.reverse, decide (c ≠ ':') = true := by
    intro c hc
    exact decide_eq_true fun heq => h (heq ▸ List.mem_reverse.mp hc)
  have htake : (full_tag.reverse ++ []).takeWhile (fun c => decide (c ≠ ':')) =
      full_tag.reverse ++ List.takeWhile (fun c => decide (c ≠ ':')) [] :=
    List.takeWhile_append_of_pos hall
  rw [List.append_nil, List.takeWhile_nil, List.append_nil] at htake
  rw [localPart, htake, List.reverse_reverse]

/-- A name without a colon is its own local part. -/
theorem tagMatches_iff {full_tag tag_name : List Char} :
    tagMatches full_tag tag_name = true ↔ localPart full_tag = tag_name := by
  unfold tagMatches
  split
  · exact decide_eq_true_iff
  · rename_i hcolon
    rw [localPart_of_not_colon hcolon, decide_eq_true_iff]

theorem tagContent?_eq (tag_name text : List Char) :
    tagContent? tag_name text = (findTag soapEndsName tag_name text).bind contentAfter := by
  induction text with
  | nil => rfl
  | cons c rest ih =>
    have hany : (rest.any fun c => decide (c = ' ' ∨ c = '>')) = rest.any soapEndsName := by
      congr 1
      funext d
      simp [soapEndsName]
    have htake : (rest.takeWhile fun c => decide (c ≠ ' ' ∧ c ≠ '>')) =
        rest.takeWhile fun c => !soapEndsName c := by
      congr 1
      funext d
      simp [soapEndsName]
    rw [tagContent?, findTag, hany, htake]
    by_cases hlt : c = '<'
    · rw [if_pos hlt, if_pos hlt]
      by_cases hends : rest.any soapEndsName = true
      · rw [if_pos hends, if_pos hends]
        by_cases hmatch : localPart (rest.takeWhile fun c => !soapEndsName c) = tag_name
        · rw [if_pos (tagMatches_iff.mpr hmatch), if_pos hmatch]
          rfl
        · rw [if_neg fun h => hmatch (tagMatches_iff.mp h), if_neg hmatch, ih]
      · rw [if_neg hends, if_neg hends]
        rfl
    · rw [if_neg hlt, if_neg hlt, ih]

theorem extractTagContent_eq (xml tag_name : String) : extractTagContent xml tag_name =
    ((findTag soapEndsName tag_name.toList xml.toList).bind contentAfter).map String.ofList := by
  rw [extractTagContent, tagContent?_eq]

end DianService
