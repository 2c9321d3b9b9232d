import DianService.Domain.Models
import DianService.Domain.Text

/-
  Soap: how the client reads an answer of the DIAN (`client.rs`). The answer is not parsed as
  XML: a tag is looked for in the text, whatever its prefix, and what follows it up to the next
  `</` is its content.
-/

namespace DianService

/-- The text before the first `</`. -/
def untilClosing : List Char → Option (List Char)
  | [] => none
  | c :: cs =>
      if c = '<' ∧ cs.head? = some '/' then some [] else (untilClosing cs).map (c :: ·)

/-- What follows the last `:`. -/
def localPart (full_tag : List Char) : List Char :=
  (full_tag.reverse.takeWhile (· ≠ ':')).reverse

def tagMatches (full_tag tag_name : List Char) : Bool :=
  if ':' ∈ full_tag then localPart full_tag = tag_name else full_tag = tag_name

/-- The search of `extract_tag_content`. A `<` that no blank or `>` follows ends it. -/
def tagContent? (tag_name : List Char) : List Char → Option (List Char)
  | [] => none
  | c :: rest =>
      if c = '<' then
        if rest.any fun c => c = ' ' ∨ c = '>' then
          if tagMatches (rest.takeWhile fun c => c ≠ ' ' ∧ c ≠ '>') tag_name then
            if '>' ∈ rest then
              (untilClosing ((rest.dropWhile (· ≠ '>')).drop 1)).map trimChars
            else none
          else tagContent? tag_name rest
        else none
      else tagContent? tag_name rest

def extractTagContent (xml tag_name : String) : Option String :=
  (tagContent? tag_name.toList xml.toList).map String.ofList

/-- `dian_response` -/
def dianResponse (resp_xml : String) (soap_trace_id : Option String) : DianResponse where
  status_code := (extractTagContent resp_xml "StatusCode").getD "unknown"
  message := (extractTagContent resp_xml "StatusMessage").getD "No status message provided"
  xml_response := some resp_xml
  soap_trace_id := soap_trace_id.or (extractTagContent resp_xml "XmlDocumentKey")

example : (dianResponse "<s:Body><b:StatusCode> 00 </b:StatusCode></s:Body>" none).status_code =
    "00" := by decide

/-- The answers a document gets from the DIAN carry a status code, `unknown` if there is none. -/
theorem dianResponse_status_code (resp_xml : String) (soap_trace_id : Option String) :
    (dianResponse resp_xml soap_trace_id).status_code = "unknown" ∨
      extractTagContent resp_xml "StatusCode" =
        some (dianResponse resp_xml soap_trace_id).status_code := by
  unfold dianResponse
  cases h : extractTagContent resp_xml "StatusCode" with
  | none => exact .inl rfl
  | some code => exact .inr rfl

end DianService
