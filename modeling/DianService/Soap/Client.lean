import DianService.Soap.Response

/-
  Soap: the client of the DIAN (`client.rs`, `soap.rs`). Each operation is given the wire it runs
  on: what the signer answers for an envelope and what the network answers to a request. It
  returns its result together with the HTTP requests it made. The ZIP reader and Base64 are other
  crates.
-/

namespace DianService

/-! ## The envelope -/

def xmlEscapeChar (c : Char) : String :=
  match c with
  | '&' => "&amp;"
  | '<' => "&lt;"
  | '>' => "&gt;"
  | '"' => "&quot;"
  | '\'' => "&apos;"
  | _ => String.singleton c

def xmlEscape (value : String) : String := String.join (value.toList.map xmlEscapeChar)

def TO_ID : String := "id-To"

def WSSE_SECURITY_PLACEHOLDER : String := "<!-- WSSE_SECURITY -->"

def buildSoapEnvelope (action to_url body_content : String) : String :=
  "<soap:Envelope xmlns:soap=\"http://www.w3.org/2003/05/soap-envelope\" " ++
  "xmlns:wsa=\"http://www.w3.org/2005/08/addressing\" " ++
  "xmlns:wcf=\"http://wcf.dian.colombia\" xmlns:wsse=\"http://docs.oasis-open.org/wss/2004/01/" ++
  "oasis-200401-wss-wssecurity-secext-1.0.xsd\" xmlns:wsu=\"http://docs.oasis-open.org/wss/2004/01/" ++
  "oasis-200401-wss-wssecurity-utility-1.0.xsd\"><soap:Header>" ++
  "<wsse:Security soap:mustUnderstand=\"true\">" ++ WSSE_SECURITY_PLACEHOLDER ++
  "</wsse:Security><wsa:Action>" ++ xmlEscape action ++ "</wsa:Action><wsa:To wsu:Id=\"" ++ TO_ID ++
  "\">" ++ xmlEscape to_url ++ "</wsa:To></soap:Header><soap:Body>" ++ body_content ++
  "</soap:Body></soap:Envelope>"

/-! ## The wire -/

structure HttpRequest where
  url : String
  content_type : String
  body : String

/-- `status_text` is how the status is displayed; the text of the answer may fail to arrive. -/
structure HttpResponse where
  status : Nat
  status_text : String
  text : Except String String

structure Wire where
  sign_soap_for_tenant : Uuid → String → Except DomainError String
  post : HttpRequest → Except String HttpResponse

/-- The `zip` and `base64` crates. -/
structure ZipReader where
  /-- The number of entries. -/
  read : List UInt8 → Except String Nat
  /-- The first entry, and its name. -/
  by_index_zero : List UInt8 → Except String (Except String String)
  base64 : List UInt8 → String

structure SoapClient where
  zip_reader : ZipReader
  hab_url : String
  prod_url : String

/-! ## Errors -/

inductive SoapError where
  | zip (message : String)
  | http (message : String)
  | fault (code message : String)
  | dian (message : String)

def SoapError.toDomain : SoapError → DomainError
  | .zip m => .internal ("Zip: " ++ m)
  | .http e => .soap ("Http network failure: " ++ e)
  | .fault code message => .soap ("Soap fault [" ++ code ++ "]: " ++ message)
  | .dian m => .soap ("Dian error: " ++ m)

/-! ## Operations -/

/-- A result, and the HTTP requests made for it. -/
abbrev Sent (α : Type) := Except DomainError α × List HttpRequest

def Sent.map {α β : Type} (f : α → Except DomainError β) (r : Sent α) : Sent β :=
  (r.1.bind f, r.2)

def ACTION_PREFIX : String := "http://wcf.dian.colombia/IWcfDianCustomerServices/"

/-- What an HTTP answer means. -/
def readResponse : Except String HttpResponse → Except DomainError String
  | .error e => .error (SoapError.http e).toDomain
  | .ok response =>
      match response.text with
      | .error e => .error (SoapError.http e).toDomain
      | .ok resp_xml =>
          if 200 ≤ response.status ∧ response.status < 300 then .ok resp_xml
          else
            match extractTagContent resp_xml "Text" with
            | some fault_reason =>
                .error (SoapError.fault ((extractTagContent resp_xml "Value").getD "SoapFault")
                  fault_reason).toDomain
            | none => .error (SoapError.dian ("HTTP error " ++ response.status_text)).toDomain

/-- A request whose body is ready to go into an envelope. -/
structure Outgoing where
  tenant_id : Uuid
  operation : String
  is_hab : Bool
  body_content : String

namespace SoapClient

variable (client : SoapClient) (wire : Wire)

def getUrl (is_hab : Bool) : String := if is_hab then client.hab_url else client.prod_url

def extractZipFilename (zip_bytes : List UInt8) : Except SoapError String :=
  match client.zip_reader.read zip_bytes with
  | .error e => .error (.zip ("Failed to read ZIP in memory: " ++ e))
  | .ok entries =>
      if entries = 0 then .error (.zip "ZIP archive is empty")
      else
        match client.zip_reader.by_index_zero zip_bytes with
        | .error e => .error (.zip ("Failed to get ZIP file element: " ++ e))
        | .ok (.error e) => .error (.zip ("Invalid ZIP entry name: " ++ e))
        | .ok (.ok xml_name) => .ok (xml_name.replace ".xml" ".zip")

def envelope (out : Outgoing) : String :=
  buildSoapEnvelope (ACTION_PREFIX ++ out.operation) (client.getUrl out.is_hab) out.body_content

/-- `call` -/
def call (out : Outgoing) : Sent String :=
  match wire.sign_soap_for_tenant out.tenant_id (client.envelope out) with
  | .error e => (.error e, [])
  | .ok signed_envelope =>
      let request : HttpRequest :=
        ⟨client.getUrl out.is_hab,
          "application/soap+xml;charset=utf-8;action=\"" ++ ACTION_PREFIX ++ out.operation ++ "\"",
          signed_envelope⟩
      (readResponse (wire.post request), [request])

/-- The body of an operation that sends a ZIP. -/
def zipRequest (tenant_id : Uuid) (op : String) (zip : List UInt8) (is_hab : Bool)
    (extra : String) : Except SoapError Outgoing :=
  (client.extractZipFilename zip).map fun zip_filename =>
    ⟨tenant_id, op, is_hab,
      "<wcf:" ++ op ++ "><wcf:fileName>" ++ xmlEscape zip_filename ++
        "</wcf:fileName><wcf:contentData>" ++ client.zip_reader.base64 zip ++
        "</wcf:contentData>" ++ extra ++ "</wcf:" ++ op ++ ">"⟩

/-- `send_zip` -/
def sendZip (tenant_id : Uuid) (op : String) (zip : List UInt8) (is_hab : Bool)
    (extra : String) : Sent String :=
  match client.zipRequest tenant_id op zip is_hab extra with
  | .error e => (.error e.toDomain, [])
  | .ok out => client.call wire out

def zipKey (resp_xml : String) : Except DomainError String :=
  match extractTagContent resp_xml "ZipKey" with
  | some key => .ok key
  | none => .error (SoapError.dian "Response did not contain ZipKey/TrackId").toDomain

def testSetElement (test_set_id : String) : String :=
  "<wcf:testSetId>" ++ xmlEscape test_set_id ++ "</wcf:testSetId>"

def trackRequest (tenant_id : Uuid) (op track_id : String) (is_hab : Bool) : Outgoing :=
  ⟨tenant_id, op, is_hab, "<wcf:" ++ op ++ "><wcf:trackId>" ++ xmlEscape track_id ++
    "</wcf:trackId></wcf:" ++ op ++ ">"⟩

def sendBillSync (tenant_id : Uuid) (zip : List UInt8) (is_hab : Bool) : Sent DianResponse :=
  (client.sendZip wire tenant_id "SendBillSync" zip is_hab "").map fun resp_xml =>
    .ok (dianResponse resp_xml none)

def sendTestSetAsync (tenant_id : Uuid) (zip : List UInt8) (test_set_id : String)
    (is_hab : Bool) : Sent String :=
  (client.sendZip wire tenant_id "SendTestSetAsync" zip is_hab
    (testSetElement test_set_id)).map zipKey

def getStatus (tenant_id : Uuid) (track_id : String) (is_hab : Bool) : Sent DianResponse :=
  (client.call wire (trackRequest tenant_id "GetStatus" track_id is_hab)).map fun resp_xml =>
    .ok (dianResponse resp_xml (some track_id))

def getStatusZip (tenant_id : Uuid) (track_id : String) (is_hab : Bool) : Sent DianResponse :=
  (client.call wire (trackRequest tenant_id "GetStatusZip" track_id is_hab)).map fun resp_xml =>
    .ok (dianResponse resp_xml (some track_id))

/-! ### What goes out -/

/-- The signer has a header for the envelope. -/
def signs (out : Outgoing) : Bool :=
  (wire.sign_soap_for_tenant out.tenant_id (client.envelope out)).isOk

/-- A request goes out once its envelope is signed, and only then. -/
theorem call_requests (out : Outgoing) :
    (client.call wire out).2 ≠ [] ↔ client.signs wire out = true := by
  unfold call signs
  cases wire.sign_soap_for_tenant out.tenant_id (client.envelope out) with
  | error e => simp [Except.isOk, Except.toBool]
  | ok signed => simp [Except.isOk, Except.toBool]

/-- An answer comes from a request. -/
theorem call_ok {out : Outgoing} {resp_xml : String} (h : (client.call wire out).1 = .ok resp_xml) :
    (client.call wire out).2 ≠ [] := by
  rw [call_requests]
  unfold call at h
  unfold signs
  cases hsign : wire.sign_soap_for_tenant out.tenant_id (client.envelope out) with
  | error e =>
      rw [hsign] at h
      cases h
  | ok signed => rfl

theorem sendZip_requests (tenant_id : Uuid) (op : String) (zip : List UInt8) (is_hab : Bool)
    (extra : String) : (client.sendZip wire tenant_id op zip is_hab extra).2 ≠ [] ↔
      ∃ out, client.zipRequest tenant_id op zip is_hab extra = .ok out ∧
        client.signs wire out = true := by
  unfold sendZip
  cases client.zipRequest tenant_id op zip is_hab extra with
  | error e => simp
  | ok out => simp [call_requests]

theorem sendZip_ok {tenant_id : Uuid} {op : String} {zip : List UInt8} {is_hab : Bool}
    {extra resp_xml : String}
    (h : (client.sendZip wire tenant_id op zip is_hab extra).1 = .ok resp_xml) :
    (client.sendZip wire tenant_id op zip is_hab extra).2 ≠ [] := by
  unfold sendZip at h ⊢
  cases hzip : client.zipRequest tenant_id op zip is_hab extra with
  | error e =>
      rw [hzip] at h
      cases h
  | ok out =>
      rw [hzip] at h
      exact client.call_ok wire h

end SoapClient

theorem Sent.map_ok {α β : Type} {f : α → Except DomainError β} {r : Sent α} {b : β}
    (h : (r.map f).1 = .ok b) : ∃ a, r.1 = .ok a := by
  cases hr : r.1 with
  | error e =>
      rw [Sent.map, hr] at h
      cases h
  | ok a => exact ⟨a, rfl⟩

end DianService
