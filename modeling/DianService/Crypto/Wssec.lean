import DianService.Crypto.Xades
import DianService.Soap.Client

/-
  Crypto: the WS-Security header of a SOAP envelope (`wssec.rs`). The timestamp and every element
  with a prefixed `Id` are signed, over the envelope without the token and the signature.
-/

namespace DianService

open Lib Lib.Xml

def ALG_EXC_C14N : String := "http://www.w3.org/2001/10/xml-exc-c14n#"

def NS_WSSE : String :=
  "http://docs.oasis-open.org/wss/2004/01/oasis-200401-wss-wssecurity-secext-1.0.xsd"

def NS_WSU : String :=
  "http://docs.oasis-open.org/wss/2004/01/oasis-200401-wss-wssecurity-utility-1.0.xsd"

def X509_TOKEN_TYPE : String :=
  "http://docs.oasis-open.org/wss/2004/01/oasis-200401-wss-x509-token-profile-1.0#X509v3"

def BASE64_ENCODING : String :=
  "http://docs.oasis-open.org/wss/2004/01/oasis-200401-wss-soap-message-security-1.0#Base64Binary"

/-- Five minutes. -/
def TIMESTAMP_TTL : Int := 5 * 60 * 1000000

def SIGNATURE_MARK : String := "<!-- WSSE_SIGNATURE -->"

/-- `to_rfc3339_opts(Millis, true)` -/
def rfc3339Millis (t : Time) : String :=
  dateNaive t ++ "T" ++ timeOfDay t ++ "." ++ padLeft 3 (toString (t % 1000000 / 1000)) ++ "Z"

/-- The form of a `Uuid` without hyphens. -/
def uuidSimple (id : Uuid) : String := String.ofList ((uuidText id).toList.filter fun c => c ≠ '-')

/-- The envelope declares the prefix as expected. -/
def declares (scope : Bindings) (d : String × String) : Bool :=
  scope.lookup d.1.toList = some d.2.toList

def checkDeclarations (scope : Bindings) : Except CryptoError Unit :=
  match [("wsse", NS_WSSE), ("wsu", NS_WSU)].find? fun d => !declares scope d with
  | none => .ok ()
  | some d => .error (.xml ("The SOAP envelope must declare xmlns:" ++ d.1 ++ "=\"" ++ d.2 ++ "\""))

def wsseTimestamp (suffix : String) (now : Time) : String :=
  concat ["<wsu:Timestamp wsu:Id=\"TS-", suffix, "\"><wsu:Created>", rfc3339Millis now,
    "</wsu:Created><wsu:Expires>", rfc3339Millis (now + TIMESTAMP_TTL),
    "</wsu:Expires></wsu:Timestamp>"]

def wsseToken (suffix certificate : String) : String :=
  concat ["<wsse:BinarySecurityToken EncodingType=\"", BASE64_ENCODING, "\" ValueType=\"",
    X509_TOKEN_TYPE, "\" wsu:Id=\"X509-", suffix, "\">", certificate,
    "</wsse:BinarySecurityToken>"]

def wsseReference (id digest : String) : String :=
  concat ["<ds:Reference URI=\"#", id, "\"><ds:Transforms><ds:Transform Algorithm=\"",
    ALG_EXC_C14N, "\"/></ds:Transforms><ds:DigestMethod Algorithm=\"", ALG_SHA256,
    "\"/><ds:DigestValue>", digest, "</ds:DigestValue></ds:Reference>"]

def wsseSignedInfo (references : String) : String :=
  concat ["<ds:SignedInfo><ds:CanonicalizationMethod Algorithm=\"", ALG_EXC_C14N,
    "\"/><ds:SignatureMethod Algorithm=\"", ALG_RSA_SHA256, "\"/>", references, "</ds:SignedInfo>"]

def wsseSignature (suffix signed_info value : String) : String :=
  concat ["<ds:Signature xmlns:ds=\"", NS_DS, "\" Id=\"SIG-", suffix, "\">", signed_info,
    "<ds:SignatureValue>", value, "</ds:SignatureValue><ds:KeyInfo Id=\"KI-", suffix, "\">",
    "<wsse:SecurityTokenReference wsu:Id=\"STR-", suffix, "\"><wsse:Reference URI=\"#X509-",
    suffix, "\" ValueType=\"", X509_TOKEN_TYPE, "\"/>",
    "</wsse:SecurityTokenReference></ds:KeyInfo></ds:Signature>"]
section Wssec

variable (crates : CryptoCrates) (q : QuickXml) (buffer_positions : String → List Nat)

/-- The reference to one element of the envelope with its timestamp. -/
def elementReference (with_timestamp : Text) (e : String × Nat × Nat) :
    Except CryptoError String := do
  let scope ← XmlUtil.namespacesInScopeBefore q (with_timestamp.take e.2.1)
  let element := XmlUtil.withNamespaces ((with_timestamp.take e.2.2).drop e.2.1) scope
  let c14n ← C14n.canonicalizeXmlExclusive q (String.ofList element) []
  return wsseReference e.1 (sha256B64 crates c14n)

/-- The `ds:SignedInfo` and the octets to sign. -/
def wsseDraft (envelope timestamp : String) (scope : Bindings) :
    Except CryptoError (String × List UInt8) := do
  let with_timestamp := XmlUtil.replaceAll envelope WSSE_SECURITY_PLACEHOLDER timestamp
  let elements ← XmlUtil.elementsWithPrefixedId q buffer_positions with_timestamp
  let references ← elements.mapM (elementReference crates q with_timestamp.toList)
  let signed_info := wsseSignedInfo (String.join references)
  let signature_scope := ("ds".toList, NS_DS.toList) :: scope
  let signed_info_c14n ← C14n.canonicalizeXmlExclusive q
    (String.ofList (XmlUtil.withNamespaces signed_info.toList signature_scope)) []
  return (signed_info, bytesOf signed_info_c14n)

/-- `sign_soap_envelope` -/
def signSoapEnvelope (envelope key_ref : String) (uuid : Uuid) (now : Time) :
    SigningService String := do
  if XmlUtil.countMatches WSSE_SECURITY_PLACEHOLDER.toList envelope.toList ≠ 1 then
    throw (CryptoError.xml "The SOAP envelope must contain exactly one WS-Security placeholder")
  let scope ← pureResult (XmlUtil.namespacesInScopeAt q envelope WSSE_SECURITY_PLACEHOLDER)
  pureResult (checkDeclarations scope)
  let certificate ← getCertificate key_ref
  let suffix := uuidSimple uuid
  let timestamp := wsseTimestamp suffix now
  let (signed_info, octets) ← pureResult (wsseDraft crates q buffer_positions envelope timestamp scope)
  let signature_value ← signRsaSha256 key_ref octets
  let signature := wsseSignature suffix signed_info (crates.base64_encode signature_value)
  let header := timestamp ++ wsseToken suffix certificate ++ SIGNATURE_MARK
  return XmlUtil.replaceAll (XmlUtil.replaceAll envelope WSSE_SECURITY_PLACEHOLDER header)
    SIGNATURE_MARK signature

end Wssec

end DianService
