import DianService.Domain.Text
import DianService.Lib.Xml.Tree

/-
  Crypto: the checks on a received signature (`verify.rs`) around the run of `xmlsec1`: the
  structure of the signature and the subject of its certificate. Both are passes of their own over
  the events of the document, with the namespaces resolved.
-/

namespace DianService

open Lib.Xml

def NS_DS : String := "http://www.w3.org/2000/09/xmldsig#"

def ALG_ENVELOPED : String := "http://www.w3.org/2000/09/xmldsig#enveloped-signature"

/-- Maximum size of a document to verify. -/
def MAX_DOCUMENT_BYTES : Nat := 10 * 1024 * 1024

inductive CryptoError where
  | c14n (message : String)
  | vault (message : String)
  | provider (message : String)
  | signing (message : String)
  | xml (message : String)
  deriving DecidableEq, Repr

/-- The `Display` text of the error. -/
def CryptoError.message : CryptoError → String
  | .c14n m => "Canonicalization failed: " ++ m
  | .vault m => "Vault error: " ++ m
  | .provider m => "Provider error: " ++ m
  | .signing m => "Signing failed: " ++ m
  | .xml m => "XML parsing/formatting error: " ++ m

abbrev Node := Event Tag Leaf

/-- A document as `NsReader` reports it. -/
abbrev Doc := Forest Tag Leaf

/-- The element `name` of XML-DSig. -/
def Lib.Xml.Tag.isDs (t : Tag) (name : String) : Bool := t.uri = some NS_DS && t.name.text = name

/-! ## Structure -/

/-- How `check_signature_structure` writes a tag in its path. -/
def Lib.Xml.Tag.label (t : Tag) : String :=
  if t.uri = some NS_DS then "ds:" ++ t.name.text else t.name.text

/-- `path` has the innermost element first. -/
structure StructureCheck where
  signatures : Nat
  path : List String
  whole_document_reference : Bool
  in_whole_reference : Bool
  enveloped : Bool

namespace StructureCheck

def init : StructureCheck := ⟨0, [], false, false, false⟩

/-- What a start tag and an empty-element tag have in common. -/
def opened (s : StructureCheck) (t : Tag) : StructureCheck :=
  let s := if t.isDs "Signature" then { s with signatures := s.signatures + 1 } else s
  let s :=
    if t.isDs "Reference" && s.path.head? = some "ds:SignedInfo" then
      { s with in_whole_reference := t.raw? "URI" = some "" }
    else s
  if t.isDs "Transform" && s.in_whole_reference && t.raw? "Algorithm" = some ALG_ENVELOPED then
    { s with enveloped := true }
  else s

def closed (s : StructureCheck) : StructureCheck :=
  let s :=
    if s.path.head? = some "ds:Reference" then
      { s with
        whole_document_reference :=
          s.whole_document_reference || (s.in_whole_reference && s.enveloped)
        in_whole_reference := false
        enveloped := false }
    else s
  { s with path := s.path.tail }

def step (s : StructureCheck) : Node → StructureCheck
  | .start t => { s.opened t with path := t.label :: s.path }
  | .empty t => s.opened t
  | .close _ => s.closed
  | .leaf _ => s

end StructureCheck

/-- What `read_resolved_event()?` makes of an error of the reader. -/
def invalidXml (e : String) : CryptoError := .xml ("Invalid XML: " ++ e)

def checkSignatureStructure (xml : EventStream Tag Leaf) : Except CryptoError Unit :=
  match xml.error with
  | some e => .error (invalidXml e)
  | none =>
      let s := xml.events.foldl StructureCheck.step .init
      if s.signatures = 0 then .error (.signing "The document is not signed")
      else if s.signatures = 1 then
        if s.whole_document_reference then .ok ()
        else .error (.signing ("The signature does not cover the whole document " ++
          "(URI=\"\" with enveloped transform)"))
      else .error (.signing ("The document contains " ++ toString s.signatures ++
        " signatures; exactly one is required"))

/-! ## Signer -/

/-- The distinguished names of a certificate, as text. -/
structure CertificateNames where
  subject : String
  issuer : String
  deriving DecidableEq

/-- The crates `base64` and `x509_cert`. -/
structure CertificateReader where
  decode : String → Except String (List UInt8)
  from_der : List UInt8 → Except String CertificateNames

structure KeyInfoScan where
  in_key_info : Bool
  in_certificate : Bool
  encoded : List String

namespace KeyInfoScan

def init : KeyInfoScan := ⟨false, false, []⟩

/-- `encoded.last_mut()` with more text. -/
def pushText (raw : String) : List String → List String
  | [] => []
  | [last] => [last ++ raw]
  | e :: encoded => e :: pushText raw encoded

def step (s : KeyInfoScan) : Node → KeyInfoScan
  | .start t =>
      if t.isDs "KeyInfo" then { s with in_key_info := true }
      else if s.in_key_info && t.isDs "X509Certificate" then
        { s with in_certificate := true, encoded := s.encoded ++ [""] }
      else s
  | .close t =>
      if t.isDs "KeyInfo" then { s with in_key_info := false }
      else if t.isDs "X509Certificate" then { s with in_certificate := false }
      else s
  | .leaf (.text raw) =>
      if s.in_certificate then { s with encoded := pushText raw s.encoded } else s
  | _ => s

end KeyInfoScan

/-- The certificates of the document, as Base64 text. -/
def encodedCertificates (events : List Node) : List String :=
  (events.foldl KeyInfoScan.step .init).encoded

/-- One certificate of `ds:KeyInfo`. -/
def CertificateReader.read (r : CertificateReader) (b64 : String) :
    Except CryptoError CertificateNames :=
  let compact := String.ofList (b64.toList.filter fun c => !isWhitespace c)
  match r.decode compact with
  | .error e => .error (.signing ("KeyInfo certificate is not valid Base64: " ++ e))
  | .ok der =>
      match r.from_der der with
      | .error e => .error (.signing ("KeyInfo certificate is not valid X.509: " ++ e))
      | .ok names => .ok names

/-- The subjects that issued no certificate of another subject. -/
def leaves (names : List CertificateNames) : List String :=
  (names.filter fun n => !names.any fun other =>
    other.issuer = n.subject && other.subject ≠ n.subject).map CertificateNames.subject

/-- The only end-entity certificate. -/
def onlyLeaf (names : List CertificateNames) : Except CryptoError String :=
  match leaves names with
  | [leaf] => .ok leaf
  | [] => .error (.signing "The signature does not include the signer certificate")
  | _ => .error (.signing "The signature includes more than one end-entity certificate")

def signerSubject (r : CertificateReader) (xml : EventStream Tag Leaf) : Except CryptoError String := do
  if let some e := xml.error then throw (invalidXml e)
  let names ← (encodedCertificates xml.events).mapM r.read
  onlyLeaf names

end DianService
