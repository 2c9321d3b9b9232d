import DianService.Crypto.Provider
import DianService.Crypto.XmlUtil
import DianService.Application.Processing
import Mathlib.Data.Nat.Digits.Defs

/-
  Crypto: the XAdES signature of a document (`xades.rs`). The certificate and the signature value
  are two calls of the provider; the rest is text. The `Uuid` and the time that the code draws are
  arguments.
-/

namespace DianService

open Lib Lib.Xml

def SIGNATURE_PLACEHOLDER : String := "<!-- PLACEHOLDER_FOR_SIGNATURE -->"

def NS_XADES : String := "http://uri.etsi.org/01903/v1.3.2#"

def ALG_C14N : String := "http://www.w3.org/TR/2001/REC-xml-c14n-20010315"

def ALG_RSA_SHA256 : String := "http://www.w3.org/2001/04/xmldsig-more#rsa-sha256"

def ALG_SHA256 : String := "http://www.w3.org/2001/04/xmlenc#sha256"

def SIGNED_PROPERTIES_TYPE : String := "http://uri.etsi.org/01903#SignedProperties"

def POLICY_URL : String :=
  "https://facturaelectronica.dian.gov.co/politicadefirma/v2/politicadefirmav2.pdf"

def POLICY_DIGEST_SHA256 : String := "dMoMvtcG5aIzgYo0tIsSQeVJBDnUnfSOfBpxXrmor0Y="

def POLICY_DESCRIPTION : String :=
  "Política de firma para facturas electrónicas de la República de Colombia"

abbrev SigningService := ExceptT CryptoError (Prog ProviderCall ProviderReply)

def getCertificate (key_ref : String) : SigningService String :=
  ExceptT.mk (Prog.request (ProviderCall.getCertificate key_ref))

def signRsaSha256 (key_ref : String) (data : List UInt8) : SigningService (List UInt8) :=
  ExceptT.mk (Prog.request (ProviderCall.signRsaSha256 key_ref data))

/-- A computation without calls (`?`). -/
def pureResult {α : Type} (r : Except CryptoError α) : SigningService α := ExceptT.mk (pure r)

def bytesOf (s : String) : List UInt8 := s.toUTF8.data.toList

/-! ## The certificate -/

structure CertificateInfo where
  der_base64 : String
  digest_sha256 : String
  issuer_name : String
  serial_number : String

/-- One byte more into decimal digits, the least significant first. -/
def carryInto : List Nat → Nat → List Nat
  | [], carry => Nat.digits 10 carry
  | digit :: digits, carry =>
      (digit * 256 + carry) % 10 :: carryInto digits ((digit * 256 + carry) / 10)

def decimalFromBeBytes (bytes : List UInt8) : String :=
  String.ofList (((bytes.foldl (fun digits byte => carryInto digits byte.toNat) [0]).reverse).map
    fun d => Char.ofNat (48 + d))

example : decimalFromBeBytes [1, 0] = "256" := by decide +kernel

section Xades

variable (crates : CryptoCrates) (q : QuickXml)

def CertificateInfo.fromBase64Der (der_base64 : String) : Except CryptoError CertificateInfo :=
  match crates.base64_decode der_base64 with
  | .error e => .error (.signing ("Certificate is not valid Base64: " ++ e))
  | .ok der =>
      match crates.x509_from_der der with
      | .error e => .error (.signing ("Certificate is not valid X.509 DER: " ++ e))
      | .ok certificate =>
          .ok ⟨der_base64, crates.base64_encode (crates.sha256 der), certificate.issuer,
            decimalFromBeBytes certificate.serial_number⟩

def sha256B64 (data : String) : String := crates.base64_encode (crates.sha256 (bytesOf data))

/-- `%Y-%m-%dT%H:%M:%S%.3f%:z` in Colombia. -/
def signingTime (now : Time) : String :=
  let local_time := now - 5 * 3600 * 1000000
  dateNaive local_time ++ "T" ++ timeOfDay local_time ++ "." ++
    padLeft 3 (toString (local_time % 1000000 / 1000)) ++ "-05:00"

/-! ## The parts of the signature -/

def xadesKeyInfo (id : String) (certificate : CertificateInfo) : String :=
  concat ["<ds:KeyInfo Id=\"", id, "-keyinfo\"><ds:X509Data><ds:X509Certificate>",
    certificate.der_base64, "</ds:X509Certificate></ds:X509Data></ds:KeyInfo>"]

def xadesSignedProperties (id time : String) (certificate : CertificateInfo) : String :=
  concat ["<xades:SignedProperties Id=\"", id, "-signedprops\"><xades:SignedSignatureProperties>",
    "<xades:SigningTime>", time, "</xades:SigningTime>",
    "<xades:SigningCertificate><xades:Cert><xades:CertDigest>", "<ds:DigestMethod Algorithm=\"",
    ALG_SHA256, "\"/><ds:DigestValue>", certificate.digest_sha256, "</ds:DigestValue>",
    "</xades:CertDigest><xades:IssuerSerial><ds:X509IssuerName>",
    String.ofList (XmlUtil.escapeText certificate.issuer_name.toList), "</ds:X509IssuerName>",
    "<ds:X509SerialNumber>", certificate.serial_number,
    "</ds:X509SerialNumber></xades:IssuerSerial></xades:Cert>",
    "</xades:SigningCertificate><xades:SignaturePolicyIdentifier><xades:SignaturePolicyId>",
    "<xades:SigPolicyId><xades:Identifier>", POLICY_URL, "</xades:Identifier>",
    "<xades:Description>", POLICY_DESCRIPTION, "</xades:Description></xades:SigPolicyId>",
    "<xades:SigPolicyHash><ds:DigestMethod Algorithm=\"", ALG_SHA256, "\"/>", "<ds:DigestValue>",
    POLICY_DIGEST_SHA256, "</ds:DigestValue></xades:SigPolicyHash>",
    "</xades:SignaturePolicyId></xades:SignaturePolicyIdentifier>",
    "<xades:SignerRole><xades:ClaimedRoles><xades:ClaimedRole>supplier</xades:ClaimedRole>",
    "</xades:ClaimedRoles></xades:SignerRole></xades:SignedSignatureProperties>",
    "</xades:SignedProperties>"]

def xadesSignedInfo (id document_digest key_info_digest properties_digest : String) : String :=
  concat ["<ds:SignedInfo><ds:CanonicalizationMethod Algorithm=\"", ALG_C14N, "\"/>",
    "<ds:SignatureMethod Algorithm=\"", ALG_RSA_SHA256, "\"/>", "<ds:Reference Id=\"", id,
    "-ref0\" URI=\"\"><ds:Transforms><ds:Transform Algorithm=\"", ALG_ENVELOPED,
    "\"/></ds:Transforms>", "<ds:DigestMethod Algorithm=\"", ALG_SHA256, "\"/><ds:DigestValue>",
    document_digest, "</ds:DigestValue></ds:Reference>", "<ds:Reference URI=\"#", id,
    "-keyinfo\"><ds:DigestMethod Algorithm=\"", ALG_SHA256, "\"/><ds:DigestValue>",
    key_info_digest, "</ds:DigestValue></ds:Reference>", "<ds:Reference Type=\"",
    SIGNED_PROPERTIES_TYPE, "\" URI=\"#", id, "-signedprops\"><ds:DigestMethod Algorithm=\"",
    ALG_SHA256, "\"/>", "<ds:DigestValue>", properties_digest,
    "</ds:DigestValue></ds:Reference></ds:SignedInfo>"]

def xadesSignature (id signed_info value key_info signed_properties : String) : String :=
  concat ["<ds:Signature xmlns:ds=\"", NS_DS, "\" Id=\"", id, "\">", signed_info,
    "<ds:SignatureValue Id=\"", id, "-sigvalue\">", value, "</ds:SignatureValue>", key_info,
    "<ds:Object><xades:QualifyingProperties xmlns:xades=\"", NS_XADES, "\" Target=\"#", id, "\">",
    signed_properties, "</xades:QualifyingProperties></ds:Object></ds:Signature>"]

/-- The canonical form of a fragment in its context. -/
def canonicalIn (scope : Bindings) (fragment : String) : Except CryptoError String :=
  C14n.canonicalizeXml q (String.ofList (XmlUtil.withNamespaces fragment.toList scope))

/-- The parts of a signature before its value is known, and the octets to sign. -/
structure XadesDraft where
  key_info : String
  signed_properties : String
  signed_info : String
  octets : List UInt8

def xadesDraft (xml_content id : String) (now : Time) (certificate : CertificateInfo) :
    Except CryptoError XadesDraft := do
  let scope ← XmlUtil.namespacesInScopeAt q xml_content SIGNATURE_PLACEHOLDER
  let signature_scope := ("ds".toList, NS_DS.toList) :: scope
  let properties_scope := ("xades".toList, NS_XADES.toList) :: signature_scope
  let key_info := xadesKeyInfo id certificate
  let signed_properties := xadesSignedProperties id (signingTime now) certificate
  let document_c14n ←
    C14n.canonicalizeXml q (XmlUtil.replaceAll xml_content SIGNATURE_PLACEHOLDER "")
  let key_info_c14n ← canonicalIn q signature_scope key_info
  let properties_c14n ← canonicalIn q properties_scope signed_properties
  let signed_info := xadesSignedInfo id (sha256B64 crates document_c14n)
    (sha256B64 crates key_info_c14n) (sha256B64 crates properties_c14n)
  let signed_info_c14n ← canonicalIn q signature_scope signed_info
  return ⟨key_info, signed_properties, signed_info, bytesOf signed_info_c14n⟩

/-- `XadesSigner::sign` -/
def xadesSign (xml_content key_ref : String) (uuid : Uuid) (now : Time) :
    SigningService String := do
  if XmlUtil.countMatches SIGNATURE_PLACEHOLDER.toList xml_content.toList ≠ 1 then
    throw (CryptoError.xml "The document must contain exactly one signature placeholder")
  let der_base64 ← getCertificate key_ref
  let certificate ← pureResult (CertificateInfo.fromBase64Der crates der_base64)
  let id := "xmldsig-" ++ uuidText uuid
  let draft ← pureResult (xadesDraft crates q xml_content id now certificate)
  let signature_value ← signRsaSha256 key_ref draft.octets
  return XmlUtil.replaceAll xml_content SIGNATURE_PLACEHOLDER
    (xadesSignature id draft.signed_info (crates.base64_encode signature_value) draft.key_info
      draft.signed_properties)

end Xades

end DianService
