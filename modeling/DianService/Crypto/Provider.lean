import DianService.Crypto.Verify
import DianService.Domain.Models
import DianService.Lib.Prog
import DianService.Lib.Xml.Namespaces

/-
  Crypto: where certificates and keys come from (`provider.rs`, `vault.rs`). A provider is a
  program over Vault and its own cache for each of the two operations of `CertificateProvider`;
  between two of its calls anything may happen.
-/

namespace DianService

open Lib Lib.Xml

/-! ## Third parties -/

/-- What is read of a certificate. -/
structure X509 where
  issuer : String
  serial_number : List UInt8

/-- A private key in the encoding it was read in. -/
inductive RsaKeyPair where
  | from_der (der : List UInt8)
  | from_pkcs8 (der : List UInt8)
  deriving DecidableEq

/-- The crates `base64`, `sha2`, `x509_cert` and `ring`. -/
structure CryptoCrates where
  base64_encode : List UInt8 → String
  base64_decode : String → Except String (List UInt8)
  sha256 : List UInt8 → List UInt8
  x509_from_der : List UInt8 → Except String X509
  rsa_key : RsaKeyPair → Except String Unit
  rsa_sign : RsaKeyPair → List UInt8 → Except Unit (List UInt8)

/-! ## PEM -/

/-- The Base64 content of a PEM block. -/
def pemBody (pem : String) : String :=
  String.ofList ((((pem.toList.splitOn '\n').map trimChars).filter fun line =>
    !"-----".toList.isPrefixOf line).flatten)

section Pem

variable (crates : CryptoCrates)

def certificateFromPem (pem : String) : Except CryptoError String :=
  let body := pemBody pem
  match crates.base64_decode body with
  | .error e => .error (.provider ("Invalid certificate PEM: " ++ e))
  | .ok der =>
      match crates.x509_from_der der with
      | .error e => .error (.provider ("Invalid X.509 certificate: " ++ e))
      | .ok _ => .ok body

def parsePrivateKey (pem : String) : Except CryptoError RsaKeyPair :=
  match crates.base64_decode (pemBody pem) with
  | .error e => .error (.provider ("Invalid private key PEM: " ++ e))
  | .ok der =>
      let parsed := if occursIn "BEGIN RSA PRIVATE KEY".toList pem.toList
        then RsaKeyPair.from_der der else RsaKeyPair.from_pkcs8 der
      match crates.rsa_key parsed with
      | .error e => .error (.provider ("Unsupported RSA private key: " ++ e))
      | .ok _ => .ok parsed

def signInProcess (key : RsaKeyPair) (data : List UInt8) : Except CryptoError (List UInt8) :=
  (crates.rsa_sign key data).mapError fun _ => .signing "RSA signing failed"

end Pem

def secretField (secret : Value) (field : String) : Except CryptoError String :=
  match (secret.get? field).bind Value.asStr? with
  | some s => .ok s
  | none => .error (.provider ("Field '" ++ field ++ "' not found in Vault secret"))

/-! ## Vault -/

structure TransitIdentity where
  certificate : String
  transit_key : String
  deriving DecidableEq

/-- `kvRead` and `transitSign` are the HTTP requests, with everything that can go wrong up to the
    field that is read. `cached` answers with the age of the entry. -/
inductive VaultCall where
  | kvRead (path : String)
  | transitSign (key_name : String) (data : List UInt8)
  | cached (key_ref : String)
  | cache (key_ref : String) (identity : TransitIdentity)

abbrev VaultReply : VaultCall → Type
  | .kvRead _ => Except CryptoError Value
  | .transitSign .. => Except CryptoError String
  | .cached _ => Option (Int × TransitIdentity)
  | .cache .. => Unit

abbrev VaultService := ExceptT CryptoError (Prog VaultCall VaultReply)

def ofResult {α : Type} (r : Except CryptoError α) : VaultService α := ExceptT.mk (pure r)

def isPathChar (c : Char) : Bool := isAsciiAlphanumeric c || c = '-' || c = '_' || c = '.'

/-- `valid_path` -/
def validPath (path : String) : Bool :=
  path ≠ "" && (path.toList.splitOn '/').all fun segment =>
    segment ≠ [] && segment ≠ ['.'] && segment ≠ ['.', '.'] && segment.all isPathChar

def readSecret (path : String) : VaultService Value :=
  if validPath path then ExceptT.mk (Prog.request (VaultCall.kvRead path))
  else throw (CryptoError.vault ("Invalid Vault secret path '" ++ path ++ "'"))

/-- The Base64 part of `vault:v<version>:<signature>`. -/
def transitSignature? (signature : String) : Option String :=
  let cs := signature.toList
  if "vault:v".toList.isPrefixOf cs then
    let version := (cs.drop 7).takeWhile fun c => c ≠ ':'
    match (cs.drop 7).dropWhile fun c => c ≠ ':' with
    | [] => none
    | _ :: encoded =>
        if version ≠ [] ∧ version.all Char.isDigit = true then some (String.ofList encoded) else none
  else none

def transitSignPkcs1Sha256 (crates : CryptoCrates) (key_name : String) (data : List UInt8) :
    VaultService (List UInt8) :=
  if validPath key_name && '/' ∉ key_name.toList then do
    let signature ← ExceptT.mk (Prog.request (VaultCall.transitSign key_name data))
    match transitSignature? signature with
    | none => throw (CryptoError.vault "Unexpected Transit signature format")
    | some encoded =>
        ofResult ((crates.base64_decode encoded).mapError fun e =>
          .vault ("Transit signature is not valid Base64: " ++ e))
  else throw (CryptoError.vault ("Invalid Transit key name '" ++ key_name ++ "'"))

/-! ## Providers -/

/-- The operations of `CertificateProvider`. -/
inductive ProviderCall where
  | getCertificate (key_ref : String)
  | signRsaSha256 (key_ref : String) (data : List UInt8)

abbrev ProviderReply : ProviderCall → Type
  | .getCertificate _ => Except CryptoError String
  | .signRsaSha256 .. => Except CryptoError (List UInt8)

section Providers

variable (crates : CryptoCrates)

/-- `VaultKvKeyProvider` -/
def vaultKvKeyProvider : (c : ProviderCall) → Prog VaultCall VaultReply (ProviderReply c)
  | .getCertificate key_ref => ExceptT.run do
      let secret ← readSecret key_ref
      ofResult (secretField secret "certificate" >>= certificateFromPem crates)
  | .signRsaSha256 key_ref data => ExceptT.run do
      let secret ← readSecret key_ref
      let key ← ofResult (secretField secret "private_key" >>= parsePrivateKey crates)
      ofResult (signInProcess crates key data)

/-- How long the secret of a tenant is used again, in microseconds. -/
def IDENTITY_TTL : Int := 300 * 1000000

/-- What the KV secret of a tenant says. -/
def identityOf (secret : Value) : Except CryptoError TransitIdentity := do
  let certificate ← secretField secret "certificate" >>= certificateFromPem crates
  let transit_key ← secretField secret "transit_key"
  return ⟨certificate, transit_key⟩

def fetchIdentity (key_ref : String) : VaultService TransitIdentity := do
  let secret ← readSecret key_ref
  let identity ← ofResult (identityOf crates secret)
  ExceptT.lift (Prog.request (VaultCall.cache key_ref identity))
  return identity

/-- `VaultTransitProvider::identity` -/
def identity (key_ref : String) : VaultService TransitIdentity := do
  match ← ExceptT.lift (Prog.request (VaultCall.cached key_ref)) with
  | some (elapsed, identity) =>
      if elapsed < IDENTITY_TTL then return identity else fetchIdentity crates key_ref
  | none => fetchIdentity crates key_ref

def vaultTransitProvider : (c : ProviderCall) → Prog VaultCall VaultReply (ProviderReply c)
  | .getCertificate key_ref => ExceptT.run do
      let identity ← identity crates key_ref
      return identity.certificate
  | .signRsaSha256 key_ref data => ExceptT.run do
      let identity ← identity crates key_ref
      transitSignPkcs1Sha256 crates identity.transit_key data

end Providers

end DianService
