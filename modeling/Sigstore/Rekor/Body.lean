import Sigstore.Crypto.Verification
import Sigstore.Types.Encoding

/-!
# Rekor entry bodies

The typed bodies of log entries in `sigstore-rekor` (`body.rs`), their deserialization, and
`RekorEntryBody::from_base64_json`, which chooses the type by the kind and version it is given.
-/

namespace Sigstore.Rekor

open Checks Types

/-- Errors of Rekor operations. -/
inductive Error where
  | invalidResponse (msg : String)
  deriving DecidableEq, Repr

/-- The text of an error. -/
def Error.display : Error → String
  | invalidResponse msg => s!"Invalid response: {msg}"

/-- `hashedrekord` 0.0.1: the hash in hexadecimal, the signature, and its verifier in PEM. -/
structure HashedRekordV001Body where
  algorithm : HashAlgorithm
  hashValue : String
  signatureContent : Bytes
  publicKeyContent : Bytes
  deriving DecidableEq

/-- `hashedrekord` 0.0.2: the digest, the signature, and its verifier, a certificate or a key in
DER. -/
structure HashedRekordV002Body where
  digest : Bytes
  signatureContent : Bytes
  x509Certificate : Option Bytes
  publicKey : Option Bytes
  deriving DecidableEq

/-- A signature of a `dsse` 0.0.1 entry with its verifier in PEM. -/
structure DsseV001Signature where
  signature : Bytes
  verifier : Bytes
  deriving DecidableEq

/-- `dsse` 0.0.1: the hashes of envelope and payload, and the signatures. -/
structure DsseV001Body where
  envelopeHashAlgorithm : HashAlgorithm
  envelopeHashValue : String
  payloadHashAlgorithm : HashAlgorithm
  payloadHashValue : String
  signatures : List DsseV001Signature
  deriving DecidableEq

/-- A signature of a `dsse` 0.0.2 entry with its verifier's certificate in DER. -/
structure DsseV002Signature where
  content : Bytes
  keyDetails : String
  x509Certificate : Bytes
  deriving DecidableEq

/-- `dsse` 0.0.2. -/
structure DsseV002Body where
  payloadHashAlgorithm : HashAlgorithm
  payloadHashDigest : Bytes
  signatures : List DsseV002Signature
  deriving DecidableEq

/-- A signature of an `intoto` 0.0.2 entry, itself in base64; its `publicKey` is not read. -/
structure IntotoSignature where
  sig : Bytes
  deriving DecidableEq

/-- `intoto` 0.0.2: the payload, itself in base64, and the signatures. -/
structure IntotoV002Body where
  payload : Bytes
  signatures : List IntotoSignature
  deriving DecidableEq

/-- Parsed Rekor entry body. -/
inductive RekorEntryBody where
  | hashedRekordV001 (body : HashedRekordV001Body)
  | hashedRekordV002 (body : HashedRekordV002Body)
  | dsseV001 (body : DsseV001Body)
  | dsseV002 (body : DsseV002Body)
  | intotoV002 (body : IntotoV002Body)
  deriving DecidableEq

/-! ## Deserialization -/

section
variable (C : Codec)

/-- A struct with one field. -/
def deOnly {α : Type} (name : String) (de : Json.De α) : Json.De α :=
  Json.deRecord [name] fun m => Json.field m name de

/-- The bytes of a struct with the field `rawBytes`. -/
def deRawBytes : Json.De Bytes := deOnly "rawBytes" C.deBase64

/-- A hash with its algorithm. -/
def deHash {α : Type} (valueName : String) (de : Json.De α) : Json.De (HashAlgorithm × α) :=
  Json.deRecord ["algorithm", valueName] fun m => do
    let algorithm ← Json.field m "algorithm" deHashAlgorithm
    let value ← Json.field m valueName de
    return (algorithm, value)

def deHashedRekordV001Signature : Json.De (Bytes × Bytes) :=
  Json.deRecord ["content", "publicKey"] fun m => do
    let content ← Json.field m "content" C.deBase64
    let publicKey ← Json.field m "publicKey" (deOnly "content" C.deBase64)
    return (content, publicKey)

def HashedRekordV001Body.de : Json.De HashedRekordV001Body :=
  deOnly "spec" <| Json.deRecord ["data", "signature"] fun m => do
    let (algorithm, value) ←
      Json.field m "data" (deOnly "hash" (deHash "value" Json.deString))
    let (content, publicKey) ← Json.field m "signature" (deHashedRekordV001Signature C)
    return {
      algorithm := algorithm
      hashValue := value
      signatureContent := content
      publicKeyContent := publicKey }

def deHashedRekordV002Verifier : Json.De (Option Bytes × Option Bytes) :=
  Json.deRecord ["x509Certificate", "publicKey"] fun m => do
    let certificate ← Json.fieldOr m "x509Certificate" none (Json.deOption (deRawBytes C))
    let publicKey ← Json.fieldOr m "publicKey" none (Json.deOption (deRawBytes C))
    return (certificate, publicKey)

def deHashedRekordV002Signature : Json.De (Bytes × Option Bytes × Option Bytes) :=
  Json.deRecord ["content", "verifier"] fun m => do
    let content ← Json.field m "content" C.deBase64
    let verifier ← Json.field m "verifier" (deHashedRekordV002Verifier C)
    return (content, verifier)

def HashedRekordV002Body.de : Json.De HashedRekordV002Body :=
  deOnly "spec" <| deOnly "hashedRekordV002" <| Json.deRecord ["data", "signature"] fun m => do
    let digest ← Json.field m "data" (deOnly "digest" C.deBase64Bytes)
    let (content, certificate, publicKey) ← Json.field m "signature" (deHashedRekordV002Signature C)
    return {
      digest := digest
      signatureContent := content
      x509Certificate := certificate
      publicKey := publicKey }

def DsseV001Signature.de : Json.De DsseV001Signature :=
  Json.deRecord ["signature", "verifier"] fun m => do
    return {
      signature := ← Json.field m "signature" C.deBase64
      verifier := ← Json.field m "verifier" C.deBase64 }

def DsseV001Body.de : Json.De DsseV001Body :=
  deOnly "spec" <| Json.deRecord ["envelopeHash", "payloadHash", "signatures"] fun m => do
    let envelopeHash ← Json.field m "envelopeHash" (deHash "value" Json.deString)
    let payloadHash ← Json.field m "payloadHash" (deHash "value" Json.deString)
    let signatures ← Json.field m "signatures" (Json.deVec (DsseV001Signature.de C))
    return {
      envelopeHashAlgorithm := envelopeHash.1
      envelopeHashValue := envelopeHash.2
      payloadHashAlgorithm := payloadHash.1
      payloadHashValue := payloadHash.2
      signatures := signatures }

def deDsseV002Verifier : Json.De (String × Bytes) :=
  Json.deRecord ["keyDetails", "x509Certificate"] fun m => do
    let keyDetails ← Json.field m "keyDetails" Json.deString
    let certificate ← Json.field m "x509Certificate" (deRawBytes C)
    return (keyDetails, certificate)

def DsseV002Signature.de : Json.De DsseV002Signature :=
  Json.deRecord ["content", "verifier"] fun m => do
    let content ← Json.field m "content" C.deBase64
    let verifier ← Json.field m "verifier" (deDsseV002Verifier C)
    return { content := content, keyDetails := verifier.1, x509Certificate := verifier.2 }

def DsseV002Body.de : Json.De DsseV002Body :=
  deOnly "spec" <| deOnly "dsseV002" <| Json.deRecord ["payloadHash", "signatures"] fun m => do
    let payloadHash ← Json.field m "payloadHash" (deHash "digest" C.deBase64Bytes)
    let signatures ← Json.field m "signatures" (Json.deVec (DsseV002Signature.de C))
    return {
      payloadHashAlgorithm := payloadHash.1
      payloadHashDigest := payloadHash.2
      signatures := signatures }

def IntotoSignature.de : Json.De IntotoSignature := fun v => do
  let sig ← deOnly "sig" C.deBase64 v
  return { sig := sig }

def IntotoV002Body.de : Json.De IntotoV002Body :=
  deOnly "spec" <| deOnly "content" <| deOnly "envelope" <|
    Json.deRecord ["payload", "signatures"] fun m => do
      return {
        payload := ← Json.field m "payload" C.deBase64
        signatures := ← Json.field m "signatures" (Json.deVec (IntotoSignature.de C)) }

/-! ## Parsing -/

/-- Parse a body as one of the types. -/
def parseBody {α : Type} (what : String) (de : Json.De α) (wrap : α → RekorEntryBody)
    (text : String) : Except Error RekorEntryBody :=
  match C.fromJson de text with
  | .ok body => .ok (wrap body)
  | .error e => .error (.invalidResponse s!"failed to parse {what} body: {e}")

/-- Parse a Rekor entry body from its JSON text, by kind and version. -/
def fromJsonText (kind version bodyStr : String) : Except Error RekorEntryBody :=
  match kind, version with
  | "hashedrekord", "0.0.1" =>
    parseBody C "hashedrekord v0.0.1" (HashedRekordV001Body.de C) .hashedRekordV001 bodyStr
  | "hashedrekord", "0.0.2" =>
    parseBody C "hashedrekord v0.0.2" (HashedRekordV002Body.de C) .hashedRekordV002 bodyStr
  | "dsse", "0.0.1" => parseBody C "dsse v0.0.1" (DsseV001Body.de C) .dsseV001 bodyStr
  | "dsse", "0.0.2" => parseBody C "dsse v0.0.2" (DsseV002Body.de C) .dsseV002 bodyStr
  | "intoto", "0.0.2" => parseBody C "intoto v0.0.2" (IntotoV002Body.de C) .intotoV002 bodyStr
  | _, _ => .error (.invalidResponse s!"unsupported entry kind/version: {kind}/{version}")

/-- Parse a Rekor entry body from base64-encoded JSON. -/
def fromBase64Json (base64Body kind version : String) : Except Error RekorEntryBody := do
  let bodyBytes ← (C.base64Decode base64Body).mapError fun e =>
    .invalidResponse s!"failed to decode body: {e}"
  let bodyStr ← (C.fromUtf8 bodyBytes).mapError fun e =>
    .invalidResponse s!"body is not valid UTF-8: {e}"
  fromJsonText C kind version bodyStr

/-- `DerCertificate::from_pem`. -/
def certificateFromPem (P : Crypto.Primitives) (pem : String) : Except Types.Error Bytes := do
  let (tag, contents) ← (P.pem pem).mapError fun e =>
    .invalidEncoding s!"failed to parse PEM: {e}"
  rejectIf (tag ≠ "CERTIFICATE")
    (.invalidEncoding s!"expected CERTIFICATE PEM block, got {tag}")
  return contents

/-- `to_certificate` of a verifier in PEM: its certificate in DER. -/
def toCertificate (P : Crypto.Primitives) (pemBytes : Bytes) : Except Error Bytes := do
  let pem ← (C.fromUtf8 pemBytes).mapError fun e => .invalidResponse s!"PEM not valid UTF-8: {e}"
  (certificateFromPem P pem).mapError fun e =>
    .invalidResponse s!"failed to parse certificate PEM: {e.display}"

end

end Sigstore.Rekor
