import Sigstore.Checks
import Sigstore.Crypto.Checkpoint
import Sigstore.Types.Encoding

/-!
# X.509 certificates

What the code reads of a certificate, and `parse_certificate_info` of `sigstore-crypto`
(`x509.rs`). The DER parsers (`x509-cert`, `der`, `const-oid`) and the path validation
(`rustls-webpki`) are third-party packages: `X509` and `WebPki` hold them as parameters.
-/

namespace Sigstore.Crypto

open Checks

/-- An ASN.1 value of any type. -/
structure Any where
  tag : UInt8
  value : Bytes
  deriving DecidableEq

/-- The public key of a certificate. -/
structure CertificateKey where
  algorithmOid : String
  parameters : Option Any
  /-- The bits of the key, where they are whole bytes. -/
  subjectPublicKey : Option Bytes
  deriving DecidableEq

/-- An extension of a certificate. -/
structure Extension where
  extnId : String
  extnValue : Bytes
  deriving DecidableEq

/-- A certificate; names are kept in their encoding, times in seconds since the epoch. -/
structure Certificate where
  issuer : Bytes
  subject : Bytes
  serialNumber : Bytes
  notBefore : UInt64
  notAfter : UInt64
  subjectPublicKeyInfo : CertificateKey
  extensions : Option (List Extension)
  deriving DecidableEq

/-- A name of a subject alternative name extension. -/
inductive GeneralName where
  | rfc822Name (email : String)
  | uniformResourceIdentifier (uri : String)
  | other
  deriving DecidableEq

/-- A signed certificate timestamp. -/
structure SignedCertificateTimestamp where
  logId : Bytes
  timestamp : UInt64
  extensions : Bytes
  algorithm : UInt16
  signature : Bytes
  deriving DecidableEq

/-- The DER parsers and encoders. -/
structure X509 where
  fromDer : Bytes → Except String Certificate
  toDer : Certificate → Except String Bytes
  /-- The encoding of a certificate's public key. -/
  spkiToDer : CertificateKey → Except String Bytes
  /-- The encoding of the certificate's signed part with other extensions. -/
  encodeTbs : Certificate → Option (List Extension) → Except String Bytes
  oidFromBytes : Bytes → Except String String
  oidFromAny : Any → Except String String
  utf8StringFromDer : Bytes → Option String
  subjectKeyIdentifierFromDer : Bytes → Option Bytes
  /-- The subject alternative names of a certificate, where it has them. -/
  subjectAltName : Certificate → Except String (Option (List GeneralName))
  /-- The entries of a certificate's SCT list, where it has a readable one. -/
  sctList : Certificate →
    Option (Except String (List (Except String SignedCertificateTimestamp)))

/-- Path validation. -/
structure WebPki where
  /-- Whether a certificate can serve as a trust anchor. -/
  anchorFromTrustedCert : Bytes → Except String Unit
  /-- Whether a certificate can be read as an end entity. -/
  endEntityCert : Bytes → Except String Unit
  /-- The trust anchor of a path from an end entity through intermediates, at a time in seconds and
  with a required extended key usage. -/
  verifyForUsage : Bytes → List Bytes → List Bytes → UInt64 → String → Except String Bytes

/-- rsaEncryption. -/
def rsaEncryption : String := "1.2.840.113549.1.1.1"

/-- secp256r1. -/
def secp256r1 : String := "1.2.840.10045.3.1.7"

/-- secp384r1. -/
def secp384r1 : String := "1.3.132.0.34"

/-- The extension with the OIDC issuer. -/
def fulcioIssuerOid : String := "1.3.6.1.4.1.57264.1.1"

/-- Information extracted from a certificate. -/
structure CertificateInfo where
  identity : Option String
  issuer : Option String
  notBefore : Int64
  notAfter : Int64
  publicKey : Bytes
  keyAlgorithm : KeyAlgorithm
  deriving DecidableEq

section
variable (X : X509)

/-- The key algorithm of a certificate's public key. -/
def determineKeyAlgorithm (spki : CertificateKey) : Except Error KeyAlgorithm :=
  if spki.algorithmOid = idEcPublicKey then
    match spki.parameters with
    | some params => do
      let curveOid ← (X.oidFromBytes params.value).mapError fun e =>
        .invalidCertificate s!"failed to parse EC curve OID: {e}"
      if curveOid = secp256r1 then .ok .ecdsaP256
      else if curveOid = secp384r1 then .ok .ecdsaP384
      else .error (.invalidCertificate s!"unsupported EC curve OID: {curveOid}")
    | none => .error (.invalidCertificate "EC key missing curve parameters")
  else if spki.algorithmOid = rsaEncryption then .ok .rsa
  else if spki.algorithmOid = idEd25519 then .ok .ed25519
  else .error (.invalidCertificate s!"unsupported public key algorithm OID: {spki.algorithmOid}")

/-- The first email address or URI among the names. -/
def firstIdentity : List GeneralName → Option String
  | [] => none
  | .rfc822Name email :: _ => some email
  | .uniformResourceIdentifier uri :: _ => some uri
  | .other :: l => firstIdentity l

/-- The identity from the subject alternative name extension. -/
def extractSanIdentity (cert : Certificate) : Except Error (Option String) := do
  let san ← (X.subjectAltName cert).mapError fun e =>
    .invalidCertificate s!"failed to get SAN extension: {e}"
  return san.bind firstIdentity

/-- The OIDC issuer from the certificate's extension: a DER string, or else its raw bytes. -/
def extractFulcioIssuer (cert : Certificate) : Except Error (Option String) :=
  match (cert.extensions.getD []).find? fun ext => ext.extnId = fulcioIssuerOid with
  | none => .ok none
  | some ext =>
    match X.utf8StringFromDer ext.extnValue with
    | some s => .ok (some s)
    | none =>
      match Types.decodeUtf8 ext.extnValue with
      | some s => .ok (some s)
      | none => .error (.invalidCertificate "malformed Fulcio issuer extension")

/-- Parse certificate information from a DER-encoded certificate. -/
def parseCertificateInfo (certDer : Bytes) : Except Error CertificateInfo := do
  let cert ← (X.fromDer certDer).mapError fun e =>
    .invalidCertificate s!"failed to parse certificate: {e}"
  let publicKey ← (X.spkiToDer cert.subjectPublicKeyInfo).mapError fun e =>
    .invalidCertificate s!"failed to encode SPKI: {e}"
  let keyAlgorithm ← determineKeyAlgorithm X cert.subjectPublicKeyInfo
  let identity ← extractSanIdentity X cert
  let issuer ← extractFulcioIssuer X cert
  return {
    identity := identity
    issuer := issuer
    notBefore := cert.notBefore.toInt64
    notAfter := cert.notAfter.toInt64
    publicKey := publicKey
    keyAlgorithm := keyAlgorithm }

end

end Sigstore.Crypto
