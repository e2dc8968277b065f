import Sigstore.Verify.Tlog

/-!
# Signed certificate timestamps

The verification of the timestamp that is embedded in a certificate (`verify_impl/sct.rs`).
-/

namespace Sigstore.Verify

open Checks Types Crypto TrustRoot

/-- The extension that holds the timestamps of a certificate. -/
def ctPrecertScts : String := "1.3.6.1.4.1.11129.2.4.2"

/-- The signing scheme of a TLS signature algorithm. -/
def sctScheme (sigAlg : UInt16) : Option SigningScheme :=
  if sigAlg = 0x0403 then some .ecdsaP256Sha256
  else if sigAlg = 0x0503 then some .ecdsaP384Sha384
  else if sigAlg = 0x0401 then some .rsaPkcs1Sha256
  else if sigAlg = 0x0501 then some .rsaPkcs1Sha384
  else if sigAlg = 0x0601 then some .rsaPkcs1Sha512
  else none

section
variable (E : Env) (root : TrustedRoot)

namespace DigitallySigned

/-- What an embedded timestamp signs: the certificate without its timestamps. -/
def fromEmbeddedSct (cert : Certificate) (sct : SignedCertificateTimestamp)
    (issuerKeyHash : Sha256Hash) : Except Error DigitallySigned := do
  let extensions := cert.extensions.map fun exts => exts.filter (·.extnId ≠ ctPrecertScts)
  let tbsPrecertDer ← (E.x509.encodeTbs cert extensions).mapError fun e =>
    .verification s!"failed to encode precert TBS: {e}"
  return {
    timestamp := sct.timestamp
    issuerKeyHash := issuerKeyHash
    tbsCertificate := tbsPrecertDer
    extensions := sct.extensions
    logId := sct.logId
    signature := sct.signature }

/-- Verify the signature of a timestamp under the key of a log. -/
def verify (d : DigitallySigned) (publicKey : Bytes) (sigAlg : UInt16) (signature : Bytes) :
    Except Error Unit := do
  let signedData ← (E.tlsSerialize d).mapError fun e =>
    .verification s!"failed to serialize SCT data: {e}"
  let shown := hexEncode [(sigAlg >>> 8).toUInt8, sigAlg.toUInt8]
  let scheme ← okOr (sctScheme sigAlg)
    (.verification s!"unsupported SCT signature algorithm: 0x{shown}")
  (verifySignature E.primitives publicKey signedData signature scheme).mapError fun e =>
    .verification s!"SCT signature verification failed: {e.display}"

end DigitallySigned

/-- The one timestamp of a certificate, and the hash of its issuer's key. -/
def extractSct (cert : Certificate) (issuerSpkiDer : Bytes) :
    Except Error (SignedCertificateTimestamp × Sha256Hash) := do
  let scts ← okOr (E.x509.sctList cert) (.verification
    "certificate is missing SCT extension (Signed Certificate Timestamp)")
  let timestamps ← scts.mapError fun e => .verification s!"failed to parse SCT list: {e}"
  match timestamps with
  | [single] => do
    let sct ← single.mapError fun e => .verification s!"failed to parse SCT: {e}"
    return (sct, E.primitives.sha256 issuerSpkiDer)
  | [] => .error (.verification "no SCTs found in certificate")
  | _ => .error (.verification "certificate contains multiple SCTs, expected exactly one")

/-- Verify the timestamp embedded in a certificate. -/
def verifyEmbeddedSct (certDer issuerSpkiDer : Bytes) : Except Error Unit := do
  let cert ← (E.x509.fromDer certDer).mapError fun e =>
    .verification s!"failed to parse certificate: {e}"
  let (sct, issuerKeyHash) ← extractSct E cert issuerSpkiDer
  let ctKeys ← (root.ctfeKeysWithIds E.time E.primitives).mapError fun e =>
    .verification s!"failed to get CT log keys: {e.display}"
  rejectIf (ctKeys = []) (.verification "no CT log keys in trusted root")
  let shown := debugStr (hexEncode sct.logId)
  let (_, publicKey) ← okOr (ctKeys.find? fun key => key.1 = sct.logId)
    (.verification s!"SCT log ID {shown} not found in trusted root CT logs")
  let digitallySigned ← DigitallySigned.fromEmbeddedSct E cert sct issuerKeyHash
  digitallySigned.verify E publicKey sct.algorithm sct.signature

end

end Sigstore.Verify
