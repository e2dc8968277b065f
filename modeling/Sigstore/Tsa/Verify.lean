import Sigstore.Crypto.X509
import Sigstore.Types.Time

/-!
# RFC 3161 timestamps

`verify_timestamp_response` of `sigstore-tsa` (`verify.rs`) with its parts: the message imprint over
the signature, the CMS signature of the authority, and the authority's certificate chain. The DER
parsers of the token are third-party packages: `Cms` holds them as parameters.
-/

namespace Sigstore.Tsa

open Checks Types Crypto

/-- Errors of timestamp verification. -/
inductive Error where
  | parseError (msg : String)
  | signatureVerificationError (msg : String)
  | hashMismatch (expected actual : String)
  | noTstInfo
  | certificateValidationError (msg : String)
  deriving DecidableEq, Repr

/-- The text of an error. -/
def Error.display : Error → String
  | parseError msg => s!"Failed to parse timestamp response: {msg}"
  | signatureVerificationError msg => s!"Failed to verify timestamp signature: {msg}"
  | hashMismatch expected actual =>
    s!"Timestamp message hash mismatch: expected {expected}, got {actual}"
  | noTstInfo => "No TSTInfo in timestamp token"
  | certificateValidationError msg => s!"TSA certificate validation failed: {msg}"

def idKpTimeStamping : String := "1.3.6.1.5.5.7.3.8"
def idSignedData : String := "1.2.840.113549.1.7.2"
def oidMessageDigest : String := "1.2.840.113549.1.9.4"
def oidTstInfo : String := "1.2.840.113549.1.9.16.1.4"
def oidSha256 : String := "2.16.840.1.101.3.4.2.1"
def oidSha384 : String := "2.16.840.1.101.3.4.2.2"
def oidSha512 : String := "2.16.840.1.101.3.4.2.3"
def oidSubjectKeyIdentifier : String := "2.5.29.14"

/-! ## Tokens -/

/-- The time stamp itself: the imprint of the stamped message and the time in seconds. -/
structure TstInfo where
  hashAlgorithm : String
  hashedMessage : Bytes
  genTime : UInt64
  deriving DecidableEq

/-- A response: its status and the encoding of its token. -/
structure TimeStampResp where
  status : UInt8
  timeStampToken : Option (Except String Bytes)

structure ContentInfo where
  contentType : String
  /-- The encoding of the content. -/
  content : Except String Bytes

/-- An attribute that the signer signed. -/
structure Attribute where
  oid : String
  values : List Any
  deriving DecidableEq

inductive SignerIdentifier where
  | issuerAndSerialNumber (issuer serialNumber : Bytes)
  | subjectKeyIdentifier (ski : Bytes)
  deriving DecidableEq

structure SignerInfo where
  sid : SignerIdentifier
  digestAlg : String
  signedAttrs : Option (List Attribute)
  signature : Bytes
  deriving DecidableEq

inductive CertificateChoice where
  | certificate (cert : Certificate)
  | other
  deriving DecidableEq

structure SignedData where
  econtentType : String
  /-- The value of the encapsulated content. -/
  econtent : Option Bytes
  certificates : Option (List CertificateChoice)
  signerInfos : List SignerInfo
  deriving DecidableEq

/-- The DER parsers and encoders of tokens. -/
structure Cms where
  timeStampRespFromDer : Bytes → Except String TimeStampResp
  contentInfoFromDer : Bytes → Except String ContentInfo
  signedDataFromDer : Bytes → Except String SignedData
  tstInfoFromDer : Bytes → Except String TstInfo
  /-- The attributes as a set. -/
  setOf : List Attribute → Except String (List Attribute)
  setToDer : List Attribute → Except String Bytes
  anyToDer : Any → Except String Bytes
  octetStringFromDer : Bytes → Except String Bytes

/-- What the verification of a timestamp uses from outside. -/
structure Env where
  primitives : Primitives
  x509 : X509
  webpki : WebPki
  cms : Cms
  time : Jiff

/-- The certificates to verify against. -/
structure VerifyOpts where
  roots : List Bytes
  intermediates : List Bytes
  tsaCertificates : List Bytes
  deriving DecidableEq

section
variable (E : Env)

/-- The content of a token, out of the response that holds it, if any does. -/
def tokenContentInfo (token : Bytes) : Except Error ContentInfo :=
  match E.cms.timeStampRespFromDer token with
  | .ok resp => do
    rejectIf (resp.status ≠ 0 ∧ resp.status ≠ 1)
      (.parseError s!"Timestamp request not granted: {resp.status}")
    let tokenAny ← okOr resp.timeStampToken (.parseError "TimeStampResp missing timeStampToken")
    let bytes ← tokenAny.mapError fun e => .parseError s!"failed to re-encode token: {e}"
    (E.cms.contentInfoFromDer bytes).mapError fun e =>
      .parseError s!"failed to decode ContentInfo from token: {e}"
  | .error _ =>
    (E.cms.contentInfoFromDer token).mapError fun e =>
      .parseError s!"failed to decode TimeStampToken: {e}"

/-- Parse a timestamp token. -/
def parseTimestampToken (token : Bytes) : Except Error (TstInfo × SignedData) := do
  let contentInfo ← tokenContentInfo E token
  rejectIf (contentInfo.contentType ≠ idSignedData)
    (.parseError "ContentInfo content type is not SignedData")
  let signedDataDer ← contentInfo.content.mapError fun e =>
    .parseError s!"failed to encode SignedData content: {e}"
  let signedData ← (E.cms.signedDataFromDer signedDataDer).mapError fun e =>
    .parseError s!"failed to decode SignedData: {e}"
  rejectIf (signedData.econtentType ≠ oidTstInfo)
    (.parseError "encap content type is not TSTInfo")
  let content ← okOr signedData.econtent .noTstInfo
  let tstInfo ← (E.cms.tstInfoFromDer content).mapError fun e =>
    .parseError s!"failed to decode TSTInfo: {e}"
  return (tstInfo, signedData)

/-- The digest of a message with the algorithm of an identifier. -/
def digest (algOid : String) (message : Bytes) : Option Bytes :=
  if algOid = oidSha256 then some (E.primitives.sha256 message).bytes
  else if algOid = oidSha384 then some (E.primitives.sha384 message)
  else if algOid = oidSha512 then some (E.primitives.sha512 message)
  else none

/-- Verify that the message imprint is that of the signature. -/
def verifyMessageImprint (tstInfo : TstInfo) (signatureBytes : Bytes) : Except Error Unit := do
  let computed ← okOr (digest E tstInfo.hashAlgorithm signatureBytes)
    (.parseError s!"unsupported hash algorithm: {tstInfo.hashAlgorithm}")
  rejectIf (computed ≠ tstInfo.hashedMessage)
    (.hashMismatch (hexEncode tstInfo.hashedMessage) (hexEncode computed))

/-! ## The CMS signature -/

/-- The certificates in the signed data. -/
def extractCertificates (signedData : SignedData) : List Certificate :=
  (signedData.certificates.getD []).filterMap fun choice =>
    match choice with
    | .certificate cert => some cert
    | .other => none

/-- Whether a certificate has a given subject key identifier extension. -/
def hasSubjectKeyIdentifier (ski : Bytes) (cert : Certificate) : Bool :=
  (cert.extensions.getD []).any fun ext =>
    ext.extnId = oidSubjectKeyIdentifier &&
      E.x509.subjectKeyIdentifierFromDer ext.extnValue == some ski

/-- The certificate that a signer identifier names. -/
def findSignerCertificate (sid : SignerIdentifier) (certificates : List Certificate) :
    Except Error Certificate :=
  match sid with
  | .issuerAndSerialNumber issuer serialNumber =>
    okOr (certificates.find? fun cert =>
        cert.issuer = issuer && cert.serialNumber = serialNumber)
      (.signatureVerificationError "no certificate matches issuer and serial number")
  | .subjectKeyIdentifier ski =>
    okOr (certificates.find? (hasSubjectKeyIdentifier E ski))
      (.signatureVerificationError "no certificate matches subject key identifier")

/-- Verify that the message-digest attribute is the digest of the time stamp. -/
def verifyMessageDigestAttribute (signedAttrs : List Attribute) (tstInfoDer : Bytes)
    (digestAlgOid : String) : Except Error Unit := do
  let attr ← okOr (signedAttrs.find? fun attr => attr.oid = oidMessageDigest)
    (.signatureVerificationError "message-digest attribute not found in signed_attrs")
  let value ← (match attr.values with
    | [value] => .ok value
    | _ => .error (.signatureVerificationError
        "message-digest attribute should have exactly one value"))
  let der ← (E.cms.anyToDer value).mapError fun e =>
    .signatureVerificationError s!"failed to encode message-digest attribute value: {e}"
  let messageDigest ← (E.cms.octetStringFromDer der).mapError fun e =>
    .signatureVerificationError s!"failed to decode message-digest as OCTET STRING: {e}"
  let contentHash ← okOr (digest E digestAlgOid tstInfoDer)
    (.parseError s!"unsupported signer digest algorithm: {digestAlgOid}")
  rejectIf (contentHash ≠ messageDigest)
    (.hashMismatch (hexEncode messageDigest) (hexEncode contentHash))

/-- The encoding of the signed attributes that the signer signed. -/
def getSignedAttrsForVerification (attrs : List Attribute) : Except Error Bytes := do
  let set ← (E.cms.setOf attrs).mapError fun e =>
    .signatureVerificationError s!"failed to create SetOfVec: {e}"
  (E.cms.setToDer set).mapError fun e =>
    .signatureVerificationError s!"failed to re-encode attributes: {e}"

/-- The scheme of a curve with a digest algorithm. -/
def ecdsaScheme (curveOid digestAlgOid : String) : Option SigningScheme :=
  if curveOid = secp256r1 ∧ digestAlgOid = oidSha256 then some .ecdsaP256Sha256
  else if curveOid = secp384r1 ∧ digestAlgOid = oidSha256 then some .ecdsaP384Sha256
  else if curveOid = secp384r1 ∧ digestAlgOid = oidSha384 then some .ecdsaP384Sha384
  else none

/-- Verify an ECDSA signature under the key of a certificate. -/
def verifyEcdsaSignature (signature message : Bytes) (certificate : Certificate)
    (digestAlgOid : String) : Except Error Unit := do
  let spki := certificate.subjectPublicKeyInfo
  let publicKeyBytes ← okOr spki.subjectPublicKey
    (.signatureVerificationError "invalid public key encoding")
  rejectIf (spki.algorithmOid ≠ idEcPublicKey)
    (.signatureVerificationError s!"not an EC key: {spki.algorithmOid}")
  let params ← okOr spki.parameters (.signatureVerificationError "missing EC curve parameters")
  let curveOid ← (E.x509.oidFromAny params).mapError fun e =>
    .signatureVerificationError s!"failed to decode curve OID: {e}"
  let scheme ← okOr (ecdsaScheme curveOid digestAlgOid) (.signatureVerificationError
    s!"unsupported curve/digest combination: {curveOid} / {digestAlgOid}")
  rejectIf (E.primitives.verify scheme publicKeyBytes message signature = false)
    (.signatureVerificationError "signature verification failed")

/-- Verify the CMS signature and return the certificate of its signer. -/
def verifyCmsSignature (signedData : SignedData) (tstInfoDer : Bytes) (opts : VerifyOpts) :
    Except Error Certificate := do
  let signerInfo ← okOr signedData.signerInfos.head?
    (.signatureVerificationError "no signer info found")
  let provided := opts.tsaCertificates.filterMap fun der => (E.x509.fromDer der).toOption
  let signerCert ← findSignerCertificate E signerInfo.sid
    (extractCertificates signedData ++ provided)
  let signedAttrs ← okOr signerInfo.signedAttrs
    (.signatureVerificationError "no signed attributes found")
  verifyMessageDigestAttribute E signedAttrs tstInfoDer signerInfo.digestAlg
  let signedAttrsBytes ← getSignedAttrsForVerification E signedAttrs
  verifyEcdsaSignature E signerInfo.signature signedAttrsBytes signerCert signerInfo.digestAlg
  return signerCert

/-! ## The certificate chain -/

/-- Validate the chain of the signer's certificate; the result is the anchor of its path. -/
def validateTsaCertificateChain (signerCert : Certificate) (timestamp : Timestamp)
    (opts : VerifyOpts) (embedded : List Certificate) : Except Error Bytes := do
  rejectIf (opts.roots = []) (.certificateValidationError
    "No trusted roots provided for TSA certificate validation")
  let signerDer ← (E.x509.toDer signerCert).mapError fun e =>
    .certificateValidationError s!"failed to encode signer certificate to DER: {e}"
  (E.webpki.endEntityCert signerDer).mapError fun e =>
    .certificateValidationError s!"failed to parse end-entity certificate: {e}"
  let _ ← opts.roots.mapM fun root => (E.webpki.anchorFromTrustedCert root).mapError fun e =>
    .certificateValidationError s!"failed to create trust anchor: {e}"
  let embeddedDers ← (embedded.filter (· ≠ signerCert)).mapM fun cert =>
    (E.x509.toDer cert).mapError fun e =>
      .certificateValidationError s!"failed to encode embedded certificate to DER: {e}"
  (E.webpki.verifyForUsage signerDer opts.roots (embeddedDers ++ opts.intermediates)
    timestamp.asSecond.toUInt64 idKpTimeStamping).mapError fun e =>
      .certificateValidationError s!"TSA certificate chain validation failed: {e}"

/-- Verify a timestamp token over a signature; the result is its time. -/
def verifyTimestampResponse (token signatureBytes : Bytes) (opts : VerifyOpts) :
    Except Error Timestamp := do
  let (tstInfo, signedData) ← parseTimestampToken E token
  verifyMessageImprint E tstInfo signatureBytes
  let timestamp ← (E.time.fromSecond tstInfo.genTime.toInt64).mapError fun _ =>
    .parseError "invalid timestamp in TSTInfo"
  rejectIf (timestamp < 0) (.parseError "timestamp before epoch")
  let tstInfoDer ← okOr signedData.econtent .noTstInfo
  let signerCert ← verifyCmsSignature E signedData tstInfoDer opts
  let _ ← validateTsaCertificateChain E signerCert timestamp opts (extractCertificates signedData)
  return timestamp

/-! ## What a verified token establishes -/

/-- A token is a time stamp over a signature, signed with a certificate that chains to the
authorities. -/
structure TokenVerified (token signatureBytes : Bytes) (opts : VerifyOpts) (tstInfo : TstInfo)
    (time : Timestamp) : Prop where
  imprint : digest E tstInfo.hashAlgorithm signatureBytes = some tstInfo.hashedMessage
  genTime : E.time.fromSecond tstInfo.genTime.toInt64 = .ok time
  signed : ∃ signedData tstInfoDer signer anchor,
    parseTimestampToken E token = .ok (tstInfo, signedData) ∧
    signedData.econtent = some tstInfoDer ∧
    verifyCmsSignature E signedData tstInfoDer opts = .ok signer ∧
    validateTsaCertificateChain E signer time opts (extractCertificates signedData) = .ok anchor

/-- A response that verifies holds a token that is verified: the imprint is that of the signature,
and the signer's chain ends in a root. -/
theorem verifyTimestampResponse_ok {token signatureBytes : Bytes} {opts : VerifyOpts}
    {time : Timestamp} (h : verifyTimestampResponse E token signatureBytes opts = .ok time) :
    ∃ tstInfo, TokenVerified E token signatureBytes opts tstInfo time := by
  simp only [verifyTimestampResponse, verifyMessageImprint, bind_eq_ok, mapError_eq_ok, okOr_eq_ok,
    rejectIf_eq_ok, not_not] at h
  obtain ⟨⟨tstInfo, signedData⟩, hparse, _, ⟨computed, hdigest, rfl⟩, t, htime, _, -, der, hder,
    signer, hsigner, anchor, hanchor, heq⟩ := h
  cases pure_eq_ok.1 heq
  exact ⟨tstInfo, hdigest, htime, signedData, der, signer, anchor, hparse, hder, hsigner, hanchor⟩

end

end Sigstore.Tsa
