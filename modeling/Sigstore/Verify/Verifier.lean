import Sigstore.Bundle.Validation
import Sigstore.Tuf.Metadata
import Sigstore.Verify.Helpers
import Sigstore.Verify.Rekor

/-!
# The verifier

`Verifier::verify` and `verify_with_key` of `sigstore-verify` (`verify.rs`). `Verified` and
`VerifiedWithKey` are what their successes establish, check by check.
-/

namespace Sigstore.Verify

open Checks Types Crypto TrustRoot Bundle

/-- Policy for verifying signatures. Nothing reads `verifyTimestamp`. -/
structure VerificationPolicy where
  identity : Option String
  issuer : Option String
  verifyTlog : Bool
  verifyTimestamp : Bool
  verifyCertificate : Bool
  verifySct : Bool
  clockSkewSeconds : Int64
  deriving DecidableEq

namespace VerificationPolicy

/-- The default policy: everything is verified, with a minute of clock skew. -/
def default : VerificationPolicy :=
  { identity := none, issuer := none, verifyTlog := true, verifyTimestamp := true,
    verifyCertificate := true, verifySct := true, clockSkewSeconds := 60 }

def requireIdentity (p : VerificationPolicy) (identity : String) : VerificationPolicy :=
  { p with identity := some identity }

def requireIssuer (p : VerificationPolicy) (issuer : String) : VerificationPolicy :=
  { p with issuer := some issuer }

def skipTlog (p : VerificationPolicy) : VerificationPolicy := { p with verifyTlog := false }

def skipTimestamp (p : VerificationPolicy) : VerificationPolicy :=
  { p with verifyTimestamp := false }

/-- Skips the check of the SCT as well. -/
def skipCertificateChain (p : VerificationPolicy) : VerificationPolicy :=
  { p with verifyCertificate := false, verifySct := false }

def skipSct (p : VerificationPolicy) : VerificationPolicy := { p with verifySct := false }

end VerificationPolicy

/-- Result of verification. -/
structure VerificationResult where
  success : Bool
  identity : Option String
  issuer : Option String
  integratedTime : Option Int64
  warnings : List String
  deriving DecidableEq

section
variable (E : Env) (root : TrustedRoot)

/-! ## The content -/

/-- The digest of an artifact with an algorithm; a digest that is given must have its size. -/
def computeArtifactDigestAlgo (artifact : Artifact) (algo : HashAlgorithm) : Except Error Bytes :=
  match artifact with
  | .bytes bytes =>
    match algo with
    | .sha2256 => .ok (E.primitives.sha256 bytes).bytes
    | .sha2384 => .ok (E.primitives.sha384 bytes)
    | .sha2512 => .ok (E.primitives.sha512 bytes)
  | .digest hash =>
    if hash.length ≠ algo.digestSize then
      let shown := hashAlgorithmDebug algo
      .error (.verification
        s!"expected digest length {algo.digestSize} for {shown}, got {hash.length}")
    else .ok hash

/-- Verify that an envelope's payload, an in-toto statement, binds the artifact. -/
def verifyDsseArtifactBinding (envelope : DsseEnvelope) (artifact : Artifact) :
    Except Error Unit := do
  let shown := debugStr envelope.payloadType
  rejectIf (envelope.payloadType ≠ "application/vnd.in-toto+json") (.verification
    s!"unsupported DSSE payload type {shown}: cannot bind artifact to attestation")
  let artifactHash ← computeArtifactDigestAlgo E artifact .sha2256
  let hash ← (Codec.sha256FromSlice artifactHash).mapError fun _ =>
    .verification "invalid SHA-256 hash length"
  let payloadStr ← (E.codec.fromUtf8 envelope.payload).mapError fun e =>
    .verification s!"payload is not valid UTF-8: {e}"
  let statement ← (E.codec.fromJson Statement.de payloadStr).mapError fun e =>
    .verification s!"failed to parse in-toto statement: {e}"
  rejectIf (statement.subject = []) (.verification
    "in-toto statement has no subjects: cannot bind artifact to attestation")
  rejectIf (statement.matchesSha256 hash.toHex = false)
    (.verification "artifact hash does not match any subject in attestation")

/-- Verify a signature over an artifact: over its bytes, or over the digest that is given. -/
def verifySignatureOverArtifact (publicKey : Bytes) (scheme : SigningScheme) (signature : Bytes)
    (artifact : Artifact) : Except Error Unit :=
  let failed (e : Crypto.Error) : Error :=
    .verification s!"signature verification failed: {e.display}"
  match artifact with
  | .bytes bytes => (verifySignature E.primitives publicKey bytes signature scheme).mapError failed
  | .digest hash =>
    if scheme.supportsPrehashed = false then
      .error (.verification (s!"cannot verify signature with digest-only - scheme {scheme.name} " ++
        "does not support prehashed mode"))
    else
      (verifySignaturePrehashed E.primitives publicKey hash signature scheme).mapError failed

/-- The comparison of a declared message digest with the artifact's. -/
def checkMessageDigest (msgSig : MessageSignature) (artifact : Artifact) : Except Error Unit :=
  whenSome msgSig.messageDigest fun digest => do
    let artifactHash ← computeArtifactDigestAlgo E artifact digest.algorithm
    rejectIf (digest.digest ≠ artifactHash)
      (.verification "message digest in bundle does not match artifact hash")

/-- The scheme of a message signature: from the key and the declared digest's algorithm. -/
def messageScheme (key : KeyAlgorithm) (msgSig : MessageSignature) : Except Error SigningScheme :=
  match msgSig.messageDigest with
  | some digest => (key.resolveSigningScheme digest.algorithm).mapError .crypto
  | none => .ok key.defaultSigningScheme

/-- Verify a message signature over the artifact under the certificate's key. -/
def verifyMessageSignatureCrypto (certInfo : CertificateInfo) (msgSig : MessageSignature)
    (artifact : Artifact) : Except Error Unit := do
  let scheme ← messageScheme certInfo.keyAlgorithm msgSig
  verifySignatureOverArtifact E certInfo.publicKey scheme msgSig.signature artifact

/-- Whether a signature of an envelope verifies under a key. -/
def signatureVerifies (publicKey : Bytes) (scheme : SigningScheme) (envelope : DsseEnvelope)
    (sig : DsseSignature) : Bool :=
  (verifySignature E.primitives publicKey envelope.pae sig.sig scheme).isOk

/-- Verify that any signature of an envelope verifies under a key, and that the payload binds the
artifact. -/
def verifyEnvelope (publicKey : Bytes) (scheme : SigningScheme) (envelope : DsseEnvelope)
    (artifact : Artifact) : Except Error Unit := do
  rejectIf (envelope.signatures.any (signatureVerifies E publicKey scheme envelope) = false)
    (.verification "DSSE signature verification failed: no valid signatures found")
  verifyDsseArtifactBinding E envelope artifact

/-! ## Verification with a certificate -/

/-- The comparison of a required value with the certificate's. -/
def checkRequired (what missing : String) (required actual : Option String) : Except Error Unit :=
  whenSome required fun expected =>
    match actual with
    | some value => rejectIf (value ≠ expected)
        (.verification s!"{what} mismatch: expected {expected}, got {value}")
    | none => .error (.verification
        s!"certificate is missing {missing}, but policy requires: {expected}")

/-- The verification of the content under the certificate's key. -/
def verifyContent (certInfo : CertificateInfo) (artifact : Artifact) (content : SignatureContent) :
    Except Error Unit :=
  match content with
  | .dsseEnvelope envelope =>
    verifyEnvelope E certInfo.publicKey certInfo.keyAlgorithm.defaultSigningScheme envelope artifact
  | .messageSignature msgSig => do
    checkMessageDigest E msgSig artifact
    verifyMessageSignatureCrypto E certInfo msgSig artifact

/-- Verify an artifact against a bundle. -/
def verify (artifact : Artifact) (bundle : Types.Bundle) (policy : VerificationPolicy) :
    Except Error VerificationResult := do
  let options := { requireInclusionProof := policy.verifyTlog, requireTimestamp := false }
  (validateBundleWithOptions E.codec bundle options).mapError fun e =>
    .verification s!"bundle validation failed: {e.display}"
  let material := bundle.verificationMaterial.content
  let cert ← extractCertificate material
  let certInfo ← (parseCertificateInfo E.x509 cert).mapError fun e =>
    .verification s!"failed to parse certificate: {e.display}"
  let signature ← extractSignature bundle.content
  let validationTime ← determineValidationTime E root bundle signature
  whenTrue policy.verifyCertificate do
    verifyCertificateChain E root material validationTime
    validateCertificateTime validationTime certInfo
  whenTrue policy.verifySct (verifySct E root material)
  checkRequired "identity" "identity (SAN)" policy.identity certInfo.identity
  checkRequired "issuer" "issuer (Fulcio OID extension)" policy.issuer certInfo.issuer
  let integratedTime ← (if policy.verifyTlog then
      verifyTlogEntries E root certInfo.notBefore certInfo.notAfter policy.clockSkewSeconds none
        bundle.tlogEntries
    else .ok none)
  verifyContent E certInfo artifact bundle.content
  whenTrue policy.verifyTlog (verifyTlogConsistency E bundle artifact)
  return {
    success := true
    identity := certInfo.identity
    issuer := certInfo.issuer
    integratedTime := integratedTime
    warnings := [] }

/-! ## Verification with a key -/

/-- The signing scheme of a detected key type. -/
def keyScheme (publicKey : Bytes) : Except Error SigningScheme :=
  match detectKeyType E.primitives publicKey with
  | .ed25519 => .ok .ed25519
  | .ecdsaP256 => .ok .ecdsaP256Sha256
  | .unknown => .error (.verification "unsupported or unrecognized public key type")

/-- The loop over the log entries, without times. -/
def verifyEntriesInclusion : List TransparencyLogEntry → Except Error Unit
  | [] => .ok ()
  | entry :: l => do
    verifyEntryInclusion E root entry
    verifyEntriesInclusion l

/-- The verification of the content under a given key. -/
def verifyContentWithKey (publicKey : Bytes) (scheme : SigningScheme) (artifact : Artifact)
    (content : SignatureContent) : Except Error Unit :=
  match content with
  | .messageSignature msgSig => do
    checkMessageDigest E msgSig artifact
    verifySignatureOverArtifact E publicKey scheme msgSig.signature artifact
  | .dsseEnvelope envelope => verifyEnvelope E publicKey scheme envelope artifact

/-- Verify an artifact against a bundle using a provided public key. -/
def verifyWithKey (artifact : Artifact) (bundle : Types.Bundle) (publicKey : Bytes) :
    Except Error VerificationResult := do
  let options := { requireInclusionProof := true, requireTimestamp := false }
  (validateBundleWithOptions E.codec bundle options).mapError fun e =>
    .verification s!"bundle validation failed: {e.display}"
  let signingScheme ← keyScheme E publicKey
  verifyEntriesInclusion E root bundle.tlogEntries
  verifyContentWithKey E publicKey signingScheme artifact bundle.content
  verifyTlogConsistency E bundle artifact
  return {
    success := true
    identity := none
    issuer := none
    integratedTime := none
    warnings := [] }

/-! ## What a success establishes -/

/-- What a success of `verify` establishes about the certificate, the signature and the time that it
used. -/
structure Verified (artifact : Artifact) (bundle : Types.Bundle) (policy : VerificationPolicy)
    (cert : Bytes) (certInfo : CertificateInfo) (signature : Bytes) (time : Int64) : Prop where
  validated : validateBundleWithOptions E.codec bundle
    { requireInclusionProof := policy.verifyTlog, requireTimestamp := false } = .ok ()
  certificate : bundle.signingCertificate = some cert
  info : parseCertificateInfo E.x509 cert = .ok certInfo
  signature_eq : firstSignature bundle.content = some signature
  validationTime : determineValidationTime E root bundle signature = .ok time
  chain : policy.verifyCertificate = true →
    verifyCertificateChain E root bundle.verificationMaterial.content time = .ok () ∧
      validateCertificateTime time certInfo = .ok ()
  sct : policy.verifySct = true → verifySct E root bundle.verificationMaterial.content = .ok ()
  identity : ∀ identity, policy.identity = some identity → certInfo.identity = some identity
  issuer : ∀ issuer, policy.issuer = some issuer → certInfo.issuer = some issuer
  entries : policy.verifyTlog = true →
    ∀ entry ∈ bundle.tlogEntries, verifyEntryInclusion E root entry = .ok ()
  content : verifyContent E certInfo artifact bundle.content = .ok ()
  consistent : policy.verifyTlog = true → verifyTlogConsistency E bundle artifact = .ok ()

/-- A required value, such as the identity that a policy asks for, is the one that is there. -/
theorem checkRequired_ok {what missing : String} {required actual : Option String}
    (h : checkRequired what missing required actual = .ok ()) :
    ∀ expected, required = some expected → actual = some expected := by
  intro expected hrequired
  simp only [checkRequired, whenSome_eq_ok] at h
  have hactual := h expected hrequired
  cases actual with
  | none => cases hactual
  | some value =>
    simp only [rejectIf_eq_ok, not_not] at hactual
    exact congrArg some hactual

/-- What an accepted verification with a certificate establishes, check by check. Most
other results start from the fields of `Verified`, and not from `verify` itself. -/
theorem verify_ok {artifact : Artifact} {bundle : Types.Bundle} {policy : VerificationPolicy}
    {result : VerificationResult} (h : verify E root artifact bundle policy = .ok result) :
    ∃ cert certInfo signature time,
      Verified E root artifact bundle policy cert certInfo signature time := by
  simp only [verify, bind_eq_ok, mapError_eq_ok, whenTrue_eq_ok] at h
  obtain ⟨_, hvalid, cert, hcert, certInfo, hinfo, signature, hsig, time, htime, _, hchain, _, hsct,
    _, hidentity, _, hissuer, integratedTime, hentries, _, hcontent, _, hconsistent, -⟩ := h
  refine ⟨cert, certInfo, signature, time, {
    validated := hvalid
    certificate := extractCertificate_ok hcert
    info := hinfo
    signature_eq := extractSignature_ok hsig
    validationTime := htime
    chain := fun hflag => ?_
    sct := hsct
    identity := checkRequired_ok hidentity
    issuer := checkRequired_ok hissuer
    entries := fun hflag => ?_
    content := hcontent
    consistent := hconsistent }⟩
  · obtain ⟨_, hverified, htimely⟩ := hchain hflag
    exact ⟨hverified, htimely⟩
  · rw [if_pos hflag] at hentries
    exact verifyTlogEntries_ok E root hentries

/-- What a success of `verify_with_key` establishes about the scheme that it used. -/
structure VerifiedWithKey (artifact : Artifact) (bundle : Types.Bundle) (publicKey : Bytes)
    (scheme : SigningScheme) : Prop where
  validated : validateBundleWithOptions E.codec bundle
    { requireInclusionProof := true, requireTimestamp := false } = .ok ()
  scheme_eq : keyScheme E publicKey = .ok scheme
  entries : ∀ entry ∈ bundle.tlogEntries, verifyEntryInclusion E root entry = .ok ()
  content : verifyContentWithKey E publicKey scheme artifact bundle.content = .ok ()
  consistent : verifyTlogConsistency E bundle artifact = .ok ()

/-- The loop over the entries passes exactly where each of them is included. -/
theorem verifyEntriesInclusion_eq_ok {entries : List TransparencyLogEntry} :
    verifyEntriesInclusion E root entries = .ok () ↔
      ∀ entry ∈ entries, verifyEntryInclusion E root entry = .ok () :=
  loop_eq_ok rfl fun _ _ => rfl

/-- What an accepted verification with a key establishes, check by check. -/
theorem verifyWithKey_ok {artifact : Artifact} {bundle : Types.Bundle} {publicKey : Bytes}
    {result : VerificationResult}
    (h : verifyWithKey E root artifact bundle publicKey = .ok result) :
    ∃ scheme, VerifiedWithKey E root artifact bundle publicKey scheme := by
  simp only [verifyWithKey, bind_eq_ok, mapError_eq_ok] at h
  obtain ⟨_, hvalid, scheme, hscheme, _, hentries, _, hcontent, _, hconsistent, -⟩ := h
  exact ⟨scheme, hvalid, hscheme, (verifyEntriesInclusion_eq_ok E root).1 hentries, hcontent,
    hconsistent⟩

/-- Verification under a key, check by check. The consistency of the entries is checked here, too,
though the bundle need not have a certificate. -/
theorem verifyWithKey_eq_ok {artifact : Artifact} {bundle : Types.Bundle} {publicKey : Bytes}
    {scheme : SigningScheme}
    (hvalid : validateBundleWithOptions E.codec bundle
      { requireInclusionProof := true, requireTimestamp := false } = .ok ())
    (hscheme : keyScheme E publicKey = .ok scheme)
    (hentries : ∀ entry ∈ bundle.tlogEntries, verifyEntryInclusion E root entry = .ok ())
    (hcontent : verifyContentWithKey E publicKey scheme artifact bundle.content = .ok ())
    (hconsistent : verifyTlogConsistency E bundle artifact = .ok ()) :
    verifyWithKey E root artifact bundle publicKey =
      .ok { success := true, identity := none, issuer := none, integratedTime := none
            warnings := [] } := by
  have hincluded := (verifyEntriesInclusion_eq_ok E root).2 hentries
  simp only [verifyWithKey, bind_eq_ok, mapError_eq_ok, pure_eq_ok]
  exact ⟨(), hvalid, scheme, hscheme, (), hincluded, (), hcontent, (), hconsistent, trivial⟩

end

/-! ## A small deployment

Keys are numbers, and a signature is the number of its key with the sum of the message. Encodings,
canonical texts and digests are the real ones on the data of the deployment. -/

namespace Sample

def base64Char (n : Nat) : Char :=
  Char.ofNat (if n < 26 then 65 + n else if n < 52 then 71 + n else if n < 62 then n - 4
    else if n = 62 then 43 else 47)

def base64Value (c : UInt8) : Option Nat :=
  let n := c.toNat
  if 65 ≤ n ∧ n ≤ 90 then some (n - 65) else if 97 ≤ n ∧ n ≤ 122 then some (n - 71)
  else if 48 ≤ n ∧ n ≤ 57 then some (n + 4) else if n = 43 then some 62
  else if n = 47 then some 63 else none

/-- Standard base64 with padding. -/
def base64 : Bytes → List Char
  | a :: b :: c :: l =>
    let n := a.toNat * 65536 + b.toNat * 256 + c.toNat
    base64Char (n / 262144) :: base64Char (n / 4096 % 64) :: base64Char (n / 64 % 64) ::
      base64Char (n % 64) :: base64 l
  | [a, b] =>
    let n := a.toNat * 1024 + b.toNat * 4
    [base64Char (n / 4096), base64Char (n / 64 % 64), base64Char (n % 64), '=']
  | [a] => [base64Char (a.toNat / 4), base64Char (a.toNat * 16 % 64), '=', '=']
  | [] => []

/-- The bytes of standard base64 with padding and without stray bits. -/
def unbase64 : Bytes → Option Bytes
  | [] => some []
  | [a, b, 0x3d, 0x3d] => do
    let n := (← base64Value a) * 64 + (← base64Value b)
    if n % 16 = 0 then some [UInt8.ofNat (n / 16)] else none
  | [a, b, c, 0x3d] => do
    let n := (← base64Value a) * 4096 + (← base64Value b) * 64 + (← base64Value c)
    if n % 4 = 0 then some [UInt8.ofNat (n / 1024), UInt8.ofNat (n / 4 % 256)] else none
  | a :: b :: c :: d :: l => do
    let n := (← base64Value a) * 262144 + (← base64Value b) * 4096 + (← base64Value c) * 64 +
      (← base64Value d)
    let rest ← unbase64 l
    return UInt8.ofNat (n / 65536) :: UInt8.ofNat (n / 256 % 256) :: UInt8.ofNat (n % 256) :: rest
  | _ => none

def text64 (bs : Bytes) : String := String.ofList (base64 bs)

/-- The canonical text of a document. -/
def document (v : Json) : Bytes := (Tuf.toCanonicalBytes v).toOption.getD []

/-! ### Keys and digests -/

def sign (key : UInt8) (message : Bytes) : Bytes :=
  [key, UInt8.ofNat (message.foldl (fun n b => n + b.toNat) 0)]

def keyRaw (key : UInt8) : Bytes := [0x04, key]

def keyDer (key : UInt8) : Bytes := [0x30, 0x04, key]

/-- The artifact. -/
def artifact : Bytes := utf8Bytes "a"

/-- An in-toto statement about the artifact. -/
def statement : Json :=
  .object [("_type", .string "https://in-toto.io/Statement/v1"), ("predicate", .object []),
    ("predicateType", .string "https://example.com/predicate"),
    ("subject", .array [.object [("digest", .object [("sha256", .string
      "ca978112ca1bbdcafac231b39a23dc4da786eff8147c4e72b9807785afee48bb")]),
      ("name", .string "a")]])]

def payloadType : String := "application/vnd.in-toto+json"

/-- The signature of the envelope with the statement. -/
def envelopeSignature : Bytes := sign 1 (pae payloadType (document statement))

/-- The encoding of a time stamp of 1700000000 over a digest. -/
def tstInfo (imprint : Sha256Hash) : Bytes := imprint.bytes

/-- The digest with a hexadecimal text. -/
def ofHex (hex : String) : Sha256Hash :=
  ((hexDecode hex).bind fun bs => (Sha256Hash.tryFromSlice bs).toOption).getD Merkle.Sample.leafA

/-- SHA-256 on the inputs that the deployment hashes. -/
def sha256 (bs : Bytes) : Sha256Hash :=
  if bs = artifact then
    ofHex "ca978112ca1bbdcafac231b39a23dc4da786eff8147c4e72b9807785afee48bb"
  else if bs = pae payloadType (document statement) then
    ofHex "6f2687dd60eaf8da7fb47dfacea47871292546141ee1b6eb3459ab33fcb9c534"
  else if bs = keyDer 2 then
    ofHex "0fe4394ddef7f718434ff7954b9a268e3298b2244fec495244a21df477442279"
  else if bs = keyDer 5 then
    ofHex "2df92885ac913b0b789109a39395de34398f82b1133b8dc578923296b8334a5e"
  else if bs = keyDer 6 then
    ofHex "1d2656df80e2af2573956f66ba233efa1720eb9a862f19943c0ef91dd908b93f"
  else if bs = sign 1 artifact then
    ofHex "e3254ea61c09ead5a01d3bf07e946a561c6c2cd1c46b8ca1bfa8729d26a7d09f"
  else if bs = (ofHex "e3254ea61c09ead5a01d3bf07e946a561c6c2cd1c46b8ca1bfa8729d26a7d09f").bytes then
    ofHex "21421b30b5a4003f2173ac19260508bb8a1a6ead7b85f1d3f1af10cf73e05e7b"
  else if bs = envelopeSignature then
    ofHex "f9e363d779907dd340c89d4a6f93e589930244da882e1c185a8f0c25b7670c1f"
  else if bs = (ofHex "f9e363d779907dd340c89d4a6f93e589930244da882e1c185a8f0c25b7670c1f").bytes then
    ofHex "f78c1a12e87abd6611fbc374ff375cc69c942d0ed9a9d5c521c45745217054f0"
  else if bs = [0x00] then
    ofHex "6e340b9cffb37a989ca544e6bb780a2c78901d3fb33738768511a30617afa01d"
  else if bs = (ofHex "6e340b9cffb37a989ca544e6bb780a2c78901d3fb33738768511a30617afa01d").bytes then
    ofHex "1406e05881e299367766d313e26c05564ec91bf721d31726bd6e46e60689539a"
  else Merkle.Sample.sha256 bs

/-- Only P-256 keys are in use, which the primitives take raw or encoded. -/
def primitives : Primitives :=
  { sha256 := sha256
    sha384 := fun _ => []
    sha512 := fun _ => []
    verify := fun _ key message signature =>
      match key.getLast? with
      | some k => signature == sign k message
      | none => false
    verifyDigest := fun _ _ _ _ => .error "Unspecified"
    spki := fun der =>
      match der with
      | [0x30, 0x04, k] => .ok
          { algorithmOid := idEcPublicKey, parametersOid := some secp256r1, rawBytes := keyRaw k }
      | _ => .error "malformed SPKI"
    pem := fun text =>
      if text = "-----BEGIN CERTIFICATE-----\nMAMCAQE=\n-----END CERTIFICATE-----\n" then
        .ok ("CERTIFICATE", [0x30, 0x03, 0x02, 0x01, 0x01])
      else .error "malformed framing" }

/-! ### Certificates -/

/-- The encoding of a certificate. -/
def certDer (serial : UInt8) : Bytes := [0x30, 0x03, 0x02, 0x01, serial]

/-- A certificate with one number for its name, its serial and its key, valid from 2020 to 2030. -/
def certificate (issuer serial : UInt8) (extensions : List Extension) : Certificate :=
  { issuer := [issuer], subject := [serial], serialNumber := [serial]
    notBefore := 1577836800, notAfter := 1893456000
    subjectPublicKeyInfo :=
      { algorithmOid := idEcPublicKey
        parameters := some ⟨0x06, [0x2a, 0x86, 0x48, 0xce, 0x3d, 0x03, 0x01, 0x07]⟩
        subjectPublicKey := some (keyRaw serial) }
    extensions := some extensions }

def issuerUrl : String := "https://issuer.example"

/-- The signing certificate 1, issued by the authority 2, and the timestamp certificate 3, issued by
the authority 4. -/
def certificates : List (Bytes × Certificate) :=
  [(certDer 1, certificate 2 1 [⟨fulcioIssuerOid, 0x0c :: 22 :: utf8Bytes issuerUrl⟩]),
    (certDer 2, certificate 2 2 []), (certDer 3, certificate 4 3 []),
    (certDer 4, certificate 4 4 [])]

def x509 : X509 :=
  { fromDer := fun der =>
      match certificates.lookup der with
      | some cert => .ok cert
      | none => .error "unexpected ASN.1 DER tag"
    toDer := fun cert =>
      match certificates.find? fun c => c.2 = cert with
      | some c => .ok c.1
      | none => .error "ASN.1 DER message is incomplete"
    spkiToDer := fun spki =>
      match spki.subjectPublicKey with
      | some [_, k] => .ok (keyDer k)
      | _ => .error "ASN.1 DER message is incomplete"
    encodeTbs := fun cert _ => .ok cert.serialNumber
    oidFromBytes := fun bs =>
      if bs = [0x2a, 0x86, 0x48, 0xce, 0x3d, 0x03, 0x01, 0x07] then .ok secp256r1
      else .error "malformed OID"
    oidFromAny := fun any =>
      if any = ⟨0x06, [0x2a, 0x86, 0x48, 0xce, 0x3d, 0x03, 0x01, 0x07]⟩ then .ok secp256r1
      else .error "malformed OID"
    utf8StringFromDer := fun bs =>
      match bs with
      | 0x0c :: _ :: text => decodeUtf8 text
      | _ => none
    subjectKeyIdentifierFromDer := fun _ => none
    subjectAltName := fun cert =>
      if cert.serialNumber = [1] then .ok (some [.rfc822Name "signer@example.com"]) else .ok none
    sctList := fun cert =>
      if cert.serialNumber = [1] then some (.ok [.ok {
        logId := (sha256 (keyDer 6)).bytes, timestamp := 1700000000000, extensions := []
        algorithm := 0x0403, signature := sign 6 ((sha256 (keyDer 2)).bytes ++ [1]) }])
      else none }

/-- A path is an end entity and the anchor that issued it. -/
def webpki : WebPki :=
  { anchorFromTrustedCert := fun _ => .ok ()
    endEntityCert := fun _ => .ok ()
    verifyForUsage := fun ee anchors _ time usage =>
      match certificates.lookup ee with
      | some cert =>
        match anchors.find? fun a => (certificates.lookup a).any (·.subject = cert.issuer) with
        | some anchor =>
          if usage ≠ if ee = certDer 3 then Tsa.idKpTimeStamping else idKpCodeSigning then
            .error "RequiredEkuNotFound"
          else if time < cert.notBefore then .error "CertNotValidYet"
          else if cert.notAfter < time then .error "CertExpired"
          else .ok anchor
        | none => .error "UnknownIssuer"
      | none => .error "BadDer" }

/-! ### Timestamps -/

/-- A token is its time stamp, signed with certificate 3. -/
def cms : Tsa.Cms :=
  { timeStampRespFromDer := fun _ => .error "unexpected ASN.1 DER tag"
    contentInfoFromDer := fun token =>
      .ok { contentType := Tsa.idSignedData, content := .ok token }
    signedDataFromDer := fun der => .ok {
      econtentType := Tsa.oidTstInfo
      econtent := some der
      certificates := none
      signerInfos := [{
        sid := .issuerAndSerialNumber [4] [3]
        digestAlg := Tsa.oidSha256
        signedAttrs := some [⟨Tsa.oidMessageDigest, [⟨0x04, (sha256 der).bytes⟩]⟩]
        signature := sign 3 (sha256 der).bytes }] }
    tstInfoFromDer := fun der => .ok {
      hashAlgorithm := Tsa.oidSha256, hashedMessage := der, genTime := 1700000000 }
    setOf := .ok
    setToDer := fun attrs => .ok (attrs.flatMap fun attr => attr.values.flatMap Any.value)
    anyToDer := fun any => .ok any.value
    octetStringFromDer := .ok }

/-- The token over a signature. -/
def timestamp (signature : Bytes) : Rfc3161Timestamp := ⟨tstInfo (sha256 signature)⟩

/-- The clock shows 2024. -/
def jiff : Jiff :=
  { parse := fun text =>
      if text = "2020-01-01T00:00:00Z" then .ok 1577836800000000000
      else if text = "2030-01-01T00:00:00Z" then .ok 1893456000000000000
      else .error "failed to parse"
    fromSecond := fun s => .ok (s.toInt * 1000000000)
    display := fun _ => "2023-11-14T22:13:20Z"
    now := 1710000000000000000 }

/-! ### Log entries -/

/-- The body of a `hashedrekord` 0.0.2 entry: what the code reads of it. -/
def body (digest : Sha256Hash) (signature : Bytes) (verifier : String × Bytes) : Json :=
  .object [("spec", .object [("hashedRekordV002", .object [
    ("data", .object [("digest", .string (text64 digest.bytes))]),
    ("signature", .object [("content", .string (text64 signature)), ("verifier", .object [
      (verifier.1, .object [("rawBytes", .string (text64 verifier.2))])])])])])]

/-- The entry of the artifact's signature. -/
def messageBody : Json :=
  body (sha256 artifact) (sign 1 artifact) ("x509Certificate", certDer 1)

/-- The entry of the artifact's signature with a bare key for its verifier. -/
def bareKeyBody : Json :=
  body (sha256 artifact) (sign 1 artifact) ("publicKey", keyDer 1)

/-- The entry of a signature of the envelope. -/
def envelopeBody (signature : Bytes) : Json :=
  body (sha256 (pae payloadType (document statement))) signature ("x509Certificate", certDer 1)

/-- The JSON texts of the deployment. -/
def documents : List Json :=
  [statement, messageBody, bareKeyBody, envelopeBody envelopeSignature, envelopeBody [0x00]]

def codec : Codec :=
  { base64Encode := text64
    base64DecodeBytes := fun bs => Checks.okOr (unbase64 bs) "Invalid padding"
    parseJson := fun text =>
      match documents.find? fun v => document v = utf8Bytes text with
      | some v => .ok v
      | none => .error "expected value at line 1 column 1"
    jsonError := fun _ _ => "invalid type at line 1 column 1"
    hexError := fun _ => "Odd number of digits"
    utf8Error := fun _ => "invalid utf-8 sequence" }

def canonicalJson (p : RekorPayload) : Bytes :=
  document (.object [("body", .string p.body),
    ("integratedTime", .number (.posInt p.integratedTime.toUInt64)),
    ("logID", .string p.logId), ("logIndex", .number (.posInt p.logIndex.toUInt64))])

def env : Env :=
  { primitives := primitives
    x509 := x509
    webpki := webpki
    cms := cms
    time := jiff
    codec := codec
    canonicalJson := fun p => .ok (canonicalJson p)
    tlsSerialize := fun d => .ok (d.issuerKeyHash.bytes ++ d.tbsCertificate) }

def logId : LogId := ⟨text64 (sha256 (keyDer 5)).bytes⟩

def validFor : Option ValidityPeriod :=
  some ⟨some "2020-01-01T00:00:00Z", some "2030-01-01T00:00:00Z"⟩

/-- The trusted root: one instance of each kind. -/
def root : TrustedRoot :=
  { tlogs := [⟨⟨keyDer 5, validFor⟩, logId⟩]
    certificateAuthorities := [⟨[certDer 2], validFor⟩]
    ctlogs := [⟨⟨keyDer 6, validFor⟩⟩]
    timestampAuthorities := [⟨[certDer 3, certDer 4], validFor⟩] }

/-- An inclusion promise of the log. -/
def promise (body : Bytes) (integratedTime : Int64) : InclusionPromise :=
  let payload :=
    { body := text64 body
      integratedTime := integratedTime
      logIndex := 7
      logId := hexEncode (sha256 (keyDer 5)).bytes }
  ⟨sign 5 (canonicalJson payload)⟩

/-- A log entry with an inclusion promise. -/
def promisedEntry (version : String) (body : Bytes) (integratedTime : Int64) :
    TransparencyLogEntry :=
  { logIndex := ⟨7⟩
    logId := logId
    kindVersion := ⟨"hashedrekord", version⟩
    integratedTime := integratedTime
    inclusionPromise := some (promise body integratedTime)
    inclusionProof := none
    canonicalizedBody := body }

/-- A v0.1 bundle with certificate 1. -/
def bundle (entry : TransparencyLogEntry) (timestamps : List Rfc3161Timestamp)
    (content : SignatureContent) : Types.Bundle :=
  { mediaType := "application/vnd.dev.sigstore.bundle+json;version=0.1"
    verificationMaterial := {
      content := .certificate (certDer 1)
      tlogEntries := [entry]
      timestampVerificationData := ⟨timestamps⟩ }
    content := content }

/-- The signature of the artifact. -/
def message : SignatureContent :=
  .messageSignature ⟨some ⟨.sha2256, (sha256 artifact).bytes⟩, sign 1 artifact⟩

/-- A bundle with the signature of the artifact, logged in 2023. -/
def signed : Types.Bundle :=
  bundle (promisedEntry "0.0.2" (document messageBody) 1700000000) [timestamp (sign 1 artifact)]
    message

/-- The policy of a caller that knows the signer. -/
def policy : VerificationPolicy :=
  (VerificationPolicy.default.requireIdentity "signer@example.com").requireIssuer issuerUrl

def result (integratedTime : Option Int64) : VerificationResult :=
  { success := true, identity := some "signer@example.com", issuer := some issuerUrl
    integratedTime := integratedTime, warnings := [] }

end Sample

end Sigstore.Verify
