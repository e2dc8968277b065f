import Sigstore.Rekor.Body
import Sigstore.Types.Bundle
import Sigstore.Types.Serialize
import Sigstore.Verify.Tlog

/-!
# `hashedrekord` entries

The validation of a `hashedrekord` entry against the bundle and the artifact
(`verify_impl/hashedrekord.rs`): the recorded hash, certificate and signature, and the integrated
time. `HashedRekordMatches` is what an accepted entry establishes.
-/

namespace Sigstore.Verify

open Checks Types Crypto Rekor

section
variable (E : Env)

/-- The body of an entry, parsed by the entry's own kind and version. -/
def entryBody (entry : TransparencyLogEntry) : Except Error RekorEntryBody :=
  (fromBase64Json E.codec (E.codec.base64Encode entry.canonicalizedBody) entry.kindVersion.kind
    entry.kindVersion.version).mapError fun e =>
      .verification s!"failed to parse Rekor body: {e.display}"

/-- The SHA-256 digest of an artifact. -/
def computeArtifactDigest (artifact : Artifact) : Except Error Sha256Hash :=
  match artifact with
  | .bytes bytes => .ok (E.primitives.sha256 bytes)
  | .digest hash => (Codec.sha256FromSlice hash).mapError fun _ =>
      .verification "Rekor entry verification requires a 32-byte SHA-256 digest"

/-- The digest that a `hashedrekord` entry must record: the artifact's, or the envelope's. -/
def contentDigest (content : SignatureContent) (artifact : Artifact) : Except Error Sha256Hash :=
  match content with
  | .messageSignature _ => computeArtifactDigest E artifact
  | .dsseEnvelope envelope => .ok (E.primitives.sha256 envelope.pae)

/-- The digest that a `hashedrekord` entry records. -/
def recordedDigest (body : RekorEntryBody) (version : String) : Except Error Sha256Hash :=
  match body with
  | .hashedRekordV001 rekord => (E.codec.sha256FromHex rekord.hashValue).mapError fun e =>
      .verification s!"invalid hash in Rekor entry: {e.display}"
  | .hashedRekordV002 rekord => (Codec.sha256FromSlice rekord.digest).mapError fun e =>
      .verification s!"invalid digest in Rekor entry: {e.display}"
  | _ => .error (.verification
      s!"expected HashedRekord body, got different type for version {version}")

/-- The certificate that a `hashedrekord` entry records: in 0.0.1 its verifier must be one, in 0.0.2
it may be absent. -/
def recordedCertificate (body : RekorEntryBody) : Except Error (Option Bytes) :=
  match body with
  | .hashedRekordV001 rekord =>
    match toCertificate E.codec E.primitives rekord.publicKeyContent with
    | .ok cert => .ok (some cert)
    | .error e => .error (.verification e.display)
  | .hashedRekordV002 rekord => .ok rekord.x509Certificate
  | _ => .ok none

/-- Validate that the certificate in Rekor is the one in the bundle; a bundle with a key has none to
compare. -/
def validateCertificateMatch (body : RekorEntryBody) (bundle : Types.Bundle) :
    Except Error Unit :=
  whenSome bundle.signingCertificate fun bundleCert => do
    let rekorCert ← recordedCertificate E body
    whenSome rekorCert fun rekorCertDer => rejectIf (bundleCert ≠ rekorCertDer)
      (.verification "certificate in bundle does not match certificate in Rekor entry")

/-- The signature that a `hashedrekord` entry records. -/
def recordedSignature (body : RekorEntryBody) : Option Bytes :=
  match body with
  | .hashedRekordV001 rekord => some rekord.signatureContent
  | .hashedRekordV002 rekord => some rekord.signatureContent
  | _ => none

/-- Validate that the signature in Rekor is the one in the bundle, the first one of an envelope. -/
def validateSignatureMatch (body : RekorEntryBody) (content : SignatureContent) :
    Except Error Unit :=
  whenSome (recordedSignature body) fun rekorSig =>
    match content with
    | .messageSignature sig => rejectIf (sig.signature ≠ rekorSig)
        (.verification "signature in bundle does not match signature in Rekor entry")
    | .dsseEnvelope envelope => do
      let firstSig ← okOr envelope.signatures.head?
        (.verification "No signatures found in DSSE envelope")
      rejectIf (firstSig.sig ≠ rekorSig)
        (.verification "DSSE signature in bundle does not match signature in Rekor entry")

/-- Validate that the integrated time of a 0.0.1 entry is within the certificate's validity. -/
def validateIntegratedTime (entry : TransparencyLogEntry) (bundle : Types.Bundle) :
    Except Error Unit :=
  whenSome bundle.signingCertificate fun bundleCert =>
    if entry.kindVersion.version = "0.0.1" ∧ entry.integratedTime ≠ 0 then do
      let cert ← (E.x509.fromDer bundleCert).mapError fun e =>
        .verification s!"failed to parse certificate for time validation: {e}"
      let notBefore := cert.notBefore.toInt64
      let notAfter := cert.notAfter.toInt64
      rejectIf (entry.integratedTime < notBefore ∨ entry.integratedTime > notAfter) (.verification
        (s!"integrated time {entry.integratedTime.toInt} is outside certificate validity period " ++
          s!"({notBefore.toInt} to {notAfter.toInt})"))
    else .ok ()

/-- Verify the consistency of a `hashedrekord` entry with the bundle and the artifact. -/
def verifyHashedrekordEntry (entry : TransparencyLogEntry) (bundle : Types.Bundle)
    (artifact : Artifact) : Except Error Unit := do
  let body ← entryBody E entry
  let hash ← contentDigest E bundle.content artifact
  let expected ← recordedDigest E body entry.kindVersion.version
  rejectIf (hash ≠ expected)
    (.verification "artifact hash mismatch for hashedrekord entry")
  validateCertificateMatch E body bundle
  validateSignatureMatch body bundle.content
  validateIntegratedTime E entry bundle

/-- The signature of a bundle that `hashedrekord` entries and timestamps are compared with: its only
one, or the first one of its envelope. -/
def firstSignature : SignatureContent → Option Bytes
  | .messageSignature sig => some sig.signature
  | .dsseEnvelope envelope => envelope.signatures.head?.map DsseSignature.sig

/-- What an accepted `hashedrekord` entry with a given body establishes. -/
structure HashedRekordMatches (bundle : Types.Bundle) (artifact : Artifact) (version : String)
    (body : RekorEntryBody) : Prop where
  digest : ∃ hash, contentDigest E bundle.content artifact = .ok hash ∧
    recordedDigest E body version = .ok hash
  signature : ∃ sig, firstSignature bundle.content = some sig ∧ recordedSignature body = some sig
  certificate : ∀ cert, bundle.signingCertificate = some cert →
    ∃ rekorCert, recordedCertificate E body = .ok rekorCert ∧ ∀ c, rekorCert = some c → c = cert

/-- An entry's body is parsed from the text that it is the encoding of. The source encodes the body
in base64 only to decode it again, which a codec that is its own inverse undoes. -/
theorem entryBody_eq_ok {E : Env} (hC : E.codec.LawfulBase64) {entry : TransparencyLogEntry}
    {body : RekorEntryBody} : entryBody E entry = .ok body ↔
      ∃ text, decodeUtf8 entry.canonicalizedBody = some text ∧
        fromJsonText E.codec entry.kindVersion.kind entry.kindVersion.version text = .ok body := by
  simp only [entryBody, fromBase64Json, bind_eq_ok, mapError_eq_ok, hC.decode_encode,
    Codec.fromUtf8, okOr_eq_ok]
  constructor
  · rintro ⟨bytes, hbytes, text, htext, h⟩
    cases hbytes
    exact ⟨text, htext, h⟩
  · rintro ⟨text, htext, h⟩
    exact ⟨_, rfl, text, htext, h⟩

/-- A body with a digest is a `hashedrekord` body, so it has a signature too. -/
theorem recordedSignature_isSome {body : RekorEntryBody} {version : String} {hash : Sha256Hash}
    (h : recordedDigest E body version = .ok hash) : (recordedSignature body).isSome := by
  cases body with
  | hashedRekordV001 => rfl
  | hashedRekordV002 => rfl
  | dsseV001 => cases h
  | dsseV002 => cases h
  | intotoV002 => cases h

/-- The signature that an accepted `hashedrekord` body records is the first one of the bundle. For
an envelope this is the first of its signatures, whichever of them verifies. -/
theorem validateSignatureMatch_ok {body : RekorEntryBody} {content : SignatureContent} {sig : Bytes}
    (h : validateSignatureMatch body content = .ok ()) (hsig : recordedSignature body = some sig) :
    firstSignature content = some sig := by
  simp only [validateSignatureMatch, whenSome_eq_ok] at h
  have hmatch := h sig hsig
  cases content with
  | messageSignature s =>
    simp only [rejectIf_eq_ok, not_not] at hmatch
    exact congrArg some hmatch
  | dsseEnvelope envelope =>
    simp only [bind_eq_ok, okOr_eq_ok, rejectIf_eq_ok, not_not] at hmatch
    obtain ⟨firstSig, hfirst, heq⟩ := hmatch
    rw [firstSignature, hfirst, Option.map_some, heq]

/-- What an accepted `hashedrekord` entry establishes: its body is parsed, and it has the digest,
the signature and the certificate of the bundle. -/
theorem verifyHashedrekordEntry_ok {entry : TransparencyLogEntry} {bundle : Types.Bundle}
    {artifact : Artifact} (h : verifyHashedrekordEntry E entry bundle artifact = .ok ()) :
    ∃ body, entryBody E entry = .ok body ∧
      HashedRekordMatches E bundle artifact entry.kindVersion.version body := by
  simp only [verifyHashedrekordEntry, bind_eq_ok, rejectIf_eq_ok, not_not] at h
  obtain ⟨body, hbody, hash, hhash, expected, hexpected, _, rfl, _, hcert, _, hsig, -⟩ := h
  obtain ⟨sig, hrecorded⟩ := Option.isSome_iff_exists.1 (recordedSignature_isSome E hexpected)
  refine ⟨body, hbody, ⟨hash, hhash, hexpected⟩, ⟨sig, validateSignatureMatch_ok hsig hrecorded,
    hrecorded⟩, fun cert hbundle => ?_⟩
  simp only [validateCertificateMatch, whenSome_eq_ok, bind_eq_ok, rejectIf_eq_ok, not_not] at hcert
  obtain ⟨rekorCert, hrekor, hmatch⟩ := hcert cert hbundle
  exact ⟨rekorCert, hrekor, fun c hc => (hmatch c hc).symm⟩

end

end Sigstore.Verify
