import Sigstore.Verify.Signatures

/-!
# The verifier of a logged signature

Which verifier the body of a log entry records for a signature (`RecordedUnder`), in the field and
encoding of its kind and version. For a bundle with a certificate, `verify_tlog_consistency`
compares the verifiers of `hashedrekord` 0.0.1 and `dsse` 0.0.1 entries with the certificate, that
of a `hashedrekord` 0.0.2 entry only where it is a certificate, and those of `intoto` 0.0.2 entries
never (`recordedUnder_iff`, `verifyTlogConsistency_bareKey`).
-/

namespace Sigstore.Verify

open Checks Types Crypto Rekor

section
variable (E : Env)

/-- A signature of an `intoto` 0.0.2 body with its verifier in PEM, the member `publicKey`, which
the code does not read. -/
def deIntotoVerifier : Json.De (Bytes × Bytes) :=
  Json.deRecord ["publicKey", "sig"] fun m => do
    let publicKey ← Json.field m "publicKey" E.codec.deBase64
    let sig ← Json.field m "sig" E.codec.deBase64
    return (sig, publicKey)

/-- The signatures of an `intoto` 0.0.2 body that carry a verifier, with their verifiers. -/
def intotoVerifiers (entry : TransparencyLogEntry) : Except String (List (Bytes × Bytes)) := do
  let text ← E.codec.fromUtf8 entry.canonicalizedBody
  let items ← E.codec.fromJson (deOnly "spec" <| deOnly "content" <| deOnly "envelope" <|
    deOnly "signatures" <| Json.deVec Json.deValue) text
  return items.filterMap fun item => (deIntotoVerifier E item).toOption

/-- The body of an `intoto` 0.0.2 entry has a signature with a certificate for its verifier. -/
def IntotoVerifierIs (cert sig : Bytes) (entry : TransparencyLogEntry) : Prop :=
  ∃ verifiers text pem, intotoVerifiers E entry = .ok verifiers ∧ (text, pem) ∈ verifiers ∧
    E.codec.base64DecodeBytes text = .ok sig ∧
    toCertificate E.codec E.primitives pem = .ok cert

/-- The signatures of a content. -/
def contentSignatures : SignatureContent → List Bytes
  | .messageSignature sig => [sig.signature]
  | .dsseEnvelope envelope => envelope.signatures.map DsseSignature.sig

/-- The body of an entry records a signature with a certificate, and nothing else, for its verifier.
-/
inductive RecordedUnder (cert sig : Bytes) (entry : TransparencyLogEntry) : Prop where
  | hashedRekordV001 {rekord : HashedRekordV001Body}
      (body_eq : entryBody E entry = .ok (.hashedRekordV001 rekord))
      (signature : rekord.signatureContent = sig)
      (verifier : toCertificate E.codec E.primitives rekord.publicKeyContent = .ok cert)
  | hashedRekordV002 {rekord : HashedRekordV002Body}
      (body_eq : entryBody E entry = .ok (.hashedRekordV002 rekord))
      (signature : rekord.signatureContent = sig)
      (verifier : rekord.x509Certificate = some cert) (alone : rekord.publicKey = none)
  | dsseV001 {dsse : DsseV001Body} {r : DsseV001Signature}
      (body_eq : entryBody E entry = .ok (.dsseV001 dsse)) (mem : r ∈ dsse.signatures)
      (signature : r.signature = sig)
      (verifier : toCertificate E.codec E.primitives r.verifier = .ok cert)
  | intotoV002 {intoto : IntotoV002Body}
      (body_eq : entryBody E entry = .ok (.intotoV002 intoto))
      (verifier : IntotoVerifierIs E cert sig entry)

/-- Every signature of the bundle that an entry records is recorded under a certificate. -/
def MatchedUnder (cert : Bytes) (bundle : Types.Bundle) (entry : TransparencyLogEntry) : Prop :=
  ∀ sig ∈ contentSignatures bundle.content, Records E entry sig → RecordedUnder E cert sig entry

/-- What the comparisons leave open is in order: the verifier of a `hashedrekord` 0.0.2 body is a
certificate and no key, and the `publicKey` of every signature of the bundle in an `intoto` 0.0.2
body is the certificate. -/
structure VerifiersInOrder (cert : Bytes) (bundle : Types.Bundle) (entry : TransparencyLogEntry) :
    Prop where
  hashedrekord : ∀ rekord, entryBody E entry = .ok (.hashedRekordV002 rekord) →
    rekord.x509Certificate.isSome ∧ rekord.publicKey = none
  intoto : ∀ intoto, entryBody E entry = .ok (.intotoV002 intoto) →
    ∀ sig ∈ contentSignatures bundle.content, sig ∈ recordedSignatures E (.intotoV002 intoto) →
      IntotoVerifierIs E cert sig entry

variable {E}

/-- The first signature of a bundle is one of its signatures. -/
theorem mem_contentSignatures {content : SignatureContent} {sig : Bytes}
    (h : firstSignature content = some sig) : sig ∈ contentSignatures content := by
  cases content with
  | messageSignature s =>
    cases h
    exact List.mem_singleton_self _
  | dsseEnvelope envelope =>
    obtain ⟨s, hs, rfl⟩ := Option.map_eq_some_iff.1 h
    exact List.mem_map.2 ⟨s, List.mem_of_head? hs, rfl⟩

/-- Of bodies of other kinds nothing is left open. -/
theorem VerifiersInOrder.of_body {bundle : Types.Bundle} {cert : Bytes}
    {entry : TransparencyLogEntry} {body : RekorEntryBody} (hbody : entryBody E entry = .ok body)
    (hrekord : ∀ rekord, body ≠ .hashedRekordV002 rekord)
    (hintoto : ∀ intoto, body ≠ .intotoV002 intoto) : VerifiersInOrder E cert bundle entry where
  hashedrekord := fun rekord h => absurd (Except.ok.inj (hbody.symm.trans h)) (hrekord rekord)
  intoto := fun intoto h => absurd (Except.ok.inj (hbody.symm.trans h)) (hintoto intoto)

/-- A `hashedrekord` 0.0.1 body records a certificate: what cannot be read as one is an error. A
public key in its place ends the verification. -/
theorem recordedCertificate_v001 {rekord : HashedRekordV001Body} {rekorCert : Option Bytes}
    (h : recordedCertificate E (.hashedRekordV001 rekord) = .ok rekorCert) :
    ∃ cert, toCertificate E.codec E.primitives rekord.publicKeyContent = .ok cert ∧
      rekorCert = some cert := by
  unfold recordedCertificate at h
  cases hcert : toCertificate E.codec E.primitives rekord.publicKeyContent with
  | ok cert =>
    simp only [hcert] at h
    exact ⟨cert, rfl, (Except.ok.inj h).symm⟩
  | error e =>
    simp only [hcert] at h
    cases h

/-- What is left open of a `hashedrekord` body that matches the bundle is whether its verifier is a
certificate. -/
theorem matchedUnder_iff_of_hashedRekord {bundle : Types.Bundle} {artifact : Artifact}
    {version : String} {cert : Bytes} {entry : TransparencyLogEntry} {body : RekorEntryBody}
    (hcert : bundle.signingCertificate = some cert) (hbody : entryBody E entry = .ok body)
    (hmatch : HashedRekordMatches E bundle artifact version body) :
    MatchedUnder E cert bundle entry ↔ VerifiersInOrder E cert bundle entry := by
  obtain ⟨rekorCert, hrekor, heq⟩ := hmatch.certificate cert hcert
  obtain ⟨hash, -, hdigest⟩ := hmatch.digest
  cases body with
  | hashedRekordV001 rekord =>
    refine iff_of_true ?_ (.of_body hbody (fun _ h => by cases h) fun _ h => by cases h)
    intro sig _ hrecords
    obtain rfl := List.mem_singleton.1 ((records_iff_of_body hbody).1 hrecords)
    obtain ⟨c, hc, rfl⟩ := recordedCertificate_v001 hrekor
    exact .hashedRekordV001 hbody rfl (heq c rfl ▸ hc)
  | hashedRekordV002 rekord =>
    obtain ⟨sig, hfirst, hsig⟩ := hmatch.signature
    have hrecords : Records E entry sig :=
      ⟨_, hbody, by rw [recordedSignatures_of_recordedSignature hsig]; exact List.mem_cons_self⟩
    constructor
    · intro hunder
      cases hunder sig (mem_contentSignatures hfirst) hrecords with
      | hashedRekordV001 body_eq => cases hbody.symm.trans body_eq
      | hashedRekordV002 body_eq _ verifier alone =>
        constructor
        · intro rekord' hbody'
          cases body_eq.symm.trans hbody'
          exact ⟨by rw [verifier]; rfl, alone⟩
        · intro intoto hbody'
          cases hbody.symm.trans hbody'
      | dsseV001 body_eq => cases hbody.symm.trans body_eq
      | intotoV002 body_eq => cases hbody.symm.trans body_eq
    · intro horder sig' _ hrecords'
      obtain rfl := List.mem_singleton.1 ((records_iff_of_body hbody).1 hrecords')
      obtain ⟨hsome, hnone⟩ := horder.hashedrekord rekord hbody
      obtain ⟨c, hc⟩ := Option.isSome_iff_exists.1 hsome
      cases hrekor
      exact .hashedRekordV002 hbody rfl (heq c hc ▸ hc) hnone
  | dsseV001 => cases hdigest
  | dsseV002 => cases hdigest
  | intotoV002 => cases hdigest

/-- Nothing is left open of a `dsse` body that matches the bundle. Its verifiers are compared with
the certificate signature by signature, and each of the bundle's signatures has to be found. -/
theorem matchedUnder_of_dsse {bundle : Types.Bundle} {envelope : DsseEnvelope} {cert : Bytes}
    {entry : TransparencyLogEntry} {body : DsseV001Body}
    (hcontent : bundle.content = .dsseEnvelope envelope)
    (hcert : bundle.signingCertificate = some cert)
    (hbody : entryBody E entry = .ok (.dsseV001 body))
    (hmatch : DsseMatches E bundle envelope body) :
    MatchedUnder E cert bundle entry := by
  intro sig hsig _
  rw [hcontent] at hsig
  obtain ⟨s, hs, rfl⟩ := List.mem_map.1 hsig
  obtain ⟨r, hr, heq, hverifier⟩ := hmatch.signatures s hs
  exact .dsseV001 hbody hr heq (hverifier cert hcert)

/-- Everything is left open of an `intoto` body. The signatures are compared without their keys, so
that nothing about their verifiers has been checked. -/
theorem matchedUnder_iff_of_intoto {bundle : Types.Bundle} {cert : Bytes}
    {entry : TransparencyLogEntry} {body : IntotoV002Body}
    (hbody : entryBody E entry = .ok (.intotoV002 body)) :
    MatchedUnder E cert bundle entry ↔ VerifiersInOrder E cert bundle entry := by
  constructor
  · intro hunder
    constructor
    · intro rekord hbody'
      cases hbody.symm.trans hbody'
    · intro intoto hbody' sig hsig hrecorded
      cases hunder sig hsig ⟨_, hbody', hrecorded⟩ with
      | hashedRekordV001 body_eq => cases hbody.symm.trans body_eq
      | hashedRekordV002 body_eq => cases hbody.symm.trans body_eq
      | dsseV001 body_eq => cases hbody.symm.trans body_eq
      | intotoV002 _ verifier => exact verifier
  · intro horder sig hsig hrecords
    exact .intotoV002 hbody
      (horder.intoto body hbody sig hsig ((records_iff_of_body hbody).1 hrecords))

end

section
variable (E : Env)

/-- **When logged signatures are recorded under the certificate.** In every bundle with a
certificate that `verify_tlog_consistency` accepts, all entries record the signatures of the bundle
under that certificate if and only if what the comparisons leave open is in order. -/
theorem matchedUnder_iff {bundle : Types.Bundle} {artifact : Artifact} {cert : Bytes}
    (hcert : bundle.signingCertificate = some cert)
    (h : verifyTlogConsistency E bundle artifact = .ok ()) :
    (∀ entry ∈ bundle.tlogEntries, MatchedUnder E cert bundle entry) ↔
      ∀ entry ∈ bundle.tlogEntries, VerifiersInOrder E cert bundle entry := by
  refine forall₂_congr fun entry hentry => ?_
  cases verifyTlogConsistency_ok E h entry hentry with
  | message _ _ _ body_eq matches_ => exact matchedUnder_iff_of_hashedRekord hcert body_eq matches_
  | envelope _ _ body_eq matches_ => exact matchedUnder_iff_of_hashedRekord hcert body_eq matches_
  | dsse content_eq _ body_eq matches_ =>
    exact iff_of_true (matchedUnder_of_dsse content_eq hcert body_eq matches_)
      (.of_body body_eq (fun _ h => by cases h) fun _ h => by cases h)
  | intoto _ _ body_eq => exact matchedUnder_iff_of_intoto body_eq

end

namespace Sample

/-- The bundle with the signature of the artifact, logged under a bare key. -/
def bareKey : Types.Bundle :=
  bundle (promisedEntry "0.0.2" (document bareKeyBody) 0) [timestamp (sign 1 artifact)] message

/-- The entry with a bare key for its verifier is parsed. -/
theorem entryBody_bareKey :
    entryBody env (promisedEntry "0.0.2" (document bareKeyBody) 0) =
      .ok (.hashedRekordV002 {
        digest := (sha256 artifact).bytes
        signatureContent := sign 1 artifact
        x509Certificate := none
        publicKey := some (keyDer 1) }) :=
  entryBody_document [statement, messageBody] _ rfl rfl rfl (by decide +kernel)

end Sample

/-- The signed artifact of the deployment is logged under its certificate. The entry's body has the
certificate for its verifier, which the condition asks for. -/
theorem matchedUnder_iff_signed :
    MatchedUnder Sample.env (Sample.certDer 1) Sample.signed
      (Sample.promisedEntry "0.0.2" (Sample.document Sample.messageBody) 1700000000) := by
  obtain ⟨_, _, _, _, hv⟩ := verify_ok Sample.env Sample.root Sample.verify_signed
  refine (matchedUnder_iff Sample.env rfl (hv.consistent rfl)).2 (fun entry hentry => ?_) _
    List.mem_cons_self
  obtain rfl := List.mem_singleton.1 hentry
  constructor
  · intro rekord hbody
    cases (Sample.entryBody_signed _).symm.trans hbody
    exact ⟨rfl, rfl⟩
  · intro intoto hbody
    cases (Sample.entryBody_signed _).symm.trans hbody

/-- A signature that is logged under a bare key is accepted from a bundle with a certificate. The
body's hash, signature and time are the bundle's, and only the verifier is not. -/
theorem verifyTlogConsistency_bareKey :
    verifyTlogConsistency Sample.env Sample.bareKey (.bytes Sample.artifact) = .ok () ∧
    Sample.bareKey.signingCertificate = some (Sample.certDer 1) ∧
    ¬ ∀ entry ∈ Sample.bareKey.tlogEntries,
      MatchedUnder Sample.env (Sample.certDer 1) Sample.bareKey entry := by
  have hbody := Sample.entryBody_bareKey
  refine ⟨Sample.verifyTlogConsistency_hashedrekord rfl rfl rfl hbody rfl rfl
    (fun _ h => by cases h) rfl, rfl, fun hunder => ?_⟩
  cases hunder _ List.mem_cons_self (Sample.sign 1 Sample.artifact) List.mem_cons_self
    ⟨_, hbody, List.mem_cons_self⟩ with
  | hashedRekordV001 body_eq => cases hbody.symm.trans body_eq
  | hashedRekordV002 body_eq _ verifier =>
    cases hbody.symm.trans body_eq
    cases verifier
  | dsseV001 body_eq => cases hbody.symm.trans body_eq
  | intotoV002 body_eq => cases hbody.symm.trans body_eq

end Sigstore.Verify
