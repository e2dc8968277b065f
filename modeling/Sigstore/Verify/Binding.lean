import Sigstore.Verify.Deployment

/-!
# The artifact is bound to the key

What it means that a bundle's content binds an artifact to a public key (`ArtifactBound`): a message
signature over the artifact, or a signed in-toto statement about it. The content checks of `verify`
and `verify_with_key` accept exactly such contents (`verifyContent_eq_ok`,
`verifyContentWithKey_eq_ok`), and no flag of a policy skips them (`verify_artifactBound`).
-/

namespace Sigstore.Verify

open Checks Types Crypto TrustRoot

section
variable (E : Env)

/-- The digest of bytes with an algorithm. -/
def digestWith (algo : HashAlgorithm) (bytes : Bytes) : Bytes :=
  match algo with
  | .sha2256 => (E.primitives.sha256 bytes).bytes
  | .sha2384 => E.primitives.sha384 bytes
  | .sha2512 => E.primitives.sha512 bytes

/-- The digest of an artifact with an algorithm: a digest that is given is its own, if it has the
size. -/
inductive DigestOf (algo : HashAlgorithm) : Artifact → Bytes → Prop where
  | bytes (bytes : Bytes) : DigestOf algo (.bytes bytes) (digestWith E algo bytes)
  | digest {hash : Bytes} (size : hash.length = algo.digestSize) : DigestOf algo (.digest hash) hash

/-- A signature over an artifact under a key: over its bytes, or over its digest. -/
inductive SignedOver (publicKey signature : Bytes) (scheme : SigningScheme) : Artifact → Prop where
  | bytes {bytes : Bytes} (valid : SignatureValid E.primitives publicKey bytes signature scheme) :
      SignedOver publicKey signature scheme (.bytes bytes)
  | digest {hash : Bytes}
      (valid : DigestSignatureValid E.primitives publicKey hash signature scheme) :
      SignedOver publicKey signature scheme (.digest hash)

/-- An envelope's payload is an in-toto statement with the artifact among its subjects. -/
structure StatementAbout (artifact : Artifact) (envelope : DsseEnvelope) : Prop where
  payloadType : envelope.payloadType = "application/vnd.in-toto+json"
  subject : ∃ hash : Sha256Hash, DigestOf E .sha2256 artifact hash.bytes ∧
    ∃ text statement, decodeUtf8 envelope.payload = some text ∧
      E.codec.fromJson Statement.de text = .ok statement ∧
      ∃ s ∈ statement.subject, s.sha256 = some hash.toHex

/-- A content binds an artifact to a key with a scheme. -/
inductive ArtifactBound (publicKey : Bytes) (scheme : SigningScheme) (artifact : Artifact) :
    SignatureContent → Prop where
  | message {sig : MessageSignature}
      (declared : ∀ d, sig.messageDigest = some d → DigestOf E d.algorithm artifact d.digest)
      (signed : SignedOver E publicKey sig.signature scheme artifact) :
      ArtifactBound publicKey scheme artifact (.messageSignature sig)
  | envelope {envelope : DsseEnvelope}
      (signed : ∃ s ∈ envelope.signatures,
        SignatureValid E.primitives publicKey envelope.pae s.sig scheme)
      (about : StatementAbout E artifact envelope) :
      ArtifactBound publicKey scheme artifact (.dsseEnvelope envelope)

/-- The scheme that a content is signed with under a key of an algorithm. -/
inductive SchemeFor (key : KeyAlgorithm) : SignatureContent → SigningScheme → Prop where
  | declared {sig : MessageSignature} {d : MessageDigest} {scheme : SigningScheme}
      (digest_eq : sig.messageDigest = some d)
      (resolved : key.resolveSigningScheme d.algorithm = .ok scheme) :
      SchemeFor key (.messageSignature sig) scheme
  | undeclared {sig : MessageSignature} (digest_eq : sig.messageDigest = none) :
      SchemeFor key (.messageSignature sig) key.defaultSigningScheme
  | envelope (envelope : DsseEnvelope) :
      SchemeFor key (.dsseEnvelope envelope) key.defaultSigningScheme

variable {E}

/-! ## The checks, one by one -/

/-- `compute_artifact_digest_algo` computes the digest of an artifact, or returns the given one
where its length is the algorithm's. -/
theorem computeArtifactDigestAlgo_eq_ok {artifact : Artifact} {algo : HashAlgorithm} {d : Bytes} :
    computeArtifactDigestAlgo E artifact algo = .ok d ↔ DigestOf E algo artifact d := by
  cases artifact with
  | bytes bytes =>
    have hdigest :
        computeArtifactDigestAlgo E (.bytes bytes) algo = .ok (digestWith E algo bytes) := by
      cases algo <;> rfl
    rw [hdigest]
    constructor
    · intro h
      cases h
      exact .bytes bytes
    · intro h
      cases h
      rfl
  | digest hash =>
    simp only [computeArtifactDigestAlgo]
    by_cases hsize : hash.length = algo.digestSize
    · rw [if_neg (not_not.2 hsize)]
      constructor
      · intro h
        cases h
        exact .digest hsize
      · intro h
        cases h
        rfl
    · rw [if_pos hsize]
      constructor
      · intro h
        cases h
      · intro h
        cases h with
        | digest size => exact absurd size hsize

/-- The message digest of a signature, where it has one, is accepted exactly where it is that of the
artifact. -/
theorem checkMessageDigest_eq_ok {sig : MessageSignature} {artifact : Artifact} {u : Unit} :
    checkMessageDigest E sig artifact = .ok u ↔
      ∀ d, sig.messageDigest = some d → DigestOf E d.algorithm artifact d.digest := by
  simp only [checkMessageDigest, whenSome_eq_ok, bind_eq_ok, rejectIf_eq_ok, not_not,
    computeArtifactDigestAlgo_eq_ok]
  refine forall₂_congr fun d _ => ⟨?_, fun h => ⟨_, h, rfl⟩⟩
  rintro ⟨hash, hdigest, heq⟩
  exact heq ▸ hdigest

/-- `verify_signature_over_artifact` accepts exactly the valid signatures over the artifact, or over
its digest where only that is given. -/
theorem verifySignatureOverArtifact_eq_ok {publicKey signature : Bytes} {scheme : SigningScheme}
    {artifact : Artifact} :
    verifySignatureOverArtifact E publicKey scheme signature artifact = .ok () ↔
      SignedOver E publicKey signature scheme artifact := by
  cases artifact with
  | bytes bytes =>
    simp only [verifySignatureOverArtifact, mapError_eq_ok, verifySignature_eq_ok]
    constructor
    · exact .bytes
    · intro h
      cases h with
      | bytes valid => exact valid
  | digest hash =>
    unfold verifySignatureOverArtifact
    by_cases hscheme : scheme.supportsPrehashed = false
    · simp only [if_pos hscheme, reduceCtorEq, false_iff]
      intro h
      cases h with
      | digest valid =>
        obtain ⟨-, algo, -, hprehash, -⟩ := valid
        rw [supportsPrehashed_of_prehash hprehash] at hscheme
        cases hscheme
    · simp only [if_neg hscheme, mapError_eq_ok, verifySignaturePrehashed_eq_ok]
      constructor
      · exact .digest
      · intro h
        cases h with
        | digest valid => exact valid

/-- A statement matches a digest where one of its subjects has it. -/
theorem matchesSha256_eq_true {statement : Statement} {hashHex : String} :
    statement.matchesSha256 hashHex = true ↔
      ∃ s ∈ statement.subject, s.sha256 = some hashHex := by
  simp only [Statement.matchesSha256, List.any_eq_true]
  refine exists_congr fun s => and_congr_right fun _ => ?_
  cases s.sha256 <;> simp

theorem sha256FromSlice_eq_ok {bs : Bytes} {hash : Sha256Hash} :
    Codec.sha256FromSlice bs = .ok hash ↔ hash.bytes = bs := by
  simp only [Codec.sha256FromSlice, mapError_eq_ok, Sha256Hash.tryFromSlice]
  constructor
  · intro h
    split at h
    · cases h
      rfl
    · cases h
  · rintro rfl
    rw [dif_pos hash.length_bytes]

/-- `verify_dsse_artifact_binding` accepts exactly the envelopes with a statement about the
artifact. -/
theorem verifyDsseArtifactBinding_eq_ok {envelope : DsseEnvelope} {artifact : Artifact} :
    verifyDsseArtifactBinding E envelope artifact = .ok () ↔
      StatementAbout E artifact envelope := by
  simp only [verifyDsseArtifactBinding, bind_eq_ok, mapError_eq_ok, rejectIf_eq_ok, not_not,
    computeArtifactDigestAlgo_eq_ok, sha256FromSlice_eq_ok, Codec.fromUtf8, okOr_eq_ok,
    Bool.not_eq_false, matchesSha256_eq_true]
  constructor
  · rintro ⟨_, htype, _, hdigest, hash, rfl, text, htext, statement, hparse, -, -, hsubject⟩
    exact ⟨htype, hash, hdigest, text, statement, htext, hparse, hsubject⟩
  · rintro ⟨htype, hash, hdigest, text, statement, htext, hparse, s, hs, hsubject⟩
    exact ⟨(), htype, _, hdigest, hash, rfl, text, htext, statement, hparse, (),
      List.ne_nil_of_mem hs, s, hs, hsubject⟩

/-- A signature of an envelope verifies exactly where it is valid over the envelope's
pre-authentication encoding. -/
theorem signatureVerifies_eq_true {publicKey : Bytes} {scheme : SigningScheme}
    {envelope : DsseEnvelope} {s : DsseSignature} :
    signatureVerifies E publicKey scheme envelope s = true ↔
      SignatureValid E.primitives publicKey envelope.pae s.sig scheme := by
  rw [← verifySignature_eq_ok, signatureVerifies]
  cases verifySignature E.primitives publicKey envelope.pae s.sig scheme <;>
    simp [Except.isOk, Except.toBool]

/-! ## The content -/

/-- An envelope is accepted exactly where a signature of it is valid and its statement is about the
artifact. -/
theorem verifyEnvelope_eq_ok {publicKey : Bytes} {scheme : SigningScheme} {envelope : DsseEnvelope}
    {artifact : Artifact} :
    verifyEnvelope E publicKey scheme envelope artifact = .ok () ↔
      ArtifactBound E publicKey scheme artifact (.dsseEnvelope envelope) := by
  simp only [verifyEnvelope, bind_eq_ok, rejectIf_eq_ok, Bool.not_eq_false, List.any_eq_true,
    signatureVerifies_eq_true, verifyDsseArtifactBinding_eq_ok]
  constructor
  · rintro ⟨_, hsigned, habout⟩
    exact .envelope hsigned habout
  · intro h
    cases h with
    | envelope hsigned habout => exact ⟨(), hsigned, habout⟩

/-- A content is accepted with a given key exactly where it binds the artifact to it. Nothing but
the content is read, which is the form in which other results use it. -/
theorem verifyContentWithKey_eq_ok {publicKey : Bytes} {scheme : SigningScheme}
    {artifact : Artifact} {content : SignatureContent} :
    verifyContentWithKey E publicKey scheme artifact content = .ok () ↔
      ArtifactBound E publicKey scheme artifact content := by
  cases content with
  | messageSignature sig =>
    simp only [verifyContentWithKey, bind_eq_ok, checkMessageDigest_eq_ok,
      verifySignatureOverArtifact_eq_ok]
    constructor
    · rintro ⟨_, hdeclared, hsigned⟩
      exact .message hdeclared hsigned
    · intro h
      cases h with
      | message hdeclared hsigned => exact ⟨(), hdeclared, hsigned⟩
  | dsseEnvelope envelope => exact verifyEnvelope_eq_ok

/-- The scheme of a message signature is the one that the key and the digest algorithm select.
Without a declared digest the key alone selects it. -/
theorem messageScheme_eq_ok {key : KeyAlgorithm} {sig : MessageSignature}
    {scheme : SigningScheme} :
    messageScheme key sig = .ok scheme ↔ SchemeFor key (.messageSignature sig) scheme := by
  unfold messageScheme
  cases hdigest : sig.messageDigest with
  | none =>
    constructor
    · intro h
      cases h
      exact .undeclared hdigest
    · intro h
      cases h with
      | declared digest_eq => rw [hdigest] at digest_eq; cases digest_eq
      | undeclared => rfl
  | some d =>
    rw [mapError_eq_ok]
    constructor
    · exact .declared hdigest
    · intro h
      cases h with
      | declared digest_eq resolved => rw [hdigest] at digest_eq; cases digest_eq; exact resolved
      | undeclared digest_eq => rw [hdigest] at digest_eq; cases digest_eq

/-- A content is accepted with a certificate exactly where it binds the artifact to the
certificate's key, with the scheme of that key and content. -/
theorem verifyContent_eq_ok {info : CertificateInfo} {artifact : Artifact}
    {content : SignatureContent} :
    verifyContent E info artifact content = .ok () ↔
      ∃ scheme, SchemeFor info.keyAlgorithm content scheme ∧
        ArtifactBound E info.publicKey scheme artifact content := by
  cases content with
  | messageSignature sig =>
    simp only [verifyContent, verifyMessageSignatureCrypto, bind_eq_ok, messageScheme_eq_ok,
      checkMessageDigest_eq_ok, verifySignatureOverArtifact_eq_ok]
    constructor
    · rintro ⟨_, hdeclared, scheme, hscheme, hsigned⟩
      exact ⟨scheme, hscheme, .message hdeclared hsigned⟩
    · rintro ⟨scheme, hscheme, hbound⟩
      cases hbound with
      | message hdeclared hsigned => exact ⟨(), hdeclared, scheme, hscheme, hsigned⟩
  | dsseEnvelope envelope =>
    rw [verifyContent, verifyEnvelope_eq_ok]
    constructor
    · intro hbound
      exact ⟨_, .envelope envelope, hbound⟩
    · rintro ⟨scheme, hscheme, hbound⟩
      cases hscheme with
      | envelope => exact hbound

end

section
variable (E : Env) (root : TrustedRoot)

/-- **The artifact is bound to the signing certificate.** Whatever the policy, a success of `verify`
means that the bundle's content binds the artifact to the key of its certificate, with the scheme of
that key and content, and that the certificate has the identity and the issuer that are required. -/
theorem verify_artifactBound {artifact : Artifact} {bundle : Types.Bundle}
    {policy : VerificationPolicy} {result : VerificationResult}
    (h : verify E root artifact bundle policy = .ok result) :
    ∃ cert info scheme, bundle.signingCertificate = some cert ∧
      parseCertificateInfo E.x509 cert = .ok info ∧
      SchemeFor info.keyAlgorithm bundle.content scheme ∧
      ArtifactBound E info.publicKey scheme artifact bundle.content ∧
      (∀ identity, policy.identity = some identity → info.identity = some identity) ∧
      (∀ issuer, policy.issuer = some issuer → info.issuer = some issuer) := by
  obtain ⟨cert, info, signature, time, hv⟩ := verify_ok E root h
  obtain ⟨scheme, hscheme, hbound⟩ := verifyContent_eq_ok.1 hv.content
  exact ⟨cert, info, scheme, hv.certificate, hv.info, hscheme, hbound, hv.identity, hv.issuer⟩

/-- The signed artifact of the deployment, for a caller that knows the signer. That caller requires
the identity of the certificate, as any policy may. -/
theorem verify_artifactBound_signed :
    ∃ info scheme, parseCertificateInfo Sample.x509 (Sample.certDer 1) = .ok info ∧
      ArtifactBound Sample.env info.publicKey scheme (.bytes Sample.artifact) Sample.message ∧
      info.identity = some "signer@example.com" ∧ info.issuer = some Sample.issuerUrl := by
  obtain ⟨cert, info, scheme, hcert, hinfo, -, hbound, hidentity, hissuer⟩ :=
    verify_artifactBound Sample.env Sample.root Sample.verify_signed
  cases hcert
  exact ⟨info, scheme, hinfo, hbound, hidentity _ rfl, hissuer _ rfl⟩

/-- A success of `verify_with_key` means that the bundle's content binds the artifact to the key. -/
theorem verifyWithKey_artifactBound {artifact : Artifact} {bundle : Types.Bundle}
    {publicKey : Bytes} {result : VerificationResult}
    (h : verifyWithKey E root artifact bundle publicKey = .ok result) :
    ∃ scheme, keyScheme E publicKey = .ok scheme ∧
      ArtifactBound E publicKey scheme artifact bundle.content := by
  obtain ⟨scheme, hv⟩ := verifyWithKey_ok E root h
  exact ⟨scheme, hv.scheme_eq, verifyContentWithKey_eq_ok.1 hv.content⟩

end

end Sigstore.Verify
