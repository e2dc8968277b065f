import Sigstore.Verify.DigestMode

/-!
# A managed key and a certificate for it

Verification under a given key repeats what verification with log verification does under the
certificate's key (`verifyWithKey_of_verified`), but for the signing scheme: the one is fixed by the
key, the other is resolved from the declared digest (`contentScheme`). So what is accepted with a
P-256 or Ed25519 certificate is accepted with its key, unless the two schemes differ, which happens
for a declared SHA-384 digest (`verifyWithKey_iff`).
-/

namespace Sigstore.Verify

open Checks Types Crypto TrustRoot Bundle

/-- A public key is decoded with the algorithm that it was encoded with. -/
def KeepsAlgorithm (E : Env) : Prop :=
  ∀ key der spki, E.x509.spkiToDer key = .ok der → E.primitives.spki der = .ok spki →
    spki.algorithmOid = key.algorithmOid

/-- The scheme of a content under a key: the declared digest's for a message signature, and the
key's own for an envelope. -/
def contentScheme (key : KeyAlgorithm) : SignatureContent → Except Error SigningScheme
  | .messageSignature msgSig => messageScheme key msgSig
  | .dsseEnvelope _ => .ok key.defaultSigningScheme

section
variable {E : Env} {root : TrustedRoot} {artifact : Artifact} {info : CertificateInfo}

/-! ## The content -/

/-- A content is verified under a certificate as under its key with the content's scheme. The two
entry points share what follows the choice of the scheme, and this is where they part. -/
theorem verifyContent_withKey_iff {content : SignatureContent} :
    verifyContent E info artifact content = .ok () ↔
      ∃ scheme, contentScheme info.keyAlgorithm content = .ok scheme ∧
        verifyContentWithKey E info.publicKey scheme artifact content = .ok () := by
  cases content with
  | dsseEnvelope envelope =>
    constructor
    · intro h
      exact ⟨_, rfl, h⟩
    · rintro ⟨scheme, hscheme, h⟩
      cases hscheme
      exact h
  | messageSignature msgSig =>
    simp only [verifyContent, verifyContentWithKey, verifyMessageSignatureCrypto, contentScheme,
      bind_eq_ok]
    constructor
    · rintro ⟨_, hdigest, scheme, hscheme, hsig⟩
      exact ⟨scheme, hscheme, _, hdigest, hsig⟩
    · rintro ⟨scheme, hscheme, _, hdigest, hsig⟩
      exact ⟨_, hdigest, scheme, hscheme, hsig⟩

/-- A key that something is verified under can be decoded. The key is decoded before anything is
verified under it, in both kinds of content. -/
theorem spki_of_verifyContentWithKey {publicKey : Bytes} {scheme : SigningScheme}
    {content : SignatureContent}
    (h : verifyContentWithKey E publicKey scheme artifact content = .ok ()) :
    ∃ spki, E.primitives.spki publicKey = .ok spki := by
  cases content with
  | messageSignature msgSig =>
    obtain ⟨_, -, hsig⟩ := bind_eq_ok.1 h
    cases artifact with
    | bytes bytes =>
      obtain ⟨spki, hspki, -⟩ := verifySignatureOverArtifact_bytes.1 hsig
      exact ⟨spki, hspki⟩
    | digest digest =>
      obtain ⟨spki, _, hspki, -⟩ := verifySignatureOverArtifact_digest.1 hsig
      exact ⟨spki, hspki⟩
  | dsseEnvelope envelope =>
    simp only [verifyContentWithKey, verifyEnvelope, bind_eq_ok, rejectIf_eq_ok,
      Bool.not_eq_false, List.any_eq_true, signatureVerifies] at h
    obtain ⟨_, ⟨sig, -, hok⟩, -⟩ := h
    obtain ⟨_, hsig⟩ := isOk_iff.1 hok
    obtain ⟨spki, hspki, -⟩ := verifySignature_eq_ok.1 hsig
    exact ⟨spki, hspki⟩

/-! ## The key -/

/-- The algorithm of a certificate's key is that of its identifier. The curve of an elliptic key is
read as well, which is not needed here. -/
theorem determineKeyAlgorithm_ok {X : X509} {key : CertificateKey} {algorithm : KeyAlgorithm}
    (h : determineKeyAlgorithm X key = .ok algorithm) :
    (algorithm = .ecdsaP256 → key.algorithmOid = idEcPublicKey) ∧
    (algorithm = .ed25519 → key.algorithmOid = idEd25519) := by
  unfold determineKeyAlgorithm at h
  split at h
  · next hec =>
    refine ⟨fun _ => hec, ?_⟩
    rintro rfl
    split at h
    · obtain ⟨curve, -, h⟩ := bind_eq_ok.1 h
      split at h
      · cases h
      · split at h <;> cases h
    · cases h
  · split at h
    · cases h
      exact ⟨nofun, nofun⟩
    · split at h
      · next hed =>
        cases h
        exact ⟨nofun, fun _ => hed⟩
      · cases h

/-- The scheme that is fixed for the key of a P-256 or an Ed25519 certificate is the default one.
The certificate's key is encoded and decoded again on the way, which is where the encoder has to
keep the algorithm. -/
theorem keyScheme_of_certificate (hkeeps : KeepsAlgorithm E) {cert : Bytes}
    (hinfo : parseCertificateInfo E.x509 cert = .ok info)
    (hkey : info.keyAlgorithm = .ecdsaP256 ∨ info.keyAlgorithm = .ed25519)
    {spki : SubjectPublicKeyInfo} (hspki : E.primitives.spki info.publicKey = .ok spki) :
    keyScheme E info.publicKey = .ok info.keyAlgorithm.defaultSigningScheme := by
  simp only [parseCertificateInfo, bind_eq_ok, mapError_eq_ok, pure_eq_ok] at hinfo
  obtain ⟨certificate, -, der, hder, algorithm, halgorithm, _, -, _, -, rfl⟩ := hinfo
  have hoid := hkeeps _ _ _ hder hspki
  obtain ⟨hec, hed⟩ := determineKeyAlgorithm_ok halgorithm
  have hne : idEcPublicKey ≠ idEd25519 := by decide
  dsimp only at hspki hkey ⊢
  unfold keyScheme detectKeyType
  rw [hspki]
  dsimp only
  rcases hkey with rfl | rfl
  · rw [hoid, hec rfl, if_neg hne, if_pos rfl]
    rfl
  · rw [hoid, hed rfl, if_pos rfl]
    rfl

/-! ## The two verifications -/

/-- What is verified with a certificate is verified with its key where the content is. All that is
checked besides the content is among what the first verification has checked. -/
theorem verifyWithKey_of_verified {bundle : Types.Bundle} {policy : VerificationPolicy}
    {cert signature : Bytes} {time : Int64} {scheme : SigningScheme}
    (hv : Verified E root artifact bundle policy cert info signature time)
    (hflag : policy.verifyTlog = true) (hscheme : keyScheme E info.publicKey = .ok scheme) :
    (∃ result, verifyWithKey E root artifact bundle info.publicKey = .ok result) ↔
      verifyContentWithKey E info.publicKey scheme artifact bundle.content = .ok () := by
  constructor
  · rintro ⟨result, h⟩
    obtain ⟨scheme', hk⟩ := verifyWithKey_ok E root h
    cases hscheme.symm.trans hk.scheme_eq
    exact hk.content
  · intro hcontent
    have hvalid := hv.validated
    rw [hflag] at hvalid
    simp only [verifyWithKey, bind_eq_ok, mapError_eq_ok, pure_eq_ok]
    exact ⟨_, (), hvalid, scheme, hscheme, (),
      (verifyEntriesInclusion_eq_ok E root).2 (hv.entries hflag), (), hcontent, (),
      hv.consistent hflag, rfl⟩

/-- A message signature under a P-256 key that declares a SHA-384 digest is also one over SHA-256,
of an artifact given by its bytes. -/
def AlsoOverSha256 (E : Env) (info : CertificateInfo) (artifact : Artifact)
    (content : SignatureContent) : Prop :=
  info.keyAlgorithm = .ecdsaP256 → ∀ msgSig digest, content = .messageSignature msgSig →
    msgSig.messageDigest = some digest → digest.algorithm = .sha2384 →
    ∃ bytes, artifact = .bytes bytes ∧
      SignatureValid E.primitives info.publicKey bytes msgSig.signature .ecdsaP256Sha256

/-- Of the schemes that are resolved for P-256 and Ed25519, only the one for SHA-384 is not the
key's default. -/
theorem contentScheme_cases {key : KeyAlgorithm} (hkey : key = .ecdsaP256 ∨ key = .ed25519)
    {content : SignatureContent} {scheme : SigningScheme}
    (h : contentScheme key content = .ok scheme) :
    scheme = key.defaultSigningScheme ∨
    key = .ecdsaP256 ∧ ∃ msgSig digest, content = .messageSignature msgSig ∧
      msgSig.messageDigest = some digest ∧ digest.algorithm = .sha2384 := by
  cases content with
  | dsseEnvelope envelope =>
    cases h
    exact .inl rfl
  | messageSignature msgSig =>
    have h : messageScheme key msgSig = .ok scheme := h
    unfold messageScheme at h
    cases hdigest : msgSig.messageDigest with
    | none =>
      rw [hdigest] at h
      cases h
      exact .inl rfl
    | some digest =>
      rw [hdigest] at h
      have hresolve := mapError_eq_ok.1 h
      rcases hkey with rfl | rfl
      · cases halgo : digest.algorithm with
        | sha2256 =>
          rw [halgo] at hresolve
          cases hresolve
          exact .inl rfl
        | sha2384 => exact .inr ⟨rfl, msgSig, digest, rfl, hdigest, halgo⟩
        | sha2512 =>
          rw [halgo] at hresolve
          cases hresolve
      · cases hresolve
        exact .inl rfl

/-- A digest of the size of SHA-384 is not verified with SHA-256. The scheme that is fixed for a
P-256 key hashes with SHA-256, and a digest of another size is refused for it, so that the artifact
must be there in full. -/
theorem verifyContentWithKey_sha384 {publicKey : Bytes} {msgSig : MessageSignature}
    {digest : MessageDigest} (hdigest : msgSig.messageDigest = some digest)
    (halgo : digest.algorithm = .sha2384)
    (h : verifyContentWithKey E publicKey .ecdsaP256Sha256 artifact (.messageSignature msgSig) =
      .ok ()) :
    ∃ bytes, artifact = .bytes bytes ∧
      SignatureValid E.primitives publicKey bytes msgSig.signature .ecdsaP256Sha256 := by
  obtain ⟨_, hcheck, hsig⟩ := bind_eq_ok.1 h
  cases artifact with
  | bytes bytes => exact ⟨bytes, rfl, verifySignatureOverArtifact_bytes.1 hsig⟩
  | digest hash =>
    exfalso
    obtain ⟨_, algo, -, hprehash, hlength, -⟩ := verifySignatureOverArtifact_digest.1 hsig
    cases hprehash
    obtain ⟨_, hcompute, -⟩ := bind_eq_ok.1 (whenSome_eq_ok.1 hcheck digest hdigest)
    rw [halgo, computeArtifactDigestAlgo] at hcompute
    split at hcompute
    · cases hcompute
    · next hsize =>
      rw [not_not] at hsize
      exact absurd (hlength.symm.trans hsize) (by decide)

end

section
variable (E : Env) (root : TrustedRoot)

/-- **When the key of a certificate verifies what the certificate verifies.** What is accepted with
log verification and a P-256 or an Ed25519 certificate is accepted with the certificate's key if and
only if a message signature with a P-256 key that declares a SHA-384 digest is also a valid
signature over SHA-256. -/
theorem verifyWithKey_iff (hkeeps : KeepsAlgorithm E) {artifact : Artifact}
    {bundle : Types.Bundle} {policy : VerificationPolicy} {result : VerificationResult}
    {cert : Bytes} {info : CertificateInfo} (hcert : bundle.signingCertificate = some cert)
    (hinfo : parseCertificateInfo E.x509 cert = .ok info)
    (hkey : info.keyAlgorithm = .ecdsaP256 ∨ info.keyAlgorithm = .ed25519)
    (hflag : policy.verifyTlog = true)
    (h : verify E root artifact bundle policy = .ok result) :
    (∃ result', verifyWithKey E root artifact bundle info.publicKey = .ok result') ↔
      AlsoOverSha256 E info artifact bundle.content := by
  obtain ⟨cert', info', signature, time, hv⟩ := verify_ok E root h
  cases hcert.symm.trans hv.certificate
  cases hinfo.symm.trans hv.info
  obtain ⟨scheme, hscheme, hcontent⟩ := verifyContent_withKey_iff.1 hv.content
  obtain ⟨spki, hspki⟩ := spki_of_verifyContentWithKey hcontent
  rw [verifyWithKey_of_verified hv hflag (keyScheme_of_certificate hkeeps hinfo hkey hspki)]
  constructor
  · intro hwith hp256 msgSig digest hmsg hdigest halgo
    rw [hp256, hmsg] at hwith
    exact verifyContentWithKey_sha384 hdigest halgo hwith
  · intro halso
    rcases contentScheme_cases hkey hscheme with rfl | ⟨hp256, msgSig, digest, hmsg, hdigest, halgo⟩
    · exact hcontent
    · obtain ⟨bytes, rfl, hvalid⟩ := halso hp256 msgSig digest hmsg hdigest halgo
      rw [hmsg] at hcontent ⊢
      rw [hp256]
      obtain ⟨_, hcheck, -⟩ := bind_eq_ok.1 hcontent
      exact bind_eq_ok.2 ⟨_, hcheck, verifySignatureOverArtifact_bytes.2 hvalid⟩

end

namespace Sample

/-- The encoder of elliptic curve keys. -/
def encoding : X509 :=
  { x509 with
    spkiToDer := fun key =>
      if key.algorithmOid = idEcPublicKey then x509.spkiToDer key else .error "unsupported" }

def encodingEnv : Env := { env with x509 := encoding }

/-- The encoder of keys keeps the algorithm of the key. The encoder refuses a key that is not
elliptic, and what it encodes is decoded as an elliptic one. -/
theorem keepsAlgorithm_encoding : KeepsAlgorithm encodingEnv := by
  intro key der spki hder hspki
  have hkey : key.algorithmOid = idEcPublicKey := by
    by_contra hne
    have hnone : encodingEnv.x509.spkiToDer key = .error "unsupported" := if_neg hne
    cases hnone.symm.trans hder
  have hspki : primitives.spki der = .ok spki := hspki
  unfold primitives at hspki
  dsimp only at hspki
  split at hspki
  · cases hspki
    exact hkey.symm
  · cases hspki

/-- The SHA-384 digest of the artifact. -/
def artifactSha384 : Bytes := (hexDecode
  ("54a59b9f22b0b80880d8427e548b7c23abd873486e1f035dce9cd697e8517503" ++
    "3caa88e6d57bc35efae0b5afd3145f31")).getD []

/-- Primitives under which the signature of the artifact is one over SHA-384. -/
def signedOverSha384 : Primitives :=
  { primitives with
    sha384 := fun m => if m = artifact then artifactSha384 else []
    verify := fun scheme key m signature =>
      (decide (m ≠ artifact) || scheme == .ecdsaP256Sha384) &&
        primitives.verify scheme key m signature }

def sha384Env : Env := { encodingEnv with primitives := signedOverSha384 }

/-- The bundle with the signature of the artifact, which declares the SHA-384 digest. -/
def declaresSha384 : Types.Bundle :=
  { signed with content :=
      .messageSignature ⟨some ⟨.sha2384, artifactSha384⟩, sign 1 artifact⟩ }

/-- The certificate's key and the issuer's are elliptic curve keys. -/
theorem certificate_encoding :
    parseCertificateInfo encoding (certDer 1) = .ok certificateInfo ∧
    verifySct encodingEnv root (.certificate (certDer 1)) = .ok () ∧
    verifySct sha384Env root (.certificate (certDer 1)) = .ok () := by
  decide

/-- The primitives with signatures over SHA-384 are like those of the deployment on what it signs.
-/
theorem alike_signedOverSha384 (signature : Bytes) : Alike signedOverSha384 signature :=
  { spki := rfl
    verify := fun key message sig h => by simp [signedOverSha384, h]
    imprint := rfl
    digest := rfl }

/-- With its certificate the bundle of the deployment is accepted, whatever the encoder of keys. The
encoder of keys comes into play in the timestamp of the certificate, which is evaluated anew. -/
theorem verify_encoding :
    verify encodingEnv root (.bytes artifact) signed policy = .ok (result (some 1700000000)) := by
  obtain ⟨hinfo, hsct, -⟩ := certificate_encoding
  obtain ⟨_, _, _, _, hv⟩ := verify_ok env root verify_signed
  have hentry : verifyEntryInclusion (alike primitives encoding.spkiToDer) root
      (promisedEntry "0.0.2" (document messageBody) 1700000000) = .ok () :=
    verifyEntryInclusion_promisedEntry (alike_primitives []) (setKey_promisedEntry _ _).1
  have hconsistent : verifyTlogConsistency encodingEnv signed (.bytes artifact) = .ok () :=
    verifyTlogConsistency_hashedrekord rfl rfl rfl (entryBody_signed _) rfl rfl
      (fun _ => Option.some.inj) rfl
  exact verify_timestamped signed (promisedEntry _ _ 1700000000)
    (alike_primitives (sign 1 artifact)) rfl rfl rfl hinfo hsct rfl hv.validated hentry
    (fun _ => by decide) certificate_verified.2.2 hconsistent

/-- The bundle that declares a SHA-384 digest is accepted with its certificate. The scheme is chosen
by the declared digest here, and the signature was made for it. -/
theorem verify_declaresSha384 :
    verify sha384Env root (.bytes artifact) declaresSha384 policy =
      .ok (result (some 1700000000)) := by
  obtain ⟨hinfo, -, hsct⟩ := certificate_encoding
  have hvalid : validateBundleWithOptions codec declaresSha384
      { requireInclusionProof := true, requireTimestamp := false } = .ok () := by
    decide
  have hcontent : verifyContent sha384Env certificateInfo (.bytes artifact)
      declaresSha384.content = .ok () := by
    decide
  have hentry : verifyEntryInclusion (alike signedOverSha384 encoding.spkiToDer) root
      (promisedEntry "0.0.2" (document messageBody) 1700000000) = .ok () :=
    verifyEntryInclusion_promisedEntry (alike_signedOverSha384 []) (setKey_promisedEntry _ _).1
  have hconsistent : verifyTlogConsistency sha384Env declaresSha384 (.bytes artifact) = .ok () :=
    verifyTlogConsistency_hashedrekord rfl rfl rfl (entryBody_signed _) rfl rfl
      (fun _ => Option.some.inj) rfl
  exact verify_timestamped declaresSha384 (promisedEntry _ _ 1700000000)
    (alike_signedOverSha384 (sign 1 artifact)) rfl rfl rfl hinfo hsct rfl hvalid hentry
    (fun _ => by decide) hcontent hconsistent

end Sample

/-- A signature over SHA-384 that is accepted with a P-256 certificate is rejected with its key. The
key alone selects SHA-256, whatever the bundle declares. -/
theorem verifyWithKey_fails :
    ¬ ∀ (E : Env) (root : TrustedRoot), KeepsAlgorithm E → ∀ (artifact : Artifact)
      (bundle : Types.Bundle) (policy : VerificationPolicy) (result : VerificationResult)
      (cert : Bytes) (info : CertificateInfo), bundle.signingCertificate = some cert →
      parseCertificateInfo E.x509 cert = .ok info →
      (info.keyAlgorithm = .ecdsaP256 ∨ info.keyAlgorithm = .ed25519) →
      policy.verifyTlog = true → verify E root artifact bundle policy = .ok result →
      ∃ result', verifyWithKey E root artifact bundle info.publicKey = .ok result' := by
  intro h
  obtain ⟨result, hresult⟩ := h Sample.sha384Env Sample.root Sample.keepsAlgorithm_encoding
    (.bytes Sample.artifact) Sample.declaresSha384 Sample.policy _ (Sample.certDer 1)
    Sample.certificateInfo rfl Sample.certificate_encoding.1 (.inl rfl) rfl
    Sample.verify_declaresSha384
  obtain ⟨scheme, hk⟩ := verifyWithKey_ok _ _ hresult
  have hscheme := hk.scheme_eq
  have hcontent := hk.content
  have hp256 : keyScheme Sample.sha384Env (Sample.keyDer 1) = .ok .ecdsaP256Sha256 := by
    decide
  cases hp256.symm.trans hscheme
  obtain ⟨bytes, hbytes, spki, -, hverify⟩ := verifyContentWithKey_sha384 rfl rfl hcontent
  cases hbytes
  simp [Sample.sha384Env, Sample.signedOverSha384] at hverify

/-- The signed artifact of the deployment is accepted with the key of its certificate. The declared
digest is one of SHA-256, so that both ways come to the scheme of the key. -/
theorem verifyWithKey_signed :
    ∃ result, verifyWithKey Sample.encodingEnv Sample.root (.bytes Sample.artifact) Sample.signed
      (Sample.keyDer 1) = .ok result := by
  refine (verifyWithKey_iff Sample.encodingEnv Sample.root Sample.keepsAlgorithm_encoding
    rfl Sample.certificate_encoding.1 (.inl rfl) rfl Sample.verify_encoding).2 ?_
  rintro - msgSig digest ⟨⟩ ⟨⟩ ⟨⟩

end Sigstore.Verify
