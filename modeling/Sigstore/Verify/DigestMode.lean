import Sigstore.Verify.Deployment

/-!
# Artifacts by their digest

An artifact is verified by its bytes or by a digest of them. The two forms go separate ways through
the declared digest, the signature, the subjects of an attestation and the `hashedrekord` entries.
What is accepted by a digest is accepted by the bytes with the same result, and the other way round
by the SHA-256 digest, where nothing else than it is asked for (`digest_mode`).
-/

namespace Sigstore.Crypto

open Checks

/-- The digest of a message with an algorithm. -/
def Primitives.digestOf (P : Primitives) : HashAlgorithm → Bytes → Bytes
  | .sha2256, m => (P.sha256 m).bytes
  | .sha2384, m => P.sha384 m
  | .sha2512, m => P.sha512 m

/-- Digests have the size of their algorithm, and a signature verifies over the digest of a message
where it does over the message. -/
structure LawfulDigests (P : Primitives) : Prop where
  length_digestOf : ∀ algo m, (P.digestOf algo m).length = algo.digestSize
  verifyDigest_iff : ∀ (scheme : SigningScheme) algo key m sig, scheme.prehash = some algo →
    (P.verifyDigest scheme key (P.digestOf algo m) sig = .ok () ↔
      P.verify scheme key m sig = true)

/-- A digest of some bytes with one of the algorithms. -/
def IsDigestOf (P : Primitives) (bytes digest : Bytes) : Prop :=
  ∃ algo, digest = P.digestOf algo bytes

section
variable {P : Primitives}

/-- Different algorithms have digests of different sizes. -/
theorem digestSize_injective : Function.Injective HashAlgorithm.digestSize := by
  intro a b h
  cases a <;> cases b <;> first | rfl | cases h

/-- The size of a digest tells its algorithm. -/
theorem IsDigestOf.eq_digestOf (hP : LawfulDigests P) {bytes digest : Bytes} {algo : HashAlgorithm}
    (hd : IsDigestOf P bytes digest) (hlen : digest.length = algo.digestSize) :
    digest = P.digestOf algo bytes := by
  obtain ⟨algo', rfl⟩ := hd
  rw [hP.length_digestOf] at hlen
  rw [digestSize_injective hlen]

/-- A signature over the digest of a message is one over the message. -/
theorem signatureValid_of_digest (hP : LawfulDigests P) {bytes digest key sig : Bytes}
    {scheme : SigningScheme} (hd : IsDigestOf P bytes digest)
    (h : DigestSignatureValid P key digest sig scheme) : SignatureValid P key bytes sig scheme := by
  obtain ⟨spki, algo, hspki, hprehash, hlen, hverify⟩ := h
  rw [hd.eq_digestOf hP hlen, hP.verifyDigest_iff _ _ _ _ _ hprehash] at hverify
  exact ⟨spki, hspki, hverify⟩

/-- A signature over a message is one over its digest with the hash of the scheme. -/
theorem digestSignatureValid_of_prehash (hP : LawfulDigests P) {bytes key sig : Bytes}
    {scheme : SigningScheme} {algo : HashAlgorithm} (hprehash : scheme.prehash = some algo)
    (h : SignatureValid P key bytes sig scheme) :
    DigestSignatureValid P key (P.digestOf algo bytes) sig scheme := by
  obtain ⟨spki, hspki, hverify⟩ := h
  exact ⟨spki, algo, hspki, hprehash, hP.length_digestOf _ _,
    (hP.verifyDigest_iff _ _ _ _ _ hprehash).2 hverify⟩

end

end Sigstore.Crypto

namespace Sigstore.Verify

open Checks Types Crypto TrustRoot

section
variable {E : Env} {root : TrustedRoot}

/-! ## The checks that look at the artifact -/

/-- Of an artifact that is given in full every digest can be computed. -/
theorem computeArtifactDigestAlgo_bytes (bytes : Bytes) (algo : HashAlgorithm) :
    computeArtifactDigestAlgo E (.bytes bytes) algo = .ok (E.primitives.digestOf algo bytes) := by
  cases algo <;> rfl

/-- A given digest serves for the algorithm whose digests have its length, and for no other. -/
theorem computeArtifactDigestAlgo_digest {digest hash : Bytes} {algo : HashAlgorithm} :
    computeArtifactDigestAlgo E (.digest digest) algo = .ok hash ↔
      digest.length = algo.digestSize ∧ digest = hash := by
  unfold computeArtifactDigestAlgo
  by_cases hlen : digest.length = algo.digestSize
  · simp [hlen]
  · simp [hlen]

/-- A given digest serves as a SHA-256 hash where it has 32 bytes. -/
theorem computeArtifactDigest_digest {digest : Bytes} {hash : Sha256Hash} :
    computeArtifactDigest E (.digest digest) = .ok hash ↔ digest = hash.bytes := by
  simp only [computeArtifactDigest, Codec.sha256FromSlice, mapError_eq_ok, Sha256Hash.tryFromSlice]
  constructor
  · intro h
    split at h
    · cases h
      rfl
    · cases h
  · rintro rfl
    rw [dif_pos hash.length_bytes]

/-- The digests that a bundle's checks ask of one artifact, they get from another one too. -/
structure DigestRefines (artifact artifact' : Artifact) (content : SignatureContent) : Prop where
  declared : ∀ msgSig, content = .messageSignature msgSig →
    Refines (checkMessageDigest E msgSig artifact) (checkMessageDigest E msgSig artifact')
  subject : ∀ envelope, content = .dsseEnvelope envelope →
    Refines (computeArtifactDigestAlgo E artifact .sha2256)
      (computeArtifactDigestAlgo E artifact' .sha2256)
  recorded : Refines (contentDigest E content artifact) (contentDigest E content artifact')

variable {artifact artifact' : Artifact} {bundle : Types.Bundle}

/-- An envelope is judged by the artifact's SHA-256 digest alone. -/
theorem verifyEnvelope_refines {publicKey : Bytes} {scheme : SigningScheme}
    {envelope : DsseEnvelope} (h : Refines (computeArtifactDigestAlgo E artifact .sha2256)
      (computeArtifactDigestAlgo E artifact' .sha2256)) :
    Refines (verifyEnvelope E publicKey scheme envelope artifact)
      (verifyEnvelope E publicKey scheme envelope artifact') := by
  unfold verifyEnvelope verifyDsseArtifactBinding
  refine .bind (.refl _) fun _ _ => .bind (.refl _) fun _ _ => .bind h fun _ _ => .refl _

/-- A `hashedrekord` entry is judged by the digest of the content alone. -/
theorem verifyHashedrekordEntry_refines
    (h : Refines (contentDigest E bundle.content artifact)
      (contentDigest E bundle.content artifact')) (entry : TransparencyLogEntry) :
    Refines (verifyHashedrekordEntry E entry bundle artifact)
      (verifyHashedrekordEntry E entry bundle artifact') := by
  unfold verifyHashedrekordEntry
  exact .bind (.refl _) fun _ _ => .bind h fun _ _ => .refl _

/-- An entry is judged by the digest of the content alone: the other kinds do not look at the
artifact. -/
theorem verifyEntryConsistency_refines
    (h : Refines (contentDigest E bundle.content artifact)
      (contentDigest E bundle.content artifact')) (entry : TransparencyLogEntry) :
    Refines (verifyEntryConsistency E bundle artifact entry)
      (verifyEntryConsistency E bundle artifact' entry) := by
  have hrekord := verifyHashedrekordEntry_refines h entry
  unfold verifyEntryConsistency
  split
  · unfold verifyEnvelopeEntry
    split
    · split
      · exact hrekord
      · exact .refl _
    · exact .refl _
    · exact .refl _
    · exact .refl _
  · unfold verifyMessageEntry
    split
    · split
      · exact hrekord
      · exact hrekord
      · exact .refl _
    · exact .refl _

/-- Of the artifact, the log entries are compared with its digest only. -/
theorem verifyTlogConsistency_refines
    (h : Refines (contentDigest E bundle.content artifact)
      (contentDigest E bundle.content artifact')) :
    Refines (verifyTlogConsistency E bundle artifact)
      (verifyTlogConsistency E bundle artifact') := by
  unfold verifyTlogConsistency
  induction bundle.tlogEntries with
  | nil => exact .refl _
  | cons entry l ih => exact .bind (verifyEntryConsistency_refines h entry) fun _ _ => ih

/-! ## The verifications -/

/-- A verification depends on the artifact by its digests and by the signature over it. All other
checks read the bundle, the policy and the trusted root, which are the same on both sides. -/
theorem verify_refines {policy : VerificationPolicy}
    (h : DigestRefines (E := E) artifact artifact' bundle.content)
    (hsigned : ∀ cert certInfo msgSig,
      extractCertificate bundle.verificationMaterial.content = .ok cert →
      parseCertificateInfo E.x509 cert = .ok certInfo → bundle.content = .messageSignature msgSig →
      Refines (verifyMessageSignatureCrypto E certInfo msgSig artifact)
        (verifyMessageSignatureCrypto E certInfo msgSig artifact')) :
    Refines (verify E root artifact bundle policy) (verify E root artifact' bundle policy) := by
  unfold verify
  refine .bind (.refl _) fun _ _ => .bind (.refl _) fun cert hcert => .bind (.refl _)
    fun certInfo hinfo => .bind (.refl _) fun _ _ => .bind (.refl _) fun _ _ => .bind (.refl _)
    fun _ _ => .bind (.refl _) fun _ _ => .bind (.refl _) fun _ _ => .bind (.refl _) fun _ _ =>
    .bind (.refl _) fun _ _ => .bind ?_ fun _ _ => .bind ?_ fun _ _ => .refl _
  · unfold verifyContent
    cases hcontent : bundle.content with
    | dsseEnvelope envelope => exact verifyEnvelope_refines (h.subject envelope hcontent)
    | messageSignature msgSig =>
      exact .bind (h.declared msgSig hcontent) fun _ _ =>
        hsigned cert certInfo msgSig hcert (mapError_eq_ok.1 hinfo) hcontent
  · exact .whenTrue (verifyTlogConsistency_refines h.recorded)

/-- The same for a verification with a key. The scheme comes from the key here, and not from the
certificate. -/
theorem verifyWithKey_refines {publicKey : Bytes}
    (h : DigestRefines (E := E) artifact artifact' bundle.content)
    (hsigned : ∀ scheme msgSig, keyScheme E publicKey = .ok scheme →
      bundle.content = .messageSignature msgSig →
      Refines (verifySignatureOverArtifact E publicKey scheme msgSig.signature artifact)
        (verifySignatureOverArtifact E publicKey scheme msgSig.signature artifact')) :
    Refines (verifyWithKey E root artifact bundle publicKey)
      (verifyWithKey E root artifact' bundle publicKey) := by
  unfold verifyWithKey
  refine .bind (.refl _) fun _ _ => .bind (.refl _) fun scheme hscheme => .bind (.refl _)
    fun _ _ => .bind ?_ fun _ _ => .bind (verifyTlogConsistency_refines h.recorded) fun _ _ =>
    .refl _
  unfold verifyContentWithKey
  cases hcontent : bundle.content with
  | dsseEnvelope envelope => exact verifyEnvelope_refines (h.subject envelope hcontent)
  | messageSignature msgSig =>
    exact .bind (h.declared msgSig hcontent) fun _ _ => hsigned scheme msgSig hscheme hcontent

end

/-! ## From the digest to the bytes -/

section
variable {E : Env} {bytes digest : Bytes}

/-- Where the digest serves, the artifact in full has the same digest. -/
theorem computeArtifactDigestAlgo_refines (hP : LawfulDigests E.primitives)
    (hd : IsDigestOf E.primitives bytes digest) (algo : HashAlgorithm) :
    Refines (computeArtifactDigestAlgo E (.digest digest) algo)
      (computeArtifactDigestAlgo E (.bytes bytes) algo) := by
  intro hash h
  obtain ⟨hlen, rfl⟩ := computeArtifactDigestAlgo_digest.1 h
  rw [computeArtifactDigestAlgo_bytes, hd.eq_digestOf hP hlen]

/-- Where the digest serves as a SHA-256 hash, it is that of the artifact in full. A digest of
another algorithm has another length and is refused. -/
theorem computeArtifactDigest_refines (hP : LawfulDigests E.primitives)
    (hd : IsDigestOf E.primitives bytes digest) :
    Refines (computeArtifactDigest E (.digest digest))
      (computeArtifactDigest E (.bytes bytes)) := by
  intro hash h
  have hbytes := computeArtifactDigest_digest.1 h
  have hlen : digest.length = HashAlgorithm.sha2256.digestSize := by
    rw [hbytes]
    exact hash.length_bytes
  have hdigest := hd.eq_digestOf hP hlen
  have hhash : hash = E.primitives.sha256 bytes := Sha256Hash.ext (hbytes.symm.trans hdigest)
  rw [hhash]
  rfl

/-- A digest that is accepted anywhere is the one of the bytes that is asked for there. -/
theorem digestRefines_bytes (hP : LawfulDigests E.primitives)
    (hd : IsDigestOf E.primitives bytes digest) (content : SignatureContent) :
    DigestRefines (E := E) (.digest digest) (.bytes bytes) content := by
  refine ⟨fun msgSig _ => ?_, fun _ _ => computeArtifactDigestAlgo_refines hP hd _, ?_⟩
  · unfold checkMessageDigest
    exact .whenSome fun _ _ => .bind (computeArtifactDigestAlgo_refines hP hd _) fun _ _ => .refl _
  · cases content with
    | messageSignature msgSig => exact computeArtifactDigest_refines hP hd
    | dsseEnvelope envelope => exact .refl _

/-- With the artifact in full the signature is verified over its bytes. -/
theorem verifySignatureOverArtifact_bytes {publicKey signature : Bytes} {scheme : SigningScheme} :
    verifySignatureOverArtifact E publicKey scheme signature (.bytes bytes) = .ok () ↔
      SignatureValid E.primitives publicKey bytes signature scheme := by
  rw [verifySignatureOverArtifact, mapError_eq_ok, verifySignature_eq_ok]

/-- With a digest alone the signature is verified over the digest. Schemes that hash the message
themselves cannot be used with a digest, and are refused before anything is verified. -/
theorem verifySignatureOverArtifact_digest {publicKey signature : Bytes} {scheme : SigningScheme} :
    verifySignatureOverArtifact E publicKey scheme signature (.digest digest) = .ok () ↔
      DigestSignatureValid E.primitives publicKey digest signature scheme := by
  unfold verifySignatureOverArtifact
  by_cases hscheme : scheme.supportsPrehashed = false
  · simp only [if_pos hscheme]
    constructor
    · intro h
      cases h
    · rintro ⟨spki, algo, -, hprehash, -⟩
      rw [supportsPrehashed_of_prehash hprehash] at hscheme
      cases hscheme
  · simp only [if_neg hscheme, mapError_eq_ok, verifySignaturePrehashed_eq_ok]

/-- A signature that is valid over the digest is valid over the artifact. -/
theorem verifySignatureOverArtifact_refines (hP : LawfulDigests E.primitives)
    (hd : IsDigestOf E.primitives bytes digest) {publicKey signature : Bytes}
    {scheme : SigningScheme} :
    Refines (verifySignatureOverArtifact E publicKey scheme signature (.digest digest))
      (verifySignatureOverArtifact E publicKey scheme signature (.bytes bytes)) := by
  intro _ h
  exact verifySignatureOverArtifact_bytes.2
    (signatureValid_of_digest hP hd (verifySignatureOverArtifact_digest.1 h))

/-! ## From the bytes to the SHA-256 digest -/

/-- Of a message signature, the scheme and the declared digest are over SHA-256. -/
def OverSha256 (content : SignatureContent)
    (scheme : MessageSignature → Except Error SigningScheme) : Prop :=
  ∀ msgSig, content = .messageSignature msgSig →
    (∀ s, scheme msgSig = .ok s → s.prehash = some .sha2256) ∧
    ∀ declared, msgSig.messageDigest = some declared → declared.algorithm = .sha2256

/-- The scheme that the certificate of a bundle and the declared digest resolve to. -/
def certificateScheme (E : Env) (bundle : Types.Bundle) (msgSig : MessageSignature) :
    Except Error SigningScheme := do
  let cert ← extractCertificate bundle.verificationMaterial.content
  let certInfo ← (parseCertificateInfo E.x509 cert).mapError fun e =>
    .verification s!"failed to parse certificate: {e.display}"
  messageScheme certInfo.keyAlgorithm msgSig

/-- Where an artifact's SHA-256 digest is asked for, that digest serves as well. -/
theorem computeArtifactDigestAlgo_sha256 (E : Env) (bytes : Bytes) :
    Refines (computeArtifactDigestAlgo E (.bytes bytes) .sha2256)
      (computeArtifactDigestAlgo E (.digest (E.primitives.sha256 bytes).bytes) .sha2256) := by
  rintro _ ⟨⟩
  exact computeArtifactDigestAlgo_digest.2 ⟨(E.primitives.sha256 bytes).length_bytes, rfl⟩

/-- Where only SHA-256 digests are asked for, the SHA-256 digest will do. Each of the three parts
asks for the digest under an algorithm that the hypothesis makes SHA-256. -/
theorem digestRefines_sha256 {content : SignatureContent}
    {scheme : MessageSignature → Except Error SigningScheme} (hcontent : OverSha256 content scheme)
    (E : Env) (bytes : Bytes) :
    DigestRefines (E := E) (.bytes bytes) (.digest (E.primitives.sha256 bytes).bytes) content := by
  refine ⟨fun msgSig hmsg => ?_, fun _ _ => computeArtifactDigestAlgo_sha256 E bytes, ?_⟩
  · unfold checkMessageDigest
    refine .whenSome fun declared hdeclared => .bind ?_ fun _ _ => .refl _
    rw [(hcontent msgSig hmsg).2 declared hdeclared]
    exact computeArtifactDigestAlgo_sha256 E bytes
  · cases content with
    | messageSignature msgSig =>
      rintro _ ⟨⟩
      exact (computeArtifactDigest_digest (E := E)).2 rfl
    | dsseEnvelope envelope => exact .refl _

/-- Where the scheme hashes with SHA-256, that digest serves as well. -/
theorem verifySignatureOverArtifact_sha256 (hP : LawfulDigests E.primitives)
    {publicKey signature : Bytes} {scheme : SigningScheme}
    (hscheme : scheme.prehash = some .sha2256) :
    Refines (verifySignatureOverArtifact E publicKey scheme signature (.bytes bytes))
      (verifySignatureOverArtifact E publicKey scheme signature
        (.digest (E.primitives.sha256 bytes).bytes)) := by
  intro _ h
  exact verifySignatureOverArtifact_digest.2
    (digestSignatureValid_of_prehash hP hscheme (verifySignatureOverArtifact_bytes.1 h))

end

section
variable (E : Env) (root : TrustedRoot)

/-- **Digest mode agrees with bytes mode.** What is verified by a digest of some bytes is verified
by the bytes with the same result, with a certificate and with a key. What is verified by the bytes
is verified by their SHA-256 digest, with the same result, where the content is an envelope or a
message signature whose scheme and declared digest are over SHA-256. -/
theorem digest_mode (hP : LawfulDigests E.primitives) {bytes digest : Bytes}
    (hd : IsDigestOf E.primitives bytes digest) (bundle : Types.Bundle)
    (policy : VerificationPolicy) (publicKey : Bytes) (result : VerificationResult) :
    (verify E root (.digest digest) bundle policy = .ok result →
      verify E root (.bytes bytes) bundle policy = .ok result) ∧
    (verifyWithKey E root (.digest digest) bundle publicKey = .ok result →
      verifyWithKey E root (.bytes bytes) bundle publicKey = .ok result) ∧
    (OverSha256 bundle.content (certificateScheme E bundle) →
      verify E root (.bytes bytes) bundle policy = .ok result →
      verify E root (.digest (E.primitives.sha256 bytes).bytes) bundle policy = .ok result) ∧
    (OverSha256 bundle.content (fun _ => keyScheme E publicKey) →
      verifyWithKey E root (.bytes bytes) bundle publicKey = .ok result →
      verifyWithKey E root (.digest (E.primitives.sha256 bytes).bytes) bundle publicKey =
        .ok result) := by
  have hbytes := digestRefines_bytes hP hd bundle.content
  refine ⟨?_, ?_, fun hsha => ?_, fun hsha => ?_⟩
  · refine verify_refines hbytes (fun _ _ _ _ _ _ => ?_) result
    unfold verifyMessageSignatureCrypto
    exact .bind (.refl _) fun _ _ => verifySignatureOverArtifact_refines hP hd
  · exact verifyWithKey_refines hbytes
      (fun _ _ _ _ => verifySignatureOverArtifact_refines hP hd) result
  · refine verify_refines (digestRefines_sha256 hsha E bytes)
      (fun cert certInfo msgSig hcert hinfo hmsg => ?_) result
    unfold verifyMessageSignatureCrypto
    refine .bind (.refl _) fun scheme hscheme => verifySignatureOverArtifact_sha256 hP ?_
    refine (hsha msgSig hmsg).1 scheme ?_
    simp only [certificateScheme, bind_eq_ok, mapError_eq_ok]
    exact ⟨cert, hcert, certInfo, hinfo, hscheme⟩
  · exact verifyWithKey_refines (digestRefines_sha256 hsha E bytes)
      (fun scheme msgSig hscheme hmsg =>
        verifySignatureOverArtifact_sha256 hP ((hsha msgSig hmsg).1 scheme hscheme)) result

end

namespace Sample

/-- Primitives with digests of all three sizes. -/
def hashes : Primitives :=
  { primitives with
    sha384 := fun m => (sha256 m).bytes ++ (sha256 m).bytes.take 16
    sha512 := fun m => (sha256 m).bytes ++ (sha256 m).bytes }

/-- A signature over a digest: the number of the key with the first bytes of the digest. -/
def signDigest (key : UInt8) (digest : Bytes) : Bytes := key :: digest.take 2

def signsDigest (key digest signature : Bytes) : Bool :=
  key.getLast?.any fun k => signature == signDigest k digest

/-- Primitives that sign digests. -/
def hashing : Primitives :=
  { hashes with
    verify := fun scheme key message signature =>
      scheme.prehash.any fun algo => signsDigest key (hashes.digestOf algo message) signature
    verifyDigest := fun _ key digest signature =>
      if signsDigest key digest signature then .ok () else .error "Unspecified" }

/-- The digests are those of the hashes. -/
theorem digestOf_hashing (algo : HashAlgorithm) (m : Bytes) :
    hashing.digestOf algo m = hashes.digestOf algo m := by
  cases algo <;> rfl

/-- The digests have the sizes of their algorithms, and verifying a digest is verifying what it is
the digest of. -/
theorem lawfulDigests_hashing : LawfulDigests hashing := by
  refine ⟨fun algo m => ?_, fun scheme algo key m sig hprehash => ?_⟩
  · have hlen := (sha256 m).length_bytes
    cases algo with
    | sha2256 => exact hlen
    | sha2384 =>
      show ((sha256 m).bytes ++ (sha256 m).bytes.take 16).length = 48
      rw [List.length_append, List.length_take, hlen]
      rfl
    | sha2512 =>
      show ((sha256 m).bytes ++ (sha256 m).bytes).length = 64
      rw [List.length_append, hlen]
  · rw [digestOf_hashing]
    simp [hashing, hprehash]

/-- The artifact's signature over its digest. -/
def signedDigest : Types.Bundle :=
  bundle (promisedEntry "0.0.1" (document messageBody) 1700000000) []
    (.messageSignature ⟨some ⟨.sha2256, (sha256 artifact).bytes⟩,
      signDigest 1 (sha256 artifact).bytes⟩)

def hashingEnv : Env := { env with primitives := hashing }

/-- The policy of a caller that looks at the signature and its certificate only. -/
def signatureOnly : VerificationPolicy := { policy.skipTlog with verifySct := false }

/-- With its digest alone the artifact is verified, too. -/
theorem verify_signedDigest :
    verify hashingEnv root (.digest (sha256 artifact).bytes) signedDigest signatureOnly =
      .ok (result none) := by
  decide

/-- The bundle states a SHA-256 digest, and its scheme hashes with SHA-256. -/
theorem overSha256_signedDigest :
    OverSha256 signedDigest.content (certificateScheme hashingEnv signedDigest) := by
  rintro msgSig ⟨⟩
  refine ⟨fun s hs => ?_, fun declared hdeclared => ?_⟩
  · cases hs
    rfl
  · cases hdeclared
    rfl

end Sample

/-- The artifact of the deployment by its digest, by its bytes, and by its digest again. From the
bytes to the digest, the content has to be over SHA-256. -/
theorem digest_mode_signed :
    verify Sample.hashingEnv Sample.root (.bytes Sample.artifact) Sample.signedDigest
        Sample.signatureOnly = .ok (Sample.result none) ∧
      verify Sample.hashingEnv Sample.root (.digest (Sample.sha256 Sample.artifact).bytes)
        Sample.signedDigest Sample.signatureOnly = .ok (Sample.result none) := by
  obtain ⟨hbytes, -, hdigest, -⟩ := digest_mode Sample.hashingEnv Sample.root
    Sample.lawfulDigests_hashing ⟨.sha2256, rfl⟩ Sample.signedDigest Sample.signatureOnly []
    (Sample.result none)
  have hverified := hbytes Sample.verify_signedDigest
  exact ⟨hverified, hdigest Sample.overSha256_signedDigest hverified⟩

end Sigstore.Verify
