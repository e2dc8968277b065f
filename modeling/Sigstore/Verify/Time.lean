import Sigstore.Verify.Deployment

/-!
# The time of the certificate check

Where the time at which the certificate chain is validated comes from. It is authentic
(`TimeAuthentic`) when it is the time of a verified timestamp token over the signature, or the
integrated time of an entry whose inclusion promise verifies. `determine_validation_time` takes the
integrated time of any entry with a promise and leaves the promise to the log verification, which a
policy can skip: without timestamps and log verification the time is authentic only by chance
(`timeAuthentic_iff`, `verify_skipTlog_forged`).
-/

namespace Sigstore.Verify

open Checks Types Crypto TrustRoot

section
variable (E : Env) (root : TrustedRoot)

/-- A time of a signature is backed by a signature of a timestamp authority or of a log. -/
inductive TimeAuthentic (bundle : Types.Bundle) (signature : Bytes) : Int64 → Prop where
  | token {ts : Rfc3161Timestamp} {tstInfo : Tsa.TstInfo} {time : Timestamp}
      (mem : ts ∈ bundle.timestamps)
      (verified : Tsa.TokenVerified E.toEnv ts.signedTimestamp signature (tsaOpts E root) tstInfo
        time) :
      TimeAuthentic bundle signature time.asSecond
  | promise {entry : TransparencyLogEntry} {promise : InclusionPromise} {logKey : Bytes}
      (mem : entry ∈ bundle.tlogEntries) (promise_eq : entry.inclusionPromise = some promise)
      (verified : SetVerified E root entry promise logKey) :
      TimeAuthentic bundle signature entry.integratedTime

variable {E root}

/-- An inclusion promise is accepted exactly where it verifies. -/
theorem verifySet_eq_ok {entry : TransparencyLogEntry} :
    verifySet E root entry = .ok () ↔ ∃ promise logKey, entry.inclusionPromise = some promise ∧
      SetVerified E root entry promise logKey := by
  constructor
  · exact verifySet_ok E root
  · rintro ⟨promise, logKey, hpromise, hset⟩
    obtain ⟨payload, hpayload, hsig⟩ := hset.signed
    simp only [verifySet, bind_eq_ok, okOr_eq_ok, mapError_eq_ok]
    exact ⟨promise, hpromise, logKey, hset.key, payload, hpayload, hsig⟩

/-- The time of an accepted timestamp is authentic. -/
theorem timeAuthentic_of_verifyTimestamp {bundle : Types.Bundle} {signature : Bytes}
    {ts : Rfc3161Timestamp} {time : Int64} (hmem : ts ∈ bundle.timestamps)
    (h : verifyTimestamp E root signature ts = .ok time) :
    TimeAuthentic E root bundle signature time := by
  simp only [verifyTimestamp, bind_eq_ok, mapError_eq_ok] at h
  obtain ⟨t, htoken, _, -, _, -, heq⟩ := h
  cases pure_eq_ok.1 heq
  obtain ⟨tstInfo, hverified⟩ := Tsa.verifyTimestampResponse_ok E.toEnv htoken
  exact .token hmem hverified

/-- The usable integrated time of an entry is the one that it states, beside a promise. -/
theorem v1IntegratedTime_some {entry : TransparencyLogEntry} {time : Int64}
    (h : v1IntegratedTime entry = some time) :
    entry.inclusionPromise.isSome ∧ entry.integratedTime = time := by
  unfold v1IntegratedTime at h
  split at h
  · next hv1 => exact ⟨hv1.2.2.1, Option.some.inj h⟩
  · cases h

/-- Where every entry is verified, the integrated time that is taken is authentic. -/
theorem timeAuthentic_of_verifyEntryInclusion {bundle : Types.Bundle} {signature : Bytes}
    {time : Int64}
    (hentries : ∀ entry ∈ bundle.tlogEntries, verifyEntryInclusion E root entry = .ok ())
    (h : extractV1IntegratedTimeWithPromise bundle = some time) :
    TimeAuthentic E root bundle signature time := by
  rcases earliestIntegratedTime_some h with hnone | ⟨entry, hmem, hentry⟩
  · cases hnone
  · obtain ⟨hsome, rfl⟩ := v1IntegratedTime_some hentry
    obtain ⟨promise, hpromise⟩ := Option.isSome_iff_exists.1 hsome
    obtain ⟨logKey, hset⟩ := verifyEntryInclusion_promise E root (hentries entry hmem) hpromise
    exact .promise hmem hpromise hset

/-- Without timestamps only an acceptable promise makes a time authentic. -/
theorem TimeAuthentic.exists_promise {bundle : Types.Bundle} {signature : Bytes} {time : Int64}
    (h : TimeAuthentic E root bundle signature time) (hnil : bundle.timestamps = []) :
    ∃ entry ∈ bundle.tlogEntries, entry.integratedTime = time ∧
      verifySet E root entry = .ok () := by
  cases h with
  | token mem => rw [hnil] at mem; cases mem
  | promise mem promise_eq verified =>
    exact ⟨_, mem, rfl, verifySet_eq_ok.2 ⟨_, _, promise_eq, verified⟩⟩

end

section
variable (E : Env) (root : TrustedRoot)

/-- **When the time of the certificate check is authentic.** In every accepted verification that
checks the certificate, the chain is validated at a time that is authentic if and only if the policy
verifies the log, or the bundle has timestamps, or the promise of an entry with the earliest
integrated time would be accepted. -/
theorem timeAuthentic_iff {artifact : Artifact} {bundle : Types.Bundle}
    {policy : VerificationPolicy} {result : VerificationResult}
    (hcert : policy.verifyCertificate = true)
    (h : verify E root artifact bundle policy = .ok result) :
    ∃ signature time, firstSignature bundle.content = some signature ∧
      determineValidationTime E root bundle signature = .ok time ∧
      verifyCertificateChain E root bundle.verificationMaterial.content time = .ok () ∧
      (TimeAuthentic E root bundle signature time ↔
        policy.verifyTlog = true ∨ bundle.timestamps ≠ [] ∨
        ∃ entry ∈ bundle.tlogEntries,
          extractV1IntegratedTimeWithPromise bundle = some entry.integratedTime ∧
          verifySet E root entry = .ok ()) := by
  obtain ⟨cert, info, signature, time, hv⟩ := verify_ok E root h
  refine ⟨signature, time, hv.signature_eq, hv.validationTime, (hv.chain hcert).1, ?_⟩
  obtain ⟨-, hts | ⟨hnil, hv1⟩⟩ := determineValidationTime_ok E root hv.validationTime
  · obtain ⟨ts, hmem, hts⟩ := hts
    exact iff_of_true (timeAuthentic_of_verifyTimestamp hmem hts)
      (.inr (.inl (List.ne_nil_of_mem hmem)))
  · constructor
    · intro hauth
      obtain ⟨entry, hmem, rfl, hset⟩ := hauth.exists_promise hnil
      exact .inr (.inr ⟨entry, hmem, hv1, hset⟩)
    · rintro (hflag | hne | ⟨entry, hmem, htime, hset⟩)
      · exact timeAuthentic_of_verifyEntryInclusion (hv.entries hflag) hv1
      · exact absurd hnil hne
      · cases hv1.symm.trans htime
        obtain ⟨promise, logKey, hpromise, hverified⟩ := verifySet_eq_ok.1 hset
        exact .promise hmem hpromise hverified

/-- The signed artifact of the deployment, which has a timestamp. The time is then that of the
token, and the promise of its entry is verified besides. -/
theorem timeAuthentic_iff_signed :
    ∃ time, determineValidationTime Sample.env Sample.root Sample.signed
        (Sample.sign 1 Sample.artifact) = .ok time ∧
      TimeAuthentic Sample.env Sample.root Sample.signed (Sample.sign 1 Sample.artifact) time := by
  obtain ⟨signature, time, hsig, htime, -, hiff⟩ :=
    timeAuthentic_iff Sample.env Sample.root rfl Sample.verify_signed
  cases hsig
  exact ⟨time, htime, hiff.2 (.inl rfl)⟩

end

namespace Sample

/-- The body of a `hashedrekord` 0.0.1 entry of the artifact's signature: what the code reads of it.
-/
def bodyV001 : Json :=
  .object [("spec", .object [
    ("data", .object [("hash", .object [("algorithm", .string "sha256"),
      ("value", .string (sha256 artifact).toHex)])]),
    ("signature", .object [("content", .string (text64 (sign 1 artifact))),
      ("publicKey", .object [("content", .string (text64 (utf8Bytes
        "-----BEGIN CERTIFICATE-----\nMAMCAQE=\n-----END CERTIFICATE-----\n")))])])])]

/-- The entry of the artifact's signature with a promise that is no signature. -/
def forgedEntry : TransparencyLogEntry :=
  { promisedEntry "0.0.1" (document bodyV001) 1700000000 with
    inclusionPromise := some ⟨[0x00]⟩ }

/-- The bundle with the signature of the artifact and the forged promise. -/
def forged : Types.Bundle := bundle forgedEntry [] message

end Sample

/-- Without log verification a forged promise sets the time. The promise is a single zero byte, and
the time that comes with it is inside the certificate's validity. -/
theorem verify_skipTlog_forged :
    verify Sample.env Sample.root (.bytes Sample.artifact) Sample.forged Sample.policy.skipTlog =
      .ok (Sample.result none) ∧
    Sample.policy.skipTlog.verifyCertificate = true ∧
    ∃ signature time, firstSignature Sample.forged.content = some signature ∧
      determineValidationTime Sample.env Sample.root Sample.forged signature = .ok time ∧
      ¬ TimeAuthentic Sample.env Sample.root Sample.forged signature time := by
  refine ⟨by decide +kernel, rfl, Sample.sign 1 Sample.artifact, 1700000000, rfl, rfl, ?_⟩
  intro hauth
  obtain ⟨entry, hmem, -, hset⟩ := hauth.exists_promise rfl
  obtain rfl := List.mem_singleton.1 hmem
  have hrejected : verifySet Sample.env Sample.root Sample.forgedEntry ≠ .ok () := by
    decide +kernel
  exact hrejected hset

end Sigstore.Verify
