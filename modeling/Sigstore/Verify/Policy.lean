import Sigstore.Verify.Deployment

/-!
# Policies that ask for less

A policy only adds checks. What is accepted under a policy is accepted under each that asks for
nothing more (`verify_of_relaxes`), with the same result but for the integrated time, which is
reported where the log is verified. The setters that skip a check make such a policy
(`relaxes_skip`). The one for timestamps makes no difference: what it clears is not read, and a
bundle with a bad timestamp is rejected with it as without it (`verify_skipTimestamp`).
-/

namespace Sigstore.Verify

open Checks Types TrustRoot Bundle

/-- The first policy asks for nothing that the second one does not ask for. With log verification
both allow for the same clock skew. -/
structure Relaxes (relaxed policy : VerificationPolicy) : Prop where
  identity : ∀ identity, relaxed.identity = some identity → policy.identity = some identity
  issuer : ∀ issuer, relaxed.issuer = some issuer → policy.issuer = some issuer
  verifyTlog : relaxed.verifyTlog = true → policy.verifyTlog = true
  clockSkewSeconds : relaxed.verifyTlog = true → relaxed.clockSkewSeconds = policy.clockSkewSeconds
  verifyCertificate : relaxed.verifyCertificate = true → policy.verifyCertificate = true
  verifySct : relaxed.verifySct = true → policy.verifySct = true

theorem Relaxes.refl (policy : VerificationPolicy) : Relaxes policy policy where
  identity := fun _ => id
  issuer := fun _ => id
  verifyTlog := id
  clockSkewSeconds := fun _ => rfl
  verifyCertificate := id
  verifySct := id

/-- Policies can be relaxed step by step. -/
theorem Relaxes.trans {relaxed policy strict : VerificationPolicy} (h : Relaxes relaxed policy)
    (h' : Relaxes policy strict) : Relaxes relaxed strict where
  identity := fun identity hrequired => h'.identity identity (h.identity identity hrequired)
  issuer := fun issuer hrequired => h'.issuer issuer (h.issuer issuer hrequired)
  verifyTlog := fun hflag => h'.verifyTlog (h.verifyTlog hflag)
  clockSkewSeconds := fun hflag =>
    (h.clockSkewSeconds hflag).trans (h'.clockSkewSeconds (h.verifyTlog hflag))
  verifyCertificate := fun hflag => h'.verifyCertificate (h.verifyCertificate hflag)
  verifySct := fun hflag => h'.verifySct (h.verifySct hflag)

/-- Each setter that skips a check relaxes the policy. -/
theorem relaxes_skip (policy : VerificationPolicy) :
    Relaxes policy.skipTlog policy ∧ Relaxes policy.skipTimestamp policy ∧
      Relaxes policy.skipCertificateChain policy ∧ Relaxes policy.skipSct policy := by
  have hskipped : false = true → ∀ {p : Prop}, p := fun h => by cases h
  refine ⟨?_, ?_, ?_, ?_⟩
  · exact { Relaxes.refl policy with
      verifyTlog := fun h => hskipped h
      clockSkewSeconds := fun h => hskipped h }
  · exact { Relaxes.refl policy with }
  · exact { Relaxes.refl policy with
      verifyCertificate := fun h => hskipped h
      verifySct := fun h => hskipped h }
  · exact { Relaxes.refl policy with verifySct := fun h => hskipped h }

/-- A bundle that is valid under some options is valid under options that require less. -/
theorem validateBundleWithOptions_relaxed {C : Codec} {bundle : Types.Bundle}
    {relaxed options : ValidationOptions}
    (hok : validateBundleWithOptions C bundle options = .ok ())
    (hproof : relaxed.requireInclusionProof = true → options.requireInclusionProof = true)
    (htimestamp : relaxed.requireTimestamp = true → options.requireTimestamp = true) :
    validateBundleWithOptions C bundle relaxed = .ok () := by
  have hcommon : validateCommon bundle options = .ok () →
      validateCommon bundle relaxed = .ok () := by
    simp only [validateCommon, bind_eq_ok, rejectIf_eq_ok]
    rintro ⟨_, hentries, htimestamps⟩
    exact ⟨(), fun h => hentries (h.imp_right (Or.imp_left hproof)),
      fun h => htimestamps (h.imp_left htimestamp)⟩
  simp only [validateBundleWithOptions, bind_eq_ok, mapError_eq_ok] at hok ⊢
  obtain ⟨version, hmedia, hok⟩ := hok
  refine ⟨version, hmedia, ?_⟩
  cases version with
  | bundle01 =>
    simp only [validateV01, bind_eq_ok] at hok ⊢
    obtain ⟨_, hpromise, _, hwell, hok⟩ := hok
    exact ⟨_, hpromise, _, hwell, hcommon hok⟩
  | bundle02 =>
    simp only [validateV02, bind_eq_ok, rejectIf_eq_ok] at hok ⊢
    obtain ⟨_, hrequired, _, hwell, hok⟩ := hok
    exact ⟨(), fun h => hrequired (h.imp_left hproof), _, hwell, hcommon hok⟩
  | bundle03 =>
    simp only [validateV03, bind_eq_ok, rejectIf_eq_ok] at hok ⊢
    obtain ⟨_, hsingle, _, hrequired, _, hwell, hok⟩ := hok
    exact ⟨_, hsingle, (), fun h => hrequired (h.imp_left hproof), _, hwell, hcommon hok⟩

/-- A value that is not required is not compared. -/
theorem checkRequired_relaxed {what missing : String} {relaxed required actual : Option String}
    (h : ∀ expected, relaxed = some expected → required = some expected)
    (hok : checkRequired what missing required actual = .ok ()) :
    checkRequired what missing relaxed actual = .ok () := by
  simp only [checkRequired, whenSome_eq_ok] at hok ⊢
  exact fun expected hexpected => hok expected (h expected hexpected)

section
variable (E : Env) (root : TrustedRoot)

/-- **A policy that asks for less accepts no less.** What is accepted under a policy is accepted
under each that it relaxes to. The result is the same, but for the integrated time, which is
reported only if the log is verified. -/
theorem verify_of_relaxes {artifact : Artifact} {bundle : Types.Bundle}
    {policy relaxed : VerificationPolicy} {result : VerificationResult}
    (h : Relaxes relaxed policy) (hok : verify E root artifact bundle policy = .ok result) :
    verify E root artifact bundle relaxed = .ok { result with
      integratedTime := if relaxed.verifyTlog then result.integratedTime else none } := by
  simp only [verify, bind_eq_ok, mapError_eq_ok, whenTrue_eq_ok, pure_eq_ok] at hok ⊢
  obtain ⟨_, hvalid, cert, hcert, certInfo, hinfo, signature, hsig, time, htime, _, hchain, _, hsct,
    _, hidentity, _, hissuer, integratedTime, hentries, _, hcontent, _, hconsistent, rfl⟩ := hok
  refine ⟨(), validateBundleWithOptions_relaxed hvalid h.verifyTlog id, cert, hcert, certInfo,
    hinfo, signature, hsig, time, htime, (), fun hflag => hchain (h.verifyCertificate hflag), (),
    fun hflag => hsct (h.verifySct hflag), (), checkRequired_relaxed h.identity hidentity, (),
    checkRequired_relaxed h.issuer hissuer, if relaxed.verifyTlog then integratedTime else none, ?_,
    (), hcontent, (), fun hflag => hconsistent (h.verifyTlog hflag), rfl⟩
  by_cases hflag : relaxed.verifyTlog = true
  · rw [if_pos (h.verifyTlog hflag)] at hentries
    rw [if_pos hflag, if_pos hflag, h.clockSkewSeconds hflag]
    exact hentries
  · rw [if_neg hflag, if_neg hflag]

/-- The artifact's signature is accepted without log verification, and then no time is reported. -/
theorem verify_of_relaxes_skipTlog :
    verify Sample.env Sample.root (.bytes Sample.artifact) Sample.signed
      Sample.policy.skipTlog.skipCertificateChain = .ok (Sample.result none) := by
  have hrelaxes : Relaxes Sample.policy.skipTlog.skipCertificateChain Sample.policy :=
    (relaxes_skip _).2.2.1.trans (relaxes_skip _).1
  exact verify_of_relaxes Sample.env Sample.root hrelaxes Sample.verify_signed

/-- Timestamps are verified under a policy that skips them, too. -/
theorem verify_skipTimestamp (artifact : Artifact) (bundle : Types.Bundle)
    (policy : VerificationPolicy) :
    verify E root artifact bundle policy.skipTimestamp = verify E root artifact bundle policy :=
  rfl

end

end Sigstore.Verify
