import Sigstore.Verify.HashedRekord
import Sigstore.Verify.Sct

/-!
# Certificates and times

The helpers of verification (`verify_impl/helpers.rs`): the signing certificate and its chain, the
time at which the chain is validated, and the certificate's timestamp.
-/

namespace Sigstore.Verify

open Checks Types Crypto TrustRoot

/-- id-kp-codeSigning. -/
def idKpCodeSigning : String := "1.3.6.1.5.5.7.3.3"

/-- The signing certificate. -/
def extractCertificate (content : VerificationMaterialContent) : Except Error Bytes :=
  match content with
  | .certificate rawBytes => .ok rawBytes
  | .x509CertificateChain certificates =>
    okOr certificates.head? (.verification "no certificates in chain")
  | .publicKey _ => .error (.verification "public key verification not yet supported")

/-- The signature that timestamps cover. -/
def extractSignature (content : SignatureContent) : Except Error Bytes :=
  match content with
  | .messageSignature msgSig => .ok msgSig.signature
  | .dsseEnvelope envelope =>
    okOr (envelope.signatures.head?.map DsseSignature.sig)
      (.verification "no signatures in DSSE envelope")

/-- The earlier of two times, where there is one already. -/
def earlier (earliest : Option Int64) (time : Int64) : Int64 :=
  match earliest with
  | some e => if time < e then time else e
  | none => time

section
variable (E : Env) (root : TrustedRoot)

/-! ## The time of the signature -/

/-- The certificates of the timestamp authorities, those that can be selected. -/
def tsaOpts : Tsa.VerifyOpts :=
  { roots := (root.tsaRootCerts E.time).toOption.getD []
    intermediates := (root.tsaIntermediateCerts E.time).toOption.getD []
    tsaCertificates := (root.tsaLeafCerts E.time).toOption.getD [] }

/-- Verify one timestamp over a signature; the result is its time in seconds. -/
def verifyTimestamp (signatureBytes : Bytes) (ts : Rfc3161Timestamp) : Except Error Int64 := do
  let time ← (Tsa.verifyTimestampResponse E.toEnv ts.signedTimestamp signatureBytes
    (tsaOpts E root)).mapError fun e =>
      .verification s!"TSA timestamp verification failed: {e.display}"
  let withinValidity ← (root.isTimestampWithinTsaValidity E.time time).mapError fun e =>
    .verification s!"invalid TSA validity period in trusted root: {e.display}"
  let shown := E.time.display time
  rejectIf (withinValidity = false) (.verification
    s!"TSA timestamp {shown} is outside the trust root's TSA validity period")
  return time.asSecond

/-- The loop of `extract_tsa_timestamp`. -/
def earliestTimestamp (signatureBytes : Bytes) (earliest : Option Int64) :
    List Rfc3161Timestamp → Except Error (Option Int64)
  | [] => .ok earliest
  | ts :: l => do
    let time ← verifyTimestamp E root signatureBytes ts
    earliestTimestamp signatureBytes (some (earlier earliest time)) l

/-- The earliest of the timestamps, all of which must verify. -/
def extractTsaTimestamp (bundle : Types.Bundle) (signatureBytes : Bytes) :
    Except Error (Option Int64) :=
  if bundle.timestamps = [] then .ok none
  else do
    let earliest ← earliestTimestamp E root signatureBytes none bundle.timestamps
    rejectIf (earliest = none) (.verification
      "TSA timestamps present but none could be verified against trusted root")
    return earliest

/-- Whether the bundle has entries of version 0.0.2. -/
def hasV2TlogEntries (bundle : Types.Bundle) : Bool :=
  bundle.tlogEntries.any fun entry => entry.kindVersion.version == "0.0.2"

/-- The integrated time of a `hashedrekord` or `dsse` entry of version 0.0.1 with a promise. -/
def v1IntegratedTime (entry : TransparencyLogEntry) : Option Int64 :=
  if entry.kindVersion.version = "0.0.1" ∧
      (entry.kindVersion.kind = "hashedrekord" ∨ entry.kindVersion.kind = "dsse") ∧
      entry.inclusionPromise.isSome ∧ 0 < entry.integratedTime then some entry.integratedTime
  else none

/-- The loop of `extract_v1_integrated_time_with_promise`. -/
def earliestIntegratedTime (earliest : Option Int64) : List TransparencyLogEntry → Option Int64
  | [] => earliest
  | entry :: l =>
    match v1IntegratedTime entry with
    | some time => earliestIntegratedTime (some (earlier earliest time)) l
    | none => earliestIntegratedTime earliest l

/-- The earliest integrated time of entries with a promise, which is not verified here. -/
def extractV1IntegratedTimeWithPromise (bundle : Types.Bundle) : Option Int64 :=
  earliestIntegratedTime none bundle.tlogEntries

/-- The time at which the certificate is validated: of a timestamp, or else of a log entry. -/
def determineValidationTime (bundle : Types.Bundle) (signature : Bytes) : Except Error Int64 := do
  match ← extractTsaTimestamp E root bundle signature with
  | some tsaTime => return tsaTime
  | none =>
    match extractV1IntegratedTimeWithPromise bundle with
    | some integratedTime => return integratedTime
    | none =>
      if hasV2TlogEntries bundle then .error (.verification
        ("V2 bundle requires RFC3161 timestamp but none could be verified. " ++
          "V2 tlog entries have integrated_time=0 by design. " ++
          "Ensure TSA certificates are present in the trusted root."))
      else .error (.verification
        ("No verified timestamp found. V1 bundles require either an RFC3161 timestamp " ++
          "or a tlog entry with both integrated_time > 0 and an inclusion_promise (SET)."))

/-! ## The certificate -/

/-- Validate that the certificate is within its validity period. -/
def validateCertificateTime (validationTime : Int64) (certInfo : CertificateInfo) :
    Except Error Unit := do
  let shown := validationTime.toInt
  rejectIf (validationTime < certInfo.notBefore) (.verification
    (s!"certificate not yet valid: validation time {shown} is before " ++
      s!"not_before {certInfo.notBefore.toInt}"))
  rejectIf (validationTime > certInfo.notAfter) (.verification
    (s!"certificate has expired: validation time {shown} is after " ++
      s!"not_after {certInfo.notAfter.toInt}"))

/-- The end-entity certificate and the intermediates of the bundle. -/
def chainParts (content : VerificationMaterialContent) : Except Error (Bytes × List Bytes) :=
  match content with
  | .certificate rawBytes => .ok (rawBytes, [])
  | .x509CertificateChain [] => .error (.verification "no certificates in chain")
  | .x509CertificateChain (ee :: intermediates) => .ok (ee, intermediates)
  | .publicKey _ => .error (.verification "public key verification not yet supported")

/-- The trust anchor of the certificate's chain at a time. -/
def certificateChainAnchor (content : VerificationMaterialContent) (validationTime : Int64) :
    Except Error Bytes := do
  let (eeCertDer, intermediateDers) ← chainParts content
  let fulcioCerts ← (root.fulcioCerts E.time).mapError fun e =>
    .verification s!"failed to get Fulcio certs: {e.display}"
  rejectIf (fulcioCerts = []) (.verification "no Fulcio certificates in trusted root")
  let trustAnchors := fulcioCerts.filter fun cert => (E.webpki.anchorFromTrustedCert cert).isOk
  rejectIf (trustAnchors = [])
    (.verification "failed to create trust anchors from Fulcio certificates")
  (E.webpki.endEntityCert eeCertDer).mapError fun e =>
    .verification s!"failed to parse end-entity certificate: {e}"
  (E.webpki.verifyForUsage eeCertDer trustAnchors intermediateDers validationTime.toUInt64
    idKpCodeSigning).mapError fun e =>
      .verification s!"certificate chain validation failed: {e}"

/-- Verify the certificate chain to the roots of the trusted root at a time. -/
def verifyCertificateChain (content : VerificationMaterialContent) (validationTime : Int64) :
    Except Error Unit := do
  let _ ← certificateChainAnchor E root content validationTime
  return ()

/-- The encoding of a certificate's public key. -/
def issuerSpkiDer (cert : Certificate) : Except Error Bytes :=
  (E.x509.spkiToDer cert.subjectPublicKeyInfo).mapError fun e =>
    .verification s!"failed to encode issuer SPKI: {e}"

/-- The key of the first trusted certificate with the issuer's name. -/
def findIssuerSpki (issuerName : Bytes) : List Bytes → Except Error Bytes
  | [] => .error (.verification "could not find issuer certificate for SCT verification")
  | caDer :: l =>
    match E.x509.fromDer caDer with
    | .ok caCert =>
      if caCert.subject = issuerName then issuerSpkiDer E caCert else findIssuerSpki issuerName l
    | .error _ => findIssuerSpki issuerName l

/-- The issuer's key among the trusted certificates. -/
def issuerSpkiFromRoot (cert : Bytes) : Except Error Bytes := do
  let parsedCert ← (E.x509.fromDer cert).mapError fun e =>
    .verification s!"failed to parse certificate: {e}"
  let fulcioCerts ← (root.fulcioCerts E.time).mapError fun e =>
    .verification s!"failed to get Fulcio certs: {e.display}"
  findIssuerSpki E parsedCert.issuer fulcioCerts

/-- The issuer's key: from the chain in the bundle, or else from the trusted root. -/
def getIssuerSpki (content : VerificationMaterialContent) (cert : Bytes) : Except Error Bytes :=
  match content with
  | .x509CertificateChain (_ :: issuerDer :: _) => do
    let issuerCert ← (E.x509.fromDer issuerDer).mapError fun e =>
      .verification s!"failed to parse issuer certificate: {e}"
    issuerSpkiDer E issuerCert
  | _ => issuerSpkiFromRoot E root cert

/-- Verify the timestamp embedded in the signing certificate. -/
def verifySct (content : VerificationMaterialContent) : Except Error Unit := do
  let cert ← extractCertificate content
  let issuerSpki ← getIssuerSpki E root content cert
  verifyEmbeddedSct E root cert issuerSpki

/-! ## Where the time comes from -/

/-- The certificate that is extracted is the bundle's signing certificate. -/
theorem extractCertificate_ok {bundle : Types.Bundle} {cert : Bytes}
    (h : extractCertificate bundle.verificationMaterial.content = .ok cert) :
    bundle.signingCertificate = some cert := by
  unfold Bundle.signingCertificate
  cases hcontent : bundle.verificationMaterial.content with
  | certificate rawBytes => rw [hcontent] at h; cases h; rfl
  | x509CertificateChain certificates =>
    rw [hcontent] at h
    exact okOr_eq_ok.1 h
  | publicKey hint => rw [hcontent] at h; cases h

/-- The signature that is extracted is the first one of the bundle. -/
theorem extractSignature_ok {content : SignatureContent} {sig : Bytes}
    (h : extractSignature content = .ok sig) : firstSignature content = some sig := by
  cases content with
  | messageSignature msgSig => cases h; rfl
  | dsseEnvelope envelope => exact okOr_eq_ok.1 h

/-- The earlier of two times is one of them. -/
theorem earlier_eq (earliest : Option Int64) (time : Int64) :
    earlier earliest time = time ∨ earliest = some (earlier earliest time) := by
  cases earliest with
  | none => exact .inl rfl
  | some e =>
    unfold earlier
    by_cases hlt : time < e
    · simp [hlt]
    · simp [hlt]

/-- Every timestamp of an accepted list verifies, and the earliest time is the time of one. The loop
fails at the first token that does not verify, so that its success speaks of all of them. -/
theorem earliestTimestamp_ok {signatureBytes : Bytes} {earliest result : Option Int64}
    {timestamps : List Rfc3161Timestamp}
    (h : earliestTimestamp E root signatureBytes earliest timestamps = .ok result) :
    (∀ ts ∈ timestamps, ∃ t, verifyTimestamp E root signatureBytes ts = .ok t) ∧
    ∀ time, result = some time → earliest = some time ∨
      ∃ ts ∈ timestamps, verifyTimestamp E root signatureBytes ts = .ok time := by
  induction timestamps generalizing earliest with
  | nil => cases h; exact ⟨fun ts hts => (by cases hts), fun time ht => .inl ht⟩
  | cons ts l ih =>
    simp only [earliestTimestamp, bind_eq_ok] at h
    obtain ⟨time, hts, h⟩ := h
    obtain ⟨hall, hone⟩ := ih h
    refine ⟨List.forall_mem_cons.2 ⟨⟨time, hts⟩, hall⟩, fun t ht => ?_⟩
    rcases hone t ht with heq | ⟨ts', hmem, hts'⟩
    · cases heq
      rcases earlier_eq earliest time with heq | heq
      · exact .inr ⟨ts, List.mem_cons_self, by rw [heq]; exact hts⟩
      · exact .inl heq
    · exact .inr ⟨ts', List.mem_cons_of_mem _ hmem, hts'⟩

/-- The earliest integrated time is the one that was found before, or that of an entry. Entries
without a usable time are passed over and do not fail the loop. -/
theorem earliestIntegratedTime_some {earliest : Option Int64} {time : Int64}
    {entries : List TransparencyLogEntry}
    (h : earliestIntegratedTime earliest entries = some time) :
    earliest = some time ∨ ∃ entry ∈ entries, v1IntegratedTime entry = some time := by
  induction entries generalizing earliest with
  | nil => exact .inl h
  | cons e l ih =>
    unfold earliestIntegratedTime at h
    cases he : v1IntegratedTime e with
    | none =>
      rw [he] at h
      rcases ih h with heq | ⟨entry, hmem, hentry⟩
      · exact .inl heq
      · exact .inr ⟨entry, List.mem_cons_of_mem _ hmem, hentry⟩
    | some t =>
      rw [he] at h
      rcases ih h with heq | ⟨entry, hmem, hentry⟩
      · cases heq
        rcases earlier_eq earliest t with heq | heq
        · exact .inr ⟨e, List.mem_cons_self, by rw [heq]; exact he⟩
        · exact .inl heq
      · exact .inr ⟨entry, List.mem_cons_of_mem _ hmem, hentry⟩

/-- The timestamps of a bundle whose time is established all verify, and the time is the time of
one, or, where there is none, the integrated time of an entry with a promise. -/
theorem determineValidationTime_ok {bundle : Types.Bundle} {signature : Bytes} {time : Int64}
    (h : determineValidationTime E root bundle signature = .ok time) :
    (∀ ts ∈ bundle.timestamps, ∃ t, verifyTimestamp E root signature ts = .ok t) ∧
    ((∃ ts ∈ bundle.timestamps, verifyTimestamp E root signature ts = .ok time) ∨
      bundle.timestamps = [] ∧ extractV1IntegratedTimeWithPromise bundle = some time) := by
  simp only [determineValidationTime, bind_eq_ok] at h
  obtain ⟨tsa, htsa, h⟩ := h
  unfold extractTsaTimestamp at htsa
  by_cases hnil : bundle.timestamps = []
  · rw [if_pos hnil] at htsa
    cases htsa
    refine ⟨fun ts hts => (by rw [hnil] at hts; cases hts), .inr ⟨hnil, ?_⟩⟩
    cases hv1 : extractV1IntegratedTimeWithPromise bundle with
    | some t => rw [hv1] at h; cases h; rfl
    | none =>
      simp only [hv1] at h
      split at h <;> cases h
  · rw [if_neg hnil] at htsa
    simp only [bind_eq_ok, rejectIf_eq_ok, pure_eq_ok] at htsa
    obtain ⟨earliest, hearliest, _, hsome, rfl⟩ := htsa
    obtain ⟨hall, hone⟩ := earliestTimestamp_ok E root hearliest
    refine ⟨hall, .inl ?_⟩
    obtain ⟨t, rfl⟩ := Option.ne_none_iff_exists'.1 hsome
    cases h
    rcases hone time rfl with heq | hts
    · cases heq
    · exact hts

end

end Sigstore.Verify
