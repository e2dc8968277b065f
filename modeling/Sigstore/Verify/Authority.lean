import Sigstore.Verify.Deployment

/-!
# The authority of a timestamp

Which timestamp authority admits the time of an accepted token. `extract_tsa_timestamp` validates
the chain of the token's signer against the certificates of all authorities together, and then looks
for any authority with a window that contains the time. So the anchor of the chain belongs to an
authority of the trusted root and some authority admits the time, and these are the same authority
where no other one admits it (`extractTsaTimestamp_window`). A retired authority can stamp a time
that only its successor admits (`extractTsaTimestamp_other_window`).
-/

namespace Sigstore.Verify

open Checks Types Crypto TrustRoot

/-- Path validation returns one of the anchors it was given. -/
def ReturnsAnchor (W : WebPki) : Prop :=
  ∀ ee anchors intermediates time usage anchor,
    W.verifyForUsage ee anchors intermediates time usage = .ok anchor → anchor ∈ anchors

/-- The chain of an authority ends in a certificate. -/
def Anchors (tsa : TimestampAuthority) (cert : Bytes) : Prop :=
  tsa.certificates.getLast? = some cert

section
variable (E : Env) (root : TrustedRoot)

/-- A token over a signature has a time, and the chain of its signer ends in an anchor. -/
def SignedUnder (ts : Rfc3161Timestamp) (signature : Bytes) (time : Timestamp) (anchor : Bytes) :
    Prop :=
  ∃ tstInfo signedData tstInfoDer signer,
    Tsa.parseTimestampToken E.toEnv ts.signedTimestamp = .ok (tstInfo, signedData) ∧
    Tsa.digest E.toEnv tstInfo.hashAlgorithm signature = some tstInfo.hashedMessage ∧
    E.time.fromSecond tstInfo.genTime.toInt64 = .ok time ∧
    signedData.econtent = some tstInfoDer ∧
    Tsa.verifyCmsSignature E.toEnv signedData tstInfoDer (tsaOpts E root) = .ok signer ∧
    Tsa.validateTsaCertificateChain E.toEnv signer time (tsaOpts E root)
      (Tsa.extractCertificates signedData) = .ok anchor

/-- An authority whose window has started anchors a certificate. -/
def TrustedAnchor (cert : Bytes) : Prop :=
  ∃ tsa ∈ root.timestampAuthorities, StartedBy E.time tsa.validFor E.time.now ∧ Anchors tsa cert

variable {E root}

/-- The roots of the verification are the anchors of authorities. -/
theorem mem_tsaOpts_roots {cert : Bytes} (h : cert ∈ (tsaOpts E root).roots) :
    TrustedAnchor E root cert := by
  unfold tsaOpts at h
  cases hroots : root.tsaRootCerts E.time with
  | error e => rw [hroots] at h; cases h
  | ok roots =>
    rw [hroots] at h
    exact mem_tsaRootCerts hroots h

/-- A token that verifies has a signer whose chain ends in an anchor. -/
theorem signedUnder_of_verified {ts : Rfc3161Timestamp} {signature : Bytes}
    {tstInfo : Tsa.TstInfo} {time : Timestamp}
    (h : Tsa.TokenVerified E.toEnv ts.signedTimestamp signature (tsaOpts E root) tstInfo time) :
    ∃ anchor, SignedUnder E root ts signature time anchor := by
  obtain ⟨signedData, der, signer, anchor, hparse, hder, hsigner, hanchor⟩ := h.signed
  exact ⟨anchor, tstInfo, signedData, der, signer, hparse, h.imprint, h.genTime, hder, hsigner,
    hanchor⟩

/-- The anchor of a chain is that of an authority. -/
theorem SignedUnder.trustedAnchor {ts : Rfc3161Timestamp} {signature : Bytes} {time : Timestamp}
    {anchor : Bytes} (h : SignedUnder E root ts signature time anchor)
    (hpki : ReturnsAnchor E.webpki) : TrustedAnchor E root anchor := by
  obtain ⟨tstInfo, signedData, der, signer, -, -, -, -, -, hanchor⟩ := h
  simp only [Tsa.validateTsaCertificateChain, bind_eq_ok, mapError_eq_ok] at hanchor
  obtain ⟨_, -, signerDer, -, _, -, _, -, embedded, -, hpath⟩ := hanchor
  exact mem_tsaOpts_roots (hpki _ _ _ _ _ _ hpath)

/-- A token over a signature has one time and one anchor: both are computed from it. -/
theorem SignedUnder.unique {ts : Rfc3161Timestamp} {signature : Bytes} {time time' : Timestamp}
    {anchor anchor' : Bytes} (h : SignedUnder E root ts signature time anchor)
    (h' : SignedUnder E root ts signature time' anchor') : time' = time ∧ anchor' = anchor := by
  obtain ⟨tstInfo, signedData, der, signer, hparse, -, htime, hder, hsigner, hanchor⟩ := h
  obtain ⟨tstInfo', signedData', der', signer', hparse', -, htime', hder', hsigner', hanchor'⟩ := h'
  cases hparse.symm.trans hparse'
  cases htime.symm.trans htime'
  cases hder.symm.trans hder'
  cases hsigner.symm.trans hsigner'
  cases hanchor.symm.trans hanchor'
  exact ⟨rfl, rfl⟩

/-- An accepted timestamp has a signer with an anchor, and some authority admits its time. The
anchor is one of the certificates of all authorities taken together, and the admitting authority is
found without looking at it; this is why nothing relates the two. -/
theorem verifyTimestamp_ok {ts : Rfc3161Timestamp} {signature : Bytes} {seconds : Int64}
    (h : verifyTimestamp E root signature ts = .ok seconds) :
    ∃ time anchor, seconds = time.asSecond ∧ SignedUnder E root ts signature time anchor ∧
      (root.timestampAuthorities ≠ [] →
        ∃ tsa ∈ root.timestampAuthorities, Within E.time tsa.validFor time) := by
  simp only [verifyTimestamp, bind_eq_ok, mapError_eq_ok, rejectIf_eq_ok, Bool.not_eq_false] at h
  obtain ⟨time, htoken, inside, hinside, _, rfl, heq⟩ := h
  cases pure_eq_ok.1 heq
  obtain ⟨tstInfo, hverified⟩ := Tsa.verifyTimestampResponse_ok E.toEnv htoken
  obtain ⟨anchor, hsigned⟩ := signedUnder_of_verified hverified
  refine ⟨time, anchor, rfl, hsigned, fun hne => ?_⟩
  rw [TrustedRoot.isTimestampWithinTsaValidity, if_neg hne] at hinside
  exact anyTsaContains_true hinside

/-- The tokens of a bundle whose time is extracted are all accepted. -/
theorem extractTsaTimestamp_ok {bundle : Types.Bundle} {signature : Bytes}
    {earliest : Option Int64} (h : extractTsaTimestamp E root bundle signature = .ok earliest)
    {ts : Rfc3161Timestamp} (hts : ts ∈ bundle.timestamps) :
    ∃ seconds, verifyTimestamp E root signature ts = .ok seconds := by
  rw [extractTsaTimestamp, if_neg (List.ne_nil_of_mem hts)] at h
  simp only [bind_eq_ok] at h
  obtain ⟨earliest, hearliest, -⟩ := h
  exact (earliestTimestamp_ok E root hearliest).1 ts hts

/-- **The window of an accepted timestamp.** The chain of the signer of an accepted token ends in
the certificate of an authority whose window has started, and some authority has a window that
contains the token's time. Where the chain of every authority with such a window ends in that
certificate, the time is within the window of an authority that anchors the signer. -/
theorem extractTsaTimestamp_window (hpki : ReturnsAnchor E.webpki) {bundle : Types.Bundle}
    {signature : Bytes} {earliest : Option Int64}
    (h : extractTsaTimestamp E root bundle signature = .ok earliest) {ts : Rfc3161Timestamp}
    (hts : ts ∈ bundle.timestamps) :
    ∃ time anchor, SignedUnder E root ts signature time anchor ∧ TrustedAnchor E root anchor ∧
      (∃ tsa ∈ root.timestampAuthorities, Within E.time tsa.validFor time) ∧
      ((∀ tsa ∈ root.timestampAuthorities, Within E.time tsa.validFor time → Anchors tsa anchor) →
        ∃ tsa ∈ root.timestampAuthorities,
          Anchors tsa anchor ∧ Within E.time tsa.validFor time) := by
  obtain ⟨seconds, hverified⟩ := extractTsaTimestamp_ok h hts
  obtain ⟨time, anchor, -, hsigned, hwindow⟩ := verifyTimestamp_ok hverified
  have hanchor : TrustedAnchor E root anchor := hsigned.trustedAnchor hpki
  obtain ⟨tsa, htsa, hwithin⟩ := hwindow <| by
    obtain ⟨tsa, htsa, -⟩ := hanchor
    exact List.ne_nil_of_mem htsa
  exact ⟨time, anchor, hsigned, hanchor, ⟨tsa, htsa, hwithin⟩,
    fun hall => ⟨tsa, htsa, hall tsa htsa hwithin, hwithin⟩⟩

end

namespace Sample

/-- The path validation of the deployment returns an anchor that it was given. -/
theorem webpki_returnsAnchor : ReturnsAnchor webpki := by
  intro ee anchors _ time usage anchor h
  simp only [webpki] at h
  split at h
  · split at h
    · next hfind =>
      have hmem := List.mem_of_find?_eq_some hfind
      split_ifs at h <;> (cases h; exact hmem)
    · cases h
  · cases h

/-- An authority with the anchor `certDer 2` retired in 2020, and the one of the deployment took
over. -/
def succeeded : TrustedRoot :=
  { root with timestampAuthorities :=
      [⟨[certDer 2], some ⟨none, some "2020-01-01T00:00:00Z"⟩⟩,
        ⟨[certDer 3, certDer 4], validFor⟩] }

/-- The token of the deployment is accepted under the two authorities. -/
theorem extractTsaTimestamp_succeeded :
    extractTsaTimestamp env succeeded signed (sign 1 artifact) = .ok (some 1700000000) := by
  decide

/-- The successor stamps. -/
theorem signedUnder_succeeded :
    SignedUnder env succeeded (timestamp (sign 1 artifact)) (sign 1 artifact) 1700000000000000000
      (certDer 4) :=
  ⟨_, _, _, _, rfl, by decide, rfl, rfl, rfl, by decide⟩

/-- A window that ended in 2020 does not contain the time of the stamp. -/
theorem not_within_retired :
    ¬ Within jiff (some ⟨none, some "2020-01-01T00:00:00Z"⟩) 1700000000000000000 := by
  intro hwithin
  obtain ⟨end_, hparse, hle⟩ := (hwithin _ rfl).2 _ rfl
  cases hparse
  exact absurd hle (by decide)

/-- Only the successor admits the time of the stamp, and its chain ends in the signer's anchor. -/
theorem anchors_succeeded {tsa : TimestampAuthority}
    (htsa : tsa ∈ succeeded.timestampAuthorities)
    (hwithin : Within jiff tsa.validFor 1700000000000000000) : Anchors tsa (certDer 4) := by
  simp only [succeeded, List.mem_cons, List.not_mem_nil, or_false] at htsa
  rcases htsa with rfl | rfl
  · exact absurd hwithin not_within_retired
  · rfl

end Sample

/-- Of two authorities the one that anchors the signer admits the time of its stamp. The other one
is retired, and its window does not have that time. -/
theorem extractTsaTimestamp_window_signed :
    ∃ time anchor, SignedUnder Sample.env Sample.succeeded
        (Sample.timestamp (Sample.sign 1 Sample.artifact)) (Sample.sign 1 Sample.artifact) time
        anchor ∧
      TrustedAnchor Sample.env Sample.succeeded anchor ∧
      ∃ tsa ∈ Sample.succeeded.timestampAuthorities,
        Anchors tsa anchor ∧ Within Sample.env.time tsa.validFor time := by
  obtain ⟨time, anchor, hsigned, hanchor, -, hsame⟩ := extractTsaTimestamp_window
    Sample.webpki_returnsAnchor Sample.extractTsaTimestamp_succeeded List.mem_cons_self
  obtain ⟨rfl, rfl⟩ := Sample.signedUnder_succeeded.unique hsigned
  exact ⟨_, _, hsigned, hanchor, hsame fun tsa htsa => Sample.anchors_succeeded htsa⟩

namespace Sample

/-- The authority of the deployment retired in 2020, and another one took over. -/
def rotated : TrustedRoot :=
  { root with timestampAuthorities :=
      [⟨[certDer 3, certDer 4], some ⟨none, some "2020-01-01T00:00:00Z"⟩⟩,
        ⟨[certDer 2], validFor⟩] }

/-- The retired authority still stamps. -/
theorem signedUnder_rotated :
    SignedUnder env rotated (timestamp (sign 1 artifact)) (sign 1 artifact) 1700000000000000000
      (certDer 4) :=
  ⟨_, _, _, _, rfl, by decide, rfl, rfl, rfl, by decide⟩

/-- Only the successor has a window with the time of the stamp. -/
theorem rotated_not_within {tsa : TimestampAuthority} (htsa : tsa ∈ rotated.timestampAuthorities)
    (hanchors : Anchors tsa (certDer 4)) : ¬ Within jiff tsa.validFor 1700000000000000000 := by
  simp only [rotated, List.mem_cons, List.not_mem_nil, or_false] at htsa
  rcases htsa with rfl | rfl
  · exact not_within_retired
  · cases hanchors

end Sample

/-- A token whose time only the successor of its authority admits is accepted. The two authorities
of the sample are a retired one and its successor, and the token's chain ends in the retired one. -/
theorem extractTsaTimestamp_other_window :
    ¬ ∀ (E : Env) (root : TrustedRoot) (bundle : Types.Bundle) (signature : Bytes)
        (earliest : Option Int64), ReturnsAnchor E.webpki →
      extractTsaTimestamp E root bundle signature = .ok earliest →
      ∀ ts ∈ bundle.timestamps, ∀ time anchor, SignedUnder E root ts signature time anchor →
        ∃ tsa ∈ root.timestampAuthorities,
          Anchors tsa anchor ∧ Within E.time tsa.validFor time := by
  intro hall
  obtain ⟨tsa, htsa, hanchors, hwithin⟩ := hall Sample.env Sample.rotated Sample.signed
    (Sample.sign 1 Sample.artifact) (some 1700000000) Sample.webpki_returnsAnchor
    (by decide +kernel) _ List.mem_cons_self _ _ Sample.signedUnder_rotated
  exact Sample.rotated_not_within htsa hanchors hwithin

end Sigstore.Verify
