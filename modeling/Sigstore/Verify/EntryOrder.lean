import Sigstore.Reordering
import Sigstore.Verify.Deployment
import Sigstore.Verify.IntegratedTime

/-!
# The order of a bundle's entries and timestamps

A bundle lists its log entries and its timestamps, and nothing signs the order of either list, or
that an element comes once. What the verifier decides depends on which entries and timestamps there
are, and on nothing else of the lists (`verify_sameMembers`): every check of the lists is of each
element or of some element, and the time of the certificate check is the earliest of a set of times
(`earliestOf_congr`). The integrated time that is reported is the exception, as it is that of the
last entry with one.
-/

namespace Sigstore.Verify

open Checks Reordering Types Crypto TrustRoot Bundle

/-! ## The earliest of some times -/

/-- The earliest of some times, and of one that was found before. -/
def earliestOf (earliest : Option Int64) (times : List Int64) : Option Int64 :=
  times.foldl (fun earliest time => some (earlier earliest time)) earliest

/-- The earlier of two times is no later than either. -/
theorem earlier_le (earliest : Option Int64) (time : Int64) :
    earlier earliest time ≤ time ∧ ∀ t, earliest = some t → earlier earliest time ≤ t := by
  cases earliest with
  | none => exact ⟨Int64.le_rfl, fun t ht => by cases ht⟩
  | some e =>
    unfold earlier
    dsimp only
    split
    · next hlt => exact ⟨Int64.le_rfl, fun t ht => by cases ht; exact Int64.le_of_lt hlt⟩
    · next hle => exact ⟨Int64.not_lt.1 hle, fun t ht => by cases ht; exact Int64.le_rfl⟩

/-- The earliest time is one of the times, and no later than any. -/
theorem earliestOf_some {earliest : Option Int64} {times : List Int64} {t : Int64}
    (h : earliestOf earliest times = some t) :
    (earliest = some t ∨ t ∈ times) ∧ (∀ t', earliest = some t' → t ≤ t') ∧
      ∀ t' ∈ times, t ≤ t' := by
  induction times generalizing earliest with
  | nil => exact ⟨.inl h, fun t' ht' => by cases h.symm.trans ht'; exact Int64.le_rfl, by simp⟩
  | cons time times ih =>
    obtain ⟨hmem, hle, hall⟩ := ih h
    have hearlier := hle _ rfl
    obtain ⟨htime, hbefore⟩ := earlier_le earliest time
    refine ⟨?_, fun t' ht' => Int64.le_trans hearlier (hbefore t' ht'),
      List.forall_mem_cons.2 ⟨Int64.le_trans hearlier htime, hall⟩⟩
    rcases hmem with heq | hmem
    · rcases earlier_eq earliest time with hlater | hearliest
      · exact .inr (List.mem_cons.2 (.inl ((Option.some.inj heq).symm.trans hlater)))
      · exact .inl (hearliest.trans heq)
    · exact .inr (List.mem_cons_of_mem _ hmem)

/-- There is no earliest time where there is no time. -/
theorem earliestOf_none {earliest : Option Int64} {times : List Int64}
    (h : earliestOf earliest times = none) : earliest = none ∧ times = [] := by
  induction times generalizing earliest with
  | nil => exact ⟨h, rfl⟩
  | cons time times ih => cases (ih h).1

/-- The earliest time depends on which times there are. -/
theorem earliestOf_congr {times times' : List Int64} (h : ∀ t, t ∈ times' ↔ t ∈ times) :
    earliestOf none times' = earliestOf none times := by
  have hle : ∀ {l l' : List Int64} {t t' : Int64}, (∀ s, s ∈ l' ↔ s ∈ l) →
      earliestOf none l = some t → earliestOf none l' = some t' → t ≤ t' := by
    intro l l' t t' hsame ht ht'
    obtain ⟨hmem, -, -⟩ := earliestOf_some ht'
    exact (earliestOf_some ht).2.2 t' ((hsame t').1 (hmem.resolve_left (by simp)))
  cases ht : earliestOf none times with
  | none =>
    have hnil : times' = [] := by
      rw [(earliestOf_none ht).2] at h
      exact List.eq_nil_iff_forall_not_mem.2 fun t htimes => List.not_mem_nil ((h t).1 htimes)
    rw [hnil]
    rfl
  | some t =>
    cases ht' : earliestOf none times' with
    | none =>
      have hmem := (earliestOf_some ht).1.resolve_left (by simp)
      rw [← h, (earliestOf_none ht').2] at hmem
      cases hmem
    | some t' =>
      exact congrArg some (Int64.le_antisymm (hle (fun s => (h s).symm) ht' ht) (hle h ht ht'))

/-! ## Bundles with the same entries and timestamps -/

/-- The bundles are the same but for the order of the entries and of the timestamps, and for how
often each is listed. -/
structure SameMembers (bundle bundle' : Types.Bundle) : Prop where
  mediaType : bundle'.mediaType = bundle.mediaType
  content : bundle'.content = bundle.content
  material : bundle'.verificationMaterial.content = bundle.verificationMaterial.content
  entries : ∀ entry, entry ∈ bundle'.tlogEntries ↔ entry ∈ bundle.tlogEntries
  timestamps : ∀ ts, ts ∈ bundle'.timestamps ↔ ts ∈ bundle.timestamps

section
variable {bundle bundle' : Types.Bundle}

theorem SameMembers.symm (h : SameMembers bundle bundle') : SameMembers bundle' bundle where
  mediaType := h.mediaType.symm
  content := h.content.symm
  material := h.material.symm
  entries := fun entry => (h.entries entry).symm
  timestamps := fun ts => (h.timestamps ts).symm

/-- The structure that is required of a bundle is one of its entries, taken one by one or as to
whether there is one of some kind. -/
theorem SameMembers.validateBundleWithOptions (h : SameMembers bundle bundle') {C : Codec}
    {options : ValidationOptions} (hok : validateBundleWithOptions C bundle options = .ok ()) :
    Bundle.validateBundleWithOptions C bundle' options = .ok () := by
  have hversion : bundle'.version = bundle.version := by
    rw [Bundle.version, Bundle.version, h.mediaType]
  have hproof : bundle'.hasInclusionProof = bundle.hasInclusionProof :=
    any_eq_of_mem_iff _ h.entries
  have hpromise : bundle'.hasInclusionPromise = bundle.hasInclusionPromise :=
    any_eq_of_mem_iff _ h.entries
  have hcommon : validateCommon bundle' options = validateCommon bundle options := by
    simp only [validateCommon, nil_iff_of_mem_iff h.entries, nil_iff_of_mem_iff h.timestamps]
  have hproofs : validateInclusionProofStructure C bundle.tlogEntries = .ok () →
      validateInclusionProofStructure C bundle'.tlogEntries = .ok () := by
    simp only [validateInclusionProofStructure_eq_ok, h.entries]
    exact id
  simp only [Bundle.validateBundleWithOptions, bind_eq_ok, mapError_eq_ok] at hok ⊢
  obtain ⟨version, hmedia, hok⟩ := hok
  refine ⟨version, hversion.trans hmedia, ?_⟩
  cases version with
  | bundle01 =>
    simp only [validateV01, bind_eq_ok, hpromise, hcommon] at hok ⊢
    obtain ⟨_, hrequired, _, hwell, hok⟩ := hok
    exact ⟨_, hrequired, (), hproofs hwell, hok⟩
  | bundle02 =>
    simp only [validateV02, bind_eq_ok, hproof, hcommon] at hok ⊢
    obtain ⟨_, hrequired, _, hwell, hok⟩ := hok
    exact ⟨_, hrequired, (), hproofs hwell, hok⟩
  | bundle03 =>
    simp only [validateV03, bind_eq_ok, hproof, hcommon, h.material] at hok ⊢
    obtain ⟨_, hsingle, _, hrequired, _, hwell, hok⟩ := hok
    exact ⟨_, hsingle, _, hrequired, (), hproofs hwell, hok⟩

variable {E : Env} {root : TrustedRoot}

/-- The loop over the timestamps collects the times of all of them, and fails where one has none. -/
theorem earliestTimestamp_eq_ok {signature : Bytes} {earliest result : Option Int64}
    {timestamps : List Rfc3161Timestamp} :
    earliestTimestamp E root signature earliest timestamps = .ok result ↔
      (∀ ts ∈ timestamps, ∃ t, verifyTimestamp E root signature ts = .ok t) ∧
      earliestOf earliest
        (timestamps.filterMap fun ts => (verifyTimestamp E root signature ts).toOption) =
          result := by
  induction timestamps generalizing earliest with
  | nil => simp [earliestTimestamp, earliestOf]
  | cons ts timestamps ih =>
    rw [earliestTimestamp, List.forall_mem_cons, List.filterMap_cons]
    cases hts : verifyTimestamp E root signature ts with
    | error e => simp [bind, Except.bind]
    | ok time =>
      have hone : ∃ t, (Except.ok time : Except Error Int64) = .ok t := ⟨time, rfl⟩
      simp only [bind, Except.bind, ih, hone, true_and, Except.toOption]
      rfl

/-- The timestamps have one earliest time in any order. -/
theorem SameMembers.extractTsaTimestamp (h : SameMembers bundle bundle') {signature : Bytes}
    {earliest : Option Int64}
    (hok : extractTsaTimestamp E root bundle signature = .ok earliest) :
    Verify.extractTsaTimestamp E root bundle' signature = .ok earliest := by
  unfold Verify.extractTsaTimestamp at hok ⊢
  simp only [nil_iff_of_mem_iff h.timestamps]
  split at hok
  · next hnil => rwa [if_pos hnil]
  · next hne =>
    rw [if_neg hne]
    simp only [bind_eq_ok, earliestTimestamp_eq_ok] at hok ⊢
    obtain ⟨found, ⟨hall, hfound⟩, hok⟩ := hok
    refine ⟨found, ⟨fun ts hts => hall ts ((h.timestamps ts).1 hts), ?_⟩, hok⟩
    rw [← hfound]
    refine earliestOf_congr fun t => ?_
    simp only [List.mem_filterMap, h.timestamps]

/-- The loop over the entries is over the integrated times that are usable. -/
theorem earliestIntegratedTime_eq (earliest : Option Int64) (entries : List TransparencyLogEntry) :
    earliestIntegratedTime earliest entries =
      earliestOf earliest (entries.filterMap v1IntegratedTime) := by
  induction entries generalizing earliest with
  | nil => rfl
  | cons entry entries ih =>
    rw [earliestIntegratedTime, List.filterMap_cons]
    cases v1IntegratedTime entry with
    | none => exact ih earliest
    | some time => exact ih _

/-- The certificate is checked at the same time. -/
theorem SameMembers.determineValidationTime (h : SameMembers bundle bundle') {signature : Bytes}
    {time : Int64} (hok : determineValidationTime E root bundle signature = .ok time) :
    Verify.determineValidationTime E root bundle' signature = .ok time := by
  have hentries : extractV1IntegratedTimeWithPromise bundle' =
      extractV1IntegratedTimeWithPromise bundle := by
    simp only [extractV1IntegratedTimeWithPromise, earliestIntegratedTime_eq]
    refine earliestOf_congr fun t => ?_
    simp only [List.mem_filterMap, h.entries]
  have hv2 : hasV2TlogEntries bundle' = hasV2TlogEntries bundle := any_eq_of_mem_iff _ h.entries
  unfold Verify.determineValidationTime at hok ⊢
  rw [hentries, hv2]
  obtain ⟨found, hfound, hok⟩ := bind_eq_ok.1 hok
  exact bind_eq_ok.2 ⟨found, h.extractTsaTimestamp hfound, hok⟩

/-- An entry is compared with the content and the certificate of a bundle, and not with its other
entries. -/
theorem verifyEntryConsistency_of_sameContent (hcontent : bundle'.content = bundle.content)
    (hmaterial : bundle'.verificationMaterial.content = bundle.verificationMaterial.content)
    (artifact : Artifact) (entry : TransparencyLogEntry) :
    verifyEntryConsistency E bundle' artifact entry =
      verifyEntryConsistency E bundle artifact entry := by
  have hcert : bundle'.signingCertificate = bundle.signingCertificate := by
    rw [Bundle.signingCertificate, Bundle.signingCertificate, hmaterial]
  have hrekord : verifyHashedrekordEntry E entry bundle' artifact =
      verifyHashedrekordEntry E entry bundle artifact := by
    simp only [verifyHashedrekordEntry, validateCertificateMatch, validateIntegratedTime, hcontent,
      hcert]
  unfold verifyEntryConsistency
  rw [hcontent]
  cases bundle.content with
  | dsseEnvelope envelope =>
    simp only [verifyEnvelopeEntry, verifyDsseV001, hrekord, hcert]
  | messageSignature sig =>
    simp only [verifyMessageEntry, hrekord]

/-- The entries are consistent with the content in any order. -/
theorem SameMembers.verifyTlogConsistency (h : SameMembers bundle bundle') {artifact : Artifact}
    (hok : verifyTlogConsistency E bundle artifact = .ok ()) :
    Verify.verifyTlogConsistency E bundle' artifact = .ok () := by
  simp only [Verify.verifyTlogConsistency, verifyEntriesConsistency_eq_ok, h.entries,
    verifyEntryConsistency_of_sameContent h.content h.material] at hok ⊢
  exact hok

/-- The loop over the entries passes exactly where each of them is included, and is of a time in the
certificate's validity if it has one. What it returns has no part in that. -/
theorem exists_verifyTlogEntries {notBefore notAfter skew : Int64} {result : Option Int64}
    {entries : List TransparencyLogEntry} :
    (∃ time, verifyTlogEntries E root notBefore notAfter skew result entries = .ok time) ↔
      ∀ entry ∈ entries, verifyEntryInclusion E root entry = .ok () ∧
        (0 < entry.integratedTime →
          checkIntegratedTime E notBefore notAfter skew entry.integratedTime = .ok ()) := by
  induction entries generalizing result with
  | nil => simp [verifyTlogEntries]
  | cons entry l ih =>
    rw [List.forall_mem_cons]
    simp only [verifyTlogEntries, bind_eq_ok]
    by_cases hpos : 0 < entry.integratedTime
    · simp only [hpos, if_true, bind_eq_ok, forall_const, ← @ih (some entry.integratedTime)]
      constructor
      · rintro ⟨time, _, hincluded, _, htimely, hrest⟩
        exact ⟨⟨hincluded, htimely⟩, time, hrest⟩
      · rintro ⟨⟨hincluded, htimely⟩, time, hrest⟩
        exact ⟨time, (), hincluded, (), htimely, hrest⟩
    · simp only [hpos, if_false, false_implies, and_true, ← @ih result]
      constructor
      · rintro ⟨time, _, hincluded, hrest⟩
        exact ⟨hincluded, time, hrest⟩
      · rintro ⟨hincluded, time, hrest⟩
        exact ⟨time, (), hincluded, hrest⟩

/-- Some entry has a time exactly where there is a last one that has. -/
theorem isSome_lastTimed {entries : List TransparencyLogEntry} :
    (lastTimed entries).isSome ↔ ∃ entry ∈ entries, 0 < entry.integratedTime := by
  constructor
  · intro hsome
    obtain ⟨last, hlast⟩ := Option.isSome_iff_exists.1 hsome
    exact ⟨last, lastTimed_some hlast⟩
  · rintro ⟨entry, hentry, hpos⟩
    rw [lastTimed, List.getLast?_isSome]
    exact List.ne_nil_of_mem (List.mem_filter.2 ⟨hentry, decide_eq_true hpos⟩)

/-! ## Verification -/

/-- The results are the same but for which time is reported. -/
structure SameButTime (result result' : VerificationResult) : Prop where
  rest : result' = { result with integratedTime := result'.integratedTime }
  timed : result'.integratedTime.isSome ↔ result.integratedTime.isSome

variable {artifact : Artifact} {policy : VerificationPolicy}

/-- What is accepted of one bundle is accepted of the other. -/
theorem SameMembers.verify (h : SameMembers bundle bundle') {result : VerificationResult}
    (hok : verify E root artifact bundle policy = .ok result) :
    ∃ result', Verify.verify E root artifact bundle' policy = .ok result' ∧
      SameButTime result result' := by
  have hreported := verify_integratedTime hok
  simp only [Verify.verify, bind_eq_ok, mapError_eq_ok, pure_eq_ok] at hok
  obtain ⟨_, hvalid, cert, hcert, certInfo, hinfo, signature, hsig, time, htime, _, hchain, _, hsct,
    _, hidentity, _, hissuer, integratedTime, hentries, _, hcontent, _, hconsistent, rfl⟩ := hok
  obtain ⟨integratedTime', hentries'⟩ : ∃ time', (if policy.verifyTlog then
      verifyTlogEntries E root certInfo.notBefore certInfo.notAfter policy.clockSkewSeconds none
        bundle'.tlogEntries
    else .ok none) = .ok time' := by
    split at hentries
    · next hflag =>
      have hall := exists_verifyTlogEntries.1 ⟨_, hentries⟩
      rw [if_pos hflag]
      exact exists_verifyTlogEntries.2 fun entry hentry => hall entry ((h.entries entry).1 hentry)
    · next hflag => exact ⟨none, if_neg hflag⟩
  have hok' : Verify.verify E root artifact bundle' policy = .ok {
      success := true
      identity := certInfo.identity
      issuer := certInfo.issuer
      integratedTime := integratedTime'
      warnings := [] } := by
    simp only [Verify.verify, bind_eq_ok, mapError_eq_ok, pure_eq_ok, h.content, h.material]
    refine ⟨(), h.validateBundleWithOptions hvalid, cert, hcert, certInfo, hinfo, signature, hsig,
      time, h.determineValidationTime htime, (), hchain, (), hsct, (), hidentity, (), hissuer,
      integratedTime', hentries', (), hcontent, (), ?_, rfl⟩
    rw [whenTrue_eq_ok] at hconsistent ⊢
    exact fun hflag => h.verifyTlogConsistency (hconsistent hflag)
  refine ⟨_, hok', rfl, ?_⟩
  rw [verify_integratedTime hok', hreported]
  split
  · simp only [Option.isSome_map, isSome_lastTimed, h.entries]
  · exact Iff.rfl

/-- With a given key no time is reported, and the results are the same. -/
theorem SameMembers.verifyWithKey (h : SameMembers bundle bundle') {publicKey : Bytes}
    {result : VerificationResult}
    (hok : verifyWithKey E root artifact bundle publicKey = .ok result) :
    Verify.verifyWithKey E root artifact bundle' publicKey = .ok result := by
  simp only [Verify.verifyWithKey, bind_eq_ok, mapError_eq_ok, pure_eq_ok, h.content] at hok ⊢
  obtain ⟨_, hvalid, scheme, hscheme, _, hentries, _, hcontent, _, hconsistent, hresult⟩ := hok
  have hall := (verifyEntriesInclusion_eq_ok E root).1 hentries
  have hincluded : verifyEntriesInclusion E root bundle'.tlogEntries = .ok () :=
    (verifyEntriesInclusion_eq_ok E root).2 fun entry hentry =>
      hall entry ((h.entries entry).1 hentry)
  exact ⟨(), h.validateBundleWithOptions hvalid, scheme, hscheme, (), hincluded, (), hcontent, (),
    h.verifyTlogConsistency hconsistent, hresult⟩

end

section
variable (E : Env) (root : TrustedRoot)

/-- **The order of the entries does not matter.** Of two bundles with the same entries and the same
timestamps, in any order and any number of times each, either both are accepted or neither is, with
a certificate and with a key. The results differ in nothing but which of the entries' times is
reported. -/
theorem verify_sameMembers {bundle bundle' : Types.Bundle} (h : SameMembers bundle bundle')
    (artifact : Artifact) (policy : VerificationPolicy) (publicKey : Bytes) :
    ((∃ result, verify E root artifact bundle policy = .ok result) ↔
      ∃ result', verify E root artifact bundle' policy = .ok result') ∧
    (∀ result result', verify E root artifact bundle policy = .ok result →
      verify E root artifact bundle' policy = .ok result' → SameButTime result result') ∧
    ∀ result, verifyWithKey E root artifact bundle publicKey = .ok result ↔
      verifyWithKey E root artifact bundle' publicKey = .ok result := by
  refine ⟨⟨?_, ?_⟩, ?_, fun result => ⟨h.verifyWithKey, h.symm.verifyWithKey⟩⟩
  · rintro ⟨result, hok⟩
    obtain ⟨result', hok', -⟩ := h.verify hok
    exact ⟨result', hok'⟩
  · rintro ⟨result', hok'⟩
    obtain ⟨result, hok, -⟩ := h.symm.verify hok'
    exact ⟨result, hok⟩
  · intro result result' hok hok'
    obtain ⟨found, hfound, hsame⟩ := h.verify hok
    cases hfound.symm.trans hok'
    exact hsame

end

namespace Sample

/-- The artifact's entry at a time. -/
def entryAt (time : Int64) : TransparencyLogEntry :=
  promisedEntry "0.0.2" (document messageBody) time

/-- A bundle with the artifact's entry at two times. -/
def loggedTwice (first second : Int64) : Types.Bundle :=
  { bundle (entryAt first) [timestamp (sign 1 artifact)] message with
    verificationMaterial := {
      content := .certificate (certDer 1)
      tlogEntries := [entryAt first, entryAt second]
      timestampVerificationData := ⟨[timestamp (sign 1 artifact)]⟩ } }

theorem sameMembers_loggedTwice (first second : Int64) :
    SameMembers (loggedTwice first second) (loggedTwice second first) where
  mediaType := rfl
  content := rfl
  material := rfl
  entries := fun _ => List.Perm.mem_iff (.swap (entryAt first) (entryAt second) [])
  timestamps := fun _ => Iff.rfl

/-- The two entries are included, and at times of the certificate's validity. -/
theorem verifyTlogEntries_loggedTwice :
    verifyTlogEntries env root 1577836800 1893456000 policy.clockSkewSeconds none
      [entryAt 1690000000, entryAt 1700000000] = .ok (some 1700000000) := by
  have hkey : setKey env root (promisedEntry "" [] 1690000000) = .ok (keyDer 5) := by decide
  have htimely : checkIntegratedTime env 1577836800 1893456000 policy.clockSkewSeconds
      1690000000 = .ok () ∧ checkIntegratedTime env 1577836800 1893456000 policy.clockSkewSeconds
      1700000000 = .ok () := by
    decide
  have hincluded : ∀ {time : Int64}, setKey env root (entryAt time) = .ok (keyDer 5) →
      verifyEntryInclusion env root (entryAt time) = .ok () :=
    verifyEntryInclusion_promisedEntry (alike_primitives [])
  obtain ⟨time, hok⟩ : ∃ time, verifyTlogEntries env root 1577836800 1893456000
      policy.clockSkewSeconds none [entryAt 1690000000, entryAt 1700000000] = .ok time := by
    refine exists_verifyTlogEntries.2 (List.forall_mem_cons.2 ⟨⟨?_, fun _ => htimely.1⟩,
      List.forall_mem_singleton.2 ⟨?_, fun _ => htimely.2⟩⟩)
    · exact hincluded ((setKey_congr rfl rfl).trans hkey)
    · exact hincluded (setKey_promisedEntry _ _).1
  rw [hok, verifyTlogEntries_eq hok]
  rfl

/-- Each of the two entries is consistent with the content, as it is alone. -/
theorem verifyTlogConsistency_loggedTwice (first second : Int64) :
    verifyTlogConsistency env (loggedTwice first second) (.bytes artifact) = .ok () := by
  refine (verifyEntriesConsistency_eq_ok env).2 fun entry hentry => ?_
  obtain ⟨time, rfl⟩ : ∃ time, entry = entryAt time := by
    rcases List.mem_pair.1 hentry with rfl | rfl
    · exact ⟨_, rfl⟩
    · exact ⟨_, rfl⟩
  have hsingle : verifyTlogConsistency env
      (bundle (entryAt time) [timestamp (sign 1 artifact)] message) (.bytes artifact) = .ok () :=
    verifyTlogConsistency_hashedrekord rfl rfl rfl (entryBody_signed time) rfl rfl
      (fun _ => Option.some.inj) rfl
  have halone : verifyEntryConsistency env (loggedTwice first second) (.bytes artifact)
        (entryAt time) =
      verifyEntryConsistency env (bundle (entryAt time) [timestamp (sign 1 artifact)] message)
        (.bytes artifact) (entryAt time) :=
    verifyEntryConsistency_of_sameContent rfl rfl (.bytes artifact) (entryAt time)
  rw [halone]
  exact (verifyEntriesConsistency_eq_ok env).1 hsingle (entryAt time) List.mem_cons_self

/-- The bundle is accepted, and the time of the entry that it lists last is reported. -/
theorem verify_loggedTwice :
    verify env root (.bytes artifact) (loggedTwice 1690000000 1700000000) policy =
      .ok (result (some 1700000000)) := by
  have hvalid : validateBundleWithOptions codec (loggedTwice 1690000000 1700000000)
      { requireInclusionProof := true, requireTimestamp := false } = .ok () := by
    decide
  have htime : determineValidationTime env root (loggedTwice 1690000000 1700000000)
      (sign 1 artifact) = .ok 1700000000 :=
    determineValidationTime_timestamp (alike_primitives _) rfl
  obtain ⟨hchain, htimely, hidentity, hissuer⟩ := certificate_accepted
  obtain ⟨hinfo, hsct, hcontent⟩ := certificate_verified
  simp only [verify, bind_eq_ok, mapError_eq_ok, whenTrue_eq_ok, pure_eq_ok]
  exact ⟨(), hvalid, certDer 1, rfl, certificateInfo, hinfo, sign 1 artifact, rfl, 1700000000,
    htime, (), fun _ => ⟨(), hchain, htimely⟩, (), fun _ => hsct, (), hidentity, (), hissuer, _,
    verifyTlogEntries_loggedTwice, (), hcontent, (),
    fun _ => verifyTlogConsistency_loggedTwice _ _, rfl⟩

end Sample

/-- The artifact's entry at two times, listed in the other order. -/
theorem verify_sameMembers_loggedTwice :
    ∃ result, verify Sample.env Sample.root (.bytes Sample.artifact)
      (Sample.loggedTwice 1700000000 1690000000) Sample.policy = .ok result ∧
      SameButTime (Sample.result (some 1700000000)) result := by
  obtain ⟨haccepted, hsame, -⟩ := verify_sameMembers Sample.env Sample.root
    (Sample.sameMembers_loggedTwice 1690000000 1700000000) (.bytes Sample.artifact) Sample.policy []
  obtain ⟨result, hok⟩ := haccepted.1 ⟨_, Sample.verify_loggedTwice⟩
  exact ⟨result, hok, hsame _ _ Sample.verify_loggedTwice hok⟩

end Sigstore.Verify
