import Sigstore.Verify.Deployment

/-!
# A logged entry for every accepted bundle

Which entries the trusted root authenticates (`Authenticated`): those with an inclusion proof to the
root hash of a checkpoint that a log signed, and those with an inclusion promise under the key of
their log. With log verification, an accepted bundle has an entry that is authenticated and commits
to its content, one and the same (`verify_transparent`).
-/

namespace Sigstore.Verify

open Checks Types Crypto TrustRoot Bundle

section
variable (E : Env) (root : TrustedRoot)

/-- A key of a log of the trusted root whose window has started. -/
def TrustedLogKey (publicKey : Bytes) : Prop :=
  ∃ tlog ∈ root.tlogs, tlog.publicKey.rawBytes = publicKey ∧
    StartedBy E.time tlog.publicKey.validFor E.time.now

/-- An inclusion proof leads from an entry's body to the root hash of a checkpoint that is signed
with a trusted log key. -/
structure ProvenIn (entry : TransparencyLogEntry) (proof : InclusionProof)
    (checkpoint : Checkpoint) : Prop where
  parsed : Checkpoint.fromText E.codec proof.checkpoint.envelope = .ok checkpoint
  included : ∃ leafIndex treeSize, proof.logIndex.asU64 = some leafIndex ∧
    tryU64 proof.treeSize = some treeSize ∧
    Merkle.verifyInclusionProof E.primitives.sha256
      (Merkle.hashLeaf E.primitives.sha256 entry.canonicalizedBody) leafIndex treeSize proof.hashes
      checkpoint.rootHash = .ok ()
  signed : ∃ sig ∈ checkpoint.signatures, ∃ publicKey, TrustedLogKey E root publicKey ∧
    verifySignatureAuto E.primitives publicKey sig.signature checkpoint.signedData = .ok ()

/-- An inclusion promise over an entry verifies under a key of the entry's log whose window meets a
condition. -/
def PromisedUnder (window : Option ValidityPeriod → Prop) (entry : TransparencyLogEntry)
    (promise : InclusionPromise) : Prop :=
  ∃ tlog ∈ root.tlogs, tlog.logId.keyId = entry.logId.keyId ∧ window tlog.publicKey.validFor ∧
    ∃ payload, setPayload E entry = .ok payload ∧
      verifySignatureAuto E.primitives tlog.publicKey.rawBytes promise.signedEntryTimestamp
        payload = .ok ()

/-- An entry is authenticated by the trusted root, its promise under a key with a window that meets
a condition. -/
inductive Authenticated (window : Option ValidityPeriod → Prop) (entry : TransparencyLogEntry) :
    Prop where
  | proof {proof : InclusionProof} {checkpoint : Checkpoint}
      (proof_eq : entry.inclusionProof = some proof)
      (proven : ProvenIn E root entry proof checkpoint)
  | promise {promise : InclusionPromise} (promise_eq : entry.inclusionPromise = some promise)
      (promised : PromisedUnder E root window entry promise)

/-- A window contains the integrated time of an entry. -/
def ContainsIntegratedTime (entry : TransparencyLogEntry) (validFor : Option ValidityPeriod) :
    Prop :=
  ∃ time, E.time.fromSecond entry.integratedTime = .ok time ∧ Within E.time validFor time

/-- A window contains the integrated time of an entry that carries one, and otherwise has started.
-/
def CoversEntry (entry : TransparencyLogEntry) (validFor : Option ValidityPeriod) : Prop :=
  (0 < entry.integratedTime → ContainsIntegratedTime E entry validFor) ∧
  (¬ 0 < entry.integratedTime → StartedBy E.time validFor E.time.now)

variable {E root}

/-- A log key that a checkpoint is verified with is that of a log of the trusted root, whose window
has started. -/
theorem IsRekorKey.trustedLogKey {hint : KeyHint} {publicKey : Bytes}
    (h : IsRekorKey E root hint publicKey) : TrustedLogKey E root publicKey := by
  obtain ⟨keys, hkeys, hmem⟩ := h
  obtain ⟨tlog, htlog, hstarted, hkey, -⟩ := mem_rekorKeysWithHints hkeys hmem
  exact ⟨tlog, htlog, hkey, hstarted⟩

/-- An entry whose inclusion is verified is proven in the tree of a checkpoint that a log key has
signed. -/
theorem InclusionVerified.provenIn {entry : TransparencyLogEntry} {proof : InclusionProof}
    (h : InclusionVerified E root entry proof) :
    ∃ checkpoint, ProvenIn E root entry proof checkpoint := by
  obtain ⟨leafIndex, treeSize, hindex, hsize, hmerkle⟩ := h.merkle
  obtain ⟨checkpoint, hparse, hroot, sig, hsig, publicKey, hkey, hverify⟩ := h.signed
  exact ⟨checkpoint, {
    parsed := hparse
    included := ⟨leafIndex, treeSize, hindex, hsize, hroot ▸ hmerkle⟩
    signed := ⟨sig, hsig, publicKey, hkey.trustedLogKey, hverify⟩ }⟩

/-- The key of a promise is one of the entry's log, chosen by its window. With an integrated time
the window has to contain it, and without one the window has to have begun. -/
theorem setKey_ok {entry : TransparencyLogEntry} {key : Bytes}
    (h : setKey E root entry = .ok key) :
    ∃ tlog ∈ root.tlogs, tlog.logId.keyId = entry.logId.keyId ∧ tlog.publicKey.rawBytes = key ∧
      CoversEntry E entry tlog.publicKey.validFor := by
  unfold setKey at h
  by_cases htime : 0 < entry.integratedTime
  · simp only [if_pos htime, bind_eq_ok, mapError_eq_ok] at h
    obtain ⟨time, hfrom, hkey⟩ := h
    obtain ⟨tlog, htlog, hid, hraw, hvalid⟩ := findKey_ok hkey
    refine ⟨tlog, htlog, hid, hraw, fun _ => ⟨time, hfrom, ?_⟩, fun hnot => absurd htime hnot⟩
    cases hperiod : tlog.publicKey.validFor with
    | none => intro p hp; cases hp
    | some p =>
      rw [hperiod] at hvalid
      exact contains_true hvalid
  · simp only [if_neg htime, mapError_eq_ok] at h
    obtain ⟨tlog, htlog, hid, hraw, hvalid⟩ := findKey_ok h
    exact ⟨tlog, htlog, hid, hraw, fun hpos => absurd hpos htime,
      fun _ => usableForVerification_true hvalid⟩

/-- A promise that is verified is one that a log key has signed over the entry. -/
theorem SetVerified.promisedUnder {entry : TransparencyLogEntry} {promise : InclusionPromise}
    {key : Bytes} (h : SetVerified E root entry promise key) :
    PromisedUnder E root (CoversEntry E entry) entry promise := by
  obtain ⟨tlog, htlog, hid, rfl, hcovers⟩ := setKey_ok h.key
  exact ⟨tlog, htlog, hid, hcovers, h.signed⟩

/-- An accepted entry with a promise or a proof is authenticated. -/
theorem authenticated_of_verifyEntryInclusion {entry : TransparencyLogEntry}
    (h : verifyEntryInclusion E root entry = .ok ())
    (hsome : entry.inclusionPromise.isSome ∨ entry.inclusionProof.isSome) :
    Authenticated E root (CoversEntry E entry) entry := by
  rcases hsome with hpromise | hproof
  · obtain ⟨promise, hpromise⟩ := Option.isSome_iff_exists.1 hpromise
    obtain ⟨key, hset⟩ := verifyEntryInclusion_promise E root h hpromise
    exact .promise hpromise hset.promisedUnder
  · obtain ⟨proof, hproof⟩ := Option.isSome_iff_exists.1 hproof
    obtain ⟨checkpoint, hproven⟩ := (verifyEntryInclusion_proof E root h hproof).provenIn
    exact .proof hproof hproven

/-- The entries of a bundle that is accepted with log verification: one of them is authenticated,
and they all match the content, so it does too. -/
theorem exists_authenticated_entry {bundle : Types.Bundle} {artifact : Artifact}
    {options : ValidationOptions} (hopt : options.requireInclusionProof = true)
    (hvalid : validateBundleWithOptions E.codec bundle options = .ok ())
    (hentries : ∀ entry ∈ bundle.tlogEntries, verifyEntryInclusion E root entry = .ok ())
    (hconsistent : verifyTlogConsistency E bundle artifact = .ok ()) :
    ∃ entry ∈ bundle.tlogEntries, EntryMatches E bundle artifact entry ∧
      Authenticated E root (CoversEntry E entry) entry := by
  obtain ⟨entry, hentry, hsome⟩ := validateBundleWithOptions_ok E.codec hopt hvalid
  have hpresent : entry.inclusionPromise.isSome ∨ entry.inclusionProof.isSome := by
    rcases hsome with ⟨hpromise, -⟩ | hproof
    · exact .inl hpromise
    · exact .inr hproof
  exact ⟨entry, hentry, verifyTlogConsistency_ok E hconsistent entry hentry,
    authenticated_of_verifyEntryInclusion (hentries entry hentry) hpresent⟩

end

section
variable (E : Env) (root : TrustedRoot)

/-- **An accepted bundle is logged.** With log verification, a success of `verify` means that one
entry of the bundle both commits to its content and is authenticated by the trusted root; the window
of a promise's key contains the integrated time of an entry that carries one. -/
theorem verify_transparent {artifact : Artifact} {bundle : Types.Bundle}
    {policy : VerificationPolicy} {result : VerificationResult} (hflag : policy.verifyTlog = true)
    (h : verify E root artifact bundle policy = .ok result) :
    ∃ entry ∈ bundle.tlogEntries, EntryMatches E bundle artifact entry ∧
      Authenticated E root (CoversEntry E entry) entry := by
  obtain ⟨cert, info, signature, time, hv⟩ := verify_ok E root h
  exact exists_authenticated_entry hflag hv.validated (hv.entries hflag) (hv.consistent hflag)

/-- The signed artifact of the deployment, whose entry has a promise. The log signed the body with
its index and its time. -/
theorem verify_transparent_signed :
    ∃ entry ∈ Sample.signed.tlogEntries,
      EntryMatches Sample.env Sample.signed (.bytes Sample.artifact) entry ∧
      Authenticated Sample.env Sample.root (CoversEntry Sample.env entry) entry :=
  verify_transparent Sample.env Sample.root rfl Sample.verify_signed

end

/-- The bundle with the signature of the artifact, whose entry carries no integrated time. -/
def Sample.untimed : Types.Bundle :=
  Sample.bundle (Sample.promisedEntry "0.0.2" (Sample.document Sample.messageBody) 0)
    [Sample.timestamp (Sample.sign 1 Sample.artifact)] Sample.message

/-- An entry without an integrated time is accepted with a promise alone, under a key whose window
does not contain that time. -/
theorem verify_transparent_untimed :
    verify Sample.env Sample.root (.bytes Sample.artifact) Sample.untimed Sample.policy =
      .ok (Sample.result none) ∧
    Sample.policy.verifyTlog = true ∧
    ¬ ∃ entry ∈ Sample.untimed.tlogEntries,
      EntryMatches Sample.env Sample.untimed (.bytes Sample.artifact) entry ∧
      Authenticated Sample.env Sample.root (ContainsIntegratedTime Sample.env entry) entry := by
  refine ⟨Sample.verify_message (.inr rfl), rfl, ?_⟩
  rintro ⟨entry, hentry, -, hauth⟩
  obtain rfl := List.mem_singleton.1 hentry
  cases hauth with
  | proof proof_eq => cases proof_eq
  | promise promise_eq promised =>
    obtain ⟨tlog, htlog, -, ⟨time, htime, hwithin⟩, -⟩ := promised
    obtain rfl := List.mem_singleton.1 htlog
    obtain ⟨hstart, -⟩ := hwithin _ rfl
    obtain ⟨start, hparse, hle⟩ := hstart _ rfl
    cases htime
    cases hparse
    revert hle
    decide

end Sigstore.Verify
