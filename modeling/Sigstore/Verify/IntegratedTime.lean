import Sigstore.Merkle.Inclusion
import Sigstore.Verify.Transparency

/-!
# The integrated time that is reported

A verification reports the last positive integrated time of the entries (`verifyTlogEntries_eq`),
whatever material the entry has. An inclusion proof does not cover that time, so it is signed
exactly where an entry with that time carries an inclusion promise (`reportedTime_iff`).
-/

namespace Sigstore.Verify

open Checks Types Crypto TrustRoot

section
variable (E : Env) (root : TrustedRoot)

/-- The inclusion promise of an entry is a signature over a time with a key of the entry's log,
whose window contains the time. -/
structure SignsTime (entry : TransparencyLogEntry) (time : Int64) : Prop where
  time_eq : entry.integratedTime = time
  signed : ∃ promise, entry.inclusionPromise = some promise ∧
    ∃ tlog ∈ root.tlogs, tlog.logId.keyId = entry.logId.keyId ∧
      ContainsIntegratedTime E entry tlog.publicKey.validFor ∧
      ∃ payload : RekorPayload, payload.integratedTime = time ∧
        payload.body = E.codec.base64Encode entry.canonicalizedBody ∧
        ∃ bytes, E.canonicalJson payload = .ok bytes ∧
          verifySignatureAuto E.primitives tlog.publicKey.rawBytes promise.signedEntryTimestamp
            bytes = .ok ()

/-- The last entry with a positive integrated time. -/
def lastTimed (entries : List TransparencyLogEntry) : Option TransparencyLogEntry :=
  (entries.filter fun entry => 0 < entry.integratedTime).getLast?

/-- An entry with the integrated time of the last entry that has a positive one carries an inclusion
promise. -/
def LastTimePromised (entries : List TransparencyLogEntry) : Prop :=
  ∀ last, lastTimed entries = some last →
    ∃ entry ∈ entries, entry.integratedTime = last.integratedTime ∧ entry.inclusionPromise.isSome

variable {E root}

/-- The last entry with a time is one of the entries, and has a time. -/
theorem lastTimed_some {entries : List TransparencyLogEntry} {last : TransparencyLogEntry}
    (h : lastTimed entries = some last) : last ∈ entries ∧ 0 < last.integratedTime := by
  have hmem := List.mem_filter.1 (List.mem_of_getLast? h)
  exact ⟨hmem.1, of_decide_eq_true hmem.2⟩

/-- An entry with a time is the last one where no later one has a time. -/
theorem lastTimed_cons_of_pos {entry : TransparencyLogEntry} (l : List TransparencyLogEntry)
    (h : 0 < entry.integratedTime) :
    lastTimed (entry :: l) = some ((lastTimed l).getD entry) := by
  simp only [lastTimed, List.filter_cons, decide_eq_true h, if_true, List.getLast?_cons]

/-- An entry without a time is not the last one with a time. -/
theorem lastTimed_cons_of_not_pos {entry : TransparencyLogEntry} (l : List TransparencyLogEntry)
    (h : ¬ 0 < entry.integratedTime) : lastTimed (entry :: l) = lastTimed l := by
  simp only [lastTimed, List.filter_cons, decide_eq_false h, Bool.false_eq_true, if_false]

/-- The loop returns the time of the last entry that has one. Each positive time overwrites the one
before, and no comparison of times is made. -/
theorem verifyTlogEntries_eq {notBefore notAfter skew : Int64} {result result' : Option Int64}
    {entries : List TransparencyLogEntry}
    (h : verifyTlogEntries E root notBefore notAfter skew result entries = .ok result') :
    result' = ((lastTimed entries).map (·.integratedTime)).or result := by
  induction entries generalizing result with
  | nil =>
    cases h
    rfl
  | cons entry l ih =>
    simp only [verifyTlogEntries, bind_eq_ok] at h
    obtain ⟨_, -, h⟩ := h
    split at h
    · next hpos =>
      obtain ⟨_, -, h⟩ := bind_eq_ok.1 h
      rw [ih h, lastTimed_cons_of_pos l hpos]
      cases lastTimed l <;> rfl
    · next hpos => rw [ih h, lastTimed_cons_of_not_pos l hpos]

/-- The time that a verification reports. Without log verification no time is reported, even where
the entries have one. -/
theorem verify_integratedTime {artifact : Artifact} {bundle : Types.Bundle}
    {policy : VerificationPolicy} {result : VerificationResult}
    (h : verify E root artifact bundle policy = .ok result) :
    result.integratedTime =
      if policy.verifyTlog then (lastTimed bundle.tlogEntries).map (·.integratedTime)
      else none := by
  simp only [verify, bind_eq_ok, pure_eq_ok] at h
  obtain ⟨_, -, _, -, _, -, _, -, _, -, _, -, _, -, _, -, _, -, _, htime, _, -, _, -, rfl⟩ := h
  split
  · next hflag =>
    rw [if_pos hflag] at htime
    rw [verifyTlogEntries_eq htime, Option.or_none]
  · next hflag =>
    rw [if_neg hflag] at htime
    cases htime
    rfl

/-- The payload of a promise has the entry's integrated time and body. -/
theorem setPayload_ok {entry : TransparencyLogEntry} {bytes : Bytes}
    (h : setPayload E entry = .ok bytes) :
    ∃ payload : RekorPayload, payload.integratedTime = entry.integratedTime ∧
      payload.body = E.codec.base64Encode entry.canonicalizedBody ∧
      E.canonicalJson payload = .ok bytes := by
  simp only [setPayload, bind_eq_ok, mapError_eq_ok] at h
  obtain ⟨_, -, _, -, h⟩ := h
  exact ⟨_, rfl, rfl, h⟩

/-- An accepted entry with a promise and a positive integrated time signs that time. -/
theorem signsTime_of_verifyEntryInclusion {entry : TransparencyLogEntry}
    (h : verifyEntryInclusion E root entry = .ok ()) (hpos : 0 < entry.integratedTime)
    (hsome : entry.inclusionPromise.isSome) : SignsTime E root entry entry.integratedTime := by
  obtain ⟨promise, hpromise⟩ := Option.isSome_iff_exists.1 hsome
  obtain ⟨key, hset⟩ := verifyEntryInclusion_promise E root h hpromise
  obtain ⟨tlog, htlog, hid, hcovers, bytes, hbytes, hsig⟩ := hset.promisedUnder
  obtain ⟨payload, htime, hbody, hcanonical⟩ := setPayload_ok hbytes
  exact ⟨rfl, promise, hpromise, tlog, htlog, hid, hcovers.1 hpos, payload, htime, hbody, bytes,
    hcanonical, hsig⟩

end

section
variable (E : Env) (root : TrustedRoot)

/-- **When a reported time is signed.** The integrated time that an accepted verification reports is
signed by the promise of an entry of that time if and only if, with log verification, an entry with
the integrated time of the last entry that has a positive one carries a promise. -/
theorem reportedTime_iff {artifact : Artifact} {bundle : Types.Bundle}
    {policy : VerificationPolicy} {result : VerificationResult}
    (h : verify E root artifact bundle policy = .ok result) :
    (∀ time, result.integratedTime = some time →
      ∃ entry ∈ bundle.tlogEntries, SignsTime E root entry time) ↔
      (policy.verifyTlog = true → LastTimePromised bundle.tlogEntries) := by
  have hreported := verify_integratedTime h
  constructor
  · intro hsigned hflag last hlast
    rw [if_pos hflag, hlast] at hreported
    obtain ⟨entry, hentry, htime, promise, hpromise, -⟩ := hsigned _ hreported
    exact ⟨entry, hentry, htime, Option.isSome_iff_exists.2 ⟨promise, hpromise⟩⟩
  · intro hpromised time htime
    obtain ⟨cert, info, signature, checked, hv⟩ := verify_ok E root h
    rw [htime] at hreported
    split at hreported
    · next hflag =>
      obtain ⟨last, hlast, rfl⟩ := Option.map_eq_some_iff.1 hreported.symm
      obtain ⟨entry, hentry, heq, hsome⟩ := hpromised hflag last hlast
      have hpos : 0 < entry.integratedTime := by
        rw [heq]
        exact (lastTimed_some hlast).2
      rw [← heq]
      exact ⟨entry, hentry,
        signsTime_of_verifyEntryInclusion (hv.entries hflag entry hentry) hpos hsome⟩
    · cases hreported

end

namespace Sample

/-- The leaf of the artifact's entry. -/
def messageLeaf : Sha256Hash :=
  ofHex "3bfd9b672dfd1a30b80a1bdc581e9740bb795a724ac36fff1da17a375ed1de26"

/-- SHA-256, also on the leaf of the artifact's entry. -/
def loggingSha256 (bs : Bytes) : Sha256Hash :=
  if bs = 0x00 :: document messageBody then messageLeaf else sha256 bs

def loggingEnv : Env := { env with primitives := { primitives with sha256 := loggingSha256 } }

/-- The signed part of the tree head of a log with a single leaf. -/
def messageHead : String := "rekor.example\n1\n" ++ text64 messageLeaf.bytes ++ "\n"

/-- The artifact's entry with a proof that it is the only one, and a time that nothing signs. -/
def provenEntry : TransparencyLogEntry :=
  { logIndex := ⟨7⟩
    logId := logId
    kindVersion := ⟨"hashedrekord", "0.0.2"⟩
    integratedTime := 1650000000
    inclusionPromise := none
    inclusionProof := some {
      logIndex := ⟨0⟩
      rootHash := messageLeaf
      treeSize := 1
      hashes := []
      checkpoint := ⟨messageHead ++ "\n— rekor.example " ++
        text64 ((sha256 (keyDer 5)).bytes.take 4 ++ sign 5 (utf8Bytes messageHead)) ++ "\n"⟩ }
    canonicalizedBody := document messageBody }

/-- A v0.3 bundle with the artifact's entry. -/
def proven : Types.Bundle :=
  { bundle provenEntry [timestamp (sign 1 artifact)] message with
    mediaType := "application/vnd.dev.sigstore.bundle.v0.3+json" }

/-- The primitives that hash the log, too, are like those of the deployment on what it signs. The
hash differs from the deployment's on the leaf only, which begins with a zero byte, as neither that
signature nor its digest does. -/
theorem alike_logging :
    Alike { primitives with sha256 := loggingSha256 } (sign 1 artifact) := by
  have hdigest : (sha256 (sign 1 artifact)).bytes.head? ≠ some 0x00 := by decide
  have hother : ∀ m : Bytes, m.head? ≠ some 0x00 → loggingSha256 m = sha256 m := by
    intro m hm
    refine if_neg fun h => hm ?_
    rw [h]
    rfl
  exact {
    spki := rfl
    verify := fun _ _ _ _ => rfl
    imprint := hother (sign 1 artifact) (by decide)
    digest := hother _ hdigest }

theorem messageHead_eq : messageHead = "rekor.example\n" ++ toString (1 : UInt64) ++ "\n" ++
    text64 messageLeaf.bytes ++ "\n" := by
  have hsize : "rekor.example\n1\n" = "rekor.example\n" ++ toString (1 : UInt64) ++ "\n" := by
    decide
  rw [messageHead, hsize]

/-- The entry with a proof is included. The hash of the leaf is the root, since the proof has no
other hash. -/
theorem verifyEntryInclusion_proven :
    verifyEntryInclusion loggingEnv root provenEntry = .ok () := by
  have hleaf : Merkle.hashLeaf loggingEnv.primitives.sha256 provenEntry.canonicalizedBody =
      messageLeaf := by
    show Merkle.hashLeaf loggingSha256 (document messageBody) = messageLeaf
    rw [Merkle.hashLeaf, loggingSha256]
    exact if_pos rfl
  have hdirs : HashTree.dirs (UInt64.toNat 0) (UInt64.toNat 1) = [] :=
    HashTree.dirs_of_lt_two (by decide)
  simp only [verifyEntryInclusion, bind_eq_ok, whenSome_eq_ok]
  refine ⟨(), fun proof hproof => ?_, fun promise hpromise => by cases hpromise⟩
  cases hproof
  refine ⟨(), ?_, verifyCheckpoint_signedHead alike_logging messageHead_eq rfl⟩
  simp only [verifyMerkleInclusion, bind_eq_ok, okOr_eq_ok, mapError_eq_ok,
    Merkle.verifyInclusionProof_ok_iff]
  exact ⟨0, rfl, 1, rfl, by decide, (congrArg List.length hdirs).symm, by
    rw [hdirs]
    exact hleaf⟩

/-- The certificate and the signature of the artifact, with the other primitives. -/
theorem certificate_logging :
    verifySct loggingEnv root (.certificate (certDer 1)) = .ok () ∧
    verifyContent loggingEnv certificateInfo (.bytes artifact) message = .ok () ∧
    Bundle.validateBundleWithOptions codec proven
      { requireInclusionProof := true, requireTimestamp := false } = .ok () := by
  decide +kernel

/-- The bundle with the proven entry is accepted, with the entry's time. -/
theorem verify_proven :
    verify loggingEnv root (.bytes artifact) proven policy = .ok (result (some 1650000000)) := by
  obtain ⟨hsct, hcontent, hvalid⟩ := certificate_logging
  have hconsistent : verifyTlogConsistency loggingEnv proven (.bytes artifact) = .ok () :=
    verifyTlogConsistency_hashedrekord rfl rfl rfl
      (entryBody_document [statement] _ rfl rfl rfl logged_messageBody) rfl rfl
      (fun _ => Option.some.inj) rfl
  exact verify_timestamped proven provenEntry alike_logging rfl rfl rfl certificate_verified.1 hsct
    rfl hvalid verifyEntryInclusion_proven (fun _ => by decide) hcontent hconsistent

end Sample

/-- An accepted entry with an inclusion proof alone has its time reported, whatever it is. The time
is no part of the leaf that is hashed, so that no proof can cover it. -/
theorem reportedTime_fails :
    ¬ ∀ (E : Env) (root : TrustedRoot) (artifact : Artifact) (bundle : Types.Bundle)
      (policy : VerificationPolicy) (result : VerificationResult),
      verify E root artifact bundle policy = .ok result →
      ∀ time, result.integratedTime = some time →
        ∃ entry ∈ bundle.tlogEntries, SignsTime E root entry time := by
  intro h
  obtain ⟨entry, hentry, -, promise, hpromise, -⟩ := h _ _ _ _ _ _ Sample.verify_proven _ rfl
  rw [List.mem_singleton.1 hentry] at hpromise
  cases hpromise

/-- The time of the signed artifact of the deployment, whose entry has a promise. The promise covers
the time, since it is part of what the log signs. -/
theorem reportedTime_signed :
    ∃ entry ∈ Sample.signed.tlogEntries, SignsTime Sample.env Sample.root entry 1700000000 := by
  refine (reportedTime_iff Sample.env Sample.root Sample.verify_signed).2 (fun _ last hlast => ?_)
    _ rfl
  exact ⟨last, (lastTimed_some hlast).1, rfl, by
    rw [List.mem_singleton.1 (lastTimed_some hlast).1]
    rfl⟩

end Sigstore.Verify
