import Sigstore.Crypto.X509
import Sigstore.Merkle.Proof
import Sigstore.Tsa.Verify
import Sigstore.TrustRoot.TrustedRoot
import Sigstore.Types.Checkpoint

/-!
# Transparency log verification

The errors and the surroundings of `sigstore-verify`, and the verification of log entries
(`verify_impl/tlog.rs`): the Merkle inclusion proof, the checkpoint, and the inclusion promise.
`InclusionVerified` and `SetVerified` are what an accepted proof and an accepted promise establish.
-/

namespace Sigstore.Verify

open Checks Types Crypto TrustRoot

/-- Errors during verification. -/
inductive Error where
  | verification (msg : String)
  | crypto (e : Crypto.Error)
  deriving DecidableEq, Repr

/-- What an inclusion promise signs. -/
structure RekorPayload where
  body : String
  integratedTime : Int64
  logIndex : Int64
  logId : String
  deriving DecidableEq

/-- What the signature of a certificate timestamp covers. -/
structure DigitallySigned where
  timestamp : UInt64
  issuerKeyHash : Sha256Hash
  tbsCertificate : Bytes
  extensions : Bytes
  logId : Bytes
  signature : Bytes
  deriving DecidableEq

/-- What verification uses from outside. -/
structure Env extends Tsa.Env where
  codec : Codec
  /-- Canonical JSON of a payload. -/
  canonicalJson : RekorPayload → Except String Bytes
  /-- TLS encoding of what a certificate timestamp signs. -/
  tlsSerialize : DigitallySigned → Except String Bytes

section
variable (E : Env) (root : TrustedRoot)

/-! ## The inclusion proof -/

/-- Verify the Merkle inclusion proof of a log entry's body. -/
def verifyMerkleInclusion (entry : TransparencyLogEntry) (proof : InclusionProof) :
    Except Error Unit := do
  let leafIndex ← okOr proof.logIndex.asU64
    (.verification "invalid log_index in inclusion proof")
  let treeSize ← okOr (tryU64 proof.treeSize)
    (.verification "invalid tree_size in inclusion proof")
  let leafHash := Merkle.hashLeaf E.primitives.sha256 entry.canonicalizedBody
  (Merkle.verifyInclusionProof E.primitives.sha256 leafHash leafIndex treeSize proof.hashes
    proof.rootHash).mapError fun e =>
      .verification s!"inclusion proof verification failed: {e.display}"

/-- The loops of `verify_checkpoint`: the first signature with a key of its hint decides. -/
def verifyCheckpointSignature (keys : List (KeyHint × Bytes)) (message : Bytes) :
    List CheckpointSignature → Except Error Unit
  | [] => .error (.verification "No matching Rekor key found for checkpoint signature")
  | sig :: sigs =>
    match keys.find? fun key => sig.keyId = key.1 with
    | some (_, publicKey) =>
      (verifySignatureAuto E.primitives publicKey sig.signature message).mapError fun e =>
        .verification s!"Checkpoint signature verification failed: {e.display}"
    | none => verifyCheckpointSignature keys message sigs

/-- Verify a checkpoint against an inclusion proof and the log keys. -/
def verifyCheckpoint (envelope : String) (proof : InclusionProof) : Except Error Unit := do
  let checkpoint ← (Checkpoint.fromText E.codec envelope).mapError fun e =>
    .verification s!"Failed to parse checkpoint: {e.display}"
  rejectIf (checkpoint.rootHash ≠ proof.rootHash) (.verification
    (s!"Checkpoint root hash mismatch: expected {checkpoint.rootHash.toHex}, " ++
      s!"got {proof.rootHash.toHex}"))
  let rekorKeys ← (root.rekorKeysWithHints E.time E.codec).mapError fun e =>
    .verification s!"Failed to get Rekor keys: {e.display}"
  verifyCheckpointSignature E rekorKeys checkpoint.signedData checkpoint.signatures

/-! ## The inclusion promise -/

/-- The key that an entry's promise is verified with: one valid at the integrated time, where the
entry carries one. -/
def setKey (entry : TransparencyLogEntry) : Except Error Bytes :=
  let keyId := entry.logId.keyId
  if 0 < entry.integratedTime then do
    let seconds := entry.integratedTime.toInt
    let integratedTs ← (E.time.fromSecond entry.integratedTime).mapError fun e =>
      .verification s!"Invalid integrated time {seconds}: {e}"
    let shown := E.time.display integratedTs
    (root.rekorKeyForLogAt E.time keyId integratedTs).mapError fun e =>
      .verification
        s!"No log key valid at integrated time {shown} for log ID {keyId}: {e.display}"
  else
    (root.rekorKeyForLog E.time keyId).mapError fun _ =>
      .verification s!"Unknown log ID: {keyId}"

/-- The bytes that an entry's promise signs. -/
def setPayload (entry : TransparencyLogEntry) : Except Error Bytes := do
  let logIndex ← okOr entry.logIndex.asU64 (.verification "Invalid log index")
  let logIdBytes ← (E.codec.base64Decode entry.logId.keyId).mapError fun _ =>
    .verification "Invalid base64 log ID"
  (E.canonicalJson {
      body := E.codec.base64Encode entry.canonicalizedBody
      integratedTime := entry.integratedTime
      logIndex := logIndex.toInt64
      logId := hexEncode logIdBytes }).mapError fun e =>
    .verification s!"Canonicalization failed: {e}"

/-- Verify the inclusion promise (SET) of an entry. -/
def verifySet (entry : TransparencyLogEntry) : Except Error Unit := do
  let promise ← okOr entry.inclusionPromise (.verification "Missing inclusion promise")
  let logKey ← setKey E root entry
  let canonicalJson ← setPayload E entry
  (verifySignatureAuto E.primitives logKey promise.signedEntryTimestamp canonicalJson).mapError
    fun e => .verification s!"SET verification failed: {e.display}"

/-! ## Entries -/

/-- Verify the log-inclusion material that an entry has. -/
def verifyEntryInclusion (entry : TransparencyLogEntry) : Except Error Unit := do
  whenSome entry.inclusionProof fun proof => do
    verifyMerkleInclusion E entry proof
    verifyCheckpoint E root proof.checkpoint.envelope proof
  whenSome entry.inclusionPromise fun _ => verifySet E root entry

/-- The checks of an entry's integrated time. -/
def checkIntegratedTime (notBefore notAfter clockSkewSeconds time : Int64) : Except Error Unit := do
  let now := E.time.now.asSecond
  let shown := time.toInt
  rejectIf (time > now + clockSkewSeconds) (.verification
    (s!"integrated time {shown} is in the future (current time: {now.toInt}, " ++
      s!"tolerance: {clockSkewSeconds.toInt}s)"))
  rejectIf (time < notBefore) (.verification
    (s!"integrated time {shown} is before certificate validity " ++
      s!"(not_before: {notBefore.toInt})"))
  rejectIf (time > notAfter) (.verification
    (s!"integrated time {shown} is after certificate validity " ++
      s!"(not_after: {notAfter.toInt})"))

/-- The loop of `verify_tlog_entries`; the result is the last integrated time. -/
def verifyTlogEntries (notBefore notAfter clockSkewSeconds : Int64) (result : Option Int64) :
    List TransparencyLogEntry → Except Error (Option Int64)
  | [] => .ok result
  | entry :: l => do
    verifyEntryInclusion E root entry
    if 0 < entry.integratedTime then do
      checkIntegratedTime E notBefore notAfter clockSkewSeconds entry.integratedTime
      verifyTlogEntries notBefore notAfter clockSkewSeconds (some entry.integratedTime) l
    else verifyTlogEntries notBefore notAfter clockSkewSeconds result l

/-! ## What an accepted entry establishes -/

/-- A log key that may be used now, with the hint it is found by. -/
def IsRekorKey (hint : KeyHint) (publicKey : Bytes) : Prop :=
  ∃ keys, root.rekorKeysWithHints E.time E.codec = .ok keys ∧ (hint, publicKey) ∈ keys

/-- The inclusion proof of an entry's body to the root hash of a checkpoint that a log key signed.
-/
structure InclusionVerified (entry : TransparencyLogEntry) (proof : InclusionProof) : Prop where
  merkle : ∃ leafIndex treeSize, proof.logIndex.asU64 = some leafIndex ∧
    tryU64 proof.treeSize = some treeSize ∧
    Merkle.verifyInclusionProof E.primitives.sha256
      (Merkle.hashLeaf E.primitives.sha256 entry.canonicalizedBody) leafIndex treeSize proof.hashes
      proof.rootHash = .ok ()
  signed : ∃ checkpoint, Checkpoint.fromText E.codec proof.checkpoint.envelope = .ok checkpoint ∧
    checkpoint.rootHash = proof.rootHash ∧
    ∃ sig ∈ checkpoint.signatures, ∃ publicKey, IsRekorKey E root sig.keyId publicKey ∧
      verifySignatureAuto E.primitives publicKey sig.signature checkpoint.signedData = .ok ()

/-- The inclusion promise of an entry over its body and its times, under a key. -/
structure SetVerified (entry : TransparencyLogEntry) (promise : InclusionPromise)
    (logKey : Bytes) : Prop where
  key : setKey E root entry = .ok logKey
  signed : ∃ payload, setPayload E entry = .ok payload ∧
    verifySignatureAuto E.primitives logKey promise.signedEntryTimestamp payload = .ok ()

/-- A signature of an accepted checkpoint verifies under a log key of its hint. Which one it is
depends on the order of the lines and of the keys; see `verifyCheckpointSignature_isOk`. -/
theorem verifyCheckpointSignature_ok {keys : List (KeyHint × Bytes)} {message : Bytes}
    {sigs : List CheckpointSignature}
    (h : verifyCheckpointSignature E keys message sigs = .ok ()) :
    ∃ sig ∈ sigs, ∃ publicKey, (sig.keyId, publicKey) ∈ keys ∧
      verifySignatureAuto E.primitives publicKey sig.signature message = .ok () := by
  induction sigs with
  | nil => cases h
  | cons sig sigs ih =>
    unfold verifyCheckpointSignature at h
    cases hfind : keys.find? fun key => sig.keyId = key.1 with
    | none =>
      rw [hfind] at h
      obtain ⟨sig', hmem, hsig'⟩ := ih h
      exact ⟨sig', List.mem_cons_of_mem _ hmem, hsig'⟩
    | some key =>
      obtain ⟨hint, publicKey⟩ := key
      rw [hfind] at h
      have hhint : sig.keyId = hint := by simpa using List.find?_some hfind
      subst hhint
      exact ⟨sig, List.mem_cons_self, publicKey, List.mem_of_find?_eq_some hfind,
        mapError_eq_ok.1 h⟩

/-- An accepted entry with a proof is included in the tree of its checkpoint. The body is hashed as
it is in the entry, and the root that the proof leads to is the one that the checkpoint has. -/
theorem verifyEntryInclusion_proof {entry : TransparencyLogEntry} {proof : InclusionProof}
    (h : verifyEntryInclusion E root entry = .ok ()) (hproof : entry.inclusionProof = some proof) :
    InclusionVerified E root entry proof := by
  simp only [verifyEntryInclusion, bind_eq_ok, whenSome_eq_ok] at h
  obtain ⟨-, hok, -⟩ := h
  obtain ⟨_, hmerkle, hcheckpoint⟩ := hok proof hproof
  simp only [verifyMerkleInclusion, bind_eq_ok, okOr_eq_ok, mapError_eq_ok] at hmerkle
  simp only [verifyCheckpoint, bind_eq_ok, mapError_eq_ok, rejectIf_eq_ok, not_not] at hcheckpoint
  obtain ⟨leafIndex, hindex, treeSize, hsize, hmerkle⟩ := hmerkle
  obtain ⟨checkpoint, hparse, -, hroot, keys, hkeys, hsigs⟩ := hcheckpoint
  obtain ⟨sig, hmem, publicKey, hkey, hsig⟩ := verifyCheckpointSignature_ok E hsigs
  exact {
    merkle := ⟨leafIndex, treeSize, hindex, hsize, hmerkle⟩
    signed := ⟨checkpoint, hparse, hroot, sig, hmem, publicKey, ⟨keys, hkeys, hkey⟩, hsig⟩ }

/-- An accepted promise is signed with the key of the entry's log. -/
theorem verifySet_ok {entry : TransparencyLogEntry} (h : verifySet E root entry = .ok ()) :
    ∃ promise logKey, entry.inclusionPromise = some promise ∧
      SetVerified E root entry promise logKey := by
  simp only [verifySet, bind_eq_ok, okOr_eq_ok, mapError_eq_ok] at h
  obtain ⟨promise, hpromise, logKey, hkey, payload, hpayload, hsig⟩ := h
  exact ⟨promise, logKey, hpromise, hkey, payload, hpayload, hsig⟩

/-- The promise of an accepted entry, if it has one, is verified. -/
theorem verifyEntryInclusion_promise {entry : TransparencyLogEntry} {promise : InclusionPromise}
    (h : verifyEntryInclusion E root entry = .ok ())
    (hpromise : entry.inclusionPromise = some promise) :
    ∃ logKey, SetVerified E root entry promise logKey := by
  simp only [verifyEntryInclusion, bind_eq_ok, whenSome_eq_ok] at h
  obtain ⟨-, -, hset⟩ := h
  obtain ⟨promise', logKey, hpromise', hset⟩ := verifySet_ok E root (hset promise hpromise)
  cases hpromise.symm.trans hpromise'
  exact ⟨logKey, hset⟩

/-- Every entry of an accepted list has its inclusion verified. It stops at the first entry that
fails. -/
theorem verifyTlogEntries_ok {notBefore notAfter skew : Int64} {result result' : Option Int64}
    {entries : List TransparencyLogEntry}
    (h : verifyTlogEntries E root notBefore notAfter skew result entries = .ok result') :
    ∀ entry ∈ entries, verifyEntryInclusion E root entry = .ok () := by
  induction entries generalizing result with
  | nil => intro entry hentry; cases hentry
  | cons e l ih =>
    simp only [verifyTlogEntries, bind_eq_ok] at h
    obtain ⟨_, hinclusion, h⟩ := h
    have hrest : ∀ entry ∈ l, verifyEntryInclusion E root entry = .ok () := by
      split at h
      · simp only [bind_eq_ok] at h
        obtain ⟨-, -, h⟩ := h
        exact ih h
      · exact ih h
    intro entry hentry
    cases hentry with
    | head => exact hinclusion
    | tail _ hentry => exact hrest entry hentry

end

end Sigstore.Verify
