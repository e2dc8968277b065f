import Sigstore.Merkle.Position
import Sigstore.Verify.Deployment

/-!
# The position of an entry in its log

The tree size of an inclusion proof is never compared with that of its checkpoint. An accepted
entry's body is a leaf of the log whose root the checkpoint has, in the directions of the proof's
index and size (`verifyEntryInclusion_position`): the leaf with the proof's index where the proof's
size is the log's, but another one where it is not (`verifyEntryInclusion_misplaced`).
-/

namespace Sigstore.Verify

open Checks Types TrustRoot HashTree

/-- The index of an inclusion proof. -/
def proofIndex (proof : InclusionProof) : Nat := proof.logIndex.value.toInt.toNat

/-- The tree size of an inclusion proof. -/
def proofSize (proof : InclusionProof) : Nat := proof.treeSize.toInt.toNat

section
variable (E : Env) (root : TrustedRoot)

/-- Everything that a log and the verification of an entry's inclusion proof hash. -/
def inclusionHashes (log : List Bytes) (entry : TransparencyLogEntry) (proof : InclusionProof) :
    List Bytes :=
  Merkle.hashedBytes E.primitives.sha256 log entry.canonicalizedBody (proofIndex proof)
    (proofSize proof) proof.hashes

/-- **An accepted entry is a leaf of the signed log.** Where SHA-256 does not collide on what the
log and the proof hash, the body of an accepted entry is a leaf of any log whose root the proof's
checkpoint has, whatever size the checkpoint states. The leaf has the directions of the proof's
index in a tree of the proof's size, and where that is the size of the log, it is the one with the
proof's index. -/
theorem verifyEntryInclusion_position {entry : TransparencyLogEntry} {proof : InclusionProof}
    {checkpoint : Checkpoint} {log : List Bytes} (hproof : entry.inclusionProof = some proof)
    (hok : verifyEntryInclusion E root entry = .ok ())
    (hcheckpoint : Checkpoint.fromText E.codec proof.checkpoint.envelope = .ok checkpoint)
    (hroot : checkpoint.rootHash = Merkle.mth E.primitives.sha256 log)
    (hfree : Set.InjOn E.primitives.sha256 {bs | bs ∈ inclusionHashes E log entry proof}) :
    ∃ j, log[j]? = some entry.canonicalizedBody ∧
      dirs j log.length = dirs (proofIndex proof) (proofSize proof) ∧
      proof.hashes = Merkle.auditPath E.primitives.sha256 j log ∧
      (proof.treeSize.toInt = log.length → j = proof.logIndex.value.toInt) := by
  have hincluded := verifyEntryInclusion_proof E root hok hproof
  obtain ⟨index, size, hindex, htreeSize, hmerkle⟩ := hincluded.merkle
  obtain ⟨checkpoint', hcheckpoint', hroot', -⟩ := hincluded.signed
  cases hcheckpoint.symm.trans hcheckpoint'
  have hindexInt : (index.toNat : Int) = proof.logIndex.value.toInt := toNat_of_tryU64 hindex
  have hsizeInt : (size.toNat : Int) = proof.treeSize.toInt := toNat_of_tryU64 htreeSize
  have hindexNat : proofIndex proof = index.toNat := by
    rw [proofIndex, ← hindexInt, Int.toNat_natCast]
  have hsizeNat : proofSize proof = size.toNat := by
    rw [proofSize, ← hsizeInt, Int.toNat_natCast]
  rw [← hroot', hroot] at hmerkle
  rw [inclusionHashes, hindexNat, hsizeNat] at hfree
  obtain ⟨j, hj, hdirs, hpath, hposition⟩ :=
    Merkle.position_of_verifyInclusionProof hfree hmerkle
  refine ⟨j, hj, by rw [hindexNat, hsizeNat, hdirs], hpath, fun heq => ?_⟩
  rw [← hindexInt, hposition (by omega)]

end

namespace Sample

/-- The log of the leaves `"a"` and `"b"`. -/
def log : List Bytes := [[0x61], [0x62]]

/-- The signed part of the tree head of the log. -/
def treeHead : String := "rekor.example\n2\n" ++ text64 Merkle.Sample.nodeAB.bytes ++ "\n"

/-- The tree head of the log, signed with its key. -/
def checkpoint : CheckpointData :=
  ⟨treeHead ++ "\n— rekor.example " ++
    text64 ((sha256 (keyDer 5)).bytes.take 4 ++ sign 5 (utf8Bytes treeHead)) ++ "\n"⟩

/-- A proof of the second leaf. -/
def inclusion (logIndex treeSize : Int64) : InclusionProof :=
  { logIndex := ⟨logIndex⟩
    rootHash := Merkle.Sample.nodeAB
    treeSize := treeSize
    hashes := [Merkle.Sample.leafA]
    checkpoint := checkpoint }

/-- An entry with a proof that its body is the second leaf. -/
def includedEntry (logIndex treeSize : Int64) : TransparencyLogEntry :=
  { logIndex := ⟨7⟩
    logId := logId
    kindVersion := ⟨"hashedrekord", "0.0.2"⟩
    integratedTime := 0
    inclusionPromise := none
    inclusionProof := some (inclusion logIndex treeSize)
    canonicalizedBody := [0x62] }

/-- The tree head, parsed. -/
def parsedCheckpoint : Checkpoint :=
  { origin := "rekor.example"
    treeSize := 2
    rootHash := Merkle.Sample.nodeAB
    otherContent := []
    signatures := [{
      name := "rekor.example"
      keyId := ⟨(sha256 (keyDer 5)).bytes.take 4, by decide⟩
      signature := sign 5 (utf8Bytes treeHead) }]
    signedNoteText := treeHead }

theorem treeHead_eq : treeHead = "rekor.example\n" ++ toString (2 : UInt64) ++ "\n" ++
    text64 Merkle.Sample.nodeAB.bytes ++ "\n" := by
  have hsize : "rekor.example\n2\n" = "rekor.example\n" ++ toString (2 : UInt64) ++ "\n" := by
    decide
  rw [treeHead, hsize]

/-- The signed tree head is parsed. -/
theorem checkpoint_parsed :
    Checkpoint.fromText env.codec checkpoint.envelope = .ok parsedCheckpoint :=
  fromText_signedHead_singleton
    ⟨⟨(sha256 (keyDer 5)).bytes.take 4, by decide⟩, sign 5 (utf8Bytes treeHead)⟩
    (List.cons_ne_nil _ _) treeHead_eq

/-- The root hash of the tree head is that of the log with two leaves. -/
theorem checkpoint_rootHash : parsedCheckpoint.rootHash = Merkle.mth env.primitives.sha256 log := by
  have h2 : splitPoint 2 = 1 := by decide
  simp [parsedCheckpoint, log, Merkle.mth, HashTree.root, h2, Merkle.hasher, Merkle.hashLeaf,
    Merkle.hashChildren]
  decide +kernel

/-- The signed tree head is accepted for the proof, whatever index and size that states. -/
theorem verifyCheckpoint_included (logIndex treeSize : Int64) :
    verifyCheckpoint env root checkpoint.envelope (inclusion logIndex treeSize) = .ok () := by
  rw [← alike_env]
  exact verifyCheckpoint_signedHead (alike_primitives []) treeHead_eq rfl

/-- The proof leads from the second leaf to the root. -/
theorem climb_included : climb (Merkle.hashChildren env.primitives.sha256)
    (Merkle.hashLeaf env.primitives.sha256 [0x62]) [true] [Merkle.Sample.leafA] =
      Merkle.Sample.nodeAB := by
  decide +kernel

/-- The proof is accepted for every index and size that go up the tree to the right. The size of the
proof is nowhere compared with that of the checkpoint, so that it stays a variable. -/
theorem verifyEntryInclusion_included {logIndex treeSize : Int64} {index size : UInt64}
    (hindex : tryU64 logIndex = some index) (hsize : tryU64 treeSize = some size)
    (hlt : index < size) (hdirs : dirs index.toNat size.toNat = [true]) :
    verifyEntryInclusion env root (includedEntry logIndex treeSize) = .ok () := by
  have hmerkle : verifyMerkleInclusion env (includedEntry logIndex treeSize)
      (inclusion logIndex treeSize) = .ok () := by
    simp only [verifyMerkleInclusion, bind_eq_ok, okOr_eq_ok, mapError_eq_ok,
      Merkle.verifyInclusionProof_ok_iff]
    refine ⟨index, hindex, size, hsize, hlt, by rw [hdirs]; rfl, ?_⟩
    rw [hdirs]
    exact climb_included
  simp only [verifyEntryInclusion, bind_eq_ok, whenSome_eq_ok]
  refine ⟨(), fun proof hproof => ?_, fun promise hpromise => by cases hpromise⟩
  cases hproof
  exact ⟨(), hmerkle, verifyCheckpoint_included logIndex treeSize⟩

/-- Nothing that the log and the proof hash collides. The inputs that have to be told apart are few,
and they are listed. -/
theorem injOn_included {logIndex treeSize : Int64}
    (hdirs : dirs (proofIndex (inclusion logIndex treeSize))
      (proofSize (inclusion logIndex treeSize)) = [true]) :
    Set.InjOn env.primitives.sha256 {bs | bs ∈ inclusionHashes env log
      (includedEntry logIndex treeSize) (inclusion logIndex treeSize)} := by
  have hpairs : nodePairs (Merkle.hasher env.primitives.sha256) log =
      [(Merkle.Sample.leafA, Merkle.Sample.leafB)] := by
    have h2 : splitPoint 2 = 1 := by decide
    simp [log, nodePairs, h2, Merkle.hasher, Merkle.hashLeaf]
    decide
  have hlist : inclusionHashes env log (includedEntry logIndex treeSize)
      (inclusion logIndex treeSize) = [[0x00, 0x61], [0x00, 0x62],
        0x01 :: (Merkle.Sample.leafA.bytes ++ Merkle.Sample.leafB.bytes), [0x00, 0x62],
        0x01 :: (Merkle.Sample.leafA.bytes ++ Merkle.Sample.leafB.bytes)] := by
    rw [inclusionHashes, Merkle.hashedBytes, hdirs, treePreimages_of_ne_nil _ (by decide), hpairs]
    show List.map Merkle.preimageBytes (List.map .leaf log ++
      pairPreimages [(Merkle.Sample.leafA, Merkle.Sample.leafB)] ++
      climbPreimages (Merkle.hasher env.primitives.sha256) [0x62] [true] [Merkle.Sample.leafA]) = _
    decide
  have hinj : ∀ x ∈ inclusionHashes env log (includedEntry logIndex treeSize)
      (inclusion logIndex treeSize), ∀ y ∈ inclusionHashes env log (includedEntry logIndex treeSize)
      (inclusion logIndex treeSize),
      env.primitives.sha256 x = env.primitives.sha256 y → x = y := by
    rw [hlist]
    decide +kernel
  exact fun x hx y hy hxy => hinj x hx y hy hxy

theorem dirs_one_two : dirs 1 2 = [true] := by
  rw [dirs_right (by decide) (by decide), dirs_of_lt_two (by decide)]
  rfl

/-- The third of three leaves is a right child, of the same root path as the second of two. -/
theorem dirs_two_three : dirs 2 3 = [true] := by
  rw [dirs_right (by decide) (by decide), dirs_of_lt_two (by decide)]
  rfl

end Sample

/-- The second leaf of two, where the proof has the size of the tree head. Everything that the proof
hashes is listed, and no two of these have the same hash. -/
theorem verifyEntryInclusion_position_second :
    ∃ j : Nat, Sample.log[j]? = some [0x62] ∧ (j : Int) = 1 := by
  have hproof : (Sample.includedEntry 1 2).inclusionProof = some (Sample.inclusion 1 2) := rfl
  obtain ⟨j, hj, -, -, hposition⟩ := verifyEntryInclusion_position Sample.env Sample.root hproof
    (Sample.verifyEntryInclusion_included rfl rfl (by decide) Sample.dirs_one_two)
    Sample.checkpoint_parsed Sample.checkpoint_rootHash
    (Sample.injOn_included Sample.dirs_one_two)
  exact ⟨j, hj, hposition rfl⟩

/-- A proof with the index of a third leaf is accepted for the second of the two leaves that the
tree head has. -/
theorem verifyEntryInclusion_misplaced :
    (Sample.includedEntry 2 3).inclusionProof = some (Sample.inclusion 2 3) ∧
    verifyEntryInclusion Sample.env Sample.root (Sample.includedEntry 2 3) = .ok () ∧
    Checkpoint.fromText Sample.env.codec (Sample.inclusion 2 3).checkpoint.envelope =
      .ok Sample.parsedCheckpoint ∧
    Sample.parsedCheckpoint.treeSize.toNat = Sample.log.length ∧
    Sample.parsedCheckpoint.rootHash = Merkle.mth Sample.env.primitives.sha256 Sample.log ∧
    Set.InjOn Sample.env.primitives.sha256 {bs | bs ∈ inclusionHashes Sample.env Sample.log
      (Sample.includedEntry 2 3) (Sample.inclusion 2 3)} ∧
    ¬ (Sample.log[proofIndex (Sample.inclusion 2 3)]? =
        some (Sample.includedEntry 2 3).canonicalizedBody ∧
      (Sample.inclusion 2 3).treeSize.toInt = Sample.parsedCheckpoint.treeSize.toNat) := by
  refine ⟨rfl, Sample.verifyEntryInclusion_included rfl rfl (by decide) Sample.dirs_two_three,
    Sample.checkpoint_parsed, rfl, Sample.checkpoint_rootHash,
    Sample.injOn_included Sample.dirs_two_three, ?_⟩
  rintro ⟨hleaf, -⟩
  cases hleaf

end Sigstore.Verify
