import Sigstore.Merkle.Tree
import Sigstore.Word

/-!
# Merkle proof verification

`verify_inclusion_proof` and `verify_consistency_proof` of `sigstore-merkle` (`proof.rs`) with their
helpers, on 64-bit indices and sizes. Both are total, so the code's panics (slices out of range, a
shift by the width) do not occur: the length checks before them exclude them.
-/

namespace Sigstore.Merkle

open Word

/-- Errors of the Merkle operations. -/
inductive Error where
  | invalidProof (msg : String)
  | verificationFailed (msg : String)
  | invalidTreeSize (msg : String)
  | invalidLeafIndex (msg : String)
  | hashMismatch (expected actual : String)
  deriving DecidableEq, Repr

/-- The text of an error. -/
def Error.display : Error → String
  | invalidProof msg => s!"Invalid proof: {msg}"
  | verificationFailed msg => s!"Proof verification failed: {msg}"
  | invalidTreeSize msg => s!"Invalid tree size: {msg}"
  | invalidLeafIndex msg => s!"Invalid leaf index: {msg}"
  | hashMismatch expected actual => s!"Hash mismatch: expected {expected}, got {actual}"

/-- Number of proof nodes below the level where the paths of `index` and of the last leaf meet. -/
def innerProofSize (index treeSize : UInt64) : Nat :=
  64 - leadingZeros (index ^^^ (treeSize - 1))

/-- Inner and border lengths of an inclusion proof. -/
def decomposeInclusionProof (index treeSize : UInt64) : Nat × Nat :=
  let inner := innerProofSize index treeSize
  (inner, countOnes ((checkedShr index inner).getD 0))

/-- The size of the level above: half of it, rounded up. -/
theorem toNat_half_up (size : UInt64) : (size / 2 + size % 2).toNat = (size.toNat + 1) / 2 := by
  have hlt := size.toNat_lt
  have htwo : (2 : UInt64).toNat = 2 := rfl
  rw [UInt64.toNat_add, UInt64.toNat_div, UInt64.toNat_mod, htwo]
  omega

/-- The `while size > 1` loop of `expected_inclusion_proof_length`. -/
def expectedLengthLoop (count : Nat) (index size : UInt64) : Nat :=
  if _h : 1 < size then
    expectedLengthLoop (if ¬(size % 2 = 1 ∧ index = size - 1) then count + 1 else count)
      (index / 2) (size / 2 + size % 2)
  else count
termination_by size.toNat
decreasing_by
  have h2 : 1 < size.toNat := by simpa [UInt64.lt_iff_toNat_lt] using _h
  rw [toNat_half_up]
  omega

/-- The length of the proof of a leaf in a tree of a given size. -/
def expectedInclusionProofLength (leafIndex treeSize : UInt64) : Nat :=
  if treeSize ≤ 1 then 0 else expectedLengthLoop 0 leafIndex treeSize

section
variable (sha256 : Bytes → Sha256Hash)

/-- The loop of `verify_inclusion_proof` over the proof hashes, from the leaf to the root. -/
def inclusionLoop (hash : Sha256Hash) (index lastNode : UInt64) : List Sha256Hash → Sha256Hash
  | [] => hash
  | p :: ps =>
    inclusionLoop
      (if index % 2 = 1 ∨ index = lastNode then hashChildren sha256 p hash
        else hashChildren sha256 hash p)
      (index / 2) (lastNode / 2) ps

/-- Verify an inclusion proof for a leaf in a Merkle tree. -/
def verifyInclusionProof (leafHash : Sha256Hash) (leafIndex treeSize : UInt64)
    (proofHashes : List Sha256Hash) (expectedRoot : Sha256Hash) : Except Error Unit :=
  if treeSize = 0 then .error (.invalidTreeSize "tree size cannot be zero")
  else if leafIndex ≥ treeSize then
    .error (.invalidLeafIndex s!"leaf index {leafIndex} >= tree size {treeSize}")
  else
    let expectedLen := expectedInclusionProofLength leafIndex treeSize
    if proofHashes.length ≠ expectedLen then
      .error (.invalidProof (s!"expected {expectedLen} proof hashes for leaf {leafIndex} in " ++
        s!"tree of size {treeSize}, got {proofHashes.length}"))
    else
      let hash := inclusionLoop sha256 leafHash leafIndex (treeSize - 1) proofHashes
      if hash ≠ expectedRoot then .error (.hashMismatch expectedRoot.toHex hash.toHex)
      else .ok ()

/-- Chain hashes along the inner path for the new root; `i` counts the hashes done. -/
def chainInner (index : UInt64) (i : Nat) (hash : Sha256Hash) : List Sha256Hash → Sha256Hash
  | [] => hash
  | p :: ps =>
    chainInner index (i + 1)
      (if (index >>> UInt64.ofNat i) &&& 1 = 0 then hashChildren sha256 hash p
        else hashChildren sha256 p hash) ps

/-- Chain hashes along the inner path for the old root: only those that lie on the left. -/
def chainInnerRight (index : UInt64) (i : Nat) (hash : Sha256Hash) : List Sha256Hash → Sha256Hash
  | [] => hash
  | p :: ps =>
    chainInnerRight index (i + 1)
      (if (index >>> UInt64.ofNat i) &&& 1 = 1 then hashChildren sha256 p hash else hash) ps

/-- Chain hashes along the right border: every proof hash goes on the left. -/
def chainBorderRight (hash : Sha256Hash) : List Sha256Hash → Sha256Hash
  | [] => hash
  | p :: ps => chainBorderRight (hashChildren sha256 p hash) ps

/-- The two root recomputations of `verify_consistency_proof`, from the seed over the proof. -/
def checkConsistencyRoots (seed : Sha256Hash) (inner : Nat) (mask : UInt64)
    (proof : List Sha256Hash) (oldRoot newRoot : Sha256Hash) : Except Error Unit :=
  let hash1 := chainInnerRight sha256 mask 0 seed (proof.take inner)
  let calcOldRoot := chainBorderRight sha256 hash1 (proof.drop inner)
  let hash2 := chainInner sha256 mask 0 seed (proof.take inner)
  let calcNewRoot := chainBorderRight sha256 hash2 (proof.drop inner)
  if calcOldRoot ≠ oldRoot then
    .error (.verificationFailed
      s!"old root mismatch: expected {oldRoot.toHex}, got {calcOldRoot.toHex}")
  else if calcNewRoot ≠ newRoot then
    .error (.verificationFailed
      s!"new root mismatch: expected {newRoot.toHex}, got {calcNewRoot.toHex}")
  else .ok ()

/-- Verify a consistency proof between two tree states. -/
def verifyConsistencyProof (oldSize newSize : UInt64) (proofHashes : List Sha256Hash)
    (oldRoot newRoot : Sha256Hash) : Except Error Unit :=
  if oldSize > newSize then
    .error (.invalidTreeSize s!"old size {oldSize} > new size {newSize}")
  else if oldSize = 0 then
    if proofHashes ≠ [] then
      .error (.invalidProof "proof should be empty when old tree is empty")
    else if newSize = 0 ∧ oldRoot ≠ newRoot then
      .error (.hashMismatch oldRoot.toHex newRoot.toHex)
    else .ok ()
  else if oldSize = newSize then
    if oldRoot ≠ newRoot then .error (.hashMismatch oldRoot.toHex newRoot.toHex)
    else if proofHashes ≠ [] then
      .error (.invalidProof "proof should be empty for same-size trees")
    else .ok ()
  else
    match proofHashes with
    | [] => .error (.invalidProof "proof cannot be empty for different-size trees")
    | first :: rest =>
      let shift := trailingZeros oldSize
      let (inner, border) := decomposeInclusionProof (oldSize - 1) newSize
      let inner := inner - shift
      -- the proof starts with the root of the subtree of size `2 ^ shift`, unless that subtree is
      -- the whole old tree
      let (seed, start, proof) :=
        if oldSize = 1 <<< UInt64.ofNat shift then (oldRoot, 0, first :: rest) else (first, 1, rest)
      let expectedLen := start + inner + border
      if (first :: rest).length ≠ expectedLen then
        .error (.invalidProof
          s!"expected {expectedLen} proof hashes, got {(first :: rest).length}")
      else
        checkConsistencyRoots sha256 seed inner ((oldSize - 1) >>> UInt64.ofNat shift) proof
          oldRoot newRoot

end

end Sigstore.Merkle
