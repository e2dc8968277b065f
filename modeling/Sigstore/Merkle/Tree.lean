import Sigstore.HashTree.Consistency
import Sigstore.Types.Hash

/-!
# Merkle tree hashing

The leaf and node hashes of `sigstore-merkle` (`tree.rs`) over an arbitrary SHA-256 function, and
the hash tree they make of a list of leaves: `MTH`, `PATH` and `PROOF`.
-/

namespace Sigstore.Merkle

open HashTree

/-- Prefix for leaf nodes. -/
def leafHashPrefix : UInt8 := 0x00

/-- Prefix for internal nodes. -/
def nodeHashPrefix : UInt8 := 0x01

section
variable (sha256 : Bytes → Sha256Hash)

/-- `SHA256(0x00 || leaf_data)`. -/
def hashLeaf (data : Bytes) : Sha256Hash := sha256 (leafHashPrefix :: data)

/-- `SHA256(0x01 || left || right)`. -/
def hashChildren (left right : Sha256Hash) : Sha256Hash :=
  sha256 (nodeHashPrefix :: (left.bytes ++ right.bytes))

/-- The hashes of the tree: SHA-256 of the empty string for the empty tree, and the two above. -/
def hasher : Hasher Bytes Sha256Hash :=
  { empty := sha256 [], leaf := hashLeaf sha256, node := hashChildren sha256 }

/-- Merkle tree hash of a list of leaves. -/
def mth (D : List Bytes) : Sha256Hash := root (hasher sha256) D

/-- Audit path of leaf `i`. -/
def auditPath (i : Nat) (D : List Bytes) : List Sha256Hash := path (hasher sha256) i D

/-- Consistency proof between the first `m` leaves and all of them. -/
def consistencyPath (m : Nat) (D : List Bytes) : List Sha256Hash :=
  consistencyProof (hasher sha256) m D

/-- `hash_children` does not collide on the pairs of hashes in `P`. -/
def CollisionFree (P : List (Sha256Hash × Sha256Hash)) : Prop :=
  Set.InjOn (fun p => hashChildren sha256 p.1 p.2) {p | p ∈ P}

instance (P : List (Sha256Hash × Sha256Hash)) : Decidable (CollisionFree sha256 P) :=
  decidable_of_iff (∀ p ∈ P, ∀ q ∈ P,
      hashChildren sha256 p.1 p.2 = hashChildren sha256 q.1 q.2 → p = q)
    ⟨fun h p hp q hq => h p hp q hq, fun h _ hp _ hq => h hp hq⟩

/-- Where nothing collides on some pairs, nothing collides on a part of them. -/
theorem CollisionFree.mono {P Q : List (Sha256Hash × Sha256Hash)} (h : CollisionFree sha256 Q)
    (hPQ : ∀ p ∈ P, p ∈ Q) : CollisionFree sha256 P :=
  Set.InjOn.mono hPQ h

/-- Two equal concatenations of digests are pairwise equal: a digest has a fixed length. -/
theorem hashChildren_preimage {l r l' r' : Sha256Hash}
    (h : nodeHashPrefix :: (l.bytes ++ r.bytes) = nodeHashPrefix :: (l'.bytes ++ r'.bytes)) :
    l = l' ∧ r = r' := by
  rw [List.cons.injEq] at h
  obtain ⟨hl, hr⟩ := List.append_inj h.2 (by rw [l.length_bytes, l'.length_bytes])
  exact ⟨Sha256Hash.ext hl, Sha256Hash.ext hr⟩

end

/-! ## A log of three leaves -/

namespace Sample

/-- SHA-256 of `0x00 || "a"`. -/
def leafA : Sha256Hash :=
    ⟨[0x02, 0x2a, 0x69, 0x79, 0xe6, 0xda, 0xb7, 0xaa, 0x5a, 0xe4, 0xc3,
      0xe5, 0xe4, 0x5f, 0x7e, 0x97, 0x71, 0x12, 0xa7, 0xe6, 0x35, 0x93, 0x82, 0x0d,
      0xbe, 0xc1, 0xec, 0x73, 0x8a, 0x24, 0xf9, 0x3c], rfl⟩

/-- SHA-256 of `0x00 || "b"`. -/
def leafB : Sha256Hash :=
    ⟨[0x57, 0xeb, 0x35, 0x61, 0x5d, 0x47, 0xf3, 0x4e, 0xc7, 0x14, 0xca,
      0xcd, 0xf5, 0xfd, 0x74, 0x60, 0x8a, 0x5e, 0x8e, 0x10, 0x27, 0x24, 0xe8, 0x0b,
      0x24, 0xb2, 0x87, 0xc0, 0xc2, 0x7b, 0x6a, 0x31], rfl⟩

/-- SHA-256 of `0x00 || "c"`. -/
def leafC : Sha256Hash :=
    ⟨[0x59, 0x7f, 0xcb, 0x31, 0x28, 0x2d, 0x34, 0x65, 0x4c, 0x20, 0x0d,
      0x34, 0x18, 0xfc, 0xa5, 0x70, 0x5c, 0x64, 0x8e, 0xbf, 0x32, 0x6e, 0xc7, 0x3d,
      0x8d, 0xde, 0xf1, 0x18, 0x41, 0xf8, 0x76, 0xd8], rfl⟩

/-- SHA-256 of `0x01 || leafA || leafB`. -/
def nodeAB : Sha256Hash :=
    ⟨[0xb1, 0x37, 0x98, 0x5f, 0xf4, 0x84, 0xfb, 0x60, 0x0d, 0xb9, 0x31,
      0x07, 0xc7, 0x7b, 0x03, 0x65, 0xc8, 0x0d, 0x78, 0xf5, 0xb4, 0x29, 0xde, 0xd0,
      0xfd, 0x97, 0x36, 0x1d, 0x07, 0x79, 0x99, 0xeb], rfl⟩

/-- SHA-256 of `0x01 || nodeAB || leafC`. -/
def rootABC : Sha256Hash :=
    ⟨[0x36, 0x64, 0x2e, 0x73, 0xc2, 0x54, 0x0a, 0xb1, 0x21, 0xe3, 0xa6,
      0xbf, 0x95, 0x45, 0xb0, 0xa2, 0x49, 0x82, 0xcd, 0x83, 0x0e, 0xb1, 0x3d, 0x3c,
      0xd1, 0x9d, 0xe3, 0xce, 0x6c, 0x02, 0x1e, 0xc1], rfl⟩

/-- SHA-256 on the inputs that the log of the leaves `"a"`, `"b"` and `"c"` hashes. -/
def sha256 (bs : Bytes) : Sha256Hash :=
  if bs = [0x00, 0x61] then leafA
  else if bs = [0x00, 0x62] then leafB
  else if bs = [0x00, 0x63] then leafC
  else if bs = 0x01 :: (leafA.bytes ++ leafB.bytes) then nodeAB
  else rootABC

/-- The log. -/
def leaves : List Bytes := [[0x61], [0x62], [0x63]]

theorem nodePairs_leaves :
    nodePairs (hasher sha256) leaves = [(nodeAB, leafC), (leafA, leafB)] := by
  have h2 : splitPoint 2 = 1 := by decide
  have h3 : splitPoint 3 = 2 := by decide
  simp [leaves, nodePairs, root, h2, h3, hasher, hashLeaf, hashChildren]
  decide

end Sample

end Sigstore.Merkle
