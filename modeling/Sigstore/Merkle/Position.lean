import Sigstore.HashTree.Binding
import Sigstore.Merkle.Inclusion

/-!
# The position of an included leaf

An accepted inclusion proof need not name the size of the tree it leads into. Where SHA-256 does not
collide on what the tree and the proof hash, the data is a leaf of the tree all the same, in the
directions that the proof's index and size have (`position_of_verifyInclusionProof`); it is the leaf
with the proof's index where the sizes agree.
-/

namespace Sigstore.Merkle

open HashTree

/-- The bytes that are hashed for a preimage. -/
def preimageBytes : Preimage Bytes Sha256Hash → Bytes
  | .empty => []
  | .leaf data => leafHashPrefix :: data
  | .node left right => nodeHashPrefix :: (left.bytes ++ right.bytes)

/-- Different leaves and nodes are hashed from different bytes: the first byte says which it is, and
the two digests of a node have fixed lengths. -/
theorem preimageBytes_injective : Function.Injective preimageBytes := by
  intro x y h
  cases x with
  | empty => cases y with
    | empty => rfl
    | leaf data => cases h
    | node left right => cases h
  | leaf data => cases y with
    | empty => cases h
    | leaf data' => cases h; rfl
    | node left right => exact absurd (List.head_eq_of_cons_eq h) (by decide)
  | node left right => cases y with
    | empty => cases h
    | leaf data => exact absurd (List.head_eq_of_cons_eq h) (by decide)
    | node left' right' =>
      obtain ⟨rfl, rfl⟩ := hashChildren_preimage h
      rfl

section
variable (sha256 : Bytes → Sha256Hash)

/-- A leaf or a node is hashed as its bytes are. -/
theorem hasher_hash (x : Preimage Bytes Sha256Hash) :
    (hasher sha256).hash x = sha256 (preimageBytes x) := by
  cases x <;> rfl

/-- Everything that a tree and the verification of an inclusion proof hash. -/
def hashedBytes (D : List Bytes) (data : Bytes) (index size : Nat) (proof : List Sha256Hash) :
    List Bytes :=
  (treePreimages (hasher sha256) D ++
    climbPreimages (hasher sha256) data (dirs index size) proof).map preimageBytes

variable {sha256}

/-- An accepted inclusion proof of data in a tree is the audit path of one of its leaves, in the
directions of the proof's index in a tree of the proof's size. -/
theorem position_of_verifyInclusionProof {D : List Bytes} {data : Bytes} {index size : UInt64}
    {proof : List Sha256Hash}
    (hfree : Set.InjOn sha256 {bs | bs ∈ hashedBytes sha256 D data index.toNat size.toNat proof})
    (hok : verifyInclusionProof sha256 (hashLeaf sha256 data) index size proof (mth sha256 D) =
      .ok ()) :
    ∃ j, D[j]? = some data ∧ dirs j D.length = dirs index.toNat size.toNat ∧
      proof = auditPath sha256 j D ∧ (size.toNat = D.length → j = index.toNat) := by
  rw [verifyInclusionProof_ok_iff, UInt64.lt_iff_toNat_lt] at hok
  obtain ⟨hi, hlen, hclimb⟩ := hok
  have hinj : Set.InjOn (hasher sha256).hash {x | x ∈ treePreimages (hasher sha256) D ++
      climbPreimages (hasher sha256) data (dirs index.toNat size.toNat) proof} := by
    intro x hx y hy hxy
    rw [hasher_hash, hasher_hash] at hxy
    exact preimageBytes_injective
      (hfree (List.mem_map_of_mem hx) (List.mem_map_of_mem hy) hxy)
  obtain ⟨j, hj, hdirs⟩ := exists_leaf_of_climb (hasher sha256) hinj hlen
    (fun x hx => List.mem_append_left _ hx) (fun x hx => List.mem_append_right _ hx) hclimb
  have hjlt : j < D.length := (List.getElem?_eq_some_iff.1 hj).1
  refine ⟨j, hj, hdirs, ?_, fun hsize => ?_⟩
  · have hpairs : Set.InjOn (fun p : Sha256Hash × Sha256Hash => hashChildren sha256 p.1 p.2)
        {p | .node p.1 p.2 ∈ treePreimages (hasher sha256) D ++
          climbPreimages (hasher sha256) data (dirs index.toNat size.toNat) proof} := by
      rintro ⟨l, r⟩ hp ⟨l', r'⟩ hq hpq
      cases hinj hp hq hpq
      rfl
    rw [← hdirs] at hlen hclimb hpairs
    refine (climb_inj hpairs hlen (length_path (hasher sha256) j D) (fun p hp => ?_)
      (fun p hp => ?_) (hclimb.trans (climb_path (hasher sha256) hj).symm)).2
    · exact List.mem_append_right _ (List.mem_cons_of_mem _ (mem_pairPreimages.2 hp))
    · refine List.mem_append_left _ ?_
      rw [treePreimages_of_ne_nil _ (by rintro rfl; cases hjlt)]
      exact List.mem_append_right _
        (mem_pairPreimages.2 (climbPairs_path (hasher sha256) hj p hp))
  · rw [hsize] at hdirs hi
    exact dirs_inj hjlt hi hdirs

end

end Sigstore.Merkle
