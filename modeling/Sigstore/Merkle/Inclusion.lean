import Sigstore.Merkle.Proof

/-!
# Inclusion proofs are audit paths

The loop of `verify_inclusion_proof` climbs the directions of the leaf (`inclusionLoop_eq`), and
`expected_inclusion_proof_length` counts them (`expectedInclusionProofLength_eq`). So the code's
verdict is one equation between climbs (`verifyInclusionProof_ok_iff`), which the audit path
satisfies and, where the node hash does not collide, nothing else does
(`verifyInclusionProof_correct`).
-/

namespace Sigstore.Merkle

open HashTree

section
variable (sha256 : Bytes → Sha256Hash)

/-- On the right edge the loop puts every proof hash on the left: `index` and `last_node` stay equal
as both are halved. -/
theorem inclusionLoop_last (hash : Sha256Hash) (index : UInt64) (ps : List Sha256Hash) :
    inclusionLoop sha256 hash index index ps =
      climb (hashChildren sha256) hash (List.replicate ps.length true) ps := by
  induction ps generalizing hash index with
  | nil => rfl
  | cons p ps ih =>
    rw [inclusionLoop, if_pos (.inr rfl), ih]
    rfl

/-- Off the right edge the loop follows the levels of the tree; once on it, it stays there. By
induction on the size, which the loop halves at each level, as the closed form of the directions
does. -/
theorem inclusionLoop_eq {n : Nat} {hash : Sha256Hash} {index last : UInt64}
    {ps : List Sha256Hash} (hi : index.toNat < n) (hlast : last.toNat = n - 1)
    (hlen : ps.length = (dirs index.toNat n).length) :
    inclusionLoop sha256 hash index last ps =
      climb (hashChildren sha256) hash (dirs index.toNat n) ps := by
  induction n using Nat.strongRecOn generalizing hash index last ps with
  | ind n ih =>
    by_cases hedge : index.toNat = n - 1
    · obtain rfl : index = last := UInt64.toNat_inj.1 (hedge.trans hlast.symm)
      obtain rfl : n = index.toNat + 1 := by omega
      obtain ⟨k, hk⟩ := dirs_last index.toNat
      rw [hk, List.length_replicate] at hlen
      rw [inclusionLoop_last, hk, hlen]
    · have hdirs := dirs_half (i := index.toNat) (n := n) (by omega) hi
      rw [if_neg (by omega)] at hdirs
      rw [hdirs] at hlen ⊢
      obtain ⟨p, ps, rfl⟩ := List.exists_cons_of_length_eq_add_one hlen
      have hne : index ≠ last := fun h => hedge (by rw [h, hlast])
      have hodd : (index % 2 = 1) = (index.toNat % 2 = 1) := by
        rw [← UInt64.toNat_inj, UInt64.toNat_mod]
        rfl
      have hhalf : (index / 2).toNat = index.toNat / 2 := UInt64.toNat_div index 2
      have hhalf' : (last / 2).toNat = (n + 1) / 2 - 1 := by
        rw [UInt64.toNat_div, hlast]
        simp only [UInt64.reduceToNat]
        omega
      simp only [inclusionLoop, hne, or_false, hodd, climb_cons, decide_eq_true_eq]
      rw [← hhalf] at hlen ⊢
      exact ih ((n + 1) / 2) (by omega) (by omega) hhalf' (by simpa using hlen)

/-- The loop of `expected_inclusion_proof_length` counts the levels at which the leaf has a sibling.
-/
theorem expectedLengthLoop_eq {n count : Nat} {index size : UInt64} (hn : size.toNat = n)
    (hi : index.toNat < n) :
    expectedLengthLoop count index size = count + (dirs index.toNat n).length := by
  induction n using Nat.strongRecOn generalizing count index size with
  | ind n ih =>
    rw [expectedLengthLoop]
    have hlt := size.toNat_lt
    by_cases hone : 1 < size
    · have h1 : 1 < n := by rw [← hn]; simpa [UInt64.lt_iff_toNat_lt] using hone
      have hpred : (size - 1).toNat = n - 1 := by
        rw [UInt64.toNat_sub_of_le _ _ (by simpa [UInt64.le_iff_toNat_le] using by omega), hn]
        rfl
      have hedge : (size % 2 = 1 ∧ index = size - 1) ↔ index.toNat = n - 1 ∧ n % 2 = 1 := by
        rw [← UInt64.toNat_inj, ← UInt64.toNat_inj, hpred, UInt64.toNat_mod, hn, and_comm]
        rfl
      have hhalf : (index / 2).toNat = index.toNat / 2 := UInt64.toNat_div index 2
      rw [dif_pos hone, ih ((n + 1) / 2) (by omega) (by rw [toNat_half_up, hn])
        (by rw [hhalf]; omega), hhalf, dirs_half h1 hi]
      by_cases hlast : index.toNat = n - 1 ∧ n % 2 = 1
      · rw [if_pos hlast, if_neg (fun h => h (hedge.2 hlast))]
      · rw [if_neg hlast, if_pos (fun h => hlast (hedge.1 h)), List.length_cons]
        omega
    · have h1 : n < 2 := by
        have : ¬ 1 < size.toNat := by simpa [UInt64.lt_iff_toNat_lt] using hone
        omega
      rw [dif_neg hone, dirs_of_lt_two h1]
      rfl

/-- The expected length is the number of directions of the leaf. -/
theorem expectedInclusionProofLength_eq {index size : UInt64} (hi : index < size) :
    expectedInclusionProofLength index size = (dirs index.toNat size.toNat).length := by
  have hlt : index.toNat < size.toNat := UInt64.lt_iff_toNat_lt.1 hi
  rw [expectedInclusionProofLength]
  split
  · next hsize =>
    have : size.toNat ≤ 1 := by simpa [UInt64.le_iff_toNat_le] using hsize
    rw [dirs_of_lt_two (by omega)]
    rfl
  · rw [expectedLengthLoop_eq rfl hlt, Nat.zero_add]

/-- What `verify_inclusion_proof` accepts: an index in the tree, one proof hash for each of its
directions, and a climb that ends in the expected root. -/
theorem verifyInclusionProof_ok_iff {leaf : Sha256Hash} {index size : UInt64}
    {proof : List Sha256Hash} {expected : Sha256Hash} :
    verifyInclusionProof sha256 leaf index size proof expected = .ok () ↔
      index < size ∧ proof.length = (dirs index.toNat size.toNat).length ∧
      climb (hashChildren sha256) leaf (dirs index.toNat size.toNat) proof = expected := by
  unfold verifyInclusionProof
  by_cases hzero : size = 0
  · subst hzero
    simp [UInt64.lt_iff_toNat_lt]
  by_cases hi : index < size
  · have hlt : index.toNat < size.toNat := UInt64.lt_iff_toNat_lt.1 hi
    have hpred : (size - 1).toNat = size.toNat - 1 := by
      rw [UInt64.toNat_sub_of_le _ _ (by simpa [UInt64.le_iff_toNat_le] using by omega)]
      rfl
    rw [if_neg hzero, if_neg (by simpa using hi)]
    simp only [expectedInclusionProofLength_eq hi]
    by_cases hlen : proof.length = (dirs index.toNat size.toNat).length
    · rw [if_neg (by simpa using hlen), inclusionLoop_eq sha256 hlt hpred hlen]
      simp [hi, hlen]
    · rw [if_pos hlen]
      simp [hlen]
  · rw [if_neg hzero, if_pos (by simpa using hi)]
    simp [hi]

/-- The pairs of hashes that the verification of an inclusion proof hashes. -/
def inclusionPairs (leaf : Sha256Hash) (index size : Nat) (proof : List Sha256Hash) :
    List (Sha256Hash × Sha256Hash) :=
  climbPairs (hashChildren sha256) leaf (dirs index size) proof

/-- The audit path of a leaf is accepted. -/
theorem verifyInclusionProof_auditPath {D : List Bytes} (hlt : D.length < 2 ^ 64) {index : UInt64}
    {data : Bytes} (hdata : D[index.toNat]? = some data) :
    verifyInclusionProof sha256 (hashLeaf sha256 data) index (UInt64.ofNat D.length)
      (auditPath sha256 index.toNat D) (mth sha256 D) = .ok () := by
  have hsize : (UInt64.ofNat D.length).toNat = D.length := UInt64.toNat_ofNat_of_lt' hlt
  have hi : index.toNat < D.length := (List.getElem?_eq_some_iff.1 hdata).1
  rw [verifyInclusionProof_ok_iff, UInt64.lt_iff_toNat_lt, hsize]
  exact ⟨hi, length_path _ _ _, climb_path (hasher sha256) hdata⟩

/-- An accepted inclusion proof whose size is the tree's is the audit path of a leaf, where the node
hash does not collide. -/
theorem auditPath_of_verifyInclusionProof {D : List Bytes} {index size : UInt64}
    (hsize : size.toNat = D.length) {leaf : Sha256Hash} {proof : List Sha256Hash}
    (hfree : CollisionFree sha256
      (nodePairs (hasher sha256) D ++ inclusionPairs sha256 leaf index.toNat D.length proof))
    (hok : verifyInclusionProof sha256 leaf index size proof (mth sha256 D) = .ok ()) :
    ∃ data, D[index.toNat]? = some data ∧ leaf = hashLeaf sha256 data ∧
      proof = auditPath sha256 index.toNat D := by
  rw [verifyInclusionProof_ok_iff, UInt64.lt_iff_toNat_lt, hsize] at hok
  obtain ⟨hi, hlen, hclimb⟩ := hok
  have hdata : D[index.toNat]? = some D[index.toNat] := List.getElem?_eq_getElem hi
  refine ⟨_, hdata, ?_⟩
  refine climb_inj hfree hlen (length_path (hasher sha256) _ _) (fun p hp => ?_) (fun p hp => ?_)
    (hclimb.trans (climb_path (hasher sha256) hdata).symm)
  · exact List.mem_append_right _ hp
  · exact List.mem_append_left _ (climbPairs_path (hasher sha256) hdata p hp)

/-- **Inclusion proofs are audit paths.** For a tree of any size up to `2 ^ 64`, the audit path of
leaf `index` is accepted for that leaf, and, where `hash_children` does not collide on the pairs
that the tree and the proof hash, nothing else is accepted. -/
theorem verifyInclusionProof_correct (D : List Bytes) (hlt : D.length < 2 ^ 64)
    (index : UInt64) (leaf : Sha256Hash) (proof : List Sha256Hash) :
    ((∃ data, D[index.toNat]? = some data ∧ leaf = hashLeaf sha256 data ∧
        proof = auditPath sha256 index.toNat D) →
      verifyInclusionProof sha256 leaf index (UInt64.ofNat D.length) proof (mth sha256 D) =
        .ok ()) ∧
    (CollisionFree sha256
        (nodePairs (hasher sha256) D ++ inclusionPairs sha256 leaf index.toNat D.length proof) →
      verifyInclusionProof sha256 leaf index (UInt64.ofNat D.length) proof (mth sha256 D) =
        .ok () →
      ∃ data, D[index.toNat]? = some data ∧ leaf = hashLeaf sha256 data ∧
        proof = auditPath sha256 index.toNat D) := by
  constructor
  · rintro ⟨data, hdata, rfl, rfl⟩
    exact verifyInclusionProof_auditPath sha256 hlt hdata
  · exact auditPath_of_verifyInclusionProof sha256 (UInt64.toNat_ofNat_of_lt' hlt)

end

/-- The last of three leaves, which is promoted without a sibling at the lowest level. The loop
takes its hash up to the next level as it is. -/
theorem verifyInclusionProof_correct_promoted :
    verifyInclusionProof Sample.sha256 Sample.leafC 2 (UInt64.ofNat 3) [Sample.nodeAB]
      (mth Sample.sha256 Sample.leaves) = .ok () ∧
    ∃ data, Sample.leaves[2]? = some data ∧ Sample.leafC = hashLeaf Sample.sha256 data ∧
      [Sample.nodeAB] = auditPath Sample.sha256 2 Sample.leaves := by
  have h3 : splitPoint 3 = 2 := by decide
  have hpath : auditPath Sample.sha256 2 Sample.leaves = [Sample.nodeAB] := by
    have h2 : splitPoint 2 = 1 := by decide
    simp [auditPath, Sample.leaves, path, root, h2, h3, hasher, hashLeaf, hashChildren]
    decide
  have hdirs : dirs 2 3 = [true] := by
    rw [dirs_right (by decide) (by decide), h3, dirs_of_lt_two (by decide)]
    rfl
  have hfree : CollisionFree Sample.sha256 (nodePairs (hasher Sample.sha256) Sample.leaves ++
      inclusionPairs Sample.sha256 Sample.leafC 2 3 [Sample.nodeAB]) := by
    rw [Sample.nodePairs_leaves, inclusionPairs, hdirs]
    decide
  obtain ⟨hcomplete, hsound⟩ := verifyInclusionProof_correct Sample.sha256 Sample.leaves (by decide)
    2 Sample.leafC [Sample.nodeAB]
  have hok := hcomplete ⟨[0x63], rfl, by decide, hpath.symm⟩
  exact ⟨hok, hsound hfree hok⟩

end Sigstore.Merkle
