import Sigstore.Merkle.ProofLength

/-!
# Consistency proofs are append-only

The bit arithmetic of `verify_consistency_proof` (trailing zeros, the xor's bit length, the
popcount) yields the directions of leaf `old_size - 1` above the subtree that the seed is the root
of (`consistencyDirs_eq`), and the two chains of hashes are the two climbs of
`HashTree.consistency_tail`. So a proof that is accepted against the new tree's root fixes the old
root (`verifyConsistencyProof_correct`).
-/

namespace Sigstore.Merkle

open HashTree Word

section
variable (sha256 : Bytes → Sha256Hash)

/-- One bit of the mask. -/
theorem bit_eq (mask : UInt64) {i : Nat} (hi : i < 64) :
    ((mask >>> UInt64.ofNat i) &&& 1 = 1 ↔ mask.toNat >>> i % 2 = 1) ∧
    ((mask >>> UInt64.ofNat i) &&& 1 = 0 ↔ ¬ mask.toNat >>> i % 2 = 1) := by
  have hbit : ((mask >>> UInt64.ofNat i) &&& 1).toNat = mask.toNat >>> i % 2 := by
    rw [UInt64.toNat_and, toNat_shiftRight mask hi]
    exact Nat.and_one_is_mod _
  rw [← UInt64.toNat_inj, ← UInt64.toNat_inj, hbit]
  simp only [UInt64.reduceToNat, Nat.mod_two_not_eq_one, and_self]

/-- The inner chain of the new root climbs the bits of the mask. -/
theorem chainInner_eq {mask : UInt64} {i : Nat} (hash : Sha256Hash) {ps : List Sha256Hash}
    (hi : i + ps.length ≤ 64) :
    chainInner sha256 mask i hash ps =
      climb (hashChildren sha256) hash (bitsBelow ps.length (mask.toNat >>> i)) ps := by
  induction ps generalizing i hash with
  | nil => rfl
  | cons p ps ih =>
    rw [List.length_cons] at hi
    obtain ⟨-, hzero⟩ := bit_eq mask (i := i) (by omega)
    rw [chainInner, ih _ (by omega), List.length_cons, bitsBelow, climb_cons, Nat.shiftRight_succ]
    simp only [hzero, decide_eq_true_eq, ite_not]

/-- The inner chain of the old root climbs only the set bits of the mask. A hash of the proof that
lies to the right of the old tree is passed over. -/
theorem chainInnerRight_eq {mask : UInt64} {i : Nat} (hash : Sha256Hash) {ps : List Sha256Hash}
    (hi : i + ps.length ≤ 64) :
    chainInnerRight sha256 mask i hash ps =
      climbLeft (hashChildren sha256) hash (bitsBelow ps.length (mask.toNat >>> i)) ps := by
  induction ps generalizing i hash with
  | nil => rfl
  | cons p ps ih =>
    rw [List.length_cons] at hi
    obtain ⟨hone, -⟩ := bit_eq mask (i := i) (by omega)
    rw [chainInnerRight, ih _ (by omega), List.length_cons, bitsBelow, climbLeft,
      Nat.shiftRight_succ]
    simp only [hone, decide_eq_true_eq]

/-- The border chain joins every hash on the left, in both climbs. -/
theorem chainBorderRight_eq (hash : Sha256Hash) (ps : List Sha256Hash) :
    chainBorderRight sha256 hash ps =
      climb (hashChildren sha256) hash (List.replicate ps.length true) ps ∧
    chainBorderRight sha256 hash ps =
      climbLeft (hashChildren sha256) hash (List.replicate ps.length true) ps := by
  induction ps generalizing hash with
  | nil => exact ⟨rfl, rfl⟩
  | cons p ps ih => exact ih _

/-- The two chains over a proof of the expected length are the two climbs. The hashes are used in
the order of the proof: the inner ones below the border. -/
theorem checkConsistencyRoots_ok_iff {seed : Sha256Hash} {inner border : Nat} {mask : UInt64}
    {siblings : List Sha256Hash} {oldRoot newRoot : Sha256Hash} (hinner : inner ≤ 64)
    (hlen : siblings.length = inner + border) :
    checkConsistencyRoots sha256 seed inner mask siblings oldRoot newRoot = .ok () ↔
      climbLeft (hashChildren sha256) seed
        (bitsBelow inner mask.toNat ++ List.replicate border true) siblings = oldRoot ∧
      climb (hashChildren sha256) seed
        (bitsBelow inner mask.toNat ++ List.replicate border true) siblings = newRoot := by
  have htake : (siblings.take inner).length = inner := by rw [List.length_take]; omega
  have hdrop : (siblings.drop inner).length = border := by rw [List.length_drop]; omega
  have hbits : (siblings.take inner).length = (bitsBelow inner mask.toNat).length := by
    rw [htake, length_bitsBelow]
  have hsplit := (List.take_append_drop inner siblings).symm
  have hold : chainBorderRight sha256 (chainInnerRight sha256 mask 0 seed (siblings.take inner))
      (siblings.drop inner) = climbLeft (hashChildren sha256) seed
        (bitsBelow inner mask.toNat ++ List.replicate border true) siblings := by
    rw [chainInnerRight_eq sha256 seed (by omega), (chainBorderRight_eq sha256 _ _).2, htake, hdrop]
    conv_rhs => rw [hsplit, climbLeft_append _ _ hbits]
    rfl
  have hnew : chainBorderRight sha256 (chainInner sha256 mask 0 seed (siblings.take inner))
      (siblings.drop inner) = climb (hashChildren sha256) seed
        (bitsBelow inner mask.toNat ++ List.replicate border true) siblings := by
    rw [chainInner_eq sha256 seed (by omega), (chainBorderRight_eq sha256 _ _).1, htake, hdrop]
    conv_rhs => rw [hsplit, climb_append _ _ hbits]
    rfl
  simp only [checkConsistencyRoots, hold, hnew]
  split
  · next h => simp [h]
  · next h =>
    split
    · next h' => simp [h']
    · next h' => simp [not_not.1 h, not_not.1 h']

/-- The directions above the perfect subtree of size `2 ^ s` that ends at leaf `m - 1`. -/
def consistencyDirs (m n : Nat) (s : Nat) : List Bool := (dirs (m - 1) n).drop s

section
variable {oldSize newSize : UInt64} (hpos : 0 < oldSize) (hlt : oldSize < newSize)
include hpos hlt

/-- The sizes that the shifts of the code work on do not wrap around, since the old tree is not
empty and smaller than the new one. -/
theorem toNat_pred : (oldSize - 1).toNat = oldSize.toNat - 1 ∧
    (newSize - 1).toNat = newSize.toNat - 1 ∧ 0 < oldSize.toNat ∧
    oldSize.toNat < newSize.toNat := by
  have h0 : 0 < oldSize.toNat := by simpa [UInt64.lt_iff_toNat_lt] using hpos
  have h1 : oldSize.toNat < newSize.toNat := UInt64.lt_iff_toNat_lt.1 hlt
  refine ⟨?_, ?_, h0, h1⟩
  · rw [UInt64.toNat_sub_of_le _ _ (by simpa [UInt64.le_iff_toNat_le] using by omega)]
    rfl
  · rw [UInt64.toNat_sub_of_le _ _ (by simpa [UInt64.le_iff_toNat_le] using by omega)]
    rfl

/-- The last leaf of the old tree is a leaf of the new one. -/
theorem pred_lt : oldSize - 1 < newSize := by
  obtain ⟨hold, -, -, h1⟩ := toNat_pred hpos hlt
  rw [UInt64.lt_iff_toNat_lt, hold]
  omega

/-- The paths meet above the subtree of the seed. The old tree is smaller than the new one, so its
last leaf leaves the right border above its perfect subtree. -/
theorem trailingZeros_lt_inner :
    trailingZeros oldSize < innerSize (oldSize.toNat - 1) newSize.toNat ∧
    innerSize (oldSize.toNat - 1) newSize.toNat ≤ 64 := by
  obtain ⟨hold, hnew, h0, h1⟩ := toNat_pred hpos hlt
  obtain ⟨hs, q, hq⟩ := eq_trailingZeros hpos
  set s := trailingZeros oldSize
  have hpow := Nat.two_pow_pos s
  constructor
  · rw [innerSize, Nat.lt_size]
    by_contra hsmall
    have hzero := Nat.shiftRight_eq_zero _ s (Nat.not_le.1 hsmall)
    rw [Nat.shiftRight_xor_distrib, Nat.xor_eq_zero_iff, Nat.shiftRight_eq_div_pow,
      Nat.shiftRight_eq_div_pow] at hzero
    have hsplit : oldSize.toNat - 1 = 2 ^ s - 1 + 2 ^ s * (2 * q) := by
      rw [hq, Nat.mul_add, Nat.mul_one]
      omega
    have hdiv : (oldSize.toNat - 1) / 2 ^ s = 2 * q := by
      rw [hsplit, Nat.add_mul_div_left _ _ hpow, Nat.div_eq_of_lt (by omega), Nat.zero_add]
    have hge : 2 * q + 1 ≤ (newSize.toNat - 1) / 2 ^ s := by
      rw [Nat.le_div_iff_mul_le hpow, Nat.mul_comm, ← hq]
      omega
    omega
  · rw [← hold]
    exact innerSize_le (pred_lt hpos hlt)

/-- The directions above the seed, in the code's terms. -/
theorem consistencyDirs_eq :
    consistencyDirs oldSize.toNat newSize.toNat (trailingZeros oldSize) =
      bitsBelow (innerProofSize (oldSize - 1) newSize - trailingZeros oldSize)
        ((oldSize - 1) >>> UInt64.ofNat (trailingZeros oldSize)).toNat ++
      List.replicate (decomposeInclusionProof (oldSize - 1) newSize).2 true := by
  obtain ⟨hold, hnew, h0, h1⟩ := toNat_pred hpos hlt
  obtain ⟨hinner, -⟩ := trailingZeros_lt_inner hpos hlt
  obtain ⟨hs, -⟩ := eq_trailingZeros hpos
  rw [consistencyDirs, dirs_eq_bits (w := 64) (by omega) newSize.toNat_lt.le,
    List.drop_append_of_le_length (by rw [length_bitsBelow]; omega), drop_bitsBelow,
    innerProofSize_eq (pred_lt hpos hlt), border_eq (pred_lt hpos hlt), toNat_shiftRight _ hs, hold]

omit hlt in
/-- The code's test for `old_size` being the power of two at its lowest set bit. -/
theorem eq_one_shiftLeft_iff :
    oldSize = 1 <<< UInt64.ofNat (trailingZeros oldSize) ↔
      oldSize.toNat = 2 ^ trailingZeros oldSize := by
  obtain ⟨hs, -⟩ := eq_trailingZeros hpos
  have hmod : (UInt64.ofNat (trailingZeros oldSize)).toNat % 64 = trailingZeros oldSize := by
    rw [UInt64.toNat_ofNat_of_lt' (hs.trans (by decide)), Nat.mod_eq_of_lt hs]
  rw [← UInt64.toNat_inj, UInt64.toNat_shiftLeft, hmod, Nat.shiftLeft_eq]
  simp only [UInt64.reduceToNat, Nat.one_mul]
  rw [Nat.mod_eq_of_lt (Nat.pow_lt_pow_right (by omega) hs)]

/-- What `verify_consistency_proof` accepts for a proper extension: a proof that is `seed` and its
siblings, without the seed where the seed is the old root, and whose two climbs end in the two
roots. -/
theorem verifyConsistencyProof_ok_iff {proof : List Sha256Hash} {oldRoot newRoot : Sha256Hash} :
    verifyConsistencyProof sha256 oldSize newSize proof oldRoot newRoot = .ok () ↔
      ∃ seed siblings,
        (if oldSize.toNat = 2 ^ trailingZeros oldSize then seed = oldRoot ∧ proof = siblings
          else proof = seed :: siblings) ∧
        siblings.length =
          (consistencyDirs oldSize.toNat newSize.toNat (trailingZeros oldSize)).length ∧
        climbLeft (hashChildren sha256) seed
          (consistencyDirs oldSize.toNat newSize.toNat (trailingZeros oldSize)) siblings =
            oldRoot ∧
        climb (hashChildren sha256) seed
          (consistencyDirs oldSize.toNat newSize.toNat (trailingZeros oldSize)) siblings =
            newRoot := by
  have hdirs := consistencyDirs_eq hpos hlt
  have hinner := trailingZeros_lt_inner hpos hlt
  rw [← (toNat_pred hpos hlt).1, ← innerProofSize_eq (pred_lt hpos hlt)] at hinner
  have hT : (consistencyDirs oldSize.toNat newSize.toNat (trailingZeros oldSize)).length =
      innerProofSize (oldSize - 1) newSize - trailingZeros oldSize +
        (decomposeInclusionProof (oldSize - 1) newSize).2 := by
    rw [hdirs, List.length_append, length_bitsBelow, List.length_replicate]
  have hfst : (decomposeInclusionProof (oldSize - 1) newSize).1 =
      innerProofSize (oldSize - 1) newSize := rfl
  have hne : oldSize ≠ newSize := UInt64.ne_of_lt hlt
  have hne0 : oldSize ≠ 0 := (UInt64.ne_of_lt hpos).symm
  have hgt : ¬ oldSize > newSize := UInt64.lt_asymm hlt
  have hone := eq_one_shiftLeft_iff hpos
  unfold verifyConsistencyProof
  rw [if_neg hgt, if_neg hne0, if_neg hne, hT, hdirs]
  cases proof with
  | nil =>
    refine iff_of_false (by simp) ?_
    rintro ⟨seed, siblings, hproof, hlen, -, -⟩
    split at hproof
    · rw [← hproof.2, List.length_nil] at hlen
      omega
    · cases hproof
  | cons first rest =>
    by_cases hpow : oldSize.toNat = 2 ^ trailingZeros oldSize
    · -- the seed is the old root
      simp only [if_pos hpow, if_pos (hone.2 hpow), Nat.zero_add]
      split
      · next hbad =>
        refine iff_of_false (by simp) ?_
        rintro ⟨_, _, ⟨-, rfl⟩, hlen, -⟩
        exact hbad hlen
      · next hlen =>
        have hlen := not_not.1 hlen
        refine (checkConsistencyRoots_ok_iff sha256 (by omega) hlen).trans
          ⟨fun h => ⟨oldRoot, _, ⟨rfl, rfl⟩, hlen, h⟩, ?_⟩
        rintro ⟨_, _, ⟨rfl, rfl⟩, -, h⟩
        exact h
    · -- the seed is the first hash of the proof
      simp only [if_neg hpow, if_neg (mt hone.1 hpow)]
      split
      · next hbad =>
        refine iff_of_false (by simp) ?_
        rintro ⟨_, _, hproof, hlen, -⟩
        cases hproof
        exact hbad (by rw [List.length_cons, hlen]; omega)
      · next hlen =>
        have hlen : rest.length =
            innerProofSize (oldSize - 1) newSize - trailingZeros oldSize +
              (decomposeInclusionProof (oldSize - 1) newSize).2 := by
          have hlen := not_not.1 hlen
          rw [List.length_cons] at hlen
          omega
        refine (checkConsistencyRoots_ok_iff sha256 (by omega) hlen).trans
          ⟨fun h => ⟨first, rest, rfl, hlen, h⟩, ?_⟩
        rintro ⟨_, _, hproof, -, h⟩
        cases hproof
        exact h

end

/-- The pairs of hashes that recomputing the new root from a consistency proof hashes. -/
def consistencyPairs (oldSize newSize : UInt64) (proof : List Sha256Hash) (oldRoot : Sha256Hash) :
    List (Sha256Hash × Sha256Hash) :=
  let ds := consistencyDirs oldSize.toNat newSize.toNat (trailingZeros oldSize)
  if oldSize.toNat = 2 ^ trailingZeros oldSize then
    climbPairs (hashChildren sha256) oldRoot ds proof
  else
    match proof with
    | [] => []
    | seed :: siblings => climbPairs (hashChildren sha256) seed ds siblings

section
variable {oldSize newSize : UInt64} {D : List Bytes} (hsize : newSize.toNat = D.length)
  (hpos : 0 < oldSize.toNat) (hlt : oldSize.toNat < D.length)
include hsize hpos hlt

/-- The proof between a list's prefix and the list is accepted. The seed is the old root where the
old tree is perfect, and the first hash of the proof otherwise; the climbs from it are those of
`consistency_tail`. -/
theorem verifyConsistencyProof_consistencyPath :
    verifyConsistencyProof sha256 oldSize newSize (consistencyPath sha256 oldSize.toNat D)
      (mth sha256 (D.take oldSize.toNat)) (mth sha256 D) = .ok () := by
  have hpos' : 0 < oldSize := by simpa [UInt64.lt_iff_toNat_lt] using hpos
  have hlt' : oldSize < newSize := UInt64.lt_iff_toNat_lt.2 (by omega)
  obtain ⟨-, q, hq⟩ := eq_trailingZeros hpos'
  obtain ⟨tail, ht⟩ := consistency_tail (hasher sha256) D hq (.inl hlt)
  rw [verifyConsistencyProof_ok_iff sha256 hpos' hlt', hsize]
  refine ⟨_, tail, ?_, ht.length, ht.oldRoot, ht.newRoot⟩
  rw [consistencyPath, consistencyProof, ht.wholeProof]
  split
  · next hpow => exact ⟨by rw [← hpow, Nat.sub_self, List.drop_zero, mth], rfl⟩
  · rfl

/-- An accepted proof against the root of a list fixes the old root, where the node hash does not
collide. -/
theorem oldRoot_of_verifyConsistencyProof {proof : List Sha256Hash} {oldRoot : Sha256Hash}
    (hfree : CollisionFree sha256
      (nodePairs (hasher sha256) D ++ consistencyPairs sha256 oldSize newSize proof oldRoot))
    (hok : verifyConsistencyProof sha256 oldSize newSize proof oldRoot (mth sha256 D) = .ok ()) :
    oldRoot = mth sha256 (D.take oldSize.toNat) := by
  have hpos' : 0 < oldSize := by simpa [UInt64.lt_iff_toNat_lt] using hpos
  have hlt' : oldSize < newSize := UInt64.lt_iff_toNat_lt.2 (by omega)
  obtain ⟨-, q, hq⟩ := eq_trailingZeros hpos'
  obtain ⟨tail, ht⟩ := consistency_tail (hasher sha256) D hq (.inl hlt)
  rw [verifyConsistencyProof_ok_iff sha256 hpos' hlt'] at hok
  obtain ⟨seed, siblings, hproof, hlen, hold, hnew⟩ := hok
  have hpairs : consistencyPairs sha256 oldSize newSize proof oldRoot =
      climbPairs (hashChildren sha256) seed
        (consistencyDirs oldSize.toNat newSize.toNat (trailingZeros oldSize)) siblings := by
    unfold consistencyPairs
    split at hproof
    · next hpow =>
      obtain ⟨rfl, rfl⟩ := hproof
      rw [if_pos hpow]
    · next hpow =>
      subst hproof
      rw [if_neg hpow]
  rw [hpairs] at hfree
  rw [hsize] at hfree hlen hold hnew
  obtain ⟨rfl, rfl⟩ := climb_inj hfree hlen ht.length
    (fun p hp => List.mem_append_right _ hp)
    (fun p hp => List.mem_append_left _ (ht.pairs p hp)) (hnew.trans ht.newRoot.symm)
  exact hold.symm.trans ht.oldRoot

end

/-- **Consistency proofs are append-only.** For a tree of any size up to `2 ^ 64` and any smaller
size, a proof accepted against the tree's root fixes the old root to that of the prefix, where
`hash_children` does not collide on the pairs that the tree and the proof hash; and the proof of the
prefix is accepted. -/
theorem verifyConsistencyProof_correct (D : List Bytes) (hlt : D.length < 2 ^ 64) (m : UInt64)
    (hpos : 0 < m.toNat) (hm : m.toNat < D.length) (root1 : Sha256Hash)
    (proof : List Sha256Hash) :
    (CollisionFree sha256 (nodePairs (hasher sha256) D ++
        consistencyPairs sha256 m (UInt64.ofNat D.length) proof root1) →
      verifyConsistencyProof sha256 m (UInt64.ofNat D.length) proof root1 (mth sha256 D) = .ok () →
      root1 = mth sha256 (D.take m.toNat)) ∧
    verifyConsistencyProof sha256 m (UInt64.ofNat D.length) (consistencyPath sha256 m.toNat D)
      (mth sha256 (D.take m.toNat)) (mth sha256 D) = .ok () := by
  have hsize : (UInt64.ofNat D.length).toNat = D.length := UInt64.toNat_ofNat_of_lt' hlt
  exact ⟨oldRoot_of_verifyConsistencyProof sha256 hsize hpos hm,
    verifyConsistencyProof_consistencyPath sha256 hsize hpos hm⟩

end

/-- Two of three leaves: the old tree is perfect, so its own root is the seed. The only hash of the
proof is that of the third leaf. -/
theorem verifyConsistencyProof_correct_prefix :
    verifyConsistencyProof Sample.sha256 2 (UInt64.ofNat 3) [Sample.leafC] Sample.nodeAB
      (mth Sample.sha256 Sample.leaves) = .ok () ∧
    Sample.nodeAB = mth Sample.sha256 (Sample.leaves.take 2) := by
  have h2 : splitPoint 2 = 1 := by decide
  have h3 : splitPoint 3 = 2 := by decide
  have hproof : consistencyPath Sample.sha256 2 Sample.leaves = [Sample.leafC] := by
    simp [consistencyPath, consistencyProof, Sample.leaves, subproof, h3, hasher, hashLeaf]
    decide
  have hroot : mth Sample.sha256 (Sample.leaves.take 2) = Sample.nodeAB := by
    simp [mth, Sample.leaves, root, h2, hasher, hashLeaf, hashChildren]
    decide
  have hdirs : consistencyDirs 2 3 1 = [false] := by
    rw [consistencyDirs, dirs_left (by decide) (by decide), h3, dirs_right (by decide) (by decide),
      h2, dirs_of_lt_two (by decide)]
    rfl
  have htz : trailingZeros 2 = 1 := by decide
  have hfree : CollisionFree Sample.sha256 (nodePairs (hasher Sample.sha256) Sample.leaves ++
      consistencyPairs Sample.sha256 2 (UInt64.ofNat 3) [Sample.leafC] Sample.nodeAB) := by
    rw [Sample.nodePairs_leaves, consistencyPairs, htz]
    simp only [UInt64.reduceToNat, UInt64.reduceOfNat, hdirs]
    decide
  obtain ⟨hsound, hcomplete⟩ := verifyConsistencyProof_correct Sample.sha256 Sample.leaves
    (by decide) 2 (by decide) (by decide) Sample.nodeAB [Sample.leafC]
  have hok : verifyConsistencyProof Sample.sha256 2 (UInt64.ofNat 3) [Sample.leafC] Sample.nodeAB
      (mth Sample.sha256 Sample.leaves) = .ok () := by
    rw [← hroot, ← hproof]
    exact hcomplete
  exact ⟨hok, hsound hfree hok⟩

end Sigstore.Merkle
