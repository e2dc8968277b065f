import Sigstore.Merkle.Consistency

/-!
# Growth of a log along accepted consistency proofs

A consistency proof speaks of two sizes of a log. Along a chain of tree heads, each linked to the
next by an accepted proof, the claims add up: if the last head is that of a list of leaves, every
head before it is that of a prefix (`Linked.isHeadOf`), so that a leaf that was included under one
of them is in the list at the same index, and has an accepted proof under the last head
(`linked_appendOnly`). An empty tree has no part in this: the code accepts any root hash for it. A
log that only appends can prove every step of its growth (`linked_headsOf`).
-/

namespace Sigstore.Merkle

open HashTree Word

/-- The head of a tree: its size and its root hash. -/
structure TreeHead where
  size : UInt64
  rootHash : Sha256Hash
  deriving DecidableEq

/-- A later tree head, with a consistency proof from the one before. -/
structure Link where
  proof : List Sha256Hash
  next : TreeHead
  deriving DecidableEq

/-- The last head of a chain. -/
def lastHead : TreeHead → List Link → TreeHead
  | head, [] => head
  | _, link :: links => lastHead link.next links

section
variable (sha256 : Bytes → Sha256Hash)

/-- Each head of the chain is linked to the next one by an accepted consistency proof. -/
def Linked : TreeHead → List Link → Prop
  | _, [] => True
  | head, ⟨proof, next⟩ :: links =>
    verifyConsistencyProof sha256 head.size next.size proof head.rootHash next.rootHash = .ok () ∧
      Linked next links

/-- The head is that of the leaves up to its size. An empty tree may have any root hash. -/
structure IsHeadOf (D : List Bytes) (head : TreeHead) : Prop where
  size_le : head.size.toNat ≤ D.length
  rootHash : 0 < head.size.toNat → head.rootHash = mth sha256 (D.take head.size.toNat)

/-- The pairs of hashes that the trees of a chain over some leaves and its proofs hash. -/
def linkPairs (D : List Bytes) : TreeHead → List Link → List (Sha256Hash × Sha256Hash)
  | _, [] => []
  | head, ⟨proof, next⟩ :: links =>
    nodePairs (hasher sha256) (D.take next.size.toNat) ++
      consistencyPairs sha256 head.size next.size proof head.rootHash ++ linkPairs D next links

variable {sha256}

/-- An accepted proof to the head of some leaves is one from the head of fewer. Proofs between trees
of one size only compare the roots, and an empty tree is smaller than any. -/
theorem IsHeadOf.of_verifyConsistencyProof {D : List Bytes} {head next : TreeHead}
    {proof : List Sha256Hash} (hnext : IsHeadOf sha256 D next)
    (hfree : CollisionFree sha256 (nodePairs (hasher sha256) (D.take next.size.toNat) ++
      consistencyPairs sha256 head.size next.size proof head.rootHash))
    (hok : verifyConsistencyProof sha256 head.size next.size proof head.rootHash next.rootHash =
      .ok ()) : IsHeadOf sha256 D head := by
  have hle : head.size.toNat ≤ next.size.toNat := by
    unfold verifyConsistencyProof at hok
    split at hok
    · cases hok
    · next hle => exact UInt64.le_iff_toNat_le.1 (UInt64.not_lt.1 hle)
  refine ⟨hle.trans hnext.size_le, fun hpos => ?_⟩
  have hroot := hnext.rootHash (hpos.trans_le hle)
  rcases hle.lt_or_eq with hlt | heq
  · have hsize : next.size.toNat = (D.take next.size.toNat).length := by
      rw [List.length_take, min_eq_left hnext.size_le]
    rw [hroot] at hok
    rw [oldRoot_of_verifyConsistencyProof sha256 hsize hpos (hsize ▸ hlt) hfree hok, List.take_take,
      min_eq_left hle]
  · have hsame : head.size = next.size := UInt64.toNat_inj.1 heq
    have hne : next.size ≠ 0 := by
      rintro hzero
      rw [hsame, hzero] at hpos
      exact absurd hpos (by decide)
    rw [hsame] at hok ⊢
    simp only [verifyConsistencyProof, gt_iff_lt, UInt64.lt_irrefl, if_false, hne, if_true] at hok
    split at hok
    · cases hok
    · next hroots => rw [not_not.1 hroots, hroot]

/-- Every head of a chain is that of a prefix of the leaves that the last one is of. By induction on
the chain from its end, where the leaves are known. -/
theorem Linked.isHeadOf {D : List Bytes} {first : TreeHead} {links : List Link}
    (hlinked : Linked sha256 first links)
    (hfree : CollisionFree sha256 (linkPairs sha256 D first links))
    (hlast : IsHeadOf sha256 D (lastHead first links)) :
    ∀ head ∈ first :: links.map Link.next, IsHeadOf sha256 D head := by
  induction links generalizing first with
  | nil =>
    intro head hhead
    rwa [List.mem_singleton.1 hhead]
  | cons link links ih =>
    obtain ⟨proof, next⟩ := link
    obtain ⟨hok, hlinked⟩ := hlinked
    have hrest := ih hlinked (hfree.mono sha256 fun p hp => List.mem_append_right _ hp) hlast
    intro head hhead
    rcases List.mem_cons.1 hhead with rfl | hhead
    · exact (hrest next List.mem_cons_self).of_verifyConsistencyProof
        (hfree.mono sha256 fun p hp => List.mem_append_left _ hp) hok
    · exact hrest head hhead

/-- **Logs along accepted proofs are append-only.** Where the last head of a chain is that of a list
of leaves, a head of the chain that is not of the empty tree is that of a prefix. What an inclusion
proof shows under such a head is a leaf of the list, at the index of the proof, and the leaf's audit
path in the whole list is accepted under the last head. The hashes that these trees and proofs make
of two children must not collide. -/
theorem linked_appendOnly {D : List Bytes} {first : TreeHead} {links : List Link}
    (hlinked : Linked sha256 first links)
    (hfree : CollisionFree sha256 (linkPairs sha256 D first links))
    (hsize : (lastHead first links).size.toNat = D.length)
    (hroot : (lastHead first links).rootHash = mth sha256 D) :
    ∀ head ∈ first :: links.map Link.next, 0 < head.size.toNat →
      head.size.toNat ≤ D.length ∧ head.rootHash = mth sha256 (D.take head.size.toNat) ∧
      ∀ (leaf : Sha256Hash) (index : UInt64) (proof : List Sha256Hash),
        CollisionFree sha256 (nodePairs (hasher sha256) (D.take head.size.toNat) ++
          inclusionPairs sha256 leaf index.toNat head.size.toNat proof) →
        verifyInclusionProof sha256 leaf index head.size proof head.rootHash = .ok () →
        (∃ data, D[index.toNat]? = some data ∧ leaf = hashLeaf sha256 data) ∧
        verifyInclusionProof sha256 leaf index (lastHead first links).size
          (auditPath sha256 index.toNat D) (lastHead first links).rootHash = .ok () := by
  have hlast : IsHeadOf sha256 D (lastHead first links) :=
    ⟨hsize.le, fun _ => by rw [hroot, hsize, List.take_length]⟩
  intro head hhead hpos
  have hpart := hlinked.isHeadOf hfree hlast head hhead
  have hheadRoot := hpart.rootHash hpos
  refine ⟨hpart.size_le, hheadRoot, fun leaf index proof hfree' hok => ?_⟩
  have htaken : (D.take head.size.toNat).length = head.size.toNat := by
    rw [List.length_take, min_eq_left hpart.size_le]
  rw [hheadRoot] at hok
  obtain ⟨data, hdata, hleaf, -⟩ :=
    auditPath_of_verifyInclusionProof sha256 htaken.symm (htaken.symm ▸ hfree') hok
  have hwhole : D[index.toNat]? = some data := by
    rw [← hdata, List.getElem?_take_of_lt]
    exact htaken ▸ (List.getElem?_eq_some_iff.1 hdata).1
  have hlt : D.length < 2 ^ 64 := hsize ▸ UInt64.toNat_lt _
  have hlastSize : (lastHead first links).size = UInt64.ofNat D.length := by
    rw [← UInt64.toNat_inj, hsize, UInt64.toNat_ofNat_of_lt' hlt]
  refine ⟨⟨data, hwhole, hleaf⟩, ?_⟩
  rw [hlastSize, hroot, hleaf]
  exact verifyInclusionProof_auditPath sha256 hlt hwhole

/-! ## A log that only appends -/

variable (sha256)

/-- The head of the first leaves. -/
def headOf (D : List Bytes) (size : UInt64) : TreeHead :=
  { size := size, rootHash := mth sha256 (D.take size.toNat) }

/-- The heads of more and more leaves, with the proofs between them. The proofs between trees of one
size, and from the empty tree, have no hashes. -/
def linksOf (D : List Bytes) : UInt64 → List UInt64 → List Link
  | _, [] => []
  | size, next :: sizes =>
    { proof := if size = 0 ∨ size = next then [] else
        consistencyPath sha256 size.toNat (D.take next.toNat)
      next := headOf sha256 D next } :: linksOf D next sizes

/-- The proof of one step is accepted. -/
theorem verifyConsistencyProof_headOf {D : List Bytes} {size next : UInt64} (hle : size ≤ next)
    (hnext : next.toNat ≤ D.length) :
    verifyConsistencyProof sha256 size next
      (if size = 0 ∨ size = next then [] else
        consistencyPath sha256 size.toNat (D.take next.toNat))
      (headOf sha256 D size).rootHash (headOf sha256 D next).rootHash = .ok () := by
  by_cases hends : size = 0 ∨ size = next
  · rw [if_pos hends]
    rcases hends with rfl | rfl
    · by_cases hzero : next = 0 <;> simp [verifyConsistencyProof, headOf, hzero]
    · simp [verifyConsistencyProof]
  · rw [if_neg hends]
    obtain ⟨hzero, hne⟩ := not_or.1 hends
    have hpos : 0 < size.toNat := Nat.pos_of_ne_zero fun h => hzero (UInt64.toNat_inj.1 h)
    have hlt : size.toNat < next.toNat :=
      lt_of_le_of_ne (UInt64.le_iff_toNat_le.1 hle) fun h => hne (UInt64.toNat_inj.1 h)
    have htaken : next.toNat = (D.take next.toNat).length := by
      rw [List.length_take, min_eq_left hnext]
    have hok := verifyConsistencyProof_consistencyPath sha256 htaken hpos (htaken ▸ hlt)
    rwa [List.take_take, min_eq_left hlt.le] at hok

/-- **A log that only appends can prove it.** The heads of more and more leaves of a list are linked
by the proofs of `linksOf`, whatever their sizes are, and the last one is the head that was asked
for last. -/
theorem linked_headsOf {D : List Bytes} {size : UInt64} {sizes : List UInt64}
    (hsorted : (size :: sizes).IsChain (· ≤ ·)) (hle : ∀ n ∈ sizes, n.toNat ≤ D.length) :
    Linked sha256 (headOf sha256 D size) (linksOf sha256 D size sizes) ∧
      lastHead (headOf sha256 D size) (linksOf sha256 D size sizes) =
        headOf sha256 D ((size :: sizes).getLast (List.cons_ne_nil _ _)) := by
  induction sizes generalizing size with
  | nil => exact ⟨trivial, rfl⟩
  | cons next sizes ih =>
    obtain ⟨hstep, hsorted⟩ := List.isChain_cons_cons.1 hsorted
    obtain ⟨hnext, hle⟩ := List.forall_mem_cons.1 hle
    obtain ⟨hlinked, hlast⟩ := ih hsorted hle
    exact ⟨⟨verifyConsistencyProof_headOf sha256 hstep hnext, hlinked⟩,
      hlast.trans (by rw [List.getLast_cons_cons])⟩

/-- A log of three leaves from its first one on, asked for its second leaf twice. -/
theorem linked_headsOf_leaves :
    Linked Sample.sha256 (headOf Sample.sha256 Sample.leaves 1)
        (linksOf Sample.sha256 Sample.leaves 1 [2, 2, 3]) ∧
      lastHead (headOf Sample.sha256 Sample.leaves 1)
        (linksOf Sample.sha256 Sample.leaves 1 [2, 2, 3]) =
          headOf Sample.sha256 Sample.leaves 3 := by
  have hsizes : ∀ n ∈ ([2, 2, 3] : List UInt64), n.toNat ≤ Sample.leaves.length := by
    simp [Sample.leaves]
  exact linked_headsOf Sample.sha256 (by decide) hsizes

end

namespace Sample

/-- The second and the third leaf are appended one by one. -/
def grown : List Link := [⟨[leafB], ⟨2, nodeAB⟩⟩, ⟨[leafC], ⟨3, rootABC⟩⟩]

theorem linked_grown : Linked sha256 ⟨1, leafA⟩ grown := by
  refine ⟨?_, ?_, trivial⟩
  · decide
  · decide

/-- The tree of the first two leaves hashes them together, and nothing else. -/
theorem nodePairs_take : nodePairs (hasher sha256) (leaves.take 2) = [(leafA, leafB)] := by
  have h2 : splitPoint 2 = 1 := by decide
  simp [leaves, nodePairs, h2, hasher, hashLeaf]
  decide

/-- No two of the pairs that the chain hashes have the same hash: they are those of the log's two
inner nodes. -/
theorem collisionFree_grown : CollisionFree sha256 (linkPairs sha256 leaves ⟨1, leafA⟩ grown) := by
  have h2 : splitPoint 2 = 1 := by decide
  have h3 : splitPoint 3 = 2 := by decide
  have hgrow : consistencyDirs 1 2 0 = [false] := by
    rw [consistencyDirs, dirs_left (by decide) (by decide), h2, dirs_of_lt_two (by decide)]
    rfl
  have hdirs : consistencyDirs 2 3 1 = [false] := by
    rw [consistencyDirs, dirs_left (by decide) (by decide), h3, dirs_right (by decide) (by decide),
      h2, dirs_of_lt_two (by decide)]
    rfl
  have htz : trailingZeros 1 = 0 := by decide
  have htz' : trailingZeros 2 = 1 := by decide
  simp only [linkPairs, grown, UInt64.reduceToNat, consistencyPairs, htz, htz', hgrow, hdirs,
    nodePairs_take]
  rw [show leaves.take 3 = leaves from rfl, nodePairs_leaves]
  decide

/-- The second of the first two leaves is included with the first one as its sibling. -/
theorem verifyInclusionProof_second :
    verifyInclusionProof sha256 leafB 1 2 [leafA] nodeAB = .ok () := by
  have h2 : splitPoint 2 = 1 := by decide
  have hpath : auditPath sha256 1 (leaves.take 2) = [leafA] := by
    simp [auditPath, leaves, path, h2, hasher, hashLeaf]
    decide
  have hroot : mth sha256 (leaves.take 2) = nodeAB := by
    simp [mth, leaves, root, h2, hasher, hashLeaf, hashChildren]
    decide
  have hdata : (leaves.take 2)[(1 : UInt64).toNat]? = some [0x62] := rfl
  rw [← hpath, ← hroot]
  exact verifyInclusionProof_auditPath sha256 (by decide) hdata

end Sample

/-- The second leaf is included in the log of two, and so it is in the log of three. -/
theorem linked_appendOnly_grown :
    (∃ data, Sample.leaves[1]? = some data ∧ Sample.leafB = hashLeaf Sample.sha256 data) ∧
    verifyInclusionProof Sample.sha256 Sample.leafB 1 3
      (auditPath Sample.sha256 1 Sample.leaves) Sample.rootABC = .ok () := by
  have h2 : splitPoint 2 = 1 := by decide
  have h3 : splitPoint 3 = 2 := by decide
  have hroot : Sample.rootABC = mth Sample.sha256 Sample.leaves := by
    simp [mth, Sample.leaves, root, h2, h3, hasher, hashLeaf, hashChildren]
    decide
  have hdirs : dirs 1 2 = [true] := by
    rw [dirs_right (by decide) (by decide), h2, dirs_of_lt_two (by decide)]
    rfl
  obtain ⟨-, -, hincluded⟩ := linked_appendOnly Sample.linked_grown Sample.collisionFree_grown rfl
    hroot ⟨2, Sample.nodeAB⟩ (by simp [Sample.grown]) (by decide)
  refine hincluded Sample.leafB 1 [Sample.leafA] ?_ Sample.verifyInclusionProof_second
  simp only [UInt64.reduceToNat, Sample.nodePairs_take, inclusionPairs, hdirs]
  decide

end Sigstore.Merkle
