import Sigstore.Merkle.Inclusion

/-!
# The two computations of the length of an inclusion proof

`expected_inclusion_proof_length` walks the levels of the tree, and `decompose_inclusion_proof`
reads an inner and a border length off the bits of the index and of the last index. Both give the
length of the audit path (`proofLength_eq`): the first counts the directions of the leaf, and the
directions have a closed form (`HashTree.length_dirs`). The same functions with every step checked
(`Checked`) never fail, so no subtraction, sum or cast of the code leaves its type.
-/

namespace Sigstore.Merkle

open HashTree Word

section
variable {index size : UInt64} (hi : index < size)
include hi

theorem toNat_last : (size - 1).toNat = size.toNat - 1 := by
  have hlt := UInt64.lt_iff_toNat_lt.1 hi
  rw [UInt64.toNat_sub_of_le _ _ (by simpa [UInt64.le_iff_toNat_le] using by omega)]
  rfl

/-- The code's inner length is the level where the paths of the leaf and of the last leaf meet. -/
theorem innerProofSize_eq : innerProofSize index size = innerSize index.toNat size.toNat := by
  rw [innerProofSize, sub_leadingZeros, UInt64.toNat_xor, toNat_last hi, innerSize]

/-- A leaf index of 64 bits has at most 64 inner levels. -/
theorem innerSize_le : innerSize index.toNat size.toNat ≤ 64 := by
  rw [innerSize, ← toNat_last hi, ← UInt64.toNat_xor, Nat.size_le]
  exact UInt64.toNat_lt _

/-- The code's border length counts the siblings above the meeting level. Where that level is 64 the
shift is out of range, and the code's zero is what an unbounded shift would give. -/
theorem border_eq : (decomposeInclusionProof index size).2 =
    onesBelow 64 (index.toNat >>> innerSize index.toNat size.toNat) := by
  rw [decomposeInclusionProof, innerProofSize_eq hi]
  rcases Nat.lt_or_eq_of_le (innerSize_le hi) with h | h
  · rw [checkedShr, if_pos h, Option.getD_some, countOnes_eq, toNat_shiftRight _ h]
  · have hzero : index.toNat >>> 64 = 0 := Nat.shiftRight_eq_zero _ _ index.toNat_lt
    rw [checkedShr, if_neg (by omega), h, hzero, onesBelow_zero_right]
    rfl

/-- The closed form counts the directions too. -/
theorem decomposeInclusionProof_eq :
    (decomposeInclusionProof index size).1 + (decomposeInclusionProof index size).2 =
      (dirs index.toNat size.toNat).length := by
  have hinner : (decomposeInclusionProof index size).1 = innerSize index.toNat size.toNat :=
    innerProofSize_eq hi
  rw [hinner, border_eq hi, length_dirs (UInt64.lt_iff_toNat_lt.1 hi) size.toNat_lt.le]

end

/-! ## Every step checked -/

namespace Checked

/-- `64 - leading_zeros`, `none` where the difference is negative. -/
def sub (a b : Nat) : Option Nat := if b ≤ a then some (a - b) else none

/-- The difference of two words, `none` where it is negative. -/
def subWord (x y : UInt64) : Option UInt64 := if y ≤ x then some (x - y) else none

/-- The sum of two words, `none` where it does not fit. -/
def addWord (x y : UInt64) : Option UInt64 :=
  if x.toNat + y.toNat < 2 ^ 64 then some (x + y) else none

/-- A count plus one, `none` where it does not fit a `usize` of the smallest width there is. -/
def succ (n : Nat) : Option Nat := if n + 1 < 2 ^ 16 then some (n + 1) else none

/-- A `usize` as `u32`, `none` where the cast would change it. -/
def asU32 (n : Nat) : Option Nat := if n < 2 ^ 32 then some n else none

def innerProofSize (index treeSize : UInt64) : Option Nat := do
  let last ← subWord treeSize 1
  sub 64 (leadingZeros (index ^^^ last))

def decomposeInclusionProof (index treeSize : UInt64) : Option (Nat × Nat) := do
  let inner ← innerProofSize index treeSize
  let shift ← asU32 inner
  return (inner, countOnes ((checkedShr index shift).getD 0))

/-- Whether a node is the last of an odd number of nodes; the code subtracts only where their number
is odd. -/
def promoted (index size : UInt64) : Option Bool :=
  if size % 2 = 1 then (subWord size 1).map fun last => decide (index = last) else some false

/-- A checked addition that does not overflow is the addition. -/
theorem eq_of_addWord {x y z : UInt64} (h : addWord x y = some z) : z = x + y := by
  rw [addWord] at h
  split at h
  · exact (Option.some.inj h).symm
  · cases h

def expectedLengthLoop (count : Nat) (index size : UInt64) : Option Nat :=
  if _h : 1 < size then
    match _h' : addWord (size / 2) (size % 2) with
    | none => none
    | some half => do
      let edge ← promoted index size
      let count ← if edge then some count else succ count
      expectedLengthLoop count (index / 2) half
  else some count
termination_by size.toNat
decreasing_by
  have h2 : 1 < size.toNat := by simpa [UInt64.lt_iff_toNat_lt] using _h
  rw [eq_of_addWord _h', toNat_half_up]
  omega

def expectedInclusionProofLength (leafIndex treeSize : UInt64) : Option Nat :=
  if treeSize ≤ 1 then some 0 else expectedLengthLoop 0 leafIndex treeSize

/-- The closed form stays in range: the size is positive and the inner length is at most 64. So no
subtraction wraps around, and no shift is too large. -/
theorem decomposeInclusionProof_some {index size : UInt64} (hi : index < size) :
    decomposeInclusionProof index size = some (Merkle.decomposeInclusionProof index size) := by
  have hpos : (1 : UInt64) ≤ size := by
    have := UInt64.lt_iff_toNat_lt.1 hi
    rw [UInt64.le_iff_toNat_le]
    show 1 ≤ size.toNat
    omega
  have hlead : leadingZeros (index ^^^ (size - 1)) ≤ 64 := by
    have : leadingZeros (index ^^^ (size - 1)) ≤ (List.range 64).length := List.findIdx_le_length
    rwa [List.length_range] at this
  have hinner : innerProofSize index size = some (Merkle.innerProofSize index size) := by
    simp [innerProofSize, subWord, sub, hpos, hlead, Merkle.innerProofSize]
  have hshift : asU32 (Merkle.innerProofSize index size) =
      some (Merkle.innerProofSize index size) := by
    have := innerSize_le hi
    rw [asU32, innerProofSize_eq hi, if_pos (by omega)]
  simp [decomposeInclusionProof, hinner, hshift, Merkle.decomposeInclusionProof]

/-- A level keeps in range: the size is halved, and the count grows by one at most. The induction is
on the number of levels, which bounds the logarithm of the size. -/
theorem expectedLengthLoop_some {w count : Nat} {index size : UInt64} (hw : size.toNat ≤ 2 ^ w)
    (hcount : count + w < 2 ^ 16) :
    expectedLengthLoop count index size = some (Merkle.expectedLengthLoop count index size) := by
  induction w generalizing count index size with
  | zero =>
    have hone : ¬ 1 < size := by
      rw [UInt64.lt_iff_toNat_lt]
      exact Nat.not_lt.2 hw
    rw [expectedLengthLoop, dif_neg hone, Merkle.expectedLengthLoop, dif_neg hone]
  | succ w ih =>
    rw [expectedLengthLoop, Merkle.expectedLengthLoop]
    by_cases hone : 1 < size
    · rw [dif_pos hone, dif_pos hone]
      have hhalf := toNat_half_up size
      have hlt := size.toNat_lt
      have hedge : promoted index size = some (decide (size % 2 = 1 ∧ index = size - 1)) := by
        unfold promoted subWord
        by_cases hodd : size % 2 = 1
        · simp [hodd, UInt64.le_of_lt hone]
        · simp [hodd]
      have hsucc : succ count = some (count + 1) := by
        rw [succ, if_pos (by omega)]
      split
      · next hadd =>
        rw [addWord, UInt64.toNat_div, UInt64.toNat_mod] at hadd
        simp at hadd
        omega
      · next half hadd =>
        obtain rfl := eq_of_addWord hadd
        rw [hedge, Option.bind_eq_bind, Option.bind_some]
        by_cases hlast : size % 2 = 1 ∧ index = size - 1
        · rw [decide_eq_true hlast, if_pos rfl, if_neg (not_not.2 hlast)]
          exact ih (by rw [hhalf, Nat.pow_succ] at *; omega) (by omega)
        · rw [decide_eq_false hlast, if_pos hlast, hsucc]
          exact ih (by rw [hhalf, Nat.pow_succ] at *; omega) (by omega)
    · rw [dif_neg hone, dif_neg hone]

/-- The length loop does not overflow, for any index and size: it adds one for each level and there
are at most 64 of them. -/
theorem expectedInclusionProofLength_some (index size : UInt64) :
    expectedInclusionProofLength index size =
      some (Merkle.expectedInclusionProofLength index size) := by
  rw [expectedInclusionProofLength, Merkle.expectedInclusionProofLength]
  split
  · rfl
  · exact expectedLengthLoop_some size.toNat_lt.le (by decide)

end Checked

/-- **The two lengths agree.** For every leaf of every tree of 64-bit size, the walk over the levels
and the closed form over the bits give one length, which is the length of the leaf's audit path in
any tree of that size, and neither computation leaves the range of its types. -/
theorem proofLength_eq {index size : UInt64} (hi : index < size) :
    expectedInclusionProofLength index size =
      (decomposeInclusionProof index size).1 + (decomposeInclusionProof index size).2 ∧
    (∀ (sha256 : Bytes → Sha256Hash) (D : List Bytes), D.length = size.toNat →
      (auditPath sha256 index.toNat D).length = expectedInclusionProofLength index size) ∧
    Checked.decomposeInclusionProof index size = some (decomposeInclusionProof index size) ∧
    Checked.expectedInclusionProofLength index size =
      some (expectedInclusionProofLength index size) := by
  refine ⟨?_, ?_, Checked.decomposeInclusionProof_some hi,
    Checked.expectedInclusionProofLength_some index size⟩
  · rw [expectedInclusionProofLength_eq hi, decomposeInclusionProof_eq hi]
  · intro sha256 D hD
    rw [auditPath, length_path, hD, expectedInclusionProofLength_eq hi]

/-- The last leaf of seven: two inner levels fall away and the two set bits are left. The walk over
the levels leaves out the lowest one, where this leaf has no sibling. -/
theorem proofLength_eq_last :
    (6 : UInt64) < 7 ∧ expectedInclusionProofLength 6 7 = 2 ∧
      decomposeInclusionProof 6 7 = (0, 2) := by
  have hi : (6 : UInt64) < 7 := by decide
  have hdecompose : decomposeInclusionProof 6 7 = (0, 2) := by decide
  refine ⟨hi, ?_, hdecompose⟩
  calc expectedInclusionProofLength 6 7
      = (decomposeInclusionProof 6 7).1 + (decomposeInclusionProof 6 7).2 := (proofLength_eq hi).1
    _ = 0 + 2 := by simp only [hdecompose]

end Sigstore.Merkle
