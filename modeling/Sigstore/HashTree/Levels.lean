import Sigstore.HashTree.Basic
import Mathlib.Data.Nat.Size
import Mathlib.Data.Nat.Bitwise
import Mathlib.Data.List.Count

/-!
# The levels of a hash tree

The directions of a leaf (`HashTree.dirs`) are defined from the root down. Verifiers read them from
the leaf up, halving the index and the size at each level; `dirs_half` is that reading, with the
right-edge node that is promoted without a sibling as its one exception. From it follows the closed
form `dirs_eq_bits`: below the level where the paths of leaf `i` and of the last leaf meet, the
directions are the bits of `i`, and above it the siblings are all on the left, one for each bit of
`i` that is set there.
-/

namespace HashTree

/-- Splitting commutes with halving, except at the root of a tree of two leaves. The split point is
a power of two, and both sides are the greatest one below their number. -/
theorem splitPoint_half {n : Nat} (h : 3 ≤ n) :
    splitPoint n = 2 * splitPoint ((n + 1) / 2) := by
  obtain ⟨j, hj⟩ := exists_splitPoint_eq n
  have hlt := splitPoint_lt (n := n) (by omega)
  have hle := le_two_mul_splitPoint (n := n) (by omega)
  rw [hj] at hlt hle
  cases j with
  | zero => omega
  | succ j =>
    rw [Nat.pow_succ] at hlt hle
    rw [hj, splitPoint_eq (n := (n + 1) / 2) (j := j) (by omega) (by omega), Nat.pow_succ,
      Nat.mul_comm]

/-- One level up: a leaf that is the last of an odd number of leaves is promoted without a sibling;
every other leaf has a sibling, on the left exactly when its index is odd. -/
theorem dirs_half {i n : Nat} (h : 2 ≤ n) (hi : i < n) :
    dirs i n = if i = n - 1 ∧ n % 2 = 1 then dirs (i / 2) ((n + 1) / 2)
      else decide (i % 2 = 1) :: dirs (i / 2) ((n + 1) / 2) := by
  induction n using Nat.strongRecOn generalizing i with
  | ind n ih =>
    rcases Nat.lt_or_ge n 3 with h3 | h3
    · obtain rfl : n = 2 := by omega
      have hs : splitPoint 2 = 1 := splitPoint_eq (j := 0) (by decide) (by decide)
      have : i = 0 ∨ i = 1 := by omega
      rcases this with rfl | rfl
      · rw [dirs_left h (by omega), hs]; simp [dirs_of_lt_two]
      · rw [dirs_right h (by omega), hs]; simp [dirs_of_lt_two]
    have hsp := splitPoint_half h3
    have hlt := splitPoint_lt h
    have hle := le_two_mul_splitPoint h
    have h2 : 2 ≤ (n + 1) / 2 := by omega
    set k := splitPoint ((n + 1) / 2) with hk
    have hkpos : 0 < k := splitPoint_pos _
    rcases Nat.lt_or_ge i (2 * k) with hl | hr
    · -- the left half is perfect, so none of its leaves is promoted
      rw [dirs_left h (by omega), hsp, ih (2 * k) (by omega) (by omega) hl, if_neg (by omega),
        if_neg (by omega), dirs_left h2 (by omega), ← hk, List.cons_append]
      congr 4
      omega
    · rw [dirs_right h (by omega), hsp, dirs_right h2 (by omega), ← hk]
      have hdiv : (i - 2 * k) / 2 = i / 2 - k := by omega
      have hmod : (i - 2 * k) % 2 = i % 2 := by omega
      rcases Nat.lt_or_ge (n - 2 * k) 2 with h1 | h1
      · rw [if_pos (by omega), dirs_of_lt_two h1, dirs_of_lt_two (by omega)]
      · rw [ih (n - 2 * k) (by omega) h1 (by omega), hdiv, hmod]
        have hn : (n - 2 * k + 1) / 2 = (n + 1) / 2 - k := by omega
        rw [hn]
        by_cases hlast : i = n - 1 ∧ n % 2 = 1
        · rw [if_pos (by omega), if_pos hlast]
        · rw [if_neg (by omega), if_neg hlast, List.cons_append]

/-! ## Bits -/

/-- The lowest `w` bits of `i`, lowest first. -/
def bitsBelow : Nat → Nat → List Bool
  | 0, _ => []
  | w + 1, i => decide (i % 2 = 1) :: bitsBelow w (i / 2)

@[simp] theorem length_bitsBelow (w i : Nat) : (bitsBelow w i).length = w := by
  induction w generalizing i with
  | zero => rfl
  | succ w ih => simp [bitsBelow, ih]

/-- The bits from position `s` on are those of the number shifted by `s`. -/
theorem drop_bitsBelow (s w i : Nat) :
    (bitsBelow w i).drop s = bitsBelow (w - s) (i >>> s) := by
  induction s generalizing w i with
  | zero => simp
  | succ s ih =>
    cases w with
    | zero => simp [bitsBelow]
    | succ w =>
      rw [bitsBelow, List.drop_succ_cons, ih, Nat.add_sub_add_right, Nat.add_comm s 1,
        Nat.shiftRight_add]
      rfl

/-- How many of the lowest `w` bits of `i` are set. -/
def onesBelow (w i : Nat) : Nat := (List.range w).countP (i.testBit ·)

/-- The set bits of a number are its lowest bit and those of its half. -/
theorem onesBelow_succ (w i : Nat) : onesBelow (w + 1) i = i % 2 + onesBelow w (i / 2) := by
  have hcongr : List.countP ((i.testBit ·) ∘ Nat.succ) (List.range w) =
      List.countP ((i / 2).testBit ·) (List.range w) :=
    List.countP_congr fun t _ => by simp [Nat.testBit_succ]
  rw [onesBelow, List.range_succ_eq_map, List.countP_cons, List.countP_map, hcongr, onesBelow,
    Nat.testBit_zero, Nat.add_comm]
  rcases Nat.mod_two_eq_zero_or_one i with h | h <;> simp [h]

/-- Bits beyond the size of a number are not set. -/
theorem onesBelow_succ_of_lt {w i : Nat} (h : i < 2 ^ w) : onesBelow (w + 1) i = onesBelow w i := by
  rw [onesBelow, List.range_succ, List.countP_append, List.countP_singleton,
    Nat.testBit_lt_two_pow h]
  simp [onesBelow]

@[simp] theorem onesBelow_zero_right (w : Nat) : onesBelow w 0 = 0 := by
  simp [onesBelow]

/-! ## The closed form of the directions -/

/-- The number of levels below the one where the paths of leaf `i` and of the last leaf meet. -/
def innerSize (i n : Nat) : Nat := Nat.size (i ^^^ (n - 1))

/-- The last leaf of a tree has no inner level: its path is on the right border all the way. -/
theorem innerSize_last (i : Nat) : innerSize i (i + 1) = 0 := by simp [innerSize]

/-- One level up, the index and the size are halved, and a leaf that is not the last has one inner
level fewer to go. -/
theorem innerSize_half {i n : Nat} (h : 2 ≤ n) (hne : i ≠ n - 1) :
    innerSize i n = innerSize (i / 2) ((n + 1) / 2) + 1 := by
  have hxor : i ^^^ (n - 1) ≠ 0 := fun h => hne (Nat.xor_eq_zero_iff.1 h)
  have hdiv : (i ^^^ (n - 1)) / 2 = i / 2 ^^^ ((n + 1) / 2 - 1) := by
    rw [Nat.xor_div_two]
    congr 1
    omega
  have hsize : Nat.size (i ^^^ (n - 1)) = Nat.size ((i ^^^ (n - 1)) / 2) + 1 := by
    conv_lhs => rw [← Nat.bit_bodd_div2 (i ^^^ (n - 1))]
    rw [Nat.size_bit (by rwa [Nat.bit_bodd_div2]), Nat.div2_val]
  rw [innerSize, hsize, hdiv, innerSize]

/-- **The directions in closed form**: the bits of `i` below the level where its path meets the path
of the last leaf, and above that level only siblings on the left. -/
theorem dirs_eq_bits {w i n : Nat} (hi : i < n) (hn : n ≤ 2 ^ w) :
    dirs i n = bitsBelow (innerSize i n) i ++
      List.replicate (onesBelow w (i >>> innerSize i n)) true := by
  induction w generalizing i n with
  | zero =>
    obtain rfl : n = 1 := by omega
    obtain rfl : i = 0 := by omega
    simp [dirs_of_lt_two, innerSize, bitsBelow, onesBelow]
  | succ w ih =>
    rw [Nat.pow_succ] at hn
    rcases Nat.lt_or_ge n 2 with h1 | h2
    · obtain rfl : n = 1 := by omega
      obtain rfl : i = 0 := by omega
      simp [dirs_of_lt_two, innerSize, bitsBelow]
    have ih := ih (i := i / 2) (n := (n + 1) / 2) (by omega) (by omega)
    rw [dirs_half h2 hi]
    by_cases hlast : i = n - 1
    · -- the last leaf: every sibling there is lies on the left
      obtain rfl : n = i + 1 := by omega
      have hhalf : (i + 1 + 1) / 2 = i / 2 + 1 := by omega
      rw [hhalf, innerSize_last] at ih
      rw [hhalf, innerSize_last, ih]
      simp only [bitsBelow, List.nil_append, Nat.shiftRight_zero]
      rw [onesBelow_succ]
      rcases Nat.mod_two_eq_zero_or_one i with h | h
      · rw [if_pos (by omega), h, Nat.zero_add]
      · rw [if_neg (by omega), h, Nat.add_comm, List.replicate_succ]
        rfl
    · have hsh : i >>> (innerSize (i / 2) ((n + 1) / 2) + 1) =
          (i / 2) >>> innerSize (i / 2) ((n + 1) / 2) := by
        rw [Nat.add_comm, Nat.shiftRight_add]
        rfl
      have hlt : (i / 2) >>> innerSize (i / 2) ((n + 1) / 2) < 2 ^ w := by
        rw [Nat.shiftRight_eq_div_pow]
        exact (Nat.div_le_self _ _).trans_lt (by omega)
      rw [if_neg (by omega), ih, innerSize_half h2 hlast, bitsBelow, List.cons_append, hsh,
        onesBelow_succ_of_lt hlt]

/-- The number of siblings of leaf `i`: one for each inner level and one for each bit of `i` set
above them. -/
theorem length_dirs {w i n : Nat} (hi : i < n) (hn : n ≤ 2 ^ w) :
    (dirs i n).length = innerSize i n + onesBelow w (i >>> innerSize i n) := by
  rw [dirs_eq_bits hi hn, List.length_append, length_bitsBelow, List.length_replicate]

/-- All siblings of the last leaf lie on the left. -/
theorem dirs_last (i : Nat) : ∃ k, dirs i (i + 1) = List.replicate k true := by
  obtain ⟨w, hw⟩ : ∃ w, i + 1 ≤ 2 ^ w := ⟨_, Nat.lt_two_pow_self.le⟩
  exact ⟨_, by rw [dirs_eq_bits (by omega) hw, innerSize_last]; rfl⟩

end HashTree
