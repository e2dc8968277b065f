import Sigstore.HashTree.Levels

/-!
# Bit operations on 64-bit words

`leading_zeros`, `trailing_zeros`, `count_ones` and `checked_shr` of a 64-bit word, as positions and
counts of its bits, and what the Merkle code reads off them: the size of a number, its lowest set
bit, and the number of bits set.
-/

namespace Word

open HashTree (onesBelow)

/-- Number of leading zero bits; 64 for zero. -/
def leadingZeros (x : UInt64) : Nat := (List.range 64).findIdx fun k => x.toNat.testBit (63 - k)

/-- Number of trailing zero bits; 64 for zero. -/
def trailingZeros (x : UInt64) : Nat := (List.range 64).findIdx fun k => x.toNat.testBit k

/-- Number of bits set. -/
def countOnes (x : UInt64) : Nat := (List.range 64).countP fun k => x.toNat.testBit k

/-- Shift right, `none` where the distance is not below the width. -/
def checkedShr (x : UInt64) (s : Nat) : Option UInt64 :=
  if s < 64 then some (x >>> UInt64.ofNat s) else none

/-- A shift by less than 64 is the shift of the number. -/
theorem toNat_shiftRight {s : Nat} (x : UInt64) (h : s < 64) :
    (x >>> UInt64.ofNat s).toNat = x.toNat >>> s := by
  have hs : (UInt64.ofNat s).toNat % 64 = s := by
    rw [UInt64.toNat_ofNat_of_lt' (by exact h.trans (by decide))]
    exact Nat.mod_eq_of_lt h
  rw [UInt64.toNat_shiftRight, hs]

/-- The leading zeros are the width less the size of the number. The zeros are counted from the
highest bit, and the size from the lowest. -/
theorem sub_leadingZeros (x : UInt64) : 64 - leadingZeros x = x.toNat.size := by
  rcases Nat.eq_zero_or_pos x.toNat with h0 | hpos
  · have : leadingZeros x = (List.range 64).length :=
      List.findIdx_eq_length.2 fun k _ => by rw [h0, Nat.zero_testBit]
    rw [this, h0, List.length_range, Nat.size_zero]
  · have hlt : x.toNat < 2 ^ 64 := x.toNat_lt
    have hsize : x.toNat.size = x.toNat.log2 + 1 := by
      refine le_antisymm (Nat.size_le.2 Nat.lt_log2_self) (Nat.lt_size.2 ?_)
      exact Nat.log2_self_le hpos.ne'
    have hlog : x.toNat.log2 < 64 := (Nat.log2_lt hpos.ne').2 hlt
    have hlead : leadingZeros x = 63 - x.toNat.log2 := by
      refine (List.findIdx_eq (by rw [List.length_range]; omega)).2 ⟨?_, fun k hk => ?_⟩
      · rw [List.getElem_range, Nat.sub_sub_self (by omega)]
        exact Nat.testBit_log2 hpos.ne'
      · rw [List.getElem_range]
        refine Nat.testBit_lt_two_pow (Nat.lt_log2_self.trans_le ?_)
        exact Nat.pow_le_pow_right (by omega) (by omega)
    rw [hlead, hsize]
    omega

/-- A number is an odd multiple of the power of two at its lowest set bit. What is below that bit is
zero, and the bit itself is what makes the quotient odd. -/
theorem eq_trailingZeros {x : UInt64} (h : 0 < x) :
    trailingZeros x < 64 ∧ ∃ q, x.toNat = 2 ^ trailingZeros x * (2 * q + 1) := by
  have hpos : 0 < x.toNat := by simpa [UInt64.lt_iff_toNat_lt] using h
  have hlt : trailingZeros x < 64 := by
    have hmem : x.toNat.log2 < 64 := (Nat.log2_lt hpos.ne').2 x.toNat_lt
    have : trailingZeros x < (List.range 64).length := List.findIdx_lt_length_of_exists
      ⟨x.toNat.log2, List.mem_range.2 hmem, Nat.testBit_log2 hpos.ne'⟩
    rwa [List.length_range] at this
  have hidx : (List.range 64).findIdx (fun k => x.toNat.testBit k) = trailingZeros x := rfl
  obtain ⟨hset, hclear⟩ := (List.findIdx_eq (by rwa [List.length_range])).1 hidx
  rw [List.getElem_range] at hset
  have hmod : x.toNat % 2 ^ trailingZeros x = 0 := by
    refine Nat.eq_of_testBit_eq fun k => ?_
    rw [Nat.testBit_mod_two_pow, Nat.zero_testBit]
    rcases Nat.lt_or_ge k (trailingZeros x) with hk | hk
    · have := hclear k hk
      rw [List.getElem_range] at this
      rw [this, Bool.and_false]
    · simp [Nat.not_lt.2 hk]
  obtain ⟨c, hc⟩ := Nat.dvd_of_mod_eq_zero hmod
  refine ⟨hlt, c / 2, ?_⟩
  have hodd : c % 2 = 1 := by
    rw [hc, Nat.mul_comm, Nat.testBit_mul_two_pow] at hset
    simpa using hset
  rw [hc]
  congr 1
  omega

theorem countOnes_eq (x : UInt64) : countOnes x = onesBelow 64 x.toNat := rfl

end Word
