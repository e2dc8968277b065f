import Sigstore.HashTree.Levels
import Mathlib.Data.Nat.Prime.Basic
import Mathlib.Tactic.Ring

/-!
# Consistency proofs between two hash trees

The consistency proof between the tree over a list and the tree over its first `m` elements
(`consistencyProof`), by recursion on the larger tree. Its content is one path in that tree: the
path of the largest perfect subtree that ends at leaf `m - 1`, whose root is the `seed`. Climbing
the whole path from the seed gives the larger tree's root (`climb`); joining only its left siblings
gives the smaller tree's root (`climbLeft`). `consistency_tail` states this for every size.
-/

namespace HashTree

section
variable {α δ : Type*}

/-- The consistency proof of the first `m` of the leaves `D`, where `complete` says whether those
leaves are still a whole tree whose root the verifier knows. -/
def subproof (H : Hasher α δ) (m : Nat) (D : List α) (complete : Bool) : List δ :=
  if D.length ≤ m then
    if complete then [] else [root H D]
  else if _h : D.length < 2 then []
  else if m ≤ splitPoint D.length then
    subproof H m (D.take (splitPoint D.length)) complete ++
      [root H (D.drop (splitPoint D.length))]
  else
    subproof H (m - splitPoint D.length) (D.drop (splitPoint D.length)) false ++
      [root H (D.take (splitPoint D.length))]
termination_by D.length
decreasing_by
  all_goals
    have := splitPoint_lt (n := D.length) (by omega)
    have := splitPoint_pos D.length
    simp only [List.length_take, List.length_drop]
    omega

/-- The consistency proof between the trees over `D.take m` and over `D`. -/
def consistencyProof (H : Hasher α δ) (m : Nat) (D : List α) : List δ := subproof H m D true

/-- A tree that has not grown needs no hash, or its own root where the verifier does not know it. -/
theorem subproof_whole (H : Hasher α δ) {m : Nat} {D : List α} (h : D.length = m) (b : Bool) :
    subproof H m D b = if b then [] else [root H D] := by
  rw [subproof, if_pos h.le]

/-- Where the old tree lies in the left part, the proof ends with the root of the right part. -/
theorem subproof_left (H : Hasher α δ) {m : Nat} {D : List α} (h2 : 2 ≤ D.length)
    (h : m < D.length) (hm : m ≤ splitPoint D.length) (b : Bool) :
    subproof H m D b = subproof H m (D.take (splitPoint D.length)) b ++
      [root H (D.drop (splitPoint D.length))] := by
  rw [subproof, if_neg (by omega), dif_neg (by omega), if_pos hm]

/-- Where the old tree reaches into the right part, the left part is common to both trees, and the
proof ends with its root. -/
theorem subproof_right (H : Hasher α δ) {m : Nat} {D : List α} (h2 : 2 ≤ D.length)
    (h : m < D.length) (hm : splitPoint D.length < m) (b : Bool) :
    subproof H m D b = subproof H (m - splitPoint D.length) (D.drop (splitPoint D.length)) false ++
      [root H (D.take (splitPoint D.length))] := by
  rw [subproof, if_neg (by omega), dif_neg (by omega), if_neg (by omega)]

/-- The hash reached from `h` by joining only the siblings on the left. -/
def climbLeft (node : δ → δ → δ) (h : δ) : List Bool → List δ → δ
  | d :: ds, p :: ps => climbLeft node (if d then node p h else h) ds ps
  | _, _ => h

/-- A climb of the old root along two paths is the climb along the second from where the first ends.
-/
theorem climbLeft_append (node : δ → δ → δ) (h : δ) {ds : List Bool} {ps : List δ}
    (hlen : ps.length = ds.length) (ds' : List Bool) (ps' : List δ) :
    climbLeft node h (ds ++ ds') (ps ++ ps') =
      climbLeft node (climbLeft node h ds ps) ds' ps' := by
  induction ds generalizing h ps with
  | nil => rw [List.eq_nil_of_length_eq_zero hlen]; rfl
  | cons d ds ih =>
    match ps, hlen with
    | p :: ps, hlen => exact ih _ (by simpa using hlen)

/-- In a perfect tree every leaf has one sibling at each level. It is split into two perfect trees
of half its size. -/
theorem length_dirs_two_pow {i j : Nat} (hi : i < 2 ^ j) : (dirs i (2 ^ j)).length = j := by
  induction j generalizing i with
  | zero => rw [Nat.pow_zero, dirs_of_lt_two (by omega)]; rfl
  | succ j ih =>
    have hpos := Nat.two_pow_pos j
    have hs : splitPoint (2 ^ (j + 1)) = 2 ^ j :=
      splitPoint_eq (by rw [Nat.pow_succ]; omega) (by rw [Nat.pow_succ]; omega)
    rw [Nat.pow_succ] at hi
    rcases Nat.lt_or_ge i (2 ^ j) with hl | hr
    · rw [dirs_left (by rw [Nat.pow_succ]; omega) (by omega), hs, List.length_append, ih hl]
      rfl
    · have hsub : 2 ^ (j + 1) - 2 ^ j = 2 ^ j := by rw [Nat.pow_succ]; omega
      rw [dirs_right (by rw [Nat.pow_succ]; omega) (by omega), hs, hsub, List.length_append,
        ih (by omega)]
      rfl

/-- A power of two has no odd factor. -/
theorem two_pow_eq_odd_mul {s q j : Nat} (h : 2 ^ s * (2 * q + 1) = 2 ^ j) : q = 0 ∧ s = j := by
  obtain ⟨i, -, hi⟩ := (Nat.dvd_prime_pow Nat.prime_two).1 (Dvd.intro_left _ h)
  have hq : q = 0 := by
    cases i with
    | zero => omega
    | succ i => rw [Nat.pow_succ] at hi; omega
  subst hq
  exact ⟨rfl, Nat.pow_right_injective (le_refl 2) (by simpa using h)⟩

/-- Taking the highest bit off a number leaves its lowest set bit where it was. The highest bit is
above the lowest set one, since the number is no power of two. -/
theorem sub_two_pow_eq {m s q j : Nat} (hm : m = 2 ^ s * (2 * q + 1)) (hlo : 2 ^ j < m)
    (hhi : m < 2 * 2 ^ j) : s < j ∧ ∃ q', m - 2 ^ j = 2 ^ s * (2 * q' + 1) := by
  have hpos := Nat.two_pow_pos s
  have hsj : s < j := by
    by_contra hge
    obtain ⟨d, rfl⟩ := Nat.exists_eq_add_of_le (Nat.not_lt.1 hge)
    rw [Nat.pow_add, Nat.mul_assoc] at hm
    have hd := Nat.two_pow_pos d
    have h1 : 2 ^ j * 1 < 2 ^ j * (2 ^ d * (2 * q + 1)) := by omega
    have h2 : 2 ^ j * (2 ^ d * (2 * q + 1)) < 2 ^ j * 2 := by omega
    have h1 := Nat.lt_of_mul_lt_mul_left h1
    have h2 := Nat.lt_of_mul_lt_mul_left h2
    cases d with
    | zero => omega
    | succ d => have := Nat.mul_le_mul_left (2 ^ (d + 1)) (Nat.le_add_left 1 (2 * q))
                rw [Nat.pow_succ] at *; omega
  obtain ⟨d, rfl⟩ := Nat.exists_eq_add_of_lt hsj
  refine ⟨hsj, q - 2 ^ d, ?_⟩
  have hsplit : 2 ^ (s + d + 1) = 2 ^ s * (2 * 2 ^ d) := by rw [Nat.pow_succ, Nat.pow_add]; ring
  rw [hsplit, hm] at hlo
  rw [hsplit, hm, ← Nat.mul_sub]
  have := Nat.lt_of_mul_lt_mul_left hlo
  congr 1
  omega

/-- What a consistency proof between `D.take m` and `D` consists of, with `2 ^ s` the size of the
largest perfect subtree that ends at leaf `m - 1`. -/
structure ConsistencyTail (H : Hasher α δ) (m s : Nat) (D : List α) (tail : List δ) : Prop where
  level : s ≤ (dirs (m - 1) D.length).length
  length : tail.length = ((dirs (m - 1) D.length).drop s).length
  partialProof : subproof H m D false = root H ((D.take m).drop (m - 2 ^ s)) :: tail
  wholeProof : subproof H m D true =
    if m = 2 ^ s then tail else root H ((D.take m).drop (m - 2 ^ s)) :: tail
  newRoot : climb H.node (root H ((D.take m).drop (m - 2 ^ s))) ((dirs (m - 1) D.length).drop s)
    tail = root H D
  oldRoot : climbLeft H.node (root H ((D.take m).drop (m - 2 ^ s)))
    ((dirs (m - 1) D.length).drop s) tail = root H (D.take m)
  pairs : ∀ p ∈ climbPairs H.node (root H ((D.take m).drop (m - 2 ^ s)))
    ((dirs (m - 1) D.length).drop s) tail, p ∈ nodePairs H D

/-- The proof of a perfect tree's own leaves is its root alone. There is nothing above such a tree,
so nothing has to be climbed. -/
theorem ConsistencyTail.perfect (H : Hasher α δ) {s : Nat} {D : List α} (h : D.length = 2 ^ s) :
    ConsistencyTail H (2 ^ s) s D [] := by
  have hpos := Nat.two_pow_pos s
  have hlen : (dirs (2 ^ s - 1) D.length).length = s := by
    rw [h]; exact length_dirs_two_pow (by omega)
  have hdrop : (dirs (2 ^ s - 1) D.length).drop s = [] := List.drop_of_length_le hlen.le
  have htake : D.take (2 ^ s) = D := List.take_of_length_le h.le
  exact {
    level := hlen.ge
    length := by rw [hdrop]; rfl
    partialProof := by rw [subproof_whole H h, htake]; simp
    wholeProof := by rw [subproof_whole H h]; simp
    newRoot := by rw [hdrop, htake]; simp
    oldRoot := by rw [hdrop, htake]; simp [climbLeft]
    pairs := by rw [hdrop]; simp [climbPairs] }

/-- Where the old leaves lie in the left half, the right half's root is one more sibling on the
right. -/
theorem ConsistencyTail.left (H : Hasher α δ) {m s : Nat} {D : List α} {tail : List δ}
    (h2 : 2 ≤ D.length) (h0 : 0 < m) (hm : m < D.length) (hle : m ≤ splitPoint D.length)
    (ht : ConsistencyTail H m s (D.take (splitPoint D.length)) tail) :
    ConsistencyTail H m s D (tail ++ [root H (D.drop (splitPoint D.length))]) := by
  have hlt := splitPoint_lt h2
  have hlen : (D.take (splitPoint D.length)).length = splitPoint D.length := by
    rw [List.length_take, Nat.min_eq_left hlt.le]
  have htake : (D.take (splitPoint D.length)).take m = D.take m := by
    rw [List.take_take, Nat.min_eq_left hle]
  obtain ⟨hlevel, hlength, hpart, hwhole, hnew, hold, hpairs⟩ := ht
  rw [hlen] at hlevel hlength hnew hold hpairs
  rw [htake] at hpart hwhole hnew hold hpairs
  have hdirs : (dirs (m - 1) D.length).drop s =
      (dirs (m - 1) (splitPoint D.length)).drop s ++ [false] := by
    rw [dirs_left h2 (by omega), List.drop_append_of_le_length hlevel]
  exact {
    level := by rw [dirs_left h2 (by omega), List.length_append]; omega
    length := by rw [hdirs, List.length_append, List.length_append, hlength]; rfl
    partialProof := by rw [subproof_left H h2 hm hle, hpart, List.cons_append]
    wholeProof := by
      rw [subproof_left H h2 hm hle, hwhole]
      split <;> rfl
    newRoot := by
      rw [hdirs, climb_append _ _ hlength, hnew, root_split H h2]
      rfl
    oldRoot := by
      rw [hdirs, climbLeft_append _ _ hlength, hold]
      rfl
    pairs := by
      intro p hp
      rw [hdirs, climbPairs_append _ _ hlength, hnew, List.mem_append] at hp
      rw [mem_nodePairs_split H h2]
      rcases hp with hp | hp
      · exact .inr (.inl (hpairs p hp))
      · exact .inl (by simpa [climbPairs] using hp) }

/-- Where the old leaves reach into the right half, the left half's root is one more sibling on the
left, in the old tree as in the new one. -/
theorem ConsistencyTail.right (H : Hasher α δ) {m s q : Nat} {D : List α} {tail : List δ}
    (h2 : 2 ≤ D.length) (hm : m < D.length) (hgt : splitPoint D.length < m)
    (hs : m - splitPoint D.length = 2 ^ s * (2 * q + 1)) (hne : m ≠ 2 ^ s)
    (ht : ConsistencyTail H (m - splitPoint D.length) s (D.drop (splitPoint D.length)) tail) :
    ConsistencyTail H m s D (tail ++ [root H (D.take (splitPoint D.length))]) := by
  have hlt := splitPoint_lt h2
  have hle := le_two_mul_splitPoint h2
  have hpow : 2 ^ s ≤ m - splitPoint D.length := by
    rw [hs]; exact Nat.le_mul_of_pos_right _ (by omega)
  set k := splitPoint D.length with hk
  have hlen : (D.drop k).length = D.length - k := List.length_drop
  have hseed : ((D.drop k).take (m - k)).drop (m - k - 2 ^ s) = (D.take m).drop (m - 2 ^ s) := by
    rw [← List.drop_take, List.drop_drop]
    congr 1
    omega
  have hroot : root H (D.take m) =
      H.node (root H (D.take k)) (root H ((D.drop k).take (m - k))) := by
    have hlen' : (D.take m).length = m := by rw [List.length_take]; omega
    obtain ⟨j, hj⟩ := exists_splitPoint_eq D.length
    have hsplit : splitPoint (D.take m).length = k := by
      rw [hlen', hk, hj]
      exact splitPoint_eq (by rw [← hj, ← hk]; omega) (by rw [← hj, ← hk]; omega)
    rw [root_split H (by omega), hsplit, List.take_take, Nat.min_eq_left hgt.le, List.drop_take]
  obtain ⟨hlevel, hlength, hpart, -, hnew, hold, hpairs⟩ := ht
  have hidx : m - k - 1 = m - 1 - k := by omega
  rw [hlen, hidx] at hlevel hlength hnew hold hpairs
  rw [hseed] at hpart hnew hold hpairs
  have hdirs : (dirs (m - 1) D.length).drop s =
      (dirs (m - 1 - k) (D.length - k)).drop s ++ [true] := by
    rw [dirs_right h2 (by omega), ← hk, List.drop_append_of_le_length hlevel]
  have hsub : ∀ b, subproof H m D b =
      root H ((D.take m).drop (m - 2 ^ s)) :: (tail ++ [root H (D.take k)]) := by
    intro b
    rw [subproof_right H h2 hm hgt, ← hk, hpart, List.cons_append]
  exact {
    level := by rw [dirs_right h2 (by omega), ← hk, List.length_append]; omega
    length := by rw [hdirs, List.length_append, List.length_append, hlength]; rfl
    partialProof := hsub false
    wholeProof := by rw [hsub true, if_neg hne]
    newRoot := by
      rw [hdirs, climb_append _ _ hlength, hnew, root_split H h2]
      rfl
    oldRoot := by
      rw [hdirs, climbLeft_append _ _ hlength, hold, hroot]
      rfl
    pairs := by
      intro p hp
      rw [hdirs, climbPairs_append _ _ hlength, hnew, List.mem_append] at hp
      rw [mem_nodePairs_split H h2]
      rcases hp with hp | hp
      · exact .inr (.inr (hpairs p hp))
      · exact .inl (by simpa [climbPairs] using hp) }

/-- **The content of a consistency proof.** For every smaller size `m`, with `2 ^ s` its lowest set
bit, the proof is the path of the perfect subtree of size `2 ^ s` that ends at leaf `m - 1`, headed
by that subtree's root unless the subtree is the whole old tree. -/
theorem consistency_tail (H : Hasher α δ) (D : List α) {m s q : Nat}
    (hs : m = 2 ^ s * (2 * q + 1))
    (hm : m < D.length ∨ m = D.length ∧ ∃ j, D.length = 2 ^ j) :
    ∃ tail, ConsistencyTail H m s D tail := by
  have hpos : 0 < m := by rw [hs]; exact Nat.mul_pos (Nat.two_pow_pos s) (by omega)
  induction D using splitInduction generalizing m q with
  | nil =>
    simp only [List.length_nil] at hm
    omega
  | single a =>
    obtain rfl : m = 1 := by simp only [List.length_singleton] at hm; omega
    obtain ⟨-, rfl⟩ := two_pow_eq_odd_mul (j := 0) hs.symm
    exact ⟨[], ConsistencyTail.perfect H (s := 0) rfl⟩
  | split D h2 ihl ihr =>
    have hlt := splitPoint_lt h2
    have hle := le_two_mul_splitPoint h2
    obtain ⟨j, hj⟩ := exists_splitPoint_eq D.length
    rcases hm with hm | ⟨hm, i, hi⟩
    · rcases Nat.lt_or_ge (splitPoint D.length) m with hr | hl
      · obtain ⟨hsj, q', hq'⟩ := sub_two_pow_eq hs (hj ▸ hr) (by rw [← hj]; omega)
        have hne : m ≠ 2 ^ s := by
          have := Nat.pow_lt_pow_right (a := 2) (by omega) hsj
          omega
        obtain ⟨tail, ht⟩ := ihr (m := m - splitPoint D.length) (q := q') (hj ▸ hq')
          (.inl (by rw [List.length_drop]; omega)) (by omega)
        exact ⟨_, ht.right H h2 hm hr (hj ▸ hq') hne⟩
      · have hlen : (D.take (splitPoint D.length)).length = splitPoint D.length := by
          rw [List.length_take, Nat.min_eq_left hlt.le]
        obtain ⟨tail, ht⟩ := ihl hs (by
          rw [hlen]
          rcases Nat.lt_or_eq_of_le hl with h | h
          · exact .inl h
          · exact .inr ⟨h, j, hj⟩) hpos
        exact ⟨_, ht.left H h2 hpos hm hl⟩
    · rw [hs, hi] at hm
      obtain ⟨rfl, rfl⟩ := two_pow_eq_odd_mul hm
      rw [Nat.mul_zero, Nat.zero_add, Nat.mul_one] at hs
      subst hs
      exact ⟨[], ConsistencyTail.perfect H hi⟩

end

end HashTree
