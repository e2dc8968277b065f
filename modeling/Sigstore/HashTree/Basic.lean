import Mathlib.Algebra.Group.Nat.Defs
import Mathlib.Data.List.Basic
import Mathlib.Data.Nat.Log
import Mathlib.Logic.Function.Basic

/-!
# Hash trees over a list

The binary hash tree of a list of any length, split at the largest power of two below its length:
its root (`root`), the sibling hashes from a leaf up to the root (`path`), and the directions in
which those siblings join (`dirs`). `climb` folds siblings over a hash in given directions. The two
laws every verifier rests on are `climb_path`, the path of a leaf climbs to the root, and
`climb_inj`, two climbs in the same directions that meet were the same climb, as long as the node
hash does not collide on the pairs they hash.
-/

namespace HashTree

/-- Where a tree of `n` leaves splits: the largest power of two below `n` (for `n ≥ 2`). -/
def splitPoint (n : Nat) : Nat := 2 ^ Nat.log2 (n - 1)

/-- A tree of two or more leaves is split into two parts that are smaller than it. -/
theorem splitPoint_lt {n : Nat} (h : 2 ≤ n) : splitPoint n < n := by
  have := Nat.log2_self_le (n := n - 1) (by omega)
  unfold splitPoint; omega

/-- The left part of a split is not empty. -/
theorem splitPoint_pos (n : Nat) : 0 < splitPoint n := Nat.two_pow_pos _

/-- The left part of a split has at least half of the leaves. -/
theorem le_two_mul_splitPoint {n : Nat} (h : 2 ≤ n) : n ≤ 2 * splitPoint n := by
  have := Nat.lt_log2_self (n := n - 1)
  rw [Nat.pow_succ] at this
  unfold splitPoint; omega

/-- The split point is the only power of two in `[n / 2, n)`. -/
theorem splitPoint_eq {n j : Nat} (h₁ : 2 ^ j < n) (h₂ : n ≤ 2 * 2 ^ j) : splitPoint n = 2 ^ j := by
  unfold splitPoint
  congr 1
  rw [Nat.log2_eq_iff (by have := Nat.two_pow_pos j; omega)]
  rw [Nat.pow_succ]; omega

/-- The left part of a split is a full tree. -/
theorem exists_splitPoint_eq (n : Nat) : ∃ j, splitPoint n = 2 ^ j := ⟨_, rfl⟩

/-- The two hashes of a tree and the hash of the empty tree. -/
structure Hasher (α δ : Type*) where
  empty : δ
  leaf : α → δ
  node : δ → δ → δ

section
variable {α δ : Type*}

/-- Induction along the splits of a list: the empty list, a single leaf, and a list of at least two
elements from the two halves it splits into. -/
theorem splitInduction {motive : List α → Prop} (nil : motive []) (single : ∀ a, motive [a])
    (split : ∀ D : List α, 2 ≤ D.length → motive (D.take (splitPoint D.length)) →
      motive (D.drop (splitPoint D.length)) → motive D) (D : List α) : motive D := by
  induction h : D.length using Nat.strongRecOn generalizing D with
  | ind n ih =>
    subst h
    match D, ih with
    | [], _ => exact nil
    | [a], _ => exact single a
    | a :: b :: l, ih =>
      have h2 : 2 ≤ (a :: b :: l).length := by simp
      have hlt := splitPoint_lt h2
      have hpos := splitPoint_pos (a :: b :: l).length
      refine split _ h2 (ih _ ?_ _ rfl) (ih _ ?_ _ rfl)
      · rw [List.length_take]; omega
      · rw [List.length_drop]; omega

/-- The root hash of the tree over `D`. -/
def root (H : Hasher α δ) (D : List α) : δ :=
  match _h : D with
  | [] => H.empty
  | [a] => H.leaf a
  | _ :: _ :: _ =>
    H.node (root H (D.take (splitPoint D.length))) (root H (D.drop (splitPoint D.length)))
termination_by D.length
decreasing_by
  all_goals
    have h2 : 2 ≤ D.length := by simp [_h]
    have := splitPoint_lt h2
    have := splitPoint_pos D.length
    simp only [List.length_take, List.length_drop, _h] at *
    omega

/-- The sibling hashes of leaf number `i` of the tree over `D`, from the leaf to the root. -/
def path (H : Hasher α δ) (i : Nat) (D : List α) : List δ :=
  match _h : D with
  | [] => []
  | [_] => []
  | _ :: _ :: _ =>
    if i < splitPoint D.length then
      path H i (D.take (splitPoint D.length)) ++ [root H (D.drop (splitPoint D.length))]
    else
      path H (i - splitPoint D.length) (D.drop (splitPoint D.length)) ++
        [root H (D.take (splitPoint D.length))]
termination_by D.length
decreasing_by
  all_goals
    have h2 : 2 ≤ D.length := by simp [_h]
    have := splitPoint_lt h2
    have := splitPoint_pos D.length
    simp only [List.length_take, List.length_drop, _h] at *
    omega

/-- The directions of leaf `i` in a tree of `n` leaves, from the leaf to the root: `true` where the
sibling joins on the left. -/
def dirs (i n : Nat) : List Bool :=
  if _h : n < 2 then []
  else if i < splitPoint n then dirs i (splitPoint n) ++ [false]
  else dirs (i - splitPoint n) (n - splitPoint n) ++ [true]
termination_by n
decreasing_by
  all_goals
    have := splitPoint_lt (n := n) (by omega)
    have := splitPoint_pos n
    omega

@[simp] theorem root_nil (H : Hasher α δ) : root H [] = H.empty := by rw [root]

@[simp] theorem root_singleton (H : Hasher α δ) (a : α) : root H [a] = H.leaf a := by rw [root]

/-- The root of two or more leaves is the node of the roots of the two parts. -/
theorem root_split (H : Hasher α δ) {D : List α} (h : 2 ≤ D.length) :
    root H D = H.node (root H (D.take (splitPoint D.length)))
      (root H (D.drop (splitPoint D.length))) := by
  match D, h with
  | _ :: _ :: _, _ => rw [root]

@[simp] theorem path_singleton (H : Hasher α δ) (i : Nat) (a : α) : path H i [a] = [] := by
  rw [path]

/-- The path of a leaf in the left part ends with the root of the right part. -/
theorem path_left (H : Hasher α δ) {i : Nat} {D : List α} (h : 2 ≤ D.length)
    (hi : i < splitPoint D.length) :
    path H i D = path H i (D.take (splitPoint D.length)) ++
      [root H (D.drop (splitPoint D.length))] := by
  match D, h with
  | _ :: _ :: _, _ => rw [path, if_pos hi]

/-- The path of a leaf in the right part ends with the root of the left part. -/
theorem path_right (H : Hasher α δ) {i : Nat} {D : List α} (h : 2 ≤ D.length)
    (hi : splitPoint D.length ≤ i) :
    path H i D = path H (i - splitPoint D.length) (D.drop (splitPoint D.length)) ++
      [root H (D.take (splitPoint D.length))] := by
  match D, h with
  | _ :: _ :: _, _ => rw [path, if_neg (Nat.not_lt.mpr hi)]

theorem dirs_of_lt_two {i n : Nat} (h : n < 2) : dirs i n = [] := by rw [dirs, dif_pos h]

/-- A leaf in the left part is a left child at the top. -/
theorem dirs_left {i n : Nat} (h : 2 ≤ n) (hi : i < splitPoint n) :
    dirs i n = dirs i (splitPoint n) ++ [false] := by
  rw [dirs, dif_neg (Nat.not_lt.mpr h), if_pos hi]

/-- A leaf in the right part is a right child at the top. -/
theorem dirs_right {i n : Nat} (h : 2 ≤ n) (hi : splitPoint n ≤ i) :
    dirs i n = dirs (i - splitPoint n) (n - splitPoint n) ++ [true] := by
  rw [dirs, dif_neg (Nat.not_lt.mpr h), if_neg (Nat.not_lt.mpr hi)]

/-- A path has one sibling for each direction. The induction splits the tree as the root does, on
the side of the leaf. -/
theorem length_path (H : Hasher α δ) (i : Nat) (D : List α) :
    (path H i D).length = (dirs i D.length).length := by
  induction D using splitInduction generalizing i with
  | nil => simp [path, dirs_of_lt_two]
  | single a => simp [dirs_of_lt_two]
  | split D h ihl ihr =>
    have hlt := splitPoint_lt h
    rcases Nat.lt_or_ge i (splitPoint D.length) with hi | hi
    · rw [path_left H h hi, dirs_left h hi, List.length_append, List.length_append, ihl,
        List.length_take, Nat.min_eq_left hlt.le]
      rfl
    · rw [path_right H h hi, dirs_right h hi, List.length_append, List.length_append, ihr,
        List.length_drop]
      rfl

/-! ## Climbing -/

/-- The hash reached from `h` by joining the siblings `ps` in the directions `ds`. -/
def climb (node : δ → δ → δ) (h : δ) : List Bool → List δ → δ
  | d :: ds, p :: ps => climb node (if d then node p h else node h p) ds ps
  | _, _ => h

/-- The pairs of hashes that a climb feeds to the node hash. -/
def climbPairs (node : δ → δ → δ) (h : δ) : List Bool → List δ → List (δ × δ)
  | d :: ds, p :: ps =>
    (if d then (p, h) else (h, p)) :: climbPairs node (if d then node p h else node h p) ds ps
  | _, _ => []

@[simp] theorem climb_nil (node : δ → δ → δ) (h : δ) (ps : List δ) : climb node h [] ps = h := rfl

@[simp] theorem climb_cons (node : δ → δ → δ) (h : δ) (d : Bool) (ds : List Bool) (p : δ)
    (ps : List δ) :
    climb node h (d :: ds) (p :: ps) = climb node (if d then node p h else node h p) ds ps := rfl

/-- A climb along two paths is the climb along the second from where the first ends. -/
theorem climb_append (node : δ → δ → δ) (h : δ) {ds : List Bool} {ps : List δ}
    (hlen : ps.length = ds.length) (ds' : List Bool) (ps' : List δ) :
    climb node h (ds ++ ds') (ps ++ ps') = climb node (climb node h ds ps) ds' ps' := by
  induction ds generalizing h ps with
  | nil => rw [List.eq_nil_of_length_eq_zero hlen]; rfl
  | cons d ds ih =>
    match ps, hlen with
    | p :: ps, hlen => exact ih _ (by simpa using hlen)

/-- The pairs hashed along two paths are those of the first and those of the second from where the
first ends. -/
theorem climbPairs_append (node : δ → δ → δ) (h : δ) {ds : List Bool} {ps : List δ}
    (hlen : ps.length = ds.length) (ds' : List Bool) (ps' : List δ) :
    climbPairs node h (ds ++ ds') (ps ++ ps') =
      climbPairs node h ds ps ++ climbPairs node (climb node h ds ps) ds' ps' := by
  induction ds generalizing h ps with
  | nil => rw [List.eq_nil_of_length_eq_zero hlen]; rfl
  | cons d ds ih =>
    match ps, hlen with
    | p :: ps, hlen => exact congrArg (_ :: ·) (ih _ (by simpa using hlen))

/-- The path of a leaf climbs to the root. The last step of the climb is the split of the tree, and
the steps below it climb to the root of the leaf's part. -/
theorem climb_path (H : Hasher α δ) {i : Nat} {D : List α} {a : α} (ha : D[i]? = some a) :
    climb H.node (H.leaf a) (dirs i D.length) (path H i D) = root H D := by
  induction D using splitInduction generalizing i with
  | nil => simp at ha
  | single b =>
    have ⟨hi, hb⟩ := List.getElem?_eq_some_iff.1 ha
    have hi0 : i = 0 := by simpa using hi
    subst hi0
    rw [dirs_of_lt_two (by simp), ← hb]
    simp
  | split D h ihl ihr =>
    have hlt := splitPoint_lt h
    have htake : (D.take (splitPoint D.length)).length = splitPoint D.length := by
      rw [List.length_take, Nat.min_eq_left hlt.le]
    have hdrop : (D.drop (splitPoint D.length)).length = D.length - splitPoint D.length :=
      List.length_drop
    rw [root_split H h]
    rcases Nat.lt_or_ge i (splitPoint D.length) with hl | hr
    · have ih := ihl (i := i) (by rwa [List.getElem?_take_of_lt hl])
      rw [htake] at ih
      rw [path_left H h hl, dirs_left h hl, climb_append _ _ (by rw [length_path, htake]), ih]
      rfl
    · have ih := ihr (i := i - splitPoint D.length)
        (by rwa [List.getElem?_drop, Nat.add_sub_cancel' hr])
      rw [hdrop] at ih
      rw [path_right H h hr, dirs_right h hr, climb_append _ _ (by rw [length_path, hdrop]), ih]
      rfl

/-- The pairs of hashes under the inner nodes of the tree over `D`. -/
def nodePairs (H : Hasher α δ) (D : List α) : List (δ × δ) :=
  match _h : D with
  | [] => []
  | [_] => []
  | _ :: _ :: _ =>
    (root H (D.take (splitPoint D.length)), root H (D.drop (splitPoint D.length))) ::
      (nodePairs H (D.take (splitPoint D.length)) ++ nodePairs H (D.drop (splitPoint D.length)))
termination_by D.length
decreasing_by
  all_goals
    have h2 : 2 ≤ D.length := by simp [_h]
    have := splitPoint_lt h2
    have := splitPoint_pos D.length
    simp only [List.length_take, List.length_drop, _h] at *
    omega

/-- The pairs hashed for a root of two or more leaves are the two parts' roots and the pairs hashed
for each of the parts. -/
theorem mem_nodePairs_split (H : Hasher α δ) {D : List α} (h : 2 ≤ D.length) (p : δ × δ) :
    p ∈ nodePairs H D ↔
      p = (root H (D.take (splitPoint D.length)), root H (D.drop (splitPoint D.length))) ∨
      p ∈ nodePairs H (D.take (splitPoint D.length)) ∨
      p ∈ nodePairs H (D.drop (splitPoint D.length)) := by
  match D, h with
  | _ :: _ :: _, _ => rw [nodePairs, List.mem_cons, List.mem_append]

/-- Climbing the path of a leaf hashes only pairs of the tree. So a collision-free tree is enough
for completeness. -/
theorem climbPairs_path (H : Hasher α δ) {i : Nat} {D : List α} {a : α} (ha : D[i]? = some a) :
    ∀ p ∈ climbPairs H.node (H.leaf a) (dirs i D.length) (path H i D), p ∈ nodePairs H D := by
  induction D using splitInduction generalizing i with
  | nil => simp at ha
  | single b => rw [dirs_of_lt_two (by simp)]; simp [climbPairs]
  | split D h ihl ihr =>
    have hlt := splitPoint_lt h
    have htake : (D.take (splitPoint D.length)).length = splitPoint D.length := by
      rw [List.length_take, Nat.min_eq_left hlt.le]
    have hdrop : (D.drop (splitPoint D.length)).length = D.length - splitPoint D.length :=
      List.length_drop
    intro p hp
    rw [mem_nodePairs_split H h]
    rcases Nat.lt_or_ge i (splitPoint D.length) with hl | hr
    · have hai : (D.take (splitPoint D.length))[i]? = some a := by rwa [List.getElem?_take_of_lt hl]
      have hroot := climb_path H hai
      have hpairs := ihl hai p
      rw [htake] at hroot hpairs
      rw [path_left H h hl, dirs_left h hl, climbPairs_append _ _ (by rw [length_path, htake]),
        List.mem_append, hroot] at hp
      rcases hp with hp | hp
      · exact .inr (.inl (hpairs hp))
      · exact .inl (by simpa [climbPairs] using hp)
    · have hai : (D.drop (splitPoint D.length))[i - splitPoint D.length]? = some a := by
        rwa [List.getElem?_drop, Nat.add_sub_cancel' hr]
      have hroot := climb_path H hai
      have hpairs := ihr hai p
      rw [hdrop] at hroot hpairs
      rw [path_right H h hr, dirs_right h hr, climbPairs_append _ _ (by rw [length_path, hdrop]),
        List.mem_append, hroot] at hp
      rcases hp with hp | hp
      · exact .inr (.inr (hpairs hp))
      · exact .inl (by simpa [climbPairs] using hp)

/-- Two climbs in the same directions that reach one hash started from one hash and joined the same
siblings, when the node hash does not collide on the pairs either of them hashed. -/
theorem climb_inj {node : δ → δ → δ} {S : Set (δ × δ)}
    (hinj : Set.InjOn (fun p => node p.1 p.2) S) {ds : List Bool} {h h' : δ} {ps ps' : List δ}
    (hlen : ps.length = ds.length) (hlen' : ps'.length = ds.length)
    (hS : ∀ p ∈ climbPairs node h ds ps, p ∈ S) (hS' : ∀ p ∈ climbPairs node h' ds ps', p ∈ S)
    (heq : climb node h ds ps = climb node h' ds ps') : h = h' ∧ ps = ps' := by
  induction ds generalizing h h' ps ps' with
  | nil =>
    rw [List.eq_nil_of_length_eq_zero hlen, List.eq_nil_of_length_eq_zero hlen'] at *
    exact ⟨heq, rfl⟩
  | cons d ds ih =>
    match ps, ps', hlen, hlen' with
    | p :: ps, p' :: ps', hlen, hlen' =>
      simp only [climbPairs, List.mem_cons, forall_eq_or_imp] at hS hS'
      have ⟨hstep, hrest⟩ := ih (by simpa using hlen) (by simpa using hlen') hS.2 hS'.2 heq
      cases d with
      | true =>
        have := hinj hS.1 hS'.1 hstep
        simp only [if_true, Prod.mk.injEq] at this
        exact ⟨this.2, by rw [this.1, hrest]⟩
      | false =>
        have := hinj hS.1 hS'.1 hstep
        simp only [Bool.false_eq_true, if_false, Prod.mk.injEq] at this
        exact ⟨this.1, by rw [this.2, hrest]⟩

end

end HashTree
