import Mathlib.Data.List.Induction
import Sigstore.HashTree.Basic

/-!
# What a root binds

A climb from a leaf hash that ends in the root of a tree started from one of the tree's leaves and
followed that leaf's directions (`exists_leaf_of_climb`), as long as the hash of the tree does not
collide on what the tree and the climb hash: the empty string, leaves and pairs of hashes, which
`Preimage` keeps apart. In a tree of a known size the directions determine the leaf (`dirs_inj`);
leaves of trees of different sizes can share them.
-/

namespace HashTree

/-- What a hash of a tree is a hash of. -/
inductive Preimage (α δ : Type*) where
  | empty
  | leaf (a : α)
  | node (l r : δ)
  deriving DecidableEq

section
variable {α δ : Type*}

/-- The hash of a preimage. -/
def Hasher.hash (H : Hasher α δ) : Preimage α δ → δ
  | .empty => H.empty
  | .leaf a => H.leaf a
  | .node l r => H.node l r

/-- The preimages of the pairs that are hashed. -/
def pairPreimages (P : List (δ × δ)) : List (Preimage α δ) := P.map fun p => .node p.1 p.2

/-- What the tree over `D` hashes. -/
def treePreimages (H : Hasher α δ) (D : List α) : List (Preimage α δ) :=
  match D with
  | [] => [.empty]
  | _ => D.map .leaf ++ pairPreimages (nodePairs H D)

/-- What a climb from a leaf hashes. -/
def climbPreimages (H : Hasher α δ) (a : α) (ds : List Bool) (ps : List δ) :
    List (Preimage α δ) :=
  .leaf a :: pairPreimages (climbPairs H.node (H.leaf a) ds ps)

/-- The preimages of pairs are the nodes of these pairs. -/
@[simp] theorem mem_pairPreimages {P : List (δ × δ)} {l r : δ} :
    (.node l r : Preimage α δ) ∈ pairPreimages P ↔ (l, r) ∈ P := by
  simp [pairPreimages]

/-- What is hashed for a tree that is not empty are its leaves and its pairs of nodes. -/
theorem treePreimages_of_ne_nil (H : Hasher α δ) {D : List α} (h : D ≠ []) :
    treePreimages H D = D.map .leaf ++ pairPreimages (nodePairs H D) := by
  cases D with
  | nil => exact absurd rfl h
  | cons a l => rfl

/-- The preimage of a root. -/
theorem root_split_mem (H : Hasher α δ) {D : List α} (h : 2 ≤ D.length) :
    .node (root H (D.take (splitPoint D.length))) (root H (D.drop (splitPoint D.length))) ∈
      treePreimages H D := by
  rw [treePreimages_of_ne_nil H (by rintro rfl; simp at h), List.mem_append, mem_pairPreimages,
    mem_nodePairs_split H h]
  exact .inr (.inl rfl)

/-- A part of a tree hashes what the tree does. The empty tree is hashed in a way of its own and has
to be set aside. -/
theorem treePreimages_mono (H : Hasher α δ) {D D' : List α} (hne : D' ≠ [])
    (hleaf : ∀ a ∈ D', a ∈ D) (hnode : ∀ p ∈ nodePairs H D', p ∈ nodePairs H D) :
    ∀ x ∈ treePreimages H D', x ∈ treePreimages H D := by
  have hneD : D ≠ [] := by
    rintro rfl
    exact hne (List.eq_nil_iff_forall_not_mem.2 fun a ha => List.not_mem_nil (hleaf a ha))
  intro x hx
  rw [treePreimages_of_ne_nil H hne, List.mem_append, List.mem_map] at hx
  rw [treePreimages_of_ne_nil H hneD, List.mem_append, List.mem_map]
  rcases hx with ⟨a, ha, rfl⟩ | hx
  · exact .inl ⟨a, hleaf a ha, rfl⟩
  · refine .inr ?_
    obtain ⟨p, hp, rfl⟩ := List.mem_map.1 hx
    exact mem_pairPreimages.2 (hnode p hp)

/-- What is hashed for the left part of a tree is hashed for the tree. -/
theorem treePreimages_take (H : Hasher α δ) {D : List α} (h : 2 ≤ D.length) :
    ∀ x ∈ treePreimages H (D.take (splitPoint D.length)), x ∈ treePreimages H D := by
  have hpos := splitPoint_pos D.length
  refine treePreimages_mono H ?_ (fun a ha => List.mem_of_mem_take ha) fun p hp => ?_
  · intro hnil
    have hlen := congrArg List.length hnil
    rw [List.length_take, List.length_nil] at hlen
    omega
  · exact (mem_nodePairs_split H h p).2 (.inr (.inl hp))

/-- What is hashed for the right part of a tree is hashed for the tree. -/
theorem treePreimages_drop (H : Hasher α δ) {D : List α} (h : 2 ≤ D.length) :
    ∀ x ∈ treePreimages H (D.drop (splitPoint D.length)), x ∈ treePreimages H D := by
  have hlt := splitPoint_lt h
  refine treePreimages_mono H ?_ (fun a ha => List.mem_of_mem_drop ha) fun p hp => ?_
  · intro hnil
    have hlen := congrArg List.length hnil
    rw [List.length_drop, List.length_nil] at hlen
    omega
  · exact (mem_nodePairs_split H h p).2 (.inr (.inr hp))

/-- A leaf hash is a root only of the tree that has that leaf alone. The root of any other tree is
the hash of another preimage. -/
theorem eq_singleton_of_leaf_eq_root (H : Hasher α δ) {S : Set (Preimage α δ)}
    (hinj : Set.InjOn H.hash S) {D : List α} (hD : ∀ x ∈ treePreimages H D, x ∈ S) {a : α}
    (ha : .leaf a ∈ S) (heq : H.leaf a = root H D) : D = [a] := by
  have hleaf : H.hash (.leaf a) = root H D := heq
  match D, hD with
  | [], hD => cases hinj ha (hD .empty List.mem_cons_self) (hleaf.trans (root_nil H))
  | [b], hD =>
    cases hinj ha (hD (.leaf b) List.mem_cons_self) (hleaf.trans (root_singleton H b))
    rfl
  | b :: c :: l, hD =>
    have h2 : 2 ≤ (b :: c :: l).length := by simp
    cases hinj ha (hD _ (root_split_mem H h2)) (hleaf.trans (root_split H h2))

/-- A node hash is a root only of a tree that splits into the two nodes. Trees with fewer leaves
have other preimages, and a node has one. -/
theorem split_of_node_eq_root (H : Hasher α δ) {S : Set (Preimage α δ)}
    (hinj : Set.InjOn H.hash S) {D : List α} (hD : ∀ x ∈ treePreimages H D, x ∈ S) {l r : δ}
    (hlr : .node l r ∈ S) (heq : H.node l r = root H D) :
    2 ≤ D.length ∧ l = root H (D.take (splitPoint D.length)) ∧
      r = root H (D.drop (splitPoint D.length)) := by
  have hnode : H.hash (.node l r) = root H D := heq
  match D, hD with
  | [], hD => cases hinj hlr (hD .empty List.mem_cons_self) (hnode.trans (root_nil H))
  | [b], hD => cases hinj hlr (hD (.leaf b) List.mem_cons_self) (hnode.trans (root_singleton H b))
  | b :: c :: D, hD =>
    have h2 : 2 ≤ (b :: c :: D).length := by simp
    cases hinj hlr (hD _ (root_split_mem H h2)) (hnode.trans (root_split H h2))
    exact ⟨h2, rfl, rfl⟩

/-- A climb from a leaf hash to a root is one from a leaf of the tree, in its directions. By
induction on the directions from the top: the last step of the climb is the split of the tree, and
the rest is a climb to the root of one of its parts. -/
theorem exists_leaf_of_climb (H : Hasher α δ) {S : Set (Preimage α δ)}
    (hinj : Set.InjOn H.hash S) {D : List α} {a : α} {ds : List Bool} {ps : List δ}
    (hlen : ps.length = ds.length) (hD : ∀ x ∈ treePreimages H D, x ∈ S)
    (hclimb : ∀ x ∈ climbPreimages H a ds ps, x ∈ S)
    (heq : climb H.node (H.leaf a) ds ps = root H D) :
    ∃ j, D[j]? = some a ∧ dirs j D.length = ds := by
  induction ds using List.reverseRecOn generalizing D ps with
  | nil =>
    cases eq_singleton_of_leaf_eq_root H hinj hD (hclimb _ List.mem_cons_self) heq
    exact ⟨0, rfl, dirs_of_lt_two (by simp)⟩
  | append_singleton ds d ih =>
    -- the last step of the climb is the one into the root
    obtain ⟨ps, p, rfl⟩ : ∃ qs q, ps = qs ++ [q] := by
      rcases List.eq_nil_or_concat ps with rfl | ⟨qs, q, rfl⟩
      · simp at hlen
      · exact ⟨qs, q, List.concat_eq_append⟩
    have hlen' : ps.length = ds.length := by simpa using hlen
    rw [climb_append _ _ hlen'] at heq
    have hbelow : ∀ x ∈ climbPreimages H a ds ps, x ∈ S := by
      intro x hx
      refine hclimb x ?_
      rw [climbPreimages, climbPairs_append _ _ hlen', pairPreimages, List.map_append,
        ← List.cons_append]
      exact List.mem_append_left _ hx
    have hlast : ∀ l r, (l, r) = (if d then (p, climb H.node (H.leaf a) ds ps)
        else (climb H.node (H.leaf a) ds ps, p)) → .node l r ∈ S := by
      intro l r hlr
      refine hclimb _ (List.mem_cons_of_mem _ (mem_pairPreimages.2 ?_))
      rw [climbPairs_append _ _ hlen', hlr]
      exact List.mem_append_right _ List.mem_cons_self
    cases d with
    | false =>
      obtain ⟨h2, hl, -⟩ := split_of_node_eq_root H hinj hD (hlast _ _ rfl) heq
      obtain ⟨j, hj, hdirs⟩ := ih hlen' (fun x hx => hD x (treePreimages_take H h2 x hx)) hbelow hl
      have hlt := splitPoint_lt h2
      have hjlt : j < splitPoint D.length := by
        have := (List.getElem?_eq_some_iff.1 hj).1
        rw [List.length_take] at this
        omega
      rw [List.length_take, Nat.min_eq_left hlt.le] at hdirs
      refine ⟨j, by rwa [List.getElem?_take_of_lt hjlt] at hj, ?_⟩
      rw [dirs_left h2 hjlt, hdirs]
    | true =>
      obtain ⟨h2, -, hr⟩ := split_of_node_eq_root H hinj hD (hlast _ _ rfl) heq
      obtain ⟨j, hj, hdirs⟩ := ih hlen' (fun x hx => hD x (treePreimages_drop H h2 x hx)) hbelow hr
      rw [List.length_drop] at hdirs
      rw [List.getElem?_drop] at hj
      refine ⟨splitPoint D.length + j, hj, ?_⟩
      rw [dirs_right h2 (Nat.le_add_right _ _), Nat.add_sub_cancel_left, hdirs]

/-- In a tree of a known size the directions of a leaf determine it. By induction on the size: two
leaves are on the same side of the split, or their directions differ at the top. -/
theorem dirs_inj {n i j : Nat} (hi : i < n) (hj : j < n) (h : dirs i n = dirs j n) : i = j := by
  induction n using Nat.strongRecOn generalizing i j with
  | ind n ih =>
    by_cases h2 : 2 ≤ n
    · have hlt := splitPoint_lt h2
      have hpos := splitPoint_pos n
      rcases Nat.lt_or_ge i (splitPoint n) with hil | hir <;>
        rcases Nat.lt_or_ge j (splitPoint n) with hjl | hjr
      · rw [dirs_left h2 hil, dirs_left h2 hjl, List.append_left_inj] at h
        exact ih _ hlt hil hjl h
      · rw [dirs_left h2 hil, dirs_right h2 hjr] at h
        cases (List.append_inj' h rfl).2
      · rw [dirs_right h2 hir, dirs_left h2 hjl] at h
        cases (List.append_inj' h rfl).2
      · rw [dirs_right h2 hir, dirs_right h2 hjr, List.append_left_inj] at h
        have := ih (n - splitPoint n) (by omega) (by omega) (by omega) h
        omega
    · omega

end

end HashTree
