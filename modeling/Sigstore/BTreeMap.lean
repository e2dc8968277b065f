import Mathlib.Order.Basic
import Mathlib.Data.List.Basic
import Mathlib.Data.List.Perm.Basic
import Mathlib.Data.String.Basic

/-!
# Sorted maps

A map from an ordered type, held as its entries in strictly increasing key order, so that iteration
order is part of the value and a key has at most one entry. `get?` and `insert` are related by
`get?_insert_self` and `get?_insert_of_ne`, and iterating the entries by `mem_entries_iff`.
-/

/-- A map held as its entries in strictly increasing key order. -/
structure BTreeMap (κ υ : Type*) [LinearOrder κ] where
  entries : List (κ × υ)
  sorted : (entries.map Prod.fst).Pairwise (· < ·)

namespace BTreeMap

section
variable {κ υ : Type*} [LinearOrder κ]

/-- The empty map. -/
def empty : BTreeMap κ υ := { entries := [], sorted := List.Pairwise.nil }

/-- The value of the first entry with a key. -/
def find (k : κ) : List (κ × υ) → Option υ
  | [] => none
  | (k', v') :: l => if k = k' then some v' else find k l

/-- The value at a key. -/
def get? (m : BTreeMap κ υ) (k : κ) : Option υ := find k m.entries

/-- The keys, in order. -/
def keys (m : BTreeMap κ υ) : List κ := m.entries.map Prod.fst

/-- The entries after inserting, replacing the value of a key that is there. -/
def insertEntries (k : κ) (v : υ) : List (κ × υ) → List (κ × υ)
  | [] => [(k, v)]
  | (k', v') :: l =>
    if k < k' then (k, v) :: (k', v') :: l
    else if k = k' then (k, v) :: l
    else (k', v') :: insertEntries k v l

/-- An insertion adds at most its own key. The induction follows the three cases of the insertion.
-/
theorem mem_keys_insertEntries {k : κ} {v : υ} {l : List (κ × υ)} {a : κ}
    (h : a ∈ (insertEntries k v l).map Prod.fst) : a = k ∨ a ∈ l.map Prod.fst := by
  induction l with
  | nil => simpa [insertEntries] using h
  | cons p l ih =>
    obtain ⟨k', v'⟩ := p
    simp only [insertEntries] at h
    split at h
    · simpa using h
    · split at h
      · next heq =>
        subst heq
        rcases List.mem_cons.1 h with h | h
        · exact .inl h
        · exact .inr (List.mem_cons_of_mem _ h)
      · rcases List.mem_cons.1 h with h | h
        · exact .inr (by simp [h])
        · exact (ih h).imp_right (List.mem_cons_of_mem _)

/-- An insertion keeps the keys sorted, which is the invariant that the type carries. The keys after
the inserted one are still above all those before it. -/
theorem sorted_insertEntries (k : κ) (v : υ) {l : List (κ × υ)}
    (h : (l.map Prod.fst).Pairwise (· < ·)) :
    ((insertEntries k v l).map Prod.fst).Pairwise (· < ·) := by
  induction l with
  | nil => simp [insertEntries]
  | cons p l ih =>
    obtain ⟨k', v'⟩ := p
    rw [List.map_cons, List.pairwise_cons] at h
    obtain ⟨hhead, htail⟩ := h
    simp only [insertEntries]
    split
    · next hlt =>
      rw [List.map_cons, List.pairwise_cons]
      refine ⟨fun a ha => ?_, by rw [List.map_cons, List.pairwise_cons]; exact ⟨hhead, htail⟩⟩
      rcases List.mem_cons.1 ha with rfl | ha
      · exact hlt
      · exact hlt.trans (hhead a ha)
    · next hge =>
      split
      · next heq =>
        subst heq
        rw [List.map_cons, List.pairwise_cons]
        exact ⟨hhead, htail⟩
      · next hne =>
        rw [List.map_cons, List.pairwise_cons]
        refine ⟨fun a ha => ?_, ih htail⟩
        rcases mem_keys_insertEntries ha with rfl | ha
        · exact lt_of_le_of_ne (not_lt.1 hge) (Ne.symm hne)
        · exact hhead a ha

/-- Insert, replacing the value of a key that is there. -/
def insert (m : BTreeMap κ υ) (k : κ) (v : υ) : BTreeMap κ υ :=
  { entries := insertEntries k v m.entries, sorted := sorted_insertEntries k v m.sorted }

/-- The map of a list of pairs; a later pair replaces an earlier one of the same key. -/
def ofList (l : List (κ × υ)) : BTreeMap κ υ := l.foldl (fun m p => m.insert p.1 p.2) empty

@[simp] theorem get?_empty (k : κ) : (empty : BTreeMap κ υ).get? k = none := rfl

/-- An insertion changes what is found at its key and nowhere else, whether it puts the key before
an entry, replaces the entry or goes on after it. -/
theorem find_insertEntries (k : κ) (v : υ) (l : List (κ × υ)) (a : κ) :
    find a (insertEntries k v l) = if a = k then some v else find a l := by
  induction l with
  | nil => rfl
  | cons p l ih =>
    obtain ⟨k', v'⟩ := p
    simp only [insertEntries]
    split
    · rfl
    · split
      · next heq =>
        subst heq
        simp only [find]
        split <;> rfl
      · next hne =>
        simp only [find, ih]
        by_cases ha : a = k'
        · subst ha
          simp [Ne.symm hne]
        · simp [ha]

/-- An inserted value is found at its key. -/
@[simp] theorem get?_insert_self (m : BTreeMap κ υ) (k : κ) (v : υ) :
    (m.insert k v).get? k = some v := by
  rw [get?, insert, find_insertEntries, if_pos rfl]

/-- An insertion leaves the other keys alone. -/
theorem get?_insert_of_ne (m : BTreeMap κ υ) {k a : κ} (v : υ) (h : a ≠ k) :
    (m.insert k v).get? a = m.get? a := by
  rw [get?, insert, find_insertEntries, if_neg h, get?]

/-- What a map holds after an insertion was either there before or is what was inserted. -/
theorem get?_insert_eq_some {m : BTreeMap κ υ} {k a : κ} {v w : υ}
    (h : (m.insert k v).get? a = some w) : (a = k ∧ w = v) ∨ (a ≠ k ∧ m.get? a = some w) := by
  by_cases ha : a = k
  · subst ha
    rw [get?_insert_self] at h
    exact .inl ⟨rfl, (Option.some.inj h).symm⟩
  · rw [get?_insert_of_ne m v ha] at h
    exact .inr ⟨ha, h⟩

/-- Iterating the entries visits exactly what `get?` finds. The keys are sorted, so no later entry
has the key of an earlier one. -/
theorem mem_entries_iff (m : BTreeMap κ υ) {k : κ} {v : υ} :
    (k, v) ∈ m.entries ↔ m.get? k = some v := by
  obtain ⟨l, hl⟩ := m
  simp only [get?]
  induction l with
  | nil => simp [find]
  | cons p l ih =>
    obtain ⟨k', v'⟩ := p
    rw [List.map_cons, List.pairwise_cons] at hl
    rw [List.mem_cons, ih hl.2, find]
    by_cases hk : k = k'
    · subst hk
      have hnone : (k, v) ∉ l := fun hmem =>
        lt_irrefl k (hl.1 k (List.mem_map_of_mem hmem))
      rw [ih hl.2] at hnone
      simp [hnone, eq_comm]
    · simp [hk]

/-- Inserting a new key adds the entry to those that are there. It does not replace anything, so
only its place is to be seen to. -/
theorem insertEntries_perm {k : κ} {v : υ} {l : List (κ × υ)} (h : k ∉ l.map Prod.fst) :
    (insertEntries k v l).Perm ((k, v) :: l) := by
  induction l with
  | nil => exact .refl _
  | cons p l ih =>
    obtain ⟨k', v'⟩ := p
    rw [List.map_cons, List.mem_cons, not_or] at h
    simp only [insertEntries]
    split
    · exact .refl _
    · rw [if_neg h.1]
      exact ((ih h.2).cons _).trans (.swap ..)

/-- The map of pairs with different keys has these pairs as its entries, in key order. Each
insertion of the fold is that of a new key. -/
theorem entries_ofList_perm {l : List (κ × υ)} (h : (l.map Prod.fst).Nodup) :
    (ofList l).entries.Perm l := by
  have hfold : ∀ (l : List (κ × υ)) (m : BTreeMap κ υ),
      ((l ++ m.entries).map Prod.fst).Nodup →
      (l.foldl (fun m p => m.insert p.1 p.2) m).entries.Perm (l ++ m.entries) := by
    intro l
    induction l with
    | nil =>
      intro m _
      exact .refl _
    | cons p l ih =>
      intro m hm
      rw [List.cons_append, List.map_cons, List.nodup_cons] at hm
      obtain ⟨hp, hm⟩ := hm
      rw [List.map_append, List.mem_append, not_or] at hp
      have hinsert : (m.insert p.1 p.2).entries.Perm (p :: m.entries) := insertEntries_perm hp.2
      have hswap : (l ++ (m.insert p.1 p.2).entries).Perm (p :: (l ++ m.entries)) :=
        (hinsert.append_left l).trans List.perm_middle
      refine (ih _ ?_).trans hswap
      rw [(hswap.map _).nodup_iff, List.map_cons, List.nodup_cons, List.map_append,
        List.mem_append, not_or]
      exact ⟨hp, by rwa [List.map_append] at hm⟩
  have hperm := hfold l empty (by simpa [empty] using h)
  rwa [empty, List.append_nil] at hperm

/-- The map of pairs with different keys does not depend on their order. -/
theorem entries_ofList_congr {l l' : List (κ × υ)} (h : (l.map Prod.fst).Nodup)
    (hperm : l.Perm l') : (ofList l).entries = (ofList l').entries := by
  have h' : (l'.map Prod.fst).Nodup := (hperm.map _).nodup_iff.1 h
  have hasymm : ∀ p q : κ × υ, p ∈ (ofList l).entries → q ∈ (ofList l').entries → p.1 < q.1 →
      q.1 < p.1 → p = q := fun p q _ _ hpq hqp => absurd hpq hqp.asymm
  exact List.Perm.eq_of_pairwise hasymm (List.pairwise_map.1 (ofList l).sorted)
    (List.pairwise_map.1 (ofList l').sorted)
    ((entries_ofList_perm h).trans (hperm.trans (entries_ofList_perm h').symm))

end

end BTreeMap
