import Mathlib.Data.List.Perm.Basic
import Sigstore.Checks

/-!
# Loops over reordered lists

What two kinds of loops do when the elements of their lists are in another order. `collect` is a
loop that collects what a check makes of each element: it collects the same elements, in another
order (`collect_perm`). `firstMatch` is a search by two nested loops that stops at the first pair
in a relation. A verdict on the first match is the same for every order of both lists exactly where
it is the same for all matches (`verdict_orderFree_iff`). A search in one list depends on the
members of the list alone (`any_eq_of_mem_iff`).
-/

namespace Reordering

open Checks

/-! ## Collecting -/

section
variable {ε α β : Type} (f : α → Except ε (List β))

/-- The loop that collects what `f` makes of each element. -/
def collect : List α → Except ε (List β)
  | [] => .ok []
  | a :: as => do
    let bs ← f a
    let rest ← collect as
    return bs ++ rest

variable {f}

/-- The loop collects of a list what it collects of the first element and of the others. -/
theorem collect_cons_eq_ok {a : α} {as : List α} {bs : List β} :
    collect f (a :: as) = .ok bs ↔
      ∃ items, f a = .ok items ∧ ∃ rest, collect f as = .ok rest ∧ items ++ rest = bs := by
  simp only [collect, bind_eq_ok, pure_eq_ok]

/-- The elements of a reordered list are collected in another order. By induction on the
permutation; a failure anywhere fails the whole loop, so it does not matter where it is. -/
theorem collect_perm {as as' : List α} (hperm : as'.Perm as) {bs : List β}
    (h : collect f as = .ok bs) : ∃ bs', collect f as' = .ok bs' ∧ bs'.Perm bs := by
  induction hperm generalizing bs with
  | nil => exact ⟨bs, h, .refl bs⟩
  | cons a _ ih =>
    obtain ⟨items, hitems, rest, hrest, rfl⟩ := collect_cons_eq_ok.1 h
    obtain ⟨rest', hrest', hp⟩ := ih hrest
    exact ⟨items ++ rest', collect_cons_eq_ok.2 ⟨items, hitems, rest', hrest', rfl⟩,
      hp.append_left items⟩
  | swap a b l =>
    obtain ⟨as, ha, rest, hrest, rfl⟩ := collect_cons_eq_ok.1 h
    obtain ⟨bs, hb, rest, hl, rfl⟩ := collect_cons_eq_ok.1 hrest
    refine ⟨bs ++ (as ++ rest), ?_, ?_⟩
    · have hrest : collect f (a :: l) = .ok (as ++ rest) :=
        collect_cons_eq_ok.2 ⟨as, ha, rest, hl, rfl⟩
      exact collect_cons_eq_ok.2 ⟨bs, hb, as ++ rest, hrest, rfl⟩
    · rw [← List.append_assoc, ← List.append_assoc]
      exact List.perm_append_comm.append_right rest
  | trans _ _ ihleft ihright =>
    obtain ⟨bs', h', hp⟩ := ihright h
    obtain ⟨bs'', h'', hp'⟩ := ihleft h'
    exact ⟨bs'', h'', hp'.trans hp⟩

/-- What is collected is collected of an element. -/
theorem exists_of_mem_collect {as : List α} {bs : List β} (h : collect f as = .ok bs) {b : β}
    (hb : b ∈ bs) : ∃ a ∈ as, ∃ items, f a = .ok items ∧ b ∈ items := by
  induction as generalizing bs with
  | nil => cases h; cases hb
  | cons a as ih =>
    obtain ⟨items, hitems, rest, hrest, rfl⟩ := collect_cons_eq_ok.1 h
    rcases List.mem_append.1 hb with hb | hb
    · exact ⟨a, List.mem_cons_self, items, hitems, hb⟩
    · obtain ⟨a', ha', hitems'⟩ := ih hrest hb
      exact ⟨a', List.mem_cons_of_mem a ha', hitems'⟩

/-- Where at most one item is collected of each element, every order of what is collected is that of
some order of the elements. -/
theorem exists_perm_collect (hf : ∀ a items, f a = .ok items → items.length ≤ 1) {as : List α}
    {bs bs' : List β} (h : collect f as = .ok bs) (hperm : bs'.Perm bs) :
    ∃ as', as'.Perm as ∧ collect f as' = .ok bs' := by
  induction bs' generalizing as bs with
  | nil => exact ⟨as, .refl as, by rw [h, List.nil_perm.1 hperm]⟩
  | cons b bs' ih =>
    obtain ⟨a, ha, items, hitems, hmem⟩ := exists_of_mem_collect h (hperm.subset List.mem_cons_self)
    have hsingle : items = [b] := by
      match items, hmem, hf a items hitems with
      | [_], hmem, _ => rw [List.mem_singleton.1 hmem]
    subst hsingle
    obtain ⟨before, after, rfl⟩ := List.append_of_mem ha
    obtain ⟨moved, hmoved, hp⟩ := collect_perm List.perm_middle.symm h
    obtain ⟨items, hitems', rest, hrest, rfl⟩ := collect_cons_eq_ok.1 hmoved
    cases hitems.symm.trans hitems'
    obtain ⟨as', has', hcollect⟩ := ih hrest (List.perm_cons b |>.1 (hperm.trans hp.symm))
    exact ⟨a :: as', (has'.cons a).trans List.perm_middle.symm,
      collect_cons_eq_ok.2 ⟨[b], hitems, bs', hcollect, rfl⟩⟩

end

/-! ## The first match -/

section
variable {α β : Type*} (R : α → β → Bool)

/-- The first match of two lists: of the first element with a match, the first one. -/
def firstMatch (as : List α) (bs : List β) : Option (α × β) :=
  as.findSome? fun a => (bs.find? (R a)).map (a, ·)

/-- The verdict on the first match, which is against the lists where nothing matches. -/
def verdict (v : α → β → Bool) (as : List α) (bs : List β) : Bool :=
  match firstMatch R as bs with
  | some (a, b) => v a b
  | none => false

/-- A verdict is the same for every order of both lists. -/
def OrderFree (v : α → β → Bool) (as : List α) (bs : List β) : Prop :=
  ∀ as' bs', as'.Perm as → bs'.Perm bs → verdict R v as' bs' = verdict R v as bs

/-- A verdict is the same for all matches. -/
def Uniform (v : α → β → Bool) (as : List α) (bs : List β) : Prop :=
  (∀ a ∈ as, ∀ b ∈ bs, R a b = true → v a b = true) ∨
    (∀ a ∈ as, ∀ b ∈ bs, R a b = true → v a b = false)

variable {R} {v : α → β → Bool} {as : List α} {bs : List β}

/-- A pair that is found is in the relation. -/
theorem firstMatch_some {a : α} {b : β} (h : firstMatch R as bs = some (a, b)) :
    a ∈ as ∧ b ∈ bs ∧ R a b = true := by
  obtain ⟨a', ha', hfind⟩ := List.exists_of_findSome?_eq_some h
  obtain ⟨b', hb', hpair⟩ := Option.map_eq_some_iff.1 hfind
  cases hpair
  exact ⟨ha', List.mem_of_find?_eq_some hb', List.find?_some hb'⟩

/-- Where no pair is found, none is in the relation. -/
theorem firstMatch_none (h : firstMatch R as bs = none) {a : α} (ha : a ∈ as) {b : β}
    (hb : b ∈ bs) : ¬ R a b = true := by
  have hfind := List.findSome?_eq_none_iff.1 h a ha
  exact List.find?_eq_none.1 (Option.map_eq_none_iff.1 hfind) b hb

/-- The first two elements are found first, where they are in the relation. -/
theorem firstMatch_cons_cons {a : α} {b : β} (h : R a b = true) :
    firstMatch R (a :: as) (b :: bs) = some (a, b) := by
  simp [firstMatch, List.find?_cons, h]

/-- The first two elements give the verdict, where they are in the relation. -/
theorem verdict_cons_cons {a : α} {b : β} (h : R a b = true) :
    verdict R v (a :: as) (b :: bs) = v a b := by
  rw [verdict, firstMatch_cons_cons h]

/-- Where all matches verify, lists are accepted exactly where they have a match. The first match
verifies, if there is one. -/
theorem verdict_eq_true_iff (hall : ∀ a ∈ as, ∀ b ∈ bs, R a b = true → v a b = true) :
    verdict R v as bs = true ↔ ∃ a ∈ as, ∃ b ∈ bs, R a b = true := by
  unfold verdict
  split
  · next a b hmatch =>
    obtain ⟨ha, hb, hR⟩ := firstMatch_some hmatch
    exact ⟨fun _ => ⟨a, ha, b, hb, hR⟩, fun _ => hall a ha b hb hR⟩
  · next hnone =>
    constructor
    · intro h
      cases h
    · rintro ⟨a, ha, b, hb, hR⟩
      exact absurd hR (firstMatch_none hnone ha hb)

/-- Where no match verifies, no lists are accepted. -/
theorem verdict_eq_false (hnone : ∀ a ∈ as, ∀ b ∈ bs, R a b = true → v a b = false) :
    verdict R v as bs = false := by
  unfold verdict
  split
  · next a b hmatch =>
    obtain ⟨ha, hb, hR⟩ := firstMatch_some hmatch
    exact hnone a ha b hb hR
  · rfl

/-- Where all matches have the same verdict, it does not matter which of them is found first. -/
theorem Uniform.orderFree (h : Uniform R v as bs) : OrderFree R v as bs := by
  intro as' bs' has hbs
  rcases h with hall | hnone
  · have hall' : ∀ a ∈ as', ∀ b ∈ bs', R a b = true → v a b = true :=
      fun a ha b hb => hall a (has.mem_iff.1 ha) b (hbs.mem_iff.1 hb)
    rw [Bool.eq_iff_iff, verdict_eq_true_iff hall', verdict_eq_true_iff hall]
    simp only [has.mem_iff, hbs.mem_iff]
  · have hnone' : ∀ a ∈ as', ∀ b ∈ bs', R a b = true → v a b = false :=
      fun a ha b hb => hnone a (has.mem_iff.1 ha) b (hbs.mem_iff.1 hb)
    rw [verdict_eq_false hnone', verdict_eq_false hnone]

/-- **A verdict on the first match depends on the order unless all matches have the same.** If it
does not depend on the order, every match can be moved to the front and then decides. -/
theorem verdict_orderFree_iff : OrderFree R v as bs ↔ Uniform R v as bs := by
  refine ⟨fun h => ?_, Uniform.orderFree⟩
  -- each match can be the first one, and then it decides
  have hfirst : ∀ a ∈ as, ∀ b ∈ bs, R a b = true → v a b = verdict R v as bs := by
    intro a ha b hb hR
    obtain ⟨asBefore, asAfter, rfl⟩ := List.append_of_mem ha
    obtain ⟨bsBefore, bsAfter, rfl⟩ := List.append_of_mem hb
    have has : (a :: (asBefore ++ asAfter)).Perm (asBefore ++ a :: asAfter) :=
      List.perm_middle.symm
    have hbs : (b :: (bsBefore ++ bsAfter)).Perm (bsBefore ++ b :: bsAfter) :=
      List.perm_middle.symm
    have hmoved := h _ _ has hbs
    rwa [verdict_cons_cons hR] at hmoved
  cases hverdict : verdict R v as bs with
  | true => exact .inl fun a ha b hb hR => (hfirst a ha b hb hR).trans hverdict
  | false => exact .inr fun a ha b hb hR => (hfirst a ha b hb hR).trans hverdict

end

/-! ## Lists with the same members -/

section
variable {α : Type} {l l' : List α}

/-- Lists with the same members are empty together. -/
theorem nil_iff_of_mem_iff (h : ∀ a, a ∈ l' ↔ a ∈ l) : l' = [] ↔ l = [] := by
  simp only [List.eq_nil_iff_forall_not_mem, h]

/-- Lists with the same members have a member that passes a test together. -/
theorem any_eq_of_mem_iff (p : α → Bool) (h : ∀ a, a ∈ l' ↔ a ∈ l) : l'.any p = l.any p := by
  rw [Bool.eq_iff_iff]
  simp only [List.any_eq_true, h]

end

end Reordering
