import Mathlib.Data.Prod.Lex
import Mathlib.Order.WellFounded
import Sigstore.Actions

/-!
# Depth-first search with a work list

A search visits items, each at most once by its key, until it finds what it looks for. A visit can
lead to further items, and can stop the search after these. `preorder` is the search by recursion,
where a stop ends the search of all that was still to be visited (`Ended.cut`). `turn` is one turn
of a loop over a work list: the items that a visit leads to go before the others, and a stop drops
the others at once. The loop visits at most `max` items. It ends in any case (`exists_ends`), and
unless it ends at this limit, it ends as the recursion does (`preorder_of_ends`).
-/

namespace DepthFirst

/-- What a visit of an item finds: nothing to search, what is looked for, or further items, after
which the search stops where `stop` is set. -/
inductive Verdict (ι β : Type) where
  | skip
  | found (b : β)
  | children (items : List ι) (stop : Bool)

/-- How a search ends. `limit` is the end of a search that has not gone as far as it had to. -/
inductive Ended (ε β : Type) where
  | found (b : β)
  | failed (e : ε)
  | exhausted
  | cut
  | limit

/-- What a search returns. -/
def Ended.result {ε β : Type} : Ended ε β → Except ε (Option β)
  | found b => .ok (some b)
  | failed e => .error e
  | _ => .ok none

section
variable {ε σ ι κ β : Type} [DecidableEq κ] (key : ι → κ)
  (visit : ι → StateAction ε σ (Verdict ι β))

/-! ## The recursion -/

/-- The end of a search, with the keys of the items that it has visited and the state it has left.
-/
structure Searched (ε σ κ β : Type) where
  ended : Ended ε β
  visited : List κ
  state : σ

/-- Search items one after the other, until the search of one of them ends otherwise than with
nothing left to visit. -/
def searchItems (searchItem : List κ → ι → σ → Searched ε σ κ β) :
    List κ → List ι → σ → Searched ε σ κ β
  | visited, [], s => ⟨.exhausted, visited, s⟩
  | visited, item :: items, s =>
    let r := searchItem visited item s
    match r.ended with
    | .exhausted => searchItems searchItem r.visited items r.state
    | _ => r

/-- The recursive search of an item, down to a depth. -/
def preorder : Nat → List κ → ι → σ → Searched ε σ κ β
  | 0, visited, _, s => ⟨.limit, visited, s⟩
  | depth + 1, visited, item, s =>
    if key item ∈ visited then ⟨.exhausted, visited, s⟩
    else
      match visit item s with
      | (.error e, t) => ⟨.failed e, visited, t⟩
      | (.ok .skip, t) => ⟨.exhausted, visited, t⟩
      | (.ok (.found b), t) => ⟨.found b, visited, t⟩
      | (.ok (.children items stop), t) =>
        let r := searchItems (preorder depth) (key item :: visited) items t
        match r.ended with
        | .exhausted => { r with ended := if stop then .cut else .exhausted }
        | _ => r

/-! ## The loop -/

/-- The state of the loop: the items to visit, the keys of those visited, and the number of items
that were looked at. -/
structure Worklist (ι κ : Type) where
  toVisit : List ι
  visited : List κ
  steps : Nat

/-- One turn of the loop: its end, if it ends, and the work list and the state after it. -/
def turn (max : Nat) (w : Worklist ι κ) (s : σ) : Option (Ended ε β) × Worklist ι κ × σ :=
  match w.toVisit with
  | [] => (some .exhausted, w, s)
  | item :: rest =>
    if key item ∈ w.visited then (none, { w with toVisit := rest }, s)
    else if max ≤ w.steps then (some .limit, w, s)
    else
      let looked := { w with toVisit := rest, steps := w.steps + 1 }
      match visit item s with
      | (.error e, t) => (some (.failed e), looked, t)
      | (.ok .skip, t) => (none, looked, t)
      | (.ok (.found b), t) => (some (.found b), looked, t)
      | (.ok (.children items stop), t) =>
        (none, ⟨items ++ (if stop then [] else rest), key item :: w.visited, w.steps + 1⟩, t)

/-- The loop ends from a work list, after any number of turns. -/
inductive Ends (max : Nat) : Worklist ι κ → σ → Ended ε β → Worklist ι κ → σ → Prop
  | stop {w w' s t e} : turn key visit max w s = (some e, w', t) → Ends max w s e w' t
  | next {w w' w'' s s' t e} : turn key visit max w s = (none, w', s') →
      Ends max w' s' e w'' t → Ends max w s e w'' t

variable {key visit} {max : Nat}

/-- A turn that does not end the loop looks at an item, or leaves fewer of them to visit. These two
numbers, in this order, are the measure that the loop ends by. -/
theorem turn_decreases {w w' : Worklist ι κ} {s t : σ}
    (h : turn key visit max w s = (none, w', t)) :
    Prod.Lex (· < ·) (· < ·) (max - w'.steps, w'.toVisit.length)
      (max - w.steps, w.toVisit.length) := by
  unfold turn at h
  split at h
  · cases h
  · next item rest hitems =>
    rw [hitems]
    split at h
    · cases h
      exact .right _ (Nat.lt_succ_self _)
    · split at h
      · cases h
      · have hlooked : max - (w.steps + 1) < max - w.steps := by omega
        dsimp only at h
        split at h
        · cases h
        · cases h
          exact .left _ _ hlooked
        · cases h
        · cases h
          exact .left _ _ hlooked

/-- The loop looks at no more than `max` items. A turn that would look at one more returns instead.
-/
theorem turn_steps_le {w w' : Worklist ι κ} {s t : σ} {o : Option (Ended ε β)}
    (hw : w.steps ≤ max) (h : turn key visit max w s = (o, w', t)) : w'.steps ≤ max := by
  unfold turn at h
  split at h
  · cases h
    exact hw
  · split at h
    · cases h
      exact hw
    · split at h
      · cases h
        exact hw
      · have hlooked : w.steps + 1 ≤ max := by omega
        dsimp only at h
        split at h <;> cases h <;> exact hlooked

/-- **The loop ends**, having looked at no more than `max` items. By induction over the measure that
every turn decreases. -/
theorem exists_ends (key : ι → κ) (visit : ι → StateAction ε σ (Verdict ι β))
    (w : Worklist ι κ) (s : σ) (hw : w.steps ≤ max) :
    ∃ e w' t, Ends key visit max w s e w' t ∧ w'.steps ≤ max := by
  have hwf : WellFounded (Prod.Lex (· < ·) (· < ·) : Nat × Nat → Nat × Nat → Prop) :=
    WellFounded.prod_lex Nat.lt_wfRel.wf Nat.lt_wfRel.wf
  generalize hm : (max - w.steps, w.toVisit.length) = measure
  induction measure using hwf.induction generalizing w s with
  | _ measure ih =>
    subst hm
    rcases hturn : turn key visit max w s with ⟨o, w', t⟩
    have hle := turn_steps_le hw hturn
    cases o with
    | some e => exact ⟨e, w', t, .stop hturn, hle⟩
    | none =>
      obtain ⟨e, w'', t', hends, hle'⟩ := ih _ (turn_decreases hturn) w' t hle rfl
      exact ⟨e, w'', t', .next hturn hends, hle'⟩

/-! ## The loop ends as the recursion does -/

section
variable {w' : Worklist ι κ} {s s' t : σ} {e : Ended ε β} {item : ι} {rest : List ι}
  {visited : List κ} {steps : Nat}

/-- How the loop goes on after a turn. -/
theorem ends_of_turn {w w₁ : Worklist ι κ} (hturn : turn key visit max w s = (none, w₁, s'))
    (h : Ends key visit max w s e w' t) : Ends key visit max w₁ s' e w' t := by
  cases h with
  | stop h =>
    rw [hturn] at h
    cases h
  | next h hends =>
    rw [hturn] at h
    cases h
    exact hends

/-- The loop ends where a turn ends it. -/
theorem eq_of_turn {w w₁ : Worklist ι κ} {e' : Ended ε β}
    (hturn : turn key visit max w s = (some e', w₁, s')) (h : Ends key visit max w s e w' t) :
    e = e' ∧ w' = w₁ ∧ t = s' := by
  cases h with
  | stop h =>
    rw [hturn] at h
    cases h
    exact ⟨rfl, rfl, rfl⟩
  | next h =>
    rw [hturn] at h
    cases h

/-- A turn looks at the first item, unless it was visited or the limit is reached. -/
theorem turn_unseen (key : ι → κ) (visit : ι → StateAction ε σ (Verdict ι β))
    (rest : List ι) (s : σ) (hseen : key item ∉ visited) (hlimit : ¬ max ≤ steps) :
    turn key visit max ⟨item :: rest, visited, steps⟩ s =
      match visit item s with
      | (.error e, t) => (some (.failed e), ⟨rest, visited, steps + 1⟩, t)
      | (.ok .skip, t) => (none, ⟨rest, visited, steps + 1⟩, t)
      | (.ok (.found b), t) => (some (.found b), ⟨rest, visited, steps + 1⟩, t)
      | (.ok (.children items stop), t) =>
        (none, ⟨items ++ (if stop then [] else rest), key item :: visited, steps + 1⟩, t) := by
  simp only [turn, if_neg hseen, if_neg hlimit]

/-- After the recursive search of some items, the loop goes on with the rest, or without it after a
stop, or ends as the search did. -/
def GoesOn (key : ι → κ) (visit : ι → StateAction ε σ (Verdict ι β)) (max steps : Nat)
    (rest : List ι) (r : Searched ε σ κ β) (e : Ended ε β) (w' : Worklist ι κ) (t : σ) : Prop :=
  match r.ended with
  | .exhausted => ∃ steps', steps ≤ steps' ∧ steps' ≤ max ∧
      Ends key visit max ⟨rest, r.visited, steps'⟩ r.state e w' t
  | .cut => ∃ steps', steps ≤ steps' ∧ steps' ≤ max ∧
      Ends key visit max ⟨[], r.visited, steps'⟩ r.state e w' t
  | .limit => False
  | ended => e = ended ∧ t = r.state

/-- What goes on after more steps goes on after fewer. The number of steps only bounds from below
what the loop has looked at. -/
theorem GoesOn.mono {steps' : Nat} {r : Searched ε σ κ β}
    (h : GoesOn key visit max steps' rest r e w' t) (hle : steps ≤ steps') :
    GoesOn key visit max steps rest r e w' t := by
  obtain ⟨ended, visited, s⟩ := r
  cases ended with
  | found b => exact h
  | failed x => exact h
  | limit => exact h
  | exhausted =>
    obtain ⟨n, hn, hn', hends⟩ := h
    exact ⟨n, hle.trans hn, hn', hends⟩
  | cut =>
    obtain ⟨n, hn, hn', hends⟩ := h
    exact ⟨n, hle.trans hn, hn', hends⟩

/-- The loop, unless it ends at its limit, searches the items at the front of its list as the
recursion does. The induction is on the depth, and for each depth on the items. -/
theorem goesOn_searchItems {depth : Nat} {items : List ι} (hsteps : steps ≤ max)
    (hdepth : max - steps < depth)
    (h : Ends key visit max ⟨items ++ rest, visited, steps⟩ s e w' t) (he : e ≠ .limit) :
    GoesOn key visit max steps rest
      (searchItems (preorder key visit depth) visited items s) e w' t := by
  induction depth generalizing items rest visited steps s with
  | zero => exact absurd hdepth (Nat.not_lt_zero _)
  | succ depth ih =>
    induction items generalizing visited steps s with
    | nil => exact ⟨steps, le_rfl, hsteps, h⟩
    | cons item items ih' =>
      rw [searchItems, preorder]
      by_cases hseen : key item ∈ visited
      · have hturn : turn key visit max ⟨item :: items ++ rest, visited, steps⟩ s =
            (none, ⟨items ++ rest, visited, steps⟩, s) := by
          simp only [turn, List.cons_append, if_pos hseen]
        rw [if_pos hseen]
        exact ih' hsteps hdepth (ends_of_turn hturn h)
      · by_cases hlimit : max ≤ steps
        · have hturn : turn key visit max ⟨item :: items ++ rest, visited, steps⟩ s =
              (some .limit, ⟨item :: items ++ rest, visited, steps⟩, s) := by
            simp only [turn, List.cons_append, if_neg hseen, if_pos hlimit]
          exact absurd (eq_of_turn hturn h).1 he
        rw [if_neg hseen]
        have hlooked : steps + 1 ≤ max := by omega
        have hturn := turn_unseen key visit (items ++ rest) s hseen hlimit
        rcases hvisit : visit item s with ⟨_ | verdict, s'⟩
        · rw [hvisit] at hturn
          obtain ⟨rfl, -, rfl⟩ := eq_of_turn hturn h
          exact ⟨rfl, rfl⟩
        cases verdict with
        | skip =>
          rw [hvisit] at hturn
          exact (ih' hlooked (by omega) (ends_of_turn hturn h)).mono (Nat.le_succ steps)
        | found b =>
          rw [hvisit] at hturn
          obtain ⟨rfl, -, rfl⟩ := eq_of_turn hturn h
          exact ⟨rfl, rfl⟩
        | children cs stop =>
          rw [hvisit] at hturn
          have hgoes := ih hlooked (by omega) (ends_of_turn hturn h)
          dsimp only
          rcases hr : searchItems (preorder key visit depth) (key item :: visited) cs s' with
            ⟨ended, visited', r⟩
          rw [hr] at hgoes
          cases ended with
          | found b => exact hgoes
          | failed x => exact hgoes
          | limit => exact hgoes
          | cut => exact hgoes.mono (Nat.le_succ steps)
          | exhausted =>
            obtain ⟨steps', hle, hle', hends⟩ := hgoes
            cases stop with
            | true => exact ⟨steps', by omega, hle', hends⟩
            | false => exact (ih' hle' (by omega) hends).mono (by omega)

/-- With nothing to visit the loop ends at once. -/
theorem ends_nil (h : Ends key visit max ⟨[], visited, steps⟩ s e w' t) :
    e = .exhausted ∧ t = s := by
  have hturn : turn key visit max ⟨[], visited, steps⟩ s =
      (some .exhausted, ⟨[], visited, steps⟩, s) := rfl
  obtain ⟨he, -, ht⟩ := eq_of_turn hturn h
  exact ⟨he, ht⟩

/-- **The loop is the recursion**: unless it ends at its limit, it returns the same, and leaves the
same state, as the recursive search to any depth above the limit, which does not reach that depth.
-/
theorem preorder_of_ends {depth : Nat} (hdepth : max < depth)
    (h : Ends key visit max ⟨[item], [], 0⟩ s e w' t) (he : e ≠ .limit) :
    (preorder key visit depth [] item s).ended ≠ .limit ∧
      (preorder key visit depth [] item s).ended.result = e.result ∧
      (preorder key visit depth [] item s).state = t := by
  have hgoes : GoesOn key visit max 0 [] (searchItems (preorder key visit depth) [] [item] s)
      e w' t := goesOn_searchItems (Nat.zero_le max) hdepth h he
  rw [searchItems] at hgoes
  rcases hr : preorder key visit depth [] item s with ⟨ended, visited, r⟩
  rw [hr] at hgoes
  cases ended with
  | found b =>
    obtain ⟨rfl, rfl⟩ := hgoes
    exact ⟨nofun, rfl, rfl⟩
  | failed x =>
    obtain ⟨rfl, rfl⟩ := hgoes
    exact ⟨nofun, rfl, rfl⟩
  | limit => exact hgoes.elim
  | exhausted =>
    obtain ⟨_, -, -, hends⟩ := hgoes
    obtain ⟨rfl, rfl⟩ := ends_nil hends
    exact ⟨nofun, rfl, rfl⟩
  | cut =>
    obtain ⟨_, -, -, hends⟩ := hgoes
    obtain ⟨rfl, rfl⟩ := ends_nil hends
    exact ⟨nofun, rfl, rfl⟩

end

end

end DepthFirst
