import Mathlib.Data.List.Basic

/-!
# Delimited texts

A writer puts words one after the other. What it wrote can be taken apart again where no text can
begin with two of its words, each followed by what may follow it (`Unambiguous`). This holds of
words of one kind of symbol, where a symbol of another kind follows (`unambiguous_of_forall`), of a
quoted word in which the quote is escaped (`escaped_append_inj`), and it passes from the words of a
list to the list, written with separators and a closing symbol (`joined_append_inj`). A word of any
symbols can be taken apart where its length is written before it (`counted_append_inj`).
-/

namespace Delimited

section
variable {α : Type*}

/-- The text does not begin with a symbol of the kind. -/
def Stops (p : α → Prop) (s : List α) : Prop := ∀ x ∈ s.head?, ¬ p x

theorem Stops.nil {p : α → Prop} : Stops p [] := by
  intro x hx
  cases hx

/-- A text whose first symbol is of another kind does not begin with one of the kind. -/
theorem Stops.cons {p : α → Prop} {x : α} {s : List α} (h : ¬ p x) : Stops p (x :: s) := by
  intro y hy
  cases hy
  exact h

/-- No text begins with both words, each followed by the end or by a symbol of another kind, unless
they are one word. -/
def Unambiguous (p : α → Prop) (b c : List α) : Prop :=
  ∀ s t, Stops p s → Stops p t → b ++ s = c ++ t → b = c

/-- Words of symbols of the kind are read to the end of the kind. The word ends where the text goes
on with a symbol of another kind. -/
theorem unambiguous_of_forall {p : α → Prop} {b c : List α} (hb : ∀ x ∈ b, p x)
    (hc : ∀ x ∈ c, p x) : Unambiguous p b c := by
  intro s t hs ht
  induction b generalizing c with
  | nil =>
    intro h
    cases c with
    | nil => rfl
    | cons y c =>
      rw [List.nil_append] at h
      exact absurd (hc y (List.mem_cons_self ..)) (hs y (by rw [h]; rfl))
  | cons x b ih =>
    intro h
    cases c with
    | nil =>
      rw [List.nil_append] at h
      exact absurd (hb x (List.mem_cons_self ..)) (ht x (by rw [← h]; rfl))
    | cons y c =>
      rw [List.cons_append, List.cons_append] at h
      obtain ⟨rfl, htail⟩ := List.cons.inj h
      rw [ih (fun z hz => hb z (List.mem_cons_of_mem _ hz))
        (fun z hz => hc z (List.mem_cons_of_mem _ hz)) htail]

/-- A word after its length and a separator. -/
def counted (number : Nat → List α) (sep : α) (w : List α) : List α :=
  number w.length ++ sep :: w

/-- A counted word is read to its end, whatever it and the text after it hold: the separator ends
the length, and the length says where the word ends. -/
theorem counted_append_inj {p : α → Prop} {number : Nat → List α} {sep : α}
    (hnumber : ∀ m n, Unambiguous p (number m) (number n)) (hinj : number.Injective)
    (hsep : ¬ p sep) {b c s t : List α}
    (h : counted number sep b ++ s = counted number sep c ++ t) : b = c ∧ s = t := by
  simp only [counted, List.append_assoc, List.cons_append] at h
  have hnum : number b.length = number c.length := hnumber _ _ _ _ (.cons hsep) (.cons hsep) h
  have hlength : b.length = c.length := hinj hnum
  rw [hnum] at h
  exact List.append_inj (List.cons.inj (List.append_cancel_left h)).2 hlength

section
variable [DecidableEq α]

/-- Write an escape symbol before each of the two symbols that would be misread. -/
def escape (esc quote x : α) : List α :=
  if x = esc then [esc, esc] else if x = quote then [esc, quote] else [x]

/-- The quote and the escape symbol itself are escaped. -/
theorem escape_special {esc quote x : α} (h : x = esc ∨ x = quote) :
    escape esc quote x = [esc, x] := by
  unfold escape
  split
  · next hx => rw [hx]
  · next hx =>
    obtain rfl : x = quote := h.resolve_left hx
    rw [if_pos rfl]

theorem escape_plain {esc quote x : α} (h : ¬ (x = esc ∨ x = quote)) :
    escape esc quote x = [x] := by
  rw [not_or] at h
  rw [escape, if_neg h.1, if_neg h.2]

/-- An escaped symbol is read back. The first symbol of the text tells whether the second one
belongs to it. -/
theorem escape_append_inj {esc quote x y : α} {s t : List α}
    (h : escape esc quote x ++ s = escape esc quote y ++ t) : x = y ∧ s = t := by
  by_cases hx : x = esc ∨ x = quote
  · by_cases hy : y = esc ∨ y = quote
    · rw [escape_special hx, escape_special hy] at h
      exact List.cons.inj (List.cons.inj h).2
    · rw [escape_special hx, escape_plain hy] at h
      exact absurd (.inl (List.cons.inj h).1.symm) hy
  · by_cases hy : y = esc ∨ y = quote
    · rw [escape_plain hx, escape_special hy] at h
      exact absurd (.inl (List.cons.inj h).1) hx
    · rw [escape_plain hx, escape_plain hy] at h
      exact List.cons.inj h

/-- An escaped word ends at the first quote that is not escaped. By induction over both words: where
one has ended, the other cannot go on. -/
theorem escaped_append_inj {esc quote : α} (hne : esc ≠ quote) {b c s t : List α}
    (h : b.flatMap (escape esc quote) ++ quote :: s = c.flatMap (escape esc quote) ++ quote :: t) :
    b = c ∧ s = t := by
  -- a word that has ended against one that goes on: no escaped symbol begins with a bare quote
  have hopen : ∀ (x : α) (c s t : List α),
      quote :: s ≠ (x :: c).flatMap (escape esc quote) ++ quote :: t := by
    intro x c s t h
    rw [List.flatMap_cons] at h
    by_cases hx : x = esc ∨ x = quote
    · rw [escape_special hx] at h
      exact hne (List.cons.inj h).1.symm
    · rw [escape_plain hx] at h
      exact hx (.inr (List.cons.inj h).1.symm)
  induction b generalizing c with
  | nil =>
    cases c with
    | nil => exact ⟨rfl, (List.cons.inj h).2⟩
    | cons y c => exact absurd h (hopen y c s t)
  | cons x b ih =>
    cases c with
    | nil => exact absurd h.symm (hopen x b t s)
    | cons y c =>
      rw [List.flatMap_cons, List.flatMap_cons, List.append_assoc, List.append_assoc] at h
      obtain ⟨rfl, hrest⟩ := escape_append_inj h
      obtain ⟨rfl, rfl⟩ := ih hrest
      exact ⟨rfl, rfl⟩

end

/-- The words of a list with separators between them. -/
def joined (sep : α) (ws : List (List α)) : List α := (ws.intersperse [sep]).flatten

@[simp] theorem joined_nil (sep : α) : joined sep [] = [] := rfl

theorem joined_cons (sep : α) (w : List α) (ws : List (List α)) :
    joined sep (w :: ws) = w ++ ws.flatMap (sep :: ·) := by
  induction ws generalizing w with
  | nil => simp [joined]
  | cons v ws ih =>
    have hrest : joined sep (w :: v :: ws) = w ++ sep :: joined sep (v :: ws) := by
      simp [joined, List.intersperse_cons_cons]
    rw [hrest, ih, List.flatMap_cons, List.cons_append]

section
variable {p : α → Prop} {sep close : α} (hsep : ¬ p sep) (hclose : ¬ p close) (hne : sep ≠ close)
include hsep hclose hne

/-- The words after the first one, each after a separator, up to the closing symbol. A separator
announces another word, and the closing symbol the end, so the lists are as long as each other. -/
theorem separated_append_inj {ws vs : List (List α)} {s t : List α}
    (hwords : ∀ b ∈ ws, ∀ c ∈ vs, Unambiguous p b c)
    (h : ws.flatMap (sep :: ·) ++ close :: s = vs.flatMap (sep :: ·) ++ close :: t) :
    ws = vs ∧ s = t := by
  have hstops : ∀ (us : List (List α)) (r : List α),
      Stops p (us.flatMap (sep :: ·) ++ close :: r) := by
    intro us r
    cases us with
    | nil => exact .cons hclose
    | cons u us => exact .cons hsep
  induction ws generalizing vs with
  | nil =>
    cases vs with
    | nil => exact ⟨rfl, (List.cons.inj h).2⟩
    | cons v vs => exact absurd (List.cons.inj h).1.symm hne
  | cons w ws ih =>
    cases vs with
    | nil => exact absurd (List.cons.inj h).1 hne
    | cons v vs =>
      simp only [List.flatMap_cons, List.cons_append, List.append_assoc, List.cons.injEq,
        true_and] at h
      have hw : w = v := hwords w (List.mem_cons_self ..) v (List.mem_cons_self ..) _ _
        (hstops ws s) (hstops vs t) h
      subst hw
      obtain ⟨rfl, rfl⟩ := ih (fun b hb c hc => hwords b (List.mem_cons_of_mem _ hb) c
        (List.mem_cons_of_mem _ hc)) (List.append_cancel_left h)
      exact ⟨rfl, rfl⟩

/-- A list of words is read back from its text, where no word is empty or begins with the closing
symbol. -/
theorem joined_append_inj {ws vs : List (List α)} {s t : List α}
    (hwords : ∀ b ∈ ws, ∀ c ∈ vs, Unambiguous p b c)
    (hws : ∀ b ∈ ws, ∃ x b', b = x :: b' ∧ x ≠ close)
    (hvs : ∀ c ∈ vs, ∃ x c', c = x :: c' ∧ x ≠ close)
    (h : joined sep ws ++ close :: s = joined sep vs ++ close :: t) : ws = vs ∧ s = t := by
  cases ws with
  | nil =>
    cases vs with
    | nil => exact ⟨rfl, (List.cons.inj h).2⟩
    | cons v vs =>
      obtain ⟨x, v', rfl, hx⟩ := hvs v (List.mem_cons_self ..)
      rw [joined_cons] at h
      exact absurd (List.cons.inj h).1.symm hx
  | cons w ws =>
    cases vs with
    | nil =>
      obtain ⟨x, w', rfl, hx⟩ := hws w (List.mem_cons_self ..)
      rw [joined_cons] at h
      exact absurd (List.cons.inj h).1 hx
    | cons v vs =>
      -- put a separator before the first words too
      have hsepd : (w :: ws).flatMap (sep :: ·) ++ close :: s =
          (v :: vs).flatMap (sep :: ·) ++ close :: t := by
        rw [joined_cons, joined_cons] at h
        simp only [List.flatMap_cons, List.cons_append, List.cons.injEq, true_and]
        exact h
      exact separated_append_inj hsep hclose hne hwords hsepd

end

end

end Delimited
