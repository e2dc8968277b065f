/-!
# Stateful actions that can fail

An action reads and writes a state and ends in a value or in an error. A failed action keeps the
state that it reached: what was written before the failure stays written. `Returns` says that an
action succeeds, and its lemmas take a sequence of actions apart; `Respects` says what every outcome
of an action does to the state, and its lemmas put the parts together.
-/

/-- An action on a state, which ends in a value or an error and in a state. -/
def StateAction (ε σ α : Type) : Type := σ → Except ε α × σ

namespace StateAction

section
variable {ε σ τ α β : Type}

instance : Monad (StateAction ε σ) where
  pure a := fun s => (.ok a, s)
  bind x f := fun s =>
    match x s with
    | (.ok a, t) => f a t
    | (.error e, t) => (.error e, t)

/-- Fail, keeping the state. -/
def fail (e : ε) : StateAction ε σ α := fun s => (.error e, s)

/-- A computation that does not use the state. -/
def lift (x : Except ε α) : StateAction ε σ α := fun s => (x, s)

/-- Read from the state. -/
def gets (f : σ → α) : StateAction ε σ α := fun s => (.ok (f s), s)

def modify (f : σ → σ) : StateAction ε σ Unit := fun s => (.ok (), f s)

/-- An action on a part of the state. -/
def onPart (get : σ → τ) (set : σ → τ → σ) (x : StateAction ε τ α) : StateAction ε σ α := fun s =>
  let r := x (get s)
  (r.1, set s r.2)

/-- An action that ends in a result hands it, with the state it leaves, to the action after it. -/
theorem bind_of_ok {x : StateAction ε σ α} {f : α → StateAction ε σ β} {s t : σ} {a : α}
    (h : x s = (.ok a, t)) : (x >>= f) s = f a t := by
  show (match x s with
    | (.ok a, t) => f a t
    | (.error e, t) => (.error e, t)) = f a t
  rw [h]

/-- An action that fails ends the sequence; the state it has left stays, as a file that has been
written does. -/
theorem bind_of_error {x : StateAction ε σ α} {f : α → StateAction ε σ β} {s t : σ} {e : ε}
    (h : x s = (.error e, t)) : (x >>= f) s = (.error e, t) := by
  show (match x s with
    | (.ok a, t) => f a t
    | (.error e, t) => (.error e, t)) = (.error e, t)
  rw [h]

/-! ## Success -/

/-- The action succeeds. -/
def Returns (x : StateAction ε σ α) (s : σ) (a : α) (t : σ) : Prop := x s = (.ok a, t)

/-- An action is a function of the state: it returns one result and leaves one state. -/
theorem Returns.unique {x : StateAction ε σ α} {s t t' : σ} {a a' : α} (h : Returns x s a t)
    (h' : Returns x s a' t') : a = a' ∧ t = t' := by
  have heq := Eq.trans (Eq.symm h) h'
  exact ⟨Except.ok.inj (Prod.mk.inj heq).1, (Prod.mk.inj heq).2⟩

/-- An action whose outcome is a value returns it. -/
theorem exists_returns {x : StateAction ε σ α} {s : σ} (h : (x s).1.isOk = true) :
    ∃ a t, Returns x s a t := by
  unfold Returns
  cases hx : x s with
  | mk result t =>
    rw [hx] at h
    cases result with
    | ok a => exact ⟨a, t, rfl⟩
    | error e => cases h

/-- A sequence returns exactly where its first action does and the second one does from there. A
failing first action returns nothing, whatever state it leaves. -/
theorem returns_bind {x : StateAction ε σ α} {f : α → StateAction ε σ β} {s t : σ} {b : β} :
    Returns (x >>= f) s b t ↔ ∃ a r, Returns x s a r ∧ Returns (f a) r b t := by
  unfold Returns
  constructor
  · intro h
    cases hx : x s with
    | mk result r =>
      cases result with
      | ok a =>
        rw [bind_of_ok hx] at h
        exact ⟨a, r, rfl, h⟩
      | error e =>
        rw [bind_of_error hx] at h
        cases h
  · rintro ⟨a, r, hx, hf⟩
    rw [bind_of_ok hx, hf]

theorem returns_pure {s t : σ} {a b : α} :
    Returns (pure a : StateAction ε σ α) s b t ↔ a = b ∧ s = t := by
  show ((Except.ok a, s) : Except ε α × σ) = (.ok b, t) ↔ a = b ∧ s = t
  rw [Prod.mk.injEq, Except.ok.injEq]

theorem returns_fail {s t : σ} {e : ε} {a : α} : ¬ Returns (fail e) s a t := nofun

/-- A check that is lifted returns what it accepts and leaves the state alone. -/
theorem returns_lift {x : Except ε α} {s t : σ} {a : α} :
    Returns (lift x) s a t ↔ x = .ok a ∧ s = t := by
  show (x, s) = (.ok a, t) ↔ x = .ok a ∧ s = t
  rw [Prod.mk.injEq]

theorem returns_gets {f : σ → α} {s t : σ} {a : α} :
    Returns (gets f : StateAction ε σ α) s a t ↔ f s = a ∧ s = t := by
  show ((Except.ok (f s), s) : Except ε α × σ) = (.ok a, t) ↔ f s = a ∧ s = t
  rw [Prod.mk.injEq, Except.ok.injEq]

theorem returns_modify {f : σ → σ} {s t : σ} {u : Unit} :
    Returns (modify f : StateAction ε σ Unit) s u t ↔ f s = t := by
  show ((Except.ok (), f s) : Except ε Unit × σ) = (.ok (), t) ↔ f s = t
  rw [Prod.mk.injEq, and_iff_right rfl]

/-! ## What every outcome does to the state -/

/-- Whatever the action ends in, the state it leaves is related to the one it began with. -/
def Respects (R : σ → σ → Prop) (x : StateAction ε σ α) : Prop := ∀ s, R s (x s).2

section
variable {R : σ → σ → Prop}

/-- An action that never changes the state respects every reflexive relation. -/
theorem Respects.of_eq {x : StateAction ε σ α} (refl : ∀ s, R s s) (h : ∀ s, (x s).2 = s) :
    Respects R x := by
  intro s
  rw [h]
  exact refl s

theorem Respects.pure (refl : ∀ s, R s s) (a : α) : Respects R (pure a : StateAction ε σ α) := refl

theorem Respects.fail (refl : ∀ s, R s s) (e : ε) : Respects R (fail e : StateAction ε σ α) := refl

theorem Respects.lift (refl : ∀ s, R s s) (x : Except ε α) :
    Respects R (lift x : StateAction ε σ α) :=
  refl

theorem Respects.gets (refl : ∀ s, R s s) (f : σ → α) :
    Respects R (gets f : StateAction ε σ α) := refl

/-- A sequence respects a transitive relation that both its parts respect, also where the first part
fails and the second one does not run. -/
theorem Respects.bind (trans : ∀ s t u, R s t → R t u → R s u) {x : StateAction ε σ α}
    {f : α → StateAction ε σ β} (hx : Respects R x) (hf : ∀ a, Respects R (f a)) :
    Respects R (x >>= f) := by
  intro s
  have hxs := hx s
  cases h : x s with
  | mk result r =>
    rw [h] at hxs
    cases result with
    | ok a =>
      rw [bind_of_ok h]
      exact trans _ _ _ hxs (hf a r)
    | error e =>
      rw [bind_of_error h]
      exact hxs

/-- Of the outcomes of an action that respects a relation, the one where it returns. -/
theorem Respects.returns {x : StateAction ε σ α} {s t : σ} {a : α} (h : Respects R x)
    (hx : Returns x s a t) : R s t := by
  have hs := h s
  rwa [hx] at hs

end

end

end StateAction
