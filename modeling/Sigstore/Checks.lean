import Mathlib.Data.List.Basic

/-!
# Sequences of checks

A function that runs checks in order and stops at the first that fails is a chain of binds in
`Except`. `rejectIf`, `okOr`, `whenSome` and `whenTrue` are the checks such code is written with,
and the lemmas turn a success of the chain into the facts that each check established. `Refines`
compares two chains check by check.
-/

namespace Checks

section
variable {ε ε' α β : Type*}

/-- Fail with an error where a condition holds. -/
def rejectIf (c : Prop) [Decidable c] (e : ε) : Except ε Unit := if c then .error e else .ok ()

/-- The value of an option, or an error. -/
def okOr (o : Option α) (e : ε) : Except ε α :=
  match o with
  | some a => .ok a
  | none => .error e

/-- Check the value of an option, where it has one. -/
def whenSome (o : Option α) (f : α → Except ε Unit) : Except ε Unit :=
  match o with
  | some a => f a
  | none => .ok ()

/-- Check where a flag is set. -/
def whenTrue (b : Bool) (x : Except ε Unit) : Except ε Unit := if b then x else .ok ()

/-- `if c { return Err(..) }` goes on exactly where `c` does not hold. -/
@[simp] theorem rejectIf_eq_ok {c : Prop} [Decidable c] {e : ε} {u : Unit} :
    rejectIf c e = .ok u ↔ ¬ c := by
  by_cases h : c <;> simp [rejectIf, h]

/-- `ok_or` is `Ok` exactly of the value that is there. -/
@[simp] theorem okOr_eq_ok {o : Option α} {e : ε} {a : α} : okOr o e = .ok a ↔ o = some a := by
  cases o <;> simp [okOr]

/-- `if let Some(a) = o { f(a)? }` goes on exactly where there is no value or its check passes. -/
@[simp] theorem whenSome_eq_ok {o : Option α} {f : α → Except ε Unit} {u : Unit} :
    whenSome o f = .ok u ↔ ∀ a, o = some a → f a = .ok () := by
  cases o <;> simp [whenSome]

/-- `if b { x? }` goes on exactly where `x` does if `b` holds. -/
@[simp] theorem whenTrue_eq_ok {b : Bool} {x : Except ε Unit} {u : Unit} :
    whenTrue b x = .ok u ↔ (b = true → x = .ok ()) := by
  cases b <;> simp [whenTrue]

/-- A chain succeeds where its first check does, and then the rest of it. -/
@[simp] theorem bind_eq_ok {ε α β : Type} {check : Except ε α} {rest : α → Except ε β}
    {result : β} :
    (check >>= rest) = .ok result ↔ ∃ value, check = .ok value ∧ rest value = .ok result := by
  cases check with
  | error e => simp [bind, Except.bind]
  | ok value => simp [bind, Except.bind]

/-- `map_err` accepts what the check accepts: it changes the error alone. -/
@[simp] theorem mapError_eq_ok {check : Except ε α} {describe : ε → ε'} {value : α} :
    check.mapError describe = .ok value ↔ check = .ok value := by
  cases check with
  | error e => simp [Except.mapError]
  | ok result => simp [Except.mapError]

/-- `map` accepts what the check accepts and changes the value alone. -/
@[simp] theorem map_eq_ok {x : Except ε α} {f : α → β} {b : β} :
    x.map f = .ok b ↔ ∃ a, x = .ok a ∧ f a = b := by
  cases x with
  | error e => simp [Except.map]
  | ok a => simp [Except.map]

/-- A check that is `Ok` has a value. -/
theorem isOk_iff {x : Except ε α} : x.isOk = true ↔ ∃ a, x = .ok a := by
  cases x with
  | error e => simp [Except.isOk, Except.toBool]
  | ok a => simp [Except.isOk, Except.toBool]

/-- A boolean test of what a check returns holds where the check passes and the test holds of its
value. -/
theorem any_toOption_iff {x : Except ε α} {p : α → Bool} :
    x.toOption.any p = true ↔ ∃ a, x = .ok a ∧ p a = true := by
  cases x with
  | error e => simp [Except.toOption]
  | ok a => simp [Except.toOption]

/-- A loop that checks each element of a list, and stops at the first that fails, passes exactly
where every element does. -/
theorem loop_eq_ok {ε α : Type} {f : α → Except ε Unit} {loop : List α → Except ε Unit}
    (hnil : loop [] = .ok ()) (hcons : ∀ a l, loop (a :: l) = f a >>= fun _ => loop l)
    {l : List α} : loop l = .ok () ↔ ∀ a ∈ l, f a = .ok () := by
  induction l with
  | nil => simp [hnil]
  | cons a l ih =>
    rw [hcons, bind_eq_ok, List.forall_mem_cons, ← ih]
    constructor
    · rintro ⟨_, ha, hl⟩
      exact ⟨ha, hl⟩
    · rintro ⟨ha, hl⟩
      exact ⟨(), ha, hl⟩

/-- `Ok(value)` returns its value and nothing else. -/
theorem pure_eq_ok {ε α : Type} {value result : α} :
    (pure value : Except ε α) = .ok result ↔ value = result :=
  ⟨Except.ok.inj, congrArg Except.ok⟩

end

/-! ## Checks that accept no more than others -/

section
variable {ε ε' δ δ' α β : Type}

/-- Where the one check succeeds, the other does with the same value. -/
def Refines (x : Except ε α) (y : Except ε' α) : Prop := ∀ a, x = .ok a → y = .ok a

namespace Refines

theorem refl (x : Except ε α) : Refines x x := fun _ => id

/-- Sequences of checks refine each other check by check, where the value of the first is given to
both. -/
theorem bind {x : Except ε α} {y : Except ε' α} {f : α → Except ε β} {g : α → Except ε' β}
    (h : Refines x y) (hfg : ∀ a, x = .ok a → Refines (f a) (g a)) :
    Refines (x >>= f) (y >>= g) := by
  intro b hb
  obtain ⟨a, ha, hb⟩ := bind_eq_ok.1 hb
  exact bind_eq_ok.2 ⟨a, h a ha, hfg a ha b hb⟩

/-- A check of an optional value refines another where it does for the value that is there. -/
theorem whenSome {o : Option α} {f : α → Except ε Unit} {g : α → Except ε' Unit}
    (h : ∀ a, o = some a → Refines (f a) (g a)) :
    Refines (Checks.whenSome o f) (Checks.whenSome o g) := by
  intro u hu
  rw [whenSome_eq_ok] at hu ⊢
  exact fun a ha => h a ha () (hu a ha)

/-- A check under a flag refines another under the same flag. -/
theorem whenTrue {b : Bool} {x : Except ε Unit} {y : Except ε' Unit} (h : Refines x y) :
    Refines (Checks.whenTrue b x) (Checks.whenTrue b y) := by
  intro u hu
  rw [whenTrue_eq_ok] at hu ⊢
  exact fun hb => h () (hu hb)

end Refines

end

end Checks
