import Mathlib.Data.List.Induction

/-!
# Runs of a deterministic step

A system that takes one input at a time: its runs, and the rules by which a fact about one step
becomes a fact about every run. `run_induction` is the rule for facts about the inputs so far and
the state they lead to, `run_invariant` the one for facts about the state alone, and `run_mono` the
one for relations between an earlier and a later state.
-/

namespace Runs

section
variable {σ ι : Type*} (step : σ → ι → σ)

/-- The state after a list of inputs. -/
def run (s : σ) (is : List ι) : σ := is.foldl step s

@[simp] theorem run_nil (s : σ) : run step s [] = s := rfl

theorem run_cons (s : σ) (i : ι) (is : List ι) : run step s (i :: is) = run step (step s i) is :=
  rfl

/-- A run of two lists of inputs is the run of the second from where the first ends. -/
theorem run_append (s : σ) (is js : List ι) :
    run step s (is ++ js) = run step (run step s is) js := List.foldl_append

/-- A run with one more input is one more step. -/
theorem run_concat (s : σ) (is : List ι) (i : ι) :
    run step s (is ++ [i]) = step (run step s is) i := by
  rw [run_append]
  rfl

/-- What holds of the empty run, and of a run extended by one input, holds of every run. -/
theorem run_induction {s : σ} {P : List ι → σ → Prop} (nil : P [] s)
    (concat : ∀ is i, P is (run step s is) → P (is ++ [i]) (step (run step s is) i)) (is : List ι) :
    P is (run step s is) := by
  induction is using List.reverseRecOn with
  | nil => exact nil
  | append_singleton is i ih =>
    rw [run_concat]
    exact concat is i ih

/-- What every step preserves holds after every run. -/
theorem run_invariant {P : σ → Prop} (hstep : ∀ s i, P s → P (step s i)) {s : σ} (h : P s)
    (is : List ι) : P (run step s is) :=
  run_induction step (P := fun _ s => P s) h (fun _ i ih => hstep _ i ih) is

section
variable {P : σ → Prop} {C : σ → ι → Prop} {s : σ} {is : List ι}
  (hinv : ∀ s i, P s → C s i → P (step s i)) (h : P s)
  (hC : ∀ js i, js ++ [i] <+: is → C (run step s js) i)
include hinv h hC

/-- Where every input satisfies a condition, what every step preserves under that condition holds
along the run. -/
theorem run_keeps {js : List ι} (hjs : js <+: is) : P (run step s js) := by
  induction js using List.reverseRecOn with
  | nil => exact h
  | append_singleton js i ih =>
    rw [run_concat]
    exact hinv _ i (ih ((List.prefix_append _ _).trans hjs)) (hC js i hjs)

/-- Where every input satisfies a condition, a reflexive and transitive relation that every step
respects under that condition relates any two states along the run. -/
theorem run_mono {R : σ → σ → Prop} (refl : ∀ s, R s s) (trans : ∀ s t u, R s t → R t u → R s u)
    (hstep : ∀ s i, P s → C s i → R s (step s i)) {js ks : List ι} (hjk : js <+: ks)
    (hks : ks <+: is) : R (run step s js) (run step s ks) := by
  obtain ⟨between, rfl⟩ := hjk
  induction between using List.reverseRecOn with
  | nil =>
    rw [List.append_nil]
    exact refl _
  | append_singleton between i ih =>
    rw [← List.append_assoc] at hks ⊢
    have hbefore : js ++ between <+: is := (List.prefix_append _ _).trans hks
    rw [run_concat]
    exact trans _ _ _ (ih hbefore)
      (hstep _ i (run_keeps step hinv h hC hbefore) (hC _ i hks))

end

/-! ## Conditions along a run -/

section
variable (C : σ → ι → Prop)

/-- Every input of a run satisfies a condition in the state that takes it. -/
def Along : σ → List ι → Prop
  | _, [] => True
  | s, i :: is => C s i ∧ Along (step s i) is

@[simp] theorem along_nil (s : σ) : Along step C s [] := trivial

@[simp] theorem along_cons (s : σ) (i : ι) (is : List ι) :
    Along step C s (i :: is) ↔ C s i ∧ Along step C (step s i) is := Iff.rfl

/-- All inputs of two lists satisfy the condition where those of the first do, and those of the
second do from where the first ends. -/
theorem along_append (s : σ) (is js : List ι) :
    Along step C s (is ++ js) ↔ Along step C s is ∧ Along step C (run step s is) js := by
  induction is generalizing s with
  | nil => simp
  | cons i is ih => rw [List.cons_append, along_cons, along_cons, ih, run_cons, and_assoc]

/-- The inputs of a run satisfy the condition where each does in the state that it comes to. -/
theorem along_iff (s : σ) (is : List ι) :
    Along step C s is ↔ ∀ before i rest, is = before ++ i :: rest → C (run step s before) i := by
  constructor
  · rintro h before i rest rfl
    exact ((along_append step C s before (i :: rest)).1 h).2.1
  · intro h
    induction is generalizing s with
    | nil => trivial
    | cons i is ih =>
      refine ⟨h [] i is rfl, ih _ fun before j rest his => ?_⟩
      exact h (i :: before) j rest (by rw [his, List.cons_append])

variable {step C}

/-- What every step preserves under a condition that all inputs satisfy holds after the run. -/
theorem Along.keeps {P : σ → Prop} (hinv : ∀ s i, P s → C s i → P (step s i)) {s : σ}
    {is : List ι} (h : Along step C s is) (hs : P s) : P (run step s is) := by
  induction is generalizing s with
  | nil => exact hs
  | cons i is ih => exact ih h.2 (hinv s i hs h.1)

end

end

end Runs
