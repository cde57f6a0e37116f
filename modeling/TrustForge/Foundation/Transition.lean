import Mathlib.Logic.Relation

/-!
# Runs of a transition system

A run is the reflexive and transitive closure of a step relation.  The rules below
carry a property of single steps to whole runs.  Steps that read an input and give an
output have runs of their own; two such systems agree if one simulates the other.
-/

namespace TrustForge.Transition

open Relation (ReflTransGen)

variable {σ : Type} {Step : σ → σ → Prop} {Inv : σ → Prop} {s t : σ}

/-- What every step keeps, every run keeps. -/
theorem invariant_run (keep : ∀ s t, Step s t → Inv s → Inv t) (run : ReflTransGen Step s t)
    (start : Inv s) : Inv t := by
  induction run with
  | refl => exact start
  | tail _ last ih => exact keep _ _ last ih

/-- The same for steps that keep the invariant as long as a bound holds.  The bound is
known at the end of the run and is handed back step by step. -/
theorem invariant_run_within {Bound : σ → Prop} (back : ∀ s t, Step s t → Bound t → Bound s)
    (keep : ∀ s t, Step s t → Bound t → Inv s → Inv t) (run : ReflTransGen Step s t)
    (bound : Bound t) (start : Inv s) : Inv t := by
  induction run with
  | refl => exact start
  | tail _ last ih => exact keep _ _ last bound (ih (back _ _ last bound))

/-! ## Runs with inputs and outputs -/

section

variable {τ ι ο : Type} {f : σ → ι → ο × σ} {g : τ → ι → ο × τ}

/-- The outputs of a run. -/
def outputs (step : σ → ι → ο × σ) : σ → List ι → List ο
  | _, [] => []
  | s, input :: inputs => (step s input).1 :: outputs step (step s input).2 inputs

/-- Related states that answer every input alike, and stay related, have the same outputs. -/
theorem outputs_eq {R : σ → τ → Prop} {inputs : List ι}
    (simulates : ∀ s t, ∀ input ∈ inputs, R s t →
      (f s input).1 = (g t input).1 ∧ R (f s input).2 (g t input).2)
    {s : σ} {t : τ} (related : R s t) : outputs f s inputs = outputs g t inputs := by
  induction inputs generalizing s t with
  | nil => rfl
  | cons input inputs ih =>
    have first := simulates s t input List.mem_cons_self related
    have rest := ih (fun s t next mem => simulates s t next (List.mem_cons_of_mem _ mem)) first.2
    rw [outputs, outputs, first.1, rest]

/-- Reading something off the outputs is a run of its own. -/
theorem map_outputs {υ : Type} (read : ο → υ) (s : σ) (inputs : List ι) :
    (outputs f s inputs).map read =
      outputs (fun s input => (read (f s input).1, (f s input).2)) s inputs := by
  induction inputs generalizing s with
  | nil => rfl
  | cons input inputs ih => rw [outputs, List.map_cons, ih, outputs]

end

end TrustForge.Transition
