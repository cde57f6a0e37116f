import Mathlib.Data.List.Forall2

/-!
# Programs with state and failure

A program takes a state to a result and a new state, or fails.  It refines another
program when, from related states, both fail in related ways or both succeed with
related results in related states.  The rules follow the ways programs are put
together, so that two programs of the same shape are compared piece by piece.
-/

namespace TrustForge

/-- A program over the state `σ` that may fail with an `ε`. -/
abbrev Program (ε σ α : Type) := StateT σ (Except ε) α

namespace Program

variable {ε φ σ τ α β γ δ : Type}

/-! ## Loops -/

/-- Run the body a fixed number of times and collect its results. -/
def times (body : Program ε σ α) : Nat → Program ε σ (List α)
  | 0 => pure []
  | n + 1 => do
    let x ← body
    let xs ← times body n
    pure (x :: xs)

/-- Run the step until it returns nothing and collect its results.  The fuel bounds the
number of steps; without fuel the loop does `stuck`. -/
def collect (stuck : Program ε σ (List α)) (step : Program ε σ (Option α)) :
    Nat → Program ε σ (List α)
  | 0 => stuck
  | fuel + 1 => do
    match ← step with
    | none => pure []
    | some x =>
      let xs ← collect stuck step fuel
      pure (x :: xs)

/-! ## State -/

theorem get_bind_apply (f : σ → Program ε σ α) (s : σ) : (get >>= f) s = f s s :=
  rfl

theorem bind_apply (p : Program ε σ α) (q : α → Program ε σ β) (s : σ) :
    (p >>= q) s = (p s).bind fun result => q result.1 result.2 :=
  rfl

variable {p : Program ε σ α}

theorem bind_eq_ok_iff {q : α → Program ε σ β} {s t : σ} {b : β} :
    (p >>= q) s = .ok (b, t) ↔ ∃ a between, p s = .ok (a, between) ∧ q a between = .ok (b, t) := by
  rw [bind_apply]
  cases p s with
  | error e => simp [Except.bind]
  | ok result =>
    rcases result with ⟨a, between⟩
    simp [Except.bind]

theorem liftM_eq_ok_iff {x : Except ε α} {s t : σ} {a : α} :
    (liftM x : Program ε σ α) s = .ok (a, t) ↔ x = .ok a ∧ t = s := by
  cases x with
  | error e => exact iff_of_false nofun (fun run => nomatch run.1)
  | ok b =>
    constructor
    · intro run
      cases run
      exact ⟨rfl, rfl⟩
    · rintro ⟨same, rfl⟩
      cases same
      rfl

theorem liftM_bind_eq_ok_iff {x : Except ε α} {q : α → Program ε σ β} {s t : σ} {b : β} :
    ((liftM x : Program ε σ α) >>= q) s = .ok (b, t) ↔ ∃ a, x = .ok a ∧ q a s = .ok (b, t) := by
  rw [bind_eq_ok_iff]
  constructor
  · rintro ⟨a, between, run, next⟩
    obtain ⟨succeeded, rfl⟩ := liftM_eq_ok_iff.mp run
    exact ⟨a, succeeded, next⟩
  · rintro ⟨a, succeeded, next⟩
    exact ⟨a, s, liftM_eq_ok_iff.mpr ⟨succeeded, rfl⟩, next⟩

/-! ## Refinement -/

/-- Outcomes that agree: related failures, or related results and states. -/
inductive Agrees (R : σ → τ → Prop) (E : ε → φ → Prop) (Q : α → β → Prop) :
    Except ε (α × σ) → Except φ (β × τ) → Prop where
  | ok {a b s t} : Q a b → R s t → Agrees R E Q (.ok (a, s)) (.ok (b, t))
  | error {e f} : E e f → Agrees R E Q (.error e) (.error f)

/-- From related states the outcomes agree. -/
def Refines (R : σ → τ → Prop) (E : ε → φ → Prop) (Q : α → β → Prop) (p : Program ε σ α)
    (q : Program φ τ β) : Prop :=
  ∀ s t, R s t → Agrees R E Q (p s) (q t)

section

variable {R : σ → τ → Prop} {E : ε → φ → Prop} {Q : α → β → Prop}

variable {Q' : γ → δ → Prop} {q : Program φ τ β}

/-- Sequencing, with the states in between at hand. -/
theorem Agrees.bind {f : α → Program ε σ γ} {g : β → Program φ τ δ} {s : σ} {t : τ}
    (first : Agrees R E Q (p s) (q t))
    (next : ∀ a s' b t', p s = .ok (a, s') → q t = .ok (b, t') → Q a b → R s' t' →
      Agrees R E Q' (f a s') (g b t')) : Agrees R E Q' ((p >>= f) s) ((q >>= g) t) := by
  simp only [Bind.bind, StateT.bind]
  generalize left : p s = x at first ⊢
  generalize right : q t = y at first ⊢
  cases first with
  | ok results states => exact next _ _ _ _ left right results states
  | error failures => exact .error failures

theorem refines_pure {a : α} {b : β} (related : Q a b) :
    Refines R E Q (pure a) (pure b) :=
  fun _ _ states => .ok related states

theorem refines_throw {e : ε} {f : φ} (related : E e f) :
    Refines R E Q (throw e) (throw f) :=
  fun _ _ _ => .error related

theorem refines_bind {f : α → Program ε σ γ} {g : β → Program φ τ δ} (first : Refines R E Q p q)
    (next : ∀ a b, Q a b → Refines R E Q' (f a) (g b)) : Refines R E Q' (p >>= f) (q >>= g) := by
  intro s t states
  apply (first s t states).bind
  intro a s' b t' _ _ results later
  exact next a b results s' t' later

theorem refines_ite {c d : Prop} [Decidable c] [Decidable d]
    {p p' : Program ε σ α} {q q' : Program φ τ β} (same : c ↔ d)
    (yes : c → Refines R E Q p q) (no : ¬c → Refines R E Q p' q') :
    Refines R E Q (if c then p else p') (if d then q else q') := by
  by_cases holds : c
  · rw [if_pos holds, if_pos (same.mp holds)]
    exact yes holds
  · rw [if_neg holds, if_neg fun other => holds (same.mpr other)]
    exact no holds

theorem refines_map {f : α → γ} {g : β → δ} (first : Refines R E Q p q)
    (results : ∀ a b, Q a b → Q' (f a) (g b)) : Refines R E Q' (f <$> p) (g <$> q) := by
  rw [map_eq_pure_bind, map_eq_pure_bind]
  exact refines_bind first fun a b related => refines_pure (results a b related)

/-- A change of the second result only. -/
theorem refines_map_right {Q' : α → δ → Prop} {g : β → δ} (first : Refines R E Q p q)
    (results : ∀ a b, Q a b → Q' a (g b)) : Refines R E Q' p (g <$> q) := by
  rw [← id_map p]
  exact refines_map first results

theorem refines_times (body : Refines R E Q p q) (n : Nat) :
    Refines R E (List.Forall₂ Q) (times p n) (times q n) := by
  induction n with
  | zero => exact refines_pure .nil
  | succ n ih =>
    apply refines_bind body
    intro x y first
    apply refines_bind ih
    intro xs ys later
    exact refines_pure (.cons first later)

/-- A loop over steps that use up some of a measure.  Enough fuel keeps it from getting
stuck. -/
theorem agrees_collect {p : Program ε σ (Option α)}
    {q : Program φ τ (Option β)} (stuck : Program ε σ (List α)) (stuck' : Program φ τ (List β))
    (measure : τ → Nat) (step : Refines R E (Option.Rel Q) p q)
    (decreasing : ∀ t b t', q t = .ok (some b, t') → measure t' < measure t) (fuel : Nat)
    (s : σ) (t : τ) (states : R s t) (enough : measure t < fuel) :
    Agrees R E (List.Forall₂ Q) (collect stuck p fuel s) (collect stuck' q fuel t) := by
  induction fuel generalizing s t with
  | zero => exact absurd enough (Nat.not_lt_zero _)
  | succ fuel ih =>
    apply (step s t states).bind
    intro found s' found' t' _ stepped related later
    cases related with
    | none => exact .ok .nil later
    | some first =>
      have smaller := decreasing _ _ _ stepped
      apply (ih s' t' later (by omega)).bind
      intro xs s'' ys t'' _ _ rest final
      exact .ok (.cons first rest) final

end

end Program

end TrustForge
