import TrustForge.Foundation.Program

/-!
# Formats

A parser is a program whose state is the input that is left.  It is exact for a format,
given by the valid results and how each is printed, when it accepts the printed valid
results in front of anything, and nothing else.
-/

namespace TrustForge.Format

open List
open Program (bind_eq_ok_iff times collect)

variable {ε κ α β γ : Type}

/-- Success means that the input starts with the printed result. -/
def Exact (parser : Program ε (List κ) α) (Valid : α → Prop) (print : α → List κ) : Prop :=
  ∀ input a rest, parser input = .ok (a, rest) ↔ Valid a ∧ input = print a ++ rest

section

variable {p : Program ε (List κ) α} {Valid : α → Prop} {print : α → List κ}

/-- Nothing is read that is not valid. -/
theorem exact_throw {e : ε} {Never : α → Prop} (never : ∀ a, ¬Never a) :
    Exact (throw e : Program ε (List κ) α) Never print := by
  intro input a rest
  constructor
  · intro read
    exact absurd read nofun
  · intro valid
    exact absurd valid.1 (never a)

theorem exact_pure {a : α} (empty : print a = []) :
    Exact (pure a : Program ε (List κ) α) (· = a) print := by
  intro input b rest
  constructor
  · intro read
    cases read
    exact ⟨rfl, by rw [empty, nil_append]⟩
  · rintro ⟨same, split⟩
    rw [same, empty, nil_append] at split
    rw [split, same]
    rfl

theorem Exact.of_iff {Valid' : α → Prop} (exact : Exact p Valid print)
    (same : ∀ a, Valid' a ↔ Valid a) : Exact p Valid' print := by
  intro input a rest
  rw [exact, same]

theorem Exact.map {f : α → β} {Valid' : β → Prop} {print' : β → List κ}
    (exact : Exact p Valid print) (prints : ∀ a, Valid a → print' (f a) = print a)
    (valid : ∀ b, Valid' b ↔ ∃ a, Valid a ∧ f a = b) : Exact (f <$> p) Valid' print' := by
  intro input b rest
  rw [map_eq_pure_bind, bind_eq_ok_iff, valid]
  constructor
  · rintro ⟨a, between, read, done⟩
    cases done
    rcases (exact _ _ _).mp read with ⟨validA, split⟩
    exact ⟨⟨a, validA, rfl⟩, by rw [split, prints a validA]⟩
  · rintro ⟨⟨a, validA, same⟩, split⟩
    subst same
    exact ⟨a, rest, (exact _ _ _).mpr ⟨validA, by rw [split, prints a validA]⟩, rfl⟩

theorem Exact.bind {q : α → Program ε (List κ) β} {Valid' : β → Prop} {print' : β → List κ}
    (first : Exact p Valid print) (Next : α → β → Prop) (printNext : α → β → List κ)
    (next : ∀ a, Valid a → Exact (q a) (Next a) (printNext a))
    (prints : ∀ a b, Valid a → Next a b → print' b = print a ++ printNext a b)
    (valid : ∀ b, Valid' b ↔ ∃ a, Valid a ∧ Next a b) : Exact (p >>= q) Valid' print' := by
  intro input b rest
  rw [bind_eq_ok_iff, valid]
  constructor
  · rintro ⟨a, between, read, readNext⟩
    rcases (first _ _ _).mp read with ⟨validA, split⟩
    rcases (next a validA _ _ _).mp readNext with ⟨validB, splitNext⟩
    refine ⟨⟨a, validA, validB⟩, ?_⟩
    rw [split, splitNext, prints a b validA validB, append_assoc]
  · rintro ⟨⟨a, validA, validB⟩, split⟩
    refine ⟨a, printNext a b ++ rest, (first _ _ _).mpr ⟨validA, ?_⟩,
      (next a validA _ _ _).mpr ⟨validB, rfl⟩⟩
    rw [split, prints a b validA validB, append_assoc]

theorem Exact.ite {c : Prop} [Decidable c] {q : Program ε (List κ) α}
    (yes : c → Exact p Valid print) (no : ¬c → Exact q Valid print) :
    Exact (if c then p else q) Valid print := by
  by_cases holds : c
  · rw [if_pos holds]
    exact yes holds
  · rw [if_neg holds]
    exact no holds

theorem Exact.times (exact : Exact p Valid print) (n : Nat) :
    Exact (times p n) (fun xs => xs.length = n ∧ ∀ x ∈ xs, Valid x) (List.flatMap print) := by
  induction n with
  | zero =>
    have empty : Exact (pure [] : Program ε (List κ) (List α)) (· = []) (List.flatMap print) :=
      exact_pure rfl
    intro input xs rest
    rw [Program.times, empty]
    constructor
    · rintro ⟨same, split⟩
      subst same
      exact ⟨⟨rfl, by simp⟩, split⟩
    · rintro ⟨⟨length, _⟩, split⟩
      exact ⟨length_eq_zero_iff.mp length, split⟩
  | succ n ih =>
    intro input xs rest
    rw [Program.times, bind_eq_ok_iff]
    constructor
    · rintro ⟨x, between, read, readRest⟩
      rcases bind_eq_ok_iff.mp readRest with ⟨later, afterLater, readLater, done⟩
      cases done
      rcases (exact _ _ _).mp read with ⟨valid, split⟩
      rcases (ih _ _ _).mp readLater with ⟨⟨length, validLater⟩, splitLater⟩
      refine ⟨⟨by rw [length_cons, length], ?_⟩, ?_⟩
      · exact forall_mem_cons.mpr ⟨valid, validLater⟩
      · rw [split, splitLater, flatMap_cons, append_assoc]
    · rintro ⟨⟨length, valid⟩, split⟩
      cases xs with
      | nil => contradiction
      | cons x xs =>
        rcases forall_mem_cons.mp valid with ⟨validX, validLater⟩
        rw [flatMap_cons, append_assoc] at split
        refine ⟨x, xs.flatMap print ++ rest, (exact _ _ _).mpr ⟨validX, split⟩, ?_⟩
        exact bind_eq_ok_iff.mpr ⟨xs, rest,
          (ih _ _ _).mpr ⟨⟨Nat.succ.inj length, validLater⟩, rfl⟩, rfl⟩

end

/-! ## Sequences up to a stop mark -/

/-- Repeat a step until it reads the stop mark; the input bounds the number of steps. -/
def untilStop (stuck : Program ε (List κ) (List α)) (step : Program ε (List κ) (Option α)) :
    Program ε (List κ) (List α) :=
  fun input => collect stuck step (input.length + 1) input

section

variable {step : Program ε (List κ) (Option α)} {Valid : α → Prop} {print : α → List κ}
  {mark : List κ}

/-- What a step reads: the mark, or one valid element. -/
def ExactStep (step : Program ε (List κ) (Option α)) (mark : List κ) (Valid : α → Prop)
    (print : α → List κ) : Prop :=
  Exact step (fun found => ∀ a ∈ found, Valid a) fun found => found.elim mark print

section

variable (exact : ExactStep step mark Valid print)

include exact

section

variable (nonempty : ∀ a, Valid a → print a ≠ [])

include nonempty

/-- A step that reads an element uses up input. -/
theorem ExactStep.decreasing {input rest : List κ} {a : α}
    (read : step input = .ok (some a, rest)) : rest.length < input.length := by
  rcases (exact _ _ _).mp read with ⟨valid, split⟩
  have positive := length_pos_of_ne_nil (nonempty a (valid a rfl))
  rw [split, length_append]
  exact Nat.lt_add_of_pos_left positive

theorem exact_collect (stuck : Program ε (List κ) (List α)) (fuel : Nat)
    (input : List κ) (enough : input.length < fuel) (xs : List α) (rest : List κ) :
    collect stuck step fuel input = .ok (xs, rest) ↔
      (∀ x ∈ xs, Valid x) ∧ input = xs.flatMap print ++ mark ++ rest := by
  induction fuel generalizing input xs with
  | zero => exact absurd enough (Nat.not_lt_zero _)
  | succ fuel ih =>
    rw [collect, bind_eq_ok_iff]
    -- One element less leaves less input, so the fuel stays enough.
    have shorter : ∀ a between, Valid a → input = print a ++ between → between.length < fuel := by
      intro a between valid split
      have positive := length_pos_of_ne_nil (nonempty a valid)
      rw [split, length_append] at enough
      omega
    constructor
    · rintro ⟨found, between, read, continued⟩
      rcases (exact _ _ _).mp read with ⟨valid, split⟩
      cases found with
      | none =>
        cases continued
        exact ⟨by simp, split⟩
      | some a =>
        have validA := valid a rfl
        rcases bind_eq_ok_iff.mp continued with ⟨later, afterLater, readLater, done⟩
        cases done
        rcases (ih between (shorter a between validA split) _).mp readLater with
          ⟨validLater, splitLater⟩
        refine ⟨forall_mem_cons.mpr ⟨validA, validLater⟩, ?_⟩
        rw [split, splitLater]
        simp
    · rintro ⟨valid, split⟩
      cases xs with
      | nil => exact ⟨none, rest, (exact _ _ _).mpr ⟨by simp, split⟩, rfl⟩
      | cons x xs =>
        rcases forall_mem_cons.mp valid with ⟨validX, validLater⟩
        rw [flatMap_cons, append_assoc, append_assoc, ← append_assoc (xs.flatMap print)] at split
        have small := shorter x _ validX split
        refine ⟨some x, _, (exact _ _ _).mpr ⟨by simpa using validX, split⟩, ?_⟩
        exact bind_eq_ok_iff.mpr ⟨xs, rest, (ih _ small xs).mpr ⟨validLater, rfl⟩, rfl⟩

theorem exact_untilStop (stuck : Program ε (List κ) (List α)) :
    Exact (untilStop stuck step) (fun xs => ∀ x ∈ xs, Valid x)
      fun xs => xs.flatMap print ++ mark := by
  intro input xs rest
  exact exact_collect exact nonempty stuck _ input (Nat.lt_succ_self _) xs rest

end

end

end

end TrustForge.Format
