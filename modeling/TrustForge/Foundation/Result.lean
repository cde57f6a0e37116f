import Mathlib.Data.List.Forall2

/-!
# Results

Inversion of computations in `Except`: what the end of a sequence says about its
parts.
-/

namespace TrustForge.Result

open List Except

variable {ε α β : Type}

variable {x : Except ε α}

theorem isOk_iff : x.isOk = true ↔ ∃ a, x = .ok a := by
  cases x with
  | error e => exact iff_of_false nofun nofun
  | ok a => exact iff_of_true rfl ⟨a, rfl⟩

variable {f : α → Except ε β}

theorem bind_eq_ok {b : β} (succeeded : (x >>= f) = .ok b) : ∃ a, x = .ok a ∧ f a = .ok b := by
  cases x with
  | error e => contradiction
  | ok a => exact ⟨a, rfl, succeeded⟩

theorem bind_eq_ok_iff {b : β} : (x >>= f) = .ok b ↔ ∃ a, x = .ok a ∧ f a = .ok b := by
  constructor
  · exact bind_eq_ok
  · rintro ⟨a, first, rest⟩
    rw [first]
    exact rest

theorem bind_eq_error_iff {e : ε} :
    (x >>= f) = .error e ↔ x = .error e ∨ ∃ a, x = .ok a ∧ f a = .error e := by
  cases x with
  | error | ok => simp [bind, Except.bind]

/-- A guard that refuses with an error. -/
theorem ite_eq_ok {p : Prop} [Decidable p] {e : ε} {a : α}
    (succeeded : (if p then .error e else x) = .ok a) : ¬p ∧ x = .ok a := by
  by_cases refused : p
  · rw [if_pos refused] at succeeded
    contradiction
  · rw [if_neg refused] at succeeded
    exact ⟨refused, succeeded⟩

theorem ite_eq_ok_iff {p : Prop} [Decidable p] {e : ε} {a : α} :
    (if p then .error e else x) = .ok a ↔ ¬p ∧ x = .ok a := by
  constructor
  · exact ite_eq_ok
  · rintro ⟨allowed, succeeded⟩
    rw [if_neg allowed, succeeded]

def okOr (found : Option α) (e : ε) : Except ε α :=
  match found with
  | some a => .ok a
  | none => .error e

theorem okOr_eq_ok_iff {found : Option α} {e : ε} {a : α} :
    okOr found e = .ok a ↔ found = some a := by
  cases found with
  | none => exact iff_of_false nofun nofun
  | some b =>
    exact ⟨fun same => congrArg some (ok.inj same),
      fun same => congrArg Except.ok (Option.some.inj same)⟩

/-- Go on where the condition holds and fail otherwise. -/
def require (condition : Prop) [Decidable condition] (e : ε) : Except ε Unit :=
  if condition then .ok () else .error e

theorem require_eq_ok_iff {condition : Prop} [Decidable condition] {e : ε} {u : Unit} :
    require condition e = .ok u ↔ condition := by
  by_cases holds : condition
  · rw [require, if_pos holds]
    exact iff_of_true rfl holds
  · rw [require, if_neg holds]
    exact iff_of_false nofun holds

variable {xs : List α}

theorem forM_eq_ok_iff {f : α → Except ε Unit} {u : Unit} :
    xs.forM f = .ok u ↔ ∀ x ∈ xs, f x = .ok () := by
  induction xs with
  | nil => exact iff_of_true rfl (forall_mem_nil _)
  | cons x xs ih =>
    rw [forall_mem_cons, ← ih]
    exact bind_eq_ok_iff.trans ⟨fun ⟨_, both⟩ => both, fun both => ⟨(), both⟩⟩

theorem mapM_eq_ok_iff {ys : List β} :
    xs.mapM f = .ok ys ↔ List.Forall₂ (fun x y => f x = .ok y) xs ys := by
  induction xs generalizing ys with
  | nil => simp [pure, Except.pure]
  | cons x xs ih =>
    rw [mapM_cons]
    simp only [bind_eq_ok_iff, ih, forall₂_cons_left_iff]
    constructor
    · rintro ⟨y, first, rest, later, ended⟩
      exact ⟨y, rest, first, later, (ok.inj ended).symm⟩
    · rintro ⟨y, rest, first, later, rfl⟩
      exact ⟨y, first, rest, later, rfl⟩

theorem exists_of_forall₂ {R : α → β → Prop} {ys : List β} (related : List.Forall₂ R xs ys) {y : β}
    (member : y ∈ ys) : ∃ x ∈ xs, R x y := by
  induction related with
  | nil => contradiction
  | cons first _ ih =>
    rcases mem_cons.mp member with equal | later
    · exact ⟨_, mem_cons_self, equal ▸ first⟩
    · rcases ih later with ⟨x, listed, here⟩
      exact ⟨x, mem_cons_of_mem _ listed, here⟩

theorem exists_mapM_eq_ok_iff : (∃ ys, xs.mapM f = .ok ys) ↔ ∀ x ∈ xs, ∃ y, f x = .ok y := by
  induction xs with
  | nil => simp [pure, Except.pure]
  | cons x xs ih =>
    simp only [mapM_cons, bind_eq_ok_iff, forall_mem_cons, ← ih]
    constructor
    · rintro ⟨_, y, first, ys, rest, _⟩
      exact ⟨⟨y, first⟩, ys, rest⟩
    · rintro ⟨⟨y, first⟩, ys, rest⟩
      exact ⟨_, y, first, ys, rest, rfl⟩

theorem mapError_eq_ok_iff {ε' : Type} {f : ε → ε'} {a : α} : x.mapError f = .ok a ↔ x = .ok a := by
  cases x with
  | error e => exact iff_of_false nofun nofun
  | ok b =>
    exact ⟨fun same => congrArg Except.ok (ok.inj same),
      fun same => congrArg Except.ok (ok.inj same)⟩

end TrustForge.Result
