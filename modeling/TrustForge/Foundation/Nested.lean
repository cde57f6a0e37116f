import Mathlib.Tactic.Basic

/-!
# Companions of nested functions

A function of a nested data type is defined together with companions that walk through
its lists.  A companion that goes through the whole list is the function at each member.
-/

namespace TrustForge.Nested

open List

variable {α β : Type}

theorem eq_map {walk : List α → List β} {f : α → β} (nil : walk [] = [])
    (cons : ∀ x xs, walk (x :: xs) = f x :: walk xs) {xs : List α} : walk xs = xs.map f := by
  induction xs with
  | nil => exact nil
  | cons x xs ih => rw [cons, ih, map_cons]

theorem iff_forall_mem {walk : List α → Prop} {p : α → Prop} (nil : walk [])
    (cons : ∀ x xs, walk (x :: xs) ↔ p x ∧ walk xs) {xs : List α} : walk xs ↔ ∀ x ∈ xs, p x := by
  induction xs with
  | nil => exact iff_of_true nil (forall_mem_nil p)
  | cons x xs ih => rw [cons, ih, forall_mem_cons]

theorem all_iff {walk : List α → Bool} {p : α → Bool} (nil : walk [] = true)
    (cons : ∀ x xs, walk (x :: xs) = (p x && walk xs)) {xs : List α} :
    walk xs = true ↔ ∀ x ∈ xs, p x = true := by
  induction xs with
  | nil => exact iff_of_true nil (forall_mem_nil _)
  | cons x xs ih => rw [cons, Bool.and_eq_true, ih, forall_mem_cons]

end TrustForge.Nested
