import Mathlib.Data.List.Basic

/-!
# UTF-16

The code units of characters.  A character beyond the first plane has two, a leading and a
trailing surrogate, and no other character has a surrogate among its units.
-/

namespace TrustForge.Utf16

open List

/-- The code units of a character. -/
def units (c : Char) : List Nat :=
  if c.toNat < 0x10000 then [c.toNat]
  else [0xd800 + (c.toNat - 0x10000) / 0x400, 0xdc00 + (c.toNat - 0x10000) % 0x400]

theorem units_ne_nil (c : Char) : units c ≠ [] := by
  unfold units
  split <;> exact cons_ne_nil _ _

/-- A character is not a surrogate, so the first unit tells how many there are. -/
theorem units_append_inj {c d : Char} {rest others : List Nat}
    (same : units c ++ rest = units d ++ others) : c = d ∧ rest = others := by
  have valid : ∀ e : Char, e.toNat < 0xd800 ∨ 0xdfff < e.toNat ∧ e.toNat < 0x110000 :=
    fun e => e.valid
  have left := valid c
  have right := valid d
  rw [← Char.toNat_inj]
  unfold units at same
  split at same <;> split at same <;>
    simp only [cons_append, cons.injEq] at same
  · exact same
  · omega
  · omega
  · exact ⟨by omega, same.2.2⟩

theorem flatMap_units_injective : Function.Injective fun s : List Char => s.flatMap units := by
  intro s
  induction s with
  | nil =>
    intro t same
    cases t with
    | nil => rfl
    | cons d t => exact absurd (append_eq_nil_iff.mp same.symm).1 (units_ne_nil d)
  | cons c s ih =>
    intro t same
    cases t with
    | nil => exact absurd (append_eq_nil_iff.mp same).1 (units_ne_nil c)
    | cons d t =>
      rcases units_append_inj same with ⟨first, rest⟩
      rw [first, ih rest]

end TrustForge.Utf16
