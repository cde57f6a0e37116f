import Mathlib.Tactic.Ring

/-!
# Binary64 numbers by their bits

The magnitude of a finite binary64 number is counted in units of `2 ^ -1075`, half of
the smallest positive one, so that it is a natural number for every bit pattern.
-/

namespace TrustForge.Binary64

open Nat

variable (bits : UInt64)

/-- The biased exponent field. -/
def exponent : Nat :=
  bits.toNat / 2 ^ 52 % 2 ^ 11

/-- The fraction field. -/
def fraction : Nat :=
  bits.toNat % 2 ^ 52

/-- The sign bit. -/
def negative : Bool :=
  decide (2 ^ 63 ≤ bits.toNat)

def isNan : Bool :=
  exponent bits == 2047 && fraction bits != 0

/-- The magnitude of a finite number in units of `2 ^ -1075`. -/
def magnitude : Nat :=
  if exponent bits = 0 then fraction bits * 2
  else (fraction bits + 2 ^ 52) * 2 ^ exponent bits

/-- A finite number that is an integer. -/
def Denotes (i : Int) : Prop :=
  exponent bits ≠ 2047 ∧
    (if negative bits then -(magnitude bits : Int) else magnitude bits) = i * 2 ^ 1075

def infinity : UInt64 := 0x7FF0000000000000

/-- The quiet NaN without payload. -/
def nan : UInt64 := 0x7FF8000000000000

/-- Flip the sign bit. -/
def negate : UInt64 :=
  bits + 0x8000000000000000

/-- The bits of the normal number `m * 2 ^ shift` in units of `2 ^ -1075`. -/
def scaled (m shift : Nat) : UInt64 :=
  if m = 0 then 0
  else UInt64.ofNat ((m.log2 + shift - 52) * 2 ^ 52 + (m * 2 ^ 52 / 2 ^ m.log2 - 2 ^ 52))

/-- The bits of an integer that a binary64 number holds exactly. -/
def ofInt (i : Int) : UInt64 :=
  if i < 0 then negate (scaled i.natAbs 1075) else scaled i.natAbs 1075

/-! ## Scaled integers -/

/-- The significand of a positive number that is a multiple of its last binary place. -/
theorem significand_bounds {m : Nat} (positive : m ≠ 0) :
    2 ^ 52 ≤ m * 2 ^ 52 / 2 ^ m.log2 ∧ m * 2 ^ 52 / 2 ^ m.log2 < 2 ^ 53 := by
  have powerPositive : 0 < 2 ^ m.log2 := Nat.two_pow_pos _
  have lower : 2 ^ m.log2 ≤ m := Nat.log2_self_le positive
  have upper : m < 2 ^ m.log2 * 2 := by
    have := Nat.lt_log2_self (n := m)
    rwa [pow_succ] at this
  constructor
  · rw [le_div_iff_mul_le powerPositive, mul_comm]
    exact mul_le_mul_right _ lower
  · rw [div_lt_iff_lt_mul powerPositive]
    calc m * 2 ^ 52 < 2 ^ m.log2 * 2 * 2 ^ 52 := mul_lt_mul_of_pos_right upper (by decide)
      _ = 2 ^ 53 * 2 ^ m.log2 := by ring

section

variable {m shift : Nat} (positive : m ≠ 0) (normal : 53 ≤ m.log2 + shift)
  (small : m.log2 + shift ≤ 2098)

include positive normal small

theorem toNat_scaled : (scaled m shift).toNat =
    (m.log2 + shift - 52) * 2 ^ 52 + (m * 2 ^ 52 / 2 ^ m.log2 - 2 ^ 52) := by
  have bounds := significand_bounds positive
  rw [scaled, if_neg positive, UInt64.toNat_ofNat']
  apply mod_eq_of_lt
  omega

theorem exponent_scaled : exponent (scaled m shift) = m.log2 + shift - 52 := by
  have bounds := significand_bounds positive
  rw [exponent, toNat_scaled positive normal small]
  omega

theorem negative_scaled : negative (scaled m shift) = false := by
  have bounds := significand_bounds positive
  rw [negative, toNat_scaled positive normal small, decide_eq_false_iff_not]
  omega

theorem magnitude_scaled (exact : 2 ^ m.log2 ∣ m * 2 ^ 52) :
    magnitude (scaled m shift) = m * 2 ^ shift := by
  have bounds := significand_bounds positive
  have fractionPart : fraction (scaled m shift) + 2 ^ 52 = m * 2 ^ 52 / 2 ^ m.log2 := by
    rw [fraction, toNat_scaled positive normal small]
    omega
  have exponentPart := exponent_scaled positive normal small
  rw [magnitude, if_neg (by omega), fractionPart, exponentPart]
  -- Both sides times the last binary place of the significand.
  apply Nat.eq_of_mul_eq_mul_right (Nat.two_pow_pos 52)
  have powers : 2 ^ (m.log2 + shift - 52) * 2 ^ 52 = 2 ^ m.log2 * 2 ^ shift := by
    rw [← pow_add, ← pow_add, Nat.sub_add_cancel (by omega)]
  calc m * 2 ^ 52 / 2 ^ m.log2 * 2 ^ (m.log2 + shift - 52) * 2 ^ 52
      = m * 2 ^ 52 / 2 ^ m.log2 * (2 ^ m.log2 * 2 ^ shift) := by rw [mul_assoc, powers]
    _ = m * 2 ^ 52 * 2 ^ shift := by rw [← mul_assoc, Nat.div_mul_cancel exact]
    _ = m * 2 ^ shift * 2 ^ 52 := by ring

end

/-! ## Signs -/

variable {bits : UInt64}

section

variable (plain : negative bits = false)

include plain

theorem toNat_negate :
    (negate bits).toNat = bits.toNat + 2 ^ 63 := by
  have small : bits.toNat < 2 ^ 63 := by simpa [negative] using plain
  rw [negate, UInt64.toNat_add]
  exact mod_eq_of_lt (by simp only [UInt64.reduceToNat]; omega)

theorem negative_negate :
    negative (negate bits) = true := by
  rw [negative, toNat_negate plain, decide_eq_true_iff]
  omega

theorem exponent_negate :
    exponent (negate bits) = exponent bits := by
  rw [exponent, exponent, toNat_negate plain]
  omega

theorem magnitude_negate :
    magnitude (negate bits) = magnitude bits := by
  have sameFraction : fraction (negate bits) = fraction bits := by
    rw [fraction, fraction, toNat_negate plain]
    omega
  rw [magnitude, magnitude, exponent_negate plain, sameFraction]

end

/-! ## Integers -/

/-- Integers up to `2 ^ 53` are exact. -/
theorem denotes_ofInt {i : Int} (small : i.natAbs ≤ 2 ^ 53) : Denotes (ofInt i) i := by
  by_cases zero : i = 0
  · subst zero
    exact ⟨by decide, by rw [Int.zero_mul]; decide⟩
  have positive : i.natAbs ≠ 0 := Int.natAbs_ne_zero.mpr zero
  have log : i.natAbs.log2 ≤ 53 := by
    have below : i.natAbs < 2 ^ 54 := by omega
    have := (log2_lt positive).mpr below
    omega
  have exact : 2 ^ i.natAbs.log2 ∣ i.natAbs * 2 ^ 52 := by
    by_cases top : i.natAbs = 2 ^ 53
    · rw [top, log2_two_pow]
      exact ⟨2 ^ 52, rfl⟩
    · have below := (log2_lt positive).mpr (show i.natAbs < 2 ^ 53 by omega)
      exact dvd_trans (pow_dvd_pow 2 (by omega)) (dvd_mul_left _ _)
  have normal : 53 ≤ i.natAbs.log2 + 1075 := by omega
  have inRange : i.natAbs.log2 + 1075 ≤ 2098 := by omega
  have size := magnitude_scaled positive normal inRange exact
  have plain := negative_scaled positive normal inRange
  have field := exponent_scaled positive normal inRange
  by_cases below : i < 0
  · rw [ofInt, if_pos below, Denotes, exponent_negate plain, negative_negate plain,
      magnitude_negate plain, field, size, if_pos rfl]
    refine ⟨by omega, ?_⟩
    rw [cast_mul, Int.ofNat_natAbs_of_nonpos (by omega), cast_pow, cast_ofNat,
      Int.neg_mul, Int.neg_neg]
  · rw [ofInt, if_neg below, Denotes, plain, field, size, if_neg (by decide)]
    refine ⟨by omega, ?_⟩
    rw [cast_mul, Int.natAbs_of_nonneg (by omega), cast_pow, cast_ofNat]

end TrustForge.Binary64
