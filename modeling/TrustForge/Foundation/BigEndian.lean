import Mathlib.Data.List.Induction
import TrustForge.Foundation.Text

/-!
# Big-endian numbers

Fixed-width big-endian bytes of a natural number, and the number a byte string
stands for.
-/

namespace TrustForge.BigEndian

open List

/-- The last `width` base 256 digits of a number, most significant first. -/
def encode : Nat → Nat → Bytes
  | 0, _ => []
  | width + 1, n => encode width (n / 256) ++ [UInt8.ofNat n]

variable (bytes : Bytes)

/-- The number given by big-endian bytes. -/
def decode : Nat :=
  bytes.foldl (fun n byte => n * 256 + byte.toNat) 0

@[simp] theorem length_encode (width n : Nat) : (encode width n).length = width := by
  induction width generalizing n with
  | zero => rfl
  | succ width ih => simp [encode, ih]

theorem decode_append_single (byte : UInt8) :
    decode (bytes ++ [byte]) = decode bytes * 256 + byte.toNat := by
  simp [decode]

theorem decode_encode (width n : Nat) (fits : n < 256 ^ width) : decode (encode width n) = n := by
  induction width generalizing n with
  | zero =>
    have zero : n = 0 := Nat.lt_one_iff.mp fits
    subst zero
    rfl
  | succ width ih =>
    have quotient : n / 256 < 256 ^ width :=
      Nat.div_lt_of_lt_mul (by rwa [pow_succ, mul_comm] at fits)
    rw [encode, decode_append_single, ih _ quotient, UInt8.toNat_ofNat']
    omega

theorem decode_lt : decode bytes < 256 ^ bytes.length := by
  induction bytes using List.reverseRecOn with
  | nil => exact one_pos
  | append_singleton front byte ih =>
    have small := byte.toNat_lt
    rw [decode_append_single, length_append, length_singleton, pow_succ]
    omega

theorem encode_decode : encode bytes.length (decode bytes) = bytes := by
  induction bytes using List.reverseRecOn with
  | nil => rfl
  | append_singleton front byte ih =>
    have small := byte.toNat_lt
    have last : UInt8.ofNat (decode front * 256 + byte.toNat) = byte := by
      apply UInt8.toNat_inj.mp
      rw [UInt8.toNat_ofNat']
      omega
    have others : (decode front * 256 + byte.toNat) / 256 = decode front := by omega
    rw [decode_append_single, length_append, length_singleton, encode, last, others, ih]

/-- Numbers that fit are told apart by their bytes. -/
theorem encode_inj {width n m : Nat} (nFits : n < 256 ^ width) (mFits : m < 256 ^ width)
    (same : encode width n = encode width m) : n = m := by
  rw [← decode_encode width n nFits, same, decode_encode width m mFits]

end TrustForge.BigEndian
