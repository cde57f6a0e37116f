import Mathlib.Data.String.Basic
import TrustForge.Foundation.AssocMap
import TrustForge.Foundation.Nested

/-!
# JSON values

The data model of `serde_json::Value`.  Numbers keep the three-way split of the
crate: unsigned, negative and floating point.  Floats are finite binary64 bit
patterns, so that the only operations the code performs on them (a zero test, an
integrality test and a truncation) are exact integer computations.

Objects are association lists in insertion order, which is how the workspace
builds the crate.
-/

namespace TrustForge.Json

open List

/-- A finite binary64 number, by its bit pattern. -/
structure F64 where
  bits : UInt64
  finite : bits.toNat / 2 ^ 52 % 2 ^ 11 ≠ 2047
  deriving DecidableEq

namespace F64

variable (f : F64)

/-- The sign bit. -/
def negative : Bool :=
  decide (2 ^ 63 ≤ f.bits.toNat)

/-- The biased exponent field. -/
def exponent : Nat :=
  f.bits.toNat / 2 ^ 52 % 2 ^ 11

/-- The significand with its implicit leading bit. -/
def significand : Nat :=
  if f.exponent = 0 then f.bits.toNat % 2 ^ 52 else f.bits.toNat % 2 ^ 52 + 2 ^ 52

/-- The magnitude is `significand * 2 ^ scale / 2 ^ 1075`. -/
def scale : Nat :=
  if f.exponent = 0 then 1 else f.exponent

/-- `f == 0.0`, for both zeros. -/
def isZero : Bool :=
  f.significand == 0

/-- `f.fract() == 0.0`. -/
def integral : Bool :=
  f.significand * 2 ^ f.scale % 2 ^ 1075 == 0

/-- The magnitude rounded towards zero. -/
def truncated : Nat :=
  f.significand * 2 ^ f.scale / 2 ^ 1075

/-- The number one. -/
def one : F64 where
  bits := 0x3FF0000000000000
  finite := by decide

/-- The zero with its sign bit set. -/
def negZero : F64 where
  bits := 0x8000000000000000
  finite := by decide

end F64

inductive Number where
  | posInt (value : Fin (2 ^ 64))
  /-- The negative number `-(value + 1)`. -/
  | negInt (value : Fin (2 ^ 63))
  | float (value : F64)
  deriving DecidableEq

inductive Value where
  | null
  | bool (b : Bool)
  | number (n : Number)
  | string (s : String)
  | array (xs : List Value)
  | object (entries : List (String × Value))

namespace Value

/-- `Value::get` with a string index. -/
def get? (key : String) : Value → Option Value
  | .object entries => AssocMap.get? key entries
  | _ => none

def asArray : Value → Option (List Value)
  | .array xs => some xs
  | _ => none

def asStr : Value → Option String
  | .string s => some s
  | _ => none

mutual

/-- Nesting depth: the number of arrays and objects around the innermost value. -/
def depth : Value → Nat
  | .null => 0
  | .bool _ => 0
  | .number _ => 0
  | .string _ => 0
  | .array xs => depthOfArray xs + 1
  | .object entries => depthOfObject entries + 1

def depthOfArray : List Value → Nat
  | [] => 0
  | x :: xs => max x.depth (depthOfArray xs)

def depthOfObject : List (String × Value) → Nat
  | [] => 0
  | (_, v) :: rest => max v.depth (depthOfObject rest)

end

mutual

/-- The value with every string and every key rewritten. -/
def mapText (f : String → String) : Value → Value
  | .null => .null
  | .bool b => .bool b
  | .number n => .number n
  | .string s => .string (f s)
  | .array xs => .array (mapTextArray f xs)
  | .object entries => .object (mapTextObject f entries)

def mapTextArray (f : String → String) : List Value → List Value
  | [] => []
  | x :: xs => x.mapText f :: mapTextArray f xs

def mapTextObject (f : String → String) : List (String × Value) → List (String × Value)
  | [] => []
  | (key, v) :: rest => (f key, v.mapText f) :: mapTextObject f rest

end

mutual

/-- No number in the value is a float. -/
def floatFree : Value → Bool
  | .null => true
  | .bool _ => true
  | .number (.float _) => false
  | .number (.posInt _) => true
  | .number (.negInt _) => true
  | .string _ => true
  | .array xs => floatFreeArray xs
  | .object entries => floatFreeObject entries

def floatFreeArray : List Value → Bool
  | [] => true
  | x :: xs => x.floatFree && floatFreeArray xs

def floatFreeObject : List (String × Value) → Bool
  | [] => true
  | (_, v) :: rest => v.floatFree && floatFreeObject rest

end

theorem floatFree_array_iff (xs : List Value) :
    (array xs).floatFree = true ↔ ∀ x ∈ xs, x.floatFree = true := by
  rw [floatFree, Nested.all_iff rfl fun _ _ => rfl]

theorem floatFree_object_iff (entries : List (String × Value)) :
    (object entries).floatFree = true ↔ ∀ entry ∈ entries, entry.2.floatFree = true := by
  rw [floatFree, Nested.all_iff rfl fun _ _ => rfl]

theorem depth_array_lt_iff (xs : List Value) (n : Nat) :
    (array xs).depth < n ↔ 1 < n ∧ ∀ x ∈ xs, x.depth < n - 1 := by
  rw [depth]
  induction xs with
  | nil => simp [depthOfArray]
  | cons x xs ih =>
    have split : max x.depth (depthOfArray xs) + 1 < n ↔
        x.depth < n - 1 ∧ depthOfArray xs + 1 < n := by omega
    rw [depthOfArray, forall_mem_cons, split, ih, and_left_comm]

theorem depth_object_lt_iff (entries : List (String × Value)) (n : Nat) :
    (object entries).depth < n ↔ 1 < n ∧ ∀ entry ∈ entries, entry.2.depth < n - 1 := by
  rw [depth]
  induction entries with
  | nil => simp [depthOfObject]
  | cons entry rest ih =>
    have split : max entry.2.depth (depthOfObject rest) + 1 < n ↔
        entry.2.depth < n - 1 ∧ depthOfObject rest + 1 < n := by omega
    rw [depthOfObject, forall_mem_cons, split, ih, and_left_comm]

/-- Induction with one hypothesis for every item and every entry. -/
@[elab_as_elim]
theorem memberInduction {motive : Value → Prop} (null : motive .null) (bool : ∀ b, motive (.bool b))
    (number : ∀ n, motive (.number n)) (string : ∀ s, motive (.string s))
    (array : ∀ xs, (∀ x ∈ xs, motive x) → motive (.array xs))
    (object : ∀ entries, (∀ entry ∈ entries, motive entry.2) → motive (.object entries))
    (v : Value) : motive v :=
  @Value.rec motive (fun xs => ∀ x ∈ xs, motive x)
    (fun entries => ∀ entry ∈ entries, motive entry.2) (fun entry => motive entry.2)
    null bool number string array object
    (forall_mem_nil _) (fun _ _ first rest => forall_mem_cons.mpr ⟨first, rest⟩)
    (forall_mem_nil _) (fun _ _ first rest => forall_mem_cons.mpr ⟨first, rest⟩)
    (fun _ _ inside => inside) v

end Value

end TrustForge.Json
