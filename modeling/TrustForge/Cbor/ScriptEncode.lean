import TrustForge.Cbor.RoundTrip
import TrustForge.Cbor.Script

/-!
# The encoder of `cbor.ts`

The TypeScript encoder.  Its headers are those of the Rust encoder.
-/

namespace TrustForge.Cbor.Script

open UInt64 Nat

/-- The bytes of a header, for an argument of at most 64 bits. -/
def headerBytes (major n : Nat) : Bytes :=
  let mt := major <<< 5
  if n < 24 then [.ofNat (mt ||| n)]
  else if n ≤ 0xff then [.ofNat (mt ||| 24), .ofNat n]
  else if n ≤ 0xffff then [.ofNat (mt ||| 25), .ofNat (n >>> 8), .ofNat n]
  else if n ≤ 0xffffffff then
    [.ofNat (mt ||| 26), .ofNat (n >>> 24), .ofNat (n >>> 16), .ofNat (n >>> 8), .ofNat n]
  else
    .ofNat (mt ||| 27) ::
      [56, 48, 40, 32, 24, 16, 8, 0].map fun shift => .ofNat (n >>> shift &&& 0xff)

/-- `Writer.header`.  A `number` above 32 bits is turned into a `bigint`. -/
def header (major : Nat) : Numeric → Except Thrown Bytes
  | .bigint n =>
    if 0xffffffffffffffff < n then .error (.cborError "header argument out of range")
    else .ok (headerBytes major n)
  | .number n =>
    if maxSafeInteger < n then .error (.cborError s!"header argument out of range: {n}")
    else .ok (headerBytes major n)

def encodeInteger (i : Int) : Except Thrown Bytes :=
  if 0 ≤ i then header 0 (.bigint i.toNat)
  else
    let magnitude := (-i - 1).toNat
    if 0xffffffffffffffff < magnitude then .error (.cborError "integer below -2^64")
    else header 1 (.bigint magnitude)

/-- The integer that a number is, if it is one. -/
def JsNumber.toInt? (n : JsNumber) : Option Int :=
  let magnitude := Binary64.magnitude n.bits
  if Binary64.exponent n.bits = 2047 ∨ magnitude % 2 ^ 1075 ≠ 0 then none
  else if Binary64.negative n.bits then some (-(magnitude / 2 ^ 1075))
  else some (magnitude / 2 ^ 1075)

/-- The number branch of `encodeInto`: safe integers other than -0, or a double. -/
def encodeNumber (n : JsNumber) : Except Thrown Bytes :=
  match n.toInt?.filter fun i => i.natAbs ≤ maxSafeInteger && n.bits != Binary64.negate 0 with
  | some i => encodeInteger i
  | none => .ok (0xfb :: BigEndian.encode 8 n.bits.toNat)

/-- The string branch of `encodeInto`. -/
def encodeString (s : String) : Except Thrown Bytes := do
  let front ← header 3 (.number (Text.utf8 s).length)
  .ok (front ++ Text.utf8 s)

mutual

/-- `encodeInto`, as the bytes it appends. -/
def encodeInto (depth : Nat) (value : JsValue) : Except Thrown Bytes :=
  if maxDepth < depth then .error (.cborError "nesting exceeds depth limit")
  else
    match value with
    | .null => .ok [0xf6]
    | .bool b => .ok [if b then 0xf5 else 0xf4]
    | .number n => encodeNumber n
    | .bigint i => encodeInteger i
    | .string s => encodeString s
    | .uint8Array bytes => do
      let front ← header 2 (.number bytes.length)
      .ok (front ++ bytes)
    | .array items => do
      let front ← header 4 (.number items.length)
      let body ← encodeItems (depth + 1) items
      .ok (front ++ body)
    | .map entries => do
      let front ← header 5 (.number entries.length)
      let body ← encodeEntries (depth + 1) entries
      .ok (front ++ body)
    | .tag tag inner => do
      let front ← header 6 tag
      let body ← encodeInto (depth + 1) inner
      .ok (front ++ body)
    | .object properties => do
      let front ← header 5 (.number properties.length)
      let body ← encodeProperties (depth + 1) properties
      .ok (front ++ body)

def encodeItems (depth : Nat) : List JsValue → Except Thrown Bytes
  | [] => .ok []
  | item :: items => do
    let first ← encodeInto depth item
    let rest ← encodeItems depth items
    .ok (first ++ rest)

def encodeEntries (depth : Nat) : List (JsValue × JsValue) → Except Thrown Bytes
  | [] => .ok []
  | (key, value) :: entries => do
    let k ← encodeInto depth key
    let v ← encodeInto depth value
    let rest ← encodeEntries depth entries
    .ok (k ++ v ++ rest)

/-- The properties of a plain object, with their names written as strings. -/
def encodeProperties (depth : Nat) : List (String × JsValue) → Except Thrown Bytes
  | [] => .ok []
  | (name, value) :: properties => do
    let k ← if maxDepth < depth then .error (.cborError "nesting exceeds depth limit")
      else encodeString name
    let v ← encodeInto depth value
    let rest ← encodeProperties depth properties
    .ok (k ++ v ++ rest)

end

def encode (value : JsValue) : Except Thrown Bytes :=
  encodeInto 0 value

/-! ## Headers -/

theorem ofNat_or {major n : Nat} (small : major < 8) (low : n < 32) :
    UInt8.ofNat (major <<< 5 ||| n) = UInt8.ofNat major <<< 5 ||| UInt8.ofNat n := by
  have all : ∀ (m : Fin 8) (k : Fin 32),
      UInt8.ofNat (m.val <<< 5 ||| k.val) = UInt8.ofNat m.val <<< 5 ||| UInt8.ofNat k.val := by
    decide
  exact all ⟨major, small⟩ ⟨n, low⟩

theorem ofNat_and_byte (n : Nat) : UInt8.ofNat (n &&& 0xff) = UInt8.ofNat n := by
  apply UInt8.toNat_inj.mp
  rw [show (0xff : Nat) = 2 ^ 8 - 1 from rfl, and_two_pow_sub_one_eq_mod]
  simp

/-- Big-endian bytes by shifting. -/
theorem encode_eq_map_shift (n : Nat) :
    BigEndian.encode 2 n = [8, 0].map (fun shift => UInt8.ofNat (n >>> shift)) ∧
    BigEndian.encode 4 n = [24, 16, 8, 0].map (fun shift => UInt8.ofNat (n >>> shift)) ∧
    BigEndian.encode 8 n =
      [56, 48, 40, 32, 24, 16, 8, 0].map (fun shift => UInt8.ofNat (n >>> shift)) := by
  refine ⟨?_, ?_, ?_⟩ <;>
    simp [BigEndian.encode, Nat.shiftRight_eq_div_pow, Nat.div_div_eq_div_mul]

/-- Headers are written as in Rust. -/
theorem headerBytes_eq_putHeader {major n : Nat} (small : major < 8) (fits : n < 2 ^ 64) :
    headerBytes major n = putHeader (.ofNat major) (.ofNat n) := by
  have value : (UInt64.ofNat n).toNat = n := toNat_ofNat_of_lt fits
  have byte : (UInt64.ofNat n).toUInt8 = UInt8.ofNat n := UInt8.toNat_inj.mp (by simp)
  rcases encode_eq_map_shift n with ⟨two, four, eight⟩
  unfold headerBytes putHeader
  simp only [lt_iff_toNat_lt, le_iff_toNat_le, UInt64.reduceToNat, value, byte]
  by_cases direct : n < 24
  · rw [if_pos direct, if_pos direct, ofNat_or small (by omega)]
  rw [if_neg direct, if_neg direct]
  by_cases one : n ≤ 255
  · rw [if_pos one, if_pos one, ofNat_or small (by decide)]
    rfl
  rw [if_neg one, if_neg one]
  by_cases isTwo : n ≤ 65535
  · rw [if_pos isTwo, if_pos isTwo, ofNat_or small (by decide), toNat_toUInt16, value,
      mod_eq_of_lt (by omega), two]
    rfl
  rw [if_neg isTwo, if_neg isTwo]
  by_cases isFour : n ≤ 4294967295
  · rw [if_pos isFour, if_pos isFour, ofNat_or small (by decide), toNat_toUInt32, value,
      mod_eq_of_lt (by omega), four]
    rfl
  · rw [if_neg isFour, if_neg isFour, ofNat_or small (by decide), eight]
    simp only [ofNat_and_byte]
    rfl

end TrustForge.Cbor.Script
