import Mathlib.Algebra.Group.Int.Defs
import TrustForge.Foundation.BigEndian
import TrustForge.Foundation.Nested

/-!
# CBOR values and their encoding

Model of the value type and of the encoder in `cbor.rs`.  An `i128` is an integer, a
float is its 64-bit pattern.  Lengths are converted to `u64` as the source does with
`as u64`.
-/

namespace TrustForge.Cbor

inductive CborError where
  | truncated
  | invalid (what : String)
  | tooDeep
  | unrepresentable (what : String)
  deriving DecidableEq

/-- The `Display` text. -/
def CborError.text : CborError → String
  | .truncated => "truncated CBOR input"
  | .invalid what => s!"invalid CBOR: {what}"
  | .tooDeep => "CBOR nesting exceeds depth limit"
  | .unrepresentable what => s!"unrepresentable in CBOR: {what}"

inductive Value where
  | integer (i : Int)
  | bytes (b : Bytes)
  | text (t : String)
  | array (items : List Value)
  | map (entries : List (Value × Value))
  | tag (tag : UInt64) (inner : Value)
  | bool (b : Bool)
  | null
  | float (bits : UInt64)

namespace Value

mutual

/-- The number of levels below a value: zero if nothing is nested in it. -/
def depth : Value → Nat
  | .integer _ => 0
  | .bytes _ => 0
  | .text _ => 0
  | .array items => depthOfItems items
  | .map entries => depthOfEntries entries
  | .tag _ inner => inner.depth + 1
  | .bool _ => 0
  | .null => 0
  | .float _ => 0

def depthOfItems : List Value → Nat
  | [] => 0
  | item :: items => max (item.depth + 1) (depthOfItems items)

def depthOfEntries : List (Value × Value) → Nat
  | [] => 0
  | (key, value) :: entries =>
    max (max (key.depth + 1) (value.depth + 1)) (depthOfEntries entries)

end

theorem depthOfItems_le_iff (items : List Value) (n : Nat) :
    depthOfItems items ≤ n ↔ ∀ item ∈ items, item.depth < n := by
  induction items with
  | nil => simp [depthOfItems]
  | cons item items ih => rw [depthOfItems, Nat.max_le, ih, List.forall_mem_cons, Nat.succ_le_iff]

theorem depthOfEntries_le_iff (entries : List (Value × Value)) (n : Nat) :
    depthOfEntries entries ≤ n ↔ ∀ entry ∈ entries, entry.1.depth < n ∧ entry.2.depth < n := by
  induction entries with
  | nil => simp [depthOfEntries]
  | cons entry entries ih =>
    rw [depthOfEntries, Nat.max_le, Nat.max_le, ih, List.forall_mem_cons, Nat.succ_le_iff,
      Nat.succ_le_iff]

mutual

/-- The integers in a value, in order. -/
def integers : Value → List Int
  | .integer i => [i]
  | .bytes _ => []
  | .text _ => []
  | .array items => integersOfItems items
  | .map entries => integersOfEntries entries
  | .tag _ inner => inner.integers
  | .bool _ => []
  | .null => []
  | .float _ => []

def integersOfItems : List Value → List Int
  | [] => []
  | item :: items => item.integers ++ integersOfItems items

def integersOfEntries : List (Value × Value) → List Int
  | [] => []
  | (key, value) :: entries => key.integers ++ value.integers ++ integersOfEntries entries

end

end Value

/-- The integers that CBOR can express. -/
def InRange (i : Int) : Prop :=
  -2 ^ 64 ≤ i ∧ i < 2 ^ 64

instance (i : Int) : Decidable (InRange i) :=
  inferInstanceAs (Decidable (_ ∧ _))

/-! ## Encoding -/

/-- `put_header`, as the bytes it appends. -/
def putHeader (major : UInt8) (arg : UInt64) : Bytes :=
  let mt := major <<< 5
  if arg < 24 then [mt ||| arg.toUInt8]
  else if arg ≤ 0xff then [mt ||| 24, arg.toUInt8]
  else if arg ≤ 0xffff then (mt ||| 25) :: BigEndian.encode 2 arg.toUInt16.toNat
  else if arg ≤ 0xffffffff then (mt ||| 26) :: BigEndian.encode 4 arg.toUInt32.toNat
  else (mt ||| 27) :: BigEndian.encode 8 arg.toNat

/-- The integer branch of `encode_into`. -/
def encodeInteger (i : Int) : Except CborError Bytes :=
  if 0 ≤ i then
    if i < 2 ^ 64 then .ok (putHeader 0 (.ofNat i.toNat))
    else .error (.unrepresentable "integer above u64::MAX")
  else
    let magnitude := -i - 1
    if magnitude < 2 ^ 64 then .ok (putHeader 1 (.ofNat magnitude.toNat))
    else .error (.unrepresentable "integer below -2^64")

mutual

/-- `encode_into`, as the bytes it appends. -/
def encodeInto : Value → Except CborError Bytes
  | .integer i => encodeInteger i
  | .bytes b => .ok (putHeader 2 (.ofNat b.length) ++ b)
  | .text t => .ok (putHeader 3 (.ofNat (Text.utf8 t).length) ++ Text.utf8 t)
  | .array items => do
    let body ← encodeItems items
    .ok (putHeader 4 (.ofNat items.length) ++ body)
  | .map entries => do
    let body ← encodeEntries entries
    .ok (putHeader 5 (.ofNat entries.length) ++ body)
  | .tag tag inner => do
    let body ← encodeInto inner
    .ok (putHeader 6 tag ++ body)
  | .bool b => .ok [if b then 0xf5 else 0xf4]
  | .null => .ok [0xf6]
  | .float bits => .ok (0xfb :: BigEndian.encode 8 bits.toNat)

/-- The loop over the items of an array. -/
def encodeItems : List Value → Except CborError Bytes
  | [] => .ok []
  | item :: items => do
    let first ← encodeInto item
    let rest ← encodeItems items
    .ok (first ++ rest)

/-- The loop over the entries of a map. -/
def encodeEntries : List (Value × Value) → Except CborError Bytes
  | [] => .ok []
  | (key, value) :: entries => do
    let k ← encodeInto key
    let v ← encodeInto value
    let rest ← encodeEntries entries
    .ok (k ++ v ++ rest)

end

def encode (value : Value) : Except CborError Bytes :=
  encodeInto value

end TrustForge.Cbor
