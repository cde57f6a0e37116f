import TrustForge.Cbor.Read
import TrustForge.Foundation.AssocMap
import TrustForge.Foundation.Cursor

/-!
# The decoder of `cbor.ts`

The TypeScript decoder, with the JavaScript values it builds.  A number is a binary64
bit pattern with a single NaN, and a text loses a leading byte order mark, because
`TextDecoder` is used without `ignoreBOM`.  A `Map` compares keys by SameValueZero and
objects by identity; every decoded object is a new one.
-/

namespace TrustForge.Cbor.Script

open Program (times collect)

/-! ## JavaScript values -/

/-- A JavaScript number. -/
structure JsNumber where
  bits : UInt64
  oneNan : Binary64.isNan bits = true → bits = Binary64.nan
  deriving DecidableEq

namespace JsNumber

def ofBits (bits : UInt64) : JsNumber :=
  if nan : Binary64.isNan bits = true then ⟨Binary64.nan, fun _ => rfl⟩
  else ⟨bits, fun isNan => absurd isNan nan⟩

/-- `Number(i)`, for integers that are exact. -/
def ofInt (i : Int) : JsNumber :=
  ofBits (Binary64.ofInt i)

def isZero (n : JsNumber) : Bool :=
  n.bits == 0 || n.bits == Binary64.negate 0

def zero : JsNumber :=
  ⟨0, by decide⟩

/-- Equality of numbers as `Map` keys. -/
def sameValueZero (a b : JsNumber) : Bool :=
  a == b || (a.isZero && b.isZero)

end JsNumber

/-- A non-negative integer as a `number` or a `bigint`. -/
inductive Numeric where
  | number (n : Nat)
  | bigint (n : Nat)

def maxSafeInteger : Nat := 2 ^ 53 - 1

def Numeric.value : Numeric → Nat
  | .number n => n
  | .bigint n => n

/-- The values the decoder builds.  The properties of an object are listed as they were
defined. -/
inductive JsValue where
  | number (n : JsNumber)
  | bigint (i : Int)
  | string (s : String)
  | uint8Array (bytes : Bytes)
  | array (items : List JsValue)
  | object (properties : List (String × JsValue))
  | map (entries : List (JsValue × JsValue))
  | tag (tag : Numeric) (value : JsValue)
  | bool (b : Bool)
  | null

namespace JsValue

/-- `typeof k === "string"`. -/
def asString : JsValue → Option String
  | .string s => some s
  | _ => none

/-- Equality of keys of a `Map`. -/
def sameKey : JsValue → JsValue → Bool
  | .number a, .number b => a.sameValueZero b
  | .bigint i, .bigint j => i == j
  | .string s, .string t => s == t
  | .bool a, .bool b => a == b
  | .null, .null => true
  | _, _ => false

/-- `Map.prototype.set` turns the key -0 into +0. -/
def normalizeKey : JsValue → JsValue
  | .number n => .number (if n.isZero then .zero else n)
  | key => key

/-- `Map.prototype.set`. -/
def mapSet (key value : JsValue) : List (JsValue × JsValue) → List (JsValue × JsValue)
  | [] => [(key.normalizeKey, value)]
  | (k, v) :: rest =>
    if k.sameKey key then (k, value) :: rest else (k, v) :: mapSet key value rest

/-- `new Map(entries)`. -/
def newMap (entries : List (JsValue × JsValue)) : List (JsValue × JsValue) :=
  entries.foldl (fun known entry => mapSet entry.1 entry.2 known) []

end JsValue

/-- The property names, if all keys are strings. -/
def stringKeys : List (JsValue × JsValue) → Option (List (String × JsValue))
  | [] => some []
  | (key, value) :: entries => do
    let name ← key.asString
    let rest ← stringKeys entries
    some ((name, value) :: rest)

def buildMap (entries : List (JsValue × JsValue)) : JsValue :=
  match stringKeys entries with
  | some properties => .object (AssocMap.ofPairs properties)
  | none => .map (JsValue.newMap entries)

/-- What `TextDecoder` does with a byte order mark at the start. -/
def stripBom (s : String) : String :=
  match s.toList with
  | c :: rest => if c = '\uFEFF' then String.ofList rest else s
  | [] => s

/-! ## The reader -/

/-- How a call ends without a value: a `CborError` with its message.  The model also
bounds its loops and calls. -/
inductive Thrown where
  | cborError (message : String)
  | outOfFuel
  deriving DecidableEq

abbrev Reader := Cursor UInt8

abbrev ReadM (α : Type) := Program Thrown Reader α

variable {α : Type}

def raise (message : String) : ReadM α :=
  throw (.cborError message)

namespace Reader

def peek : ReadM UInt8 := do
  let r ← get
  match r.buf[r.pos]? with
  | none => raise "truncated CBOR input"
  | some b => pure b

def byte : ReadM UInt8 := do
  let r ← get
  match r.buf[r.pos]? with
  | none => raise "truncated CBOR input"
  | some b =>
    set { r with pos := r.pos + 1 }
    pure b

def take (n : Nat) : ReadM Bytes := do
  let r ← get
  if r.buf.length < r.pos + n then raise "truncated CBOR input"
  else
    set { r with pos := r.pos + n }
    pure ((r.buf.drop r.pos).take n)

/-- `(b[0] << 8) | b[1]`.  A missing element counts as zero. -/
def shortOf (b : Bytes) : Nat :=
  (b.getD 0 0).toNat <<< 8 ||| (b.getD 1 0).toNat

/-- `((b[0] << 24) | (b[1] << 16) | (b[2] << 8) | b[3]) >>> 0`. -/
def wordOf (b : Bytes) : Nat :=
  ((b.getD 0 0).toUInt32 <<< 24 ||| (b.getD 1 0).toUInt32 <<< 16 |||
    (b.getD 2 0).toUInt32 <<< 8 ||| (b.getD 3 0).toUInt32).toNat

/-- The loop over eight bytes, on a `bigint`. -/
def longOf (b : Bytes) : Nat :=
  b.foldl (fun v byte => v <<< 8 ||| byte.toNat) 0

def arg (info : UInt8) : ReadM Numeric :=
  if info.toNat < 24 then pure (.number info.toNat)
  else
    match info.toNat with
    | 24 => (fun b => .number b.toNat) <$> byte
    | 25 => (fun b => .number (shortOf b)) <$> take 2
    | 26 => (fun b => .number (wordOf b)) <$> take 4
    | 27 => do
      let b ← take 8
      let v := longOf b
      pure (if v ≤ maxSafeInteger then .number v else .bigint v)
    | _ => raise "invalid CBOR: reserved additional-info value"

def argAsLen (arg : Numeric) (perItemBytes : Nat) : ReadM Nat := do
  let r ← get
  let max := (r.buf.length - r.pos) / perItemBytes
  match arg with
  | .bigint _ => raise "truncated CBOR input"
  | .number n => if max < n then raise "truncated CBOR input" else pure n

end Reader

/-! ## Values -/

/-- `halfToNumber`: the products of `half_to_f64`, with one NaN. -/
def halfToNumber (raw : UInt16) : JsNumber :=
  .ofBits (halfToF64 raw)

def integerFrom (arg : Numeric) (negative : Bool) : JsValue :=
  match arg with
  | .number n => .number (.ofInt (if negative then -1 - n else n))
  | .bigint n =>
    let v : Int := if negative then -1 - n else n
    if -(maxSafeInteger : Int) ≤ v ∧ v ≤ maxSafeInteger then .number (.ofInt v) else .bigint v

/-- A loop that takes at least one byte in every round. -/
def loop (step : ReadM (Option α)) : ReadM (List α) := do
  let r ← get
  collect (throw .outOfFuel) step (r.buf.length - r.pos + 1)

/-- `while (r.peek() !== 0xff) { .. }` and the break after it. -/
def whileNotBreak (element : ReadM α) : ReadM (List α) :=
  loop do
    let next ← Reader.peek
    if next = 0xff then
      let _ ← Reader.byte
      pure none
    else some <$> element

/-- `r.take(r.argAsLen(r.arg(info), 1))`. -/
def definiteString (info : UInt8) : ReadM Bytes := do
  let arg ← Reader.arg info
  let len ← Reader.argAsLen arg 1
  Reader.take len

def decodeIndefiniteString (major : Nat) : ReadM Bytes := do
  let chunks ← loop do
    let initial ← Reader.byte
    if initial = 0xff then pure none
    else if (initial >>> 5).toNat ≠ major ∨ (initial &&& 0x1f).toNat = 31 then
      raise "invalid CBOR: bad chunk in indefinite string"
    else some <$> definiteString (initial &&& 0x1f)
  pure chunks.flatten

/-- The bytes of a byte or text string. -/
def stringBytes (major : Nat) (info : UInt8) : ReadM Bytes :=
  if info = 31 then decodeIndefiniteString major else definiteString info

/-- The case of `decodeValue` for text strings. -/
def textValue (info : UInt8) : ReadM JsValue := do
  let bytes ← stringBytes 3 info
  match Text.ofUtf8? bytes with
  | some t => pure (.string (stripBom t))
  | none => raise "invalid CBOR: text string is not UTF-8"

/-- The elements of an array or a map. -/
def elements (perItemBytes : Nat) (element : ReadM α) (info : UInt8) : ReadM (List α) :=
  if info = 31 then whileNotBreak element
  else do
    let arg ← Reader.arg info
    let len ← Reader.argAsLen arg perItemBytes
    times element len

/-- The case of `decodeValue` for major type 7. -/
def simpleValue (info : UInt8) : ReadM JsValue :=
  match info.toNat with
  | 20 => pure (.bool false)
  | 21 => pure (.bool true)
  | 22 => pure .null
  | 23 => pure .null
  | 24 => do
    let b ← Reader.byte
    if b.toNat < 32 then raise "invalid CBOR: non-minimal simple value"
    else pure (.number (.ofInt b.toNat))
  | 25 => (fun b => .number (halfToNumber (.ofNat (Reader.shortOf b)))) <$> Reader.take 2
  | 26 =>
    (fun b => .number (.ofBits (singleToF64 (.ofNat (BigEndian.decode b))))) <$> Reader.take 4
  | 27 => (fun b => .number (.ofBits (.ofNat (BigEndian.decode b)))) <$> Reader.take 8
  | 31 => raise "invalid CBOR: unexpected break"
  | _ => raise "invalid CBOR: reserved simple value"

def maxDepth : Nat := 128

/-- `decodeValue`.  The first argument counts the calls that the depth limit leaves. -/
def decodeValue : Nat → Nat → ReadM JsValue
  | 0, _ => throw .outOfFuel
  | frames + 1, depth => do
    if maxDepth < depth then raise "nesting exceeds depth limit"
    else
      let initial ← Reader.byte
      let info := initial &&& 0x1f
      match (initial >>> 5).toNat with
      | 0 => (integerFrom · false) <$> Reader.arg info
      | 1 => (integerFrom · true) <$> Reader.arg info
      | 2 => .uint8Array <$> stringBytes 2 info
      | 3 => textValue info
      | 4 => .array <$> elements 1 (decodeValue frames (depth + 1)) info
      | 5 =>
        buildMap <$> elements 2 (do
          let k ← decodeValue frames (depth + 1)
          let v ← decodeValue frames (depth + 1)
          pure (k, v)) info
      | 6 => do
        let tag ← Reader.arg info
        .tag tag <$> decodeValue frames (depth + 1)
      | 7 => simpleValue info
      | _ => raise "unreachable"

/-- A `Uint8Array`, which has at most `2 ^ 53 - 1` elements. -/
structure Uint8Array where
  bytes : Bytes
  fits : bytes.length ≤ maxSafeInteger

def decode (bytes : Uint8Array) : Except Thrown JsValue :=
  Prod.fst <$> decodeValue (maxDepth + 2) 0 { buf := bytes.bytes, pos := 0 }

end TrustForge.Cbor.Script
