import TrustForge.Cbor.Grammar
import TrustForge.Foundation.Cursor

/-!
# The decoder of `cbor.rs`

The decoder as a program over its buffer and position.  Whatever could stop a Rust
program, and whatever would break a bound that the decoder promises, is an outcome of
its own: an index out of bounds, an arithmetic overflow, an `unwrap` of nothing, a
reservation for more elements than there are bytes left, a call deeper than the depth
limit allows, a loop that does not end.  Positions and lengths are `usize` values of a
64-bit target.
-/

namespace TrustForge.Cbor

open Program (times collect)

/-- What a decoder must not run into. -/
inductive Hazard where
  | indexOutOfBounds
  | arithmeticOverflow
  | unwrapFailed
  | unreachable
  | recursionBound
  | reservation
  | endlessLoop

/-- How a call ends without a value. -/
inductive Stop where
  | error (e : CborError)
  | hazard (h : Hazard)

abbrev Decoder := Cursor UInt8

abbrev DecodeM (α : Type) := Program Stop Decoder α

def maxDepth : Nat := 128

namespace Decoder

variable {α : Type}

def fail (e : CborError) : DecodeM α :=
  throw (.error e)

def hazard (h : Hazard) : DecodeM α :=
  throw (.hazard h)

/-! ## Machine operations -/

def usizeAdd (a b : Nat) : DecodeM Nat :=
  if a + b < 2 ^ 64 then pure (a + b) else hazard .arithmeticOverflow

def usizeSub (a b : Nat) : DecodeM Nat :=
  if b ≤ a then pure (a - b) else hazard .arithmeticOverflow

/-- `&buf[start..stop]`. -/
def slice (buf : Bytes) (start stop : Nat) : DecodeM Bytes :=
  if start ≤ stop ∧ stop ≤ buf.length then pure ((buf.drop start).take (stop - start))
  else hazard .indexOutOfBounds

/-- `from_be_bytes(bytes.try_into().unwrap())`. -/
def fromBeBytes (width : Nat) (bytes : Bytes) : DecodeM Nat :=
  if bytes.length = width then pure (BigEndian.decode bytes) else hazard .unwrapFailed

/-- `Vec::with_capacity`, which must not ask for more elements than bytes are left. -/
def withCapacity (count : Nat) : DecodeM Unit := do
  let d ← get
  if count ≤ d.buf.length - d.pos then pure () else hazard .reservation

/-! ## Reading -/

def byte : DecodeM UInt8 := do
  let d ← get
  match d.buf[d.pos]? with
  | none => fail .truncated
  | some b =>
    let pos ← usizeAdd d.pos 1
    set { d with pos := pos }
    pure b

def take (n : Nat) : DecodeM Bytes := do
  let d ← get
  -- `checked_add`
  if 2 ^ 64 ≤ d.pos + n then fail .truncated
  else if d.buf.length < d.pos + n then fail .truncated
  else
    let s ← slice d.buf d.pos (d.pos + n)
    set { d with pos := d.pos + n }
    pure s

def arg (info : UInt8) : DecodeM UInt64 :=
  if info.toNat < 24 then pure (.ofNat info.toNat)
  else
    match info.toNat with
    | 24 => (fun b => .ofNat b.toNat) <$> byte
    | 25 => UInt64.ofNat <$> (take 2 >>= fromBeBytes 2)
    | 26 => UInt64.ofNat <$> (take 4 >>= fromBeBytes 4)
    | 27 => UInt64.ofNat <$> (take 8 >>= fromBeBytes 8)
    | _ => fail (.invalid "reserved additional-info value")

def argAsLen (arg : UInt64) : DecodeM Nat := do
  let d ← get
  let remaining ← usizeSub d.buf.length d.pos
  if remaining < arg.toNat then fail .truncated else pure arg.toNat

def atBreak : DecodeM Bool := do
  let d ← get
  match d.buf[d.pos]? with
  | none => fail .truncated
  | some b =>
    if b = 0xff then
      let pos ← usizeAdd d.pos 1
      set { d with pos := pos }
      pure true
    else pure false

/-! ## Loops -/

/-- A loop that takes at least one byte in every round. -/
def loop (step : DecodeM (Option α)) : DecodeM (List α) := do
  let d ← get
  collect (hazard .endlessLoop) step (d.buf.length - d.pos + 1)

/-- `while !self.at_break()? { .. }`. -/
def whileNotBreak (element : DecodeM α) : DecodeM (List α) :=
  loop do
    let ended ← atBreak
    if ended then pure none else some <$> element

/-- `arg`, `arg_as_len` and `take` in a row. -/
def definiteString (info : UInt8) : DecodeM Bytes := do
  let arg ← arg info
  let len ← argAsLen arg
  take len

def indefiniteString (depth : Nat) (major : Nat) : DecodeM Bytes := do
  if maxDepth < depth + 1 then fail .tooDeep
  else
    let chunks ← loop do
      let initial ← byte
      if initial = 0xff then pure none
      else if (initial >>> 5).toNat ≠ major ∨ (initial &&& 0x1f).toNat = 31 then
        fail (.invalid "bad chunk in indefinite string")
      else some <$> definiteString (initial &&& 0x1f)
    pure chunks.flatten

/-- The bytes of a byte or text string. -/
def stringBytes (depth major : Nat) (info : UInt8) : DecodeM Bytes :=
  if info = 31 then indefiniteString depth major else definiteString info

/-- The branch of `value` for text strings. -/
def textValue (depth : Nat) (info : UInt8) : DecodeM Value := do
  let bytes ← stringBytes depth 3 info
  match Text.ofUtf8? bytes with
  | some t => pure (.text t)
  | none => fail (.invalid "text string is not UTF-8")

/-! ## Values -/

/-- The branch of `value` for major type 7. -/
def simpleValue (info : UInt8) : DecodeM Value :=
  match info.toNat with
  | 20 => pure (.bool false)
  | 21 => pure (.bool true)
  | 22 => pure .null
  | 23 => pure .null
  | 24 => do
    let b ← byte
    if b.toNat < 32 then fail (.invalid "non-minimal simple value")
    else pure (.integer b.toNat)
  | 25 => (fun raw => .float (halfToF64 (.ofNat raw))) <$> (take 2 >>= fromBeBytes 2)
  | 26 => (fun raw => .float (singleToF64 (.ofNat raw))) <$> (take 4 >>= fromBeBytes 4)
  | 27 => (fun raw => .float (.ofNat raw)) <$> (take 8 >>= fromBeBytes 8)
  | 31 => fail (.invalid "unexpected break")
  | _ => fail (.invalid "reserved simple value")

/-- The items of an array with a definite length. -/
def definiteItems (element : DecodeM α) (info : UInt8) : DecodeM (List α) := do
  let arg ← arg info
  let len ← argAsLen arg
  withCapacity len
  times element len

/-- The entries of a map with a definite length; an entry takes at least two bytes. -/
def definiteEntries (entry : DecodeM α) (info : UInt8) : DecodeM (List α) := do
  let count ← arg info
  let d ← get
  let remaining ← usizeSub d.buf.length d.pos
  if remaining / 2 < count.toNat then fail .truncated
  else
    withCapacity count.toNat
    times entry count.toNat

/-- The items of an array. -/
def arrayItems (item : DecodeM α) (info : UInt8) : DecodeM (List α) :=
  if info = 31 then whileNotBreak item else definiteItems item info

/-- The entries of a map. -/
def mapEntries (entry : DecodeM α) (info : UInt8) : DecodeM (List α) :=
  if info = 31 then whileNotBreak entry else definiteEntries entry info

/-- `value`.  The first argument counts the calls that the depth limit leaves, the one
that reports `TooDeep` included. -/
def value : Nat → Nat → DecodeM Value
  | 0, _ => hazard .recursionBound
  | frames + 1, depth => do
    if maxDepth < depth then fail .tooDeep
    else
      let initial ← byte
      let info := initial &&& 0x1f
      match (initial >>> 5).toNat with
      | 0 => (fun n => .integer n.toNat) <$> arg info
      | 1 => (fun n => .integer (-1 - n.toNat)) <$> arg info
      | 2 => .bytes <$> stringBytes depth 2 info
      | 3 => textValue depth info
      | 4 => .array <$> arrayItems (value frames (depth + 1)) info
      | 5 =>
        .map <$> mapEntries (do
          let k ← value frames (depth + 1)
          let v ← value frames (depth + 1)
          pure (k, v)) info
      | 6 => do
        let tag ← arg info
        .tag tag <$> value frames (depth + 1)
      | 7 => simpleValue info
      | _ => hazard .unreachable

/-- The decoder of `decode`, before its result is taken out. -/
def run (bytes : Bytes) : Except Stop (Value × Decoder) :=
  value (maxDepth + 2) 0 { buf := bytes, pos := 0 }

end Decoder

end TrustForge.Cbor
