import TrustForge.Foundation.Text
import TrustForge.Json.Numeral

/-!
# Reading JSON

The reader behind `serde_json::from_slice` into a `Value`, on characters.  The
crate's parser recurses over the input; here the recursion is on fuel, of which the
length of the input is always enough.  A budget of nested arrays and objects is
carried along as the crate does: it starts at 128, each container takes one, and the
container that would use the last one is refused.
-/

namespace TrustForge.Json

/-- The whitespace JSON allows between tokens. -/
def isSpace (c : Char) : Bool :=
  c == ' ' || c == '\n' || c == '\t' || c == '\r'

def skipSpace (input : List Char) : List Char :=
  input.dropWhile isSpace

/-! ## Strings -/

/-- `decode_hex_val`. -/
def hexValue (c : Char) : Option Nat :=
  if '0' ≤ c ∧ c ≤ '9' then some (c.toNat - '0'.toNat)
  else if 'a' ≤ c ∧ c ≤ 'f' then some (c.toNat - 'a'.toNat + 10)
  else if 'A' ≤ c ∧ c ≤ 'F' then some (c.toNat - 'A'.toNat + 10)
  else none

/-- Four hexadecimal digits. -/
def readHex4 : List Char → Option (Nat × List Char)
  | a :: b :: c :: d :: rest => do
    let a ← hexValue a
    let b ← hexValue b
    let c ← hexValue c
    let d ← hexValue d
    some (((a * 16 + b) * 16 + c) * 16 + d, rest)
  | _ => none

/-- `parse_unicode_escape`: a leading surrogate needs its trailing half. -/
def readUnicodeEscape (input : List Char) : Option (Char × List Char) := do
  let (n, rest) ← readHex4 input
  if 0xDC00 ≤ n ∧ n ≤ 0xDFFF then none
  else if 0xD800 ≤ n ∧ n ≤ 0xDBFF then
    match rest with
    | '\\' :: 'u' :: rest => do
      let (m, rest) ← readHex4 rest
      if 0xDC00 ≤ m ∧ m ≤ 0xDFFF then
        some (Char.ofNat ((n - 0xD800) * 0x400 + (m - 0xDC00) + 0x10000), rest)
      else none
    | _ => none
  else some (Char.ofNat n, rest)

/-- `parse_escape`, after the backslash. -/
def readEscape : List Char → Option (Char × List Char)
  | [] => none
  | c :: rest =>
    if c = '"' then some ('"', rest)
    else if c = '\\' then some ('\\', rest)
    else if c = '/' then some ('/', rest)
    else if c = 'b' then some ('\x08', rest)
    else if c = 'f' then some ('\x0c', rest)
    else if c = 'n' then some ('\n', rest)
    else if c = 'r' then some ('\r', rest)
    else if c = 't' then some ('\t', rest)
    else if c = 'u' then readUnicodeEscape rest
    else none

/-- The characters of a string, after its opening quote. -/
def readString : Nat → List Char → Option (List Char × List Char)
  | 0, _ => none
  | _ + 1, [] => none
  | fuel + 1, c :: rest =>
    if c = '"' then some ([], rest)
    else if c = '\\' then
      (readEscape rest).bind fun (unescaped, rest) =>
        (readString fuel rest).map fun (chars, rest) => (unescaped :: chars, rest)
    else if c.toNat < 0x20 then none
    else (readString fuel rest).map fun (chars, rest) => (c :: chars, rest)

/-! ## Values -/

/-- The rest of a literal, whose first character has been seen. -/
def readLiteral (rest : List Char) (value : Value) (input : List Char) :
    Option (Value × List Char) :=
  if rest <+: input then some (value, input.drop rest.length) else none

section

variable (readF64 : List Char → Option F64)

mutual

/-- One value, with the budget of containers it may open. -/
def readValue : Nat → Nat → List Char → Option (Value × List Char)
  | 0, _, _ => none
  | fuel + 1, budget, input =>
    match skipSpace input with
    | [] => none
    | c :: rest =>
      if c = 'n' then readLiteral ['u', 'l', 'l'] .null rest
      else if c = 't' then readLiteral ['r', 'u', 'e'] (.bool true) rest
      else if c = 'f' then readLiteral ['a', 'l', 's', 'e'] (.bool false) rest
      else if c = '"' then
        (readString fuel rest).map fun (chars, rest) =>
          (.string (String.ofList chars), rest)
      else if c = '[' then
        if budget ≤ 1 then none
        else
          match skipSpace rest with
          | ']' :: rest => some (.array [], rest)
          | rest => (readElements fuel (budget - 1) rest).map fun (xs, rest) =>
            (.array xs, rest)
      else if c = '{' then
        if budget ≤ 1 then none
        else
          match skipSpace rest with
          | '}' :: rest => some (.object [], rest)
          | rest => (readMembers fuel (budget - 1) rest).map fun (entries, rest) =>
            (.object (AssocMap.ofPairs entries), rest)
      else do
        let (token, rest) ← scanNumber (c :: rest)
        let n ← readNumber readF64 token
        some (.number n, rest)

/-- One or more elements, up to the closing bracket. -/
def readElements : Nat → Nat → List Char → Option (List Value × List Char)
  | 0, _, _ => none
  | fuel + 1, budget, input => do
    let (x, rest) ← readValue fuel budget input
    match skipSpace rest with
    | ',' :: rest => (readElements fuel budget rest).map fun (xs, rest) => (x :: xs, rest)
    | ']' :: rest => some ([x], rest)
    | _ => none

/-- One or more entries, up to the closing brace. -/
def readMembers : Nat → Nat → List Char → Option (List (String × Value) × List Char)
  | 0, _, _ => none
  | fuel + 1, budget, input => do
    match skipSpace input with
    | '"' :: rest => do
      let (key, rest) ← readString fuel rest
      match skipSpace rest with
      | ':' :: rest => do
        let (v, rest) ← readValue fuel budget rest
        match skipSpace rest with
        | ',' :: rest =>
          (readMembers fuel budget rest).map fun (entries, rest) =>
            ((String.ofList key, v) :: entries, rest)
        | '}' :: rest => some ([(String.ofList key, v)], rest)
        | _ => none
      | _ => none
    | _ => none

end

/-- `serde_json`'s recursion limit. -/
def recursionLimit : Nat := 128

/-- `serde_json::from_str`: one value and nothing but whitespace after it. -/
def fromStr (text : String) : Option Value := do
  let (value, rest) ← readValue readF64 (text.toList.length + 1) recursionLimit text.toList
  if skipSpace rest = [] then some value else none

/-- `serde_json::from_slice`: bytes that are not UTF-8 are refused. -/
def fromSlice (bytes : Bytes) : Option Value :=
  (Text.ofUtf8? bytes).bind (fromStr readF64)

end

end TrustForge.Json
