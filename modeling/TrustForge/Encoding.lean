import TrustForge.Foundation.Result
import TrustForge.Foundation.Text

/-!
# Base64

Model of `encoding.rs`: the two engines, strict decoding and its errors.  An engine
carries the facts that decoding inverts its alphabet in both directions, which the
table lookup of `decode_symbol` gives for both alphabets of the source.
-/

namespace TrustForge.Encoding

open Result Text List Except Nat

inductive DecodeError where
  | invalidByte (offset : Nat) (byte : UInt8)
  | invalidLength (length : Nat)
  | invalidPadding
  | invalidTrailingBits
  deriving Repr, DecidableEq

/-- The `Display` of a decoding error. -/
def DecodeError.text : DecodeError → String
  | .invalidByte offset byte =>
    s!"invalid base64 byte 0x{Text.hex [byte]} at offset {offset}"
  | .invalidLength length => s!"invalid base64 length {length}"
  | .invalidPadding => "invalid base64 padding"
  | .invalidTrailingBits => "non-canonical base64 trailing bits"

def decodeSymbol (alphabet : List Char) (byte : UInt8) : Option Nat :=
  let b := byte.toNat
  if 65 ≤ b ∧ b ≤ 90 then some (b - 65)
  else if 97 ≤ b ∧ b ≤ 122 then some (b - 97 + 26)
  else if 48 ≤ b ∧ b ≤ 57 then some (b - 48 + 52)
  else if b = 43 ∧ alphabet.getD 62 'A' = '+' then some 62
  else if b = 47 ∧ alphabet.getD 63 'A' = '/' then some 63
  else if b = 45 ∧ alphabet.getD 62 'A' = '-' then some 62
  else if b = 95 ∧ alphabet.getD 63 'A' = '_' then some 63
  else none

/-- `Engine`, with the property that makes its alphabet one. -/
structure Engine where
  alphabet : List Char
  padded : Bool
  decodes : ∀ i, i < 64 →
    decodeSymbol alphabet (UInt8.ofNat (alphabet.getD i 'A').toNat) = some i
  encodes : ∀ n, n < 256 → ∀ i ∈ decodeSymbol alphabet (UInt8.ofNat n),
    i < 64 ∧ (alphabet.getD i 'A').toNat = n
  ascii : ∀ c ∈ alphabet, c.toNat < 128

/-- The alphabets as lists, on which the lookups below are fast to evaluate. -/
theorem toList_standard :
    "ABCDEFGHIJKLMNOPQRSTUVWXYZabcdefghijklmnopqrstuvwxyz0123456789+/".toList =
    ['A', 'B', 'C', 'D', 'E', 'F', 'G', 'H', 'I', 'J', 'K', 'L', 'M', 'N', 'O', 'P', 'Q', 'R',
      'S', 'T', 'U', 'V', 'W', 'X', 'Y', 'Z', 'a', 'b', 'c', 'd', 'e', 'f', 'g', 'h', 'i', 'j',
      'k', 'l', 'm', 'n', 'o', 'p', 'q', 'r', 's', 't', 'u', 'v', 'w', 'x', 'y', 'z', '0', '1',
      '2', '3', '4', '5', '6', '7', '8', '9', '+', '/'] :=
  String.toList_ofList

theorem toList_urlSafe :
    "ABCDEFGHIJKLMNOPQRSTUVWXYZabcdefghijklmnopqrstuvwxyz0123456789-_".toList =
    ['A', 'B', 'C', 'D', 'E', 'F', 'G', 'H', 'I', 'J', 'K', 'L', 'M', 'N', 'O', 'P', 'Q', 'R',
      'S', 'T', 'U', 'V', 'W', 'X', 'Y', 'Z', 'a', 'b', 'c', 'd', 'e', 'f', 'g', 'h', 'i', 'j',
      'k', 'l', 'm', 'n', 'o', 'p', 'q', 'r', 's', 't', 'u', 'v', 'w', 'x', 'y', 'z', '0', '1',
      '2', '3', '4', '5', '6', '7', '8', '9', '-', '_'] :=
  String.toList_ofList

def standard : Engine where
  alphabet := "ABCDEFGHIJKLMNOPQRSTUVWXYZabcdefghijklmnopqrstuvwxyz0123456789+/".toList
  padded := true
  decodes := by
    rw [toList_standard]
    decide +kernel
  encodes := by
    rw [toList_standard]
    decide +kernel
  ascii := by
    rw [toList_standard]
    exact ascii_of_all (by decide +kernel)

def urlSafeNoPad : Engine where
  alphabet := "ABCDEFGHIJKLMNOPQRSTUVWXYZabcdefghijklmnopqrstuvwxyz0123456789-_".toList
  padded := false
  decodes := by
    rw [toList_urlSafe]
    decide +kernel
  encodes := by
    rw [toList_urlSafe]
    decide +kernel
  ascii := by
    rw [toList_urlSafe]
    exact ascii_of_all (by decide +kernel)

namespace Engine

variable (engine : Engine)

/-- The character of a six bit group, given the shift that brings it down. -/
def symbol (n shift : Nat) : Char :=
  engine.alphabet.getD (n / 2 ^ shift % 64) 'A'

/-- The symbols of `encode`, without padding. -/
def encodeSymbols : Bytes → List Char
  | a :: b :: c :: rest =>
    let n := a.toNat * 2 ^ 16 + b.toNat * 2 ^ 8 + c.toNat
    engine.symbol n 18 :: engine.symbol n 12 :: engine.symbol n 6 :: engine.symbol n 0 ::
      encodeSymbols rest
  | [a, b] =>
    let n := a.toNat * 2 ^ 16 + b.toNat * 2 ^ 8
    [engine.symbol n 18, engine.symbol n 12, engine.symbol n 6]
  | [a] =>
    let n := a.toNat * 2 ^ 16
    [engine.symbol n 18, engine.symbol n 12]
  | [] => []

/-- The padding after the symbols of that many bytes. -/
def padding (length : Nat) : List Char :=
  if engine.padded then
    if length % 3 = 1 then ['=', '='] else if length % 3 = 2 then ['='] else []
  else []

variable (input : Bytes)

def encode : String :=
  String.ofList (engine.encodeSymbols input ++ engine.padding input.length)

/-- One symbol of the input, with its position for the error. -/
def sym (offset : Nat) (byte : UInt8) : Except DecodeError Nat :=
  match decodeSymbol engine.alphabet byte with
  | some value => .ok value
  | none => .error (.invalidByte offset byte)

/-- The symbol loop of `decode` and its remainder.  A remainder of one symbol does not
reach the loop. -/
def decodeSymbols (offset : Nat) : Bytes → Except DecodeError Bytes
  | a :: b :: c :: d :: rest => do
    let s0 ← engine.sym offset a
    let s1 ← engine.sym (offset + 1) b
    let s2 ← engine.sym (offset + 2) c
    let s3 ← engine.sym (offset + 3) d
    let n := s0 * 2 ^ 18 + s1 * 2 ^ 12 + s2 * 2 ^ 6 + s3
    let out ← decodeSymbols (offset + 4) rest
    .ok (UInt8.ofNat (n / 2 ^ 16) :: UInt8.ofNat (n / 2 ^ 8) :: UInt8.ofNat n :: out)
  | [a, b, c] => do
    let s0 ← engine.sym offset a
    let s1 ← engine.sym (offset + 1) b
    let s2 ← engine.sym (offset + 2) c
    let n := s0 * 2 ^ 18 + s1 * 2 ^ 12 + s2 * 2 ^ 6
    if n % 2 ^ 8 ≠ 0 then .error .invalidTrailingBits
    else .ok [UInt8.ofNat (n / 2 ^ 16), UInt8.ofNat (n / 2 ^ 8)]
  | [a, b] => do
    let s0 ← engine.sym offset a
    let s1 ← engine.sym (offset + 1) b
    let n := s0 * 2 ^ 18 + s1 * 2 ^ 12
    if n % 2 ^ 16 ≠ 0 then .error .invalidTrailingBits
    else .ok [UInt8.ofNat (n / 2 ^ 16)]
  | [_] => .error (.invalidLength 1)
  | [] => .ok []

/-- The padding sign `=`. -/
def padByte : UInt8 := 61

/-- Removal of the padding of a whole number of quantums. -/
def stripPadding : Bytes :=
  if [padByte, padByte] <:+ input then input.take (input.length - 2)
  else if [padByte] <:+ input then input.take (input.length - 1)
  else input

/-- The padding checks of `decode`. -/
def unpad : Except DecodeError Bytes :=
  if engine.padded then
    if input.length % 4 ≠ 0 then
      .error (if input.length % 4 = 1 ∧ padByte ∉ input then .invalidLength input.length
        else .invalidPadding)
    else .ok (stripPadding input)
  else .ok input

def decode : Except DecodeError Bytes := do
  let symbols ← engine.unpad input
  if symbols.length % 4 = 1 then .error (.invalidLength symbols.length)
  else engine.decodeSymbols 0 symbols

/-! ## Decoding what was encoded -/

/-- The byte of a symbol. -/
def symbolByte (n shift : Nat) : UInt8 :=
  UInt8.ofNat (engine.symbol n shift).toNat

theorem sym_symbolByte (n shift offset : Nat) :
    engine.sym offset (engine.symbolByte n shift) = .ok (n / 2 ^ shift % 64) := by
  have found := engine.decodes (n / 2 ^ shift % 64) (mod_lt _ (by decide))
  simp only [sym, symbolByte, symbol, found]

theorem encodeSymbols_bytes_cons (a b c : UInt8) (rest : Bytes) :
    let n := a.toNat * 2 ^ 16 + b.toNat * 2 ^ 8 + c.toNat
    (engine.encodeSymbols (a :: b :: c :: rest)).map (fun c => UInt8.ofNat c.toNat) =
      engine.symbolByte n 18 :: engine.symbolByte n 12 :: engine.symbolByte n 6 ::
        engine.symbolByte n 0 ::
        (engine.encodeSymbols rest).map fun c => UInt8.ofNat c.toNat := by
  rfl

/-- The four six bit groups of a 24 bit quantum make it up again. -/
theorem join_groups (n : Nat) (small : n < 2 ^ 24) :
    n / 2 ^ 18 % 64 * 2 ^ 18 + n / 2 ^ 12 % 64 * 2 ^ 12 + n / 2 ^ 6 % 64 * 2 ^ 6 +
      n / 2 ^ 0 % 64 = n := by
  simp only [Nat.reducePow] at small ⊢
  omega

theorem ofNat_eq_of_mod {n : Nat} {byte : UInt8} (same : n % 256 = byte.toNat) :
    UInt8.ofNat n = byte := by
  apply UInt8.toNat_inj.mp
  rw [UInt8.toNat_ofNat', same]

theorem encodeSymbols_bytes_two (a b : UInt8) :
    let n := a.toNat * 2 ^ 16 + b.toNat * 2 ^ 8
    (engine.encodeSymbols [a, b]).map (fun c => UInt8.ofNat c.toNat) =
      [engine.symbolByte n 18, engine.symbolByte n 12, engine.symbolByte n 6] := by
  rfl

theorem encodeSymbols_bytes_one (a : UInt8) :
    let n := a.toNat * 2 ^ 16
    (engine.encodeSymbols [a]).map (fun c => UInt8.ofNat c.toNat) =
      [engine.symbolByte n 18, engine.symbolByte n 12] := by
  rfl

/-- The bytes of a quantum are those that it was put together from. -/
theorem split_bytes (a b c : UInt8) :
    let n := a.toNat * 2 ^ 16 + b.toNat * 2 ^ 8 + c.toNat
    n < 2 ^ 24 ∧ UInt8.ofNat (n / 2 ^ 16) = a ∧ UInt8.ofNat (n / 2 ^ 8) = b ∧ UInt8.ofNat n = c := by
  have aBound := a.toNat_lt
  have bBound := b.toNat_lt
  have cBound := c.toNat_lt
  simp only at aBound bBound cBound ⊢
  exact ⟨by omega, ofNat_eq_of_mod (by omega), ofNat_eq_of_mod (by omega),
    ofNat_eq_of_mod (by omega)⟩

/-- A quantum without its last byte has no bits in it. -/
theorem mod_of_ofNat_eq_zero {n : Nat} (zero : UInt8.ofNat n = 0) : n % 2 ^ 8 = 0 := by
  rw [← UInt8.toNat_ofNat', zero]
  rfl

variable (bytes : Bytes)

theorem decodeSymbols_encodeSymbols (offset : Nat) :
    engine.decodeSymbols offset
        ((engine.encodeSymbols bytes).map fun c => UInt8.ofNat c.toNat) = .ok bytes := by
  induction bytes using encodeSymbols.induct generalizing offset with
  | case1 a b c rest ih =>
    obtain ⟨small, first, second, third⟩ := split_bytes a b c
    have joined := join_groups _ small
    rw [encodeSymbols_bytes_cons]
    simp only [decodeSymbols, sym_symbolByte, ih, bind, Except.bind, joined, first, second, third]
  | case2 a b =>
    obtain ⟨small, first, second, last⟩ := split_bytes a b 0
    rw [encodeSymbols_bytes_two]
    simp only [UInt8.toNat_zero, Nat.add_zero] at small first second last
    generalize a.toNat * 2 ^ 16 + b.toNat * 2 ^ 8 = n at small first second last ⊢
    have noTrailing := mod_of_ofNat_eq_zero last
    have lowest : n / 2 ^ 0 % 64 = 0 := by omega
    have joined := join_groups n small
    rw [lowest, Nat.add_zero] at joined
    simp only [decodeSymbols, sym_symbolByte, bind, Except.bind, joined, first, second,
      noTrailing, ne_eq, not_true_eq_false, ↓reduceIte]
  | case3 a =>
    obtain ⟨small, first, middle, last⟩ := split_bytes a 0 0
    rw [encodeSymbols_bytes_one]
    simp only [UInt8.toNat_zero, Nat.zero_mul, Nat.add_zero] at small first middle last
    generalize a.toNat * 2 ^ 16 = n at small first middle last ⊢
    have noMiddle := mod_of_ofNat_eq_zero middle
    have noLast := mod_of_ofNat_eq_zero last
    have noTrailing : n % 2 ^ 16 = 0 := by omega
    have lowest : n / 2 ^ 0 % 64 = 0 := by omega
    have third : n / 2 ^ 6 % 64 = 0 := by omega
    have joined := join_groups n small
    rw [lowest, third, Nat.add_zero, Nat.zero_mul, Nat.add_zero] at joined
    simp only [decodeSymbols, sym_symbolByte, bind, Except.bind, joined, first, noTrailing, ne_eq,
      not_true_eq_false, ↓reduceIte]
  | case4 => rfl

theorem symbol_ascii (n shift : Nat) : (engine.symbol n shift).toNat < 128 := by
  unfold symbol
  rw [getD_eq_getElem?_getD]
  cases found : engine.alphabet[n / 2 ^ shift % 64]? with
  | none => decide
  | some c => exact engine.ascii c (mem_of_getElem? found)

/-- What holds of every symbol holds of all symbols of an encoding. -/
theorem forall_mem_encodeSymbols {P : Char → Prop} (each : ∀ n shift, P (engine.symbol n shift))
    (bytes : Bytes) : ∀ c ∈ engine.encodeSymbols bytes, P c := by
  induction bytes using encodeSymbols.induct with
  | case1 a b c rest ih =>
    simp only [encodeSymbols, forall_mem_cons]
    exact ⟨each _ _, each _ _, each _ _, each _ _, ih⟩
  | case2 | case3 => simp [encodeSymbols, each]
  | case4 => simp [encodeSymbols]

theorem padding_ascii (length : Nat) : ∀ c ∈ engine.padding length, c.toNat < 128 := by
  unfold padding
  repeat' split
  all_goals simp

/-- An encoding is ASCII text. -/
theorem encode_isAscii : Text.IsAscii (engine.encode bytes) := by
  intro c member
  rw [encode, String.toList_ofList, mem_append] at member
  rcases member with symbol | pad
  · exact engine.forall_mem_encodeSymbols (P := fun c => c.toNat < 128) engine.symbol_ascii bytes c
      symbol
  · exact engine.padding_ascii bytes.length c pad

/-- The bytes of an encoding. -/
theorem utf8_encode :
    utf8 (String.ofList (engine.encodeSymbols bytes ++ engine.padding bytes.length)) =
      (engine.encodeSymbols bytes).map (fun c => UInt8.ofNat c.toNat) ++
        (engine.padding bytes.length).map fun c => UInt8.ofNat c.toNat := by
  have ascii := engine.encode_isAscii bytes
  rw [Text.IsAscii, encode, String.toList_ofList] at ascii
  rw [utf8_ofList_of_ascii _ ascii, map_append]

theorem length_encodeSymbols : (engine.encodeSymbols bytes).length =
      4 * (bytes.length / 3) + if bytes.length % 3 = 0 then 0 else bytes.length % 3 + 1 := by
  induction bytes using encodeSymbols.induct with
  | case1 a b c rest ih =>
    have quotient : (rest.length + 1 + 1 + 1) / 3 = rest.length / 3 + 1 := by omega
    have remainder : (rest.length + 1 + 1 + 1) % 3 = rest.length % 3 := by omega
    simp only [encodeSymbols, length_cons, remainder]
    omega
  | case2 | case3 => simp [encodeSymbols]
  | case4 => rfl

theorem length_encode_le : (engine.encode bytes).toList.length ≤ 4 * (bytes.length / 3) + 4 := by
  have symbols := engine.length_encodeSymbols bytes
  have padded : (engine.padding bytes.length).length ≤ 3 - bytes.length % 3 := by
    unfold padding
    split
    · split
      · next one => simp [one]
      · split
        · next two => simp [two]
        · exact zero_le _
    · exact zero_le _
  rw [encode, String.toList_ofList, length_append, symbols]
  split <;> omega

/-! ## The round trip -/

/-- The padding byte is no symbol. -/
theorem symbolByte_ne_padByte (n shift : Nat) : engine.symbolByte n shift ≠ padByte := by
  intro pad
  have found := engine.sym_symbolByte n shift 0
  have unknown : decodeSymbol engine.alphabet padByte = none := by
    unfold decodeSymbol padByte
    simp
  rw [pad, sym, unknown] at found
  contradiction

theorem stripPadding_two (symbols : Bytes) :
    stripPadding (symbols ++ [padByte, padByte]) = symbols := by
  rw [stripPadding, if_pos ⟨symbols, rfl⟩]
  simp

theorem stripPadding_one {symbols : Bytes} (noPad : padByte ∉ symbols) :
    stripPadding (symbols ++ [padByte]) = symbols := by
  have notTwo : ¬[padByte, padByte] <:+ symbols ++ [padByte] := by
    intro suffix
    rcases suffix with ⟨front, equal⟩
    have inner : front ++ [padByte] = symbols := by
      rw [← append_left_inj [padByte], append_assoc]
      exact equal
    exact noPad (inner ▸ mem_append_right front mem_cons_self)
  rw [stripPadding, if_neg notTwo, if_pos ⟨symbols, rfl⟩]
  simp

theorem stripPadding_none {symbols : Bytes} (noPad : padByte ∉ symbols) :
    stripPadding symbols = symbols := by
  have notTwo : ¬[padByte, padByte] <:+ symbols := fun suffix =>
    noPad (suffix.subset mem_cons_self)
  have notOne : ¬[padByte] <:+ symbols := fun suffix =>
    noPad (suffix.subset mem_cons_self)
  rw [stripPadding, if_neg notTwo, if_neg notOne]

/-- The padding is complete and comes off again. -/
theorem unpad_append_padding {symbols : Bytes} (noPad : padByte ∉ symbols) (length : Nat)
    (symbolCount : symbols.length =
      4 * (length / 3) + if length % 3 = 0 then 0 else length % 3 + 1) :
    engine.unpad (symbols ++ (engine.padding length).map fun c => UInt8.ofNat c.toNat) =
      .ok symbols := by
  unfold unpad padding
  by_cases padded : engine.padded = true
  · simp only [padded]
    by_cases one : length % 3 = 1
    · have whole : (symbols ++ [padByte, padByte]).length % 4 = 0 := by
        rw [length_append, symbolCount, one]
        simp
        omega
      simp only [one]
      exact (if_neg (not_not.mpr whole)).trans (congrArg Except.ok (stripPadding_two symbols))
    · by_cases two : length % 3 = 2
      · have whole : (symbols ++ [padByte]).length % 4 = 0 := by
          rw [length_append, symbolCount, two]
          simp
          omega
        simp only [two]
        exact (if_neg (not_not.mpr whole)).trans (congrArg Except.ok (stripPadding_one noPad))
      · have whole : symbols.length % 4 = 0 := by
          rw [symbolCount, if_pos (by omega)]
          omega
        simp [one, two, whole, stripPadding_none noPad]
  · simp [padded]

/-- Decoding an encoding gives the bytes back. -/
theorem decode_encode :
    engine.decode (utf8 (engine.encode bytes)) = .ok bytes := by
  have decoded := engine.decodeSymbols_encodeSymbols bytes 0
  have symbolCount := engine.length_encodeSymbols bytes
  rw [encode, engine.utf8_encode]
  generalize known : (engine.encodeSymbols bytes).map (fun c => UInt8.ofNat c.toNat) = symbols
  rw [known] at decoded
  rw [← length_map (f := fun c : Char => UInt8.ofNat c.toNat), known] at symbolCount
  have noPad : padByte ∉ symbols := by
    rw [← known, mem_map]
    rintro ⟨c, written, pad⟩
    exact engine.forall_mem_encodeSymbols (P := fun c => UInt8.ofNat c.toNat ≠ padByte)
      engine.symbolByte_ne_padByte bytes c written pad
  have notOne : ¬symbols.length % 4 = 1 := by
    rw [symbolCount]
    split <;> omega
  simp [decode, engine.unpad_append_padding noPad bytes.length symbolCount, bind, Except.bind,
    notOne, decoded]

/-- A reader that takes any text gives the bytes back as well. -/
theorem getD_decode_encode_standard :
    (standard.decode (utf8 (standard.encode bytes))).toOption.getD [] = bytes := by
  rw [standard.decode_encode]
  rfl

/-! ## Only encodings are decoded -/

theorem symbol_of_sym {offset : Nat} {byte : UInt8} {value : Nat}
    (known : engine.sym offset byte = .ok value) :
    value < 64 ∧ UInt8.ofNat (engine.alphabet.getD value 'A').toNat = byte := by
  unfold sym at known
  cases found : decodeSymbol engine.alphabet byte with
  | none => simp [found] at known
  | some other =>
    simp only [found, ok.injEq] at known
    subst known
    rw [← UInt8.ofNat_toNat (x := byte)] at found
    have entry := engine.encodes byte.toNat byte.toNat_lt other found
    rw [entry.2]
    exact ⟨entry.1, UInt8.ofNat_toNat⟩

/-- The six bit groups of a quantum are the values that it was put together from. -/
theorem split_groups {s0 s1 s2 s3 : Nat} (bound0 : s0 < 64) (bound1 : s1 < 64) (bound2 : s2 < 64)
    (bound3 : s3 < 64) :
    let n := s0 * 2 ^ 18 + s1 * 2 ^ 12 + s2 * 2 ^ 6 + s3
    n < 2 ^ 24 ∧ n / 2 ^ 18 % 64 = s0 ∧ n / 2 ^ 12 % 64 = s1 ∧ n / 2 ^ 6 % 64 = s2 ∧
      n / 2 ^ 0 % 64 = s3 := by
  simp only
  omega

/-- The bytes of a quantum make it up again. -/
theorem join_bytes {n : Nat} (small : n < 2 ^ 24) :
    (UInt8.ofNat (n / 2 ^ 16)).toNat * 2 ^ 16 + (UInt8.ofNat (n / 2 ^ 8)).toNat * 2 ^ 8 +
      (UInt8.ofNat n).toNat = n := by
  simp only [UInt8.toNat_ofNat'] at small ⊢
  omega

/-- The symbols of a quantum, from the values they were decoded to. -/
theorem symbolByte_of_sym {offset n shift : Nat} {byte : UInt8} {value : Nat}
    (known : engine.sym offset byte = .ok value) (group : n / 2 ^ shift % 64 = value) :
    engine.symbolByte n shift = byte := by
  rw [symbolByte, symbol, group]
  exact (engine.symbol_of_sym known).2

theorem encodeSymbols_of_decodeSymbols {input : Bytes} {offset : Nat} {out : Bytes}
    (decoded : engine.decodeSymbols offset input = .ok out) :
    (engine.encodeSymbols out).map (fun c => UInt8.ofNat c.toNat) = input := by
  induction offset, input using decodeSymbols.induct generalizing out with
  | case1 offset a b c d rest ih =>
    rcases bind_eq_ok decoded with ⟨s0, first, decoded⟩
    rcases bind_eq_ok decoded with ⟨s1, second, decoded⟩
    rcases bind_eq_ok decoded with ⟨s2, third, decoded⟩
    rcases bind_eq_ok decoded with ⟨s3, fourth, decoded⟩
    rcases bind_eq_ok decoded with ⟨later, decodedLater, equal⟩
    rw [ok.injEq] at equal
    subst equal
    have bound0 := (engine.symbol_of_sym first).1
    have bound1 := (engine.symbol_of_sym second).1
    have bound2 := (engine.symbol_of_sym third).1
    have bound3 := (engine.symbol_of_sym fourth).1
    obtain ⟨small, group0, group1, group2, group3⟩ := split_groups bound0 bound1 bound2 bound3
    rw [encodeSymbols_bytes_cons, ih decodedLater]
    simp only [join_bytes small]
    rw [engine.symbolByte_of_sym first group0, engine.symbolByte_of_sym second group1,
      engine.symbolByte_of_sym third group2, engine.symbolByte_of_sym fourth group3]
  | case2 offset a b c =>
    rcases bind_eq_ok decoded with ⟨s0, first, decoded⟩
    rcases bind_eq_ok decoded with ⟨s1, second, decoded⟩
    rcases bind_eq_ok decoded with ⟨s2, third, decoded⟩
    rcases ite_eq_ok decoded with ⟨noTrailing, equal⟩
    rw [ok.injEq] at equal
    subst equal
    have bound0 := (engine.symbol_of_sym first).1
    have bound1 := (engine.symbol_of_sym second).1
    have bound2 := (engine.symbol_of_sym third).1
    have none : 0 < 64 := by decide
    obtain ⟨small, group0, group1, group2, _⟩ := split_groups bound0 bound1 bound2 none
    have whole := join_bytes small
    have last : (UInt8.ofNat (s0 * 2 ^ 18 + s1 * 2 ^ 12 + s2 * 2 ^ 6)).toNat = 0 := by
      rw [UInt8.toNat_ofNat', not_not.mp noTrailing]
    rw [Nat.add_zero] at group0 group1 group2 whole
    rw [last, Nat.add_zero] at whole
    rw [encodeSymbols_bytes_two]
    simp only [whole]
    rw [engine.symbolByte_of_sym first group0, engine.symbolByte_of_sym second group1,
      engine.symbolByte_of_sym third group2]
  | case3 offset a b =>
    rcases bind_eq_ok decoded with ⟨s0, first, decoded⟩
    rcases bind_eq_ok decoded with ⟨s1, second, decoded⟩
    rcases ite_eq_ok decoded with ⟨noTrailing, equal⟩
    rw [ok.injEq] at equal
    subst equal
    have bound0 := (engine.symbol_of_sym first).1
    have bound1 := (engine.symbol_of_sym second).1
    have whole : (UInt8.ofNat ((s0 * 2 ^ 18 + s1 * 2 ^ 12) / 2 ^ 16)).toNat * 2 ^ 16 =
        s0 * 2 ^ 18 + s1 * 2 ^ 12 := by
      simp only [UInt8.toNat_ofNat'] at noTrailing ⊢
      omega
    rw [encodeSymbols_bytes_one]
    simp only [whole]
    rw [engine.symbolByte_of_sym first (by simp only [Nat.reducePow]; omega),
      engine.symbolByte_of_sym second (by simp only [Nat.reducePow]; omega)]
  | case4 offset a => contradiction
  | case5 offset =>
    rw [decodeSymbols, ok.injEq] at decoded
    subst decoded
    rfl

/-- What `stripPadding` took off is the padding of as many symbols as are left. -/
theorem stripPadding_cases (input : Bytes) :
    input = stripPadding input ++ [padByte, padByte] ∨
      input = stripPadding input ++ [padByte] ∨ input = stripPadding input := by
  unfold stripPadding
  split
  · next suffix =>
    rcases suffix with ⟨symbols, equal⟩
    subst equal
    exact .inl (by simp)
  · split
    · next suffix =>
      rcases suffix with ⟨symbols, equal⟩
      subst equal
      exact .inr (.inl (by simp))
    · exact .inr (.inr rfl)

theorem append_padding_of_unpad {input symbols : Bytes} {length : Nat}
    (unpadded : engine.unpad input = .ok symbols)
    (symbolCount : symbols.length =
      4 * (length / 3) + if length % 3 = 0 then 0 else length % 3 + 1) :
    symbols ++ (engine.padding length).map (fun c => UInt8.ofNat c.toNat) = input := by
  unfold unpad at unpadded
  unfold padding
  by_cases padded : engine.padded = true
  · simp only [padded, ↓reduceIte] at unpadded ⊢
    rcases ite_eq_ok unpadded with ⟨whole, stripped⟩
    rw [not_not] at whole
    rw [ok.injEq] at stripped
    rcases stripPadding_cases input with two | one | none
    · rw [stripped] at two
      rw [two, length_append, symbolCount] at whole
      have remainder : length % 3 = 1 := by
        simp only [length_cons, length_nil] at whole
        split at whole <;> omega
      rw [if_pos remainder]
      exact two.symm
    · rw [stripped] at one
      rw [one, length_append, symbolCount] at whole
      have remainder : length % 3 = 2 := by
        simp only [length_cons, length_nil] at whole
        split at whole <;> omega
      rw [if_neg (by omega), if_pos remainder]
      exact one.symm
    · rw [stripped] at none
      rw [none, symbolCount] at whole
      have remainder : length % 3 = 0 := by
        split at whole <;> omega
      rw [if_neg (by omega), if_neg (by omega), map_nil, append_nil]
      exact none.symm
  · simp only [padded, Bool.false_eq_true, ↓reduceIte, ok.injEq] at unpadded ⊢
    rw [map_nil, append_nil]
    exact unpadded.symm

/-- What decodes is the encoding of what it decodes to. -/
theorem utf8_encode_of_decode {input out : Bytes} (decoded : engine.decode input = .ok out) :
    utf8 (engine.encode out) = input := by
  rcases bind_eq_ok decoded with ⟨symbols, unpadded, decoded⟩
  have written := engine.encodeSymbols_of_decodeSymbols (ite_eq_ok decoded).2
  have symbolCount := engine.length_encodeSymbols out
  rw [← length_map (f := fun c : Char => UInt8.ofNat c.toNat), written] at symbolCount
  rw [encode, engine.utf8_encode, written]
  exact engine.append_padding_of_unpad unpadded symbolCount

theorem encode_of_decode {s : String} {out : Bytes}
    (decoded : engine.decode (utf8 s) = .ok out) : engine.encode out = s :=
  utf8_injective (engine.utf8_encode_of_decode decoded)

/-- Every engine, so `standard` and `urlSafeNoPad`, is a bijection onto the byte strings that
it accepts. -/
theorem encode_bijective (input bytes : Bytes) :
    engine.decode (utf8 (engine.encode bytes)) = .ok bytes ∧
      (engine.decode input = .ok bytes → utf8 (engine.encode bytes) = input) :=
  ⟨engine.decode_encode bytes, engine.utf8_encode_of_decode⟩

theorem decode_eq_ok_iff {s : String} {bytes : Bytes} :
    engine.decode (utf8 s) = .ok bytes ↔ s = engine.encode bytes := by
  constructor
  · intro decoded
    exact (engine.encode_of_decode decoded).symm
  · rintro rfl
    exact engine.decode_encode bytes

end Engine

end TrustForge.Encoding
