import TrustForge.Foundation.Binary64
import TrustForge.Json.Canonical

/-!
# Canonical JSON in TypeScript

Model of `canonical.ts`, on JSON values: a `number` is a float and a `bigint` an integer.
Keys are sorted by their UTF-8 bytes, which is the order of strings in Rust, so that the
texts differ at most in their numbers.
-/

namespace TrustForge.Json.Script

open Binary64 List
open Text (hexDigit)

/-- What `canonical.ts` takes from the language, next to NFC. -/
structure Engine extends Runtime where
  /-- `String(n)`. -/
  stringOfNumber : F64 → List Char

/-! ## Encoding -/

/-- One character of a string that `JSON.stringify` writes. -/
def quoteChar (c : Char) : List Char :=
  if c = '\x08' then ['\\', 'b']
  else if c = '\t' then ['\\', 't']
  else if c = '\n' then ['\\', 'n']
  else if c = '\x0c' then ['\\', 'f']
  else if c = '\r' then ['\\', 'r']
  else if c = '"' then ['\\', '"']
  else if c = '\\' then ['\\', '\\']
  else if c.toNat < 0x20 then
    ['\\', 'u', '0', '0', hexDigit (c.toNat / 16), hexDigit (c.toNat % 16)]
  else [c]

/-- `JSON.stringify` of a string. -/
def stringify (s : String) : List Char :=
  '"' :: (s.toList.flatMap quoteChar ++ ['"'])

/-- The loop of `utf8Compare`. -/
def compareBytes : Bytes → Bytes → Int
  | a :: as, b :: bs => if a ≠ b then (a.toNat : Int) - b.toNat else compareBytes as bs
  | as, bs => (as.length : Int) - bs.length

def utf8Compare (a b : String) : Int :=
  compareBytes (Text.utf8 a) (Text.utf8 b)

/-- `Array.prototype.sort`, which is stable, with `utf8Compare`. -/
def sortEntries {β : Type} (entries : List (String × β)) : List (String × β) :=
  entries.insertionSort fun x y => utf8Compare x.1 y.1 ≤ 0

def propertyText (property : String × List Char) : List Char :=
  stringify property.1 ++ ':' :: property.2

namespace Engine

variable (engine : Engine)

/-- `encodeNumber`, and the branch of `encode` for a `bigint`.  From `1e21` on, `toFixed`
writes what `String` does. -/
def encodeNumber : Number → List Char
  | .posInt value => (Numeral.ofInteger false value).text
  | .negInt value => (Numeral.ofInteger true (value + 1)).text
  | .float f =>
    if f.isZero && f.negative then ['0']
    else if f.integral && decide (f.truncated < 10 ^ 21) then
      (Numeral.ofInteger f.negative f.truncated).text
    else engine.stringOfNumber f

mutual

def encode : Value → List Char
  | .null => ['n', 'u', 'l', 'l']
  | .bool b => if b then ['t', 'r', 'u', 'e'] else ['f', 'a', 'l', 's', 'e']
  | .number n => engine.encodeNumber n
  | .string s => stringify (engine.nfc s)
  | .array xs => '[' :: (commaSeparated (encodeAll xs) ++ [']'])
  | .object entries =>
    '{' :: (commaSeparated ((sortEntries (encodeEntries entries)).map propertyText) ++ ['}'])

def encodeAll : List Value → List (List Char)
  | [] => []
  | x :: xs => encode x :: encodeAll xs

def encodeEntries : List (String × Value) → List (String × List Char)
  | [] => []
  | (k, v) :: rest => (engine.nfc k, encode v) :: encodeEntries rest

end

def canonicalize (v : Value) : String :=
  String.ofList (engine.encode v)

theorem encodeAll_eq_map (xs : List Value) : engine.encodeAll xs = xs.map engine.encode :=
  Nested.eq_map rfl (fun _ _ => rfl)

theorem encodeEntries_eq_map (entries : List (String × Value)) :
    engine.encodeEntries entries =
      entries.map fun entry => (engine.nfc entry.1, engine.encode entry.2) :=
  Nested.eq_map rfl (fun _ _ => rfl)

end Engine

/-! ## The order of keys -/

theorem compareBytes_swap (a b : Bytes) : compareBytes b a = -compareBytes a b := by
  fun_induction compareBytes a b with
  | case1 a as b bs apart =>
    rw [compareBytes, if_pos (Ne.symm apart)]
    omega
  | case2 a as b bs same ih =>
    rw [not_not] at same
    rw [compareBytes, if_neg (by simp [same]), ih]
  | case3 as bs other =>
    cases as with
    | nil => cases bs <;> simp [compareBytes]
    | cons a as =>
      cases bs with
      | nil => simp [compareBytes]
      | cons b bs => exact (other a as b bs rfl rfl).elim

/-- The loop compares bytes in lexicographic order. -/
theorem compareBytes_neg_iff (a b : Bytes) : compareBytes a b < 0 ↔ a < b := by
  fun_induction compareBytes a b with
  | case1 a as b bs apart =>
    rw [cons_lt_cons_iff, UInt8.lt_iff_toNat_lt]
    simp only [apart, false_and, or_false]
    omega
  | case2 a as b bs same ih =>
    rw [not_not] at same
    rw [ih, cons_lt_cons_iff]
    simp [same]
  | case3 as bs other =>
    cases as with
    | nil =>
      cases bs with
      | nil => simp
      | cons b bs =>
        rw [length_nil, length_cons]
        exact iff_of_true (by omega) (nil_lt_cons b bs)
    | cons a as =>
      cases bs with
      | nil =>
        rw [length_nil, length_cons]
        exact iff_of_false (by omega) (not_lt_nil (a :: as))
      | cons b bs => exact (other a as b bs rfl rfl).elim

/-- Strings are in the order of their UTF-8 bytes. -/
theorem utf8Compare_nonpos_iff (s t : String) : utf8Compare s t ≤ 0 ↔ s ≤ t := by
  have swap := compareBytes_swap (Text.utf8 s) (Text.utf8 t)
  have above := compareBytes_neg_iff (Text.utf8 t) (Text.utf8 s)
  rw [Text.utf8_lt_utf8_iff] at above
  rw [utf8Compare, ← @not_lt _ _ t s, ← above]
  omega

theorem sortEntries_eq_sortByKey {β : Type} (entries : List (String × β)) :
    sortEntries entries = sortByKey entries := by
  unfold sortEntries sortByKey
  have sorted := map_insertionSort (fun x y : String × β => utf8Compare x.1 y.1 ≤ 0)
    (fun x y : String × β => x.1 ≤ y.1) id entries
    (fun x _ y _ => utf8Compare_nonpos_iff x.1 y.1)
  rwa [map_id, map_id] at sorted

/-! ## Agreement with Rust -/

theorem quoteChar_eq_escapeChar (c : Char) : quoteChar c = escapeChar c := by
  by_cases special : c ∈ ['\x08', '\t', '\n', '\x0c', '\r', '"', '\\']
  · simp only [mem_cons, not_mem_nil, or_false] at special
    rcases special with rfl | rfl | rfl | rfl | rfl | rfl | rfl <;> rfl
  · simp only [mem_cons, not_or] at special
    rcases special with ⟨backspace, tab, newline, formFeed, carriageReturn, quote, backslash⟩
    simp [quoteChar, escapeChar, backspace, tab, newline, formFeed, carriageReturn]

theorem stringify_eq_writeJsonString (s : String) : stringify s = writeJsonString s := by
  have quote : quoteChar = escapeChar := funext quoteChar_eq_escapeChar
  rw [stringify, writeJsonString, quote]

/-! ## One property of an object -/

/-- A part stands between texts that do not depend on it. -/
theorem commaSeparated_middle (before after : List (List Char)) :
    ∃ front back, ∀ part, commaSeparated (before ++ part :: after) = front ++ (part ++ back) := by
  induction before with
  | nil =>
    cases after with
    | nil => exact ⟨[], [], fun part => (append_nil part).symm⟩
    | cons next rest => exact ⟨[], ',' :: commaSeparated (next :: rest), fun _ => rfl⟩
  | cons first before ih =>
    obtain ⟨front, back, text⟩ := ih
    refine ⟨first ++ ',' :: front, back, fun part => ?_⟩
    have more : commaSeparated (first :: (before ++ part :: after)) =
        first ++ ',' :: commaSeparated (before ++ part :: after) := by
      cases before <;> rfl
    rw [cons_append, more, text, append_assoc, cons_append]

/-- Entries whose values may be open, with a text for those that are. -/
def fill (text : List Char) (entries : List (String × Option (List Char))) :
    List (String × List Char) :=
  entries.map fun entry => (entry.1, entry.2.getD text)

/-- Entries whose values are known. -/
def known (entries : List (String × List Char)) : List (String × Option (List Char)) :=
  entries.map fun entry => (entry.1, some entry.2)

theorem fill_known (text : List Char) (entries : List (String × List Char)) :
    fill text (known entries) = entries := by
  rw [fill, known, map_map]
  exact map_id entries

/-- Nothing is open in a part of entries that are known. -/
theorem fill_eq_of_perm {part rest : List (String × Option (List Char))}
    {entries : List (String × List Char)} (perm : (part ++ rest).Perm (known entries))
    (text : List Char) : fill text part = fill [] part := by
  apply map_congr_left
  intro entry member
  obtain ⟨original, -, rfl⟩ :=
    mem_map.mp (perm.mem_iff.mp (mem_append_left rest member))
  rfl

/-- Sorting puts an entry at a place that does not depend on its value. -/
theorem sortByKey_middle (before after : List (String × List Char)) (key : String) :
    ∃ front back, ∀ text, sortByKey (before ++ (key, text) :: after) =
      front ++ (key, text) :: back := by
  -- the value is left open until the entries are sorted
  have perm := sortByKey_perm (known before ++ (key, none) :: known after)
  obtain ⟨front, back, sorted⟩ := append_of_mem
    (perm.mem_iff.mpr (mem_append_right _ mem_cons_self))
  rw [sorted] at perm
  have others : (front ++ back).Perm (known (before ++ after)) := by
    rw [known, map_append]
    exact (perm_middle.symm.trans (perm.trans perm_middle)).cons_inv
  refine ⟨fill [] front, fill [] back, fun text => ?_⟩
  have whole : before ++ (key, text) :: after =
      fill text (known before ++ (key, none) :: known after) := by
    rw [fill, map_append, map_cons, ← fill, ← fill, fill_known, fill_known]
    rfl
  have place := sortByKey_map (fun value : Option (List Char) => value.getD text)
    (known before ++ (key, none) :: known after)
  rw [whole, fill, place, sorted, map_append, map_cons, ← fill, ← fill,
    fill_eq_of_perm others, fill_eq_of_perm (perm_append_comm.trans others)]
  rfl

namespace Engine

variable (engine : Engine)

theorem encode_string (s : String) :
    engine.encode (.string s) = engine.toRuntime.encode (.string s) := by
  rw [encode, Runtime.encode, stringify_eq_writeJsonString]

theorem encode_array_eq {xs ys : List Value}
    (same : xs.map engine.encode = ys.map engine.toRuntime.encode) :
    engine.encode (.array xs) = engine.toRuntime.encode (.array ys) := by
  rw [encode, Runtime.encode, encodeAll_eq_map, Runtime.encodeAll_eq_map, same]

/-- Objects that differ in one property at most, and have one text, do not differ. -/
theorem encode_eq_of_object_eq {before after : List (String × Value)} {key : String} {v w : Value}
    (same : engine.encode (.object (before ++ (key, v) :: after)) =
      engine.encode (.object (before ++ (key, w) :: after))) :
    engine.encode v = engine.encode w := by
  obtain ⟨first, last, place⟩ := sortByKey_middle
    (before.map fun entry => (engine.nfc entry.1, engine.encode entry.2))
    (after.map fun entry => (engine.nfc entry.1, engine.encode entry.2)) (engine.nfc key)
  obtain ⟨front, back, text⟩ := commaSeparated_middle (first.map propertyText)
    (last.map propertyText)
  simp only [encode, encodeEntries_eq_map, map_append, map_cons,
    sortEntries_eq_sortByKey, place, text] at same
  have parts := append_cancel_left (append_cancel_right (List.cons.inj same).2)
  have property := append_cancel_right parts
  exact (List.cons.inj (append_cancel_left property)).2

theorem length_encode_array (xs : List Value) :
    (engine.encode (.array xs)).length =
      2 + ((xs.map fun x => (engine.encode x).length + 1).sum - 1) := by
  simp only [encode, encodeAll_eq_map, length_cons, length_append, length_nil,
    length_commaSeparated, map_map, Function.comp_def]
  omega

/-- The size of a property, with the comma after it. -/
def propertySize (entry : String × Value) : Nat :=
  (propertyText (engine.nfc entry.1, engine.encode entry.2)).length + 1

/-- The size of an object in terms of its properties, in any order. -/
theorem length_encode_object (entries : List (String × Value)) :
    (engine.encode (.object entries)).length =
      2 + ((entries.map engine.propertySize).sum - 1) := by
  let size : String × List Char → Nat := fun property => (propertyText property).length + 1
  have sorted : ((sortByKey (engine.encodeEntries entries)).map size).sum =
      ((engine.encodeEntries entries).map size).sum :=
    ((sortByKey_perm (engine.encodeEntries entries)).map size).sum_nat
  have sizes : ((engine.encodeEntries entries).map size).sum =
      (entries.map engine.propertySize).sum := by
    rw [encodeEntries_eq_map, map_map]
    rfl
  rw [← sizes, ← sorted]
  simp only [encode, length_cons, length_append, length_nil,
    sortEntries_eq_sortByKey, length_commaSeparated, map_map, Function.comp_def, size]
  omega

/-- Objects with the same keys have the same text if their values do. -/
theorem encode_object_eq {entries entries' : List (String × Value)}
    (same : entries.map (Prod.map id engine.encode) =
      entries'.map (Prod.map id engine.toRuntime.encode)) :
    engine.encode (.object entries) = engine.toRuntime.encode (.object entries') := by
  have member : propertyText = memberText := by
    funext property
    rw [propertyText, memberText, stringify_eq_writeJsonString]
  have normalized := congrArg (List.map (Prod.map engine.nfc id)) same
  rw [map_map, map_map] at normalized
  rw [encode, Runtime.encode, encodeEntries_eq_map, Runtime.encodeEntries_eq_map,
    sortEntries_eq_sortByKey, member]
  exact congrArg (fun members =>
    '{' :: (commaSeparated ((sortByKey members).map memberText) ++ ['}'])) normalized

end Engine

/-! ## Natural numbers -/

/-- The natural number that a float is, if it is one; both zeros are. -/
def natural? (f : F64) : Option Nat :=
  if f.integral && (!f.negative || f.isZero) then some f.truncated else none

/-- The magnitude in units of `2 ^ -1075`. -/
def units (f : F64) : Nat :=
  f.significand * 2 ^ f.scale

theorem denotes_iff (f : F64) (i : Int) :
    Binary64.Denotes f.bits i ↔
      (if f.negative then -(units f : Int) else units f) = i * 2 ^ 1075 := by
  have magnitude : units f = magnitude f.bits := by
    unfold units F64.significand F64.scale F64.exponent magnitude exponent
      fraction
    split <;> rfl
  rw [magnitude]
  exact and_iff_right f.finite

theorem isZero_iff (f : F64) : f.isZero = true ↔ units f = 0 := by
  have power : 2 ^ f.scale ≠ 0 := (Nat.two_pow_pos _).ne'
  rw [F64.isZero, beq_iff_eq, units, Nat.mul_eq_zero, or_iff_left power]

/-- A float denotes the natural number that it is. -/
theorem denotes_of_natural? {f : F64} {n : Nat} (natural : natural? f = some n) :
    Binary64.Denotes f.bits n := by
  rcases Option.ite_none_right_eq_some.mp natural with ⟨kind, value⟩
  rcases Bool.and_eq_true_iff.mp kind with ⟨integral, positive⟩
  have multiple : units f = n * 2 ^ 1075 := by
    rw [← Option.some.inj value]
    exact (Nat.div_mul_cancel (Nat.dvd_of_mod_eq_zero (beq_iff_eq.mp integral))).symm
  have scaled : (units f : Int) = n * 2 ^ 1075 := by
    rw [multiple, Nat.cast_mul, Nat.cast_pow, Nat.cast_ofNat]
  rw [denotes_iff]
  cases sign : f.negative with
  | false => rwa [if_neg (by decide)]
  | true =>
    rw [sign, Bool.not_true, Bool.false_or, isZero_iff] at positive
    rw [if_pos rfl, ← scaled, positive, Nat.cast_zero, Int.neg_zero]

theorem natural?_of_denotes {f : F64} {n : Nat} (denotes : Binary64.Denotes f.bits n) :
    natural? f = some n := by
  have unit : 0 < 2 ^ 1075 := pow_pos two_pos 1075
  have value := (denotes_iff f n).mp denotes
  have multiple : units f = n * 2 ^ 1075 ∧ (!f.negative || f.isZero) = true := by
    cases sign : f.negative with
    | false =>
      refine ⟨Int.ofNat_inj.mp ?_, rfl⟩
      rw [sign, if_neg (by decide)] at value
      rw [value, Nat.cast_mul, Nat.cast_pow, Nat.cast_ofNat]
    | true =>
      -- Only the negative zero.
      rw [sign, if_pos rfl] at value
      have sum : units f + n * 2 ^ 1075 = 0 := by
        apply Int.ofNat_inj.mp
        rw [Nat.cast_add, Nat.cast_mul, Nat.cast_pow, Nat.cast_ofNat, ← value,
          Int.add_right_neg, Nat.cast_zero]
      rcases Nat.add_eq_zero_iff.mp sum with ⟨zero, scaled⟩
      exact ⟨zero.trans scaled.symm, (isZero_iff f).mpr zero⟩
  rcases multiple with ⟨multiple, positive⟩
  have integral : f.integral = true := by
    rw [F64.integral, beq_iff_eq, ← units, multiple, Nat.mul_mod_left]
  rw [natural?, integral, positive, F64.truncated, ← units, multiple, Nat.mul_div_cancel _ unit]
  rfl

/-- `Number(n)`, for a natural number that is exact. -/
def ofNatural (n : Nat) (exact : n ≤ 2 ^ 53) : F64 where
  bits := ofInt n
  finite := (denotes_ofInt (show (n : Int).natAbs ≤ 2 ^ 53 from exact)).1

theorem natural?_ofNatural {n : Nat} (exact : n ≤ 2 ^ 53) :
    natural? (ofNatural n exact) = some n :=
  natural?_of_denotes (denotes_ofInt (show (n : Int).natAbs ≤ 2 ^ 53 from exact))

theorem Engine.encodeNumber_float (engine : Engine) {f : F64} {n : Nat}
    (natural : natural? f = some n) (small : n < 10 ^ 21) :
    engine.encodeNumber (.float f) = (Numeral.ofInteger false n).text := by
  rcases Option.ite_none_right_eq_some.mp natural with ⟨kind, value⟩
  cases value
  rw [Bool.and_eq_true] at kind
  rcases kind with ⟨integral, positive⟩
  rw [encodeNumber]
  cases zero : f.isZero && f.negative with
  | true =>
    have noSignificand : f.significand = 0 := by
      rw [Bool.and_eq_true, F64.isZero, beq_iff_eq] at zero
      exact zero.1
    rw [if_pos rfl, F64.truncated, noSignificand, zero_mul, Nat.zero_div]
    rfl
  | false =>
    have plain : f.negative = false := by
      cases sign : f.negative with
      | false => rfl
      | true =>
        rw [sign, Bool.not_true, Bool.false_or] at positive
        rw [sign, positive] at zero
        contradiction
    rw [if_neg (by decide), integral, decide_eq_true small, Bool.and_true, if_pos rfl, plain]

end TrustForge.Json.Script
