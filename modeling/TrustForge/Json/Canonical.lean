import Mathlib.Data.List.Sort
import TrustForge.Json.Read

/-!
# Canonical JSON

Model of `canonical.rs`.  Two things it calls come from outside: NFC normalisation
(the `unicode-normalization` crate) and the text of a float (`Display` of the
standard library).  They are parameters, with what is documented of them: NFC leaves
ASCII alone, and a finite float is displayed as a plain decimal numeral.

The error for non-finite numbers has no counterpart, because a `serde_json::Number`
is finite.
-/

namespace TrustForge.Json

open List
open Text (hexDigit)

/-- What `canonicalize` and the reader take from other crates. -/
structure Runtime where
  nfc : String → String
  nfc_ascii : ∀ s, Text.IsAscii s → nfc s = s
  displayF64 : F64 → Numeral
  /-- The float reader of `serde_json`, on the text of a number. -/
  readF64 : List Char → Option F64

/-! ## Encoding -/

/-- One character of `write_json_string`. -/
def escapeChar (c : Char) : List Char :=
  if c = '"' then ['\\', '"']
  else if c = '\\' then ['\\', '\\']
  else if c = '\n' then ['\\', 'n']
  else if c = '\r' then ['\\', 'r']
  else if c = '\t' then ['\\', 't']
  else if c = '\x08' then ['\\', 'b']
  else if c = '\x0c' then ['\\', 'f']
  else if c.toNat < 0x20 then
    ['\\', 'u', '0', '0', hexDigit (c.toNat / 16), hexDigit (c.toNat % 16)]
  else [c]

def writeJsonString (s : String) : List Char :=
  '"' :: (s.toList.flatMap escapeChar ++ ['"'])

/-- The loops of `encode` that put a comma before every part but the first. -/
def commaSeparated : List (List Char) → List Char
  | [] => []
  | [part] => part
  | part :: next :: rest => part ++ ',' :: commaSeparated (next :: rest)

/-- The stable sort of object entries by key. -/
def sortByKey {β : Type} (entries : List (String × β)) : List (String × β) :=
  entries.insertionSort fun x y => x.1 ≤ y.1

/-- An object entry: the key, a colon and the text of the value. -/
def memberText (member : String × List Char) : List Char :=
  writeJsonString member.1 ++ ':' :: member.2

namespace Runtime

variable (runtime : Runtime)

/-- The number branch of `encode`. -/
def numeral : Number → Numeral
  | .posInt value => .ofInteger false value
  | .negInt value => .ofInteger true (value + 1)
  | .float f =>
    if f.isZero then .ofInteger false 0
    else if f.integral && decide (f.truncated < 10 ^ 16) then
      .ofInteger f.negative f.truncated
    else runtime.displayF64 f

mutual

def encode : Value → List Char
  | .null => ['n', 'u', 'l', 'l']
  | .bool b => if b then ['t', 'r', 'u', 'e'] else ['f', 'a', 'l', 's', 'e']
  | .number n => (runtime.numeral n).text
  | .string s => writeJsonString (runtime.nfc s)
  | .array xs => '[' :: (commaSeparated (encodeAll xs) ++ [']'])
  | .object entries =>
    '{' :: (commaSeparated ((sortByKey (encodeEntries entries)).map memberText) ++ ['}'])

def encodeAll : List Value → List (List Char)
  | [] => []
  | x :: xs => encode x :: encodeAll xs

/-- The entries with normalised keys and encoded values, still in map order. -/
def encodeEntries : List (String × Value) → List (String × List Char)
  | [] => []
  | (k, v) :: rest => (runtime.nfc k, encode v) :: encodeEntries rest

end

def canonicalize (v : Value) : String :=
  String.ofList (runtime.encode v)

theorem encode_string (s : String) : runtime.encode (.string s) =
    writeJsonString (runtime.nfc s) := by
  rw [encode]

theorem encodeAll_eq_map (xs : List Value) : runtime.encodeAll xs = xs.map runtime.encode :=
  Nested.eq_map rfl (fun _ _ => rfl)

theorem encodeEntries_eq_map (entries : List (String × Value)) :
    runtime.encodeEntries entries =
      entries.map fun entry => (runtime.nfc entry.1, runtime.encode entry.2) :=
  Nested.eq_map rfl (fun _ _ => rfl)

end Runtime

/-! ## Sorting -/

/-- Sorting by key commutes with a change of the values. -/
theorem sortByKey_map {β γ : Type} (f : β → γ) (entries : List (String × β)) :
    sortByKey (entries.map fun entry => (entry.1, f entry.2)) =
      (sortByKey entries).map fun entry => (entry.1, f entry.2) := by
  unfold sortByKey
  apply Eq.symm
  apply map_insertionSort
  intro x _ y _
  rfl

theorem sortByKey_perm {β : Type} (entries : List (String × β)) :
    (sortByKey entries).Perm entries :=
  perm_insertionSort _ entries

/-! ## Escapes -/

/-- The characters with a letter for their escape. -/
def letterEscapes : List (Char × Char) :=
  [('"', '"'), ('\\', '\\'), ('\n', 'n'), ('\r', 'r'), ('\t', 't'), ('\x08', 'b'), ('\x0c', 'f')]

theorem escapeChar_of_mem {c letter : Char} (member : (c, letter) ∈ letterEscapes) :
    escapeChar c = ['\\', letter] := by
  have each : letterEscapes.all (fun pair => escapeChar pair.1 = ['\\', pair.2]) = true := by
    decide
  exact of_decide_eq_true (all_eq_true.mp each _ member)

/-- A character is written with a letter, with its number, or as it is. -/
theorem escapeChar_cases (c : Char) :
    (∃ letter, (c, letter) ∈ letterEscapes ∧ escapeChar c = ['\\', letter]) ∨
      (c.toNat < 0x20 ∧ escapeChar c =
        ['\\', 'u', '0', '0', hexDigit (c.toNat / 16), hexDigit (c.toNat % 16)]) ∨
      (c ≠ '"' ∧ c ≠ '\\' ∧ 0x20 ≤ c.toNat ∧ escapeChar c = [c]) := by
  by_cases special : c ∈ letterEscapes.map Prod.fst
  · obtain ⟨⟨_, letter⟩, member, rfl⟩ := mem_map.mp special
    exact .inl ⟨letter, member, escapeChar_of_mem member⟩
  · simp only [letterEscapes, map_cons, map_nil, mem_cons, not_mem_nil, or_false, not_or] at special
    obtain ⟨quote, backslash, newline, carriageReturn, tab, backspace, formFeed⟩ := special
    rw [escapeChar, if_neg quote, if_neg backslash, if_neg newline, if_neg carriageReturn,
      if_neg tab, if_neg backspace, if_neg formFeed]
    by_cases control : c.toNat < 0x20
    · exact .inr (.inl ⟨control, if_pos control⟩)
    · exact .inr (.inr ⟨quote, backslash, le_of_not_gt control, if_neg control⟩)

/-! ## Sizes -/

theorem length_escapeChar (c : Char) : 1 ≤ (escapeChar c).length ∧ (escapeChar c).length ≤ 6 := by
  obtain ⟨letter, _, written⟩ | ⟨_, written⟩ | ⟨_, _, _, written⟩ := escapeChar_cases c
  all_goals
    rw [written]
    simp

theorem length_writeJsonString_le (s : String) :
    (writeJsonString s).length ≤ 2 + 6 * s.toList.length := by
  have escaped : ∀ chars : List Char, (chars.flatMap escapeChar).length ≤ 6 * chars.length := by
    intro chars
    induction chars with
    | nil => exact le_refl _
    | cons c rest ih =>
      rw [flatMap_cons, length_append, length_cons, Nat.mul_succ, add_comm]
      exact add_le_add ih (length_escapeChar c).2
  have body := escaped s.toList
  simp only [writeJsonString, length_cons, length_append, length_nil]
  omega

theorem length_commaSeparated (parts : List (List Char)) :
    (commaSeparated parts).length = (parts.map fun part => part.length + 1).sum - 1 := by
  induction parts using commaSeparated.induct with
  | case1 => rfl
  | case2 part => simp [commaSeparated]
  | case3 part next rest ih =>
    simp only [commaSeparated, length_append, length_cons, map_cons, sum_cons] at ih ⊢
    omega

variable (runtime : Runtime)

theorem Runtime.length_encode_array (xs : List Value) : (runtime.encode (.array xs)).length =
      2 + ((xs.map fun x => (runtime.encode x).length + 1).sum - 1) := by
  simp only [encode, encodeAll_eq_map, length_cons, length_append, length_nil,
    length_commaSeparated, map_map, Function.comp_def]
  omega

/-- The size of an entry of an object, with the comma after it. -/
def Runtime.entrySize (entry : String × Value) : Nat :=
  (memberText (runtime.nfc entry.1, runtime.encode entry.2)).length + 1

/-- The size of an object in terms of its entries, in any order. -/
theorem Runtime.length_encode_object (entries : List (String × Value)) :
    (runtime.encode (.object entries)).length =
      2 + ((entries.map runtime.entrySize).sum - 1) := by
  let size : String × List Char → Nat := fun member => (memberText member).length + 1
  have sorted : ((sortByKey (runtime.encodeEntries entries)).map size).sum =
      ((runtime.encodeEntries entries).map size).sum :=
    ((sortByKey_perm (runtime.encodeEntries entries)).map size).sum_nat
  have sizes : ((runtime.encodeEntries entries).map size).sum =
      (entries.map runtime.entrySize).sum := by
    rw [encodeEntries_eq_map, map_map]
    rfl
  rw [← sizes, ← sorted]
  simp only [encode, length_cons, length_append, length_nil,
    length_commaSeparated, map_map, Function.comp_def, size]
  omega

/-! ## First characters -/

/-- The text starts like a value: not with whitespace and not with a closing bracket. -/
def StartsValue (text : List Char) : Prop :=
  ∃ c rest, text = c :: rest ∧ isSpace c = false ∧ c ≠ ']'

/-- A number text starts with its sign or with a digit. -/
theorem Numeral.exists_head (n : Numeral) :
    ∃ c rest, n.text = c :: rest ∧ (c = '-' ∨ c.isDigit = true) := by
  cases sign : n.negative with
  | true =>
    refine ⟨'-', n.whole ++ n.tail, ?_, .inl rfl⟩
    simp [Numeral.text, Token.text, Numeral.token, signText, sign]
  | false =>
    cases parts : n.whole with
    | nil => exact absurd parts n.nonempty
    | cons c digits =>
      refine ⟨c, digits ++ n.tail, ?_, .inr ?_⟩
      · simp [Numeral.text, Token.text, Numeral.token, signText, sign, parts]
      · exact n.wholeDigits c (by rw [parts]; exact mem_cons_self)

/-- The characters that decide between the kinds of value never start a number. -/
theorem ne_of_startsNumber {c : Char} (starts : c = '-' ∨ c.isDigit = true) (other : Char)
    (notSign : other ≠ '-') (notDigit : other.isDigit = false) : c ≠ other := by
  intro equal
  subst equal
  rcases starts with sign | digit
  · exact notSign sign
  · rw [notDigit] at digit
    contradiction

theorem isSpace_of_startsNumber {c : Char} (starts : c = '-' ∨ c.isDigit = true) :
    isSpace c = false := by
  have space := ne_of_startsNumber starts ' ' (by decide) (by decide)
  have newline := ne_of_startsNumber starts '\n' (by decide) (by decide)
  have tab := ne_of_startsNumber starts '\t' (by decide) (by decide)
  have carriageReturn := ne_of_startsNumber starts '\r' (by decide) (by decide)
  simp [isSpace, space, newline, tab, carriageReturn]

theorem Runtime.encode_startsValue (v : Value) :
    StartsValue (runtime.encode v) := by
  cases v with
  | null => exact ⟨'n', ['u', 'l', 'l'], rfl, by decide, by decide⟩
  | bool b =>
    cases b with
    | true => exact ⟨'t', ['r', 'u', 'e'], rfl, by decide, by decide⟩
    | false => exact ⟨'f', ['a', 'l', 's', 'e'], rfl, by decide, by decide⟩
  | number n =>
    rcases (runtime.numeral n).exists_head with ⟨c, rest, text, starts⟩
    exact ⟨c, rest, text, isSpace_of_startsNumber starts,
      ne_of_startsNumber starts ']' (by decide) (by decide)⟩
  | string s => exact ⟨'"', _, rfl, by decide, by decide⟩
  | array xs => exact ⟨'[', _, by rw [Runtime.encode], by decide, by decide⟩
  | object entries => exact ⟨'{', _, by rw [Runtime.encode], by decide, by decide⟩

/-! ## Control characters -/

/-- No character is a control character. -/
def Printable (text : List Char) : Prop :=
  ∀ c ∈ text, 0x20 ≤ c.toNat

theorem printable_cons_iff (c : Char) (text : List Char) :
    Printable (c :: text) ↔ 0x20 ≤ c.toNat ∧ Printable text :=
  forall_mem_cons

theorem printable_append_iff (left right : List Char) :
    Printable (left ++ right) ↔ Printable left ∧ Printable right :=
  forall_mem_append

theorem printable_hexDigit (n : Nat) (small : n < 16) : 0x20 ≤ (hexDigit n).toNat := by
  have all : ∀ i : Fin 16, 0x20 ≤ (hexDigit i).toNat := by decide
  exact all ⟨n, small⟩

/-- Control characters are written as escapes. -/
theorem printable_escapeChar (c : Char) : Printable (escapeChar c) := by
  obtain ⟨letter, member, written⟩ | ⟨control, written⟩ | ⟨_, _, printable, written⟩ :=
    escapeChar_cases c
  · have letters : letterEscapes.all (fun pair => 0x20 ≤ pair.2.toNat) = true := by decide
    have printable := of_decide_eq_true (all_eq_true.mp letters _ member)
    simpa [written, Printable] using printable
  · have high := printable_hexDigit (c.toNat / 16) (by omega)
    have low := printable_hexDigit (c.toNat % 16) (by omega)
    simp [written, Printable, high, low]
  · simpa [written, Printable] using printable

theorem printable_writeJsonString (s : String) : Printable (writeJsonString s) := by
  rw [writeJsonString, printable_cons_iff, printable_append_iff]
  refine ⟨by decide, ?_, by simp [Printable]⟩
  intro c member
  rcases mem_flatMap.mp member with ⟨source, _, written⟩
  exact printable_escapeChar source c written

theorem printable_commaSeparated (parts : List (List Char)) (each : ∀ part ∈ parts, Printable part) :
    Printable (commaSeparated parts) := by
  induction parts with
  | nil => simp [commaSeparated, Printable]
  | cons part rest ih =>
    have first := each part mem_cons_self
    have later := ih fun next member => each next (mem_cons_of_mem part member)
    cases rest with
    | nil => exact first
    | cons next more =>
      rw [commaSeparated, printable_append_iff, printable_cons_iff]
      exact ⟨first, by decide, later⟩

theorem printable_of_isDigit {c : Char} (digit : c.isDigit = true) : 0x20 ≤ c.toNat := by
  rw [Char.isDigit, Bool.and_eq_true, decide_eq_true_iff, decide_eq_true_iff] at digit
  have low : (48 : Nat) ≤ c.toNat := digit.1
  omega

theorem Numeral.printable_text (n : Numeral) : Printable n.text := by
  have whole : Printable n.whole := fun c member => printable_of_isDigit (n.wholeDigits c member)
  have fraction : Printable n.fraction := fun c member =>
    printable_of_isDigit (n.fractionDigits c member)
  have tail : Printable n.tail := by
    unfold Numeral.tail
    split
    · simp [Printable]
    · exact (printable_cons_iff _ _).mpr ⟨by decide, fraction⟩
  have sign : Printable (signText n.negative) := by
    cases n.negative <;> simp [signText, Printable]
  exact (printable_append_iff _ _).mpr ⟨sign, (printable_append_iff _ _).mpr ⟨whole, tail⟩⟩

namespace Runtime

variable (runtime : Runtime)

/-- Canonical text is printable: it is on one line and has no tabs. -/
theorem printable_encode (v : Value) : Printable (runtime.encode v) := by
  induction v using Value.memberInduction with
  | null => simp [encode, Printable]
  | bool b => cases b <;> simp [encode, Printable]
  | number n =>
    rw [encode]
    exact (runtime.numeral n).printable_text
  | string s =>
    rw [encode]
    exact printable_writeJsonString _
  | array xs ih =>
    rw [encode, printable_cons_iff, printable_append_iff, encodeAll_eq_map]
    exact ⟨by decide, printable_commaSeparated _ (forall_mem_map.mpr ih),
      by simp [Printable]⟩
  | object entries ih =>
    rw [encode, printable_cons_iff, printable_append_iff, encodeEntries_eq_map]
    refine ⟨by decide, printable_commaSeparated _ ?_, by simp [Printable]⟩
    intro part member
    rcases mem_map.mp member with ⟨entry, sorted, equal⟩
    rcases mem_map.mp ((sortByKey_perm _).mem_iff.mp sorted) with ⟨original, listed, text⟩
    subst equal text
    rw [memberText, printable_append_iff, printable_cons_iff]
    exact ⟨printable_writeJsonString _, by decide, ih original listed⟩

end Runtime

end TrustForge.Json
