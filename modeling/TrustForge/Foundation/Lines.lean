import Mathlib.Data.List.DropRight
import TrustForge.Foundation.Text

/-!
# Lines and fields

Text files as line readers see them.  The bytes are cut after every line feed, a piece is
decoded on its own and loses its line ending, and a line is cut at separators.  A file
that was written line by line is read back line by line; whatever follows the last line
feed is a line too.
-/

namespace TrustForge.Lines

open Text List Option

/-! ## Fields -/

/-- The text before and after the first separator. -/
def splitOnce (separator : Char) : List Char → Option (List Char × List Char)
  | [] => none
  | c :: rest =>
    if c = separator then some ([], rest)
    else (splitOnce separator rest).map fun parts => (c :: parts.1, parts.2)

variable (separator : Char)

variable (text : List Char)

theorem splitOnce_eq_none_iff : splitOnce separator text = none ↔ separator ∉ text := by
  induction text with
  | nil => simp [splitOnce]
  | cons c rest ih =>
    by_cases here : c = separator
    · simp [splitOnce, here]
    · have other : ¬separator = c := fun equal => here equal.symm
      simp [splitOnce, here, other, ih]

theorem splitOnce_append {first : List Char} (plain : separator ∉ first) (rest : List Char) :
    splitOnce separator (first ++ separator :: rest) = some (first, rest) := by
  induction first with
  | nil => simp [splitOnce]
  | cons c first ih =>
    rw [mem_cons, not_or] at plain
    rw [cons_append, splitOnce, if_neg fun equal => plain.1 equal.symm, ih plain.2]
    rfl

theorem eq_append_of_splitOnce {separator : Char} {text first rest : List Char}
    (split : splitOnce separator text = some (first, rest)) :
    text = first ++ separator :: rest ∧ separator ∉ first := by
  induction text generalizing first with
  | nil => contradiction
  | cons c tail ih =>
    rw [splitOnce] at split
    by_cases here : c = separator
    · rw [if_pos here] at split
      cases some.inj split
      simp [here]
    · rw [if_neg here] at split
      rcases map_eq_some_iff.mp split with ⟨⟨start, last⟩, later, equal⟩
      cases equal
      rcases ih later with ⟨shape, plain⟩
      have other : ¬separator = c := fun equal => here equal.symm
      exact ⟨by rw [shape]; rfl, by simp [other, plain]⟩

/-- The fields of a line, at most `n` of them; the last one keeps its separators. -/
def splitn (separator : Char) : Nat → List Char → List (List Char)
  | 0, _ => []
  | 1, text => [text]
  | n + 2, text =>
    match splitOnce separator text with
    | none => [text]
    | some (first, rest) => first :: splitn separator (n + 1) rest

theorem splitn_cons (n : Nat) {first : List Char} (plain : separator ∉ first) (rest : List Char) :
    splitn separator (n + 2) (first ++ separator :: rest) =
      first :: splitn separator (n + 1) rest := by
  rw [splitn, splitOnce_append separator plain]

theorem splitn_three {first second : List Char} (plain : separator ∉ first)
    (plain' : separator ∉ second) (third : List Char) :
    splitn separator 3 (first ++ separator :: (second ++ separator :: third)) =
      [first, second, third] := by
  rw [splitn_cons separator 1 plain, splitn_cons separator 0 plain', splitn]

theorem eq_append_of_splitn_three {separator : Char} {text first second third : List Char}
    (split : splitn separator 3 text = [first, second, third]) :
    text = first ++ separator :: (second ++ separator :: third) ∧ separator ∉ first ∧
      separator ∉ second := by
  cases once : splitOnce separator text with
  | none => simp [splitn, once] at split
  | some parts =>
    rcases parts with ⟨a, rest⟩
    cases twice : splitOnce separator rest with
    | none => simp [splitn, once, twice] at split
    | some more =>
      rcases more with ⟨b, c⟩
      simp only [splitn, once, twice, List.cons.injEq, and_true] at split
      rcases split with ⟨equal, equal', equal''⟩
      subst equal equal' equal''
      rcases eq_append_of_splitOnce once with ⟨shape, plain⟩
      rcases eq_append_of_splitOnce twice with ⟨shape', plain'⟩
      rw [shape, shape']
      exact ⟨rfl, plain, plain'⟩

/-- Texts that one field begins have the same first field. -/
theorem eq_of_append_separator {separator : Char} {first first' rest rest' : List Char}
    (plain : separator ∉ first) (plain' : separator ∉ first')
    (same : first ++ separator :: rest = first' ++ separator :: rest') :
    first = first' ∧ rest = rest' := by
  have split := splitOnce_append separator plain rest
  rw [same, splitOnce_append separator plain' rest'] at split
  exact ⟨(Prod.mk.inj (some.inj split)).1.symm, (Prod.mk.inj (some.inj split)).2.symm⟩

/-! ## White space -/

/-- The characters with the Unicode property `White_Space`. -/
def isWhitespace (c : Char) : Bool :=
  decide (9 ≤ c.toNat ∧ c.toNat ≤ 13) || c.toNat == 0x20 || c.toNat == 0x85 ||
    c.toNat == 0xa0 || c.toNat == 0x1680 || decide (0x2000 ≤ c.toNat ∧ c.toNat ≤ 0x200a) ||
    c.toNat == 0x2028 || c.toNat == 0x2029 || c.toNat == 0x202f || c.toNat == 0x205f ||
    c.toNat == 0x3000

/-- The text without white space at its ends. -/
def trim (text : List Char) : List Char :=
  ((text.dropWhile isWhitespace).reverse.dropWhile isWhitespace).reverse

theorem trim_sublist : (trim text).Sublist text := by
  have inner : (trim text).Sublist (text.dropWhile isWhitespace).reverse.reverse :=
    (dropWhile_sublist _).reverse
  rw [reverse_reverse] at inner
  exact inner.trans (dropWhile_sublist _)

theorem trim_eq_nil_iff : trim text = [] ↔ ∀ c ∈ text, isWhitespace c = true := by
  rw [trim, reverse_eq_nil_iff, dropWhile_eq_nil_iff]
  constructor
  · intro rest
    by_contra solid
    have left : text.dropWhile isWhitespace ≠ [] := mt dropWhile_eq_nil_iff.mp solid
    have first := head_dropWhile_not isWhitespace left
    rw [rest _ (mem_reverse.mpr (head_mem left))] at first
    contradiction
  · intro blank c member
    exact blank c ((dropWhile_sublist _).mem (mem_reverse.mp member))

/-- White space after a text that has none is all that goes. -/
theorem trim_append {text space : List Char} (solid : ∀ c ∈ text, isWhitespace c = false)
    (blank : ∀ c ∈ space, isWhitespace c = true) : trim (text ++ space) = text := by
  cases text with
  | nil => exact (trim_eq_nil_iff _).mpr blank
  | cons c rest =>
    have front : ((c :: rest) ++ space).dropWhile isWhitespace = (c :: rest) ++ space := by
      rw [cons_append, dropWhile_cons_of_neg]
      rw [solid c mem_cons_self]
      exact Bool.false_ne_true
    have back : (space.reverse ++ (c :: rest).reverse).dropWhile isWhitespace =
        (c :: rest).reverse := by
      rw [dropWhile_append_of_pos fun d member => blank d (mem_reverse.mp member)]
      apply dropWhile_eq_self_iff.mpr
      intro positive
      rw [solid _ (mem_reverse.mp (getElem_mem positive))]
      exact Bool.false_ne_true
    rw [trim, front, reverse_append, back, reverse_reverse]

theorem trim_append_solid (front middle : List Char) {first last : Char}
    (starts : isWhitespace first = false) (ends : isWhitespace last = false) :
    trim (front ++ first :: (middle ++ [last])) =
      front.dropWhile isWhitespace ++ first :: (middle ++ [last]) := by
  have left : (front ++ first :: (middle ++ [last])).dropWhile isWhitespace =
      front.dropWhile isWhitespace ++ first :: (middle ++ [last]) := by
    rw [dropWhile_append]
    split
    · next blank => simp [isEmpty_iff.mp blank, starts]
    · rfl
  rw [trim, left]
  simp [ends]

theorem trim_concat_space : trim (text ++ [' ']) = trim text := by
  have space : isWhitespace ' ' = true := rfl
  rw [trim, trim, dropWhile_append]
  split
  · next blank => simp [isEmpty_iff.mp blank, space]
  · simp [space]

theorem trim_dropWhile : trim (text.dropWhile isWhitespace) = trim text := by
  rw [trim, dropWhile_idempotent, trim]

/-! ## Lines -/

/-- The byte that ends a line. -/
def lineFeed : UInt8 := 10

/-- The bytes cut after every line feed. -/
def pieces : Bytes → List Bytes
  | [] => []
  | b :: rest =>
    if b = lineFeed then [b] :: pieces rest
    else
      match pieces rest with
      | [] => [[b]]
      | piece :: more => (b :: piece) :: more

/-- The text without its line ending, a line feed that may follow a carriage return. -/
def chomp (line : List Char) : List Char :=
  if line.getLast? = some '\n' then
    if line.dropLast.getLast? = some '\r' then line.dropLast.dropLast else line.dropLast
  else line

/-- The lines of a file.  A line that is not UTF-8 cannot be read. -/
def readLines (bytes : Bytes) : List (Option (List Char)) :=
  (pieces bytes).map fun piece => (ofUtf8? piece).map fun s => chomp s.toList

theorem pieces_append {line : Bytes} (inside : lineFeed ∉ line) (rest : Bytes) :
    pieces (line ++ lineFeed :: rest) = (line ++ [lineFeed]) :: pieces rest := by
  induction line with
  | nil => simp [pieces]
  | cons b line ih =>
    rw [mem_cons, not_or] at inside
    rw [cons_append, pieces, if_neg fun equal => inside.1 equal.symm, ih inside.2]
    rfl

theorem pieces_of_not_mem {line : Bytes} (inside : lineFeed ∉ line) (some : line ≠ []) :
    pieces line = [line] := by
  induction line with
  | nil => contradiction
  | cons b line ih =>
    rw [mem_cons, not_or] at inside
    rw [pieces, if_neg fun equal => inside.1 equal.symm]
    cases line with
    | nil => rfl
    | cons c rest => rw [ih inside.2 (cons_ne_nil c rest)]

theorem lineFeed_not_mem_utf8 {line : List Char} (inside : '\n' ∉ line) :
    lineFeed ∉ utf8 (String.ofList line) := by
  rw [utf8_ofList, mem_flatMap]
  rintro ⟨c, member, byte⟩
  by_cases ascii : c.toNat < 128
  · rw [utf8EncodeChar_of_ascii c ascii, mem_singleton] at byte
    have code : c.toNat = 10 := by
      have same := congrArg UInt8.toNat byte
      rw [UInt8.toNat_ofNat_of_lt' (ascii.trans (by decide))] at same
      exact same.symm
    have equal : c = '\n' := Char.toNat_inj.mp code
    rw [equal] at member
    exact inside member
  · have high := high_of_mem_utf8EncodeChar (le_of_not_gt ascii) byte
    exact absurd high (by decide)

/-- A written line is read as it was, before whatever follows it. -/
theorem readLines_append {line : List Char} (inside : '\n' ∉ line)
    (plain : line.getLast? ≠ some '\r') (rest : Bytes) :
    readLines (utf8 (String.ofList line) ++ lineFeed :: rest) =
      some line :: readLines rest := by
  have whole : utf8 (String.ofList line) ++ [lineFeed] =
      utf8 (String.ofList (line ++ ['\n'])) := by
    rw [utf8_ofList, utf8_ofList, flatMap_append]
    rfl
  rw [readLines, pieces_append (lineFeed_not_mem_utf8 inside), map_cons, whole,
    ofUtf8?_utf8, map_some, String.toList_ofList, chomp, List.getLast?_concat,
    if_pos rfl, dropLast_concat, if_neg plain]
  rfl

theorem readLines_nil : readLines [] = [] :=
  rfl

/-- Bytes without a line feed are one line. -/
theorem readLines_of_not_mem {bytes : Bytes} (inside : lineFeed ∉ bytes) (some : bytes ≠ []) :
    readLines bytes = [(ofUtf8? bytes).map fun s => chomp s.toList] := by
  rw [readLines, pieces_of_not_mem inside some, map_singleton]

theorem chomp_of_not_mem {line : List Char} (inside : '\n' ∉ line) : chomp line = line := by
  rw [chomp, if_neg]
  intro last
  exact inside (mem_of_getLast? last)

end TrustForge.Lines
