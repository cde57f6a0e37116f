import TrustForge.Json.Value

/-!
# Number texts

A `Numeral` is the plain decimal text the writers of the code produce: an optional
minus sign, a whole part without superfluous zeros, an optional fraction.  A `Token`
is what the JSON reader cuts out of its input, where an exponent may follow.  Both
are read back by the integer rules of `serde_json`, and by its float reader where
those do not apply.
-/

namespace TrustForge.Json

open Option Nat List

/-- Plain decimal text.  An empty fraction stands for no decimal point. -/
structure Numeral where
  negative : Bool
  whole : List Char
  fraction : List Char
  wholeDigits : ∀ c ∈ whole, c.isDigit = true
  fractionDigits : ∀ c ∈ fraction, c.isDigit = true
  nonempty : whole ≠ []
  noLeadingZero : whole.head? = some '0' → whole = ['0']

/-- The number text the reader has cut out, with its fraction and exponent unread. -/
structure Token where
  negative : Bool
  whole : List Char
  tail : List Char

/-- The sign as it is written. -/
def signText (negative : Bool) : List Char :=
  if negative then ['-'] else []

def Token.text (token : Token) : List Char :=
  signText token.negative ++ (token.whole ++ token.tail)

/-! ## Decimal digits -/

theorem toDigits_eq_zero_iff (n : Nat) : Nat.toDigits 10 n = ['0'] ↔ n = 0 := by
  constructor
  · intro digits
    have value := ofDigitChars_toDigits (b := 10) (n := n) (by decide) (by decide)
    rw [digits] at value
    exact value.symm
  · intro zero
    subst zero
    rfl

theorem toDigits_noLeadingZero (n : Nat) (head : (Nat.toDigits 10 n).head? = some '0') :
    Nat.toDigits 10 n = ['0'] := by
  induction n using Nat.strongRecOn with
  | ind n ih =>
    by_cases small : n < 10
    · rw [toDigits_of_lt_base small] at head ⊢
      simpa using head
    · have large : 10 ≤ n := le_of_not_gt small
      rw [toDigits_of_base_le (by decide) large,
        List.head?_append_of_ne_nil _ toDigits_ne_nil] at head
      have quotient := (toDigits_eq_zero_iff _).mp
        (ih (n / 10) (div_lt_self (by omega) (by decide)) head)
      omega

namespace Numeral

/-- The decimal text of an integer given by sign and magnitude. -/
def ofInteger (negative : Bool) (magnitude : Nat) : Numeral where
  negative := negative
  whole := Nat.toDigits 10 magnitude
  fraction := []
  wholeDigits := fun _ member => isDigit_of_mem_toDigits (by decide) (by decide) member
  fractionDigits := by simp
  nonempty := toDigits_ne_nil
  noLeadingZero := toDigits_noLeadingZero magnitude

/-- The fraction with its point. -/
def tail (n : Numeral) : List Char :=
  if n.fraction = [] then [] else '.' :: n.fraction

/-- The token the reader finds in the text of a numeral. -/
def token (n : Numeral) : Token :=
  ⟨n.negative, n.whole, n.tail⟩

def text (n : Numeral) : List Char :=
  n.token.text

end Numeral

/-! ## Reading a token -/

/-- An integer text: unsigned if it fits 64 bits, negative if it fits a signed 64 bit
integer.  A negative zero is a float, like everything larger. -/
def readInteger (readF64 : List Char → Option F64) (token : Token) : Option Number :=
  let magnitude := Nat.ofDigitChars 10 token.whole 0
  if token.negative then
    if magnitude = 0 then some (.float .negZero)
    else if fits : magnitude - 1 < 2 ^ 63 then some (.negInt ⟨magnitude - 1, fits⟩)
    else (readF64 token.text).map .float
  else if fits : magnitude < 2 ^ 64 then some (.posInt ⟨magnitude, fits⟩)
  else (readF64 token.text).map .float

/-- `Deserializer::parse_number`, by what follows the whole part. -/
def readNumber (readF64 : List Char → Option F64) (token : Token) : Option Number :=
  if token.tail = [] then readInteger readF64 token else (readF64 token.text).map .float

section

variable (readF64 : List Char → Option F64)

theorem readNumber_posInt (value : Fin (2 ^ 64)) :
    readNumber readF64 (Numeral.ofInteger false value).token = some (.posInt value) := by
  have magnitude := ofDigitChars_toDigits (b := 10) (n := value) (by decide) (by decide)
  simp [readNumber, readInteger, Numeral.token, Numeral.tail, Numeral.ofInteger]

theorem readNumber_negInt (value : Fin (2 ^ 63)) :
    readNumber readF64 (Numeral.ofInteger true (value + 1)).token = some (.negInt value) := by
  have magnitude :=
    ofDigitChars_toDigits (b := 10) (n := value + 1) (by decide) (by decide)
  simp [readNumber, readInteger, Numeral.token, Numeral.tail, Numeral.ofInteger]

end

/-! ## Cutting a token out of the input -/

/-- The digits at the front of the input, and what follows. -/
def spanDigits (input : List Char) : List Char × List Char :=
  (input.takeWhile Char.isDigit, input.dropWhile Char.isDigit)

/-- A decimal point must be followed by a digit. -/
def scanFraction : List Char → Option (List Char × List Char)
  | '.' :: input =>
    let (digits, rest) := spanDigits input
    if digits = [] then none else some ('.' :: digits, rest)
  | input => some ([], input)

/-- The sign of an exponent. -/
def scanExponentSign : List Char → List Char × List Char
  | '+' :: input => (['+'], input)
  | '-' :: input => (['-'], input)
  | input => ([], input)

/-- An exponent marker must be followed by a digit, after an optional sign. -/
def scanExponent : List Char → Option (List Char × List Char)
  | [] => some ([], [])
  | c :: input =>
    if c = 'e' ∨ c = 'E' then
      let (sign, afterSign) := scanExponentSign input
      let (digits, rest) := spanDigits afterSign
      if digits = [] then none else some (c :: (sign ++ digits), rest)
    else some ([], c :: input)

/-- The sign of a number. -/
def scanSign : List Char → Bool × List Char
  | '-' :: input => (true, input)
  | input => (false, input)

/-- A number at the front of the input: a leading zero stands alone. -/
def scanNumber (input : List Char) : Option (Token × List Char) := do
  let (negative, afterSign) := scanSign input
  let (whole, afterWhole) := spanDigits afterSign
  if whole = [] ∨ (whole.head? = some '0' ∧ whole ≠ ['0']) then none
  else do
    let (fraction, afterFraction) ← scanFraction afterWhole
    let (exponent, rest) ← scanExponent afterFraction
    some (⟨negative, whole, fraction ++ exponent⟩, rest)

/-- The input cannot continue a number text. -/
def EndsNumber (input : List Char) : Prop :=
  ∀ c, input.head? = some c → c.isDigit = false ∧ c ≠ '.' ∧ c ≠ 'e' ∧ c ≠ 'E'

section

variable {digits rest : List Char}

theorem spanDigits_append (allDigits : ∀ c ∈ digits, c.isDigit = true)
    (ends : ∀ c, rest.head? = some c → c.isDigit = false) :
    spanDigits (digits ++ rest) = (digits, rest) := by
  unfold spanDigits
  rw [takeWhile_append_of_pos allDigits, dropWhile_append_of_pos allDigits]
  cases rest with
  | nil => simp
  | cons c rest => simp [ends c rfl]

theorem scanExponent_of_ends (ends : EndsNumber rest) : scanExponent rest = some ([], rest) := by
  cases rest with
  | nil => rfl
  | cons c rest =>
    have notMarker := (ends c rfl).2.2
    simp [scanExponent, notMarker]

theorem scanFraction_of_ends (ends : EndsNumber rest) : scanFraction rest = some ([], rest) := by
  unfold scanFraction
  split
  · next input =>
    exact absurd rfl (ends '.' rfl).2.1
  · rfl

theorem scanFraction_tail (n : Numeral) (ends : EndsNumber rest) :
    scanFraction (n.tail ++ rest) = some (n.tail, rest) := by
  unfold Numeral.tail
  by_cases whole : n.fraction = []
  · simpa [whole] using scanFraction_of_ends ends
  · rw [if_neg whole, cons_append, scanFraction,
      spanDigits_append n.fractionDigits fun c head => (ends c head).1]
    simp [whole]

theorem scanSign_text (n : Numeral) (following : List Char) :
    scanSign (signText n.negative ++ (n.whole ++ following)) =
      (n.negative, n.whole ++ following) := by
  cases sign : n.negative with
  | true => rfl
  | false =>
    cases parts : n.whole with
    | nil => exact absurd parts n.nonempty
    | cons c digits =>
      have digit := n.wholeDigits c (by rw [parts]; exact mem_cons_self)
      simp only [signText, Bool.false_eq_true, ↓reduceIte, nil_append, cons_append]
      unfold scanSign
      split
      · next equal =>
        simp only [cons.injEq] at equal
        rw [equal.1] at digit
        contradiction
      · rfl

/-- What ends a number also ends its whole part, and so does a decimal point. -/
theorem tail_append_ends (n : Numeral) (ends : EndsNumber rest) (c : Char)
    (head : (n.tail ++ rest).head? = some c) : c.isDigit = false := by
  unfold Numeral.tail at head
  by_cases whole : n.fraction = []
  · rw [if_pos whole] at head
    exact (ends c head).1
  · rw [if_neg whole] at head
    simp only [cons_append, List.head?_cons, some.injEq] at head
    subst head
    rfl

/-- The reader cuts the text of a numeral out of whatever follows it. -/
theorem scanNumber_text (n : Numeral) (ends : EndsNumber rest) :
    scanNumber (n.text ++ rest) = some (n.token, rest) := by
  have split : n.text ++ rest = signText n.negative ++ (n.whole ++ (n.tail ++ rest)) := by
    simp [Numeral.text, Token.text, Numeral.token]
  have wellFormed : ¬(n.whole = [] ∨ (n.whole.head? = some '0' ∧ n.whole ≠ ['0'])) := by
    intro malformed
    rcases malformed with empty | ⟨zero, more⟩
    · exact n.nonempty empty
    · exact more (n.noLeadingZero zero)
  rw [split]
  simp only [scanNumber, scanSign_text, spanDigits_append n.wholeDigits (tail_append_ends n ends),
    if_neg wellFormed, scanFraction_tail n ends, scanExponent_of_ends ends, bind_eq_bind,
    bind_some, append_nil]
  rfl

end

end TrustForge.Json
