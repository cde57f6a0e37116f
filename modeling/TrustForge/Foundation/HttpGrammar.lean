import Mathlib.Data.List.TakeWhile
import TrustForge.Foundation.Text

/-!
# The head of an HTTP/1.1 request

The grammar of a request up to its body, as a reader of octets: a request line of a method,
a target and a version, field lines, and an empty line.  Lines end in CRLF.  What is put
together from valid parts is read back as these parts, and everything that is read is valid.
-/

namespace TrustForge.HttpGrammar

open Option hiding all_eq_true
open List

/-! ## Octets -/

variable (b : UInt8)

def isDigit : Bool :=
  48 ≤ b && b ≤ 57

def isAlpha : Bool :=
  (65 ≤ b && b ≤ 90) || (97 ≤ b && b ≤ 122)

def isHexDigit : Bool :=
  isDigit b || (65 ≤ b && b ≤ 70) || (97 ≤ b && b ≤ 102)

/-- A character of a token: a letter, a digit or one of the marks that are not delimiters. -/
def isTokenByte : Bool :=
  isAlpha b || isDigit b || [33, 35, 36, 37, 38, 39, 42, 43, 45, 46, 94, 95, 96, 124, 126].contains b

/-- A space or a tab. -/
def isBlank : Bool :=
  b == 32 || b == 9

/-- An octet of a field value: a blank, a visible character or one beyond ASCII. -/
def isFieldByte : Bool :=
  isBlank b || (33 ≤ b && b ≤ 126) || 128 ≤ b

/-- A character of a path or query other than an escape. -/
def isTargetByte : Bool :=
  isAlpha b || isDigit b ||
    [45, 46, 95, 126, 33, 36, 38, 39, 40, 41, 42, 43, 44, 59, 61, 58, 64, 47, 63].contains b

/-! ## Parts -/

def isToken (bytes : Bytes) : Bool :=
  !bytes.isEmpty && bytes.all isTokenByte

/-- Characters and escapes, of which so many digits are still to come. -/
def isTargetText : Nat → Bytes → Bool
  | 0, [] => true
  | _ + 1, [] => false
  | 0, b :: rest => if b = 37 then isTargetText 2 rest else isTargetByte b && isTargetText 0 rest
  | n + 1, b :: rest => isHexDigit b && isTargetText n rest

/-- A path from the root with an optional query. -/
def isTarget : Bytes → Bool
  | [] => false
  | b :: rest => b == 47 && isTargetText 0 rest

/-- `HTTP/` with a digit, a dot and a digit. -/
def isVersion (bytes : Bytes) : Bool :=
  match bytes with
  | [h, t, u, p, slash, major, dot, minor] =>
    [h, t, u, p, slash, dot] == [72, 84, 84, 80, 47, 46] && isDigit major && isDigit minor
  | _ => false

structure RequestLine where
  method : Bytes
  target : Bytes
  version : Bytes
  deriving DecidableEq

structure Field where
  name : Bytes
  value : Bytes
  deriving DecidableEq

structure Head where
  line : RequestLine
  fields : List Field
  deriving DecidableEq

variable (line : RequestLine)

def RequestLine.Valid : Prop :=
  isToken line.method = true ∧ isTarget line.target = true ∧ isVersion line.version = true

instance : Decidable line.Valid :=
  inferInstanceAs (Decidable (_ ∧ _ ∧ _))

def Field.Valid (field : Field) : Prop :=
  isToken field.name = true ∧ field.value.all isFieldByte = true

instance (field : Field) : Decidable field.Valid :=
  inferInstanceAs (Decidable (_ ∧ _))

/-! ## The reader -/

/-- What stands before and after the first occurrence of an octet. -/
def cut (separator : UInt8) : Bytes → Option (Bytes × Bytes)
  | [] => none
  | b :: rest =>
    if b = separator then some ([], rest)
    else (cut separator rest).map fun parts => (b :: parts.1, parts.2)

/-- The first line, and what follows its CRLF. -/
def takeLine : Bytes → Option (Bytes × Bytes)
  | [] => none
  | b :: rest =>
    if b = 13 ∧ rest.head? = some 10 then some ([], rest.tail)
    else (takeLine rest).map fun parts => (b :: parts.1, parts.2)

/-- A field value without the blanks around it. -/
def trimBlanks (bytes : Bytes) : Bytes :=
  ((bytes.dropWhile isBlank).reverse.dropWhile isBlank).reverse

def readRequestLine (line : Bytes) : Option RequestLine := do
  let (method, rest) ← cut 32 line
  let (target, version) ← cut 32 rest
  let read : RequestLine := ⟨method, target, version⟩
  if read.Valid then some read else none

def readField (line : Bytes) : Option Field := do
  let (name, rest) ← cut 58 line
  let read : Field := ⟨name, trimBlanks rest⟩
  if read.Valid then some read else none

/-- Field lines up to an empty line.  The fuel bounds their number. -/
def readFields : Nat → Bytes → Option (List Field × Bytes)
  | 0, _ => none
  | fuel + 1, bytes => do
    let (line, rest) ← takeLine bytes
    if line = [] then some ([], rest)
    else
      let field ← readField line
      let (fields, rest) ← readFields fuel rest
      some (field :: fields, rest)

/-- The head of a request and the bytes behind it. -/
def readHead (bytes : Bytes) : Option (Head × Bytes) := do
  let (line, rest) ← takeLine bytes
  let requestLine ← readRequestLine line
  let (fields, rest) ← readFields bytes.length rest
  some (⟨requestLine, fields⟩, rest)

/-! ## What is read is valid -/

theorem valid_of_readRequestLine {line : Bytes} {read : RequestLine}
    (found : readRequestLine line = some read) : read.Valid := by
  simp only [readRequestLine, bind_eq_bind, bind_eq_some_iff] at found
  obtain ⟨_, _, _, _, found⟩ := found
  split at found
  · cases found
    assumption
  · contradiction

theorem valid_of_readField {line : Bytes} {read : Field} (found : readField line = some read) :
    read.Valid := by
  simp only [readField, bind_eq_bind, bind_eq_some_iff] at found
  obtain ⟨_, _, found⟩ := found
  split at found
  · cases found
    assumption
  · contradiction

theorem valid_of_readFields {fuel : Nat} {bytes rest : Bytes} {fields : List Field}
    (found : readFields fuel bytes = some (fields, rest)) : ∀ field ∈ fields, field.Valid := by
  induction fuel generalizing bytes fields with
  | zero => contradiction
  | succ fuel ih =>
    obtain ⟨⟨line, later⟩, -, found⟩ := bind_eq_some_iff.mp found
    dsimp only at found
    by_cases ended : line = []
    · rw [if_pos ended] at found
      cases found
      exact forall_mem_nil _
    · rw [if_neg ended] at found
      obtain ⟨field, first, next⟩ := bind_eq_some_iff.mp found
      obtain ⟨⟨others, last⟩, second, done⟩ := bind_eq_some_iff.mp next
      cases done
      exact forall_mem_cons.mpr ⟨valid_of_readField first, ih second⟩

theorem valid_of_readHead {bytes rest : Bytes} {head : Head}
    (found : readHead bytes = some (head, rest)) :
    head.line.Valid ∧ ∀ field ∈ head.fields, field.Valid := by
  obtain ⟨⟨line, later⟩, -, next⟩ := bind_eq_some_iff.mp found
  obtain ⟨requestLine, first, next⟩ := bind_eq_some_iff.mp next
  obtain ⟨⟨fields, last⟩, others, done⟩ := bind_eq_some_iff.mp next
  cases done
  exact ⟨valid_of_readRequestLine first, valid_of_readFields others⟩

/-! ## Valid parts are read back -/

theorem cut_append {separator : UInt8} {front : Bytes} (inside : separator ∉ front) (rest : Bytes) :
    cut separator (front ++ separator :: rest) = some (front, rest) := by
  induction front with
  | nil => simp [cut]
  | cons b front ih =>
    rw [mem_cons, not_or] at inside
    rw [cons_append, cut, if_neg (Ne.symm inside.1), ih inside.2]
    rfl

theorem takeLine_append {line : Bytes} (inside : 13 ∉ line) (rest : Bytes) :
    takeLine (line ++ 13 :: 10 :: rest) = some (line, rest) := by
  induction line with
  | nil => simp [takeLine]
  | cons b line ih =>
    rw [mem_cons, not_or] at inside
    rw [cons_append, takeLine, if_neg fun ends => inside.1 ends.1.symm, ih inside.2]
    rfl

theorem not_mem_of_isToken {bytes : Bytes} (token : isToken bytes = true) {b : UInt8}
    (delimiter : isTokenByte b = false) : b ∉ bytes := by
  intro mem
  rw [isToken, Bool.and_eq_true, all_eq_true] at token
  rw [token.2 b mem] at delimiter
  contradiction

theorem not_mem_of_isTargetText {b : UInt8} (foreign : isTargetByte b = false)
    (noHex : isHexDigit b = false) (noEscape : b ≠ 37) {n : Nat} {bytes : Bytes}
    (text : isTargetText n bytes = true) : b ∉ bytes := by
  fun_induction isTargetText n bytes with
  | case1 => exact not_mem_nil
  | case2 => contradiction
  | case3 rest ih =>
    rw [mem_cons, not_or]
    exact ⟨noEscape, ih text⟩
  | case4 c rest plain ih =>
    rw [Bool.and_eq_true] at text
    rw [mem_cons, not_or]
    refine ⟨?_, ih text.2⟩
    rintro rfl
    rw [text.1] at foreign
    contradiction
  | case5 n c rest ih =>
    rw [Bool.and_eq_true] at text
    rw [mem_cons, not_or]
    refine ⟨?_, ih text.2⟩
    rintro rfl
    rw [text.1] at noHex
    contradiction

theorem not_mem_of_isTarget {b : UInt8} (foreign : isTargetByte b = false)
    (noHex : isHexDigit b = false) (noEscape : b ≠ 37) {bytes : Bytes}
    (target : isTarget bytes = true) : b ∉ bytes := by
  cases bytes with
  | nil => contradiction
  | cons c rest =>
    rw [isTarget, Bool.and_eq_true, beq_iff_eq] at target
    rw [mem_cons, not_or, target.1]
    refine ⟨?_, not_mem_of_isTargetText foreign noHex noEscape target.2⟩
    rintro rfl
    contradiction

theorem return_not_mem_of_isVersion {bytes : Bytes} (version : isVersion bytes = true) :
    (13 : UInt8) ∉ bytes := by
  unfold isVersion at version
  split at version
  · next h t u p slash major dot minor =>
    simp only [Bool.and_eq_true, beq_iff_eq] at version
    obtain ⟨⟨⟨rfl, rfl, rfl, rfl, rfl, rfl, -⟩, majorDigit⟩, minorDigit⟩ := version
    have digit {b : UInt8} (isOne : isDigit b = true) : 13 ≠ b := by
      rintro rfl
      contradiction
    simp [digit majorDigit, digit minorDigit]
  · contradiction

def RequestLine.bytes : Bytes :=
  line.method ++ 32 :: (line.target ++ 32 :: line.version)

theorem readRequestLine_bytes {line : RequestLine} (valid : line.Valid) :
    readRequestLine line.bytes = some line := by
  have method : (32 : UInt8) ∉ line.method := not_mem_of_isToken valid.1 (by decide)
  have target : (32 : UInt8) ∉ line.target :=
    not_mem_of_isTarget (by decide) (by decide) (by decide) valid.2.1
  rw [readRequestLine, RequestLine.bytes, cut_append method]
  simp only [bind_eq_bind, bind_some, cut_append target]
  rw [if_pos valid]

theorem return_not_mem_bytes {line : RequestLine} (valid : line.Valid) :
    (13 : UInt8) ∉ line.bytes := by
  simp only [RequestLine.bytes, mem_append, mem_cons, not_or]
  exact ⟨not_mem_of_isToken valid.1 (by decide), by decide,
    not_mem_of_isTarget (by decide) (by decide) (by decide) valid.2.1, by decide,
    return_not_mem_of_isVersion valid.2.2⟩

/-- A field line as a writer puts it, with one space and perhaps more blanks around the value. -/
def fieldLine (name value : Bytes) : Bytes :=
  name ++ 58 :: 32 :: value

theorem all_dropWhile_isBlank (bytes : Bytes) :
    (bytes.dropWhile isBlank).all isFieldByte = bytes.all isFieldByte := by
  induction bytes with
  | nil => rfl
  | cons b rest ih =>
    rw [dropWhile_cons]
    split
    · next blank =>
      have allowed : isFieldByte b = true := by
        rw [isFieldByte, blank, Bool.true_or, Bool.true_or]
      rw [ih, all_cons, allowed, Bool.true_and]
    · rfl

/-- Blanks are allowed in a value, so trimming does not matter. -/
theorem all_trimBlanks (bytes : Bytes) :
    (trimBlanks bytes).all isFieldByte = bytes.all isFieldByte := by
  rw [trimBlanks, all_reverse, all_dropWhile_isBlank, all_reverse, all_dropWhile_isBlank]

/-- A value with no blanks stays as it is. -/
theorem trimBlanks_eq_self {bytes : Bytes} (solid : ∀ b ∈ bytes, isBlank b = false) :
    trimBlanks bytes = bytes := by
  have kept {front : Bytes} (plain : ∀ b ∈ front, isBlank b = false) :
      front.dropWhile isBlank = front := by
    cases front with
    | nil => rfl
    | cons b rest => rw [dropWhile_cons, plain b mem_cons_self, if_neg Bool.false_ne_true]
  rw [trimBlanks, kept solid, kept fun b mem => solid b (mem_reverse.mp mem), reverse_reverse]

theorem readField_fieldLine {name value : Bytes} (token : isToken name = true)
    (allowed : value.all isFieldByte = true) :
    readField (fieldLine name value) = some ⟨name, trimBlanks value⟩ := by
  have colon : (58 : UInt8) ∉ name := not_mem_of_isToken token (by decide)
  have space : trimBlanks (32 :: value) = trimBlanks value := rfl
  rw [readField, fieldLine, cut_append colon]
  simp only [bind_eq_bind, bind_some, space]
  rw [if_pos ⟨token, (all_trimBlanks value).trans allowed⟩]

theorem return_not_mem_fieldLine {name value : Bytes} (token : isToken name = true)
    (allowed : value.all isFieldByte = true) : (13 : UInt8) ∉ fieldLine name value := by
  rw [all_eq_true] at allowed
  simp only [fieldLine, mem_append, mem_cons, not_or]
  exact ⟨not_mem_of_isToken token (by decide), by decide, by decide,
    fun mem => absurd (allowed 13 mem) (by decide)⟩

variable (fields : List (Bytes × Bytes))

/-- Field lines and the empty line behind them. -/
def fieldsBytes : Bytes :=
  fields.flatMap (fun field => fieldLine field.1 field.2 ++ [13, 10]) ++ [13, 10]

theorem length_lt_length_fieldsBytes :
    fields.length < (fieldsBytes fields).length := by
  induction fields with
  | nil => exact Nat.zero_lt_succ _
  | cons field fields ih =>
    simp only [fieldsBytes, flatMap_cons, length_append, length_cons] at ih ⊢
    omega

theorem readFields_fieldsBytes {fields : List (Bytes × Bytes)}
    (valid : ∀ field ∈ fields, isToken field.1 = true ∧ field.2.all isFieldByte = true)
    (rest : Bytes) {fuel : Nat} (enough : fields.length < fuel) :
    readFields fuel (fieldsBytes fields ++ rest) =
      some (fields.map fun field => ⟨field.1, trimBlanks field.2⟩, rest) := by
  induction fields generalizing fuel with
  | nil =>
    cases fuel with
    | zero => contradiction
    | succ fuel =>
      have line : takeLine (fieldsBytes [] ++ rest) = some ([], rest) :=
        takeLine_append not_mem_nil rest
      rw [readFields, line]
      rfl
  | cons field fields ih =>
    cases fuel with
    | zero => contradiction
    | succ fuel =>
      obtain ⟨⟨token, allowed⟩, others⟩ := forall_mem_cons.mp valid
      have split : fieldsBytes (field :: fields) ++ rest =
          fieldLine field.1 field.2 ++ 13 :: 10 :: (fieldsBytes fields ++ rest) := by
        simp [fieldsBytes]
      have present : fieldLine field.1 field.2 ≠ [] := by
        simp [fieldLine]
      rw [split, readFields, takeLine_append (return_not_mem_fieldLine token allowed)]
      simp only [bind_eq_bind, bind_some, present,
        readField_fieldLine token allowed, ih others (Nat.lt_of_succ_lt_succ enough)]
      rfl

/-- A head as a writer puts it. -/
def headBytes : Bytes :=
  line.bytes ++ 13 :: 10 :: fieldsBytes fields

theorem readHead_headBytes {line : RequestLine} {fields : List (Bytes × Bytes)} (valid : line.Valid)
    (validFields : ∀ field ∈ fields, isToken field.1 = true ∧ field.2.all isFieldByte = true) :
    readHead (headBytes line fields) =
      some (⟨line, fields.map fun field => ⟨field.1, trimBlanks field.2⟩⟩, []) := by
  have enough : fields.length < (headBytes line fields).length := by
    have lines := length_lt_length_fieldsBytes fields
    simp only [headBytes, length_append, length_cons]
    omega
  have read := readFields_fieldsBytes validFields [] enough
  rw [append_nil] at read
  rw [readHead, headBytes, takeLine_append (return_not_mem_bytes valid), ← headBytes]
  simp [readRequestLine_bytes valid, read]

end TrustForge.HttpGrammar
