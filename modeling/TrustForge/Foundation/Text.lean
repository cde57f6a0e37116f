import Mathlib.Data.String.Basic

/-!
# Text and bytes

Strings as their UTF-8 bytes.  Writing then reading gives the string back, and a
string whose bytes are all ASCII has only ASCII characters.
-/

namespace TrustForge

open String hiding append_assoc length_append map_map toByteArray_append
open List

/-- `Vec<u8>` and byte slices. -/
abbrev Bytes := List UInt8

namespace Text

/-- The UTF-8 bytes of a string. -/
def utf8 (s : String) : Bytes :=
  s.toByteArray.data.toList

/-- The string with the given UTF-8 bytes, if they are well formed. -/
def ofUtf8? (bytes : Bytes) : Option String :=
  String.fromUTF8? ⟨bytes.toArray⟩

/-- The lower case hexadecimal digit. -/
def hexDigit (n : Nat) : Char :=
  if n < 10 then Char.ofNat ('0'.toNat + n) else Char.ofNat ('a'.toNat + (n - 10))

/-- A byte as two hexadecimal digits. -/
def hexByte (b : UInt8) : List Char :=
  [hexDigit (b.toNat / 16), hexDigit (b.toNat % 16)]

/-- Bytes as hexadecimal digits. -/
def hex (bytes : Bytes) : String :=
  String.ofList (bytes.flatMap hexByte)

/-- Every character is ASCII. -/
def IsAscii (s : String) : Prop :=
  ∀ c ∈ s.toList, c.toNat < 128

theorem ascii_of_all {chars : List Char} (each : chars.all (fun c => c.toNat < 128) = true) :
    ∀ c ∈ chars, c.toNat < 128 :=
  fun c member => of_decide_eq_true (all_eq_true.mp each c member)

-- Given by name: inference may find the search over all characters instead.
instance (s : String) : Decidable (IsAscii s) :=
  List.decidableBAll (fun c : Char => c.toNat < 128) s.toList

theorem ofUtf8?_utf8 (s : String) : ofUtf8? (utf8 s) = some s := by
  have bytes : (⟨(utf8 s).toArray⟩ : ByteArray) = s.toByteArray := by
    simp [utf8]
  unfold ofUtf8? String.fromUTF8?
  rw [bytes, dif_pos s.isValidUTF8]
  rfl

theorem utf8_of_ofUtf8? {bytes : Bytes} {s : String} (read : ofUtf8? bytes = some s) :
    utf8 s = bytes := by
  unfold ofUtf8? String.fromUTF8? at read
  split at read
  · cases read
    simp [utf8, String.fromUTF8]
  · contradiction

theorem utf8_injective {s t : String} (equal : utf8 s = utf8 t) : s = t := by
  have read := ofUtf8?_utf8 s
  rw [equal, ofUtf8?_utf8] at read
  exact (Option.some.inj read).symm

variable (chars : List Char)

theorem utf8_ofList :
    utf8 (String.ofList chars) = chars.flatMap String.utf8EncodeChar := by
  unfold utf8
  rw [toByteArray_ofList]
  simp [List.utf8Encode]

theorem utf8_eq_flatMap (s : String) : utf8 s = s.toList.flatMap String.utf8EncodeChar := by
  rw [← utf8_ofList, ofList_toList]

theorem utf8_append (s t : String) : utf8 (s ++ t) = utf8 s ++ utf8 t := by
  simp [utf8_eq_flatMap]

theorem utf8EncodeChar_of_ascii (c : Char) (ascii : c.toNat < 128) :
    String.utf8EncodeChar c = [UInt8.ofNat c.toNat] := by
  have small : c.val.toNat ≤ 127 := Nat.le_of_lt_succ ascii
  simp only [String.utf8EncodeChar, small]
  rfl

/-- Other characters have no ASCII bytes. -/
theorem high_of_mem_utf8EncodeChar {c : Char} (high : 128 ≤ c.toNat) {b : UInt8}
    (member : b ∈ String.utf8EncodeChar c) : 128 ≤ b.toNat := by
  have large : ¬c.val.toNat ≤ 127 := not_le_of_gt high
  have byte (n : Nat) (low : 128 ≤ n) (small : n < 256) : 128 ≤ (UInt8.ofNat n).toNat := by
    rwa [UInt8.toNat_ofNat_of_lt' small]
  simp only [String.utf8EncodeChar] at member
  split_ifs at member
  all_goals simp only [mem_cons, not_mem_nil, or_false] at member
  · rcases member with equal | equal
    all_goals
      rw [equal]
      exact byte _ (by omega) (by omega)
  · rcases member with equal | equal | equal
    all_goals
      rw [equal]
      exact byte _ (by omega) (by omega)
  · rcases member with equal | equal | equal | equal
    all_goals
      rw [equal]
      exact byte _ (by omega) (by omega)

/-- The first byte of such a character. -/
theorem exists_lead_of_high {c : Char} (high : 128 ≤ c.toNat) :
    ∃ b ∈ String.utf8EncodeChar c, 192 ≤ b.toNat := by
  have large : ¬c.val.toNat ≤ 127 := not_le_of_gt high
  have byte (n : Nat) (low : 192 ≤ n) (small : n < 256) : 192 ≤ (UInt8.ofNat n).toNat := by
    rwa [UInt8.toNat_ofNat_of_lt' small]
  simp only [String.utf8EncodeChar]
  split_ifs
  · exact ⟨_, mem_cons_self, byte _ (by omega) (by omega)⟩
  · exact ⟨_, mem_cons_self, byte _ (by omega) (by omega)⟩
  · exact ⟨_, mem_cons_self, byte _ (by omega) (by omega)⟩

/-- ASCII characters are their own bytes. -/
theorem utf8_ofList_of_ascii (ascii : ∀ c ∈ chars, c.toNat < 128) :
    utf8 (String.ofList chars) = chars.map fun c => UInt8.ofNat c.toNat := by
  rw [utf8_ofList]
  induction chars with
  | nil => rfl
  | cons c rest ih =>
    rw [flatMap_cons, map_cons, utf8EncodeChar_of_ascii c (ascii c (by simp)),
      ih fun x member => ascii x (mem_cons_of_mem c member)]
    rfl

theorem length_le_length_utf8 :
    chars.length ≤ (utf8 (String.ofList chars)).length := by
  rw [utf8_ofList]
  induction chars with
  | nil => exact le_refl _
  | cons c rest ih =>
    have size := c.utf8Size_pos
    rw [flatMap_cons, length_append, length_cons, length_utf8EncodeChar]
    omega

/-- A text with as many bytes as characters is ASCII. -/
theorem ascii_of_length_utf8_le {chars : List Char}
    (short : (utf8 (String.ofList chars)).length ≤ chars.length) : ∀ c ∈ chars, c.toNat < 128 := by
  induction chars with
  | nil => simp
  | cons c rest ih =>
    have tail := length_le_length_utf8 rest
    have size := c.utf8Size_pos
    rw [utf8_ofList, flatMap_cons, length_append, length_cons,
      length_utf8EncodeChar, ← utf8_ofList] at short
    have one : c.utf8Size = 1 := by omega
    intro d member
    rcases mem_cons.mp member with equal | later
    · rw [equal]
      exact Nat.lt_succ_of_le (Char.utf8Size_eq_one_iff.mp one)
    · exact ih (by omega) d later

theorem length_utf8EncodeChar_le (c : Char) : (String.utf8EncodeChar c).length ≤ 4 := by
  simp only [String.utf8EncodeChar]
  split
  · simp
  · split
    · simp
    · split <;> simp

theorem length_utf8_ofList_le : (utf8 (String.ofList chars)).length ≤ 4 * chars.length := by
  rw [utf8_ofList]
  induction chars with
  | nil => exact le_refl _
  | cons c rest ih =>
    rw [flatMap_cons, length_append, length_cons, Nat.mul_succ, add_comm]
    exact add_le_add ih (length_utf8EncodeChar_le c)

/-- The code of a character tells where it ends. -/
theorem utf8EncodeChar_append_inj {c d : Char} {x y : Bytes}
    (same : String.utf8EncodeChar c ++ x = String.utf8EncodeChar d ++ y) : c = d ∧ x = y := by
  have decoded (e : Char) (z : Bytes) :
      (String.utf8EncodeChar e ++ z).toByteArray.utf8DecodeChar? 0 = some e := by
    rw [toByteArray_append]
    exact ByteArray.utf8DecodeChar?_utf8EncodeChar_append
  have equal : c = d := by
    have first := decoded c x
    rw [same, decoded d y] at first
    exact (Option.some.inj first).symm
  subst equal
  exact ⟨rfl, append_cancel_left same⟩

/-- Bytes that begin a text and are a text themselves begin it with their characters. -/
theorem prefix_of_utf8_prefix {s t : List Char}
    (bytes : utf8 (String.ofList s) <+: utf8 (String.ofList t)) : s <+: t := by
  rw [utf8_ofList, utf8_ofList] at bytes
  induction s generalizing t with
  | nil => exact nil_prefix
  | cons c s ih =>
    rcases bytes with ⟨rest, equal⟩
    cases t with
    | nil =>
      have size := c.utf8Size_pos
      have lengths := congrArg List.length equal
      rw [flatMap_cons, length_append, length_append,
        length_utf8EncodeChar, flatMap_nil, length_nil] at lengths
      omega
    | cons d t =>
      rw [flatMap_cons, flatMap_cons, append_assoc] at equal
      rcases utf8EncodeChar_append_inj equal with ⟨same, later⟩
      rw [same]
      exact cons_prefix_cons.mpr ⟨rfl, ih ⟨rest, later⟩⟩

/-! ## Bytes as characters -/

/-- Bytes with a character each, as in Latin-1. -/
def latin1 (bytes : Bytes) : String :=
  String.ofList (bytes.map fun b => Char.ofNat b.toNat)

theorem toNat_ofNat_byte (b : UInt8) : (Char.ofNat b.toNat).toNat = b.toNat := by
  have valid : b.toNat.isValidChar := .inl (b.toNat_lt.trans (by decide))
  rw [Char.ofNat, dif_pos valid]
  rfl

theorem latin1_injective {left right : Bytes} (same : latin1 left = latin1 right) :
    left = right := by
  refine map_injective_iff.mpr (fun b c equal => ?_) (ofList_injective same)
  have codes := congrArg Char.toNat equal
  rw [toNat_ofNat_byte, toNat_ofNat_byte] at codes
  exact UInt8.toNat_inj.mp codes

/-- The bytes of an ASCII text, taken for characters, are the text. -/
theorem latin1_utf8_eq_self {s : String} (ascii : IsAscii s) : latin1 (utf8 s) = s := by
  have bytes := utf8_ofList_of_ascii s.toList ascii
  rw [ofList_toList] at bytes
  have same : ∀ c ∈ s.toList, Char.ofNat (UInt8.ofNat c.toNat).toNat = c := by
    intro c member
    rw [UInt8.toNat_ofNat_of_lt' ((ascii c member).trans (by decide)), Char.ofNat_toNat]
  have fixed : s.toList.map (fun c => Char.ofNat (UInt8.ofNat c.toNat).toNat) = s.toList :=
    (map_congr_left same).trans (map_id _)
  rw [latin1, bytes, map_map]
  exact (congrArg String.ofList fixed).trans ofList_toList

theorem hexDigit_injective {n m : Nat} (nSmall : n < 16) (mSmall : m < 16)
    (same : hexDigit n = hexDigit m) : n = m := by
  have all : ∀ i j : Fin 16, hexDigit i = hexDigit j → i = j := by decide
  exact Fin.mk.inj (all ⟨n, nSmall⟩ ⟨m, mSmall⟩ same)

theorem range_of_mem_hexByte {b : UInt8} {c : Char} (member : c ∈ hexByte b) :
    0x30 ≤ c.toNat ∧ c.toNat ≤ 0x66 := by
  have digit : ∀ n : Fin 16, 0x30 ≤ (hexDigit n).toNat ∧ (hexDigit n).toNat ≤ 0x66 := by
    decide
  have fits := b.toNat_lt
  rw [hexByte, mem_cons, mem_singleton] at member
  rcases member with equal | equal
  · rw [equal]
    exact digit ⟨b.toNat / 16, by omega⟩
  · rw [equal]
    exact digit ⟨b.toNat % 16, by omega⟩

theorem hexByte_injective {b c : UInt8} (same : hexByte b = hexByte c) : b = c := by
  simp only [hexByte, List.cons.injEq, and_true] at same
  rcases same with ⟨high, low⟩
  have bFits := b.toNat_lt
  have cFits := c.toNat_lt
  have sameHigh := hexDigit_injective (by omega) (by omega) high
  have sameLow := hexDigit_injective (by omega) (by omega) low
  apply UInt8.toNat_inj.mp
  omega

theorem hex_injective {left right : Bytes} (same : hex left = hex right) : left = right := by
  have digits := ofList_injective same
  clear same
  induction left generalizing right with
  | nil =>
    cases right with
    | nil => rfl
    | cons c right => contradiction
  | cons b left ih =>
    cases right with
    | nil => contradiction
    | cons c right =>
      rw [flatMap_cons, flatMap_cons] at digits
      rcases append_inj digits rfl with ⟨sameByte, sameRest⟩
      rw [hexByte_injective sameByte, ih sameRest]

theorem isAscii_hex (bytes : Bytes) : IsAscii (hex bytes) := by
  intro c member
  rw [hex, toList_ofList, mem_flatMap] at member
  obtain ⟨b, _, written⟩ := member
  exact lt_of_le_of_lt (range_of_mem_hexByte written).2 (by decide)

/-! ## The order of texts -/

theorem cons_ofNat_lt_iff {m n : Nat} (mSmall : m < 256) (nSmall : n < 256) (as bs : Bytes) :
    UInt8.ofNat m :: as < UInt8.ofNat n :: bs ↔ m < n ∨ m = n ∧ as < bs := by
  rw [cons_lt_cons_iff, UInt8.lt_iff_toNat_lt, ← UInt8.toNat_inj,
    UInt8.toNat_ofNat_of_lt' mSmall, UInt8.toNat_ofNat_of_lt' nSmall]

/-- Numbers compare by their last digit when the rest is equal. -/
theorem digits_lt {m n : Nat} (less : m < n) :
    m / 64 < n / 64 ∨ m / 64 = n / 64 ∧ m % 64 < n % 64 := by
  omega

/-- The UTF-8 bytes of a smaller character decide a comparison. -/
theorem utf8EncodeChar_append_lt {c d : Char} (below : c < d) (x y : Bytes) :
    String.utf8EncodeChar c ++ x < String.utf8EncodeChar d ++ y := by
  have less : c.val.toNat < d.val.toNat := below
  have bound : d.val.toNat < 0x110000 := by
    rcases d.valid with low | high
    · have small : d.val.toNat < 0xd800 := low
      omega
    · exact high.2
  simp only [String.utf8EncodeChar]
  generalize c.val.toNat = v at less
  generalize d.val.toNat = w at less bound
  rw [Nat.mod_eq_of_lt (show v / 262144 < 8 by omega),
    Nat.mod_eq_of_lt (show w / 262144 < 8 by omega)]
  -- With as many bytes, the first digit in base 64 that differs decides.
  have last := digits_lt less
  have third := fun rest => @digits_lt (v / 64) (w / 64) rest
  have second := fun rest => @digits_lt (v / 64 / 64) (w / 64 / 64) rest
  simp only [Nat.div_div_eq_div_mul] at last third second
  repeat' split
  all_goals
    simp only [cons_append]
    repeat rw [cons_ofNat_lt_iff (by omega) (by omega)]
    omega

theorem flatMap_utf8EncodeChar_lt {s t : List Char} (below : s < t) :
    s.flatMap String.utf8EncodeChar < t.flatMap String.utf8EncodeChar := by
  induction below with
  | @nil c rest =>
    have size := length_utf8EncodeChar c ▸ c.utf8Size_pos
    obtain ⟨first, more, split⟩ := exists_cons_of_length_pos size
    rw [flatMap_nil, flatMap_cons, split]
    exact nil_lt_cons _ _
  | rel less => exact utf8EncodeChar_append_lt less _ _
  | cons _ ih =>
    rw [flatMap_cons, flatMap_cons]
    exact append_left_lt ih

/-- Strings are in the order of their UTF-8 bytes. -/
theorem utf8_lt_utf8_iff (s t : String) : utf8 s < utf8 t ↔ s < t := by
  have forward {a b : String} (below : a < b) : utf8 a < utf8 b := by
    rw [utf8_eq_flatMap, utf8_eq_flatMap]
    exact flatMap_utf8EncodeChar_lt (lt_iff_toList_lt.mp below)
  constructor
  · intro bytes
    rcases lt_trichotomy s t with below | same | above
    · exact below
    · subst same
      exact absurd bytes (List.lt_irrefl _)
    · exact absurd bytes (List.lt_asymm (forward above))
  · exact forward

end Text

end TrustForge
