import TrustForge.Session.Messages

/-!
# Records in JSON

How the derived code of serde reads records: by name from an object or by position from an
array.  A type with a writer and a reader that takes back what was written is a codec.  An
optional field that holds `null` counts as absent.
-/

namespace TrustForge.Json

open AssocMap Option
open Session (optionalField number32)

/-- A writer and a reader that belong together. -/
structure Codec (α : Type) where
  write : α → Value
  read : Value → Option α
  read_write : ∀ a, read (write a) = some a
  write_ne_null : ∀ a, write a ≠ .null

namespace Codec

/-! ## Scalars -/

def string : Codec String where
  write := .string
  read := Value.asStr
  read_write := fun _ => rfl
  write_ne_null := fun _ => nofun

def readBool : Value → Option Bool
  | .bool b => some b
  | _ => none

def bool : Codec Bool where
  write := .bool
  read := readBool
  read_write := fun _ => rfl
  write_ne_null := fun _ => nofun

def readU32 : Value → Option UInt32
  | .number (.posInt n) => if n.val < 2 ^ 32 then some (.ofNat n.val) else none
  | _ => none

theorem readU32_number32 (n : UInt32) : readU32 (number32 n) = some n := by
  rw [number32, readU32, if_pos n.toNat_lt, UInt32.ofNat_toNat]

def u32 : Codec UInt32 where
  write := number32
  read := readU32
  read_write := readU32_number32
  write_ne_null := fun _ => nofun

def number64 (n : UInt64) : Value :=
  .number (.posInt ⟨n.toNat, n.toNat_lt⟩)

def readU64 : Value → Option UInt64
  | .number (.posInt n) => some (.ofNat n.val)
  | _ => none

theorem readU64_number64 (n : UInt64) : readU64 (number64 n) = some n := by
  rw [number64, readU64, UInt64.ofNat_toNat]

def u64 : Codec UInt64 where
  write := number64
  read := readU64
  read_write := readU64_number64
  write_ne_null := fun _ => nofun

variable (n : Int64)

theorem toNat_toInt_lt : n.toInt.toNat < 2 ^ 64 := by
  have high := n.toInt_lt
  omega

theorem toNat_neg_toInt_lt : (-n.toInt - 1).toNat < 2 ^ 63 := by
  have low := n.le_toInt
  omega

/-- A signed number; `serde_json` keeps negative numbers apart. -/
def numberI64 : Value :=
  if 0 ≤ n.toInt then .number (.posInt ⟨n.toInt.toNat, toNat_toInt_lt n⟩)
  else .number (.negInt ⟨(-n.toInt - 1).toNat, toNat_neg_toInt_lt n⟩)

def readI64 : Value → Option Int64
  | .number (.posInt n) => if n.val < 2 ^ 63 then some (.ofNat n.val) else none
  | .number (.negInt n) => some (.ofInt (-n.val - 1))
  | _ => none

theorem readI64_numberI64 : readI64 (numberI64 n) = some n := by
  have high := n.toInt_lt
  unfold numberI64
  split
  · next low =>
    have value : (n.toInt.toNat : Int) = n.toInt := Int.toNat_of_nonneg low
    rw [readI64, if_pos (by simp only; omega), ← Int64.ofInt_eq_ofNat, value, Int64.ofInt_toInt]
  · next low =>
    have value : -((-n.toInt - 1).toNat : Int) - 1 = n.toInt := by omega
    simp only [readI64, value, Int64.ofInt_toInt]

theorem numberI64_ne_null : numberI64 n ≠ .null := by
  unfold numberI64
  split <;> nofun

def i64 : Codec Int64 where
  write := numberI64
  read := readI64
  read_write := readI64_numberI64
  write_ne_null := numberI64_ne_null

/-! ## Lists and names -/

def readStrings : Value → Option (List String)
  | .array items => items.mapM Value.asStr
  | _ => none

theorem mapM_asStr (texts : List String) : (texts.map Value.string).mapM Value.asStr = some texts := by
  induction texts with
  | nil => rfl
  | cons text texts ih =>
    rw [List.map_cons, List.mapM_cons, ih]
    rfl

def strings : Codec (List String) where
  write := fun texts => .array (texts.map .string)
  read := readStrings
  read_write := mapM_asStr
  write_ne_null := fun _ => nofun

/-- The name of a variant without fields; an object with the name as its only key and no content
stands for it, too. -/
def variantName : Value → Option String
  | .string s => some s
  | .object [(s, .null)] => some s
  | .object [(s, .object [])] => some s
  | _ => none

/-- The variants of an enumeration, told apart by their names. -/
def names {α : Type} (all : List α) (name : α → String)
    (found : ∀ a, all.find? (fun b => name b == name a) = some a) : Codec α where
  write := fun a => .string (name a)
  read := fun v => (variantName v).bind fun s => all.find? fun b => name b == s
  read_write := found
  write_ne_null := fun _ => nofun

end Codec

/-! ## Fields -/

/-- Where the derived code finds the fields of a record. -/
inductive Fields where
  | named (entries : List (String × Value))
  | positional (items : List Value)

namespace Fields

/-- The fields of a record with so many of them. -/
def ofValue (count : Nat) : Value → Option Fields
  | .object entries => some (.named entries)
  | .array items => if items.length ≤ count then some (.positional items) else none
  | _ => none

def find (fields : Fields) (index : Nat) (key : String) : Option Value :=
  match fields with
  | .named entries => get? key entries
  | .positional items => items[index]?

/-- An absent optional field is fine in an object; in an array only with a default. -/
def mayMiss (fields : Fields) (hasDefault : Bool) : Bool :=
  match fields with
  | .named _ => true
  | .positional _ => hasDefault

def required {α : Type} (fields : Fields) (read : Value → Option α) (index : Nat) (key : String) :
    Option α :=
  (fields.find index key).bind read

/-- `null` and nothing are `None`. -/
def optional {α : Type} (fields : Fields) (read : Value → Option α) (index : Nat) (key : String)
    (hasDefault : Bool) : Option (Option α) :=
  match fields.find index key with
  | none => if fields.mayMiss hasDefault then some none else none
  | some .null => some none
  | some v => (read v).map some

end Fields

/-- The tag and the content of an internally tagged variant: the tag is a field of an object or
the first item of an array. -/
def tagged (key : String) : Value → Option (String × Value)
  | .object entries => do
    let tag ← (get? key entries).bind Value.asStr
    some (tag, .object entries)
  | .array (tag :: items) => do
    let tag ← tag.asStr
    some (tag, .array items)
  | _ => none

/-! ## Reading what was written -/

theorem tagged_object (key tag : String) (entries : List (String × Value)) :
    tagged key (.object ((key, .string tag) :: entries)) =
      some (tag, .object ((key, .string tag) :: entries)) := by
  simp [tagged, get?, Value.asStr]

namespace Fields

variable {α β : Type} (codec : Codec α) {entries : List (String × Value)} {index : Nat} {key : String}

variable {result : Option β}

theorem required_named {a : α} {next : α → Option β}
    (found : get? key entries = some (codec.write a)) (rest : next a = result) :
    ((named entries).required codec.read index key >>= next) = result := by
  rw [required, find, found, bind_some, codec.read_write]
  exact rest

theorem optional_named {a : Option α} {hasDefault : Bool} {next : Option α → Option β}
    (found : get? key entries = a.map codec.write) (rest : next a = result) :
    ((named entries).optional codec.read index key hasDefault >>= next) = result := by
  rw [optional, find, found]
  cases a with
  | none => exact rest
  | some a =>
    rw [map_some]
    have present := codec.write_ne_null a
    split
    · contradiction
    · next null => exact absurd (some.inj null) present
    · next v same =>
      cases same
      rw [codec.read_write]
      exact rest

/-- What is left of an optional value: a `null` is gone. -/
def nonNull : Option Value → Option Value
  | some .null => none
  | value => value

theorem nonNull_none : nonNull none = none := rfl

theorem required_some_named {v : Value} {next : Value → Option β}
    (found : get? key entries = some v) (rest : next v = result) :
    ((named entries).required some index key >>= next) = result := by
  rw [required, find, found]
  exact rest

/-- A field of any value loses a `null`. -/
theorem optional_some_named {v : Option Value} {hasDefault : Bool} {next : Option Value → Option β}
    (found : get? key entries = v) (rest : next (nonNull v) = result) :
    ((named entries).optional some index key hasDefault >>= next) = result := by
  rw [optional, find, found]
  cases v with
  | none => exact rest
  | some v => cases v <;> exact rest

end Fields

end TrustForge.Json
