import TrustForge.Cbor.Value
import TrustForge.Foundation.Binary64

/-!
# The syntax of CBOR

An item is a CBOR value as it was written: with the width of every header and the cut
of indefinite-length strings into chunks.  It has bytes and a value, and it fits if
its counts are right and it is not nested too deeply.  Two decoders differ in whether
an indefinite-length string takes a level of its own, so that number is a parameter.
-/

namespace TrustForge.Cbor

open Binary64 Nested

/-- The first byte of an item. -/
def headByte (major info : Nat) : UInt8 :=
  UInt8.ofNat (32 * major + info)

/-! ## Header arguments -/

/-- How many bytes after the first one hold the argument. -/
inductive Width where
  | one
  | two
  | four
  | eight

namespace Width

def size : Width → Nat
  | .one => 1
  | .two => 2
  | .four => 4
  | .eight => 8

/-- The additional information that announces the width. -/
def info : Width → Nat
  | .one => 24
  | .two => 25
  | .four => 26
  | .eight => 27

def ofInfo? : Nat → Option Width
  | 24 => some .one
  | 25 => some .two
  | 26 => some .four
  | 27 => some .eight
  | _ => none

theorem ofInfo?_eq_some_iff (n : Nat) (width : Width) :
    ofInfo? n = some width ↔ width.info = n := by
  constructor
  · unfold ofInfo?
    split <;> intro found <;> cases found <;> rfl
  · rintro rfl
    cases width <;> rfl

theorem info_bounds (width : Width) : 24 ≤ width.info ∧ width.info < 28 := by
  cases width <;> decide

theorem pow_size_le (width : Width) : 256 ^ width.size ≤ 2 ^ 64 := by
  cases width <;> decide

end Width

/-- The argument of a header: in the first byte, or in the bytes after it. -/
inductive Arg where
  | direct (n : Fin 24)
  | wide (width : Width) (n : Fin (256 ^ width.size))

namespace Arg

/-- The additional information in the first byte. -/
def info : Arg → Nat
  | .direct n => n
  | .wide width _ => width.info

/-- The bytes after the first one. -/
def tail : Arg → Bytes
  | .direct _ => []
  | .wide width n => BigEndian.encode width.size n

def value : Arg → Nat
  | .direct n => n
  | .wide _ n => n

theorem info_lt (arg : Arg) : arg.info < 28 := by
  cases arg with
  | direct n => exact lt_trans n.isLt (by decide)
  | wide width n => exact width.info_bounds.2

theorem value_lt (arg : Arg) : arg.value < 2 ^ 64 := by
  cases arg with
  | direct n => exact lt_trans n.isLt (by decide)
  | wide width n => exact lt_of_lt_of_le n.isLt width.pow_size_le

/-- The narrowest argument for a number. -/
def minimal (n : UInt64) : Arg :=
  if fits : n.toNat < 24 then .direct ⟨n.toNat, fits⟩
  else if fits : n.toNat < 256 ^ Width.one.size then .wide .one ⟨n.toNat, fits⟩
  else if fits : n.toNat < 256 ^ Width.two.size then .wide .two ⟨n.toNat, fits⟩
  else if fits : n.toNat < 256 ^ Width.four.size then .wide .four ⟨n.toNat, fits⟩
  else .wide .eight ⟨n.toNat, n.toNat_lt⟩

theorem value_minimal (n : UInt64) : (minimal n).value = n.toNat := by
  unfold minimal
  repeat' split
  all_goals rfl

end Arg

/-! ## Strings -/

/-- A definite-length string: its length and as many bytes. -/
structure Chunk where
  arg : Arg
  payload : Bytes
  fits : payload.length = arg.value

def Chunk.tail (chunk : Chunk) : Bytes :=
  chunk.arg.tail ++ chunk.payload

/-- A string in one piece, or cut into chunks and ended by a break. -/
inductive Str where
  | definite (chunk : Chunk)
  | indefinite (chunks : List Chunk)

namespace Str

def content : Str → Bytes
  | .definite chunk => chunk.payload
  | .indefinite chunks => chunks.flatMap Chunk.payload

def info : Str → Nat
  | .definite chunk => chunk.arg.info
  | .indefinite _ => 31

/-- The bytes after the first one.  Chunks have the major type of the string. -/
def tail (major : Nat) : Str → Bytes
  | .definite chunk => chunk.tail
  | .indefinite chunks =>
    chunks.flatMap (fun chunk => headByte major chunk.arg.info :: chunk.tail) ++ [0xff]

/-- Enough levels are left: chunks take the given number of them. -/
def Fits (levels height : Nat) : Str → Prop
  | .definite _ => True
  | .indefinite _ => levels ≤ height

end Str

/-! ## Simple values and floats -/

/-- `half_to_f64`.  The products are exact. -/
def halfToF64 (raw : UInt16) : UInt64 :=
  let exp := raw.toNat / 2 ^ 10 % 2 ^ 5
  let mant := raw.toNat % 2 ^ 10
  let magnitude :=
    if exp = 0 then scaled mant 1051
    else if exp = 31 then
      if mant = 0 then infinity else nan
    else scaled (mant + 1024) (exp + 1050)
  if raw.toNat / 2 ^ 15 = 1 then negate magnitude else magnitude

/-- `f32 as f64`.  A NaN keeps its payload and becomes quiet, as the hardware does it. -/
def singleToF64 (raw : UInt32) : UInt64 :=
  let exp := raw.toNat / 2 ^ 23 % 2 ^ 8
  let mant := raw.toNat % 2 ^ 23
  let magnitude :=
    if exp = 0 then scaled mant 926
    else if exp = 255 then
      if mant = 0 then infinity
      else UInt64.ofNat (2047 * 2 ^ 52 + mant % 2 ^ 22 * 2 ^ 29 + 2 ^ 51)
    else scaled (mant + 2 ^ 23) (exp + 925)
  if raw.toNat / 2 ^ 31 = 1 then negate magnitude else magnitude

/-- What major type 7 can hold. -/
inductive Simple where
  | bool (b : Bool)
  | null
  | undefined
  | unassigned (n : UInt8) (large : 32 ≤ n.toNat)
  | half (raw : UInt16)
  | single (raw : UInt32)
  | double (raw : UInt64)

namespace Simple

def info : Simple → Nat
  | .bool false => 20
  | .bool true => 21
  | .null => 22
  | .undefined => 23
  | .unassigned _ _ => 24
  | .half _ => 25
  | .single _ => 26
  | .double _ => 27

def tail : Simple → Bytes
  | .bool _ => []
  | .null => []
  | .undefined => []
  | .unassigned n _ => [n]
  | .half raw => BigEndian.encode 2 raw.toNat
  | .single raw => BigEndian.encode 4 raw.toNat
  | .double raw => BigEndian.encode 8 raw.toNat

def value : Simple → Value
  | .bool b => .bool b
  | .null => .null
  | .undefined => .null
  | .unassigned n _ => .integer n.toNat
  | .half raw => .float (halfToF64 raw)
  | .single raw => .float (singleToF64 raw)
  | .double raw => .float raw

theorem info_lt (s : Simple) : s.info < 28 := by
  cases s with
  | bool b => cases b <;> decide
  | _ => simp [info]

end Simple

/-! ## Items -/

/-- A CBOR item.  The count of an array or a map is missing if its length is indefinite. -/
inductive Item where
  | unsigned (arg : Arg)
  | negative (arg : Arg)
  | bytes (s : Str)
  | text (s : Str) (t : String) (valid : Text.utf8 t = s.content)
  | array (count : Option Arg) (items : List Item)
  | map (count : Option Arg) (entries : List (Item × Item))
  | tag (arg : Arg) (item : Item)
  | simple (s : Simple)

namespace Item

def major : Item → Nat
  | .unsigned _ => 0
  | .negative _ => 1
  | .bytes _ => 2
  | .text _ _ _ => 3
  | .array _ _ => 4
  | .map _ _ => 5
  | .tag _ _ => 6
  | .simple _ => 7

/-- The additional information for a count. -/
def countInfo (count : Option Arg) : Nat :=
  count.elim 31 Arg.info

/-- The bytes around the items of an array or a map. -/
def counted (count : Option Arg) (body : Bytes) : Bytes :=
  count.elim (body ++ [0xff]) fun arg => arg.tail ++ body

def info : Item → Nat
  | .unsigned arg => arg.info
  | .negative arg => arg.info
  | .bytes s => s.info
  | .text s _ _ => s.info
  | .array count _ => countInfo count
  | .map count _ => countInfo count
  | .tag arg _ => arg.info
  | .simple s => s.info

mutual

/-- The bytes after the first one. -/
def tail : Item → Bytes
  | .unsigned arg => arg.tail
  | .negative arg => arg.tail
  | .bytes s => s.tail 2
  | .text s _ _ => s.tail 3
  | .array count items => counted count (bytesOfItems items)
  | .map count entries => counted count (bytesOfEntries entries)
  | .tag arg item => arg.tail ++ headByte item.major item.info :: item.tail
  | .simple s => s.tail

def bytesOfItems : List Item → Bytes
  | [] => []
  | item :: items => headByte item.major item.info :: item.tail ++ bytesOfItems items

def bytesOfEntries : List (Item × Item) → Bytes
  | [] => []
  | (key, value) :: entries =>
    headByte key.major key.info :: key.tail ++
      (headByte value.major value.info :: value.tail ++ bytesOfEntries entries)

end

/-- The bytes of an item. -/
def encoding (item : Item) : Bytes :=
  headByte item.major item.info :: item.tail

mutual

/-- The value of an item. -/
def value : Item → Value
  | .unsigned arg => .integer arg.value
  | .negative arg => .integer (-1 - arg.value)
  | .bytes s => .bytes s.content
  | .text _ t _ => .text t
  | .array _ items => .array (valueOfItems items)
  | .map _ entries => .map (valueOfEntries entries)
  | .tag arg item => .tag (.ofNat arg.value) item.value
  | .simple s => s.value

def valueOfItems : List Item → List Value
  | [] => []
  | item :: items => item.value :: valueOfItems items

def valueOfEntries : List (Item × Item) → List (Value × Value)
  | [] => []
  | (key, item) :: entries => (key.value, item.value) :: valueOfEntries entries

end

/-- A definite count is the number of elements. -/
def CountIs (count : Option Arg) (length : Nat) : Prop :=
  ∀ arg ∈ count, length = arg.value

mutual

/-- The counts are right and the item fits into the levels that are left. -/
def Fits (levels : Nat) : Nat → Item → Prop
  | 0, _ => False
  | _ + 1, .unsigned _ => True
  | _ + 1, .negative _ => True
  | height + 1, .bytes s => s.Fits levels height
  | height + 1, .text s _ _ => s.Fits levels height
  | height + 1, .array count items => CountIs count items.length ∧ ItemsFit levels height items
  | height + 1, .map count entries =>
    CountIs count entries.length ∧ EntriesFit levels height entries
  | height + 1, .tag _ item => item.Fits levels height
  | _ + 1, .simple _ => True

def ItemsFit (levels height : Nat) : List Item → Prop
  | [] => True
  | item :: items => item.Fits levels height ∧ ItemsFit levels height items

def EntriesFit (levels height : Nat) : List (Item × Item) → Prop
  | [] => True
  | (key, item) :: entries =>
    (key.Fits levels height ∧ item.Fits levels height) ∧ EntriesFit levels height entries

end

/-! ## Lists of items -/

theorem bytesOfItems_eq_flatMap (items : List Item) :
    bytesOfItems items = items.flatMap encoding := by
  induction items with
  | nil => rfl
  | cons item items ih => rw [bytesOfItems, ih, List.flatMap_cons, encoding]

theorem bytesOfEntries_eq_flatMap (entries : List (Item × Item)) :
    bytesOfEntries entries =
      entries.flatMap fun entry => entry.1.encoding ++ entry.2.encoding := by
  induction entries with
  | nil => rfl
  | cons entry entries ih =>
    rcases entry with ⟨key, item⟩
    rw [bytesOfEntries, ih, List.flatMap_cons, encoding, encoding, List.append_assoc]

theorem valueOfItems_eq_map (items : List Item) : valueOfItems items = items.map value :=
  eq_map rfl (fun _ _ => rfl)

theorem valueOfEntries_eq_map (entries : List (Item × Item)) :
    valueOfEntries entries = entries.map fun entry => (entry.1.value, entry.2.value) :=
  eq_map rfl (fun _ _ => rfl)

theorem itemsFit_iff (levels height : Nat) (items : List Item) :
    ItemsFit levels height items ↔ ∀ item ∈ items, item.Fits levels height :=
  iff_forall_mem trivial (fun _ _ => Iff.rfl)

theorem entriesFit_iff (levels height : Nat) (entries : List (Item × Item)) :
    EntriesFit levels height entries ↔
      ∀ entry ∈ entries, entry.1.Fits levels height ∧ entry.2.Fits levels height :=
  iff_forall_mem trivial (fun _ _ => Iff.rfl)

/-! ## First bytes -/

theorem major_lt (item : Item) : item.major < 8 := by
  cases item <;> simp [major]

theorem countInfo_lt (count : Option Arg) : countInfo count < 32 := by
  cases count with
  | none => decide
  | some arg => exact lt_trans arg.info_lt (by decide)

theorem info_lt (item : Item) : item.info < 32 := by
  have widen {n : Nat} (small : n < 28) : n < 32 := lt_trans small (by decide)
  have str (s : Str) : s.info < 32 := by
    cases s with
    | definite chunk => exact widen chunk.arg.info_lt
    | indefinite chunks => exact (by decide : 31 < 32)
  cases item with
  | unsigned arg => exact widen arg.info_lt
  | negative arg => exact widen arg.info_lt
  | bytes s => exact str s
  | text s t valid => exact str s
  | array count items => exact countInfo_lt count
  | map count entries => exact countInfo_lt count
  | tag arg item => exact widen arg.info_lt
  | simple s => exact widen s.info_lt

end Item

variable (byte : UInt8)

theorem toNat_major : (byte >>> 5).toNat = byte.toNat / 32 := by
  rw [UInt8.toNat_shiftRight, Nat.shiftRight_eq_div_pow]
  rfl

theorem toNat_info : (byte &&& 0x1f).toNat = byte.toNat % 32 := by
  rw [UInt8.toNat_and]
  exact Nat.and_two_pow_sub_one_eq_mod byte.toNat 5

theorem major_lt : (byte >>> 5).toNat < 8 := by
  have small := byte.toNat_lt
  rw [toNat_major]
  omega

/-- A first byte gives back its two parts. -/
theorem headByte_parts {major info : Nat} (majorSmall : major < 8) (infoSmall : info < 32) :
    (headByte major info >>> 5).toNat = major ∧ (headByte major info &&& 0x1f).toNat = info := by
  rw [toNat_major, toNat_info, headByte, UInt8.toNat_ofNat']
  omega

theorem headByte_of_parts :
    headByte (byte >>> 5).toNat (byte &&& 0x1f).toNat = byte := by
  have small := byte.toNat_lt
  apply UInt8.toNat_inj.mp
  rw [headByte, UInt8.toNat_ofNat', toNat_major, toNat_info]
  omega

/-- Only a break starts with the break byte. -/
theorem headByte_ne_break {major info : Nat} (majorSmall : major < 8) (infoSmall : info < 32)
    (other : ¬(major = 7 ∧ info = 31)) : headByte major info ≠ 0xff := by
  intro same
  have parts := headByte_parts majorSmall infoSmall
  rw [same] at parts
  exact other ⟨parts.1.symm, parts.2.symm⟩

theorem Item.headByte_ne_break (item : Item) : headByte item.major item.info ≠ 0xff := by
  apply Cbor.headByte_ne_break item.major_lt item.info_lt
  rintro ⟨simple, isBreak⟩
  cases item with
  | simple s =>
    have small := s.info_lt
    rw [Item.info] at isBreak
    omega
  | _ => simp [Item.major] at simple

end TrustForge.Cbor
