import Mathlib.Data.List.Pairwise
import Mathlib.Data.Prod.Lex
import TrustForge.BinaryFormat.Container
import TrustForge.Foundation.Utf16

/-!
# Binary containers in TypeScript

Model of the writers of `binary-format.ts`.  The keys of an object are sorted as JavaScript
compares strings and assigned to a new object in this order.  Two things happen on the
way: an object lists its array indices first, whatever the order of assignment, and
assigning to `__proto__` does not make a property.
-/

namespace TrustForge.BinaryFormat.Script

open AssocMap List
open Cbor.Script (JsValue Thrown)
open PacketMode.Script (Less utf16)

/-! ## Objects -/

section

variable {β : Type}

/-- The array index that a property name is: the decimal numeral of a number below
`2 ^ 32 - 1`. -/
def arrayIndex? (name : String) : Option Nat :=
  let n := name.toList.foldl (fun n c => n * 10 + (c.toNat - 48)) 0
  if Nat.toDigits 10 n = name.toList ∧ n < 2 ^ 32 - 1 then some n else none

/-- Array indices come before all other names. -/
def rank (name : String) : Nat :=
  (arrayIndex? name).getD (2 ^ 32 - 1)

/-- The order in which an object lists its properties: array indices as numbers, then the
others as they were made. -/
def enumerate (properties : List (String × β)) : List (String × β) :=
  properties.insertionSort fun x y => rank x.1 ≤ rank y.1

/-- `out[name] = value` for an object that was made by `{}`.  The name `__proto__` sets the
prototype, or does nothing. -/
def assign (out : List (String × β)) (property : String × β) : List (String × β) :=
  if property.1 = "__proto__" then out else insert property.1 property.2 out

/-- The function that `sortKeysDeep` sorts by. -/
def compareNames (a b : String) : Int :=
  if Less a b then -1 else if Less b a then 1 else 0

/-- `Array.prototype.sort`, which is stable, on entries. -/
def sortByName (entries : List (String × β)) : List (String × β) :=
  entries.insertionSort fun x y => compareNames x.1 y.1 ≤ 0

/-- The object that is made from sorted entries, as it lists its properties. -/
def sortedObject (entries : List (String × β)) : List (String × β) :=
  enumerate ((sortByName entries).foldl assign [])

end

/-! ## Bodies -/

mutual

/-- `sortKeysDeep`.  A `Map` has no properties of its own, and a `CborTag` has two. -/
def sortKeysDeep : JsValue → JsValue
  | .array items => .array (sortItems items)
  | .object properties => .object (sortedObject (sortProperties properties))
  | .map _ => .object []
  | .tag (.number n) inner =>
    .object [("tag", .number (.ofInt n)), ("value", sortKeysDeep inner)]
  | .tag (.bigint n) inner => .object [("tag", .bigint n), ("value", sortKeysDeep inner)]
  | .number n => .number n
  | .bigint i => .bigint i
  | .string s => .string s
  | .uint8Array bytes => .uint8Array bytes
  | .bool b => .bool b
  | .null => .null

def sortItems : List JsValue → List JsValue
  | [] => []
  | item :: items => sortKeysDeep item :: sortItems items

/-- The values, before their names are sorted. -/
def sortProperties : List (String × JsValue) → List (String × JsValue)
  | [] => []
  | (name, value) :: rest => (name, sortKeysDeep value) :: sortProperties rest

end

/-- How a writer ends without bytes. -/
inductive Failure where
  | cbor (thrown : Thrown)
  | binaryFormatError (message : String)
  deriving DecidableEq

def canonicalCborEncode (value : JsValue) : Except Failure Bytes :=
  (Cbor.Script.encode (sortKeysDeep value)).mapError .cbor

/-! ## Containers -/

def putU32BE (n : Nat) : Except Failure Bytes :=
  if 0xffffffff < n then .error (.binaryFormatError s!"length out of range: {n}")
  else
    .ok [.ofNat (n >>> 24 &&& 0xff), .ofNat (n >>> 16 &&& 0xff), .ofNat (n >>> 8 &&& 0xff),
      .ofNat (n &&& 0xff)]

def writeTfbundle (body : JsValue) (signature : Option Bytes) : Except Failure Bytes := do
  let bodyBytes ← canonicalCborEncode body
  let len1 ← putU32BE bodyBytes.length
  let sig := signature.getD []
  let len2 ← putU32BE sig.length
  .ok (tfbundleMagic ++ len1 ++ bodyBytes ++ len2 ++ sig)

def writeTfpkt (packet : JsValue) : Except Failure Bytes := do
  let bodyBytes ← canonicalCborEncode packet
  let len ← putU32BE bodyBytes.length
  .ok (tfpktMagic ++ len ++ bodyBytes)

/-! ## The order of names -/

/-- The code units of one character. -/
def codeUnits (c : Char) : List Nat :=
  if c.toNat < 0x10000 then [c.toNat]
  else [0xd800 + (c.toNat - 0x10000) / 0x400, 0xdc00 + (c.toNat - 0x10000) % 0x400]

theorem utf16_eq_flatMap (s : String) : utf16 s = s.toList.flatMap codeUnits :=
  rfl

theorem utf16_injective {s t : String} (same : utf16 s = utf16 t) : s = t :=
  String.toList_inj.mp (Utf16.flatMap_units_injective same)

theorem compareNames_le_zero_iff (a b : String) : compareNames a b ≤ 0 ↔ utf16 a ≤ utf16 b := by
  unfold compareNames
  by_cases less : Less a b
  · rw [if_pos less]
    exact iff_of_true (by decide) (le_of_lt (show utf16 a < utf16 b from less))
  rw [if_neg less]
  by_cases greater : Less b a
  · rw [if_pos greater]
    exact iff_of_false (by decide) (not_le_of_gt (show utf16 b < utf16 a from greater))
  · rw [if_neg greater]
    exact iff_of_true (by decide) (le_of_not_gt greater)

section

variable {β γ : Type} (entries : List (String × β))

theorem sortByName_perm : (sortByName entries).Perm entries :=
  perm_insertionSort _ entries

theorem sortByName_map (f : β → γ) (entries : List (String × β)) :
    sortByName (entries.map fun entry => (entry.1, f entry.2)) =
      (sortByName entries).map fun entry => (entry.1, f entry.2) := by
  unfold sortByName
  apply Eq.symm
  apply map_insertionSort
  intro x _ y _
  rfl

theorem sortByName_pairwise :
    (sortByName entries).Pairwise fun x y => compareNames x.1 y.1 ≤ 0 := by
  have total : Std.Total fun x y : String × β => compareNames x.1 y.1 ≤ 0 :=
    ⟨fun x y => by
      rw [compareNames_le_zero_iff, compareNames_le_zero_iff]
      exact le_total _ _⟩
  have trans : IsTrans (String × β) fun x y => compareNames x.1 y.1 ≤ 0 :=
    ⟨fun x y z first second => by
      rw [compareNames_le_zero_iff] at *
      exact first.trans second⟩
  exact pairwise_insertionSort _ entries

/-- Sorting forgets the order of entries whose names are distinct. -/
theorem sortByName_eq_of_perm {left right : List (String × β)} (perm : left.Perm right)
    (nodup : (keys left).Nodup) : sortByName left = sortByName right := by
  have sortedPerm : (sortByName left).Perm (sortByName right) :=
    (sortByName_perm left).trans (perm.trans (sortByName_perm right).symm)
  apply sortedPerm.eq_of_pairwise _ (sortByName_pairwise left) (sortByName_pairwise right)
  intro x y xMem yMem xy yx
  rw [compareNames_le_zero_iff] at xy yx
  have inLeft : x ∈ left := (sortByName_perm left).mem_iff.mp xMem
  have alsoLeft : y ∈ left := perm.mem_iff.mpr ((sortByName_perm right).mem_iff.mp yMem)
  exact inj_on_of_nodup_map nodup inLeft alsoLeft (utf16_injective (le_antisymm xy yx))

/-! ## The properties of an object -/

theorem enumerate_perm (properties : List (String × β)) : (enumerate properties).Perm properties :=
  perm_insertionSort _ properties

theorem enumerate_map (f : β → γ) (properties : List (String × β)) :
    enumerate (properties.map fun entry => (entry.1, f entry.2)) =
      (enumerate properties).map fun entry => (entry.1, f entry.2) := by
  unfold enumerate
  apply Eq.symm
  apply map_insertionSort
  intro x _ y _
  rfl

theorem foldl_assign :
    entries.foldl assign [] =
      ofPairs (entries.filter fun entry => entry.1 ≠ "__proto__") := by
  rw [ofPairs, foldl_filter]
  congr 1
  funext out property
  unfold assign
  by_cases proto : property.1 = "__proto__"
  · simp
  · simp

/-- The new object does not depend on the values. -/
theorem sortedObject_map (f : β → γ) (entries : List (String × β)) :
    sortedObject (entries.map fun entry => (entry.1, f entry.2)) =
      (sortedObject entries).map fun entry => (entry.1, f entry.2) := by
  rw [sortedObject, sortedObject, foldl_assign, foldl_assign, sortByName_map, filter_map,
    ← enumerate_map, ← ofPairs_map]
  rfl

theorem sortedObject_eq_of_perm {left right : List (String × β)} (perm : left.Perm right)
    (nodup : (keys left).Nodup) : sortedObject left = sortedObject right := by
  rw [sortedObject, sortedObject, sortByName_eq_of_perm perm nodup]

variable {entries : List (String × β)}

theorem keys_sortByName_nodup (nodup : (keys entries).Nodup) : (keys (sortByName entries)).Nodup :=
  ((sortByName_perm entries).map Prod.fst).nodup_iff.mpr nodup

theorem mem_of_mem_sortedObject {entry : String × β}
    (member : entry ∈ sortedObject entries) : entry ∈ entries := by
  rw [sortedObject, foldl_assign] at member
  have kept := mem_of_mem_ofPairs ((enumerate_perm _).mem_iff.mp member)
  exact (sortByName_perm entries).mem_iff.mp (mem_of_mem_filter kept)

/-! ## The order of the properties -/

/-- Where an object lists a name that `sortKeysDeep` gives it: array indices by number, then the
others by code units. -/
def place (name : String) : ℕ ×ₗ List ℕ :=
  toLex (rank name, utf16 name)

/-- No name is lost, and every two are listed as Rust sorts them. -/
def InOrder (names : List String) : Prop :=
  ∀ a ∈ names, a ≠ "__proto__" ∧ ∀ b ∈ names, a < b → place a < place b

instance (names : List String) : Decidable (InOrder names) :=
  inferInstanceAs (Decidable (∀ a ∈ names, _ ∧ ∀ b ∈ names, _ → _))

/-- A property that was made first goes before the first one whose rank is not lower. -/
theorem pairwise_orderedInsert {first : String × β} {others : List (String × β)}
    (listed : others.Pairwise fun x y => place x.1 < place y.1)
    (made : ∀ y ∈ others, utf16 first.1 < utf16 y.1) :
    (others.orderedInsert (fun x y => rank x.1 ≤ rank y.1) first).Pairwise
      fun x y => place x.1 < place y.1 := by
  induction others with
  | nil => exact pairwise_singleton _ _
  | cons y others ih =>
    rw [pairwise_cons] at listed
    rw [forall_mem_cons] at made
    rw [orderedInsert_cons]
    split
    · next below =>
      have before : place first.1 < place y.1 :=
        Prod.Lex.toLex_lt_toLex.mpr (below.lt_or_eq.imp_right fun same => ⟨same, made.1⟩)
      refine pairwise_cons.mpr ⟨forall_mem_cons.mpr ⟨before, fun z member => ?_⟩,
        pairwise_cons.mpr listed⟩
      exact before.trans (listed.1 z member)
    · next above =>
      refine pairwise_cons.mpr ⟨fun z member => ?_, ih listed.2 made.2⟩
      rcases (mem_orderedInsert _).mp member with rfl | inside
      · exact Prod.Lex.toLex_lt_toLex.mpr (.inl (not_le.mp above))
      · exact listed.1 z inside

theorem enumerate_pairwise {properties : List (String × β)}
    (made : properties.Pairwise fun x y => utf16 x.1 < utf16 y.1) :
    (enumerate properties).Pairwise fun x y => place x.1 < place y.1 := by
  induction properties with
  | nil => exact .nil
  | cons first rest ih =>
    rw [pairwise_cons] at made
    refine pairwise_orderedInsert (ih made.2) fun y member => made.1 y ?_
    exact (enumerate_perm rest).mem_iff.mp member

section

variable (nodup : (keys entries).Nodup)

include nodup

theorem sortedObject_eq : sortedObject entries =
    enumerate ((sortByName entries).filter fun entry => entry.1 ≠ "__proto__") := by
  rw [sortedObject, foldl_assign, ofPairs_of_nodup]
  exact (filter_sublist.map Prod.fst).nodup (keys_sortByName_nodup nodup)

theorem keys_sortedObject_pairwise :
    (keys (sortedObject entries)).Pairwise fun a b => place a < place b := by
  rw [sortedObject_eq nodup]
  refine pairwise_map.mpr (enumerate_pairwise (.filter _ ?_))
  refine ((sortByName_pairwise entries).and (pairwise_map.mp (keys_sortByName_nodup nodup))).imp
    fun both => ?_
  rw [compareNames_le_zero_iff] at both
  exact lt_of_le_of_ne both.1 fun same => both.2 (utf16_injective same)

theorem keys_sortedObject_perm :
    (keys (sortedObject entries)).Perm ((keys entries).filter (· ≠ "__proto__")) := by
  rw [sortedObject_eq nodup, AssocMap.keys, AssocMap.keys, filter_map]
  exact ((enumerate_perm _).trans ((sortByName_perm entries).filter _)).map Prod.fst

theorem keys_sortedObject_iff :
    keys (sortedObject entries) = keys (Json.sortByKey entries) ↔ InOrder (keys entries) := by
  have perm := (Json.sortByKey_perm entries).map Prod.fst
  have sorted : (keys (Json.sortByKey entries)).Pairwise (· < ·) :=
    ((pairwise_map.mpr (Json.sortByKey_pairwise entries)).and (perm.nodup_iff.mpr nodup)).imp
      fun both => lt_of_le_of_ne both.1 both.2
  have listed := keys_sortedObject_pairwise nodup
  have kept := keys_sortedObject_perm nodup
  constructor
  · intro same a inside
    rw [same] at listed kept
    refine ⟨of_decide_eq_true (mem_filter.mp (kept.mem_iff.mp (perm.mem_iff.mpr inside))).2,
      fun b inside' => ?_⟩
    -- of two keys one comes first, in both orders
    have agree : (keys (Json.sortByKey entries)).Pairwise fun a b => a < b → place a < place b :=
      listed.imp fun {a b} before (_ : a < b) => before
    exact agree.forall_of_forall_of_flip (fun a _ less => absurd less (lt_irrefl a))
      (sorted.imp fun less greater => absurd greater (lt_asymm less))
      (perm.mem_iff.mpr inside) (perm.mem_iff.mpr inside')
  · intro agree
    have whole : (keys entries).filter (· ≠ "__proto__") = keys entries :=
      filter_eq_self.mpr fun a inside => decide_eq_true (agree a inside).1
    rw [whole] at kept
    refine (kept.trans perm.symm).eq_of_pairwise (fun a b _ _ ab ba => absurd ba (lt_asymm ab)) listed
      (sorted.imp_of_mem fun inside inside' less => ?_)
    exact (agree _ (perm.mem_iff.mp inside)).2 _ (perm.mem_iff.mp inside') less

end

/-! ## Plain names -/

/-- A name that both languages treat alike: no index, no accessor and no surrogates. -/
def PlainName (name : String) : Prop :=
  arrayIndex? name = none ∧ name ≠ "__proto__" ∧
    name.toList.all (fun c => c.toNat < 0x10000) = true

instance (name : String) : Decidable (PlainName name) :=
  inferInstanceAs (Decidable (_ ∧ _ ∧ _))

theorem utf16_of_plainName {name : String} (plain : PlainName name) :
    utf16 name = name.toList.map Char.toNat := by
  rw [utf16_eq_flatMap, map_eq_flatMap]
  apply flatMap_congr
  intro c member
  rw [codeUnits, if_pos (of_decide_eq_true (all_eq_true.mp plain.2.2 c member))]

theorem map_toNat_lt_iff (s t : List Char) : s.map Char.toNat < t.map Char.toNat ↔ s < t := by
  induction s generalizing t with
  | nil => cases t <;> simp
  | cons c s ih =>
    cases t with
    | nil => simp
    | cons d t =>
      rw [map_cons, map_cons, cons_lt_cons_iff, cons_lt_cons_iff, ih, Char.toNat_inj]
      rfl

/-- Plain names are listed as Rust sorts them. -/
theorem inOrder_of_plain {names : List String} (plain : ∀ name ∈ names, PlainName name) :
    InOrder names := by
  intro a inside
  refine ⟨(plain a inside).2.1, fun b inside' less => Prod.Lex.toLex_lt_toLex.mpr (.inr ⟨?_, ?_⟩)⟩
  · rw [rank, rank, (plain a inside).1, (plain b inside').1]
  · rw [utf16_of_plainName (plain a inside), utf16_of_plainName (plain b inside'),
      map_toNat_lt_iff]
    exact String.lt_iff_toList_lt.mp less

end

end TrustForge.BinaryFormat.Script
