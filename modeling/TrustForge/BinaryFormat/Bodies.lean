import TrustForge.BinaryFormat.Script
import TrustForge.Json.ScriptAgreement

/-!
# One body in both languages

The two encoders write the same bytes for the same sorted value, except that the one in
TypeScript stops at a depth.  Sorting is where the languages differ: an object in
TypeScript may list its keys in another order, or without one of them.
-/

namespace TrustForge.BinaryFormat

open List Binary64
open Cbor.Script (JsNumber JsValue maxDepth maxSafeInteger)
open Json (Value Number sortByKey)

namespace Script

/-! ## Bodies in TypeScript -/

/-- A number as `JSON.parse` reads it. -/
def numberOf : Number → JsNumber
  | .posInt value => .ofInt value.val
  | .negInt value => .ofInt (-(value.val + 1))
  | .float f => .ofBits f.bits

mutual

/-- The value as `JSON.parse` reads it, with the properties in the order of the entries. -/
def ofJson : Value → JsValue
  | .null => .null
  | .bool b => .bool b
  | .number n => .number (numberOf n)
  | .string s => .string s
  | .array xs => .array (itemsOfJson xs)
  | .object entries => .object (propertiesOfJson entries)

def itemsOfJson : List Value → List JsValue
  | [] => []
  | x :: xs => ofJson x :: itemsOfJson xs

def propertiesOfJson : List (String × Value) → List (String × JsValue)
  | [] => []
  | (key, v) :: rest => (key, ofJson v) :: propertiesOfJson rest

end

variable (entries : List (String × Value))

theorem propertiesOfJson_eq_map :
    propertiesOfJson entries = entries.map fun entry => (entry.1, ofJson entry.2) :=
  Nested.eq_map rfl (fun _ _ => rfl)

theorem itemsOfJson_eq_map (xs : List Value) : itemsOfJson xs = xs.map ofJson :=
  Nested.eq_map rfl (fun _ _ => rfl)

theorem sortItems_eq_map (items : List JsValue) : sortItems items = items.map sortKeysDeep :=
  Nested.eq_map rfl (fun _ _ => rfl)

theorem sortProperties_eq_map (properties : List (String × JsValue)) :
    sortProperties properties =
      properties.map fun property => (property.1, sortKeysDeep property.2) :=
  Nested.eq_map rfl (fun _ _ => rfl)

mutual

/-- The value as `sortKeysDeep` leaves it. -/
def sortedDeep : Value → Value
  | .null => .null
  | .bool b => .bool b
  | .number n => .number n
  | .string s => .string s
  | .array xs => .array (sortedDeepAll xs)
  | .object entries => .object (sortedObject (sortedDeepEach entries))

def sortedDeepAll : List Value → List Value
  | [] => []
  | x :: xs => sortedDeep x :: sortedDeepAll xs

def sortedDeepEach : List (String × Value) → List (String × Value)
  | [] => []
  | (key, v) :: rest => (key, sortedDeep v) :: sortedDeepEach rest

end

theorem sortedDeepAll_eq_map (xs : List Value) : sortedDeepAll xs = xs.map sortedDeep :=
  Nested.eq_map rfl (fun _ _ => rfl)

theorem sortedDeepEach_eq_map :
    sortedDeepEach entries = entries.map fun entry => (entry.1, sortedDeep entry.2) :=
  Nested.eq_map rfl (fun _ _ => rfl)

variable (v : Value)

/-- Sorting does not look at the values. -/
theorem sortKeysDeep_ofJson : sortKeysDeep (ofJson v) = ofJson (sortedDeep v) := by
  induction v using Value.memberInduction with
  | null | bool | number | string => rfl
  | array xs ih =>
    rw [ofJson, sortKeysDeep, sortedDeep, ofJson, sortItems_eq_map, itemsOfJson_eq_map,
      itemsOfJson_eq_map, sortedDeepAll_eq_map, map_map, map_map]
    exact congrArg _ (map_congr_left ih)
  | object entries ih =>
    have each : sortProperties (propertiesOfJson entries) =
        (sortedDeepEach entries).map fun entry => (entry.1, ofJson entry.2) := by
      rw [sortProperties_eq_map, propertiesOfJson_eq_map, sortedDeepEach_eq_map, map_map, map_map]
      exact map_congr_left fun entry member => congrArg (Prod.mk entry.1) (ih entry member)
    rw [ofJson, sortKeysDeep, sortedDeep, ofJson, each, propertiesOfJson_eq_map, sortedObject_map]

/-- The order of entries does not show. -/
theorem sortedDeep_sorted (distinct : v.distinctKeys = true) :
    sortedDeep v.sorted = sortedDeep v := by
  induction v using Value.memberInduction with
  | null | bool | number | string => rfl
  | array xs ih =>
    rw [Value.distinctKeys, Value.distinctKeysArray_iff] at distinct
    rw [Value.sorted, sortedDeep, sortedDeep, sortedDeepAll_eq_map, sortedDeepAll_eq_map,
      Value.sortedAll_eq_map, map_map]
    exact congrArg _ (map_congr_left fun x member => ih x member (distinct x member))
  | object entries ih =>
    rcases (Value.distinctKeys_object_iff entries).mp distinct with ⟨nodup, each⟩
    have perm : (sortedDeepEach (sortByKey (Value.sortedEach entries))).Perm
        (sortedDeepEach entries) := by
      have same : sortedDeepEach (Value.sortedEach entries) = sortedDeepEach entries := by
        rw [sortedDeepEach_eq_map, sortedDeepEach_eq_map, Value.sortedEach_eq_map, map_map]
        exact map_congr_left fun entry member =>
          congrArg (Prod.mk entry.1) (ih entry member (each entry member))
      rw [← same, sortedDeepEach_eq_map, sortedDeepEach_eq_map]
      exact (Json.sortByKey_perm _).map _
    rw [Value.sorted, sortedDeep, sortedDeep]
    refine congrArg _ (sortedObject_eq_of_perm perm.symm ?_).symm
    rw [AssocMap.keys, sortedDeepEach_eq_map, map_map]
    exact nodup

theorem sortedDeep_eq_of_sameData {v w : Value} (distinct : v.distinctKeys = true)
    (same : v.SameData w) : sortedDeep w = sortedDeep v := by
  have sorted := Value.sorted_eq_of_sameData v w distinct same
  have distinct' : w.distinctKeys = true := by
    rw [← Value.distinctKeys_sorted_iff, ← sorted, Value.distinctKeys_sorted_iff]
    exact distinct
  rw [← sortedDeep_sorted w distinct', ← sorted, sortedDeep_sorted v distinct]

/-! ## The encoders -/

theorem header_number_eq_ok_iff {major : Nat} (small : major < 8) (n : Nat) (front : Bytes) :
    Cbor.Script.header major (.number n) = .ok front ↔
      n ≤ maxSafeInteger ∧ Cbor.putHeader (.ofNat major) (.ofNat n) = front := by
  rw [Cbor.Script.header]
  by_cases large : maxSafeInteger < n
  · rw [if_pos large]
    exact iff_of_false nofun fun both => absurd both.1 (Nat.not_le_of_lt large)
  · have fits : n < 2 ^ 64 := (Nat.le_of_not_lt large).trans_lt (by decide)
    rw [if_neg large, Except.ok.injEq, Cbor.Script.headerBytes_eq_putHeader small fits]
    exact ⟨fun same => ⟨Nat.le_of_not_lt large, same⟩, And.right⟩

/-- A header in front of what both languages write: the length that it takes is not
larger than what was written. -/
theorem header_bind_eq_ok_iff (major : Nat) (small : major < 8) {n : Nat}
    {rest : Except Cbor.Script.Thrown Bytes} {rest' : Except Cbor.CborError Bytes}
    {shallow : Prop} {bytes : Bytes} (short : bytes.length ≤ maxSafeInteger)
    (alike : ∀ body : Bytes, body.length ≤ maxSafeInteger →
      (rest = .ok body ↔ shallow ∧ rest' = .ok body))
    (counted : ∀ body : Bytes, rest' = .ok body → body.length ≤ maxSafeInteger →
      n ≤ body.length) :
    (do let front ← Cbor.Script.header major (.number n)
        let body ← rest
        .ok (front ++ body)) = .ok bytes ↔
      shallow ∧ (do let body ← rest'
                    .ok (Cbor.putHeader (.ofNat major) (.ofNat n) ++ body)) = .ok bytes := by
  simp only [Result.bind_eq_ok_iff, header_number_eq_ok_iff small, Except.ok.injEq]
  constructor
  · rintro ⟨front, ⟨_, same⟩, body, encoded, whole⟩
    rw [← whole, length_append] at short
    rcases (alike body (by omega)).mp encoded with ⟨inside, written⟩
    exact ⟨inside, body, written, by rw [same, whole]⟩
  · rintro ⟨inside, body, written, whole⟩
    rw [← whole, length_append] at short
    have fits := counted body written (by omega)
    exact ⟨_, ⟨by omega, rfl⟩, body, (alike body (by omega)).mpr ⟨inside, written⟩, whole⟩

theorem encodeString_eq_ok_iff (s : String) {bytes : Bytes} (short : bytes.length ≤ maxSafeInteger) :
    Cbor.Script.encodeString s = .ok bytes ↔ Cbor.encodeInto (.text s) = .ok bytes := by
  have alike : ∀ body : Bytes, body.length ≤ maxSafeInteger →
      ((.ok (Text.utf8 s) : Except Cbor.Script.Thrown Bytes) = .ok body ↔
        True ∧ (.ok (Text.utf8 s) : Except Cbor.CborError Bytes) = .ok body) := by
    intro body _
    rw [Except.ok.injEq, Except.ok.injEq, true_and]
  have counted : ∀ body : Bytes, (.ok (Text.utf8 s) : Except Cbor.CborError Bytes) = .ok body →
      body.length ≤ maxSafeInteger → (Text.utf8 s).length ≤ body.length := by
    rintro body ⟨⟩ _
    exact Nat.le_refl _
  have whole := header_bind_eq_ok_iff 3 (by decide) short alike counted
  rw [true_and] at whole
  exact whole

/-- A safe integer is exact, and it is not written as -0. -/
theorem toInt?_ofInt {i : Int} (small : i.natAbs ≤ maxSafeInteger) :
    (JsNumber.ofInt i).toInt? = some i ∧ (JsNumber.ofInt i).bits ≠ negate 0 := by
  have denotes := denotes_ofInt (small.trans (Nat.sub_le (2 ^ 53) 1))
  have number : isNan (ofInt i) = false := by
    simp [isNan, denotes.1]
  have bits : (JsNumber.ofInt i).bits = ofInt i := by
    rw [JsNumber.ofInt, JsNumber.ofBits, dif_neg (by simp [number])]
  have size : magnitude (ofInt i) = i.natAbs * 2 ^ 1075 := by
    have absolute := congrArg Int.natAbs denotes.2
    rwa [apply_ite Int.natAbs, Int.natAbs_neg, ite_self, Int.natAbs_natCast, Int.natAbs_mul,
      Int.natAbs_pow] at absolute
  have unit : (2 : Int) ^ 1075 ≠ 0 := (Int.pow_pos (by decide)).ne'
  have whole : magnitude (ofInt i) % 2 ^ 1075 = 0 := by
    rw [size, Nat.mul_mod_left]
  have quotient : (magnitude (ofInt i) : Int) / 2 ^ 1075 = i.natAbs := by
    rw [size, Nat.cast_mul, Nat.cast_pow, Nat.cast_ofNat, Int.mul_ediv_cancel _ unit]
  have value : (if negative (ofInt i) then -(i.natAbs : Int) else i.natAbs) = i := by
    apply Int.eq_of_mul_eq_mul_right unit
    rw [← denotes.2, size, ite_mul, Int.neg_mul, Nat.cast_mul, Nat.cast_pow, Nat.cast_ofNat]
  constructor
  · unfold Cbor.Script.JsNumber.toInt?
    rw [bits, if_neg (not_or.mpr ⟨denotes.1, not_not.mpr whole⟩), quotient, ← apply_ite some, value]
  · rw [bits]
    intro minusZero
    rw [minusZero, show magnitude (negate 0) = 0 from rfl] at size
    have zero : i = 0 := by
      have positive : 0 < 2 ^ 1075 := Nat.two_pow_pos 1075
      exact Int.natAbs_eq_zero.mp ((Nat.mul_eq_zero.mp size.symm).resolve_right positive.ne')
    rw [zero] at minusZero
    exact absurd minusZero (by decide)

theorem encodeInteger_eq_ok_iff {i : Int} (small : i.natAbs ≤ maxSafeInteger) (bytes : Bytes) :
    Cbor.Script.encodeInteger i = .ok bytes ↔ Cbor.encodeInteger i = .ok bytes := by
  have bound : i.natAbs < 2 ^ 53 := Nat.lt_of_le_of_lt small (by decide)
  unfold Cbor.Script.encodeInteger Cbor.encodeInteger
  by_cases nonneg : 0 ≤ i
  · rw [if_pos nonneg, if_pos nonneg, if_pos (by omega), Cbor.Script.header, if_neg (by omega),
      Cbor.Script.headerBytes_eq_putHeader (by decide) (by omega), Except.ok.injEq, Except.ok.injEq]
    rfl
  · rw [if_neg nonneg, if_neg nonneg]
    dsimp only
    rw [if_neg (by omega), if_pos (by omega), Cbor.Script.header, if_neg (by omega),
      Cbor.Script.headerBytes_eq_putHeader (by decide) (by omega), Except.ok.injEq, Except.ok.injEq]
    rfl

theorem encodeNumber_eq_ok_iff {n : Number} (safe : n.isSafe = true) (bytes : Bytes) :
    Cbor.Script.encodeNumber (numberOf n) = .ok bytes ↔
      Cbor.encodeInto (numberOfJson n) = .ok bytes := by
  have integer : ∀ i : Int, i.natAbs ≤ maxSafeInteger →
      (Cbor.Script.encodeNumber (.ofInt i) = .ok bytes ↔
        Cbor.encodeInto (.integer i) = .ok bytes) := by
    intro i small
    rcases toInt?_ofInt small with ⟨exact, signed⟩
    have kept : ((JsNumber.ofInt i).toInt?.filter fun j =>
        j.natAbs ≤ maxSafeInteger && (JsNumber.ofInt i).bits != negate 0) = some i := by
      rw [exact]
      exact Option.filter_some_pos (by simp [small, signed])
    rw [Cbor.Script.encodeNumber, kept, Cbor.encodeInto]
    exact encodeInteger_eq_ok_iff small bytes
  rcases (Option.any_eq_true _ _).mp safe with ⟨i, isInteger, small⟩
  have small := of_decide_eq_true small
  cases n with
  | posInt | negInt =>
    cases isInteger
    exact integer _ small
  | float _ => contradiction

/-- The guard of `encodeInto`. -/
theorem guarded_iff {depth below : Nat} {x : Except Cbor.Script.Thrown Bytes}
    {e : Cbor.Script.Thrown} {bytes : Bytes} {written : Prop}
    (inside : depth ≤ maxDepth → (x = .ok bytes ↔ depth + below ≤ maxDepth ∧ written)) :
    (if maxDepth < depth then .error e else x) = .ok bytes ↔
      depth + below ≤ maxDepth ∧ written := by
  by_cases deep : maxDepth < depth
  · rw [if_pos deep]
    exact iff_of_false nofun fun both => by omega
  · rw [if_neg deep]
    exact inside (Nat.le_of_not_lt deep)

/-- What the two encoders have to do with each other. -/
def EncodesAlike (v : Value) : Prop :=
  ∀ (depth : Nat) (bytes : Bytes), bytes.length ≤ maxSafeInteger →
    (Cbor.Script.encodeInto depth (ofJson v) = .ok bytes ↔
      depth + (fromJson v).depth ≤ maxDepth ∧ Cbor.encodeInto (fromJson v) = .ok bytes)

theorem encodeItems_ofJson_iff {xs : List Value} (each : ∀ x ∈ xs, EncodesAlike x) (depth : Nat)
    (bytes : Bytes) (short : bytes.length ≤ maxSafeInteger) :
    Cbor.Script.encodeItems depth (itemsOfJson xs) = .ok bytes ↔
      (∀ x ∈ xs, depth + (fromJson x).depth ≤ maxDepth) ∧
        Cbor.encodeItems (itemsFromJson xs) = .ok bytes := by
  induction xs generalizing bytes with
  | nil => simp [itemsOfJson, itemsFromJson, Cbor.Script.encodeItems, Cbor.encodeItems]
  | cons x xs ih =>
    rcases forall_mem_cons.mp each with ⟨head, tail⟩
    rw [itemsOfJson, itemsFromJson, Cbor.Script.encodeItems, Cbor.encodeItems, forall_mem_cons]
    simp only [Result.bind_eq_ok_iff, Except.ok.injEq]
    constructor
    · rintro ⟨first, encoded, rest, encodedRest, whole⟩
      rw [← whole, length_append] at short
      rcases (head depth first (by omega)).mp encoded with ⟨shallow, written⟩
      rcases (ih tail rest (by omega)).mp encodedRest with ⟨shallowRest, writtenRest⟩
      exact ⟨⟨shallow, shallowRest⟩, first, written, rest, writtenRest, whole⟩
    · rintro ⟨⟨shallow, shallowRest⟩, first, written, rest, writtenRest, whole⟩
      rw [← whole, length_append] at short
      exact ⟨first, (head depth first (by omega)).mpr ⟨shallow, written⟩, rest,
        (ih tail rest (by omega)).mpr ⟨shallowRest, writtenRest⟩, whole⟩

theorem encodeProperties_ofJson_iff {entries : List (String × Value)}
    (each : ∀ entry ∈ entries, EncodesAlike entry.2) (depth : Nat) (bytes : Bytes)
    (short : bytes.length ≤ maxSafeInteger) :
    Cbor.Script.encodeProperties depth (propertiesOfJson entries) = .ok bytes ↔
      (∀ entry ∈ entries, depth + (fromJson entry.2).depth ≤ maxDepth) ∧
        Cbor.encodeEntries (entriesFromJson entries) = .ok bytes := by
  induction entries generalizing bytes with
  | nil => simp [propertiesOfJson, entriesFromJson, Cbor.Script.encodeProperties, Cbor.encodeEntries]
  | cons entry rest ih =>
    rcases entry with ⟨key, v⟩
    rcases forall_mem_cons.mp each with ⟨head, tail⟩
    rw [propertiesOfJson, entriesFromJson, Cbor.Script.encodeProperties, Cbor.encodeEntries,
      forall_mem_cons]
    by_cases deep : maxDepth < depth
    · rw [if_pos deep]
      refine iff_of_false ?_ fun both => absurd both.1.1 (by omega)
      rintro ⟨⟩
    rw [if_neg deep]
    simp only [Result.bind_eq_ok_iff, Except.ok.injEq]
    constructor
    · rintro ⟨k, encodedKey, first, encoded, more, encodedRest, whole⟩
      rw [← whole, length_append, length_append] at short
      have writtenKey := (encodeString_eq_ok_iff key (by omega)).mp encodedKey
      rcases (head depth first (by omega)).mp encoded with ⟨shallow, written⟩
      rcases (ih tail more (by omega)).mp encodedRest with ⟨shallowRest, writtenRest⟩
      exact ⟨⟨shallow, shallowRest⟩, k, writtenKey, first, written, more, writtenRest, whole⟩
    · rintro ⟨⟨shallow, shallowRest⟩, k, writtenKey, first, written, more, writtenRest, whole⟩
      rw [← whole, length_append, length_append] at short
      exact ⟨k, (encodeString_eq_ok_iff key (by omega)).mpr writtenKey, first,
        (head depth first (by omega)).mpr ⟨shallow, written⟩, more,
        (ih tail more (by omega)).mpr ⟨shallowRest, writtenRest⟩, whole⟩

/-- Items of one level, counted from the outside and from the inside. -/
theorem all_shallow_iff {α : Type} {xs : List α} {below : α → Nat} {depth total : Nat}
    (inside : depth ≤ maxDepth) (all : ∀ n, total ≤ n ↔ ∀ x ∈ xs, below x < n) :
    (∀ x ∈ xs, depth + 1 + below x ≤ maxDepth) ↔ depth + total ≤ maxDepth := by
  rw [Nat.add_comm depth total, ← Nat.le_sub_iff_add_le inside, all]
  exact forall₂_congr fun x _ => by omega

theorem encodesAlike (safe : ∀ n ∈ v.numbers, n.isSafe = true) : EncodesAlike v := by
  induction v using Value.memberInduction with
  | null | bool =>
    intro depth bytes _
    rw [ofJson, Cbor.Script.encodeInto]
    exact guarded_iff fun inside => by simp [fromJson, Cbor.Value.depth, Cbor.encodeInto, inside]
  | number n =>
    intro depth bytes _
    have flat : (numberOfJson n).depth = 0 := by cases n <;> rfl
    rw [ofJson, Cbor.Script.encodeInto]
    apply guarded_iff
    intro inside
    rw [fromJson, flat, encodeNumber_eq_ok_iff (safe n mem_cons_self)]
    exact (and_iff_right inside).symm
  | string s =>
    intro depth bytes short
    rw [ofJson, Cbor.Script.encodeInto]
    apply guarded_iff
    intro inside
    rw [fromJson, Cbor.Value.depth, encodeString_eq_ok_iff s short]
    exact (and_iff_right inside).symm
  | array xs ih =>
    intro depth bytes short
    have each : ∀ x ∈ xs, EncodesAlike x := fun x member =>
      ih x member ((Value.forall_numbers_array_iff _ xs).mp safe x member)
    rw [ofJson, Cbor.Script.encodeInto]
    apply guarded_iff
    intro inside
    rw [← all_shallow_iff inside (depth_array_le_iff xs), fromJson, Cbor.encodeInto]
    have lengths : (itemsOfJson xs).length = (itemsFromJson xs).length := by
      rw [itemsOfJson_eq_map, itemsFromJson_eq_map, length_map, length_map]
    rw [lengths]
    exact header_bind_eq_ok_iff 4 (by decide) short
      (fun body shortBody => encodeItems_ofJson_iff each (depth + 1) body shortBody)
      fun body written shortBody =>
        Cbor.length_le_of_encodeItems written (shortBody.trans_lt (by decide))
  | object entries ih =>
    intro depth bytes short
    have each : ∀ entry ∈ entries, EncodesAlike entry.2 := fun entry member =>
      ih entry member ((Value.forall_numbers_object_iff _ entries).mp safe entry member)
    rw [ofJson, Cbor.Script.encodeInto]
    apply guarded_iff
    intro inside
    rw [← all_shallow_iff inside (depth_object_le_iff entries), fromJson, Cbor.encodeInto]
    have lengths : (propertiesOfJson entries).length = (entriesFromJson entries).length := by
      rw [propertiesOfJson_eq_map, entriesFromJson_eq_map, length_map, length_map]
    rw [lengths]
    exact header_bind_eq_ok_iff 5 (by decide) short
      (fun body shortBody => encodeProperties_ofJson_iff each (depth + 1) body shortBody)
      fun body written shortBody =>
        Cbor.length_le_of_encodeEntries written (shortBody.trans_lt (by decide))

/-! ## The order of keys -/

mutual

/-- Every object lists its keys in TypeScript as they are sorted in Rust. -/
def keysInOrder : Value → Bool
  | .null => true
  | .bool _ => true
  | .number _ => true
  | .string _ => true
  | .array xs => keysInOrderAll xs
  | .object entries => decide (InOrder (AssocMap.keys entries)) && keysInOrderEach entries

def keysInOrderAll : List Value → Bool
  | [] => true
  | x :: xs => keysInOrder x && keysInOrderAll xs

def keysInOrderEach : List (String × Value) → Bool
  | [] => true
  | (_, v) :: rest => keysInOrder v && keysInOrderEach rest

end

theorem keysInOrder_array_iff (xs : List Value) :
    keysInOrder (.array xs) = true ↔ ∀ x ∈ xs, keysInOrder x = true := by
  rw [keysInOrder, Nested.all_iff rfl fun _ _ => rfl]

theorem keysInOrder_object_iff :
    keysInOrder (.object entries) = true ↔
      InOrder (AssocMap.keys entries) ∧ ∀ entry ∈ entries, keysInOrder entry.2 = true := by
  rw [keysInOrder, Bool.and_eq_true, decide_eq_true_iff, Nested.all_iff rfl fun _ _ => rfl]

section

variable {β γ : Type}

theorem keys_sortedObject_map (f : β → γ) (entries : List (String × β)) :
    AssocMap.keys (sortedObject (entries.map fun entry => (entry.1, f entry.2))) =
      AssocMap.keys (sortedObject entries) := by
  rw [sortedObject_map, AssocMap.keys, map_map]
  rfl

theorem keys_sortByKey_map (f : β → γ) (entries : List (String × β)) :
    AssocMap.keys (sortByKey (entries.map fun entry => (entry.1, f entry.2))) =
      AssocMap.keys (sortByKey entries) := by
  rw [Json.sortByKey_map, AssocMap.keys, map_map]
  rfl

theorem sortedObject_eq_sortByKey_iff {entries : List (String × β)}
    (nodup : (AssocMap.keys entries).Nodup) :
    sortedObject entries = sortByKey entries ↔
      AssocMap.keys (sortedObject entries) = AssocMap.keys (sortByKey entries) := by
  constructor
  · exact congrArg AssocMap.keys
  · apply eq_of_map_eq
    intro x xMem y yMem
    exact inj_on_of_nodup_map nodup (mem_of_mem_sortedObject xMem)
      ((Json.sortByKey_perm entries).mem_iff.mp yMem)

end

/-- The languages sort a value alike exactly where its keys are in order. -/
theorem sortedDeep_eq_sorted_iff (distinct : v.distinctKeys = true) :
    sortedDeep v = v.sorted ↔ keysInOrder v = true := by
  induction v using Value.memberInduction with
  | null | bool | number | string => exact iff_of_true rfl rfl
  | array xs ih =>
    rw [Value.distinctKeys, Value.distinctKeysArray_iff] at distinct
    rw [sortedDeep, Value.sorted, Value.array.injEq, sortedDeepAll_eq_map,
      Value.sortedAll_eq_map, keysInOrder_array_iff, map_inj_left]
    exact forall₂_congr fun x member => ih x member (distinct x member)
  | object entries ih =>
    rcases (Value.distinctKeys_object_iff entries).mp distinct with ⟨nodup, each⟩
    rw [sortedDeep, Value.sorted, Value.object.injEq, sortedDeepEach_eq_map,
      Value.sortedEach_eq_map, keysInOrder_object_iff, ← keys_sortedObject_iff nodup]
    constructor
    · intro same
      have keys := congrArg AssocMap.keys same
      rw [keys_sortedObject_map, keys_sortByKey_map] at keys
      refine ⟨keys, fun entry member => (ih entry member (each entry member)).mp ?_⟩
      -- the entry is found under its key among those that TypeScript lists
      have listed : (entry.1, entry.2.sorted) ∈
          sortedObject (entries.map fun entry => (entry.1, sortedDeep entry.2)) := by
        rw [same, (Json.sortByKey_perm _).mem_iff]
        exact mem_map.mpr ⟨entry, member, rfl⟩
      rcases mem_map.mp (mem_of_mem_sortedObject listed) with ⟨other, found, equal⟩
      rw [Prod.mk.injEq] at equal
      have this : other = entry := inj_on_of_nodup_map nodup found member equal.1
      subst this
      exact equal.2
    · rintro ⟨keys, inOrder⟩
      have values : (entries.map fun entry => (entry.1, sortedDeep entry.2)) =
          entries.map fun entry => (entry.1, entry.2.sorted) :=
        map_congr_left fun entry member =>
          congrArg (Prod.mk entry.1) ((ih entry member (each entry member)).mpr
            (inOrder entry member))
      rw [values, sortedObject_eq_sortByKey_iff, keys_sortedObject_map, keys_sortByKey_map]
      · exact keys
      · rw [AssocMap.keys, map_map]
        exact nodup

/-! ## Bodies -/

theorem safe_sortedDeep (safe : ∀ n ∈ v.numbers, n.isSafe = true) :
    ∀ n ∈ (sortedDeep v).numbers, n.isSafe = true := by
  induction v using Value.memberInduction with
  | null | bool | number | string => exact safe
  | array xs ih =>
    rw [Value.forall_numbers_array_iff] at safe
    rw [sortedDeep, Value.forall_numbers_array_iff, sortedDeepAll_eq_map, forall_mem_map]
    exact fun x member => ih x member (safe x member)
  | object entries ih =>
    rw [Value.forall_numbers_object_iff] at safe
    rw [sortedDeep, Value.forall_numbers_object_iff]
    intro entry member
    rw [sortedDeepEach_eq_map] at member
    rcases mem_map.mp (mem_of_mem_sortedObject member) with ⟨other, found, equal⟩
    rw [← equal]
    exact ih other found (safe other found)

/-- A value that both languages write alike: the encoder of `cbor.ts` reaches its inside,
and its keys are in order. -/
def Portable (v : Value) : Prop :=
  (fromJson v).depth ≤ maxDepth ∧ keysInOrder v = true

instance (v : Value) : Decidable (Portable v) :=
  inferInstanceAs (Decidable (_ ∧ _))

section

variable {v w : Value} (safe : ∀ n ∈ v.numbers, n.isSafe = true) (distinct : v.distinctKeys = true)
  (same : v.SameData w) {bytes : Bytes} (short : bytes.length ≤ 0xffffffff)

include safe distinct same short

theorem canonicalCborEncode_eq_ok_iff :
    canonicalCborEncode (ofJson w) = .ok bytes ↔
      (fromJson (sortedDeep v)).depth ≤ maxDepth ∧
        Cbor.encode (fromJson (sortedDeep v)) = .ok bytes := by
  have inside : bytes.length ≤ maxSafeInteger := short.trans (by decide)
  rw [canonicalCborEncode, Result.mapError_eq_ok_iff, sortKeysDeep_ofJson,
    sortedDeep_eq_of_sameData distinct same, Cbor.Script.encode,
    encodesAlike _ (safe_sortedDeep v safe) 0 bytes inside, Nat.zero_add, Cbor.encode]

/-- Where Rust encodes a body, TypeScript writes the same bytes if it is portable. -/
theorem canonicalCborEncode_eq_iff_portable (encoded : cborEncode v = .ok bytes) :
    canonicalCborEncode (ofJson w) = .ok bytes ↔ Portable v := by
  rw [cborEncode_eq_ok_iff distinct] at encoded
  rw [canonicalCborEncode_eq_ok_iff safe distinct same short, Portable,
    ← sortedDeep_eq_sorted_iff v distinct, ← depth_sorted v]
  constructor
  · rintro ⟨shallow, written⟩
    have equal := fromJson_injective _ _
      (Cbor.encode_injective written encoded (short.trans_lt (by decide)))
    rw [equal] at shallow
    exact ⟨shallow, equal⟩
  · rintro ⟨shallow, equal⟩
    rw [equal]
    exact ⟨shallow, encoded⟩

theorem cborEncode_iff_of_portable (portable : Portable v) :
    cborEncode v = .ok bytes ↔ canonicalCborEncode (ofJson w) = .ok bytes := by
  rw [canonicalCborEncode_eq_ok_iff safe distinct same short, cborEncode_eq_ok_iff distinct,
    (sortedDeep_eq_sorted_iff v distinct).mpr portable.2, depth_sorted]
  exact (and_iff_right portable.1).symm

end

end Script

end TrustForge.BinaryFormat
