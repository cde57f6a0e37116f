import TrustForge.Json.Idempotence
import TrustForge.Json.Script

/-!
# One JSON value in both languages

A JSON value has integers in Rust, where TypeScript has a `number` or a `bigint`, and a
JavaScript object lists its properties in an order of its own.  Neither shows in the
canonical text.
-/

namespace TrustForge.Json

open Value List Nat

/-- The integer that a number is, as long as it is not a float. -/
def Number.toInt? : Number → Option Int
  | .posInt value => some value.val
  | .negInt value => some (-(value.val + 1))
  | .float _ => none

/-- An integer of at most `Number.MAX_SAFE_INTEGER`, up to its sign. -/
def Number.isSafe (n : Number) : Bool :=
  n.toInt?.any fun i => i.natAbs ≤ 2 ^ 53 - 1

namespace Value

mutual

/-- The numbers in a value, in order. -/
def numbers : Value → List Number
  | .null => []
  | .bool _ => []
  | .number n => [n]
  | .string _ => []
  | .array xs => numbersOfArray xs
  | .object entries => numbersOfObject entries

def numbersOfArray : List Value → List Number
  | [] => []
  | x :: xs => x.numbers ++ numbersOfArray xs

def numbersOfObject : List (String × Value) → List Number
  | [] => []
  | (_, v) :: rest => v.numbers ++ numbersOfObject rest

end

theorem forall_numbers_array_iff (P : Number → Prop) (xs : List Value) :
    (∀ n ∈ (array xs).numbers, P n) ↔ ∀ x ∈ xs, ∀ n ∈ x.numbers, P n := by
  rw [numbers]
  induction xs with
  | nil => simp [numbersOfArray]
  | cons x xs ih => rw [numbersOfArray, forall_mem_append, ih, forall_mem_cons]

theorem forall_numbers_object_iff (P : Number → Prop) (entries : List (String × Value)) :
    (∀ n ∈ (object entries).numbers, P n) ↔ ∀ entry ∈ entries, ∀ n ∈ entry.2.numbers, P n := by
  rw [numbers]
  induction entries with
  | nil => simp [numbersOfObject]
  | cons entry rest ih => rw [numbersOfObject, forall_mem_append, ih, forall_mem_cons]

end Value

namespace Script

/-! ## The same value -/

/-- A `number` that denotes the integer, or a `bigint` that is it. -/
def RepresentsNumber : Number → Number → Prop
  | .float f, n => ∃ i, n.toInt? = some i ∧ Binary64.Denotes f.bits i
  | bigint, n => bigint = n

mutual

/-- The JavaScript value on the left is the JSON value on the right. -/
def Represents : Value → Value → Prop
  | .null, .null => True
  | .bool a, .bool b => a = b
  | .number n, .number m => RepresentsNumber n m
  | .string a, .string b => a = b
  | .array items, .array xs => RepresentsItems items xs
  | .object properties, .object entries =>
    ∃ ordered, ordered.Perm entries ∧ RepresentsProperties properties ordered
  | _, _ => False

def RepresentsItems : List Value → List Value → Prop
  | [], [] => True
  | t :: items, v :: xs => Represents t v ∧ RepresentsItems items xs
  | _, _ => False

def RepresentsProperties : List (String × Value) → List (String × Value) → Prop
  | [], [] => True
  | (name, t) :: properties, (key, v) :: entries =>
    name = key ∧ Represents t v ∧ RepresentsProperties properties entries
  | _, _ => False

end

/-- `Number(i)`, for an integer that is exact. -/
def ofInteger (i : Int) (exact : i.natAbs ≤ 2 ^ 53) : F64 where
  bits := Binary64.ofInt i
  finite := (Binary64.denotes_ofInt exact).1

/-- An integer as `JSON.parse` reads it, if it is exact. -/
def numberOfJson (n : Number) : Number :=
  match n.toInt? with
  | some i => if exact : i.natAbs ≤ 2 ^ 53 then .float (ofInteger i exact) else n
  | none => n

mutual

/-- The value as `JSON.parse` reads it, with the properties in the order of the entries. -/
def ofJson : Value → Value
  | .null => .null
  | .bool b => .bool b
  | .number n => .number (numberOfJson n)
  | .string s => .string s
  | .array xs => .array (itemsOfJson xs)
  | .object entries => .object (propertiesOfJson entries)

def itemsOfJson : List Value → List Value
  | [] => []
  | x :: xs => ofJson x :: itemsOfJson xs

def propertiesOfJson : List (String × Value) → List (String × Value)
  | [] => []
  | (key, v) :: rest => (key, ofJson v) :: propertiesOfJson rest

end

theorem representsNumber_numberOfJson {n : Number} (safe : n.isSafe = true) :
    RepresentsNumber (numberOfJson n) n := by
  rcases (Option.any_eq_true _ _).mp safe with ⟨i, integer, small⟩
  have exact : i.natAbs ≤ 2 ^ 53 := (of_decide_eq_true small).trans (sub_le _ _)
  have number : numberOfJson n = .float (ofInteger i exact) := by
    unfold numberOfJson
    simp only [integer]
    rw [dif_pos exact]
  rw [number]
  exact ⟨i, integer, Binary64.denotes_ofInt exact⟩

mutual

theorem represents_ofJson : (v : Value) → (∀ n ∈ v.numbers, n.isSafe = true) →
    Represents (ofJson v) v
  | .null, _ => trivial
  | .bool _, _ => rfl
  | .number n, safe => representsNumber_numberOfJson (safe n mem_cons_self)
  | .string _, _ => rfl
  | .array xs, safe => representsItems_ofJson xs safe
  | .object entries, safe =>
    ⟨entries, List.Perm.refl entries, representsProperties_ofJson entries safe⟩

theorem representsItems_ofJson : (xs : List Value) →
    (∀ n ∈ numbersOfArray xs, n.isSafe = true) → RepresentsItems (itemsOfJson xs) xs
  | [], _ => trivial
  | x :: xs, safe =>
    ⟨represents_ofJson x fun n member => safe n (mem_append_left _ member),
      representsItems_ofJson xs fun n member => safe n (mem_append_right _ member)⟩

theorem representsProperties_ofJson : (entries : List (String × Value)) →
    (∀ n ∈ numbersOfObject entries, n.isSafe = true) →
    RepresentsProperties (propertiesOfJson entries) entries
  | [], _ => trivial
  | (_, v) :: rest, safe =>
    ⟨rfl, represents_ofJson v fun n member => safe n (mem_append_left _ member),
      representsProperties_ofJson rest fun n member => safe n (mem_append_right _ member)⟩

end

/-! ## The same text -/

/-- A float that denotes a negative integer is written with its digits. -/
theorem Engine.encodeNumber_float_neg (engine : Engine) {f : F64} {n : Nat}
    (denotes : Binary64.Denotes f.bits (-(n + 1 : Nat))) (small : n + 1 < 10 ^ 21) :
    engine.encodeNumber (.float f) = (Numeral.ofInteger true (n + 1)).text := by
  have unit : 0 < 2 ^ 1075 := pow_pos two_pos 1075
  have value := (denotes_iff f _).mp denotes
  have negative : f.negative = true := by
    by_contra plain
    rw [if_neg plain] at value
    have sum : units f + (n + 1) * 2 ^ 1075 = 0 := by
      apply Int.ofNat_inj.mp
      rw [cast_add, Nat.cast_mul, Nat.cast_pow, Nat.cast_ofNat, value, Int.neg_mul,
        Int.add_left_neg, Nat.cast_zero]
    exact absurd (Nat.add_eq_zero_iff.mp sum).2 (mul_pos n.succ_pos unit).ne'
  have multiple : units f = (n + 1) * 2 ^ 1075 := by
    rw [if_pos negative, Int.neg_mul, Int.neg_inj] at value
    apply Int.ofNat_inj.mp
    rw [value, Nat.cast_mul, Nat.cast_pow, Nat.cast_ofNat]
  have nonzero : f.isZero = false := by
    rw [← Bool.not_eq_true, isZero_iff, multiple]
    exact (mul_pos n.succ_pos unit).ne'
  have integral : f.integral = true := by
    rw [F64.integral, beq_iff_eq, ← units, multiple, mul_mod_left]
  have truncated : f.truncated = n + 1 := by
    rw [F64.truncated, ← units, multiple, Nat.mul_div_cancel _ unit]
  rw [encodeNumber, nonzero, integral, truncated, negative, decide_eq_true small]
  rfl

theorem Engine.encodeNumber_eq (engine : Engine) {n m : Number} (same : RepresentsNumber n m) :
    engine.encodeNumber n = (engine.toRuntime.numeral m).text := by
  cases n with
  | posInt value =>
    cases (show Number.posInt value = m from same)
    rfl
  | negInt value =>
    cases (show Number.negInt value = m from same)
    rfl
  | float f =>
    rcases same with ⟨i, integer, denotes⟩
    cases m with
    | float _ => contradiction
    | posInt value =>
      rw [← Option.some.inj integer] at denotes
      have fits : value.val < 10 ^ 21 := value.isLt.trans (by decide)
      exact engine.encodeNumber_float (natural?_of_denotes denotes) fits
    | negInt value =>
      rw [← Option.some.inj integer] at denotes
      have fits : value.val + 1 < 10 ^ 21 := (succ_le_of_lt value.isLt).trans_lt (by decide)
      exact engine.encodeNumber_float_neg denotes fits

end Script

/-- The order of entries does not show, if their keys stay distinct under NFC. -/
theorem Runtime.encode_object_perm (runtime : Runtime) {left right : List (String × Value)}
    (perm : left.Perm right) (nodup : (left.map fun entry => runtime.nfc entry.1).Nodup) :
    runtime.encode (.object left) = runtime.encode (.object right) := by
  have keys : (AssocMap.keys (runtime.encodeEntries left)).Nodup := by
    rw [AssocMap.keys, encodeEntries_eq_map, map_map]
    exact nodup
  have sorted : sortByKey (runtime.encodeEntries left) = sortByKey (runtime.encodeEntries right) := by
    apply sortByKey_eq_of_perm _ keys
    rw [encodeEntries_eq_map, encodeEntries_eq_map]
    exact perm.map _
  rw [encode, encode, sorted]

namespace Script

namespace Engine

variable (engine : Engine)

mutual

theorem encode_eq : (t v : Value) → Represents t v → (v.mapText engine.nfc).distinctKeys = true →
    engine.encode t = engine.toRuntime.encode v
  | .null, v, same, _ => by
    cases v with
    | null => rfl
    | _ => exact same.elim
  | .bool a, v, same, _ => by
    cases v with
    | bool b =>
      cases (show a = b from same)
      rw [encode, Runtime.encode]
    | _ => exact same.elim
  | .number n, v, same, _ => by
    cases v with
    | number m =>
      rw [encode, Runtime.encode]
      exact engine.encodeNumber_eq same
    | _ => exact same.elim
  | .string s, v, same, _ => by
    cases v with
    | string t =>
      cases (show s = t from same)
      exact engine.encode_string s
    | _ => exact same.elim
  | .array items, v, same, distinct => by
    cases v with
    | array xs =>
      rw [mapText, mapTextArray_eq_map, distinctKeys,
        distinctKeysArray_iff, forall_mem_map] at distinct
      exact engine.encode_array_eq (encodeItems_eq items xs same distinct)
    | _ => exact same.elim
  | .object properties, v, same, distinct => by
    cases v with
    | object entries =>
      rcases same with ⟨ordered, perm, each⟩
      rw [mapText, mapTextObject_eq_map, distinctKeys_object_iff,
        AssocMap.keys, map_map, forall_mem_map] at distinct
      rcases distinct with ⟨nodup, distinct⟩
      have text := engine.encode_object_eq (encodeProperties_eq properties ordered each
        fun entry member => distinct entry (perm.mem_iff.mp member))
      exact text.trans
        (engine.encode_object_perm perm ((perm.map _).nodup_iff.mpr nodup))
    | _ => exact same.elim

theorem encodeItems_eq : (items xs : List Value) → RepresentsItems items xs →
    (∀ x ∈ xs, (x.mapText engine.nfc).distinctKeys = true) →
    items.map engine.encode = xs.map engine.toRuntime.encode
  | [], xs, same, _ => by
    cases xs with
    | nil => rfl
    | cons _ _ => exact same.elim
  | t :: items, xs, same, distinct => by
    cases xs with
    | nil => exact same.elim
    | cons v xs =>
      rw [map_cons, map_cons, encode_eq t v same.1 (distinct v mem_cons_self),
        encodeItems_eq items xs same.2 fun x member => distinct x (mem_cons_of_mem v member)]

theorem encodeProperties_eq : (properties entries : List (String × Value)) →
    RepresentsProperties properties entries →
    (∀ entry ∈ entries, (entry.2.mapText engine.nfc).distinctKeys = true) →
    properties.map (Prod.map id engine.encode) =
      entries.map (Prod.map id engine.toRuntime.encode)
  | [], entries, same, _ => by
    cases entries with
    | nil => rfl
    | cons _ _ => exact same.elim
  | (name, t) :: properties, entries, same, distinct => by
    cases entries with
    | nil => exact same.elim
    | cons entry entries =>
      rcases entry with ⟨key, v⟩
      rcases same with ⟨sameKey, sameValue, later⟩
      rw [map_cons, map_cons, Prod.map_apply, Prod.map_apply, sameKey,
        encode_eq t v sameValue (distinct (key, v) mem_cons_self),
        encodeProperties_eq properties entries later fun entry member =>
          distinct entry (mem_cons_of_mem _ member)]

end

/-- Both languages write the same canonical bytes for a JSON value. -/
theorem canonicalize_agrees {v : Value} (safe : ∀ n ∈ v.numbers, n.isSafe = true)
    (distinct : (v.mapText engine.nfc).distinctKeys = true) :
    Represents (ofJson v) v ∧
      ∀ t, Represents t v →
        Text.utf8 (engine.canonicalize t) = Text.utf8 (engine.toRuntime.canonicalize v) := by
  refine ⟨represents_ofJson v safe, fun t same => ?_⟩
  rw [canonicalize, Runtime.canonicalize, engine.encode_eq t v same distinct]

end Engine

/-- An engine whose NFC composes the letter e with an acute accent. -/
def composingEngine : Engine where
  toRuntime := .composing
  stringOfNumber := fun _ => []

theorem canonicalize_agrees_nested :
    let v := object [("e\u0301", .number (.negInt 4)), ("b", .array [.string "\n", .null]),
      ("7", .number (.posInt 9007199254740991))]
    Represents (ofJson v) v ∧
      ∀ t, Represents t v → Text.utf8 (composingEngine.canonicalize t) =
        Text.utf8 (composingEngine.toRuntime.canonicalize v) :=
  composingEngine.canonicalize_agrees (by decide +kernel) (by decide +kernel)

end Script

end TrustForge.Json
