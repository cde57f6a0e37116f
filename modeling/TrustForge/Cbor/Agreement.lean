import TrustForge.Cbor.Decode
import TrustForge.Cbor.ScriptDecode

/-!
# Two decoders

The Rust and the TypeScript decoder read the same syntax up to one level: an
indefinite-length string at the depth limit is too deep for Rust only.  Where both
succeed, the JavaScript value corresponds to the Rust value unless a text starts with a
byte order mark or a map has two keys that are one number to JavaScript.
-/

namespace TrustForge.Cbor

open Binary64 List AssocMap Nat

/-! ## Levels of indefinite-length strings -/

/-- The string is cut into chunks. -/
def Str.Chunked : Str → Prop
  | .definite _ => False
  | .indefinite _ => True

namespace Item

mutual

/-- Some indefinite-length string lies exactly so many levels below the item. -/
def ChunkedAt : Nat → Item → Prop
  | 0, .bytes s => s.Chunked
  | 0, .text s _ _ => s.Chunked
  | level + 1, .array _ items => ItemsChunkedAt level items
  | level + 1, .map _ entries => EntriesChunkedAt level entries
  | level + 1, .tag _ item => item.ChunkedAt level
  | _, _ => False

def ItemsChunkedAt (level : Nat) : List Item → Prop
  | [] => False
  | item :: items => item.ChunkedAt level ∨ ItemsChunkedAt level items

def EntriesChunkedAt (level : Nat) : List (Item × Item) → Prop
  | [] => False
  | (key, item) :: entries =>
    (key.ChunkedAt level ∨ item.ChunkedAt level) ∨ EntriesChunkedAt level entries

end

theorem strFits_one_iff (s : Str) (height : Nat) :
    s.Fits 1 height ↔ ¬(height = 0 ∧ s.Chunked) := by
  cases s with
  | definite chunk => simp [Str.Fits, Str.Chunked]
  | indefinite chunks =>
    simp only [Str.Fits, Str.Chunked, and_true]
    omega

theorem strFits_zero (s : Str) (height : Nat) : s.Fits 0 height := by
  cases s with
  | definite chunk => trivial
  | indefinite chunks => exact zero_le _

theorem not_fits_zero (levels : Nat) (item : Item) : ¬item.Fits levels 0 := by
  cases item <;> exact id

mutual

/-- Counting a level for indefinite-length strings excludes them on the last level. -/
theorem fits_one_iff : (item : Item) → (height : Nat) →
    (item.Fits 1 (height + 1) ↔ item.Fits 0 (height + 1) ∧ ¬item.ChunkedAt height)
  | .unsigned _, _ => by simp [Fits, ChunkedAt]
  | .negative _, _ => by simp [Fits, ChunkedAt]
  | .bytes s, height => by
    have zero := strFits_zero s height
    rw [Fits, Fits, strFits_one_iff]
    cases height with
    | zero | succ => simp [ChunkedAt, zero]
  | .text s _ _, height => by
    have zero := strFits_zero s height
    rw [Fits, Fits, strFits_one_iff]
    cases height with
    | zero | succ => simp [ChunkedAt, zero]
  | .array _ items, height => by
    rw [Fits, Fits, itemsFit_one_iff items height, and_assoc]
    cases height with
    | zero | succ => simp [ChunkedAt]
  | .map _ entries, height => by
    rw [Fits, Fits, entriesFit_one_iff entries height, and_assoc]
    cases height with
    | zero | succ => simp [ChunkedAt]
  | .tag _ item, height => by
    rw [Fits, Fits]
    cases height with
    | zero => simp [not_fits_zero]
    | succ height => rw [fits_one_iff item height, ChunkedAt]
  | .simple _, _ => by simp [Fits, ChunkedAt]

theorem itemsFit_one_iff : (items : List Item) → (height : Nat) →
    (ItemsFit 1 height items ↔
      ItemsFit 0 height items ∧ (∀ level, height = level + 1 → ¬ItemsChunkedAt level items))
  | [], _ => by simp [ItemsFit, ItemsChunkedAt]
  | item :: items, height => by
    rw [ItemsFit, ItemsFit, itemsFit_one_iff items height]
    cases height with
    | zero => simp [not_fits_zero]
    | succ height =>
      rw [fits_one_iff item height]
      simp only [add_right_cancel_iff, forall_eq', ItemsChunkedAt, not_or]
      tauto

theorem entriesFit_one_iff : (entries : List (Item × Item)) → (height : Nat) →
    (EntriesFit 1 height entries ↔ EntriesFit 0 height entries ∧
      (∀ level, height = level + 1 → ¬EntriesChunkedAt level entries))
  | [], _ => by simp [EntriesFit, EntriesChunkedAt]
  | (key, item) :: entries, height => by
    rw [EntriesFit, EntriesFit, entriesFit_one_iff entries height]
    cases height with
    | zero => simp [not_fits_zero]
    | succ height =>
      rw [fits_one_iff key height, fits_one_iff item height]
      simp only [add_right_cancel_iff, forall_eq', EntriesChunkedAt, not_or]
      tauto

end

end Item

/-! ## Corresponding values -/

variable {entries : List (Value × Value)}

namespace Value

mutual

/-- The property holds of the value and of every value inside it, keys included. -/
def All (P : Value → Prop) : Value → Prop
  | .integer i => P (.integer i)
  | .bytes b => P (.bytes b)
  | .text t => P (.text t)
  | .array items => P (.array items) ∧ AllItems P items
  | .map entries => P (.map entries) ∧ AllEntries P entries
  | .tag number inner => P (.tag number inner) ∧ inner.All P
  | .bool b => P (.bool b)
  | .null => P .null
  | .float bits => P (.float bits)

def AllItems (P : Value → Prop) : List Value → Prop
  | [] => True
  | item :: items => item.All P ∧ AllItems P items

def AllEntries (P : Value → Prop) : List (Value × Value) → Prop
  | [] => True
  | (key, value) :: entries => (key.All P ∧ value.All P) ∧ AllEntries P entries

end

theorem All.self {P : Value → Prop} {v : Value} (all : v.All P) : P v := by
  cases v with
  | array | map | tag => exact all.1
  | _ => exact all

theorem AllEntries.key {P : Value → Prop} (all : AllEntries P entries) :
    ∀ entry ∈ entries, entry.1.All P := by
  induction entries with
  | nil => simp
  | cons entry entries ih =>
    rcases entry with ⟨key, value⟩
    exact forall_mem_cons.mpr ⟨all.1.1, ih all.2⟩

/-- A map that has no key twice. -/
def KeysDistinct : Value → Prop
  | .map entries => (entries.map Prod.fst).Nodup
  | _ => True

/-- No map inside has a key twice. -/
def DistinctKeys : Value → Prop :=
  All KeysDistinct

/-- A text with a byte order mark at its start. -/
def StartsWithBom : Value → Prop
  | .text t => t.toList.head? = some '\uFEFF'
  | _ => False

/-- No text inside starts with a byte order mark. -/
def BomFree : Value → Prop :=
  All fun v => ¬v.StartsWithBom

end Value

namespace Script

/-- Both keys are numbers, and a `Map` takes them for one key. -/
def JsValue.sameNumber : JsValue → JsValue → Bool
  | .number a, .number b => a.sameValueZero b
  | _, _ => false

/-- A map without two keys that are one number in JavaScript. -/
def NumbersApart : Value → Prop
  | .map entries =>
    (entries.map Prod.fst).Pairwise fun k l => (toScript k).sameNumber (toScript l) = false
  | _ => True

/-- No map inside has two keys that are one number in JavaScript. -/
def KeysApart : Value → Prop :=
  Value.All NumbersApart

/-- An object has the entries of a `Map` with its names as keys. -/
def entryOfProperty (property : String × JsValue) : JsValue × JsValue :=
  (.string property.1, property.2)

mutual

/-- The two values have the same structure, integers, byte strings and texts.  It says
what a decoded value has to look like, apart from what the decoder does. -/
def Corresponds : Value → JsValue → Prop
  | .integer i, .number n => Binary64.Denotes n.bits i
  | .integer i, .bigint j => i = j
  | .bytes b, .uint8Array bytes => b = bytes
  | .text t, .string s => t = s
  | .array items, .array values => CorrespondingItems items values
  | .map entries, .object properties =>
    CorrespondingEntries entries (properties.map entryOfProperty)
  | .map entries, .map values => CorrespondingEntries entries values
  | .tag tag inner, .tag number value => tag.toNat = number.value ∧ Corresponds inner value
  | .bool b, .bool c => b = c
  | .null, .null => True
  | .float bits, .number n => (JsNumber.ofBits bits).sameValueZero n = true
  | _, _ => False

def CorrespondingItems : List Value → List JsValue → Prop
  | [], [] => True
  | item :: items, value :: values => Corresponds item value ∧ CorrespondingItems items values
  | _, _ => False

def CorrespondingEntries : List (Value × Value) → List (JsValue × JsValue) → Prop
  | [], [] => True
  | (key, item) :: entries, entry :: others =>
    (Corresponds key entry.1 ∧ Corresponds item entry.2) ∧ CorrespondingEntries entries others
  | _, _ => False

end

theorem CorrespondingEntries.length_eq {others : List (JsValue × JsValue)}
    (related : CorrespondingEntries entries others) : entries.length = others.length := by
  induction entries generalizing others with
  | nil =>
    cases others with
    | nil => rfl
    | cons other others => exact related.elim
  | cons entry entries ih =>
    cases others with
    | nil => exact related.elim
    | cons other others => exact congrArg Nat.succ (ih related.2)

/-! ## Keys of a `Map` -/

namespace JsNumber

/-- A zero key is stored as +0. -/
theorem sameValueZero_normalized (a b : JsNumber) :
    (if a.isZero then zero else a).sameValueZero b = a.sameValueZero b := by
  cases isZero : a.isZero with
  | false => rfl
  | true =>
    have zeroIsZero : zero.isZero = true := by decide
    cases other : b.isZero with
    | true => simp [sameValueZero, zeroIsZero, isZero, other]
    | false =>
      have apart {n : JsNumber} (nonzero : n.isZero = true) : n ≠ b := by
        rintro rfl
        rw [nonzero] at other
        contradiction
      simp [sameValueZero, apart zeroIsZero, apart isZero, other]

theorem denotes_normalized (n : JsNumber) (i : Int) :
    Binary64.Denotes (if n.isZero then zero else n).bits i ↔ Binary64.Denotes n.bits i := by
  cases isZero : n.isZero with
  | false => rfl
  | true =>
    rw [JsNumber.isZero, Bool.or_eq_true, beq_iff_eq, beq_iff_eq] at isZero
    have same : Binary64.Denotes (negate 0) i ↔ Binary64.Denotes 0 i := by
      rw [Binary64.Denotes, Binary64.Denotes, exponent_negate (by decide),
        magnitude_negate (by decide)]
      have none : magnitude 0 = 0 := by decide
      simp only [none, cast_zero, neg_zero, ite_self]
    rcases isZero with plain | negated
    · rw [plain]
      rfl
    · rw [negated]
      exact same.symm

end JsNumber

namespace JsValue

theorem sameKey_normalizeKey (k key : JsValue) :
    k.normalizeKey.sameKey key = k.sameKey key := by
  cases k with
  | number n =>
    cases key with
    | number m => exact n.sameValueZero_normalized m
    | _ => rfl
  | _ => rfl

theorem sameKey_of_sameNumber {k l : JsValue} (same : k.sameNumber l = true) :
    k.sameKey l = true := by
  cases k with
  | number n =>
    cases l with
    | number m => exact same
    | _ => contradiction
  | _ => contradiction

/-- The keys are all different to `Map`. -/
def KeysDiffer (entries : List (JsValue × JsValue)) : Prop :=
  entries.Pairwise fun a b => a.1.sameKey b.1 = false

theorem mapSet_of_fresh {key value : JsValue} {known : List (JsValue × JsValue)}
    (fresh : ∀ entry ∈ known, entry.1.sameKey key = false) :
    mapSet key value known = known ++ [(key.normalizeKey, value)] := by
  induction known with
  | nil => rfl
  | cons entry known ih =>
    rcases entry with ⟨k, v⟩
    rcases forall_mem_cons.mp fresh with ⟨differs, others⟩
    rw [mapSet, if_neg (by simp [differs]), ih others, cons_append]

theorem length_mapSet_of_known {key value : JsValue} {known : List (JsValue × JsValue)}
    {entry : JsValue × JsValue} (mem : entry ∈ known) (same : entry.1.sameKey key = true) :
    (mapSet key value known).length = known.length := by
  induction known with
  | nil => contradiction
  | cons first known ih =>
    rcases first with ⟨k, v⟩
    rw [mapSet]
    split
    · rfl
    · next differs =>
      rcases mem_cons.mp mem with rfl | later
      · exact absurd same differs
      · exact congrArg Nat.succ (ih later)

theorem length_mapSet_le (key value : JsValue) (known : List (JsValue × JsValue)) :
    (mapSet key value known).length ≤ known.length + 1 := by
  by_cases present : ∃ entry ∈ known, entry.1.sameKey key = true
  · rcases present with ⟨entry, mem, same⟩
    rw [length_mapSet_of_known mem same]
    exact le_succ _
  · rw [mapSet_of_fresh (fun entry mem => Bool.eq_false_iff.mpr fun same =>
      present ⟨entry, mem, same⟩), length_append, length_singleton]

/-- Setting one entry after the other. -/
def setAll (known entries : List (JsValue × JsValue)) : List (JsValue × JsValue) :=
  entries.foldl (fun known entry => mapSet entry.1 entry.2 known) known

def normalizeEntry (entry : JsValue × JsValue) : JsValue × JsValue :=
  (entry.1.normalizeKey, entry.2)

variable (entries known : List (JsValue × JsValue))

theorem length_setAll_le : (setAll known entries).length ≤ known.length + entries.length := by
  induction entries generalizing known with
  | nil => exact le_refl _
  | cons entry entries ih =>
    have later := ih (mapSet entry.1 entry.2 known)
    have first := length_mapSet_le entry.1 entry.2 known
    rw [setAll, foldl_cons, length_cons]
    rw [setAll] at later
    omega

/-- With different keys, all entries are kept. -/
theorem setAll_of_differ (fresh : ∀ old ∈ known, ∀ entry ∈ entries, old.1.sameKey entry.1 = false)
    (differ : KeysDiffer entries) :
    setAll known entries = known ++ entries.map normalizeEntry := by
  induction entries generalizing known with
  | nil => exact (append_nil _).symm
  | cons entry entries ih =>
    rcases pairwise_cons.mp differ with ⟨first, later⟩
    have step := ih (known ++ [normalizeEntry entry])
      (fun old mem next nextMem => by
        rcases mem_append.mp mem with mem | mem
        · exact fresh old mem next (mem_cons_of_mem _ nextMem)
        · rw [mem_singleton.mp mem, normalizeEntry, sameKey_normalizeKey]
          exact first next nextMem)
      later
    rw [setAll] at step
    rw [setAll, foldl_cons, mapSet_of_fresh fun old mem => fresh old mem entry mem_cons_self]
    exact step.trans (append_assoc _ _ _)

/-- All entries are kept only with different keys. -/
theorem differ_of_length_setAll
    (kept : known.length + entries.length ≤ (setAll known entries).length) :
    (∀ old ∈ known, ∀ entry ∈ entries, old.1.sameKey entry.1 = false) ∧ KeysDiffer entries := by
  induction entries generalizing known with
  | nil => exact ⟨by simp, List.Pairwise.nil⟩
  | cons entry entries ih =>
    have bound := length_setAll_le entries (mapSet entry.1 entry.2 known)
    rw [setAll, foldl_cons, length_cons] at kept
    rw [setAll] at bound
    have fresh : ∀ old ∈ known, old.1.sameKey entry.1 = false := by
      intro old mem
      refine Bool.eq_false_iff.mpr fun same => ?_
      rw [length_mapSet_of_known mem same] at bound
      omega
    rw [mapSet_of_fresh fresh] at kept
    have later := ih (known ++ [normalizeEntry entry]) (by
      rw [length_append, length_singleton, setAll, normalizeEntry]
      omega)
    refine ⟨fun old mem next nextMem => ?_, pairwise_cons.mpr ⟨fun next mem => ?_, later.2⟩⟩
    · rcases mem_cons.mp nextMem with rfl | nextMem
      · exact fresh old mem
      · exact later.1 old (mem_append_left _ mem) next nextMem
    · rw [← sameKey_normalizeKey]
      exact later.1 (normalizeEntry entry) (mem_append_right _ (mem_singleton_self _))
        next mem

end JsValue

/-! ## What the decoder builds -/

open JsValue (KeysDiffer normalizeEntry)

theorem corresponds_normalizeKey (v : Value) (j : JsValue) :
    Corresponds v j.normalizeKey ↔ Corresponds v j := by
  cases j with
  | number n =>
    cases v with
    | integer i => exact n.denotes_normalized i
    | float bits =>
      have symm (a b : JsNumber) : a.sameValueZero b = b.sameValueZero a := by
        rw [JsNumber.sameValueZero, JsNumber.sameValueZero, Bool.and_comm, Bool.beq_comm]
      rw [JsValue.normalizeKey, Corresponds, Corresponds, symm, n.sameValueZero_normalized, symm]
    | _ => rfl
  | _ => rfl

theorem correspondingEntries_normalizeEntry (entries : List (Value × Value))
    (others : List (JsValue × JsValue)) :
    CorrespondingEntries entries (others.map normalizeEntry) ↔
      CorrespondingEntries entries others := by
  induction entries generalizing others with
  | nil =>
    cases others with
    | nil | cons => rfl
  | cons entry entries ih =>
    rcases entry with ⟨key, item⟩
    cases others with
    | nil => rfl
    | cons other others =>
      rw [map_cons, CorrespondingEntries, CorrespondingEntries, ih, normalizeEntry,
        corresponds_normalizeKey]

theorem stringKeys_eq_some {entries : List (JsValue × JsValue)}
    {properties : List (String × JsValue)} (named : stringKeys entries = some properties) :
    entries = properties.map entryOfProperty := by
  induction entries generalizing properties with
  | nil =>
    cases named
    rfl
  | cons entry entries ih =>
    rcases entry with ⟨key, value⟩
    rw [stringKeys] at named
    cases key with
    | string name =>
      cases rest : stringKeys entries with
      | none =>
        rw [rest] at named
        contradiction
      | some others =>
        rw [rest] at named
        cases named
        rw [map_cons, ← ih rest, entryOfProperty]
    | _ => contradiction

theorem keysDiffer_properties_iff (properties : List (String × JsValue)) :
    KeysDiffer (properties.map entryOfProperty) ↔ (keys properties).Nodup := by
  rw [KeysDiffer, pairwise_map, AssocMap.keys, List.Nodup, pairwise_map]
  simp [entryOfProperty, JsValue.sameKey]

/-- A map is kept if JavaScript takes no two of its keys for one. -/
theorem corresponds_buildMap_iff (entries : List (Value × Value))
    (others : List (JsValue × JsValue)) (length : entries.length = others.length) :
    Corresponds (.map entries) (buildMap others) ↔
      KeysDiffer others ∧ CorrespondingEntries entries others := by
  rw [buildMap]
  cases named : stringKeys others with
  | some properties =>
    have same := stringKeys_eq_some named
    rw [same, keysDiffer_properties_iff]
    constructor
    · intro related
      have kept := related.length_eq
      have nodup : (keys properties).Nodup :=
        nodup_of_sum_ofPairs (fun _ => 1) properties (fun _ => one_pos) (by
          rw [length, same, length_map, length_map] at kept
          simp [← kept])
      rw [Corresponds, ofPairs_of_nodup properties nodup] at related
      exact ⟨nodup, related⟩
    · rintro ⟨nodup, related⟩
      rw [Corresponds, ofPairs_of_nodup properties nodup]
      exact related
  | none =>
    rw [Corresponds]
    constructor
    · intro related
      have kept := related.length_eq
      have differ := (JsValue.differ_of_length_setAll others [] (by
        rw [← length, kept, length_nil, zero_add]
        exact le_refl _)).2
      rw [show JsValue.newMap others = _ from JsValue.setAll_of_differ others [] (by simp) differ,
        nil_append, correspondingEntries_normalizeEntry] at related
      exact ⟨differ, related⟩
    · rintro ⟨differ, related⟩
      rw [show JsValue.newMap others = _ from JsValue.setAll_of_differ others [] (by simp) differ,
        nil_append, correspondingEntries_normalizeEntry]
      exact related

theorem stripBom_eq_self_iff (t : String) :
    stripBom t = t ↔ t.toList.head? ≠ some '\uFEFF' := by
  rw [stripBom]
  cases chars : t.toList with
  | nil => simp
  | cons c rest =>
    by_cases bom : c = '\uFEFF'
    · have shorter : String.ofList rest ≠ t := by
        intro same
        have lengths := congrArg (fun s => s.toList.length) same
        simp only [String.toList_ofList, chars, length_cons] at lengths
        omega
      simp [shorter]
    · simp [bom]

theorem corresponds_ofInteger (i : Int) : Corresponds (.integer i) (ofInteger i) := by
  rw [ofInteger]
  split
  · next small =>
    have exact := denotes_ofInt (i := i) (by omega)
    have number : isNan (ofInt i) = false := by
      simp [isNan, exact.1]
    rw [Corresponds, JsNumber.ofInt, JsNumber.ofBits, dif_neg (by simp [number])]
    exact exact
  · rfl

theorem ofNumeric_value (n : Nat) : (ofNumeric n).value = n := by
  rw [ofNumeric]
  split <;> rfl

/-- The value of a key that a `Map` compares by value and that is no number. -/
def JsValue.scalar : JsValue → Option Value
  | .bigint i => some (.integer i)
  | .string s => some (.text s)
  | .bool b => some (.bool b)
  | .null => some .null
  | _ => none

theorem JsValue.sameKey_cases {k l : JsValue} (same : k.sameKey l = true) :
    k.sameNumber l = true ∨ ∃ w, k.scalar = some w ∧ l.scalar = some w := by
  unfold JsValue.sameKey at same
  split at same
  · exact .inl same
  all_goals first
    | exact .inr ⟨_, rfl, by rw [eq_of_beq same]; rfl⟩
    | exact .inr ⟨_, rfl, rfl⟩
    | contradiction

theorem eq_of_scalar {v w : Value} (plain : ¬v.StartsWithBom)
    (scalar : (toScript v).scalar = some w) : v = w := by
  cases v with
  | integer i =>
    rw [toScript, ofInteger] at scalar
    split at scalar <;> cases scalar
    rfl
  | text t =>
    rw [toScript, (stripBom_eq_self_iff t).mpr plain] at scalar
    cases scalar
    rfl
  | map entries =>
    rw [toScript, buildMap] at scalar
    split at scalar <;> contradiction
  | bool | null =>
    cases scalar
    rfl
  | _ => cases scalar

/-- Different keys stay different, unless they become one number. -/
theorem keysDiffer_toScript (distinct : (entries.map Prod.fst).Nodup)
    (plain : Value.AllEntries (¬·.StartsWithBom) entries)
    (apart : (entries.map Prod.fst).Pairwise fun k l =>
      (toScript k).sameNumber (toScript l) = false) : KeysDiffer (toScriptEntries entries) := by
  rw [List.Nodup, pairwise_map] at distinct
  rw [pairwise_map] at apart
  rw [toScriptEntries_eq_map, KeysDiffer, pairwise_map]
  refine (distinct.and apart).imp_of_mem fun {a b} memA memB different =>
    Bool.eq_false_iff.mpr fun same => ?_
  rcases JsValue.sameKey_cases same with number | ⟨w, left, right⟩
  · rw [different.2] at number
    contradiction
  · exact different.1 ((eq_of_scalar (plain.key a memA).self left).trans
      (eq_of_scalar (plain.key b memB).self right).symm)

mutual

/-- What the decoder builds corresponds to the value, with two exceptions. -/
theorem corresponds_toScript_iff : (v : Value) → v.DistinctKeys →
    (Corresponds v (toScript v) ↔ v.BomFree ∧ KeysApart v)
  | .integer i, _ => iff_of_true (corresponds_ofInteger i) ⟨id, trivial⟩
  | .bytes _, _ => iff_of_true rfl ⟨id, trivial⟩
  | .text t, _ => by
    rw [toScript, Corresponds, eq_comm, stripBom_eq_self_iff]
    exact (and_iff_left trivial).symm
  | .array items, distinct => by
    rw [toScript, Corresponds, correspondingItems_iff items distinct.2]
    exact and_congr (and_iff_right id).symm (and_iff_right trivial).symm
  | .map entries, distinct => by
    have inner := correspondingEntries_iff entries distinct.2
    have length : entries.length = (toScriptEntries entries).length := by
      rw [toScriptEntries_eq_map, length_map]
    rw [toScript, corresponds_buildMap_iff _ _ length, inner]
    constructor
    · rintro ⟨differ, plain, apart⟩
      refine ⟨⟨id, plain⟩, ?_, apart⟩
      rw [toScriptEntries_eq_map, KeysDiffer, pairwise_map] at differ
      refine pairwise_map.mpr (differ.imp fun different => ?_)
      exact Bool.eq_false_iff.mpr fun same =>
        Bool.eq_false_iff.mp different (JsValue.sameKey_of_sameNumber same)
    · rintro ⟨⟨_, plain⟩, here, apart⟩
      exact ⟨keysDiffer_toScript distinct.1 plain here, plain, apart⟩
  | .tag number inner, distinct => by
    rw [toScript, Corresponds, ofNumeric_value, corresponds_toScript_iff inner distinct.2,
      and_iff_right rfl]
    exact and_congr (and_iff_right id).symm (and_iff_right trivial).symm
  | .bool _, _ => iff_of_true rfl ⟨id, trivial⟩
  | .null, _ => iff_of_true trivial ⟨id, trivial⟩
  | .float bits, _ => by
    refine iff_of_true ?_ ⟨id, trivial⟩
    simp [toScript, Corresponds, JsNumber.sameValueZero]

theorem correspondingItems_iff : (items : List Value) → Value.AllItems Value.KeysDistinct items →
    (CorrespondingItems items (toScriptItems items) ↔
      Value.AllItems (¬·.StartsWithBom) items ∧ Value.AllItems NumbersApart items)
  | [], _ => by simp [toScriptItems, CorrespondingItems, Value.AllItems]
  | item :: items, distinct => by
    rw [toScriptItems, CorrespondingItems, corresponds_toScript_iff item distinct.1,
      correspondingItems_iff items distinct.2, and_and_and_comm]
    rfl

theorem correspondingEntries_iff : (entries : List (Value × Value)) →
    Value.AllEntries Value.KeysDistinct entries →
    (CorrespondingEntries entries (toScriptEntries entries) ↔
      Value.AllEntries (¬·.StartsWithBom) entries ∧ Value.AllEntries NumbersApart entries)
  | [], _ => by simp [toScriptEntries, CorrespondingEntries, Value.AllEntries]
  | (key, item) :: entries, distinct => by
    rw [toScriptEntries, CorrespondingEntries, corresponds_toScript_iff key distinct.1.1,
      corresponds_toScript_iff item distinct.1.2, correspondingEntries_iff entries distinct.2,
      and_and_and_comm (a := key.BomFree), and_and_and_comm]
    rfl

end

/-! ## Agreement -/

/-- The bytes of a `Uint8Array`, as Rust gets them. -/
def Uint8Array.toSlice (input : Uint8Array) : Slice where
  bytes := input.bytes
  fits := lt_of_le_of_lt input.fits (by decide)

/-- Both decoders accept the input or neither does, and without repeated keys their
values correspond. -/
structure Agree (input : Uint8Array) : Prop where
  accept : (∃ v, Cbor.decode input.toSlice = .ok v) ↔ ∃ j, decode input = .ok j
  values : ∀ v j, Cbor.decode input.toSlice = .ok v → decode input = .ok j → v.DistinctKeys →
    Corresponds v j

variable {input : Uint8Array}

/-- What Rust accepts is accepted, as the JavaScript value for the same value. -/
theorem decode_of_rust {v : Value} (decoded : Cbor.decode input.toSlice = .ok v) :
    decode input = .ok (toScript v) := by
  rcases (Cbor.decode_eq_ok_iff _ _).mp decoded with ⟨item, rest, fits, split, rfl⟩
  exact (decode_eq_ok_iff _ _).mpr
    ⟨item, rest, ((Item.fits_one_iff item maxDepth).mp fits).1, split, rfl⟩

/-- Rust accepts what TypeScript accepts, but for an indefinite-length string on the last
level. -/
theorem rust_of_decode {item : Item} {rest : Bytes} (fits : item.Fits 0 (maxDepth + 1))
    (split : input.bytes = item.encoding ++ rest) :
    (∃ v, Cbor.decode input.toSlice = .ok v) ↔ ¬item.ChunkedAt maxDepth := by
  constructor
  · rintro ⟨v, decoded⟩
    rcases (Cbor.decode_eq_ok_iff _ _).mp decoded with ⟨other, rest', fits', split', _⟩
    have both := (Item.fits_one_iff other maxDepth).mp fits'
    have first := (exact_read 0 _ _ _ _).mpr ⟨fits, split⟩
    have second := (exact_read 0 _ _ _ _).mpr ⟨both.1, split'⟩
    cases first.symm.trans second
    exact both.2
  · intro apart
    exact ⟨item.value, (Cbor.decode_eq_ok_iff _ _).mpr
      ⟨item, rest, (Item.fits_one_iff item maxDepth).mpr ⟨fits, apart⟩, split, rfl⟩⟩

/-- The decoders agree on an input exactly if the item it starts with has no indefinite-length
string on the last level, and, where no key of a map is repeated, no text that starts with a byte
order mark and no two keys that are one JavaScript number. -/
theorem agree_iff (input : Uint8Array) :
    Agree input ↔
      ∀ (item : Item) rest, item.Fits 0 (maxDepth + 1) → input.bytes = item.encoding ++ rest →
        ¬item.ChunkedAt maxDepth ∧
          (item.value.DistinctKeys → item.value.BomFree ∧ KeysApart item.value) := by
  constructor
  · rintro ⟨accept, values⟩ item rest fits split
    have apart : ¬item.ChunkedAt maxDepth := by
      rw [← rust_of_decode fits split, accept]
      exact ⟨_, (decode_eq_ok_iff _ _).mpr ⟨item, rest, fits, split, rfl⟩⟩
    refine ⟨apart, fun distinct => ?_⟩
    have decoded : Cbor.decode input.toSlice = .ok item.value :=
      (Cbor.decode_eq_ok_iff _ _).mpr
        ⟨item, rest, (Item.fits_one_iff item maxDepth).mpr ⟨fits, apart⟩, split, rfl⟩
    rw [← corresponds_toScript_iff item.value distinct]
    exact values _ _ decoded (decode_of_rust decoded) distinct
  · intro plain
    refine ⟨⟨?_, ?_⟩, ?_⟩
    · rintro ⟨v, decoded⟩
      exact ⟨_, decode_of_rust decoded⟩
    · rintro ⟨j, decoded⟩
      rcases (decode_eq_ok_iff _ _).mp decoded with ⟨item, rest, fits, split, _⟩
      exact (rust_of_decode fits split).mpr (plain item rest fits split).1
    · intro v j decoded scripted distinct
      cases (decode_of_rust decoded).symm.trans scripted
      rcases (Cbor.decode_eq_ok_iff _ _).mp decoded with ⟨item, rest, fits, split, rfl⟩
      exact (corresponds_toScript_iff _ distinct).mpr
        ((plain item rest ((Item.fits_one_iff item maxDepth).mp fits).1 split).2 distinct)

theorem Agree.isOk_eq (agree : Agree input) :
    (Cbor.decode input.toSlice).isOk = (decode input).isOk := by
  have ok {ε β : Type} (outcome : Except ε β) : (∃ v, outcome = .ok v) ↔ outcome.isOk = true := by
    cases outcome <;> simp [Except.toBool]
  exact Bool.eq_iff_iff.mpr ((ok _).symm.trans (agree.accept.trans (ok _)))

/-- As many arrays as the limit allows around an empty byte string in chunks. -/
def chunksInArrays : Uint8Array where
  bytes := List.replicate 128 0x81 ++ [0x5f, 0xff]
  fits := by
    rw [length_append, length_replicate]
    decide

/-- A text that is only a byte order mark. -/
def markOnly : Uint8Array where
  bytes := [0x63, 0xef, 0xbb, 0xbf]
  fits := by decide

/-- Only TypeScript accepts the first input, and the texts read from the second differ. -/
theorem decoders_disagree :
    ((Cbor.decode chunksInArrays.toSlice).isOk = false ∧ (decode chunksInArrays).isOk = true ∧
      ¬Agree chunksInArrays) ∧
    Cbor.decode markOnly.toSlice = .ok (.text "\uFEFF") ∧ decode markOnly = .ok (.string "") ∧
      ¬Agree markOnly := by
  have refused : (Cbor.decode chunksInArrays.toSlice).isOk = false := by decide +kernel
  have accepted : (decode chunksInArrays).isOk = true := by decide +kernel
  refine ⟨⟨refused, accepted, fun agree => ?_⟩, rfl, rfl, fun agree => ?_⟩
  · exact absurd (refused.symm.trans (agree.isOk_eq.trans accepted)) (by decide)
  · have same : "\uFEFF" = "" := agree.values (.text "\uFEFF") (.string "") rfl rfl trivial
    exact absurd same (by decide)

end Script

end TrustForge.Cbor
