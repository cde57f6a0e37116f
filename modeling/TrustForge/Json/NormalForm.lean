import TrustForge.Foundation.Result
import TrustForge.Json.RoundTrip

/-!
# Canonical text as a normal form

JSON data is compared without regard to the order of object entries.  Canonical text
is the plain text of a representative: the value with its strings normalised and its
entries sorted.  For values without floats whose keys stay distinct under NFC the
representative is what the reader finds in the text, so the text decides the
comparison.  Where two keys of one object become equal the reader drops an entry, and
the text of what it found is shorter.
-/

namespace TrustForge.Json

open AssocMap List Value Nested Nat

/-! ## Related lists -/

section

variable {α β : Type} {xs : List α} {ys : List β}

/-- Relating more by what is known of each item. -/
theorem forall₂_of_mem {R S : α → β → Prop} (related : Forall₂ R xs ys)
    (each : ∀ x ∈ xs, ∀ y, R x y → S x y) : Forall₂ S xs ys :=
  ((forall₂_and_left _ _).mpr ⟨each, related⟩).imp fun _ y both => both.1 y both.2

theorem map_eq_map_iff {γ : Type} {f : α → γ} {g : β → γ} :
    xs.map f = ys.map g ↔ Forall₂ (fun x y => f x = g y) xs ys := by
  rw [← forall₂_eq_eq_eq, forall₂_map_left_iff, forall₂_map_right_iff]

end

variable (xs : List Value)

variable (f : String → String)

namespace Value

/-! ## Data up to the order of entries -/

mutual

/-- Equal as data: arrays by position, objects as maps. -/
def SameData : Value → Value → Prop
  | .null, .null => True
  | .bool a, .bool b => a = b
  | .number a, .number b => a = b
  | .string a, .string b => a = b
  | .array xs, .array ys => SameArray xs ys
  | .object entries, .object others =>
    entries.length = others.length ∧ SameObject entries others
  | _, _ => False

def SameArray : List Value → List Value → Prop
  | [], [] => True
  | x :: xs, y :: ys => x.SameData y ∧ SameArray xs ys
  | _, _ => False

/-- Every entry has a counterpart under its key. -/
def SameObject : List (String × Value) → List (String × Value) → Prop
  | [], _ => True
  | (key, v) :: rest, others =>
    (∃ w, (key, w) ∈ others ∧ v.SameData w) ∧ SameObject rest others

end

mutual

/-- No object in the value has a repeated key. -/
def distinctKeys : Value → Bool
  | .null => true
  | .bool _ => true
  | .number _ => true
  | .string _ => true
  | .array xs => distinctKeysArray xs
  | .object entries => decide (keys entries).Nodup && distinctKeysObject entries

def distinctKeysArray : List Value → Bool
  | [] => true
  | x :: xs => x.distinctKeys && distinctKeysArray xs

def distinctKeysObject : List (String × Value) → Bool
  | [] => true
  | (_, v) :: rest => v.distinctKeys && distinctKeysObject rest

end

mutual

/-- The value with the entries of every object sorted by key. -/
def sorted : Value → Value
  | .null => .null
  | .bool b => .bool b
  | .number n => .number n
  | .string s => .string s
  | .array xs => .array (sortedAll xs)
  | .object entries => .object (sortByKey (sortedEach entries))

def sortedAll : List Value → List Value
  | [] => []
  | x :: xs => x.sorted :: sortedAll xs

def sortedEach : List (String × Value) → List (String × Value)
  | [] => []
  | (key, v) :: rest => (key, v.sorted) :: sortedEach rest

end

theorem sortedAll_eq_map : sortedAll xs = xs.map sorted :=
  eq_map rfl (fun _ _ => rfl)

variable (entries : List (String × Value))

theorem sortedEach_eq_map :
    sortedEach entries = entries.map fun entry => (entry.1, entry.2.sorted) :=
  eq_map rfl (fun _ _ => rfl)

theorem mapTextArray_eq_map (xs : List Value) : mapTextArray f xs = xs.map (mapText f) :=
  eq_map rfl (fun _ _ => rfl)

theorem mapTextObject_eq_map (entries : List (String × Value)) :
    mapTextObject f entries = entries.map fun entry => (f entry.1, entry.2.mapText f) :=
  eq_map rfl (fun _ _ => rfl)

theorem distinctKeysArray_iff : distinctKeysArray xs = true ↔ ∀ x ∈ xs, x.distinctKeys = true :=
  all_iff rfl (fun _ _ => rfl)

theorem distinctKeysObject_iff :
    distinctKeysObject entries = true ↔ ∀ entry ∈ entries, entry.2.distinctKeys = true :=
  all_iff rfl (fun _ _ => rfl)

theorem distinctKeys_object_iff : (object entries).distinctKeys = true ↔
      (keys entries).Nodup ∧ ∀ entry ∈ entries, entry.2.distinctKeys = true := by
  rw [distinctKeys, Bool.and_eq_true, decide_eq_true_iff, distinctKeysObject_iff]

end Value

/-! ## Sorting entries with distinct keys -/

theorem sortByKey_pairwise {β : Type} (entries : List (String × β)) :
    (sortByKey entries).Pairwise fun x y => x.1 ≤ y.1 := by
  have total : Std.Total fun x y : String × β => x.1 ≤ y.1 := ⟨fun x y => le_total x.1 y.1⟩
  have trans : IsTrans (String × β) fun x y => x.1 ≤ y.1 :=
    ⟨fun _ _ _ first second => le_trans first second⟩
  exact pairwise_insertionSort _ entries

/-- Sorting forgets the order of entries whose keys are distinct. -/
theorem sortByKey_eq_of_perm {β : Type} {left right : List (String × β)}
    (perm : left.Perm right) (nodup : (keys left).Nodup) :
    sortByKey left = sortByKey right := by
  have sortedPerm : (sortByKey left).Perm (sortByKey right) :=
    (sortByKey_perm left).trans (perm.trans (sortByKey_perm right).symm)
  apply sortedPerm.eq_of_pairwise _ (sortByKey_pairwise left) (sortByKey_pairwise right)
  intro x y xMem yMem xy yx
  have inLeft : x ∈ left := (sortByKey_perm left).mem_iff.mp xMem
  have alsoLeft : y ∈ left := perm.mem_iff.mpr ((sortByKey_perm right).mem_iff.mp yMem)
  exact inj_on_of_nodup_map nodup inLeft alsoLeft (le_antisymm xy yx)

theorem perm_of_sortByKey_eq {β : Type} {left right : List (String × β)}
    (same : sortByKey left = sortByKey right) : left.Perm right :=
  (sortByKey_perm left).symm.trans (same ▸ sortByKey_perm right)

variable (v : Value)

namespace Value

/-- Sorting neither makes keys distinct nor repeats one. -/
theorem distinctKeys_sorted_iff : v.sorted.distinctKeys = true ↔ v.distinctKeys = true := by
  induction v using memberInduction with
  | null | bool | number | string => rfl
  | array xs ih =>
    rw [sorted, distinctKeys, distinctKeys, distinctKeysArray_iff, distinctKeysArray_iff,
      sortedAll_eq_map, forall_mem_map]
    exact forall₂_congr ih
  | object entries ih =>
    rw [sorted, distinctKeys_object_iff, distinctKeys_object_iff, AssocMap.keys,
      ((sortByKey_perm _).map Prod.fst).nodup_iff, sortedEach_eq_map, map_map]
    simp only [(sortByKey_perm _).mem_iff, forall_mem_map]
    exact and_congr_right fun _ => forall₂_congr ih

/-- Entries that all have a counterpart, in lists of one length, are a rearrangement. -/
theorem perm_of_sameObject {entries others : List (String × Value)}
    (nodup : (keys entries).Nodup) (lengths : entries.length = others.length)
    (counterparts : ∀ entry ∈ entries, ∃ w, (entry.1, w) ∈ others ∧ entry.2.sorted = w.sorted) :
    (sortedEach entries).Perm (sortedEach others) := by
  rw [sortedEach_eq_map, sortedEach_eq_map]
  have distinct : (entries.map fun entry => (entry.1, entry.2.sorted)).Nodup := by
    apply List.Nodup.of_map Prod.fst
    rw [map_map]
    exact nodup
  have included : (entries.map fun entry => (entry.1, entry.2.sorted)) ⊆
      others.map fun entry => (entry.1, entry.2.sorted) := by
    intro pair member
    rcases mem_map.mp member with ⟨entry, listed, equal⟩
    subst equal
    rcases counterparts entry listed with ⟨w, present, same⟩
    exact mem_map.mpr ⟨(entry.1, w), present, by rw [same]⟩
  apply (subperm_of_subset distinct included).perm_of_length_le
  rw [length_map, length_map, lengths]

/-! ## Comparing data -/

theorem sameArray_iff (xs ys : List Value) : SameArray xs ys ↔ Forall₂ SameData xs ys := by
  induction xs generalizing ys with
  | nil => cases ys <;> simp [SameArray]
  | cons x xs ih => cases ys <;> simp [SameArray, ih]

theorem sameObject_iff (entries others : List (String × Value)) :
    SameObject entries others ↔
      ∀ entry ∈ entries, ∃ w, (entry.1, w) ∈ others ∧ entry.2.SameData w := by
  induction entries with
  | nil => simp [SameObject]
  | cons entry rest ih => rw [SameObject, ih, forall_mem_cons]

/-- What the same data as an array is. -/
theorem sameData_array_iff (w : Value) :
    (array xs).SameData w ↔ ∃ ys, w = array ys ∧ Forall₂ SameData xs ys := by
  cases w <;> simp [SameData, sameArray_iff]

/-- What the same data as an object is. -/
theorem sameData_object_iff (entries : List (String × Value)) (w : Value) :
    (object entries).SameData w ↔ ∃ others, w = object others ∧
      entries.length = others.length ∧
      ∀ entry ∈ entries, ∃ w, (entry.1, w) ∈ others ∧ entry.2.SameData w := by
  cases w <;> simp [SameData, sameObject_iff]

/-- Data that is the same has one sorted form. -/
theorem sorted_eq_of_sameData (v w : Value) (distinct : v.distinctKeys = true)
    (same : v.SameData w) : v.sorted = w.sorted := by
  induction v using memberInduction generalizing w with
  | array xs ih =>
    obtain ⟨ys, rfl, each⟩ := (sameData_array_iff xs w).mp same
    rw [distinctKeys, distinctKeysArray_iff] at distinct
    rw [sorted, sorted, sortedAll_eq_map, sortedAll_eq_map, array.injEq, map_eq_map_iff]
    exact forall₂_of_mem each fun x member y => ih x member y (distinct x member)
  | object entries ih =>
    obtain ⟨others, rfl, lengths, each⟩ := (sameData_object_iff entries w).mp same
    rw [distinctKeys_object_iff] at distinct
    have perm := perm_of_sameObject distinct.1 lengths fun entry member => by
      obtain ⟨w, present, sameValue⟩ := each entry member
      exact ⟨w, present, ih entry member w (distinct.2 entry member) sameValue⟩
    have keys : keys (sortedEach entries) = keys entries := by
      simp [AssocMap.keys, sortedEach_eq_map]
    rw [sorted, sorted, sortByKey_eq_of_perm perm (keys ▸ distinct.1)]
  | _ => cases w <;> simp_all [SameData]

/-- One sorted form comes from the same data. -/
theorem sameData_of_sorted_eq (v w : Value) (same : v.sorted = w.sorted) : v.SameData w := by
  induction v using memberInduction generalizing w with
  | array xs ih =>
    cases w with
    | array ys =>
      rw [sorted, sorted, array.injEq, sortedAll_eq_map, sortedAll_eq_map, map_eq_map_iff] at same
      rw [SameData, sameArray_iff]
      exact forall₂_of_mem same ih
    | _ => simp [sorted] at same
  | object entries ih =>
    cases w with
    | object others =>
      rw [sorted, sorted, object.injEq] at same
      have perm := perm_of_sortByKey_eq same
      rw [sortedEach_eq_map, sortedEach_eq_map] at perm
      have lengths := perm.length_eq
      rw [length_map, length_map] at lengths
      rw [SameData, sameObject_iff]
      refine ⟨lengths, fun entry member => ?_⟩
      have listed := perm.mem_iff.mp (mem_map_of_mem member)
      obtain ⟨⟨key, w⟩, present, equal⟩ := mem_map.mp listed
      obtain ⟨rfl, sameSorted⟩ := Prod.mk.inj equal
      exact ⟨w, present, ih entry member w sameSorted.symm⟩
    | _ => simp [sorted] at same
  | _ => cases w <;> simp_all [SameData, sorted]

theorem SameData.refl : v.SameData v :=
  sameData_of_sorted_eq v v rfl

/-- A value is the same data as its sorted form. -/
theorem sameData_sorted : v.SameData v.sorted := by
  induction v using memberInduction with
  | array xs ih =>
    rw [sorted, SameData, sameArray_iff, sortedAll_eq_map, forall₂_map_right_iff, forall₂_same]
    exact ih
  | object entries ih =>
    have perm := sortByKey_perm (sortedEach entries)
    rw [sorted, SameData, sameObject_iff, perm.length_eq, sortedEach_eq_map, length_map]
    refine ⟨rfl, fun entry member => ⟨entry.2.sorted, ?_, ih entry member⟩⟩
    rw [(sortByKey_perm _).mem_iff]
    exact mem_map_of_mem member
  | _ => simp [sorted, SameData]

theorem mem_of_mapTextObject_eq {f : String → String} {entries : List (String × Value)}
    (fixed : mapTextObject f entries = entries) {key : String} {v : Value}
    (member : (key, v) ∈ entries) : f key = key ∧ v.mapText f = v := by
  rw [mapTextObject_eq_map] at fixed
  have same := map_inj_left.mp (fixed.trans (map_id entries).symm) (key, v) member
  exact Prod.mk.inj same

/-- Where the same data has only fixed texts, the value has. -/
theorem mapText_eq_of_sameData (v w : Value) (same : v.SameData w) (fixed : w.mapText f = w) :
    v.mapText f = v := by
  induction v using memberInduction generalizing w with
  | array xs ih =>
    obtain ⟨ys, rfl, each⟩ := (sameData_array_iff xs w).mp same
    rw [mapText, mapTextArray_eq_map, array.injEq] at fixed ⊢
    have fixedItems := map_inj_left.mp (fixed.trans (map_id ys).symm)
    refine (map_congr_left fun x member => ?_).trans (map_id xs)
    obtain ⟨y, listed, sameItem⟩ := Result.exists_of_forall₂ (R := flip SameData) each.flip member
    exact ih x member y sameItem (fixedItems y listed)
  | object entries ih =>
    obtain ⟨others, rfl, _, each⟩ := (sameData_object_iff entries w).mp same
    rw [mapText, object.injEq, mapTextObject_eq_map]
    refine (map_congr_left fun entry member => ?_).trans (map_id entries)
    obtain ⟨w, present, sameValue⟩ := each entry member
    obtain ⟨fixedKey, fixedValue⟩ := mem_of_mapTextObject_eq (object.inj fixed) present
    rw [fixedKey, ih entry member w sameValue fixedValue]
    rfl
  | _ => cases w <;> simp_all [SameData]

/-- Rewriting every text keeps data the same. -/
theorem SameData.mapText (v w : Value) (same : v.SameData w) :
    (v.mapText f).SameData (w.mapText f) := by
  induction v using memberInduction generalizing w with
  | array xs ih =>
    obtain ⟨ys, rfl, each⟩ := (sameData_array_iff xs w).mp same
    rw [Value.mapText, Value.mapText, SameData, sameArray_iff, mapTextArray_eq_map,
      mapTextArray_eq_map, forall₂_map_left_iff, forall₂_map_right_iff]
    exact forall₂_of_mem each ih
  | object entries ih =>
    obtain ⟨others, rfl, lengths, each⟩ := (sameData_object_iff entries w).mp same
    rw [Value.mapText, Value.mapText, SameData, sameObject_iff, mapTextObject_eq_map,
      mapTextObject_eq_map, length_map, length_map, forall_mem_map]
    refine ⟨lengths, fun entry member => ?_⟩
    obtain ⟨w, present, sameValue⟩ := each entry member
    exact ⟨w.mapText f, mem_map_of_mem present, ih entry member w sameValue⟩
  | _ => cases w <;> simp_all [SameData, Value.mapText]

end Value

namespace Runtime

variable (runtime : Runtime)

/-! ## Canonical text as plain text of the normal form -/

mutual

/-- The text of a value as it stands: strings unchanged, entries in their order. -/
def compact : Value → List Char
  | .null => ['n', 'u', 'l', 'l']
  | .bool b => if b then ['t', 'r', 'u', 'e'] else ['f', 'a', 'l', 's', 'e']
  | .number n => (runtime.numeral n).text
  | .string s => writeJsonString s
  | .array xs => '[' :: (commaSeparated (compactAll xs) ++ [']'])
  | .object entries => '{' :: (commaSeparated ((compactEach entries).map memberText) ++ ['}'])

def compactAll : List Value → List (List Char)
  | [] => []
  | x :: xs => compact x :: compactAll xs

def compactEach : List (String × Value) → List (String × List Char)
  | [] => []
  | (key, v) :: rest => (key, compact v) :: compactEach rest

end

/-- Strings normalised and entries sorted. -/
def normalForm (v : Value) : Value :=
  (v.mapText runtime.nfc).sorted

theorem compactAll_eq_map : runtime.compactAll xs = xs.map runtime.compact :=
  eq_map rfl (fun _ _ => rfl)

variable (entries : List (String × Value))

theorem compactEach_eq_map :
    runtime.compactEach entries =
      entries.map fun entry => (entry.1, runtime.compact entry.2) :=
  eq_map rfl (fun _ _ => rfl)

theorem normalForm_array : runtime.normalForm (.array xs) = .array (xs.map runtime.normalForm) := by
  simp [normalForm, Value.mapText, Value.sorted, sortedAll_eq_map, mapTextArray_eq_map]

theorem normalForm_object :
    runtime.normalForm (.object entries) =
      .object ((runtime.sortedEntries entries).map fun entry =>
        (entry.1, runtime.normalForm entry.2)) := by
  have moved := sortByKey_map runtime.normalForm
    (entries.map fun entry => (runtime.nfc entry.1, entry.2))
  rw [map_map] at moved
  simp only [normalForm, Value.mapText, Value.sorted, sortedEach_eq_map,
    mapTextObject_eq_map, map_map, object.injEq]
  exact moved

/-- The keys of an object as they are written, in terms of the rewritten object. -/
theorem keys_sortedEntries_perm : (keys (runtime.sortedEntries entries)).Perm
      (keys (Value.mapTextObject runtime.nfc entries)) := by
  have perm := (sortByKey_perm (entries.map fun entry => (runtime.nfc entry.1, entry.2))).map
    Prod.fst
  rw [mapTextObject_eq_map]
  simp only [AssocMap.keys, map_map] at perm ⊢
  exact perm

theorem encode_eq_compact : runtime.encode v = runtime.compact (runtime.normalForm v) := by
  induction v using Value.memberInduction with
  | null | bool | number | string => rfl
  | array xs ih =>
    rw [encode, encodeAll_eq_map, normalForm_array, compact, compactAll_eq_map, map_map,
      map_congr_left ih]
    rfl
  | object entries ih =>
    have each : ∀ entry ∈ runtime.sortedEntries entries,
        memberText (entry.1, runtime.encode entry.2) =
          memberText (entry.1, runtime.compact (runtime.normalForm entry.2)) := by
      intro entry member
      rcases runtime.mem_of_mem_sortedEntries member with ⟨original, listed⟩
      rw [ih (original, entry.2) listed]
    rw [encode_object, normalForm_object, compact, compactEach_eq_map, map_map,
      map_map, map_congr_left each]
    rfl

/-! ## The reader finds the normal form -/

theorem collectEntries_map_some {β γ : Type} (f : β → Option γ) (g : β → γ)
    (entries : List (String × β)) (each : ∀ entry ∈ entries, f entry.2 = some (g entry.2)) :
    collectEntries (entries.map fun entry => (entry.1, f entry.2)) =
      some (entries.map fun entry => (entry.1, g entry.2)) := by
  rw [collectEntries_eq_some_iff, map_map]
  apply map_congr_left
  intro entry member
  rw [each entry member]
  rfl

theorem rereadAll_eq_some_iff {budget : Nat} {xs ys : List Value} :
    runtime.rereadAll budget xs = some ys ↔
      Forall₂ (fun x y => runtime.reread budget x = some y) xs ys := by
  induction xs generalizing ys with
  | nil => simp [rereadAll]
  | cons x xs ih =>
    simp only [rereadAll, Option.bind_eq_some_iff, Option.map_eq_some_iff, ih,
      forall₂_cons_left_iff, @eq_comm _ ys]
    simp

theorem reread_eq_normalForm (budget : Nat) (free : v.floatFree = true) (shallow : v.depth < budget)
    (distinct : (v.mapText runtime.nfc).distinctKeys = true) :
    runtime.reread budget v = some (runtime.normalForm v) := by
  induction v using Value.memberInduction generalizing budget with
  | null | bool => rfl
  | number n =>
    cases n with
    | posInt value => simp [reread, numeral, readNumber_posInt, normalForm, Value.mapText,
        Value.sorted]
    | negInt value => simp [reread, numeral, readNumber_negInt, normalForm, Value.mapText,
        Value.sorted]
    | float f => simp [Value.floatFree] at free
  | string _ => rfl
  | array xs ih =>
    obtain ⟨room, each⟩ := (depth_array_lt_iff xs budget).mp shallow
    rw [floatFree_array_iff] at free
    rw [Value.mapText, Value.distinctKeys, distinctKeysArray_iff,
      mapTextArray_eq_map, forall_mem_map] at distinct
    have all : runtime.rereadAll (budget - 1) xs = some (xs.map runtime.normalForm) := by
      rw [rereadAll_eq_some_iff, forall₂_map_right_iff, forall₂_same]
      intro x member
      exact ih x member _ (free x member) (each x member) (distinct x member)
    rw [reread, if_neg (not_le.mpr room), all, normalForm_array]
    rfl
  | object entries ih =>
    obtain ⟨room, each⟩ := (depth_object_lt_iff entries budget).mp shallow
    rw [floatFree_object_iff] at free
    rw [Value.mapText, distinctKeys_object_iff] at distinct
    have inner := distinct.2
    rw [mapTextObject_eq_map, forall_mem_map] at inner
    have eachSorted : ∀ entry ∈ runtime.sortedEntries entries,
        runtime.reread (budget - 1) entry.2 = some (runtime.normalForm entry.2) := by
      intro entry member
      rcases runtime.mem_of_mem_sortedEntries member with ⟨original, listed⟩
      exact ih _ listed _ (free _ listed) (each _ listed) (inner _ listed)
    have nodup : (keys (runtime.sortedEntries entries)).Nodup :=
      (runtime.keys_sortedEntries_perm entries).nodup_iff.mpr distinct.1
    rw [reread_object, if_neg (not_le.mpr room), normalForm_object,
      collectEntries_map_some _ runtime.normalForm _ eachSorted, Option.map_some, ofPairs_of_nodup]
    simpa [AssocMap.keys, Function.comp_def] using nodup

/-! ## Canonical text decides data -/

theorem canonicalize_eq_of_sameData {u v : Value}
    (distinct : (u.mapText runtime.nfc).distinctKeys = true)
    (same : (u.mapText runtime.nfc).SameData (v.mapText runtime.nfc)) :
    runtime.canonicalize u = runtime.canonicalize v := by
  have normal : runtime.normalForm u = runtime.normalForm v :=
    sorted_eq_of_sameData _ _ distinct same
  rw [canonicalize, canonicalize, encode_eq_compact, encode_eq_compact, normal]

theorem normalForm_eq_of_canonicalize_eq {u v : Value} (uFree : u.floatFree = true)
    (vFree : v.floatFree = true) (uDistinct : (u.mapText runtime.nfc).distinctKeys = true)
    (vDistinct : (v.mapText runtime.nfc).distinctKeys = true)
    (same : runtime.canonicalize u = runtime.canonicalize v) :
    runtime.normalForm u = runtime.normalForm v := by
  -- A budget that lets the reader through both values.
  let budget := max u.depth v.depth + 1
  have uRead := runtime.reread_eq_normalForm u budget uFree
    (lt_succ_of_le (le_max_left _ _)) uDistinct
  have vRead := runtime.reread_eq_normalForm v budget vFree
    (lt_succ_of_le (le_max_right _ _)) vDistinct
  have texts : runtime.encode u ++ [] = runtime.encode v ++ [] := by
    rw [append_nil, append_nil]
    exact String.ofList_injective same
  have read := (runtime.encode_append_inj texts endsNumber_nil endsNumber_nil uRead).1
  rw [vRead, Option.some.injEq] at read
  exact read.symm

theorem canonicalize_eq_iff {u v : Value} (uFree : u.floatFree = true)
    (vFree : v.floatFree = true) (uDistinct : (u.mapText runtime.nfc).distinctKeys = true)
    (vDistinct : (v.mapText runtime.nfc).distinctKeys = true) :
    runtime.canonicalize u = runtime.canonicalize v ↔
      (u.mapText runtime.nfc).SameData (v.mapText runtime.nfc) := by
  constructor
  · intro same
    exact sameData_of_sorted_eq _ _
      (runtime.normalForm_eq_of_canonicalize_eq uFree vFree uDistinct vDistinct same)
  · exact runtime.canonicalize_eq_of_sameData uDistinct

/-! ## Canonical texts one after another -/

/-- The same writer next to a float reader that accepts everything.  It tells where a
value ends, also where the values hold floats. -/
def lenient : Runtime :=
  { runtime with readF64 := fun _ => some .one }

theorem readsNumbers_lenient : runtime.lenient.ReadsNumbers := by
  intro n
  unfold readNumber readInteger lenient
  simp only
  repeat' split
  all_goals rfl

theorem encode_lenient : runtime.lenient.encode v = runtime.encode v := by
  induction v using Value.memberInduction with
  | array xs ih => rw [encode, encode, encodeAll_eq_map, encodeAll_eq_map, map_congr_left ih]
  | object entries ih =>
    have each : ∀ entry ∈ entries, (runtime.lenient.nfc entry.1, runtime.lenient.encode entry.2) =
        (runtime.nfc entry.1, runtime.encode entry.2) := fun entry member =>
      congrArg (Prod.mk _) (ih entry member)
    rw [encode, encode, encodeEntries_eq_map, encodeEntries_eq_map, map_congr_left each]
  | _ => rfl

/-- What follows the text of a value does not change where it ends. -/
theorem encode_append_cancel {v w : Value} {left right : List Char}
    (equal : runtime.encode v ++ left = runtime.encode w ++ right)
    (leftEnds : EndsNumber left) (rightEnds : EndsNumber right) :
    runtime.encode v = runtime.encode w ∧ left = right := by
  have readable := runtime.lenient.isSome_reread_of v (v.depth + 1)
    (.inl runtime.readsNumbers_lenient) (lt_succ_self _)
  rcases Option.isSome_iff_exists.mp readable with ⟨x, read⟩
  rw [← runtime.encode_lenient v, ← runtime.encode_lenient w] at equal
  have same := (runtime.lenient.encode_append_inj equal leftEnds rightEnds read).2
  subst same
  rw [← runtime.encode_lenient v, ← runtime.encode_lenient w]
  exact ⟨append_cancel_right equal, rfl⟩

/-- Objects with plain keys that are written alike have fields that are read alike. -/
theorem exists_reread_eq_of_encode_eq {left right : List (String × Value)}
    (leftPlain : PlainKeys (keys left)) (rightPlain : PlainKeys (keys right))
    (same : runtime.encode (.object left) = runtime.encode (.object right)) :
    ∃ budget, ∀ key, (get? key left).bind (runtime.lenient.reread budget) =
      (get? key right).bind (runtime.lenient.reread budget) := by
  have readable := runtime.lenient.isSome_reread_of (.object left) _
    (.inl runtime.readsNumbers_lenient) (lt_succ_self _)
  obtain ⟨w, readLeft⟩ := Option.isSome_iff_exists.mp readable
  have texts : runtime.lenient.encode (.object left) ++ [] =
      runtime.lenient.encode (.object right) ++ [] := by
    rw [append_nil, append_nil, encode_lenient, encode_lenient, same]
  have readRight :=
    (runtime.lenient.encode_append_inj texts endsNumber_nil endsNumber_nil readLeft).1
  refine ⟨(Value.object left).depth.succ - 1, fun key => ?_⟩
  rw [← runtime.lenient.get?_of_reread_object leftPlain readLeft key,
    ← runtime.lenient.get?_of_reread_object rightPlain readRight key]

theorem encode_object_startsBrace {v : Value} (isObject : ∃ entries, v = .object entries) :
    ∃ text, runtime.encode v = '{' :: text := by
  rcases isObject with ⟨entries, equal⟩
  subst equal
  exact ⟨_, runtime.encode_object entries⟩

theorem endsNumber_flatMap_encode {values : List Value}
    (objects : ∀ v ∈ values, ∃ entries, v = .object entries) :
    EndsNumber (values.flatMap runtime.encode) := by
  cases values with
  | nil => exact endsNumber_nil
  | cons v rest =>
    rcases runtime.encode_object_startsBrace (objects v mem_cons_self) with ⟨text, starts⟩
    rw [flatMap_cons, starts, cons_append]
    exact endsNumber_of_head _ (by decide)

/-- Objects written one after another are told apart. -/
theorem map_encode_eq_of_flatMap_eq {us vs : List Value}
    (uObjects : ∀ u ∈ us, ∃ entries, u = .object entries)
    (vObjects : ∀ v ∈ vs, ∃ entries, v = .object entries)
    (same : us.flatMap runtime.encode = vs.flatMap runtime.encode) :
    us.map runtime.encode = vs.map runtime.encode := by
  induction us generalizing vs with
  | nil =>
    cases vs with
    | nil => rfl
    | cons v vs =>
      rcases runtime.encode_object_startsBrace (vObjects v mem_cons_self) with
        ⟨text, starts⟩
      simp [starts] at same
  | cons u us ih =>
    cases vs with
    | nil =>
      rcases runtime.encode_object_startsBrace (uObjects u mem_cons_self) with
        ⟨text, starts⟩
      simp [starts] at same
    | cons v vs =>
      have laterU : ∀ x ∈ us, ∃ entries, x = .object entries :=
        fun x member => uObjects x (mem_cons_of_mem _ member)
      have laterV : ∀ x ∈ vs, ∃ entries, x = .object entries :=
        fun x member => vObjects x (mem_cons_of_mem _ member)
      rw [flatMap_cons, flatMap_cons] at same
      rcases runtime.encode_append_cancel same (runtime.endsNumber_flatMap_encode laterU)
        (runtime.endsNumber_flatMap_encode laterV) with ⟨first, rest⟩
      rw [map_cons, map_cons, first, ih laterU laterV rest]

end Runtime

end TrustForge.Json
