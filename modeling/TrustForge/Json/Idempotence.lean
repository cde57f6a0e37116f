import TrustForge.Json.NormalForm

/-!
# Canonicalising what was read from canonical text

Stores and signature checks canonicalise data that they parsed from canonical text.
This gives the same text back as long as no object has two keys with one NFC form and
the nesting stays within the reader's limit.  Two such keys are written twice, the
reader keeps one entry, and the text of the rest is shorter.
-/

namespace TrustForge.Json

open Option hiding map_id map_map
open Value List

/-! ## Sums over related lists -/

section

variable {α β : Type} {R : α → β → Prop} {f : α → Nat} {g : β → Nat}

theorem sum_le_of_forall₂ {xs : List α} {ys : List β} (smaller : ∀ x y, R x y → g y ≤ f x)
    (related : Forall₂ R xs ys) : (ys.map g).sum ≤ (xs.map f).sum := by
  induction related with
  | nil => exact le_refl _
  | cons first _ ih =>
    rw [map_cons, map_cons, sum_cons, sum_cons]
    exact add_le_add (smaller _ _ first) ih

/-- When the sums do not shrink, no part does. -/
theorem forall₂_of_sum_le {xs : List α} {ys : List β} (smaller : ∀ x y, R x y → g y ≤ f x)
    (related : Forall₂ R xs ys) (large : (xs.map f).sum ≤ (ys.map g).sum) :
    Forall₂ (fun x y => R x y ∧ f x ≤ g y) xs ys := by
  induction related with
  | nil => exact .nil
  | cons first later ih =>
    have here := smaller _ _ first
    have rest := sum_le_of_forall₂ smaller later
    rw [map_cons, map_cons, sum_cons, sum_cons] at large
    exact .cons ⟨first, by omega⟩ (ih (by omega))

theorem sum_ne_one (xs : List α) (large : ∀ x, 2 ≤ f x) : (xs.map f).sum ≠ 1 := by
  cases xs with
  | nil => simp
  | cons x rest =>
    have here := large x
    rw [map_cons, sum_cons]
    omega

/-- What holds of every related pair holds of every left element. -/
theorem forall_of_forall₂ {P : α → Prop} {xs : List α} {ys : List β}
    (each : ∀ x y, R x y → P x) (related : Forall₂ R xs ys) : ∀ x ∈ xs, P x := by
  induction related with
  | nil => simp
  | cons first _ ih =>
    intro x member
    rcases mem_cons.mp member with equal | later
    · exact equal ▸ each _ _ first
    · exact ih x later

end

theorem forall₂_collectEntries {β γ : Type} {f : β → Option γ} {entries : List (String × β)}
    {collected : List (String × γ)}
    (all : collectEntries (entries.map fun entry => (entry.1, f entry.2)) = some collected) :
    Forall₂ (fun entry found => found.1 = entry.1 ∧ f entry.2 = some found.2) entries
      collected := by
  have pairs := Runtime.collectEntries_eq_some_iff.mp all
  rw [← forall₂_eq_eq_eq, forall₂_map_left_iff, forall₂_map_right_iff] at pairs
  exact pairs.imp fun _ _ same => ⟨(Prod.mk.inj same).1.symm, (Prod.mk.inj same).2⟩

namespace Runtime

variable (runtime : Runtime)

/-! ## Nesting of what can be read -/

theorem depth_lt_of_reread (v : Value) (budget : Nat) (w : Value) (positive : 0 < budget)
    (read : runtime.reread budget v = some w) : v.depth < budget := by
  induction v using memberInduction generalizing budget w with
  | array xs ih =>
    rw [reread, ite_none_left_eq_some, map_eq_some_iff] at read
    rcases read with ⟨room, ys, all, _⟩
    rw [depth_array_lt_iff]
    refine ⟨Nat.not_le.mp room, fun x member => ?_⟩
    obtain ⟨y, here⟩ := forall_of_forall₂
      (P := fun x => ∃ y, runtime.reread (budget - 1) x = some y) (fun x y here => ⟨y, here⟩)
      (runtime.rereadAll_eq_some_iff.mp all) x member
    exact ih x member _ y (by omega) here
  | object entries ih =>
    rw [reread_object, ite_none_left_eq_some, map_eq_some_iff] at read
    rcases read with ⟨room, collected, all, _⟩
    rw [depth_object_lt_iff]
    refine ⟨Nat.not_le.mp room, fun entry member => ?_⟩
    obtain ⟨y, here⟩ := forall_of_forall₂
      (P := fun entry => ∃ y, runtime.reread (budget - 1) entry.2 = some y)
      (fun entry y here => ⟨y.2, here.2⟩) (forall₂_collectEntries all)
      (runtime.nfc entry.1, entry.2) (runtime.mem_sortedEntries_of_mem member)
    exact ih entry member _ y (by omega) here
  | _ => exact positive

/-! ## Reading drops repeated keys -/

theorem entrySize_eq (entry : String × Value) :
    runtime.entrySize entry =
      (writeJsonString (runtime.nfc entry.1)).length + (runtime.encode entry.2).length + 2 := by
  simp only [entrySize, memberText, length_append, length_cons]
  omega

theorem entrySize_pos (entry : String × Value) : 0 < runtime.entrySize entry := by
  rw [entrySize_eq]
  omega

theorem length_encode_pos (v : Value) : 0 < (runtime.encode v).length := by
  rcases runtime.encode_startsValue v with ⟨c, rest, starts, _⟩
  rw [starts]
  exact Nat.succ_pos _

/-- The text of what is read back is never longer, and shorter if a key was repeated. -/
def TextShrinks (v : Value) : Prop :=
  ∀ budget w, runtime.reread budget v = some w →
    (runtime.encode w).length ≤ (runtime.encode v).length ∧
      ((runtime.encode v).length ≤ (runtime.encode w).length →
        (v.mapText runtime.nfc).distinctKeys = true)

theorem textShrinks_array (xs : List Value) (each : ∀ x ∈ xs, runtime.TextShrinks x) :
    runtime.TextShrinks (.array xs) := by
  intro budget w read
  rw [reread, ite_none_left_eq_some, map_eq_some_iff] at read
  rcases read with ⟨_, ys, all, equal⟩
  subst equal
  have related := (forall₂_and_left _ _).mpr ⟨each, runtime.rereadAll_eq_some_iff.mp all⟩
  have smaller : ∀ x y, runtime.TextShrinks x ∧ runtime.reread (budget - 1) x = some y →
      (runtime.encode y).length + 1 ≤ (runtime.encode x).length + 1 := by
    intro x y here
    exact Nat.succ_le_succ (here.1 _ y here.2).1
  have sums := sum_le_of_forall₂ smaller related
  have nonempty := sum_ne_one xs (f := fun x => (runtime.encode x).length + 1) fun x =>
    Nat.succ_le_succ (runtime.length_encode_pos x)
  rw [length_encode_array, length_encode_array]
  refine ⟨by omega, ?_⟩
  intro large
  have kept := forall₂_of_sum_le smaller related (by omega)
  rw [mapText, distinctKeys, mapTextArray_eq_map, distinctKeysArray_iff]
  intro x member
  rcases mem_map.mp member with ⟨original, listed, equal⟩
  subst equal
  refine forall_of_forall₂ (P := fun x => (x.mapText runtime.nfc).distinctKeys = true) ?_ kept
    original listed
  intro x y here
  exact (here.1.1 _ y here.1.2).2 (Nat.le_of_succ_le_succ here.2)

/-- Normalising twice is normalising once, as Unicode guarantees for NFC. -/
def NfcIdempotent : Prop :=
  ∀ s, runtime.nfc (runtime.nfc s) = runtime.nfc s

theorem sum_entrySize_sortedEntries (idempotent : runtime.NfcIdempotent)
    (entries : List (String × Value)) :
    ((runtime.sortedEntries entries).map runtime.entrySize).sum =
      (entries.map runtime.entrySize).sum := by
  have sorted := ((sortByKey_perm (entries.map fun entry =>
    (runtime.nfc entry.1, entry.2))).map runtime.entrySize).sum_nat
  have sizes : runtime.entrySize ∘ (fun entry => (runtime.nfc entry.1, entry.2)) =
      runtime.entrySize := by
    funext entry
    rw [Function.comp_apply, entrySize, entrySize, idempotent]
  rw [sortedEntries, sorted, map_map, sizes]

theorem textShrinks_object (idempotent : runtime.NfcIdempotent) (entries : List (String × Value))
    (each : ∀ entry ∈ entries, runtime.TextShrinks entry.2) :
    runtime.TextShrinks (.object entries) := by
  intro budget w read
  rw [reread_object, ite_none_left_eq_some, map_eq_some_iff] at read
  rcases read with ⟨_, collected, all, equal⟩
  subst equal
  have eachSorted : ∀ entry ∈ runtime.sortedEntries entries, runtime.TextShrinks entry.2 := by
    intro entry member
    rcases runtime.mem_of_mem_sortedEntries member with ⟨original, listed⟩
    exact each (original, entry.2) listed
  have related := (forall₂_and_left _ _).mpr ⟨eachSorted, forall₂_collectEntries all⟩
  have smaller : ∀ entry found : String × Value, runtime.TextShrinks entry.2 ∧
      found.1 = entry.1 ∧ runtime.reread (budget - 1) entry.2 = some found.2 →
      runtime.entrySize found ≤ runtime.entrySize entry := by
    rintro entry found ⟨shrinks, key, here⟩
    have value := (shrinks _ found.2 here).1
    rw [entrySize_eq, entrySize_eq, key]
    omega
  -- Collecting may shorten the values; building the map may drop entries.
  have collecting := sum_le_of_forall₂ smaller related
  have building := AssocMap.sum_ofPairs_le runtime.entrySize collected runtime.entrySize_pos
  have nonempty := sum_ne_one entries (f := runtime.entrySize) fun entry => by
    rw [entrySize_eq]
    omega
  rw [runtime.sum_entrySize_sortedEntries idempotent] at collecting
  rw [length_encode_object, length_encode_object]
  refine ⟨by omega, ?_⟩
  intro large
  have keysKept := AssocMap.nodup_of_sum_ofPairs runtime.entrySize collected
    runtime.entrySize_pos (by omega)
  have valuesKept := forall₂_of_sum_le smaller related (by
    rw [runtime.sum_entrySize_sortedEntries idempotent]
    omega)
  rw [mapText, distinctKeys_object_iff]
  constructor
  · have keys := keys_collectEntries all
    rw [← (runtime.keys_sortedEntries_perm entries).nodup_iff]
    rw [keys] at keysKept
    simpa [AssocMap.keys, Function.comp_def] using keysKept
  · intro entry member
    rw [mapTextObject_eq_map] at member
    rcases mem_map.mp member with ⟨original, listed, equal⟩
    subst equal
    refine forall_of_forall₂
      (P := fun entry => (entry.2.mapText runtime.nfc).distinctKeys = true) ?_ valuesKept
      (runtime.nfc original.1, original.2) (runtime.mem_sortedEntries_of_mem listed)
    rintro entry found ⟨⟨shrinks, key, here⟩, large⟩
    rw [entrySize_eq, entrySize_eq, key] at large
    exact (shrinks _ found.2 here).2 (by omega)

theorem textShrinks (idempotent : runtime.NfcIdempotent) (v : Value) (free : v.floatFree = true) :
    runtime.TextShrinks v := by
  induction v using memberInduction with
  | null | bool =>
    intro budget w read
    cases read
    exact ⟨le_refl _, fun _ => rfl⟩
  | number n =>
    intro budget w read
    have same := runtime.reread_eq_normalForm (.number n) 1 free Nat.zero_lt_one rfl
    rw [reread] at same read
    rw [same] at read
    cases read
    exact ⟨le_refl _, fun _ => rfl⟩
  | string s =>
    intro budget w read
    cases read
    rw [encode_string, encode_string, idempotent]
    exact ⟨le_refl _, fun _ => rfl⟩
  | array xs ih =>
    rw [floatFree_array_iff] at free
    exact runtime.textShrinks_array xs fun x member => ih x member (free x member)
  | object entries ih =>
    rw [floatFree_object_iff] at free
    exact runtime.textShrinks_object idempotent entries fun entry member =>
      ih entry member (free entry member)

/-! ## The normal form is canonicalised to its own text -/

/-- Entries that are normalised and sorted already stay as they are. -/
theorem sortedEntries_of_sorted {entries : List (String × Value)}
    (normalised : ∀ entry ∈ entries, runtime.nfc entry.1 = entry.1)
    (inOrder : entries.Pairwise fun x y => x.1 ≤ y.1) :
    runtime.sortedEntries entries = entries := by
  have unchanged : (entries.map fun entry => (runtime.nfc entry.1, entry.2)) = entries := by
    have each : ∀ entry ∈ entries, (runtime.nfc entry.1, entry.2) = id entry := by
      intro entry member
      rw [normalised entry member]
      rfl
    rw [map_congr_left each, map_id]
  rw [sortedEntries, unchanged]
  exact inOrder.insertionSort_eq

theorem nfc_of_mem_sortedEntries (idempotent : runtime.NfcIdempotent)
    {entries : List (String × Value)} {entry : String × Value}
    (member : entry ∈ runtime.sortedEntries entries) : runtime.nfc entry.1 = entry.1 := by
  rcases mem_map.mp ((sortByKey_perm _).mem_iff.mp member) with ⟨original, _, equal⟩
  rw [← equal]
  exact idempotent original.1

theorem sortedEntries_normalForm (idempotent : runtime.NfcIdempotent)
    (entries : List (String × Value)) :
    runtime.sortedEntries ((runtime.sortedEntries entries).map fun entry =>
        (entry.1, runtime.normalForm entry.2)) =
      (runtime.sortedEntries entries).map fun entry => (entry.1, runtime.normalForm entry.2) := by
  apply runtime.sortedEntries_of_sorted
  · intro entry member
    rcases mem_map.mp member with ⟨original, listed, equal⟩
    have normalised := runtime.nfc_of_mem_sortedEntries idempotent listed
    rw [← equal]
    exact normalised
  · exact pairwise_map.mpr (sortByKey_pairwise _)

theorem encode_normalForm (idempotent : runtime.NfcIdempotent) (v : Value) :
    runtime.encode (runtime.normalForm v) = runtime.encode v := by
  induction v using memberInduction with
  | null | bool | number => rfl
  | string s =>
    show runtime.encode (.string (runtime.nfc s)) = _
    rw [encode_string, encode_string, idempotent]
  | array xs ih =>
    rw [normalForm_array, encode, encode, encodeAll_eq_map, encodeAll_eq_map, map_map,
      ← map_congr_left ih]
    rfl
  | object entries ih =>
    rw [normalForm_object, encode_object, encode_object,
      runtime.sortedEntries_normalForm idempotent, map_map]
    have each : ∀ entry ∈ runtime.sortedEntries entries,
        memberText (entry.1, runtime.encode (runtime.normalForm entry.2)) =
          memberText (entry.1, runtime.encode entry.2) := by
      intro entry member
      rcases runtime.mem_of_mem_sortedEntries member with ⟨original, listed⟩
      rw [ih (original, entry.2) listed]
    rw [← map_congr_left each]
    rfl

/-! ## Composing an accent

A stand-in for NFC that composes `e` with the combining acute accent, and nothing else. -/

/-- One more character in front. -/
def attachAcute (c : Char) (rest : List Char) : List Char :=
  if c = 'e' ∧ rest.head? = some '\u0301' then 'é' :: rest.tail else c :: rest

def composeAcute : List Char → List Char
  | [] => []
  | c :: rest => attachAcute c (composeAcute rest)

theorem attachAcute_of_ne {c : Char} (rest : List Char) (other : c ≠ 'e') :
    attachAcute c rest = c :: rest :=
  if_neg fun both => other both.1

theorem composeAcute_of_ascii (chars : List Char) (ascii : ∀ c ∈ chars, c.toNat < 128) :
    composeAcute chars = chars := by
  induction chars with
  | nil => rfl
  | cons c rest ih =>
    rw [composeAcute, ih fun x member => ascii x (mem_cons_of_mem _ member)]
    apply if_neg
    rintro ⟨_, accent⟩
    have small := ascii '\u0301' (mem_cons_of_mem _ (mem_of_mem_head? accent))
    contradiction

theorem composeAcute_composeAcute (chars : List Char) :
    composeAcute (composeAcute chars) = composeAcute chars := by
  induction chars with
  | nil => rfl
  | cons c rest ih =>
    rw [composeAcute]
    by_cases accent : c = 'e' ∧ (composeAcute rest).head? = some '\u0301'
    · rcases head?_eq_some_iff.mp accent.2 with ⟨later, split⟩
      rw [split, composeAcute, attachAcute_of_ne _ (by decide)] at ih
      rw [attachAcute, if_pos accent, split, tail_cons, composeAcute,
        attachAcute_of_ne _ (by decide), (cons.inj ih).2]
    · rw [attachAcute, if_neg accent, composeAcute, ih, attachAcute, if_neg accent]

def composing : Runtime where
  nfc := fun s => String.ofList (composeAcute s.toList)
  nfc_ascii := fun s ascii => by rw [composeAcute_of_ascii s.toList ascii, String.ofList_toList]
  displayF64 := fun f => .ofInteger f.negative f.truncated
  readF64 := fun _ => none

theorem composing_nfcIdempotent : composing.NfcIdempotent := by
  intro s
  simp [composing, composeAcute_composeAcute]

/-! ## When canonical text is a normal form -/

/-- The canonical text of a value is a normal form: it parses, and is the text of what was
parsed, in which no object repeats a key; canonicalising what was parsed gives it back;
and it does not depend on the order in which entries were inserted. -/
structure IsNormalForm (v : Value) : Prop where
  parses : ∃ w, fromStr runtime.readF64 (runtime.canonicalize v) = some w ∧
    w.distinctKeys = true ∧ String.ofList (runtime.compact w) = runtime.canonicalize v
  idempotent : ∃ w, fromStr runtime.readF64 (runtime.canonicalize v) = some w ∧
    runtime.canonicalize w = runtime.canonicalize v
  orderFree : ∀ w, v.SameData w → runtime.canonicalize w = runtime.canonicalize v

theorem isNormalForm_of_distinctKeys (idempotent : runtime.NfcIdempotent) {v : Value}
    (free : v.floatFree = true) (shallow : v.depth < recursionLimit)
    (distinct : (v.mapText runtime.nfc).distinctKeys = true) : runtime.IsNormalForm v := by
  have read : fromStr runtime.readF64 (runtime.canonicalize v) =
      some (runtime.normalForm v) := by
    rw [fromStr_canonicalize]
    exact runtime.reread_eq_normalForm v recursionLimit free shallow distinct
  refine ⟨⟨_, read, (distinctKeys_sorted_iff _).mpr distinct, ?_⟩, ⟨_, read, ?_⟩, ?_⟩
  · rw [canonicalize, encode_eq_compact]
  · rw [canonicalize, canonicalize, runtime.encode_normalForm idempotent]
  · intro w same
    exact (runtime.canonicalize_eq_of_sameData distinct
      (Value.SameData.mapText runtime.nfc v w same)).symm

theorem isNormalForm_iff (idempotent : runtime.NfcIdempotent) {v : Value}
    (free : v.floatFree = true) :
    runtime.IsNormalForm v ↔
      v.depth < recursionLimit ∧ (v.mapText runtime.nfc).distinctKeys = true := by
  constructor
  · intro normal
    rcases normal.idempotent with ⟨w, read, same⟩
    rw [fromStr_canonicalize] at read
    have depth := runtime.depth_lt_of_reread v recursionLimit w (by decide) read
    have texts : runtime.encode w = runtime.encode v := String.ofList_injective same
    refine ⟨depth, ?_⟩
    exact (runtime.textShrinks idempotent v free recursionLimit w read).2
      (le_of_eq (congrArg List.length texts).symm)
  · intro conditions
    exact runtime.isNormalForm_of_distinctKeys idempotent free conditions.1 conditions.2

theorem isNormalForm_plain_keys :
    composing.IsNormalForm (.object [("b", .null), ("a", .bool true)]) :=
  (composing.isNormalForm_iff composing_nfcIdempotent rfl).mpr
    ⟨by decide, by decide +kernel⟩

/-- Two keys with one NFC form: the text repeats a key, the reader drops an entry, and the
text depends on which key was inserted first. -/
theorem composed_keys_repeat :
    let inserted := object [("e\u0301", .null), ("é", .bool true)]
    let swapped := object [("é", .bool true), ("e\u0301", .null)]
    inserted.floatFree = true ∧ inserted.distinctKeys = true ∧ inserted.SameData swapped ∧
      composing.canonicalize inserted = "\x7b\"é\":null,\"é\":true\x7d" ∧
      (fromStr composing.readF64 (composing.canonicalize inserted)).map composing.canonicalize =
        some "\x7b\"é\":true\x7d" ∧
      composing.canonicalize swapped ≠ composing.canonicalize inserted ∧
      ¬composing.IsNormalForm inserted := by
  intro inserted swapped
  have reread : (fromStr composing.readF64 (composing.canonicalize inserted)).map
      composing.canonicalize = some "\x7b\"é\":true\x7d" := by decide +kernel
  have text : composing.canonicalize inserted = "\x7b\"é\":null,\"é\":true\x7d" := by
    decide +kernel
  refine ⟨rfl, by decide +kernel, ?_, text, reread, by decide +kernel, ?_⟩
  · refine ⟨rfl, ⟨.null, by simp, trivial⟩, ⟨.bool true, by simp, rfl⟩, trivial⟩
  · intro normal
    rcases normal.idempotent with ⟨w, read, same⟩
    rw [read, map_some, same, text] at reread
    revert reread
    decide +kernel

/-! ## Values that are read back as they are -/

/-- What the reader finds in canonical text is normalised. -/
theorem mapText_of_reread (idempotent : runtime.NfcIdempotent) (v : Value) (budget : Nat)
    (w : Value) (read : runtime.reread budget v = some w) : w.mapText runtime.nfc = w := by
  induction v using memberInduction generalizing budget w with
  | null | bool =>
    cases some.inj read
    rfl
  | number _ =>
    rcases map_eq_some_iff.mp read with ⟨n, _, equal⟩
    rw [← equal]
    rfl
  | string s =>
    cases some.inj read
    exact congrArg string (idempotent s)
  | array xs ih =>
    rw [reread, ite_none_left_eq_some, map_eq_some_iff] at read
    rcases read with ⟨_, ys, all, equal⟩
    have fixed : ∀ y ∈ ys, y.mapText runtime.nfc = id y := by
      intro y member
      rcases Result.exists_of_forall₂ (runtime.rereadAll_eq_some_iff.mp all) member with
        ⟨x, listed, here⟩
      exact ih x listed _ y here
    rw [← equal, mapText, mapTextArray_eq_map, map_congr_left fixed, map_id]
  | object entries ih =>
    rw [reread_object, ite_none_left_eq_some, map_eq_some_iff] at read
    rcases read with ⟨_, collected, all, equal⟩
    have fixed : ∀ pair ∈ AssocMap.ofPairs collected,
        (runtime.nfc pair.1, pair.2.mapText runtime.nfc) = id pair := by
      intro pair member
      rcases Result.exists_of_forall₂ (forall₂_collectEntries all) (AssocMap.mem_of_mem_ofPairs member)
        with ⟨entry, listed, sameKey, readValue⟩
      rcases runtime.mem_of_mem_sortedEntries listed with ⟨original, present⟩
      rw [sameKey, runtime.nfc_of_mem_sortedEntries idempotent listed,
        ih (original, entry.2) present _ _ readValue, ← sameKey]
      rfl
    rw [← equal, mapText, mapTextObject_eq_map, map_congr_left fixed, map_id]

/-- Canonical text gives the same data back for values that are normalised already and not
too deep. -/
theorem readsBack_iff (idempotent : runtime.NfcIdempotent) {v : Value}
    (free : v.floatFree = true) (distinct : v.distinctKeys = true) :
    (∃ w, fromStr runtime.readF64 (runtime.canonicalize v) = some w ∧ v.SameData w) ↔
      v.depth < recursionLimit ∧ v.mapText runtime.nfc = v := by
  rw [fromStr_canonicalize]
  constructor
  · rintro ⟨w, read, same⟩
    exact ⟨runtime.depth_lt_of_reread v recursionLimit w (by decide) read,
      mapText_eq_of_sameData runtime.nfc v w same
        (runtime.mapText_of_reread idempotent v recursionLimit w read)⟩
  · rintro ⟨shallow, fixed⟩
    refine ⟨v.sorted, ?_, v.sameData_sorted⟩
    rw [runtime.reread_eq_normalForm v recursionLimit free shallow (fixed.symm ▸ distinct),
      normalForm, fixed]

end Runtime

end TrustForge.Json
