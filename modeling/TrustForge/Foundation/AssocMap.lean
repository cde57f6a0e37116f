import Mathlib.Algebra.GroupWithZero.Nat
import Mathlib.Data.List.Basic
import Mathlib.Data.List.Induction

/-!
# Association lists as insertion-ordered maps

A map is a list of key/value pairs.  Inserting a present key replaces its value
in place, and a new key goes to the end, so a map built by insertion has distinct
keys.  Lookup of a key in a list with distinct keys does not depend on the order
of the entries.
-/

namespace TrustForge.AssocMap

open List

variable {κ β : Type} [DecidableEq κ]

/-- Insert a pair: a present key keeps its position and gets the new value. -/
def insert (key : κ) (value : β) : List (κ × β) → List (κ × β)
  | [] => [(key, value)]
  | (k, v) :: rest =>
    if k = key then (k, value) :: rest else (k, v) :: insert key value rest

/-- The value stored under a key. -/
def get? (key : κ) : List (κ × β) → Option β
  | [] => none
  | (k, v) :: rest => if k = key then some v else get? key rest

/-- Remove a key. -/
def erase (key : κ) (entries : List (κ × β)) : List (κ × β) :=
  entries.filter fun entry => entry.1 ≠ key

/-- Build a map by inserting pairs in order. -/
def ofPairs (pairs : List (κ × β)) : List (κ × β) :=
  pairs.foldl (fun entries pair => insert pair.1 pair.2 entries) []

/-- The keys, in order. -/
def keys (entries : List (κ × β)) : List κ :=
  entries.map Prod.fst

variable (key : κ)

theorem insert_of_not_mem (value : β) (entries : List (κ × β)) (absent : key ∉ keys entries) :
    insert key value entries = entries ++ [(key, value)] := by
  induction entries with
  | nil => rfl
  | cons entry rest ih =>
    rcases entry with ⟨k, v⟩
    simp only [keys, map_cons, mem_cons, not_or] at absent
    rw [insert, if_neg fun equal => absent.1 equal.symm, ih absent.2]
    rfl

section

variable (entries : List (κ × β))

/-- Lookup is that of the standard library. -/
theorem get?_eq_lookup : get? key entries = entries.lookup key := by
  induction entries with
  | nil => rfl
  | cons entry rest ih =>
    rcases entry with ⟨k, v⟩
    by_cases here : k = key
    · simp [get?, here]
    · simp [get?, here, lookup_cons, beq_eq_false_iff_ne.mpr (Ne.symm here), ih]

theorem forall_bne_iff :
    (∀ entry ∈ entries, (key != entry.1) = true) ↔ key ∉ keys entries := by
  simp only [keys, mem_map, bne_iff_ne, not_exists, not_and, ne_comm]

theorem get?_eq_none_iff :
    get? key entries = none ↔ key ∉ keys entries := by
  rw [get?_eq_lookup, lookup_eq_none_iff, forall_bne_iff]

theorem mem_keys_iff :
    key ∈ keys entries ↔ ∃ value, get? key entries = some value := by
  rw [← not_iff_not, ← get?_eq_none_iff, Option.eq_none_iff_forall_ne_some, not_exists]

end

/-- The first entry with a key is the one that is read. -/
theorem get?_eq_some_iff (value : β) (entries : List (κ × β)) :
    get? key entries = some value ↔
      ∃ before after, entries = before ++ (key, value) :: after ∧ key ∉ keys before := by
  simp only [get?_eq_lookup, lookup_eq_some_iff, forall_bne_iff]

theorem get?_insert (key query : κ) (value : β) (entries : List (κ × β)) :
    get? query (insert key value entries) = if key = query then some value else get? query entries := by
  induction entries with
  | nil => simp [insert, get?]
  | cons entry rest ih =>
    rcases entry with ⟨k, v⟩
    by_cases here : k = key
    · subst here
      by_cases asked : k = query
      · simp [insert, get?, asked]
      · simp [insert, get?, asked]
    · by_cases asked : k = query
      · subst asked
        have other : ¬key = k := fun equal => here equal.symm
        simp [insert, get?, here, other]
      · simp [insert, get?, here, asked, ih]

theorem get?_erase (key query : κ) (entries : List (κ × β)) :
    get? query (erase key entries) = if key = query then none else get? query entries := by
  induction entries with
  | nil => simp [erase, get?]
  | cons entry rest ih =>
    rcases entry with ⟨k, v⟩
    by_cases gone : k = key
    · subst gone
      rw [erase, filter_cons_of_neg (by simp), ← erase, ih]
      by_cases asked : k = query
      · simp [asked]
      · simp [asked, get?]
    · rw [erase, filter_cons_of_pos (by simpa using gone), ← erase, get?, ih]
      by_cases asked : k = query
      · have other : ¬key = query := fun same => gone (asked.trans same.symm)
        simp [other, get?]
      · simp [asked, get?]

variable {entries : List (κ × β)}

theorem isSome_get?_insert {key query : κ} {value : β} :
    (get? query (insert key value entries)).isSome = true ↔
      key = query ∨ (get? query entries).isSome = true := by
  rw [get?_insert]
  by_cases same : key = query
  · simp [same]
  · simp [same]

theorem length_insert_le (value : β) (entries : List (κ × β)) :
    (insert key value entries).length ≤ entries.length + 1 := by
  induction entries with
  | nil => exact Nat.le_refl 1
  | cons entry rest ih =>
    rcases entry with ⟨k, v⟩
    rw [insert]
    split
    · exact Nat.le_succ _
    · exact Nat.succ_le_succ ih

theorem mem_of_mem_insert {key : κ} {value : β} {entry : κ × β}
    (member : entry ∈ insert key value entries) : entry = (key, value) ∨ entry ∈ entries := by
  induction entries with
  | nil => exact .inl (mem_singleton.mp member)
  | cons first rest ih =>
    rcases first with ⟨k, v⟩
    rw [insert] at member
    by_cases here : k = key
    · rw [if_pos here, here] at member
      exact (mem_cons.mp member).imp_right (mem_cons_of_mem _)
    · rw [if_neg here] at member
      rcases mem_cons.mp member with equal | later
      · exact .inr (equal ▸ mem_cons_self)
      · exact (ih later).imp_right (mem_cons_of_mem _)

theorem ofPairs_concat (pairs : List (κ × β)) (pair : κ × β) :
    ofPairs (pairs ++ [pair]) = insert pair.1 pair.2 (ofPairs pairs) :=
  foldl_concat _ _ _ _

theorem mem_of_mem_ofPairs {pairs : List (κ × β)} {entry : κ × β} (member : entry ∈ ofPairs pairs) :
    entry ∈ pairs := by
  induction pairs using reverseRecOn with
  | nil => exact member
  | append_singleton pairs pair ih =>
    rw [ofPairs_concat] at member
    rw [mem_append, mem_singleton]
    exact (mem_of_mem_insert member).symm.imp_left ih

theorem nodup_keys_insert (value : β) (nodup : (keys entries).Nodup) :
    (keys (insert key value entries)).Nodup := by
  induction entries with
  | nil => simp [insert, keys]
  | cons entry rest ih =>
    rcases entry with ⟨k, v⟩
    rw [keys, map_cons, nodup_cons] at nodup
    rw [insert]
    by_cases here : k = key
    · rw [if_pos here, keys, map_cons, nodup_cons]
      exact nodup
    · rw [if_neg here, keys, map_cons, nodup_cons]
      refine ⟨fun member => ?_, ih nodup.2⟩
      rcases mem_map.mp member with ⟨pair, listed, equal⟩
      rcases mem_of_mem_insert listed with inserted | known
      · exact here (equal.symm.trans (congrArg Prod.fst inserted))
      · exact nodup.1 (mem_map.mpr ⟨pair, known, equal⟩)

theorem keys_insert_of_mem {key : κ} (value : β) (present : key ∈ keys entries) :
    keys (insert key value entries) = keys entries := by
  induction entries with
  | nil => contradiction
  | cons entry rest ih =>
    by_cases own : entry.1 = key
    · simp [insert, own, keys]
    · have later : key ∈ keys rest := by
        rcases mem_cons.mp present with here | later
        · exact absurd here.symm own
        · exact later
      simpa [insert, own, keys] using ih later

theorem nodup_keys_concat {key : κ} (value : β) (absent : key ∉ keys entries)
    (nodup : (keys entries).Nodup) : (keys (entries ++ [(key, value)])).Nodup := by
  rw [← insert_of_not_mem key value entries absent]
  exact nodup_keys_insert key value nodup

theorem get?_append (query : κ) (left right : List (κ × β)) :
    get? query (left ++ right) = (get? query left).or (get? query right) := by
  simp only [get?_eq_lookup, lookup_append]

/-- The last pair with a key is the one that stays. -/
theorem get?_ofPairs (query : κ) (pairs : List (κ × β)) :
    get? query (ofPairs pairs) = get? query pairs.reverse := by
  induction pairs using reverseRecOn with
  | nil => rfl
  | append_singleton pairs pair ih =>
    rw [ofPairs_concat, get?_insert, ih, reverse_concat]
    rfl

theorem get?_ofPairs_eq_some_iff (value : β) (pairs : List (κ × β)) :
    get? key (ofPairs pairs) = some value ↔
      ∃ before after, pairs = before ++ (key, value) :: after ∧ key ∉ keys after := by
  have mirrored (before after : List (κ × β)) :
      pairs.reverse = before ++ (key, value) :: after ↔
        pairs = after.reverse ++ (key, value) :: before.reverse := by
    rw [reverse_eq_iff, reverse_append, reverse_cons, append_assoc, singleton_append]
  have mirror (entries : List (κ × β)) : key ∈ keys entries.reverse ↔ key ∈ keys entries := by
    rw [keys, map_reverse, mem_reverse, keys]
  rw [get?_ofPairs, get?_eq_some_iff]
  constructor
  · rintro ⟨before, after, shape, first⟩
    exact ⟨_, _, (mirrored before after).mp shape, mt (mirror before).mp first⟩
  · rintro ⟨before, after, shape, last⟩
    refine ⟨after.reverse, before.reverse, (mirrored _ _).mpr ?_, mt (mirror after).mp last⟩
    rw [reverse_reverse, reverse_reverse, shape]

theorem mem_keys_ofPairs_iff (pairs : List (κ × β)) :
    key ∈ keys (ofPairs pairs) ↔ key ∈ keys pairs := by
  rw [← not_iff_not, ← get?_eq_none_iff, get?_ofPairs, get?_eq_none_iff, keys, map_reverse,
    mem_reverse, keys]

theorem nodup_keys_ofPairs (pairs : List (κ × β)) : (keys (ofPairs pairs)).Nodup := by
  induction pairs using reverseRecOn with
  | nil => exact nodup_nil
  | append_singleton pairs pair ih =>
    rw [ofPairs_concat]
    exact nodup_keys_insert _ _ ih

/-- Pairs with distinct keys are inserted as they come. -/
theorem ofPairs_of_nodup (pairs : List (κ × β)) (nodup : (keys pairs).Nodup) :
    ofPairs pairs = pairs := by
  induction pairs using reverseRecOn with
  | nil => rfl
  | append_singleton pairs pair ih =>
    rw [keys, map_append, nodup_append] at nodup
    rw [ofPairs_concat, ih nodup.1, insert_of_not_mem]
    intro member
    exact nodup.2.2 _ member _ mem_cons_self rfl

/-- With distinct keys, reading a key back does not depend on the order. -/
theorem get?_eq_some_iff_of_nodup (entries : List (κ × β)) (nodup : (keys entries).Nodup)
    (key : κ) (value : β) :
    get? key entries = some value ↔ (key, value) ∈ entries := by
  induction entries with
  | nil => simp [get?]
  | cons entry rest ih =>
    rcases entry with ⟨k, v⟩
    simp only [keys, map_cons, nodup_cons] at nodup
    by_cases here : k = key
    · subst here
      have notLater : (k, value) ∉ rest := fun later =>
        nodup.1 (mem_map.mpr ⟨(k, value), later, rfl⟩)
      simp [get?, notLater, eq_comm]
    · have notHere : ¬key = k := fun equal => here equal.symm
      simp [get?, here, notHere, ih nodup.2]

theorem insert_map {γ : Type} (f : β → γ) (key : κ) (value : β) (entries : List (κ × β)) :
    insert key (f value) (entries.map fun entry => (entry.1, f entry.2)) =
      (insert key value entries).map fun entry => (entry.1, f entry.2) := by
  induction entries with
  | nil => rfl
  | cons entry rest ih =>
    rcases entry with ⟨k, v⟩
    by_cases here : k = key
    · simp [insert, here]
    · simp [insert, here, ih]

/-- Inserting does not look at the values. -/
theorem ofPairs_map {γ : Type} (f : β → γ) (pairs : List (κ × β)) :
    ofPairs (pairs.map fun pair => (pair.1, f pair.2)) =
      (ofPairs pairs).map fun entry => (entry.1, f entry.2) := by
  induction pairs using reverseRecOn with
  | nil => rfl
  | append_singleton pairs pair ih =>
    rw [map_append, map_singleton, ofPairs_concat, ofPairs_concat, ih]
    exact insert_map f _ _ _

theorem get?_map {γ : Type} (f : β → γ) (entries : List (κ × β)) (key : κ) :
    get? key (entries.map fun entry => (entry.1, f entry.2)) = (get? key entries).map f := by
  induction entries with
  | nil => rfl
  | cons entry rest ih =>
    rcases entry with ⟨k, v⟩
    by_cases here : k = key
    · simp [get?, here]
    · simp [get?, here, ih]

theorem get?_mapKeys {κ' : Type} [DecidableEq κ'] (f : κ → κ') (query : κ)
    (apart : ∀ key ∈ keys entries, f key = f query → key = query) :
    get? (f query) (entries.map fun entry => (f entry.1, entry.2)) = get? query entries := by
  induction entries with
  | nil => rfl
  | cons entry rest ih =>
    rcases entry with ⟨k, v⟩
    have later := ih fun key member => apart key (mem_cons_of_mem k member)
    by_cases here : k = query
    · simp [get?, here]
    · have other : ¬f k = f query := fun same => here (apart k mem_cons_self same)
      simpa [get?, here, other] using later

theorem get?_perm (left right : List (κ × β)) (perm : left.Perm right)
    (nodup : (keys left).Nodup) (key : κ) : get? key left = get? key right := by
  have rightNodup : (keys right).Nodup := (perm.map Prod.fst).nodup_iff.mp nodup
  apply Option.ext
  intro value
  rw [get?_eq_some_iff_of_nodup left nodup, get?_eq_some_iff_of_nodup right rightNodup,
    perm.mem_iff]

/-! ## Sizes

With a positive size for each entry, a map is as large as the pairs it was built from
exactly when no key was repeated. -/

section

variable (size : κ × β → Nat)

theorem sum_insert_of_mem (pair : κ × β) (positive : ∀ entry, 0 < size entry)
    (present : pair.1 ∈ keys entries) :
    ((insert pair.1 pair.2 entries).map size).sum < (entries.map size).sum + size pair := by
  rcases pair with ⟨key, value⟩
  induction entries with
  | nil => simp [keys] at present
  | cons entry rest ih =>
    rcases entry with ⟨k, v⟩
    have here := positive (k, v)
    by_cases equal : k = key
    · subst equal
      simp only [insert, ↓reduceIte, map_cons, sum_cons]
      omega
    · have later : key ∈ keys rest := by
        simpa [keys, Ne.symm equal] using present
      have smaller := ih later
      dsimp only at smaller
      simp only [insert, equal, ↓reduceIte, map_cons, sum_cons]
      omega

theorem sum_insert_le (pair : κ × β) (entries : List (κ × β)) (positive : ∀ entry, 0 < size entry) :
    ((insert pair.1 pair.2 entries).map size).sum ≤ (entries.map size).sum + size pair := by
  by_cases present : pair.1 ∈ keys entries
  · exact Nat.le_of_lt (sum_insert_of_mem size pair positive present)
  · rw [insert_of_not_mem _ _ entries present]
    simp

theorem sum_ofPairs_le (pairs : List (κ × β)) (positive : ∀ entry, 0 < size entry) :
    ((ofPairs pairs).map size).sum ≤ (pairs.map size).sum := by
  induction pairs using reverseRecOn with
  | nil => exact Nat.le_refl 0
  | append_singleton pairs pair ih =>
    have last := sum_insert_le size pair (ofPairs pairs) positive
    rw [ofPairs_concat, map_append, sum_append, map_singleton, sum_singleton]
    omega

theorem nodup_of_sum_ofPairs (pairs : List (κ × β)) (positive : ∀ entry, 0 < size entry)
    (large : (pairs.map size).sum ≤ ((ofPairs pairs).map size).sum) : (keys pairs).Nodup := by
  induction pairs using reverseRecOn with
  | nil => exact nodup_nil
  | append_singleton pairs pair ih =>
    have last := sum_insert_le size pair (ofPairs pairs) positive
    have before := sum_ofPairs_le size pairs positive
    rw [ofPairs_concat, map_append, sum_append, map_singleton, sum_singleton] at large
    refine nodup_keys_concat pair.2 (fun present => ?_) (ih (by omega))
    have smaller := sum_insert_of_mem size pair positive
      ((mem_keys_ofPairs_iff pair.1 pairs).mpr present)
    omega

end

end TrustForge.AssocMap
