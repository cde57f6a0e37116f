import TrustForge.NoStd.RevocationList

/-!
# A device and its gateway

The gateway checks a revocation list in JSON with `OfflineRevocationListRuntime::load`, the
device checks the same list in binary form with `OfflineRevocationListChecker::new`.  They
give the same answers, but at the last instant of its validity only the gateway takes the
list.
-/

namespace TrustForge.NoStd

open AssocMap OfflineRevocationListChecker Result List
open Issuers (OfflineRevocationList OfflineRevocationListRuntime RevokedEntry load
  verifyOfflineRevocationListSignature)
open Session (Key)
open Signing (Toolkit)

/-- A list in binary form, before it is signed. -/
def binaryForm (list : OfflineRevocationList) : ListBody where
  issuer := Text.utf8 list.issuer
  issuedAt := Text.utf8 list.issuedAt
  validUntil := Text.utf8 list.validUntil
  entries := list.revoked.map fun entry => (entry.kind, entry.id)

/-! ## Room on the device -/

/-- A map of a fixed capacity takes an entry while it has room, if the key is short. -/
theorem insertEntry_heapless (index : heapless.Index) (entry : RevokedKind × String)
    (room : index.entries.length < noAllocCapacity)
    (short : (Text.utf8 (keyText entry.1 entry.2)).length ≤ noAllocKeyCap) :
    ∃ next : heapless.Index, insertEntry heapless index entry = .ok next ∧
      next.entries.length ≤ index.entries.length + 1 := by
  have named : heapless.keyOf entry.1 entry.2 = .ok ⟨keyText entry.1 entry.2, short⟩ :=
    okOr_eq_ok_iff.mpr (heaplessKey_eq_some_iff.mpr rfl)
  have grown := length_insert_le
    (⟨keyText entry.1 entry.2, short⟩ : Bounded.Str noAllocKeyCap) entry.1 index.entries
  let next : heapless.Index :=
    ⟨insert ⟨keyText entry.1 entry.2, short⟩ entry.1 index.entries,
      le_trans grown room⟩
  have inserted : heapless.insert ⟨keyText entry.1 entry.2, short⟩ entry.1 index = .ok next :=
    okOr_eq_ok_iff.mpr (Bounded.Map.insert_eq_some_iff.mpr rfl)
  exact ⟨next, bind_eq_ok_iff.mpr ⟨_, named, inserted⟩, grown⟩

/-- Without an allocator there is room for so many entries with short keys. -/
theorem exists_indexAll_heapless {entries : List (RevokedKind × String)}
    (few : entries.length ≤ noAllocCapacity)
    (short : ∀ entry ∈ entries, (Text.utf8 (keyText entry.1 entry.2)).length ≤ noAllocKeyCap) :
    ∃ index, indexAll heapless entries = .ok index := by
  have grows (index : heapless.Index)
      (room : index.entries.length + entries.length ≤ noAllocCapacity) :
      ∃ out, entries.foldlM (insertEntry heapless) index = .ok out := by
    induction entries generalizing index with
    | nil => exact ⟨index, rfl⟩
    | cons entry entries ih =>
      obtain ⟨first, rest⟩ := forall_mem_cons.mp short
      rw [length_cons] at room few
      obtain ⟨next, inserted, grown⟩ := insertEntry_heapless index entry (by omega) first
      obtain ⟨out, indexed⟩ := ih (by omega) rest next (by omega)
      refine ⟨out, ?_⟩
      rw [foldlM_cons]
      exact bind_eq_ok_iff.mpr ⟨next, inserted, indexed⟩
  exact grows heapless.empty (by rwa [show heapless.empty.entries.length = 0 from rfl, zero_add])

/-! ## The gateway -/

section

variable {toolkit : Toolkit} {list : OfflineRevocationList} {issuer : Key} {now : String}

theorem load_eq_ok_iff (genuine : verifyOfflineRevocationListSignature toolkit list issuer = .ok true)
    {runtime : OfflineRevocationListRuntime} :
    load toolkit list issuer now = .ok runtime ↔
      ¬list.validUntil < now ∧ ¬now < list.issuedAt ∧
        runtime = { list, index := ofPairs (list.revoked.map fun e => (e.indexKey, e)) } := by
  have version : ¬list.listVersion ≠ .v1 := by
    cases list.listVersion
    simp
  rw [load, if_neg version, genuine]
  constructor
  · intro loaded
    obtain ⟨current, dating⟩ := ite_eq_ok loaded
    obtain ⟨dated, done⟩ := ite_eq_ok dating
    cases done
    exact ⟨current, dated, rfl⟩
  · rintro ⟨current, dated, rfl⟩
    rw [if_neg current, if_neg dated]
    rfl

theorem indexKey_eq (entry : RevokedEntry) : entry.indexKey = keyText entry.kind entry.id :=
  rfl

/-- The gateway finds exactly the entries of the list. -/
theorem isSome_isRevoked_iff (kind : RevokedKind) (id : String) :
    (OfflineRevocationListRuntime.isRevoked
      ⟨list, ofPairs (list.revoked.map fun e => (e.indexKey, e))⟩ kind id).isSome = true ↔
      (kind, id) ∈ (binaryForm list).entries := by
  have query : OfflineRevocationListRuntime.isRevoked
      ⟨list, ofPairs (list.revoked.map fun e => (e.indexKey, e))⟩ kind id =
        get? (keyText kind id) (ofPairs (list.revoked.map fun e => (e.indexKey, e))) :=
    rfl
  rw [query, Option.isSome_iff_exists, ← mem_keys_iff, mem_keys_ofPairs_iff,
    AssocMap.keys, map_map, binaryForm, mem_map, mem_map]
  refine exists_congr fun entry => and_congr_right fun _ => ?_
  rw [Function.comp_apply, indexKey_eq]
  constructor
  · intro same
    obtain ⟨kinds, ids⟩ := keyText_injective same
    rw [kinds, ids]
  · intro same
    cases same
    rfl

end

/-! ## Agreement -/

section

variable (backing : Backing) (device : Device) (toolkit : Toolkit) (list : OfflineRevocationList)
  (issuer : Key) (signature : Bytes) (now : String)

/-- Both sides take the list, or neither does, and then they answer alike. -/
def Agree : Prop :=
  ((∃ checker, new backing device ((binaryForm list).bytes ++ signature)
      issuer now = .ok checker) ↔
    ∃ runtime, load toolkit list issuer now = .ok runtime) ∧
  ∀ checker runtime,
    new backing device ((binaryForm list).bytes ++ signature) issuer now =
      .ok checker → load toolkit list issuer now = .ok runtime →
    ∀ kind id, checker.isRevoked kind id = (runtime.isRevoked kind id).isSome

variable {backing device toolkit list issuer signature now}

/-- The device takes a genuine list from its date on and before its last instant. -/
theorem exists_new_iff (fits : (binaryForm list).Fits) (length : signature.length = 64)
    (room : ∃ index, indexAll backing (binaryForm list).entries = .ok index)
    (verifies : device.Verifies issuer (device.sha256 (binaryForm list).bytes) signature) :
    (∃ checker, new backing device
      ((binaryForm list).bytes ++ signature) issuer now = .ok checker) ↔
      list.issuedAt ≤ now ∧ now < list.validUntil := by
  have layout : (binaryForm list).Layout signature ((binaryForm list).bytes ++ signature) :=
    ⟨fits, length, rfl⟩
  have times : (¬(binaryForm list).validUntil ≤ Text.utf8 now ∧
      ¬Text.utf8 now < (binaryForm list).issuedAt) ↔
        list.issuedAt ≤ now ∧ now < list.validUntil := by
    rw [List.not_le, binaryForm, Text.utf8_lt_utf8_iff, Text.utf8_lt_utf8_iff, not_lt, and_comm]
  rw [← times]
  constructor
  · rintro ⟨checker, accepted⟩
    obtain ⟨body, own, ownLayout, current, dated, -⟩ := new_eq_ok_iff.mp accepted
    rw [(layout.unique ownLayout).1]
    exact ⟨current, dated⟩
  · rintro ⟨current, dated⟩
    obtain ⟨index, indexed⟩ := room
    exact ⟨⟨index⟩, new_eq_ok_iff.mpr
      ⟨binaryForm list, signature, layout, current, dated, indexed, verifies⟩⟩

/-- The gateway takes it at its last instant, too. -/
theorem exists_load_iff (genuine : verifyOfflineRevocationListSignature toolkit list issuer = .ok true) :
    (∃ runtime, load toolkit list issuer now = .ok runtime) ↔
      list.issuedAt ≤ now ∧ now ≤ list.validUntil := by
  simp only [load_eq_ok_iff genuine]
  constructor
  · rintro ⟨runtime, current, dated, -⟩
    exact ⟨dated, current⟩
  · rintro ⟨dated, current⟩
    exact ⟨_, current, dated, rfl⟩

/-- Whenever both take the list, they answer alike. -/
theorem answers_agree (fits : (binaryForm list).Fits) (length : signature.length = 64)
    (genuine : verifyOfflineRevocationListSignature toolkit list issuer = .ok true)
    {checker : OfflineRevocationListChecker backing} {runtime : OfflineRevocationListRuntime}
    (accepted : new backing device ((binaryForm list).bytes ++ signature) issuer now = .ok checker)
    (loaded : load toolkit list issuer now = .ok runtime) (kind : RevokedKind) (id : String) :
    checker.isRevoked kind id = (runtime.isRevoked kind id).isSome := by
  obtain ⟨body, own, ownLayout, -, -, indexed, -⟩ := new_eq_ok_iff.mp accepted
  have layout : (binaryForm list).Layout signature ((binaryForm list).bytes ++ signature) :=
    ⟨fits, length, rfl⟩
  rw [← (layout.unique ownLayout).1] at indexed
  obtain ⟨-, -, rfl⟩ := (load_eq_ok_iff genuine).mp loaded
  rw [Bool.eq_iff_iff, isSome_isRevoked_iff, ← isRevoked_iff indexed]

/-- A device and its gateway agree on a list that is well formed, fits and is genuinely signed
in both forms, unless it is the list's last instant. -/
theorem device_agrees_iff (fits : (binaryForm list).Fits) (length : signature.length = 64)
    (room : ∃ index, indexAll backing (binaryForm list).entries = .ok index)
    (verifies : device.Verifies issuer (device.sha256 (binaryForm list).bytes) signature)
    (genuine : verifyOfflineRevocationListSignature toolkit list issuer = .ok true) :
    Agree backing device toolkit list issuer signature now ↔
      ¬(now = list.validUntil ∧ list.issuedAt ≤ now) := by
  refine (and_iff_left ?_).trans ?_
  · intro checker runtime accepted loaded
    exact answers_agree fits length genuine accepted loaded
  · rw [exists_new_iff fits length room verifies, exists_load_iff genuine]
    constructor
    · rintro same ⟨rfl, dated⟩
      exact lt_irrefl _ (same.mpr ⟨dated, le_rfl⟩).2
    · intro apart
      refine and_congr_right fun dated => ⟨le_of_lt, fun current => ?_⟩
      exact lt_of_le_of_ne current fun last => apart ⟨last, dated⟩

end

/-! ## The last instant -/

/-- A list with one entry. -/
def centuryList : OfflineRevocationList :=
  Issuers.signOfflineRevocationList Signing.transparent
    { listVersion := .v1
      trustDomain := "example.com"
      issuedAt := "2026-01-01T00:00:00Z"
      validUntil := "2099-01-01T00:00:00Z"
      issuer := "tf:actor:authority:example.com/root"
      revoked := [⟨.key, "tf:key:1234", none, none⟩]
      signature := ⟨⟨"ed25519", "tf:actor:authority:example.com/root", ""⟩, none, none, none⟩ }
    (Key.filled [7])

theorem binaryForm_centuryList : binaryForm centuryList = oneKey :=
  rfl

theorem fits_centuryList : (binaryForm centuryList).Fits :=
  layout_oneKey.fits

theorem verify_centuryList :
    verifyOfflineRevocationListSignature Signing.transparent centuryList (Key.filled [7]) = .ok true :=
  Issuers.verify_signOfflineRevocationList Signing.transparent _ (Key.filled [7])

theorem verifies_centuryList : mirror.Verifies (Key.filled [7])
    (mirror.sha256 (binaryForm centuryList).bytes) (oneKeySignature (Key.filled [7])) := by
  rw [binaryForm_centuryList]
  exact ⟨by decide +kernel, by decide +kernel, by decide +kernel⟩

theorem device_agrees_iff_within : Agree heapless mirror Signing.transparent centuryList (Key.filled [7])
    (oneKeySignature (Key.filled [7])) "2026-04-25T00:00:00Z" :=
  (device_agrees_iff fits_centuryList layout_oneKey.length
    (exists_indexAll_heapless (by decide) (by decide +kernel)) verifies_centuryList
    verify_centuryList).mpr (by decide)

/-- When the list's validity ends, the device refuses it and the gateway takes it. -/
theorem last_instant_disagrees :
    (¬∃ checker, new alloc mirror
        ((binaryForm centuryList).bytes ++ oneKeySignature (Key.filled [7])) (Key.filled [7])
        "2099-01-01T00:00:00Z" = .ok checker) ∧
      ∃ runtime, load Signing.transparent centuryList (Key.filled [7]) "2099-01-01T00:00:00Z" =
        .ok runtime := by
  constructor
  · rw [exists_new_iff fits_centuryList layout_oneKey.length (exists_indexAll_alloc _)
      verifies_centuryList]
    decide
  · exact Issuers.exists_load Signing.transparent (by decide) (by decide) verify_centuryList

end TrustForge.NoStd
