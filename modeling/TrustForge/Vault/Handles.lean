import TrustForge.Foundation.Handles
import TrustForge.Vault.File

/-!
# Handles on a vault

Every call that changes a vault writes the file as its handle remembers it.  A handle is
*intact* if its key is the one for the passphrase and all its entries were sealed under it;
new vaults are, and calls keep it so.  Where several handles are open on one file, a handle
that is opened later has what the last of them to write had.
-/

namespace TrustForge.Vault

open Handles Option Function
open Encoding (standard)
open Session (Key Nonce)

/-! ## Calls -/

section

variable (platform : Platform) (call : Call) (vault : Vault)

@[simp] theorem wrapKey_update : (call.update platform vault).wrapKey = vault.wrapKey := by
  cases call <;> rfl

/-- The checks on opening do not look at the entries. -/
@[simp] theorem unlock_update (passphrase : String) :
    unlock platform (call.update platform vault).data passphrase =
      unlock platform vault.data passphrase := by
  cases call <;> rfl

theorem lookup_update :
    lookup (call.update platform vault).data.entries =
      Function.update (lookup vault.data.entries) call.id (call.sealed platform vault.wrapKey) := by
  cases call with
  | store entry nonce =>
    exact lookup_upsert (sealEntry platform vault.wrapKey entry nonce) vault.data.entries
  | remove id => exact lookup_filter vault.data.entries id

/-- What a handle reads, by identifier. -/
def contents (id : String) : Option VaultEntryPlain :=
  (vault.read platform id).toOption

theorem contents_eq (id : String) :
    vault.contents platform id =
      (lookup vault.data.entries id).bind fun entry =>
        (openEntry platform vault.wrapKey entry).toOption := by
  rw [contents, read]
  cases lookup vault.data.entries id <;> rfl

/-- A call does to the entries that are read what it means. -/
theorem contents_update :
    (call.update platform vault).contents platform = call.apply (vault.contents platform) := by
  funext id
  rw [contents_eq, lookup_update, wrapKey_update, Call.apply]
  by_cases own : id = call.id
  · subst own
    rw [update_self, update_self]
    cases call with
    | store entry nonce =>
      simp [Call.sealed, Call.plain, openEntry_sealEntry, Except.toOption]
    | remove id => rfl
  · rw [update_of_ne own, update_of_ne own, contents_eq]

/-- Every call writes all that its handle remembers, or changes nothing. -/
theorem snapshots :
    Handles.Snapshots (Call.perform platform) (Call.update platform) (Call.persists platform)
      (fun file => file) (persist platform) where
  isolated call vault file := by
    cases call <;> rfl
  writes call vault file wrote := by
    cases call with
    | store entry nonce => rfl
    | remove id => exact if_pos wrote
  keeps call vault file silent := by
    cases call with
    | store entry nonce => contradiction
    | remove id => exact if_neg (Bool.eq_false_iff.mp silent)
  quiet call vault silent := by
    cases call with
    | store entry nonce => contradiction
    | remove id =>
      have kept : (vault.data.entries.filter fun entry => entry.id ≠ id).length =
          vault.data.entries.length := by
        simpa [Call.persists, remove, withEntries] using silent
      have whole := (List.filter_sublist (l := vault.data.entries)).eq_of_length kept
      have same : (Call.remove id).update platform vault = vault := by
        change vault.withEntries (vault.data.entries.filter fun entry => entry.id ≠ id) = vault
        rw [whole, withEntries]
      rw [same]

end

/-! ## Vaults and their passphrase -/

/-- A handle whose entries were all sealed under its key, one for each identifier, and whose
key is the one for this passphrase. -/
structure Intact (platform : Platform) (passphrase : String) (vault : Vault) : Prop where
  unlocks : unlock platform vault.data passphrase = .ok vault.wrapKey
  distinct : (vault.data.entries.map OnDiskEntry.id).Nodup
  genuine : ∀ entry ∈ vault.data.entries, ∃ plain nonce,
    entry = sealEntry platform vault.wrapKey plain nonce

/-- The file of a vault with this passphrase. -/
def IsVault (platform : Platform) (passphrase : String) (file : Option platform.Text) : Prop :=
  ∃ vault, Intact platform passphrase vault ∧ file = vault.persist platform

section

variable {platform : Platform} {passphrase : String} {vault : Vault}

theorem openAtPath_persist (platform : Platform) (passphrase : String) (vault : Vault) :
    openAtPath platform (vault.persist platform) passphrase =
      (unlock platform vault.data passphrase).map fun wrapKey => ⟨wrapKey, vault.data⟩ := by
  simp only [persist, openAtPath, platform.fromStr_toStringPretty]
  cases unlock platform vault.data passphrase <;> rfl

/-- A vault opens with its passphrase. -/
theorem Intact.openAtPath_eq (intact : Intact platform passphrase vault) :
    openAtPath platform (vault.persist platform) passphrase = .ok vault := by
  rw [openAtPath_persist, intact.unlocks]
  rfl

/-- Opening the file of a vault with its passphrase gives back the vault. -/
theorem intact_of_openAtPath {file : Option platform.Text}
    (isVault : IsVault platform passphrase file)
    (opened : openAtPath platform file passphrase = .ok vault) :
    Intact platform passphrase vault := by
  obtain ⟨written, intact, rfl⟩ := isVault
  rw [intact.openAtPath_eq] at opened
  cases opened
  exact intact

/-- A new vault has no entries. -/
theorem intact_of_createAtPath {file written : Option platform.Text} {opts : VaultCreateOptions}
    {drawn : Vector UInt8 16}
    (created : createAtPath platform file passphrase opts drawn = .ok (vault, written)) :
    Intact platform passphrase vault ∧ written = vault.persist platform := by
  rw [createAtPath] at created
  split at created
  · contradiction
  · obtain ⟨wrapKey, derived, rest⟩ := Result.bind_eq_ok created
    cases rest
    refine ⟨⟨?_, List.nodup_nil, fun entry member => nomatch member⟩, rfl⟩
    simp [unlock, standard.decode_encode, derived]

theorem Intact.update (intact : Intact platform passphrase vault) (call : Call) :
    Intact platform passphrase (call.update platform vault) := by
  refine ⟨?_, ?_, ?_⟩
  · rw [unlock_update, wrapKey_update, intact.unlocks]
  · cases call with
    | store entry nonce => exact distinct_upsert _ intact.distinct
    | remove id => exact intact.distinct.sublist (List.filter_sublist.map _)
  · intro entry member
    rw [wrapKey_update]
    cases call with
    | store stored nonce =>
      rcases mem_upsert member with rfl | earlier
      · exact ⟨stored, nonce, rfl⟩
      · exact intact.genuine entry earlier
    | remove id => exact intact.genuine entry (List.mem_of_mem_filter member)

theorem Intact.remember (intact : Intact platform passphrase vault) (calls : List Call) :
    Intact platform passphrase (remember (Call.update platform) vault calls) := by
  refine remember_invariant ?_ (fun call _ => trivial) intact
  intro call vault _ intact
  exact intact.update call

theorem contents_remember (platform : Platform) (vault : Vault) (calls : List Call) :
    (remember (Call.update platform) vault calls).contents platform =
      remember Call.apply (vault.contents platform) calls :=
  remember_view (contents platform) (contents_update platform) vault calls

end

/-- `VaultEntryPlain` as `list` shows it. -/
def summary (entry : VaultEntryPlain) : VaultEntrySummary :=
  ⟨entry.id, entry.purpose, entry.algorithm, entry.createdAt⟩

/-- A handle that reads and lists exactly the entries of a map. -/
structure Holds (platform : Platform) (vault : Vault)
    (map : String → Option VaultEntryPlain) : Prop where
  reads : ∀ id, (vault.read platform id).toOption = map id
  lists : ∀ shown, shown ∈ vault.list ↔
    ∃ entry, map shown.id = some entry ∧ summary entry = shown
  once : (vault.list.map VaultEntrySummary.id).Nodup

/-- The identifier of an entry is the one it is found under. -/
theorem Intact.contents_iff {platform : Platform} {passphrase : String} {vault : Vault}
    (intact : Intact platform passphrase vault) {id : String} {plain : VaultEntryPlain} :
    vault.contents platform id = some plain ↔
      plain.id = id ∧ ∃ nonce, sealEntry platform vault.wrapKey plain nonce ∈ vault.data.entries := by
  rw [contents_eq, bind_eq_some_iff]
  constructor
  · rintro ⟨entry, found, opened⟩
    obtain ⟨member, rfl⟩ := (lookup_eq_some_iff intact.distinct).mp found
    obtain ⟨sealed, nonce, rfl⟩ := intact.genuine entry member
    rw [openEntry_sealEntry] at opened
    cases opened
    exact ⟨rfl, nonce, member⟩
  · rintro ⟨rfl, nonce, member⟩
    refine ⟨_, (lookup_eq_some_iff intact.distinct).mpr ⟨member, rfl⟩, ?_⟩
    rw [openEntry_sealEntry]
    rfl

/-- An intact vault lists what it reads. -/
theorem Intact.holds {platform : Platform} {passphrase : String} {vault : Vault}
    (intact : Intact platform passphrase vault) :
    vault.Holds platform (vault.contents platform) where
  reads _ := rfl
  lists shown := by
    constructor
    · intro listed
      obtain ⟨entry, member, rfl⟩ := List.mem_map.mp listed
      obtain ⟨plain, nonce, rfl⟩ := intact.genuine entry member
      exact ⟨plain, intact.contents_iff.mpr ⟨rfl, nonce, member⟩, rfl⟩
    · rintro ⟨plain, read, rfl⟩
      obtain ⟨-, nonce, member⟩ := intact.contents_iff.mp read
      exact List.mem_map.mpr ⟨_, member, rfl⟩
  once := by
    rw [list, List.map_map]
    exact intact.distinct

/-! ## Several handles -/

/-- Files that are what was printed, and a derivation that hides nothing. -/
def transparent : Platform where
  toPlatform := Session.transparent
  Text := OnDiskVault
  toStringPretty := fun data => data
  fromStr := .ok
  argon2id := fun password _ _ _ _ => .ok (.filled password)
  path := "vault.json"
  readError := "No such file or directory (os error 2)"
  fromStr_toStringPretty := fun _ => rfl

/-- A new vault, with a salt of zeros. -/
def newVault (passphrase : String) : Vault where
  wrapKey := .filled (Text.utf8 passphrase)
  data :=
    { vaultVersion := "1"
      kdf := ⟨"argon2id", standard.encode (List.replicate 16 0), 19456, 2, 1⟩
      cipher := ⟨"chacha20poly1305"⟩
      entries := [] }

theorem intact_newVault (passphrase : String) :
    Intact transparent passphrase (newVault passphrase) := by
  have created : createAtPath transparent none passphrase {} (Vector.replicate 16 0) =
      .ok (newVault passphrase, (newVault passphrase).persist transparent) := rfl
  exact (intact_of_createAtPath created).1

/-- A signing key under an identifier. -/
def signingKey (id : String) (keyBytes : Bytes) : VaultEntryPlain where
  id := id
  purpose := "signing"
  algorithm := "ed25519"
  keyBytes := keyBytes
  createdAt := "2026-04-24T12:00:00Z"

/-- Any number of handles on one file, each opened with the passphrase of the vault when the
file was as in `origin`.  A handle opened after their calls holds what the last handle to write
made of the entries that it had found: its own calls, and no others. -/
theorem reopened_holds_last_writer {ι : Type} [DecidableEq ι] (platform : Platform)
    (passphrase : String) (world : Handles.World ι Vault (Option platform.Text))
    (origin : ι → Option platform.Text)
    (isVault : ∀ handle, IsVault platform passphrase (origin handle))
    (opened : ∀ handle, openAtPath platform (origin handle) passphrase = .ok (world.memory handle))
    (start : Vault) (current : IsVault platform passphrase world.files)
    (started : openAtPath platform world.files passphrase = .ok start) (calls : List (ι × Call)) :
    ∃ reopened,
      openAtPath platform (world.run (Call.perform platform) calls).files passphrase =
        .ok reopened ∧
      reopened.Holds platform
        (((lastWriter (Call.update platform) (Call.persists platform) world.memory
          calls).map fun handle => remember Call.apply ((world.memory handle).contents platform)
            (callsOf handle calls)).getD (start.contents platform)) := by
  have written := view_run (snapshots platform) world calls
  cases writer : lastWriter (Call.update platform) (Call.persists platform) world.memory
      calls with
  | none =>
    have unchanged : (world.run (Call.perform platform) calls).files = world.files := by
      simpa [writer] using written
    exact ⟨start, unchanged ▸ started, (intact_of_openAtPath current started).holds⟩
  | some handle =>
    have intact := (intact_of_openAtPath (isVault handle) (opened handle)).remember
      (callsOf handle calls)
    rw [writer, map_some, getD_some] at written
    refine ⟨_, written ▸ intact.openAtPath_eq, ?_⟩
    rw [map_some, getD_some, ← contents_remember]
    exact intact.holds

/-- Two handles on a new vault. -/
def twoHandles : Handles.World Bool Vault (Option transparent.Text) where
  memory := fun _ => newVault "secret-one"
  files := (newVault "secret-one").persist transparent

/-- One stores a key, then the other. -/
def storeEach : List (Bool × Call) :=
  [(false, .store (signingKey "a" [1, 2, 3]) (.filled 0)),
    (true, .store (signingKey "b" [4, 5, 6]) (.filled 0))]

theorem second_handle_writes_last :
    ∃ reopened,
      openAtPath transparent (twoHandles.run (Call.perform transparent) storeEach).files
        "secret-one" = .ok reopened ∧
      reopened.Holds transparent
        (remember Call.apply ((newVault "secret-one").contents transparent)
          [.store (signingKey "b" [4, 5, 6]) (.filled 0)]) :=
  have isVault : IsVault transparent "secret-one" twoHandles.files :=
    ⟨newVault "secret-one", intact_newVault "secret-one", rfl⟩
  have opened := (intact_newVault "secret-one").openAtPath_eq
  reopened_holds_last_writer transparent "secret-one" twoHandles (fun _ => twoHandles.files)
    (fun _ => isVault) (fun _ => opened) (newVault "secret-one") isVault opened storeEach

/-- The key that the first handle stored is gone. -/
theorem first_store_is_lost :
    (∀ handle, openAtPath transparent twoHandles.files "secret-one" =
      .ok (twoHandles.memory handle)) ∧
    ∃ reopened,
      openAtPath transparent (twoHandles.run (Call.perform transparent) storeEach).files
        "secret-one" = .ok reopened ∧
      reopened.read transparent "a" = .error (.entryNotFound "a") ∧
      remember Call.apply ((newVault "secret-one").contents transparent)
        (storeEach.map Prod.snd) "a" = some (signingKey "a" [1, 2, 3]) := by
  refine ⟨fun _ => (intact_newVault "secret-one").openAtPath_eq, ?_⟩
  have intact := (intact_newVault "secret-one").remember
    [.store (signingKey "b" [4, 5, 6]) (.filled 0)]
  exact ⟨_, intact.openAtPath_eq, rfl, rfl⟩

end TrustForge.Vault
