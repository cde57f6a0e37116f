import TrustForge.Vault.Handles

/-!
# Passphrases of a vault

Opening a vault derives a key and checks nothing with it.  A handle that was opened with
another passphrase changes the file like any other, and what it stores is sealed under its
own key.
-/

namespace TrustForge.Vault

open Handles Except List
open Encoding (standard)
open Session (Key)

variable (platform : Platform) (vault : Vault)

/-- The calls of one handle, in order. -/
def performAll (file : Option platform.Text) (calls : List Call) : Vault × Option platform.Text :=
  calls.foldl (fun current call => call.perform platform current) (vault, file)

variable (calls : List Call)

/-- A handle that is alone with its file keeps the file as it remembers it. -/
theorem performAll_persist :
    performAll platform vault (vault.persist platform) calls =
      (remember (Call.update platform) vault calls,
        (remember (Call.update platform) vault calls).persist platform) := by
  induction calls generalizing vault with
  | nil => rfl
  | cons call calls ih =>
    have memory := (snapshots platform).isolated call vault (vault.persist platform)
    have file : (call.perform platform (vault, vault.persist platform)).2 =
        (call.update platform vault).persist platform := by
      cases wrote : call.persists platform vault with
      | true => exact (snapshots platform).writes call vault _ wrote
      | false =>
        rw [(snapshots platform).quiet call vault wrote]
        exact (snapshots platform).keeps call vault _ wrote
    have both : call.perform platform (vault, vault.persist platform) =
        (call.update platform vault, (call.update platform vault).persist platform) :=
      Prod.ext memory file
    rw [performAll, foldl_cons, both]
    exact ih (call.update platform vault)

theorem wrapKey_remember :
    (remember (Call.update platform) vault calls).wrapKey = vault.wrapKey :=
  remember_unchanged wrapKey (wrapKey_update platform) vault calls

theorem unlock_remember (passphrase : String) :
    unlock platform (remember (Call.update platform) vault calls).data passphrase =
      unlock platform vault.data passphrase :=
  remember_unchanged (fun vault => unlock platform vault.data passphrase)
    (fun call vault => unlock_update platform call vault passphrase) vault calls

/-- The entry under an identifier is the one that the last call about it left. -/
theorem lookup_remember (id : String) :
    lookup (remember (Call.update platform) vault calls).data.entries id =
      ((lastAbout Call.id id calls).map (Call.sealed platform vault.wrapKey)).getD
        (lookup vault.data.entries id) := by
  rw [← remember_update]
  induction calls generalizing vault with
  | nil => rfl
  | cons call calls ih =>
    refine (ih (call.update platform vault)).trans ?_
    rw [lookup_update, wrapKey_update]
    rfl

/-- The key of a vault is that of its salt and its parameters. -/
theorem exists_argon2id_of_unlock {platform : Platform} {data : OnDiskVault} {passphrase : String}
    {wrapKey : Key} (unlocked : unlock platform data passphrase = .ok wrapKey) :
    ∃ salt, standard.decode (Text.utf8 data.kdf.salt) = .ok salt ∧
      platform.argon2id (Text.utf8 passphrase) salt data.kdf.mCost data.kdf.tCost
        data.kdf.pCost = .ok wrapKey := by
  rw [unlock] at unlocked
  split at unlocked
  · contradiction
  split at unlocked
  · contradiction
  cases decoded : standard.decode (Text.utf8 data.kdf.salt) with
  | error e =>
    rw [decoded] at unlocked
    contradiction
  | ok salt =>
    simp only [decoded] at unlocked
    split at unlocked
    · contradiction
    · exact ⟨salt, rfl, Result.mapError_eq_ok_iff.mp unlocked⟩

/-- Passphrases that lead to the same key of a vault. -/
theorem passphrase_eq_of_unlock {platform : Platform} {data : OnDiskVault}
    {passphrase original : String} {wrapKey : Key}
    (injective : ∀ salt mCost tCost pCost wrapKey,
      platform.argon2id (Text.utf8 passphrase) salt mCost tCost pCost = .ok wrapKey →
      platform.argon2id (Text.utf8 original) salt mCost tCost pCost = .ok wrapKey →
      passphrase = original)
    (unlocked : unlock platform data passphrase = .ok wrapKey)
    (unlocks : unlock platform data original = .ok wrapKey) : passphrase = original := by
  obtain ⟨salt, decoded, derived⟩ := exists_argon2id_of_unlock unlocked
  obtain ⟨again, decoded', derived'⟩ := exists_argon2id_of_unlock unlocks
  rw [decoded] at decoded'
  cases decoded'
  exact injective _ _ _ _ _ derived derived'

/-- Every entry of the vault can be read. -/
def AllReadable : Prop :=
  ∀ shown ∈ vault.list, ∃ entry, vault.read platform shown.id = .ok entry

theorem allReadable_iff :
    vault.AllReadable platform ↔
      ∀ id entry, lookup vault.data.entries id = some entry →
        ∃ plain, openEntry platform vault.wrapKey entry = .ok plain := by
  constructor
  · intro readable id entry found
    have listed := mem_map_of_mem (f := fun entry : OnDiskEntry =>
      (⟨entry.id, entry.purpose, entry.algorithm, entry.createdAt⟩ : VaultEntrySummary))
      (mem_of_find?_eq_some found)
    have same : entry.id = id := by simpa using List.find?_some found
    have opened := readable _ listed
    simp only [read, same, found] at opened
    exact opened
  · intro readable shown listed
    obtain ⟨entry, member, rfl⟩ := mem_map.mp listed
    cases found : lookup vault.data.entries entry.id with
    | none => exact absurd (List.find?_eq_none.mp found entry member) (by simp)
    | some first =>
      simp only [read, found]
      exact readable entry.id first found

theorem Intact.allReadable {platform : Platform} {passphrase : String} {vault : Vault}
    (intact : Intact platform passphrase vault) : vault.AllReadable platform := by
  refine (allReadable_iff platform vault).mpr fun id entry found => ?_
  obtain ⟨plain, nonce, rfl⟩ := intact.genuine entry (mem_of_find?_eq_some found)
  exact ⟨plain, openEntry_sealEntry platform vault.wrapKey plain nonce⟩

/-- The entries that a vault was opened with stay readable, those that were stored under a
key that is refused do not. -/
theorem allReadable_remember_iff {platform : Platform} {passphrase : String} {vault : Vault}
    (intact : Intact platform passphrase vault) (wrapKey : Key) (calls : List Call)
    (refused : ∀ entry nonce, Call.store entry nonce ∈ calls →
      openEntry platform vault.wrapKey (sealEntry platform wrapKey entry nonce) = .error .aead) :
    AllReadable platform ⟨vault.wrapKey,
        (remember (Call.update platform) ⟨wrapKey, vault.data⟩ calls).data⟩ ↔
      ∀ id entry nonce, lastAbout Call.id id calls ≠ some (.store entry nonce) := by
  rw [allReadable_iff]
  simp only [lookup_remember]
  constructor
  · intro readable id entry nonce last
    obtain ⟨plain, opened⟩ := readable id (sealEntry platform wrapKey entry nonce)
      (by rw [last]; rfl)
    rw [refused entry nonce (lastAbout_eq_some_mem last).1] at opened
    contradiction
  · intro removed id entry found
    cases last : lastAbout Call.id id calls with
    | none =>
      rw [last] at found
      exact (allReadable_iff platform vault).mp intact.allReadable id entry found
    | some call =>
      cases call with
      | store stored nonce => exact absurd last (removed id stored nonce)
      | remove id =>
        rw [last] at found
        contradiction

/-- Opening does not check the passphrase.  After any calls on a handle that was opened with
`passphrase`, every entry of the file can be read with the vault's own passphrase exactly if
the two agree, or no identifier was stored to without being removed again. -/
theorem allReadable_performAll_iff {original passphrase : String}
    {vault handle : Vault} (intact : Intact platform original vault)
    (opened : openAtPath platform (vault.persist platform) passphrase = .ok handle)
    (calls : List Call)
    (injective : ∀ salt mCost tCost pCost wrapKey,
      platform.argon2id (Text.utf8 passphrase) salt mCost tCost pCost = .ok wrapKey →
      platform.argon2id (Text.utf8 original) salt mCost tCost pCost = .ok wrapKey →
      passphrase = original)
    (ideal : handle.wrapKey ≠ vault.wrapKey → ∀ entry nonce, Call.store entry nonce ∈ calls →
      platform.chacha20poly1305Decrypt vault.wrapKey nonce.bytes
        (aadFor platform entry.id entry.purpose entry.algorithm)
        (platform.chacha20poly1305Encrypt handle.wrapKey nonce.bytes
          (aadFor platform entry.id entry.purpose entry.algorithm) entry.keyBytes) = none) :
    (∃ reopened,
      openAtPath platform
        (performAll platform handle (vault.persist platform) calls).2 original = .ok reopened ∧
      reopened.AllReadable platform) ↔
      passphrase = original ∨
        ∀ id entry nonce, lastAbout Call.id id calls ≠ some (.store entry nonce) := by
  rw [openAtPath_persist] at opened
  cases unlocked : unlock platform vault.data passphrase with
  | error e =>
    rw [unlocked] at opened
    contradiction
  | ok wrapKey =>
    rw [unlocked] at opened
    cases opened
    have unlocks := unlock_remember platform ⟨wrapKey, vault.data⟩ calls original
    rw [intact.unlocks] at unlocks
    rw [show vault.persist platform = persist platform ⟨wrapKey, vault.data⟩ from rfl,
      performAll_persist, openAtPath_persist, unlocks]
    simp only [Except.map, ok.injEq, exists_eq_left']
    by_cases agree : wrapKey = vault.wrapKey
    · subst agree
      have same := passphrase_eq_of_unlock injective unlocked intact.unlocks
      have readable := (intact.remember calls).allReadable
      rw [allReadable_iff, wrapKey_remember] at readable
      exact iff_of_true ((allReadable_iff _ _).mpr readable) (.inl same)
    · have refused := fun entry nonce member =>
        openEntry_sealEntry_refused (ideal agree entry nonce member)
      have differ : passphrase ≠ original := by
        rintro rfl
        rw [intact.unlocks] at unlocked
        exact agree (ok.inj unlocked).symm
      rw [allReadable_remember_iff intact wrapKey calls refused, or_iff_right differ]

theorem newVault_keys_differ :
    (newVault "secret-two").wrapKey.bytes.take 16 ≠
      (newVault "secret-one").wrapKey.bytes.take 16 := by
  decide +kernel

theorem store_with_other_passphrase :
    (∃ reopened,
      openAtPath transparent
        (performAll transparent (newVault "secret-two") ((newVault "secret-one").persist transparent)
          [.store (signingKey "a" [1, 2, 3]) (.filled 0)]).2 "secret-one" = .ok reopened ∧
      reopened.AllReadable transparent) ↔
      "secret-two" = "secret-one" ∨
        ∀ id entry nonce,
          lastAbout Call.id id [.store (signingKey "a" [1, 2, 3]) (.filled 0)] ≠
            some (.store entry nonce) :=
  allReadable_performAll_iff transparent (intact_newVault "secret-one") rfl
    [.store (signingKey "a" [1, 2, 3]) (.filled 0)]
    (fun _ _ _ _ _ two one =>
      absurd (congrArg (fun key => key.bytes.take 16) (ok.inj (two.trans one.symm)))
        newVault_keys_differ)
    (fun _ entry _ _ => Session.open_sealTransparent_of_ne newVault_keys_differ entry.keyBytes)

/-- A key stored with another passphrase is listed, and cannot be read with the vault's own. -/
theorem stored_entry_unreadable :
    openAtPath transparent ((newVault "secret-one").persist transparent) "secret-two" =
      .ok (newVault "secret-two") ∧
    ∃ reopened,
      openAtPath transparent
        (performAll transparent (newVault "secret-two") ((newVault "secret-one").persist transparent)
          [.store (signingKey "a" [1, 2, 3]) (.filled 0)]).2 "secret-one" = .ok reopened ∧
      reopened.list = [summary (signingKey "a" [1, 2, 3])] ∧
      reopened.read transparent "a" = .error .aead := by
  have refused : openEntry transparent (newVault "secret-one").wrapKey
      (sealEntry transparent (newVault "secret-two").wrapKey (signingKey "a" [1, 2, 3])
        (.filled 0)) = .error .aead :=
    openEntry_sealEntry_refused
      (Session.open_sealTransparent_of_ne newVault_keys_differ [1, 2, 3])
  exact ⟨rfl, ⟨(newVault "secret-one").wrapKey, _⟩, rfl, rfl, refused⟩

end TrustForge.Vault
