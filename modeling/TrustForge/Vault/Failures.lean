import TrustForge.Vault.Handles

/-!
# Failing writes of a vault

`store` and `remove` change the entries of their handle first and write the file afterwards.
A write goes to a temporary file, which is renamed at the end, so that the file of the vault is
the old one if any step fails.  The handle keeps the change.
-/

namespace TrustForge.Vault

open Session (Nonce)

/-! ## Calls that may fail -/

/-- The calls of the file system in `persist`.  All but the last are about a temporary file. -/
inductive FileCall where
  | openTmp
  | writeAll
  | syncAll
  | rename

/-- `persist`, with the text of the error of each call that fails. -/
def tryPersist (platform : Platform) (fault : FileCall → Option String) (vault : Vault)
    (file : Option platform.Text) : Except VaultError Unit × Option platform.Text :=
  match [FileCall.openTmp, .writeAll, .syncAll, .rename].findSome? fault with
  | some e => (.error (.io e), file)
  | none => (.ok (), vault.persist platform)

namespace Call

/-- `Vault::store` and `Vault::remove`, up to what `remove` returns. -/
def attempt (platform : Platform) (fault : FileCall → Option String) :
    Call → Vault × Option platform.Text → Except VaultError Unit × Vault × Option platform.Text
  | .store entry nonce, (vault, file) =>
    let next := (vault.store platform entry nonce).1
    let persisted := next.tryPersist platform fault file
    (persisted.1, next, persisted.2)
  | .remove id, (vault, file) =>
    let (changed, next, _) := vault.remove platform file id
    if changed then
      let persisted := next.tryPersist platform fault file
      (persisted.1, next, persisted.2)
    else (.ok (), next, file)

section

variable {platform : Platform} {fault : FileCall → Option String} {call : Call} {vault : Vault}
  {file : Option platform.Text}

/-- Where nothing fails a call is what it was. -/
theorem attempt_of_noFault (noFault : ∀ step, fault step = none) :
    call.attempt platform fault (vault, file) = (.ok (), call.perform platform (vault, file)) := by
  cases call with
  | store entry nonce => simp [attempt, tryPersist, noFault, perform, Vault.store]
  | remove id =>
    simp only [attempt, tryPersist, noFault, perform, Vault.remove, List.findSome?_cons]
    split <;> rfl

/-- A call that fails has changed the handle and not the file. -/
theorem attempt_failed {e : VaultError}
    (failed : (call.attempt platform fault (vault, file)).1 = .error e) :
    (call.attempt platform fault (vault, file)).2 = (call.update platform vault, file) ∧
      call.persists platform vault = true := by
  have kept (next : Vault) (failed : (next.tryPersist platform fault file).1 = .error e) :
      (next.tryPersist platform fault file).2 = file := by
    unfold tryPersist at failed ⊢
    split at failed
    · rfl
    · contradiction
  cases call with
  | store entry nonce => exact ⟨Prod.ext rfl (kept _ failed), rfl⟩
  | remove id =>
    simp only [attempt] at failed ⊢
    split at failed
    · rename_i changed
      rw [if_pos changed]
      exact ⟨Prod.ext rfl (kept _ failed), changed⟩
    · contradiction

end

end Call

/-! ## What a handle shows -/

theorem openEntry_summary {platform : Platform} {wrapKey : Session.Key} {entry : OnDiskEntry}
    {plain : VaultEntryPlain} (opened : openEntry platform wrapKey entry = .ok plain) :
    summary plain = ⟨entry.id, entry.purpose, entry.algorithm, entry.createdAt⟩ := by
  unfold openEntry at opened
  split at opened
  · contradiction
  · obtain ⟨-, opened⟩ := Result.ite_eq_ok opened
    split at opened
    · contradiction
    · dsimp only at opened
      split at opened
      · contradiction
      · cases opened
        rfl

/-- An entry that takes the place of one with the same summary. -/
theorem map_upsert {γ : Type} {f : OnDiskEntry → γ} {entry old : OnDiskEntry}
    {entries : List OnDiskEntry} (found : lookup entries entry.id = some old)
    (same : f entry = f old) : (upsert entry entries).map f = entries.map f := by
  induction entries with
  | nil => contradiction
  | cons existing rest ih =>
    by_cases own : existing.id = entry.id
    · rw [lookup, List.find?_cons_of_pos (by simpa using own)] at found
      cases found
      simp [upsert, own, same]
    · rw [lookup, List.find?_cons_of_neg (by simpa using own)] at found
      simp [upsert, own, ih found]

variable (platform : Platform)

theorem read_update_of_ne (call : Call) (vault : Vault) {id : String}
    (other : id ≠ call.id) : (call.update platform vault).read platform id =
      vault.read platform id := by
  rw [read, lookup_update, Function.update_of_ne other, wrapKey_update, read]

theorem read_update_store (entry : VaultEntryPlain) (nonce : Nonce) (vault : Vault) :
    ((Call.store entry nonce).update platform vault).read platform entry.id = .ok entry := by
  rw [read, lookup_update, wrapKey_update]
  simp [Call.id, Call.sealed, openEntry_sealEntry]

/-- Two handles that list and read the same. -/
def SameView (vault other : Vault) : Prop :=
  vault.list = other.list ∧ ∀ id, vault.read platform id = other.read platform id

theorem sameView_store_iff (vault : Vault) (entry : VaultEntryPlain) (nonce : Nonce) :
    SameView platform ((Call.store entry nonce).update platform vault) vault ↔
      vault.read platform entry.id = .ok entry := by
  constructor
  · rintro ⟨-, reads⟩
    rw [← reads, read_update_store]
  · intro present
    refine ⟨?_, fun id => ?_⟩
    · rw [read] at present
      split at present
      · contradiction
      · rename_i old found
        have same := openEntry_summary present
        exact map_upsert found same
    · by_cases own : id = entry.id
      · rw [own, read_update_store, present]
      · exact read_update_of_ne platform (.store entry nonce) vault own

/-- A `store` or `remove` that fails leaves what a fresh handle finds.  Its own handle shows what
it did before exactly if the call was to store an entry that it had already. -/
theorem failed_write_unchanged_iff {platform : Platform} {fault : FileCall → Option String}
    {call : Call} {vault : Vault} {file : Option platform.Text} {e : VaultError}
    (failed : (call.attempt platform fault (vault, file)).1 = .error e) :
    (∀ passphrase, openAtPath platform (call.attempt platform fault (vault, file)).2.2 passphrase =
      openAtPath platform file passphrase) ∧
    (SameView platform (call.attempt platform fault (vault, file)).2.1 vault ↔
      ∃ entry nonce, call = .store entry nonce ∧ vault.read platform entry.id = .ok entry) := by
  obtain ⟨left, persists⟩ := Call.attempt_failed failed
  rw [left]
  refine ⟨fun _ => rfl, ?_⟩
  cases call with
  | store entry nonce => simp [sameView_store_iff]
  | remove id =>
    refine iff_of_false (fun same => ?_) (by simp)
    have shorter : ((Call.remove id).update platform vault).data.entries.length ≠
        vault.data.entries.length := of_decide_eq_true persists
    have lengths := congrArg List.length same.1
    simp only [list, List.length_map] at lengths
    exact shorter lengths

/-- Nothing can be renamed. -/
def renameFails : FileCall → Option String
  | .rename => some "Permission denied (os error 13)"
  | _ => none

/-- Storing an entry again. -/
theorem failed_store_again :
    let entry := signingKey "a" [1, 2, 3]
    let vault := (Call.store entry (.filled 0)).update transparent (newVault "secret-one")
    SameView transparent ((Call.store entry (.filled 1)).attempt transparent renameFails
      (vault, vault.persist transparent)).2.1 vault := by
  intro entry vault
  have failed : ((Call.store entry (.filled 1)).attempt transparent renameFails
      (vault, vault.persist transparent)).1 = .error (.io "Permission denied (os error 13)") := rfl
  exact (failed_write_unchanged_iff failed).2.mpr
    ⟨entry, .filled 1, rfl, read_update_store transparent entry (.filled 0) _⟩

/-- A key that could not be stored is listed and read by its handle, and not by a fresh one. -/
theorem failed_store_is_kept :
    let entry := signingKey "a" [1, 2, 3]
    let vault := newVault "secret-one"
    let after := (Call.store entry (.filled 0)).attempt transparent renameFails
      (vault, vault.persist transparent)
    after.1 = .error (.io "Permission denied (os error 13)") ∧
      vault.list = [] ∧ after.2.1.list = [summary entry] ∧
      after.2.1.read transparent "a" = .ok entry ∧
      openAtPath transparent after.2.2 "secret-one" = .ok vault := by
  refine ⟨rfl, rfl, rfl, ?_, (intact_newVault "secret-one").openAtPath_eq⟩
  exact read_update_store transparent (signingKey "a" [1, 2, 3]) (.filled 0) _

end TrustForge.Vault
