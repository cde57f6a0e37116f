import TrustForge.Session.Crypto

/-!
# The vault

Model of `vault.rs`: keys in a file, each encrypted under a wrapping key that is derived
from a passphrase.  A handle reads the file when it is opened, and writes all of it whenever
it changes an entry.  Opening does not decrypt anything.

The file system is ideal, and calls are complete, so that the temporary file behind a write
is not seen.  Random bytes are arguments.
-/

namespace TrustForge

open Function
open Encoding (standard)
open Session (Key Nonce)

inductive VaultError where
  | io (text : String)
  | parse (text : String)
  | unsupportedVersion (version : String)
  | unsupportedAlgorithm (text : String)
  | argon2 (text : String)
  | entryNotFound (id : String)
  | base64 (text : String)
  | aead
  | badNonce

structure OnDiskEntry where
  id : String
  purpose : String
  algorithm : String
  nonce : String
  ciphertext : String
  createdAt : String

structure OnDiskKdf where
  algorithm : String
  salt : String
  mCost : UInt32
  tCost : UInt32
  pCost : UInt32

structure OnDiskCipher where
  algorithm : String

structure OnDiskVault where
  vaultVersion : String
  kdf : OnDiskKdf
  cipher : OnDiskCipher
  entries : List OnDiskEntry

structure VaultEntryPlain where
  id : String
  purpose : String
  algorithm : String
  keyBytes : Bytes
  createdAt : String

structure VaultEntrySummary where
  id : String
  purpose : String
  algorithm : String
  createdAt : String

structure VaultCreateOptions where
  mCost : UInt32 := 19456
  tCost : UInt32 := 2
  pCost : UInt32 := 1
  salt : Option (Vector UInt8 16) := none

structure Vault where
  wrapKey : Key
  data : OnDiskVault

namespace Vault

/-- What the vault takes from other crates, next to the primitives. -/
structure Platform extends Session.Platform where
  /-- The texts of files. -/
  Text : Type
  /-- `serde_json::to_string_pretty`, with a line feed. -/
  toStringPretty : OnDiskVault → Text
  /-- `serde_json::from_str`, with the text of its error. -/
  fromStr : Text → Except String OnDiskVault
  /-- Argon2id, with the text of its error for parameters it does not take. -/
  argon2id : (password salt : Bytes) → (mCost tCost pCost : UInt32) → Except String Key
  /-- The path of the file, as errors show it. -/
  path : String
  /-- The text of the error for a file that cannot be read. -/
  readError : String
  fromStr_toStringPretty : ∀ data, fromStr (toStringPretty data) = .ok data

/-! ## Entries -/

/-- The first entry with an identifier. -/
def lookup (entries : List OnDiskEntry) (id : String) : Option OnDiskEntry :=
  entries.find? fun entry => entry.id = id

/-- Replace the entry with the same identifier, or add one. -/
def upsert (entry : OnDiskEntry) : List OnDiskEntry → List OnDiskEntry
  | [] => [entry]
  | existing :: rest =>
    if existing.id = entry.id then entry :: rest else existing :: upsert entry rest

section

variable (platform : Platform)

def aadFor (id purpose algorithm : String) : Bytes :=
  Text.utf8 (platform.canonicalize (.array [.string id, .string purpose, .string algorithm]))

/-- The entry that `store` writes. -/
def sealEntry (wrapKey : Key) (entry : VaultEntryPlain) (nonce : Nonce) : OnDiskEntry :=
  let aad := aadFor platform entry.id entry.purpose entry.algorithm
  let ciphertext := platform.chacha20poly1305Encrypt wrapKey nonce.bytes aad entry.keyBytes
  { id := entry.id
    purpose := entry.purpose
    algorithm := entry.algorithm
    nonce := standard.encode nonce.bytes
    ciphertext := standard.encode ciphertext
    createdAt := entry.createdAt }

/-- What `read` makes of an entry. -/
def openEntry (wrapKey : Key) (entry : OnDiskEntry) : Except VaultError VaultEntryPlain :=
  match standard.decode (Text.utf8 entry.nonce) with
  | .error e => .error (.base64 e.text)
  | .ok nonce =>
    if nonce.length ≠ 12 then .error .badNonce
    else
      match standard.decode (Text.utf8 entry.ciphertext) with
      | .error e => .error (.base64 e.text)
      | .ok ciphertext =>
        let aad := aadFor platform entry.id entry.purpose entry.algorithm
        match platform.chacha20poly1305Decrypt wrapKey nonce aad ciphertext with
        | none => .error .aead
        | some plaintext =>
          .ok
            { id := entry.id
              purpose := entry.purpose
              algorithm := entry.algorithm
              keyBytes := plaintext
              createdAt := entry.createdAt }

/-! ## Handles -/

def deriveKey (password salt : Bytes) (mCost tCost pCost : UInt32) : Except VaultError Key :=
  (platform.argon2id password salt mCost tCost pCost).mapError .argon2

/-- `Vault::create_at_path`, with the salt that is drawn. -/
def createAtPath (file : Option platform.Text) (passphrase : String) (opts : VaultCreateOptions)
    (drawn : Vector UInt8 16) : Except VaultError (Vault × Option platform.Text) :=
  if file.isSome then
    let path := platform.path
    .error (.io s!"vault already exists at {path}")
  else do
    let salt := (opts.salt.getD drawn).toList
    let wrapKey ← deriveKey platform (Text.utf8 passphrase) salt opts.mCost opts.tCost opts.pCost
    let data : OnDiskVault :=
      { vaultVersion := "1"
        kdf := ⟨"argon2id", standard.encode salt, opts.mCost, opts.tCost, opts.pCost⟩
        cipher := ⟨"chacha20poly1305"⟩
        entries := [] }
    .ok (⟨wrapKey, data⟩, some (platform.toStringPretty data))

/-- The checks of `Vault::open_at_path` on what it read, and the key it derives.  The salt is
used in its full length. -/
def unlock (data : OnDiskVault) (passphrase : String) : Except VaultError Key :=
  if data.vaultVersion ≠ "1" then .error (.unsupportedVersion data.vaultVersion)
  else if data.kdf.algorithm ≠ "argon2id" ∨ data.cipher.algorithm ≠ "chacha20poly1305" then
    let kdf := data.kdf.algorithm
    let cipher := data.cipher.algorithm
    .error (.unsupportedAlgorithm s!"kdf={kdf}, cipher={cipher}")
  else
    match standard.decode (Text.utf8 data.kdf.salt) with
    | .error e => .error (.base64 e.text)
    | .ok salt =>
      if salt.length < 8 then
        let length := salt.length
        .error (.parse s!"salt too short: {length} bytes")
      else
        deriveKey platform (Text.utf8 passphrase) salt data.kdf.mCost data.kdf.tCost
          data.kdf.pCost

def openAtPath (file : Option platform.Text) (passphrase : String) : Except VaultError Vault :=
  match file with
  | none => .error (.io platform.readError)
  | some raw =>
    match platform.fromStr raw with
    | .error e => .error (.parse e)
    | .ok data => do
      let wrapKey ← unlock platform data passphrase
      .ok ⟨wrapKey, data⟩

variable (vault : Vault)

def list : List VaultEntrySummary :=
  vault.data.entries.map fun entry =>
    ⟨entry.id, entry.purpose, entry.algorithm, entry.createdAt⟩

def read (id : String) : Except VaultError VaultEntryPlain :=
  match lookup vault.data.entries id with
  | none => .error (.entryNotFound id)
  | some entry => openEntry platform vault.wrapKey entry

/-- The handle with other entries. -/
def withEntries (entries : List OnDiskEntry) : Vault :=
  { vault with data := { vault.data with entries } }

/-- `persist`: the whole file. -/
def persist : Option platform.Text :=
  some (platform.toStringPretty vault.data)

/-- `Vault::store`, with the nonce that is drawn. -/
def store (entry : VaultEntryPlain) (nonce : Nonce) :
    Vault × Option platform.Text :=
  let next := vault.withEntries
    (upsert (sealEntry platform vault.wrapKey entry nonce) vault.data.entries)
  (next, next.persist platform)

/-- `Vault::remove`.  The file is written if there was an entry. -/
def remove (file : Option platform.Text) (id : String) :
    Bool × Vault × Option platform.Text :=
  let next := vault.withEntries (vault.data.entries.filter fun entry => entry.id ≠ id)
  let changed := decide (next.data.entries.length ≠ vault.data.entries.length)
  (changed, next, if changed then next.persist platform else file)

/-- A call that may change a vault. -/
inductive Call where
  | store (entry : VaultEntryPlain) (nonce : Nonce)
  | remove (id : String)

namespace Call

/-- The identifier that a call is about. -/
def id : Call → String
  | .store entry _ => entry.id
  | .remove id => id

/-- A call on a handle.  All calls succeed. -/
def perform : Call → Vault × Option platform.Text → Vault × Option platform.Text
  | .store entry nonce, (vault, _) => vault.store platform entry nonce
  | .remove id, (vault, file) => (vault.remove platform file id).2

/-- What a call makes of its handle. -/
def update (call : Call) (vault : Vault) : Vault :=
  (call.perform platform (vault, none)).1

/-- Whether a call writes the file. -/
def persists : Call → Vault → Bool
  | .store _ _, _ => true
  | .remove id, vault => (vault.remove platform none id).1

/-- The entry that a call leaves under its identifier. -/
def sealed (wrapKey : Key) : Call → Option OnDiskEntry
  | .store entry nonce => some (sealEntry platform wrapKey entry nonce)
  | .remove _ => none

/-- The entry that a call leaves under its identifier, for a caller. -/
def plain : Call → Option VaultEntryPlain
  | .store entry _ => some entry
  | .remove _ => none

/-- What a call means for a map from identifiers to entries. -/
def apply (call : Call) (map : String → Option VaultEntryPlain) :
    String → Option VaultEntryPlain :=
  Function.update map call.id call.plain

end Call

end

/-! ## Entries, again -/

open List

/-- An entry opens under the key it was sealed with. -/
theorem openEntry_sealEntry (platform : Platform) (wrapKey : Key) (entry : VaultEntryPlain)
    (nonce : Nonce) :
    openEntry platform wrapKey (sealEntry platform wrapKey entry nonce) = .ok entry := by
  simp [openEntry, sealEntry, standard.decode_encode, nonce.length, platform.decrypt_encrypt]

/-- An entry whose ciphertext is refused. -/
theorem openEntry_sealEntry_refused {platform : Platform} {wrapKey other : Key}
    {entry : VaultEntryPlain} {nonce : Nonce}
    (refused : platform.chacha20poly1305Decrypt wrapKey nonce.bytes
      (aadFor platform entry.id entry.purpose entry.algorithm)
      (platform.chacha20poly1305Encrypt other nonce.bytes
        (aadFor platform entry.id entry.purpose entry.algorithm) entry.keyBytes) = none) :
    openEntry platform wrapKey (sealEntry platform other entry nonce) = .error .aead := by
  simp [openEntry, sealEntry, standard.decode_encode, nonce.length, refused]

theorem lookup_upsert (entry : OnDiskEntry) (entries : List OnDiskEntry) :
    lookup (upsert entry entries) = Function.update (lookup entries) entry.id (some entry) := by
  funext id
  induction entries with
  | nil =>
    by_cases own : entry.id = id
    · subst own
      simp [lookup, upsert]
    · simp [lookup, upsert, own, update_of_ne (Ne.symm own)]
  | cons existing rest ih =>
    rw [lookup] at ih
    by_cases own : entry.id = id
    · subst own
      by_cases replaced : existing.id = entry.id
      · simp [lookup, upsert, replaced]
      · simpa [lookup, upsert, replaced] using ih
    · rw [update_of_ne (Ne.symm own)] at ih ⊢
      by_cases replaced : existing.id = entry.id
      · simp [lookup, upsert, replaced, own]
      · simp [lookup, upsert, replaced, find?_cons, ih]

theorem lookup_filter (entries : List OnDiskEntry) (id : String) :
    lookup (entries.filter fun entry => entry.id ≠ id) =
      Function.update (lookup entries) id none := by
  funext other
  rw [lookup, find?_filter]
  by_cases own : id = other
  · subst own
    simp
  · rw [update_of_ne (Ne.symm own), lookup]
    congr 1
    funext entry
    by_cases here : entry.id = other
    · simp [here, Ne.symm own]
    · simp [here]

variable {entries : List OnDiskEntry}

theorem mem_upsert {entry other : OnDiskEntry} (member : other ∈ upsert entry entries) :
    other = entry ∨ other ∈ entries := by
  induction entries with
  | nil => simpa [upsert] using member
  | cons existing rest ih =>
    rw [upsert] at member
    split at member
    · rcases mem_cons.mp member with rfl | later
      · exact .inl rfl
      · exact .inr (mem_cons_of_mem _ later)
    · rcases mem_cons.mp member with rfl | later
      · exact .inr mem_cons_self
      · exact (ih later).imp_right (mem_cons_of_mem _)

/-- Entries with distinct identifiers keep them distinct. -/
theorem distinct_upsert (entry : OnDiskEntry) (distinct : (entries.map OnDiskEntry.id).Nodup) :
    ((upsert entry entries).map OnDiskEntry.id).Nodup := by
  induction entries with
  | nil => simp [upsert]
  | cons existing rest ih =>
    rw [map_cons, nodup_cons] at distinct
    rw [upsert]
    split
    case isTrue same =>
      rw [map_cons, nodup_cons, ← same]
      exact distinct
    case isFalse differs =>
      rw [map_cons, nodup_cons]
      refine ⟨fun again => ?_, ih distinct.2⟩
      obtain ⟨other, member, same⟩ := mem_map.mp again
      rcases mem_upsert member with rfl | earlier
      · exact differs same.symm
      · exact distinct.1 (mem_map.mpr ⟨other, earlier, same⟩)

/-- With distinct identifiers every entry is the one found under its identifier. -/
theorem lookup_eq_some_iff (distinct : (entries.map OnDiskEntry.id).Nodup) {id : String}
    {entry : OnDiskEntry} : lookup entries id = some entry ↔ entry ∈ entries ∧ entry.id = id := by
  constructor
  · intro found
    exact ⟨mem_of_find?_eq_some found, by simpa using find?_some found⟩
  · rintro ⟨member, rfl⟩
    induction entries with
    | nil => contradiction
    | cons existing rest ih =>
      rw [map_cons, nodup_cons] at distinct
      rcases mem_cons.mp member with rfl | later
      · simp [lookup]
      · have differs : existing.id ≠ entry.id := fun same =>
          distinct.1 (mem_map.mpr ⟨entry, later, same.symm⟩)
        simpa [lookup, differs] using ih distinct.2 later

end Vault

end TrustForge
