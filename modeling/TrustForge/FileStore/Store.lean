import Mathlib.Data.Prod.Lex
import TrustForge.Foundation.Disk
import TrustForge.Foundation.Lines
import TrustForge.Foundation.Result
import TrustForge.Json.Canonical

/-!
# The file store

Model of `tf-store-file`: a proof log that is appended to, a revocation table that is
written anew on every insert, and evidence bundles next to their checksums.  The handle
keeps the log and the table in memory and reads the files only when it is opened.

The file system is ideal, so that its calls do not fail; operations on files are lists of
steps.  Paths are those below the root of the store.
-/

namespace TrustForge.FileStore

open AssocMap Text
open Json (Value)
open Disk (Files Step)

inductive StoreError where
  | unavailable (text : String)
  | notFound
  | conflict
  | other (text : String)
  deriving DecidableEq

/-- What the store takes from its dependencies. -/
structure Host extends Json.Runtime where
  sha256 : Bytes → Bytes
  /-- The path of the root, as errors show it. -/
  root : String
  /-- The text of the error for a text that `serde_json` refuses. -/
  serdeError : String → String
  /-- The text of the error for bytes that `String::from_utf8` refuses. -/
  utf8Error : Bytes → String

/-- The files of a store. -/
inductive Path where
  | proofLog
  | proofTmp
  | revocations
  | revocationsTmp
  | evidence (name : String)
  deriving DecidableEq

structure State where
  proofOrder : List String
  proofPayloads : List (String × Value)
  revocations : List ((String × String) × String)

/-- `FileStore`: the memory of a handle, and the files below its root. -/
structure Store where
  state : State
  files : Files Path

namespace State

/-- The state that `open` starts from. -/
def empty : State where
  proofOrder := []
  proofPayloads := []
  revocations := []

/-- A record of the proof log that `load` accepted. -/
def remember (state : State) (hash : String) (value : Value) : State :=
  { state with
    proofOrder :=
      if (get? hash state.proofPayloads).isSome then state.proofOrder
      else state.proofOrder ++ [hash]
    proofPayloads := insert hash value state.proofPayloads }

/-- `BTreeMap::insert` on the revocations. -/
def revoke (state : State) (kind id effectiveAt : String) : State :=
  { state with revocations := insert (kind, id) effectiveAt state.revocations }

/-- The revocations in the order of a `BTreeMap`, which compares pairs from the left. -/
def sortedRevocations (state : State) : List ((String × String) × String) :=
  state.revocations.insertionSort fun x y => toLex x.1 ≤ toLex y.1

end State

/-! ## Fields of the revocation table -/

/-- One byte of `escape_field`.  Every byte becomes a character of its own. -/
def escapeByte (b : UInt8) : List Char :=
  if b = 37 then ['%', '2', '5']
  else if b = 9 then ['%', '0', '9']
  else if b = 10 then ['%', '0', 'a']
  else if b = 13 then ['%', '0', 'd']
  else [Char.ofNat b.toNat]

def escapeField (s : String) : List Char :=
  (utf8 s).flatMap escapeByte

def hexValue (b : UInt8) : Except StoreError UInt8 :=
  if 48 ≤ b ∧ b ≤ 57 then .ok (b - 48)
  else if 97 ≤ b ∧ b ≤ 102 then .ok (b - 97 + 10)
  else if 65 ≤ b ∧ b ≤ 70 then .ok (b - 65 + 10)
  else .error (.other s!"invalid hex byte: {b}")

/-- The loop of `unescape_field`. -/
def unescapeBytes (field : String) : Bytes → Except StoreError Bytes
  | [] => .ok []
  | b :: rest =>
    if b = 37 then
      match rest with
      | high :: low :: rest => do
        let hi ← hexValue high
        let lo ← hexValue low
        let out ← unescapeBytes field rest
        .ok ((hi <<< 4 ||| lo) :: out)
      | _ => .error (.other s!"bad escape in field: {field}")
    else do
      let out ← unescapeBytes field rest
      .ok (b :: out)

namespace Host

variable (host : Host)

def unescapeField (field : List Char) : Except StoreError String := do
  let s := String.ofList field
  let out ← unescapeBytes s (utf8 s)
  match ofUtf8? out with
  | some text => .ok text
  | none =>
    let e := host.utf8Error out
    .error (.other s!"field is not utf-8: {e}")

/-! ## Opening -/

def sha256Hashref (bytes : Bytes) : String :=
  "sha256:" ++ hex (host.sha256 bytes)

def recordChecksum (hash canonicalPayload : String) : String :=
  host.sha256Hashref (utf8 hash ++ 9 :: utf8 canonicalPayload)

/-- A line of `proof.log`. -/
def loadProof (lineNo : Nat) (line : List Char) (state : State) : Except StoreError State :=
  match Lines.splitn '\t' 3 line with
  | [hash, checksum, payload] =>
    let hash := String.ofList hash
    let payload := String.ofList payload
    if String.ofList checksum ≠ host.recordChecksum hash payload then
      .error (.other s!"proof.log line {lineNo} checksum mismatch")
    else if hash ≠ host.sha256Hashref (utf8 payload) then
      .error (.other s!"proof.log line {lineNo} event hash mismatch")
    else
      match Json.fromStr host.readF64 payload with
      | some value => .ok (state.remember hash value)
      | none =>
        let e := host.serdeError payload
        .error (.other s!"parse proof.log line {lineNo}: {e}")
  | _ => .error (.other s!"malformed proof.log line {lineNo}")

/-- A line of `revocations.tsv`. -/
def loadRevocation (lineNo : Nat) (line : List Char) (state : State) :
    Except StoreError State :=
  match Lines.splitn '\t' 3 line with
  | [kind, id, effectiveAt] => do
    let kind ← host.unescapeField kind
    let id ← host.unescapeField id
    let effectiveAt ← host.unescapeField effectiveAt
    .ok (state.revoke kind id effectiveAt)
  | _ => .error (.other s!"malformed revocations.tsv line {lineNo}")

end Host

/-- The loop over the lines of a file: blank lines are skipped, and the line numbers start
at one. -/
def loadLines (record : Nat → List Char → State → Except StoreError State) :
    Nat → List (Option (List Char)) → State → Except StoreError State
  | _, [], state => .ok state
  | _, none :: _, _ => .error (.other "stream did not contain valid UTF-8")
  | i, some line :: rest, state =>
    if Lines.trim line = [] then loadLines record (i + 1) rest state
    else do
      let next ← record (i + 1) line state
      loadLines record (i + 1) rest next

/-- A file that may be missing. -/
def loadFile (record : Nat → List Char → State → Except StoreError State)
    (file : Option Bytes) (state : State) : Except StoreError State :=
  match file with
  | none => .ok state
  | some bytes => loadLines record 0 (Lines.readLines bytes) state

/-- A name that `cleanup_stale_temps` removes. -/
def isTemp (name : String) : Bool :=
  ".tmp".toList.isSuffixOf name.toList

def cleanupStaleTemps (files : Files Path) : Files Path
  | .proofTmp => none
  | .revocationsTmp => none
  | .evidence name => if isTemp name then none else files (.evidence name)
  | path => files path

namespace Host

variable (host : Host)

def load (files : Files Path) : Except StoreError State := do
  let state ← loadFile host.loadProof (files .proofLog) .empty
  loadFile host.loadRevocation (files .revocations) state

/-- `FileStore::open`. -/
def openStore (files : Files Path) : Except StoreError Store := do
  let state ← host.load (cleanupStaleTemps files)
  .ok ⟨state, cleanupStaleTemps files⟩

/-! ## The proof ledger -/

/-- The pieces of a record of the proof log, as they are written. -/
def recordChunks (hash canonical : String) : List Bytes :=
  [utf8 hash, [9], utf8 (host.recordChecksum hash canonical), [9],
    utf8 canonical, [10]]

/-- The hash that identifies an event. -/
def eventHash (event : Value) : String :=
  host.sha256Hashref (utf8 (host.canonicalize event))

/-- The steps of `append` for an event that is not known yet. -/
def appendSteps (event : Value) : List (Step Path) :=
  .touch .proofLog ::
    (Disk.writeAll .proofLog (host.recordChunks (host.eventHash event) (host.canonicalize event)) ++
      [.sync])

def append (store : Store) (event : Value) : String × Store :=
  let hash := host.eventHash event
  if (get? hash store.state.proofPayloads).isSome then (hash, store)
  else
    (hash,
      { state :=
          { store.state with
            proofOrder := store.state.proofOrder ++ [hash]
            proofPayloads := insert hash event store.state.proofPayloads }
        files := Disk.run (host.appendSteps event) store.files })

end Host

def Store.lookup (store : Store) (eventHash : String) : Option Value :=
  get? eventHash store.state.proofPayloads

def Store.tail (store : Store) (limit : Nat) : List Value :=
  let start := store.state.proofOrder.length - limit
  (store.state.proofOrder.drop start).filterMap fun hash =>
    get? hash store.state.proofPayloads

/-! ## The revocation cache -/

/-- The pieces of a line of the revocation table, as they are written. -/
def revocationChunks (entry : (String × String) × String) : List Bytes :=
  [utf8 (String.ofList (escapeField entry.1.1)), [9],
    utf8 (String.ofList (escapeField entry.1.2)), [9],
    utf8 (String.ofList (escapeField entry.2)), [10]]

def persistRevocations (state : State) : List (Step Path) :=
  Disk.replace .revocations .revocationsTmp (state.sortedRevocations.flatMap revocationChunks)

namespace Store

def insert (store : Store) (kind id effectiveAt : String) : Store :=
  let state := store.state.revoke kind id effectiveAt
  { state := state, files := Disk.run (persistRevocations state) store.files }

def isRevoked (store : Store) (kind id instant : String) : Bool :=
  (get? (kind, id) store.state.revocations).any fun effectiveAt => effectiveAt ≤ instant

def list (store : Store) : List (String × String × String) :=
  store.state.sortedRevocations.map fun entry => (entry.1.1, entry.1.2, entry.2)

end Store

/-! ## Compaction -/

namespace Host

variable (host : Host)

/-- The record of a hash, if it has an event. -/
def payloadChunks (state : State) (hash : String) : List Bytes :=
  match get? hash state.proofPayloads with
  | none => []
  | some value => host.recordChunks hash (host.canonicalize value)

def persistProofLog (state : State) : List (Step Path) :=
  Disk.replace .proofLog .proofTmp (state.proofOrder.flatMap (host.payloadChunks state))

def compact (store : Store) : Store :=
  { store with
    files := Disk.run (host.persistProofLog store.state ++ persistRevocations store.state)
      store.files }

end Host

/-! ## The evidence archive -/

variable (bundleId : String)

/-- The file of a bundle. -/
def evidencePath : Path :=
  .evidence (hex (utf8 bundleId))

/-- `path.with_extension("tmp")`; names in hexadecimal have no extension. -/
def evidenceTmp : Path :=
  .evidence (hex (utf8 bundleId) ++ ".tmp")

def evidenceChecksumPath : Path :=
  .evidence (hex (utf8 bundleId) ++ ".sha256")

def evidenceChecksumTmpPath : Path :=
  .evidence (hex (utf8 bundleId) ++ ".sha256.tmp")

namespace Host

variable (host : Host)

/-- The steps of `put`. -/
def putSteps (bundleId : String) (bytes : Bytes) : List (Step Path) :=
  [.create (evidenceTmp bundleId), .write (evidenceTmp bundleId) bytes, .sync,
    .create (evidenceChecksumTmpPath bundleId),
    .write (evidenceChecksumTmpPath bundleId) (utf8 (host.sha256Hashref bytes)),
    .write (evidenceChecksumTmpPath bundleId) [10], .sync,
    .rename (evidenceTmp bundleId) (evidencePath bundleId),
    .rename (evidenceChecksumTmpPath bundleId) (evidenceChecksumPath bundleId), .sync]

def put (store : Store) (bundleId : String) (bytes : Bytes) : Except StoreError Store :=
  if bundleId = "" then .error (.other "empty bundle id")
  else .ok { store with files := Disk.run (host.putSteps bundleId bytes) store.files }

def verifyEvidenceChecksum (files : Files Path) (bundleId : String) (bytes : Bytes) :
    Except StoreError Unit :=
  let name := hex (utf8 bundleId)
  let directory := host.root ++ "/evidence/"
  match files (evidenceChecksumPath bundleId) with
  | none => .error (.other s!"missing evidence checksum: {directory}{name}.sha256")
  | some content =>
    match ofUtf8? content with
    | none => .error (.other "stream did not contain valid UTF-8")
    | some text =>
      if String.ofList (Lines.trim text.toList) ≠ host.sha256Hashref bytes then
        .error (.other s!"evidence checksum mismatch: {directory}{name}")
      else .ok ()

/-- `FileEvidenceArchive::get`.  The file of the empty name is the directory itself. -/
def get (store : Store) (bundleId : String) : Except StoreError (Option Bytes) :=
  if bundleId = "" then .error (.other "Is a directory (os error 21)")
  else
    match store.files (evidencePath bundleId) with
    | none => .ok none
    | some bytes => do
      host.verifyEvidenceChecksum store.files bundleId bytes
      .ok (some bytes)

end Host

end TrustForge.FileStore
