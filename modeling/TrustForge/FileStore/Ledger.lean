import TrustForge.FileStore.Log
import TrustForge.Json.Idempotence

/-!
# The proof ledger

What becomes of the events of a ledger when the store is compacted or reopened.  `append`
keeps the event it was given and writes its canonical text; opening keeps what that text
says.  The log of a store is therefore always the log of the events in memory, and opening
it gives them back as far as their canonical text does.
-/

namespace TrustForge.FileStore

open AssocMap Function List Option Except Result
open Json (Value)
open Disk (Files)

/-- The root of a store that was never opened. -/
def emptyRoot : Files Path :=
  fun _ => none

/-- The store that is opened there. -/
def fresh : Store where
  state := .empty
  files := emptyRoot

theorem cleanupStaleTemps_emptyRoot : cleanupStaleTemps emptyRoot = emptyRoot := by
  funext path
  cases path with
  | evidence name => exact ite_self none
  | _ => rfl

theorem loadFile_eq_loadLines (record : Nat → List Char → State → Except StoreError State)
    (file : Option Bytes) (state : State) :
    loadFile record file state = loadLines record 0 (Lines.readLines (file.getD [])) state := by
  cases file with
  | none | some => rfl

namespace Host

variable (host : Host)

theorem openStore_emptyRoot : host.openStore emptyRoot = .ok fresh := by
  rw [openStore, cleanupStaleTemps_emptyRoot]
  rfl

/-- Appends in order, with the hashes they return. -/
def appendAll : List Value → Store → List String × Store
  | [], store => ([], store)
  | event :: events, store =>
    let appended := host.append store event
    let rest := appendAll events appended.2
    (appended.1 :: rest.1, rest.2)

/-! ## The log follows the memory -/

/-- The log has a record for every event in memory, in order. -/
structure Coherent (store : Store) : Prop where
  order : store.state.proofOrder = keys store.state.proofPayloads
  nodup : (keys store.state.proofPayloads).Nodup
  filed : host.Filed store.state.proofPayloads
  log : (store.files .proofLog).getD [] = host.log store.state.proofPayloads
  noRevocations : store.state.revocations = []
  emptyTable : (store.files .revocations).getD [] = []

theorem coherent_fresh : host.Coherent fresh where
  order := rfl
  nodup := nodup_nil
  filed := by simp [Filed, fresh, State.empty]
  log := rfl
  noRevocations := rfl
  emptyTable := rfl

theorem run_appendSteps (event : Value) (files : Files Path) :
    Disk.run (host.appendSteps event) files =
      update files .proofLog (some ((files .proofLog).getD [] ++ host.record event)) := by
  have touched : (Disk.Step.touch Path.proofLog).apply files .proofLog =
      some ((files .proofLog).getD []) := by
    rw [Disk.Step.apply, update_self]
  rw [appendSteps, Disk.run_cons, Disk.run_append, Disk.run_writeAll Path.proofLog _ touched,
    Disk.Step.apply, update_idem]
  rfl

theorem log_append (entries more : List (String × Value)) :
    host.log (entries ++ more) = host.log entries ++ host.log more :=
  flatMap_append

variable {store : Store}

theorem coherent_append (coherent : host.Coherent store) (event : Value) :
    host.Coherent (host.append store event).2 := by
  unfold append
  cases known : get? (host.eventHash event) store.state.proofPayloads with
  | some _ =>
    simp only [known]
    exact coherent
  | none =>
    have absent := (get?_eq_none_iff _ _).mp known
    simp only [known, isSome_none, Bool.false_eq_true, if_false, run_appendSteps,
      insert_of_not_mem _ _ _ absent]
    exact
      { order := by simp [AssocMap.keys, coherent.order]
        nodup := nodup_keys_concat event absent coherent.nodup
        filed := forall_mem_append.mpr ⟨coherent.filed, by simp⟩
        log := by
          dsimp only
          rw [update_self, getD_some, coherent.log, log_append]
          simp [log]
        noRevocations := coherent.noRevocations
        emptyTable := by
          dsimp only
          rw [update_of_ne (by decide)]
          exact coherent.emptyTable }

theorem coherent_appendAll (coherent : host.Coherent store)
    (events : List Value) : host.Coherent (host.appendAll events store).2 := by
  induction events generalizing store with
  | nil => exact coherent
  | cons event events ih => exact ih (host.coherent_append coherent event)

/-- Every event in memory was appended. -/
theorem mem_appendAll {events : List Value} {store : Store} {entry : String × Value}
    (member : entry ∈ (host.appendAll events store).2.state.proofPayloads) :
    entry ∈ store.state.proofPayloads ∨ entry.2 ∈ events := by
  induction events generalizing store with
  | nil => exact .inl member
  | cons event events ih =>
    rcases ih member with known | later
    · unfold append at known
      simp only at known
      split at known
      · exact .inl known
      · rcases mem_of_mem_insert known with equal | earlier
        · exact .inr (equal ▸ mem_cons_self)
        · exact .inl earlier
    · exact .inr (mem_cons_of_mem event later)

/-! ## Reading the ledger -/

/-- The values of some entries, looked up by their keys. -/
theorem filterMap_get? {entries part : List (String × Value)}
    (nodup : (keys entries).Nodup) (included : ∀ entry ∈ part, entry ∈ entries) :
    (keys part).filterMap (fun key => get? key entries) = part.map Prod.snd := by
  rw [AssocMap.keys, filterMap_map, ← filterMap_eq_map]
  apply filterMap_congr
  intro entry member
  exact (get?_eq_some_iff_of_nodup entries nodup entry.1 entry.2).mpr
    (included entry member)

theorem tail_eq (order : store.state.proofOrder = keys store.state.proofPayloads)
    (nodup : (keys store.state.proofPayloads).Nodup) (limit : Nat) :
    store.tail limit =
      (store.state.proofPayloads.drop (store.state.proofPayloads.length - limit)).map Prod.snd := by
  rw [Store.tail, order]
  simp only [AssocMap.keys, length_map, ← map_drop]
  exact filterMap_get? nodup fun entry member => mem_of_mem_drop member

/-! ## Opening -/

theorem keys_of_readsBack {entries loaded : List (String × Value)}
    (readBack : Forall₂ host.ReadsBack entries loaded) :
    keys loaded = keys entries := by
  induction readBack with
  | nil => rfl
  | cons first _ ih =>
    rw [AssocMap.keys, map_cons, ← AssocMap.keys, ih, first.1]
    rfl

/-- What is opened where a log ends with further bytes. -/
theorem openStore_iff {files : Files Path} {entries : List (String × Value)} {rest : Bytes}
    (filed : host.Filed entries) (nodup : (keys entries).Nodup)
    (log : (files .proofLog).getD [] = host.log entries ++ rest)
    (table : (files .revocations).getD [] = []) (reopened : Store) :
    host.openStore files = .ok reopened ↔
      ∃ loaded state, Forall₂ host.ReadsBack entries loaded ∧
        loadLines host.loadProof entries.length (Lines.readLines rest)
          ⟨keys entries, loaded, []⟩ = .ok state ∧
        reopened = ⟨state, cleanupStaleTemps files⟩ := by
  have proofs (state : State) :
      loadFile host.loadProof (cleanupStaleTemps files .proofLog) .empty = .ok state ↔
        ∃ loaded, Forall₂ host.ReadsBack entries loaded ∧
          loadLines host.loadProof entries.length (Lines.readLines rest)
            ⟨keys entries, loaded, []⟩ = .ok state := by
    rw [loadFile_eq_loadLines]
    change loadLines host.loadProof 0 (Lines.readLines ((files .proofLog).getD [])) .empty = _ ↔ _
    rw [log, loadLines_log_iff host filed, zero_add]
    refine exists_congr fun loaded => and_congr_right fun readBack => ?_
    have keys := host.keys_of_readsBack readBack
    rw [foldl_remember loaded .empty rfl (by simpa [State.empty, keys] using nodup)]
    simp [State.empty, keys]
  have revocations (state : State) :
      loadFile host.loadRevocation (cleanupStaleTemps files .revocations) state = .ok state := by
    rw [loadFile_eq_loadLines]
    change loadLines host.loadRevocation 0 (Lines.readLines ((files .revocations).getD [])) state = _
    rw [table]
    rfl
  constructor
  · intro opened
    rcases bind_eq_ok opened with ⟨state, read, equal⟩
    rcases bind_eq_ok read with ⟨middle, first, second⟩
    cases ok.inj ((revocations middle).symm.trans second)
    rcases (proofs state).mp first with ⟨loaded, readBack, ended⟩
    exact ⟨loaded, state, readBack, ended, (ok.inj equal).symm⟩
  · rintro ⟨loaded, state, readBack, ended, equal⟩
    rw [openStore, load, (proofs state).mpr ⟨loaded, readBack, ended⟩]
    change (loadFile host.loadRevocation (cleanupStaleTemps files .revocations) state >>= _) = _
    rw [revocations state, equal]
    rfl

/-! ## Compacting and reopening -/

/-- What one may do to a store between appends. -/
inductive Maintenance where
  | compact
  | reopen

def maintain (store : Store) : Maintenance → Except StoreError Store
  | .compact => .ok (host.compact store)
  | .reopen => host.openStore store.files

def maintainAll : List Maintenance → Store → Except StoreError Store
  | [], store => .ok store
  | step :: steps, store => do
    let next ← host.maintain store step
    maintainAll steps next

theorem openStore_coherent_iff (coherent : host.Coherent store) (reopened : Store) :
    host.openStore store.files = .ok reopened ↔
      ∃ loaded, Forall₂ host.ReadsBack store.state.proofPayloads loaded ∧
        reopened = ⟨⟨keys store.state.proofPayloads, loaded, []⟩,
          cleanupStaleTemps store.files⟩ := by
  rw [host.openStore_iff coherent.filed coherent.nodup
    (coherent.log.trans (append_nil _).symm) coherent.emptyTable]
  constructor
  · rintro ⟨loaded, state, readBack, ended, equal⟩
    cases ok.inj ended
    exact ⟨loaded, readBack, equal⟩
  · rintro ⟨loaded, readBack, equal⟩
    exact ⟨loaded, _, readBack, rfl, equal⟩

theorem flatten_payloadChunks {state : State} (order : state.proofOrder = keys state.proofPayloads)
    (nodup : (keys state.proofPayloads).Nodup) (filed : host.Filed state.proofPayloads) :
    (state.proofOrder.flatMap (host.payloadChunks state)).flatten =
      host.log state.proofPayloads := by
  have each : ∀ entry ∈ state.proofPayloads,
      (host.payloadChunks state entry.1).flatten = host.record entry.2 := by
    intro entry member
    have known := (get?_eq_some_iff_of_nodup _ nodup entry.1 entry.2).mpr member
    rw [payloadChunks, known, record, ← filed entry member]
  rw [order, AssocMap.keys, flatMap_map, ← flatMap_id, flatMap_assoc, log]
  simp only [flatMap_id]
  exact flatMap_congr each

/-- Compaction writes the log that is there. -/
theorem coherent_compact (coherent : host.Coherent store) :
    host.Coherent (host.compact store) := by
  have noLines : store.state.sortedRevocations = [] := by
    rw [State.sortedRevocations, coherent.noRevocations]
    rfl
  unfold compact persistProofLog persistRevocations
  rw [Disk.run_append, Disk.run_replace, Disk.run_replace, noLines]
  exact
    { order := coherent.order
      nodup := coherent.nodup
      filed := coherent.filed
      log := by
        dsimp only
        rw [update_of_ne (by decide), update_of_ne (by decide),
          update_of_ne (by decide), update_self, getD_some,
          host.flatten_payloadChunks coherent.order coherent.nodup coherent.filed]
      noRevocations := coherent.noRevocations
      emptyTable := by
        dsimp only
        rw [update_of_ne (by decide), update_self]
        rfl }

/-- The event of an entry is read back as the same data with the same canonical text. -/
def Settled (event : Value) : Prop :=
  ∃ value, Json.fromStr host.readF64 (host.canonicalize event) = some value ∧
    event.SameData value ∧ host.canonicalize value = host.canonicalize event

/-- An entry in place of another one that no reader of the ledger can tell apart. -/
def Kept (original current : String × Value) : Prop :=
  current.1 = original.1 ∧ original.2.SameData current.2 ∧
    host.canonicalize current.2 = host.canonicalize original.2

/-- The store still has the events of an earlier ledger. -/
structure Keeps (original : List (String × Value)) (store : Store) : Prop where
  filed : host.Filed original
  coherent : host.Coherent store
  kept : Forall₂ host.Kept original store.state.proofPayloads

theorem kept_self (entries : List (String × Value)) : Forall₂ host.Kept entries entries :=
  forall₂_same.mpr fun entry _ => ⟨rfl, Value.SameData.refl entry.2, rfl⟩

variable {original current : List (String × Value)}

/-- Events that settle are read back in place of those that are kept for them. -/
theorem exists_loaded (settled : ∀ entry ∈ original, host.Settled entry.2)
    (kept : Forall₂ host.Kept original current) :
    ∃ loaded, Forall₂ host.ReadsBack current loaded ∧
      Forall₂ host.Kept original loaded := by
  induction kept with
  | nil => exact ⟨[], .nil, .nil⟩
  | @cons first entry _ _ here _ ih =>
    rcases ih fun later member => settled later (mem_cons_of_mem _ member) with
      ⟨loaded, readBack, keptBack⟩
    rcases settled first mem_cons_self with ⟨value, read, same, text⟩
    rcases here with ⟨hash, _, sameText⟩
    exact ⟨(entry.1, value) :: loaded, .cons ⟨rfl, sameText ▸ read⟩ readBack,
      .cons ⟨hash, same, text⟩ keptBack⟩

theorem filed_of_kept (filed : host.Filed original)
    (kept : Forall₂ host.Kept original current) : host.Filed current := by
  intro entry member
  rcases exists_of_forall₂ kept member with ⟨first, listed, hash, _, text⟩
  rw [hash, filed first listed, eventHash, eventHash, text]

theorem log_of_kept
    (kept : Forall₂ host.Kept original current) : host.log current = host.log original := by
  induction kept with
  | nil => rfl
  | cons here _ ih =>
    rw [log, flatMap_cons, ← log, ih, record, eventHash, here.2.2]
    rfl

/-- Neither step loses an event that settles. -/
theorem keeps_maintain {original : List (String × Value)} {store : Store}
    (settled : ∀ entry ∈ original, host.Settled entry.2) (keeps : host.Keeps original store)
    (step : Maintenance) :
    ∃ next, host.maintain store step = .ok next ∧ host.Keeps original next := by
  cases step with
  | compact => exact ⟨_, rfl, keeps.filed, host.coherent_compact keeps.coherent, keeps.kept⟩
  | reopen =>
    rcases host.exists_loaded settled keeps.kept with ⟨loaded, readBack, kept⟩
    have keys : keys loaded = keys store.state.proofPayloads :=
      host.keys_of_readsBack readBack
    refine ⟨_, (host.openStore_coherent_iff keeps.coherent _).mpr ⟨loaded, readBack, rfl⟩,
      keeps.filed, ?_, kept⟩
    exact
      { order := keys.symm
        nodup := by
          dsimp only
          rw [keys]
          exact keeps.coherent.nodup
        filed := host.filed_of_kept keeps.filed kept
        log := by
          dsimp only
          rw [host.log_of_kept kept, ← host.log_of_kept keeps.kept]
          exact keeps.coherent.log
        noRevocations := rfl
        emptyTable := keeps.coherent.emptyTable }

theorem keeps_maintainAll {original : List (String × Value)} {store : Store}
    (settled : ∀ entry ∈ original, host.Settled entry.2) (keeps : host.Keeps original store)
    (steps : List Maintenance) :
    ∃ after, host.maintainAll steps store = .ok after ∧ host.Keeps original after := by
  induction steps generalizing store with
  | nil => exact ⟨store, rfl, keeps⟩
  | cons step steps ih =>
    rcases host.keeps_maintain settled keeps step with ⟨next, done, keepsNext⟩
    rcases ih keepsNext with ⟨after, rest, keepsAfter⟩
    refine ⟨after, ?_, keepsAfter⟩
    rw [maintainAll, done]
    exact rest

end Host

/-- The stores answer alike, with values compared as `serde_json` does. -/
structure SameEvents (hashes : List String) (before after : Store) : Prop where
  lookup : ∀ hash ∈ hashes, Option.Rel Value.SameData (before.lookup hash) (after.lookup hash)
  tail : ∀ limit, Forall₂ Value.SameData (before.tail limit) (after.tail limit)

namespace Host

variable (host : Host)

theorem get?_of_kept {original current : List (String × Value)}
    (kept : Forall₂ host.Kept original current) (hash : String) :
    Option.Rel Value.SameData (get? hash original) (get? hash current) := by
  induction kept with
  | nil => exact .none
  | @cons first entry _ _ here _ ih =>
    rcases first with ⟨key, v⟩
    rcases entry with ⟨key', w⟩
    rcases here with ⟨sameKey, same, _⟩
    cases sameKey
    rw [get?, get?]
    by_cases asked : key = hash
    · rw [if_pos asked, if_pos asked]
      exact .some same
    · rw [if_neg asked, if_neg asked]
      exact ih

theorem sameEvents_of_keeps {store after : Store} (coherent : host.Coherent store)
    (keeps : host.Keeps store.state.proofPayloads after) (hashes : List String) :
    SameEvents hashes store after where
  lookup hash _ := host.get?_of_kept keeps.kept hash
  tail limit := by
    rw [tail_eq coherent.order coherent.nodup, tail_eq keeps.coherent.order keeps.coherent.nodup,
      keeps.kept.length_eq, forall₂_map_left_iff, forall₂_map_right_iff]
    exact (forall₂_drop _ keeps.kept).imp fun _ _ here => here.2.1

/-- Events that are told apart after the store is reopened once. -/
theorem readsBack_of_sameEvents {store reopened : Store} {hashes : List String}
    (coherent : host.Coherent store) (opened : host.openStore store.files = .ok reopened)
    (same : SameEvents hashes store reopened) :
    ∀ entry ∈ store.state.proofPayloads, ∃ value,
      Json.fromStr host.readF64 (host.canonicalize entry.2) = some value ∧
        entry.2.SameData value := by
  rcases (host.openStore_coherent_iff coherent reopened).mp opened with ⟨loaded, readBack, equal⟩
  have keys := host.keys_of_readsBack readBack
  have whole := same.tail store.state.proofPayloads.length
  subst equal
  rw [tail_eq coherent.order coherent.nodup, tail_eq keys.symm (keys.symm ▸ coherent.nodup),
    ← readBack.length_eq, Nat.sub_self, drop_zero, drop_zero,
    forall₂_map_left_iff, forall₂_map_right_iff] at whole
  exact Json.forall_of_forall₂ (fun entry value here => ⟨value.2, here⟩)
    (readBack.mp (fun _ _ read data => ⟨read.2, data⟩) whole)

theorem settled_of_normalised (idempotent : host.NfcIdempotent) {event : Value}
    (free : event.floatFree = true) (distinct : event.distinctKeys = true)
    (shallow : event.depth < Json.recursionLimit) (fixed : event.mapText host.nfc = event) :
    host.Settled event := by
  rcases (host.readsBack_iff idempotent free distinct).mpr ⟨shallow, fixed⟩ with
    ⟨value, read, same⟩
  have text := host.canonicalize_eq_of_sameData (fixed.symm ▸ distinct)
    (Value.SameData.mapText host.nfc event value same)
  exact ⟨value, read, same, text.symm⟩

/-- Compaction and reopening keep the ledger as it is exactly when every event it holds is
NFC-normalised and not nested too deep for the parser. -/
theorem maintenance_preserves_iff (idempotent : host.NfcIdempotent) {events : List Value}
    (free : ∀ event ∈ events, event.floatFree = true)
    (distinct : ∀ event ∈ events, event.distinctKeys = true) :
    (∀ steps, ∃ after, host.maintainAll steps (host.appendAll events fresh).2 = .ok after ∧
        SameEvents (host.appendAll events fresh).1 (host.appendAll events fresh).2 after) ↔
      ∀ entry ∈ (host.appendAll events fresh).2.state.proofPayloads,
        entry.2.depth < Json.recursionLimit ∧ entry.2.mapText host.nfc = entry.2 := by
  have coherent := host.coherent_appendAll host.coherent_fresh events
  have appended : ∀ entry ∈ (host.appendAll events fresh).2.state.proofPayloads,
      entry.2 ∈ events := fun entry member =>
    (host.mem_appendAll member).resolve_left not_mem_nil
  constructor
  · intro preserved entry member
    rcases preserved [.reopen] with ⟨after, reopened, same⟩
    rcases bind_eq_ok reopened with ⟨next, opened, ended⟩
    cases ok.inj ended
    have event := appended entry member
    exact (host.readsBack_iff idempotent (free _ event) (distinct _ event)).mp
      (host.readsBack_of_sameEvents coherent opened same entry member)
  · intro normalised steps
    have settled : ∀ entry ∈ (host.appendAll events fresh).2.state.proofPayloads,
        host.Settled entry.2 := fun entry member =>
      have event := appended entry member
      host.settled_of_normalised idempotent (free _ event) (distinct _ event)
        (normalised entry member).1 (normalised entry member).2
    rcases host.keeps_maintainAll settled ⟨coherent.filed, coherent, host.kept_self _⟩ steps with
      ⟨after, done, keeps⟩
    exact ⟨after, done, host.sameEvents_of_keeps coherent keeps _⟩

end Host

/-- A store whose hash is the length of a text, and whose NFC composes the letter e with an
acute accent. -/
def sampleHost : Host where
  toRuntime := Json.Runtime.composing
  sha256 := fun bytes => [.ofNat bytes.length]
  root := "/var/lib/trustforge"
  serdeError := fun _ => "recursion limit exceeded"
  utf8Error := fun _ => "invalid utf-8 sequence"

namespace Host

theorem maintenance_preserves_composed :
    let events := [Value.object [("é", .null)], .string "e"]
    ∀ steps, ∃ after,
      sampleHost.maintainAll steps (sampleHost.appendAll events fresh).2 = .ok after ∧
        SameEvents (sampleHost.appendAll events fresh).1 (sampleHost.appendAll events fresh).2
          after := by
  intro events
  refine (sampleHost.maintenance_preserves_iff Json.Runtime.composing_nfcIdempotent
    (by decide +kernel) (by decide +kernel)).mpr ?_
  intro entry member
  have event := (sampleHost.mem_appendAll member).resolve_left not_mem_nil
  simp only [events, mem_cons, not_mem_nil, or_false] at event
  rcases event with equal | equal
  · rw [equal]
    exact ⟨by decide, by rfl⟩
  · rw [equal]
    exact ⟨by decide, by rfl⟩

/-- A decomposed letter comes back composed.  Two keys with one NFC form come back as one
entry, and after a compaction the log does not open any more. -/
theorem reopened_ledger_differs :
    (∃ reopened,
      sampleHost.openStore (sampleHost.appendAll [.string "e\u0301"] fresh).2.files = .ok reopened ∧
        ¬SameEvents (sampleHost.appendAll [.string "e\u0301"] fresh).1
          (sampleHost.appendAll [.string "e\u0301"] fresh).2 reopened) ∧
      ((sampleHost.maintainAll [.reopen, .compact, .reopen]
        (sampleHost.appendAll [.object [("e\u0301", .null), ("é", .bool true)]] fresh).2).map
          fun _ => ()) = .error (.other "proof.log line 1 event hash mismatch") := by
  constructor
  · have coherent := sampleHost.coherent_appendAll sampleHost.coherent_fresh [.string "e\u0301"]
    have read : Json.fromStr sampleHost.readF64 (sampleHost.canonicalize (.string "e\u0301")) =
        some (.string "é") := by
      rw [Json.Runtime.fromStr_canonicalize]
      rfl
    have opened := (sampleHost.openStore_coherent_iff coherent _).mpr
      ⟨[(_, .string "é")], .cons ⟨rfl, read⟩ .nil, rfl⟩
    refine ⟨_, opened, fun same => ?_⟩
    rcases sampleHost.readsBack_of_sameEvents coherent opened same _ mem_cons_self with
      ⟨value, readAgain, data⟩
    cases some.inj (read.symm.trans readAgain)
    exact absurd (show "e\u0301" = "é" from data) (by decide)
  · decide +kernel

end Host

end TrustForge.FileStore
