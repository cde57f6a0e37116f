import TrustForge.FileStore.Revocations
import TrustForge.Foundation.Handles

/-!
# Several handles on one root

A handle reads the files when it is opened and never again.  An insert writes the table that
its handle remembers, a compaction also the log, and an append adds a record unless its handle
knows the event.  Files below one root are therefore those of the handle that wrote last, and
what other handles wrote before may be gone.

Calls are complete, and their data are of the kind that comes back from a file as it was.
-/

namespace TrustForge.FileStore

open Option hiding mem_map
open AssocMap Handles Result List Function Except
open Json (Value)
open Disk (Files)

/-- A call that changes files. -/
inductive Call where
  | insert (kind id effectiveAt : String)
  | append (event : Value)
  | compact

/-- Whether a handle has an event with a hash. -/
def State.knows (state : State) (hash : String) : Bool :=
  (get? hash state.proofPayloads).isSome

theorem State.knows_iff (state : State) (hash : String) :
    state.knows hash = true ↔ hash ∈ keys state.proofPayloads := by
  rw [State.knows, isSome_iff_exists, mem_keys_iff]

/-- Whether a call writes the revocation table. -/
def Call.writesTable : Call → State → Bool
  | .insert _ _ _, _ => true
  | .append _, _ => false
  | .compact, _ => true

namespace Host

variable (host : Host)

/-- A call on the memory of a handle and the files. -/
def perform : Call → State × Files Path → State × Files Path
  | .insert kind id effectiveAt, (state, files) =>
    let store := Store.insert ⟨state, files⟩ kind id effectiveAt
    (store.state, store.files)
  | .append event, (state, files) =>
    let store := (host.append ⟨state, files⟩ event).2
    (store.state, store.files)
  | .compact, (state, files) =>
    let store := host.compact ⟨state, files⟩
    (store.state, store.files)

/-- What a call makes of the memory of its handle. -/
def update : Call → State → State
  | .insert kind id effectiveAt, state => state.revoke kind id effectiveAt
  | .append event, state =>
    if state.knows (host.eventHash event) then state
    else state.remember (host.eventHash event) event
  | .compact, state => state

/-- Whether a call decides if the log has an event with a hash: a compaction does, and an
append of such an event that is new to its handle. -/
def writesAbout (hash : String) : Call → State → Bool
  | .insert _ _ _, _ => false
  | .append event, state => decide (host.eventHash event = hash) && !state.knows hash
  | .compact, _ => true

/-- A call on the memory of a handle and the events of the log. -/
def performOnLog (call : Call) (current : State × List (String × Value)) :
    State × List (String × Value) :=
  (host.update call current.1,
    match call with
    | .insert _ _ _ => current.2
    | .append event =>
      if current.1.knows (host.eventHash event) then current.2
      else current.2 ++ [(host.eventHash event, event)]
    | .compact => current.1.proofPayloads)

/-- Data that come back from a file as they were. -/
def Faithful : Call → Prop
  | .insert kind id effectiveAt => Survives ((kind, id), effectiveAt)
  | .append event => host.Settled event
  | .compact => True

/-- What a handle remembers where all data are of that kind. -/
structure Sound (state : State) : Prop where
  order : state.proofOrder = keys state.proofPayloads
  nodup : (keys state.proofPayloads).Nodup
  filed : host.Filed state.proofPayloads
  settled : ∀ entry ∈ state.proofPayloads, host.Settled entry.2
  targets : (keys state.revocations).Nodup
  survive : ∀ entry ∈ state.revocations, Survives entry

/-- The log has the records of these events. -/
structure Logged (files : Files Path) (entries : List (String × Value)) : Prop where
  log : (files .proofLog).getD [] = host.log entries
  filed : host.Filed entries
  settled : ∀ entry ∈ entries, host.Settled entry.2

/-! ## Memories -/

theorem perform_append (event : Value) (state : State) (files : Files Path) :
    host.perform (.append event) (state, files) =
      if state.knows (host.eventHash event) then (state, files)
      else (state.remember (host.eventHash event) event,
        Disk.run (host.appendSteps event) files) := by
  cases known : get? (host.eventHash event) state.proofPayloads with
  | none => simp [perform, append, State.knows, State.remember, known]
  | some value => simp [perform, append, State.knows, known]

theorem isolated : Handles.Private host.perform host.update := by
  intro call state files
  cases call with
  | insert kind id effectiveAt => rfl
  | append event =>
    rw [perform_append, update]
    split <;> rfl
  | compact => rfl

theorem isolated_log : Handles.Private host.performOnLog host.update :=
  fun _ _ _ => rfl

theorem knows_remember (state : State) (hash other : String) (value : Value) :
    (state.remember hash value).knows other = (decide (hash = other) || state.knows other) := by
  rw [State.knows, State.remember, get?_insert]
  by_cases own : hash = other
  · simp [own]
  · simp [own, State.knows]

variable {host : Host}

theorem Sound.remember {state : State} (sound : host.Sound state) {value : Value}
    (settled : host.Settled value) : host.Sound (state.remember (host.eventHash value) value) where
  order := by
    rw [State.remember]
    by_cases present : host.eventHash value ∈ keys state.proofPayloads
    · have known := (state.knows_iff _).mpr present
      rw [State.knows] at known
      rw [if_pos known, keys_insert_of_mem _ present]
      exact sound.order
    · have unknown := (get?_eq_none_iff _ _).mpr present
      rw [unknown, insert_of_not_mem _ _ _ present, sound.order]
      simp [AssocMap.keys]
  nodup := nodup_keys_insert _ _ sound.nodup
  filed := by
    intro entry member
    rcases mem_of_mem_insert member with rfl | earlier
    · rfl
    · exact sound.filed entry earlier
  settled := by
    intro entry member
    rcases mem_of_mem_insert member with rfl | earlier
    · exact settled
    · exact sound.settled entry earlier
  targets := sound.targets
  survive := sound.survive

theorem Sound.update (call : Call) (state : State) (faithful : host.Faithful call)
    (sound : host.Sound state) : host.Sound (host.update call state) := by
  cases call with
  | insert kind id effectiveAt =>
    refine ⟨sound.order, sound.nodup, sound.filed, sound.settled,
      nodup_keys_insert _ _ sound.targets, fun entry member => ?_⟩
    rcases mem_of_mem_insert member with rfl | earlier
    · exact faithful
    · exact sound.survive entry earlier
  | append event =>
    rw [Host.update]
    split
    · exact sound
    · exact sound.remember faithful
  | compact => exact sound

/-! ## Files -/

theorem compact_files (store : Store) :
    (host.compact store).files =
      Function.update (Function.update (Function.update (Function.update store.files .proofLog
        (some (store.state.proofOrder.flatMap (host.payloadChunks store.state)).flatten))
          .proofTmp none) .revocations (some (table store.state))) .revocationsTmp none := by
  rw [compact, persistProofLog, persistRevocations, Disk.run_append, Disk.run_replace,
    Disk.run_replace]
  rfl

/-- Every call but an append writes the table that its handle remembers. -/
theorem tableSnapshots :
    Handles.Snapshots host.perform host.update Call.writesTable
      (fun files => files .revocations) (fun state => some (table state)) where
  isolated := host.isolated
  writes call state files wrote := by
    cases call with
    | insert kind id effectiveAt =>
      change (Store.insert ⟨state, files⟩ kind id effectiveAt).files .revocations = _
      rw [Store.insert_files, update_of_ne (by decide), update_self]
      rfl
    | append event => contradiction
    | compact =>
      change (host.compact ⟨state, files⟩).files .revocations = _
      rw [compact_files, update_of_ne (by decide), update_self]
      rfl
  keeps call state files silent := by
    cases call with
    | append event =>
      rw [perform_append]
      split
      · rfl
      · dsimp only
        rw [run_appendSteps, update_of_ne (by decide)]
    | insert | compact => contradiction
  quiet call state silent := by
    cases call with
    | append event =>
      rw [update]
      split <;> rfl
    | insert | compact => contradiction

/-- Calls keep the log and its events in step. -/
theorem Logged.perform (call : Call) (state : State) (files : Files Path)
    (entries : List (String × Value)) (faithful : host.Faithful call) (sound : host.Sound state)
    (logged : host.Logged files entries) :
    host.Logged (host.perform call (state, files)).2 (host.performOnLog call (state, entries)).2 := by
  cases call with
  | insert kind id effectiveAt =>
    refine ⟨?_, logged.filed, logged.settled⟩
    change ((Store.insert ⟨state, files⟩ kind id effectiveAt).files .proofLog).getD [] = _
    rw [Store.insert_files, update_of_ne (by decide), update_of_ne (by decide)]
    exact logged.log
  | append event =>
    rw [perform_append, performOnLog]
    dsimp only
    split
    · exact logged
    · refine ⟨?_, ?_, ?_⟩
      · dsimp only
        rw [run_appendSteps, update_self, getD_some, logged.log, log_append]
        exact congrArg _ (append_nil _).symm
      · intro entry member
        rcases mem_append.mp member with earlier | last
        · exact logged.filed entry earlier
        · cases mem_singleton.mp last
          rfl
      · intro entry member
        rcases mem_append.mp member with earlier | last
        · exact logged.settled entry earlier
        · cases mem_singleton.mp last
          exact faithful
  | compact =>
    refine ⟨?_, sound.filed, sound.settled⟩
    change ((host.compact ⟨state, files⟩).files .proofLog).getD [] = _
    rw [compact_files, update_of_ne (by decide), update_of_ne (by decide),
      update_of_ne (by decide), update_self, getD_some]
    exact host.flatten_payloadChunks sound.order sound.nodup sound.filed

/-- A call that decides if the log has an event leaves what its handle remembers. -/
theorem logSnapshots (hash : String) :
    Handles.Snapshots host.performOnLog host.update (host.writesAbout hash)
      (fun entries => (get? hash entries).isSome) (fun state => state.knows hash) where
  isolated := host.isolated_log
  writes call state entries wrote := by
    cases call with
    | insert kind id effectiveAt => contradiction
    | append event =>
      obtain ⟨same, unknown⟩ : host.eventHash event = hash ∧ state.knows hash = false := by
        simpa [writesAbout] using wrote
      subst same
      simp [performOnLog, update, unknown, get?_append, get?, knows_remember]
    | compact => rfl
  keeps call state entries silent := by
    cases call with
    | insert kind id effectiveAt => rfl
    | append event =>
      by_cases known : state.knows (host.eventHash event) = true
      · simp [performOnLog, known]
      · have differs : host.eventHash event ≠ hash := by
          rintro rfl
          simp [writesAbout, known] at silent
        simp [performOnLog, known, get?_append, get?, differs]
    | compact => contradiction
  quiet call state silent := by
    cases call with
    | insert kind id effectiveAt => rfl
    | append event =>
      by_cases known : state.knows (host.eventHash event) = true
      · simp [update, known]
      · have differs : host.eventHash event ≠ hash := by
          rintro rfl
          simp [writesAbout, known] at silent
        simp [update, known, knows_remember, differs]
    | compact => contradiction

/-! ## Opening -/

theorem settled_of_readsBack {entry loaded : String × Value} (settled : host.Settled entry.2)
    (readBack : host.ReadsBack entry loaded) : host.Settled loaded.2 := by
  obtain ⟨value, read, -, text⟩ := settled
  have same : value = loaded.2 := some.inj (read.symm.trans readBack.2)
  subst same
  exact ⟨loaded.2, text.symm ▸ read, Value.SameData.refl _, rfl⟩

variable {entries : List (String × Value)}

theorem Sound.rememberAll {state : State} (sound : host.Sound state) (filed : host.Filed entries)
    (settled : ∀ entry ∈ entries, host.Settled entry.2) :
    host.Sound (entries.foldl (fun known entry => known.remember entry.1 entry.2) state) := by
  induction entries generalizing state with
  | nil => exact sound
  | cons entry entries ih =>
    have here := sound.remember (settled entry mem_cons_self)
    rw [← filed entry mem_cons_self] at here
    exact ih here (fun later member => filed later (mem_cons_of_mem entry member))
      (fun later member => settled later (mem_cons_of_mem entry member))

theorem knows_rememberAll (entries : List (String × Value)) (state : State) (hash : String) :
    (entries.foldl (fun known entry => known.remember entry.1 entry.2) state).knows hash =
      (state.knows hash || (get? hash entries).isSome) := by
  induction entries generalizing state with
  | nil => simp [get?]
  | cons entry entries ih =>
    rw [foldl_cons, ih, knows_remember, get?]
    by_cases own : entry.1 = hash
    · simp [own]
    · simp [own]

theorem revocations_rememberAll (entries : List (String × Value)) (state : State) :
    (entries.foldl (fun known entry => known.remember entry.1 entry.2) state).revocations =
      state.revocations := by
  induction entries generalizing state with
  | nil => rfl
  | cons entry entries ih => exact ih (state.remember entry.1 entry.2)

theorem sound_empty : host.Sound .empty where
  order := rfl
  nodup := nodup_nil
  filed := fun _ member => nomatch member
  settled := fun _ member => nomatch member
  targets := nodup_nil
  survive := fun _ member => nomatch member

variable {files : Files Path}

/-- A log is read back as its events. -/
theorem Logged.load (logged : host.Logged files entries) :
    ∃ proofs, loadFile host.loadProof (files .proofLog) .empty = .ok proofs ∧
      host.Sound proofs ∧ proofs.revocations = [] ∧
      ∀ hash, proofs.knows hash = (get? hash entries).isSome := by
  obtain ⟨loaded, readBack, kept⟩ := host.exists_loaded logged.settled (host.kept_self entries)
  have settled : ∀ entry ∈ loaded, host.Settled entry.2 := by
    intro entry member
    obtain ⟨original, listed, here⟩ := exists_of_forall₂ readBack member
    exact host.settled_of_readsBack (logged.settled original listed) here
  have keys := host.keys_of_readsBack readBack
  refine ⟨_, ?_, host.sound_empty.rememberAll (host.filed_of_kept logged.filed kept) settled, ?_, ?_⟩
  · rw [loadFile_eq_loadLines, logged.log, ← append_nil (host.log entries),
      host.loadLines_log_iff logged.filed]
    exact ⟨loaded, readBack, rfl⟩
  · exact revocations_rememberAll loaded .empty
  · intro hash
    rw [knows_rememberAll, Bool.eq_iff_iff]
    change (false || (get? hash loaded).isSome) = true ↔ _
    rw [Bool.false_or, isSome_iff_exists, isSome_iff_exists, ← mem_keys_iff, ← mem_keys_iff, keys]

/-- A line of the table that is accepted is accepted whatever the log had. -/
theorem loadRevocation_other {lineNo : Nat} {line : List Char} {state next : State}
    (accepted : host.loadRevocation lineNo line state = .ok next) (other : State) :
    ∃ kind id effectiveAt, next = state.revoke kind id effectiveAt ∧
      host.loadRevocation lineNo line other = .ok (other.revoke kind id effectiveAt) := by
  unfold loadRevocation at accepted ⊢
  split at accepted
  · obtain ⟨kind, readKind, later⟩ := bind_eq_ok accepted
    obtain ⟨id, readId, later⟩ := bind_eq_ok later
    obtain ⟨effectiveAt, readTime, last⟩ := bind_eq_ok later
    refine ⟨kind, id, effectiveAt, (ok.inj last).symm, ?_⟩
    rw [readKind, readId, readTime]
    rfl
  · contradiction

theorem loadLines_other {i : Nat} {lines : List (Option (List Char))} {state final other : State}
    (loaded : loadLines host.loadRevocation i lines state = .ok final)
    (same : other.revocations = state.revocations) :
    ∃ final', loadLines host.loadRevocation i lines other = .ok final' ∧
      final'.revocations = final.revocations := by
  induction lines generalizing i state other with
  | nil =>
    cases loaded
    exact ⟨other, rfl, same⟩
  | cons line lines ih =>
    cases line with
    | none => contradiction
    | some line =>
      rw [loadLines] at loaded ⊢
      split at loaded
      case isTrue blank =>
        rw [if_pos blank]
        exact ih loaded same
      case isFalse solid =>
        rw [if_neg solid]
        obtain ⟨next, accepted, later⟩ := bind_eq_ok loaded
        obtain ⟨kind, id, effectiveAt, rfl, read⟩ := host.loadRevocation_other accepted other
        rw [read]
        refine ih later ?_
        rw [State.revoke, State.revoke, same]

/-- Reading the table leaves the events alone. -/
theorem payloads_loadFile {file : Option Bytes} {state final : State}
    (loaded : loadFile host.loadRevocation file state = .ok final) :
    final.proofOrder = state.proofOrder ∧ final.proofPayloads = state.proofPayloads := by
  rw [loadFile_eq_loadLines] at loaded
  refine loadLines_invariant (P := fun known => known.proofOrder = state.proofOrder ∧
    known.proofPayloads = state.proofPayloads) ?_ loaded ⟨rfl, rfl⟩
  intro lineNo line known next accepted kept
  obtain ⟨kind, id, effectiveAt, rfl⟩ := host.of_loadRevocation accepted
  exact kept

variable {store : Store}

/-- A handle that is opened on a log of settled events remembers them. -/
theorem Logged.opened (logged : host.Logged files entries)
    (opened : host.openStore files = .ok store) :
    ∃ proofs, host.Sound proofs ∧
      (∀ hash, proofs.knows hash = (get? hash entries).isSome) ∧
      store.state.proofOrder = proofs.proofOrder ∧
      store.state.proofPayloads = proofs.proofPayloads := by
  obtain ⟨proofs, loaded, sound, -, knows⟩ := logged.load
  obtain ⟨state, both, equal⟩ := bind_eq_ok opened
  obtain ⟨first, log, table⟩ := bind_eq_ok both
  cases ok.inj (loaded.symm.trans log)
  cases ok.inj equal
  exact ⟨proofs, sound, knows, host.payloads_loadFile table⟩

theorem Logged.knows (logged : host.Logged files entries)
    (opened : host.openStore files = .ok store) (hash : String) :
    store.state.knows hash = (get? hash entries).isSome := by
  obtain ⟨proofs, -, knows, -, payloads⟩ := logged.opened opened
  rw [← knows, State.knows, State.knows, payloads]

theorem Logged.sound (logged : host.Logged files entries)
    (opened : host.openStore files = .ok store)
    (survive : ∀ entry ∈ store.state.revocations, Survives entry) : host.Sound store.state := by
  obtain ⟨proofs, sound, -, order, payloads⟩ := logged.opened opened
  obtain ⟨_, read⟩ := host.opened_of_openStore opened
  exact
    { order := order.trans (payloads ▸ sound.order)
      nodup := payloads ▸ sound.nodup
      filed := payloads ▸ sound.filed
      settled := payloads ▸ sound.settled
      targets := read.nodup
      survive := survive }

/-- What is opened where the log and the table are known. -/
theorem openStore_of_load {proofs final : State}
    (log : loadFile host.loadProof (files .proofLog) .empty = .ok proofs)
    (table : loadFile host.loadRevocation (files .revocations) proofs = .ok final) :
    host.openStore files = .ok ⟨final, cleanupStaleTemps files⟩ := by
  have both : host.load (cleanupStaleTemps files) = .ok final :=
    bind_eq_ok_iff.mpr ⟨proofs, log, table⟩
  rw [openStore, both]
  rfl

/-- A table that a handle wrote is read back as the handle remembers it. -/
theorem load_table {state proofs : State} (targets : (keys state.revocations).Nodup)
    (survive : ∀ entry ∈ state.revocations, Survives entry) (none : proofs.revocations = []) :
    ∃ final, loadFile host.loadRevocation (some (table state)) proofs = .ok final ∧
      ∀ key, get? key final.revocations = get? key state.revocations := by
  have sorted : (keys state.sortedRevocations).Nodup :=
    (state.perm_sortedRevocations.map Prod.fst).nodup_iff.mpr targets
  refine ⟨_, host.loadLines_table state.sortedRevocations 0 proofs, fun key => ?_⟩
  have read := ofPairs_of_nodup _ (nodup_keys_survivors sorted)
  rw [foldl_revoke, none, ← ofPairs, read]
  exact (get?_survivors_iff state.perm_sortedRevocations targets).mpr survive key

/-! ## Runs -/

/-- The log after the calls of several handles has exactly the events that the last handle to
decide about them has. -/
theorem knows_run {ι : Type} [DecidableEq ι] {world : Handles.World ι State (Files Path)}
    (sound : ∀ handle, host.Sound (world.memory handle)) (current : host.Logged world.files entries)
    {calls : List (ι × Call)} (faithful : ∀ call ∈ calls, host.Faithful call.2) :
    ∃ after, host.Logged (world.run host.perform calls).files after ∧
      ∀ hash, (get? hash after).isSome =
        ((lastWriter host.update (host.writesAbout hash) world.memory calls).map
          fun handle => (remember host.update (world.memory handle)
            (callsOf handle calls)).knows hash).getD
              (get? hash entries).isSome :=
  ⟨_, run_related host.isolated host.isolated_log Sound.update Logged.perform faithful
      sound current,
    fun hash => view_run (host.logSnapshots hash) ⟨world.memory, entries⟩ calls⟩

/-- The table after the calls of several handles is read as the one that the last handle to
write it has. -/
theorem load_table_run {ι : Type} [DecidableEq ι] {world : Handles.World ι State (Files Path)}
    {start : Store} {proofs : State} (sound : ∀ handle, host.Sound (world.memory handle))
    (started : host.openStore world.files = .ok start) {calls : List (ι × Call)}
    (faithful : ∀ call ∈ calls, host.Faithful call.2) (none : proofs.revocations = []) :
    ∃ final, loadFile host.loadRevocation
        ((world.run host.perform calls).files .revocations) proofs = .ok final ∧
      ∀ key, get? key final.revocations =
        get? key
          (((lastWriter host.update Call.writesTable world.memory calls).map fun handle =>
            (remember host.update (world.memory handle)
              (callsOf handle calls)).revocations).getD start.state.revocations) := by
  have written := view_run host.tableSnapshots world calls
  cases writer : lastWriter host.update Call.writesTable world.memory calls with
  | none =>
    rw [writer, map_none, getD_none] at written
    obtain ⟨earlier, read⟩ := host.opened_of_openStore started
    obtain ⟨state, both, equal⟩ := bind_eq_ok started
    obtain ⟨first, log, table⟩ := bind_eq_ok both
    cases ok.inj (read.proofs_eq.symm.trans log)
    cases ok.inj equal
    rw [written]
    rw [loadFile_eq_loadLines] at table ⊢
    obtain ⟨final, loaded, same⟩ := host.loadLines_other table (none.trans read.noRevocations.symm)
    exact ⟨final, loaded, fun key => congrArg (get? key) same⟩
  | some handle =>
    rw [writer, map_some, getD_some] at written
    have allowed : ∀ op ∈ callsOf handle calls, host.Faithful op := fun op member =>
      faithful _ (mem_of_mem_callsOf member)
    have last := remember_invariant Sound.update allowed (sound handle)
    rw [written]
    exact host.load_table last.targets last.survive none

theorem mem_list_iff (targets : (keys store.state.revocations).Nodup) (kind id effectiveAt : String) :
    (kind, id, effectiveAt) ∈ store.list ↔
      get? (kind, id) store.state.revocations = some effectiveAt := by
  rw [get?_eq_some_iff_of_nodup _ targets,
    ← store.state.perm_sortedRevocations.mem_iff, Store.list, mem_map]
  constructor
  · rintro ⟨entry, member, same⟩
    cases same
    exact member
  · intro member
    exact ⟨((kind, id), effectiveAt), member, rfl⟩

/-- Any number of handles on one root, each opened when the files were as in `origin`.  After
their calls the root opens.  The table is the one that the last handle to write it remembers,
and an event is in the log exactly if the last handle whose call decided about it has it; a
handle remembers what it found when it was opened, and its own calls. -/
theorem reopened_store_last_writer {ι : Type} [DecidableEq ι] (host : Host)
    (world : Handles.World ι State (Files Path)) (origin : ι → Files Path)
    (opened : ∀ handle, host.openStore (origin handle) =
      .ok ⟨world.memory handle, cleanupStaleTemps (origin handle)⟩)
    (logged : ∀ handle, ∃ entries, host.Logged (origin handle) entries)
    (survive : ∀ handle, ∀ entry ∈ (world.memory handle).revocations, Survives entry)
    (start : Store) (started : host.openStore world.files = .ok start)
    (current : ∃ entries, host.Logged world.files entries)
    (calls : List (ι × Call)) (faithful : ∀ call ∈ calls, host.Faithful call.2) :
    ∃ reopened, host.openStore (world.run host.perform calls).files = .ok reopened ∧
      (∀ kind id effectiveAt, (kind, id, effectiveAt) ∈ reopened.list ↔
        get? (kind, id)
          (((lastWriter host.update Call.writesTable world.memory calls).map fun handle =>
            (remember host.update (world.memory handle)
              (callsOf handle calls)).revocations).getD start.state.revocations) =
            some effectiveAt) ∧
      ∀ hash, (reopened.lookup hash).isSome =
        ((lastWriter host.update (host.writesAbout hash) world.memory calls).map
          fun handle => (remember host.update (world.memory handle)
            (callsOf handle calls)).knows hash).getD (start.lookup hash).isSome := by
  have sound : ∀ handle, host.Sound (world.memory handle) := by
    intro handle
    obtain ⟨entries, log⟩ := logged handle
    exact log.sound (opened handle) (survive handle)
  obtain ⟨entries, log⟩ := current
  obtain ⟨after, logAfter, decided⟩ := knows_run sound log faithful
  obtain ⟨proofs, loaded, -, none, -⟩ := logAfter.load
  obtain ⟨final, table, listed⟩ := load_table_run sound started faithful none
  have reopened := host.openStore_of_load loaded table
  refine ⟨_, reopened, ?_, ?_⟩
  · intro kind id effectiveAt
    obtain ⟨_, read⟩ := host.opened_of_openStore reopened
    rw [mem_list_iff read.nodup, listed]
  · intro hash
    have before : (start.lookup hash).isSome = _ := log.knows started hash
    rw [before, ← decided]
    exact logAfter.knows reopened hash

/-- Two handles on an empty root. -/
def twoHandles : Handles.World Bool State (Files Path) where
  memory := fun _ => .empty
  files := emptyRoot

/-- One handle revokes an actor and appends an event, then the other compacts. -/
def writeThenCompact : List (Bool × Call) :=
  [(false, .insert "actor" "a" "2026-01-01"), (false, .append (.string "e")), (true, .compact)]

theorem logged_emptyRoot (host : Host) : host.Logged emptyRoot [] where
  log := rfl
  filed := fun _ member => nomatch member
  settled := fun _ member => nomatch member

theorem opened_emptyRoot (host : Host) :
    host.openStore emptyRoot = .ok ⟨.empty, cleanupStaleTemps emptyRoot⟩ := by
  rw [cleanupStaleTemps_emptyRoot]
  exact host.openStore_emptyRoot

theorem settled_e : sampleHost.Settled (.string "e") :=
  sampleHost.settled_of_normalised Json.Runtime.composing_nfcIdempotent rfl rfl (by decide) rfl

theorem second_handle_compacts :
    ∃ reopened,
      sampleHost.openStore (twoHandles.run sampleHost.perform writeThenCompact).files =
        .ok reopened ∧
      (∀ kind id effectiveAt, (kind, id, effectiveAt) ∈ reopened.list ↔
        get? (kind, id)
          (remember sampleHost.update .empty [.compact]).revocations = some effectiveAt) ∧
      ∀ hash, (reopened.lookup hash).isSome =
        (remember sampleHost.update .empty [.compact]).knows hash := by
  have opened := opened_emptyRoot sampleHost
  refine sampleHost.reopened_store_last_writer twoHandles (fun _ => emptyRoot) (fun _ => opened)
    (fun _ => ⟨[], logged_emptyRoot sampleHost⟩) (fun _ _ member => nomatch member) _ opened
    ⟨[], logged_emptyRoot sampleHost⟩ writeThenCompact ?_
  have survives : Survives (("actor", "a"), "2026-01-01") := by
    decide +kernel
  simp only [writeThenCompact, forall_mem_cons]
  exact ⟨survives, settled_e, trivial, fun _ member => nomatch member⟩

/-- The revocation and the event that the first handle wrote are gone. -/
theorem first_handle_is_lost :
    (∀ handle, sampleHost.openStore twoHandles.files =
      .ok ⟨twoHandles.memory handle, cleanupStaleTemps twoHandles.files⟩) ∧
    ((sampleHost.openStore (twoHandles.run sampleHost.perform writeThenCompact).files).map
      fun reopened => (reopened.list, reopened.lookup (sampleHost.eventHash (.string "e")))) =
        .ok ([], none) :=
  ⟨fun _ => opened_emptyRoot sampleHost, rfl⟩

end Host

end TrustForge.FileStore
