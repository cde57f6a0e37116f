import TrustForge.FileStore.Ledger

/-!
# A crash in the middle of a record

A crash may leave any first part of a record at the end of the log.  `load` takes such a
part for a line like any other: it refuses the whole log unless nothing of the record was
written, or everything but the line feed.
-/

namespace TrustForge.FileStore

open Lines Text List Option Function
open Json (Value)
open Disk (Files)

variable {store : Store} {event : Value}

namespace Host

variable (host : Host)

/-- The files when a crash stops `append` after some bytes of its record.  Nothing is
written for an event that is known. -/
def torn (store : Store) (event : Value) (cut : Nat) : Files Path :=
  if (store.lookup (host.eventHash event)).isSome then store.files
  else
    Disk.run (.touch .proofLog :: Disk.writeAll .proofLog [(host.record event).take cut])
      store.files

theorem torn_of_known (cut : Nat) (known : (store.lookup (host.eventHash event)).isSome) :
    host.torn store event cut = store.files :=
  if_pos known

theorem torn_of_unknown (cut : Nat) (unknown : store.lookup (host.eventHash event) = none) :
    host.torn store event cut =
      Function.update store.files .proofLog
        (some ((store.files .proofLog).getD [] ++ (host.record event).take cut)) := by
  have touched : (Disk.Step.touch Path.proofLog).apply store.files .proofLog =
      some ((store.files .proofLog).getD []) := by
    rw [Disk.Step.apply, update_self]
  rw [torn, unknown, if_neg (by decide), Disk.run_cons, Disk.run_writeAll Path.proofLog _ touched,
    Disk.Step.apply, update_idem, flatten_singleton]

/-! ## Lines that are not finished -/

/-- The line of an event's record. -/
def eventLine (event : Value) : List Char :=
  host.recordLine (host.eventHash event) (host.canonicalize event)

/-- No part of the canonical text has the hash of the whole. -/
def NoPartCollides (event : Value) : Prop :=
  ∀ part, part <+: host.encode event →
    host.sha256Hashref (utf8 (String.ofList part)) = host.eventHash event →
      part = host.encode event

variable {event : Value}

/-- A first part of a record that `load` accepts is the whole record. -/
theorem eq_eventLine_of_loadProof (apart : host.NoPartCollides event)
    {part : List Char} (within : part <+: host.eventLine event) {lineNo : Nat}
    {state next : State} (accepted : host.loadProof lineNo part state = .ok next) :
    part = host.eventLine event := by
  rcases host.of_loadProof accepted with
    ⟨hash, checksum, payload, _, fields, _, sameHash, _⟩
  rcases eq_append_of_splitn_three fields with ⟨shape, plainHash, plainChecksum⟩
  rcases within with ⟨rest, whole⟩
  -- the fields of the part are those of the record, but for the end of the payload
  rw [shape, eventLine, recordLine, canonicalize_toList, append_assoc, cons_append] at whole
  rcases eq_of_append_separator plainHash (host.not_mem_sha256Hashref (by decide) _) whole
    with ⟨equalHash, later⟩
  rw [append_assoc, cons_append] at later
  rcases eq_of_append_separator plainChecksum (host.not_mem_sha256Hashref (by decide) _) later
    with ⟨equalChecksum, last⟩
  rw [equalHash, String.ofList_toList] at sameHash
  have equalPayload := apart payload ⟨rest, last⟩ sameHash.symm
  rw [shape, equalHash, equalChecksum, equalPayload, ← canonicalize_toList]
  rfl

theorem eventLine_eq_cons (event : Value) : ∃ rest, host.eventLine event = 's' :: rest := by
  rw [eventLine, recordLine, eventHash, sha256Hashref, String.toList_append]
  exact ⟨_, rfl⟩

/-- No first part of a record is blank. -/
theorem trim_ne_nil_of_prefix {part : List Char} (written : part ≠ [])
    (within : part <+: host.eventLine event) : trim part ≠ [] := by
  rcases host.eventLine_eq_cons event with ⟨rest, shape⟩
  intro blank
  cases part with
  | nil => exact written rfl
  | cons c part =>
    rw [shape, cons_prefix_cons] at within
    have space := (trim_eq_nil_iff _).mp blank c mem_cons_self
    rw [within.1] at space
    exact absurd space (by decide)

/-- What `load` makes of the end of a log that has no line feed. -/
theorem loadLines_part_iff (apart : host.NoPartCollides event) {part : Bytes}
    (written : part ≠ []) (within : part <+: utf8 (String.ofList (host.eventLine event)))
    (i : Nat) (state final : State) :
    loadLines host.loadProof i (readLines part) state = .ok final ↔
      part = utf8 (String.ofList (host.eventLine event)) ∧
        host.loadProof (i + 1) (host.eventLine event) state = .ok final := by
  have newline : '\n' ∉ host.eventLine event :=
    host.not_mem_recordLine (by decide) (by decide) event
  have inside : lineFeed ∉ part := fun member =>
    lineFeed_not_mem_utf8 newline (within.subset member)
  rw [readLines_of_not_mem inside written]
  cases decoded : ofUtf8? part with
  | none =>
    -- the part ends within a character
    constructor
    · intro loaded
      contradiction
    · rintro ⟨whole, _⟩
      rw [whole, ofUtf8?_utf8] at decoded
      contradiction
  | some text =>
    have bytes := utf8_of_ofUtf8? decoded
    have textWithin : text.toList <+: host.eventLine event := by
      apply prefix_of_utf8_prefix
      rw [String.ofList_toList, bytes]
      exact within
    have textWritten : text.toList ≠ [] := by
      intro empty
      rw [← bytes, ← String.ofList_toList (s := text), empty] at written
      exact written rfl
    have chomped : chomp text.toList = text.toList :=
      chomp_of_not_mem fun member => newline (textWithin.subset member)
    have single : loadLines host.loadProof i [some text.toList] state =
        host.loadProof (i + 1) text.toList state := by
      rw [loadLines, if_neg (host.trim_ne_nil_of_prefix textWritten textWithin)]
      cases host.loadProof (i + 1) text.toList state with
      | error | ok => rfl
    rw [map_some, chomped, single]
    constructor
    · intro accepted
      have whole := host.eq_eventLine_of_loadProof apart textWithin accepted
      exact ⟨by rw [← whole, String.ofList_toList, bytes], whole ▸ accepted⟩
    · rintro ⟨whole, accepted⟩
      rw [utf8_injective (bytes.trans whole), String.toList_ofList]
      exact accepted

/-- What `load` makes of the first bytes of a record at the end of a log. -/
theorem loadLines_torn_iff (apart : host.NoPartCollides event) (cut i : Nat) (state final : State) :
    loadLines host.loadProof i (readLines ((host.record event).take cut)) state = .ok final ↔
      (cut = 0 ∧ final = state) ∨
        ((host.record event).length ≤ cut + 1 ∧
          ∃ value, Json.fromStr host.readF64 (host.canonicalize event) = some value ∧
            final = state.remember (host.eventHash event) value) := by
  have shape : host.record event =
      utf8 (String.ofList (host.eventLine event)) ++ [lineFeed] := host.record_eq event
  have positive : 0 < (utf8 (String.ofList (host.eventLine event))).length := by
    rcases host.eventLine_eq_cons event with ⟨rest, line⟩
    rw [line, utf8_ofList, flatMap_cons, length_append]
    exact Nat.add_pos_left (by decide) _
  have size : (host.record event).length =
      (utf8 (String.ofList (host.eventLine event))).length + 1 := by
    rw [shape, length_append, length_singleton]
  rcases Nat.eq_zero_or_pos cut with nothing | something
  · have short : ¬(host.record event).length ≤ cut + 1 := by omega
    rw [or_iff_left fun later => short later.1, nothing, take_zero, readLines_nil, loadLines]
    simp [eq_comm]
  rw [or_iff_right fun none => ne_of_gt something none.1]
  rcases lt_or_ge cut (host.record event).length with inside | whole
  · have part : (host.record event).take cut =
        (utf8 (String.ofList (host.eventLine event))).take cut := by
      rw [shape, take_append_of_le_length (by omega)]
    have written : (utf8 (String.ofList (host.eventLine event))).take cut ≠ [] := by
      rw [← length_pos_iff, length_take]
      omega
    rw [part, host.loadLines_part_iff apart written (List.take_prefix _ _), eventLine,
      host.loadProof_recordLine_iff, ← eventLine]
    refine and_congr_left fun _ => ⟨fun equal => ?_, fun long => take_of_length_le (by omega)⟩
    have length := congrArg List.length equal
    rw [length_take] at length
    omega
  · have long : (host.record event).length ≤ cut + 1 := by omega
    have record := host.loadLines_record_iff i event [] state final
    rw [append_nil] at record
    rw [take_of_length_le whole, record, and_iff_right long]
    simp [readLines_nil, loadLines, eq_comm]

end Host

/-- The reopened store has every event of the store before the crash, in order. -/
structure Recovers (store reopened : Store) : Prop where
  lookup : ∀ hash value, store.lookup hash = some value →
    ∃ found, reopened.lookup hash = some found ∧ value.SameData found
  tail : ∃ known later, reopened.tail reopened.state.proofOrder.length = known ++ later ∧
    Forall₂ Value.SameData (store.tail store.state.proofOrder.length) known

namespace Host

variable (host : Host)

/-- The events come back when their canonical texts say the same. -/
theorem recovers_iff {store reopened : Store} (coherent : host.Coherent store)
    {loaded more : List (String × Value)}
    (readBack : Forall₂ host.ReadsBack store.state.proofPayloads loaded)
    (payloads : reopened.state.proofPayloads = loaded ++ more)
    (order : reopened.state.proofOrder = AssocMap.keys reopened.state.proofPayloads)
    (nodup : (AssocMap.keys reopened.state.proofPayloads).Nodup) :
    Recovers store reopened ↔
      ∀ entry ∈ store.state.proofPayloads, ∃ value,
        Json.fromStr host.readF64 (host.canonicalize entry.2) = some value ∧
          entry.2.SameData value := by
  have stored := AssocMap.get?_eq_some_iff_of_nodup _ coherent.nodup
  have kept := AssocMap.get?_eq_some_iff_of_nodup _ nodup
  have found {entry : String × Value} (member : entry ∈ store.state.proofPayloads) :
      ∃ value, Json.fromStr host.readF64 (host.canonicalize entry.2) = some value ∧
        reopened.lookup entry.1 = some value := by
    rcases Result.exists_of_forall₂ readBack.flip member with ⟨⟨hash, value⟩, listed, same, read⟩
    refine ⟨value, read, (kept _ _).mpr ?_⟩
    rw [payloads, ← same]
    exact mem_append_left more listed
  constructor
  · intro recovers entry member
    rcases found member with ⟨value, read, here⟩
    rcases recovers.lookup entry.1 entry.2 ((stored _ _).mpr member) with ⟨other, there, same⟩
    rw [here, some.injEq] at there
    exact ⟨value, read, there ▸ same⟩
  · intro same
    have data {entry : String × Value} (member : entry ∈ store.state.proofPayloads) {value : Value}
        (read : Json.fromStr host.readF64 (host.canonicalize entry.2) = some value) :
        entry.2.SameData value := by
      rcases same entry member with ⟨other, readAgain, data⟩
      rw [read, some.injEq] at readAgain
      exact readAgain ▸ data
    constructor
    · intro hash value known
      have member := (stored hash value).mp known
      rcases found member with ⟨other, read, here⟩
      exact ⟨other, here, data member read⟩
    · refine ⟨loaded.map Prod.snd, more.map Prod.snd, ?_, ?_⟩
      · rw [tail_eq order nodup, order, AssocMap.keys, length_map, Nat.sub_self,
          drop_zero, payloads, map_append]
      · rw [tail_eq coherent.order coherent.nodup, coherent.order, AssocMap.keys, length_map,
          Nat.sub_self, drop_zero, forall₂_map_left_iff, forall₂_map_right_iff]
        have members : Forall₂ (fun entry back => entry ∈ store.state.proofPayloads ∧
            host.ReadsBack entry back) store.state.proofPayloads loaded :=
          forall₂_and_left _ _ |>.mpr ⟨fun _ member => member, readBack⟩
        exact members.imp fun _ _ here => data here.1 here.2.2

/-- The entries that the end of the log adds. -/
def TornEnd (store : Store) (event : Value) (cut : Nat) (more : List (String × Value)) : Prop :=
  ((store.lookup (host.eventHash event)).isSome ∨ cut = 0) ∧ more = [] ∨
    store.lookup (host.eventHash event) = none ∧ (host.record event).length ≤ cut + 1 ∧
      ∃ value, Json.fromStr host.readF64 (host.canonicalize event) = some value ∧
        more = [(host.eventHash event, value)]

/-- What is opened after a crash. -/
theorem openStore_torn_iff (coherent : host.Coherent store) (apart : host.NoPartCollides event)
    (cut : Nat) (reopened : Store) :
    host.openStore (host.torn store event cut) = .ok reopened ↔
      ∃ loaded more, Forall₂ host.ReadsBack store.state.proofPayloads loaded ∧
        host.TornEnd store event cut more ∧
        reopened = ⟨⟨AssocMap.keys (loaded ++ more), loaded ++ more, []⟩,
          cleanupStaleTemps (host.torn store event cut)⟩ := by
  cases known : store.lookup (host.eventHash event) with
  | some value =>
    have present : (store.lookup (host.eventHash event)).isSome := by rw [known]; rfl
    rw [host.torn_of_known cut present, host.openStore_coherent_iff coherent]
    constructor
    · rintro ⟨loaded, readBack, equal⟩
      refine ⟨loaded, [], readBack, .inl ⟨.inl present, rfl⟩, ?_⟩
      rw [equal, append_nil, host.keys_of_readsBack readBack]
    · rintro ⟨loaded, more, readBack, ⟨_, none⟩ | ⟨unknown, _⟩, equal⟩
      · refine ⟨loaded, readBack, ?_⟩
        rw [equal, none, append_nil, host.keys_of_readsBack readBack]
      · rw [unknown] at known
        contradiction
  | none =>
    have log : (host.torn store event cut .proofLog).getD [] =
        host.log store.state.proofPayloads ++ (host.record event).take cut := by
      rw [host.torn_of_unknown cut known, update_self, getD_some, coherent.log]
    have table : (host.torn store event cut .revocations).getD [] = [] := by
      rw [host.torn_of_unknown cut known, update_of_ne (by decide)]
      exact coherent.emptyTable
    have absent := (AssocMap.get?_eq_none_iff _ _).mp known
    have remembered {loaded : List (String × Value)}
        (readBack : Forall₂ host.ReadsBack store.state.proofPayloads loaded)
        (value : Value) :
        State.remember ⟨AssocMap.keys store.state.proofPayloads, loaded, []⟩
            (host.eventHash event) value =
          ⟨AssocMap.keys (loaded ++ [(host.eventHash event, value)]),
            loaded ++ [(host.eventHash event, value)], []⟩ := by
      have keys := host.keys_of_readsBack readBack
      rw [← keys] at absent ⊢
      rw [State.remember, (AssocMap.get?_eq_none_iff _ _).mpr absent,
        AssocMap.insert_of_not_mem _ _ _ absent]
      simp [AssocMap.keys]
    rw [host.openStore_iff coherent.filed coherent.nodup log table]
    simp only [host.loadLines_torn_iff apart]
    constructor
    · rintro ⟨loaded, state, readBack, ⟨nothing, equal⟩ | ⟨long, value, read, equal⟩, opened⟩
      · refine ⟨loaded, [], readBack, .inl ⟨.inr nothing, rfl⟩, ?_⟩
        rw [opened, equal, append_nil, host.keys_of_readsBack readBack]
      · refine ⟨loaded, _, readBack, .inr ⟨known, long, value, read, rfl⟩, ?_⟩
        rw [opened, equal, remembered readBack]
    · rintro ⟨loaded, more, readBack, ⟨known' | nothing, none⟩ | ⟨_, long, value, read, one⟩,
        opened⟩
      · rw [known] at known'
        contradiction
      · refine ⟨loaded, _, readBack, .inl ⟨nothing, rfl⟩, ?_⟩
        rw [opened, none, append_nil, host.keys_of_readsBack readBack]
      · refine ⟨loaded, _, readBack, .inr ⟨long, value, read, rfl⟩, ?_⟩
        rw [opened, one, remembered readBack]

theorem nodup_of_tornEnd (coherent : host.Coherent store) {cut : Nat}
    {loaded more : List (String × Value)}
    (readBack : Forall₂ host.ReadsBack store.state.proofPayloads loaded)
    (ending : host.TornEnd store event cut more) : (AssocMap.keys (loaded ++ more)).Nodup := by
  have keys := host.keys_of_readsBack readBack
  have nodup : (AssocMap.keys loaded).Nodup := keys ▸ coherent.nodup
  rcases ending with ⟨_, none⟩ | ⟨unknown, _, value, _, one⟩
  · rw [none, append_nil]
    exact nodup
  · have absent := (AssocMap.get?_eq_none_iff _ _).mp unknown
    rw [← keys] at absent
    rw [one]
    exact AssocMap.nodup_keys_concat value absent nodup

theorem exists_readsBack {entries : List (String × Value)}
    (readable : ∀ entry ∈ entries, ∃ value,
      Json.fromStr host.readF64 (host.canonicalize entry.2) = some value) :
    ∃ loaded, Forall₂ host.ReadsBack entries loaded := by
  induction entries with
  | nil => exact ⟨[], .nil⟩
  | cons entry entries ih =>
    rcases readable entry mem_cons_self with ⟨value, read⟩
    rcases ih fun later member => readable later (mem_cons_of_mem entry member) with
      ⟨loaded, readBack⟩
    exact ⟨(entry.1, value) :: loaded, .cons ⟨rfl, read⟩ readBack⟩

/-- After a crash the ledger opens with every event it had exactly when their canonical texts
say them, and nothing of the record was written or all of its line. -/
theorem recovers_torn_iff (events : List Value) {event : Value}
    (apart : host.NoPartCollides event) (cut : Nat) :
    (∃ reopened,
        host.openStore (host.torn (host.appendAll events fresh).2 event cut) = .ok reopened ∧
          Recovers (host.appendAll events fresh).2 reopened) ↔
      (∀ entry ∈ (host.appendAll events fresh).2.state.proofPayloads, ∃ value,
        Json.fromStr host.readF64 (host.canonicalize entry.2) = some value ∧
          entry.2.SameData value) ∧
        (((host.appendAll events fresh).2.lookup (host.eventHash event)).isSome ∨ cut = 0 ∨
          (host.record event).length ≤ cut + 1 ∧
            (Json.fromStr host.readF64 (host.canonicalize event)).isSome) := by
  have coherent := host.coherent_appendAll host.coherent_fresh events
  generalize (host.appendAll events fresh).2 = store at coherent
  constructor
  · rintro ⟨reopened, opened, recovers⟩
    rcases (host.openStore_torn_iff coherent apart cut reopened).mp opened with
      ⟨loaded, more, readBack, ending, equal⟩
    subst equal
    refine ⟨(host.recovers_iff coherent readBack rfl rfl
      (host.nodup_of_tornEnd coherent readBack ending)).mp recovers, ?_⟩
    rcases ending with ⟨known | nothing, _⟩ | ⟨_, long, value, read, _⟩
    · exact .inl known
    · exact .inr (.inl nothing)
    · exact .inr (.inr ⟨long, by rw [read]; rfl⟩)
  · rintro ⟨same, written⟩
    rcases host.exists_readsBack fun entry member =>
      (same entry member).imp fun _ here => here.1 with ⟨loaded, readBack⟩
    have ending : ∃ more, host.TornEnd store event cut more := by
      cases known : store.lookup (host.eventHash event) with
      | some value => exact ⟨[], .inl ⟨.inl (by rw [known]; rfl), rfl⟩⟩
      | none =>
        rw [known] at written
        rcases written with known' | nothing | ⟨long, readable⟩
        · contradiction
        · exact ⟨[], .inl ⟨.inr nothing, rfl⟩⟩
        · rcases isSome_iff_exists.mp readable with ⟨value, read⟩
          exact ⟨_, .inr ⟨known, long, value, read, rfl⟩⟩
    rcases ending with ⟨more, ending⟩
    refine ⟨_, (host.openStore_torn_iff coherent apart cut _).mpr
      ⟨loaded, more, readBack, ending, rfl⟩, ?_⟩
    exact (host.recovers_iff coherent readBack rfl rfl
      (host.nodup_of_tornEnd coherent readBack ending)).mpr same

theorem sampleHost_noPartCollides : sampleHost.NoPartCollides .null := by
  intro part within same
  have short : part.length ≤ 4 := within.length_le
  -- the hash of the sample is the length, which only the whole text has
  rw [prefix_iff_eq_take.mp within] at same ⊢
  generalize part.length = n at short same
  have other : ∀ m < 4, sampleHost.sha256Hashref
      (utf8 (String.ofList ((sampleHost.encode .null).take m))) ≠
        sampleHost.eventHash .null := by
    decide +kernel
  have whole : n = 4 := by
    by_contra less
    exact other n (by omega) same
  rw [whole]
  rfl

/-- A record that lacks only its line feed is read. -/
theorem recovers_torn_unended :
    ∃ reopened,
      sampleHost.openStore (sampleHost.torn (sampleHost.appendAll [.bool false] fresh).2 .null 24) =
          .ok reopened ∧
        Recovers (sampleHost.appendAll [.bool false] fresh).2 reopened := by
  refine (sampleHost.recovers_torn_iff [.bool false] sampleHost_noPartCollides 24).mpr
    ⟨?_, .inr (.inr ⟨by decide +kernel, by decide +kernel⟩)⟩
  intro entry member
  have event := (sampleHost.mem_appendAll member).resolve_left not_mem_nil
  have read : Json.fromStr sampleHost.readF64 (sampleHost.canonicalize (.bool false)) =
      some (.bool false) := by
    rw [Json.Runtime.fromStr_canonicalize]
    rfl
  rw [mem_singleton.mp event]
  exact ⟨.bool false, read, Value.SameData.refl _⟩

/-- One byte of a record, and the store does not open any more; the events it had
acknowledged are lost with it. -/
theorem torn_log_refused :
    ((sampleHost.openStore
      (sampleHost.torn (sampleHost.appendAll [.bool false] fresh).2 .null 1)).map fun _ => ()) =
        .error (.other "malformed proof.log line 2") := by
  decide +kernel

end Host

end TrustForge.FileStore
