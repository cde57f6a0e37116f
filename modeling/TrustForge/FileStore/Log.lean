import TrustForge.FileStore.Store
import TrustForge.Json.NormalForm

/-!
# The proof log as text

A record is one line of three fields.  Hashes and checksums have no white space and
canonical text has no control characters, so a record is read back as it was written, and
whatever was written after it is read next.  What `load` makes of a record is the event
that its canonical text says.
-/

namespace TrustForge.FileStore

open AssocMap Lines Text List Result
open Json (Value)

namespace Host

variable (host : Host)

/-! ## Records -/

/-- The characters of a hash are graphic ASCII characters. -/
theorem graphic_sha256Hashref (bytes : Bytes) :
    ∀ c ∈ (host.sha256Hashref bytes).toList, 0x20 < c.toNat ∧ c.toNat < 0x7f := by
  intro c member
  rw [sha256Hashref, String.toList_append, mem_append] at member
  rcases member with scheme | digits
  · have known : c ∈ ['s', 'h', 'a', '2', '5', '6', ':'] := scheme
    simp only [mem_cons, not_mem_nil, or_false] at known
    rcases known with rfl | rfl | rfl | rfl | rfl | rfl | rfl <;> decide
  · rw [hex, String.toList_ofList, mem_flatMap] at digits
    rcases digits with ⟨b, _, written⟩
    have range := range_of_mem_hexByte written
    omega

theorem not_mem_sha256Hashref {c : Char} (control : c.toNat ≤ 0x20) (bytes : Bytes) :
    c ∉ (host.sha256Hashref bytes).toList := by
  intro member
  exact absurd (host.graphic_sha256Hashref bytes c member).1 (not_lt.mpr control)

theorem isWhitespace_of_mem_sha256Hashref {bytes : Bytes} {c : Char}
    (member : c ∈ (host.sha256Hashref bytes).toList) : isWhitespace c = false := by
  rcases host.graphic_sha256Hashref bytes c member with ⟨low, high⟩
  unfold isWhitespace
  simp only [Bool.or_eq_false_iff, decide_eq_false_iff_not, beq_eq_false_iff_ne]
  omega

/-- The line of a record. -/
def recordLine (hash canonical : String) : List Char :=
  hash.toList ++ '\t' :: ((host.recordChecksum hash canonical).toList ++ '\t' :: canonical.toList)

variable (event : Value)

/-- The bytes that `append` adds to the log. -/
def record : Bytes :=
  (host.recordChunks (host.eventHash event) (host.canonicalize event)).flatten

theorem utf8_recordLine (hash canonical : String) :
    utf8 (String.ofList (host.recordLine hash canonical)) =
      utf8 hash ++ 9 :: (utf8 (host.recordChecksum hash canonical) ++
        9 :: utf8 canonical) := by
  rw [recordLine, utf8_ofList, utf8_eq_flatMap, utf8_eq_flatMap, utf8_eq_flatMap, flatMap_append,
    flatMap_cons, flatMap_append, flatMap_cons]
  rfl

theorem record_eq :
    host.record event =
      utf8 (String.ofList (host.recordLine (host.eventHash event) (host.canonicalize event))) ++
        [lineFeed] := by
  rw [utf8_recordLine, record, recordChunks]
  simp [lineFeed]

theorem canonicalize_toList : (host.canonicalize event).toList = host.encode event :=
  String.toList_ofList

/-- Neither a line feed nor a carriage return is in a record line. -/
theorem not_mem_recordLine {c : Char} (control : c.toNat < 0x20) (tab : c ≠ '\t') (event : Value) :
    c ∉ host.recordLine (host.eventHash event) (host.canonicalize event) := by
  have outside := fun bytes => host.not_mem_sha256Hashref control.le bytes
  have payload : c ∉ host.encode event := fun member =>
    absurd (host.printable_encode event c member) (not_le.mpr control)
  rw [recordLine, canonicalize_toList]
  simp only [mem_append, mem_cons, not_or]
  exact ⟨outside _, tab, outside _, tab, payload⟩

theorem mem_sha256Hashref (bytes : Bytes) : 's' ∈ (host.sha256Hashref bytes).toList := by
  rw [sha256Hashref, String.toList_append]
  exact mem_append_left _ (by decide)

theorem trim_recordLine_ne_nil :
    trim (host.recordLine (host.eventHash event) (host.canonicalize event)) ≠ [] := by
  intro blank
  have first := (trim_eq_nil_iff _).mp blank 's'
    (mem_append_left _ (host.mem_sha256Hashref _))
  exact absurd first (by decide)

/-! ## Reading records -/

/-- What `load` checked of a line it accepted. -/
theorem of_loadProof {lineNo : Nat} {line : List Char} {state next : State}
    (accepted : host.loadProof lineNo line state = .ok next) :
    ∃ hash checksum payload value, splitn '\t' 3 line = [hash, checksum, payload] ∧
      String.ofList checksum = host.recordChecksum (.ofList hash) (.ofList payload) ∧
      String.ofList hash = host.sha256Hashref (utf8 (.ofList payload)) ∧
      next = state.remember (.ofList hash) value := by
  unfold loadProof at accepted
  split at accepted
  · rename_i hash checksum payload fields
    rcases ite_eq_ok accepted with ⟨sameChecksum, later⟩
    rcases ite_eq_ok later with ⟨sameHash, parsed⟩
    split at parsed
    · rename_i value _
      exact ⟨hash, checksum, payload, value, fields, not_not.mp sameChecksum, not_not.mp sameHash,
        (Except.ok.inj parsed).symm⟩
    · contradiction
  · contradiction

/-- `load` takes a record for what its canonical text says. -/
theorem loadProof_recordLine_iff (lineNo : Nat) (event : Value) (state next : State) :
    host.loadProof lineNo (host.recordLine (host.eventHash event) (host.canonicalize event)) state =
        .ok next ↔
      ∃ value, Json.fromStr host.readF64 (host.canonicalize event) = some value ∧
        next = state.remember (host.eventHash event) value := by
  have fields : splitn '\t' 3
      (host.recordLine (host.eventHash event) (host.canonicalize event)) =
        [(host.eventHash event).toList,
          (host.recordChecksum (host.eventHash event) (host.canonicalize event)).toList,
          (host.canonicalize event).toList] :=
    splitn_three '\t' (host.not_mem_sha256Hashref (by decide) _)
      (host.not_mem_sha256Hashref (by decide) _) _
  have hash : host.eventHash event = host.sha256Hashref (utf8 (host.canonicalize event)) := rfl
  unfold loadProof
  simp only [fields, String.ofList_toList, ← hash]
  cases Json.fromStr host.readF64 (host.canonicalize event) with
  | none => simp
  | some value => simp [eq_comm]

/-- The first record of a log, whatever follows it. -/
theorem loadLines_record_iff (i : Nat) (event : Value) (rest : Bytes) (state final : State) :
    loadLines host.loadProof i (readLines (host.record event ++ rest)) state = .ok final ↔
      ∃ value, Json.fromStr host.readF64 (host.canonicalize event) = some value ∧
        loadLines host.loadProof (i + 1) (readLines rest)
          (state.remember (host.eventHash event) value) = .ok final := by
  have newline := host.not_mem_recordLine (c := '\n') (by decide) (by decide) event
  have carriage := host.not_mem_recordLine (c := '\r') (by decide) (by decide) event
  rw [record_eq, append_assoc, singleton_append,
    readLines_append newline (fun last => carriage (mem_of_getLast? last)), loadLines,
    if_neg (host.trim_recordLine_ne_nil event)]
  constructor
  · intro loaded
    rcases bind_eq_ok loaded with ⟨next, first, later⟩
    rcases (host.loadProof_recordLine_iff _ event state next).mp first with ⟨value, read, equal⟩
    exact ⟨value, read, equal ▸ later⟩
  · rintro ⟨value, read, later⟩
    rw [(host.loadProof_recordLine_iff _ event state _).mpr ⟨value, read, rfl⟩]
    exact later

/-! ## Whole logs -/

/-- The log of a ledger. -/
def log (entries : List (String × Value)) : Bytes :=
  entries.flatMap fun entry => host.record entry.2

/-- The entry that `load` makes of a record. -/
def ReadsBack (entry loaded : String × Value) : Prop :=
  loaded.1 = entry.1 ∧ Json.fromStr host.readF64 (host.canonicalize entry.2) = some loaded.2

/-- The events are filed under their hashes. -/
def Filed (entries : List (String × Value)) : Prop :=
  ∀ entry ∈ entries, entry.1 = host.eventHash entry.2

theorem loadLines_log_iff {entries : List (String × Value)} (filed : host.Filed entries) (i : Nat)
    (rest : Bytes) (state final : State) :
    loadLines host.loadProof i (readLines (host.log entries ++ rest)) state = .ok final ↔
      ∃ loaded, List.Forall₂ host.ReadsBack entries loaded ∧
        loadLines host.loadProof (i + entries.length) (readLines rest)
          (loaded.foldl (fun known entry => known.remember entry.1 entry.2) state) = .ok final := by
  induction entries generalizing i state with
  | nil =>
    constructor
    · intro ended
      exact ⟨[], .nil, ended⟩
    · rintro ⟨loaded, none, ended⟩
      cases none
      exact ended
  | cons entry entries ih =>
    have hash := filed entry mem_cons_self
    have tail : host.Filed entries := fun later member =>
      filed later (mem_cons_of_mem entry member)
    have count : i + 1 + entries.length = i + (entry :: entries).length := by
      rw [length_cons]
      omega
    rw [log, flatMap_cons, append_assoc, loadLines_record_iff, ← log]
    simp only [ih tail, count]
    constructor
    · rintro ⟨value, read, loaded, readBack, ended⟩
      exact ⟨(entry.1, value) :: loaded, .cons ⟨rfl, read⟩ readBack, hash ▸ ended⟩
    · rintro ⟨_, readBack, ended⟩
      cases readBack with
      | @cons _ first _ loaded head readBack =>
        refine ⟨first.2, head.2, loaded, readBack, ?_⟩
        rw [foldl_cons, head.1, hash] at ended
        exact ended

end Host

/-- Entries with distinct hashes are remembered as they come. -/
theorem foldl_remember (entries : List (String × Value)) (state : State)
    (order : state.proofOrder = keys state.proofPayloads)
    (nodup : (keys (state.proofPayloads ++ entries)).Nodup) :
    entries.foldl (fun known entry => known.remember entry.1 entry.2) state =
      { state with
        proofOrder := keys (state.proofPayloads ++ entries)
        proofPayloads := state.proofPayloads ++ entries } := by
  induction entries generalizing state with
  | nil => simp [← order]
  | cons entry entries ih =>
    have absent : entry.1 ∉ keys state.proofPayloads := by
      intro member
      simp only [AssocMap.keys, map_append] at nodup member
      exact (nodup_append.mp nodup).2.2 _ member _ mem_cons_self rfl
    have unknown : get? entry.1 state.proofPayloads = none :=
      (get?_eq_none_iff _ _).mpr absent
    have step : state.remember entry.1 entry.2 =
        { state with
          proofOrder := keys (state.proofPayloads ++ [entry])
          proofPayloads := state.proofPayloads ++ [entry] } := by
      rw [State.remember, unknown, insert_of_not_mem _ _ _ absent, order]
      simp [AssocMap.keys]
    rw [foldl_cons, step, ih]
    · simp
    · rfl
    · simpa using nodup

end TrustForge.FileStore
