import Mathlib.Algebra.Order.BigOperators.Group.List
import TrustForge.FileStore.Ledger

/-!
# The revocation table

`insert` writes the table anew.  Every byte of a field is written as a character, so that a
field comes back as its UTF-8 bytes taken for characters: unchanged if it is ASCII, another
text if not.  A line of white space is skipped when the table is read.
-/

namespace TrustForge.FileStore

open Lines Text List AssocMap Result Except Function
open Disk (Files)

/-- An entry of the revocation table. -/
abbrev Entry := (String × String) × String

/-! ## Fields -/

/-- A byte is written as its character, unless that would end a field or a line. -/
theorem escapeByte_cases (b : UInt8) :
    ((b = 37 ∨ b = 9 ∨ b = 10 ∨ b = 13) ∧ escapeByte b = '%' :: hexByte b) ∨
      ((b ≠ 37 ∧ b ≠ 9 ∧ b ≠ 10 ∧ b ≠ 13) ∧ escapeByte b = [Char.ofNat b.toNat]) := by
  by_cases percent : b = 37
  · exact .inl ⟨.inl percent, by rw [percent]; rfl⟩
  by_cases tab : b = 9
  · exact .inl ⟨.inr (.inl tab), by rw [tab]; rfl⟩
  by_cases newline : b = 10
  · exact .inl ⟨.inr (.inr (.inl newline)), by rw [newline]; rfl⟩
  by_cases carriage : b = 13
  · exact .inl ⟨.inr (.inr (.inr carriage)), by rw [carriage]; rfl⟩
  refine .inr ⟨⟨percent, tab, newline, carriage⟩, ?_⟩
  rw [escapeByte, if_neg percent, if_neg tab, if_neg newline, if_neg carriage]

theorem unescapeBytes_append (field : String) {plain : Bytes} (noEscape : 37 ∉ plain)
    {rest out : Bytes} (read : unescapeBytes field rest = .ok out) :
    unescapeBytes field (plain ++ rest) = .ok (plain ++ out) := by
  induction plain with
  | nil => exact read
  | cons b plain ih =>
    rw [mem_cons, not_or] at noEscape
    rw [cons_append, unescapeBytes.eq_def]
    dsimp only
    rw [if_neg fun equal => noEscape.1 equal.symm, ih noEscape.2]
    rfl

/-- An escaped byte is read as the character of the byte. -/
theorem unescapeBytes_escapeByte (field : String) (b : UInt8) {rest out : Bytes}
    (read : unescapeBytes field rest = .ok out) :
    unescapeBytes field ((escapeByte b).flatMap String.utf8EncodeChar ++ rest) =
      .ok (String.utf8EncodeChar (Char.ofNat b.toNat) ++ out) := by
  rcases escapeByte_cases b with ⟨special, escaped⟩ | ⟨plain, escaped⟩
  · have hex (high low : UInt8) : unescapeBytes field (37 :: high :: low :: rest) =
        (do
          let hi ← hexValue high
          let lo ← hexValue low
          .ok ((hi <<< 4 ||| lo) :: out)) := by
      rw [unescapeBytes, if_pos rfl, read]
      rfl
    rw [escaped]
    rcases special with equal | equal | equal | equal
    · rw [equal]
      exact hex 50 53
    · rw [equal]
      exact hex 48 57
    · rw [equal]
      exact hex 48 97
    · rw [equal]
      exact hex 48 100
  · rw [escaped, flatMap_singleton]
    refine unescapeBytes_append field (fun member => ?_) read
    by_cases ascii : (Char.ofNat b.toNat).toNat < 128
    · rw [utf8EncodeChar_of_ascii _ ascii, mem_singleton, toNat_ofNat_byte,
        UInt8.ofNat_toNat] at member
      exact plain.1 member.symm
    · exact absurd (high_of_mem_utf8EncodeChar (le_of_not_gt ascii) member) (by decide)

theorem unescapeBytes_escapeField (field : String) (bytes : Bytes) :
    unescapeBytes field ((bytes.flatMap escapeByte).flatMap String.utf8EncodeChar) =
      .ok (utf8 (latin1 bytes)) := by
  induction bytes with
  | nil => rfl
  | cons b bytes ih =>
    rw [flatMap_cons, flatMap_append, unescapeBytes_escapeByte field b ih, latin1,
      latin1, utf8_ofList, utf8_ofList, map_cons, flatMap_cons]

/-- What a field is read back as. -/
theorem Host.unescapeField_escapeField (host : Host) (s : String) :
    host.unescapeField (escapeField s) = .ok (latin1 (utf8 s)) := by
  rw [unescapeField, utf8_ofList, escapeField, unescapeBytes_escapeField]
  dsimp only [bind, Except.bind]
  rw [ofUtf8?_utf8]

/-! ## Lines -/

/-- No field ends itself or its line. -/
theorem not_mem_escapeField {c : Char} (control : c.toNat = 9 ∨ c.toNat = 10 ∨ c.toNat = 13)
    (s : String) : c ∉ escapeField s := by
  rw [escapeField, mem_flatMap]
  rintro ⟨b, _, member⟩
  rcases escapeByte_cases b with ⟨_, escaped⟩ | ⟨⟨_, tab, newline, carriage⟩, escaped⟩
  · rw [escaped, mem_cons] at member
    rcases member with equal | digit
    · rw [equal] at control
      exact absurd control (by decide)
    · have range := range_of_mem_hexByte digit
      omega
  · rw [escaped, mem_singleton] at member
    rw [member, toNat_ofNat_byte] at control
    rcases control with code | code | code
    · exact tab (UInt8.toNat_inj.mp code)
    · exact newline (UInt8.toNat_inj.mp code)
    · exact carriage (UInt8.toNat_inj.mp code)

variable (entry : Entry)

/-- The line of an entry. -/
def revocationLine : List Char :=
  escapeField entry.1.1 ++ '\t' :: (escapeField entry.1.2 ++ '\t' :: escapeField entry.2)

theorem not_mem_revocationLine {c : Char} (control : c.toNat = 10 ∨ c.toNat = 13)
    (entry : Entry) : c ∉ revocationLine entry := by
  have outside := not_mem_escapeField (.inr control)
  have tab : c ≠ '\t' := by
    intro equal
    rw [equal] at control
    exact absurd control (by decide)
  rw [revocationLine]
  simp only [mem_append, mem_cons, not_or]
  exact ⟨outside _, tab, outside _, tab, outside _⟩

theorem flatten_revocationChunks : (revocationChunks entry).flatten =
      utf8 (String.ofList (revocationLine entry)) ++ [lineFeed] := by
  rw [revocationChunks, revocationLine, utf8_ofList, utf8_ofList, utf8_ofList, utf8_ofList,
    flatMap_append, flatMap_cons, flatMap_append, flatMap_cons]
  have tab : String.utf8EncodeChar '\t' = [9] := rfl
  simp [tab, lineFeed]

/-- The entry that a line is read as. -/
def reread : Entry :=
  ((latin1 (utf8 entry.1.1), latin1 (utf8 entry.1.2)),
    latin1 (utf8 entry.2))

theorem Host.loadRevocation_revocationLine (host : Host) (lineNo : Nat) (entry : Entry)
    (state : State) :
    host.loadRevocation lineNo (revocationLine entry) state =
      .ok (state.revoke (reread entry).1.1 (reread entry).1.2 (reread entry).2) := by
  have plain := not_mem_escapeField (c := '\t') (.inl rfl)
  have fields := splitn_three '\t' (plain entry.1.1) (plain entry.1.2) (escapeField entry.2)
  unfold loadRevocation
  simp only [revocationLine, fields, unescapeField_escapeField]
  rfl

/-! ## Blank lines -/

/-- The characters that are written as white space. -/
def IsBlank (c : Char) : Prop :=
  c.toNat = 0x20 ∨ c.toNat = 0x0b ∨ c.toNat = 0x0c

instance (c : Char) : Decidable (IsBlank c) :=
  inferInstanceAs (Decidable (_ ∨ _ ∨ _))

/-- An entry that has no other characters. -/
def Blank : Prop :=
  ∀ c ∈ entry.1.1.toList ++ (entry.1.2.toList ++ entry.2.toList), IsBlank c

instance : Decidable (Blank entry) :=
  List.decidableBAll IsBlank _

/-- The bytes that are written as white space; the last two are not the first of a
character. -/
theorem isWhitespace_escapeByte_iff (b : UInt8) :
    (∀ c ∈ escapeByte b, isWhitespace c = true) ↔
      b.toNat = 0x20 ∨ b.toNat = 0x0b ∨ b.toNat = 0x0c ∨ b.toNat = 0x85 ∨ b.toNat = 0xa0 := by
  have fits := b.toNat_lt
  rcases escapeByte_cases b with ⟨special, escaped⟩ | ⟨⟨_, tab, newline, carriage⟩, escaped⟩
  · rw [escaped]
    constructor
    · intro space
      exact absurd (space '%' mem_cons_self) (by decide)
    · intro code
      rcases special with equal | equal | equal | equal
      all_goals
        rw [equal] at code
        exact absurd code (by decide)
  · have codes : b.toNat ≠ 9 ∧ b.toNat ≠ 10 ∧ b.toNat ≠ 13 :=
      ⟨fun code => tab (UInt8.toNat_inj.mp code), fun code => newline (UInt8.toNat_inj.mp code),
        fun code => carriage (UInt8.toNat_inj.mp code)⟩
    rw [escaped, forall_mem_singleton]
    unfold isWhitespace
    simp only [toNat_ofNat_byte, Bool.or_eq_true, decide_eq_true_eq, beq_iff_eq]
    omega

theorem isWhitespace_escapeField_iff (s : String) :
    (∀ c ∈ escapeField s, isWhitespace c = true) ↔ ∀ c ∈ s.toList, IsBlank c := by
  have bytes : (∀ c ∈ escapeField s, isWhitespace c = true) ↔
      ∀ d ∈ s.toList, ∀ b ∈ String.utf8EncodeChar d, ∀ c ∈ escapeByte b,
        isWhitespace c = true := by
    rw [escapeField, utf8_eq_flatMap]
    simp only [forall_mem_flatMap]
  rw [bytes]
  refine forall₂_congr fun d _ => ?_
  simp only [isWhitespace_escapeByte_iff]
  by_cases ascii : d.toNat < 128
  · rw [utf8EncodeChar_of_ascii d ascii, forall_mem_singleton,
      UInt8.toNat_ofNat_of_lt' (ascii.trans (by decide)), IsBlank]
    omega
  · rcases exists_lead_of_high (le_of_not_gt ascii) with ⟨b, lead, large⟩
    refine iff_of_false (fun space => ?_) (fun blank => ?_)
    · have code := space b lead
      omega
    · unfold IsBlank at blank
      omega

/-- The lines that `load` skips. -/
theorem trim_revocationLine_eq_nil_iff :
    trim (revocationLine entry) = [] ↔ Blank entry := by
  have tab : isWhitespace '\t' = true := by decide
  rw [trim_eq_nil_iff, revocationLine, Blank]
  simp only [forall_mem_append, forall_mem_cons, isWhitespace_escapeField_iff, tab, true_and]

/-! ## The table -/

/-- The entries that are read where a table was written. -/
def survivors (entries : List Entry) : List Entry :=
  (entries.filter fun entry => trim (revocationLine entry) ≠ []).map reread

theorem Host.loadLines_table (host : Host) (entries : List Entry) (i : Nat) (state : State) :
    loadLines host.loadRevocation i (readLines (entries.flatMap revocationChunks).flatten)
        state =
      .ok ((survivors entries).foldl
        (fun known entry => known.revoke entry.1.1 entry.1.2 entry.2) state) := by
  induction entries generalizing i state with
  | nil => rfl
  | cons entry entries ih =>
    have newline := not_mem_revocationLine (c := '\n') (.inl rfl) entry
    have carriage := not_mem_revocationLine (c := '\r') (.inr rfl) entry
    rw [flatMap_cons, flatten_append, flatten_revocationChunks, append_assoc, singleton_append,
      readLines_append newline (fun last => carriage (mem_of_getLast? last)), loadLines]
    by_cases blank : trim (revocationLine entry) = []
    · rw [if_pos blank, ih, survivors, survivors, filter_cons_of_neg (by simpa using blank)]
    · rw [if_neg blank, host.loadRevocation_revocationLine]
      change loadLines _ _ _ _ = _
      rw [ih, survivors, survivors, filter_cons_of_pos (by simpa using blank), map_cons, foldl_cons]

/-! ## What survives -/

/-- An entry that comes back as it was. -/
def Survives : Prop :=
  Text.IsAscii entry.1.1 ∧ Text.IsAscii entry.1.2 ∧ Text.IsAscii entry.2 ∧ ¬Blank entry

instance : Decidable (Survives entry) :=
  inferInstanceAs (Decidable (_ ∧ _ ∧ _ ∧ ¬_))

/-- The number of characters of an entry. -/
def size : Nat :=
  entry.1.1.toList.length + entry.1.2.toList.length + entry.2.toList.length

theorem length_latin1_utf8 (s : String) :
    (latin1 (utf8 s)).toList.length = (utf8 s).length := by
  rw [latin1, String.toList_ofList, length_map]

theorem length_le_length_latin1 (s : String) :
    s.toList.length ≤ (latin1 (utf8 s)).toList.length := by
  have bytes := length_le_length_utf8 s.toList
  rwa [String.ofList_toList, ← length_latin1_utf8] at bytes

theorem size_le_size_reread : size entry ≤ size (reread entry) :=
  add_le_add (add_le_add (length_le_length_latin1 _) (length_le_length_latin1 _))
    (length_le_length_latin1 _)

/-- A text that is not ASCII comes back longer. -/
theorem isAscii_of_length_le {s : String}
    (short : (latin1 (utf8 s)).toList.length ≤ s.toList.length) : Text.IsAscii s := by
  rw [length_latin1_utf8] at short
  apply ascii_of_length_utf8_le
  rwa [String.ofList_toList]

theorem isAscii_of_size_le {entry : Entry} (short : size (reread entry) ≤ size entry) :
    Text.IsAscii entry.1.1 ∧ Text.IsAscii entry.1.2 ∧ Text.IsAscii entry.2 := by
  have kind := length_le_length_latin1 entry.1.1
  have id := length_le_length_latin1 entry.1.2
  have effectiveAt := length_le_length_latin1 entry.2
  simp only [size, reread] at short
  exact ⟨isAscii_of_length_le (by omega), isAscii_of_length_le (by omega),
    isAscii_of_length_le (by omega)⟩

theorem reread_of_survives {entry : Entry} (survives : Survives entry) :
    reread entry = entry := by
  rw [reread, latin1_utf8_eq_self survives.1, latin1_utf8_eq_self survives.2.1,
    latin1_utf8_eq_self survives.2.2.1]

/-- Targets that are told apart still are. -/
theorem nodup_keys_survivors {entries : List Entry} (nodup : (AssocMap.keys entries).Nodup) :
    (AssocMap.keys (survivors entries)).Nodup := by
  have injective : Function.Injective fun target : String × String =>
      (latin1 (utf8 target.1), latin1 (utf8 target.2)) := by
    intro left right same
    exact Prod.ext (utf8_injective (latin1_injective (congrArg Prod.fst same)))
      (utf8_injective (latin1_injective (congrArg Prod.snd same)))
  have kept := nodup.sublist ((entries.filter_sublist
    (p := fun entry => trim (revocationLine entry) ≠ [])).map Prod.fst)
  have mapped := kept.map injective
  rw [map_map] at mapped
  rw [AssocMap.keys, survivors, map_map]
  exact mapped

/-- A table is read back as it was exactly when each of its entries is. -/
theorem get?_survivors_iff {entries written : List Entry} (perm : written.Perm entries)
    (nodup : (AssocMap.keys entries).Nodup) :
    (∀ key, get? key (survivors written) = get? key entries) ↔
      ∀ entry ∈ entries, Survives entry := by
  have writtenNodup : (AssocMap.keys written).Nodup := (perm.map Prod.fst).nodup_iff.mpr nodup
  constructor
  · intro same
    have back : (survivors written).Perm entries := by
      refine (perm_ext_iff_of_nodup (nodup_keys_survivors writtenNodup).of_map
        nodup.of_map).mpr fun entry => ?_
      rw [← get?_eq_some_iff_of_nodup _ (nodup_keys_survivors writtenNodup), same,
        get?_eq_some_iff_of_nodup _ nodup]
    -- no line was skipped, and none of them became longer
    have solid : ∀ entry ∈ written, trim (revocationLine entry) ≠ [] := by
      have length := back.length_eq.trans perm.length_eq.symm
      rw [survivors, length_map, length_filter_eq_length_iff] at length
      simpa using length
    have all : survivors written = written.map reread := by
      rw [survivors, filter_eq_self.mpr (by simpa using solid)]
    intro entry member
    have listed := perm.mem_iff.mpr member
    have short : size (reread entry) ≤ size entry := by
      by_contra longer
      have more := sum_lt_sum (l := written) size (fun entry => size (reread entry))
        (fun entry _ => size_le_size_reread entry) ⟨entry, listed, lt_of_not_ge longer⟩
      have sums := ((back.map size).trans (perm.map size).symm).sum_eq
      rw [all, map_map] at sums
      exact absurd sums (ne_of_gt more)
    rcases isAscii_of_size_le short with ⟨kind, id, effectiveAt⟩
    exact ⟨kind, id, effectiveAt, mt (trim_revocationLine_eq_nil_iff entry).mpr (solid entry listed)⟩
  · intro survive key
    have listed : ∀ entry ∈ written, Survives entry := fun entry member =>
      survive entry (perm.mem_iff.mp member)
    have all : survivors written = written := by
      rw [survivors, filter_eq_self.mpr]
      · exact (map_congr_left fun entry member => reread_of_survives (listed entry member)).trans
          (map_id _)
      · intro entry member
        have solid := mt (trim_revocationLine_eq_nil_iff entry).mp (listed entry member).2.2.2
        simpa using solid
    rw [all]
    exact get?_perm _ _ perm writtenNodup key

/-! ## Inserting and reopening -/

theorem State.perm_sortedRevocations (state : State) :
    state.sortedRevocations.Perm state.revocations :=
  perm_insertionSort _ _

/-- Inserts in order. -/
def Store.insertAll (store : Store) (inserts : List Entry) : Store :=
  inserts.foldl (fun current entry => current.insert entry.1.1 entry.1.2 entry.2) store

/-- The bytes of the table. -/
def table (state : State) : Bytes :=
  (state.sortedRevocations.flatMap revocationChunks).flatten

namespace Store

variable (store : Store)

theorem insert_files (kind id effectiveAt : String) : (store.insert kind id effectiveAt).files =
      Function.update (Function.update store.files .revocations
        (some (table (store.insert kind id effectiveAt).state))) .revocationsTmp none :=
  Disk.run_replace _ _

theorem insertAll_cons (entry : Entry) (inserts : List Entry) :
    store.insertAll (entry :: inserts) =
      (store.insert entry.1.1 entry.1.2 entry.2).insertAll inserts :=
  rfl

theorem insertAll_proofLog (inserts : List Entry) :
    (store.insertAll inserts).files .proofLog = store.files .proofLog := by
  induction inserts generalizing store with
  | nil => rfl
  | cons entry inserts ih =>
    rw [insertAll_cons, ih, insert_files, update_of_ne (by decide), update_of_ne (by decide)]

/-- The table is that of the last insert. -/
theorem insertAll_table {inserts : List Entry} (some : inserts ≠ []) :
    (store.insertAll inserts).files .revocations =
      .some (table (store.insertAll inserts).state) := by
  induction inserts generalizing store with
  | nil => contradiction
  | cons entry inserts ih =>
    rw [insertAll_cons]
    cases inserts with
    | nil =>
      change (store.insert entry.1.1 entry.1.2 entry.2).files .revocations = _
      rw [insert_files, update_of_ne (by decide), update_self]
      rfl
    | cons next later => exact ih _ (cons_ne_nil next later)

theorem insertAll_revocations (inserts : List Entry) : (store.insertAll inserts).state.revocations =
      inserts.foldl (fun known entry => AssocMap.insert entry.1 entry.2 known)
        store.state.revocations := by
  induction inserts generalizing store with
  | nil => rfl
  | cons entry inserts ih => exact ih _

theorem nodup_insertAll {store : Store} (nodup : (AssocMap.keys store.state.revocations).Nodup)
    (inserts : List Entry) :
    (AssocMap.keys (store.insertAll inserts).state.revocations).Nodup := by
  induction inserts generalizing store with
  | nil => exact nodup
  | cons entry inserts ih => exact ih (nodup_keys_insert _ _ nodup)

/-- The answers tell the whole table. -/
theorem isRevoked_eq_iff (left right : Store) :
    (∀ kind id instant, left.isRevoked kind id instant = right.isRevoked kind id instant) ↔
      ∀ key, get? key left.state.revocations =
        get? key right.state.revocations := by
  constructor
  · rintro same ⟨kind, id⟩
    have answers := same kind id
    unfold isRevoked at answers
    cases first : get? (kind, id) left.state.revocations with
    | none =>
      cases second : get? (kind, id) right.state.revocations with
      | none => rfl
      | some t =>
        have here := answers t
        simp [first, second] at here
    | some s =>
      cases second : get? (kind, id) right.state.revocations with
      | none =>
        have here := answers s
        simp [first, second] at here
      | some t =>
        simp only [first, second, Option.any_some, decide_eq_decide] at answers
        exact congrArg some (le_antisymm ((answers t).mpr le_rfl) ((answers s).mp le_rfl))
  · intro same kind id instant
    rw [isRevoked, isRevoked, same]

end Store

/-- What every accepted line keeps, the whole file keeps. -/
theorem loadLines_invariant {record : Nat → List Char → State → Except StoreError State}
    {P : State → Prop}
    (step : ∀ lineNo line state next, record lineNo line state = .ok next → P state → P next)
    {i : Nat} {lines : List (Option (List Char))} {state final : State}
    (loaded : loadLines record i lines state = .ok final) (start : P state) : P final := by
  induction lines generalizing i state with
  | nil =>
    cases ok.inj loaded
    exact start
  | cons line lines ih =>
    cases line with
    | none => contradiction
    | some line =>
      rw [loadLines] at loaded
      split at loaded
      · exact ih loaded start
      · rcases bind_eq_ok loaded with ⟨next, here, later⟩
        exact ih later (step _ _ _ _ here start)

theorem cleanupStaleTemps_idem (files : Files Path) :
    cleanupStaleTemps (cleanupStaleTemps files) = cleanupStaleTemps files := by
  funext path
  cases path with
  | evidence name =>
    simp only [cleanupStaleTemps]
    split_ifs
    · rfl
    · rfl
  | _ => rfl

namespace Host

variable (host : Host)

theorem of_loadRevocation {lineNo : Nat} {line : List Char} {state next : State}
    (accepted : host.loadRevocation lineNo line state = .ok next) :
    ∃ kind id effectiveAt, next = state.revoke kind id effectiveAt := by
  unfold loadRevocation at accepted
  split at accepted
  · rcases bind_eq_ok accepted with ⟨kind, _, later⟩
    rcases bind_eq_ok later with ⟨id, _, later⟩
    rcases bind_eq_ok later with ⟨effectiveAt, _, last⟩
    exact ⟨kind, id, effectiveAt, (ok.inj last).symm⟩
  · contradiction

/-- What an opened store has read. -/
structure Opened (files : Files Path) (store : Store) (proofs : State) : Prop where
  files_eq : store.files = cleanupStaleTemps files
  proofs_eq : loadFile host.loadProof (files .proofLog) .empty = .ok proofs
  noRevocations : proofs.revocations = []
  nodup : (AssocMap.keys store.state.revocations).Nodup

theorem noRevocations_of_loadProof {file : Option Bytes} {proofs : State}
    (loaded : loadFile host.loadProof file .empty = .ok proofs) : proofs.revocations = [] := by
  rw [loadFile_eq_loadLines] at loaded
  refine loadLines_invariant (P := fun state => state.revocations = []) ?_ loaded rfl
  intro lineNo line state next accepted empty
  rcases host.of_loadProof accepted with ⟨hash, _, _, value, _, _, _, equal⟩
  rw [equal]
  exact empty

variable {files : Files Path}

theorem opened_of_openStore {store : Store}
    (opened : host.openStore files = .ok store) : ∃ proofs, host.Opened files store proofs := by
  rcases bind_eq_ok opened with ⟨state, loaded, equal⟩
  rcases bind_eq_ok loaded with ⟨proofs, first, second⟩
  cases ok.inj equal
  have none := host.noRevocations_of_loadProof first
  refine ⟨proofs, rfl, first, none, ?_⟩
  rw [loadFile_eq_loadLines] at second
  refine loadLines_invariant (P := fun state => (AssocMap.keys state.revocations).Nodup) ?_ second ?_
  · intro lineNo line state next accepted nodup
    rcases host.of_loadRevocation accepted with ⟨kind, id, effectiveAt, equal⟩
    rw [equal]
    exact nodup_keys_insert _ _ nodup
  · rw [none]
    exact nodup_nil

theorem foldl_revoke (entries : List Entry) (state : State) :
    (entries.foldl (fun known entry => known.revoke entry.1.1 entry.1.2 entry.2) state).revocations =
      entries.foldl (fun known entry => AssocMap.insert entry.1 entry.2 known) state.revocations := by
  induction entries generalizing state with
  | nil => rfl
  | cons entry entries ih => exact ih _

/-- Where the log can be read, a store opens with the entries of its table that survive. -/
theorem openStore_table {state proofs : State} (nodup : (AssocMap.keys state.revocations).Nodup)
    (log : loadFile host.loadProof (files .proofLog) .empty = .ok proofs)
    (written : files .revocations = some (table state)) :
    ∃ reopened, host.openStore files = .ok reopened ∧
      reopened.state.revocations = survivors state.sortedRevocations := by
  have sorted : (AssocMap.keys state.sortedRevocations).Nodup :=
    (state.perm_sortedRevocations.map Prod.fst).nodup_iff.mpr nodup
  have lines : loadFile host.loadRevocation (files .revocations) proofs =
      .ok ((survivors state.sortedRevocations).foldl
        (fun known entry => known.revoke entry.1.1 entry.1.2 entry.2) proofs) := by
    rw [written, loadFile_eq_loadLines, Option.getD_some, table, host.loadLines_table]
  refine ⟨⟨_, _⟩, bind_eq_ok_iff.mpr ⟨_, bind_eq_ok_iff.mpr ⟨proofs, log, lines⟩, rfl⟩, ?_⟩
  rw [foldl_revoke, host.noRevocations_of_loadProof log]
  exact ofPairs_of_nodup _ (nodup_keys_survivors sorted)

/-- After inserts the store opens, with the entries of the table that survive. -/
theorem openStore_insertAll {store : Store} {proofs : State}
    (opened : host.Opened files store proofs) {inserts : List Entry} (some : inserts ≠ []) :
    ∃ reopened, host.openStore (store.insertAll inserts).files = .ok reopened ∧
      reopened.state.revocations =
        survivors (store.insertAll inserts).state.sortedRevocations := by
  have log : (store.insertAll inserts).files .proofLog = files .proofLog := by
    rw [Store.insertAll_proofLog, opened.files_eq]
    rfl
  exact host.openStore_table (Store.nodup_insertAll opened.nodup inserts)
    (log ▸ opened.proofs_eq) (store.insertAll_table some)

/-- A store that is opened after some inserts answers as before exactly when every entry of
the table is ASCII and none is blank, or nothing was written. -/
theorem reopened_revocations_iff {store : Store}
    (opened : host.openStore files = .ok store) (inserts : List Entry) :
    (∃ reopened, host.openStore (store.insertAll inserts).files = .ok reopened ∧
        ∀ kind id instant, reopened.isRevoked kind id instant =
          (store.insertAll inserts).isRevoked kind id instant) ↔
      inserts = [] ∨ ∀ entry ∈ (store.insertAll inserts).state.revocations, Survives entry := by
  rcases host.opened_of_openStore opened with ⟨proofs, read⟩
  by_cases none : inserts = []
  · rw [none]
    refine iff_of_true ⟨store, ?_, fun _ _ _ => rfl⟩ (.inl rfl)
    change host.openStore store.files = _
    rw [← opened, openStore, openStore, read.files_eq, cleanupStaleTemps_idem]
  · rcases host.openStore_insertAll read none with ⟨reopened, again, table⟩
    rw [or_iff_right none, ← get?_survivors_iff (State.perm_sortedRevocations _)
      (Store.nodup_insertAll read.nodup inserts)]
    constructor
    · rintro ⟨other, sameFiles, answers⟩
      cases ok.inj (again.symm.trans sameFiles)
      rw [Store.isRevoked_eq_iff, table] at answers
      exact answers
    · intro same
      refine ⟨reopened, again, ?_⟩
      rw [Store.isRevoked_eq_iff, table]
      exact same

theorem reopened_revocations_ascii :
    let inserts : List Entry := [(("actor", "a\tb%"), "2026-01-01"), (("", ""), "x")]
    ∃ reopened, sampleHost.openStore (fresh.insertAll inserts).files = .ok reopened ∧
      ∀ kind id instant, reopened.isRevoked kind id instant =
        (fresh.insertAll inserts).isRevoked kind id instant := by
  intro inserts
  refine (sampleHost.reopened_revocations_iff sampleHost.openStore_emptyRoot inserts).mpr
    (.inr ?_)
  decide +kernel

/-- An actor with a letter that is not ASCII is not revoked any more after a restart, and
neither is a target of spaces. -/
theorem reopened_revocations_differ :
    (fresh.insertAll [(("actor", "é"), "2026-01-01")]).isRevoked "actor" "é" "2026-06-01" = true ∧
      ((sampleHost.openStore (fresh.insertAll [(("actor", "é"), "2026-01-01")]).files).map
        fun reopened => (reopened.isRevoked "actor" "é" "2026-06-01",
          reopened.isRevoked "actor" "Ã©" "2026-06-01")) = .ok (false, true) ∧
      (fresh.insertAll [(("", ""), "")]).isRevoked "" "" "" = true ∧
      ((sampleHost.openStore (fresh.insertAll [(("", ""), "")]).files).map
        fun reopened => reopened.isRevoked "" "" "") = .ok false := by
  decide +kernel

end Host

end TrustForge.FileStore
