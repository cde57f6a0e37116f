import TrustForge.FileStore.Revocations

/-!
# Evidence bundles and crashes

`put` writes a bundle and its checksum to temporary files and renames the one, then the
other.  Before the first rename a reader sees what was there before, after the second the
new bundle.  Between the two the new bundle stands next to the old checksum, and the store
that is opened next has removed the new one.
-/

namespace TrustForge.FileStore

open Disk Function Text List String Result


/-! ## Names -/

theorem dot_not_mem_hex (bytes : Bytes) : '.' ∉ (hex bytes).toList := by
  rw [hex, toList_ofList, mem_flatMap]
  rintro ⟨b, _, member⟩
  exact absurd (range_of_mem_hexByte member).1 (by decide)

theorem isTemp_iff (name : String) : isTemp name = true ↔ ".tmp".toList <:+ name.toList :=
  isSuffixOf_iff_suffix

theorem isTemp_append (name : String) : isTemp (name ++ ".tmp") = true := by
  rw [isTemp_iff, toList_append]
  exact suffix_append _ _

theorem isTemp_hex (bytes : Bytes) : isTemp (hex bytes) = false := by
  rw [← Bool.not_eq_true, isTemp_iff]
  intro suffix
  exact dot_not_mem_hex bytes (suffix.subset (by decide))

theorem isTemp_checksum (name : String) : isTemp (name ++ ".sha256") = false := by
  rw [← Bool.not_eq_true, isTemp_iff]
  rintro ⟨start, whole⟩
  rw [toList_append] at whole
  have last := congrArg List.getLast? whole
  simp at last

/-- A file that `cleanup_stale_temps` leaves alone. -/
def Lasting : Path → Prop
  | .proofLog => True
  | .revocations => True
  | .evidence name => isTemp name = false
  | _ => False

theorem cleanupStaleTemps_of_lasting {path : Path} (lasting : Lasting path) (files : Files Path) :
    cleanupStaleTemps files path = files path := by
  cases path with
  | evidence name =>
    have kept : isTemp name = false := lasting
    rw [cleanupStaleTemps, kept]
    rfl
  | proofLog | revocations => rfl
  | proofTmp | revocationsTmp => exact lasting.elim

theorem ne_of_lasting {path tmp : Path} (lasting : Lasting path) (temporary : ¬Lasting tmp) :
    path ≠ tmp := by
  intro equal
  exact temporary (equal ▸ lasting)

section

variable (bundleId : String)

theorem lasting_evidencePath : Lasting (evidencePath bundleId) :=
  isTemp_hex _

theorem lasting_evidenceChecksumPath : Lasting (evidenceChecksumPath bundleId) :=
  isTemp_checksum _

theorem not_lasting_evidenceTmp : ¬Lasting (evidenceTmp bundleId) := by
  rw [evidenceTmp, Lasting, isTemp_append]
  exact Bool.noConfusion

theorem not_lasting_evidenceChecksumTmpPath : ¬Lasting (evidenceChecksumTmpPath bundleId) := by
  have name : hex (utf8 bundleId) ++ ".sha256.tmp" =
      hex (utf8 bundleId) ++ ".sha256" ++ ".tmp" := by
    rw [String.append_assoc]
    rfl
  rw [evidenceChecksumTmpPath, Lasting, name, isTemp_append]
  exact Bool.noConfusion

theorem evidencePath_ne_checksum : evidencePath bundleId ≠ evidenceChecksumPath bundleId := by
  intro equal
  have chars := congrArg String.toList (Path.evidence.inj equal)
  rw [toList_append, self_eq_append_right] at chars
  exact absurd chars (by decide)

theorem evidenceTmp_ne_checksumTmp : evidenceTmp bundleId ≠ evidenceChecksumTmpPath bundleId := by
  intro equal
  have chars := congrArg String.toList (Path.evidence.inj equal)
  rw [toList_append, toList_append, append_cancel_left_eq] at chars
  exact absurd chars (by decide)

end

namespace Host

variable (host : Host)

/-! ## What the steps leave -/

/-- The bytes of the checksum file. -/
def sidecar (bytes : Bytes) : Bytes :=
  utf8 (host.sha256Hashref bytes) ++ [10]

variable (bundleId : String)

/-- Both temporary files are written before anything is renamed. -/
theorem run_putSteps_seven (bytes : Bytes) (files : Files Path) :
    run ((host.putSteps bundleId bytes).take 7) files =
      update (update files (evidenceTmp bundleId) (some bytes))
        (evidenceChecksumTmpPath bundleId) (some (host.sidecar bytes)) := by
  simp only [putSteps, take_succ_cons, run, foldl_cons, Disk.Step.apply, update_self, update_idem]
  rfl

/-- Before the first rename only temporary files change. -/
theorem run_putSteps_early {k : Nat} (early : k ≤ 7) (bundleId : String) (bytes : Bytes)
    (files : Files Path) {path : Path} (lasting : Lasting path) :
    run ((host.putSteps bundleId bytes).take k) files path = files path := by
  have other : path ≠ evidenceTmp bundleId ∧ path ≠ evidenceChecksumTmpPath bundleId :=
    ⟨ne_of_lasting lasting (not_lasting_evidenceTmp bundleId),
      ne_of_lasting lasting (not_lasting_evidenceChecksumTmpPath bundleId)⟩
  apply run_of_not_mem
  intro step member
  have among : step ∈ (host.putSteps bundleId bytes).take 7 :=
    take_subset_take_left _ early member
  simp only [putSteps, take_succ_cons, take_zero, mem_cons, not_mem_nil, or_false] at among
  rcases among with equal | equal | equal | equal | equal | equal | equal
  all_goals
    rw [equal]
    simp [Disk.Step.paths, other]

theorem run_putSteps_eight (bytes : Bytes) (files : Files Path) :
    run ((host.putSteps bundleId bytes).take 8) files =
      update (update
        (run ((host.putSteps bundleId bytes).take 7) files) (evidencePath bundleId)
          (some bytes)) (evidenceTmp bundleId) none := by
  have steps : (host.putSteps bundleId bytes).take 8 =
      (host.putSteps bundleId bytes).take 7 ++
        [.rename (evidenceTmp bundleId) (evidencePath bundleId)] := rfl
  have moved : run ((host.putSteps bundleId bytes).take 7) files (evidenceTmp bundleId) =
      some bytes := by
    rw [run_putSteps_seven, update_of_ne (evidenceTmp_ne_checksumTmp bundleId), update_self]
  rw [steps, run_append, run_cons, Disk.Step.apply, moved]
  rfl

/-- Between the renames, the new bundle stands next to the old checksum. -/
theorem run_putSteps_between (bytes : Bytes) (files : Files Path) :
    let between := run ((host.putSteps bundleId bytes).take 8) files
    between (evidencePath bundleId) = some bytes ∧
      between (evidenceChecksumPath bundleId) = files (evidenceChecksumPath bundleId) := by
  have temporary := not_lasting_evidenceTmp bundleId
  dsimp only
  rw [run_putSteps_eight]
  constructor
  · rw [update_of_ne (ne_of_lasting (lasting_evidencePath bundleId) temporary), update_self]
  · rw [update_of_ne (ne_of_lasting (lasting_evidenceChecksumPath bundleId) temporary),
      update_of_ne (evidencePath_ne_checksum bundleId).symm,
      host.run_putSteps_early (le_refl 7) bundleId bytes files
        (lasting_evidenceChecksumPath bundleId)]

theorem run_putSteps_nine (bytes : Bytes) (files : Files Path) :
    run ((host.putSteps bundleId bytes).take 9) files =
      update (update
        (run ((host.putSteps bundleId bytes).take 8) files) (evidenceChecksumPath bundleId)
          (some (host.sidecar bytes))) (evidenceChecksumTmpPath bundleId) none := by
  have steps : (host.putSteps bundleId bytes).take 9 =
      (host.putSteps bundleId bytes).take 8 ++
        [.rename (evidenceChecksumTmpPath bundleId) (evidenceChecksumPath bundleId)] := rfl
  have moved : run ((host.putSteps bundleId bytes).take 8) files
      (evidenceChecksumTmpPath bundleId) = some (host.sidecar bytes) := by
    rw [run_putSteps_eight, run_putSteps_seven,
      update_of_ne (evidenceTmp_ne_checksumTmp bundleId).symm,
      update_of_ne (ne_of_lasting (lasting_evidencePath bundleId)
        (not_lasting_evidenceChecksumTmpPath bundleId)).symm, update_self]
  rw [steps, run_append, run_cons, Disk.Step.apply, moved]
  rfl

/-- After both, the new checksum is there too. -/
theorem run_putSteps_late {k : Nat} (late : 9 ≤ k) (bundleId : String) (bytes : Bytes)
    (files : Files Path) :
    let after := run ((host.putSteps bundleId bytes).take k) files
    after (evidencePath bundleId) = some bytes ∧
      after (evidenceChecksumPath bundleId) = some (host.sidecar bytes) := by
  have temporary := not_lasting_evidenceChecksumTmpPath bundleId
  -- nothing but a sync follows the second rename
  have last : run ((host.putSteps bundleId bytes).take k) files =
      run ((host.putSteps bundleId bytes).take 9) files := by
    rcases eq_or_lt_of_le late with nine | more
    · rw [← nine]
    · rw [take_of_length_le (show (host.putSteps bundleId bytes).length ≤ k from more)]
      rfl
  dsimp only
  rw [last, run_putSteps_nine]
  constructor
  · rw [update_of_ne (ne_of_lasting (lasting_evidencePath bundleId) temporary),
      update_of_ne (evidencePath_ne_checksum bundleId),
      (host.run_putSteps_between bundleId bytes files).1]
  · rw [update_of_ne (ne_of_lasting (lasting_evidenceChecksumPath bundleId) temporary), update_self]

/-- The logs are never touched. -/
theorem run_putSteps_logs (k : Nat) (bundleId : String) (bytes : Bytes) (files : Files Path) :
    let after := run ((host.putSteps bundleId bytes).take k) files
    after .proofLog = files .proofLog ∧ after .revocations = files .revocations := by
  have untouched : ∀ step ∈ (host.putSteps bundleId bytes).take k,
      Path.proofLog ∉ step.paths ∧ Path.revocations ∉ step.paths := by
    intro step member
    have among := mem_of_mem_take member
    simp only [putSteps, mem_cons, not_mem_nil, or_false] at among
    rcases among with equal | equal | equal | equal | equal | equal | equal | equal | equal | equal
    all_goals
      rw [equal]
      simp [Disk.Step.paths, evidencePath, evidenceTmp, evidenceChecksumPath,
        evidenceChecksumTmpPath]
  exact ⟨run_of_not_mem (fun step member => (untouched step member).1) files,
    run_of_not_mem (fun step member => (untouched step member).2) files⟩

/-! ## Reading -/

variable {files files' : Files Path} {bundleId : String}

/-- The checksum of a bundle depends on one file. -/
theorem verifyEvidenceChecksum_congr
    (same : files (evidenceChecksumPath bundleId) = files' (evidenceChecksumPath bundleId))
    (bytes : Bytes) :
    host.verifyEvidenceChecksum files bundleId bytes =
      host.verifyEvidenceChecksum files' bundleId bytes := by
  rw [verifyEvidenceChecksum, verifyEvidenceChecksum, same]

theorem verifyEvidenceChecksum_sidecar {files : Files Path} {bytes : Bytes}
    (written : files (evidenceChecksumPath bundleId) = some (host.sidecar bytes)) :
    host.verifyEvidenceChecksum files bundleId bytes = .ok () := by
  have line : ofUtf8? (host.sidecar bytes) =
      some (String.ofList ((host.sha256Hashref bytes).toList ++ ['\n'])) := by
    have text : host.sidecar bytes =
        utf8 (String.ofList ((host.sha256Hashref bytes).toList ++ ['\n'])) := by
      rw [sidecar, utf8_ofList, flatMap_append, ← utf8_eq_flatMap]
      rfl
    rw [text, ofUtf8?_utf8]
  have trimmed : Lines.trim ((host.sha256Hashref bytes).toList ++ ['\n']) =
      (host.sha256Hashref bytes).toList :=
    Lines.trim_append (fun c member => host.isWhitespace_of_mem_sha256Hashref member)
      (forall_mem_singleton.mpr (by decide))
  rw [verifyEvidenceChecksum, written]
  simp [line, trimmed]

theorem get_of_present (state : State) {files : Files Path} (named : bundleId ≠ "") {bytes : Bytes}
    (present : files (evidencePath bundleId) = some bytes) :
    host.get ⟨state, files⟩ bundleId =
      (host.verifyEvidenceChecksum files bundleId bytes >>= fun _ => .ok (some bytes)) := by
  simp [get, named, present]

theorem get_congr {state state' : State}
    (bundle : files (evidencePath bundleId) = files' (evidencePath bundleId))
    (checksum : files (evidenceChecksumPath bundleId) = files' (evidenceChecksumPath bundleId)) :
    host.get ⟨state, files⟩ bundleId = host.get ⟨state', files'⟩ bundleId := by
  simp only [get, bundle, host.verifyEvidenceChecksum_congr checksum]

/-- Bundles are read from what a crash leaves as it stands. -/
theorem get_cleanupStaleTemps (state : State) (files : Files Path) (bundleId : String) :
    host.get ⟨state, cleanupStaleTemps files⟩ bundleId = host.get ⟨state, files⟩ bundleId :=
  host.get_congr (cleanupStaleTemps_of_lasting (lasting_evidencePath bundleId) files)
    (cleanupStaleTemps_of_lasting (lasting_evidenceChecksumPath bundleId) files)

/-- A root opens as long as its logs do. -/
theorem openStore_of_logs {store : Store} (opens : host.openStore files = .ok store)
    (log : files' .proofLog = files .proofLog) (table : files' .revocations = files .revocations) :
    host.openStore files' = .ok ⟨store.state, cleanupStaleTemps files'⟩ := by
  have same : host.load (cleanupStaleTemps files') = host.load (cleanupStaleTemps files) := by
    change (do
      let state ← loadFile host.loadProof (files' .proofLog) .empty
      loadFile host.loadRevocation (files' .revocations) state) = _
    rw [log, table]
    rfl
  rcases bind_eq_ok opens with ⟨state, loaded, equal⟩
  cases Except.ok.inj equal
  rw [openStore, same, loaded]
  rfl

/-- After a crash a bundle reads as before or as the new one, unless the crash came between
the renames and the old checksum is not that of the new bundle. -/
theorem interrupted_put_iff {store current : Store}
    (opens : host.openStore store.files = .ok current) {bundleId : String} {previous : Option Bytes}
    (before : host.get store bundleId = .ok previous) (bytes : Bytes) (k : Nat) :
    (∃ reopened, host.openStore
          (run ((host.putSteps bundleId bytes).take k) store.files) = .ok reopened ∧
        (host.get reopened bundleId = .ok previous ∨
          host.get reopened bundleId = .ok (some bytes))) ↔
      k ≠ 8 ∨ host.verifyEvidenceChecksum store.files bundleId bytes = .ok () := by
  have named : bundleId ≠ "" := by
    intro empty
    rw [get, if_pos empty] at before
    contradiction
  rcases host.run_putSteps_logs k bundleId bytes store.files with ⟨log, table⟩
  have reopens := host.openStore_of_logs opens log table
  have cleaned := host.get_cleanupStaleTemps current.state
    (run ((host.putSteps bundleId bytes).take k) store.files) bundleId
  rcases lt_trichotomy k 8 with early | between | late
  · refine iff_of_true ⟨_, reopens, .inl ?_⟩ (.inl (ne_of_lt early))
    have kept {path : Path} (lasting : Lasting path) := host.run_putSteps_early
      (Nat.le_of_lt_succ early) bundleId bytes store.files lasting
    rw [cleaned, ← before]
    exact host.get_congr (kept (lasting_evidencePath bundleId))
      (kept (lasting_evidenceChecksumPath bundleId))
  · subst between
    rcases host.run_putSteps_between bundleId bytes store.files with ⟨new, old⟩
    have read := cleaned.trans (host.get_of_present current.state named new)
    rw [host.verifyEvidenceChecksum_congr old] at read
    rw [or_iff_right (not_not.mpr rfl)]
    constructor
    · rintro ⟨reopened, again, answer⟩
      cases Except.ok.inj (reopens.symm.trans again)
      rw [read] at answer
      rcases answer with same | same
      · rcases bind_eq_ok same with ⟨_, verified, _⟩
        exact verified
      · rcases bind_eq_ok same with ⟨_, verified, _⟩
        exact verified
    · intro verified
      refine ⟨_, reopens, .inr ?_⟩
      rw [read, verified]
      rfl
  · rcases host.run_putSteps_late (Nat.succ_le_of_lt late) bundleId bytes store.files with
      ⟨new, written⟩
    refine iff_of_true ⟨_, reopens, .inr ?_⟩ (.inl (ne_of_gt late))
    rw [cleaned, host.get_of_present current.state named new,
      host.verifyEvidenceChecksum_sidecar written]
    rfl

/-- A bundle is written, and a crash interrupts the next one before the first rename. -/
theorem interrupted_put_before :
    let store : Store := ⟨fresh.state, run ((sampleHost.putSteps "b" [1]).take 10) fresh.files⟩
    sampleHost.get store "b" = .ok (some [1]) ∧
      ∃ reopened, sampleHost.openStore
          (run ((sampleHost.putSteps "b" [1, 2]).take 7) store.files) = .ok reopened ∧
        (sampleHost.get reopened "b" = .ok (some [1]) ∨
          sampleHost.get reopened "b" = .ok (some [1, 2])) := by
  intro store
  have before : sampleHost.get store "b" = .ok (some [1]) := by decide +kernel
  rcases sampleHost.run_putSteps_logs 10 "b" [1] fresh.files with ⟨log, table⟩
  have opens := sampleHost.openStore_of_logs sampleHost.openStore_emptyRoot log table
  exact ⟨before, (sampleHost.interrupted_put_iff opens before [1, 2] 7).mpr (.inl (by decide))⟩

/-- A crash between the renames leaves a first bundle without its checksum, and a second one
with that of the first. -/
theorem interrupted_put_refused :
    ((sampleHost.openStore (run ((sampleHost.putSteps "b" [1, 2]).take 8) fresh.files)).bind
      fun reopened => sampleHost.get reopened "b") =
        .error (.other "missing evidence checksum: /var/lib/trustforge/evidence/62.sha256") ∧
      (((sampleHost.put fresh "b" [1]).bind fun store => sampleHost.openStore
        (run ((sampleHost.putSteps "b" [1, 2]).take 8) store.files)).bind
          fun reopened => sampleHost.get reopened "b") =
        .error (.other "evidence checksum mismatch: /var/lib/trustforge/evidence/62") := by
  decide +kernel

end Host

end TrustForge.FileStore
