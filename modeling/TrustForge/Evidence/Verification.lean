import TrustForge.Evidence.Bundle

/-!
# What verification of evidence accepts

The steps of `verifyEvidenceBundle` and what they ask of a bundle, one by one.
-/

namespace TrustForge.Evidence

open Text List
open Chain (ProofEvent)
open Encoding (standard)
open Session (Key)

/-! ## What verification reports -/

/-- The outer signature was accepted, the bundle not yet. -/
def Pending (result : VerifyEvidenceResult) : Prop :=
  result.outerSignatureOk = true ∧ result.ok = false

theorem accepted_pending : Pending accepted :=
  ⟨rfl, rfl⟩

/-- Neither the results of a step that goes on nor those it ends with accept the bundle. -/
def AllPending (step : Verification) : Prop :=
  (∀ result, step = .ok result → Pending result) ∧
    ∀ result, step = .error result → Pending result

theorem allPending_ok {result : VerifyEvidenceResult} (pending : Pending result) :
    AllPending (.ok result) :=
  ⟨fun _ same => Except.ok.inj same ▸ pending, fun _ same => (nomatch same)⟩

theorem allPending_error {result : VerifyEvidenceResult} (pending : Pending result) :
    AllPending (.error result) :=
  ⟨fun _ same => (nomatch same), fun _ same => Except.error.inj same ▸ pending⟩

theorem AllPending.bind {step : Verification} {next : VerifyEvidenceResult → Verification}
    (first : AllPending step) (later : ∀ result, Pending result → AllPending (next result)) :
    AllPending (step >>= next) := by
  cases step with
  | error result => exact allPending_error (first.2 result rfl)
  | ok result => exact later result (first.1 result rfl)

section

variable (node : Node) {result : VerifyEvidenceResult}

theorem verifyEvents_pending (resolve : String → Option Bytes) (events : List ProofEvent)
    (pending : Pending result) : AllPending (verifyEvents node resolve events result) := by
  induction events generalizing result with
  | nil => exact allPending_ok pending
  | cons event rest ih =>
    rw [verifyEvents]
    split
    · exact allPending_error pending
    · split
      · exact ih pending
      · exact allPending_error pending

theorem verifyAnchors_pending (verifyAnchor : Anchor → Bytes → Bool) (bytes : Bytes)
    (anchors : List Anchor) (pending : Pending result) :
    AllPending (verifyAnchors verifyAnchor bytes anchors result) := by
  induction anchors generalizing result with
  | nil => exact allPending_ok pending
  | cons anchor rest ih =>
    rw [verifyAnchors]
    dsimp only
    split
    · exact ih pending
    · exact allPending_error pending

variable (args : VerifyEvidenceArgs)

theorem checkContents_pending (pending : Pending result) :
    AllPending (checkContents node args result) := by
  refine AllPending.bind ?_ fun signed pending => AllPending.bind ?_ fun linked pending => ?_
  · rw [checkEvents]
    split
    · exact allPending_ok pending
    · split
      · exact verifyEvents_pending node _ _ pending
      · split
        · exact allPending_error pending
        · exact allPending_ok pending
  · rw [checkChain]
    split
    · exact allPending_ok pending
    · exact allPending_error pending
  · rw [checkAnchors]
    split
    · exact verifyAnchors_pending _ _ _ pending
    · exact allPending_ok pending

/-- The verdict on the outer signature is that of its check. -/
theorem outerSignatureOk_verifyEvidenceBundle : (verifyEvidenceBundle node args).outerSignatureOk =
      outerSignatureOk node args.bundle args.issuerPublicKey := by
  have pending := checkContents_pending node args accepted_pending
  rw [verifyEvidenceBundle]
  cases outerSignatureOk node args.bundle args.issuerPublicKey with
  | false => rfl
  | true =>
    rw [if_pos rfl]
    split
    case h_1 result same => exact (pending.1 result same).1
    case h_2 result same => exact (pending.2 result same).1

/-- A bundle is accepted if every step goes on. -/
theorem ok_verifyEvidenceBundle_iff : (verifyEvidenceBundle node args).ok = true ↔
      outerSignatureOk node args.bundle args.issuerPublicKey = true ∧
        ∃ result, checkContents node args accepted = .ok result := by
  have pending := checkContents_pending node args accepted_pending
  rw [verifyEvidenceBundle]
  cases outerSignatureOk node args.bundle args.issuerPublicKey with
  | false => simp [unverified]
  | true =>
    rw [if_pos rfl]
    split
    case h_1 result same => exact iff_of_true rfl ⟨rfl, result, same⟩
    case h_2 result same =>
      have open_ := (pending.2 result same).2
      simp [same, open_]

theorem exists_verifyEvents_iff (resolve : String → Option Bytes) (events : List ProofEvent)
    (result : VerifyEvidenceResult) :
    (∃ passed, verifyEvents node resolve events result = .ok passed) ↔
      ∀ event ∈ events, ∃ key, resolve event.signature.signer = some key ∧
        eventSignatureOk node event key = true := by
  induction events generalizing result with
  | nil => simp [verifyEvents]
  | cons event rest ih =>
    rw [verifyEvents, forall_mem_cons]
    cases resolve event.signature.signer with
    | none => simp
    | some key =>
      cases verified : eventSignatureOk node event key with
      | true => simp [ih, verified]
      | false => simp [verified]

theorem exists_verifyAnchors_iff (verifyAnchor : Anchor → Bytes → Bool) (bytes : Bytes)
    (anchors : List Anchor) (result : VerifyEvidenceResult) :
    (∃ passed, verifyAnchors verifyAnchor bytes anchors result = .ok passed) ↔
      ∀ anchor ∈ anchors, verifyAnchor anchor bytes = true := by
  induction anchors generalizing result with
  | nil => simp [verifyAnchors]
  | cons anchor rest ih =>
    rw [verifyAnchors, forall_mem_cons]
    cases verified : verifyAnchor anchor bytes with
    | true => simp [ih]
    | false => simp

/-- The events pass, or are not looked at. -/
def EventsAccepted : Prop :=
  args.skipPerEventVerification = true ∨
    ∀ event ∈ args.bundle.events, ∃ resolve key, args.resolveEventSigner = some resolve ∧
      resolve event.signature.signer = some key ∧ eventSignatureOk node event key = true

/-- The anchors pass, or are not looked at. -/
def AnchorsAccepted : Prop :=
  ∀ verifyAnchor ∈ args.verifyAnchor, ∀ anchors ∈ args.bundle.anchors, ∀ anchor ∈ anchors,
    verifyAnchor anchor (utf8 (node.toEngine.canonicalize args.bundle.toValue)) = true

theorem exists_checkEvents_iff (result : VerifyEvidenceResult) :
    (∃ passed, checkEvents node args result = .ok passed) ↔ EventsAccepted node args := by
  rw [checkEvents, EventsAccepted]
  cases args.skipPerEventVerification with
  | true => simp
  | false =>
    cases args.resolveEventSigner with
    | some resolve => simp [exists_verifyEvents_iff]
    | none =>
      cases args.bundle.events with
      | nil => simp
      | cons event rest =>
        refine iff_of_false (by simp) ?_
        rintro (skipped | all)
        · contradiction
        · obtain ⟨_, _, known, -⟩ := all event mem_cons_self
          contradiction

theorem exists_checkAnchors_iff (result : VerifyEvidenceResult) :
    (∃ passed, checkAnchors node args result = .ok passed) ↔ AnchorsAccepted node args := by
  rw [checkAnchors, AnchorsAccepted]
  cases args.verifyAnchor with
  | none => simp
  | some verifyAnchor =>
    cases args.bundle.anchors with
    | none => simp
    | some anchors => simp [exists_verifyAnchors_iff]

/-- What `verifyEvidenceBundle` accepts. -/
theorem verifyEvidenceBundle_accepts_iff : (verifyEvidenceBundle node args).ok = true ↔
      outerSignatureOk node args.bundle args.issuerPublicKey = true ∧ EventsAccepted node args ∧
        verifyChain node args.bundle.events = .ok () ∧ AnchorsAccepted node args := by
  rw [ok_verifyEvidenceBundle_iff]
  refine and_congr_right fun _ => ?_
  constructor
  · rintro ⟨result, checked⟩
    obtain ⟨signed, events, later⟩ := Result.bind_eq_ok checked
    obtain ⟨linked, chain, anchors⟩ := Result.bind_eq_ok later
    refine ⟨(exists_checkEvents_iff node args _).mp ⟨signed, events⟩, ?_,
      (exists_checkAnchors_iff node args _).mp ⟨result, anchors⟩⟩
    rw [checkChain] at chain
    split at chain
    case h_1 verified => exact verified
    case h_2 => contradiction
  · rintro ⟨events, chain, anchors⟩
    obtain ⟨signed, passed⟩ := (exists_checkEvents_iff node args accepted).mpr events
    have linked : checkChain node args signed = .ok { signed with chainOk := true } := by
      rw [checkChain, chain]
    obtain ⟨result, last⟩ :=
      (exists_checkAnchors_iff node args { signed with chainOk := true }).mpr anchors
    refine ⟨result, ?_⟩
    rw [checkContents, passed]
    change (checkChain node args signed >>= _) = _
    rw [linked]
    exact last

end

/-! ## The signatures of issuers and actors -/

section

variable (node : Node)

/-- The draft with the signature of a key. -/
def signedDraft (now : String) (args : AssembleEvidenceArgs) (secret : Key)
    (events : List ProofEvent) : EvidenceBundle :=
  let bundle := draft now args events
  { bundle with
    signature := ⟨⟨"ed25519", args.issuer,
      standard.encode (node.ed25519Sign secret (evidenceBundleSigningBytes node bundle))⟩,
      none, none, none⟩ }

/-- The signature of a draft is for the draft with its signature. -/
theorem base64Bytes_signedDraft (now : String) (args : AssembleEvidenceArgs) (secret : Key)
    (events : List ProofEvent) :
    node.base64Bytes (signedDraft node now args secret events).signature.signature =
      node.ed25519Sign secret
        (evidenceBundleSigningBytes node (signedDraft node now args secret events)) :=
  node.base64Bytes_encode _

/-- The issuer's own signature is accepted. -/
theorem outerSignatureOk_signedDraft (now : String) (args : AssembleEvidenceArgs) (secret : Key)
    (events : List ProofEvent) :
    outerSignatureOk node (signedDraft node now args secret events)
      (node.ed25519Public secret).bytes = true := by
  rw [outerSignatureOk, base64Bytes_signedDraft, Session.Platform.ed25519Verify,
    (node.ed25519Public secret).length, node.sign_length, node.check_sign]
  rfl

/-- The digest that the signature of an event is for. -/
def eventDigest (event : ProofEvent) : Bytes :=
  node.sha256 (utf8 (eventSignedPayload node event))

/-- An event with the signature of a key. -/
def signEvent (secret : Key) (event : ProofEvent) : ProofEvent :=
  { event with
    signature := ⟨⟨"ed25519", event.actorId,
      standard.encode (node.ed25519Sign secret (eventDigest node event))⟩, none, none, none⟩ }

theorem base64Bytes_signEvent (secret : Key) (event : ProofEvent) :
    node.base64Bytes (signEvent node secret event).signature.signature =
      node.ed25519Sign secret (eventDigest node event) :=
  node.base64Bytes_encode _

theorem eventSignatureOk_signEvent (secret : Key) (event : ProofEvent) :
    eventSignatureOk node (signEvent node secret event) (node.ed25519Public secret).bytes = true := by
  rw [eventSignatureOk, base64Bytes_signEvent, Session.Platform.ed25519Verify,
    (node.ed25519Public secret).length, node.sign_length]
  exact node.check_sign secret (eventDigest node event)

end

/-! ## A platform for samples -/

/-- The transparent primitives, with digests that count the characters of a text. -/
def measuring : Node where
  toPlatform :=
    { Session.transparent with
      sha256 := fun bytes =>
        .ofNat (((ofUtf8? bytes).map fun s => s.toList.length).getD 0) ::
          List.replicate 31 0 }
  stringOfNumber := fun f => (Session.transparent.displayF64 f).text
  base64Bytes := fun s => (standard.decode (utf8 s)).toOption.getD []
  base64Bytes_encode := Encoding.Engine.getD_decode_encode_standard

theorem sha256_measuring (s : String) :
    measuring.sha256 (utf8 s) = .ofNat s.toList.length :: List.replicate 31 0 := by
  change UInt8.ofNat (((ofUtf8? (utf8 s)).map fun s => s.toList.length).getD 0) :: _ = _
  rw [ofUtf8?_utf8]
  rfl

/-- A digest tells the number of characters, up to multiples of 256. -/
theorem length_of_sha256_measuring {s t : String}
    (same : measuring.sha256 (utf8 s) = measuring.sha256 (utf8 t)) :
    s.toList.length % 256 = t.toList.length % 256 := by
  rw [sha256_measuring, sha256_measuring] at same
  have counts := congrArg UInt8.toNat (cons.inj same).1
  rwa [UInt8.toNat_ofNat', UInt8.toNat_ofNat'] at counts

/-- So does a signature. -/
theorem length_of_verify_measuring {secret : Key} {s t : String}
    (verified : measuring.ed25519Verify (measuring.ed25519Public secret).bytes
      (measuring.sha256 (utf8 s))
      (measuring.ed25519Sign secret (measuring.sha256 (utf8 t))) = true) :
    s.toList.length % 256 = t.toList.length % 256 := by
  rw [Session.Platform.ed25519Verify, Bool.and_eq_true] at verified
  have signature : secret.bytes ++ (Key.filled (measuring.sha256 (utf8 t))).bytes =
      secret.bytes ++ (Key.filled (measuring.sha256 (utf8 s))).bytes :=
    beq_iff_eq.mp verified.2
  have digests := append_cancel_left signature
  have whole (text : String) : (Key.filled (measuring.sha256 (utf8 text))).bytes =
      measuring.sha256 (utf8 text) := by
    rw [sha256_measuring]
    rfl
  rw [whole, whole] at digests
  exact length_of_sha256_measuring digests.symm

/-- The key that signs the samples. -/
def sampleKey : Key :=
  .filled [7]

def sampleArgs (startedAt : String) (events : List ProofEvent) : AssembleEvidenceArgs where
  bundleId := "evidence-1"
  trustDomain := "example.com"
  incident := ⟨"incident", startedAt, none, none, none⟩
  tflog := none
  events := some events
  actorFilter := none
  eventTypePattern := none
  policyDecisions := none
  approvals := none
  ceremonies := none
  quorumOutcomes := none
  issuer := "tf:actor:service:example.com/auditor"
  privateKey := sampleKey.bytes

/-- A signed event without a parent. -/
def firstEvent : ProofEvent :=
  signEvent measuring sampleKey (Chain.sampleEvent "ev-1" none)

end TrustForge.Evidence
