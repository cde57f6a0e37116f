import TrustForge.PacketMode.SignVerify

/-!
# Who signed

Models of `verify_evidence_bundle` (`evidence.rs`), `OfflineRevocationListRuntime::load`
(`constrained.rs`) and `verify_relay_authority` (`relay.rs`).  The envelope is removed
before an object is hashed, so no signature covers the algorithm and the signer it names.
Which of the verifiers look at these fields is the subject of this module.
-/

namespace TrustForge.Issuers

open PacketMode.Platform AssocMap Result
open Json (Value)
open Session (Key optionalField number32)
open Signing (SignatureEnvelope SignatureFault Toolkit strings)

/-! ## Evidence bundles -/

structure EvidenceIncident where
  label : String
  startedAt : String
  endedAt : Option String
  domains : Option (List String)
  description : Option String

def EvidenceIncident.toValue (incident : EvidenceIncident) : Value :=
  .object ([("label", .string incident.label), ("started_at", .string incident.startedAt)] ++
    optionalField "ended_at" (incident.endedAt.map .string) ++
    optionalField "domains" (incident.domains.map strings) ++
    optionalField "description" (incident.description.map .string))

structure EvidenceAnchor where
  kind : String
  url : Option String
  inclusionProof : Option Value

def EvidenceAnchor.toValue (anchor : EvidenceAnchor) : Value :=
  .object ([("kind", .string anchor.kind)] ++ optionalField "url" (anchor.url.map .string) ++
    optionalField "inclusion_proof" anchor.inclusionProof)

structure EvidenceBundle where
  evidenceVersion : String
  bundleId : String
  trustDomain : String
  incident : EvidenceIncident
  actors : Option (List String)
  events : List Value
  policyDecisions : List Value
  approvals : List Value
  ceremonies : Option (List Value)
  quorumOutcomes : Option (List Value)
  anchors : Option (List EvidenceAnchor)
  encryptedPayload : Option Value
  level : Option String
  issuedAt : String
  issuer : String
  signature : SignatureEnvelope

def EvidenceBundle.signedFields (bundle : EvidenceBundle) : List (String × Value) :=
  [("evidence_version", .string bundle.evidenceVersion), ("bundle_id", .string bundle.bundleId),
    ("trust_domain", .string bundle.trustDomain), ("incident", bundle.incident.toValue)] ++
  optionalField "actors" (bundle.actors.map strings) ++
  [("events", .array bundle.events), ("policy_decisions", .array bundle.policyDecisions),
    ("approvals", .array bundle.approvals)] ++
  optionalField "ceremonies" (bundle.ceremonies.map .array) ++
  optionalField "quorum_outcomes" (bundle.quorumOutcomes.map .array) ++
  optionalField "anchors" (bundle.anchors.map fun anchors =>
    .array (anchors.map EvidenceAnchor.toValue)) ++
  optionalField "encrypted_payload" bundle.encryptedPayload ++
  optionalField "level" (bundle.level.map .string) ++
  [("issued_at", .string bundle.issuedAt), ("issuer", .string bundle.issuer)]

def EvidenceBundle.toValue (bundle : EvidenceBundle) : Value :=
  .object (bundle.signedFields ++ [("signature", bundle.signature.toValue)])

structure VerifyResult where
  ok : Bool := false
  reason : Option String := none
  outerSignatureOk : Bool := false
  eventsVerified : Nat := 0
  eventsSkipped : Nat := 0

/-! ## Revocation lists -/

/-- `OfflineRevocationList_ListVersion`. -/
inductive ListVersion where
  | v1
  deriving DecidableEq

inductive RevokedEntryKind where
  | actor
  | actorInstance
  | capability
  | delegation
  | key
  deriving DecidableEq

/-- `revoked_entry_kind_str`, which is also the name in JSON. -/
def RevokedEntryKind.text : RevokedEntryKind → String
  | .actor => "actor"
  | .actorInstance => "instance"
  | .capability => "capability"
  | .delegation => "delegation"
  | .key => "key"

structure RevokedEntry where
  kind : RevokedEntryKind
  id : String
  reason : Option String
  revokedAt : Option String

def RevokedEntry.toValue (entry : RevokedEntry) : Value :=
  .object ([("kind", .string entry.kind.text), ("id", .string entry.id)] ++
    optionalField "reason" (entry.reason.map .string) ++
    optionalField "revoked_at" (entry.revokedAt.map .string))

/-- `SignatureEnvelope` of the generated types. -/
structure HybridEnvelope extends SignatureEnvelope where
  hashAlg : Option String
  altAlgorithm : Option String
  altSignature : Option String

def HybridEnvelope.toValue (envelope : HybridEnvelope) : Value :=
  .object ([("algorithm", .string envelope.algorithm), ("signer", .string envelope.signer),
      ("signature", .string envelope.signature)] ++
    optionalField "hash_alg" (envelope.hashAlg.map .string) ++
    optionalField "alt_algorithm" (envelope.altAlgorithm.map .string) ++
    optionalField "alt_signature" (envelope.altSignature.map .string))

structure OfflineRevocationList where
  listVersion : ListVersion
  trustDomain : String
  issuedAt : String
  validUntil : String
  issuer : String
  revoked : List RevokedEntry
  signature : HybridEnvelope

def OfflineRevocationList.signedFields (list : OfflineRevocationList) : List (String × Value) :=
  [("list_version", .string "1"), ("trust_domain", .string list.trustDomain),
    ("issued_at", .string list.issuedAt), ("valid_until", .string list.validUntil),
    ("issuer", .string list.issuer), ("revoked", .array (list.revoked.map RevokedEntry.toValue))]

def OfflineRevocationList.toValue (list : OfflineRevocationList) : Value :=
  .object (list.signedFields ++ [("signature", list.signature.toValue)])

inductive OrlError where
  | unsupportedVersion
  | expired (validUntil : String)
  | futureDated (issuedAt : String)
  | badSignature
  | signatureDecode (text : String)
  | verifyingKey (text : String)

/-- `OfflineRevocationListRuntime`: the list and its index by kind and identifier. -/
structure OfflineRevocationListRuntime where
  list : OfflineRevocationList
  index : List (String × RevokedEntry)

def RevokedEntry.indexKey (entry : RevokedEntry) : String :=
  let kind := entry.kind.text
  let id := entry.id
  s!"{kind}:{id}"

/-! ## Relay authorities -/

structure RelayAuthority where
  relayAuthorityVersion : String
  relay : String
  trustDomain : String
  kinds : List String
  maxHopCount : Option UInt32
  rateLimitPerMinute : Option UInt32
  validFrom : String
  validUntil : Option String
  issuer : String
  constraints : Option (List Value)
  signature : SignatureEnvelope

def RelayAuthority.signedFields (authority : RelayAuthority) : List (String × Value) :=
  [("relay_authority_version", .string authority.relayAuthorityVersion),
    ("relay", .string authority.relay), ("trust_domain", .string authority.trustDomain),
    ("kinds", strings authority.kinds)] ++
  optionalField "max_hop_count" (authority.maxHopCount.map number32) ++
  optionalField "rate_limit_per_minute" (authority.rateLimitPerMinute.map number32) ++
  [("valid_from", .string authority.validFrom)] ++
  optionalField "valid_until" (authority.validUntil.map .string) ++
  [("issuer", .string authority.issuer)] ++
  optionalField "constraints" (authority.constraints.map .array)

def RelayAuthority.toValue (authority : RelayAuthority) : Value :=
  .object (authority.signedFields ++ [("signature", authority.signature.toValue)])

/-! ## The verifiers -/

section

variable (toolkit : Toolkit)

def verifyEvidenceBundle (bundle : EvidenceBundle) (issuerPublicKey : Key) : VerifyResult :=
  match toolkit.verifySignature issuerPublicKey (toolkit.signingBytes bundle.toValue)
    bundle.signature.signature with
  | .ok () => { ok := true, outerSignatureOk := true }
  | .error fault =>
    { reason := some
        (toolkit.faultText "signature base64" "outer signature did not verify" fault) }

variable (list : OfflineRevocationList)

/-- `verify_offline_revocation_list_signature`.  The signature is over the canonical text
itself, and one of the wrong length counts as one that does not verify. -/
def verifyOfflineRevocationListSignature (publicKey : Key) :
    Except OrlError Bool :=
  match toolkit.verifySignature publicKey (Text.utf8 (toolkit.signingText list.toValue))
    list.signature.signature with
  | .ok () => .ok true
  | .error .mismatch => .ok false
  | .error .parse => .ok false
  | .error (.base64 e) => .error (.signatureDecode e.text)
  | .error (.verifyingKey text) => .error (.verifyingKey text)

def load (issuerPublicKey : Key) (now : String) :
    Except OrlError OfflineRevocationListRuntime :=
  if list.listVersion ≠ .v1 then .error .unsupportedVersion
  else if list.validUntil < now then .error (.expired list.validUntil)
  else if now < list.issuedAt then .error (.futureDated list.issuedAt)
  else do
    let genuine ← verifyOfflineRevocationListSignature toolkit list issuerPublicKey
    if genuine then
      .ok { list, index := ofPairs (list.revoked.map fun e => (e.indexKey, e)) }
    else .error .badSignature

def OfflineRevocationListRuntime.isRevoked (runtime : OfflineRevocationListRuntime)
    (kind : RevokedEntryKind) (id : String) : Option RevokedEntry :=
  let name := kind.text
  get? s!"{name}:{id}" runtime.index

/-- A genuine list within its times is loaded. -/
theorem exists_load {list : OfflineRevocationList} {issuerPublicKey : Key} {now : String}
    (current : ¬list.validUntil < now) (dated : ¬now < list.issuedAt)
    (genuine : verifyOfflineRevocationListSignature toolkit list issuerPublicKey = .ok true) :
    ∃ runtime, load toolkit list issuerPublicKey now = .ok runtime := by
  have version : ¬list.listVersion ≠ .v1 := by
    cases list.listVersion
    simp
  rw [load, if_neg version, if_neg current, if_neg dated, genuine]
  exact ⟨_, rfl⟩

def signOfflineRevocationList (privateKey : Key) :
    OfflineRevocationList :=
  let envelope : HybridEnvelope :=
    { algorithm := list.signature.algorithm, signer := list.signature.signer, signature := ""
      hashAlg := none, altAlgorithm := none, altSignature := none }
  let draft := { list with signature := envelope }
  let signature := toolkit.sign privateKey (Text.utf8 (toolkit.signingText draft.toValue))
  { draft with signature := { envelope with signature } }

/-- What the list says does not depend on its signature. -/
theorem signingText_list :
    toolkit.signingText list.toValue = toolkit.canonicalize (.object list.signedFields) :=
  toolkit.signingText_object _ (by simp [OfflineRevocationList.signedFields, keys])

theorem verify_signOfflineRevocationList (privateKey : Key) :
    verifyOfflineRevocationListSignature toolkit (signOfflineRevocationList toolkit list privateKey)
      (toolkit.ed25519Public privateKey) = .ok true := by
  have fields : (signOfflineRevocationList toolkit list privateKey).signedFields =
      list.signedFields :=
    rfl
  have signature : (signOfflineRevocationList toolkit list privateKey).signature.signature =
      toolkit.sign privateKey (Text.utf8 (toolkit.canonicalize (.object list.signedFields))) := by
    rw [signOfflineRevocationList]
    simp only
    rfl
  rw [verifyOfflineRevocationListSignature, signingText_list, fields, signature,
    toolkit.verifySignature_sign]

/-- `verify_relay_authority`.  A rejection is an error with its reason. -/
def verifyRelayAuthority (authority : RelayAuthority) (issuerPublicKey : Key) :
    Except String Unit :=
  if authority.relayAuthorityVersion ≠ "1" then
    let version := authority.relayAuthorityVersion
    .error s!"unsupported version {version}"
  else if authority.signature.algorithm ≠ "ed25519" then
    let algorithm := authority.signature.algorithm
    .error s!"unsupported signature algorithm {algorithm}"
  else if authority.signature.signer ≠ authority.issuer then
    .error "signature signer does not match authority issuer"
  else
    (toolkit.verifySignature issuerPublicKey (toolkit.signingBytes authority.toValue)
      authority.signature.signature).mapError
        (toolkit.faultText "signature base64 decode" "relay authority signature did not verify")

end

/-! ## Signed samples

For every issuer and every envelope there is an object with a genuine signature. -/

def sampleBundle (issuer : String) (envelope : SignatureEnvelope) : EvidenceBundle where
  evidenceVersion := "1"
  bundleId := "ev-1"
  trustDomain := "example.com"
  incident := {
    label := "incident", startedAt := "2026-01-01T00:00:00Z", endedAt := none, domains := none
    description := none }
  actors := none
  events := []
  policyDecisions := []
  approvals := []
  ceremonies := none
  quorumOutcomes := none
  anchors := none
  encryptedPayload := none
  level := none
  issuedAt := "2026-01-01T00:00:00Z"
  issuer := issuer
  signature := envelope

def sampleList (issuer : String) (envelope : SignatureEnvelope) : OfflineRevocationList where
  listVersion := .v1
  trustDomain := "example.com"
  issuedAt := "2026-01-01T00:00:00Z"
  validUntil := "2026-01-01T00:00:00Z"
  issuer := issuer
  revoked := []
  signature := { envelope with hashAlg := none, altAlgorithm := none, altSignature := none }

def sampleAuthority (issuer : String) (envelope : SignatureEnvelope) : RelayAuthority where
  relayAuthorityVersion := "1"
  relay := "tf:actor:device:relay"
  trustDomain := "example.com"
  kinds := []
  maxHopCount := none
  rateLimitPerMinute := none
  validFrom := "2026-01-01T00:00:00Z"
  validUntil := none
  issuer := issuer
  constraints := none
  signature := envelope

section

variable (toolkit : Toolkit) (secret : Key) (algorithm signer issuer : String)

variable (envelope : SignatureEnvelope)

theorem signingText_sampleBundle :
    toolkit.signingText (sampleBundle issuer envelope).toValue =
      toolkit.canonicalize (.object (sampleBundle issuer ⟨"", "", ""⟩).signedFields) :=
  toolkit.signingText_object _ (by
    simp [EvidenceBundle.signedFields, sampleBundle, keys, optionalField])

theorem signingText_sampleList :
    toolkit.signingText (sampleList issuer envelope).toValue =
      toolkit.canonicalize (.object (sampleList issuer ⟨"", "", ""⟩).signedFields) :=
  toolkit.signingText_object _ (by
    simp [OfflineRevocationList.signedFields, keys])

theorem signingText_sampleAuthority :
    toolkit.signingText (sampleAuthority issuer envelope).toValue =
      toolkit.canonicalize (.object (sampleAuthority issuer ⟨"", "", ""⟩).signedFields) :=
  toolkit.signingText_object _ (by
    simp [RelayAuthority.signedFields, sampleAuthority, keys, optionalField])

/-- A bundle signed with any secret, under an envelope of one's choice. -/
def signedBundle : EvidenceBundle :=
  sampleBundle issuer ⟨algorithm, signer, toolkit.sign secret (toolkit.sha256 (Text.utf8
    (toolkit.canonicalize (.object (sampleBundle issuer ⟨"", "", ""⟩).signedFields))))⟩

def signedList : OfflineRevocationList :=
  sampleList issuer ⟨algorithm, signer, toolkit.sign secret (Text.utf8
    (toolkit.canonicalize (.object (sampleList issuer ⟨"", "", ""⟩).signedFields)))⟩

def signedAuthority : RelayAuthority :=
  sampleAuthority issuer ⟨algorithm, signer, toolkit.sign secret (toolkit.sha256 (Text.utf8
    (toolkit.canonicalize (.object (sampleAuthority issuer ⟨"", "", ""⟩).signedFields))))⟩

theorem verifyEvidenceBundle_signedBundle :
    (verifyEvidenceBundle toolkit (signedBundle toolkit secret algorithm signer issuer)
      (toolkit.ed25519Public secret)).ok = true := by
  rw [signedBundle, verifyEvidenceBundle, Toolkit.signingBytes, signingText_sampleBundle]
  simp only [sampleBundle, toolkit.verifySignature_sign]

theorem exists_load_signedList :
    ∃ runtime, load toolkit (signedList toolkit secret algorithm signer issuer)
      (toolkit.ed25519Public secret) "2026-01-01T00:00:00Z" = .ok runtime := by
  refine exists_load toolkit (lt_irrefl _) (lt_irrefl _) ?_
  rw [signedList, verifyOfflineRevocationListSignature, signingText_sampleList]
  simp only [sampleList, toolkit.verifySignature_sign]

theorem verifyRelayAuthority_signedAuthority :
    verifyRelayAuthority toolkit (signedAuthority toolkit secret "ed25519" issuer issuer)
      (toolkit.ed25519Public secret) = .ok () := by
  rw [signedAuthority, verifyRelayAuthority, Toolkit.signingBytes, signingText_sampleAuthority]
  simp only [sampleAuthority, ne_eq]
  exact mapError_eq_ok_iff.mpr (toolkit.verifySignature_sign secret _)

end

/-! ## Which envelopes are accepted -/

section

variable (platform : PacketMode.Platform)

/-- The algorithm named in the envelope of a packet is never read. -/
theorem verifyPacket_withAlgorithm (p : PacketMode.Packet) (algorithm : String) (publicKey : Key)
    (now : String) :
    platform.verifyPacket { p with signature := { p.signature with algorithm := algorithm } }
      publicKey now = platform.verifyPacket p publicKey now := by
  have digest : platform.packetSigningBytes
      { p with signature := { p.signature with algorithm := algorithm } } =
        platform.packetSigningBytes p := by
    rw [platform.packetSigningBytes_eq, platform.packetSigningBytes_eq]
    rfl
  simp only [verifyPacket, checkSignature, digest]
  rfl

theorem exists_accepted_packet (algorithm source : String) : ∃ packet payload,
    platform.verifyPacket packet (platform.ed25519Public (Key.filled [7])) "" = .ok payload ∧
      packet.signature.algorithm = algorithm ∧ packet.signature.signer = source ∧
      packet.source = source := by
  rcases @exists_signPacket platform "2026-01-01T00:00:00Z"
    { PacketMode.sampleArgs none with source := source, signer := source, compression := none }
    (by simp [PacketMode.sampleArgs]) nofun with ⟨p, signed⟩
  rcases @verifyPacket_of_signPacket platform _ "" _ _ signed rfl
    (by simp [PacketMode.sampleArgs]) with ⟨bytes, sealed, verified⟩
  rcases platform.signPacket_eq_ok signed with ⟨_, _, finalBytes, _, _, made⟩
  refine ⟨{ p with signature := { p.signature with algorithm := algorithm } },
    (PacketMode.sampleArgs none).payload.bytes, ?_, rfl, ?_, ?_⟩
  · rw [verifyPacket_withAlgorithm]
    exact verified.trans ((platform.openPayload_sealPayload sealed).mpr (.inl rfl))
  · rw [made]
    rfl
  · rw [made]
    rfl

end

/-- The four verifiers. -/
inductive Verifier where
  | packet
  | evidenceBundle
  | revocationList
  | relayAuthority

namespace Verifier

variable (platform : PacketMode.Platform)

/-- Some object is accepted whose envelope names this algorithm and signer and that declares
this source or issuer. -/
def AcceptsEnvelope (algorithm signer declared : String) : Verifier → Prop
  | .packet => ∃ packet publicKey now payload,
      platform.verifyPacket packet publicKey now = .ok payload ∧
        packet.signature.algorithm = algorithm ∧ packet.signature.signer = signer ∧
        packet.source = declared
  | .evidenceBundle => ∃ bundle publicKey,
      (verifyEvidenceBundle platform.toToolkit bundle publicKey).ok = true ∧
        bundle.signature.algorithm = algorithm ∧ bundle.signature.signer = signer ∧
        bundle.issuer = declared
  | .revocationList => ∃ list publicKey now,
      (∃ runtime, load platform.toToolkit list publicKey now = .ok runtime) ∧
        list.signature.algorithm = algorithm ∧ list.signature.signer = signer ∧
        list.issuer = declared
  | .relayAuthority => ∃ authority publicKey,
      verifyRelayAuthority platform.toToolkit authority publicKey = .ok () ∧
        authority.signature.algorithm = algorithm ∧ authority.signature.signer = signer ∧
        authority.issuer = declared

/-- What a verifier asks of an envelope. -/
def Asks (algorithm signer declared : String) : Verifier → Prop
  | .packet => signer = declared
  | .evidenceBundle => True
  | .revocationList => True
  | .relayAuthority => algorithm = "ed25519" ∧ signer = declared

theorem signer_of_verifyPacket {packet : PacketMode.Packet} {publicKey : Key} {now : String}
    {payload : Bytes} (accepted : platform.verifyPacket packet publicKey now = .ok payload) :
    packet.signature.signer = packet.source := by
  rcases bind_eq_ok accepted with ⟨_, header, _⟩
  rcases ite_eq_ok header with ⟨_, header⟩
  exact not_not.mp (ite_eq_ok header).1

theorem envelope_of_verifyRelayAuthority {toolkit : Toolkit} {authority : RelayAuthority}
    {publicKey : Key} (accepted : verifyRelayAuthority toolkit authority publicKey = .ok ()) :
    authority.signature.algorithm = "ed25519" ∧
      authority.signature.signer = authority.issuer := by
  rcases ite_eq_ok accepted with ⟨_, accepted⟩
  rcases ite_eq_ok accepted with ⟨algorithm, accepted⟩
  exact ⟨not_not.mp algorithm, not_not.mp (ite_eq_ok accepted).1⟩

/-- A verifier accepts the envelopes it asks for, and no others. -/
theorem acceptsEnvelope_iff (verifier : Verifier) (algorithm signer declared : String) :
    verifier.AcceptsEnvelope platform algorithm signer declared ↔
      verifier.Asks algorithm signer declared := by
  cases verifier with
  | packet =>
    constructor
    · rintro ⟨packet, publicKey, now, payload, accepted, rfl, rfl, rfl⟩
      exact signer_of_verifyPacket platform accepted
    · rintro rfl
      rcases exists_accepted_packet platform algorithm signer with ⟨packet, payload, accepted⟩
      exact ⟨packet, _, _, payload, accepted⟩
  | evidenceBundle =>
    exact iff_of_true ⟨_, _, verifyEvidenceBundle_signedBundle platform.toToolkit (Key.filled [])
      algorithm signer declared, rfl, rfl, rfl⟩ trivial
  | revocationList =>
    exact iff_of_true ⟨_, _, _, exists_load_signedList platform.toToolkit (Key.filled [])
      algorithm signer declared, rfl, rfl, rfl⟩ trivial
  | relayAuthority =>
    constructor
    · rintro ⟨authority, publicKey, accepted, rfl, rfl, rfl⟩
      exact envelope_of_verifyRelayAuthority accepted
    · rintro ⟨rfl, rfl⟩
      exact ⟨_, _, verifyRelayAuthority_signedAuthority platform.toToolkit (Key.filled []) signer,
        rfl, rfl, rfl⟩

/-- What is accepted names ed25519 and the declared issuer. -/
def BindsIssuer (verifier : Verifier) : Prop :=
  ∀ algorithm signer declared, verifier.AcceptsEnvelope platform algorithm signer declared →
    algorithm = "ed25519" ∧ signer = declared

/-- What is accepted names the declared issuer. -/
def BindsSigner (verifier : Verifier) : Prop :=
  ∀ algorithm signer declared, verifier.AcceptsEnvelope platform algorithm signer declared →
    signer = declared

/-- Only relay authorities are bound to their issuer.  Packets are bound to the signer but not
to the algorithm, evidence bundles and revocation lists to neither. -/
theorem bindsIssuer_iff (verifier : Verifier) :
    (verifier.BindsIssuer platform ↔ verifier = .relayAuthority) ∧
      (verifier.BindsSigner platform ↔ verifier = .packet ∨ verifier = .relayAuthority) := by
  simp only [BindsIssuer, BindsSigner, acceptsEnvelope_iff]
  cases verifier with
  | relayAuthority =>
    exact ⟨iff_of_true (fun _ _ _ asks => asks) rfl,
      iff_of_true (fun _ _ _ asks => asks.2) (.inr rfl)⟩
  | packet =>
    exact ⟨iff_of_false (fun binds => absurd (binds "none" "" "" rfl).1 (by decide)) nofun,
      iff_of_true (fun _ _ _ asks => asks) (.inl rfl)⟩
  | evidenceBundle | revocationList =>
    exact ⟨iff_of_false (fun binds => absurd (binds "none" "" "" trivial).1 (by decide)) nofun,
      iff_of_false (fun binds => absurd (binds "" "" "issuer" trivial) (by decide)) (by simp)⟩

/-- A bundle and a list that name another signer and no algorithm are accepted. -/
theorem foreign_signer_accepted :
    (verifyEvidenceBundle Signing.transparent
      (signedBundle Signing.transparent (Key.filled [7]) "none" "tf:actor:human:mallory"
        "tf:actor:organization:acme") (Signing.transparent.ed25519Public (Key.filled [7]))).ok =
          true ∧
    ∃ runtime, load Signing.transparent
      (signedList Signing.transparent (Key.filled [7]) "none" "tf:actor:human:mallory"
        "tf:actor:organization:acme") (Signing.transparent.ed25519Public (Key.filled [7]))
          "2026-01-01T00:00:00Z" = .ok runtime :=
  ⟨verifyEvidenceBundle_signedBundle _ _ _ _ _, exists_load_signedList _ _ _ _ _⟩

end Verifier

end TrustForge.Issuers
