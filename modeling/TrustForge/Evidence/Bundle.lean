import TrustForge.Chain
import TrustForge.PacketMode.Script

/-!
# Evidence bundles in TypeScript

Model of `assembleEvidenceBundle`, `anchorEvidenceBundle` and `verifyEvidenceBundle`
(`evidence.ts`), with what they use of `chain.ts` and `crypto.ts`.  An assembled bundle has
the events that pass the filters, linked anew to each other.  Every event still has the
signature that it came with, and the outer signature covers all of a bundle but itself.

Values are those of JSON: a property that is `undefined` is missing.
-/

namespace TrustForge.Evidence

open Chain (ProofEvent ProofLevel)
open Encoding (standard)
open Issuers (HybridEnvelope)
open Json (Value)
open PacketMode.Script (Less truthy utf16)
open Session (Key optionalField)

/-- What `evidence.ts` takes from Node and from libraries. -/
structure Node extends Session.Platform, Json.Script.Engine where
  /-- `Buffer.from(s, "base64")`. -/
  base64Bytes : String → Bytes
  base64Bytes_encode : ∀ bytes, base64Bytes (standard.encode bytes) = bytes

/-! ## Bundles -/

/-- `EvidenceBundle_Incident`. -/
structure Incident where
  label : String
  startedAt : String
  endedAt : Option String
  domains : Option (List String)
  description : Option String

def texts (items : List String) : Value :=
  .array (items.map .string)

def Incident.toValue (incident : Incident) : Value :=
  .object ([("label", .string incident.label), ("started_at", .string incident.startedAt)] ++
    optionalField "ended_at" (incident.endedAt.map .string) ++
    optionalField "domains" (incident.domains.map texts) ++
    optionalField "description" (incident.description.map .string))

/-- `EvidenceBundle_Anchors_Item`. -/
structure Anchor where
  kind : String
  url : Option String
  inclusionProof : Option Value

def Anchor.toValue (anchor : Anchor) : Value :=
  .object ([("kind", .string anchor.kind)] ++ optionalField "url" (anchor.url.map .string) ++
    optionalField "inclusion_proof" anchor.inclusionProof)

structure EvidenceBundle where
  bundleId : String
  trustDomain : String
  incident : Incident
  actors : Option (List String)
  events : List ProofEvent
  policyDecisions : List Value
  approvals : List Value
  ceremonies : Option (List Value)
  quorumOutcomes : Option (List Value)
  anchors : Option (List Anchor)
  encryptedPayload : Option Value
  level : Option ProofLevel
  issuedAt : String
  issuer : String
  signature : HybridEnvelope

namespace EvidenceBundle

variable (bundle : EvidenceBundle)

/-- The properties of a bundle before its anchors. -/
def leadingFields : List (String × Value) :=
  [("evidence_version", .string "1"), ("bundle_id", .string bundle.bundleId),
    ("trust_domain", .string bundle.trustDomain), ("incident", bundle.incident.toValue)] ++
  optionalField "actors" (bundle.actors.map texts) ++
  [("events", .array (bundle.events.map ProofEvent.toValue)),
    ("policy_decisions", .array bundle.policyDecisions), ("approvals", .array bundle.approvals)] ++
  optionalField "ceremonies" (bundle.ceremonies.map .array) ++
  optionalField "quorum_outcomes" (bundle.quorumOutcomes.map .array)

/-- The properties of a bundle after its anchors. -/
def trailingFields : List (String × Value) :=
  optionalField "encrypted_payload" bundle.encryptedPayload ++
  optionalField "level" (bundle.level.map fun level => .string level.text) ++
  [("issued_at", .string bundle.issuedAt), ("issuer", .string bundle.issuer)]

def anchorsValue (anchors : List Anchor) : Value :=
  .array (anchors.map Anchor.toValue)

/-- The properties without the signature. -/
def signedFields : List (String × Value) :=
  bundle.leadingFields ++ (optionalField "anchors" (bundle.anchors.map anchorsValue) ++
    bundle.trailingFields)

def toValue : Value :=
  .object (bundle.signedFields ++ [("signature", bundle.signature.toValue)])

end EvidenceBundle

section

variable (node : Node) (bundle : EvidenceBundle)

/-- The canonical text that the outer signature is for. -/
def signingText : String :=
  node.toEngine.canonicalize (.object bundle.signedFields)

def evidenceBundleSigningBytes : Bytes :=
  node.sha256 (Text.utf8 (signingText node bundle))

/-! ## Chains -/

variable (event : ProofEvent)

def eventSignedPayload : String :=
  node.toEngine.canonicalize (.object event.signedFields)

def sha256HashRef (bytes : Bytes) : String :=
  "sha256:" ++ Text.hex (node.sha256 bytes)

def eventHash : String :=
  sha256HashRef node (Text.utf8 (eventSignedPayload node event))

/-- The loop of `verifyChain`, with the texts of its errors, after the event before `index`. -/
def verifyFrom (index : Nat) (previous : ProofEvent) : List ProofEvent → Except String Unit
  | [] => .ok ()
  | event :: rest =>
    let expected := eventHash node previous
    match truthy event.parentHash with
    | none => .error s!"event {index} has no parent_hash"
    | some parent =>
      if parent ≠ expected then
        .error s!"event {index} declares parent_hash {parent} but previous hashes to {expected}"
      else verifyFrom (index + 1) event rest

def verifyChain : List ProofEvent → Except String Unit
  | [] => .ok ()
  | event :: rest => verifyFrom node 1 event rest

/-! ## Assembling -/

/-- A `RegExp`: `test` depends on `lastIndex` and changes it if the expression is global or
sticky. -/
structure RegExp where
  lastIndex : Nat
  test : Nat → String → Bool × Nat

/-- `AssembleEvidenceArgs`.  `tflog` is what reading the log at `tflogPath` gives, if there
is such a path. -/
structure AssembleEvidenceArgs where
  bundleId : String
  trustDomain : String
  incident : Incident
  tflog : Option (Except String (List ProofEvent))
  events : Option (List ProofEvent)
  actorFilter : Option (List String)
  eventTypePattern : Option RegExp
  policyDecisions : Option (List Value)
  approvals : Option (List Value)
  ceremonies : Option (List Value)
  quorumOutcomes : Option (List Value)
  issuer : String
  privateKey : Bytes

/-- The time window and the actors of the filter. -/
def inScope (args : AssembleEvidenceArgs) (event : ProofEvent) : Bool :=
  if Less event.timestamp args.incident.startedAt then false
  else if (truthy args.incident.endedAt).any fun stop => Less stop event.timestamp then false
  else args.actorFilter.all fun actors => actors.contains event.actorId

/-- The loop over the events: those that are kept, and the number of the others. -/
def filterEvents (args : AssembleEvidenceArgs) : Nat → List ProofEvent → List ProofEvent × Nat
  | _, [] => ([], 0)
  | lastIndex, event :: rest =>
    if inScope args event then
      let tested := (args.eventTypePattern.map fun re => re.test lastIndex event.kind).getD
        (true, lastIndex)
      let later := filterEvents args tested.2 rest
      if tested.1 then (event :: later.1, later.2) else (later.1, later.2 + 1)
    else
      let later := filterEvents args lastIndex rest
      (later.1, later.2 + 1)

/-- The events that pass the filters. -/
def keptEvents (args : AssembleEvidenceArgs) (events : List ProofEvent) : List ProofEvent :=
  (filterEvents args ((args.eventTypePattern.map RegExp.lastIndex).getD 0) events).1

def eventHashRefForChain : String :=
  "sha256:" ++ Text.hex
    (node.sha256 (Text.utf8 (node.toEngine.canonicalize (.object event.signedFields))))

/-- The loop that sets `parent_hash`, after the event that was linked before. -/
def relink (previous : Option ProofEvent) : List ProofEvent → List ProofEvent
  | [] => []
  | event :: rest =>
    let linked := { event with parentHash := previous.map (eventHashRefForChain node) }
    linked :: relink (some linked) rest

/-- The place of a level in the list of all levels. -/
def levelIndex : ProofLevel → Nat
  | .l0 => 0
  | .l1 => 1
  | .l2 => 2
  | .l3 => 3
  | .l4 => 4
  | .l5 => 5

def highestLevel (events : List ProofEvent) : ProofLevel :=
  events.foldl
    (fun max event => if levelIndex max < levelIndex event.level then event.level else max) .l0

/-- `Array.from(new Set(…)).sort()` for strings. -/
def distinctSorted (items : List String) : List String :=
  items.eraseDups.insertionSort fun a b => utf16 a ≤ utf16 b

/-- `ed25519Sign`, with the text of its error. -/
def ed25519Sign (msg privateKey : Bytes) : Except String Bytes :=
  match Key.ofBytes? privateKey with
  | some secret => .ok (node.ed25519Sign secret msg)
  | none =>
    let length := privateKey.length
    .error s!"ed25519 private key must be 32 bytes, got {length}"

/-- The bundle that is signed, at the time `now`. -/
def draft (now : String) (args : AssembleEvidenceArgs) (events : List ProofEvent) :
    EvidenceBundle where
  bundleId := args.bundleId
  trustDomain := args.trustDomain
  incident := args.incident
  actors := some (distinctSorted (events.map ProofEvent.actorId))
  events := events
  policyDecisions := args.policyDecisions.getD []
  approvals := args.approvals.getD []
  ceremonies := args.ceremonies
  quorumOutcomes := args.quorumOutcomes
  anchors := none
  encryptedPayload := none
  level := some (highestLevel events)
  issuedAt := now
  issuer := args.issuer
  signature := ⟨⟨"ed25519", args.issuer, ""⟩, none, none, none⟩

/-- The events that `assembleEvidenceBundle` starts from. -/
def candidateEvents (args : AssembleEvidenceArgs) : Except String (List ProofEvent) :=
  match args.events with
  | some events => .ok events
  | none =>
    match args.tflog with
    | some read => read
    | none => .error "assembleEvidenceBundle requires \x60events\x60 or \x60tflogPath\x60"

/-- `assembleEvidenceBundle`: the bundle, and the number of events that were skipped. -/
def assembleEvidenceBundle (now : String) (args : AssembleEvidenceArgs) :
    Except String (EvidenceBundle × Nat) := do
  let candidates ← candidateEvents args
  let (kept, skipped) :=
    filterEvents args ((args.eventTypePattern.map RegExp.lastIndex).getD 0) candidates
  if kept = [] then
    .error "evidence bundle requires at least one matching event"
  else
    let bundle := draft now args (relink node none kept)
    let sig ← ed25519Sign node (evidenceBundleSigningBytes node bundle) args.privateKey
    .ok ({ bundle with
      signature := ⟨⟨"ed25519", args.issuer, standard.encode sig⟩, none, none, none⟩ }, skipped)

/-! ## Anchoring -/

/-- `AnchorBackend`, with what `submit` makes of its argument: an inclusion proof, or the text
of an error. -/
structure AnchorBackend where
  kind : String
  url : Option String
  submit : Bytes → Except String (Option Value)

/-- The loop over the backends. -/
def submitAll (bytes : Bytes) : List AnchorBackend → Except String (List Anchor)
  | [] => .ok []
  | backend :: rest => do
    let inclusionProof ← backend.submit bytes
    let later ← submitAll bytes rest
    .ok (⟨backend.kind, backend.url, inclusionProof⟩ :: later)

def anchorEvidenceBundle (backends : List AnchorBackend) :
    Except String EvidenceBundle := do
  let submitted ← submitAll (Text.utf8 (node.toEngine.canonicalize bundle.toValue)) backends
  .ok { bundle with anchors := some (bundle.anchors.getD [] ++ submitted) }

/-! ## Verification -/

structure VerifyEvidenceArgs where
  bundle : EvidenceBundle
  issuerPublicKey : Bytes
  verifyAnchor : Option (Anchor → Bytes → Bool)
  resolveEventSigner : Option (String → Option Bytes)
  skipPerEventVerification : Bool

structure VerifyEvidenceResult where
  ok : Bool
  reason : Option String
  outerSignatureOk : Bool
  eventsVerified : Nat
  eventsSkipped : Nat
  anchors : List (String × Bool)
  chainOk : Bool

/-- The result that `verifyEvidenceBundle` starts from. -/
def unverified : VerifyEvidenceResult where
  ok := false
  reason := none
  outerSignatureOk := false
  eventsVerified := 0
  eventsSkipped := 0
  anchors := []
  chainOk := false

/-- The result after the outer signature is accepted. -/
def accepted : VerifyEvidenceResult :=
  { unverified with outerSignatureOk := true }

/-- A result with which verification ends early, or goes on. -/
abbrev Verification := Except VerifyEvidenceResult VerifyEvidenceResult

/-- The check of the outer signature. -/
def outerSignatureOk (issuerPublicKey : Bytes) : Bool :=
  node.ed25519Verify issuerPublicKey (evidenceBundleSigningBytes node bundle)
    (node.base64Bytes bundle.signature.signature)

/-- The check of the signature of an event. -/
def eventSignatureOk (publicKey : Bytes) : Bool :=
  node.ed25519Verify publicKey
    (node.sha256 (Text.utf8 (node.toEngine.canonicalize (.object event.signedFields))))
    (node.base64Bytes event.signature.signature)

/-- The loop over the events. -/
def verifyEvents (resolveEventSigner : String → Option Bytes) :
    List ProofEvent → VerifyEvidenceResult → Verification
  | [], result => .ok result
  | event :: rest, result =>
    let id := event.id
    let signer := event.signature.signer
    match resolveEventSigner signer with
    | none =>
      .error { result with
        eventsSkipped := result.eventsSkipped + 1
        reason := some s!"event {id} signer {signer} unknown to verifier (no resolver entry)" }
    | some publicKey =>
      if eventSignatureOk node event publicKey then
        verifyEvents resolveEventSigner rest
          { result with eventsVerified := result.eventsVerified + 1 }
      else .error { result with reason := some s!"event {id} signature did not verify" }

/-- The loop over the anchors. -/
def verifyAnchors (verifyAnchor : Anchor → Bytes → Bool) (bundleBytes : Bytes) :
    List Anchor → VerifyEvidenceResult → Verification
  | [], result => .ok result
  | anchor :: rest, result =>
    let kind := anchor.kind
    let accepted := verifyAnchor anchor bundleBytes
    let result := { result with anchors := result.anchors ++ [(kind, accepted)] }
    if accepted then verifyAnchors verifyAnchor bundleBytes rest result
    else .error { result with reason := some s!"anchor {kind} inclusion proof failed" }

variable (args : VerifyEvidenceArgs) (result : VerifyEvidenceResult)

/-- The step of `verifyEvidenceBundle` for the signatures of the events. -/
def checkEvents : Verification :=
  if args.skipPerEventVerification then .ok result
  else
    match args.resolveEventSigner with
    | some resolve => verifyEvents node resolve args.bundle.events result
    | none =>
      if 0 < args.bundle.events.length then
        .error { result with
          reason := some
            "verifyEvidenceBundle requires resolveEventSigner OR skipPerEventVerification:true" }
      else .ok result

/-- The step for the hash chain. -/
def checkChain : Verification :=
  match verifyChain node args.bundle.events with
  | .ok _ => .ok { result with chainOk := true }
  | .error message =>
    .error { result with
      chainOk := false
      reason := some s!"event hash chain failed: {message}" }

/-- The step for the anchors. -/
def checkAnchors : Verification :=
  match args.verifyAnchor, args.bundle.anchors with
  | some verifyAnchor, some anchors =>
    verifyAnchors verifyAnchor (Text.utf8 (node.toEngine.canonicalize args.bundle.toValue))
      anchors result
  | _, _ => .ok result

/-- The steps after the outer signature. -/
def checkContents : Verification := do
  let signed ← checkEvents node args result
  let linked ← checkChain node args signed
  checkAnchors node args linked

def verifyEvidenceBundle : VerifyEvidenceResult :=
  if outerSignatureOk node args.bundle args.issuerPublicKey then
    match checkContents node args accepted with
    | .ok result => { result with ok := true }
    | .error result => result
  else { unverified with reason := some "outer signature did not verify" }

end

end TrustForge.Evidence
