import Mathlib.Data.List.Chain
import TrustForge.Foundation.Lines
import TrustForge.Foundation.MerkleTree
import TrustForge.Issuers

/-!
# Proof chains

Models of the generated `ProofEvent`, of `chain.rs` and of `parse_hashref` (`crypto.rs`).
An event names the hash of the event before it, and the hash covers that name, so that the
last hash of a chain stands for all of it.  A Merkle root stands for the tree that is built
over the hashes, in which the last node of an odd level occurs twice.
-/

namespace TrustForge.Chain

open MerkleTree.Tree Session Text List
open Issuers (HybridEnvelope)
open Json (Value)
open Signing (withoutSignature)

/-! ## Events -/

/-- `ProofEvent_EventVersion`. -/
inductive EventVersion where
  | v1

def EventVersion.text : EventVersion → String
  | .v1 => "1"

inductive ProofLevel where
  | l0
  | l1
  | l2
  | l3
  | l4
  | l5

def ProofLevel.text : ProofLevel → String
  | .l0 => "L0"
  | .l1 => "L1"
  | .l2 => "L2"
  | .l3 => "L3"
  | .l4 => "L4"
  | .l5 => "L5"

/-- `ProofEvent_Provenance`. -/
structure Provenance where
  human : Option String
  agent : Option String
  runningInstance : Option String
  model : Option String
  tool : Option String
  requestedAction : Option String

def Provenance.toValue (provenance : Provenance) : Value :=
  .object (optionalField "human" (provenance.human.map .string) ++
    optionalField "agent" (provenance.agent.map .string) ++
    optionalField "instance" (provenance.runningInstance.map .string) ++
    optionalField "model" (provenance.model.map .string) ++
    optionalField "tool" (provenance.tool.map .string) ++
    optionalField "requested_action" (provenance.requestedAction.map .string))

structure ProofEvent where
  eventVersion : EventVersion
  id : String
  kind : String
  actorId : String
  instanceId : Option String
  sessionId : Option String
  timestamp : String
  level : ProofLevel
  subjectRef : Option String
  payloadHash : Option String
  parentHash : Option String
  context : Option Value
  provenance : Option Provenance
  signature : HybridEnvelope

namespace ProofEvent

variable (event : ProofEvent)

/-- The fields that are hashed and signed; the field `kind` is called `type`. -/
def signedFields : List (String × Value) :=
  [("event_version", .string event.eventVersion.text), ("id", .string event.id),
    ("type", .string event.kind), ("actor_id", .string event.actorId)] ++
  optionalField "instance_id" (event.instanceId.map .string) ++
  optionalField "session_id" (event.sessionId.map .string) ++
  [("timestamp", .string event.timestamp), ("level", .string event.level.text)] ++
  optionalField "subject_ref" (event.subjectRef.map .string) ++
  optionalField "payload_hash" (event.payloadHash.map .string) ++
  optionalField "parent_hash" (event.parentHash.map .string) ++
  optionalField "context" event.context ++
  optionalField "provenance" (event.provenance.map Provenance.toValue)

def toValue : Value :=
  .object (event.signedFields ++ [("signature", event.signature.toValue)])

theorem keys_signedFields_sublist : (AssocMap.keys event.signedFields).Sublist
      (["event_version", "id", "type", "actor_id"] ++ ["instance_id"] ++ ["session_id"] ++
        ["timestamp", "level"] ++ ["subject_ref"] ++ ["payload_hash"] ++ ["parent_hash"] ++
        ["context"] ++ ["provenance"]) := by
  simp only [signedFields, AssocMap.keys, map_append]
  repeat' apply Sublist.append
  all_goals first | exact Sublist.refl _ | exact keys_optionalField_sublist _ _

theorem plainKeys_signedFields :
    Json.Runtime.PlainKeys (AssocMap.keys event.signedFields) := by
  apply Json.Runtime.PlainKeys.sublist _ event.keys_signedFields_sublist
  decide

theorem withoutSignature_toValue :
    withoutSignature event.toValue = .object event.signedFields := by
  apply Signing.withoutSignature_object
  intro member
  exact absurd (event.keys_signedFields_sublist.subset member) (by decide)

theorem get?_parent_hash :
    AssocMap.get? "parent_hash" event.signedFields = event.parentHash.map .string := by
  simp [signedFields, AssocMap.get?]

end ProofEvent

/-! ## Hash references -/

/-- The errors of `parse_hashref`. -/
inductive CryptoError where
  | unknownAlgorithm (text : String)
  | badBase64 (text : String)

def CryptoError.text : CryptoError → String
  | .unknownAlgorithm text => s!"unknown algorithm: {text}"
  | .badBase64 text => s!"invalid base64: {text}"

def fromHex (b : UInt8) : Option UInt8 :=
  if 48 ≤ b ∧ b ≤ 57 then some (b - 48)
  else if 97 ≤ b ∧ b ≤ 102 then some (b - 97 + 10)
  else if 65 ≤ b ∧ b ≤ 70 then some (b - 65 + 10)
  else none

/-- The loop of `parse_hashref`. -/
def parseHex : Bytes → Except CryptoError Bytes
  | [] => .ok []
  | [_] => .error (.badBase64 "odd hex length")
  | high :: low :: rest =>
    match fromHex high with
    | none => .error (.badBase64 "non-hex char")
    | some hi =>
      match fromHex low with
      | none => .error (.badBase64 "non-hex char")
      | some lo => do
        let out ← parseHex rest
        .ok ((hi <<< 4 ||| lo) :: out)

def parseHashref (s : String) : Except CryptoError (String × Bytes) :=
  match Lines.splitOnce ':' s.toList with
  | none => .error (.unknownAlgorithm s)
  | some (algo, hexPart) => do
    let out ← parseHex (utf8 (String.ofList hexPart))
    .ok (String.ofList algo, out)

/-- Two hexadecimal digits are read as the byte they were written for. -/
theorem fromHex_hexByte (b : UInt8) :
    ∃ high low hi lo : UInt8, (hexByte b).flatMap String.utf8EncodeChar = [high, low] ∧
      fromHex high = some hi ∧ fromHex low = some lo ∧ hi <<< 4 ||| lo = b := by
  have digit : ∀ n : Fin 16,
      String.utf8EncodeChar (hexDigit n) = [.ofNat (hexDigit n).toNat] ∧
        fromHex (.ofNat (hexDigit n).toNat) = some (.ofNat n) := by
    decide
  have join : ∀ n m : Fin 16, (UInt8.ofNat n <<< 4 ||| .ofNat m : UInt8) = .ofNat (16 * n + m) := by
    decide
  have small := b.toNat_lt
  obtain ⟨highBytes, highRead⟩ := digit ⟨b.toNat / 16, by omega⟩
  obtain ⟨lowBytes, lowRead⟩ := digit ⟨b.toNat % 16, by omega⟩
  refine ⟨_, _, _, _, ?_, highRead, lowRead, ?_⟩
  · rw [hexByte, flatMap_cons, flatMap_singleton, highBytes, lowBytes]
    rfl
  · have joined := join ⟨b.toNat / 16, by omega⟩ ⟨b.toNat % 16, by omega⟩
    rw [joined]
    simp [Nat.div_add_mod]

theorem parseHex_hex (bytes : Bytes) : parseHex (utf8 (hex bytes)) = .ok bytes := by
  rw [hex, utf8_ofList]
  induction bytes with
  | nil => rfl
  | cons b bytes ih =>
    obtain ⟨high, low, hi, lo, written, readHigh, readLow, byte⟩ := fromHex_hexByte b
    rw [flatMap_cons, flatMap_append, written]
    simp only [cons_append, nil_append, parseHex, readHigh, readLow, ih, byte]
    rfl

/-! ## Chains -/

/-- `ChainError`, as far as it can occur: a `ProofEvent` is always serialized, and its value
always has a canonical text. -/
inductive ChainError where
  | badHashRef (text : String)
  | parentMismatch (index : Nat) (parent expected : String)
  | missingParentHash (index : Nat)

section

variable (platform : Platform)

def eventSignedPayload (event : ProofEvent) : String :=
  platform.canonicalize (withoutSignature event.toValue)

def sha256HashOf (bytes : Bytes) : String :=
  "sha256:" ++ hex (platform.sha256 bytes)

def eventHash (event : ProofEvent) : String :=
  sha256HashOf platform (utf8 (eventSignedPayload platform event))

/-- The envelope is not hashed. -/
theorem eventSignedPayload_envelope (event : ProofEvent) (envelope : HybridEnvelope) :
    eventSignedPayload platform { event with signature := envelope } =
      eventSignedPayload platform event := by
  rw [eventSignedPayload, eventSignedPayload, ProofEvent.withoutSignature_toValue,
    ProofEvent.withoutSignature_toValue]
  rfl

/-- The loop of `verify_chain`, after the event before `index`. -/
def verifyFrom (index : Nat) (previous : ProofEvent) : List ProofEvent → Except ChainError Unit
  | [] => .ok ()
  | event :: rest =>
    let expected := eventHash platform previous
    match event.parentHash with
    | none => .error (.missingParentHash index)
    | some parent =>
      if parent ≠ expected then .error (.parentMismatch index parent expected)
      else verifyFrom (index + 1) event rest

def verifyChain : List ProofEvent → Except ChainError Unit
  | [] => .ok ()
  | event :: rest => verifyFrom platform 1 event rest

/-- The event names the hash of the event before it. -/
def Follows (previous event : ProofEvent) : Prop :=
  event.parentHash = some (eventHash platform previous)

theorem verifyFrom_eq_ok_iff (index : Nat) (previous : ProofEvent) (events : List ProofEvent) :
    verifyFrom platform index previous events = .ok () ↔
      IsChain (Follows platform) (previous :: events) := by
  induction events generalizing index previous with
  | nil => simp [verifyFrom]
  | cons event rest ih =>
    rw [verifyFrom, isChain_cons_cons, ← ih (index + 1), Follows]
    cases event.parentHash with
    | none => simp
    | some parent =>
      by_cases same : parent = eventHash platform previous
      · simp [same]
      · simp [same]

variable (events : List ProofEvent)

theorem verifyChain_eq_ok_iff :
    verifyChain platform events = .ok () ↔ IsChain (Follows platform) events := by
  cases events with
  | nil => simp [verifyChain]
  | cons event rest => exact verifyFrom_eq_ok_iff platform 1 event rest

/-- A chain can be verified in parts: the last event of one part is followed by the first of the
next. -/
theorem verifyChain_append_iff (first second : List ProofEvent) :
    verifyChain platform (first ++ second) = .ok () ↔
      verifyChain platform first = .ok () ∧ verifyChain platform second = .ok () ∧
        ∀ previous ∈ first.getLast?, ∀ event ∈ second.head?, Follows platform previous event := by
  simp only [verifyChain_eq_ok_iff]
  exact isChain_append

/-! ## What a hash stands for -/

theorem isAscii_sha256HashOf (bytes : Bytes) : Text.IsAscii (sha256HashOf platform bytes) := by
  intro c member
  rw [sha256HashOf, String.toList_append, mem_append] at member
  cases member with
  | inl scheme =>
    have plain : Text.IsAscii "sha256:" := by decide
    exact plain c scheme
  | inr digits => exact isAscii_hex _ c digits

theorem sha256HashOf_injective {left right : Bytes}
    (same : sha256HashOf platform left = sha256HashOf platform right) :
    platform.sha256 left = platform.sha256 right := by
  have digits := congrArg String.toList same
  rw [sha256HashOf, sha256HashOf, String.toList_append, String.toList_append] at digits
  exact hex_injective (String.toList_injective (append_cancel_left digits))

/-- The signed payload tells the parent, up to NFC. -/
theorem parentHash_eq_of_payload_eq {left right : ProofEvent}
    (same : eventSignedPayload platform left = eventSignedPayload platform right) :
    left.parentHash.map platform.nfc = right.parentHash.map platform.nfc := by
  have texts := String.ofList_injective same
  rw [left.withoutSignature_toValue, right.withoutSignature_toValue] at texts
  obtain ⟨budget, fields⟩ := platform.exists_reread_eq_of_encode_eq
    left.plainKeys_signedFields right.plainKeys_signedFields texts
  have parents := fields "parent_hash"
  rw [left.get?_parent_hash, right.get?_parent_hash, bind_reread_text, bind_reread_text] at parents
  exact Option.map_injective string_injective parents

/-- Events with one payload follow events with one hash. -/
theorem eventHash_eq_of_follows {previous previous' event event' : ProofEvent}
    (follows : Follows platform previous event) (follows' : Follows platform previous' event')
    (same : eventSignedPayload platform event = eventSignedPayload platform event') :
    eventHash platform previous = eventHash platform previous' := by
  have parents := parentHash_eq_of_payload_eq platform same
  rw [follows, follows', Option.map_some, Option.map_some, Option.some.injEq, eventHash, eventHash,
    platform.nfc_ascii _ (isAscii_sha256HashOf platform _),
    platform.nfc_ascii _ (isAscii_sha256HashOf platform _)] at parents
  exact parents

/-- No two payloads of the two lists have one digest. -/
def CollisionFree (xs ys : List ProofEvent) : Prop :=
  ∀ x ∈ xs, ∀ y ∈ ys,
    platform.sha256 (utf8 (eventSignedPayload platform x)) =
        platform.sha256 (utf8 (eventSignedPayload platform y)) →
      eventSignedPayload platform x = eventSignedPayload platform y

/-- Two valid chains of one length that end in one hash have the same signed payloads. -/
theorem payloads_eq_of_last_eventHash {xs ys : List ProofEvent}
    (collisionFree : CollisionFree platform xs ys) (some : xs ≠ [])
    (lengths : xs.length = ys.length) (valid : verifyChain platform xs = .ok ())
    (valid' : verifyChain platform ys = .ok ())
    (last : xs.getLast?.map (eventHash platform) = ys.getLast?.map (eventHash platform)) :
    xs.map (eventSignedPayload platform) = ys.map (eventSignedPayload platform) := by
  rw [verifyChain_eq_ok_iff] at valid valid'
  -- from the last event to the first
  induction xs using reverseRecOn generalizing ys with
  | nil => contradiction
  | append_singleton xs x ih =>
    obtain ⟨ys, y, rfl⟩ : ∃ init y, ys = init ++ [y] := by
      refine ⟨ys.dropLast, ys.getLast ?_, (dropLast_append_getLast _).symm⟩
      rintro rfl
      simp at lengths
    rw [getLast?_concat, getLast?_concat, Option.map_some, Option.map_some,
      Option.some.injEq] at last
    have payload : eventSignedPayload platform x = eventSignedPayload platform y :=
      collisionFree x (by simp) y (by simp) (sha256HashOf_injective platform last)
    rw [map_append, map_append, map_singleton, map_singleton, payload]
    refine congrArg (· ++ _) ?_
    have shorter : xs.length = ys.length := by simpa using lengths
    by_cases empty : xs = []
    · rw [empty, length_nil] at shorter
      rw [empty, length_eq_zero_iff.mp shorter.symm]
    · rw [isChain_append] at valid valid'
      have more : ys ≠ [] := by
        rintro rfl
        exact empty (length_eq_zero_iff.mp shorter)
      have follows := valid.2.2 _ (getLast?_eq_some_getLast empty) x rfl
      have follows' := valid'.2.2 _ (getLast?_eq_some_getLast more) y rfl
      refine ih (fun a inside b outside => collisionFree a (by simp [inside]) b (by simp [outside]))
        empty shorter valid.1 valid'.1 ?_
      rw [getLast?_eq_some_getLast empty, getLast?_eq_some_getLast more,
        Option.map_some, Option.map_some, eventHash_eq_of_follows platform follows follows' payload]

/-! ## Merkle roots -/

/-- The leaf of an event. -/
def eventDigest (event : ProofEvent) : Except ChainError Bytes :=
  match parseHashref (eventHash platform event) with
  | .ok (_, bytes) => .ok bytes
  | .error e => .error (.badHashRef e.text)

/-- The hash of two neighbours. -/
def nodeHash (left right : Bytes) : Bytes :=
  platform.sha256 (left ++ right)

/-- `merkle_root`.  Of a row that is not empty one node is left. -/
def merkleRoot : Except ChainError String :=
  if events = [] then .ok ("sha256:" ++ hex (replicate 32 0))
  else do
    let level ← events.mapM (eventDigest platform)
    .ok ("sha256:" ++ hex ((MerkleTree.root? (nodeHash platform) level).getD []))

/-- The digest that a hash reference spells. -/
def digest (event : ProofEvent) : Bytes :=
  platform.sha256 (utf8 (eventSignedPayload platform event))

theorem parseHashref_sha256HashOf (bytes : Bytes) :
    parseHashref (sha256HashOf platform bytes) = .ok ("sha256", platform.sha256 bytes) := by
  have parts : Lines.splitOnce ':' (sha256HashOf platform bytes).toList =
      some ("sha256".toList, (hex (platform.sha256 bytes)).toList) := by
    have plain : ':' ∉ "sha256".toList := by decide
    rw [sha256HashOf, String.toList_append]
    exact Lines.splitOnce_append ':' plain _
  rw [parseHashref, parts]
  simp only [String.ofList_toList, parseHex_hex]
  rfl

theorem eventDigest_eq (event : ProofEvent) :
    eventDigest platform event = .ok (digest platform event) := by
  rw [eventDigest, eventHash, parseHashref_sha256HashOf]
  rfl

theorem mapM_eventDigest :
    events.mapM (eventDigest platform) = .ok (events.map (digest platform)) := by
  rw [funext (eventDigest_eq platform)]
  exact mapM_pure

/-- The tree under the root of a list of events. -/
def tree : Option (MerkleTree.Tree Bytes) :=
  ofLeaves (events.map (digest platform))

theorem merkleRoot_eq :
    merkleRoot platform events = .ok ("sha256:" ++ hex
      (((tree platform events).map (·.eval (nodeHash platform))).getD (replicate 32 0))) := by
  rw [merkleRoot, mapM_eventDigest, tree, ← root?_eq_eval]
  by_cases empty : events = []
  · rw [if_pos empty, empty]
    rfl
  · have some := mt (MerkleTree.root?_eq_none_iff (nodeHash platform) (events.map (digest platform))).mp
      (mt map_eq_nil_iff.mp empty)
    obtain ⟨root, found⟩ := Option.ne_none_iff_exists'.mp some
    rw [if_neg empty]
    dsimp only [bind, Except.bind]
    rw [found]
    rfl

/-- The texts that are hashed for the inner nodes of the tree. -/
def nodeTexts : List Bytes :=
  match tree platform events with
  | none => []
  | some tree => (tree.pairs (nodeHash platform)).map fun pair => pair.1 ++ pair.2

/-- No two inner nodes of the trees of two lists collide, none of them has the hash of an
event, and no hash is the one of the empty list. -/
def Separated (xs ys : List ProofEvent) : Prop :=
  (∀ text ∈ nodeTexts platform xs ++ nodeTexts platform ys,
    ∀ other ∈ nodeTexts platform xs ++ nodeTexts platform ys,
      platform.sha256 text = platform.sha256 other → text = other) ∧
  (∀ event ∈ xs ++ ys, ∀ text ∈ nodeTexts platform xs ++ nodeTexts platform ys,
    digest platform event ≠ platform.sha256 text) ∧
  (∀ event ∈ xs ++ ys, digest platform event ≠ replicate 32 0) ∧
  ∀ text ∈ nodeTexts platform xs ++ nodeTexts platform ys,
    platform.sha256 text ≠ replicate 32 0

variable {built : MerkleTree.Tree Bytes}

theorem append_mem_nodeTexts {events : List ProofEvent} (known : tree platform events = some built)
    {pair : Bytes × Bytes} (member : pair ∈ built.pairs (nodeHash platform)) :
    pair.1 ++ pair.2 ∈ nodeTexts platform events := by
  rw [nodeTexts, known]
  exact mem_map_of_mem (f := fun pair : Bytes × Bytes => pair.1 ++ pair.2) member

/-- A leaf of the tree is the digest of an event. -/
theorem exists_event_of_leaf {events : List ProofEvent} (known : tree platform events = some built)
    {value : Bytes} (member : value ∈ built.leaves) :
    ∃ event ∈ events, digest platform event = value :=
  mem_map.mp (mem_of_mem_leaves known member)

/-- Digests have 32 bytes. -/
def FullLength : Prop :=
  ∀ bytes, (platform.sha256 bytes).length = 32

theorem length_of_mem_pairs (full : FullLength platform) {events : List ProofEvent}
    (known : tree platform events = some built) :
    ∀ pair ∈ built.pairs (nodeHash platform), pair.1.length = 32 ∧ pair.2.length = 32 := by
  refine pairs_of_leaves (P := fun bytes => bytes.length = 32)
    (fun left right => full (left ++ right)) fun value member => ?_
  obtain ⟨event, _, equal⟩ := exists_event_of_leaf platform known member
  rw [← equal]
  exact full _

theorem eval_ne_sentinel {xs ys events : List ProofEvent} (separated : Separated platform xs ys)
    (part : events ⊆ xs ++ ys)
    (texts : nodeTexts platform events ⊆ nodeTexts platform xs ++ nodeTexts platform ys)
    (known : tree platform events = some built) :
    built.eval (nodeHash platform) ≠ replicate 32 0 := by
  obtain ⟨_, _, leaves, nodes⟩ := separated
  cases built with
  | leaf value =>
    obtain ⟨event, listed, equal⟩ := exists_event_of_leaf platform known mem_cons_self
    exact equal ▸ leaves event (part listed)
  | node left right =>
    exact nodes _ (texts (append_mem_nodeTexts platform known mem_cons_self))

/-- The root stands for the tree. -/
theorem tree_eq_of_merkleRoot_eq {xs ys : List ProofEvent} (full : FullLength platform)
    (separated : Separated platform xs ys)
    (same : merkleRoot platform xs = merkleRoot platform ys) :
    tree platform xs = tree platform ys := by
  rw [merkleRoot_eq, merkleRoot_eq] at same
  have texts := congrArg String.toList (Except.ok.inj same)
  rw [String.toList_append, String.toList_append] at texts
  have values := hex_injective (String.toList_injective (append_cancel_left texts))
  cases left : tree platform xs with
  | none =>
    cases right : tree platform ys with
    | none => rfl
    | some other =>
      rw [left, right] at values
      exact absurd values.symm (eval_ne_sentinel platform separated
        (subset_append_right _ _) (subset_append_right _ _) right)
  | some built =>
    cases right : tree platform ys with
    | none =>
      rw [left, right] at values
      exact absurd values (eval_ne_sentinel platform separated
        (subset_append_left _ _) (subset_append_left _ _) left)
    | some other =>
      rw [left, right] at values
      obtain ⟨collisionFree, apart, _⟩ := separated
      refine congrArg some (eval_injective ?_ ?_ ?_ values)
      · intro pair inside pair' outside equal
        have text := collisionFree _
          (mem_append_left _ (append_mem_nodeTexts platform left inside)) _
          (mem_append_right _ (append_mem_nodeTexts platform right outside)) equal
        have lengths := (length_of_mem_pairs platform full left pair inside).1.trans
          (length_of_mem_pairs platform full right pair' outside).1.symm
        exact Prod.ext (append_inj_left text lengths) (append_inj_right text lengths)
      · intro value member pair outside
        obtain ⟨event, listed, equal⟩ := exists_event_of_leaf platform left member
        exact equal ▸ apart event (mem_append_left _ listed) _
          (mem_append_right _ (append_mem_nodeTexts platform right outside))
      · intro value member pair inside
        obtain ⟨event, listed, equal⟩ := exists_event_of_leaf platform right member
        exact equal ▸ apart event (mem_append_right _ listed) _
          (mem_append_left _ (append_mem_nodeTexts platform left inside))

/-- Without collisions, equal Merkle roots come from equal trees, and for lists of one length
from equal event hashes. -/
theorem merkleRoot_commits {xs ys : List ProofEvent} (full : FullLength platform)
    (separated : Separated platform xs ys)
    (same : merkleRoot platform xs = merkleRoot platform ys) :
    tree platform xs = tree platform ys ∧
      (xs.length = ys.length → xs.map (eventHash platform) = ys.map (eventHash platform)) := by
  have trees := tree_eq_of_merkleRoot_eq platform full separated same
  refine ⟨trees, fun lengths => ?_⟩
  have digests := ofLeaves_injective (by simpa using lengths) trees
  have spelled (events : List ProofEvent) : events.map (eventHash platform) =
      (events.map (digest platform)).map fun bytes => "sha256:" ++ hex bytes := by
    rw [map_map]
    rfl
  rw [spelled, spelled, digests]

end

/-- An event of an agent, with some envelope. -/
def sampleEvent (id : String) (parentHash : Option String) : ProofEvent where
  eventVersion := .v1
  id := id
  kind := "action.approved"
  actorId := "tf:actor:agent:example.com/a"
  instanceId := none
  sessionId := none
  timestamp := "2026-01-01T00:00:00Z"
  level := .l1
  subjectRef := none
  payloadHash := none
  parentHash := parentHash
  context := none
  provenance := none
  signature := ⟨⟨"ed25519", "tf:actor:agent:example.com/a", "AA=="⟩, none, none, none⟩

/-- Two events of which the second follows the first. -/
def sampleChain (platform : Platform) : List ProofEvent :=
  [sampleEvent "ev-1" none,
    sampleEvent "ev-2" (some (eventHash platform (sampleEvent "ev-1" none)))]

/-- The chain after somebody else signed it. -/
def resign (events : List ProofEvent) (envelope : HybridEnvelope) : List ProofEvent :=
  events.map fun event => { event with signature := envelope }

theorem isChain_resign {platform : Platform} {events : List ProofEvent}
    (valid : IsChain (Follows platform) events) (envelope : HybridEnvelope) :
    IsChain (Follows platform) (resign events envelope) := by
  refine isChain_map_of_isChain _ (fun previous event follows => ?_) valid
  rw [Follows, eventHash, eventSignedPayload_envelope]
  exact follows

theorem isChain_sampleChain (platform : Platform) :
    IsChain (Follows platform) (sampleChain platform) :=
  isChain_cons_cons.mpr ⟨rfl, isChain_singleton _⟩

/-- Signing a chain again changes none of its payloads. -/
theorem resigned_chain_payloads :
    let events := sampleChain transparent
    let envelope := ⟨⟨"ed25519", "tf:actor:agent:example.com/b", ""⟩, none, none, none⟩
    (resign events envelope).map (·.signature) ≠ events.map (·.signature) ∧
      events.map (eventSignedPayload transparent) =
        (resign events envelope).map (eventSignedPayload transparent) := by
  intro events envelope
  constructor
  · simp [events, envelope, resign, sampleChain, sampleEvent]
  · have valid := isChain_sampleChain transparent
    refine payloads_eq_of_last_eventHash transparent ?_ (cons_ne_nil _ _)
      (length_map _).symm ((verifyChain_eq_ok_iff _ _).mpr valid)
      ((verifyChain_eq_ok_iff _ _).mpr (isChain_resign valid envelope)) ?_
    · intro x _ y _ digests
      have identity (bytes : Bytes) : transparent.sha256 bytes = bytes := rfl
      rw [identity, identity] at digests
      exact utf8_injective digests
    · rw [resign, getLast?_map, Option.map_map]
      refine congrArg (Option.map · _) (funext fun event => ?_)
      rw [Function.comp_apply, eventHash, eventHash, eventSignedPayload_envelope _ event envelope]

/-- The transparent primitives with digests of 32 bytes, of which the first counts on from
the first byte of the text. -/
def counting : Platform :=
  { transparent with
    sha256 := fun bytes => (bytes.headD 0 + 1) :: replicate 31 0 }

theorem counting_fullLength : FullLength counting :=
  fun _ => rfl

/-- Payloads start with a brace. -/
theorem digest_counting (event : ProofEvent) :
    digest counting event = 124 :: replicate 31 0 := by
  obtain ⟨text, starts⟩ := counting.encode_object_startsBrace ⟨event.signedFields, rfl⟩
  rw [digest, eventSignedPayload, event.withoutSignature_toValue, Json.Runtime.canonicalize, starts,
    utf8_ofList]
  rfl

theorem tree_counting (events : List ProofEvent) :
    tree counting events =
      ofLeaves (replicate events.length (124 :: replicate 31 0)) := by
  rw [tree, map_congr_left fun event _ => digest_counting event, map_const']

/-- Three or four events make a tree of three nodes. -/
theorem nodeTexts_counting {events : List ProofEvent}
    (count : events.length = 3 ∨ events.length = 4) :
    nodeTexts counting events =
      let row (mark : UInt8) : Bytes := mark :: replicate 31 0
      [row 125 ++ row 125, row 124 ++ row 124, row 124 ++ row 124] := by
  rw [nodeTexts, tree_counting]
  cases count with
  | inl three => rw [three]; rfl
  | inr four => rw [four]; rfl

theorem separated_counting {xs ys : List ProofEvent} (count : xs.length = 3 ∨ xs.length = 4)
    (count' : ys.length = 3 ∨ ys.length = 4) : Separated counting xs ys := by
  rw [Separated, nodeTexts_counting count, nodeTexts_counting count']
  simp only [digest_counting]
  refine ⟨by decide, fun _ _ => by decide, fun _ _ => by decide, by decide⟩

/-- The root of three events does not depend on who signed them. -/
theorem resigned_events_commit :
    let events := replicate 3 (sampleEvent "ev-1" none)
    let envelope := ⟨⟨"ed25519", "tf:actor:agent:example.com/b", ""⟩, none, none, none⟩
    tree counting events = tree counting (resign events envelope) ∧
      events.map (eventHash counting) = (resign events envelope).map (eventHash counting) := by
  intro events envelope
  have same : merkleRoot counting events = merkleRoot counting (resign events envelope) := by
    rw [merkleRoot_eq, merkleRoot_eq, tree_counting, tree_counting]
    rfl
  have commits := merkleRoot_commits counting counting_fullLength
    (separated_counting (.inl rfl) (.inl rfl)) same
  exact ⟨commits.1, commits.2 rfl⟩

/-- Repeating the last of three events keeps the root. -/
theorem repeated_event_same_root :
    let event := sampleEvent "ev-1" none
    let xs := [event, event, event]
    let ys := [event, event, event, event]
    FullLength counting ∧ Separated counting xs ys ∧
      merkleRoot counting xs = merkleRoot counting ys ∧ xs.length ≠ ys.length := by
  intro event xs ys
  refine ⟨counting_fullLength, separated_counting (.inl rfl) (.inr rfl), ?_, by decide⟩
  rw [merkleRoot_eq, merkleRoot_eq]
  rfl

end TrustForge.Chain
