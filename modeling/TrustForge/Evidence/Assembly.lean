import TrustForge.Evidence.Verification

/-!
# Assembled evidence

Events that pass the filters are linked anew, each to the one that is kept before it, while
their signatures stay those of the log.  A payload tells its parent, so that a signature only
stays good where the link was there already.
-/

namespace TrustForge.Evidence

open Json.Script Json.Script.Engine List Option
open Chain (ProofEvent)
open Encoding (standard)
open Json (Value)
open PacketMode.Script (truthy)
open Session (Key optionalField)

/-! ## Parents -/

/-- The signed properties of an event before its parent. -/
def fieldsBeforeParent (event : ProofEvent) : List (String × Value) :=
  ProofEvent.signedFields { event with parentHash := none, context := none, provenance := none }

/-- The signed properties of an event after its parent. -/
def fieldsAfterParent (event : ProofEvent) : List (String × Value) :=
  optionalField "context" event.context ++
    optionalField "provenance" (event.provenance.map Chain.Provenance.toValue)

theorem signedFields_withParent (event : ProofEvent) (parent : Option String) :
    ProofEvent.signedFields { event with parentHash := parent } =
      fieldsBeforeParent event ++ (optionalField "parent_hash" (parent.map .string) ++
        fieldsAfterParent event) := by
  simp [ProofEvent.signedFields, fieldsBeforeParent, fieldsAfterParent, optionalField]

section

variable (node : Node) (event : ProofEvent)

/-- The size of a payload, by the size of the parent. -/
theorem length_payload_withParent (parent : Option String) :
    (eventSignedPayload node { event with parentHash := parent }).toList.length =
      2 + (((fieldsBeforeParent event).map node.toEngine.propertySize).sum +
        (((optionalField "parent_hash" (parent.map .string)).map node.toEngine.propertySize).sum +
          ((fieldsAfterParent event).map node.toEngine.propertySize).sum) - 1) := by
  rw [eventSignedPayload, canonicalize, String.toList_ofList, length_encode_object,
    signedFields_withParent, map_append, map_append, sum_append, sum_append]

theorem one_le_fieldsBeforeParent :
    1 ≤ ((fieldsBeforeParent event).map node.toEngine.propertySize).sum := by
  simp only [fieldsBeforeParent, ProofEvent.signedFields, map_append, sum_append,
    map_cons, sum_cons, propertySize]
  omega

/-- A parent makes a payload longer. -/
theorem length_payload_parent (parent : String) :
    (eventSignedPayload node { event with parentHash := some parent }).toList.length =
      (eventSignedPayload node { event with parentHash := none }).toList.length +
        node.toEngine.propertySize ("parent_hash", .string parent) := by
  have first := one_le_fieldsBeforeParent node event
  rw [length_payload_withParent, length_payload_withParent, map_some, map_none,
    optionalField, optionalField, map_singleton, sum_singleton, map_nil, sum_nil]
  omega

/-- A payload tells the parent, up to NFC, and nothing else about it. -/
theorem payload_withParent_iff (parent other : Option String) :
    eventSignedPayload node { event with parentHash := parent } =
        eventSignedPayload node { event with parentHash := other } ↔
      parent.map node.nfc = other.map node.nfc := by
  have longer (text : String) :
      eventSignedPayload node { event with parentHash := some text } ≠
        eventSignedPayload node { event with parentHash := none } := by
    intro same
    have sizes := length_payload_parent node event text
    rw [same, propertySize] at sizes
    omega
  cases parent with
  | none =>
    cases other with
    | none => exact iff_of_true rfl rfl
    | some text => exact iff_of_false (longer text).symm (by simp)
  | some text =>
    cases other with
    | none => exact iff_of_false (longer text) (by simp)
    | some text' =>
      rw [eventSignedPayload, eventSignedPayload, signedFields_withParent, signedFields_withParent,
        map_some, map_some, optionalField, optionalField, singleton_append, singleton_append,
        map_some, map_some, Option.some.injEq]
      constructor
      · intro same
        have value := node.toEngine.encode_eq_of_object_eq (String.ofList_injective same)
        rw [encode, encode, stringify_eq_writeJsonString, stringify_eq_writeJsonString] at value
        exact Json.writeJsonString_injective value
      · intro same
        have value : node.toEngine.encode (.string text) = node.toEngine.encode (.string text') := by
          rw [encode, encode]
          exact congrArg stringify same
        rw [canonicalize, canonicalize, encode, encode, encodeEntries_eq_map, encodeEntries_eq_map,
          map_append, map_append, map_cons, map_cons, value]

end

/-! ## Links -/

variable {events : List ProofEvent}

section

variable (node : Node)

/-- The event names the hash of the event before it. -/
def Follows (previous event : ProofEvent) : Prop :=
  event.parentHash = some (eventHash node previous)

theorem eventHash_nfc (event : ProofEvent) : node.nfc (eventHash node event) = eventHash node event :=
  node.nfc_ascii _ (Chain.isAscii_sha256HashOf node.toPlatform _)

theorem truthy_eventHash (event : ProofEvent) :
    truthy (some (eventHash node event)) = some (eventHash node event) := by
  have nonempty : eventHash node event ≠ "" := by
    intro empty
    have characters := congrArg String.toList empty
    rw [eventHash, sha256HashRef, String.toList_append] at characters
    exact absurd (append_eq_nil_iff.mp characters).1 (by decide)
  simp [truthy, nonempty]

theorem verifyFrom_eq_ok_iff (index : Nat) (previous : ProofEvent) (events : List ProofEvent) :
    verifyFrom node index previous events = .ok () ↔
      IsChain (Follows node) (previous :: events) := by
  induction events generalizing index previous with
  | nil => simp [verifyFrom]
  | cons event rest ih =>
    rw [verifyFrom, isChain_cons_cons, ← ih (index + 1), Follows]
    by_cases follows : event.parentHash = some (eventHash node previous)
    · simp [follows, truthy_eventHash]
    · cases parent : truthy event.parentHash with
      | none => simp [follows]
      | some text =>
        have named : event.parentHash = some text := (filter_eq_some_iff.mp parent).1
        have differs : text ≠ eventHash node previous := by
          rintro rfl
          exact follows named
        simp [differs, follows]

theorem verifyChain_eq_ok_iff (events : List ProofEvent) :
    verifyChain node events = .ok () ↔ IsChain (Follows node) events := by
  cases events with
  | nil => simp [verifyChain]
  | cons event rest => exact verifyFrom_eq_ok_iff node 1 event rest

/-- Events that are linked anew form a chain. -/
theorem isChain_relink (previous : ProofEvent) (events : List ProofEvent) :
    IsChain (Follows node) (previous :: relink node (some previous) events) := by
  induction events generalizing previous with
  | nil => simp [relink]
  | cons event rest ih =>
    rw [relink, isChain_cons_cons]
    exact ⟨rfl, ih _⟩

theorem verifyChain_relink (events : List ProofEvent) :
    verifyChain node (relink node none events) = .ok () := by
  cases events with
  | nil => rfl
  | cons event rest => exact (verifyChain_eq_ok_iff node _).mpr (isChain_relink node _ rest)

/-- Only the hash of the previous event matters for the links. -/
theorem relink_congr {previous other : ProofEvent}
    (same : eventHash node previous = eventHash node other) (events : List ProofEvent) :
    relink node (some previous) events = relink node (some other) events := by
  cases events with
  | nil => rfl
  | cons event rest =>
    have hash : eventHashRefForChain node previous = eventHashRefForChain node other := same
    rw [relink, relink, map_some, map_some, hash]

/-- The events already have the links that they would get, up to NFC. -/
def Linked : Option ProofEvent → List ProofEvent → Prop
  | _, [] => True
  | previous, event :: rest =>
    event.parentHash.map node.nfc = previous.map (eventHash node) ∧ Linked (some event) rest

/-- Linking anew keeps the payloads exactly if the links were there. -/
theorem payloads_relink_iff (previous : Option ProofEvent) (events : List ProofEvent) :
    (∀ pair ∈ events.zip (relink node previous events),
        eventSignedPayload node pair.2 = eventSignedPayload node pair.1) ↔
      Linked node previous events := by
  induction events generalizing previous with
  | nil => simp [Linked]
  | cons event rest ih =>
    have here : eventSignedPayload node
          { event with parentHash := previous.map (eventHashRefForChain node) } =
        eventSignedPayload node event ↔
        event.parentHash.map node.nfc = previous.map (eventHash node) := by
      have ascii : (previous.map (eventHashRefForChain node)).map node.nfc =
          previous.map (eventHash node) := by
        rw [Option.map_map]
        exact congrArg (previous.map ·) (funext fun event => eventHash_nfc node event)
      have parents := payload_withParent_iff node event
        (previous.map (eventHashRefForChain node)) event.parentHash
      rw [ascii, eq_comm (a := previous.map (eventHash node))] at parents
      exact parents
    rw [relink, zip_cons_cons, forall_mem_cons, Linked, here]
    refine and_congr_right fun linked => ?_
    have hash : eventHash node
          { event with parentHash := previous.map (eventHashRefForChain node) } =
        eventHash node event := by
      rw [eventHash, here.mpr linked, ← eventHash]
    rw [relink_congr node hash]
    exact ih (some event)

/-- Links to hashes are links up to NFC. -/
theorem linked_iff_isChain {previous : ProofEvent}
    (hashes : ∀ event ∈ events, ∃ parent, Follows node parent event) :
    Linked node (some previous) events ↔ IsChain (Follows node) (previous :: events) := by
  induction events generalizing previous with
  | nil => simp [Linked]
  | cons event rest ih =>
    obtain ⟨parent, follows⟩ := hashes event mem_cons_self
    have here : event.parentHash.map node.nfc = some (eventHash node previous) ↔
        Follows node previous event := by
      rw [Follows, follows, map_some, eventHash_nfc]
    rw [Linked, isChain_cons_cons, map_some, here,
      ih fun later member => hashes later (mem_cons_of_mem event member)]

end

/-! ## Assembled bundles -/

theorem filterEvents_sublist (args : AssembleEvidenceArgs) (lastIndex : Nat)
    (events : List ProofEvent) : (filterEvents args lastIndex events).1.Sublist events := by
  induction events generalizing lastIndex with
  | nil => exact Sublist.refl []
  | cons event rest ih =>
    rw [filterEvents]
    split
    · dsimp only
      split
      · exact (ih _).cons_cons event
      · exact (ih _).cons event
    · exact (ih _).cons event

theorem keptEvents_sublist (args : AssembleEvidenceArgs) (events : List ProofEvent) :
    (keptEvents args events).Sublist events :=
  filterEvents_sublist args _ events

/-- Without a pattern the filter looks at each event alone. -/
theorem keptEvents_eq_filter {args : AssembleEvidenceArgs} (none : args.eventTypePattern = none)
    (events : List ProofEvent) : keptEvents args events = events.filter (inScope args) := by
  rw [keptEvents, none]
  induction events with
  | nil => rfl
  | cons event rest ih =>
    rw [filterEvents, filter_cons, ← ih, none]
    split
    · rfl
    · rfl

section

variable (node : Node)

/-- The bundle that is assembled from events that pass the filters. -/
theorem assembleEvidenceBundle_eq_ok (now : String) {args : AssembleEvidenceArgs}
    {source : List ProofEvent} {secret : Key} (events : args.events = some source)
    (privateKey : args.privateKey = secret.bytes) (keeps : keptEvents args source ≠ []) :
    ∃ skipped, assembleEvidenceBundle node now args =
      .ok (signedDraft node now args secret (relink node none (keptEvents args source)),
        skipped) := by
  have candidates : candidateEvents args = .ok source := by
    rw [candidateEvents, events]
  have signs (msg : Bytes) : ed25519Sign node msg args.privateKey =
      .ok (node.ed25519Sign secret msg) := by
    rw [ed25519Sign, privateKey, Key.ofBytes?_bytes]
  refine ⟨(filterEvents args ((args.eventTypePattern.map RegExp.lastIndex).getD 0) source).2, ?_⟩
  rw [keptEvents] at keeps ⊢
  rw [assembleEvidenceBundle, candidates]
  dsimp only [bind, Except.bind]
  rw [if_neg keeps, signs]
  rfl

/-- Every event with the event that it is linked anew as. -/
def relinkedPairs (events : List ProofEvent) : List (ProofEvent × ProofEvent) :=
  events.zip (relink node none events)

theorem length_relink (previous : Option ProofEvent) (events : List ProofEvent) :
    (relink node previous events).length = events.length := by
  induction events generalizing previous with
  | nil => rfl
  | cons event rest ih => rw [relink, length_cons, length_cons, ih]

/-- Linking anew does not touch signatures. -/
theorem signature_of_mem_relinked {previous : Option ProofEvent} {pair : ProofEvent × ProofEvent}
    (member : pair ∈ events.zip (relink node previous events)) :
    pair.2.signature = pair.1.signature := by
  induction events generalizing previous with
  | nil => contradiction
  | cons event rest ih =>
    rw [relink, zip_cons_cons] at member
    rcases mem_cons.mp member with rfl | later
    · rfl
    · exact ih later

theorem eventSignatureOk_of_payload_eq {event other : ProofEvent}
    (payload : eventSignedPayload node other = eventSignedPayload node event)
    (signature : other.signature = event.signature) (key : Bytes) :
    eventSignatureOk node other key = eventSignatureOk node event key := by
  rw [eventSignatureOk, eventSignatureOk, signature]
  rw [eventSignedPayload, eventSignedPayload] at payload
  rw [payload]

/-- The signatures of events that are linked anew pass exactly if the payloads are kept. -/
theorem relinked_signatures_iff {resolve : String → Option Bytes}
    (signed : ∀ event ∈ events, ∃ key, resolve event.signature.signer = some key ∧
      eventSignatureOk node event key = true)
    (unforgeable : ∀ pair ∈ relinkedPairs node events, ∀ key,
      resolve pair.1.signature.signer = some key → eventSignatureOk node pair.2 key = true →
        eventDigest node pair.2 = eventDigest node pair.1)
    (collisionFree : ∀ pair ∈ relinkedPairs node events,
      eventDigest node pair.2 = eventDigest node pair.1 →
        eventSignedPayload node pair.2 = eventSignedPayload node pair.1) :
    (∀ event ∈ relink node none events, ∃ key, resolve event.signature.signer = some key ∧
        eventSignatureOk node event key = true) ↔
      ∀ pair ∈ relinkedPairs node events,
        eventSignedPayload node pair.2 = eventSignedPayload node pair.1 := by
  have seconds : (relinkedPairs node events).map Prod.snd = relink node none events :=
    map_snd_zip (length_relink node none events).le
  constructor
  · intro verified pair member
    obtain ⟨key, known, passed⟩ := verified pair.2 (seconds ▸ mem_map_of_mem member)
    rw [signature_of_mem_relinked node member] at known
    exact collisionFree pair member (unforgeable pair member key known passed)
  · intro kept event member
    obtain ⟨pair, listed, rfl⟩ := mem_map.mp (seconds ▸ member)
    have signature := signature_of_mem_relinked node listed
    obtain ⟨key, known, passed⟩ := signed pair.1 (of_mem_zip listed).1
    refine ⟨key, signature ▸ known, ?_⟩
    rw [eventSignatureOk_of_payload_eq node (kept pair listed) signature, passed]

theorem exists_parent_of_mem_tail (chain : IsChain (Follows node) events) {event : ProofEvent}
    (member : event ∈ events.tail) : ∃ parent, Follows node parent event := by
  induction events with
  | nil => contradiction
  | cons first rest ih =>
    cases rest with
    | nil => contradiction
    | cons second later =>
      obtain ⟨follows, rest⟩ := isChain_cons_cons.mp chain
      rcases mem_cons.mp member with rfl | further
      · exact ⟨first, follows⟩
      · exact ih rest further

/-- Events of a chain have the links that they would get exactly if the first has none and the
others follow each other. -/
theorem linked_none_iff {source kept : List ProofEvent} (chained : verifyChain node source = .ok ())
    (sublist : kept.Sublist source) :
    Linked node none kept ↔
      (∀ first ∈ kept.head?, first.parentHash = none) ∧ verifyChain node kept = .ok () := by
  cases kept with
  | nil => exact iff_of_true trivial ⟨fun _ none => (nomatch none), rfl⟩
  | cons first rest =>
    have hashes : ∀ event ∈ rest, ∃ parent, Follows node parent event := fun event member =>
      exists_parent_of_mem_tail node ((verifyChain_eq_ok_iff node source).mp chained)
        (sublist.tail.subset member)
    rw [Linked, linked_iff_isChain node hashes, verifyChain_eq_ok_iff]
    simp

/-- An assembled bundle is accepted if the signatures of its events are. -/
theorem accepts_signedDraft_iff (now : String) (args : AssembleEvidenceArgs) (secret : Key)
    (verifyAnchor : Option (Anchor → Bytes → Bool)) (resolve : String → Option Bytes)
    (kept : List ProofEvent) :
    (verifyEvidenceBundle node
        { bundle := signedDraft node now args secret (relink node none kept)
          issuerPublicKey := (node.ed25519Public secret).bytes
          verifyAnchor := verifyAnchor
          resolveEventSigner := some resolve
          skipPerEventVerification := false }).ok = true ↔
      ∀ event ∈ relink node none kept, ∃ key, resolve event.signature.signer = some key ∧
        eventSignatureOk node event key = true := by
  have outer := outerSignatureOk_signedDraft node now args secret (relink node none kept)
  have chain := verifyChain_relink node kept
  rw [verifyEvidenceBundle_accepts_iff]
  constructor
  · rintro ⟨-, accepted, -, -⟩ event member
    obtain ⟨_, key, same, known, verified⟩ := accepted.resolve_left Bool.false_ne_true event member
    cases same
    exact ⟨key, known, verified⟩
  · intro verified
    refine ⟨outer, .inr fun event member => ?_, chain, fun _ _ _ none => (nomatch none)⟩
    obtain ⟨key, known, passed⟩ := verified event member
    exact ⟨resolve, key, rfl, known, passed⟩

/-- Assembled evidence keeps the signatures that the events came with, and links the events
anew.  It is accepted exactly if that changes nothing: the first event that passes the filters
names no parent, and every other one names the hash of the one kept before it. -/
theorem assembled_evidence_accepted_iff (now : String) {args : AssembleEvidenceArgs}
    {source : List ProofEvent} {secret : Key} {resolve : String → Option Bytes}
    (verifyAnchor : Option (Anchor → Bytes → Bool))
    (events : args.events = some source) (privateKey : args.privateKey = secret.bytes)
    (signed : ∀ event ∈ source, ∃ key, resolve event.signature.signer = some key ∧
      eventSignatureOk node event key = true)
    (chained : verifyChain node source = .ok ()) (keeps : keptEvents args source ≠ [])
    (unforgeable : ∀ pair ∈ relinkedPairs node (keptEvents args source), ∀ key,
      resolve pair.1.signature.signer = some key → eventSignatureOk node pair.2 key = true →
        eventDigest node pair.2 = eventDigest node pair.1)
    (collisionFree : ∀ pair ∈ relinkedPairs node (keptEvents args source),
      eventDigest node pair.2 = eventDigest node pair.1 →
        eventSignedPayload node pair.2 = eventSignedPayload node pair.1) :
    ∃ bundle skipped, assembleEvidenceBundle node now args = .ok (bundle, skipped) ∧
      ((verifyEvidenceBundle node
          { bundle := bundle
            issuerPublicKey := (node.ed25519Public secret).bytes
            verifyAnchor := verifyAnchor
            resolveEventSigner := some resolve
            skipPerEventVerification := false }).ok = true ↔
        (∀ first ∈ (keptEvents args source).head?, first.parentHash = none) ∧
          verifyChain node (keptEvents args source) = .ok ()) := by
  obtain ⟨skipped, assembled⟩ := assembleEvidenceBundle_eq_ok node now events privateKey keeps
  refine ⟨_, skipped, assembled, ?_⟩
  have sublist := keptEvents_sublist args source
  have signatures := relinked_signatures_iff node
    (fun event member => signed event (sublist.subset member)) unforgeable collisionFree
  rw [accepts_signedDraft_iff, signatures, relinkedPairs, payloads_relink_iff,
    linked_none_iff node chained sublist]

end

section

variable (node : Node)

/-- Hexadecimal digits are not escaped. -/
theorem flatMap_quoteChar_hex (bytes : Bytes) :
    (Text.hex bytes).toList.flatMap quoteChar = (Text.hex bytes).toList := by
  have digit : ∀ n : Fin 16,
      quoteChar (Text.hexDigit n) = [Text.hexDigit n] := by
    decide
  rw [Text.hex, String.toList_ofList]
  induction bytes with
  | nil => rfl
  | cons b bytes ih =>
    have small := b.toNat_lt
    have high := digit ⟨b.toNat / 16, by omega⟩
    have low := digit ⟨b.toNat % 16, by omega⟩
    rw [flatMap_cons, flatMap_append, ih, Text.hexByte, flatMap_cons, flatMap_singleton, high, low]
    rfl

theorem length_hex (bytes : Bytes) : (Text.hex bytes).toList.length = 2 * bytes.length := by
  rw [Text.hex, String.toList_ofList]
  induction bytes with
  | nil => rfl
  | cons b bytes ih =>
    rw [flatMap_cons, length_append, ih, length_cons, Text.hexByte]
    simp only [length_cons, length_nil]
    omega

/-- The size of a parent in a payload. -/
theorem propertySize_parent (event : ProofEvent) :
    node.toEngine.propertySize ("parent_hash", .string (eventHash node event)) =
      24 + 2 * (eventDigest node event).length := by
  have name : node.nfc "parent_hash" = "parent_hash" := node.nfc_ascii _ (by decide)
  have key : (stringify "parent_hash").length = 13 := by decide
  have scheme : "sha256:".toList.flatMap quoteChar = "sha256:".toList := by decide
  have text : (stringify (eventHash node event)).length =
      9 + 2 * (eventDigest node event).length := by
    rw [stringify, eventHash, sha256HashRef, String.toList_append, flatMap_append,
      scheme, flatMap_quoteChar_hex, ← eventDigest]
    have digits := length_hex (eventDigest node event)
    have plain : "sha256:".toList.length = 7 := by decide
    simp only [length_cons, length_append, length_nil]
    omega
  rw [propertySize, encode]
  simp only [name, eventHash_nfc, propertyText, length_append, length_cons]
  omega

end

/-- An event after the first one. -/
def laterEvent : ProofEvent :=
  { Chain.sampleEvent "ev-2" none with timestamp := "2026-01-02T00:00:00Z" }

def secondEvent : ProofEvent :=
  signEvent measuring sampleKey
    { laterEvent with parentHash := some (eventHash measuring firstEvent) }

def sampleLog : List ProofEvent :=
  [firstEvent, secondEvent]

/-- The key of everybody. -/
def resolveSample (_ : String) : Option Bytes :=
  some (measuring.ed25519Public sampleKey).bytes

theorem sampleLog_signed : ∀ event ∈ sampleLog, ∃ key,
    resolveSample event.signature.signer = some key ∧ eventSignatureOk measuring event key = true := by
  simp only [sampleLog, forall_mem_cons]
  exact ⟨⟨_, rfl, eventSignatureOk_signEvent measuring sampleKey _⟩,
    ⟨_, rfl, eventSignatureOk_signEvent measuring sampleKey _⟩, fun _ none => (nomatch none)⟩

theorem sampleLog_chained : verifyChain measuring sampleLog = .ok () := by
  rw [verifyChain_eq_ok_iff, sampleLog, isChain_pair]
  rfl

theorem sampleLog_linked : Linked measuring none sampleLog := by
  refine ⟨rfl, ?_, trivial⟩
  change some (measuring.nfc (eventHash measuring firstEvent)) = _
  rw [eventHash_nfc]
  rfl

theorem kept_both :
    keptEvents (sampleArgs "2026-01-01T00:00:00Z" sampleLog) sampleLog = sampleLog := by
  rw [keptEvents_eq_filter rfl, filter_eq_self]
  simp only [sampleLog, forall_mem_cons]
  exact ⟨by decide +kernel, by decide +kernel, fun _ none => (nomatch none)⟩

theorem kept_second :
    keptEvents (sampleArgs "2026-01-02T00:00:00Z" sampleLog) sampleLog = [secondEvent] := by
  have first : inScope (sampleArgs "2026-01-02T00:00:00Z" sampleLog) firstEvent = false := by
    decide +kernel
  have second : inScope (sampleArgs "2026-01-02T00:00:00Z" sampleLog) secondEvent = true := by
    decide +kernel
  rw [sampleLog] at first second ⊢
  rw [keptEvents_eq_filter rfl, filter_cons_of_neg (Bool.eq_false_iff.mp first),
    filter_cons_of_pos second, filter_nil]

/-- Evidence of the whole log is accepted. -/
theorem whole_log_accepted :
    ∃ bundle skipped,
      assembleEvidenceBundle measuring "2026-02-01T00:00:00Z"
        (sampleArgs "2026-01-01T00:00:00Z" sampleLog) = .ok (bundle, skipped) ∧
      (verifyEvidenceBundle measuring
        { bundle := bundle
          issuerPublicKey := (measuring.ed25519Public sampleKey).bytes
          verifyAnchor := none
          resolveEventSigner := some resolveSample
          skipPerEventVerification := false }).ok = true := by
  have payloads := (payloads_relink_iff measuring none sampleLog).mpr sampleLog_linked
  have links := (linked_none_iff measuring sampleLog_chained (Sublist.refl _)).mp
    sampleLog_linked
  have events : (sampleArgs "2026-01-01T00:00:00Z" sampleLog).events = some sampleLog := rfl
  obtain ⟨bundle, skipped, assembled, accepted⟩ := assembled_evidence_accepted_iff measuring
    "2026-02-01T00:00:00Z" none events rfl sampleLog_signed sampleLog_chained
    (kept_both ▸ cons_ne_nil _ _)
    (fun pair member _ _ _ => by
      rw [kept_both] at member
      rw [eventDigest, payloads pair member, ← eventDigest])
    (fun pair member _ => payloads pair (kept_both ▸ member))
  rw [kept_both] at accepted
  exact ⟨bundle, skipped, assembled, accepted.mpr links⟩

/-- The payload as the check of a signature takes it. -/
theorem eventSignatureOk_eq (event : ProofEvent) (key : Bytes) :
    eventSignatureOk measuring event key =
      measuring.ed25519Verify key (eventDigest measuring event)
        (measuring.base64Bytes event.signature.signature) :=
  rfl

/-- Without its parent a payload is 88 characters shorter. -/
theorem unlinked_event_refused (event parent : ProofEvent) :
    eventSignatureOk measuring
      { signEvent measuring sampleKey { event with parentHash := some (eventHash measuring parent) }
        with parentHash := none } (measuring.ed25519Public sampleKey).bytes ≠ true := by
  intro verified
  rw [eventSignatureOk_eq] at verified
  have carried := base64Bytes_signEvent measuring sampleKey
    { event with parentHash := some (eventHash measuring parent) }
  have payload : eventDigest measuring
      { signEvent measuring sampleKey { event with parentHash := some (eventHash measuring parent) }
        with parentHash := none } = eventDigest measuring { event with parentHash := none } := rfl
  rw [payload] at verified
  have counts := length_of_verify_measuring (carried ▸ verified)
  have digest : (eventDigest measuring parent).length = 32 := by
    rw [eventDigest, sha256_measuring]
    rfl
  rw [length_payload_parent, propertySize_parent, digest] at counts
  omega

/-- Evidence of the second event alone is refused. -/
theorem later_event_refused :
    (∀ event ∈ sampleLog, ∃ key, resolveSample event.signature.signer = some key ∧
      eventSignatureOk measuring event key = true) ∧
    verifyChain measuring sampleLog = .ok () ∧
    ∃ bundle skipped,
      assembleEvidenceBundle measuring "2026-02-01T00:00:00Z"
        (sampleArgs "2026-01-02T00:00:00Z" sampleLog) = .ok (bundle, skipped) ∧
      (verifyEvidenceBundle measuring
        { bundle := bundle
          issuerPublicKey := (measuring.ed25519Public sampleKey).bytes
          verifyAnchor := none
          resolveEventSigner := some resolveSample
          skipPerEventVerification := false }).ok = false := by
  refine ⟨sampleLog_signed, sampleLog_chained, ?_⟩
  have keeps : keptEvents (sampleArgs "2026-01-02T00:00:00Z" sampleLog) sampleLog ≠ [] :=
    kept_second ▸ cons_ne_nil _ _
  have secret : (sampleArgs "2026-01-02T00:00:00Z" sampleLog).privateKey = sampleKey.bytes := rfl
  obtain ⟨skipped, assembled⟩ := assembleEvidenceBundle_eq_ok measuring "2026-02-01T00:00:00Z"
    rfl secret keeps
  refine ⟨_, skipped, assembled, ?_⟩
  rw [Bool.eq_false_iff, ne_eq, accepts_signedDraft_iff, kept_second]
  intro verified
  obtain ⟨key, known, passed⟩ := verified _ mem_cons_self
  cases known
  exact unlinked_event_refused laterEvent firstEvent passed

end TrustForge.Evidence
