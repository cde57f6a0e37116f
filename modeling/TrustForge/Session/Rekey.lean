import TrustForge.Foundation.Transition
import TrustForge.Session.Rotation

/-!
# Rekeying over two channels

Two peers exchange frames over reliable first-in first-out channels and rekey whenever
they like.  The acknowledging side rotates when it sends the acknowledgement, the
requesting side when it has received it, so in between the peers are a generation
apart.  The invariant describes that half-way phase: the requester has nothing in
flight, and everything on its way to it is old frames, the acknowledgement, new frames.
-/

namespace TrustForge.Session

open Role List
open Relation (ReflTransGen)

/-- Two peers and what is between them. -/
structure Peers where
  peer : Role → SessionState
  /-- The frames on their way to a peer, oldest first. -/
  inbox : Role → List Bytes
  /-- The public key of a request that the peer has received and not answered. -/
  owed : Role → Option String

variable {who : Role} {s : SessionState}

namespace Peers

variable (p : Peers) (who : Role) (s : SessionState) (own others : List Bytes)
  (owes : Option String)

/-- One peer takes its turn. -/
def turn : Peers :=
  { peer := Function.update p.peer who s
    inbox := Function.update (Function.update p.inbox who own) who.other others
    owed := Function.update p.owed who owes }

@[simp] theorem turn_peer_self : (p.turn who s own others owes).peer who = s := by
  simp [turn]

@[simp] theorem turn_peer_other :
    (p.turn who s own others owes).peer who.other = p.peer who.other := by
  simp [turn]

@[simp] theorem turn_inbox_self : (p.turn who s own others owes).inbox who = own := by
  simp [turn, Function.update_of_ne who.other_ne.symm]

@[simp] theorem turn_inbox_other : (p.turn who s own others owes).inbox who.other = others := by
  simp [turn]

@[simp] theorem turn_owed_self : (p.turn who s own others owes).owed who = owes := by
  simp [turn]

@[simp] theorem turn_owed_other :
    (p.turn who s own others owes).owed who.other = p.owed who.other := by
  simp [turn]

/-- The peer has made a call that may put bytes on the channel. -/
def emit (result : Except SessionError Bytes × SessionState) : Peers :=
  let sent :=
    match result.1 with
    | .ok bytes => [bytes]
    | .error _ => []
  p.turn who result.2 (p.inbox who) (p.inbox who.other ++ sent) owes

/-- The two keys of each peer are different. -/
def KeysDiffer : Prop :=
  ∀ who, (p.peer who).sendKey ≠ (p.peer who).recvKey

theorem KeysDiffer.turn {p : Peers} (differ : p.KeysDiffer) (ownDiffer : s.sendKey ≠ s.recvKey)
    (own others : List Bytes) (owes : Option String) :
    (p.turn who s own others owes).KeysDiffer := by
  refine forall_of who ?_ ?_
  · simpa using ownDiffer
  · simpa using differ who.other

/-- An established session: crossed keys, nothing in flight and nothing pending. -/
structure Established : Prop where
  isOpen : ∀ who, (p.peer who).closed = false
  crossed : Crossed (p.peer .initiator) (p.peer .responder)
  differ : p.KeysDiffer
  generation : (p.peer .initiator).generation = (p.peer .responder).generation
  sessionId : (p.peer .initiator).sessionId = (p.peer .responder).sessionId
  inStep : ∀ who, (p.peer who).sendSeq = (p.peer who.other).recvSeq
  quiet : ∀ who, (p.peer who).pendingRekeyPriv = none
  inbox : ∀ who, p.inbox who = []
  owed : ∀ who, p.owed who = none

end Peers

/-- The freedom that peers have: in which state they answer a request, and which
payloads they send. -/
structure Discipline where
  mayAnswer : SessionState → Prop
  maySend : Json.Value → Prop

namespace Platform

variable (platform : Platform)

/-- The receiver's parser accepts the payload. -/
def Readable (payload : Json.Value) : Prop :=
  (platform.seenAs (.data payload)).isSome = true

/-- Peers that answer no request while their own is pending, and send what the other
side can read. -/
def patient : Discipline :=
  { mayAnswer := fun s => s.pendingRekeyPriv = none
    maySend := platform.Readable }

/-! ## Steps -/

/-- The state after a frame was handled; requests are answered later. -/
def handle (s : SessionState) : SessionFrame → SessionState
  | .rekeyAck peerEphPub => (platform.processRekeyAck s peerEphPub).2
  | _ => s

/-- The request a peer owes an answer to, after a frame. -/
def owedAfter (owed : Option String) : SessionFrame → Option String
  | .rekeyReq peerEphPub => some peerEphPub
  | _ => owed

/-- A peer takes the oldest frame from its channel. -/
def deliver (p : Peers) (who : Role) (bytes : Bytes) (rest : List Bytes) : Peers :=
  match platform.decrypt (p.peer who) bytes with
  | (.error _, s) => p.turn who s rest (p.inbox who.other) (p.owed who)
  | (.ok frame, s) =>
    p.turn who (platform.handle s frame) rest (p.inbox who.other)
      (owedAfter (p.owed who) frame)

/-- What the peers do.  While its own request is pending a peer sends nothing, except
that it answers a request if the discipline lets it. -/
inductive RekeyStep (d : Discipline) : Peers → Peers → Prop where
  | data (p : Peers) (who : Role) (payload : Json.Value)
      (quiet : (p.peer who).pendingRekeyPriv = none) (allowed : d.maySend payload) :
      RekeyStep d p (p.emit who (p.owed who) (platform.encrypt (p.peer who) (.data payload)))
  | request (p : Peers) (who : Role) (seed : Option Key) (draw : Key)
      (quiet : (p.peer who).pendingRekeyPriv = none) :
      RekeyStep d p (p.emit who (p.owed who) (platform.requestRekey (p.peer who) seed draw))
  | answer (p : Peers) (who : Role) (peerEphPub : String) (seed : Option Key) (draw : Key)
      (owed : p.owed who = some peerEphPub) (allowed : d.mayAnswer (p.peer who)) :
      RekeyStep d p (p.emit who none
        (platform.processRekeyReq (p.peer who) peerEphPub seed draw))
  | receive (p : Peers) (who : Role) (bytes : Bytes) (rest : List Bytes)
      (head : p.inbox who = bytes :: rest) : RekeyStep d p (platform.deliver p who bytes rest)

/-- A step after which no peer has two equal keys, as it would if the key derivation
returned the same bytes twice. -/
def DistinctStep (d : Discipline) (p p' : Peers) : Prop :=
  platform.RekeyStep d p p' ∧ p'.KeysDiffer

/-- Every frame on a channel can be decrypted, and with empty channels the peers agree. -/
def RekeySafe (p : Peers) : Prop :=
  (∀ who bytes rest, p.inbox who = bytes :: rest →
    ∃ frame s, platform.decrypt (p.peer who) bytes = (.ok frame, s)) ∧
  ((∀ who, p.inbox who = []) →
    (p.peer .initiator).generation = (p.peer .responder).generation ∧
      Crossed (p.peer .initiator) (p.peer .responder))

/-! ## The invariant -/

/-- A data frame that fits and that the receiver can read. -/
def IsData (frame : SessionFrame) : Prop :=
  (∃ payload, frame = .data payload) ∧ platform.frameLength frame ≤ 2 ^ 32 - 1 ∧
    (platform.seenAs frame).isSome = true

/-- What a peer has in flight within one generation, by its pending key and the request
its peer owes an answer to: data only; data and at last its request; or nothing, once
the request was received. -/
inductive Backlog : Option Key → List SessionFrame → Option String → Prop where
  | quiet (frames : List SessionFrame) (datas : ∀ frame ∈ frames, platform.IsData frame) :
      Backlog none frames none
  | asked (secret : Key) (frames : List SessionFrame)
      (datas : ∀ frame ∈ frames, platform.IsData frame) :
      Backlog (some secret) (frames ++ [.rekeyReq (platform.publicText secret)]) none
  | heard (secret : Key) : Backlog (some secret) [] (some (platform.publicText secret))

/-- The frames from `who` to the other side. -/
def Link (p : Peers) (who : Role) (frames : List SessionFrame) : Prop :=
  platform.Backlog (p.peer who).pendingRekeyPriv frames (p.owed who.other) ∧
    p.inbox who.other = platform.wires (p.peer who).sendKey (p.peer who.other).recvSeq frames ∧
    (p.peer who).sendSeq = seqAfter (p.peer who.other).recvSeq frames

/-- Both peers are open and in the same generation of the same session. -/
structure Aligned (p : Peers) : Prop where
  isOpen : ∀ who, (p.peer who).closed = false
  crossed : ∀ who, (p.peer who).recvKey = (p.peer who.other).sendKey
  generation : ∀ who, (p.peer who).generation = (p.peer who.other).generation
  sessionId : ∀ who, (p.peer who).sessionId = (p.peer who.other).sessionId

/-- Between two rekeys. -/
structure Level (p : Peers) : Prop where
  aligned : Aligned p
  link : ∀ who, ∃ frames, platform.Link p who frames

/-- The other side has rotated and `who` is about to. -/
structure HalfWay (p : Peers) (who : Role) (secret peerSecret : Key)
    (old new : List SessionFrame) : Prop where
  isOpen : ∀ side, (p.peer side).closed = false
  sessionId : (p.peer who).sessionId = (p.peer who.other).sessionId
  owed : ∀ side, p.owed side = none
  pending : (p.peer who).pendingRekeyPriv = some secret
  silent : p.inbox who.other = []
  recvSeq : (p.peer who.other).recvSeq = 0
  sendSeq : (p.peer who.other).sendSeq = seqAfter 0 new
  datas : ∀ frame ∈ old, platform.IsData frame
  backlog : platform.Backlog (p.peer who.other).pendingRekeyPriv new none
  inbox : p.inbox who =
    platform.wires (p.peer who).recvKey (p.peer who).recvSeq
      (old ++ [.rekeyAck (platform.publicText peerSecret)]) ++
    platform.wires (p.peer who.other).sendKey 0 new
  generation : (p.peer who.other).generation = (p.peer who).generation + 1
  crossed : Crossed (platform.rotateKeys (p.peer who)
    (platform.x25519DiffieHellman secret (platform.x25519Public peerSecret))) (p.peer who.other)

/-- The invariant of every run. -/
def Coordinated (p : Peers) : Prop :=
  platform.Level p ∨
    ∃ who secret peerSecret old new, platform.HalfWay p who secret peerSecret old new

theorem aligned_of_established {p : Peers} (established : p.Established) : Aligned p where
  isOpen := established.isOpen
  crossed := by
    intro who
    cases who with
    | initiator => exact established.crossed.2.symm
    | responder => exact established.crossed.1.symm
  generation := by
    intro who
    cases who with
    | initiator => exact established.generation
    | responder => exact established.generation.symm
  sessionId := by
    intro who
    cases who with
    | initiator => exact established.sessionId
    | responder => exact established.sessionId.symm

theorem level_of_established {p : Peers} (established : p.Established) : platform.Level p where
  aligned := aligned_of_established established
  link := by
    intro who
    refine ⟨[], ?_, established.inbox _, ?_⟩
    · rw [established.quiet, established.owed]
      exact .quiet [] (by simp)
    · rw [established.inStep, seqAfter]
      simp

/-! ## Taking a frame -/

variable {frame : SessionFrame}

/-- A frame at the head of the backlog is data, or the request that ends it. -/
theorem backlog_cons {pending : Option Key} {rest : List SessionFrame} {owed : Option String}
    (backlog : platform.Backlog pending (frame :: rest) owed) :
    owed = none ∧
      (platform.IsData frame ∧ platform.Backlog pending rest none ∨
        ∃ secret, pending = some secret ∧ rest = [] ∧
          frame = .rekeyReq (platform.publicText secret)) := by
  generalize whole : frame :: rest = frames at backlog
  cases backlog with
  | quiet _ datas =>
    subst whole
    refine ⟨rfl, .inl ⟨datas frame mem_cons_self, .quiet rest ?_⟩⟩
    intro other member
    exact datas other (mem_cons_of_mem frame member)
  | asked secret before datas =>
    refine ⟨rfl, ?_⟩
    cases before with
    | nil =>
      simp only [nil_append, cons.injEq] at whole
      exact .inr ⟨secret, rfl, whole.2, whole.1⟩
    | cons first later =>
      simp only [cons_append, cons.injEq] at whole
      rcases whole with ⟨sameFirst, sameRest⟩
      subst sameFirst sameRest
      refine .inl ⟨datas frame mem_cons_self, .asked secret later ?_⟩
      intro other member
      exact datas other (mem_cons_of_mem frame member)
  | heard secret => contradiction

/-- A data frame arrives and leaves the rest to the application. -/
theorem decrypt_data {key : Key} {seq : UInt64} (isOpen : s.closed = false)
    (isData : platform.IsData frame) (sameKey : key = s.recvKey) (sameSeq : seq = s.recvSeq) :
    ∃ payload, platform.decrypt s (platform.wire key seq frame) =
      (.ok (.data payload), { s with recvSeq := s.recvSeq + 1 }) := by
  rcases isData with ⟨⟨payload, equal⟩, fits, readable⟩
  subst equal
  rcases Option.isSome_iff_exists.mp readable with ⟨seen, reads⟩
  have shape := reads
  rw [seenAs, SessionFrame.reread, Option.map_eq_some_iff] at shape
  rcases shape with ⟨received, _, equal⟩
  subst equal
  exact ⟨received, platform.decrypt_wire_of_readable isOpen fits sameKey sameSeq reads⟩

theorem decrypt_rekeyReq (secret : Key) {key : Key} {seq : UInt64} (isOpen : s.closed = false)
    (sameKey : key = s.recvKey) (sameSeq : seq = s.recvSeq) :
    platform.decrypt s (platform.wire key seq (.rekeyReq (platform.publicText secret))) =
      (.ok (.rekeyReq (platform.publicText secret)), { s with recvSeq := s.recvSeq + 1 }) := by
  apply platform.decrypt_wire_of_readable isOpen (platform.fits_rekeyReq secret) sameKey sameSeq
  rw [seenAs, SessionFrame.reread, platform.nfc_publicText]

theorem decrypt_rekeyAck (secret : Key) {key : Key} {seq : UInt64} (isOpen : s.closed = false)
    (sameKey : key = s.recvKey) (sameSeq : seq = s.recvSeq) :
    platform.decrypt s (platform.wire key seq (.rekeyAck (platform.publicText secret))) =
      (.ok (.rekeyAck (platform.publicText secret)), { s with recvSeq := s.recvSeq + 1 }) := by
  apply platform.decrypt_wire_of_readable isOpen (platform.fits_rekeyAck secret) sameKey sameSeq
  rw [seenAs, SessionFrame.reread, platform.nfc_publicText]

/-! ## Steps within a generation -/

/-- States that differ in counters and the pending key at most. -/
structure SameEpoch (s t : SessionState) : Prop where
  closed : s.closed = t.closed
  sendKey : s.sendKey = t.sendKey
  recvKey : s.recvKey = t.recvKey
  generation : s.generation = t.generation
  sessionId : s.sessionId = t.sessionId

theorem Aligned.turn {p : Peers} (aligned : Aligned p) (who : Role)
    (same : SameEpoch s (p.peer who)) (own others : List Bytes) (owes : Option String) :
    Aligned (p.turn who s own others owes) := by
  constructor
  all_goals refine forall_of who ?_ ?_
  · simpa [same.closed] using aligned.isOpen who
  · simpa using aligned.isOpen who.other
  · simpa [same.recvKey] using aligned.crossed who
  · simpa [same.sendKey] using aligned.crossed who.other
  · simpa [same.generation] using aligned.generation who
  · simpa [same.generation] using aligned.generation who.other
  · simpa [same.sessionId] using aligned.sessionId who
  · simpa [same.sessionId] using aligned.sessionId who.other

section

variable {platform : Platform} {p : Peers}

section

variable (level : platform.Level p)

include level

/-- A peer adds a frame to its backlog. -/
theorem Level.send (who : Role) {frames : List SessionFrame}
    (link : platform.Link p who frames) (pending : Option Key) (frame : SessionFrame)
    (backlog : platform.Backlog pending (frames ++ [frame]) (p.owed who.other)) :
    platform.Level (p.emit who (p.owed who)
      (.ok (platform.wire (p.peer who).sendKey (p.peer who).sendSeq frame),
        { p.peer who with
          pendingRekeyPriv := pending
          sendSeq := (p.peer who).sendSeq + 1 })) where
  aligned := by
    unfold Peers.emit
    apply level.aligned.turn who
    exact ⟨rfl, rfl, rfl, rfl, rfl⟩
  link := by
    rcases link with ⟨_, inbox, sendSeq⟩
    refine forall_of who ?_ ?_
    · refine ⟨frames ++ [frame], ?_, ?_, ?_⟩
      · simpa [Peers.emit] using backlog
      · simp [Peers.emit, platform.wires_concat, inbox, sendSeq]
      · simp [Peers.emit, seqAfter_concat, sendSeq]
    · rcases level.link who.other with ⟨others, unchanged⟩
      exact ⟨others, by simpa [Peers.emit, Link] using unchanged⟩

/-- A peer takes a frame from the other side's backlog. -/
theorem Level.take (who : Role) {rest : List SessionFrame}
    (link : platform.Link p who.other (frame :: rest)) (owes : Option String)
    (backlog : platform.Backlog (p.peer who.other).pendingRekeyPriv rest owes) :
    platform.Level (p.turn who { p.peer who with recvSeq := (p.peer who).recvSeq + 1 }
      (platform.wires (p.peer who.other).sendKey ((p.peer who).recvSeq + 1) rest)
      (p.inbox who.other) owes) where
  aligned := by
    apply level.aligned.turn who
    exact ⟨rfl, rfl, rfl, rfl, rfl⟩
  link := by
    rcases link with ⟨_, inbox, sendSeq⟩
    refine forall_of who ?_ ?_
    · rcases level.link who with ⟨others, unchanged⟩
      exact ⟨others, by simpa [Link] using unchanged⟩
    · refine ⟨rest, ?_, ?_, ?_⟩
      · simpa using backlog
      · simp
      · simpa [seqAfter_cons] using sendSeq

/-- What happens to the oldest frame on a channel. -/
theorem Level.deliver {bytes : Bytes} {rest : List Bytes} (head : p.inbox who = bytes :: rest) :
    (∃ frame s, platform.decrypt (p.peer who) bytes = (.ok frame, s)) ∧
      platform.Level (platform.deliver p who bytes rest) := by
  rcases level.link who.other with ⟨frames, link⟩
  have inbox := link.2.1
  rw [other_other, head] at inbox
  cases frames with
  | nil => contradiction
  | cons frame frames =>
    simp only [wires, cons.injEq] at inbox
    rcases inbox with ⟨sameBytes, sameRest⟩
    subst sameBytes sameRest
    have sameKey := (level.aligned.crossed who).symm
    have isOpen := level.aligned.isOpen who
    rcases platform.backlog_cons link.1 with ⟨noneOwed, isData | isRequest⟩
    · rcases isData with ⟨isData, backlog⟩
      rcases platform.decrypt_data isOpen isData sameKey rfl with ⟨payload, decrypted⟩
      refine ⟨⟨_, _, decrypted⟩, ?_⟩
      rw [other_other] at noneOwed
      simp only [Platform.deliver, decrypted, noneOwed]
      exact level.take who link none backlog
    · rcases isRequest with ⟨secret, pending, last, request⟩
      subst last request
      have decrypted := platform.decrypt_rekeyReq secret isOpen sameKey rfl
      refine ⟨⟨_, _, decrypted⟩, ?_⟩
      simp only [Platform.deliver, decrypted]
      apply level.take who link
      rw [pending]
      exact .heard secret

/-- Answering a request leads half-way through a rekey. -/
theorem Level.answer (differ : p.KeysDiffer) {peerEphPub : String}
    (owed : p.owed who = some peerEphPub) (quiet : (p.peer who).pendingRekeyPriv = none)
    (seed : Option Key) (draw : Key) :
    ∃ secret frames, platform.HalfWay
      (p.emit who none (platform.processRekeyReq (p.peer who) peerEphPub seed draw)) who.other
      secret (makeEphemeral seed draw) frames [] := by
  rcases level.link who with ⟨frames, backlog, inbox, sendSeq⟩
  rcases level.link who.other with ⟨others, othersBacklog, othersInbox, _⟩
  rw [other_other] at othersBacklog othersInbox
  rw [owed] at othersBacklog
  rw [quiet] at backlog
  generalize waiting : (p.peer who.other).pendingRekeyPriv = pending at othersBacklog
  generalize noneOwed : p.owed who.other = owes at backlog
  cases othersBacklog with
  | heard secret =>
    cases backlog with
    | quiet _ datas =>
      let peerSecret := makeEphemeral seed draw
      have crossed : Crossed (p.peer who.other)
          { p.peer who with sendSeq := (p.peer who).sendSeq + 1 } := by
        refine ⟨(level.aligned.crossed who).symm, ?_⟩
        simpa using (level.aligned.crossed who.other).symm
      have generation := level.aligned.generation who.other
      have sessionId := level.aligned.sessionId who.other
      rw [other_other] at generation sessionId
      have rotated := platform.crossed_rotateKeys
        (platform.x25519DiffieHellman secret (platform.x25519Public peerSecret)) crossed
        (differ who.other) generation sessionId
      refine ⟨secret, frames, ?_⟩
      rw [platform.processRekeyReq_eq secret seed draw (level.aligned.isOpen who)]
      constructor
      case isOpen =>
          refine forall_of who ?_ ?_
          · simpa [Peers.emit] using level.aligned.isOpen who
          · simpa [Peers.emit] using level.aligned.isOpen who.other
      case sessionId => simpa [Peers.emit] using sessionId
      case owed =>
          refine forall_of who ?_ ?_
          · simp [Peers.emit]
          · simpa [Peers.emit] using noneOwed
      case pending => simpa [Peers.emit] using waiting
      case silent => simpa [Peers.emit, wires] using othersInbox
      case recvSeq => simp [Peers.emit]
      case sendSeq => simp [Peers.emit, seqAfter]
      case datas => exact datas
      case backlog =>
          simp only [Peers.emit, other_other, Peers.turn_peer_self, quiet]
          exact .quiet [] (by simp)
      case inbox =>
          have key := level.aligned.crossed who.other
          rw [other_other] at key
          simp [Peers.emit, wires, platform.wires_concat, inbox, sendSeq, key]
      case generation => simp [Peers.emit, generation]
      case crossed =>
          simp only [Peers.emit, Peers.turn_peer_other, other_other, Peers.turn_peer_self]
          rw [platform.x25519_comm peerSecret secret]
          exact rotated

end

end

/-! ## Steps half-way through a rekey -/

section

variable {platform : Platform} {p : Peers} {secret peerSecret : Key}
  {old new : List SessionFrame}

/-- The side that has rotated goes on sending, under the new key. -/
theorem HalfWay.send {sender : Role}
    (half : platform.HalfWay p sender.other secret peerSecret old new) (pending : Option Key)
    (frame : SessionFrame) (backlog : platform.Backlog pending (new ++ [frame]) none) :
    platform.HalfWay (p.emit sender (p.owed sender)
      (.ok (platform.wire (p.peer sender).sendKey (p.peer sender).sendSeq frame),
        { p.peer sender with
          pendingRekeyPriv := pending
          sendSeq := (p.peer sender).sendSeq + 1 }))
      sender.other secret peerSecret old (new ++ [frame]) := by
  have sessionId := half.sessionId
  have silent := half.silent
  have recvSeq := half.recvSeq
  have sendSeq := half.sendSeq
  have inbox := half.inbox
  have generation := half.generation
  have crossed := half.crossed
  rw [other_other] at sessionId silent recvSeq sendSeq inbox generation crossed
  constructor
  case isOpen =>
      refine forall_of sender ?_ ?_
      · simpa [Peers.emit] using half.isOpen sender
      · simpa [Peers.emit] using half.isOpen sender.other
  case owed =>
      refine forall_of sender ?_ ?_
      · simpa [Peers.emit] using half.owed sender
      · simpa [Peers.emit] using half.owed sender.other
  case sessionId => simpa [Peers.emit] using sessionId
  case pending => simpa [Peers.emit] using half.pending
  case silent => simpa [Peers.emit] using silent
  case recvSeq => simpa [Peers.emit] using recvSeq
  case sendSeq => simp [Peers.emit, seqAfter_concat, sendSeq]
  case datas => exact half.datas
  case backlog => simpa [Peers.emit] using backlog
  case inbox => simp [Peers.emit, platform.wires_concat, inbox, sendSeq]
  case generation => simpa [Peers.emit] using generation
  case crossed => simpa [Peers.emit, Crossed] using crossed

/-- The waiting side takes a frame of the old generation. -/
theorem HalfWay.take (half : platform.HalfWay p who secret peerSecret (frame :: old) new) :
    platform.HalfWay (p.turn who { p.peer who with recvSeq := (p.peer who).recvSeq + 1 }
      (platform.wires (p.peer who).recvKey ((p.peer who).recvSeq + 1)
        (old ++ [.rekeyAck (platform.publicText peerSecret)]) ++
        platform.wires (p.peer who.other).sendKey 0 new)
      (p.inbox who.other) (p.owed who)) who secret peerSecret old new := by
  constructor
  case isOpen =>
      refine forall_of who ?_ ?_
      · simpa using half.isOpen who
      · simpa using half.isOpen who.other
  case owed =>
      refine forall_of who ?_ ?_
      · simpa using half.owed who
      · simpa using half.owed who.other
  case sessionId => simpa using half.sessionId
  case pending => simpa using half.pending
  case silent => simpa using half.silent
  case recvSeq => simpa using half.recvSeq
  case sendSeq => simpa using half.sendSeq
  case datas =>
      intro other member
      exact half.datas other (mem_cons_of_mem frame member)
  case backlog => simpa using half.backlog
  case inbox => simp
  case generation => simpa using half.generation
  case crossed =>
      simp only [Peers.turn_peer_self, Peers.turn_peer_other]
      exact half.crossed

/-- The waiting side takes the acknowledgement and catches up. -/
theorem HalfWay.acknowledge (half : platform.HalfWay p who secret peerSecret [] new) :
    platform.Level (p.turn who
      (platform.rotateKeys
        { p.peer who with recvSeq := (p.peer who).recvSeq + 1, pendingRekeyPriv := none }
        (platform.x25519DiffieHellman secret (platform.x25519Public peerSecret)))
      (platform.wires (p.peer who.other).sendKey 0 new) (p.inbox who.other) (p.owed who)) := by
  constructor
  case aligned =>
    constructor
    all_goals refine forall_of who ?_ ?_
    · simpa using half.isOpen who
    · simpa using half.isOpen who.other
    · rw [Peers.turn_peer_self, Peers.turn_peer_other]
      exact half.crossed.2.symm
    · rw [Peers.turn_peer_other, other_other, Peers.turn_peer_self]
      exact half.crossed.1.symm
    · simpa using half.generation.symm
    · simpa using half.generation
    · simpa using half.sessionId
    · simpa using half.sessionId.symm
  case link =>
    refine forall_of who ?_ ?_
    · refine ⟨[], ?_, ?_, ?_⟩
      · simp only [Peers.turn_peer_self, Peers.turn_owed_other, half.owed]
        exact .quiet [] (by simp)
      · simpa [wires] using half.silent
      · simp [half.recvSeq, seqAfter]
    · refine ⟨new, ?_, ?_, ?_⟩
      · simpa [half.owed] using half.backlog
      · simp
      · simpa using half.sendSeq

/-- What happens to the oldest frame on a channel. -/
theorem HalfWay.deliver {who side : Role} (half : platform.HalfWay p who secret peerSecret old new)
    {bytes : Bytes} {rest : List Bytes} (head : p.inbox side = bytes :: rest) :
    (∃ frame s, platform.decrypt (p.peer side) bytes = (.ok frame, s)) ∧
      platform.Coordinated (platform.deliver p side bytes rest) := by
  rcases eq_or_eq_other side who with waiting | ahead
  · subst waiting
    have isOpen := half.isOpen side
    have inbox := half.inbox
    rw [head] at inbox
    cases old with
    | nil =>
      simp only [wires, nil_append, cons_append, cons.injEq] at inbox
      rcases inbox with ⟨sameBytes, sameRest⟩
      subst sameBytes sameRest
      have decrypted := platform.decrypt_rekeyAck peerSecret isOpen rfl rfl
      refine ⟨⟨_, _, decrypted⟩, .inl ?_⟩
      have pending : { p.peer side with
          recvSeq := (p.peer side).recvSeq + 1 }.pendingRekeyPriv = some secret := half.pending
      have rotated := platform.processRekeyAck_eq secret peerSecret pending
      simp only [Platform.deliver, decrypted, handle, rotated]
      exact half.acknowledge
    | cons frame old =>
      simp only [wires, cons_append, cons.injEq] at inbox
      rcases inbox with ⟨sameBytes, sameRest⟩
      subst sameBytes sameRest
      rcases platform.decrypt_data isOpen (half.datas frame mem_cons_self) rfl rfl with
        ⟨payload, decrypted⟩
      refine ⟨⟨_, _, decrypted⟩, .inr ⟨side, secret, peerSecret, old, new, ?_⟩⟩
      simp only [Platform.deliver, decrypted]
      exact half.take
  · subst ahead
    rw [half.silent] at head
    contradiction

end

/-! ## Runs -/

section

variable {platform : Platform} {p p' : Peers}

/-- A call that fails leaves everything as it is. -/
theorem emit_of_encrypt_error {e : SessionError}
    (failed : platform.encrypt (p.peer who) frame = (.error e, s)) :
    p.emit who (p.owed who) (platform.encrypt (p.peer who) frame) = p := by
  rw [failed, platform.encrypt_eq_error failed]
  simp [Peers.emit, Peers.turn]

section

variable (coordinated : platform.Coordinated p)

include coordinated

section

variable (quiet : (p.peer who).pendingRekeyPriv = none)

include quiet

/-- Sending a frame, in either phase. -/
theorem Coordinated.send (pending : Option Key) (frame : SessionFrame)
    (backlog : ∀ frames, (∀ other ∈ frames, platform.IsData other) →
      platform.Backlog pending (frames ++ [frame]) none) :
    platform.Coordinated (p.emit who (p.owed who)
      (.ok (platform.wire (p.peer who).sendKey (p.peer who).sendSeq frame),
        { p.peer who with
          pendingRekeyPriv := pending
          sendSeq := (p.peer who).sendSeq + 1 })) := by
  rcases coordinated with level | ⟨waiting, secret, peerSecret, old, new, half⟩
  · rcases level.link who with ⟨frames, link⟩
    have before := link.1
    rw [quiet] at before
    generalize noneOwed : p.owed who.other = owes at before
    cases before with
    | quiet _ datas =>
      have after := backlog frames datas
      rw [← noneOwed] at after
      exact .inl (level.send who link pending frame after)
  · rcases eq_or_eq_other who waiting with same | ahead
    · subst same
      rw [half.pending] at quiet
      contradiction
    · have sender : waiting = who.other := by rw [ahead, other_other]
      subst sender
      have before := half.backlog
      rw [other_other, quiet] at before
      cases before with
      | quiet _ datas =>
        exact .inr ⟨_, _, _, _, _, half.send pending frame (backlog new datas)⟩

theorem Coordinated.data {payload : Json.Value} (readable : platform.Readable payload) :
    platform.Coordinated
      (p.emit who (p.owed who) (platform.encrypt (p.peer who) (.data payload))) := by
  cases encrypted : platform.encrypt (p.peer who) (.data payload) with
  | mk result s =>
    cases result with
    | error e =>
      rw [← encrypted, emit_of_encrypt_error encrypted]
      exact coordinated
    | ok bytes =>
      rcases platform.encrypt_eq_ok encrypted with ⟨_, fits, sameBytes, after⟩
      subst sameBytes after
      apply coordinated.send quiet (p.peer who).pendingRekeyPriv (.data payload)
      intro frames datas
      rw [quiet]
      apply Backlog.quiet
      intro frame member
      rcases mem_append.mp member with earlier | last
      · exact datas frame earlier
      · rw [mem_singleton.mp last]
        exact ⟨⟨payload, rfl⟩, fits, readable⟩

theorem Coordinated.request (isOpen : (p.peer who).closed = false)
    (seed : Option Key) (draw : Key) :
    platform.Coordinated
      (p.emit who (p.owed who) (platform.requestRekey (p.peer who) seed draw)) := by
  rw [platform.requestRekey_eq seed draw isOpen]
  apply coordinated.send quiet
  intro frames datas
  exact .asked (makeEphemeral seed draw) frames datas

end

theorem Coordinated.isOpen (who : Role) :
    (p.peer who).closed = false := by
  rcases coordinated with level | ⟨waiting, secret, peerSecret, old, new, half⟩
  · exact level.aligned.isOpen who
  · exact half.isOpen who

theorem Coordinated.answer (differ : p.KeysDiffer)
    {peerEphPub : String} (owed : p.owed who = some peerEphPub)
    (quiet : (p.peer who).pendingRekeyPriv = none) (seed : Option Key) (draw : Key) :
    platform.Coordinated
      (p.emit who none (platform.processRekeyReq (p.peer who) peerEphPub seed draw)) := by
  rcases coordinated with level | ⟨waiting, secret, peerSecret, old, new, half⟩
  · rcases level.answer differ owed quiet seed draw with ⟨secret, frames, half⟩
    exact .inr ⟨_, _, _, _, _, half⟩
  · rw [half.owed] at owed
    contradiction

theorem Coordinated.deliver {bytes : Bytes}
    {rest : List Bytes} (head : p.inbox who = bytes :: rest) :
    (∃ frame s, platform.decrypt (p.peer who) bytes = (.ok frame, s)) ∧
      platform.Coordinated (platform.deliver p who bytes rest) := by
  rcases coordinated with level | ⟨waiting, secret, peerSecret, old, new, half⟩
  · rcases level.deliver head with ⟨decrypts, after⟩
    exact ⟨decrypts, .inl after⟩
  · exact half.deliver head

end

/-- One step keeps the invariant. -/
theorem Coordinated.step (taken : platform.RekeyStep platform.patient p p') (differ : p.KeysDiffer)
    (coordinated : platform.Coordinated p) : platform.Coordinated p' := by
  cases taken with
  | data who payload quiet allowed => exact coordinated.data quiet allowed
  | request who seed draw quiet =>
    exact coordinated.request quiet (coordinated.isOpen who) seed draw
  | answer who peerEphPub seed draw owed allowed =>
    exact coordinated.answer differ owed allowed seed draw
  | receive who bytes rest head => exact (coordinated.deliver head).2

theorem Coordinated.run (run : ReflTransGen (platform.DistinctStep platform.patient) p p')
    (start : platform.Coordinated p ∧ p.KeysDiffer) :
    platform.Coordinated p' ∧ p'.KeysDiffer := by
  apply Transition.invariant_run _ run start
  intro before after taken held
  exact ⟨held.1.step taken.1 held.2, taken.2⟩

/-- The invariant is enough: half-way through a rekey a channel is not empty. -/
theorem Coordinated.safe (coordinated : platform.Coordinated p) : platform.RekeySafe p := by
  constructor
  · intro who bytes rest head
    exact (coordinated.deliver head).1
  · intro empty
    rcases coordinated with level | ⟨waiting, secret, peerSecret, old, new, half⟩
    · exact ⟨level.aligned.generation .initiator, (level.aligned.crossed .responder).symm,
        (level.aligned.crossed .initiator).symm⟩
    · have inbox := half.inbox
      rw [empty, platform.wires_concat] at inbox
      simp at inbox

end

/-- In every interleaving of patient peers each frame decrypts, and peers with empty
channels agree on generation and keys. -/
theorem rekeySafe_of_run {start p : Peers} (established : start.Established)
    (run : ReflTransGen (platform.DistinctStep platform.patient) start p) : platform.RekeySafe p := by
  have coordinated := Coordinated.run run
    ⟨.inl (platform.level_of_established established), established.differ⟩
  exact coordinated.1.safe

/-! ## Established sessions -/

/-- Two derived sessions of one conversation, with empty channels. -/
def freshPeers (shared : Key) (sessionId transcriptHash : Bytes) : Peers :=
  { peer := fun who => platform.deriveWithClaim who shared sessionId transcriptHash "" "" none
    inbox := fun _ => []
    owed := fun _ => none }

/-- A conversation establishes a session, unless the two derived keys are equal. -/
theorem established_freshPeers (shared : Key) (sessionId transcriptHash : Bytes)
    (distinct : (platform.hkdfSha256 shared.bytes sessionId
        (Text.utf8 "tf-session/v0/keys" ++ transcriptHash)).1 ≠
      (platform.hkdfSha256 shared.bytes sessionId
        (Text.utf8 "tf-session/v0/keys" ++ transcriptHash)).2) :
    (platform.freshPeers shared sessionId transcriptHash).Established where
  isOpen := fun _ => rfl
  crossed := platform.crossed_deriveWithClaim _ _ _ _ _ _ _ _ _
  differ := by
    intro who
    cases who with
    | initiator => exact distinct
    | responder => exact distinct.symm
  generation := rfl
  sessionId := rfl
  inStep := fun _ => rfl
  quiet := fun _ => rfl
  inbox := fun _ => rfl
  owed := fun _ => rfl

/-- Keys that rotation derives from different halves are different. -/
theorem rotateKeys_differ (s : SessionState) (shared : Key)
    (halves : ∀ info, (platform.hkdfSha256 shared.bytes s.sessionId info).1 ≠
      (platform.hkdfSha256 shared.bytes s.sessionId info).2) :
    (platform.rotateKeys s shared).sendKey ≠ (platform.rotateKeys s shared).recvKey := by
  simp only [rotateKeys]
  split
  · exact halves _
  · exact (halves _).symm

/-! ## Steps by what they do -/

section

variable {d : Discipline} {p : Peers}

theorem distinctStep_request (who : Role) (draw : Key) (differ : p.KeysDiffer)
    (quiet : (p.peer who).pendingRekeyPriv = none) (isOpen : (p.peer who).closed = false) :
    platform.DistinctStep d p (p.turn who
      { p.peer who with
        pendingRekeyPriv := some draw
        sendSeq := (p.peer who).sendSeq + 1 }
      (p.inbox who)
      (p.inbox who.other ++ [platform.wire (p.peer who).sendKey (p.peer who).sendSeq
        (.rekeyReq (platform.publicText draw))]) (p.owed who)) := by
  have step : platform.RekeyStep d p _ := .request p who none draw quiet
  rw [platform.requestRekey_eq none draw isOpen] at step
  refine ⟨step, ?_⟩
  apply differ.turn
  exact differ who

theorem distinctStep_hear (who : Role) (secret key : Key) (seq : UInt64) (rest : List Bytes)
    (differ : p.KeysDiffer) (isOpen : (p.peer who).closed = false)
    (head : p.inbox who = platform.wire key seq (.rekeyReq (platform.publicText secret)) :: rest)
    (sameKey : key = (p.peer who).recvKey) (sameSeq : seq = (p.peer who).recvSeq) :
    platform.DistinctStep d p (p.turn who
      { p.peer who with recvSeq := (p.peer who).recvSeq + 1 } rest (p.inbox who.other)
      (some (platform.publicText secret))) := by
  have step : platform.RekeyStep d p _ := .receive p who _ rest head
  have decrypted := platform.decrypt_rekeyReq secret isOpen sameKey sameSeq
  simp only [Platform.deliver, decrypted] at step
  refine ⟨step, ?_⟩
  apply differ.turn
  exact differ who

theorem distinctStep_answer (who : Role) (secret draw : Key) (differ : p.KeysDiffer)
    (isOpen : (p.peer who).closed = false) (owed : p.owed who = some (platform.publicText secret))
    (allowed : d.mayAnswer (p.peer who))
    (halves : ∀ (shared : Key) info,
      (platform.hkdfSha256 shared.bytes (p.peer who).sessionId info).1 ≠
        (platform.hkdfSha256 shared.bytes (p.peer who).sessionId info).2) :
    platform.DistinctStep d p (p.turn who
      (platform.rotateKeys { p.peer who with sendSeq := (p.peer who).sendSeq + 1 }
        (platform.x25519DiffieHellman draw (platform.x25519Public secret)))
      (p.inbox who)
      (p.inbox who.other ++ [platform.wire (p.peer who).sendKey (p.peer who).sendSeq
        (.rekeyAck (platform.publicText draw))]) none) := by
  have step : platform.RekeyStep d p _ := .answer p who _ none draw owed allowed
  rw [platform.processRekeyReq_eq secret none draw isOpen] at step
  refine ⟨step, ?_⟩
  apply differ.turn
  apply platform.rotateKeys_differ
  exact halves _

end

/-- Two requests that cross lead to two answers that cross, and then each side has
rotated before the acknowledgement sealed under the old key arrives. -/
theorem exists_crossing_requests {start : Peers} (established : start.Established)
    {d : Discipline} (answers : ∀ s, d.mayAnswer s) (draw : Key)
    (halves : ∀ who (shared : Key) info,
      (platform.hkdfSha256 shared.bytes (start.peer who).sessionId info).1 ≠
        (platform.hkdfSha256 shared.bytes (start.peer who).sessionId info).2)
    (early : (start.peer .responder).sendSeq + 1 ≠ 0) :
    ∃ p, ReflTransGen (platform.DistinctStep d) start p ∧ ¬platform.RekeySafe p := by
  have toInitiator := established.inbox .initiator
  have toResponder := established.inbox .responder
  have asks := platform.distinctStep_request (d := d) .initiator draw established.differ
    (established.quiet .initiator) (established.isOpen .initiator)
  have alsoAsks := platform.distinctStep_request (d := d) .responder draw asks.2
    (established.quiet .responder) (established.isOpen .responder)
  have hears := platform.distinctStep_hear (d := d) .initiator draw
    (start.peer .responder).sendKey (start.peer .responder).sendSeq [] alsoAsks.2
    (established.isOpen .initiator) (by simp [Peers.turn, other, toInitiator])
    established.crossed.2 (established.inStep .responder)
  have alsoHears := platform.distinctStep_hear (d := d) .responder draw
    (start.peer .initiator).sendKey (start.peer .initiator).sendSeq [] hears.2
    (established.isOpen .responder) (by simp [Peers.turn, other, toResponder])
    established.crossed.1 (established.inStep .initiator)
  have acks := platform.distinctStep_answer (d := d) .initiator draw draw alsoHears.2
    (established.isOpen .initiator) rfl (answers _) (halves .initiator)
  have alsoAcks := platform.distinctStep_answer (d := d) .responder draw draw acks.2
    (established.isOpen .responder) rfl (answers _) (halves .responder)
  refine ⟨_, .tail (.tail (.tail (.tail (.tail (.single asks) alsoAsks) hears) alsoHears) acks)
    alsoAcks, ?_⟩
  intro safe
  rcases safe.1 .initiator
    (platform.wire (start.peer .responder).sendKey ((start.peer .responder).sendSeq + 1)
      (.rekeyAck (platform.publicText draw))) [] (by simp [Peers.turn, other]) with
    ⟨frame, s, decrypted⟩
  rw [platform.decrypt_wire_of_seq_ne] at decrypted
  · simp at decrypted
  · exact established.isOpen .initiator
  · exact platform.fits_rekeyAck draw
  · exact early

/-- A payload that the receiver cannot read stays on the channel for good. -/
theorem exists_unreadable {start : Peers} (established : start.Established) {d : Discipline}
    {payload : Json.Value} (sends : d.maySend payload)
    (fits : platform.frameLength (.data payload) ≤ 2 ^ 32 - 1)
    (unreadable : platform.seenAs (.data payload) = none) :
    ∃ p, ReflTransGen (platform.DistinctStep d) start p ∧ ¬platform.RekeySafe p := by
  have step : platform.RekeyStep d start _ :=
    .data start .initiator payload (established.quiet .initiator) sends
  rw [platform.encrypt_of_fits (established.isOpen .initiator) fits] at step
  refine ⟨_, .single ⟨step, ?_⟩, ?_⟩
  · apply established.differ.turn
    exact established.differ .initiator
  · intro safe
    have refused : platform.decrypt (start.peer .responder) _ = _ :=
      platform.decrypt_wire_of_unreadable (established.isOpen .responder) fits
        established.crossed.1 (established.inStep .initiator) unreadable
    rcases safe.1 .responder _ [] (congrArg (· ++ [_]) (established.inbox .responder)) with
      ⟨frame, s, decrypted⟩
    have contradictory := refused.symm.trans decrypted
    simp at contradictory

theorem established_transparent :
    (transparent.freshPeers (.filled []) [] []).Established :=
  transparent.established_freshPeers _ _ _ (transparent_hkdf_differ _ _ _)

/-- The request of the initiator has arrived, and is not yet answered. -/
theorem exists_request_heard :
    ∃ p, ReflTransGen (transparent.DistinctStep transparent.patient)
        (transparent.freshPeers (.filled []) [] []) p ∧
      p.KeysDiffer ∧ (∀ who, p.inbox who = []) ∧
      (p.peer .initiator).pendingRekeyPriv = some (.filled [1]) ∧
      p.owed .responder = some (transparent.publicText (.filled [1])) ∧
      (p.peer .responder).pendingRekeyPriv = none ∧ (p.peer .responder).closed = false ∧
      (p.peer .responder).generation = 0 := by
  have asks := transparent.distinctStep_request (d := transparent.patient) .initiator (.filled [1])
    established_transparent.differ rfl rfl
  have hears := transparent.distinctStep_hear (d := transparent.patient) .responder (.filled [1]) _ _
    [] asks.2 rfl rfl rfl rfl
  refine ⟨_, .tail (.single asks) hears, hears.2, fun who => ?_, rfl, rfl, rfl, rfl, rfl⟩
  cases who with
  | initiator | responder => rfl

/-- The responder has answered and rotated its keys, and the initiator can decrypt the answer. -/
theorem rekeySafe_of_run_rotated :
    ∃ p, ReflTransGen (transparent.DistinctStep transparent.patient)
        (transparent.freshPeers (.filled []) [] []) p ∧
      (p.peer .responder).generation = 1 ∧ p.inbox .initiator ≠ [] ∧ transparent.RekeySafe p := by
  obtain ⟨p, run, differ, _, _, owed, quiet, isOpen, generation⟩ := exists_request_heard
  have answers := transparent.distinctStep_answer (d := transparent.patient) .responder (.filled [1])
    (.filled [2]) differ isOpen owed quiet fun shared info => transparent_hkdf_differ shared _ info
  refine ⟨_, .tail run answers, ?_, ?_,
    transparent.rekeySafe_of_run established_transparent (.tail run answers)⟩
  · simp [Peers.turn, rotateKeys, generation]
  · simp [Peers.turn, other]

/-- Peers that answer while they wait get out of step, and a payload of 127 nested arrays
does not arrive. -/
theorem lax_peers_fail :
    (transparent.freshPeers (.filled []) [] []).Established ∧
      (∃ p, ReflTransGen
          (transparent.DistinctStep ⟨fun _ => True, transparent.patient.maySend⟩)
          (transparent.freshPeers (.filled []) [] []) p ∧ ¬transparent.RekeySafe p) ∧
      ∃ p, ReflTransGen
          (transparent.DistinctStep ⟨transparent.patient.mayAnswer, fun _ => True⟩)
          (transparent.freshPeers (.filled []) [] []) p ∧ ¬transparent.RekeySafe p := by
  refine ⟨established_transparent, ?_, ?_⟩
  · apply transparent.exists_crossing_requests established_transparent (fun _ => trivial)
      (.filled [1])
    · intro who shared info
      exact transparent_hkdf_differ shared _ info
    · decide
  · have unreadable : transparent.seenAs (.data (Json.Runtime.nestedArrays 126)) = none := by
      rw [seenAs, SessionFrame.reread, Json.Runtime.reread_nestedArrays _ _ _ (by decide)]
      rfl
    exact transparent.exists_unreadable established_transparent trivial (by decide +kernel)
      unreadable

end Platform

end TrustForge.Session
