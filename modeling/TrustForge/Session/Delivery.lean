import TrustForge.Foundation.OrderedChannel
import TrustForge.Session.State

/-!
# Delivery between two rekeys

Two peers and an adversary that owns the network: every decryption gets bytes of the
adversary's choice.  With an ideal AEAD each direction behaves like an ordered channel.
The sequence number in the nonce ties a ciphertext that opens to one position of the
peer's history, and the receiver expects exactly the next one.
-/

namespace TrustForge.Session

open Function SessionFrame SessionState List
open Relation (ReflTransGen)

/-- A call of the AEAD's encryption. -/
structure Sealed where
  key : Key
  nonce : Bytes
  aad : Bytes
  plaintext : Bytes

/-- Both peers, the frames each has sent and received, and every AEAD encryption. -/
structure World where
  peer : Role → SessionState
  sent : Role → List SessionFrame
  received : Role → List SessionFrame
  log : List Sealed

/-- What can happen next. -/
inductive Action where
  | encrypt (who : Role) (frame : SessionFrame)
  | decrypt (who : Role) (bytes : Bytes)

/-- The direction in which `who` sends. -/
def World.channel (w : World) (who : Role) : OrderedChannel SessionFrame SessionFrame :=
  ⟨w.sent who, w.received who.other⟩

/-- The two sides start from fresh counters with crossed keys, different in the two
directions and not used before. -/
structure World.EpochStart (w : World) : Prop where
  crossed : Crossed (w.peer .initiator) (w.peer .responder)
  distinct : (w.peer .initiator).sendKey ≠ (w.peer .responder).sendKey
  sendSeq : ∀ who, (w.peer who).sendSeq = 0
  recvSeq : ∀ who, (w.peer who).recvSeq = 0
  sent : ∀ who, w.sent who = []
  received : ∀ who, w.received who = []
  fresh : ∀ call ∈ w.log, ∀ who, call.key ≠ (w.peer who).sendKey

namespace World

variable (w : World) (who : Role) (frame : SessionFrame) (call : Sealed)

/-- `who` has sent a frame. -/
def push : World :=
  { w with
    peer := update w.peer who { w.peer who with sendSeq := (w.peer who).sendSeq + 1 }
    sent := update w.sent who (w.sent who ++ [frame])
    log := w.log ++ [call] }

/-- `who` has received a frame. -/
def pull : World :=
  { w with
    peer := update w.peer who { w.peer who with recvSeq := (w.peer who).recvSeq + 1 }
    received := update w.received who (w.received who ++ [frame]) }

/-- A field of the peers that an update leaves alone. -/
theorem field_update {β : Type} (field : SessionState → β) {s : SessionState}
    (same : field s = field (w.peer who)) (side : Role) :
    field (update w.peer who s side) = field (w.peer side) := by
  by_cases acting : side = who
  · subst acting
    rw [update_self, same]
  · rw [update_of_ne acting]

variable (side : Role)

@[simp] theorem push_sendKey : ((w.push who frame call).peer side).sendKey =
    (w.peer side).sendKey := by
  apply w.field_update who sendKey
  rfl

@[simp] theorem push_recvKey : ((w.push who frame call).peer side).recvKey =
    (w.peer side).recvKey := by
  apply w.field_update who recvKey
  rfl

@[simp] theorem push_recvSeq : ((w.push who frame call).peer side).recvSeq =
    (w.peer side).recvSeq := by
  apply w.field_update who recvSeq
  rfl

@[simp] theorem push_sendSeq_self : ((w.push who frame call).peer who).sendSeq =
    (w.peer who).sendSeq + 1 := by
  simp [push]

@[simp] theorem push_sent_self : (w.push who frame call).sent who = w.sent who ++ [frame] := by
  simp [push]

@[simp] theorem push_received : (w.push who frame call).received = w.received :=
  rfl

@[simp] theorem push_peer_other : (w.push who frame call).peer who.other = w.peer who.other := by
  simp [push]

@[simp] theorem push_sent_other : (w.push who frame call).sent who.other = w.sent who.other := by
  simp [push]

@[simp] theorem pull_sendKey : ((w.pull who frame).peer side).sendKey = (w.peer side).sendKey := by
  apply w.field_update who sendKey
  rfl

@[simp] theorem pull_recvKey : ((w.pull who frame).peer side).recvKey = (w.peer side).recvKey := by
  apply w.field_update who recvKey
  rfl

@[simp] theorem pull_sendSeq : ((w.pull who frame).peer side).sendSeq = (w.peer side).sendSeq := by
  apply w.field_update who sendSeq
  rfl

@[simp] theorem pull_recvSeq_self : ((w.pull who frame).peer who).recvSeq =
    (w.peer who).recvSeq + 1 := by
  simp [pull]

@[simp] theorem pull_received_self : (w.pull who frame).received who =
    w.received who ++ [frame] := by
  simp [pull]

@[simp] theorem pull_sent : (w.pull who frame).sent = w.sent :=
  rfl

@[simp] theorem pull_peer_other : (w.pull who frame).peer who.other = w.peer who.other := by
  simp [pull]

@[simp] theorem pull_received_other : (w.pull who frame).received who.other =
    w.received who.other := by
  simp [pull]

end World

namespace Platform

variable (platform : Platform)

/-- The AEAD call of an encryption. -/
def sealing (s : SessionState) (frame : SessionFrame) : Sealed :=
  { key := s.sendKey
    nonce := nonceFor s.sendSeq
    aad := makeAad (platform.frameLength frame) s.sendSeq
    plaintext := platform.plaintext frame }

/-- The world after an action. -/
def act (w : World) : Action → World
  | .encrypt who frame =>
    match platform.encrypt (w.peer who) frame with
    | (.error _, s) => { w with peer := update w.peer who s }
    | (.ok _, s) =>
      { w with
        peer := update w.peer who s
        sent := update w.sent who (w.sent who ++ [frame])
        log := w.log ++ [platform.sealing (w.peer who) frame] }
  | .decrypt who bytes =>
    match platform.decrypt (w.peer who) bytes with
    | (.error _, s) => { w with peer := update w.peer who s }
    | (.ok frame, s) =>
      { w with
        peer := update w.peer who s
        received := update w.received who (w.received who ++ [frame]) }

/-- The AEAD is ideal for an action: a ciphertext opens only if it was produced under
the same key, nonce and associated data. -/
def Ideal (w : World) : Action → Prop
  | .encrypt _ _ => True
  | .decrypt who bytes =>
    let s := w.peer who
    let aad := makeAad (BigEndian.decode (bytes.take 4)) s.recvSeq
    (platform.chacha20poly1305Decrypt s.recvKey (nonceFor s.recvSeq) aad (bytes.drop 12)).isSome →
      ∃ call ∈ w.log, call.key = s.recvKey ∧ call.nonce = nonceFor s.recvSeq ∧ call.aad = aad ∧
        bytes.drop 12 = platform.chacha20poly1305Encrypt call.key call.nonce call.aad
          call.plaintext

/-- One step of the world under an ideal AEAD. -/
def WorldStep (w w' : World) : Prop :=
  ∃ action, platform.Ideal w action ∧ w' = platform.act w action

/-! ## What a step does -/

theorem act_encrypt (w : World) (who : Role) (frame : SessionFrame) :
    platform.act w (.encrypt who frame) = w ∨
      platform.act w (.encrypt who frame) =
        w.push who frame (platform.sealing (w.peer who) frame) := by
  cases encrypted : platform.encrypt (w.peer who) frame with
  | mk result s =>
    cases result with
    | error e =>
      left
      simp [act, encrypted, platform.encrypt_eq_error encrypted]
    | ok bytes =>
      right
      rcases platform.encrypt_eq_ok encrypted with ⟨_, _, _, after⟩
      simp only [act, encrypted, after, World.push]

/-- A decryption that changes the world returned a frame that an ideal AEAD had sealed. -/
theorem act_decrypt (w : World) (who : Role) (bytes : Bytes)
    (ideal : platform.Ideal w (.decrypt who bytes)) :
    platform.act w (.decrypt who bytes) = w ∨
      ∃ call frame, call ∈ w.log ∧ call.key = (w.peer who).recvKey ∧
        call.nonce = nonceFor (w.peer who).recvSeq ∧
        (Json.fromSlice platform.readF64 call.plaintext).bind ofValue = some frame ∧
        platform.act w (.decrypt who bytes) = w.pull who frame := by
  cases decrypted : platform.decrypt (w.peer who) bytes with
  | mk result s =>
    cases result with
    | error e =>
      left
      simp [act, decrypted, platform.decrypt_eq_error decrypted]
    | ok frame =>
      right
      rcases platform.decrypt_eq_ok decrypted with ⟨_, after, plaintext, opened, read⟩
      rcases ideal (by rw [opened]; rfl) with ⟨call, logged, key, nonce, aad, ciphertext⟩
      rw [ciphertext, ← key, ← nonce, ← aad, platform.decrypt_encrypt, Option.some.injEq] at opened
      rw [← opened] at read
      refine ⟨call, frame, logged, key, nonce, read, ?_⟩
      simp only [act, decrypted, after, World.pull]

/-! ## The invariant -/

/-- Keys and counters fit the history, and every encryption under a key of the epoch is
that of a frame in the history, at the position its nonce names. -/
structure Synced (w : World) : Prop where
  crossed : ∀ who, (w.peer who).recvKey = (w.peer who.other).sendKey
  distinct : ∀ who, (w.peer who).sendKey ≠ (w.peer who.other).sendKey
  sendSeq : ∀ who, (w.peer who).sendSeq = UInt64.ofNat (w.sent who).length
  recvSeq : ∀ who, (w.peer who).recvSeq = UInt64.ofNat (w.received who).length
  logged : ∀ call ∈ w.log, ∀ who, call.key = (w.peer who).sendKey →
    ∃ position frame, (w.sent who)[position]? = some frame ∧
      call.nonce = nonceFor (UInt64.ofNat position) ∧ call.plaintext = platform.plaintext frame
  inOrder : ∀ who, (w.channel who).InOrder platform.seenAs

variable {w : World}

theorem synced_of_epochStart (start : w.EpochStart) : platform.Synced w where
  crossed := by
    intro who
    cases who with
    | initiator => exact start.crossed.2.symm
    | responder => exact start.crossed.1.symm
  distinct := by
    intro who
    cases who with
    | initiator => exact start.distinct
    | responder => exact start.distinct.symm
  sendSeq := by
    intro who
    rw [start.sendSeq, start.sent]
    rfl
  recvSeq := by
    intro who
    rw [start.recvSeq, start.received]
    rfl
  logged := by
    intro call member who key
    exact absurd key (start.fresh call member who)
  inOrder := by
    intro who
    rw [OrderedChannel.InOrder, World.channel, start.received]
    exact List.nil_prefix

variable {platform : Platform}

/-- An encryption puts the frame into the sender's channel. -/
theorem Synced.push (synced : platform.Synced w) (who : Role) (frame : SessionFrame) :
    platform.Synced (w.push who frame (platform.sealing (w.peer who) frame)) where
  crossed := by
    intro side
    rw [World.push_recvKey, World.push_sendKey]
    exact synced.crossed side
  distinct := by
    intro side
    rw [World.push_sendKey, World.push_sendKey]
    exact synced.distinct side
  sendSeq := by
    refine Role.forall_of who ?_ ?_
    · simp [synced.sendSeq who]
    · simp [synced.sendSeq who.other]
  recvSeq := by
    intro side
    rw [World.push_recvSeq, World.push_received]
    exact synced.recvSeq side
  logged := by
    intro call member side key
    rw [World.push_sendKey] at key
    rcases mem_append.mp member with earlier | new
    · rcases synced.logged call earlier side key with ⟨position, found, sent, nonce, plaintext⟩
      refine ⟨position, found, ?_, nonce, plaintext⟩
      rcases Role.eq_or_eq_other side who with acting | resting
      · subst acting
        rcases List.getElem?_eq_some_iff.mp sent with ⟨inBounds, _⟩
        rw [World.push_sent_self, List.getElem?_append_left inBounds, sent]
      · subst resting
        rw [World.push_sent_other]
        exact sent
    · rw [mem_singleton] at new
      subst new
      rcases Role.eq_or_eq_other side who with acting | resting
      · subst acting
        refine ⟨(w.sent side).length, frame, ?_, ?_, rfl⟩
        · rw [World.push_sent_self, List.getElem?_concat_length]
        · rw [← synced.sendSeq side]
          rfl
      · subst resting
        exact absurd key (synced.distinct who)
  inOrder := by
    refine Role.forall_of who ?_ ?_
    · have sent := (synced.inOrder who).step (.send _ frame)
      simpa [World.channel] using sent
    · simpa [World.channel] using synced.inOrder who.other

/-- A call that opens at a receiver is that of the next frame of its peer. -/
theorem Synced.next {platform : Platform} {w : World} (synced : platform.Synced w) {who : Role}
    {call : Sealed} {frame : SessionFrame} (few : (w.sent who.other).length < 2 ^ 64)
    (logged : call ∈ w.log) (key : call.key = (w.peer who).recvKey)
    (nonce : call.nonce = nonceFor (w.peer who).recvSeq)
    (read : (Json.fromSlice platform.readF64 call.plaintext).bind ofValue = some frame) :
    ∃ original, (w.sent who.other)[(w.received who).length]? = some original ∧
      platform.seenAs original = some frame := by
  rw [synced.crossed who] at key
  rcases synced.logged call logged who.other key with
    ⟨position, original, sent, sealedNonce, plaintext⟩
  rw [plaintext, platform.fromSlice_plaintext] at read
  refine ⟨original, ?_, read⟩
  -- The nonce names the position modulo 2^64, and both numbers are below that.
  have positionFits : position < (w.sent who.other).length :=
    (List.getElem?_eq_some_iff.mp sent).1
  have receivedFits : (w.received who).length ≤ (w.sent who.other).length := by
    simpa [World.channel] using (synced.inOrder who.other).length_le
  have sameSeq : UInt64.ofNat position = UInt64.ofNat (w.received who).length := by
    apply nonceFor_injective
    rw [← sealedNonce, nonce, synced.recvSeq who]
  have samePosition := congrArg UInt64.toNat sameSeq
  rw [UInt64.toNat_ofNat_of_lt' (lt_trans positionFits few),
    UInt64.toNat_ofNat_of_lt' (lt_of_le_of_lt receivedFits few)] at samePosition
  rw [← samePosition, sent]

/-- A decryption takes the next frame out of the peer's channel. -/
theorem Synced.pull (synced : platform.Synced w) {who : Role} {original frame : SessionFrame}
    (next : (w.sent who.other)[(w.received who).length]? = some original)
    (readable : platform.seenAs original = some frame) : platform.Synced (w.pull who frame) where
  crossed := by
    intro side
    rw [World.pull_recvKey, World.pull_sendKey]
    exact synced.crossed side
  distinct := by
    intro side
    rw [World.pull_sendKey, World.pull_sendKey]
    exact synced.distinct side
  sendSeq := by
    intro side
    rw [World.pull_sendSeq, World.pull_sent]
    exact synced.sendSeq side
  recvSeq := by
    refine Role.forall_of who ?_ ?_
    · simp [synced.recvSeq who]
    · simp [synced.recvSeq who.other]
  logged := by
    intro call member side key
    rw [World.pull_sendKey] at key
    exact synced.logged call member side key
  inOrder := by
    refine Role.forall_of who ?_ ?_
    · simpa [World.channel] using synced.inOrder who
    · have channelNext : (w.channel who.other).sent[(w.channel who.other).received.length]? =
          some original := by
        simpa [World.channel] using next
      have taken := (synced.inOrder who.other).step (.receive _ original frame channelNext readable)
      simpa [World.channel] using taken

/-! ## Runs -/

/-- Nothing is taken back from the history. -/
theorem length_sent_le {w w' : World} (step : platform.WorldStep w w') (who : Role) :
    (w.sent who).length ≤ (w'.sent who).length := by
  rcases step with ⟨action, ideal, after⟩
  subst after
  cases action with
  | encrypt sender frame =>
    rcases platform.act_encrypt w sender frame with failed | sent
    · rw [failed]
    · rw [sent]
      revert who
      refine Role.forall_of sender ?_ ?_
      · simp
      · simp
  | decrypt receiver bytes =>
    rcases platform.act_decrypt w receiver bytes ideal with failed | received
    · rw [failed]
    · rcases received with ⟨call, frame, _, _, _, _, after⟩
      rw [after, World.pull_sent]

/-- One step keeps the invariant. -/
theorem Synced.step {w w' : World} (step : platform.WorldStep w w')
    (few : ∀ who, (w'.sent who).length < 2 ^ 64) (synced : platform.Synced w) :
    platform.Synced w' := by
  have fewBefore : ∀ who, (w.sent who).length < 2 ^ 64 := fun who =>
    lt_of_le_of_lt (platform.length_sent_le step who) (few who)
  rcases step with ⟨action, ideal, after⟩
  subst after
  cases action with
  | encrypt who frame =>
    rcases platform.act_encrypt w who frame with failed | sent
    · rw [failed]
      exact synced
    · rw [sent]
      exact synced.push who frame
  | decrypt who bytes =>
    rcases platform.act_decrypt w who bytes ideal with failed | received
    · rw [failed]
      exact synced
    · rcases received with ⟨call, frame, logged, key, nonce, read, after⟩
      rcases synced.next (fewBefore who.other) logged key nonce read with
        ⟨original, next, readable⟩
      rw [after]
      exact synced.pull next readable

theorem Synced.run {w w' : World} (synced : platform.Synced w)
    (run : ReflTransGen platform.WorldStep w w') (few : ∀ who, (w'.sent who).length < 2 ^ 64) :
    platform.Synced w' :=
  Transition.invariant_run_within
    (fun _ _ step bound who => lt_of_le_of_lt (platform.length_sent_le step who) (bound who))
    (fun _ _ step bound held => held.step step bound) run few synced

/-- Both peers are open, and each expects what the other one sends next. -/
structure InStep (w : World) : Prop where
  isOpen : ∀ who, (w.peer who).closed = false
  recvKey : ∀ who, (w.peer who.other).recvKey = (w.peer who).sendKey
  recvSeq : ∀ who, (w.peer who.other).recvSeq = (w.peer who).sendSeq

/-- A network that delivers a frame makes the receiver return it. -/
theorem exists_delivery (level : InStep w) (who : Role) (frame : SessionFrame)
    (fits : platform.frameLength frame ≤ 2 ^ 32 - 1) {seen : SessionFrame}
    (readable : platform.seenAs frame = some seen) :
    ∃ w', ReflTransGen platform.WorldStep w w' ∧ InStep w' ∧
      w'.sent = update w.sent who (w.sent who ++ [frame]) ∧
      w'.received = update w.received who.other (w.received who.other ++ [seen]) := by
  let call := platform.sealing (w.peer who) frame
  let bytes := platform.wire (w.peer who).sendKey (w.peer who).sendSeq frame
  have sent : platform.act w (.encrypt who frame) = w.push who frame call := by
    simp only [act, platform.encrypt_of_fits (level.isOpen who) fits, World.push, call]
  have decrypted : platform.decrypt (w.peer who.other) bytes =
      (.ok seen, { w.peer who.other with recvSeq := (w.peer who.other).recvSeq + 1 }) :=
    platform.decrypt_wire_of_readable (level.isOpen who.other) fits (level.recvKey who).symm
      (level.recvSeq who).symm readable
  have received : platform.act (w.push who frame call) (.decrypt who.other bytes) =
      (w.push who frame call).pull who.other seen := by
    simp [act, decrypted, World.pull]
  have ideal : platform.Ideal (w.push who frame call) (.decrypt who.other bytes) := by
    intro _
    refine ⟨call, by simp [World.push], ?_, ?_, ?_, ?_⟩
    · rw [World.push_recvKey, level.recvKey]
      rfl
    · rw [World.push_recvSeq, level.recvSeq]
      rfl
    · rw [World.push_recvSeq, level.recvSeq, (platform.header_wire _ _ _ fits).1]
      rfl
    · exact platform.drop_wire _ _ _
  refine ⟨_, .tail (.single ⟨.encrypt who frame, trivial, sent.symm⟩)
    ⟨.decrypt who.other bytes, ideal, received.symm⟩, ⟨?_, ?_, ?_⟩, rfl, rfl⟩
  · intro side
    cases who <;> cases side <;> simp [World.push, World.pull, Role.other, level.isOpen]
  · intro side
    simp [level.recvKey]
  · intro side
    have first := level.recvSeq .initiator
    have second := level.recvSeq .responder
    cases who <;> cases side <;> simp_all [World.push, World.pull, Role.other]

/-- Whatever the adversary does, what a peer receives is an initial part of what the
other one sent, as the receiver reads it, and a failure changes no counter. -/
theorem received_prefix_sent {start w : World} (epoch : start.EpochStart)
    (run : ReflTransGen platform.WorldStep start w) (few : ∀ who, (w.sent who).length < 2 ^ 64) :
    (∀ who, (w.received who).map some <+: (w.sent who.other).map platform.seenAs) ∧
      ∀ who bytes e after, platform.decrypt (w.peer who) bytes = (.error e, after) →
        after.recvSeq = (w.peer who).recvSeq := by
  have synced := (platform.synced_of_epochStart epoch).run run few
  constructor
  · intro who
    simpa [World.channel, OrderedChannel.InOrder] using synced.inOrder who.other
  · intro who bytes e after failed
    rw [platform.decrypt_eq_error failed]

/-- Two derived sessions of one conversation, before any frame. -/
def freshWorld (shared : Key) (sessionId transcriptHash : Bytes) : World :=
  { peer := fun who => platform.deriveWithClaim who shared sessionId transcriptHash "" "" none
    sent := fun _ => []
    received := fun _ => []
    log := [] }

/-- A conversation starts an epoch, unless the two derived keys are equal. -/
theorem epochStart_freshWorld (shared : Key) (sessionId transcriptHash : Bytes)
    (distinct : (platform.hkdfSha256 shared.bytes sessionId
        (Text.utf8 "tf-session/v0/keys" ++ transcriptHash)).1 ≠
      (platform.hkdfSha256 shared.bytes sessionId
        (Text.utf8 "tf-session/v0/keys" ++ transcriptHash)).2) :
    (platform.freshWorld shared sessionId transcriptHash).EpochStart where
  crossed := platform.crossed_deriveWithClaim _ _ _ _ _ _ _ _ _
  distinct := distinct
  sendSeq := fun _ => rfl
  recvSeq := fun _ => rfl
  sent := fun _ => rfl
  received := fun _ => rfl
  fresh := fun _ member => absurd member not_mem_nil

theorem epochStart_transparent : (transparent.freshWorld (.filled []) [] []).EpochStart :=
  transparent.epochStart_freshWorld _ _ _ (by decide)

theorem inStep_transparent : InStep (transparent.freshWorld (.filled []) [] []) where
  isOpen := fun _ => rfl
  recvKey := by
    intro who
    cases who <;> rfl
  recvSeq := fun _ => rfl

/-- Two frames one way and one back. -/
theorem received_prefix_sent_ping :
    ∃ w, ReflTransGen transparent.WorldStep (transparent.freshWorld (.filled []) [] []) w ∧
      w.received .responder = [.ping "1", .ping "2"] ∧ w.received .initiator = [.pong "1"] ∧
      ∀ who, (w.received who).map some <+: (w.sent who.other).map transparent.seenAs := by
  rcases transparent.exists_delivery inStep_transparent .initiator (.ping "1") (by decide +kernel)
    rfl with ⟨u, first, level, sent, received⟩
  rcases transparent.exists_delivery level .responder (.pong "1") (by decide +kernel)
    rfl with ⟨v, second, level', sent', received'⟩
  rcases transparent.exists_delivery level' .initiator (.ping "2") (by decide +kernel)
    rfl with ⟨w, third, _, sent'', received''⟩
  have run := (first.trans second).trans third
  have few : ∀ who, (w.sent who).length < 2 ^ 64 := by
    intro who
    rw [sent'', sent', sent]
    cases who <;> decide
  refine ⟨w, run, ?_, ?_, (transparent.received_prefix_sent epochStart_transparent run few).1⟩
  · rw [received'', received', received]
    rfl
  · rw [received'', received', received]
    rfl

theorem seenAs_one :
    platform.seenAs (.data (.number (.float .one))) = some (.data (.number (.posInt 1))) := by
  have written : platform.numeral (.float .one) = .ofInteger false 1 := by
    have nonzero : Json.F64.one.isZero = false := by decide +kernel
    have integral : Json.F64.one.integral = true := by decide +kernel
    have truncated : Json.F64.one.truncated = 1 := by decide +kernel
    have positive : Json.F64.one.negative = false := by decide
    simp [Json.Runtime.numeral, nonzero, integral, truncated, positive]
  have read := Json.readNumber_posInt platform.readF64 1
  rw [seenAs, reread, Json.Runtime.reread, written]
  simp only [Fin.val_one] at read
  rw [read]
  rfl

/-- The float `1.0` arrives as the integer `1`, which no normalisation of strings explains. -/
theorem float_arrives_as_integer :
    ∃ w, ReflTransGen transparent.WorldStep (transparent.freshWorld (.filled []) [] []) w ∧
      (transparent.freshWorld (.filled []) [] []).EpochStart ∧
      (∀ who, (w.sent who).length < 2 ^ 64) ∧
      w.sent .initiator = [.data (.number (.float .one))] ∧
      w.received .responder = [.data (.number (.posInt 1))] ∧
      ¬(w.received .responder <+:
        (w.sent .initiator).map (normalize transparent.nfc)) := by
  have fits : transparent.frameLength (.data (.number (.float .one))) ≤ 2 ^ 32 - 1 := by
    decide +kernel
  rcases transparent.exists_delivery inStep_transparent .initiator _ fits transparent.seenAs_one
    with ⟨w, run, _, sent, received⟩
  refine ⟨w, run, epochStart_transparent, ?_⟩
  rw [sent, received]
  refine ⟨?_, rfl, rfl, ?_⟩
  · intro who
    cases who <;> decide
  · intro inOrder
    simp [freshWorld, Role.other, SessionFrame.normalize, Json.Value.mapText] at inOrder

end Platform

end TrustForge.Session
