import TrustForge.Foundation.BigEndian
import TrustForge.Session.Messages

/-!
# Session state

Model of `SessionState` in `session.rs`: the key schedule, the framed AEAD channel
and the in-band rekey.  An operation returns its result together with the state it
leaves behind, because some failures change the state.  Fresh randomness enters as an
argument.
-/

namespace TrustForge.Session

open BigEndian SessionFrame Result List

inductive Role where
  | initiator
  | responder
  deriving Repr, DecidableEq

/-- The other side. -/
def Role.other : Role → Role
  | .initiator => .responder
  | .responder => .initiator

@[simp] theorem Role.other_other (who : Role) : who.other.other = who := by
  cases who <;> rfl

@[simp] theorem Role.other_ne (who : Role) : who.other ≠ who := by
  cases who <;> decide

theorem Role.eq_or_eq_other (side who : Role) : side = who ∨ side = who.other := by
  cases side <;> cases who <;> decide

theorem Role.forall_of {P : Role → Prop} (who : Role) (own : P who) (others : P who.other) :
    ∀ side, P side := by
  intro side
  rcases Role.eq_or_eq_other side who with rfl | rfl
  · exact own
  · exact others

/-- `SessionState`.  The counters wrap as in a release build. -/
structure SessionState where
  selfActor : String
  peerActor : String
  peerActorClaim : Option String
  sessionId : Bytes
  generation : UInt32
  sendKey : Key
  recvKey : Key
  sendSeq : UInt64
  recvSeq : UInt64
  closed : Bool
  pendingRekeyPriv : Option Key

/-- Each side sends under the key with which the other one receives. -/
def Crossed (a b : SessionState) : Prop :=
  a.sendKey = b.recvKey ∧ b.sendKey = a.recvKey

/-- `make_ephemeral`: the private key, from the seed when there is one. -/
def makeEphemeral (seed : Option Key) (draw : Key) : Key :=
  seed.getD draw

def nonceFor (seq : UInt64) : Bytes :=
  encode 4 0 ++ encode 8 seq.toNat

/-- `make_aad`, which is also the header of a frame. -/
def makeAad (length : Nat) (seq : UInt64) : Bytes :=
  encode 4 length ++ encode 8 seq.toNat

namespace Platform

variable (platform : Platform)

/-! ## Key schedule -/

def deriveWithClaim (role : Role) (shared : Key) (sessionId transcriptHash : Bytes)
    (selfActor peerActor : String) (peerActorClaim : Option String) : SessionState :=
  let info := Text.utf8 "tf-session/v0/keys" ++ transcriptHash
  let (iToR, rToI) := platform.hkdfSha256 shared.bytes sessionId info
  { selfActor := selfActor
    peerActor := peerActor
    peerActorClaim := peerActorClaim
    sessionId := sessionId
    generation := 0
    sendKey := match role with | .initiator => iToR | .responder => rToI
    recvKey := match role with | .initiator => rToI | .responder => iToR
    sendSeq := 0
    recvSeq := 0
    closed := false
    pendingRekeyPriv := none }

/-- `SessionState::rotate_keys`.  The previous keys are ordered by their hexadecimal
texts, so that both peers hash the same bytes. -/
def rotateKeys (s : SessionState) (shared : Key) : SessionState :=
  let sendIsLower := decide (Text.hex s.sendKey.bytes < Text.hex s.recvKey.bytes)
  let lo := if sendIsLower then s.sendKey else s.recvKey
  let hi := if sendIsLower then s.recvKey else s.sendKey
  let prevHash := platform.sha256 (lo.bytes ++ hi.bytes)
  let next := s.generation + 1
  let info := Text.utf8 s!"tf-session/v0/keys/g{next.toNat}" ++ prevHash
  let (k1, k2) := platform.hkdfSha256 shared.bytes s.sessionId info
  { s with
    sendKey := if sendIsLower then k1 else k2
    recvKey := if sendIsLower then k2 else k1
    sendSeq := 0
    recvSeq := 0
    generation := next }

/-! ## Frames -/

/-- The plaintext of a frame: its canonical JSON. -/
def plaintext (frame : SessionFrame) : Bytes :=
  Text.utf8 (platform.canonicalize frame.toValue)

/-- How a frame looks to the receiver, if its parser accepts it. -/
def seenAs (frame : SessionFrame) : Option SessionFrame :=
  frame.reread platform.toRuntime

/-- The length a frame announces: sequence number, ciphertext and tag. -/
def frameLength (frame : SessionFrame) : Nat :=
  8 + (platform.plaintext frame).length + 16

/-- The bytes of a frame on the wire. -/
def wire (key : Key) (seq : UInt64) (frame : SessionFrame) : Bytes :=
  let aad := makeAad (platform.frameLength frame) seq
  aad ++ platform.chacha20poly1305Encrypt key (nonceFor seq) aad (platform.plaintext frame)

def encrypt (s : SessionState) (frame : SessionFrame) :
    Except SessionError Bytes × SessionState :=
  if s.closed then (.error (.generic "session is closed"), s)
  else if 2 ^ 32 - 1 < platform.frameLength frame then (.error (.generic "frame too long"), s)
  else (.ok (platform.wire s.sendKey s.sendSeq frame), { s with sendSeq := s.sendSeq + 1 })

/-- The frame in a ciphertext that opened. -/
def decodeFrame (plaintext : Bytes) : Except SessionError SessionFrame :=
  match Json.fromSlice platform.readF64 plaintext with
  | none => .error .json
  | some value =>
    match ofValue value with
    | none => .error .json
    | some frame => .ok frame

/-- The checks of `decrypt`, with the frame and its sequence number. -/
def openFrame (s : SessionState) (bytes : Bytes) : Except SessionError (SessionFrame × UInt64) :=
  if s.closed then .error (.generic "session is closed")
  else if bytes.length < 12 + 16 then .error (.generic "frame too short")
  else
    let length := decode (bytes.take 4)
    if 4 + length ≠ bytes.length then .error (.generic "length mismatch")
    else
      let seq := UInt64.ofNat (decode ((bytes.drop 4).take 8))
      if seq ≠ s.recvSeq then
        .error (.generic
          s!"out-of-order frame: got {seq.toNat}, expected {s.recvSeq.toNat}")
      else
        match platform.chacha20poly1305Decrypt s.recvKey (nonceFor seq) (makeAad length seq)
            (bytes.drop 12) with
        | none => .error (.aead seq)
        | some plaintext => do
          let frame ← platform.decodeFrame plaintext
          .ok (frame, seq)

def decrypt (s : SessionState) (bytes : Bytes) : Except SessionError SessionFrame × SessionState :=
  match platform.openFrame s bytes with
  | .error e => (.error e, s)
  | .ok (frame, seq) => (.ok frame, { s with recvSeq := seq + 1 })

/-! ## Rekey -/

/-- `SessionState::request_rekey`.  The private key is stored before the request is
encrypted, so it stays when that fails. -/
def requestRekey (s : SessionState) (seed : Option Key) (draw : Key) :
    Except SessionError Bytes × SessionState :=
  let ephPriv := makeEphemeral seed draw
  platform.encrypt { s with pendingRekeyPriv := some ephPriv }
    (.rekeyReq (b64encode (platform.x25519Public ephPriv).bytes))

def processRekeyReq (s : SessionState) (peerEphPub : String) (seed : Option Key) (draw : Key) :
    Except SessionError Bytes × SessionState :=
  let ephPriv := makeEphemeral seed draw
  match decodeEphPub peerEphPub with
  | .error e => (.error e, s)
  | .ok peerEph =>
    let shared := platform.x25519DiffieHellman ephPriv peerEph
    match platform.encrypt s (.rekeyAck (b64encode (platform.x25519Public ephPriv).bytes)) with
    | (.error e, s) => (.error e, s)
    | (.ok ack, s) => (.ok ack, platform.rotateKeys s shared)

/-- `SessionState::process_rekey_ack`.  The pending key is taken before the peer's key
is decoded, so it is gone when that fails. -/
def processRekeyAck (s : SessionState) (peerEphPub : String) :
    Except SessionError Unit × SessionState :=
  match s.pendingRekeyPriv with
  | none => (.error (.generic "no pending rekey"), s)
  | some pending =>
    let s := { s with pendingRekeyPriv := none }
    match decodeEphPub peerEphPub with
    | .error e => (.error e, s)
    | .ok peerEph =>
      (.ok (), platform.rotateKeys s (platform.x25519DiffieHellman pending peerEph))

/-! ## What the key schedule does -/

/-- Initiator and responder of one conversation derive crossed keys. -/
theorem crossed_deriveWithClaim (shared : Key) (sessionId transcriptHash : Bytes)
    (selfI peerI selfR peerR : String) (claimI claimR : Option String) :
    Crossed
      (platform.deriveWithClaim .initiator shared sessionId transcriptHash selfI peerI claimI)
      (platform.deriveWithClaim .responder shared sessionId transcriptHash selfR peerR claimR) :=
  ⟨rfl, rfl⟩

/-! ## What the frame operations do -/

variable {s : SessionState}

variable {frame : SessionFrame}

theorem encrypt_of_fits (isOpen : s.closed = false) (fits : platform.frameLength frame ≤ 2 ^ 32 - 1) :
    platform.encrypt s frame =
      (.ok (platform.wire s.sendKey s.sendSeq frame), { s with sendSeq := s.sendSeq + 1 }) := by
  rw [encrypt, isOpen, if_neg (by decide), if_neg (not_lt_of_ge fits)]

variable {s t : SessionState}

/-- A successful encryption, inverted. -/
theorem encrypt_eq_ok {bytes : Bytes} (encrypted : platform.encrypt s frame = (.ok bytes, t)) :
    s.closed = false ∧ platform.frameLength frame ≤ 2 ^ 32 - 1 ∧
      bytes = platform.wire s.sendKey s.sendSeq frame ∧
      t = { s with sendSeq := s.sendSeq + 1 } := by
  unfold encrypt at encrypted
  split_ifs at encrypted with isClosed long
  all_goals simp only [Prod.mk.injEq, reduceCtorEq, false_and, Except.ok.injEq] at encrypted
  exact ⟨Bool.eq_false_iff.mpr isClosed, le_of_not_gt long, encrypted.1.symm,
    encrypted.2.symm⟩

/-- A failed encryption leaves the state alone. -/
theorem encrypt_eq_error {e : SessionError} (failed : platform.encrypt s frame = (.error e, t)) :
    t = s := by
  unfold encrypt at failed
  split_ifs at failed
  all_goals simp only [Prod.mk.injEq, reduceCtorEq, false_and] at failed
  all_goals exact failed.2.symm

/-- A failed decryption leaves the state alone. -/
theorem decrypt_eq_error {bytes : Bytes} {e : SessionError}
    (failed : platform.decrypt s bytes = (.error e, t)) : t = s := by
  unfold decrypt at failed
  split at failed
  · simp only [Prod.mk.injEq] at failed
    exact failed.2.symm
  · simp at failed

theorem decodeFrame_eq_okOr (plaintext : Bytes) :
    platform.decodeFrame plaintext = Result.okOr
      ((Json.fromSlice platform.readF64 plaintext).bind ofValue) .json := by
  unfold decodeFrame
  cases Json.fromSlice platform.readF64 plaintext with
  | none => rfl
  | some value =>
    simp only [Option.bind_some]
    cases ofValue value <;> rfl

/-- The receiver reads `seenAs` from the plaintext of a frame. -/
theorem fromSlice_plaintext (frame : SessionFrame) :
    (Json.fromSlice platform.readF64 (platform.plaintext frame)).bind ofValue =
      platform.seenAs frame := by
  rw [plaintext, Json.Runtime.fromSlice_canonicalize, ofValue_reread, seenAs]

/-- A successful decryption, inverted: the ciphertext opened under the receive key and
the nonce of the expected sequence number. -/
theorem decrypt_eq_ok {bytes : Bytes} (decrypted : platform.decrypt s bytes = (.ok frame, t)) :
    s.closed = false ∧ t = { s with recvSeq := s.recvSeq + 1 } ∧
      ∃ plaintext,
        platform.chacha20poly1305Decrypt s.recvKey (nonceFor s.recvSeq)
          (makeAad (decode (bytes.take 4)) s.recvSeq) (bytes.drop 12) =
            some plaintext ∧
        (Json.fromSlice platform.readF64 plaintext).bind ofValue = some frame := by
  unfold decrypt at decrypted
  split at decrypted
  · simp at decrypted
  · next other seq opened =>
    simp only [Prod.mk.injEq, Except.ok.injEq] at decrypted
    rcases decrypted with ⟨sameFrame, sameState⟩
    subst sameFrame
    simp only [openFrame, ite_eq_ok_iff, not_not] at opened
    obtain ⟨isOpen, _, _, expected, opened⟩ := opened
    rw [expected] at opened
    cases unsealed : platform.chacha20poly1305Decrypt s.recvKey (nonceFor s.recvSeq)
        (makeAad (decode (bytes.take 4)) s.recvSeq) (bytes.drop 12) with
    | none => simp [unsealed] at opened
    | some plaintext =>
      simp only [unsealed, decodeFrame_eq_okOr, bind_eq_ok_iff, okOr_eq_ok_iff] at opened
      obtain ⟨_, decoded, rfl, rfl⟩ := opened
      exact ⟨Bool.eq_false_iff.mpr isOpen, sameState.symm, plaintext, rfl, decoded⟩

/-! ## Frames from the wire -/

theorem nonceFor_injective {seq other : UInt64} (same : nonceFor seq = nonceFor other) :
    seq = other := by
  have texts := append_cancel_left same
  exact UInt64.toNat_inj.mp (encode_inj seq.toNat_lt other.toNat_lt texts)

theorem length_makeAad (length : Nat) (seq : UInt64) : (makeAad length seq).length = 12 := by
  simp [makeAad]

theorem length_wire (key : Key) (seq : UInt64) (frame : SessionFrame) :
    (platform.wire key seq frame).length = 4 + platform.frameLength frame := by
  simp only [wire, length_append, length_makeAad, platform.encrypt_length, frameLength]
  omega

theorem drop_wire (key : Key) (seq : UInt64) (frame : SessionFrame) :
    (platform.wire key seq frame).drop 12 =
      platform.chacha20poly1305Encrypt key (nonceFor seq)
        (makeAad (platform.frameLength frame) seq) (platform.plaintext frame) := by
  apply drop_left'
  exact length_makeAad _ _

/-- The length and the sequence number in the header of a frame. -/
theorem header_wire (key : Key) (seq : UInt64) (frame : SessionFrame)
    (fits : platform.frameLength frame ≤ 2 ^ 32 - 1) :
    decode ((platform.wire key seq frame).take 4) = platform.frameLength frame ∧
      UInt64.ofNat (decode (((platform.wire key seq frame).drop 4).take 8)) = seq := by
  have lengthFits : platform.frameLength frame < 256 ^ 4 :=
    lt_of_le_of_lt fits (by decide)
  have seqFits : seq.toNat < 256 ^ 8 := seq.toNat_lt
  have parts : platform.wire key seq frame = encode 4 (platform.frameLength frame) ++
      (encode 8 seq.toNat ++ platform.chacha20poly1305Encrypt key (nonceFor seq)
        (makeAad (platform.frameLength frame) seq) (platform.plaintext frame)) := by
    simp [wire, makeAad]
  rw [parts, take_left' (length_encode 4 _), drop_left' (length_encode 4 _),
    take_left' (length_encode 8 _), decode_encode 4 _ lengthFits, decode_encode 8 _ seqFits]
  exact ⟨rfl, UInt64.ofNat_toNat⟩

theorem decodeFrame_plaintext (frame : SessionFrame) :
    platform.decodeFrame (platform.plaintext frame) =
      Result.okOr (platform.seenAs frame) .json := by
  rw [decodeFrame_eq_okOr, platform.fromSlice_plaintext]

section

variable (isOpen : s.closed = false)

include isOpen

/-- A frame that the peer sealed under the expected key and sequence number. -/
theorem decrypt_wire (fits : platform.frameLength frame ≤ 2 ^ 32 - 1) :
    platform.decrypt s (platform.wire s.recvKey s.recvSeq frame) =
      match platform.seenAs frame with
      | some received => (.ok received, { s with recvSeq := s.recvSeq + 1 })
      | none => (.error .json, s) := by
  have header := platform.header_wire s.recvKey s.recvSeq frame fits
  have notClosed : ¬s.closed = true := by simp [isOpen]
  have longEnough : ¬4 + platform.frameLength frame < 12 + 16 := by
    simp only [frameLength]
    omega
  simp only [decrypt, openFrame, notClosed, platform.length_wire, header.1, header.2,
    platform.drop_wire, platform.decrypt_encrypt, longEnough, ne_eq, platform.decodeFrame_plaintext]
  cases platform.seenAs frame with
  | none | some => rfl

/-- The frame arrives when it is readable and key and sequence number are the expected ones. -/
theorem decrypt_wire_of_readable {key : Key} {seq : UInt64} {frame seen : SessionFrame}
    (fits : platform.frameLength frame ≤ 2 ^ 32 - 1) (sameKey : key = s.recvKey)
    (sameSeq : seq = s.recvSeq) (readable : platform.seenAs frame = some seen) :
    platform.decrypt s (platform.wire key seq frame) =
      (.ok seen, { s with recvSeq := s.recvSeq + 1 }) := by
  subst sameKey sameSeq
  rw [platform.decrypt_wire isOpen fits, readable]

theorem decrypt_wire_of_unreadable {key : Key} {seq : UInt64}
    (fits : platform.frameLength frame ≤ 2 ^ 32 - 1) (sameKey : key = s.recvKey)
    (sameSeq : seq = s.recvSeq) (unreadable : platform.seenAs frame = none) :
    platform.decrypt s (platform.wire key seq frame) = (.error .json, s) := by
  subst sameKey sameSeq
  rw [platform.decrypt_wire isOpen fits, unreadable]

/-- A frame with another sequence number than the expected one is refused. -/
theorem decrypt_wire_of_seq_ne {key : Key} {seq : UInt64}
    (fits : platform.frameLength frame ≤ 2 ^ 32 - 1) (unexpected : seq ≠ s.recvSeq) :
    platform.decrypt s (platform.wire key seq frame) =
      (.error (.generic s!"out-of-order frame: got {seq.toNat}, expected {s.recvSeq.toNat}"),
        s) := by
  have header := platform.header_wire key seq frame fits
  have notClosed : ¬s.closed = true := by simp [isOpen]
  have longEnough : ¬4 + platform.frameLength frame < 12 + 16 := by
    simp only [frameLength]
    omega
  simp [decrypt, openFrame, notClosed, platform.length_wire, header.1, header.2, longEnough,
    unexpected]

end

end Platform

end TrustForge.Session
