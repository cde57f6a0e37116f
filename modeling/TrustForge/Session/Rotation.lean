import TrustForge.Session.State

/-!
# Key rotation and frames in flight

The pieces of an in-band rekey: the request and its acknowledgement always fit into a
frame, the public key in them survives the way over the wire, and both peers rotate to
crossed keys.  A run of frames sealed under one key with consecutive sequence numbers
is what a channel holds between two rotations.
-/

namespace TrustForge.Session

open List

namespace Platform

variable (platform : Platform)

/-! ## Rotation -/

section

variable (s : SessionState) (shared : Key)

@[simp] theorem rotateKeys_closed : (platform.rotateKeys s shared).closed = s.closed :=
  rfl

@[simp] theorem rotateKeys_sessionId : (platform.rotateKeys s shared).sessionId = s.sessionId :=
  rfl

@[simp] theorem rotateKeys_generation :
    (platform.rotateKeys s shared).generation = s.generation + 1 :=
  rfl

@[simp] theorem rotateKeys_sendSeq : (platform.rotateKeys s shared).sendSeq = 0 :=
  rfl

@[simp] theorem rotateKeys_recvSeq : (platform.rotateKeys s shared).recvSeq = 0 :=
  rfl

@[simp] theorem rotateKeys_pendingRekeyPriv :
    (platform.rotateKeys s shared).pendingRekeyPriv = s.pendingRekeyPriv :=
  rfl

end

/-- Peers with crossed keys rotate to crossed keys.  The order of the hexadecimal texts
gives them opposite answers, as long as their two keys differ. -/
theorem crossed_rotateKeys {a b : SessionState} (shared : Key) (crossed : Crossed a b)
    (differ : a.sendKey ≠ a.recvKey) (sameGeneration : a.generation = b.generation)
    (sameId : a.sessionId = b.sessionId) :
    Crossed (platform.rotateKeys a shared) (platform.rotateKeys b shared) := by
  rcases crossed with ⟨aToB, bToA⟩
  have hexDiffer : Text.hex a.sendKey.bytes ≠ Text.hex a.recvKey.bytes := by
    intro same
    exact differ (Key.ext (Text.hex_injective same))
  by_cases lower : Text.hex a.sendKey.bytes < Text.hex a.recvKey.bytes
  · have notLower : ¬Text.hex a.recvKey.bytes < Text.hex a.sendKey.bytes := lt_asymm lower
    simp [Crossed, rotateKeys, ← aToB, bToA, lower, notLower, sameGeneration, sameId]
  · have upper : Text.hex a.recvKey.bytes < Text.hex a.sendKey.bytes :=
      lt_of_le_of_ne (not_lt.mp lower) hexDiffer.symm
    simp [Crossed, rotateKeys, ← aToB, bToA, lower, upper, sameGeneration, sameId]

/-- Peers that rotate with one secret stay a pair: their keys are crossed, they count one
generation, and all their sequence numbers start again. -/
theorem rotateKeys_keeps_crossing {a b : SessionState} (shared : Key) (crossed : Crossed a b)
    (differ : a.sendKey ≠ a.recvKey) (sameGeneration : a.generation = b.generation)
    (sameId : a.sessionId = b.sessionId) :
    Crossed (platform.rotateKeys a shared) (platform.rotateKeys b shared) ∧
      (platform.rotateKeys a shared).generation = (platform.rotateKeys b shared).generation ∧
      ∀ s ∈ [a, b], (platform.rotateKeys s shared).sendSeq = 0 ∧
        (platform.rotateKeys s shared).recvSeq = 0 := by
  refine ⟨platform.crossed_rotateKeys shared crossed differ sameGeneration sameId, ?_, ?_⟩
  · rw [rotateKeys_generation, rotateKeys_generation, sameGeneration]
  · exact fun s _ => ⟨rfl, rfl⟩

theorem fresh_peers_rotate :
    ∃ a b : SessionState, Crossed a b ∧ a.sendKey ≠ a.recvKey ∧
      Crossed (transparent.rotateKeys a (.filled [])) (transparent.rotateKeys b (.filled [])) := by
  have crossed := transparent.crossed_deriveWithClaim (.filled []) [] [] "" "" "" "" none none
  have differ := transparent_hkdf_differ (.filled []) [] (Text.utf8 "tf-session/v0/keys" ++ [])
  exact ⟨_, _, crossed, differ,
    (transparent.rotateKeys_keeps_crossing (.filled []) crossed differ rfl rfl).1⟩

/-! ## Rekey frames -/

variable (secret : Key)

/-- A public key as rekey frames carry it. -/
def publicText : String :=
  b64encode (platform.x25519Public secret).bytes

/-- The two rekey frames are small objects. -/
theorem length_keyObject_le (tag : String) (key : Key) (ascii : Text.IsAscii tag)
    (short : tag.toList.length ≤ 16) :
    (platform.encode (.object [("kind", .string tag),
      ("eph_pub", .string (b64encode key.bytes))])).length ≤ 1000 := by
  have size := platform.length_encode_object
    [("kind", .string tag), ("eph_pub", .string (b64encode key.bytes))]
  simp only [map_cons, map_nil, sum_cons, sum_nil,
    Json.Runtime.entrySize, Json.memberText, length_append, length_cons,
    Json.Runtime.encode_string,
    platform.nfc_ascii "kind" (by decide), platform.nfc_ascii "eph_pub" (by decide),
    platform.nfc_ascii tag ascii, platform.nfc_ascii _ (b64encode_isAscii _)] at size
  have kindSize : (Json.writeJsonString "kind").length = 6 := by decide
  have pubSize : (Json.writeJsonString "eph_pub").length = 9 := by decide
  have tagSize := Json.length_writeJsonString_le tag
  have keySize := Json.length_writeJsonString_le (b64encode key.bytes)
  have base64 : (b64encode key.bytes).toList.length ≤ 44 := by
    have encoded := Encoding.standard.length_encode_le key.bytes
    rw [key.length] at encoded
    exact encoded
  omega

theorem fits_of_keyObject {frame : SessionFrame} {tag : String} {key : Key}
    (shape : frame.toValue = .object [("kind", .string tag),
      ("eph_pub", .string (b64encode key.bytes))])
    (ascii : Text.IsAscii tag) (short : tag.toList.length ≤ 16) :
    platform.frameLength frame ≤ 2 ^ 32 - 1 := by
  have object := platform.length_keyObject_le tag key ascii short
  have bytes := Text.length_utf8_ofList_le (platform.encode frame.toValue)
  rw [shape] at bytes
  rw [frameLength, plaintext, Json.Runtime.canonicalize, shape]
  omega

theorem fits_rekeyReq :
    platform.frameLength (.rekeyReq (platform.publicText secret)) ≤ 2 ^ 32 - 1 :=
  platform.fits_of_keyObject rfl (by decide) (by decide)

theorem fits_rekeyAck :
    platform.frameLength (.rekeyAck (platform.publicText secret)) ≤ 2 ^ 32 - 1 :=
  platform.fits_of_keyObject rfl (by decide) (by decide)

theorem nfc_publicText :
    platform.nfc (platform.publicText secret) = platform.publicText secret :=
  platform.nfc_ascii _ (b64encode_isAscii _)

theorem decodeEphPub_publicText :
    decodeEphPub (platform.publicText secret) = .ok (platform.x25519Public secret) :=
  decodeEphPub_b64encode _

/-! ## The rekey operations -/

theorem requestRekey_eq {s : SessionState} (seed : Option Key) (draw : Key)
    (isOpen : s.closed = false) :
    platform.requestRekey s seed draw =
      (.ok (platform.wire s.sendKey s.sendSeq
          (.rekeyReq (platform.publicText (makeEphemeral seed draw)))),
        { s with
          pendingRekeyPriv := some (makeEphemeral seed draw)
          sendSeq := s.sendSeq + 1 }) :=
  platform.encrypt_of_fits isOpen (platform.fits_rekeyReq _)

theorem processRekeyReq_eq {s : SessionState} (peerSecret : Key) (seed : Option Key) (draw : Key)
    (isOpen : s.closed = false) :
    platform.processRekeyReq s (platform.publicText peerSecret) seed draw =
      (.ok (platform.wire s.sendKey s.sendSeq
          (.rekeyAck (platform.publicText (makeEphemeral seed draw)))),
        platform.rotateKeys { s with sendSeq := s.sendSeq + 1 }
          (platform.x25519DiffieHellman (makeEphemeral seed draw)
            (platform.x25519Public peerSecret))) := by
  have sent := platform.encrypt_of_fits isOpen (platform.fits_rekeyAck (makeEphemeral seed draw))
  rw [publicText] at sent
  simp only [processRekeyReq, platform.decodeEphPub_publicText, sent]
  rfl

theorem processRekeyAck_eq {s : SessionState} (pending peerSecret : Key)
    (waiting : s.pendingRekeyPriv = some pending) :
    platform.processRekeyAck s (platform.publicText peerSecret) =
      (.ok (), platform.rotateKeys { s with pendingRekeyPriv := none }
        (platform.x25519DiffieHellman pending (platform.x25519Public peerSecret))) := by
  simp only [processRekeyAck, waiting, platform.decodeEphPub_publicText]

/-! ## Frames in flight -/

/-- Frames sealed under one key with consecutive sequence numbers. -/
def wires (key : Key) (seq : UInt64) : List SessionFrame → List Bytes
  | [] => []
  | frame :: rest => platform.wire key seq frame :: wires key (seq + 1) rest

/-- The sequence number after a run of frames. -/
def seqAfter (seq : UInt64) (frames : List SessionFrame) : UInt64 :=
  seq + UInt64.ofNat frames.length

theorem seqAfter_cons (seq : UInt64) (frame : SessionFrame) (rest : List SessionFrame) :
    seqAfter seq (frame :: rest) = seqAfter (seq + 1) rest := by
  rw [seqAfter, seqAfter, length_cons, UInt64.ofNat_add, UInt64.add_assoc,
    UInt64.add_comm 1 (UInt64.ofNat rest.length)]
  rfl

theorem seqAfter_concat (seq : UInt64) (frames : List SessionFrame) (frame : SessionFrame) :
    seqAfter seq (frames ++ [frame]) = seqAfter seq frames + 1 := by
  rw [seqAfter, seqAfter, length_append, UInt64.ofNat_add, UInt64.add_assoc]
  rfl

theorem wires_concat (key : Key) (seq : UInt64) (frames : List SessionFrame)
    (frame : SessionFrame) :
    platform.wires key seq (frames ++ [frame]) =
      platform.wires key seq frames ++ [platform.wire key (seqAfter seq frames) frame] := by
  induction frames generalizing seq with
  | nil => simp [seqAfter, wires]
  | cons first rest ih =>
    rw [cons_append, wires, ih, wires, seqAfter_cons, cons_append]

end Platform

end TrustForge.Session
