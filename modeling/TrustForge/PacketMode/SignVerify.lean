import TrustForge.PacketMode.Packet
import TrustForge.Session.Transcript

/-!
# Verifying what was signed

The signature covers every field but the envelope itself, and each step of signing is
undone by a step of verification.  Only the encoding decides: `sign_packet` takes every
name but `cbor` for JSON, `verify_packet` knows two names.
-/

namespace TrustForge.PacketMode

open Option Except Result List
open Encoding (standard)
open Json (Value)
open Session (Key optionalField number32)

/-! ## What is signed -/

section

variable {N : Type} (number : N → Value)

/-- The keys of a packet, in the order of its fields. -/
def signedKeys : List String :=
  ["packet_version", "packet_id", "source", "destination", "priority"] ++ ["emergency"] ++
    ["created_at"] ++ ["expires_at"] ++ ["ttl_hops"] ++ ["route_constraints"] ++ ["encoding"] ++
    ["compression"] ++ ["payload"] ++ ["session_ref"] ++ ["fragment"]

theorem keys_signedFields_sublist (p : PacketOf N) :
    (AssocMap.keys (p.signedFields number)).Sublist signedKeys := by
  simp only [PacketOf.signedFields, AssocMap.keys, map_append]
  repeat' apply List.Sublist.append
  all_goals first | exact List.Sublist.refl _ | exact Session.keys_optionalField_sublist _ _

theorem plainKeys_signedFields (p : PacketOf N) :
    Json.Runtime.PlainKeys (AssocMap.keys (p.signedFields number)) := by
  have full : Json.Runtime.PlainKeys signedKeys := by decide
  exact full.sublist (keys_signedFields_sublist number p)

theorem withoutSignature_toValue (p : PacketOf N) :
    Signing.withoutSignature (p.toValue number) = .object (p.signedFields number) := by
  refine Signing.withoutSignature_object _ fun signed => ?_
  exact absurd ((keys_signedFields_sublist number p).subset signed) (by decide)

end

/-! ## Envelopes -/

theorem length_putHeader_le (major : UInt8) (arg : UInt64) :
    (Cbor.putHeader major arg).length ≤ 9 := by
  unfold Cbor.putHeader
  repeat' split
  all_goals simp

/-- A map with one entry, its key, and the payload as a byte string. -/
def cborEnvelope (raw : Bytes) : Bytes :=
  [0xa1, 0x63, 0x72, 0x61, 0x77] ++ (Cbor.putHeader 2 (.ofNat raw.length) ++ raw)

theorem serdeCborEnvelope_eq (raw : Bytes) : serdeCborEnvelope raw = .ok (cborEnvelope raw) := by
  have key : Cbor.encodeInto (.text "raw") = .ok [0x63, 0x72, 0x61, 0x77] := rfl
  have value : Cbor.encodeInto (.bytes raw) =
      .ok (Cbor.putHeader 2 (.ofNat raw.length) ++ raw) := by rw [Cbor.encodeInto]
  have header : Cbor.putHeader 5 1 = [0xa1] := rfl
  rw [serdeCborEnvelope, Cbor.encode, Cbor.encodeInto, Cbor.encodeEntries, Cbor.encodeEntries,
    key, value]
  simp only [bind, Except.bind, append_nil]
  exact congrArg (fun front => Except.ok (front ++ _)) header

theorem length_cborEnvelope_le (raw : Bytes) : (cborEnvelope raw).length ≤ raw.length + 16 := by
  have header := length_putHeader_le 2 (.ofNat raw.length)
  simp only [cborEnvelope, length_append, length_cons, length_nil]
  omega

theorem decode_cborEnvelope (raw : Bytes) (fits : (cborEnvelope raw).length < 2 ^ 63) :
    Cbor.decode ⟨cborEnvelope raw, fits⟩ = .ok (.map [(.text "raw", .bytes raw)]) := by
  have shallow : (Cbor.Value.map [(.text "raw", .bytes raw)]).depth ≤ Cbor.maxDepth := by
    simp [Cbor.Value.depth, Cbor.Value.depthOfEntries, Cbor.maxDepth]
  have whole : (cborEnvelope raw ++ []).length < 2 ^ 63 := by rwa [append_nil]
  have decoded := Cbor.decode_encode (serdeCborEnvelope_eq raw) shallow whole
  simpa only [append_nil] using decoded

theorem decodeCborEnvelope_cborEnvelope (payload : Payload) :
    decodeCborEnvelope (cborEnvelope payload.bytes) = .ok payload.bytes := by
  have fits := lt_of_le_of_lt (length_cborEnvelope_le payload.bytes) payload.fits
  rw [decodeCborEnvelope, dif_pos fits, decode_cborEnvelope]
  rfl

/-- An object with one string field is read back. -/
theorem reread_jsonEnvelope (runtime : Json.Runtime) (raw : Bytes) :
    runtime.reread Json.recursionLimit (jsonEnvelope raw) = some (jsonEnvelope raw) := by
  have key : runtime.nfc "raw" = "raw" := runtime.nfc_ascii _ (by decide)
  have text : runtime.nfc (standard.encode raw) = standard.encode raw :=
    runtime.nfc_ascii _ (standard.encode_isAscii raw)
  rw [jsonEnvelope, Json.Runtime.reread, if_neg (by decide)]
  simp only [Json.Runtime.rereadEntries, Json.Runtime.reread, key, text]
  rfl

namespace Platform

variable (platform : Platform)

theorem decodeJsonEnvelope_jsonEnvelope (raw : Bytes) :
    platform.decodeJsonEnvelope (Text.utf8 (platform.canonicalize (jsonEnvelope raw))) =
      .ok raw := by
  have field : ((jsonEnvelope raw).get? "raw").bind Value.asStr = some (standard.encode raw) := rfl
  rw [decodeJsonEnvelope, Json.Runtime.fromSlice_canonicalize, reread_jsonEnvelope]
  simp only [field, standard.decode_encode]

theorem openPayload_unknown {encoding : String} (cbor : encoding ≠ "cbor")
    (json : encoding ≠ "json") (bytes : Bytes) :
    platform.openPayload (some encoding) bytes = .error s!"unknown encoding {encoding}" := by
  unfold openPayload
  split
  · contradiction
  · next isJson => exact absurd (some.inj isJson) json
  · next isCbor => exact absurd (some.inj isCbor) cbor
  · next same =>
    rw [some.inj same]

/-- Opening a sealed payload, which only fails for an encoding that the verifier does not
know. -/
theorem openPayload_sealPayload {encoding : String} {payload : Payload} {bytes : Bytes}
    (sealed : platform.sealPayload encoding payload.bytes = .ok bytes) :
    platform.openPayload (some encoding) bytes = .ok payload.bytes ↔
      encoding = "cbor" ∨ encoding = "json" := by
  rw [sealPayload, serdeCborEnvelope_eq] at sealed
  by_cases cbor : encoding = "cbor"
  · subst cbor
    rw [if_pos rfl] at sealed
    rw [← ok.inj sealed]
    simp [openPayload, decodeCborEnvelope_cborEnvelope]
  · rw [if_neg cbor] at sealed
    rw [← ok.inj sealed]
    by_cases json : encoding = "json"
    · subst json
      simp [openPayload, decodeJsonEnvelope_jsonEnvelope]
    · simp [platform.openPayload_unknown cbor json, cbor, json]

theorem decompress_compress {compression : String} {bytes compressed : Bytes}
    (done : platform.compress compression bytes = .ok compressed) :
    platform.decompress (some compression) compressed = .ok bytes := by
  rw [compress] at done
  by_cases deflate : compression = "deflate"
  · rw [if_pos deflate] at done
    rw [decompress, if_pos (congrArg some deflate), platform.inflate_deflate bytes compressed done]
  · rw [if_neg deflate] at done
    cases done
    rw [decompress, if_neg (by simpa using deflate)]

theorem decompress_deflate_eq_ok_iff {wire out : Bytes} :
    platform.decompress (some "deflate") wire = .ok out ↔ platform.inflate wire = some out := by
  rw [decompress, if_pos rfl]
  cases platform.inflate wire <;> simp

/-! ## Signatures -/

/-- The digest does not depend on the envelope. -/
theorem packetSigningBytes_eq (p : Packet) :
    platform.packetSigningBytes p =
      platform.sha256 (Text.utf8 (platform.canonicalize (.object (p.signedFields number32)))) := by
  rw [packetSigningBytes, Signing.Toolkit.signingBytes, Signing.Toolkit.signingText,
    withoutSignature_toValue]

theorem checkSignature_signDraft (secret : Key) (p : Packet) :
    platform.checkSignature (platform.signDraft secret p) (platform.ed25519Public secret) =
      .ok () := by
  have digest : platform.packetSigningBytes (platform.signDraft secret p) =
      platform.packetSigningBytes p := by
    rw [packetSigningBytes_eq, packetSigningBytes_eq]
    rfl
  rw [checkSignature, digest]
  exact mapError_eq_ok_iff.mpr (platform.verifySignature_sign secret _)

/-! ## Signing and verifying -/

theorem checkWindow_until (expires now : String) :
    checkWindow { validUntil := some expires } now =
      if expires < now then .expired expires else .ok := by
  show (if expires < now then some (ExpirationVerdict.expired expires) else none).getD .ok = _
  split <;> rfl

theorem isWithinWindow_until_iff (expires now : String) :
    isWithinWindow { validUntil := some expires } now = true ↔ ¬expires < now := by
  rw [isWithinWindow, decide_eq_true_iff, checkWindow_until]
  split
  · next expired => simp [expired]
  · next inside => simp [inside]

theorem marked_of_privileged {priority : String} {emergency : Bool}
    (privileged : ¬(priority = "P0" ∧ emergency = false)) :
    ¬(priority = "P0" ∧ (if emergency then some true else none) ≠ some true) := by
  rintro ⟨isP0, unmarked⟩
  cases emergency with
  | false => exact privileged ⟨isP0, rfl⟩
  | true => exact unmarked rfl

theorem checkHeader_signDraft {clock now : String} {args : SignPacketArgs} {bytes : Bytes}
    (privileged : ¬(args.priority = "P0" ∧ args.emergency = false))
    (own : args.signer = args.source) (current : ∀ expires ∈ args.expiresAt, ¬expires < now) :
    checkHeader (platform.signDraft args.privateKey (draft clock args bytes)) now = .ok () := by
  have marked := marked_of_privileged privileged
  simp only [checkHeader, signDraft, draft, ne_eq, own, marked]
  cases expiry : args.expiresAt with
  | none => rfl
  | some expires =>
    simp [(isWithinWindow_until_iff expires now).mpr (current expires expiry)]

/-- Signing fails for a reserved priority, or if the compressor does. -/
theorem exists_signPacket (clock : String) {args : SignPacketArgs}
    (privileged : ¬(args.priority = "P0" ∧ args.emergency = false))
    (deflates : args.compression = some "deflate" →
      ∀ bytes, ∃ compressed, platform.deflate bytes = .ok compressed) :
    ∃ p, platform.signPacket clock args = .ok p := by
  have sealed : ∃ bytes, platform.sealPayload (args.encoding.getD "cbor") args.payload.bytes =
      .ok bytes := by
    rw [sealPayload, serdeCborEnvelope_eq]
    split <;> exact ⟨_, rfl⟩
  rcases sealed with ⟨payloadBytes, sealed⟩
  have compressed : ∃ bytes, platform.compress (args.compression.getD "none") payloadBytes =
      .ok bytes := by
    rw [compress]
    cases compression : args.compression with
    | none => exact ⟨_, rfl⟩
    | some name =>
      rw [getD_some]
      split
      · next isDeflate => exact deflates (isDeflate ▸ compression) payloadBytes
      · exact ⟨_, rfl⟩
  rcases compressed with ⟨finalBytes, compressed⟩
  rw [signPacket, if_neg privileged, sealed]
  simp only [bind, Except.bind, compressed]
  exact ⟨_, rfl⟩

/-- What a signed packet is made of. -/
theorem signPacket_eq_ok {clock : String} {args : SignPacketArgs} {p : Packet}
    (signed : platform.signPacket clock args = .ok p) :
    ¬(args.priority = "P0" ∧ args.emergency = false) ∧
    ∃ payloadBytes finalBytes,
      platform.sealPayload (args.encoding.getD "cbor") args.payload.bytes = .ok payloadBytes ∧
      platform.compress (args.compression.getD "none") payloadBytes = .ok finalBytes ∧
      p = platform.signDraft args.privateKey (draft clock args finalBytes) := by
  rcases ite_eq_ok signed with ⟨privileged, signed⟩
  rcases bind_eq_ok signed with ⟨payloadBytes, sealed, signed⟩
  rcases bind_eq_ok signed with ⟨finalBytes, compressed, signed⟩
  exact ⟨privileged, payloadBytes, finalBytes, sealed, compressed, (ok.inj signed).symm⟩

/-- Verification of a packet just signed comes down to opening the sealed payload. -/
theorem verifyPacket_of_signPacket {clock now : String} {args : SignPacketArgs} {p : Packet}
    (signed : platform.signPacket clock args = .ok p) (own : args.signer = args.source)
    (current : ∀ expires ∈ args.expiresAt, ¬expires < now) :
    ∃ bytes, platform.sealPayload (args.encoding.getD "cbor") args.payload.bytes = .ok bytes ∧
      platform.verifyPacket p (platform.ed25519Public args.privateKey) now =
        platform.openPayload (some (args.encoding.getD "cbor")) bytes := by
  rcases platform.signPacket_eq_ok signed with
    ⟨privileged, payloadBytes, finalBytes, sealed, compressed, rfl⟩
  refine ⟨payloadBytes, sealed, ?_⟩
  have wire : decodeWire (standard.encode finalBytes) = .ok finalBytes := by
    rw [decodeWire, standard.decode_encode]
  rw [verifyPacket, platform.checkHeader_signDraft privileged own current, checkSignature_signDraft]
  simp only [bind, Except.bind, signDraft, draft, wire, platform.decompress_compress compressed]

/-- Signing and verifying gives the payload back exactly for the two encodings that
`verify_packet` knows, whatever the compression is called. -/
theorem verifyPacket_signPacket_iff {clock now : String} {args : SignPacketArgs} {p : Packet}
    (signed : platform.signPacket clock args = .ok p) (own : args.signer = args.source)
    (current : ∀ expires ∈ args.expiresAt, ¬expires < now) :
    platform.verifyPacket p (platform.ed25519Public args.privateKey) now =
        .ok args.payload.bytes ↔
      args.encoding = none ∨ args.encoding = some "cbor" ∨ args.encoding = some "json" := by
  rcases platform.verifyPacket_of_signPacket signed own current with ⟨bytes, sealed, verified⟩
  rw [verified, platform.openPayload_sealPayload sealed]
  cases args.encoding with
  | none | some => simp

end Platform

/-- Compression that puts a mark in front. -/
def transparent : Platform where
  toToolkit := Signing.transparent
  deflate := fun bytes => .ok (1 :: bytes)
  inflate := fun bytes => if bytes.head? = some 1 then some bytes.tail else none
  serdeError := fun _ => "expected value"
  inflate_deflate := by
    intro bytes compressed done
    cases done
    rfl

/-- Arguments for a packet with two bytes. -/
def sampleArgs (encoding : Option String) : SignPacketArgs where
  packetId := "pkt-1"
  source := "tf:actor:device:a"
  destination := "tf:actor:device:b"
  priority := "P2"
  payload := ⟨[1, 2], by decide⟩
  encoding := encoding
  compression := some "deflate"
  emergency := false
  expiresAt := none
  ttlHops := some 3
  routeConstraints := none
  sessionRef := none
  privateKey := Key.filled [7]
  signer := "tf:actor:device:a"
  createdAt := some "2026-01-01T00:00:00Z"

theorem exists_signPacket_sample (encoding : Option String) :
    ∃ p, transparent.signPacket "2026-01-01T00:00:00Z" (sampleArgs encoding) = .ok p :=
  transparent.exists_signPacket _ (by simp [sampleArgs]) fun _ _ => ⟨_, rfl⟩

theorem verifyPacket_signPacket_plain : ∃ p,
    transparent.signPacket "2026-01-01T00:00:00Z" (sampleArgs none) = .ok p ∧
      transparent.verifyPacket p (transparent.ed25519Public (Key.filled [7]))
        "2026-01-02T00:00:00Z" = .ok [1, 2] := by
  rcases exists_signPacket_sample none with ⟨p, signed⟩
  exact ⟨p, signed,
    (transparent.verifyPacket_signPacket_iff signed rfl (by simp [sampleArgs])).mpr (.inl rfl)⟩

/-- An encoding that is signed as JSON under its own name is refused. -/
theorem unknown_encoding_refused : ∃ p,
    transparent.signPacket "2026-01-01T00:00:00Z" (sampleArgs (some "xml")) = .ok p ∧
      transparent.verifyPacket p (transparent.ed25519Public (Key.filled [7]))
        "2026-01-02T00:00:00Z" = .error "unknown encoding xml" := by
  rcases exists_signPacket_sample (some "xml") with ⟨p, signed⟩
  rcases transparent.verifyPacket_of_signPacket signed rfl (by simp [sampleArgs]) with
    ⟨bytes, _, verified⟩
  exact ⟨p, signed, verified.trans (transparent.openPayload_unknown (by decide) (by decide) bytes)⟩

end TrustForge.PacketMode
