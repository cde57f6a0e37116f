import TrustForge.Cbor.Agreement
import TrustForge.PacketMode.Script
import TrustForge.PacketMode.SignVerify

/-!
# Packets across languages

A packet travels as JSON between the two implementations.  Canonical JSON, the envelopes
and base64 agree, so a packet without compression is accepted on the other side with its
payload.  Compressed packets are not: `packet.rs` uses raw DEFLATE, `packet.ts` the zlib
format.
-/

namespace TrustForge.PacketMode

open Cbor.Script Json.Script Result Script Option Except
open Encoding (standard)
open Json (Value F64)
open Session (Key optionalField number32)

/-! ## Crossing -/

section

variable {N M : Type} {F : Type → Type} [Monad F]

def FragmentHeaderOf.traverse (f : N → F M) (header : FragmentHeaderOf N) :
    F (FragmentHeaderOf M) := do
  let index ← f header.index
  let count ← f header.count
  let totalPayloadBytes ← f header.totalPayloadBytes
  pure { fragmentId := header.fragmentId, index, count, totalPayloadBytes
         payloadDigest := header.payloadDigest }

/-- A packet with its numbers read in the other language. -/
def PacketOf.traverse (f : N → F M) (p : PacketOf N) : F (PacketOf M) := do
  let ttlHops ← p.ttlHops.mapM f
  let fragment ← p.fragment.mapM (FragmentHeaderOf.traverse f)
  pure { packetVersion := p.packetVersion, packetId := p.packetId, source := p.source
         destination := p.destination, priority := p.priority, emergency := p.emergency
         createdAt := p.createdAt, expiresAt := p.expiresAt, ttlHops
         routeConstraints := p.routeConstraints, encoding := p.encoding
         compression := p.compression, payload := p.payload, sessionRef := p.sessionRef
         fragment, signature := p.signature }

end

/-- A number of TypeScript read as `u32`. -/
def toU32? (f : F64) : Option UInt32 :=
  (natural? f).bind fun n => if n < 2 ^ 32 then some (.ofNat n) else none

/-- A `u32` read by `JSON.parse`. -/
def ofU32 (n : UInt32) : F64 :=
  ofNatural n.toNat (le_of_lt (lt_trans n.toNat_lt (by decide)))

/-- A TypeScript packet read by `serde_json`, which refuses numbers that are no `u32`. -/
def readInRust (p : Script.Packet) : Option Packet :=
  p.traverse toU32?

/-- A Rust packet read by `JSON.parse`. -/
def readInScript (p : Packet) : Script.Packet :=
  Id.run (p.traverse fun n => pure (ofU32 n))

theorem toU32?_eq_some_iff {f : F64} {n : UInt32} :
    toU32? f = some n ↔ Binary64.Denotes f.bits n.toNat := by
  constructor
  · intro read
    rcases bind_eq_some_iff.mp read with ⟨value, natural, fits⟩
    rcases ite_none_right_eq_some.mp fits with ⟨small, same⟩
    rw [← Option.some.inj same, UInt32.toNat_ofNat_of_lt' small]
    exact denotes_of_natural? natural
  · intro denotes
    rw [toU32?, natural?_of_denotes denotes, bind_some, if_pos n.toNat_lt, UInt32.ofNat_toNat]

theorem toU32?_ofU32 (n : UInt32) : toU32? (ofU32 n) = some n := by
  rw [toU32?, ofU32, natural?_ofNatural, bind_some, if_pos n.toNat_lt, UInt32.ofNat_toNat]

theorem readInRust_readInScript (p : Packet) : readInRust (readInScript p) = some p := by
  rcases p with ⟨_, _, _, _, _, _, _, _, ttlHops, _, _, _, _, _, fragment, _⟩
  cases ttlHops <;> cases fragment <;>
    simp [readInScript, readInRust, PacketOf.traverse, FragmentHeaderOf.traverse, toU32?_ofU32]

variable {p : Script.Packet}

/-- Only the numbers of a packet are read anew. -/
theorem readInRust_fields {q : Packet} (read : readInRust p = some q) :
    q.packetVersion = p.packetVersion ∧ q.source = p.source ∧ q.priority = p.priority ∧
      q.emergency = p.emergency ∧ q.expiresAt = p.expiresAt ∧ q.encoding = p.encoding ∧
      q.compression = p.compression ∧ q.payload = p.payload ∧ q.signature = p.signature := by
  rcases bind_eq_some_iff.mp read with ⟨ttlHops, _, read⟩
  rcases bind_eq_some_iff.mp read with ⟨fragment, _, read⟩
  cases read
  exact ⟨rfl, rfl, rfl, rfl, rfl, rfl, rfl, rfl, rfl⟩

/-! ## The same digest -/

/-- Options read by a fallible function have equal images if the elements do. -/
theorem map_eq_of_mapM {A B C : Type} {f : A → Option B} {g : A → C} {h : B → C}
    {x : Option A} {y : Option B} (read : x.mapM f = some y)
    (same : ∀ a b, f a = some b → g a = h b) : x.map g = y.map h := by
  cases x with
  | none =>
    cases read
    rfl
  | some a =>
    rcases map_eq_some_iff.mp read with ⟨b, value, rfl⟩
    exact congrArg some (same a b value)

theorem map_optionalField {C : Type} (g : Value → C) (key : String) (value : Option Value) :
    (optionalField key value).map (Prod.map id g) = (value.map g).toList.map (key, ·) := by
  cases value <;> rfl

section

variable (engine : Engine)

theorem encode_numberOf {f : F64} {n : UInt32} (read : toU32? f = some n) :
    engine.encode (numberOf f) = engine.toRuntime.encode (number32 n) := by
  rcases bind_eq_some_iff.mp read with ⟨value, natural, fits⟩
  rcases ite_none_right_eq_some.mp fits with ⟨small, same⟩
  cases same
  rw [numberOf, number32, Engine.encode, Json.Runtime.encode,
    engine.encodeNumber_float natural (by omega)]
  simp only [Json.Runtime.numeral]
  rw [UInt32.toNat_ofNat_of_lt' small]

theorem encode_fragment {header : FragmentHeaderOf F64} {header' : FragmentHeaderOf UInt32}
    (read : header.traverse toU32? = some header') :
    engine.encode (header.toValue numberOf) =
      engine.toRuntime.encode (header'.toValue number32) := by
  rcases bind_eq_some_iff.mp read with ⟨index, indexRead, read⟩
  rcases bind_eq_some_iff.mp read with ⟨count, countRead, read⟩
  rcases bind_eq_some_iff.mp read with ⟨total, totalRead, read⟩
  cases read
  apply engine.encode_object_eq
  simp [engine.encode_string, encode_numberOf engine indexRead, encode_numberOf engine countRead,
    encode_numberOf engine totalRead]

theorem encode_strings (texts : List String) :
    engine.encode (Signing.strings texts) = engine.toRuntime.encode (Signing.strings texts) := by
  apply engine.encode_array_eq
  simp only [List.map_map]
  exact List.map_congr_left fun text _ => engine.encode_string text

/-- The signed fields of a packet have one canonical text. -/
theorem encode_signedFields {q : Packet} (read : readInRust p = some q) :
    engine.encode (.object (p.signedFields numberOf)) =
      engine.toRuntime.encode (.object (q.signedFields number32)) := by
  rcases bind_eq_some_iff.mp read with ⟨ttlHops, hopsRead, read⟩
  rcases bind_eq_some_iff.mp read with ⟨fragment, fragmentRead, read⟩
  cases read
  have strings : engine.encode ∘ Value.string = engine.toRuntime.encode ∘ Value.string :=
    funext engine.encode_string
  have bools : engine.encode ∘ Value.bool = engine.toRuntime.encode ∘ Value.bool :=
    funext fun b => by simp [Engine.encode, Json.Runtime.encode]
  have lists : engine.encode ∘ Signing.strings = engine.toRuntime.encode ∘ Signing.strings :=
    funext (encode_strings engine)
  have hops := map_eq_of_mapM hopsRead fun f n read => encode_numberOf engine read
  have fragments := map_eq_of_mapM fragmentRead fun header header' read =>
    encode_fragment engine read
  apply engine.encode_object_eq
  simp only [PacketOf.signedFields, List.map_append, map_optionalField, List.map_cons,
    List.map_nil, Prod.map, map_map, engine.encode_string, strings, bools, lists]
  simp only [Function.comp_def, hops, fragments]

end

/-- A packet with the text of its signature. -/
def PacketOf.stamp {N : Type} (p : PacketOf N) (signature : String) : PacketOf N :=
  { p with signature := { p.signature with signature := signature } }

/-! ## The same envelopes -/

/-- `cbor.ts` writes the envelope of `packet.rs`. -/
theorem encode_rawProperty (payload : Script.Payload) :
    encode (.object [("raw", .uint8Array payload.bytes)]) =
      .ok (cborEnvelope payload.bytes) := by
  have room := payload.fits
  have front : header 5 (.number 1) = .ok [0xa1] := rfl
  have name : encodeString "raw" = .ok [0x63, 0x72, 0x61, 0x77] := rfl
  have length : header 2 (.number payload.bytes.length) =
      .ok (Cbor.putHeader 2 (.ofNat payload.bytes.length)) := by
    rw [header, if_neg (by omega),
      headerBytes_eq_putHeader (by decide) (by unfold maxSafeInteger at room; omega)]
    rfl
  have value : encodeInto 1 (.uint8Array payload.bytes) =
      .ok (Cbor.putHeader 2 (.ofNat payload.bytes.length) ++ payload.bytes) := by
    rw [encodeInto, if_neg (by decide), length]
    rfl
  rw [encode, encodeInto, if_neg (by decide)]
  simp only [List.length_cons, encodeProperties, value, bind, Except.bind, List.append_nil]
  rfl

theorem decode_cborEnvelope_script {raw : Bytes}
    (fits : (cborEnvelope raw).length ≤ maxSafeInteger) :
    decode ⟨cborEnvelope raw, fits⟩ = .ok (.object [("raw", .uint8Array raw)]) := by
  have decoded : Cbor.decode (Cbor.Script.Uint8Array.toSlice ⟨cborEnvelope raw, fits⟩) =
      .ok (.map [(.text "raw", .bytes raw)]) := decode_cborEnvelope raw _
  exact decode_of_rust decoded

theorem canonicalize_jsonEnvelope (engine : Engine) (raw : Bytes) :
    engine.canonicalize (jsonEnvelope raw) = engine.toRuntime.canonicalize (jsonEnvelope raw) := by
  rw [Engine.canonicalize, Json.Runtime.canonicalize]
  refine congrArg String.ofList (engine.encode_object_eq ?_)
  simp [engine.encode_string]

namespace Script.Node

variable (node : Script.Node)

/-- Both languages put a payload into the same envelope. -/
theorem sealPayload_eq (encoding : PacketEncoding) (payload : Script.Payload) :
    node.sealPayload encoding payload.bytes =
      node.toPacketPlatform.sealPayload encoding.text payload.bytes := by
  cases encoding with
  | json =>
    rw [sealPayload, canonicalize_jsonEnvelope, Platform.sealPayload, if_neg (by decide)]
  | cbor =>
    rw [sealPayload, encode_rawProperty, Platform.sealPayload,
      if_pos (show PacketEncoding.cbor.text = "cbor" from rfl), serdeCborEnvelope_eq]
    rfl

/-- The JSON envelope is one property with a string. -/
theorem jsonParse_jsonEnvelope (raw : Bytes) :
    node.jsonParse (node.textDecode (Text.utf8
      (node.toEngine.canonicalize (jsonEnvelope raw)))) = .ok (jsonEnvelope raw) := by
  have key : node.nfc "raw" = "raw" := node.nfc_ascii _ (by decide)
  have value : node.nfc (standard.encode raw) = standard.encode raw :=
    node.nfc_ascii _ (standard.encode_isAscii raw)
  have text : node.toEngine.canonicalize (jsonEnvelope raw) =
      String.ofList ('{' :: (stringify "raw" ++
        ':' :: stringify (standard.encode raw) ++ ['}'])) := by
    rw [Engine.canonicalize, jsonEnvelope, Engine.encode, Engine.encodeEntries,
      Engine.encodeEntries, Engine.encode, key, value]
    rfl
  have noMark : ∀ rest, stripBom (String.ofList ('{' :: rest)) =
      String.ofList ('{' :: rest) := by
    intro rest
    rw [stripBom, String.toList_ofList]
    exact if_neg (by decide)
  rw [text, node.textDecode_utf8, noMark, node.jsonParse_property]
  rfl

/-- TypeScript opens what Rust sealed, whatever the encoding is called. -/
theorem openPayload_sealPayload {encoding : String} {raw bytes : Bytes}
    (short : raw.length + 16 ≤ maxSafeInteger)
    (sealed : node.toPacketPlatform.sealPayload encoding raw = .ok bytes) :
    node.openPayload (some encoding) bytes = .ok raw := by
  rw [Platform.sealPayload, serdeCborEnvelope_eq] at sealed
  by_cases cbor : encoding = "cbor"
  · rw [if_pos cbor] at sealed
    rw [← ok.inj sealed]
    have fits := (length_cborEnvelope_le raw).trans short
    rw [openPayload, if_pos (congrArg some cbor), dif_pos fits, decode_cborEnvelope_script]
    rfl
  · rw [if_neg cbor] at sealed
    rw [← ok.inj sealed]
    have parsed := node.jsonParse_jsonEnvelope raw
    rw [canonicalize_jsonEnvelope] at parsed
    rw [openPayload, if_neg (by simpa using cbor), parsed]
    exact congrArg Except.ok (node.base64Bytes_encode raw)

/-! ## The same signatures -/

variable {q : PacketMode.Packet}

theorem packetSigningBytes_of_read (read : readInRust p = some q) :
    node.packetSigningBytes p = node.toPacketPlatform.packetSigningBytes q := by
  rw [packetSigningBytes, Platform.packetSigningBytes_eq, Engine.canonicalize,
    encode_signedFields node.toEngine read]
  rfl

variable {args : Script.SignPacketArgs}

/-- What a packet signed in TypeScript is made of. -/
theorem signPacket_eq_ok {clock : String} (signed : node.signPacket clock args = .ok p) :
    ¬(args.priority = .p0 ∧ args.emergency ≠ some true) ∧
    ∃ payloadBytes hops secret,
      node.sealPayload (args.encoding.getD .cbor) args.payload.bytes = .ok payloadBytes ∧
      finiteHops args.ttlHops = .ok hops ∧ Key.ofBytes? args.privateKey = some secret ∧
      p = (draft clock args (node.compress (args.compression.getD .none) payloadBytes) hops).stamp
        (node.sign secret (node.packetSigningBytes
          (draft clock args (node.compress (args.compression.getD .none) payloadBytes) hops))) := by
  rcases ite_eq_ok signed with ⟨privileged, signed⟩
  rcases bind_eq_ok signed with ⟨payloadBytes, sealed, signed⟩
  rcases bind_eq_ok signed with ⟨hops, finite, signed⟩
  rcases bind_eq_ok signed with ⟨sig, bySecret, signed⟩
  refine ⟨privileged, payloadBytes, hops, ?_⟩
  rw [ed25519SignScript] at bySecret
  cases key : Key.ofBytes? args.privateKey with
  | none =>
    rw [key] at bySecret
    contradiction
  | some secret =>
    rw [key] at bySecret
    cases bySecret
    exact ⟨secret, sealed, finite, rfl, (ok.inj signed).symm⟩

/-! ## Verification in Rust -/

theorem priority_text_eq_p0_iff (priority : Priority) : priority.text = "P0" ↔ priority = .p0 := by
  cases priority <;> decide

variable {bytes : Bytes}

theorem checkHeader_rust {clock now sig : String} {hops : Option F64}
    (read : readInRust ((draft clock args bytes hops).stamp sig) = some q)
    (privileged : ¬(args.priority = .p0 ∧ args.emergency ≠ some true))
    (own : args.signer = args.source) (current : ∀ expires ∈ truthy args.expiresAt, ¬expires < now) :
    Platform.checkHeader q now = .ok () := by
  rcases readInRust_fields read with
    ⟨version, source, priority, emergency, expires, _, _, _, signature⟩
  have marked : ¬(args.priority.text = "P0" ∧
      (if args.emergency = some true then some true else none) ≠ some true) := by
    rintro ⟨isP0, unmarked⟩
    refine privileged ⟨(priority_text_eq_p0_iff _).mp isP0, fun isEmergency => ?_⟩
    exact unmarked (if_pos isEmergency)
  simp only [Platform.checkHeader, version, source, priority, emergency, expires, signature,
    PacketOf.stamp, draft, ne_eq, own, marked]
  cases expiry : truthy args.expiresAt with
  | none => rfl
  | some limit =>
    simp [(Platform.isWithinWindow_until_iff limit now).mpr (current limit expiry)]

theorem checkSignature_rust {secret : Key}
    (read : readInRust (p.stamp (node.sign secret (node.packetSigningBytes p))) = some q) :
    node.toPacketPlatform.checkSignature q (node.ed25519Public secret) = .ok () := by
  have text : q.signature.signature = node.sign secret (node.packetSigningBytes p) :=
    congrArg (·.signature) (readInRust_fields read).2.2.2.2.2.2.2.2
  have digest : node.toPacketPlatform.packetSigningBytes q = node.packetSigningBytes p :=
    (node.packetSigningBytes_of_read read).symm
  rw [Platform.checkSignature, digest, text]
  exact mapError_eq_ok_iff.mpr (node.verifySignature_sign secret _)

variable {clock now : String}

/-- Verification in Rust comes down to inflating and opening. -/
theorem verifyPacket_rust {secret : Key} (signed : node.signPacket clock args = .ok p)
    (key : args.privateKey = secret.bytes) (own : args.signer = args.source)
    (current : ∀ expires ∈ truthy args.expiresAt, ¬expires < now) (read : readInRust p = some q) :
    ∃ bytes, node.sealPayload (args.encoding.getD .cbor) args.payload.bytes = .ok bytes ∧
      node.toPacketPlatform.verifyPacket q (node.ed25519Public secret) now =
        (node.toPacketPlatform.decompress (some (args.compression.getD .none).text)
          (node.compress (args.compression.getD .none) bytes) >>=
          node.toPacketPlatform.openPayload (some (args.encoding.getD .cbor).text)) := by
  rcases node.signPacket_eq_ok signed with
    ⟨privileged, bytes, hops, secret', sealed, _, ownKey, rfl⟩
  rw [key, Key.ofBytes?_bytes] at ownKey
  cases ownKey
  refine ⟨bytes, sealed, ?_⟩
  rcases readInRust_fields read with ⟨_, _, _, _, _, encoding, compression, payload, _⟩
  have wire : Platform.decodeWire q.payload =
      .ok (node.compress (args.compression.getD .none) bytes) := by
    rw [payload]
    simp only [PacketOf.stamp, draft, Platform.decodeWire, standard.decode_encode]
  rw [Platform.verifyPacket, checkHeader_rust read privileged own current,
    node.checkSignature_rust read, wire, encoding, compression]
  rfl

/-! ## Verification in TypeScript -/

theorem isWithinWindow_until_iff {expires : String} (nonempty : expires ≠ "") (now : String) :
    isWithinWindow { validUntil := some expires } now = true ↔ ¬Less expires now := by
  have stop : truthy (some expires) = some expires := by simp [truthy, nonempty]
  have verdict : checkWindow { validUntil := some expires } now =
      if Less expires now then .expired expires else .ok := by
    show ((truthy (some expires)).bind fun e =>
      if Less e now then some (ExpirationVerdict.expired e) else none).getD .ok = _
    rw [stop, bind_some]
    split <;> rfl
  rw [isWithinWindow, decide_eq_true_iff, verdict]
  split
  · next expired => simp [expired]
  · next inside => simp [inside]

theorem checkHeader_script {platform : Platform} {args : PacketMode.SignPacketArgs}
    (read : readInRust p = some (platform.signDraft args.privateKey
      (Platform.draft clock args bytes)))
    (privileged : ¬(args.priority = "P0" ∧ args.emergency = false))
    (own : args.signer = args.source)
    (current : ∀ expires ∈ truthy args.expiresAt, ¬Less expires now) :
    checkHeader p now = .ok () := by
  rcases readInRust_fields read with
    ⟨version, source, priority, emergency, expires, _, _, _, signature⟩
  have marked := Platform.marked_of_privileged privileged
  simp only [checkHeader, ← version, ← source, ← priority, ← emergency, ← expires, ← signature,
    Platform.signDraft, Platform.draft, ne_eq, own, marked]
  cases expiry : truthy args.expiresAt with
  | none => rfl
  | some limit =>
    have nonempty : limit ≠ "" := by
      simpa using (filter_eq_some_iff.mp expiry).2
    simp [(isWithinWindow_until_iff nonempty now).mpr (current limit expiry)]

theorem checkSignature_script {secret : Key}
    (read : readInRust p = some (node.toPacketPlatform.signDraft secret q)) :
    node.checkSignature p (node.ed25519Public secret).bytes = .ok () := by
  have digest : node.packetSigningBytes p = node.toPacketPlatform.packetSigningBytes q := by
    rw [node.packetSigningBytes_of_read read, Platform.packetSigningBytes_eq,
      Platform.packetSigningBytes_eq]
    rfl
  have text : standard.encode
      (node.ed25519Sign secret (node.toPacketPlatform.packetSigningBytes q)) =
        p.signature.signature :=
    congrArg (·.signature) (readInRust_fields read).2.2.2.2.2.2.2.2
  rw [checkSignature, digest, ← text, node.base64Bytes_encode,
    Session.Platform.ed25519Verify_sign, if_pos rfl]

/-- Verification in TypeScript comes down to inflating and opening. -/
theorem verifyPacket_script {args : PacketMode.SignPacketArgs}
    (signed : node.toPacketPlatform.signPacket clock args = .ok q) (own : args.signer = args.source)
    (current : ∀ expires ∈ truthy args.expiresAt, ¬Less expires now) :
    ∃ bytes compressed,
      node.toPacketPlatform.sealPayload (args.encoding.getD "cbor") args.payload.bytes =
        .ok bytes ∧
      node.toPacketPlatform.compress (args.compression.getD "none") bytes = .ok compressed ∧
      node.verifyPacket (readInScript q) (node.ed25519Public args.privateKey).bytes now =
        (node.decompress (some (args.compression.getD "none")) compressed >>= fun inflated =>
          (node.openPayload (some (args.encoding.getD "cbor")) inflated).mapError fun message =>
            .rejected s!"payload decode failed: {message}") := by
  rcases node.toPacketPlatform.signPacket_eq_ok signed with
    ⟨privileged, bytes, compressed, sealed, done, rfl⟩
  refine ⟨bytes, compressed, sealed, done, ?_⟩
  have read := readInRust_readInScript (node.toPacketPlatform.signDraft args.privateKey
    (Platform.draft clock args compressed))
  generalize readInScript (node.toPacketPlatform.signDraft args.privateKey
    (Platform.draft clock args compressed)) = p at read
  rcases readInRust_fields read with ⟨_, _, _, _, _, encoding, compression, payload, _⟩
  have wire : node.base64Bytes p.payload = compressed := by
    rw [← payload]
    exact node.base64Bytes_encode compressed
  rw [verifyPacket, checkHeader_script read privileged own current,
    node.checkSignature_script read, wire, ← encoding, ← compression]
  rfl

/-! ## Interoperation -/

/-- A signed packet can be read in Rust if its number of hops is a `u32`. -/
theorem exists_readInRust_iff {clock sig : String} {hops : Option F64}
    (finite : finiteHops args.ttlHops = .ok hops) :
    (∃ q, readInRust ((draft clock args bytes hops).stamp sig) = some q) ↔
      ∀ n ∈ args.ttlHops, ∃ k : UInt32, Binary64.Denotes n.bits k.toNat := by
  cases given : args.ttlHops with
  | none =>
    rw [given] at finite
    cases finite
    exact iff_of_true ⟨_, rfl⟩ (by simp)
  | some n =>
    rw [given, finiteHops] at finite
    split at finite
    · next isFinite =>
      cases finite
      have number : ∀ k, toU32? ⟨n.bits, isFinite⟩ = some k ↔
          Binary64.Denotes n.bits k.toNat := fun k => toU32?_eq_some_iff
      simp only [mem_some_iff, forall_eq', ← number]
      constructor
      · rintro ⟨q, read⟩
        rcases bind_eq_some_iff.mp read with ⟨ttlHops, hopsRead, _⟩
        rcases map_eq_some_iff.mp hopsRead with ⟨k, value, _⟩
        exact ⟨k, value⟩
      · rintro ⟨k, value⟩
        have hopsRead : (some (⟨n.bits, isFinite⟩ : F64)).mapM toU32? = some (some k) :=
          map_eq_some_iff.mpr ⟨k, value, rfl⟩
        exact ⟨_, bind_eq_some_iff.mpr ⟨_, hopsRead, rfl⟩⟩
    · contradiction

/-- Rust inflates what `deflateSync` wrote, to an envelope of the payload. -/
def RustInflates (encoding : PacketEncoding) (payload : Bytes) : Prop :=
  ∃ bytes inflated, node.sealPayload encoding payload = .ok bytes ∧
    node.inflate (node.deflateSync bytes) = some inflated ∧
    node.toPacketPlatform.openPayload (some encoding.text) inflated = .ok payload

/-- `inflateSync` inflates what Rust wrote, to an envelope of the payload. -/
def ScriptInflates (encoding : String) (payload : Bytes) : Prop :=
  ∃ bytes compressed inflated, node.toPacketPlatform.sealPayload encoding payload = .ok bytes ∧
    node.deflate bytes = .ok compressed ∧ node.inflateSync compressed = .ok inflated ∧
    node.openPayload (some encoding) inflated = .ok payload

theorem openPayload_rust {encoding : PacketEncoding} {payload : Script.Payload}
    (sealed : node.sealPayload encoding payload.bytes = .ok bytes) :
    node.toPacketPlatform.openPayload (some encoding.text) bytes = .ok payload.bytes := by
  have room : payload.bytes.length + 16 < 2 ^ 63 := lt_of_le_of_lt payload.fits (by decide)
  rw [node.sealPayload_eq] at sealed
  refine (@Platform.openPayload_sealPayload node.toPacketPlatform encoding.text
    ⟨payload.bytes, room⟩ bytes sealed).mpr ?_
  cases encoding with
  | json => exact .inr rfl
  | cbor => exact .inl rfl

theorem rust_opens_iff {encoding : PacketEncoding} {compression : Compression}
    {payload : Script.Payload} (sealed : node.sealPayload encoding payload.bytes = .ok bytes) :
    (node.toPacketPlatform.decompress (some compression.text) (node.compress compression bytes) >>=
        node.toPacketPlatform.openPayload (some encoding.text)) = .ok payload.bytes ↔
      (compression = .deflate → node.RustInflates encoding payload.bytes) := by
  cases compression with
  | none => exact iff_of_true (node.openPayload_rust sealed) (by simp)
  | deflate =>
    have inflates (out : Bytes) : node.toPacketPlatform.decompress
        (some Compression.deflate.text) (node.compress .deflate bytes) = .ok out ↔
          node.inflate (node.deflateSync bytes) = some out :=
      Platform.decompress_deflate_eq_ok_iff _
    simp [bind_eq_ok_iff, inflates, RustInflates, sealed]

theorem script_opens_iff {encoding compression : String} {payload bytes compressed : Bytes}
    (short : payload.length + 16 ≤ maxSafeInteger)
    (sealed : node.toPacketPlatform.sealPayload encoding payload = .ok bytes)
    (done : node.toPacketPlatform.compress compression bytes = .ok compressed) :
    (node.decompress (some compression) compressed >>= fun inflated =>
        (node.openPayload (some encoding) inflated).mapError fun message =>
          .rejected s!"payload decode failed: {message}") = .ok payload ↔
      (compression = "deflate" → node.ScriptInflates encoding payload) := by
  rw [Platform.compress] at done
  by_cases deflate : compression = "deflate"
  · rw [if_pos deflate] at done
    rw [decompress, if_pos (congrArg some deflate), forall_prop_of_true deflate]
    simp [bind_eq_ok_iff, mapError_eq_ok_iff, ScriptInflates, sealed, done]
  · rw [if_neg deflate] at done
    cases done
    rw [decompress, if_neg (by simpa using deflate)]
    refine iff_of_true ?_ fun isDeflate => absurd isDeflate deflate
    exact mapError_eq_ok_iff.mpr (node.openPayload_sealPayload short sealed)

/-- Packets are accepted in the other language with their payload exactly if they can be
read there and, when they are compressed, the other decompressor happens to take the
format. -/
theorem interoperates_iff :
    (∀ (clock now : String) (args : Script.SignPacketArgs) (p : Script.Packet) (secret : Key),
      node.signPacket clock args = .ok p → args.privateKey = secret.bytes →
      args.signer = args.source → (∀ expires ∈ truthy args.expiresAt, ¬expires < now) →
      ((∃ q, readInRust p = some q ∧
          node.toPacketPlatform.verifyPacket q (node.ed25519Public secret) now =
            .ok args.payload.bytes) ↔
        (∀ hops ∈ args.ttlHops, ∃ n : UInt32, Binary64.Denotes hops.bits n.toNat) ∧
        (args.compression = some .deflate →
          node.RustInflates (args.encoding.getD .cbor) args.payload.bytes))) ∧
    ∀ (clock now : String) (args : PacketMode.SignPacketArgs) (q : PacketMode.Packet),
      node.toPacketPlatform.signPacket clock args = .ok q → args.signer = args.source →
      (∀ expires ∈ truthy args.expiresAt, ¬Less expires now) →
      args.payload.bytes.length + 16 ≤ maxSafeInteger →
      (node.verifyPacket (readInScript q) (node.ed25519Public args.privateKey).bytes now =
          .ok args.payload.bytes ↔
        (args.compression = some "deflate" →
          node.ScriptInflates (args.encoding.getD "cbor") args.payload.bytes)) := by
  constructor
  · intro clock now args p secret signed key own current
    have named : args.compression = some .deflate ↔ args.compression.getD .none = .deflate := by
      cases args.compression <;> simp
    rw [named]
    have readable : (∃ q, readInRust p = some q) ↔
        ∀ hops ∈ args.ttlHops, ∃ n : UInt32, Binary64.Denotes hops.bits n.toNat := by
      rcases node.signPacket_eq_ok signed with ⟨_, _, hops, _, _, finite, _, rfl⟩
      exact exists_readInRust_iff finite
    rw [← readable]
    constructor
    · rintro ⟨q, read, accepted⟩
      rcases node.verifyPacket_rust signed key own current read with ⟨bytes, sealed, verified⟩
      exact ⟨⟨q, read⟩, (node.rust_opens_iff sealed).mp (verified.symm.trans accepted)⟩
    · rintro ⟨⟨q, read⟩, inflates⟩
      rcases node.verifyPacket_rust signed key own current read with ⟨bytes, sealed, verified⟩
      exact ⟨q, read, verified.trans ((node.rust_opens_iff sealed).mpr inflates)⟩
  · intro clock now args q signed own current short
    have named : args.compression = some "deflate" ↔
        args.compression.getD "none" = "deflate" := by
      cases args.compression <;> simp
    rcases node.verifyPacket_script signed own current with
      ⟨bytes, compressed, sealed, done, verified⟩
    rw [verified, named]
    exact node.script_opens_iff short sealed done

/-- Signing in TypeScript fails for a reserved priority, a number of hops that is not finite
or a key of the wrong length. -/
theorem exists_signPacket (clock : String) {args : Script.SignPacketArgs} {hops : Option F64}
    {secret : Key} (privileged : ¬(args.priority = .p0 ∧ args.emergency ≠ some true))
    (finite : finiteHops args.ttlHops = .ok hops) (key : args.privateKey = secret.bytes) :
    ∃ p, node.signPacket clock args = .ok p := by
  have sealed : ∃ bytes, node.sealPayload (args.encoding.getD .cbor) args.payload.bytes =
      .ok bytes := by
    rw [node.sealPayload_eq, Platform.sealPayload, serdeCborEnvelope_eq]
    split <;> exact ⟨_, rfl⟩
  rcases sealed with ⟨bytes, sealed⟩
  rw [signPacket, if_neg privileged, sealed]
  simp only [finite, signDraft, ed25519SignScript, key, Key.ofBytes?_bytes]
  exact ⟨_, rfl⟩

end Script.Node

/-! ## A transparent runtime -/

/-- One string property is read back by `serde_json`. -/
theorem fromSlice_property (key s : String) :
    Json.fromSlice transparent.readF64 (Text.utf8 (String.ofList
      ('{' :: (stringify key ++ ':' :: stringify s ++ ['}'])))) =
      some (.object [(key, .string s)]) := by
  have text : String.ofList
      ('{' :: (stringify key ++ ':' :: stringify s ++ ['}'])) =
        transparent.canonicalize (.object [(key, .string s)]) := by
    rw [stringify_eq_writeJsonString, stringify_eq_writeJsonString,
      Json.Runtime.canonicalize, Json.Runtime.encode, Json.Runtime.encodeEntries,
      Json.Runtime.encodeEntries, Json.Runtime.encode]
    rfl
  rw [text, Json.Runtime.fromSlice_canonicalize, Json.Runtime.reread, if_neg (by decide)]
  rfl

/-- The transparent primitives, with the zlib header for a mark. -/
def marked : Script.Node where
  toPacketPlatform := transparent
  stringOfNumber := fun f => (transparent.displayF64 f).text
  deflateSync := fun bytes => 0x78 :: 0x9c :: bytes
  inflateSync := fun bytes =>
    if bytes.take 2 = [0x78, 0x9c] then .ok (bytes.drop 2) else .error "incorrect header check"
  base64Bytes := fun s => (standard.decode (Text.utf8 s)).toOption.getD []
  bufferFrom := fun _ => .ok []
  textDecode := fun bytes => ((Text.ofUtf8? bytes).map stripBom).getD ""
  jsonParse := fun text =>
    match Json.fromSlice transparent.readF64 (Text.utf8 text) with
    | some v => .ok v
    | none => .error "Unexpected token"
  newUint8Array := fun _ => .ok []
  nullProperty := "Cannot read properties of null"
  inflateSync_deflateSync := fun _ => rfl
  base64Bytes_encode := Encoding.Engine.getD_decode_encode_standard
  textDecode_utf8 := by
    intro s
    rw [Text.ofUtf8?_utf8]
    rfl
  jsonParse_property := by
    intro key s
    rw [fromSlice_property]

variable (compression : Option Script.Compression)

/-- Arguments for a packet with two bytes, in TypeScript. -/
def scriptArgs : Script.SignPacketArgs where
  packetId := "pkt-1"
  source := "tf:actor:device:a"
  destination := "tf:actor:device:b"
  priority := .p2
  payload := ⟨[1, 2], by decide⟩
  encoding := some .json
  compression := compression
  emergency := none
  expiresAt := none
  ttlHops := some (.ofInt 3)
  routeConstraints := none
  sessionRef := none
  privateKey := (Key.filled [7]).bytes
  signer := "tf:actor:device:a"
  createdAt := some "2026-01-01T00:00:00Z"

theorem exists_signPacket_script :
    ∃ p, marked.signPacket "2026-01-01T00:00:00Z" (scriptArgs compression) = .ok p := by
  have finite : finiteHops (scriptArgs compression).ttlHops =
      .ok (some (ofNatural 3 (by decide))) := rfl
  exact marked.exists_signPacket _ (by simp [scriptArgs]) finite rfl

theorem hops_scriptArgs :
    ∀ hops ∈ (scriptArgs compression).ttlHops,
      ∃ n : UInt32, Binary64.Denotes hops.bits n.toNat := by
  rintro hops ⟨⟩
  exact ⟨3, Binary64.denotes_ofInt (by decide)⟩

/-- The sample arguments without compression. -/
def plainArgs : SignPacketArgs :=
  { sampleArgs (some "json") with compression := none }

/-- Without compression both directions work. -/
theorem interoperates_plain :
    (∃ p q, marked.signPacket "2026-01-01T00:00:00Z" (scriptArgs none) = .ok p ∧
      readInRust p = some q ∧
      transparent.verifyPacket q (transparent.ed25519Public (Key.filled [7]))
        "2026-01-02T00:00:00Z" = .ok [1, 2]) ∧
    ∃ q, transparent.signPacket "2026-01-01T00:00:00Z" plainArgs = .ok q ∧
      marked.verifyPacket (readInScript q) (transparent.ed25519Public (Key.filled [7])).bytes
        "2026-01-02T00:00:00Z" = .ok [1, 2] := by
  constructor
  · rcases exists_signPacket_script none with ⟨p, signed⟩
    rcases (marked.interoperates_iff.1 _ "2026-01-02T00:00:00Z" _ p (Key.filled [7]) signed rfl rfl
      (by simp [scriptArgs, truthy])).mpr ⟨hops_scriptArgs none, by simp [scriptArgs]⟩ with
      ⟨q, read, accepted⟩
    exact ⟨p, q, signed, read, accepted⟩
  · have signed : ∃ q, transparent.signPacket "2026-01-01T00:00:00Z" plainArgs = .ok q :=
      transparent.exists_signPacket _ (by simp [plainArgs, sampleArgs]) (by simp [plainArgs])
    rcases signed with ⟨q, signed⟩
    exact ⟨q, signed, (marked.interoperates_iff.2 _ "2026-01-02T00:00:00Z" _ q signed rfl
      (by simp [plainArgs, sampleArgs, truthy]) (by decide)).mpr (by simp [plainArgs])⟩

/-- A compressed packet is refused in Rust, and makes `verifyPacket` throw in TypeScript. -/
theorem compressed_packets_refused :
    (∃ p q, marked.signPacket "2026-01-01T00:00:00Z" (scriptArgs (some .deflate)) = .ok p ∧
      readInRust p = some q ∧
      transparent.verifyPacket q (transparent.ed25519Public (Key.filled [7]))
        "2026-01-02T00:00:00Z" = .error "deflate inflate failed") ∧
    ∃ q, transparent.signPacket "2026-01-01T00:00:00Z" (sampleArgs (some "json")) = .ok q ∧
      marked.verifyPacket (readInScript q) (transparent.ed25519Public (Key.filled [7])).bytes
        "2026-01-02T00:00:00Z" = .error (.thrown "incorrect header check") := by
  constructor
  · rcases exists_signPacket_script (some .deflate) with ⟨p, signed⟩
    have readable : ∃ q, readInRust p = some q := by
      rcases marked.signPacket_eq_ok signed with ⟨_, _, hops, _, _, finite, _, rfl⟩
      exact (Script.Node.exists_readInRust_iff finite).mpr (hops_scriptArgs _)
    rcases readable with ⟨q, read⟩
    rcases marked.verifyPacket_rust signed rfl rfl (by simp [scriptArgs, truthy]) read with
      ⟨bytes, _, verified⟩
    exact ⟨p, q, signed, read, verified⟩
  · rcases exists_signPacket_sample (some "json") with ⟨q, signed⟩
    rcases marked.verifyPacket_script signed rfl (by simp [sampleArgs, truthy]) with
      ⟨bytes, compressed, _, done, verified⟩
    cases done
    exact ⟨q, signed, verified⟩

end TrustForge.PacketMode
