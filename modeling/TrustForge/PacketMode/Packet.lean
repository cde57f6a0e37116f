import TrustForge.Cbor.RoundTrip
import TrustForge.Signing

/-!
# Packets

Model of `packet.rs`: the packet and its JSON form, signing and verification.  The
payload is put into an envelope (CBOR or canonical JSON), optionally compressed, and
written as base64.
-/

namespace TrustForge.PacketMode

open Encoding (standard)
open Json (Value)
open Session (Key optionalField number32)
open Signing (SignatureEnvelope strings withoutSignature)

/-! ## Validity windows -/

/-- `Window` of `expiration.rs`. -/
structure Window where
  validFrom : Option String := none
  validUntil : Option String := none
  expiresAt : Option String := none
  notBefore : Option String := none
  notAfter : Option String := none

inductive ExpirationVerdict where
  | ok
  | notYetValid (threshold : String)
  | expired (threshold : String)
  deriving DecidableEq

def checkWindow (window : Window) (now : String) : ExpirationVerdict :=
  let start := window.validFrom <|> window.notBefore
  let stop := window.validUntil <|> window.expiresAt <|> window.notAfter
  let early := start.bind fun s => if now < s then some (.notYetValid s) else none
  let late := stop.bind fun e => if e < now then some (.expired e) else none
  (early <|> late).getD .ok

def isWithinWindow (window : Window) (now : String) : Bool :=
  checkWindow window now = .ok

/-! ## Packets -/

/-- `PacketFragmentHeader`, for the numbers of one language. -/
structure FragmentHeaderOf (N : Type) where
  fragmentId : String
  index : N
  count : N
  totalPayloadBytes : N
  payloadDigest : String

/-- `Packet`, for the numbers of one language. -/
structure PacketOf (N : Type) where
  packetVersion : String
  packetId : String
  source : String
  destination : String
  priority : String
  emergency : Option Bool
  createdAt : String
  expiresAt : Option String
  ttlHops : Option N
  routeConstraints : Option (List String)
  encoding : Option String
  compression : Option String
  payload : String
  sessionRef : Option String
  fragment : Option (FragmentHeaderOf N)
  signature : SignatureEnvelope

/-- A packet in Rust, where numbers are `u32`. -/
abbrev Packet := PacketOf UInt32

section

variable {N : Type} (number : N → Value)

def FragmentHeaderOf.toValue (header : FragmentHeaderOf N) : Value :=
  .object [("fragment_id", .string header.fragmentId), ("index", number header.index),
    ("count", number header.count), ("total_payload_bytes", number header.totalPayloadBytes),
    ("payload_digest", .string header.payloadDigest)]

/-- The fields that a signature covers. -/
def PacketOf.signedFields (p : PacketOf N) : List (String × Value) :=
  [("packet_version", .string p.packetVersion), ("packet_id", .string p.packetId),
    ("source", .string p.source), ("destination", .string p.destination),
    ("priority", .string p.priority)] ++
  optionalField "emergency" (p.emergency.map .bool) ++
  [("created_at", .string p.createdAt)] ++
  optionalField "expires_at" (p.expiresAt.map .string) ++
  optionalField "ttl_hops" (p.ttlHops.map number) ++
  optionalField "route_constraints" (p.routeConstraints.map strings) ++
  optionalField "encoding" (p.encoding.map .string) ++
  optionalField "compression" (p.compression.map .string) ++
  [("payload", .string p.payload)] ++
  optionalField "session_ref" (p.sessionRef.map .string) ++
  optionalField "fragment" (p.fragment.map (FragmentHeaderOf.toValue number))

def PacketOf.toValue (p : PacketOf N) : Value :=
  .object (p.signedFields number ++ [("signature", p.signature.toValue)])

end

/-- The primitives, with what packets take from `flate2` and `serde_json`. -/
structure Platform extends Signing.Toolkit where
  /-- `DeflateEncoder`, with the text of its error. -/
  deflate : Bytes → Except String Bytes
  /-- `DeflateDecoder`. -/
  inflate : Bytes → Option Bytes
  /-- The text of the error for bytes that `serde_json` refuses. -/
  serdeError : Bytes → String
  inflate_deflate : ∀ bytes compressed, deflate bytes = .ok compressed →
    inflate compressed = some bytes

/-! ## Payload envelopes -/

def serdeCborEnvelope (raw : Bytes) : Except Cbor.CborError Bytes :=
  Cbor.encode (.map [(.text "raw", .bytes raw)])

/-- The entry that `decode_cbor_envelope` looks for. -/
def rawBytes : Cbor.Value × Cbor.Value → Option Bytes
  | (.text name, .bytes b) => if name = "raw" then some b else none
  | _ => none

/-- `decode_cbor_envelope`.  A `Vec` is never longer than a slice. -/
def decodeCborEnvelope (bytes : Bytes) : Except String Bytes :=
  if fits : bytes.length < 2 ^ 63 then
    match Cbor.decode ⟨bytes, fits⟩ with
    | .error e =>
      let text := e.text
      .error s!"cbor: {text}"
    | .ok (.map entries) =>
      match entries.findSome? rawBytes with
      | some b => .ok b
      | none => .error "cbor envelope missing raw"
    | .ok _ => .error "cbor envelope not a map"
  else .error "capacity overflow"

/-- The JSON envelope of a payload. -/
def jsonEnvelope (raw : Bytes) : Value :=
  .object [("raw", .string (standard.encode raw))]

namespace Platform

variable (platform : Platform)

/-- The JSON branch of `verify_packet`. -/
def decodeJsonEnvelope (bytes : Bytes) : Except String Bytes :=
  match Json.fromSlice platform.readF64 bytes with
  | none =>
    let text := platform.serdeError bytes
    .error s!"json decode: {text}"
  | some v =>
    match (v.get? "raw").bind Value.asStr with
    | none => .error "json envelope missing raw"
    | some b64 =>
      match standard.decode (Text.utf8 b64) with
      | .ok b => .ok b
      | .error _ => .error "payload base64 inner"

/-! ## Signing -/

def packetSigningBytes (p : Packet) : Bytes :=
  platform.signingBytes (p.toValue number32)

end Platform

/-- A payload that fits into a `Vec` together with its envelope. -/
structure Payload where
  bytes : Bytes
  fits : bytes.length + 16 < 2 ^ 63

structure SignPacketArgs where
  packetId : String
  source : String
  destination : String
  priority : String
  payload : Payload
  encoding : Option String
  compression : Option String
  emergency : Bool
  expiresAt : Option String
  ttlHops : Option UInt32
  routeConstraints : Option (List String)
  sessionRef : Option String
  privateKey : Key
  signer : String
  createdAt : Option String

namespace Platform

variable (platform : Platform)

/-- The payload in its envelope.  The `expect` of the CBOR branch is an error here. -/
def sealPayload (encoding : String) (payload : Bytes) : Except String Bytes :=
  if encoding = "cbor" then
    match serdeCborEnvelope payload with
    | .ok bytes => .ok bytes
    | .error _ => .error "cbor encode"
  else .ok (Text.utf8 (platform.canonicalize (jsonEnvelope payload)))

def compress (compression : String) (bytes : Bytes) : Except String Bytes :=
  if compression = "deflate" then platform.deflate bytes else .ok bytes

/-- The packet before it is signed.  The clock is read for a missing creation time. -/
def draft (clock : String) (args : SignPacketArgs) (finalBytes : Bytes) : Packet where
  packetVersion := "1"
  packetId := args.packetId
  source := args.source
  destination := args.destination
  priority := args.priority
  emergency := if args.emergency then some true else none
  createdAt := args.createdAt.getD clock
  expiresAt := args.expiresAt
  ttlHops := args.ttlHops
  routeConstraints := args.routeConstraints.filter (!·.isEmpty)
  encoding := some (args.encoding.getD "cbor")
  compression := some (args.compression.getD "none")
  payload := standard.encode finalBytes
  sessionRef := args.sessionRef
  fragment := none
  signature := { algorithm := "ed25519", signer := args.signer, signature := "" }

/-- Put the signature into the envelope. -/
def signDraft (secret : Key) (p : Packet) : Packet :=
  { p with signature :=
      { p.signature with signature := platform.sign secret (platform.packetSigningBytes p) } }

def signPacket (clock : String) (args : SignPacketArgs) : Except String Packet :=
  if args.priority = "P0" ∧ args.emergency = false then
    .error "P0 priority is reserved for emergency packets"
  else do
    let payloadBytes ← platform.sealPayload (args.encoding.getD "cbor") args.payload.bytes
    let finalBytes ← platform.compress (args.compression.getD "none") payloadBytes
    .ok (platform.signDraft args.privateKey (draft clock args finalBytes))

/-! ## Verification -/

/-- The checks of `verify_packet` before it looks at the signature. -/
def checkHeader (packet : Packet) (now : String) : Except String Unit :=
  if packet.packetVersion ≠ "1" then
    let version := packet.packetVersion
    .error s!"unsupported packet_version {version}"
  else if packet.signature.signer ≠ packet.source then
    .error "signature signer does not match source"
  else if packet.priority = "P0" ∧ packet.emergency ≠ some true then
    .error "P0 reserved for emergency packets"
  else
    match packet.expiresAt with
    | none => .ok ()
    | some expires =>
      if isWithinWindow { validUntil := some expires } now then .ok ()
      else .error "packet expired"

def decompress (compression : Option String) (wire : Bytes) : Except String Bytes :=
  if compression = some "deflate" then
    match platform.inflate wire with
    | some out => .ok out
    | none => .error "deflate inflate failed"
  else .ok wire

def openPayload (encoding : Option String) (bytes : Bytes) : Except String Bytes :=
  match encoding with
  | none => platform.decodeJsonEnvelope bytes
  | some "json" => platform.decodeJsonEnvelope bytes
  | some "cbor" =>
    match decodeCborEnvelope bytes with
    | .ok b => .ok b
    | .error e => .error s!"cbor decode: {e}"
  | some other => .error s!"unknown encoding {other}"

/-- The base64 text of the payload. -/
def decodeWire (payload : String) : Except String Bytes :=
  match standard.decode (Text.utf8 payload) with
  | .ok wire => .ok wire
  | .error e =>
    let text := e.text
    .error s!"payload base64: {text}"

def checkSignature (packet : Packet) (publicKey : Key) : Except String Unit :=
  (platform.verifySignature publicKey (platform.packetSigningBytes packet)
    packet.signature.signature).mapError
      (platform.faultText "signature base64 decode" "signature verification failed")

/-- `verify_packet`.  A rejection is an error with its reason. -/
def verifyPacket (packet : Packet) (publicKey : Key) (now : String) : Except String Bytes := do
  checkHeader packet now
  platform.checkSignature packet publicKey
  let wire ← decodeWire packet.payload
  let decompressed ← platform.decompress packet.compression wire
  platform.openPayload packet.encoding decompressed

end Platform

end TrustForge.PacketMode
