import TrustForge.Cbor.ScriptEncode
import TrustForge.Json.Script
import TrustForge.PacketMode.Packet

/-!
# Packets in TypeScript

Model of `packet.ts`, with what it uses of `expiration.ts` and `crypto.ts`.  What Node
provides (zlib, base64, text decoding, JSON parsing) is a parameter with its documented
behaviour.  Strings are well-formed Unicode: a packet with a lone surrogate has no
counterpart in Rust.
-/

namespace TrustForge.PacketMode.Script

open Cbor.Script (JsNumber JsValue Thrown maxSafeInteger stripBom)
open Encoding (standard)
open Json (Value F64)
open Json.Script (stringify)
open Session (Key)

/-- What `packet.ts` takes from Node, next to the primitives that both languages share. -/
structure Node extends toPacketPlatform : Platform, Json.Script.Engine where
  /-- `deflateSync`, which writes the zlib format. -/
  deflateSync : Bytes → Bytes
  /-- `inflateSync`, with the message it throws. -/
  inflateSync : Bytes → Except String Bytes
  /-- `Buffer.from(s, "base64")`. -/
  base64Bytes : String → Bytes
  /-- `Buffer.from(x, "base64")` for what is no string, or is missing. -/
  bufferFrom : Option Value → Except String Bytes
  /-- `new TextDecoder().decode(bytes)`. -/
  textDecode : Bytes → String
  /-- `JSON.parse`. -/
  jsonParse : String → Except String Value
  /-- `new Uint8Array(x)` for what is no byte array, or is missing. -/
  newUint8Array : Option JsValue → Except String Bytes
  /-- The message for a property of `null`. -/
  nullProperty : String
  inflateSync_deflateSync : ∀ bytes, inflateSync (deflateSync bytes) = .ok bytes
  base64Bytes_encode : ∀ bytes, base64Bytes (standard.encode bytes) = bytes
  textDecode_utf8 : ∀ s, textDecode (Text.utf8 s) = stripBom s
  jsonParse_property : ∀ key s,
    jsonParse (String.ofList ('{' :: (stringify key ++ ':' :: stringify s ++ ['}']))) =
      .ok (.object [(key, .string s)])

/-! ## Packets -/

/-- A packet in TypeScript, where numbers are finite once they are canonicalised. -/
abbrev Packet := PacketOf F64

def numberOf (n : F64) : Value :=
  .number (.float n)

inductive Priority where
  | p0 | p1 | p2 | p3 | p4 | p5
  deriving DecidableEq

def Priority.text : Priority → String
  | .p0 => "P0"
  | .p1 => "P1"
  | .p2 => "P2"
  | .p3 => "P3"
  | .p4 => "P4"
  | .p5 => "P5"

inductive PacketEncoding where
  | json
  | cbor

def PacketEncoding.text : PacketEncoding → String
  | .json => "json"
  | .cbor => "cbor"

inductive Compression where
  | none
  | deflate

def Compression.text : Compression → String
  | .none => "none"
  | .deflate => "deflate"

/-- A payload that fits into a `Uint8Array` together with its envelope. -/
structure Payload where
  bytes : Bytes
  fits : bytes.length + 16 ≤ maxSafeInteger

structure SignPacketArgs where
  packetId : String
  source : String
  destination : String
  priority : Priority
  payload : Payload
  encoding : Option PacketEncoding
  compression : Option Compression
  emergency : Option Bool
  expiresAt : Option String
  ttlHops : Option JsNumber
  routeConstraints : Option (List String)
  sessionRef : Option String
  privateKey : Bytes
  signer : String
  createdAt : Option String

/-! ## Validity windows -/

/-- The UTF-16 code units of a string. -/
def utf16 (s : String) : List Nat :=
  s.toList.flatMap fun c =>
    if c.toNat < 0x10000 then [c.toNat]
    else [0xd800 + (c.toNat - 0x10000) / 0x400, 0xdc00 + (c.toNat - 0x10000) % 0x400]

/-- `s < t` for strings. -/
def Less (s t : String) : Prop :=
  utf16 s < utf16 t

instance (s t : String) : Decidable (Less s t) :=
  inferInstanceAs (Decidable (utf16 s < utf16 t))

/-- An optional string that is not empty. -/
def truthy (s : Option String) : Option String :=
  s.filter (· ≠ "")

def checkWindow (window : Window) (now : String) : ExpirationVerdict :=
  let start := truthy (window.validFrom <|> window.notBefore)
  let stop := truthy (window.validUntil <|> window.expiresAt <|> window.notAfter)
  let early := start.bind fun s => if Less now s then some (.notYetValid s) else none
  let late := stop.bind fun e => if Less e now then some (.expired e) else none
  (early <|> late).getD .ok

def isWithinWindow (window : Window) (now : String) : Bool :=
  checkWindow window now = .ok

/-! ## Signing -/

def thrownMessage : Thrown → String
  | .cborError message => message
  | .outOfFuel => ""

/-- `String(n)` for a number that is not finite. -/
def nonFiniteText (n : JsNumber) : String :=
  if Binary64.isNan n.bits then "NaN"
  else if Binary64.negative n.bits then "-Infinity"
  else "Infinity"

/-- The number of hops as it is canonicalised, which throws unless it is finite. -/
def finiteHops : Option JsNumber → Except String (Option F64)
  | none => .ok none
  | some n =>
    if finite : Binary64.exponent n.bits ≠ 2047 then .ok (some ⟨n.bits, finite⟩)
    else
      let text := nonFiniteText n
      .error s!"cannot canonicalize non-finite number: {text}"

/-- The packet before it is signed. -/
def draft (clock : String) (args : SignPacketArgs) (finalBytes : Bytes) (hops : Option F64) :
    Packet where
  packetVersion := "1"
  packetId := args.packetId
  source := args.source
  destination := args.destination
  priority := args.priority.text
  emergency := if args.emergency = some true then some true else none
  createdAt := args.createdAt.getD clock
  expiresAt := truthy args.expiresAt
  ttlHops := hops
  routeConstraints := args.routeConstraints.filter fun constraints => 0 < constraints.length
  encoding := some (args.encoding.getD .cbor).text
  compression := some (args.compression.getD .none).text
  payload := standard.encode finalBytes
  sessionRef := truthy args.sessionRef
  fragment := none
  signature := { algorithm := "ed25519", signer := args.signer, signature := "" }

namespace Node

variable (node : Node)

def packetSigningBytes (p : Packet) : Bytes :=
  node.sha256 (Text.utf8 (node.toEngine.canonicalize (.object (p.signedFields numberOf))))

/-- `ed25519Sign`. -/
def ed25519SignScript (message privateKey : Bytes) : Except String Bytes :=
  match Key.ofBytes? privateKey with
  | some secret => .ok (node.ed25519Sign secret message)
  | none =>
    let length := privateKey.length
    .error s!"ed25519 private key must be 32 bytes, got {length}"

/-- The payload in its envelope. -/
def sealPayload (encoding : PacketEncoding) (payload : Bytes) : Except String Bytes :=
  match encoding with
  | .cbor => (Cbor.Script.encode (.object [("raw", .uint8Array payload)])).mapError thrownMessage
  | .json => .ok (Text.utf8 (node.toEngine.canonicalize (jsonEnvelope payload)))

def compress (compression : Compression) (bytes : Bytes) : Bytes :=
  match compression with
  | .deflate => node.deflateSync bytes
  | .none => bytes

/-- Put the signature into the envelope. -/
def signDraft (privateKey : Bytes) (p : Packet) : Except String Packet := do
  let sig ← node.ed25519SignScript (node.packetSigningBytes p) privateKey
  .ok { p with signature :=
    { algorithm := "ed25519", signer := p.signature.signer, signature := standard.encode sig } }

/-- `signPacket`, with the message of what it throws. -/
def signPacket (clock : String) (args : SignPacketArgs) : Except String Packet :=
  if args.priority = .p0 ∧ args.emergency ≠ some true then
    .error "P0 priority is reserved for emergency packets"
  else do
    let payloadBytes ← node.sealPayload (args.encoding.getD .cbor) args.payload.bytes
    let finalBytes := node.compress (args.compression.getD .none) payloadBytes
    let hops ← finiteHops args.ttlHops
    node.signDraft args.privateKey (draft clock args finalBytes hops)

end Node

/-! ## Verification -/

/-- How a verification ends without a payload: with a reason, or with an exception that
leaves the function. -/
inductive Failure where
  | rejected (reason : String)
  | thrown (message : String)

/-- The checks of `verifyPacket` before it looks at the signature. -/
def checkHeader (packet : Packet) (now : String) : Except Failure Unit :=
  if packet.packetVersion ≠ "1" then
    let version := packet.packetVersion
    .error (.rejected s!"unsupported packet_version {version}")
  else if packet.signature.signer ≠ packet.source then
    .error (.rejected "signature signer does not match source")
  else if packet.priority = "P0" ∧ packet.emergency ≠ some true then
    .error (.rejected "P0 reserved for emergency packets")
  else
    match truthy packet.expiresAt with
    | none => .ok ()
    | some expires =>
      if isWithinWindow { validUntil := some expires } now then .ok ()
      else .error (.rejected "packet expired")

namespace Node

variable (node : Node)

def checkSignature (packet : Packet) (publicKey : Bytes) : Except Failure Unit :=
  if node.ed25519Verify publicKey (node.packetSigningBytes packet)
    (node.base64Bytes packet.signature.signature) then .ok ()
  else .error (.rejected "signature verification failed")

/-- `inflateSync` is called outside the `try`. -/
def decompress (compression : Option String) (wire : Bytes) : Except Failure Bytes :=
  if compression = some "deflate" then (node.inflateSync wire).mapError .thrown else .ok wire

/-- The property `raw` of a decoded CBOR value, as bytes. -/
def rawOfCbor : JsValue → Except String Bytes
  | .object properties =>
    match AssocMap.get? "raw" properties with
    | some (.uint8Array bytes) => .ok bytes
    | other => node.newUint8Array other
  | .null => .error node.nullProperty
  | _ => node.newUint8Array none

/-- The property `raw` of a parsed JSON value, as bytes. -/
def rawOfJson : Value → Except String Bytes
  | .null => .error node.nullProperty
  | v =>
    match v.get? "raw" with
    | some (.string s) => .ok (node.base64Bytes s)
    | other => node.bufferFrom other

/-- The `try` block of `verifyPacket`.  A `Uint8Array` is never longer than a safe
integer. -/
def openPayload (encoding : Option String) (bytes : Bytes) : Except String Bytes :=
  if encoding = some "cbor" then
    if fits : bytes.length ≤ maxSafeInteger then do
      let obj ← (Cbor.Script.decode ⟨bytes, fits⟩).mapError thrownMessage
      node.rawOfCbor obj
    else .error "Array buffer allocation failed"
  else do
    let obj ← node.jsonParse (node.textDecode bytes)
    node.rawOfJson obj

def verifyPacket (packet : Packet) (publicKey : Bytes) (now : String) : Except Failure Bytes := do
  checkHeader packet now
  node.checkSignature packet publicKey
  let decompressed ← node.decompress packet.compression (node.base64Bytes packet.payload)
  (node.openPayload packet.encoding decompressed).mapError fun message =>
    .rejected s!"payload decode failed: {message}"

end Node

end TrustForge.PacketMode.Script
