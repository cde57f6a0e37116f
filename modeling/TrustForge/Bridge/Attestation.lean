import TrustForge.Bridge
import TrustForge.Cbor.Decode
import TrustForge.Foundation.Result
import TrustForge.Json.Read

/-!
# WebAuthn attestations

Model of `webauthn_attestation.rs`: the readers of attestation objects, authenticator data, COSE
keys and client data, and `verify_attestation` with its formats `packed` and `fido-u2f`.

Maps are read entry by entry, and an attestation statement is read twice: once for the check of its
signature and once for the chain that is returned to the caller.  The functions that check a
signature return the key they checked it with, where the source returns `()`.
-/

namespace TrustForge.Attestation

open Result Option Except List
open Cbor (CborError)

inductive CoseAlgorithm where
  | es256
  | edDsa
  | rs256
  deriving DecidableEq

/-- The `Debug` text. -/
def CoseAlgorithm.text : CoseAlgorithm → String
  | .es256 => "Es256"
  | .edDsa => "EdDsa"
  | .rs256 => "Rs256"

inductive AttestationFormat where
  | none
  | packed
  | fidoU2f
  deriving DecidableEq

structure CosePublicKey where
  kty : Int
  alg : Option CoseAlgorithm
  crv : Option Int
  x : Option Bytes
  y : Option Bytes
  n : Option Bytes
  e : Option Bytes
  deriving DecidableEq

structure ParsedAuthData where
  rpIdHash : Bytes
  flags : UInt8
  signCount : UInt32
  aaguid : Option Bytes
  credentialId : Option Bytes
  credentialPublicKeyCose : Option Bytes
  credentialPublicKey : Option CosePublicKey
  deriving DecidableEq

structure AttestationObject where
  fmt : AttestationFormat
  attStmt : Cbor.Value
  authData : Bytes

structure ClientData where
  type : String
  challenge : String
  origin : String
  deriving DecidableEq

structure VerifyAttestationOptions where
  rpId : String
  expectedOrigin : String
  expectedChallenge : String
  allowedAlgorithms : Option (List CoseAlgorithm)
  requireAttestationSignature : Bool

structure VerifiedAttestation where
  format : AttestationFormat
  authData : ParsedAuthData
  clientData : ClientData
  credentialPublicKey : Bytes
  credentialId : Bytes
  algorithm : CoseAlgorithm
  x5c : Option (List Bytes)
  signCount : UInt32
  flags : UInt8
  aaguid : Option Bytes
  deriving DecidableEq

/-- What a certificate says about the key in it. -/
structure Certificate where
  /-- The object identifier of the algorithm. -/
  algorithm : String
  subjectPublicKey : Bytes

inductive Scheme where
  | p256
  | ed25519
  deriving DecidableEq

/-- A key as the verification functions get it. -/
structure VerificationKey where
  scheme : Scheme
  bytes : Bytes
  deriving DecidableEq

/-- The crates that do the work; texts are those of their errors. -/
structure Library where
  sha256 : Bytes → Bytes
  readF64 : List Char → Option Json.F64
  /-- The text of the error for bytes that `serde_json` refuses. -/
  serdeError : Bytes → String
  /-- `X509Certificate::from_der`. -/
  fromDer : Bytes → Except String Certificate
  /-- `from_sec1_bytes`. -/
  p256Key : Bytes → Except String Unit
  /-- `from_der` of a P-256 signature. -/
  p256Signature : Bytes → Except String Unit
  p256Verify : Bytes → Bytes → Bytes → Except String Unit
  /-- `from_bytes` of an Ed25519 key. -/
  ed25519Key : Bytes → Except String Unit
  ed25519Verify : Bytes → Bytes → Bytes → Except String Unit

/-! ## Reading -/

def asBytes : Cbor.Value → Option Bytes
  | .bytes b => some b
  | _ => none

def asMap : Cbor.Value → Option (List (Cbor.Value × Cbor.Value))
  | .map entries => some entries
  | _ => none

def asText : Cbor.Value → Option String
  | .text t => some t
  | _ => none

/-- `i64::try_from(i).unwrap_or(0)`. -/
def toI64 (i : Int) : Int :=
  if -2 ^ 63 ≤ i ∧ i < 2 ^ 63 then i else 0

def asI64 : Cbor.Value → Option Int
  | .integer i => some (toI64 i)
  | _ => none

/-- The decoder on a vector, which is never longer than a slice. -/
def decodeCbor (bytes : Bytes) : Except CborError Cbor.Value :=
  if fits : bytes.length < 2 ^ 63 then Cbor.decode ⟨bytes, fits⟩ else .error .truncated

/-- One entry of a COSE key: later entries replace earlier ones, unless they are of another type. -/
def CosePublicKey.readEntry (key : CosePublicKey × Option Int) (entry : Cbor.Value × Cbor.Value) :
    CosePublicKey × Option Int :=
  let (fields, kty) := key
  match asI64 entry.1 with
  | some 1 => (fields, asI64 entry.2 <|> kty)
  | some 3 =>
    match asI64 entry.2 with
    | some (-7) => ({ fields with alg := some .es256 }, kty)
    | some (-8) => ({ fields with alg := some .edDsa }, kty)
    | some (-257) => ({ fields with alg := some .rs256 }, kty)
    | some _ => ({ fields with alg := none }, kty)
    | none => (fields, kty)
  | some (-1) =>
    ({ fields with crv := asI64 entry.2 <|> fields.crv, n := asBytes entry.2 <|> fields.n }, kty)
  | some (-2) => ({ fields with x := asBytes entry.2 <|> fields.x }, kty)
  | some (-3) => ({ fields with y := asBytes entry.2 <|> fields.y }, kty)
  | some (-4) => ({ fields with e := asBytes entry.2 <|> fields.e }, kty)
  | _ => (fields, kty)

/-- `parse_cose_public_key`.  An RSA key has its exponent where the others have `x`. -/
def parseCosePublicKey (cose : Bytes) : Except BridgeError CosePublicKey :=
  match decodeCbor cose with
  | .error e =>
    let text := e.text
    .error (.invalidInput s!"COSE key not valid CBOR: {text}")
  | .ok (.map entries) =>
    match entries.foldl CosePublicKey.readEntry
        (⟨0, none, none, none, none, none, none⟩, none) with
    | (_, none) => .error (.invalidInput "COSE key missing kty")
    | (fields, some kty) =>
      .ok (if kty = 3 then
        { fields with kty, x := none, y := none, e := fields.x <|> fields.e }
      else { fields with kty, n := none })
  | .ok _ => .error (.invalidInput "COSE key not a map")

def flagUserPresent : UInt8 := 0x01
def flagAttestedCredentialData : UInt8 := 0x40

def parseAuthenticatorData (buf : Bytes) : Except BridgeError ParsedAuthData :=
  let size := buf.length
  if size < 37 then .error (.invalidInput s!"authData too short ({size} bytes)")
  else
    let rpIdHash := buf.take 32
    let flags := buf.getD 32 0
    let signCount := .ofNat (BigEndian.decode ((buf.drop 33).take 4))
    if flags &&& flagAttestedCredentialData = 0 then
      .ok ⟨rpIdHash, flags, signCount, none, none, none, none⟩
    else do
      require (55 ≤ size)
        (.invalidInput "authData has AT flag but is too short for attested credential data")
      let aaguid := (buf.drop 37).take 16
      let credIdLen := BigEndian.decode ((buf.drop 53).take 2)
      require (55 + credIdLen ≤ size) (.invalidInput
        s!"authData truncated reading credentialId (declared {credIdLen} bytes)")
      let credentialId := (buf.drop 55).take credIdLen
      let coseBytes := buf.drop (55 + credIdLen)
      let credentialPublicKey ← parseCosePublicKey coseBytes
      return ⟨rpIdHash, flags, signCount, some aaguid, some credentialId, some coseBytes,
        some credentialPublicKey⟩

/-- The loop of `decode_attestation_object`. -/
structure ObjectFields where
  fmt : Option String
  attStmt : Option Cbor.Value
  authData : Option Bytes

def ObjectFields.readEntry (fields : ObjectFields) : Cbor.Value × Cbor.Value → ObjectFields
  | (.text key, v) =>
    if key = "fmt" then { fields with fmt := asText v }
    else if key = "attStmt" then { fields with attStmt := some v }
    else if key = "authData" then { fields with authData := asBytes v }
    else fields
  | _ => fields

def decodeAttestationObject (buf : Bytes) : Except BridgeError AttestationObject :=
  match decodeCbor buf with
  | .error e =>
    let text := e.text
    .error (.invalidInput s!"attestationObject not valid CBOR: {text}")
  | .ok (.map entries) => do
    let fields := entries.foldl ObjectFields.readEntry ⟨none, none, none⟩
    let fmt ← okOr fields.fmt (.invalidInput "missing fmt")
    let authData ← okOr fields.authData (.invalidInput "missing authData bytes")
    let attStmt ← okOr fields.attStmt (.invalidInput "missing attStmt")
    if fmt = "none" then return ⟨.none, attStmt, authData⟩
    else if fmt = "packed" then return ⟨.packed, attStmt, authData⟩
    else if fmt = "fido-u2f" then return ⟨.fidoU2f, attStmt, authData⟩
    else throw (.unsupported s!"attestation format {fmt} not supported")
  | .ok _ => .error (.invalidInput "attestationObject not a map")

/-- The byte strings in an entry `x5c` that is an array. -/
def x5cEntry : Cbor.Value × Cbor.Value → Option (List Bytes)
  | (.text key, .array items) => if key = "x5c" then some (items.filterMap asBytes) else none
  | _ => none

/-- What the loops of `verify_packed` and `verify_fido_u2f` keep; the second one does not look for
the algorithm. -/
structure StatementFields where
  sig : Option Bytes
  alg : Option Int
  x5c : Option (List Bytes)

def StatementFields.readEntry (fields : StatementFields) (entry : Cbor.Value × Cbor.Value) :
    StatementFields where
  sig := if asText entry.1 = some "sig" then asBytes entry.2 else fields.sig
  alg := if asText entry.1 = some "alg" then asI64 entry.2 <|> fields.alg else fields.alg
  x5c := x5cEntry entry <|> fields.x5c

def readStatement (entries : List (Cbor.Value × Cbor.Value)) : StatementFields :=
  entries.foldl StatementFields.readEntry ⟨none, none, none⟩

def pickX5c : Cbor.Value → Option (List Bytes)
  | .map entries =>
    entries.findSome? fun entry => (x5cEntry entry).filter fun chain => !chain.isEmpty
  | _ => none

def encodeRawPublicKey (cose : CosePublicKey) : Except BridgeError Bytes :=
  match cose.kty, cose.x, cose.y, cose.n with
  | 2, some x, some y, _ => .ok (0x04 :: x ++ y)
  | 1, some x, _, _ => .ok x
  | 3, _, _, some n => .ok n
  | _, _, _, _ => .error (.invalidInput "unsupported COSE key shape")

def isObject : Json.Value → Bool
  | .object _ => true
  | _ => false

namespace Library

variable (lib : Library)

def parseClientData (buf : Bytes) : Except BridgeError ClientData := do
  let text := lib.serdeError buf
  let json ← okOr (Json.fromSlice lib.readF64 buf)
    (.invalidInput s!"clientDataJSON not valid JSON: {text}")
  require (isObject json) (.invalidInput "clientDataJSON not an object")
  let type ← okOr ((json.get? "type").bind Json.Value.asStr)
    (.invalidInput "missing clientData.type")
  let challenge ← okOr ((json.get? "challenge").bind Json.Value.asStr)
    (.invalidInput "missing clientData.challenge")
  let origin ← okOr ((json.get? "origin").bind Json.Value.asStr)
    (.invalidInput "missing clientData.origin")
  return ⟨type, challenge, origin⟩

/-! ## Checking signatures -/

def verifyP256Der (key data sig : Bytes) : Except BridgeError VerificationKey := do
  (lib.p256Key key).mapError fun e => .invalidInput s!"bad P-256 SEC1 key: {e}"
  (lib.p256Signature sig).mapError fun e => .invalidInput s!"bad ECDSA DER sig: {e}"
  (lib.p256Verify key data sig).mapError fun e => .rejected s!"ES256 verify failed: {e}"
  return ⟨.p256, key⟩

def verifyEd25519 (key data sig : Bytes) : Except BridgeError VerificationKey := do
  require (key.length = 32) (.invalidInput "Ed25519 key not 32 bytes")
  (lib.ed25519Key key).mapError fun e => .invalidInput s!"bad Ed25519 key: {e}"
  require (sig.length = 64) (.invalidInput "Ed25519 signature not 64 bytes")
  (lib.ed25519Verify key data sig).mapError fun e => .rejected s!"EdDSA verify failed: {e}"
  return ⟨.ed25519, key⟩

def verifyWithCert (certDer data sig : Bytes) (coseAlg : Int) :
    Except BridgeError VerificationKey := do
  let cert ← (lib.fromDer certDer).mapError fun e => .invalidInput s!"cert DER parse: {e}"
  let oid := cert.algorithm
  if oid = "1.2.840.10045.2.1" ∧ coseAlg = -7 then
    lib.verifyP256Der cert.subjectPublicKey data sig
  else if oid = "1.3.101.112" ∧ coseAlg = -8 then
    lib.verifyEd25519 cert.subjectPublicKey data sig
  else
    throw (.unsupported s!"x5c algorithm {oid} not supported for cose alg {coseAlg}")

def verifyCoseSignature (cose : CosePublicKey) (data sig : Bytes) (alg : Int) :
    Except BridgeError VerificationKey :=
  let kty := cose.kty
  if alg = -7 ∧ kty = 2 then do
    let x ← okOr cose.x (.invalidInput "EC2 missing x")
    let y ← okOr cose.y (.invalidInput "EC2 missing y")
    lib.verifyP256Der (0x04 :: x ++ y) data sig
  else if alg = -8 ∧ kty = 1 then do
    let x ← okOr cose.x (.invalidInput "OKP missing x")
    lib.verifyEd25519 x data sig
  else
    .error (.unsupported s!"self-attestation alg {alg} on kty {kty} not supported")

variable (att : AttestationObject) (auth : ParsedAuthData) (clientDataHash : Bytes)

def verifyPacked :
    Except BridgeError VerificationKey := do
  let entries ← okOr (asMap att.attStmt) (.invalidInput "packed attStmt not a map")
  let fields := readStatement entries
  let sig ← okOr fields.sig (.invalidInput "packed attStmt missing sig")
  let alg ← okOr fields.alg (.invalidInput "packed attStmt missing alg")
  let data := att.authData ++ clientDataHash
  match fields.x5c with
  | some (certDer :: _) => lib.verifyWithCert certDer data sig alg
  | _ => do
    let cose ← okOr auth.credentialPublicKey
      (.invalidInput "self-attestation needs credential public key")
    lib.verifyCoseSignature cose data sig alg

/-- `verify_fido_u2f`.  Authenticator data with a key has a credential, so that the source's
`unwrap` does not fail. -/
def verifyFidoU2f :
    Except BridgeError VerificationKey := do
  let entries ← okOr (asMap att.attStmt) (.invalidInput "fido-u2f attStmt not a map")
  let fields := readStatement entries
  let sig ← okOr fields.sig (.invalidInput "fido-u2f attStmt missing sig")
  let x5c ← okOr fields.x5c (.invalidInput "fido-u2f attStmt missing x5c")
  let cose ← okOr auth.credentialPublicKey (.invalidInput "fido-u2f needs credential pubkey")
  let ec2 := .invalidInput "fido-u2f requires EC2 P-256 credential public key"
  require (cose.kty = 2) ec2
  let x ← okOr cose.x ec2
  let y ← okOr cose.y ec2
  let data := 0x00 :: auth.rpIdHash ++ clientDataHash ++ auth.credentialId.getD [] ++
    0x04 :: x ++ y
  let cert ← okOr x5c.head? (.invalidInput "fido-u2f x5c empty")
  lib.verifyWithCert cert data sig (-7)

/-- The check of the attestation signature, which the format `none` does without. -/
def verifySignature
    (opts : VerifyAttestationOptions) : Except BridgeError (Option VerificationKey) :=
  match att.fmt with
  | .packed => some <$> lib.verifyPacked att auth clientDataHash
  | .fidoU2f => some <$> lib.verifyFidoU2f att auth clientDataHash
  | .none =>
    if opts.requireAttestationSignature then
      .error (.rejected "format=none rejected when require_attestation_signature=true")
    else .ok none

/-- `verify_attestation`, with the key that the signature was checked with. -/
def verifyAttestationKey (attestationObject clientDataJson : Bytes)
    (opts : VerifyAttestationOptions) :
    Except BridgeError (Option VerificationKey × VerifiedAttestation) := do
  let att ← decodeAttestationObject attestationObject
  let auth ← parseAuthenticatorData att.authData
  let client ← lib.parseClientData clientDataJson
  let type := client.type
  let origin := client.origin
  let expectedOrigin := opts.expectedOrigin
  require (type = "webauthn.create")
    (.rejected s!"clientData.type {type} is not webauthn.create")
  require (origin = expectedOrigin)
    (.rejected s!"clientData.origin {origin} does not match expected {expectedOrigin}")
  require (client.challenge = opts.expectedChallenge)
    (.rejected "clientData.challenge does not match expected")
  require (auth.rpIdHash = lib.sha256 (Text.utf8 opts.rpId))
    (.rejected "authData rpIdHash does not match sha256(rpId)")
  require (auth.flags &&& flagUserPresent ≠ 0)
    (.rejected "authData missing User Present flag")
  require (auth.flags &&& flagAttestedCredentialData ≠ 0)
    (.rejected "authData missing AT flag (no attested credential data)")
  let cose ← okOr auth.credentialPublicKey (.invalidInput "credential public key missing")
  let credentialId ← okOr auth.credentialId (.invalidInput "credential id missing")
  let alg ← okOr cose.alg (.invalidInput "credential public key has no algorithm")
  let algText := alg.text
  require (opts.allowedAlgorithms.all (·.contains alg))
    (.rejected s!"algorithm {algText} not in allow-list")
  let key ← lib.verifySignature att auth (lib.sha256 clientDataJson) opts
  let credentialPublicKey ← encodeRawPublicKey cose
  return (key, ⟨att.fmt, auth, client, credentialPublicKey, credentialId, alg,
    pickX5c att.attStmt, auth.signCount, auth.flags, auth.aaguid⟩)

def verifyAttestation (attestationObject clientDataJson : Bytes)
    (opts : VerifyAttestationOptions) : Except BridgeError VerifiedAttestation :=
  (·.2) <$> lib.verifyAttestationKey attestationObject clientDataJson opts

end Library

/-! ## The key that is used -/

/-- The key of a certificate as `verify_with_cert` takes it. -/
def Certificate.key (cert : Certificate) : Option VerificationKey :=
  if cert.algorithm = "1.2.840.10045.2.1" then some ⟨.p256, cert.subjectPublicKey⟩
  else if cert.algorithm = "1.3.101.112" then some ⟨.ed25519, cert.subjectPublicKey⟩
  else none

/-- The key that a self attestation is checked with. -/
def CosePublicKey.key (cose : CosePublicKey) : Option VerificationKey :=
  if cose.kty = 2 then do
    let x ← cose.x
    let y ← cose.y
    some ⟨.p256, 0x04 :: x ++ y⟩
  else if cose.kty = 1 then cose.x.map fun x => ⟨.ed25519, x⟩
  else none

/-- The chains of a statement, one for each entry `x5c` that is an array. -/
def AttestationObject.chains (att : AttestationObject) : List (List Bytes) :=
  ((asMap att.attStmt).getD []).filterMap x5cEntry

theorem readStatement_x5c (entries : List (Cbor.Value × Cbor.Value)) :
    (readStatement entries).x5c = (entries.filterMap x5cEntry).getLast? := by
  induction entries using List.reverseRecOn with
  | nil => rfl
  | append_singleton entries entry ih =>
    rw [readStatement, foldl_concat, ← readStatement, StatementFields.readEntry, ih,
      filterMap_append]
    cases found : x5cEntry entry with
    | none | some => simp [found]

theorem findSome?_filter {α β : Type} (f : α → Option β) (p : β → Bool) (xs : List α) :
    xs.findSome? (fun x => (f x).filter p) = (xs.filterMap f).find? p := by
  induction xs with
  | nil => rfl
  | cons x xs ih =>
    rw [List.findSome?_cons, ih, filterMap_cons]
    cases f x with
    | none => rfl
    | some y =>
      rw [filter_some, List.find?_cons]
      cases p y with
      | true | false => rfl

theorem pickX5c_eq (att : AttestationObject) :
    pickX5c att.attStmt = att.chains.find? fun chain => !chain.isEmpty := by
  unfold AttestationObject.chains
  cases att.attStmt with
  | map entries => exact findSome?_filter x5cEntry _ entries
  | _ => rfl

variable {used : VerificationKey} {att : AttestationObject}

namespace Library

variable {lib : Library}

/-- The key of a certificate that can be read. -/
def certKey (lib : Library) (certDer : Bytes) : Option VerificationKey :=
  match lib.fromDer certDer with
  | .ok cert => cert.key
  | .error _ => none

/-- The key that belongs to a statement: that of the first certificate of its last chain, or the
credential's own where there is none. -/
def attestationKey (lib : Library) (att : AttestationObject) (auth : ParsedAuthData) :
    Option VerificationKey :=
  match att.chains.getLast? with
  | some (certDer :: _) => lib.certKey certDer
  | _ => auth.credentialPublicKey.bind CosePublicKey.key

theorem verifyP256Der_eq_ok {key data sig : Bytes}
    (verified : lib.verifyP256Der key data sig = .ok used) : used = ⟨.p256, key⟩ := by
  simp only [verifyP256Der, bind_eq_ok_iff] at verified
  obtain ⟨_, _, _, _, _, _, made⟩ := verified
  exact (ok.inj made).symm

theorem verifyEd25519_eq_ok {key data sig : Bytes}
    (verified : lib.verifyEd25519 key data sig = .ok used) : used = ⟨.ed25519, key⟩ := by
  simp only [verifyEd25519, bind_eq_ok_iff] at verified
  obtain ⟨_, _, _, _, _, _, _, _, made⟩ := verified
  exact (ok.inj made).symm

theorem verifyWithCert_eq_ok {certDer data sig : Bytes} {alg : Int}
    (verified : lib.verifyWithCert certDer data sig alg = .ok used) :
    lib.certKey certDer = some used := by
  obtain ⟨cert, read, verified⟩ := bind_eq_ok verified
  rw [mapError_eq_ok_iff] at read
  simp only [certKey, read, Certificate.key]
  dsimp only at verified
  split at verified
  · next ec =>
    rw [if_pos ec.1, verifyP256Der_eq_ok verified]
  · split at verified
    · next ed =>
      rw [if_neg (by rw [ed.1]; decide), if_pos ed.1, verifyEd25519_eq_ok verified]
    · contradiction

theorem verifyCoseSignature_eq_ok {cose : CosePublicKey} {data sig : Bytes} {alg : Int}
    (verified : lib.verifyCoseSignature cose data sig alg = .ok used) : cose.key = some used := by
  unfold verifyCoseSignature at verified
  unfold CosePublicKey.key
  dsimp only at verified
  split at verified
  · next ec2 =>
    obtain ⟨x, hasX, verified⟩ := bind_eq_ok verified
    obtain ⟨y, hasY, verified⟩ := bind_eq_ok verified
    rw [okOr_eq_ok_iff] at hasX hasY
    rw [if_pos ec2.2, hasX, hasY, verifyP256Der_eq_ok verified]
    rfl
  · split at verified
    · next okp =>
      obtain ⟨x, hasX, verified⟩ := bind_eq_ok verified
      rw [okOr_eq_ok_iff] at hasX
      rw [if_neg (by rw [okp.2]; decide), if_pos okp.2, hasX, verifyEd25519_eq_ok verified]
      rfl
    · contradiction

section

variable {att : AttestationObject} {auth : ParsedAuthData} {hash : Bytes} {used : VerificationKey}

theorem verifyPacked_eq_ok (verified : lib.verifyPacked att auth hash = .ok used) :
    lib.attestationKey att auth = some used := by
  simp only [verifyPacked, bind_eq_ok_iff, okOr_eq_ok_iff, readStatement_x5c]
    at verified
  obtain ⟨entries, isMap, sig, _, alg, _, verified⟩ := verified
  simp only [attestationKey, AttestationObject.chains, isMap, getD_some]
  split at verified
  · next last => exact verifyWithCert_eq_ok verified
  · next other =>
    obtain ⟨cose, hasKey, verified⟩ := bind_eq_ok verified
    rw [okOr_eq_ok_iff] at hasKey
    rw [hasKey]
    exact verifyCoseSignature_eq_ok verified

theorem verifyFidoU2f_eq_ok (verified : lib.verifyFidoU2f att auth hash = .ok used) :
    lib.attestationKey att auth = some used := by
  simp only [verifyFidoU2f, bind_eq_ok_iff, okOr_eq_ok_iff, readStatement_x5c]
    at verified
  obtain ⟨entries, isMap, sig, _, x5c, last, _, _, _, _, _, _, _, _, cert, first, verified⟩ :=
    verified
  obtain ⟨rest, rfl⟩ := List.head?_eq_some_iff.mp first
  simp only [attestationKey, AttestationObject.chains, isMap, getD_some, last]
  exact verifyWithCert_eq_ok verified

end

/-- What is behind an accepted attestation. -/
structure Accepted (lib : Library) (att : AttestationObject) (key : Option VerificationKey)
    (verified : VerifiedAttestation) : Prop where
  format : verified.format = att.fmt
  x5c : verified.x5c = pickX5c att.attStmt
  authData : parseAuthenticatorData att.authData = .ok verified.authData
  signature : ∃ hash opts, lib.verifySignature att verified.authData hash opts = .ok key

theorem accepted_of_eq_ok {object clientData : Bytes} {opts : VerifyAttestationOptions}
    {key : Option VerificationKey} {verified : VerifiedAttestation}
    (ended : lib.verifyAttestationKey object clientData opts = .ok (key, verified)) :
    ∃ att, decodeAttestationObject object = .ok att ∧ Accepted lib att key verified := by
  simp only [verifyAttestationKey, bind_eq_ok_iff] at ended
  obtain ⟨att, decoded, auth, parsed, _, _, _, _, _, _, _, _, _, _, _, _, _, _, _, _, _, _, _, _, _,
    _, used, checked, _, _, made⟩ := ended
  obtain ⟨rfl, rfl⟩ := Prod.mk.inj (ok.inj made)
  exact ⟨att, decoded, rfl, rfl, parsed, _, _, checked⟩

/-- The signature of an accepted attestation was checked with the key of its statement. -/
theorem Accepted.key_eq {key : Option VerificationKey} {verified : VerifiedAttestation}
    (accepted : Accepted lib att key verified) (signed : verified.format ≠ .none) :
    key = lib.attestationKey att verified.authData ∧ key ≠ none := by
  obtain ⟨hash, opts, checked⟩ := accepted.signature
  rw [accepted.format] at signed
  unfold verifySignature at checked
  cases format : att.fmt with
  | none => contradiction
  | packed =>
    rw [format] at checked
    obtain ⟨used, verified, same⟩ := bind_eq_ok ((map_eq_pure_bind _ _).symm.trans checked)
    rw [← ok.inj same, verifyPacked_eq_ok verified]
    exact ⟨rfl, nofun⟩
  | fidoU2f =>
    rw [format] at checked
    obtain ⟨used, verified, same⟩ := bind_eq_ok ((map_eq_pure_bind _ _).symm.trans checked)
    rw [← ok.inj same, verifyFidoU2f_eq_ok verified]
    exact ⟨rfl, nofun⟩

/-- The key is that of the first certificate of the chain. -/
def FirstKey (lib : Library) (key : Option VerificationKey) : List Bytes → Prop
  | [] => False
  | certDer :: _ => ∃ used, key = some used ∧ lib.certKey certDer = some used

/-- The first chain of a statement that has a certificate starts with the key of the statement. -/
def FirstChainSigns (lib : Library) (att : AttestationObject) (auth : ParsedAuthData) : Prop :=
  ∀ certDer rest, att.chains.find? (fun chain => !chain.isEmpty) = some (certDer :: rest) →
    lib.certKey certDer = lib.attestationKey att auth

theorem firstChainSigns_of_single {auth : ParsedAuthData} (single : att.chains.length ≤ 1) :
    lib.FirstChainSigns att auth := by
  intro certDer rest found
  have member := mem_of_find?_eq_some found
  have only : att.chains = [certDer :: rest] := by
    obtain ⟨chain, same⟩ := length_eq_one_iff.mp
      (le_antisymm single (length_pos_of_mem member))
    rw [same, mem_singleton] at member
    rw [same, member]
  rw [attestationKey, only]
  rfl

/-- The chain that is returned is the one that was checked where the first chain with a certificate
and the last chain of the statement start with the same key; one chain is enough for that. -/
theorem returned_chain_checked_iff {object clientData : Bytes} {opts : VerifyAttestationOptions}
    {key : Option VerificationKey} {verified : VerifiedAttestation}
    (ended : lib.verifyAttestationKey object clientData opts = .ok (key, verified))
    (signed : verified.format ≠ .none) :
    ∃ att, decodeAttestationObject object = .ok att ∧
      ((∀ chain, verified.x5c = some chain → lib.FirstKey key chain) ↔
        lib.FirstChainSigns att verified.authData) ∧
      (att.chains.length ≤ 1 → lib.FirstChainSigns att verified.authData) := by
  obtain ⟨att, decoded, accepted⟩ := accepted_of_eq_ok ended
  obtain ⟨rfl, checked⟩ := accepted.key_eq signed
  obtain ⟨used, same⟩ := ne_none_iff_exists'.mp checked
  refine ⟨att, decoded, ?_, firstChainSigns_of_single⟩
  rw [accepted.x5c, pickX5c_eq]
  constructor
  · intro first certDer rest found
    obtain ⟨_, keySame, certSame⟩ := first _ found
    rw [keySame, certSame]
  · intro signs chain found
    cases chain with
    | nil => exact absurd (List.find?_some found) nofun
    | cons certDer rest => exact ⟨used, same, (signs certDer rest found).trans same⟩

end Library

/-! ## Two chains in one statement -/

/-- Every certificate holds its own bytes as a key, and every signature is good. -/
def trusting : Library where
  sha256 := fun _ => List.replicate 32 0
  readF64 := fun _ => none
  serdeError := fun _ => ""
  fromDer := fun der => .ok ⟨"1.2.840.10045.2.1", der⟩
  p256Key := fun _ => .ok ()
  p256Signature := fun _ => .ok ()
  p256Verify := fun _ _ _ => .ok ()
  ed25519Key := fun _ => .ok ()
  ed25519Verify := fun _ _ _ => .ok ()

/-- Authenticator data with an empty credential and the key `{1: 2, 3: -7, -2: h'', -3: h''}`. -/
def sampleAuthData : Bytes :=
  List.replicate 32 0 ++ [0x41] ++ List.replicate 22 0 ++
    [0xa4, 0x01, 0x02, 0x03, 0x26, 0x21, 0x40, 0x22, 0x40]

/-- `{"fmt": "packed", "attStmt": …, "authData": …}`. -/
def sampleObject (statement : Bytes) : Bytes :=
  [0xa3, 0x63, 0x66, 0x6d, 0x74, 0x66, 0x70, 0x61, 0x63, 0x6b, 0x65, 0x64,
    0x67, 0x61, 0x74, 0x74, 0x53, 0x74, 0x6d, 0x74] ++ statement ++
  [0x68, 0x61, 0x75, 0x74, 0x68, 0x44, 0x61, 0x74, 0x61, 0x58, 0x40] ++ sampleAuthData

/-- `{"sig": h'', "alg": -7, "x5c": [h'01']}`. -/
def oneChain : Bytes :=
  [0xa3, 0x63, 0x73, 0x69, 0x67, 0x40, 0x63, 0x61, 0x6c, 0x67, 0x26,
    0x63, 0x78, 0x35, 0x63, 0x81, 0x41, 0x01]

/-- `{"sig": h'', "alg": -7, "x5c": [h'01'], "x5c": [h'02']}`. -/
def twoChains : Bytes :=
  [0xa4, 0x63, 0x73, 0x69, 0x67, 0x40, 0x63, 0x61, 0x6c, 0x67, 0x26,
    0x63, 0x78, 0x35, 0x63, 0x81, 0x41, 0x01, 0x63, 0x78, 0x35, 0x63, 0x81, 0x41, 0x02]

def sampleClientData : Bytes :=
  Text.utf8 "\x7b\"type\":\"webauthn.create\",\"challenge\":\"c\",\"origin\":\"o\"\x7d"

def sampleOptions : VerifyAttestationOptions :=
  ⟨"", "o", "c", none, true⟩

/-- What is made of either object. -/
def sampleVerified : VerifiedAttestation where
  format := .packed
  authData :=
    { rpIdHash := List.replicate 32 0
      flags := 0x41
      signCount := 0
      aaguid := some (List.replicate 16 0)
      credentialId := some []
      credentialPublicKeyCose := some [0xa4, 0x01, 0x02, 0x03, 0x26, 0x21, 0x40, 0x22, 0x40]
      credentialPublicKey := some ⟨2, some .es256, none, some [], some [], none, none⟩ }
  clientData := ⟨"webauthn.create", "c", "o"⟩
  credentialPublicKey := [0x04]
  credentialId := []
  algorithm := .es256
  x5c := some [[1]]
  signCount := 0
  flags := 0x41
  aaguid := some (List.replicate 16 0)

theorem oneChain_returned_checked :
    trusting.verifyAttestationKey (sampleObject oneChain) sampleClientData sampleOptions =
        .ok (some ⟨.p256, [1]⟩, sampleVerified) ∧
      ∃ att, decodeAttestationObject (sampleObject oneChain) = .ok att ∧
        ((∀ chain, sampleVerified.x5c = some chain →
            trusting.FirstKey (some ⟨.p256, [1]⟩) chain) ↔
          trusting.FirstChainSigns att sampleVerified.authData) ∧
        (att.chains.length ≤ 1 → trusting.FirstChainSigns att sampleVerified.authData) := by
  have ended : trusting.verifyAttestationKey (sampleObject oneChain) sampleClientData
      sampleOptions = .ok (some ⟨.p256, [1]⟩, sampleVerified) := by
    decide +kernel
  exact ⟨ended, Library.returned_chain_checked_iff ended nofun⟩

/-- The signature was checked with the certificate of the second chain, and the first chain is
returned. -/
theorem twoChains_returned_unchecked :
    trusting.verifyAttestationKey (sampleObject twoChains) sampleClientData sampleOptions =
        .ok (some ⟨.p256, [2]⟩, sampleVerified) ∧
      sampleVerified.x5c = some [[1]] ∧ ¬trusting.FirstKey (some ⟨.p256, [2]⟩) [[1]] := by
  refine ⟨by decide +kernel, rfl, ?_⟩
  rintro ⟨used, key, cert⟩
  exact absurd (key.trans cert.symm) (by decide)

/-! ## The algorithm of a self attestation -/

/-- The algorithm that a signature was checked with. -/
def Scheme.algorithm : Scheme → CoseAlgorithm
  | .p256 => .es256
  | .ed25519 => .edDsa

/-- The type of the keys of an algorithm. -/
def CoseAlgorithm.kty : CoseAlgorithm → Int
  | .es256 => 2
  | .edDsa => 1
  | .rs256 => 3

theorem CosePublicKey.kty_of_key {cose : CosePublicKey} (made : cose.key = some used) :
    cose.kty = used.scheme.algorithm.kty := by
  unfold CosePublicKey.key at made
  split at made
  · next ec2 =>
    obtain ⟨x, _, made⟩ := bind_eq_some_iff.mp made
    obtain ⟨y, _, made⟩ := bind_eq_some_iff.mp made
    rw [ec2, ← some.inj made]
    rfl
  · split at made
    · next okp =>
      obtain ⟨x, _, rfl⟩ := map_eq_some_iff.mp made
      exact okp
    · contradiction

namespace Library

variable {lib : Library} {object clientData : Bytes} {opts : VerifyAttestationOptions}
  {key : Option VerificationKey} {verified : VerifiedAttestation}

/-- The algorithm that is reported is the one that the credential's key names, and it is
allowed. -/
theorem algorithm_of_eq_ok
    (ended : lib.verifyAttestationKey object clientData opts = .ok (key, verified)) :
    ∃ cose, verified.authData.credentialPublicKey = some cose ∧
      cose.alg = some verified.algorithm ∧
      ∀ allowed, opts.allowedAlgorithms = some allowed → verified.algorithm ∈ allowed := by
  simp only [verifyAttestationKey, bind_eq_ok_iff, okOr_eq_ok_iff, require_eq_ok_iff] at ended
  obtain ⟨_, _, auth, _, _, _, _, _, _, _, _, _, _, _, _, _, _, _, cose, hasKey, _, _, alg, names,
    _, listed, _, _, _, _, made⟩ := ended
  obtain ⟨-, rfl⟩ := Prod.mk.inj (ok.inj made)
  refine ⟨cose, hasKey, names, ?_⟩
  intro allowed given
  rw [given] at listed
  simpa using listed

/-- Without a certificate the statement's key is the credential's. -/
theorem attestationKey_of_bare {auth : ParsedAuthData} (bare : pickX5c att.attStmt = none) :
    lib.attestationKey att auth = auth.credentialPublicKey.bind CosePublicKey.key := by
  rw [pickX5c_eq, List.find?_eq_none] at bare
  unfold attestationKey
  split
  · next last => exact absurd rfl (bare _ (mem_of_getLast? last))
  · rfl

/-- A self attestation is checked with the scheme of the credential's key type.  The algorithm that
is reported and looked up in the allow-list is the one that the credential's key names, and is that
scheme's exactly if the key names an algorithm of its own type; what the statement names is not
compared with it. -/
theorem self_attestation_algorithm_iff
    (ended : lib.verifyAttestationKey object clientData opts = .ok (key, verified))
    (packed : verified.format = .packed) (bare : verified.x5c = none) :
    ∃ att auth cose named used,
      decodeAttestationObject object = .ok att ∧ parseAuthenticatorData att.authData = .ok auth ∧
      auth.credentialPublicKey = some cose ∧ cose.alg = some named ∧
      verified.algorithm = named ∧ key = some used ∧ cose.kty = used.scheme.algorithm.kty ∧
      ((used.scheme.algorithm = verified.algorithm ∧
          ∀ allowed, opts.allowedAlgorithms = some allowed → used.scheme.algorithm ∈ allowed) ↔
        cose.kty = named.kty) := by
  obtain ⟨att, decoded, accepted⟩ := accepted_of_eq_ok ended
  obtain ⟨cose, hasKey, names, allows⟩ := algorithm_of_eq_ok ended
  obtain ⟨same, checked⟩ := accepted.key_eq (by rw [packed]; nofun)
  obtain ⟨used, found⟩ := ne_none_iff_exists'.mp checked
  rw [attestationKey_of_bare (accepted.x5c.symm.trans bare), hasKey, found] at same
  have fits := CosePublicKey.kty_of_key same.symm
  refine ⟨att, _, cose, _, used, decoded, accepted.authData, hasKey, names, rfl, found, fits, ?_⟩
  rw [fits]
  constructor
  · rintro ⟨reported, -⟩
    rw [reported]
  · intro own
    have reported : used.scheme.algorithm = verified.algorithm := by
      generalize used.scheme.algorithm = left, verified.algorithm = right at own
      revert own
      cases left <;> cases right <;> decide
    exact ⟨reported, reported ▸ allows⟩

end Library

/-- `{"sig": h'', "alg": -7}`. -/
def bareStatement : Bytes :=
  [0xa2, 0x63, 0x73, 0x69, 0x67, 0x40, 0x63, 0x61, 0x6c, 0x67, 0x26]

theorem bareStatement_algorithm :
    let verified := { sampleVerified with x5c := none }
    let opts := { sampleOptions with allowedAlgorithms := some [.es256] }
    trusting.verifyAttestationKey (sampleObject bareStatement) sampleClientData opts =
        .ok (some ⟨.p256, [0x04]⟩, verified) ∧
      ∃ att auth cose named, ∃ used : VerificationKey,
        decodeAttestationObject (sampleObject bareStatement) = .ok att ∧
        parseAuthenticatorData att.authData = .ok auth ∧
        auth.credentialPublicKey = some cose ∧ cose.alg = some named ∧
        verified.algorithm = named ∧ some ⟨.p256, [0x04]⟩ = some used ∧
        cose.kty = used.scheme.algorithm.kty ∧
        ((used.scheme.algorithm = verified.algorithm ∧
            ∀ allowed, opts.allowedAlgorithms = some allowed → used.scheme.algorithm ∈ allowed) ↔
          cose.kty = named.kty) := by
  intro verified opts
  have ended : trusting.verifyAttestationKey (sampleObject bareStatement) sampleClientData opts =
      .ok (some ⟨.p256, [0x04]⟩, verified) := by
    decide +kernel
  exact ⟨ended, Library.self_attestation_algorithm_iff ended rfl rfl⟩

/-- With −8 as the algorithm of the same credential key, and only that one allowed, the signature
is still checked as the statement says. -/
theorem mislabelled_key_accepted :
    (trusting.verifyAttestationKey ((sampleObject bareStatement).set 101 0x27) sampleClientData
        { sampleOptions with allowedAlgorithms := some [.edDsa] }).map
        (fun ended => (ended.1, ended.2.format, ended.2.x5c.isNone, ended.2.algorithm)) =
      .ok (some ⟨.p256, [0x04]⟩, .packed, true, .edDsa) ∧
    Scheme.p256.algorithm ∉ [CoseAlgorithm.edDsa] := by
  decide +kernel

end TrustForge.Attestation
