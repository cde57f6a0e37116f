import TrustForge.Foundation.BigEndian
import TrustForge.Json.Record

/-!
# Signed tokens

Model of `jws.rs`: algorithms, headers and keys, and `decode`, which checks a compact token against
a key and a `Validation`.  Reading JSON, points and moduli and checking signatures is left to the
library.  JSON is read from text here, so that what happens to bytes that are not UTF-8 is seen.
-/

namespace TrustForge.Jws

open Json Result Text Option List
open Encoding (urlSafeNoPad)

inductive JwsError where
  | malformed (what : String)
  | unsupportedAlgorithm (name : String)
  | algorithmNotAllowed (what : String)
  | badKey (what : String)
  | badSignature
  | invalidClaim (what : String)
  deriving DecidableEq

/-- The `Display` text. -/
def JwsError.text : JwsError → String
  | .malformed what => s!"malformed JWT: {what}"
  | .unsupportedAlgorithm name => s!"unsupported algorithm: {name}"
  | .algorithmNotAllowed what => s!"algorithm {what} not allowed"
  | .badKey what => s!"bad key: {what}"
  | .badSignature => "signature verification failed"
  | .invalidClaim what => s!"invalid claim: {what}"

inductive Algorithm where
  | es256
  | es384
  | rs256
  | rs384
  | rs512
  | edDsa
  deriving DecidableEq

namespace Algorithm

def name : Algorithm → String
  | .es256 => "ES256"
  | .es384 => "ES384"
  | .rs256 => "RS256"
  | .rs384 => "RS384"
  | .rs512 => "RS512"
  | .edDsa => "EdDSA"

/-- `to_ascii_uppercase`. -/
def upper (name : String) : String :=
  String.ofList (name.toList.map Char.toUpper)

/-- `Algorithm::parse`, which does not tell upper from lower case. -/
def parse (name : String) : Except JwsError Algorithm :=
  let name := upper name
  if name = "ES256" then .ok .es256
  else if name = "ES384" then .ok .es384
  else if name = "RS256" then .ok .rs256
  else if name = "RS384" then .ok .rs384
  else if name = "RS512" then .ok .rs512
  else if name = "EDDSA" then .ok .edDsa
  else .error (.unsupportedAlgorithm name)

end Algorithm

structure Header where
  alg : String
  kid : Option String
  typ : Option String
  jwk : Option Value

/-- The fields of `Header`. -/
def Header.fieldNames : List String :=
  ["alg", "kid", "typ", "jwk"]

/-- The derived reader of `Header`, for a value without repeated fields. -/
def Header.ofValue (v : Value) : Option Header := do
  let fields ← Fields.ofValue 4 v
  let alg ← fields.required Value.asStr 0 "alg"
  let kid ← fields.optional Value.asStr 1 "kid" true
  let typ ← fields.optional Value.asStr 2 "typ" true
  let jwk ← fields.optional some 3 "jwk" true
  some ⟨alg, kid, typ, jwk⟩

/-- `DecodingKey`: points in their uncompressed form, and the numbers of an RSA key. -/
inductive DecodingKey where
  | ed25519 (point : Bytes)
  | p256 (point : Bytes)
  | p384 (point : Bytes)
  | rsa (n e : Nat)
  deriving DecidableEq

/-- The algorithms that go with a type of key. -/
def DecodingKey.supports : DecodingKey → Algorithm → Bool
  | .ed25519 _, alg => alg = .edDsa
  | .p256 _, alg => alg = .es256
  | .p384 _, alg => alg = .es384
  | .rsa _ _, alg => alg = .rs256 ∨ alg = .rs384 ∨ alg = .rs512

/-- What other crates do; texts are those of their errors. -/
structure Library where
  /-- The value of a JSON text; the last one of repeated keys counts. -/
  parse : String → Option Value
  /-- The keys that the object at the top of a JSON text has more than once. -/
  repeated : String → List String
  /-- The text of the error for bytes that `serde_json` refuses. -/
  serdeError : Bytes → String
  p256Point : Bytes → Except String Unit
  p384Point : Bytes → Except String Unit
  ed25519Point : Bytes → Except String Unit
  rsaNumbers : Nat → Nat → Except String Unit
  /-- The signature of a message is good under a key of the right type. -/
  verifies : Algorithm → DecodingKey → Bytes → Bytes → Bool
  /-- A byte order mark is no part of a JSON text. -/
  parse_bom : ∀ chars, parse (String.ofList ('\uFEFF' :: chars)) = none
  p256Point_length : ∀ xy, p256Point (0x04 :: xy) = .ok () → xy.length = 64
  p384Point_length : ∀ xy, p384Point (0x04 :: xy) = .ok () → xy.length = 96
  /-- A signature is a pair of numbers as wide as the coordinates. -/
  es256_length : ∀ key message signature,
    verifies .es256 key message signature = true → signature.length = 64
  es384_length : ∀ key message signature,
    verifies .es384 key message signature = true → signature.length = 96

structure Validation where
  algorithms : List Algorithm
  leeway : UInt64
  validateExp : Bool
  validateNbf : Bool
  issuer : Option (List String)
  audience : Option (List String)

namespace Validation

def new (alg : Algorithm) : Validation :=
  ⟨[alg], 0, true, false, none, none⟩

def setIssuer (v : Validation) (issuers : List String) : Validation :=
  { v with issuer := some issuers }

def setAudience (v : Validation) (audiences : List String) : Validation :=
  { v with audience := some audiences }

end Validation

structure TokenData (α : Type) where
  header : Header
  claims : α

/-! ## Claims -/

def asU64 : Value → Option Nat
  | .number (.posInt n) => some n.val
  | _ => none

/-- `saturating_add` on `u64`. -/
def saturatingAdd (a b : Nat) : Nat :=
  min (a + b) (2 ^ 64 - 1)

/-- The audience of a token is among the accepted ones. -/
def audienceAccepted (claims : Value) (audiences : List String) : Bool :=
  match claims.get? "aud" with
  | some (.string a) => audiences.contains a
  | some (.array items) => (items.filterMap Value.asStr).any audiences.contains
  | _ => false

/-- The check of `exp` in `validate_registered_claims`. -/
def validateExp (claims : Value) (v : Validation) (now : UInt64) : Except JwsError Unit :=
  if v.validateExp then do
    let exp ← okOr ((claims.get? "exp").bind asU64) (.invalidClaim "exp missing")
    require (now.toNat ≤ saturatingAdd exp v.leeway.toNat) (.invalidClaim "token expired")
  else .ok ()

/-- The check of `nbf`. -/
def validateNbf (claims : Value) (v : Validation) (now : UInt64) : Except JwsError Unit :=
  match v.validateNbf, (claims.get? "nbf").bind asU64 with
  | true, some nbf =>
    require (nbf - v.leeway.toNat ≤ now.toNat) (.invalidClaim "token not yet valid")
  | _, _ => .ok ()

/-- The check of `iss`. -/
def validateIss (claims : Value) (v : Validation) : Except JwsError Unit :=
  match v.issuer with
  | some issuers => do
    let iss ← okOr ((claims.get? "iss").bind Value.asStr) (.invalidClaim "iss missing")
    require (iss ∈ issuers) (.invalidClaim s!"issuer {iss} not accepted")
  | none => .ok ()

/-- The check of `aud`. -/
def validateAud (claims : Value) (v : Validation) : Except JwsError Unit :=
  match v.audience with
  | some audiences =>
    require (audienceAccepted claims audiences) (.invalidClaim "audience not accepted")
  | none => .ok ()

def validateRegisteredClaims (claims : Value) (v : Validation) (now : UInt64) :
    Except JwsError Unit := do
  validateExp claims v now
  validateNbf claims v now
  validateIss claims v
  validateAud claims v

/-! ## Decoding -/

/-- The parts of a token between the dots. -/
def parts (token : String) : List String :=
  (token.toList.splitOn '.').map String.ofList

/-- The three segments of a compact token. -/
def segments (token : String) : Option (String × String × String) :=
  match parts token with
  | [h, p, s] => some (h, p, s)
  | _ => none

/-- A segment as bytes. -/
def decodeSegment (what segment : String) : Except JwsError Bytes :=
  (urlSafeNoPad.decode (utf8 segment)).mapError fun e =>
    let text := e.text
    .malformed s!"{what} base64url: {text}"

namespace Library

variable (lib : Library)

/-- The header of a JSON text.  A field that stands twice is an error, as the record is read
without a value in between. -/
def headerOfText (text : String) : Option Header :=
  if ∃ name ∈ Header.fieldNames, name ∈ lib.repeated text then none
  else (lib.parse text).bind Header.ofValue

/-- The header in a segment. -/
def readHeader (segment : String) : Except JwsError Header := do
  let bytes ← decodeSegment "header" segment
  let text := lib.serdeError bytes
  okOr ((ofUtf8? bytes).bind lib.headerOfText) (.malformed s!"header JSON: {text}")

def decodeHeader (token : String) : Except JwsError Header :=
  lib.readHeader ((parts token).headD "")

def verify (key : DecodingKey) (alg : Algorithm) (message signature : Bytes) :
    Except JwsError Unit := do
  let name := alg.name
  require (key.supports alg)
    (.algorithmNotAllowed s!"{name} incompatible with the provided key type")
  require (lib.verifies alg key message signature) .badSignature

/-- `decode`; `fromValue` reads the claims. -/
def decode {α : Type} (fromValue : Value → Except String α) (token : String) (key : DecodingKey)
    (validation : Validation) (now : UInt64) : Except JwsError (TokenData α) := do
  let (h, p, s) ← okOr (segments token) (.malformed "expected three dot-separated segments")
  let header ← lib.readHeader h
  let alg ← Algorithm.parse header.alg
  require (alg ∈ validation.algorithms) (.algorithmNotAllowed alg.name)
  let signature ← decodeSegment "signature" s
  let message := (utf8 token).take ((utf8 h).length + 1 + (utf8 p).length)
  lib.verify key alg message signature
  let payloadBytes ← decodeSegment "payload" p
  let text := lib.serdeError payloadBytes
  let claimsValue ← okOr ((ofUtf8? payloadBytes).bind lib.parse)
    (.malformed s!"payload JSON: {text}")
  validateRegisteredClaims claimsValue validation now
  let claims ← (fromValue claimsValue).mapError fun e => .malformed s!"claims shape: {e}"
  return ⟨header, claims⟩

/-! ## Keys -/

def b64u (text what : String) : Except JwsError Bytes :=
  (urlSafeNoPad.decode (utf8 text)).mapError fun e =>
    let message := e.text
    .badKey s!"base64url {what}: {message}"

/-- `DecodingKey::from_ec_components`: the curve is told by the width. -/
def fromEcComponents (x y : String) : Except JwsError DecodingKey := do
  let xb ← b64u x "x"
  let yb ← b64u y "y"
  require (xb.length = yb.length) (.badKey "EC x/y length mismatch")
  let sec1 := 0x04 :: xb ++ yb
  let width := xb.length
  if width = 32 then
    (lib.p256Point sec1).mapError fun e => .badKey s!"P-256 point: {e}"
    return .p256 sec1
  else if width = 48 then
    (lib.p384Point sec1).mapError fun e => .badKey s!"P-384 point: {e}"
    return .p384 sec1
  else throw (.badKey s!"unsupported EC width {width}")

def fromRsaComponents (n e : String) : Except JwsError DecodingKey := do
  let nb ← b64u n "n"
  let eb ← b64u e "e"
  (lib.rsaNumbers (BigEndian.decode nb) (BigEndian.decode eb)).mapError fun e =>
    .badKey s!"RSA components: {e}"
  return .rsa (BigEndian.decode nb) (BigEndian.decode eb)

def fromEdComponents (x : String) : Except JwsError DecodingKey := do
  let xb ← b64u x "x"
  require (xb.length = 32) (.badKey "Ed25519 x must be 32 bytes")
  (lib.ed25519Point xb).mapError fun e => .badKey s!"Ed25519 point: {e}"
  return .ed25519 xb

end Library

/-! ## What is behind a decoded token -/

theorem token_of_segments {token h p s : String} (cut : segments token = some (h, p, s)) :
    token = h ++ "." ++ p ++ "." ++ s := by
  have listed : parts token = [h, p, s] := by
    unfold segments at cut
    split at cut
    · next listed =>
      cases cut
      exact listed
    · cases cut
  have joined : ['.'].intercalate (token.toList.splitOn '.') = token.toList :=
    intercalate_splitOn '.'
  have pieces : token.toList.splitOn '.' = [h.toList, p.toList, s.toList] := by
    have back := congrArg (List.map String.toList) listed
    simpa [parts, Function.comp_def] using back
  rw [pieces] at joined
  apply String.toList_injective
  rw [← joined]
  simp

/-- The message is the token up to its second dot. -/
theorem message_eq {token h p s : String} (cut : segments token = some (h, p, s)) :
    (utf8 token).take ((utf8 h).length + 1 + (utf8 p).length) =
      utf8 (h ++ "." ++ p) := by
  have dot : (utf8 ".").length = 1 := rfl
  have length : (utf8 h).length + 1 + (utf8 p).length =
      (utf8 (h ++ "." ++ p)).length := by
    rw [utf8_append, utf8_append, length_append, length_append, dot]
  have whole : utf8 token = utf8 (h ++ "." ++ p) ++ utf8 ("." ++ s) := by
    rw [← utf8_append, token_of_segments cut, @String.append_assoc (h ++ "." ++ p)]
  rw [length, whole, take_left]

/-- A segment decodes exactly if it is the encoding of its bytes. -/
theorem decodeSegment_eq_ok_iff {what segment : String} {bytes : Bytes} :
    decodeSegment what segment = .ok bytes ↔ segment = urlSafeNoPad.encode bytes := by
  rw [decodeSegment, mapError_eq_ok_iff, urlSafeNoPad.decode_eq_ok_iff]

/-- Claims that pass `validate_registered_claims`. -/
structure ValidClaims (claims : Value) (v : Validation) (now : UInt64) : Prop where
  exp : v.validateExp = true → ∃ exp, (claims.get? "exp").bind asU64 = some exp ∧
    now.toNat ≤ saturatingAdd exp v.leeway.toNat
  nbf : v.validateNbf = true → ∀ nbf, (claims.get? "nbf").bind asU64 = some nbf →
    nbf - v.leeway.toNat ≤ now.toNat
  iss : ∀ issuers, v.issuer = some issuers →
    ∃ iss, (claims.get? "iss").bind Value.asStr = some iss ∧ iss ∈ issuers
  aud : ∀ audiences, v.audience = some audiences → audienceAccepted claims audiences = true

variable {u : Unit}

section

variable {claims : Value} {v : Validation} {now : UInt64}

theorem validateExp_eq_ok_iff :
    validateExp claims v now = .ok u ↔
      (v.validateExp = true → ∃ exp, (claims.get? "exp").bind asU64 = some exp ∧
        now.toNat ≤ saturatingAdd exp v.leeway.toNat) := by
  unfold validateExp
  cases v.validateExp with
  | false => simp
  | true => simp [bind_eq_ok_iff, okOr_eq_ok_iff, require_eq_ok_iff]

theorem validateNbf_eq_ok_iff :
    validateNbf claims v now = .ok u ↔
      (v.validateNbf = true → ∀ nbf, (claims.get? "nbf").bind asU64 = some nbf →
        nbf - v.leeway.toNat ≤ now.toNat) := by
  unfold validateNbf
  cases v.validateNbf with
  | false => simp
  | true =>
    cases (claims.get? "nbf").bind asU64 with
    | none => simp
    | some nbf => simp [require_eq_ok_iff]

theorem validateIss_eq_ok_iff :
    validateIss claims v = .ok u ↔ ∀ issuers, v.issuer = some issuers →
      ∃ iss, (claims.get? "iss").bind Value.asStr = some iss ∧ iss ∈ issuers := by
  unfold validateIss
  cases v.issuer with
  | none => simp
  | some issuers =>
    simp [bind_eq_ok_iff, okOr_eq_ok_iff, require_eq_ok_iff]

theorem validateAud_eq_ok_iff :
    validateAud claims v = .ok u ↔ ∀ audiences, v.audience = some audiences →
      audienceAccepted claims audiences = true := by
  unfold validateAud
  cases v.audience with
  | none => simp
  | some audiences => simp [require_eq_ok_iff]

theorem validateRegisteredClaims_eq_ok_iff :
    validateRegisteredClaims claims v now = .ok u ↔ ValidClaims claims v now := by
  simp only [validateRegisteredClaims, bind_eq_ok_iff, validateExp_eq_ok_iff,
    validateNbf_eq_ok_iff, validateIss_eq_ok_iff, validateAud_eq_ok_iff]
  constructor
  · rintro ⟨_, exp, _, nbf, _, iss, aud⟩
    exact ⟨exp, nbf, iss, aud⟩
  · rintro ⟨exp, nbf, iss, aud⟩
    exact ⟨(), exp, (), nbf, (), iss, aud⟩

end

/-- What a compact token is made of. -/
structure Content where
  h : String
  p : String
  s : String
  headerText : String
  payloadText : String
  claims : Value
  signature : Bytes

/-- The content of a token that `decode` accepts. -/
structure Decoded {α : Type} (lib : Library) (fromValue : Value → Except String α) (token : String)
    (key : DecodingKey) (v : Validation) (now : UInt64) (data : TokenData α) (alg : Algorithm)
    (content : Content) : Prop where
  cut : segments token = some (content.h, content.p, content.s)
  header : content.h = urlSafeNoPad.encode (utf8 content.headerText)
  headerRead : lib.headerOfText content.headerText = some data.header
  algorithm : Algorithm.parse data.header.alg = .ok alg
  allowed : alg ∈ v.algorithms
  signature : content.s = urlSafeNoPad.encode content.signature
  supports : key.supports alg = true
  verifies :
    lib.verifies alg key (utf8 (content.h ++ "." ++ content.p)) content.signature = true
  payload : content.p = urlSafeNoPad.encode (utf8 content.payloadText)
  payloadRead : lib.parse content.payloadText = some content.claims
  valid : ValidClaims content.claims v now
  shape : fromValue content.claims = .ok data.claims

namespace Library

variable {lib : Library} {α : Type} {fromValue : Value → Except String α} {token : String}
  {key : DecodingKey} {v : Validation} {now : UInt64} {data : TokenData α}

theorem readHeader_eq_ok_iff {segment : String} {header : Header} :
    lib.readHeader segment = .ok header ↔
      ∃ text, segment = urlSafeNoPad.encode (utf8 text) ∧
        lib.headerOfText text = some header := by
  simp only [readHeader, bind_eq_ok_iff, decodeSegment_eq_ok_iff, okOr_eq_ok_iff, bind_eq_some_iff]
  constructor
  · rintro ⟨bytes, rfl, text, read, found⟩
    exact ⟨text, by rw [utf8_of_ofUtf8? read], found⟩
  · rintro ⟨text, rfl, found⟩
    exact ⟨_, rfl, text, ofUtf8?_utf8 text, found⟩

theorem verify_eq_ok_iff {alg : Algorithm} {message signature : Bytes} :
    lib.verify key alg message signature = .ok u ↔
      key.supports alg = true ∧ lib.verifies alg key message signature = true := by
  simp [verify, bind_eq_ok_iff, require_eq_ok_iff]

theorem decode_eq_ok_iff :
    lib.decode fromValue token key v now = .ok data ↔
      ∃ alg content, Decoded lib fromValue token key v now data alg content := by
  simp only [decode, bind_eq_ok_iff, okOr_eq_ok_iff, require_eq_ok_iff,
    mapError_eq_ok_iff, readHeader_eq_ok_iff, decodeSegment_eq_ok_iff, verify_eq_ok_iff,
    validateRegisteredClaims_eq_ok_iff, bind_eq_some_iff, Prod.exists, exists_const]
  constructor
  · rintro ⟨h, p, s, cut, header, ⟨headerText, segment, headerRead⟩, alg, algorithm, allowed,
      signature, signed, ⟨supports, verifies⟩, bytes, payload, claims,
      ⟨payloadText, text, payloadRead⟩, valid, read, shape, made⟩
    obtain rfl := Except.ok.inj made
    rw [message_eq cut] at verifies
    rw [← utf8_of_ofUtf8? text] at payload
    exact ⟨alg, ⟨h, p, s, headerText, payloadText, claims, signature⟩, {
      cut, header := segment, headerRead, algorithm, allowed, signature := signed, supports,
      verifies, payload, payloadRead, valid, shape }⟩
  · rintro ⟨alg, content, decoded⟩
    have verifies := decoded.verifies
    rw [← message_eq decoded.cut] at verifies
    have text := ofUtf8?_utf8 content.payloadText
    exact ⟨_, _, _, decoded.cut, _, ⟨_, decoded.header, decoded.headerRead⟩, _, decoded.algorithm,
      decoded.allowed, _, decoded.signature, ⟨decoded.supports, verifies⟩, _, decoded.payload, _,
      ⟨_, text, decoded.payloadRead⟩, decoded.valid, _, decoded.shape, rfl⟩

end Library

/-- The claims of a token do not depend on the key and the time it is decoded with. -/
theorem Decoded.claims_unique {lib : Library} {α : Type} {fromValue : Value → Except String α}
    {token : String} {key key' : DecodingKey} {v v' : Validation} {now now' : UInt64}
    {data data' : TokenData α} {alg alg' : Algorithm} {content content' : Content}
    (first : Decoded lib fromValue token key v now data alg content)
    (second : Decoded lib fromValue token key' v' now' data' alg' content') :
    content.claims = content'.claims := by
  have cut := some.inj (first.cut.symm.trans second.cut)
  have payload : content.p = content'.p := congrArg (fun parts => parts.2.1) cut
  have encoded : urlSafeNoPad.encode (utf8 content.payloadText) =
      urlSafeNoPad.encode (utf8 content'.payloadText) := by
    rw [← first.payload, ← second.payload, payload]
  have decoded := urlSafeNoPad.decode_encode (utf8 content.payloadText)
  rw [encoded, urlSafeNoPad.decode_encode] at decoded
  have text : content.payloadText = content'.payloadText :=
    utf8_injective (Except.ok.inj decoded).symm
  have read := first.payloadRead
  rw [text] at read
  exact some.inj (read.symm.trans second.payloadRead)

/-- A number is later than a time. -/
def Later : Json.Number → Nat → Prop
  | .posInt n, time => time < n.val
  | .negInt _, _ => False
  | .float f, time => f.negative = false ∧ time * 2 ^ 1075 < f.significand * 2 ^ f.scale

/-- What `decode` accepts has not expired, and a start of its validity that is still to come is a
floating point number: such a claim is not looked at. -/
theorem decode_eq_ok_iff_times {lib : Library} {α : Type} {fromValue : Value → Except String α}
    {token : String} {key : DecodingKey} {v : Validation} {now : UInt64} {data : TokenData α} :
    lib.decode fromValue token key v now = .ok data ↔
      ∃ alg content, Decoded lib fromValue token key v now data alg content ∧
        (v.validateExp = true → ∃ exp, (content.claims.get? "exp").bind asU64 = some exp ∧
          now.toNat ≤ exp + v.leeway.toNat) ∧
        (v.validateNbf = true →
          ((∃ nbf, content.claims.get? "nbf" = some (.number nbf) ∧
              Later nbf (now.toNat + v.leeway.toNat)) ↔
            ∃ f, content.claims.get? "nbf" = some (.number (.float f)) ∧
              Later (.float f) (now.toNat + v.leeway.toNat))) := by
  rw [Library.decode_eq_ok_iff]
  constructor
  · rintro ⟨alg, content, decoded⟩
    refine ⟨alg, content, decoded, ?_, ?_⟩
    · intro checked
      obtain ⟨exp, has, fresh⟩ := decoded.valid.exp checked
      exact ⟨exp, has, le_trans fresh (min_le_left _ _)⟩
    · intro checked
      constructor
      · rintro ⟨nbf, has, later⟩
        cases nbf with
        | posInt n =>
          have started := decoded.valid.nbf checked n.val (by rw [has]; rfl)
          change _ < n.val at later
          omega
        | negInt n => exact later.elim
        | float f => exact ⟨f, has, later⟩
      · rintro ⟨f, has, later⟩
        exact ⟨_, has, later⟩
  · rintro ⟨alg, content, decoded, -⟩
    exact ⟨alg, content, decoded⟩

/-! ## A library to run tokens with -/

theorem fromStr_bom (readF64 : List Char → Option Json.F64) (chars : List Char) :
    fromStr readF64 (String.ofList ('\uFEFF' :: chars)) = none := by
  have noDigits : (spanDigits (scanSign ('\uFEFF' :: chars)).2).1 = [] := by
    simp [scanSign, spanDigits]
  simp [fromStr, readValue, skipSpace, isSpace, scanNumber, noDigits]

/-- Any signature is one for EdDSA. -/
def sampleLibrary : Library where
  parse := fromStr fun _ => none
  repeated := fun _ => []
  serdeError := fun _ => ""
  p256Point := fun _ => .error ""
  p384Point := fun _ => .error ""
  ed25519Point := fun _ => .ok ()
  rsaNumbers := fun _ _ => .error ""
  verifies := fun alg _ _ _ => alg = .edDsa
  parse_bom := fromStr_bom _
  p256Point_length := nofun
  p384Point_length := nofun
  es256_length := nofun
  es384_length := nofun

def asNumber : Value → Option Json.Number
  | .number n => some n
  | _ => none

/-- The claims `{"nbf":1.0}` are accepted at 0. -/
theorem float_nbf_accepted :
    let lib := { sampleLibrary with
      parse := fromStr fun _ => some .one
      parse_bom := fromStr_bom _ }
    (lib.decode .ok "eyJhbGciOiJFZERTQSJ9.eyJuYmYiOjEuMH0." (.ed25519 [])
        ⟨[.edDsa], 0, false, true, none, none⟩ 0).map
        (fun data => (data.claims.get? "nbf").bind asNumber) = .ok (some (.float .one)) ∧
      Later (.float .one) 0 :=
  ⟨by decide +kernel, rfl, by decide +kernel⟩

end TrustForge.Jws
