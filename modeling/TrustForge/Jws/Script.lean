import TrustForge.Cbor.Script
import TrustForge.Jws

/-!
# Signed tokens in TypeScript

Model of `jws.ts`: `b64uDecode`, the algorithms of a JWK, `verifySignature`, and `jwtVerify` with
`validateClaims`.  JSON and signatures are left to the library that the Rust side has, too.  A
number of a token is a binary64 number here, and so are the sums with the clock tolerance; what is
used of their rounding is that it keeps the order and small integers.
-/

namespace TrustForge.Jws.Script

open Cbor.Script (stripBom)
open Json (F64 Value)
open Result (okOr require)

/-- `Jwk`: its type, and its other members. -/
structure Jwk where
  kty : String
  members : List (String × Value)

/-- A member that is a string. -/
def Jwk.text (jwk : Jwk) (member : String) : Option String :=
  (AssocMap.get? member jwk.members).bind Value.asStr

/-- `JwsAlgorithm`: those of the Rust side, and ES512. -/
inductive JwsAlgorithm where
  | shared (alg : Algorithm)
  | es512
  deriving DecidableEq

namespace JwsAlgorithm

def name : JwsAlgorithm → String
  | .shared alg => alg.name
  | .es512 => "ES512"

/-- The algorithms that are taken without an allow-list. -/
def all : List JwsAlgorithm :=
  [.shared .es256, .shared .es384, .es512, .shared .rs256, .shared .rs384, .shared .rs512,
    .shared .edDsa]

end JwsAlgorithm

/-! ## Base64 -/

/-- The characters of the expression `[A-Za-z0-9_-]`. -/
def isUrlSafe (c : Char) : Bool :=
  c.isUpper || c.isLower || c.isDigit || c = '_' || c = '-'

/-- The two replacements before `atob`. -/
def toStandard (c : Char) : Char :=
  if c = '-' then '+' else if c = '_' then '/' else c

/-- The six bits of a character of the standard alphabet. -/
def sixBits (c : Char) : Option Nat :=
  if c.isUpper then some (c.toNat - 65)
  else if c.isLower then some (c.toNat - 97 + 26)
  else if c.isDigit then some (c.toNat - 48 + 52)
  else if c = '+' then some 62
  else if c = '/' then some 63
  else none

/-- The bytes of groups of six bits.  A group alone at the end is an error, and bits that do not
fill a byte are dropped. -/
def joinBits : List Nat → Option Bytes
  | a :: b :: c :: d :: rest =>
    let n := a * 2 ^ 18 + b * 2 ^ 12 + c * 2 ^ 6 + d
    (joinBits rest).map fun out =>
      UInt8.ofNat (n / 2 ^ 16) :: UInt8.ofNat (n / 2 ^ 8) :: UInt8.ofNat n :: out
  | [a, b, c] =>
    let n := a * 2 ^ 18 + b * 2 ^ 12 + c * 2 ^ 6
    some [UInt8.ofNat (n / 2 ^ 16), UInt8.ofNat (n / 2 ^ 8)]
  | [a, b] =>
    let n := a * 2 ^ 18 + b * 2 ^ 12
    some [UInt8.ofNat (n / 2 ^ 16)]
  | [_] => none
  | [] => some []

/-- `atob` on a text that has neither white space nor padding. -/
def atob (text : List Char) : Option Bytes :=
  (text.mapM sixBits).bind joinBits

/-- The bytes that `b64uDecode` finds in a text. -/
def base64Bytes (text : String) : Option Bytes :=
  if text.toList.all isUrlSafe then atob (text.toList.map toStandard) else none

/-- What the runtime does; texts are those of its errors. -/
structure Engine where
  atobError : String
  jsonError : String → String
  /-- The error for a property of `null`. -/
  nullError : String
  /-- A value, or `undefined`, in a template. -/
  template : Option Value → String
  /-- `new TextDecoder().decode(bytes)`. -/
  textDecode : Bytes → String
  /-- `crypto.subtle.importKey` of an RSA key: its modulus and exponent. -/
  importKey : Jwk → Algorithm → Except String (Nat × Nat)
  /-- `p521.verify` with a point. -/
  verifiesP521 : Bytes → Bytes → Bytes → Bool
  /-- The binary64 number for an exact result. -/
  round : ℚ → ℚ
  textDecode_utf8 : ∀ s, textDecode (Text.utf8 s) = stripBom s
  importKey_numbers : ∀ jwk alg n e, importKey jwk alg = .ok (n, e) →
    ((jwk.text "n").bind base64Bytes).map BigEndian.decode = some n ∧
      ((jwk.text "e").bind base64Bytes).map BigEndian.decode = some e
  round_mono : ∀ {a b : ℚ}, a ≤ b → round a ≤ round b
  round_natCast : ∀ n : Nat, n ≤ 2 ^ 53 → round n = n

def b64uDecode (engine : Engine) (text what : String) : Except String Bytes := do
  require (text.toList.all isUrlSafe) s!"{what}: not base64url"
  okOr (atob (text.toList.map toStandard)) engine.atobError

/-! ## Keys -/

def jwkString (jwk : Jwk) (member : String) : Except String String :=
  okOr ((jwk.text member).filter (· ≠ "")) s!"JWK missing {member}"

/-- An entry of `EC_CURVES`. -/
structure Curve where
  alg : JwsAlgorithm
  width : Nat

/-- `EC_CURVES`. -/
def ecCurve (crv : String) : Option Curve :=
  if crv = "P-256" then some ⟨.shared .es256, 32⟩
  else if crv = "P-384" then some ⟨.shared .es384, 48⟩
  else if crv = "P-521" then some ⟨.es512, 66⟩
  else none

/-- Properties that every object has, `EC_CURVES` among them. -/
def inherited : List String :=
  ["constructor", "hasOwnProperty", "isPrototypeOf", "propertyIsEnumerable", "toLocaleString",
    "toString", "valueOf", "__proto__", "__defineGetter__", "__defineSetter__",
    "__lookupGetter__", "__lookupSetter__"]

def algorithmsForJwk (jwk : Jwk) : Except String (List JwsAlgorithm) :=
  let kty := jwk.kty
  if kty = "EC" then do
    let crv ← jwkString jwk "crv"
    -- an inherited property passes for a curve, and its algorithm is undefined
    if crv ∈ inherited then return []
    else (okOr (ecCurve crv) s!"unsupported EC curve {crv}").map ([·.alg])
  else if kty = "OKP" then do
    let crv ← jwkString jwk "crv"
    require (crv = "Ed25519") s!"unsupported OKP curve {crv}"
    return [.shared .edDsa]
  else if kty = "RSA" then .ok [.shared .rs256, .shared .rs384, .shared .rs512]
  else .error s!"unsupported kty {kty}"

/-! ## Signatures -/

section

variable (lib : Library) (engine : Engine)

/-- A member of a JWK as bytes. -/
def jwkBytes (jwk : Jwk) (member : String) : Except String Bytes := do
  let text ← jwkString jwk member
  b64uDecode engine text s!"JWK {member}"

/-- The point of an EC key. -/
def ecPoint (jwk : Jwk) : Except String Bytes := do
  let x ← jwkBytes engine jwk "x"
  let y ← jwkBytes engine jwk "y"
  return 0x04 :: (x ++ y)

/-- The branch of `verifySignature` for ES256, ES384 and ES512; the curve is that of the
algorithm. -/
def verifyEc (jwk : Jwk) (width : Nat) (verify : Bytes → Bytes → Bytes → Bool)
    (message signature : Bytes) : Except String Bool := do
  let point ← ecPoint engine jwk
  return decide (signature.length = width * 2) && verify point message signature

def verifySignature (alg : JwsAlgorithm) (jwk : Jwk) (message signature : Bytes) :
    Except String Bool := do
  let name := alg.name
  let kty := jwk.kty
  let supported ← algorithmsForJwk jwk
  require (alg ∈ supported) s!"{name} incompatible with kty {kty}"
  match alg with
  | .shared .edDsa => do
    let pub ← jwkBytes engine jwk "x"
    return lib.verifies .edDsa (.ed25519 pub) message signature
  | .shared .es256 =>
    verifyEc engine jwk 32 (fun point => lib.verifies .es256 (.p256 point)) message signature
  | .shared .es384 =>
    verifyEc engine jwk 48 (fun point => lib.verifies .es384 (.p384 point)) message signature
  | .es512 => verifyEc engine jwk 66 engine.verifiesP521 message signature
  | .shared rsa => do
    let (n, e) ← engine.importKey jwk rsa
    return lib.verifies rsa (.rsa n e) message signature

end

/-! ## Claims -/

/-- The number that a bit pattern stands for. -/
def toRat (f : F64) : ℚ :=
  (if f.negative then -1 else 1) * (f.significand * 2 ^ f.scale / 2 ^ 1075)

namespace Engine

variable (engine : Engine)

/-- A number of a token. -/
def number : Json.Number → ℚ
  | .posInt n => engine.round (n.val : Nat)
  | .negInt n => engine.round (-((n.val : Nat) + 1))
  | .float f => toRat f

/-- `exp + leeway < now`. -/
def expired (exp : Json.Number) (leeway : UInt64) (now : Int) : Prop :=
  engine.round (engine.number exp + engine.round leeway.toNat) < now

/-- `nbf - leeway > now`. -/
def early (nbf : Json.Number) (leeway : UInt64) (now : Int) : Prop :=
  now < engine.round (engine.number nbf - engine.round leeway.toNat)

instance (exp : Json.Number) (leeway : UInt64) (now : Int) :
    Decidable (engine.expired exp leeway now) :=
  inferInstanceAs (Decidable (_ < _))

instance (nbf : Json.Number) (leeway : UInt64) (now : Int) :
    Decidable (engine.early nbf leeway now) :=
  inferInstanceAs (Decidable (_ < _))

end Engine

/-- `JWTVerifyOptions`.  A single issuer or audience is a list of one; the tolerance is a whole
number of seconds. -/
structure JwtVerifyOptions where
  issuer : Option (List String)
  audience : Option (List String)
  algorithms : Option (List JwsAlgorithm)
  clockTolerance : Option UInt64
  typ : Option String

/-- A time that may be absent, and otherwise is a number that is not refused. -/
def checkTime (claim : Option Value) (refused : Json.Number → Prop) [DecidablePred refused]
    (message : String) : Except String Unit :=
  match claim with
  | none => .ok ()
  | some (.number n) => require (¬refused n) message
  | some _ => .error message

/-- The strings in an audience; nothing else is equal to an expected one. -/
def audienceTexts : Option Value → List String
  | some (.string a) => [a]
  | some (.array items) => items.filterMap Value.asStr
  | _ => []

def isNull : Value → Bool
  | .null => true
  | _ => false

def validateClaims (engine : Engine) (payload : Value) (options : JwtVerifyOptions) (now : Int) :
    Except String Unit := do
  let leeway := options.clockTolerance.getD 0
  let iss := payload.get? "iss"
  let issText := engine.template iss
  let actual := audienceTexts (payload.get? "aud")
  require (isNull payload = false) engine.nullError
  checkTime (payload.get? "exp") (engine.expired · leeway now) "token expired"
  checkTime (payload.get? "nbf") (engine.early · leeway now) "token not yet valid"
  require (∀ issuers ∈ options.issuer, ∃ i ∈ iss.bind Value.asStr, i ∈ issuers)
    s!"issuer {issText} not accepted"
  require (∀ expected ∈ options.audience, ∃ a ∈ actual, a ∈ expected) "audience not accepted"

/-! ## Tokens -/

section

variable (lib : Library) (engine : Engine)

/-- The value in a segment. -/
def readSegment (segment what : String) : Except String Value := do
  let bytes ← (b64uDecode engine segment what).mapError fun e => s!"{what} parse: {e}"
  let text := engine.textDecode bytes
  let message := engine.jsonError text
  okOr (lib.parse text) s!"{what} parse: {message}"

/-- The algorithm of a token, if it may be used. -/
def allowedAlgorithm (allowed : Option (List JwsAlgorithm)) (alg : String) :
    Except String JwsAlgorithm :=
  match allowed with
  | some allowed => okOr (allowed.find? (·.name = alg)) s!"algorithm {alg} not allowed"
  | none => okOr (JwsAlgorithm.all.find? (·.name = alg)) s!"unsupported algorithm {alg}"

/-- `jwtVerify`: the payload, the header and the key.  A key that is given as such is a resolver
that does not look at the header. -/
def jwtVerify (token : String) (key : Value → Except String Jwk) (options : JwtVerifyOptions)
    (now : Int) : Except String (Value × Value × Jwk) := do
  require (token ≠ "") "empty token"
  let (h, p, s) ← okOr (segments token) "expected three dot-separated segments"
  let header ← readSegment lib engine h "header"
  require (isNull header = false) engine.nullError
  let name ← okOr ((header.get? "alg").bind Value.asStr) "token alg missing or none"
  require (name ≠ "none") "token alg missing or none"
  let alg ← allowedAlgorithm options.algorithms name
  let typ := engine.template (header.get? "typ")
  let wanted := options.typ.getD ""
  require (∀ t ∈ options.typ, (header.get? "typ").bind Value.asStr = some t)
    s!"typ {typ} is not {wanted}"
  let jwk ← key header
  let signature ← b64uDecode engine s "signature"
  let valid ← verifySignature lib engine alg jwk (Text.utf8 (h ++ "." ++ p)) signature
  require (valid = true) "signature verification failed"
  let payload ← readSegment lib engine p "payload"
  validateClaims engine payload options now
  return (payload, header, jwk)

end

end TrustForge.Jws.Script
