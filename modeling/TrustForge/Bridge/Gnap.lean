import TrustForge.Bridge
import TrustForge.Jws

/-!
# GNAP access tokens

Model of `verify_access_token` in `bridge_gnap.rs`, with `project_jwk_to_public_key` of
`bridge_oauth.rs`.  A token is bound to a client key by the thumbprint in its `cnf.jkt`; which
tokens are bound depends on what the authorization server wrote into them.
-/

namespace TrustForge.Gnap

open Result Option
open Encoding (standard urlSafeNoPad)
open Json (Value)
open Jws (Algorithm DecodingKey Validation)

structure Jwk where
  kty : String
  kid : Option String
  crv : Option String
  x : Option String
  y : Option String
  n : Option String
  e : Option String

/-- `GnapAccessRight`: only its actions are used. -/
inductive GnapAccessRight where
  | reference (name : String)
  | object (actions : Option (List String))

def GnapAccessRight.actions : GnapAccessRight → List String
  | .reference name => [name]
  | .object actions => actions.getD []

/-- `GnapGrantRequest`, down to the key of its client and the rights it asks for. -/
structure GnapGrantRequest where
  jwk : Jwk
  access : List GnapAccessRight

structure GnapBridgeConfig where
  trustDomain : String
  issuer : String
  allowedAlgorithms : List String
  keys : List Jwk

/-- `ActorType`, as far as a token can name it. -/
inductive ActorType where
  | human
  | agent
  | device
  | service
  | site
  | organization

def ActorType.parse (name : String) : Option ActorType :=
  if name = "human" then some .human
  else if name = "agent" then some .agent
  else if name = "device" then some .device
  else if name = "service" then some .service
  else if name = "site" then some .site
  else if name = "organization" then some .organization
  else none

/-- `PublicKey`, without its fixed purpose. -/
structure PublicKey where
  keyId : String
  algorithm : String
  publicKey : String

/-- `GnapVerifiedGrant`, with what varies in its identity. -/
structure GnapVerifiedGrant where
  actorId : String
  actorType : ActorType
  publicKey : PublicKey
  authorityRoot : String
  validFrom : String
  validUntil : Option String
  capabilities : List String
  clientKeyThumbprint : String

/-- How a call ends without a grant. -/
inductive Stop where
  | error (e : BridgeError)
  | panic
  deriving DecidableEq

/-- The libraries of a token, the hash, and the error for claims that are no object. -/
structure Library extends Jws.Library where
  sha256 : Bytes → Bytes
  shapeError : Value → String

/-- A member of a JWK that has to be there. -/
def member (jwk : Jwk) (name : String) (value : Option String) : Except BridgeError String :=
  let kty := jwk.kty
  okOr value (.invalidInput s!"{kty} JWK missing {name}")

/-! ## Keys -/

def decodingKeyForJwk (lib : Library) (jwk : Jwk) : Except BridgeError DecodingKey :=
  let kty := jwk.kty
  let components (result : Except Jws.JwsError DecodingKey) :=
    result.mapError fun e =>
      let text := e.text
      BridgeError.invalidInput s!"bad {kty} components: {text}"
  if kty = "EC" then do
    let x ← member jwk "x" jwk.x
    let y ← member jwk "y" jwk.y
    components (lib.fromEcComponents x y)
  else if kty = "RSA" then do
    let n ← member jwk "n" jwk.n
    let e ← member jwk "e" jwk.e
    components (lib.fromRsaComponents n e)
  else if kty = "OKP" then do
    let x ← member jwk "x" jwk.x
    components (lib.fromEdComponents x)
  else .error (.invalidInput s!"unsupported kty {kty}")

/-- The text that a thumbprint is taken of. -/
def canonicalJwk (jwk : Jwk) : Except BridgeError String :=
  let kty := jwk.kty
  if kty = "EC" then do
    let crv ← member jwk "crv" jwk.crv
    let x ← member jwk "x" jwk.x
    let y ← member jwk "y" jwk.y
    return "\x7b\"crv\":\"" ++ crv ++ "\",\"kty\":\"" ++ kty ++ "\",\"x\":\"" ++ x ++
      "\",\"y\":\"" ++ y ++ "\"\x7d"
  else if kty = "OKP" then do
    let crv ← member jwk "crv" jwk.crv
    let x ← member jwk "x" jwk.x
    return "\x7b\"crv\":\"" ++ crv ++ "\",\"kty\":\"" ++ kty ++ "\",\"x\":\"" ++ x ++ "\"\x7d"
  else if kty = "RSA" then do
    let n ← member jwk "n" jwk.n
    let e ← member jwk "e" jwk.e
    return "\x7b\"e\":\"" ++ e ++ "\",\"kty\":\"" ++ kty ++ "\",\"n\":\"" ++ n ++ "\"\x7d"
  else .error (.unsupported s!"unsupported kty for thumbprint: {kty}")

def jwkThumbprint (lib : Library) (jwk : Jwk) : Except BridgeError String :=
  (canonicalJwk jwk).map fun canonical => urlSafeNoPad.encode (lib.sha256 (Text.utf8 canonical))

/-- The base 256 digits of a length. -/
def lengthBytes (n : Nat) : Bytes :=
  if n = 0 then [] else lengthBytes (n / 256) ++ [UInt8.ofNat n]

def derLen (n : Nat) : Bytes :=
  if n < 0x80 then [UInt8.ofNat n]
  else
    let bytes := lengthBytes n
    (0x80 ||| UInt8.ofNat bytes.length) :: bytes

def derSequence (parts : List Bytes) : Bytes :=
  let body := parts.flatten
  0x30 :: derLen body.length ++ body

/-- The bytes of a number without leading zeros, but with its last byte. -/
def stripZeros : Bytes → Bytes
  | 0 :: b :: rest => stripZeros (b :: rest)
  | bytes => bytes

/-- `der_integer`, which indexes into its argument and so panics without any bytes. -/
def derInteger (bytes : Bytes) : Except Stop Bytes :=
  match stripZeros bytes with
  | [] => .error .panic
  | first :: rest =>
    let payload := if 0x80 ≤ first then 0x00 :: first :: rest else first :: rest
    .ok (0x02 :: derLen payload.length ++ payload)

def encodeRsaSpki (n e : Bytes) : Except Stop Bytes := do
  let n ← derInteger n
  let e ← derInteger e
  let oidRsaEncryption := [0x06, 0x09, 0x2a, 0x86, 0x48, 0x86, 0xf7, 0x0d, 0x01, 0x01, 0x01]
  let algId := derSequence [oidRsaEncryption, [0x05, 0x00]]
  let body := 0x00 :: derSequence [n, e]
  return derSequence [algId, 0x03 :: derLen body.length ++ body]

/-- A member as bytes. -/
def memberBytes (jwk : Jwk) (name : String) (value : Option String) : Except Stop Bytes := do
  let text ← (member jwk name value).mapError .error
  (urlSafeNoPad.decode (Text.utf8 text)).mapError fun e =>
    let message := e.text
    .error (.invalidInput s!"base64url {name}: {message}")

/-- The name of the algorithm of an EC key. -/
def ecAlgorithm (crv : String) : String :=
  if crv = "P-256" then "p256"
  else if crv = "P-384" then "p384"
  else if crv = "P-521" then "p521"
  else "ec"

def projectJwkToPublicKey (jwk : Jwk) : Except Stop PublicKey :=
  let keyId := jwk.kid.getD "oauth-bridge-bearer"
  let kty := jwk.kty
  if kty = "OKP" then do
    let bytes ← memberBytes jwk "x" jwk.x
    return ⟨keyId, "ed25519", standard.encode bytes⟩
  else if kty = "EC" then do
    -- both members are looked up before either is decoded
    let _ ← (member jwk "x" jwk.x).mapError Stop.error
    let _ ← (member jwk "y" jwk.y).mapError Stop.error
    let x ← memberBytes jwk "x" jwk.x
    let y ← memberBytes jwk "y" jwk.y
    return ⟨keyId, ecAlgorithm (jwk.crv.getD ""), standard.encode (0x04 :: (x ++ y))⟩
  else if kty = "RSA" then do
    let _ ← (member jwk "n" jwk.n).mapError Stop.error
    let _ ← (member jwk "e" jwk.e).mapError Stop.error
    let n ← memberBytes jwk "n" jwk.n
    let e ← memberBytes jwk "e" jwk.e
    let der ← encodeRsaSpki n e
    return ⟨keyId, "rsa", standard.encode der⟩
  else .error (.error (.unsupported s!"unsupported JWK kty: {kty}"))

/-! ## Tokens -/

/-- Claims, a `HashMap` in the source. -/
abbrev Claims := List (String × Value)

/-- `serde_json::from_value` into a map. -/
def claimsOfValue (lib : Library) : Value → Except String Claims
  | .object entries => .ok entries
  | v => .error (lib.shapeError v)

/-- `cnf.jkt`, if `cnf` is an object and `jkt` in it a string. -/
def confirmation (claims : Claims) : Option String :=
  match AssocMap.get? "cnf" claims with
  | some (.object cnf) => (AssocMap.get? "jkt" cnf).bind Value.asStr
  | _ => none

/-- A claim that is a string. -/
def textClaim (claims : Claims) (name default : String) : String :=
  ((AssocMap.get? name claims).bind Value.asStr).getD default

/-- A claim that is a `u64`. -/
def timeClaim (claims : Claims) (name : String) : Option Nat :=
  (AssocMap.get? name claims).bind Jws.asU64

/-- `timestamp`, with the cast to `i64`. -/
def timestamp (t : Nat) : String :=
  utcText ((t : Int).bmod (2 ^ 64))

def urlEncode : String → String :=
  percentEncode ['-', '_', '.', '~']

section

variable (lib : Library) (cfg : GnapBridgeConfig)

/-- The checks that the token has to pass. -/
def validationFor (alg : Algorithm) : Validation :=
  { (Validation.new alg).setIssuer [cfg.issuer] with algorithms := [alg] }

/-- `verify_access_token` up to the claims; the request plays no part in it. -/
def verifiedClaims (token : String) (now : UInt64) : Except Stop Claims := do
  require (token ≠ "") (.error (.invalidInput "missing access token"))
  let header ← (lib.decodeHeader token).mapError fun e =>
    let text := e.text
    .error (.rejected s!"malformed JWT: {text}")
  let alg ← (Algorithm.parse header.alg).mapError fun e => .error (.rejected e.text)
  let algName := alg.name
  require (∃ a ∈ cfg.allowedAlgorithms, Algorithm.upper a = Algorithm.upper algName)
    (.error (.rejected s!"algorithm {algName} not in allow-list"))
  let kid ← okOr header.kid (.error (.rejected "JWT header missing kid"))
  let jwk ← okOr (cfg.keys.find? (·.kid = some kid)) (.error (.rejected s!"no JWK with kid {kid}"))
  let key ← (decodingKeyForJwk lib jwk).mapError .error
  let decoded := lib.decode (claimsOfValue lib) token key (validationFor cfg alg) now
  let data ← decoded.mapError fun e =>
    let text := e.text
    .error (.rejected s!"GNAP access token verify failed: {text}")
  return data.claims

/-- The grant that `verify_access_token` returns. -/
def verifiedGrant (claims : Claims) (request : GnapGrantRequest) (now : UInt64)
    (expectedJkt : String) (actorType : ActorType) (publicKey : PublicKey) : GnapVerifiedGrant where
  actorId :=
    let actorTypeStr := textClaim claims "tf_actor_type" "agent"
    let subject := textClaim claims "sub" "anonymous"
    "tf:actor:" ++ actorTypeStr ++ ":" ++ cfg.trustDomain ++ "/" ++ urlEncode subject
  actorType
  publicKey
  authorityRoot := cfg.issuer
  validFrom := timestamp ((timeClaim claims "iat").getD now.toNat)
  validUntil := (timeClaim claims "exp").map timestamp
  capabilities := request.access.flatMap GnapAccessRight.actions
  clientKeyThumbprint := expectedJkt

/-- The rest of `verify_access_token`. -/
def grantFor (claims : Claims) (request : GnapGrantRequest) (now : UInt64) :
    Except Stop GnapVerifiedGrant := do
  let expectedJkt ← (jwkThumbprint lib request.jwk).mapError .error
  require (∀ jkt ∈ confirmation claims, jkt = expectedJkt)
    (.error (.rejected "access token cnf.jkt does not match client.key"))
  let actorTypeStr := textClaim claims "tf_actor_type" "agent"
  let actorType ← okOr (ActorType.parse actorTypeStr)
    (.error (.rejected s!"unsupported tf_actor_type: {actorTypeStr}"))
  let publicKey ← projectJwkToPublicKey request.jwk
  return verifiedGrant cfg claims request now expectedJkt actorType publicKey

/-- `GnapBridge::verify_access_token`.  The clock is read twice. -/
def verifyAccessToken (token : String) (request : GnapGrantRequest) (now later : UInt64) :
    Except Stop GnapVerifiedGrant := do
  let claims ← verifiedClaims lib cfg token now
  grantFor lib cfg claims request later

end

/-! ## What is behind an accepted token -/

/-- The claims that a key of the configuration signed in a token. -/
def Signed (lib : Library) (cfg : GnapBridgeConfig) (token : String) (now : UInt64)
    (claims : Claims) : Prop :=
  ∃ jwk ∈ cfg.keys, ∃ key, decodingKeyForJwk lib jwk = .ok key ∧
    ∃ alg data content,
      Jws.Decoded lib.toLibrary (claimsOfValue lib) token key (validationFor cfg alg) now data alg
        content ∧ content.claims = .object claims

section

variable {lib : Library} {cfg : GnapBridgeConfig} {token : String} {now later : UInt64}
  {claims : Claims} {request : GnapGrantRequest} {grant : GnapVerifiedGrant}

theorem claimsOfValue_eq_ok {v : Value} (read : claimsOfValue lib v = .ok claims) :
    v = .object claims := by
  cases v with
  | object entries => rw [Except.ok.inj read]
  | null | bool | number | string | array => cases read

theorem signed_of_verifiedClaims (verified : verifiedClaims lib cfg token now = .ok claims) :
    Signed lib cfg token now claims := by
  simp only [verifiedClaims, bind_eq_ok_iff, mapError_eq_ok_iff,
    okOr_eq_ok_iff, Jws.Library.decode_eq_ok_iff] at verified
  obtain ⟨_, _, header, _, alg, _, _, _, kid, _, jwk, found, key, made, data,
    ⟨alg', content, decoded⟩, returned⟩ := verified
  obtain rfl : alg' = alg := List.mem_singleton.mp decoded.allowed
  have shape := claimsOfValue_eq_ok decoded.shape
  rw [Except.ok.inj returned] at shape
  exact ⟨jwk, List.mem_of_find?_eq_some found, key, made, alg', data, content, decoded, shape⟩

/-- A token has one set of signed claims, whenever it is looked at. -/
theorem Signed.unique {now' : UInt64} {claims' : Claims} (first : Signed lib cfg token now claims)
    (second : Signed lib cfg token now' claims') : claims = claims' := by
  obtain ⟨_, _, _, _, _, _, _, decoded, shape⟩ := first
  obtain ⟨_, _, _, _, _, _, _, decoded', shape'⟩ := second
  have same := decoded.claims_unique decoded'
  rw [shape, shape'] at same
  exact Value.object.inj same

theorem grantFor_eq_ok (granted : grantFor lib cfg claims request now = .ok grant) :
    ∃ thumbprint, jwkThumbprint lib request.jwk = .ok thumbprint ∧
      (∀ jkt, confirmation claims = some jkt → jkt = thumbprint) ∧
      (ActorType.parse (textClaim claims "tf_actor_type" "agent")).isSome = true := by
  simp only [grantFor, bind_eq_ok_iff, mapError_eq_ok_iff, require_eq_ok_iff,
    okOr_eq_ok_iff] at granted
  obtain ⟨thumbprint, printed, _, bound, actorType, known, _⟩ := granted
  exact ⟨thumbprint, printed, bound, isSome_iff_exists.mpr ⟨_, known⟩⟩

/-- Claims without a `cnf.jkt` are a grant for any key that can be written down. -/
theorem grantFor_of_unbound {thumbprint : String} {publicKey : PublicKey}
    (unbound : confirmation claims = none)
    (known : (ActorType.parse (textClaim claims "tf_actor_type" "agent")).isSome = true)
    (printed : jwkThumbprint lib request.jwk = .ok thumbprint)
    (projected : projectJwkToPublicKey request.jwk = .ok publicKey) :
    ∃ grant, grantFor lib cfg claims request now = .ok grant ∧
      grant.clientKeyThumbprint = thumbprint := by
  obtain ⟨actorType, parsed⟩ := isSome_iff_exists.mp known
  have free : ∀ jkt ∈ confirmation claims, jkt = thumbprint := by
    rw [unbound]
    nofun
  refine ⟨verifiedGrant cfg claims request now thumbprint actorType publicKey, ?_, rfl⟩
  simp only [grantFor, bind_eq_ok_iff, mapError_eq_ok_iff, require_eq_ok_iff, okOr_eq_ok_iff]
  exact ⟨_, printed, (), free, _, parsed, _, projected, rfl⟩

/-- The signed claims of an accepted token have the thumbprint of the client's key exactly if they
have a `cnf.jkt`.  Then no key with another thumbprint is accepted with the token, at any time;
otherwise every key is that has a thumbprint and a projection. -/
theorem accepted_token_bound_iff
    (accepted : verifyAccessToken lib cfg token request now later = .ok grant) :
    ∃ claims thumbprint, Signed lib cfg token now claims ∧
      jwkThumbprint lib request.jwk = .ok thumbprint ∧
      (confirmation claims = some thumbprint ↔ (confirmation claims).isSome = true) ∧
      ((confirmation claims).isSome = true → ∀ other now' later' grant',
        verifyAccessToken lib cfg token other now' later' = .ok grant' →
          jwkThumbprint lib other.jwk = .ok thumbprint) ∧
      (confirmation claims = none → ∀ other thumbprint' publicKey later',
        jwkThumbprint lib other.jwk = .ok thumbprint' →
        projectJwkToPublicKey other.jwk = .ok publicKey →
          ∃ grant', verifyAccessToken lib cfg token other now later' = .ok grant' ∧
            grant'.clientKeyThumbprint = thumbprint') := by
  obtain ⟨claims, verified, granted⟩ := bind_eq_ok accepted
  have signed := signed_of_verifiedClaims verified
  obtain ⟨thumbprint, printed, bound, known⟩ := grantFor_eq_ok granted
  refine ⟨claims, thumbprint, signed, printed, ?_, ?_, ?_⟩
  · constructor
    · intro has
      rw [has]
      rfl
    · intro has
      obtain ⟨jkt, found⟩ := isSome_iff_exists.mp has
      rw [found, bound jkt found]
  · intro has other now' later' grant' accepted'
    obtain ⟨jkt, found⟩ := isSome_iff_exists.mp has
    obtain ⟨claims', verified', granted'⟩ := bind_eq_ok accepted'
    obtain rfl := signed.unique (signed_of_verifiedClaims verified')
    obtain ⟨thumbprint', printed', bound', _⟩ := grantFor_eq_ok granted'
    rw [printed', ← bound jkt found, ← bound' jkt found]
  · intro unbound other thumbprint' publicKey later' printed' projected
    obtain ⟨grant', granted', same⟩ :=
      @grantFor_of_unbound lib cfg later' claims other _ _ unbound known printed' projected
    exact ⟨grant', bind_eq_ok_iff.mpr ⟨claims, verified, granted'⟩, same⟩

end

/-! ## A token for one client, and one for all of them -/

/-- What a thumbprint of an Ed25519 key is taken of, from the key on, stands for its hash. -/
def sampleLibrary : Library where
  toLibrary := Jws.sampleLibrary
  sha256 := fun bytes => bytes.drop 33
  shapeError := fun _ => ""

def okpKey (kid : Option String) (x : String) : Jwk :=
  ⟨"OKP", kid, some "Ed25519", some x, none, none, none⟩

def sampleConfig : GnapBridgeConfig :=
  ⟨"d", "i", ["EdDSA"], [okpKey (some "1") "AAAAAAAAAAAAAAAAAAAAAAAAAAAAAAAAAAAAAAAAAAA"]⟩

def requestOf (x : String) : GnapGrantRequest :=
  ⟨okpKey none x, []⟩

/-- The claims `{"iss":"i","exp":9}` and, in `cnf.jkt`, the thumbprint of the key `AA`. -/
def boundToken : String :=
  "eyJhbGciOiJFZERTQSIsImtpZCI6IjEifQ.eyJpc3MiOiJpIiwiZXhwIjo5LCJjbmYiOnsiamt0IjoiSWtGQkluMCJ9fQ."

/-- The claims `{"iss":"i","exp":9}`. -/
def unboundToken : String :=
  "eyJhbGciOiJFZERTQSIsImtpZCI6IjEifQ.eyJpc3MiOiJpIiwiZXhwIjo5fQ."

theorem boundToken_isOk :
    (verifyAccessToken sampleLibrary sampleConfig boundToken (requestOf "AA") 5 5).isOk = true := by
  decide +kernel

theorem boundToken_bound_iff :
    ∃ grant, verifyAccessToken sampleLibrary sampleConfig boundToken (requestOf "AA") 5 5 =
        .ok grant ∧
      ∃ claims thumbprint, Signed sampleLibrary sampleConfig boundToken 5 claims ∧
        jwkThumbprint sampleLibrary (requestOf "AA").jwk = .ok thumbprint ∧
        (confirmation claims = some thumbprint ↔ (confirmation claims).isSome = true) := by
  obtain ⟨grant, accepted⟩ := isOk_iff.mp boundToken_isOk
  obtain ⟨claims, thumbprint, signed, printed, bound, _⟩ := accepted_token_bound_iff accepted
  exact ⟨grant, accepted, claims, thumbprint, signed, printed, bound⟩

/-- The claims of the second token have no `cnf.jkt`, and it is accepted for two client keys with
different thumbprints. -/
theorem unboundToken_accepted_for_two_keys :
    (verifiedClaims sampleLibrary sampleConfig unboundToken 5).map confirmation = .ok none ∧
      (verifyAccessToken sampleLibrary sampleConfig unboundToken (requestOf "AA") 5 5).isOk =
        true ∧
      (verifyAccessToken sampleLibrary sampleConfig unboundToken (requestOf "AQ") 5 5).isOk =
        true ∧
      jwkThumbprint sampleLibrary (requestOf "AA").jwk ≠
        jwkThumbprint sampleLibrary (requestOf "AQ").jwk := by
  decide +kernel

end TrustForge.Gnap
