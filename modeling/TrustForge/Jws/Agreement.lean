import Mathlib.Tactic.Linarith
import TrustForge.Jws.Script

/-!
# Which tokens both languages accept

`decode` and `jwtVerify` make most of their checks alike.  `Shared` is what both ask of a token,
`RustOnly` and `ScriptOnly` is what one of them asks on top, and the two agree on a token exactly
if these say the same about what the token contains.
-/

namespace TrustForge.Jws.Script

open Option hiding any_eq_true pure_def
open DecodingKey Encoding.Engine Result List Except
open Cbor.Script (stripBom)
open Encoding (urlSafeNoPad)
open Json (Fields Value)

/-! ## Base64 -/

/-- A symbol of the URL-safe alphabet is the standard one for its six bits after the
replacements. -/
theorem sixBits_of_alphabet {i : Nat} (small : i < 64) :
    isUrlSafe (urlSafeNoPad.alphabet.getD i 'A') = true ∧
      sixBits (toStandard (urlSafeNoPad.alphabet.getD i 'A')) = some i := by
  have every : ∀ i < 64, isUrlSafe (urlSafeNoPad.alphabet.getD i 'A') = true ∧
      sixBits (toStandard (urlSafeNoPad.alphabet.getD i 'A')) = some i := by
    rw [show urlSafeNoPad.alphabet = _ from Encoding.toList_urlSafe]
    decide +kernel
  exact every i small

theorem isUrlSafe_symbol (n shift : Nat) : isUrlSafe (urlSafeNoPad.symbol n shift) = true :=
  (sixBits_of_alphabet (Nat.mod_lt _ (by decide))).1

theorem sixBits_symbol (n shift : Nat) :
    sixBits (toStandard (urlSafeNoPad.symbol n shift)) = some (n / 2 ^ shift % 64) :=
  (sixBits_of_alphabet (Nat.mod_lt _ (by decide))).2

theorem all_isUrlSafe_encodeSymbols (bytes : Bytes) :
    (urlSafeNoPad.encodeSymbols bytes).all isUrlSafe = true :=
  all_eq_true.mpr (urlSafeNoPad.forall_mem_encodeSymbols isUrlSafe_symbol bytes)

/-- Three groups of a quantum whose last byte is zero. -/
theorem joinBits_three {n : Nat} (small : n < 2 ^ 24) (noTrailing : n % 2 ^ 8 = 0) :
    joinBits [n / 2 ^ 18 % 64, n / 2 ^ 12 % 64, n / 2 ^ 6 % 64] =
      some [UInt8.ofNat (n / 2 ^ 16), UInt8.ofNat (n / 2 ^ 8)] := by
  have lowest : n / 2 ^ 0 % 64 = 0 := by omega
  have joined := join_groups n small
  rw [lowest, add_zero] at joined
  rw [joinBits, joined]

/-- Two groups of a quantum whose last two bytes are zero. -/
theorem joinBits_two {n : Nat} (small : n < 2 ^ 24) (noTrailing : n % 2 ^ 16 = 0) :
    joinBits [n / 2 ^ 18 % 64, n / 2 ^ 12 % 64] = some [UInt8.ofNat (n / 2 ^ 16)] := by
  have lowest : n / 2 ^ 0 % 64 = 0 := by omega
  have third : n / 2 ^ 6 % 64 = 0 := by omega
  have joined := join_groups n small
  rw [lowest, third, add_zero, zero_mul, add_zero] at joined
  rw [joinBits, joined]

theorem atob_encodeSymbols (bytes : Bytes) :
    atob ((urlSafeNoPad.encodeSymbols bytes).map toStandard) = some bytes := by
  unfold atob
  induction bytes using encodeSymbols.induct with
  | case1 a b c rest ih =>
    obtain ⟨small, first, second, third⟩ := split_bytes a b c
    have joined := join_groups _ small
    obtain ⟨groups, read, out⟩ := bind_eq_some_iff.mp ih
    simp only [encodeSymbols, map_cons, mapM_cons, sixBits_symbol, read, Option.pure_def,
      bind_eq_bind, bind_some, joinBits, out, map_some, joined, first, second, third]
  | case2 a b =>
    obtain ⟨small, first, second, last⟩ := split_bytes a b 0
    simp only [UInt8.toNat_zero, add_zero] at small first second last
    simp only [encodeSymbols, map_cons, map_nil, mapM_cons,
      mapM_nil, sixBits_symbol, Option.pure_def, bind_eq_bind, bind_some]
    rw [joinBits_three small (mod_of_ofNat_eq_zero last), first, second]
  | case3 a =>
    obtain ⟨small, first, middle, last⟩ := split_bytes a 0 0
    simp only [UInt8.toNat_zero, zero_mul, add_zero] at small first middle last
    have noMiddle := mod_of_ofNat_eq_zero middle
    have noLast := mod_of_ofNat_eq_zero last
    simp only [encodeSymbols, map_cons, map_nil, mapM_cons,
      mapM_nil, sixBits_symbol, Option.pure_def, bind_eq_bind, bind_some]
    rw [joinBits_two small (by omega), first]
  | case4 => rfl

/-- What the strict engine encodes, `b64uDecode` decodes. -/
theorem base64Bytes_encode (bytes : Bytes) :
    base64Bytes (urlSafeNoPad.encode bytes) = some bytes := by
  have unpadded : urlSafeNoPad.encode bytes = String.ofList (urlSafeNoPad.encodeSymbols bytes) := by
    rw [encode, padding, if_neg (by decide), append_nil]
  rw [base64Bytes, unpadded, String.toList_ofList, if_pos (all_isUrlSafe_encodeSymbols bytes),
    atob_encodeSymbols]

theorem b64uDecode_eq_ok_iff {engine : Engine} {text what : String} {bytes : Bytes} :
    b64uDecode engine text what = .ok bytes ↔ base64Bytes text = some bytes := by
  simp [b64uDecode, base64Bytes, bind_eq_ok_iff, require_eq_ok_iff, okOr_eq_ok_iff]

/-! ## Times -/

/-- The time in seconds.  A `Date` is at most 8.64e15 milliseconds away from the epoch. -/
structure Clock where
  seconds : Int
  inRange : -8640000000000 ≤ seconds ∧ seconds ≤ 8640000000000

/-- `now_unix`, which is zero before the epoch. -/
def Clock.nowUnix (clock : Clock) : UInt64 :=
  .ofNat clock.seconds.toNat

theorem Clock.toNat_nowUnix (clock : Clock) : clock.nowUnix.toNat = clock.seconds.toNat := by
  have bound := clock.inRange.2
  rw [nowUnix, UInt64.toNat_ofNat']
  exact Nat.mod_eq_of_lt (by omega)

namespace Engine

variable (engine : Engine)

theorem round_nonneg (n : Nat) : 0 ≤ engine.round n := by
  have zero := engine.round_natCast 0 (by decide)
  rw [Nat.cast_zero] at zero
  rw [← zero]
  exact engine.round_mono (Nat.cast_nonneg n)

/-- A rounded number is at least every small one below it. -/
theorem le_round {small n : Nat} (bound : small ≤ 2 ^ 53) (below : small ≤ n) :
    (small : ℚ) ≤ engine.round n := by
  rw [← engine.round_natCast small bound]
  exact engine.round_mono (Nat.cast_le.mpr below)

/-- The sum of two rounded numbers compares with a small number as the exact sum does. -/
theorem round_add_lt_iff {exp leeway now : Nat} (bound : now ≤ 2 ^ 53) :
    engine.round (engine.round exp + engine.round leeway) < now ↔ exp + leeway < now := by
  constructor
  · intro less
    by_contra enough
    have reached : (now : ℚ) ≤ engine.round exp + engine.round leeway := by
      by_cases late : now ≤ exp
      · have first := engine.le_round bound late
        have second := engine.round_nonneg leeway
        linarith
      · have exact : engine.round exp = exp := engine.round_natCast exp (by omega)
        have rest := @le_round engine (now - exp) leeway (by omega) (by omega)
        rw [Nat.cast_sub (by omega)] at rest
        rw [exact]
        linarith
    have rounded := engine.round_mono reached
    rw [engine.round_natCast now bound] at rounded
    exact absurd less (not_lt.mpr rounded)
  · intro less
    rw [engine.round_natCast exp (by omega), engine.round_natCast leeway (by omega), ← Nat.cast_add,
      engine.round_natCast _ (by omega)]
    exact_mod_cast less

end Engine

/-- Both sides compare an `exp` that is a `u64` alike. -/
theorem expired_posInt_iff (engine : Engine) (clock : Clock) (exp : Fin (2 ^ 64))
    (leeway : UInt64) :
    engine.expired (.posInt exp) leeway clock.seconds ↔
      ¬clock.nowUnix.toNat ≤ saturatingAdd exp.val leeway.toNat := by
  obtain ⟨low, high⟩ := clock.inRange
  rw [Engine.expired, Engine.number, clock.toNat_nowUnix]
  have saturated : clock.seconds.toNat ≤ saturatingAdd exp.val leeway.toNat ↔
      clock.seconds.toNat ≤ exp.val + leeway.toNat := by
    unfold saturatingAdd
    omega
  rw [saturated]
  rcases le_or_gt 0 clock.seconds with positive | negative
  · obtain ⟨now, same⟩ := Int.eq_ofNat_of_zero_le positive
    rw [same, Int.toNat_natCast, Int.cast_natCast, engine.round_add_lt_iff (by omega), not_le]
  · have zero : clock.seconds.toNat = 0 := by omega
    have sum : (0 : ℚ) ≤ engine.round (engine.round exp.val + engine.round leeway.toNat) := by
      have start := engine.round_natCast 0 (by decide)
      rw [Nat.cast_zero] at start
      rw [← start]
      exact engine.round_mono (add_nonneg (engine.round_nonneg _) (engine.round_nonneg _))
    have before : (clock.seconds : ℚ) < 0 := by exact_mod_cast negative
    rw [zero]
    constructor
    · intro less
      linarith
    · intro impossible
      exact absurd (Nat.zero_le _) impossible

/-! ## Keys -/

/-- The key that the Rust side makes of a JWK. -/
inductive RustLoads (lib : Library) (jwk : Jwk) : DecodingKey → Prop where
  | ec {x y : String} {key : DecodingKey} (kty : jwk.kty = "EC") (hasX : jwk.text "x" = some x)
      (hasY : jwk.text "y" = some y) (loaded : lib.fromEcComponents x y = .ok key) :
      RustLoads lib jwk key
  | okp {x : String} {key : DecodingKey} (kty : jwk.kty = "OKP") (hasX : jwk.text "x" = some x)
      (loaded : lib.fromEdComponents x = .ok key) : RustLoads lib jwk key
  | rsa {n e : String} {key : DecodingKey} (kty : jwk.kty = "RSA") (hasN : jwk.text "n" = some n)
      (hasE : jwk.text "e" = some e) (loaded : lib.fromRsaComponents n e = .ok key) :
      RustLoads lib jwk key

/-- The key that the TypeScript side gives to its primitives, which accept it.  An RSA key is
imported for an algorithm, the chosen one if it is one of RSA. -/
inductive ScriptLoads (lib : Library) (engine : Engine) (jwk : Jwk) (alg : Algorithm) :
    DecodingKey → Prop where
  | p256 {point : Bytes} (kty : jwk.kty = "EC") (crv : jwk.text "crv" = some "P-256")
      (read : ecPoint engine jwk = .ok point) (valid : lib.p256Point point = .ok ()) :
      ScriptLoads lib engine jwk alg (.p256 point)
  | p384 {point : Bytes} (kty : jwk.kty = "EC") (crv : jwk.text "crv" = some "P-384")
      (read : ecPoint engine jwk = .ok point) (valid : lib.p384Point point = .ok ()) :
      ScriptLoads lib engine jwk alg (.p384 point)
  | ed25519 {point : Bytes} (kty : jwk.kty = "OKP") (crv : jwk.text "crv" = some "Ed25519")
      (read : jwkBytes engine jwk "x" = .ok point) (valid : lib.ed25519Point point = .ok ()) :
      ScriptLoads lib engine jwk alg (.ed25519 point)
  | rsa {n e : Nat} {imported : Algorithm} (kty : jwk.kty = "RSA")
      (chosen : (rsa n e).supports alg = true → imported = alg)
      (read : engine.importKey jwk imported = .ok (n, e)) :
      ScriptLoads lib engine jwk alg (.rsa n e)

section

variable {lib : Library} {engine : Engine} {jwk : Jwk} {alg : Algorithm}

theorem b64u_eq_ok_iff {text what : String} {bytes : Bytes} :
    Library.b64u text what = .ok bytes ↔ text = urlSafeNoPad.encode bytes := by
  rw [Library.b64u, mapError_eq_ok_iff, urlSafeNoPad.decode_eq_ok_iff]

/-- A member that the strict engine decodes is read as the same bytes. -/
theorem jwkBytes_of_encode {member : String} {bytes read : Bytes}
    (has : jwk.text member = some (urlSafeNoPad.encode bytes))
    (found : jwkBytes engine jwk member = .ok read) : read = bytes := by
  obtain ⟨text, named, decoded⟩ := bind_eq_ok found
  have same := (filter_eq_some_iff.mp (okOr_eq_ok_iff.mp named)).1
  rw [has] at same
  obtain rfl := some.inj same
  have decoded := b64uDecode_eq_ok_iff.mp decoded
  rw [base64Bytes_encode] at decoded
  exact (some.inj decoded).symm

/-- The point of an EC key on the Rust side, whose curve is told by the width. -/
theorem fromEcComponents_eq_ok {x y : String} {key : DecodingKey}
    (loaded : lib.fromEcComponents x y = .ok key) :
    ∃ xb yb, x = urlSafeNoPad.encode xb ∧ y = urlSafeNoPad.encode yb ∧ xb.length = yb.length ∧
      (xb.length = 32 ∧ key = .p256 (0x04 :: (xb ++ yb)) ∨
        xb.length = 48 ∧ key = .p384 (0x04 :: (xb ++ yb))) := by
  obtain ⟨xb, hasX, loaded⟩ := bind_eq_ok loaded
  obtain ⟨yb, hasY, loaded⟩ := bind_eq_ok loaded
  obtain ⟨_, even, loaded⟩ := bind_eq_ok loaded
  refine ⟨xb, yb, b64u_eq_ok_iff.mp hasX, b64u_eq_ok_iff.mp hasY,
    require_eq_ok_iff.mp even, ?_⟩
  dsimp only at loaded
  split at loaded
  · next width =>
    obtain ⟨_, _, made⟩ := bind_eq_ok loaded
    exact .inl ⟨width, (ok.inj made).symm⟩
  · split at loaded
    · next width =>
      obtain ⟨_, _, made⟩ := bind_eq_ok loaded
      exact .inr ⟨width, (ok.inj made).symm⟩
    · cases loaded

theorem ecPoint_of_encode {xb yb point : Bytes}
    (hasX : jwk.text "x" = some (urlSafeNoPad.encode xb))
    (hasY : jwk.text "y" = some (urlSafeNoPad.encode yb))
    (read : ecPoint engine jwk = .ok point) : point = 0x04 :: (xb ++ yb) := by
  obtain ⟨x, readX, read⟩ := bind_eq_ok read
  obtain ⟨y, readY, made⟩ := bind_eq_ok read
  obtain rfl := jwkBytes_of_encode hasX readX
  obtain rfl := jwkBytes_of_encode hasY readY
  exact (ok.inj made).symm

theorem number_of_encode {text : Option String} {bytes : Bytes} {n : Nat}
    (has : text = some (urlSafeNoPad.encode bytes))
    (read : (text.bind base64Bytes).map BigEndian.decode = some n) :
    n = BigEndian.decode bytes := by
  rw [has, bind_some, base64Bytes_encode, map_some] at read
  exact (some.inj read).symm

/-- A JWK that both sides load is the same key to them. -/
theorem key_unique {key other : DecodingKey} (rust : RustLoads lib jwk key)
    (script : ScriptLoads lib engine jwk alg other) : other = key := by
  cases rust with
  | ec kty hasX hasY loaded =>
    obtain ⟨xb, yb, rfl, rfl, even, curve⟩ := fromEcComponents_eq_ok loaded
    cases script with
    | p256 _ _ read valid =>
      obtain rfl := ecPoint_of_encode hasX hasY read
      have width := lib.p256Point_length _ valid
      rw [length_append] at width
      obtain ⟨_, rfl⟩ | ⟨wide, _⟩ := curve
      · rfl
      · omega
    | p384 _ _ read valid =>
      obtain rfl := ecPoint_of_encode hasX hasY read
      have width := lib.p384Point_length _ valid
      rw [length_append] at width
      obtain ⟨narrow, _⟩ | ⟨_, rfl⟩ := curve
      · omega
      · rfl
    | ed25519 kty' | rsa kty' => exact absurd (kty.symm.trans kty') (by decide)
  | okp kty hasX loaded =>
    obtain ⟨xb, decoded, checked⟩ := bind_eq_ok loaded
    obtain ⟨_, _, validated⟩ := bind_eq_ok checked
    obtain ⟨_, _, made⟩ := bind_eq_ok validated
    rw [b64u_eq_ok_iff.mp decoded] at hasX
    cases script with
    | p256 kty' | p384 kty' | rsa kty' => exact absurd (kty.symm.trans kty') (by decide)
    | ed25519 _ _ read _ =>
      obtain rfl := jwkBytes_of_encode hasX read
      exact ok.inj made
  | rsa kty hasN hasE loaded =>
    obtain ⟨nb, decodedN, checked⟩ := bind_eq_ok loaded
    obtain ⟨eb, decodedE, validated⟩ := bind_eq_ok checked
    obtain ⟨_, _, made⟩ := bind_eq_ok validated
    rw [b64u_eq_ok_iff.mp decodedN] at hasN
    rw [b64u_eq_ok_iff.mp decodedE] at hasE
    cases script with
    | p256 kty' | p384 kty' | ed25519 kty' => exact absurd (kty.symm.trans kty') (by decide)
    | rsa _ _ read =>
      obtain ⟨modulus, exponent⟩ := engine.importKey_numbers _ _ _ _ read
      obtain rfl := number_of_encode hasN modulus
      obtain rfl := number_of_encode hasE exponent
      exact ok.inj made

theorem jwkString_of_text {member text : String} (has : jwk.text member = some text)
    (filled : text ≠ "") : jwkString jwk member = .ok text := by
  rw [jwkString, has]
  simp [Option.filter, filled, okOr]

theorem verifyEc_eq_true_iff {width : Nat} {verify : Bytes → Bytes → Bytes → Bool}
    {point message signature : Bytes} (read : ecPoint engine jwk = .ok point) :
    verifyEc engine jwk width verify message signature = .ok true ↔
      signature.length = width * 2 ∧ verify point message signature = true := by
  rw [verifyEc, read]
  simp [bind, Except.bind, pure, Except.pure]

theorem algorithmsForJwk_ec {crv : String} {curve : Curve} (kty : jwk.kty = "EC")
    (has : jwk.text "crv" = some crv) (filled : crv ≠ "") (own : crv ∉ inherited)
    (known : ecCurve crv = some curve) : algorithmsForJwk jwk = .ok [curve.alg] := by
  rw [algorithmsForJwk, kty, jwkString_of_text has filled]
  simp [bind, Except.bind, own, known, okOr, Except.map]

/-- A loaded JWK goes with the algorithms of its key. -/
theorem algorithmsForJwk_of_loads {key : DecodingKey} (loads : ScriptLoads lib engine jwk alg key) :
    ∃ supported, algorithmsForJwk jwk = .ok supported ∧
      (.shared alg ∈ supported ↔ key.supports alg = true) := by
  cases loads with
  | p256 kty crv _ _ =>
    refine ⟨_, algorithmsForJwk_ec kty crv (by decide) (by decide) rfl, ?_⟩
    simp [supports]
  | p384 kty crv _ _ =>
    refine ⟨_, algorithmsForJwk_ec kty crv (by decide) (by decide) rfl, ?_⟩
    simp [supports]
  | ed25519 kty crv _ _ =>
    refine ⟨[.shared .edDsa], ?_, by simp [supports]⟩
    rw [algorithmsForJwk, kty, jwkString_of_text crv (by decide)]
    rfl
  | rsa kty _ _ =>
    refine ⟨[.shared .rs256, .shared .rs384, .shared .rs512], ?_, by simp [supports]⟩
    rw [algorithmsForJwk, kty]
    rfl

/-- A signature that passes `verifySignature`. -/
theorem verifySignature_eq_true_iff {key : DecodingKey} {message signature : Bytes}
    (loads : ScriptLoads lib engine jwk alg key) :
    verifySignature lib engine (.shared alg) jwk message signature = .ok true ↔
      key.supports alg = true ∧ lib.verifies alg key message signature = true := by
  obtain ⟨supported, found, member⟩ := algorithmsForJwk_of_loads loads
  simp only [verifySignature, found, bind_eq_ok_iff, require_eq_ok_iff, member,
    ok.injEq, exists_eq_left', exists_const]
  refine and_congr_right fun supports => ?_
  cases loads with
  | p256 _ _ read _ =>
    obtain rfl : alg = .es256 := of_decide_eq_true supports
    dsimp only
    rw [verifyEc_eq_true_iff read]
    exact ⟨And.right, fun verified => ⟨lib.es256_length _ _ _ verified, verified⟩⟩
  | p384 _ _ read _ =>
    obtain rfl : alg = .es384 := of_decide_eq_true supports
    dsimp only
    rw [verifyEc_eq_true_iff read]
    exact ⟨And.right, fun verified => ⟨lib.es384_length _ _ _ verified, verified⟩⟩
  | ed25519 _ _ read _ =>
    obtain rfl : alg = .edDsa := of_decide_eq_true supports
    simp [read, bind, Except.bind, pure, Except.pure]
  | rsa _ chosen read =>
    obtain rfl := chosen supports
    obtain rfl | rfl | rfl := of_decide_eq_true supports
    all_goals simp [read, bind, Except.bind, pure, Except.pure]

end

/-! ## What each side asks for -/

/-- What a caller chooses on both sides. -/
structure Choice where
  algorithm : Algorithm
  issuers : Option (List String)
  audiences : Option (List String)
  leeway : UInt64

namespace Choice

/-- `Validation::new` with `leeway`, `set_issuer` and `set_audience`. -/
def toValidation (choice : Choice) : Validation :=
  let v := { Validation.new choice.algorithm with leeway := choice.leeway }
  let v := choice.issuers.elim v v.setIssuer
  choice.audiences.elim v v.setAudience

/-- The options of `jwtVerify`. -/
def toOptions (choice : Choice) : JwtVerifyOptions :=
  ⟨choice.issuers, choice.audiences, some [.shared choice.algorithm], some choice.leeway, none⟩

theorem toValidation_eq (choice : Choice) :
    choice.toValidation =
      ⟨[choice.algorithm], choice.leeway, true, false, choice.issuers, choice.audiences⟩ := by
  rcases choice with ⟨alg, issuers, audiences, leeway⟩
  cases issuers <;> cases audiences <;> rfl

end Choice

/-- The algorithm that a header names, in an object or an array. -/
def headerName (header : Value) : Option String :=
  (Fields.ofValue 4 header).bind fun fields => fields.required Value.asStr 0 "alg"

/-- What a token contains, with its header. -/
structure Reading extends Content where
  header : Value
  name : String

/-- What both sides ask of a token, with segments read as leniently as `b64uDecode` and
`TextDecoder` do. -/
structure Shared (lib : Library) (engine : Engine) (key : DecodingKey) (choice : Choice)
    (clock : Clock) (token : String) (r : Reading) : Prop where
  cut : segments token = some (r.h, r.p, r.s)
  headerText : (base64Bytes r.h).map engine.textDecode = some r.headerText
  header : lib.parse r.headerText = some r.header
  name : headerName r.header = some r.name
  algorithm : Algorithm.parse r.name = .ok choice.algorithm
  signature : base64Bytes r.s = some r.signature
  supports : key.supports choice.algorithm = true
  verifies :
    lib.verifies choice.algorithm key (Text.utf8 (r.h ++ "." ++ r.p)) r.signature = true
  payloadText : (base64Bytes r.p).map engine.textDecode = some r.payloadText
  claims : lib.parse r.payloadText = some r.claims
  exp : ∀ exp, (r.claims.get? "exp").bind asU64 = some exp →
    clock.nowUnix.toNat ≤ saturatingAdd exp choice.leeway.toNat
  iss : ∀ issuers, choice.issuers = some issuers →
    ∃ iss, (r.claims.get? "iss").bind Value.asStr = some iss ∧ iss ∈ issuers
  aud : ∀ audiences, choice.audiences = some audiences →
    audienceAccepted r.claims audiences = true

/-- What only the Rust side asks for: segments without spare bits, whose texts are UTF-8 and have
no byte order mark, a header with all its fields of the right type and none of them twice, and
an `exp` that is a `u64`. -/
structure RustOnly (lib : Library) (r : Reading) : Prop where
  header : r.h = urlSafeNoPad.encode (Text.utf8 r.headerText)
  payload : r.p = urlSafeNoPad.encode (Text.utf8 r.payloadText)
  signature : r.s = urlSafeNoPad.encode r.signature
  fields : (Header.ofValue r.header).isSome = true
  distinct : ∀ name ∈ Header.fieldNames, name ∉ lib.repeated r.headerText
  exp : ((r.claims.get? "exp").bind asU64).isSome = true

/-- A claim that is absent, or a number that is not refused. -/
def TimeAccepted (claim : Option Value) (refused : Json.Number → Prop) : Prop :=
  ∀ v, claim = some v → ∃ n, v = .number n ∧ ¬refused n

/-- What only the TypeScript side asks for: a header that is an object, the exact name of the
algorithm, claims that are not `null`, and times that are numbers and in order. -/
structure ScriptOnly (engine : Engine) (choice : Choice) (clock : Clock) (r : Reading) : Prop where
  header : ∃ entries, r.header = .object entries
  name : r.name = choice.algorithm.name
  claims : isNull r.claims = false
  exp : TimeAccepted (r.claims.get? "exp") (engine.expired · choice.leeway clock.seconds)
  nbf : TimeAccepted (r.claims.get? "nbf") (engine.early · choice.leeway clock.seconds)

section

variable {lib : Library} {engine : Engine} {key : DecodingKey} {choice : Choice} {clock : Clock}
  {token : String}

/-- A token is read in one way only. -/
theorem Shared.unique {r r' : Reading} (first : Shared lib engine key choice clock token r)
    (second : Shared lib engine key choice clock token r') : r = r' := by
  rcases r with ⟨⟨h, p, s, headerText, payloadText, claims, signature⟩, header, name⟩
  rcases r' with ⟨⟨h', p', s', headerText', payloadText', claims', signature'⟩, header', name'⟩
  obtain ⟨rfl, rfl, rfl⟩ : h = h' ∧ p = p' ∧ s = s' := by
    simpa using first.cut.symm.trans second.cut
  obtain rfl : headerText = headerText' :=
    some.inj (first.headerText.symm.trans second.headerText)
  obtain rfl : payloadText = payloadText' :=
    some.inj (first.payloadText.symm.trans second.payloadText)
  obtain rfl : header = header' := some.inj (first.header.symm.trans second.header)
  obtain rfl : claims = claims' := some.inj (first.claims.symm.trans second.claims)
  obtain rfl : name = name' := some.inj (first.name.symm.trans second.name)
  obtain rfl : signature = signature' :=
    some.inj (first.signature.symm.trans second.signature)
  rfl

/-! ## The Rust side -/

/-- A text that is JSON reads the same through `TextDecoder`. -/
theorem textDecode_of_parse {text : String} {v : Value} (read : lib.parse text = some v) :
    engine.textDecode (Text.utf8 text) = text := by
  rw [engine.textDecode_utf8, stripBom]
  split
  · next c rest shape =>
    split
    · next mark =>
      have bom : text = String.ofList ('\uFEFF' :: rest) := by
        rw [← mark, ← shape, String.ofList_toList]
      rw [bom, lib.parse_bom] at read
      cases read
    · rfl
  · rfl

theorem map_textDecode_of_encode {segment text : String} {v : Value}
    (encoded : segment = urlSafeNoPad.encode (Text.utf8 text)) (read : lib.parse text = some v) :
    (base64Bytes segment).map engine.textDecode = some text := by
  rw [encoded, base64Bytes_encode, map_some, textDecode_of_parse read]

theorem headerName_of_ofValue {v : Value} {header : Header}
    (read : Header.ofValue v = some header) : headerName v = some header.alg := by
  simp only [Header.ofValue, bind_eq_bind, bind_eq_some_iff] at read
  obtain ⟨fields, found, alg, named, _, _, _, _, _, _, made⟩ := read
  obtain rfl := some.inj made
  exact bind_eq_some_iff.mpr ⟨fields, found, named⟩

theorem headerOfText_eq_some_iff {text : String} {header : Header} :
    lib.headerOfText text = some header ↔
      (∀ name ∈ Header.fieldNames, name ∉ lib.repeated text) ∧
        ∃ v, lib.parse text = some v ∧ Header.ofValue v = some header := by
  unfold Library.headerOfText
  split
  · next twice =>
    obtain ⟨name, field, repeated⟩ := twice
    constructor
    · nofun
    · rintro ⟨distinct, _⟩
      exact absurd repeated (distinct name field)
  · next once =>
    simp only [not_exists, not_and] at once
    rw [bind_eq_some_iff]
    exact ⟨fun found => ⟨once, found⟩, And.right⟩

theorem decode_isOk_iff :
    (lib.decode .ok token key choice.toValidation clock.nowUnix).isOk = true ↔
      ∃ r, Shared lib engine key choice clock token r ∧ RustOnly lib r := by
  rw [isOk_iff, choice.toValidation_eq]
  constructor
  · rintro ⟨data, ended⟩
    obtain ⟨alg, content, decoded⟩ := Library.decode_eq_ok_iff.mp ended
    obtain ⟨distinct, header, parsed, read⟩ := headerOfText_eq_some_iff.mp decoded.headerRead
    obtain rfl : alg = choice.algorithm := mem_singleton.mp decoded.allowed
    obtain ⟨exp, found, fresh⟩ := decoded.valid.exp rfl
    refine ⟨⟨content, header, data.header.alg⟩, ?_, ?_⟩
    · exact {
        cut := decoded.cut
        headerText := map_textDecode_of_encode decoded.header parsed
        header := parsed
        name := headerName_of_ofValue read
        algorithm := decoded.algorithm
        signature := by
          rw [decoded.signature]
          exact base64Bytes_encode _
        supports := decoded.supports
        verifies := decoded.verifies
        payloadText := map_textDecode_of_encode decoded.payload decoded.payloadRead
        claims := decoded.payloadRead
        exp := by
          intro other same
          obtain rfl := some.inj (found.symm.trans same)
          exact fresh
        iss := decoded.valid.iss
        aud := decoded.valid.aud }
    · exact {
        header := decoded.header
        payload := decoded.payload
        signature := decoded.signature
        fields := isSome_iff_exists.mpr ⟨_, read⟩
        distinct
        exp := isSome_iff_exists.mpr ⟨_, found⟩ }
  · rintro ⟨r, shared, only⟩
    obtain ⟨header, read⟩ := isSome_iff_exists.mp only.fields
    obtain ⟨exp, found⟩ := isSome_iff_exists.mp only.exp
    have named : header.alg = r.name :=
      some.inj ((headerName_of_ofValue read).symm.trans shared.name)
    refine ⟨⟨header, r.claims⟩, Library.decode_eq_ok_iff.mpr
      ⟨choice.algorithm, r.toContent, ?_⟩⟩
    exact {
      cut := shared.cut
      header := only.header
      headerRead := headerOfText_eq_some_iff.mpr ⟨only.distinct, _, shared.header, read⟩
      algorithm := by
        rw [named]
        exact shared.algorithm
      allowed := mem_singleton_self _
      signature := only.signature
      supports := shared.supports
      verifies := shared.verifies
      payload := only.payload
      payloadRead := shared.claims
      valid := ⟨fun _ => ⟨exp, found, shared.exp exp found⟩, nofun, shared.iss, shared.aud⟩
      shape := rfl }

/-! ## The TypeScript side -/

theorem readSegment_eq_ok_iff {segment what : String} {v : Value} :
    readSegment lib engine segment what = .ok v ↔
      ∃ text, (base64Bytes segment).map engine.textDecode = some text ∧
        lib.parse text = some v := by
  simp only [readSegment, bind_eq_ok_iff, mapError_eq_ok_iff, b64uDecode_eq_ok_iff,
    okOr_eq_ok_iff, map_eq_some_iff]
  constructor
  · rintro ⟨bytes, decoded, parsed⟩
    exact ⟨_, ⟨bytes, decoded, rfl⟩, parsed⟩
  · rintro ⟨_, ⟨bytes, decoded, rfl⟩, parsed⟩
    exact ⟨bytes, decoded, parsed⟩

theorem checkTime_eq_ok_iff {claim : Option Value} {refused : Json.Number → Prop}
    [DecidablePred refused] {message : String} {u : Unit} :
    checkTime claim refused message = .ok u ↔ TimeAccepted claim refused := by
  rw [TimeAccepted]
  cases claim with
  | none => exact iff_of_true rfl nofun
  | some v =>
    cases v with
    | number n => simp [checkTime, require_eq_ok_iff]
    | _ => simp [checkTime]

/-- Both sides take the same audiences. -/
theorem audienceAccepted_iff {claims : Value} {audiences : List String} :
    audienceAccepted claims audiences = true ↔
      ∃ a ∈ audienceTexts (claims.get? "aud"), a ∈ audiences := by
  unfold audienceAccepted
  split
  · next a found => simp [found, audienceTexts]
  · next items found => simp only [found, audienceTexts, any_eq_true, contains_iff_mem]
  · next other₁ other₂ =>
    have none : audienceTexts (claims.get? "aud") = [] := by
      unfold audienceTexts
      split
      · next a found => exact absurd found (other₁ a)
      · next items found => exact absurd found (other₂ items)
      · rfl
    simp [none]

theorem parse_name (alg : Algorithm) : Algorithm.parse alg.name = .ok alg := by
  cases alg <;> decide

theorem allowedAlgorithm_single_iff {alg : Algorithm} {name : String} {found : JwsAlgorithm} :
    allowedAlgorithm (some [.shared alg]) name = .ok found ↔
      name = alg.name ∧ found = .shared alg := by
  rw [allowedAlgorithm, okOr_eq_ok_iff, List.find?_cons]
  by_cases same : alg.name = name
  · simp [JwsAlgorithm.name, same, eq_comm]
  · simp [JwsAlgorithm.name, same, Ne.symm same]

/-- The name that an object gives to its algorithm. -/
theorem get?_alg_iff {header : Value} {name : String} :
    (header.get? "alg").bind Value.asStr = some name ↔
      (∃ entries, header = .object entries) ∧ headerName header = some name := by
  cases header with
  | object entries =>
    simp [headerName, Fields.ofValue, Fields.required, Fields.find, Value.get?]
  | null | bool | number | string | array => simp [Value.get?]

theorem validateClaims_eq_ok_iff {claims : Value} {u : Unit} :
    validateClaims engine claims choice.toOptions clock.seconds = .ok u ↔
      isNull claims = false ∧
      TimeAccepted (claims.get? "exp") (engine.expired · choice.leeway clock.seconds) ∧
      TimeAccepted (claims.get? "nbf") (engine.early · choice.leeway clock.seconds) ∧
      (∀ issuers, choice.issuers = some issuers →
        ∃ iss, (claims.get? "iss").bind Value.asStr = some iss ∧ iss ∈ issuers) ∧
      ∀ audiences, choice.audiences = some audiences →
        audienceAccepted claims audiences = true := by
  simp only [validateClaims, bind_eq_ok_iff, require_eq_ok_iff, audienceAccepted_iff,
    mem_def, exists_const]
  constructor
  · rintro ⟨present, _, exp, _, nbf, iss, aud⟩
    exact ⟨present, checkTime_eq_ok_iff.mp exp, checkTime_eq_ok_iff.mp nbf, iss, aud⟩
  · rintro ⟨present, exp, nbf, iss, aud⟩
    exact ⟨present, (), checkTime_eq_ok_iff.mpr exp, (), checkTime_eq_ok_iff.mpr nbf, iss, aud⟩

/-- An `exp` that the TypeScript side accepts has not passed for the Rust side. -/
theorem fresh_of_timeAccepted {claim : Option Value}
    (accepted : TimeAccepted claim (engine.expired · choice.leeway clock.seconds)) (exp : Nat)
    (found : claim.bind asU64 = some exp) :
    clock.nowUnix.toNat ≤ saturatingAdd exp choice.leeway.toNat := by
  obtain ⟨v, present, unsigned⟩ := bind_eq_some_iff.mp found
  obtain ⟨n, rfl, inTime⟩ := accepted v present
  cases n with
  | posInt value =>
    obtain rfl := some.inj unsigned
    exact not_not.mp (mt (expired_posInt_iff engine clock value choice.leeway).mpr inTime)
  | negInt | float => cases unsigned

theorem name_ne_none (alg : Algorithm) : alg.name ≠ "none" := by
  cases alg <;> decide

theorem ne_empty_of_segments {h p s : String} (cut : segments token = some (h, p, s)) :
    token ≠ "" := by
  rintro rfl
  exact absurd cut (by simp [segments, parts])

theorem jwtVerify_isOk_iff {jwk : Jwk} (loads : ScriptLoads lib engine jwk choice.algorithm key) :
    (jwtVerify lib engine token (fun _ => .ok jwk) choice.toOptions clock.seconds).isOk = true ↔
      ∃ r, Shared lib engine key choice clock token r ∧ ScriptOnly engine choice clock r := by
  simp only [isOk_iff, jwtVerify, bind_eq_ok_iff, require_eq_ok_iff, okOr_eq_ok_iff, Prod.exists,
    readSegment_eq_ok_iff, b64uDecode_eq_ok_iff, get?_alg_iff, exists_const]
  constructor
  · rintro ⟨_, _, _, _, h, p, s, cut, header, ⟨headerText, headerDecoded, headerParsed⟩, _, name,
      ⟨object, named⟩, _, alg, allowed, _, _, resolved, signature, signed, _, checked, rfl, claims,
      ⟨payloadText, payloadDecoded, payloadParsed⟩, _, validated, _⟩
    obtain ⟨exact, rfl⟩ := allowedAlgorithm_single_iff.mp allowed
    obtain rfl := ok.inj resolved
    obtain ⟨supports, verifies⟩ := (verifySignature_eq_true_iff loads).mp checked
    obtain ⟨present, exp, nbf, iss, aud⟩ := validateClaims_eq_ok_iff.mp validated
    refine ⟨⟨⟨h, p, s, headerText, payloadText, claims, signature⟩, header, name⟩, ?_, ?_⟩
    · exact {
        cut
        headerText := headerDecoded
        header := headerParsed
        name := named
        algorithm := by
          rw [exact]
          exact parse_name _
        signature := signed
        supports
        verifies
        payloadText := payloadDecoded
        claims := payloadParsed
        exp := fresh_of_timeAccepted exp
        iss
        aud }
    · exact ⟨object, exact, present, exp, nbf⟩
  · rintro ⟨r, shared, only⟩
    have present : isNull r.header = false := by
      obtain ⟨entries, object⟩ := only.header
      rw [object]
      rfl
    have known : r.name ≠ "none" := by
      rw [only.name]
      exact name_ne_none _
    have allowed := allowedAlgorithm_single_iff.mpr ⟨only.name, rfl⟩
    have checked := (verifySignature_eq_true_iff loads).mpr ⟨shared.supports, shared.verifies⟩
    have validated := (@validateClaims_eq_ok_iff engine choice clock r.claims ()).mpr
      ⟨only.claims, only.exp, only.nbf, shared.iss, shared.aud⟩
    exact ⟨_, _, _, ne_empty_of_segments shared.cut, _, _, _, shared.cut, _,
      ⟨_, shared.headerText, shared.header⟩, present, _, ⟨only.header, shared.name⟩, known, _,
      allowed, by simp [Choice.toOptions], _, rfl, _, shared.signature, _, checked, rfl, _,
      ⟨_, shared.payloadText, shared.claims⟩, _, validated, rfl⟩

/-! ## Agreement -/

/-- The two sides agree on a token exactly if what it contains passes either the further checks of
both of them or those of neither. -/
theorem decode_iff_jwtVerify_iff {jwk : Jwk} {key : DecodingKey} (rust : RustLoads lib jwk key)
    {other : DecodingKey} (script : ScriptLoads lib engine jwk choice.algorithm other) :
    ((lib.decode .ok token key choice.toValidation clock.nowUnix).isOk = true ↔
        (jwtVerify lib engine token (fun _ => .ok jwk) choice.toOptions clock.seconds).isOk =
          true) ↔
      ∀ r, Shared lib engine key choice clock token r →
        (RustOnly lib r ↔ ScriptOnly engine choice clock r) := by
  obtain rfl := key_unique rust script
  rw [@decode_isOk_iff lib engine, jwtVerify_isOk_iff script]
  constructor
  · intro agree r shared
    constructor
    · intro only
      obtain ⟨r', shared', only'⟩ := agree.mp ⟨r, shared, only⟩
      rwa [shared.unique shared']
    · intro only
      obtain ⟨r', shared', only'⟩ := agree.mpr ⟨r, shared, only⟩
      rwa [shared.unique shared']
  · intro same
    exact exists_congr fun r => and_congr_right (same r)

end

/-! ## Tokens that one side accepts -/

def sampleEngine : Engine where
  atobError := ""
  jsonError := fun _ => ""
  nullError := ""
  template := fun _ => ""
  textDecode := fun bytes => stripBom ((Text.ofUtf8? bytes).getD "")
  importKey := fun _ _ => .error ""
  verifiesP521 := fun _ _ _ => false
  round := id
  textDecode_utf8 := fun s => by rw [Text.ofUtf8?_utf8, getD_some]
  importKey_numbers := nofun
  round_mono := id
  round_natCast := fun _ _ => rfl

/-- An Ed25519 key of 32 zero bytes. -/
def sampleJwk : Jwk where
  kty := "OKP"
  members := [("crv", .string "Ed25519"),
    ("x", .string "AAAAAAAAAAAAAAAAAAAAAAAAAAAAAAAAAAAAAAAAAAA")]

def samplePoint : Bytes := List.replicate 32 0

def sampleChoice : Choice := ⟨.edDsa, none, none, 0⟩

def sampleClock : Clock := ⟨5, by decide⟩

/-- Whether `decode` accepts a token. -/
def sampleDecodes (token : String) : Bool :=
  (sampleLibrary.decode .ok token (.ed25519 samplePoint) sampleChoice.toValidation
    sampleClock.nowUnix).isOk

/-- Whether `jwtVerify` accepts it. -/
def sampleVerifies (token : String) : Bool :=
  (jwtVerify sampleLibrary sampleEngine token (fun _ => .ok sampleJwk) sampleChoice.toOptions
    sampleClock.seconds).isOk

theorem sample_rustLoads : RustLoads sampleLibrary sampleJwk (.ed25519 samplePoint) :=
  .okp rfl rfl (by decide +kernel)

theorem sample_scriptLoads :
    ScriptLoads sampleLibrary sampleEngine sampleJwk .edDsa (.ed25519 samplePoint) :=
  .ed25519 rfl rfl (by decide +kernel) rfl

theorem sample_decode_iff_jwtVerify_iff :
    RustLoads sampleLibrary sampleJwk (.ed25519 samplePoint) ∧
      ScriptLoads sampleLibrary sampleEngine sampleJwk sampleChoice.algorithm
        (.ed25519 samplePoint) ∧
      ∀ token,
        ((sampleDecodes token = true ↔ sampleVerifies token = true) ↔
          ∀ r, Shared sampleLibrary sampleEngine (.ed25519 samplePoint) sampleChoice sampleClock
              token r →
            (RustOnly sampleLibrary r ↔ ScriptOnly sampleEngine sampleChoice sampleClock r)) :=
  ⟨sample_rustLoads, sample_scriptLoads, fun _ =>
    decode_iff_jwtVerify_iff sample_rustLoads sample_scriptLoads⟩

/-- At 5, only the TypeScript side accepts the claims `{}`; only the Rust side accepts the claims
`{"exp":9,"nbf":9}`, and the header `{"alg":"eddsa"}`. -/
theorem one_side_accepts :
    RustLoads sampleLibrary sampleJwk (.ed25519 samplePoint) ∧
      ScriptLoads sampleLibrary sampleEngine sampleJwk sampleChoice.algorithm
        (.ed25519 samplePoint) ∧
      (sampleDecodes "eyJhbGciOiJFZERTQSJ9.e30." = false ∧
        sampleVerifies "eyJhbGciOiJFZERTQSJ9.e30." = true) ∧
      (sampleDecodes "eyJhbGciOiJFZERTQSJ9.eyJleHAiOjksIm5iZiI6OX0." = true ∧
        sampleVerifies "eyJhbGciOiJFZERTQSJ9.eyJleHAiOjksIm5iZiI6OX0." = false) ∧
      sampleDecodes "eyJhbGciOiJlZGRzYSJ9.eyJleHAiOjl9." = true ∧
        sampleVerifies "eyJhbGciOiJlZGRzYSJ9.eyJleHAiOjl9." = false := by
  refine ⟨sample_rustLoads, sample_scriptLoads, ?_⟩
  decide +kernel

end TrustForge.Jws.Script
