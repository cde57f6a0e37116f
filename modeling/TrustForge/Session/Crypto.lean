import TrustForge.Encoding
import TrustForge.Json.RoundTrip

/-!
# What the session protocol takes from other crates

The primitives of `crypto.rs` and `crypto_pq.rs` are thin wrappers over crates that
are not part of the repository.  They are collected in one structure together with
the functional facts their documentation promises: Diffie-Hellman commutes, what was
signed verifies, what was sealed opens.  What an attacker can or cannot do with them
is not assumed here but where a result needs it.
-/

namespace TrustForge.Session

open List
open Encoding (standard)

/-- `[u8; 32]`. -/
@[ext]
structure Key where
  bytes : Bytes
  length : bytes.length = 32
  deriving DecidableEq

/-- `try_into` a 32 byte array. -/
def Key.ofBytes? (bytes : Bytes) : Option Key :=
  if length : bytes.length = 32 then some ⟨bytes, length⟩ else none

@[simp] theorem Key.ofBytes?_bytes (key : Key) : Key.ofBytes? key.bytes = some key := by
  simp [Key.ofBytes?, key.length]

/-- `[u8; 12]`. -/
structure Nonce where
  bytes : Bytes
  length : bytes.length = 12

/-- The primitives, and NFC and float texts for canonical JSON. -/
structure Platform extends Json.Runtime where
  sha256 : Bytes → Bytes
  /-- `hkdf_sha256` asked for 64 bytes, as the two halves its callers take. -/
  hkdfSha256 : (inputKey salt info : Bytes) → Key × Key
  x25519Public : Key → Key
  x25519DiffieHellman : (secret peerPublic : Key) → Key
  ed25519Public : Key → Key
  ed25519Sign : (secret : Key) → (msg : Bytes) → Bytes
  /-- The check behind `ed25519_verify`, for a key and a signature of the right length. -/
  ed25519Check : (publicKey msg signature : Bytes) → Bool
  /-- Fails with a text for keys that do not parse. -/
  mlDsa65Sign : (secret msg : Bytes) → Except String Bytes
  mlDsa65Verify : (publicKey msg signature : Bytes) → Bool
  chacha20poly1305Encrypt : (key : Key) → (nonce aad plaintext : Bytes) → Bytes
  chacha20poly1305Decrypt : (key : Key) → (nonce aad ciphertext : Bytes) → Option Bytes
  x25519_comm : ∀ a b,
    x25519DiffieHellman a (x25519Public b) = x25519DiffieHellman b (x25519Public a)
  sign_length : ∀ secret msg, (ed25519Sign secret msg).length = 64
  check_sign : ∀ secret msg,
    ed25519Check (ed25519Public secret).bytes msg (ed25519Sign secret msg) = true
  encrypt_length : ∀ key nonce aad plaintext,
    (chacha20poly1305Encrypt key nonce aad plaintext).length = plaintext.length + 16
  decrypt_encrypt : ∀ key nonce aad plaintext,
    chacha20poly1305Decrypt key nonce aad
      (chacha20poly1305Encrypt key nonce aad plaintext) = some plaintext

/-! ## A transparent platform

The laws above can be met together.  The stand-ins below hide nothing: hashing is the
identity, Diffie-Hellman adds bytes, a ciphertext is the plaintext followed by half of
the key.  On ASCII text and integral floats they normalise and display like the real
ones. -/

/-- The first 32 bytes, filled up with zeros. -/
def Key.filled (bytes : Bytes) : Key :=
  ⟨(bytes ++ List.replicate 32 0).take 32, by simp⟩

def Nonce.filled (b : UInt8) : Nonce :=
  ⟨List.replicate 12 b, length_replicate⟩

/-- Bytewise addition of keys. -/
def Key.add (a b : Key) : Key :=
  ⟨List.zipWith (· + ·) a.bytes b.bytes, by simp [a.length, b.length]⟩

theorem Key.add_comm (a b : Key) : a.add b = b.add a := by
  simp only [Key.add, Key.mk.injEq]
  exact zipWith_comm_of_comm UInt8.add_comm

/-- The text followed by the first half of the key. -/
def sealTransparent (key : Key) (plaintext : Bytes) : Bytes :=
  plaintext ++ key.bytes.take 16

def openTransparent (key : Key) (ciphertext : Bytes) : Option Bytes :=
  if ciphertext.drop (ciphertext.length - 16) = key.bytes.take 16 then
    some (ciphertext.take (ciphertext.length - 16))
  else none

theorem length_sealTransparent (key : Key) (plaintext : Bytes) :
    (sealTransparent key plaintext).length = plaintext.length + 16 := by
  simp [sealTransparent, key.length]

theorem open_sealTransparent (key : Key) (plaintext : Bytes) :
    openTransparent key (sealTransparent key plaintext) = some plaintext := by
  have front : (sealTransparent key plaintext).length - 16 = plaintext.length := by
    rw [length_sealTransparent, Nat.add_sub_cancel]
  rw [openTransparent, front]
  simp [sealTransparent]

/-- Keys with other first halves are told apart. -/
theorem open_sealTransparent_of_ne {key other : Key}
    (differ : other.bytes.take 16 ≠ key.bytes.take 16) (plaintext : Bytes) :
    openTransparent key (sealTransparent other plaintext) = none := by
  have front : (sealTransparent other plaintext).length - 16 = plaintext.length := by
    rw [length_sealTransparent, Nat.add_sub_cancel]
  rw [openTransparent, front]
  simp [sealTransparent, differ]

def transparent : Platform where
  nfc := id
  nfc_ascii := fun _ _ => rfl
  displayF64 := fun f => .ofInteger f.negative f.truncated
  readF64 := fun _ => none
  sha256 := id
  hkdfSha256 := fun inputKey _ _ => (.filled inputKey, .filled (inputKey.map (· + 1)))
  x25519Public := id
  x25519DiffieHellman := Key.add
  ed25519Public := id
  ed25519Sign := fun secret msg => secret.bytes ++ (Key.filled msg).bytes
  ed25519Check := fun publicKey msg signature =>
    signature == publicKey ++ (Key.filled msg).bytes
  mlDsa65Sign := fun _ msg => .ok msg
  mlDsa65Verify := fun _ msg signature => signature == msg
  chacha20poly1305Encrypt := fun key _ _ plaintext => sealTransparent key plaintext
  chacha20poly1305Decrypt := fun key _ _ ciphertext => openTransparent key ciphertext
  x25519_comm := Key.add_comm
  sign_length := fun secret msg => by simp [secret.length, (Key.filled msg).length]
  check_sign := fun secret msg => by simp
  encrypt_length := fun key _ _ plaintext => length_sealTransparent key plaintext
  decrypt_encrypt := fun key _ _ plaintext => open_sealTransparent key plaintext

/-- The two halves of a derivation from a key differ in their first byte. -/
theorem transparent_hkdf_differ (shared : Key) (salt info : Bytes) :
    (transparent.hkdfSha256 shared.bytes salt info).1 ≠
      (transparent.hkdfSha256 shared.bytes salt info).2 := by
  intro same
  have heads := congrArg (fun key => key.bytes.head?) same
  have nonempty := shared.length
  cases split : shared.bytes with
  | nil =>
    rw [split] at nonempty
    contradiction
  | cons first rest =>
    simp only [transparent, split, Key.filled, map_cons, cons_append,
      take_succ_cons, List.head?_cons, Option.some.injEq] at heads
    have values := congrArg UInt8.toNat heads
    rw [UInt8.toNat_add] at values
    have small := first.toNat_lt
    simp only [UInt8.reduceToNat] at values
    omega

/-- `SessionError`.  The texts are those of the source; `json` is a `Generic` error
with a text of `serde_json`, and `noMutualSuite` the `Generic` error that prints the
two suite lists with Rust's debug formatting. -/
inductive SessionError where
  | generic (text : String)
  | json
  | noMutualSuite (offered supported : List String)
  | aead (seq : UInt64)
  | crypto (text : String)

def b64encode (bytes : Bytes) : String :=
  standard.encode bytes

/-- `b64decode`, with the conversion of its error. -/
def b64decode (s : String) : Except SessionError Bytes :=
  match standard.decode (Text.utf8 s) with
  | .ok bytes => .ok bytes
  | .error e =>
    let text := e.text
    .error (.crypto s!"invalid base64: {text}")

/-- An ephemeral public key as it comes over the wire. -/
def decodeEphPub (s : String) : Except SessionError Key := do
  let bytes ← b64decode s
  match Key.ofBytes? bytes with
  | some key => .ok key
  | none => .error (.generic "eph_pub not 32 bytes")

variable (platform : Platform)

def Platform.ed25519Verify (publicKey msg signature : Bytes) : Bool :=
  publicKey.length == 32 && signature.length == 64 &&
    platform.ed25519Check publicKey msg signature

/-- `derive_peer_actor`, with the conversion of its error. -/
def Platform.derivePeerActor (identPub : Bytes) :
    Except SessionError String :=
  if identPub.length ≠ 32 then
    .error (.generic "derive_peer_actor: actor id path is empty")
  else
    let thumbprint := Text.hex ((platform.sha256 identPub).take 8)
    .ok s!"tf:actor:process:key/{thumbprint}"

@[simp] theorem b64decode_b64encode (bytes : Bytes) :
    b64decode (b64encode bytes) = .ok bytes := by
  simp only [b64decode, b64encode, standard.decode_encode]

theorem b64encode_isAscii (bytes : Bytes) : Text.IsAscii (b64encode bytes) :=
  standard.encode_isAscii bytes

/-- Only the encoding of the bytes decodes to them. -/
theorem b64encode_of_b64decode {s : String} {bytes : Bytes} (decoded : b64decode s = .ok bytes) :
    b64encode bytes = s := by
  unfold b64decode at decoded
  cases found : standard.decode (Text.utf8 s) with
  | ok out =>
    simp only [found, Except.ok.injEq] at decoded
    subst decoded
    exact standard.encode_of_decode found
  | error e => simp [found] at decoded

theorem isAscii_of_b64decode {s : String} {bytes : Bytes} (decoded : b64decode s = .ok bytes) :
    Text.IsAscii s := by
  rw [← b64encode_of_b64decode decoded]
  exact b64encode_isAscii bytes

@[simp] theorem decodeEphPub_b64encode (key : Key) :
    decodeEphPub (b64encode key.bytes) = .ok key := by
  simp [decodeEphPub, bind, Except.bind]

theorem isAscii_of_decodeEphPub {s : String} {key : Key} (decoded : decodeEphPub s = .ok key) :
    Text.IsAscii s := by
  rcases Result.bind_eq_ok decoded with ⟨bytes, decoded, _⟩
  exact isAscii_of_b64decode decoded

theorem Platform.ed25519Verify_sign (secret : Key) (msg : Bytes) :
    platform.ed25519Verify (platform.ed25519Public secret).bytes msg
      (platform.ed25519Sign secret msg) = true := by
  simp [ed25519Verify, (platform.ed25519Public secret).length, platform.sign_length,
    platform.check_sign]

theorem Platform.exists_derivePeerActor (key : Key) :
    ∃ actor, platform.derivePeerActor key.bytes = .ok actor := by
  rw [derivePeerActor, if_neg (not_not.mpr key.length)]
  exact ⟨_, rfl⟩

end TrustForge.Session
