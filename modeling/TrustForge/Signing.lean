import TrustForge.Session.Messages

/-!
# Signed objects

Packets, evidence bundles, revocation lists and relay authorities are signed in the same
way: the JSON value without its `signature` field is canonicalised, hashed by most of
them, and the base64 text of an ed25519 signature is put into the envelope.  The checks of
the four verifiers differ in the texts of their errors only.
-/

namespace TrustForge.Signing

open Encoding (standard)
open Json (Value)
open Session (Key)

/-- `SignatureEnvelope` of `packet.rs`, `evidence.rs` and `relay.rs`. -/
structure SignatureEnvelope where
  algorithm : String
  signer : String
  signature : String

def SignatureEnvelope.toValue (envelope : SignatureEnvelope) : Value :=
  .object [("algorithm", .string envelope.algorithm), ("signer", .string envelope.signer),
    ("signature", .string envelope.signature)]

/-- The primitives, with what `ed25519_dalek` says about keys and signatures. -/
structure Toolkit extends Session.Platform where
  /-- `VerifyingKey::from_bytes`, with the text of its error. -/
  verifyingKey : Key → Except String Unit
  /-- The text of the error of `Signature::from_slice`, which is about the length. -/
  signatureError : String
  verifyingKey_public : ∀ secret, verifyingKey (ed25519Public secret) = .ok ()

/-- A list of strings. -/
def strings (texts : List String) : Value :=
  .array (texts.map .string)

/-- `map.remove("signature")`. -/
def withoutSignature : Value → Value
  | .object entries => .object (entries.filter fun entry => entry.1 ≠ "signature")
  | v => v

variable {fields : List (String × Value)}

theorem withoutSignature_object (envelope : Value) (unsigned : "signature" ∉ AssocMap.keys fields) :
    withoutSignature (.object (fields ++ [("signature", envelope)])) = .object fields := by
  have kept : fields.filter (fun entry => entry.1 ≠ "signature") = fields := by
    rw [List.filter_eq_self]
    intro entry mem
    rw [decide_eq_true_iff]
    intro same
    exact unsigned (same ▸ List.mem_map_of_mem mem)
  rw [withoutSignature, List.filter_append, kept]
  simp

/-- Why a signature is refused. -/
inductive SignatureFault where
  | base64 (e : Encoding.DecodeError)
  | parse
  | verifyingKey (text : String)
  | mismatch

namespace Toolkit

variable (toolkit : Toolkit)

/-- The canonical text that a signature covers. -/
def signingText (v : Value) : String :=
  toolkit.canonicalize (withoutSignature v)

/-- The digest of that text. -/
def signingBytes (v : Value) : Bytes :=
  toolkit.sha256 (Text.utf8 (toolkit.signingText v))

/-- Decode the signature, parse it, parse the key and verify. -/
def verifySignature (publicKey : Key) (message : Bytes) (signature : String) :
    Except SignatureFault Unit :=
  match standard.decode (Text.utf8 signature) with
  | .error e => .error (.base64 e)
  | .ok bytes =>
    if bytes.length ≠ 64 then .error .parse
    else
      match toolkit.verifyingKey publicKey with
      | .error text => .error (.verifyingKey text)
      | .ok () =>
        if toolkit.ed25519Check publicKey.bytes message bytes then .ok ()
        else .error .mismatch

/-- The base64 text of a signature. -/
def sign (secret : Key) (message : Bytes) : String :=
  standard.encode (toolkit.ed25519Sign secret message)

/-- The reason a verifier gives, with its own words for bad base64 and for a signature that
does not verify. -/
def faultText (base64 mismatch : String) : SignatureFault → String
  | .base64 e =>
    let text := e.text
    s!"{base64}: {text}"
  | .parse =>
    let text := toolkit.signatureError
    s!"signature parse: {text}"
  | .verifyingKey text => s!"verifying key: {text}"
  | .mismatch => mismatch

/-- A signature covers the fields before it. -/
theorem signingText_object (envelope : Value) (unsigned : "signature" ∉ AssocMap.keys fields) :
    toolkit.signingText (.object (fields ++ [("signature", envelope)])) =
      toolkit.canonicalize (.object fields) := by
  rw [signingText, withoutSignature_object envelope unsigned]

/-- What is signed does not depend on the signature. -/
theorem signingBytes_envelope (unsigned : "signature" ∉ AssocMap.keys fields)
    (envelope other : Value) :
    toolkit.signingBytes (.object (fields ++ [("signature", envelope)])) =
      toolkit.signingBytes (.object (fields ++ [("signature", other)])) := by
  rw [signingBytes, signingBytes, toolkit.signingText_object envelope unsigned,
    toolkit.signingText_object other unsigned]

theorem verifySignature_sign (secret : Key) (message : Bytes) :
    toolkit.verifySignature (toolkit.ed25519Public secret) message
      (toolkit.sign secret message) = .ok () := by
  rw [verifySignature, sign, standard.decode_encode]
  simp [toolkit.sign_length, toolkit.verifyingKey_public, toolkit.check_sign]

end Toolkit

/-- The transparent primitives, with every key accepted. -/
def transparent : Toolkit where
  toPlatform := Session.transparent
  verifyingKey := fun _ => .ok ()
  signatureError := "signature error"
  verifyingKey_public := fun _ => rfl

end TrustForge.Signing
