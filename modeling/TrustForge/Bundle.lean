import TrustForge.Json.Idempotence
import TrustForge.PacketMode.SignVerify

/-!
# Encrypted bundles

Model of `seal_bundle` and `open_bundle` (`bundle.rs`).  A bundle is encrypted under a fresh
data key, and the data key is wrapped once for every recipient, under a key that only the
recipient can derive.  To open a bundle, a recipient takes the first entry with its actor.

The bytes that are drawn at random are arguments of the model.
-/

namespace TrustForge.Bundle

open PacketMode Text Result List
open Encoding (standard)
open Json (Value)
open Session (Key Nonce optionalField)
open Signing (SignatureEnvelope SignatureFault)

/-! ## Bundles -/

structure WrappedKey where
  recipient : String
  recipientKeyId : Option String
  ephemeralPublic : String
  wrapped : String
  wrapNonce : String

def WrappedKey.toValue (key : WrappedKey) : Value :=
  .object ([("recipient", .string key.recipient)] ++
    optionalField "recipient_key_id" (key.recipientKeyId.map .string) ++
    [("ephemeral_public", .string key.ephemeralPublic), ("wrapped", .string key.wrapped),
      ("wrap_nonce", .string key.wrapNonce)])

structure EncryptedProofBundle where
  bundleVersion : String
  level : String
  ciphertext : String
  nonce : String
  wrappedKeys : List WrappedKey
  transparencyAnchor : Option Value
  signature : SignatureEnvelope

namespace EncryptedProofBundle

variable (enc : EncryptedProofBundle)

def signedFields : List (String × Value) :=
  [("bundle_version", .string enc.bundleVersion), ("level", .string enc.level),
    ("ciphertext", .string enc.ciphertext), ("nonce", .string enc.nonce),
    ("wrapped_keys", .array (enc.wrappedKeys.map WrappedKey.toValue))] ++
  optionalField "transparency_anchor" enc.transparencyAnchor

def toValue : Value :=
  .object (enc.signedFields ++ [("signature", enc.signature.toValue)])

theorem signature_not_mem_signedFields :
    "signature" ∉ AssocMap.keys enc.signedFields := by
  cases anchor : enc.transparencyAnchor with
  | none | some => simp [signedFields, anchor, AssocMap.keys, optionalField]

end EncryptedProofBundle

structure BundleRecipient where
  actor : String
  kemPublic : Key
  keyId : Option String

/-- What is drawn for a recipient. -/
structure WrapDraw where
  ephSeed : Key
  wrapNonce : Nonce

/-- What is drawn for a bundle. -/
structure BundleDraw where
  dataKey : Key
  nonce : Nonce

/-- How opening a bundle fails: with a text, or with a panic of `Nonce::from_slice` on a nonce
of another length. -/
inductive OpenError where
  | failed (text : String)
  | panicked
  deriving DecidableEq

/-! ## Sealing and opening -/

def hkdfInfo : Bytes :=
  utf8 "tfbundle/wrap"

/-- How `aead::Error` is shown. -/
def aeadError : String :=
  "aead::Error"

section

variable (platform : Platform)

/-- The key under which a data key is wrapped.  The first half of a longer expansion is the
shorter one, and a missing salt is an empty one. -/
def wrapKey (secret peerPublic : Key) : Key :=
  (platform.hkdfSha256 (platform.x25519DiffieHellman secret peerPublic).bytes [] hkdfInfo).1

/-- One round of the loop over the recipients. -/
def wrapFor (dataKey : Key) (entry : BundleRecipient × WrapDraw) : WrappedKey where
  recipient := entry.1.actor
  recipientKeyId := entry.1.keyId
  ephemeralPublic := standard.encode (platform.x25519Public entry.2.ephSeed).bytes
  wrapped := standard.encode (platform.chacha20poly1305Encrypt
    (wrapKey platform entry.2.ephSeed entry.1.kemPublic) entry.2.wrapNonce.bytes [] dataKey.bytes)
  wrapNonce := standard.encode entry.2.wrapNonce.bytes

variable (enc : EncryptedProofBundle)

def encryptedSigningBytes : Bytes :=
  platform.signingBytes enc.toValue

/-- `seal_bundle`, for recipients with what is drawn for them. -/
def sealBundle (bundle : Value) (recipients : List (BundleRecipient × WrapDraw)) (level : String)
    (signerPriv : Key) (signer : String) (draw : BundleDraw) : EncryptedProofBundle :=
  let ciphertext := platform.chacha20poly1305Encrypt draw.dataKey draw.nonce.bytes []
    (utf8 (platform.canonicalize bundle))
  let stub : EncryptedProofBundle :=
    { bundleVersion := "1"
      level := level
      ciphertext := standard.encode ciphertext
      nonce := standard.encode draw.nonce.bytes
      wrappedKeys := recipients.map (wrapFor platform draw.dataKey)
      transparencyAnchor := none
      signature := ⟨"ed25519", signer, ""⟩ }
  let signature := platform.sign signerPriv (encryptedSigningBytes platform stub)
  { stub with signature := { stub.signature with signature } }

/-- Decode a base64 field, whose name is in the error. -/
def decodeField (name text : String) : Except OpenError Bytes :=
  match standard.decode (utf8 text) with
  | .ok bytes => .ok bytes
  | .error e =>
    let reason := e.text
    .error (.failed s!"{name} base64: {reason}")

/-- `decrypt` of the AEAD, with the name of the step in the error. -/
def decryptStep (name : String) (key : Key) (nonce ciphertext : Bytes) : Except OpenError Bytes :=
  if nonce.length ≠ 12 then .error .panicked
  else
    match platform.chacha20poly1305Decrypt key nonce [] ciphertext with
    | some plaintext => .ok plaintext
    | none => .error (.failed s!"{name}: {aeadError}")

/-- `try_into` a 32 byte array. -/
def keyOrFail (name : String) (bytes : Bytes) : Except OpenError Key :=
  match Key.ofBytes? bytes with
  | some key => .ok key
  | none => .error (.failed s!"{name} not 32 bytes")

/-- The part of `open_bundle` up to the data key. -/
def unwrapDataKey (recipientPriv : Key) (recipientActor : String) :
    Except OpenError Bytes :=
  match enc.wrappedKeys.find? (fun key => key.recipient = recipientActor) with
  | none => .error (.failed s!"no wrapped key for recipient {recipientActor}")
  | some wrap => do
    let ephPubBytes ← decodeField "ephemeral_public" wrap.ephemeralPublic
    let ephPub ← keyOrFail "ephemeral_public" ephPubBytes
    let wrapped ← decodeField "wrapped" wrap.wrapped
    let wrapNonce ← decodeField "wrap_nonce" wrap.wrapNonce
    decryptStep platform "unwrap" (wrapKey platform recipientPriv ephPub) wrapNonce wrapped

/-- The check of the signature, if there is a key for it. -/
def checkSigner : Option Key → Except OpenError Unit
  | none => .ok ()
  | some publicKey =>
    (platform.verifySignature publicKey (encryptedSigningBytes platform enc)
      enc.signature.signature).mapError fun
        | .base64 e =>
          let reason := e.text
          .failed s!"signature base64: {reason}"
        | .parse =>
          let reason := platform.signatureError
          .failed s!"sig parse: {reason}"
        | .verifyingKey reason => .failed s!"verifying key: {reason}"
        | .mismatch => .failed "encrypted bundle signature did not verify"

def openBundle (recipientPriv : Key) (recipientActor : String)
    (signerPub : Option Key) : Except OpenError Value := do
  let dataKeyBytes ← unwrapDataKey platform enc recipientPriv recipientActor
  let ciphertext ← decodeField "ciphertext" enc.ciphertext
  let nonce ← decodeField "nonce" enc.nonce
  let dataKey ← keyOrFail "data_key" dataKeyBytes
  let plaintext ← decryptStep platform "decrypt" dataKey nonce ciphertext
  checkSigner platform enc signerPub
  match Json.fromSlice platform.readF64 plaintext with
  | some json => .ok json
  | none => .error (.failed (platform.serdeError plaintext))

end

/-! ## Fields that were written -/

theorem decodeField_encode (name : String) (bytes : Bytes) :
    decodeField name (standard.encode bytes) = .ok bytes := by
  rw [decodeField, standard.decode_encode]

theorem keyOrFail_bytes (name : String) (key : Key) : keyOrFail name key.bytes = .ok key := by
  rw [keyOrFail, Key.ofBytes?_bytes]

variable {recipientPriv : Key}

section

variable (platform : Platform)

theorem decryptStep_encrypt (name : String) (key : Key) (nonce : Nonce) (plaintext : Bytes) :
    decryptStep platform name key nonce.bytes
        (platform.chacha20poly1305Encrypt key nonce.bytes [] plaintext) = .ok plaintext := by
  rw [decryptStep, if_neg (not_not.mpr nonce.length), platform.decrypt_encrypt]

/-- The recipient derives the key that was used for its public key. -/
theorem wrapKey_comm {recipientPriv kemPublic : Key}
    (own : platform.x25519Public recipientPriv = kemPublic) (ephSeed : Key) :
    wrapKey platform recipientPriv (platform.x25519Public ephSeed) =
      wrapKey platform ephSeed kemPublic := by
  rw [wrapKey, wrapKey, platform.x25519_comm, own]

/-- The entry that a recipient takes is that of the first recipient with its actor. -/
theorem find?_wrapFor (dataKey : Key) (recipients : List (BundleRecipient × WrapDraw))
    (actor : String) :
    (recipients.map (wrapFor platform dataKey)).find? (fun key => key.recipient = actor) =
      (recipients.find? fun entry => entry.1.actor = actor).map (wrapFor platform dataKey) := by
  rw [List.find?_map]
  rfl

theorem encryptedSigningBytes_envelope (enc : EncryptedProofBundle) (envelope : SignatureEnvelope) :
    encryptedSigningBytes platform { enc with signature := envelope } =
      encryptedSigningBytes platform enc :=
  platform.signingBytes_envelope enc.signature_not_mem_signedFields _ _

/-- Who cannot unwrap the data key gets no further. -/
theorem openBundle_of_error {enc : EncryptedProofBundle} {actor : String} {e : OpenError}
    (refused : unwrapDataKey platform enc recipientPriv actor = .error e) (signerPub : Option Key) :
    openBundle platform enc recipientPriv actor signerPub = .error e := by
  rw [openBundle, refused]
  rfl

section

variable (bundle : Value) (recipients : List (BundleRecipient × WrapDraw)) (level : String)
  (signerPriv : Key) (signer : String) (draw : BundleDraw)

theorem unwrapDataKey_sealBundle (recipientPriv : Key) {actor : String}
    {first : BundleRecipient × WrapDraw}
    (found : recipients.find? (fun entry => entry.1.actor = actor) = some first) :
    unwrapDataKey platform (sealBundle platform bundle recipients level signerPriv signer draw)
        recipientPriv actor =
      decryptStep platform "unwrap"
        (wrapKey platform recipientPriv (platform.x25519Public first.2.ephSeed))
        first.2.wrapNonce.bytes (platform.chacha20poly1305Encrypt
          (wrapKey platform first.2.ephSeed first.1.kemPublic) first.2.wrapNonce.bytes []
          draw.dataKey.bytes) := by
  have entry : (sealBundle platform bundle recipients level signerPriv signer draw).wrappedKeys.find?
      (fun key => key.recipient = actor) = some (wrapFor platform draw.dataKey first) := by
    rw [← Option.map_some, ← found, ← find?_wrapFor]
    rfl
  rw [unwrapDataKey, entry]
  simp only [wrapFor, decodeField_encode, keyOrFail_bytes, bind, Except.bind]

theorem checkSigner_sealBundle :
    checkSigner platform (sealBundle platform bundle recipients level signerPriv signer draw)
      (some (platform.ed25519Public signerPriv)) = .ok () := by
  rw [checkSigner, sealBundle, encryptedSigningBytes_envelope, platform.verifySignature_sign]
  rfl

/-- With the data key at hand the rest succeeds, up to parsing. -/
theorem openBundle_of_unwrap {actor : String} (unwrapped : unwrapDataKey platform
      (sealBundle platform bundle recipients level signerPriv signer draw) recipientPriv actor =
        .ok draw.dataKey.bytes) (v : Value) :
    openBundle platform (sealBundle platform bundle recipients level signerPriv signer draw)
        recipientPriv actor (some (platform.ed25519Public signerPriv)) = .ok v ↔
      Json.fromSlice platform.readF64 (utf8 (platform.canonicalize bundle)) = some v := by
  rw [openBundle, unwrapped]
  have opened : decryptStep platform "decrypt" draw.dataKey draw.nonce.bytes
      (platform.chacha20poly1305Encrypt draw.dataKey draw.nonce.bytes []
        (utf8 (platform.canonicalize bundle))) =
          .ok (utf8 (platform.canonicalize bundle)) :=
    decryptStep_encrypt platform _ _ _ _
  have ciphertext : (sealBundle platform bundle recipients level signerPriv signer draw).ciphertext =
      standard.encode (platform.chacha20poly1305Encrypt draw.dataKey draw.nonce.bytes []
        (utf8 (platform.canonicalize bundle))) := rfl
  have nonce : (sealBundle platform bundle recipients level signerPriv signer draw).nonce =
      standard.encode draw.nonce.bytes := rfl
  simp only [ciphertext, nonce, decodeField_encode, keyOrFail_bytes, opened,
    checkSigner_sealBundle, bind, Except.bind]
  cases Json.fromSlice platform.readF64 (utf8 (platform.canonicalize bundle)) with
  | none | some => simp

end

/-- A key does not open what was sealed under another one. -/
def Rejects (key other : Key) (nonce plaintext : Bytes) : Prop :=
  key ≠ other →
    platform.chacha20poly1305Decrypt key nonce []
      (platform.chacha20poly1305Encrypt other nonce [] plaintext) = none

/-- A listed recipient opens the bundle exactly when the first recipient with its actor has a
public key that leads to the same wrapping key, and the bundle is not nested too deep for the
parser. -/
theorem openBundle_sealBundle_iff {bundle : Value}
    (readable : platform.ReadsNumbers ∨ bundle.floatFree = true)
    (recipients : List (BundleRecipient × WrapDraw)) (level : String) (signerPriv : Key)
    (signer : String) (draw : BundleDraw) {recipient : BundleRecipient}
    (listed : recipient ∈ recipients.map Prod.fst) {recipientPriv : Key}
    (own : platform.x25519Public recipientPriv = recipient.kemPublic)
    (ideal : ∀ entry ∈ recipients, Rejects platform
      (wrapKey platform entry.2.ephSeed recipient.kemPublic)
      (wrapKey platform entry.2.ephSeed entry.1.kemPublic) entry.2.wrapNonce.bytes
      draw.dataKey.bytes) :
    (∃ v, openBundle platform (sealBundle platform bundle recipients level signerPriv signer draw)
          recipientPriv recipient.actor (some (platform.ed25519Public signerPriv)) = .ok v ∧
        Json.fromSlice platform.readF64 (utf8 (platform.canonicalize bundle)) = some v) ↔
      (∃ first, recipients.find? (fun entry => entry.1.actor = recipient.actor) = some first ∧
        wrapKey platform first.2.ephSeed recipient.kemPublic =
          wrapKey platform first.2.ephSeed first.1.kemPublic) ∧
      bundle.depth < Json.recursionLimit := by
  obtain ⟨entry, present, equal⟩ := mem_map.mp listed
  have some : (recipients.find? fun entry => entry.1.actor = recipient.actor).isSome := by
    rw [List.find?_isSome]
    exact ⟨entry, present, by simp [equal]⟩
  obtain ⟨first, found⟩ := Option.isSome_iff_exists.mp some
  have unwrap := unwrapDataKey_sealBundle platform bundle recipients level signerPriv signer draw
    recipientPriv found
  rw [wrapKey_comm platform own] at unwrap
  simp only [found, Option.some.injEq, exists_eq_left']
  by_cases same : wrapKey platform first.2.ephSeed recipient.kemPublic =
      wrapKey platform first.2.ephSeed first.1.kemPublic
  · rw [same, decryptStep_encrypt] at unwrap
    simp only [openBundle_of_unwrap platform _ _ _ _ _ _ unwrap, and_self, same, true_and,
      platform.fromSlice_canonicalize]
    constructor
    · rintro ⟨v, read⟩
      exact platform.depth_lt_of_reread bundle _ v (by decide) read
    · intro shallow
      exact Option.isSome_iff_exists.mp
        (platform.isSome_reread_of bundle _ readable shallow)
  · have refused := ideal first (mem_of_find?_eq_some found) same
    rw [decryptStep, if_neg (not_not.mpr first.2.wrapNonce.length), refused] at unwrap
    simp only [same, false_and, iff_false, not_exists, not_and]
    intro v opened
    rw [openBundle_of_error platform unwrap] at opened
    contradiction

end

/-- A recipient with a private key, for the transparent primitives. -/
def sampleRecipient (actor : String) (keyId : String) (recipientPriv : Key) :
    BundleRecipient × WrapDraw :=
  (⟨actor, transparent.x25519Public recipientPriv, some keyId⟩,
    ⟨.filled [9], .filled 0⟩)

def sampleDraw : BundleDraw :=
  ⟨.filled [7], .filled 1⟩

/-- Two recipients with two actors. -/
theorem second_recipient_opens :
    let recipients := [sampleRecipient "ada" "k1" (.filled [1]), sampleRecipient "bob" "k2" (.filled [2])]
    let enc := sealBundle transparent (.object [("n", .null)]) recipients "L4" (.filled [3])
      "signer" sampleDraw
    ∃ v, openBundle transparent enc (.filled [2]) "bob"
          (some (transparent.ed25519Public (.filled [3]))) = .ok v ∧
        Json.fromSlice transparent.readF64
          (utf8 (transparent.canonicalize (.object [("n", .null)]))) = some v := by
  intro recipients enc
  have listed : (sampleRecipient "bob" "k2" (.filled [2])).1 ∈ recipients.map Prod.fst :=
    mem_map_of_mem (mem_cons_of_mem _ mem_cons_self)
  refine (openBundle_sealBundle_iff transparent (.inr rfl) recipients "L4" (.filled [3])
    "signer" sampleDraw listed rfl ?_).mpr ⟨⟨_, rfl, rfl⟩, by decide⟩
  intro entry member
  simp only [recipients, mem_cons, not_mem_nil, or_false] at member
  rcases member with rfl | rfl
  · intro _
    decide +kernel
  · intro different
    exact absurd rfl different

/-- An actor with two keys: who has the second one cannot unwrap the first entry. -/
theorem second_key_refused :
    let recipients := [sampleRecipient "ada" "k1" (.filled [1]), sampleRecipient "ada" "k2" (.filled [2])]
    let enc := sealBundle transparent (.object [("n", .null)]) recipients "L4" (.filled [3])
      "signer" sampleDraw
    let attempt := fun recipientPriv => (openBundle transparent enc recipientPriv "ada"
      (some (transparent.ed25519Public (.filled [3])))).map fun _ => ()
    attempt (.filled [1]) = .ok () ∧ attempt (.filled [2]) = .error (.failed "unwrap: aead::Error") := by
  intro recipients enc attempt
  have first : recipients.find? (fun entry => entry.1.actor = "ada") =
      some (sampleRecipient "ada" "k1" (.filled [1])) := rfl
  have unwrap (recipientPriv : Key) := unwrapDataKey_sealBundle transparent
    (.object [("n", .null)]) recipients "L4" (.filled [3]) "signer" sampleDraw recipientPriv first
  constructor
  · have own : transparent.x25519Public (.filled [1]) =
        (sampleRecipient "ada" "k1" (.filled [1])).1.kemPublic := rfl
    have unwrapped := unwrap (.filled [1])
    rw [wrapKey_comm transparent own, decryptStep_encrypt] at unwrapped
    have parsed : Json.fromSlice transparent.readF64
        (utf8 (transparent.canonicalize (.object [("n", .null)]))) =
          some (.object [("n", .null)]) := by
      rw [transparent.fromSlice_canonicalize]
      rfl
    have opened := (openBundle_of_unwrap transparent _ recipients "L4" (.filled [3])
      "signer" sampleDraw unwrapped _).mpr parsed
    exact congrArg (Except.map fun _ => ()) opened
  · have wrong : decryptStep transparent "unwrap"
        (wrapKey transparent (.filled [2])
          (transparent.x25519Public (.filled [9]))) (Nonce.filled 0).bytes
        (transparent.chacha20poly1305Encrypt (wrapKey transparent (.filled [9])
          (transparent.x25519Public (.filled [1]))) (Nonce.filled 0).bytes []
          sampleDraw.dataKey.bytes) = .error (.failed "unwrap: aead::Error") := by
      decide +kernel
    have refused := openBundle_of_error _ ((unwrap (.filled [2])).trans wrong)
    exact congrArg (Except.map fun _ => ()) (refused _)

/-! ## Panics -/

section

variable (platform : Platform)

theorem decodeField_eq_ok_iff {name text : String} {bytes : Bytes} :
    decodeField name text = .ok bytes ↔ standard.decode (utf8 text) = .ok bytes := by
  unfold decodeField
  split <;> simp_all

theorem decodeField_ne_panicked (name text : String) :
    decodeField name text ≠ .error .panicked := by
  unfold decodeField
  split <;> simp

theorem keyOrFail_eq_ok_iff {name : String} {bytes : Bytes} {key : Key} :
    keyOrFail name bytes = .ok key ↔ Key.ofBytes? bytes = some key := by
  unfold keyOrFail
  split <;> simp_all

theorem keyOrFail_ne_panicked (name : String) (bytes : Bytes) :
    keyOrFail name bytes ≠ .error .panicked := by
  unfold keyOrFail
  split <;> simp

theorem decryptStep_eq_panicked_iff {name : String} {key : Key} {nonce ciphertext : Bytes} :
    decryptStep platform name key nonce ciphertext = .error .panicked ↔ nonce.length ≠ 12 := by
  unfold decryptStep
  split
  · simp_all
  · split <;> simp_all

theorem decryptStep_eq_ok_iff {name : String} {key : Key} {nonce ciphertext plaintext : Bytes} :
    decryptStep platform name key nonce ciphertext = .ok plaintext ↔ nonce.length = 12 ∧
      platform.chacha20poly1305Decrypt key nonce [] ciphertext = some plaintext := by
  unfold decryptStep
  split
  · simp_all
  · split <;> simp_all

theorem checkSigner_ne_panicked (enc : EncryptedProofBundle) (signerPub : Option Key) :
    checkSigner platform enc signerPub ≠ .error .panicked := by
  cases signerPub with
  | none => simp [checkSigner]
  | some publicKey =>
    rw [checkSigner]
    cases platform.verifySignature publicKey (encryptedSigningBytes platform enc)
      enc.signature.signature with
    | ok _ => exact nofun
    | error fault => cases fault <;> exact nofun

/-- A nonce in base64 that has not twelve bytes. -/
def WrongNonce (text : String) : Prop :=
  ∃ nonce, standard.decode (utf8 text) = .ok nonce ∧ nonce.length ≠ 12

/-- Opening a bundle panics exactly if the nonce of the entry that the recipient takes has
another length, where its other fields can be decoded, or that of the bundle has, where the entry
holds a data key and the ciphertext can be decoded. -/
theorem openBundle_panics_iff (enc : EncryptedProofBundle) (recipientPriv : Key)
    (recipientActor : String) (signerPub : Option Key) :
    openBundle platform enc recipientPriv recipientActor signerPub = .error .panicked ↔
      ∃ wrap ephPubBytes ephPub wrapped nonce,
        enc.wrappedKeys.find? (fun key => key.recipient = recipientActor) = some wrap ∧
        standard.decode (utf8 wrap.ephemeralPublic) = .ok ephPubBytes ∧
        Key.ofBytes? ephPubBytes = some ephPub ∧
        standard.decode (utf8 wrap.wrapped) = .ok wrapped ∧
        standard.decode (utf8 wrap.wrapNonce) = .ok nonce ∧
        (nonce.length ≠ 12 ∨ ∃ dataKeyBytes dataKey ciphertext,
          platform.chacha20poly1305Decrypt (wrapKey platform recipientPriv ephPub) nonce []
            wrapped = some dataKeyBytes ∧
          Key.ofBytes? dataKeyBytes = some dataKey ∧
          standard.decode (utf8 enc.ciphertext) = .ok ciphertext ∧ WrongNonce enc.nonce) := by
  cases found : enc.wrappedKeys.find? fun key => key.recipient = recipientActor with
  | none => simp [openBundle, unwrapDataKey, found, bind_eq_error_iff]
  | some wrap =>
    simp only [openBundle, unwrapDataKey, found, bind_eq_error_iff, bind_eq_ok_iff,
      decodeField_eq_ok_iff, decodeField_ne_panicked, keyOrFail_eq_ok_iff, keyOrFail_ne_panicked,
      decryptStep_eq_panicked_iff, decryptStep_eq_ok_iff, checkSigner_ne_panicked, false_or,
      Option.some.injEq, exists_and_left, exists_eq_left']
    constructor
    · rintro (⟨ephBytes, eph, ephPub, key, wrapped, text, nonce, read, wrong⟩ |
        ⟨dataKeyBytes, ⟨ephBytes, eph, ephPub, key, wrapped, text, nonce, read, _, opened⟩,
          ciphertext, decoded, last, lastRead, dataKey, isKey, panicked⟩)
      · exact ⟨ephBytes, eph, ephPub, key, wrapped, text, nonce, read, .inl wrong⟩
      · obtain wrong | ⟨plaintext, _, _, _, failed⟩ := panicked
        · exact ⟨ephBytes, eph, ephPub, key, wrapped, text, nonce, read, .inr
            ⟨dataKeyBytes, opened, dataKey, isKey, ciphertext, decoded, last, lastRead, wrong⟩⟩
        · split at failed <;> cases failed
    · rintro ⟨ephBytes, eph, ephPub, key, wrapped, text, nonce, read, cases⟩
      by_cases wrong : nonce.length ≠ 12
      · exact .inl ⟨ephBytes, eph, ephPub, key, wrapped, text, nonce, read, wrong⟩
      · obtain ⟨dataKeyBytes, opened, dataKey, isKey, ciphertext, decoded, last, lastRead, wrong'⟩ :=
          cases.resolve_left wrong
        exact .inr ⟨dataKeyBytes, ⟨ephBytes, eph, ephPub, key, wrapped, text, nonce, read,
          not_not.mp wrong, opened⟩, ciphertext, decoded, last, lastRead, dataKey, isKey, .inl wrong'⟩

end

/-- An entry with an empty nonce. -/
theorem empty_nonce_panics :
    let wrap : WrappedKey := ⟨"ada", none, standard.encode (Key.filled []).bytes, "", ""⟩
    openBundle transparent
      ⟨"1", "L4", "", "", [wrap], none, ⟨"ed25519", "mallory", ""⟩⟩ (.filled [1]) "ada" none =
        .error .panicked := by
  intro wrap
  exact openBundle_of_error _ (by decide +kernel) none

end TrustForge.Bundle
