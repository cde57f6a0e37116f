import TrustForge.Session.Crypto

/-!
# Session messages and their JSON form

The handshake messages and the frames of `session.rs`, with the values that
`serde_json::to_value` and `from_value` convert them to and from: a `kind` tag,
the fields in declaration order, and optional fields left out when they are absent.
-/

namespace TrustForge.Session

open AssocMap
open Json (Value Number)

structure HelloI where
  version : UInt32
  suite : String
  supportedSuites : Option (List String)
  sessionId : String
  peerHint : String
  selfHint : Option String
  ephPub : String

structure HelloR where
  ephPub : String
  identPub : String
  selectedSuite : Option String
  selfHint : Option String
  signatureMldsa : Option String
  identPubMldsa : Option String
  signature : String

structure Auth where
  identPub : String
  signatureMldsa : Option String
  identPubMldsa : Option String
  signature : String

inductive SessionFrame where
  | data (payload : Value)
  | rekeyReq (ephPub : String)
  | rekeyAck (ephPub : String)
  | close (reason : Option String)
  | ping (nonce : String)
  | pong (nonce : String)

/-! ## Serialisation -/

/-- A field that is skipped when it is absent. -/
def optionalField (key : String) (value : Option Value) : List (String × Value) :=
  match value with
  | some v => [(key, v)]
  | none => []

/-- An optional field at the front is found under its own key. -/
@[simp] theorem get?_optionalField_append (key query : String) (value : Option Value)
    (rest : List (String × Value)) :
    get? query (optionalField key value ++ rest) =
      if key = query then value.or (get? query rest) else get? query rest := by
  cases value with
  | none => simp [optionalField]
  | some v => simp [optionalField, get?]

@[simp] theorem get?_optionalField (key query : String) (value : Option Value) :
    get? query (optionalField key value) = if key = query then value else none := by
  cases value with
  | none | some => simp [optionalField, get?]

/-- An unsigned 32 bit number. -/
def number32 (n : UInt32) : Value :=
  .number (.posInt ⟨n.toNat, lt_trans n.toNat_lt (by decide)⟩)

def HelloI.fields (msg : HelloI) : List (String × Value) :=
  [("kind", .string "hello-i"), ("version", number32 msg.version),
    ("suite", .string msg.suite)] ++
  optionalField "supported_suites"
    (msg.supportedSuites.map fun suites => .array (suites.map .string)) ++
  [("session_id", .string msg.sessionId), ("peer_hint", .string msg.peerHint)] ++
  optionalField "self_hint" (msg.selfHint.map .string) ++
  [("eph_pub", .string msg.ephPub)]

def HelloI.toValue (msg : HelloI) : Value :=
  .object msg.fields

def HelloR.fields (msg : HelloR) : List (String × Value) :=
  [("kind", .string "hello-r"), ("eph_pub", .string msg.ephPub),
    ("ident_pub", .string msg.identPub)] ++
  optionalField "selected_suite" (msg.selectedSuite.map .string) ++
  optionalField "self_hint" (msg.selfHint.map .string) ++
  optionalField "signature_mldsa" (msg.signatureMldsa.map .string) ++
  optionalField "ident_pub_mldsa" (msg.identPubMldsa.map .string) ++
  [("signature", .string msg.signature)]

def HelloR.toValue (msg : HelloR) : Value :=
  .object msg.fields

def Auth.fields (msg : Auth) : List (String × Value) :=
  [("kind", .string "auth"), ("ident_pub", .string msg.identPub)] ++
  optionalField "signature_mldsa" (msg.signatureMldsa.map .string) ++
  optionalField "ident_pub_mldsa" (msg.identPubMldsa.map .string) ++
  [("signature", .string msg.signature)]

def Auth.toValue (msg : Auth) : Value :=
  .object msg.fields

namespace SessionFrame

def fields : SessionFrame → List (String × Value)
  | .data payload => [("kind", .string "data"), ("payload", payload)]
  | .rekeyReq ephPub => [("kind", .string "rekey-req"), ("eph_pub", .string ephPub)]
  | .rekeyAck ephPub => [("kind", .string "rekey-ack"), ("eph_pub", .string ephPub)]
  | .close reason =>
    ("kind", .string "close") :: optionalField "reason" (reason.map .string)
  | .ping nonce => [("kind", .string "ping"), ("nonce", .string nonce)]
  | .pong nonce => [("kind", .string "pong"), ("nonce", .string nonce)]

def toValue (frame : SessionFrame) : Value :=
  .object frame.fields

/-- An optional string field: absent and `null` are `None`. -/
def readReason : Option Value → Option (Option String)
  | none => some none
  | some .null => some none
  | some (.string s) => some (some s)
  | some _ => none

/-- The variant named by the tag, from its fields. -/
def ofFields (tag : String) (field : String → Option Value) : Option SessionFrame :=
  match tag with
  | "data" => (field "payload").map .data
  | "rekey-req" => ((field "eph_pub").bind Value.asStr).map .rekeyReq
  | "rekey-ack" => ((field "eph_pub").bind Value.asStr).map .rekeyAck
  | "close" => (readReason (field "reason")).map .close
  | "ping" => ((field "nonce").bind Value.asStr).map .ping
  | "pong" => ((field "nonce").bind Value.asStr).map .pong
  | _ => none

/-- `from_value`.  Besides objects the derived code accepts an array of the tag and
the fields in order; every variant has one field. -/
def ofValue : Value → Option SessionFrame
  | .object entries =>
    ((get? "kind" entries).bind Value.asStr).bind fun tag =>
      ofFields tag fun key => get? key entries
  | .array [tag, value] => tag.asStr.bind fun tag => ofFields tag fun _ => some value
  | _ => none

end SessionFrame

/-! ## Reading a frame back -/

namespace SessionFrame

variable (runtime : Json.Runtime)

/-- The frame with every string normalised and nothing else changed. -/
def normalize (nfc : String → String) : SessionFrame → SessionFrame
  | .data payload => .data (payload.mapText nfc)
  | .rekeyReq ephPub => .rekeyReq (nfc ephPub)
  | .rekeyAck ephPub => .rekeyAck (nfc ephPub)
  | .close reason => .close (reason.map nfc)
  | .ping nonce => .ping (nfc nonce)
  | .pong nonce => .pong (nfc nonce)

/-- The frame the receiver reads from the canonical text of a frame. -/
def reread : SessionFrame → Option SessionFrame
  | .data payload => (runtime.reread (Json.recursionLimit - 1) payload).map .data
  | .rekeyReq ephPub => some (.rekeyReq (runtime.nfc ephPub))
  | .rekeyAck ephPub => some (.rekeyAck (runtime.nfc ephPub))
  | .close reason => some (.close (reason.map runtime.nfc))
  | .ping nonce => some (.ping (runtime.nfc nonce))
  | .pong nonce => some (.pong (runtime.nfc nonce))

variable (frame : SessionFrame)

theorem plainKeys_fields :
    Json.Runtime.PlainKeys (keys frame.fields) := by
  cases frame with
  | close reason =>
    cases reason with
    | none => exact (by decide : Json.Runtime.PlainKeys ["kind"])
    | some text => exact (by decide : Json.Runtime.PlainKeys ["kind", "reason"])
  | data payload => exact (by decide : Json.Runtime.PlainKeys ["kind", "payload"])
  | rekeyReq ephPub | rekeyAck ephPub =>
    exact (by decide : Json.Runtime.PlainKeys ["kind", "eph_pub"])
  | ping nonce | pong nonce => exact (by decide : Json.Runtime.PlainKeys ["kind", "nonce"])

/-- The frame found in an object that was read back, in terms of the fields written. -/
theorem ofValue_of_reread (w : Value)
    (read : runtime.reread Json.recursionLimit frame.toValue = some w) :
    ofValue w =
      (((get? "kind" frame.fields).bind (runtime.reread 127)).bind Value.asStr).bind
        fun tag => ofFields tag fun key =>
          (get? key frame.fields).bind (runtime.reread 127) := by
  have lookup := runtime.get?_of_reread_object frame.plainKeys_fields read
  rcases runtime.exists_object_of_reread read with ⟨entries, equal⟩
  subst equal
  simp only [Value.get?] at lookup
  simp only [ofValue, lookup]
  rfl

theorem isSome_reread_toValue : (runtime.reread Json.recursionLimit frame.toValue).isSome = true ↔
      ∀ entry ∈ frame.fields, (runtime.reread 127 entry.2).isSome = true :=
  runtime.reread_object_isSome_iff frame.fields (by decide)

/-- Writing a frame, reading the text and converting it gives `reread`. -/
theorem ofValue_reread :
    (runtime.reread Json.recursionLimit frame.toValue).bind ofValue = frame.reread runtime := by
  cases read : runtime.reread Json.recursionLimit frame.toValue with
  | none =>
    have unread : ¬(runtime.reread Json.recursionLimit frame.toValue).isSome = true := by
      simp [read]
    rw [isSome_reread_toValue] at unread
    -- Only a payload can be refused: every other field is a string.
    cases frame with
    | data payload =>
      have refused : runtime.reread 127 payload = none := by
        simpa [fields, Json.Runtime.reread] using unread
      simp [reread, Json.recursionLimit, refused]
    | close reason =>
      cases reason <;> simp [fields, optionalField, Json.Runtime.reread] at unread
    | rekeyReq | rekeyAck | ping | pong => simp [fields, Json.Runtime.reread] at unread
  | some w =>
    rw [Option.bind_some, ofValue_of_reread runtime frame w read]
    cases frame with
    | data payload =>
      simp [fields, get?, Json.Runtime.reread, Value.asStr, ofFields, reread,
        Json.recursionLimit, runtime.nfc_ascii "data" (by decide)]
    | close reason =>
      cases reason <;>
        simp [fields, get?, Json.Runtime.reread, Value.asStr, ofFields, reread,
          readReason, runtime.nfc_ascii "close" (by decide)]
    | rekeyReq | rekeyAck | ping | pong =>
      simp (disch := decide) [fields, get?, Json.Runtime.reread, Value.asStr, ofFields,
        reread, runtime.nfc_ascii]

end SessionFrame

end TrustForge.Session
