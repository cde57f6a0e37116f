import TrustForge.Json.Record

/-!
# Frames of ProofRPC

The frames of `rpc.rs` and their JSON form.  A frame travels as the payload of a session's
data frame.  What is decoded is what was encoded, except that an optional value that is
`null` comes back as no value.
-/

namespace TrustForge.Rpc

open AssocMap
open Json (Codec Fields Value)
open Session (SessionFrame optionalField)

inductive RpcErrorCode where
  | invalidArgument
  | unauthenticated
  | permissionDenied
  | notFound
  | internal

/-- `RpcErrorCode::as_str`, which is also the name in JSON. -/
def RpcErrorCode.asStr : RpcErrorCode → String
  | .invalidArgument => "invalid_argument"
  | .unauthenticated => "unauthenticated"
  | .permissionDenied => "permission_denied"
  | .notFound => "not_found"
  | .internal => "internal"

structure RpcError where
  code : RpcErrorCode
  message : String

inductive RpcMethodKind where
  | unary
  | serverStreaming
  | clientStreaming
  | bidiStreaming
  | subscribe
  | commandChannel
  | bulkTransfer
  | telemetry
  | remoteShell
  | agentSession
  | httpBridge

def RpcMethodKind.name : RpcMethodKind → String
  | .unary => "unary"
  | .serverStreaming => "server-streaming"
  | .clientStreaming => "client-streaming"
  | .bidiStreaming => "bidi-streaming"
  | .subscribe => "subscribe"
  | .commandChannel => "command-channel"
  | .bulkTransfer => "bulk-transfer"
  | .telemetry => "telemetry"
  | .remoteShell => "remote-shell"
  | .agentSession => "agent-session"
  | .httpBridge => "http-bridge"

inductive RemoteShellStream where
  | stdin
  | stdout
  | stderr
  deriving DecidableEq

def RemoteShellStream.name : RemoteShellStream → String
  | .stdin => "stdin"
  | .stdout => "stdout"
  | .stderr => "stderr"

inductive StreamingPriority where
  | p0
  | p1
  | p2
  | p3
  | p4
  | p5
  deriving DecidableEq

def StreamingPriority.name : StreamingPriority → String
  | .p0 => "P0"
  | .p1 => "P1"
  | .p2 => "P2"
  | .p3 => "P3"
  | .p4 => "P4"
  | .p5 => "P5"

structure RpcBulkExt where
  chunkIndex : Option UInt32 := none
  totalChunks : Option UInt32 := none
  expectedHash : Option String := none

structure RpcFrameExt where
  methodKind : Option RpcMethodKind := none
  streamingPriority : Option StreamingPriority := none
  subscribeTopic : Option String := none
  credit : Option UInt32 := none
  bulk : Option RpcBulkExt := none
  shellStream : Option RemoteShellStream := none
  responsibilityChain : Option (List String) := none
  ack : Option String := none

inductive ResponseStatus where
  | ok
  | error

def ResponseStatus.name : ResponseStatus → String
  | .ok => "ok"
  | .error => "error"

/-- The fields of `RpcFrame::RpcResponse`. -/
structure RpcResponse where
  callId : String
  status : ResponseStatus
  response : Option Value
  error : Option RpcError
  ext : Option RpcFrameExt

/-- The fields of `RpcFrame::RpcStream` and `RpcFrame::RpcClientStream`, which differ in the type of
the sequence number. -/
structure StreamItem (σ : Type) where
  callId : String
  seq : σ
  more : Bool
  value : Option Value
  error : Option RpcError
  ext : Option RpcFrameExt

inductive RpcFrame where
  | rpcCall (callId method : String) (request : Value) (ext : Option RpcFrameExt)
  | rpcResponse (response : RpcResponse)
  | rpcStream (item : StreamItem Int64)
  | rpcClientStream (item : StreamItem UInt64)

/-! ## Codecs -/

namespace Codecs

def errorCode : Codec RpcErrorCode :=
  .names [.invalidArgument, .unauthenticated, .permissionDenied, .notFound, .internal]
    RpcErrorCode.asStr (by intro a; cases a <;> rfl)

def methodKind : Codec RpcMethodKind :=
  .names [.unary, .serverStreaming, .clientStreaming, .bidiStreaming, .subscribe, .commandChannel,
    .bulkTransfer, .telemetry, .remoteShell, .agentSession, .httpBridge]
    RpcMethodKind.name (by intro a; cases a <;> rfl)

def shellStream : Codec RemoteShellStream :=
  .names [.stdin, .stdout, .stderr] RemoteShellStream.name (by intro a; cases a <;> rfl)

def priority : Codec StreamingPriority :=
  .names [.p0, .p1, .p2, .p3, .p4, .p5] StreamingPriority.name (by intro a; cases a <;> rfl)

def status : Codec ResponseStatus :=
  .names [.ok, .error] ResponseStatus.name (by intro a; cases a <;> rfl)

def writeError (e : RpcError) : Value :=
  .object [("code", errorCode.write e.code), ("message", .string e.message)]

def readError (v : Value) : Option RpcError := do
  let fields ← Fields.ofValue 2 v
  let code ← fields.required errorCode.read 0 "code"
  let message ← fields.required Value.asStr 1 "message"
  some ⟨code, message⟩

theorem readError_writeError (e : RpcError) : readError (writeError e) = some e := by
  refine Fields.required_named errorCode (a := e.code) ?_ ?_
  · simp [get?]
  refine Fields.required_named Codec.string (a := e.message) ?_ rfl
  simp [get?, Codec.string]

def error : Codec RpcError where
  write := writeError
  read := readError
  read_write := readError_writeError
  write_ne_null := fun _ => nofun

def bulkFields (bulk : RpcBulkExt) : List (String × Value) :=
  optionalField "chunk_index" (bulk.chunkIndex.map Codec.u32.write) ++
  optionalField "total_chunks" (bulk.totalChunks.map Codec.u32.write) ++
  optionalField "expected_hash" (bulk.expectedHash.map Codec.string.write)

def readBulk (v : Value) : Option RpcBulkExt := do
  let fields ← Fields.ofValue 3 v
  let chunkIndex ← fields.optional Codec.u32.read 0 "chunk_index" true
  let totalChunks ← fields.optional Codec.u32.read 1 "total_chunks" true
  let expectedHash ← fields.optional Codec.string.read 2 "expected_hash" true
  some { chunkIndex, totalChunks, expectedHash }

theorem readBulk_bulkFields (bulk : RpcBulkExt) :
    readBulk (.object (bulkFields bulk)) = some bulk := by
  refine Fields.optional_named Codec.u32 (a := bulk.chunkIndex) ?_ ?_
  · simp [bulkFields]
  refine Fields.optional_named Codec.u32 (a := bulk.totalChunks) ?_ ?_
  · simp [bulkFields]
  refine Fields.optional_named Codec.string (a := bulk.expectedHash) ?_ rfl
  simp [bulkFields]

def bulk : Codec RpcBulkExt where
  write := fun bulk => .object (bulkFields bulk)
  read := readBulk
  read_write := readBulk_bulkFields
  write_ne_null := fun _ => nofun

def extFields (ext : RpcFrameExt) : List (String × Value) :=
  optionalField "method_kind" (ext.methodKind.map methodKind.write) ++
  optionalField "streaming_priority" (ext.streamingPriority.map priority.write) ++
  optionalField "subscribe_topic" (ext.subscribeTopic.map Codec.string.write) ++
  optionalField "credit" (ext.credit.map Codec.u32.write) ++
  optionalField "bulk" (ext.bulk.map bulk.write) ++
  optionalField "shell_stream" (ext.shellStream.map shellStream.write) ++
  optionalField "responsibility_chain" (ext.responsibilityChain.map Codec.strings.write) ++
  optionalField "ack" (ext.ack.map Codec.string.write)

def readExt (v : Value) : Option RpcFrameExt := do
  let fields ← Fields.ofValue 8 v
  let methodKind ← fields.optional methodKind.read 0 "method_kind" true
  let streamingPriority ← fields.optional priority.read 1 "streaming_priority" true
  let subscribeTopic ← fields.optional Codec.string.read 2 "subscribe_topic" true
  let credit ← fields.optional Codec.u32.read 3 "credit" true
  let bulk ← fields.optional bulk.read 4 "bulk" true
  let shellStream ← fields.optional shellStream.read 5 "shell_stream" true
  let responsibilityChain ← fields.optional Codec.strings.read 6 "responsibility_chain" true
  let ack ← fields.optional Codec.string.read 7 "ack" true
  some ⟨methodKind, streamingPriority, subscribeTopic, credit, bulk, shellStream,
    responsibilityChain, ack⟩

theorem readExt_extFields (ext : RpcFrameExt) :
    readExt (.object (extFields ext)) = some ext := by
  refine Fields.optional_named methodKind (a := ext.methodKind) ?_ ?_
  · simp [extFields]
  refine Fields.optional_named priority (a := ext.streamingPriority) ?_ ?_
  · simp [extFields]
  refine Fields.optional_named Codec.string (a := ext.subscribeTopic) ?_ ?_
  · simp [extFields]
  refine Fields.optional_named Codec.u32 (a := ext.credit) ?_ ?_
  · simp [extFields]
  refine Fields.optional_named bulk (a := ext.bulk) ?_ ?_
  · simp [extFields]
  refine Fields.optional_named shellStream (a := ext.shellStream) ?_ ?_
  · simp [extFields]
  refine Fields.optional_named Codec.strings (a := ext.responsibilityChain) ?_ ?_
  · simp [extFields]
  refine Fields.optional_named Codec.string (a := ext.ack) ?_ rfl
  simp [extFields]

def ext : Codec RpcFrameExt where
  write := fun ext => .object (extFields ext)
  read := readExt
  read_write := readExt_extFields
  write_ne_null := fun _ => nofun

end Codecs

/-! ## Frames as JSON -/

def RpcResponse.fields (frame : RpcResponse) : List (String × Value) :=
  [("call_id", .string frame.callId), ("status", Codecs.status.write frame.status)] ++
  optionalField "response" frame.response ++
  optionalField "error" (frame.error.map Codecs.error.write) ++
  optionalField "ext" (frame.ext.map Codecs.ext.write)

def StreamItem.fields {σ : Type} (seq : Codec σ) (item : StreamItem σ) : List (String × Value) :=
  [("call_id", .string item.callId), ("seq", seq.write item.seq), ("more", .bool item.more)] ++
  optionalField "value" item.value ++
  optionalField "error" (item.error.map Codecs.error.write) ++
  optionalField "ext" (item.ext.map Codecs.ext.write)

/-- `serde_json::to_value` of a frame: the tag goes first. -/
def RpcFrame.toValue : RpcFrame → Value
  | .rpcCall callId method request ext => .object
      ([("kind", .string "rpc-call"), ("call_id", .string callId), ("method", .string method),
        ("request", request)] ++
      optionalField "ext" (ext.map Codecs.ext.write))
  | .rpcResponse frame => .object (("kind", .string "rpc-response") :: frame.fields)
  | .rpcStream item => .object (("kind", .string "rpc-stream") :: item.fields Codec.i64)
  | .rpcClientStream item =>
    .object (("kind", .string "rpc-client-stream") :: item.fields Codec.u64)

def readCall (fields : Fields) : Option RpcFrame := do
  let callId ← fields.required Codec.string.read 0 "call_id"
  let method ← fields.required Codec.string.read 1 "method"
  let request ← fields.required some 2 "request"
  let ext ← fields.optional Codecs.ext.read 3 "ext" true
  some (.rpcCall callId method request ext)

def readResponse (fields : Fields) : Option RpcResponse := do
  let callId ← fields.required Codec.string.read 0 "call_id"
  let status ← fields.required Codecs.status.read 1 "status"
  let response ← fields.optional some 2 "response" false
  let error ← fields.optional Codecs.error.read 3 "error" false
  let ext ← fields.optional Codecs.ext.read 4 "ext" true
  some { callId, status, response, error, ext }

def readItem {σ : Type} (seq : Codec σ) (fields : Fields) : Option (StreamItem σ) := do
  let callId ← fields.required Codec.string.read 0 "call_id"
  let seq ← fields.required seq.read 1 "seq"
  let more ← fields.required Codec.bool.read 2 "more"
  let value ← fields.optional some 3 "value" false
  let error ← fields.optional Codecs.error.read 4 "error" false
  let ext ← fields.optional Codecs.ext.read 5 "ext" true
  some { callId, seq, more, value, error, ext }

/-- `serde_json::from_value` of a frame; only success matters to the caller. -/
def RpcFrame.fromValue (v : Value) : Option RpcFrame := do
  let (kind, content) ← Json.tagged "kind" v
  if kind = "rpc-call" then
    (Fields.ofValue 4 content).bind readCall
  else if kind = "rpc-response" then
    ((Fields.ofValue 5 content).bind readResponse).map .rpcResponse
  else if kind = "rpc-stream" then
    ((Fields.ofValue 6 content).bind (readItem Codec.i64)).map .rpcStream
  else if kind = "rpc-client-stream" then
    ((Fields.ofValue 6 content).bind (readItem Codec.u64)).map .rpcClientStream
  else none

def encodeRpc (frame : RpcFrame) : SessionFrame :=
  .data frame.toValue

def decodeRpc : SessionFrame → Option RpcFrame
  | .data payload => RpcFrame.fromValue payload
  | _ => none

def decodeBulkChunk : Value → Bytes
  | .string s => (Encoding.standard.decode (Text.utf8 s)).toOption.getD []
  | .array items => items.filterMap fun item => (Json.Codec.readU64 item).map UInt64.toUInt8
  | _ => []

/-! ## What survives the trip -/

/-- A `null` in place of an optional value is lost. -/
def StreamItem.received {σ : Type} (item : StreamItem σ) : StreamItem σ :=
  { item with value := Fields.nonNull item.value }

def RpcFrame.received : RpcFrame → RpcFrame
  | .rpcCall callId method request ext => .rpcCall callId method request ext
  | .rpcResponse frame => .rpcResponse { frame with response := Fields.nonNull frame.response }
  | .rpcStream item => .rpcStream item.received
  | .rpcClientStream item => .rpcClientStream item.received

theorem readItem_fields {σ : Type} (seq : Codec σ) (kind : String) (item : StreamItem σ) :
    readItem seq (.named (("kind", .string kind) :: item.fields seq)) = some item.received := by
  refine Fields.required_named Codec.string (a := item.callId) ?_ ?_
  · simp [StreamItem.fields, get?, Codec.string]
  refine Fields.required_named seq (a := item.seq) ?_ ?_
  · simp [StreamItem.fields, get?]
  refine Fields.required_named Codec.bool (a := item.more) ?_ ?_
  · simp [StreamItem.fields, get?, Codec.bool]
  refine Fields.optional_some_named (v := item.value) ?_ ?_
  · simp [StreamItem.fields, get?]
  refine Fields.optional_named Codecs.error (a := item.error) ?_ ?_
  · simp [StreamItem.fields, get?]
  refine Fields.optional_named Codecs.ext (a := item.ext) ?_ rfl
  simp [StreamItem.fields, get?]

theorem readResponse_fields (frame : RpcResponse) :
    readResponse (.named (("kind", .string "rpc-response") :: frame.fields)) =
      some { frame with response := Fields.nonNull frame.response } := by
  refine Fields.required_named Codec.string (a := frame.callId) ?_ ?_
  · simp [RpcResponse.fields, get?, Codec.string]
  refine Fields.required_named Codecs.status (a := frame.status) ?_ ?_
  · simp [RpcResponse.fields, get?]
  refine Fields.optional_some_named (v := frame.response) ?_ ?_
  · simp [RpcResponse.fields, get?]
  refine Fields.optional_named Codecs.error (a := frame.error) ?_ ?_
  · simp [RpcResponse.fields, get?]
  refine Fields.optional_named Codecs.ext (a := frame.ext) ?_ rfl
  simp [RpcResponse.fields, get?]

theorem readCall_fields (callId method : String) (request : Value) (ext : Option RpcFrameExt) :
    readCall (.named ([("kind", .string "rpc-call"), ("call_id", .string callId),
      ("method", .string method), ("request", request)] ++
      optionalField "ext" (ext.map Codecs.ext.write))) =
      some (.rpcCall callId method request ext) := by
  refine Fields.required_named Codec.string (a := callId) ?_ ?_
  · simp [get?, Codec.string]
  refine Fields.required_named Codec.string (a := method) ?_ ?_
  · simp [get?, Codec.string]
  refine Fields.required_some_named (v := request) ?_ ?_
  · simp [get?]
  refine Fields.optional_named Codecs.ext (a := ext) ?_ rfl
  simp [get?]

/-- A frame arrives as it was sent, but for `null`s in optional places. -/
theorem decodeRpc_encodeRpc (frame : RpcFrame) :
    decodeRpc (encodeRpc frame) = some frame.received := by
  refine Option.bind_eq_some_iff.mpr ?_
  cases frame with
  | rpcCall callId method request ext =>
    refine ⟨_, Json.tagged_object _ _ _, ?_⟩
    exact readCall_fields callId method request ext
  | rpcResponse frame =>
    refine ⟨_, Json.tagged_object _ _ _, ?_⟩
    exact congrArg (Option.map RpcFrame.rpcResponse) (readResponse_fields frame)
  | rpcStream item =>
    refine ⟨_, Json.tagged_object _ _ _, ?_⟩
    exact congrArg (Option.map RpcFrame.rpcStream) (readItem_fields Codec.i64 _ item)
  | rpcClientStream item =>
    refine ⟨_, Json.tagged_object _ _ _, ?_⟩
    exact congrArg (Option.map RpcFrame.rpcClientStream) (readItem_fields Codec.u64 _ item)

end TrustForge.Rpc
