import TrustForge.Rpc.Frames

/-!
# The server of ProofRPC

The listener of `RpcServer::new` answers a call that it refuses, and spawns a task for one
that it takes.  The task of a call with client items installs a pipe under the call id when it
runs first; from then on the listener pushes the items of the call into the pipe, a pump
hands them to the handler, and the pipe is removed when the dispatcher is done.  The tasks
and the listener interleave in any way.
-/

namespace TrustForge.Rpc

open AssocMap
open Json (Codec Fields Value)
open Session (SessionFrame)

/-! ## Handlers -/

inductive CapabilityDecision where
  | allow
  | deny (reason : String)

/-- The variants of `Handler`. -/
inductive HandlerKind where
  | unary
  | stream
  | subscribe
  | clientStream
  | bidi
  | commandChannel (initialCredit : UInt32)
  | bulkTransfer
  | telemetry (priority : StreamingPriority)
  | remoteShell
  | agentSession
  | httpBridge
  deriving DecidableEq

/-- `Handler`, without the handler function. -/
structure Handler where
  kind : HandlerKind
  capability : String

def Handler.isStreaming (handler : Handler) : Bool :=
  match handler.kind with
  | .stream | .subscribe | .bidi | .commandChannel _ | .remoteShell | .agentSession
  | .httpBridge => true
  | .unary | .clientStream | .bulkTransfer | .telemetry _ => false

inductive HttpFrame where
  | requestHeaders (method path : String) (headers : List (String × String))
  | responseHeaders (status : UInt16) (headers : List (String × String))
  | bodyChunk (data : String)
  | trailers (headers : List (String × String))

def readHeaders : Value → Option (List (String × String))
  | .object entries => entries.mapM fun entry => entry.2.asStr.map (entry.1, ·)
  | _ => none

def readU16 : Value → Option UInt16
  | .number (.posInt n) => if n.val < 2 ^ 16 then some (.ofNat n.val) else none
  | _ => none

/-- `serde_json::from_value` of an HTTP frame. -/
def HttpFrame.fromValue (v : Value) : Option HttpFrame := do
  let (kind, content) ← Json.tagged "kind" v
  if kind = "request-headers" then
    let fields ← Fields.ofValue 3 content
    let method ← fields.required Codec.string.read 0 "method"
    let path ← fields.required Codec.string.read 1 "path"
    let headers ← fields.required readHeaders 2 "headers"
    some (.requestHeaders method path headers)
  else if kind = "response-headers" then
    let fields ← Fields.ofValue 2 content
    let status ← fields.required readU16 0 "status"
    let headers ← fields.required readHeaders 1 "headers"
    some (.responseHeaders status headers)
  else if kind = "body-chunk" then
    let fields ← Fields.ofValue 1 content
    let data ← fields.required Codec.string.read 0 "data"
    some (.bodyChunk data)
  else if kind = "trailers" then
    let fields ← Fields.ofValue 1 content
    let headers ← fields.required readHeaders 0 "headers"
    some (.trailers headers)
  else none

/-! ## Pipes -/

inductive InflightMsg where
  | value (v : Value) (ext : Option RpcFrameExt)
  | done
  | error (e : RpcError)

/-- Every pump ends with the first of these. -/
def InflightMsg.stops : InflightMsg → Bool
  | .value _ _ => false
  | .done => true
  | .error _ => true

/-- What the listener pushes for a client-stream frame: an item without a value is skipped. -/
def inflightMsg (item : StreamItem UInt64) : Option InflightMsg :=
  match item.error with
  | some e => some (.error e)
  | none => if item.more then item.value.map (.value · item.ext) else some .done

/-- What the handlers of the different kinds receive. -/
inductive Inbound where
  | value (item : Except RpcError Value)
  | chunk (data : Bytes)
  | agentFrame (v : Value) (chain : List String)
  | httpFrame (frame : HttpFrame)

/-- `pipe_to_value_rx`, one message. -/
def pipeToValueRx : InflightMsg → List Inbound
  | .value v _ => [.value (.ok v)]
  | .done => []
  | .error e => [.value (.error e)]

/-- The pumps of the dispatchers, one message. -/
def HandlerKind.forward (kind : HandlerKind) (initialChain : List String) (msg : InflightMsg) :
    List Inbound :=
  match kind with
  | .clientStream | .bidi | .commandChannel _ | .telemetry _ => pipeToValueRx msg
  | .bulkTransfer =>
    match msg with
    | .value v _ => [.chunk (decodeBulkChunk v)]
    | _ => []
  | .remoteShell =>
    match msg with
    | .value v ext =>
      -- Other tags than stdin are rejected silently.
      if (ext.bind (·.shellStream)).getD .stdin = .stdin then [.chunk (decodeBulkChunk v)]
      else []
    | _ => []
  | .agentSession =>
    match msg with
    | .value v ext => [.agentFrame v ((ext.bind (·.responsibilityChain)).getD initialChain)]
    | _ => []
  | .httpBridge =>
    match msg with
    | .value v _ => ((HttpFrame.fromValue v).map .httpFrame).toList
    | _ => []
  | .unary | .stream | .subscribe => []

/-! ## Tasks -/

inductive Phase where
  | spawned
  | running
  | finished
  deriving DecidableEq

/-- A task that the listener has spawned, with its pipe.  It starts as every task does. -/
structure Task where
  callId : String
  kind : HandlerKind
  initialChain : List String
  expectedHash : Option String
  phase : Phase := .spawned
  /-- The handler holds its receiver. -/
  listening : Bool := true
  /-- The pump has not returned. -/
  pumping : Bool := true
  pipe : List InflightMsg := []
  /-- What the pump has sent to the handler. -/
  delivered : List Inbound := []

namespace Task

variable (task : Task)

/-- A bulk transfer without a hash is refused before its pipe is installed. -/
def refused : Bool :=
  task.kind = .bulkTransfer && task.expectedHash.isNone

/-- The other kinds than these install a pipe. -/
def takesItems : Bool :=
  !task.refused && !(task.kind matches .unary | .stream | .subscribe)

def forward (msg : InflightMsg) : List Inbound :=
  task.kind.forward task.initialChain msg

def push (msg : InflightMsg) : Task :=
  { task with pipe := task.pipe ++ [msg] }

/-- The pump takes one message.  It returns at the end of the stream, and when the handler has
dropped its receiver; only the HTTP bridge ignores that. -/
def pumped (msg : InflightMsg) (rest : List InflightMsg) : Task :=
  { task with
    pipe := rest
    delivered := task.delivered ++ if task.listening then task.forward msg else []
    pumping := !msg.stops &&
      (task.listening || (task.forward msg).isEmpty || task.kind = .httpBridge) }

end Task

/-! ## The system -/

/-- `RpcServer`, the part that does not change. -/
structure RpcServer where
  callerActor : String
  /-- `CapabilityEnforcer::check`. -/
  check : String → String → String → CapabilityDecision

structure ServerState where
  handlers : List (String × Handler) := []
  /-- The pipes by call id; a pipe is known by its task. -/
  inflight : List (String × Nat) := []
  tasks : List Task := []
  /-- What the server has sent. -/
  sent : List SessionFrame := []

def refusal (callId : String) (code : RpcErrorCode) (message : String) : SessionFrame :=
  encodeRpc (.rpcResponse {
    callId, status := .error, response := none, error := some ⟨code, message⟩, ext := none })

def unknownMethod (callId method : String) : SessionFrame :=
  refusal callId .notFound ("unknown method: " ++ method)

def permissionDenied (callId : String) (handler : Handler) (reason : String) : SessionFrame :=
  if handler.isStreaming then
    encodeRpc (.rpcStream {
      callId, seq := 0, more := false, value := none, error := some ⟨.permissionDenied, reason⟩
      ext := none })
  else refusal callId .permissionDenied reason

def hashRequired (callId : String) : SessionFrame :=
  refusal callId .invalidArgument "bulk-transfer requires ext.bulk.expected_hash"

namespace ServerState

variable (s : ServerState)

def send (frame : SessionFrame) : ServerState :=
  { s with sent := s.sent ++ [frame] }

/-- A client-stream frame goes to the pipe under its call id, if there is one. -/
def route (item : StreamItem UInt64) : ServerState :=
  match get? item.callId s.inflight, inflightMsg item with
  | some k, some msg => { s with tasks := s.tasks.modify k (·.push msg) }
  | _, _ => s

/-- The rest of the listener: calls. -/
def accept (server : RpcServer) (callId method : String) (ext : Option RpcFrameExt) :
    ServerState :=
  match get? method s.handlers with
  | none => s.send (unknownMethod callId method)
  | some handler =>
    match server.check server.callerActor method handler.capability with
    | .deny reason => s.send (permissionDenied callId handler reason)
    | .allow =>
      { s with tasks := s.tasks ++ [{
          callId
          kind := handler.kind
          initialChain := (ext.bind (·.responsibilityChain)).getD []
          expectedHash := (ext.bind (·.bulk)).bind (·.expectedHash) }] }

/-- The listener of `RpcServer::new`. -/
def listen (server : RpcServer) (frame : SessionFrame) : ServerState :=
  match decodeRpc frame with
  | some (.rpcClientStream item) => s.route item
  | some (.rpcCall callId method _ ext) => s.accept server callId method ext
  | _ => s

/-- The first part of a dispatcher, up to the handler: `install_client_pipe` where the kind takes
client items. -/
def start (k : Nat) (task : Task) : ServerState :=
  if task.refused then
    { s with tasks := s.tasks.modify k ({ · with phase := .finished }) }.send
      (hashRequired task.callId)
  else
    { s with
      tasks := s.tasks.modify k ({ · with phase := .running })
      inflight := if task.takesItems then insert task.callId k s.inflight
        else s.inflight }

/-- One turn of the pump; that of the HTTP bridge also removes the pipe at the end. -/
def pump (k : Nat) (task : Task) (msg : InflightMsg) (rest : List InflightMsg) : ServerState :=
  { s with
    tasks := s.tasks.modify k (·.pumped msg rest)
    inflight := if task.kind = .httpBridge ∧ msg.stops then erase task.callId s.inflight
      else s.inflight }

/-- The last part of a dispatcher: `remove_inflight`. -/
def finish (k : Nat) (task : Task) : ServerState :=
  { s with
    tasks := s.tasks.modify k ({ · with phase := .finished })
    inflight := if task.takesItems then erase task.callId s.inflight else s.inflight }

end ServerState

inductive Action where
  /-- One of the `register` functions. -/
  | register (method : String) (handler : Handler)
  /-- A frame arrives and the listener handles it. -/
  | arrive (frame : SessionFrame)
  /-- A spawned task runs for the first time. -/
  | start (k : Nat)
  /-- A pump takes a message. -/
  | pump (k : Nat)
  /-- A handler drops its receiver. -/
  | deafen (k : Nat)
  /-- The dispatcher is done. -/
  | finish (k : Nat)

/-- One action, if it can happen. -/
def step (server : RpcServer) (s : ServerState) : Action → Option ServerState
  | .register method handler =>
    some { s with handlers := insert method handler s.handlers }
  | .arrive frame => some (s.listen server frame)
  | .start k => do
    let task ← s.tasks[k]?
    if task.phase = .spawned then some (s.start k task) else none
  | .pump k => do
    let task ← s.tasks[k]?
    if task.phase ≠ .spawned ∧ task.pumping then
      match task.pipe with
      | msg :: rest => some (s.pump k task msg rest)
      | [] => none
    else none
  | .deafen k => do
    let task ← s.tasks[k]?
    if task.phase ≠ .spawned then
      some { s with tasks := s.tasks.modify k ({ · with listening := false }) }
    else none
  | .finish k => do
    let task ← s.tasks[k]?
    if task.phase = .running then some (s.finish k task) else none

/-- A whole interleaving. -/
def run (server : RpcServer) : ServerState → List Action → Option ServerState
  | s, [] => some s
  | s, action :: actions => do
    let t ← step server s action
    run server t actions

end TrustForge.Rpc
