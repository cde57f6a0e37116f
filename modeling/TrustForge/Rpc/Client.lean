import TrustForge.Foundation.Transition
import TrustForge.Rpc.Frames

/-!
# The client of ProofRPC

Each call leaves a record under its id; the listener of `RpcClient::new` hands what arrives
to the channel of the record.  A channel is known here by the signals it gets: what is sent
into it, and that its sender is dropped.
-/

namespace TrustForge.Rpc

open AssocMap Transition
open Json (Value)
open Session (SessionFrame)

/-- What a channel carries: the item type of `Stream`, `RemoteShellOut` or `AgentSessionFrame`. -/
inductive Received where
  | value (v : Value)
  | shellOut (stream : RemoteShellStream) (data : Bytes)
  | agentFrame (v : Value) (chain : List String)

/-- What happens to the sending half of a channel. -/
inductive Signal where
  | send (item : Except RpcError Received)
  | drop

/-- `Pending`, without the senders. -/
inductive Pending where
  | unary
  | stream (nextSeq : UInt64) (lastShellStream : Option RemoteShellStream)
      (lastChain : Option (List String))
  | remoteShellStream (nextSeq : UInt64) (lastStream : RemoteShellStream)
  | agentSessionStream (nextSeq : UInt64) (lastChain : List String)

/-- The map of the pending calls. -/
abbrev PendingMap :=
  List (String × Pending)

/-! ## Calls

The calls of the other kinds insert one of these records, or that of a shell or of an agent session,
and send an extension with their frame; they are left out. -/

section

variable (pending : PendingMap) (callId method : String) (request : Value)

/-- Every call inserts its record before its frame is sent. -/
def register (record : Pending) (ext : Option RpcFrameExt) : SessionFrame × PendingMap :=
  (encodeRpc (.rpcCall callId method request ext), insert callId record pending)

def callRaw : SessionFrame × PendingMap :=
  register pending callId method request .unary none

def serverStreamRaw : SessionFrame × PendingMap :=
  register pending callId method request (.stream 0 none none) none

end

/-! ## The listener -/

def seqMismatch (expected got : UInt64) : RpcError where
  code := .internal
  message := "stream seq mismatch: expected " ++ toString expected ++ ", got " ++ toString got

/-- One stream frame against a record that expects `nextSeq`.  The three kinds of stream records
differ in what they remember (`advanced`) and in what they hand on (`yield`). -/
def streamFrame (record : Pending) (nextSeq : UInt64) (advanced : Pending)
    (yield : Value → Received) (item : StreamItem Int64) : List Signal × Option Pending :=
  if item.seq < 0 then
    -- Acknowledgements do not advance the counter; a closing one ends the stream.
    if item.more then ([], some record) else ([.drop], none)
  else if item.seq.toUInt64 ≠ nextSeq then
    ([.send (.error (seqMismatch nextSeq item.seq.toUInt64)), .drop], none)
  else if item.more then
    match item.value with
    | some v => ([.send (.ok (yield v))], some advanced)
    | none => ([], some advanced)
  else
    match item.error with
    | some e => ([.send (.error e), .drop], none)
    | none => ([.drop], none)

/-- The branches of the listener for `RpcStream`; none means that the record is removed. -/
def onStream (record : Pending) (item : StreamItem Int64) : List Signal × Option Pending :=
  match record with
  | .unary => ([], some record)
  | .stream nextSeq lastShellStream lastChain =>
    streamFrame record nextSeq
      (.stream (nextSeq + 1) ((item.ext.bind (·.shellStream)).or lastShellStream)
        ((item.ext.bind (·.responsibilityChain)).or lastChain))
      .value item
  | .remoteShellStream nextSeq lastStream =>
    let streamTag := (item.ext.bind (·.shellStream)).getD lastStream
    streamFrame record nextSeq (.remoteShellStream (nextSeq + 1) streamTag)
      (fun v => .shellOut streamTag (decodeBulkChunk v)) item
  | .agentSessionStream nextSeq lastChain =>
    let chain := (item.ext.bind (·.responsibilityChain)).getD lastChain
    streamFrame record nextSeq (.agentSessionStream (nextSeq + 1) chain)
      (fun v => .agentFrame v chain) item

def noErrorBody : RpcError where
  code := .internal
  message := "(no error body)"

/-- The branch of the listener for `RpcResponse`.  The record is removed whatever it is, but only
a unary one gets the response. -/
def onResponse (record : Pending) (reply : RpcResponse) : List Signal :=
  match record with
  | .unary =>
    match reply.status with
    | .ok => [.send (.ok (.value (reply.response.getD .null)))]
    | .error => [.send (.error (reply.error.getD noErrorBody))]
  | _ => [.drop]

/-- What happens to the record of a call id, if there is one: the signals go to its channel, and
it is replaced or removed. -/
def atRecord (callId : String) (pending : PendingMap)
    (react : Pending → List Signal × Option Pending) : List (String × Signal) × PendingMap :=
  match get? callId pending with
  | none => ([], pending)
  | some record =>
    match react record with
    | (signals, some advanced) =>
      (signals.map (callId, ·), insert callId advanced pending)
    | (signals, none) => (signals.map (callId, ·), erase callId pending)

/-- The listener of `RpcClient::new`. -/
def listen (pending : PendingMap) (frame : SessionFrame) : List (String × Signal) × PendingMap :=
  match decodeRpc frame with
  | some (.rpcResponse reply) =>
    atRecord reply.callId pending fun record => (onResponse record reply, none)
  | some (.rpcStream item) => atRecord item.callId pending fun record => onStream record item
  | _ => ([], pending)

/-! ## One call

What the listener does for one call id depends on the record of that id alone. -/

/-- The signals to one channel. -/
def signalsOf (callId : String) (signals : List (String × Signal)) : List Signal :=
  signals.filterMap fun signal => if signal.1 = callId then some signal.2 else none

theorem signalsOf_map (callId target : String) (signals : List Signal) :
    signalsOf callId (signals.map (target, ·)) = if target = callId then signals else [] := by
  by_cases own : target = callId
  · simp [signalsOf, own]
  · simp [signalsOf, own]

/-- The listener as one call sees it. -/
def callStep (callId : String) : Option Pending → SessionFrame → List Signal × Option Pending
  | none, _ => ([], none)
  | some record, frame =>
    match decodeRpc frame with
    | some (.rpcResponse reply) =>
      if reply.callId = callId then (onResponse record reply, none) else ([], some record)
    | some (.rpcStream item) =>
      if item.callId = callId then onStream record item else ([], some record)
    | _ => ([], some record)

theorem callStep_of_response {callId : String} {record : Pending} {frame : SessionFrame}
    {reply : RpcResponse} (decoded : decodeRpc frame = some (.rpcResponse reply))
    (own : reply.callId = callId) :
    callStep callId (some record) frame = (onResponse record reply, none) := by
  rw [callStep, decoded]
  exact if_pos own

theorem callStep_of_stream {callId : String} {record : Pending} {frame : SessionFrame}
    {item : StreamItem Int64} (decoded : decodeRpc frame = some (.rpcStream item))
    (own : item.callId = callId) :
    callStep callId (some record) frame = onStream record item := by
  rw [callStep, decoded]
  exact if_pos own

/-- A reaction at a record is seen by the call it is for, and by no other. -/
theorem atRecord_call (callId target : String) (pending : PendingMap)
    (react : Pending → List Signal × Option Pending) :
    (signalsOf callId (atRecord target pending react).1,
      get? callId (atRecord target pending react).2) =
      ((get? callId pending).map fun record =>
        if target = callId then react record else ([], some record)).getD ([], none) := by
  by_cases own : target = callId
  · subst own
    cases found : get? target pending with
    | none => simp [atRecord, found, signalsOf]
    | some record =>
      rcases outcome : react record with ⟨signals, next⟩
      cases next with
      | none => simp [atRecord, found, outcome, signalsOf_map, get?_erase]
      | some advanced => simp [atRecord, found, outcome, signalsOf_map, get?_insert]
  · have apart : signalsOf callId (atRecord target pending react).1 = [] ∧
        get? callId (atRecord target pending react).2 = get? callId pending := by
      cases found : get? target pending with
      | none => simp [atRecord, found, signalsOf]
      | some record =>
        rcases outcome : react record with ⟨signals, next⟩
        cases next with
        | none => simp [atRecord, found, outcome, signalsOf_map, get?_erase, own]
        | some advanced =>
          simp [atRecord, found, outcome, signalsOf_map, get?_insert, own]
    rw [apart.1, apart.2]
    cases get? callId pending <;> simp [own]

/-- The listener's step for a call is the call's own step. -/
theorem listen_call (callId : String) (pending : PendingMap) (frame : SessionFrame) :
    (signalsOf callId (listen pending frame).1, get? callId (listen pending frame).2) =
      callStep callId (get? callId pending) frame := by
  cases decoded : decodeRpc frame with
  | none => cases found : get? callId pending <;> simp [listen, callStep, decoded, found, signalsOf]
  | some rpc =>
    cases rpc with
    | rpcCall | rpcClientStream =>
      cases found : get? callId pending <;>
        simp [listen, callStep, decoded, found, signalsOf]
    | rpcResponse | rpcStream =>
      simp only [listen, decoded]
      rw [atRecord_call]
      cases get? callId pending <;> simp [callStep, decoded]

/-- The signals a call gets while the frames arrive. -/
def signals (callId : String) (pending : PendingMap) (frames : List SessionFrame) : List Signal :=
  (outputs listen pending frames).flatMap (signalsOf callId)

theorem signals_eq (callId : String) (pending : PendingMap) (frames : List SessionFrame) :
    signals callId pending frames =
      (outputs (callStep callId) (get? callId pending) frames).flatten := by
  rw [signals, List.flatMap_def, map_outputs]
  refine congrArg List.flatten (outputs_eq
    (R := fun pending record => get? callId pending = record) ?_ rfl)
  rintro pending record frame - rfl
  have step := listen_call callId pending frame
  exact ⟨congrArg Prod.fst step, congrArg Prod.snd step⟩

/-- After its record is gone, a call gets no more signals. -/
theorem outputs_callStep_none (callId : String) (frames : List SessionFrame) :
    (outputs (callStep callId) none frames).flatten = [] := by
  induction frames with
  | nil => rfl
  | cons frame frames ih => rw [outputs, callStep, List.flatten_cons, ih, List.append_nil]

/-! ## What the caller sees -/

/-- What the receiving side has got so far, and whether it has ended. -/
structure View where
  items : List (Except RpcError Received)
  ended : Bool

def View.ofSignals : List Signal → View
  | [] => ⟨[], false⟩
  | .send item :: rest =>
    let later := ofSignals rest
    ⟨item :: later.items, later.ended⟩
  | .drop :: _ => ⟨[], true⟩

def transportDropped : RpcError where
  code := .internal
  message := "transport dropped the pending call"

/-- The result of a call that waits for one answer. -/
def View.ofAnswer : List Signal → View
  | [] => ⟨[], false⟩
  | .send item :: _ => ⟨[item], true⟩
  | .drop :: _ => ⟨[.error transportDropped], true⟩

/-- What the caller sees, by the kind of its record. -/
def Pending.view (record : Pending) (signals : List Signal) : View :=
  match record with
  | .unary => .ofAnswer signals
  | _ => .ofSignals signals

def View.observesError (view : View) : Prop :=
  ∃ e, .error e ∈ view.items

/-- The end of a stream without an error reads as its completion. -/
def View.endsAsCompleted (view : View) : Prop :=
  view.ended = true ∧ ¬view.observesError

end TrustForge.Rpc
