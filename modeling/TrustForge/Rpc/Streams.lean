import TrustForge.Rpc.Client
import TrustForge.Rpc.Server

/-!
# Streams from the server to the client

The frames of `run_server_stream_loop`, handled by the client's listener: what the receiver
yields against what the handler has sent.  A refused call is followed through both sides as
well.
-/

namespace TrustForge.Rpc

open Signal Transition View List Function
open Json (Value Fields)
open Session (SessionFrame)

/-! ## The loop of the server -/

section

variable (callId : String) (ext : Option RpcFrameExt)

def streamFrameOf (seq : Int64) (more : Bool) (value : Option Value) (error : Option RpcError) :
    SessionFrame :=
  encodeRpc (.rpcStream { callId, seq, more, value, error, ext })

/-- The loop from a sequence number on: what the handler sends until its sender is dropped. -/
def serverStreamFrames (seq : Int64) : List (Except RpcError Value) → List SessionFrame
  | [] => [streamFrameOf callId ext seq false none none]
  | .ok v :: rest =>
    streamFrameOf callId ext seq true (some v) none :: serverStreamFrames (seq + 1) rest
  | .error e :: _ => [streamFrameOf callId ext seq false none (some e)]

end

def kindExt (methodKind : Option RpcMethodKind) : Option RpcFrameExt :=
  methodKind.map fun kind => { methodKind := some kind }

def runServerStreamLoop (callId : String) (methodKind : Option RpcMethodKind)
    (items : List (Except RpcError Value)) : List SessionFrame :=
  serverStreamFrames callId (kindExt methodKind) 0 items

/-- Values, possibly ended by an error. -/
def itemsOf (values : List Value) (error : Option RpcError) : List (Except RpcError Value) :=
  values.map .ok ++ error.toList.map .error

/-! ## The client, frame by frame -/

variable (error : Option RpcError)

section

variable (callId : String) (methodKind : Option RpcMethodKind) (shell : Option RemoteShellStream)
  (chain : Option (List String))

theorem callStep_streamFrameOf (record : Pending) (seq : Int64) (more : Bool)
    (value : Option Value) (error : Option RpcError) :
    callStep callId (some record)
        (streamFrameOf callId (kindExt methodKind) seq more value error) =
      onStream record
        ⟨callId, seq, more, Fields.nonNull value, error, kindExt methodKind⟩ :=
  callStep_of_stream (decodeRpc_encodeRpc _) rfl

theorem kindExt_shellStream : (kindExt methodKind).bind (·.shellStream) = none := by
  cases methodKind <;> rfl

theorem kindExt_chain : (kindExt methodKind).bind (·.responsibilityChain) = none := by
  cases methodKind <;> rfl

theorem ofNat_not_neg {i : Nat} (small : i < 2 ^ 63) : ¬Int64.ofNat i < 0 := by
  rw [Int64.lt_iff_toInt_lt, Int64.toInt_ofNat_of_lt small]
  exact Int.not_lt.mpr (Int.natCast_nonneg i)

/-- The server's counter wraps here. -/
theorem ofNat_neg : Int64.ofNat (2 ^ 63) < 0 := by
  decide

/-- The frame of a value, in time: a `null` is not sent on, but counted. -/
theorem onStream_value {i : Nat} (small : i < 2 ^ 63) (value : Option Value) :
    onStream (.stream (.ofNat i) shell chain)
        ⟨callId, .ofNat i, true, value, none, kindExt methodKind⟩ =
      (value.toList.map fun v => .send (.ok (.value v)),
        some (.stream (.ofNat (i + 1)) shell chain)) := by
  have expected : (Int64.ofNat i).toUInt64 = UInt64.ofNat i := rfl
  rw [onStream, kindExt_shellStream, kindExt_chain, streamFrame, if_neg (ofNat_not_neg small),
    if_neg (not_not.mpr expected), if_pos rfl, UInt64.ofNat_add]
  cases value <;> rfl

/-- The last frame, in time. -/
theorem onStream_end {i : Nat} (small : i < 2 ^ 63) (error : Option RpcError) :
    onStream (.stream (.ofNat i) shell chain)
        ⟨callId, .ofNat i, false, none, error, kindExt methodKind⟩ =
      ((error.toList.map fun e => .send (.error e)) ++ [.drop], none) := by
  have expected : (Int64.ofNat i).toUInt64 = UInt64.ofNat i := rfl
  rw [onStream, streamFrame, if_neg (ofNat_not_neg small), if_neg (not_not.mpr expected),
    if_neg Bool.false_ne_true]
  cases error <;> rfl

/-- The last frame after the counter has wrapped reads as a closing acknowledgement. -/
theorem onStream_end_wrapped (nextSeq : UInt64) (error : Option RpcError) :
    onStream (.stream nextSeq shell chain)
        ⟨callId, .ofNat (2 ^ 63), false, none, error, kindExt methodKind⟩ = ([.drop], none) := by
  rw [onStream, streamFrame, if_pos ofNat_neg, if_neg Bool.false_ne_true]

/-! ## Whole streams -/

/-- The values that get through. -/
def sentOn (values : List Value) : List Value :=
  values.filterMap fun v => Fields.nonNull (some v)

def valueSignals (values : List Value) : List Signal :=
  (sentOn values).map fun v => .send (.ok (.value v))

/-- The signals of a record at a sequence number while the loop runs from there. -/
def streamSignals (i : Nat) (items : List (Except RpcError Value)) : List Signal :=
  (outputs (callStep callId) (some (.stream (.ofNat i) shell chain))
    (serverStreamFrames callId (kindExt methodKind) (.ofNat i) items)).flatten

theorem streamSignals_values (values : List Value) (rest : List (Except RpcError Value)) {i : Nat}
    (small : i + values.length ≤ 2 ^ 63) :
    streamSignals callId methodKind shell chain i (values.map .ok ++ rest) =
      valueSignals values ++
        streamSignals callId methodKind shell chain (i + values.length) rest := by
  induction values generalizing i with
  | nil => rfl
  | cons v values ih =>
    rw [length_cons] at small
    have next := ih (i := i + 1) (by omega)
    have value : (Fields.nonNull (some v)).toList.map (fun v => send (.ok (.value v))) =
        valueSignals [v] := by
      cases v <;> rfl
    have first : Int64.ofNat i + 1 = Int64.ofNat (i + 1) := (Int64.ofNat_add i 1).symm
    rw [streamSignals, map_cons, cons_append, serverStreamFrames, outputs,
      callStep_streamFrameOf, onStream_value callId methodKind shell chain (by omega), first,
      flatten_cons, ← streamSignals, next, value, length_cons, ← append_assoc]
    congr 1
    · rw [valueSignals, valueSignals, valueSignals, ← map_append, sentOn, sentOn, sentOn,
        ← filterMap_append, singleton_append]
    · congr 1
      omega

/-- After the values comes one frame. -/
theorem streamSignals_last (i : Nat) (error : Option RpcError) :
    streamSignals callId methodKind shell chain i (error.toList.map .error) =
      (onStream (.stream (.ofNat i) shell chain)
        ⟨callId, .ofNat i, false, none, error, kindExt methodKind⟩).1 := by
  cases error with
  | none =>
    rw [streamSignals, Option.toList_none, map_nil, serverStreamFrames, outputs,
      callStep_streamFrameOf, Fields.nonNull_none]
    exact append_nil _
  | some e =>
    rw [streamSignals, Option.toList_some, map_singleton, serverStreamFrames,
      outputs, callStep_streamFrameOf, Fields.nonNull_none]
    exact append_nil _

theorem streamSignals_end {i : Nat} (small : i < 2 ^ 63) (error : Option RpcError) :
    streamSignals callId methodKind shell chain i (error.toList.map .error) =
      (error.toList.map fun e => .send (.error e)) ++ [.drop] := by
  rw [streamSignals_last, onStream_end callId methodKind shell chain small]

theorem streamSignals_wrapped :
    streamSignals callId methodKind shell chain (2 ^ 63) (error.toList.map .error) = [.drop] := by
  rw [streamSignals_last, onStream_end_wrapped]

end

/-! ## The range of the counter

Whatever arrives, a record hands on no more values than there are sequence numbers. -/

def Signal.isValue : Signal → Bool
  | .send (.ok _) => true
  | _ => false

theorem toNat_toUInt64_lt {seq : Int64} (nonneg : ¬seq < 0) : seq.toUInt64.toNat < 2 ^ 63 := by
  have le : 0 ≤ seq := Int64.not_lt.mp nonneg
  rw [Int64.toNat_toUInt64_of_le le]
  exact seq.toNatClampNeg_lt

section

variable {callId : String} {n : UInt64} {shell : Option RemoteShellStream}
  {chain : Option (List String)}

/-- A stream record after a frame: gone, or at a sequence number that pays for the value that was
handed on. -/
theorem onStream_range (bound : n.toNat ≤ 2 ^ 63) (item : StreamItem Int64) :
    let outcome := onStream (.stream n shell chain) item
    outcome.2 = none ∧ outcome.1.countP isValue = 0 ∨
      ∃ m shell chain, outcome.2 = some (.stream m shell chain) ∧
        outcome.1.countP isValue + n.toNat ≤ m.toNat ∧ m.toNat ≤ 2 ^ 63 := by
  rw [onStream, streamFrame]
  by_cases ack : item.seq < 0
  · rw [if_pos ack]
    split
    · exact .inr ⟨n, shell, chain, rfl, le_of_eq (zero_add _), bound⟩
    · exact .inl ⟨rfl, rfl⟩
  · rw [if_neg ack]
    by_cases inTime : item.seq.toUInt64 = n
    · have below : n.toNat < 2 ^ 63 := inTime ▸ toNat_toUInt64_lt ack
      have next : (n + 1).toNat = n.toNat + 1 := by
        rw [UInt64.toNat_add, Nat.mod_eq_of_lt]
        · rfl
        · have one : (1 : UInt64).toNat = 1 := rfl
          omega
      rw [if_neg (not_not.mpr inTime)]
      split
      · split
        · refine .inr ⟨_, _, _, rfl, ?_, ?_⟩
          · rw [next]
            exact le_of_eq (add_comm 1 _)
          · omega
        · refine .inr ⟨_, _, _, rfl, ?_, ?_⟩
          · rw [next]
            exact (zero_add _).trans_le (Nat.le_succ _)
          · omega
      · split <;> exact .inl ⟨rfl, rfl⟩
    · rw [if_pos inTime]
      exact .inl ⟨rfl, rfl⟩

theorem callStep_range (bound : n.toNat ≤ 2 ^ 63) (frame : SessionFrame) :
    let outcome := callStep callId (some (.stream n shell chain)) frame
    outcome.2 = none ∧ outcome.1.countP isValue = 0 ∨
      ∃ m shell chain, outcome.2 = some (.stream m shell chain) ∧
        outcome.1.countP isValue + n.toNat ≤ m.toNat ∧ m.toNat ≤ 2 ^ 63 := by
  have unchanged : ∃ m shell' chain', some (Pending.stream n shell chain) =
      some (.stream m shell' chain') ∧
      ([] : List Signal).countP isValue + n.toNat ≤ m.toNat ∧ m.toNat ≤ 2 ^ 63 :=
    ⟨n, shell, chain, rfl, le_of_eq (zero_add _), bound⟩
  rw [callStep]
  split
  · split
    · exact .inl ⟨rfl, rfl⟩
    · exact .inr unchanged
  · split
    · exact onStream_range bound _
    · exact .inr unchanged
  · exact .inr unchanged

theorem countP_isValue_le (bound : n.toNat ≤ 2 ^ 63) (frames : List SessionFrame) :
    (outputs (callStep callId) (some (.stream n shell chain)) frames).flatten.countP
      isValue + n.toNat ≤ 2 ^ 63 := by
  induction frames generalizing n shell chain with
  | nil => simpa [outputs] using bound
  | cons frame frames ih =>
    rw [outputs, flatten_cons, countP_append]
    rcases @callStep_range callId n shell chain bound frame with
      ⟨gone, silent⟩ | ⟨m, shell', chain', kept, paid, bound'⟩
    · rw [gone, outputs_callStep_none, silent, countP_nil]
      omega
    · rw [kept]
      have rest := @ih m shell' chain' bound'
      omega

end

/-! ## What the caller gets -/

theorem View.countP_items_le (signals : List Signal) :
    (ofSignals signals).items.countP Except.isOk ≤ signals.countP isValue := by
  induction signals with
  | nil => exact le_refl 0
  | cons signal rest ih =>
    cases signal with
    | drop => exact Nat.zero_le _
    | send item =>
      rw [ofSignals, countP_cons, countP_cons]
      cases item with
      | error | ok => simpa [Except.isOk, Except.toBool, isValue] using ih

theorem View.ofSignals_sends (items : List (Except RpcError Received)) (rest : List Signal) :
    ofSignals (items.map .send ++ rest) =
      ⟨items ++ (ofSignals rest).items, (ofSignals rest).ended⟩ := by
  induction items with
  | nil => rfl
  | cons item items ih => rw [map_cons, cons_append, ofSignals, ih, cons_append]

/-- The view of a stream that arrives exactly. -/
def exactView (values : List Value) (error : Option RpcError) : View where
  items := values.map (fun v => .ok (.value v)) ++ error.toList.map .error
  ended := true

theorem nonNull_some {v : Value} (present : v ≠ .null) : Fields.nonNull (some v) = some v := by
  cases v with
  | null => exact absurd rfl present
  | _ => rfl

theorem sentOn_eq_self_iff (values : List Value) :
    sentOn values = values ↔ ∀ v ∈ values, v ≠ .null := by
  constructor
  · rintro same v member rfl
    have shorter : (sentOn values).length < values.length :=
      length_filterMap_lt_length_iff_exists.mpr ⟨.null, member, rfl⟩
    rw [same] at shorter
    exact lt_irrefl _ shorter
  · intro present
    induction values with
    | nil => rfl
    | cons v values ih =>
      have rest := ih fun other member => present other (mem_cons_of_mem v member)
      rw [sentOn, filterMap_cons, nonNull_some (present v mem_cons_self)]
      exact congrArg (v :: ·) rest

/-- The record of a call gets the signals of the loop from the first number on. -/
theorem signals_serverStreamRaw (pending : PendingMap) (callId method : String) (request : Value)
    (methodKind : Option RpcMethodKind) (items : List (Except RpcError Value)) :
    signals callId (serverStreamRaw pending callId method request).2
        (runServerStreamLoop callId methodKind items) =
      streamSignals callId methodKind none none 0 items := by
  rw [signals_eq, serverStreamRaw, register, AssocMap.get?_insert, if_pos rfl]
  rfl

theorem view_within {values : List Value} (callId : String) (methodKind : Option RpcMethodKind)
    (small : values.length < 2 ^ 63) :
    ofSignals (streamSignals callId methodKind none none 0 (itemsOf values error)) =
      exactView (sentOn values) error := by
  rw [itemsOf, streamSignals_values _ _ _ _ _ _ (by omega), zero_add,
    streamSignals_end _ _ _ _ small]
  have sends : valueSignals values ++ ((error.toList.map fun e => .send (.error e)) ++ [.drop]) =
      (exactView (sentOn values) error).items.map .send ++ [.drop] := by
    simp [valueSignals, exactView, comp_def]
  rw [sends, ofSignals_sends]
  simp [ofSignals, exactView]

theorem view_wrapped {values : List Value} (callId : String) (methodKind : Option RpcMethodKind)
    (full : values.length = 2 ^ 63) :
    ofSignals (streamSignals callId methodKind none none 0 (itemsOf values error)) =
      exactView (sentOn values) none := by
  rw [itemsOf, streamSignals_values _ _ _ _ _ _ (by omega), zero_add, full, streamSignals_wrapped]
  have sends : valueSignals values ++ [.drop] =
      (exactView (sentOn values) none).items.map .send ++ [.drop] := by
    simp [valueSignals, exactView]
  rw [sends, ofSignals_sends]
  simp [ofSignals, exactView]

def itemValue : Except RpcError Received → Option Value
  | .ok (.value v) => some v
  | _ => none

def itemError : Except RpcError Received → Option RpcError
  | .error e => some e
  | .ok _ => none

theorem exactView_inj {left right : List Value} {e f : Option RpcError} :
    exactView left e = exactView right f ↔ left = right ∧ e = f := by
  have values (values : List Value) (error : Option RpcError) :
      (exactView values error).items.filterMap itemValue = values := by
    cases error <;> simp [exactView, comp_def, itemValue]
  have errors (values : List Value) (error : Option RpcError) :
      ((exactView values error).items.filterMap itemError).head? = error := by
    cases error <;> simp [exactView, comp_def, itemError]
  constructor
  · intro same
    constructor
    · rw [← values left e, same, values]
    · rw [← errors left e, same, errors]
  · rintro ⟨rfl, rfl⟩
    rfl

theorem length_le_of_exactView {callId : String} {methodKind : Option RpcMethodKind}
    {items : List (Except RpcError Value)} {values : List Value} {error : Option RpcError}
    (exact : ofSignals (streamSignals callId methodKind none none 0 items) =
      exactView values error) : values.length ≤ 2 ^ 63 := by
  have counted := countP_items_le (streamSignals callId methodKind none none 0 items)
  have room : (streamSignals callId methodKind none none 0 items).countP isValue + 0 ≤
      2 ^ 63 := countP_isValue_le (Nat.zero_le _) _
  have all : values.length ≤ (exactView values error).items.countP Except.isOk := by
    have every : (values.map fun v => (.ok (.value v) : Except RpcError Received)).countP
        Except.isOk = values.length := by
      simp [Except.toBool]
    rw [exactView, countP_append, every]
    exact Nat.le_add_right _ _
  rw [exact] at counted
  omega

/-- A stream arrives exactly if none of its values is `null` and the counter does not wrap before
its last frame. -/
theorem stream_arrives_iff (pending : PendingMap) (callId method : String) (request : Value)
    (methodKind : Option RpcMethodKind) (values : List Value) (error : Option RpcError) :
    ofSignals (signals callId (serverStreamRaw pending callId method request).2
        (runServerStreamLoop callId methodKind (itemsOf values error))) = exactView values error ↔
      (∀ v ∈ values, v ≠ .null) ∧
        (values.length < 2 ^ 63 ∨ values.length = 2 ^ 63 ∧ error = none) := by
  rw [signals_serverStreamRaw]
  rcases lt_trichotomy values.length (2 ^ 63) with small | full | long
  · rw [view_within error callId methodKind small, exactView_inj, sentOn_eq_self_iff]
    simp only [small, true_or]
  · rw [view_wrapped error callId methodKind full, exactView_inj, sentOn_eq_self_iff]
    simp [full, eq_comm]
  · constructor
    · intro exact
      have short := length_le_of_exactView exact
      omega
    · rintro ⟨-, small | ⟨full, -⟩⟩
      · omega
      · omega

/-- A handler that sends `true`, `null` and `false`: the caller gets `true` and `false`. -/
theorem null_item_lost :
    ofSignals (signals "c" (serverStreamRaw [] "c" "list" .null).2
        (runServerStreamLoop "c" (some .serverStreaming)
          (itemsOf [.bool true, .null, .bool false] none))) =
      ⟨[.ok (.value (.bool true)), .ok (.value (.bool false))], true⟩ ∧
    ofSignals (signals "c" (serverStreamRaw [] "c" "list" .null).2
        (runServerStreamLoop "c" (some .serverStreaming)
          (itemsOf [.bool true, .null, .bool false] none))) ≠
      exactView [.bool true, .null, .bool false] none := by
  rw [signals_serverStreamRaw, view_within none "c" (some .serverStreaming) (by decide)]
  refine ⟨rfl, fun same => ?_⟩
  have values := (exactView_inj.mp same).1
  cases congrArg List.length values

/-! ## Error replies -/

/-- The caller of a pending call observes an error when a response for it arrives, whatever comes
later, exactly if the call waits for one answer and the status is an error.  A stream ends as if
it were complete. -/
theorem error_reply_observed_iff {pending : PendingMap} {callId : String} {record : Pending}
    {frame : SessionFrame} {reply : RpcResponse} (later : List SessionFrame)
    (waiting : AssocMap.get? callId pending = some record)
    (decoded : decodeRpc frame = some (.rpcResponse reply)) (own : reply.callId = callId) :
    (record.view (signals callId pending (frame :: later))).observesError ∧
        ¬(record.view (signals callId pending (frame :: later))).endsAsCompleted ↔
      record = .unary ∧ reply.status = .error := by
  have answer : signals callId pending (frame :: later) = onResponse record reply := by
    rw [signals_eq, waiting, outputs, callStep_of_response decoded own,
      flatten_cons, outputs_callStep_none, append_nil]
  rw [answer]
  cases record with
  | unary =>
    cases status : reply.status with
    | ok | error =>
      simp [onResponse, status, Pending.view, ofAnswer, observesError, endsAsCompleted]
  | _ =>
    simp [onResponse, Pending.view, ofSignals, observesError]

theorem decodeRpc_unknownMethod (callId method : String) :
    decodeRpc (unknownMethod callId method) = some (.rpcResponse {
      callId, status := .error, response := none
      error := some ⟨.notFound, "unknown method: " ++ method⟩, ext := none }) :=
  decodeRpc_encodeRpc _

/-- A unary call to a method that is not there. -/
theorem error_reply_observed_unary :
    ((Pending.unary).view (signals "c" (callRaw [] "c" "list" .null).2
        [unknownMethod "c" "list"])).observesError ∧
      ¬((Pending.unary).view (signals "c" (callRaw [] "c" "list" .null).2
        [unknownMethod "c" "list"])).endsAsCompleted :=
  (error_reply_observed_iff [] rfl (decodeRpc_unknownMethod "c" "list") rfl).mpr ⟨rfl, rfl⟩

/-- A server stream of a method that is not there: the server answers with an error, and the
caller sees a stream that is complete. -/
theorem unknown_method_ends_stream :
    (ServerState.listen {} ⟨"tf:actor:service:example.com/peer", fun _ _ _ => .allow⟩
        (serverStreamRaw [] "c" "list" .null).1).sent = [unknownMethod "c" "list"] ∧
      ((Pending.stream 0 none none).view (signals "c" (serverStreamRaw [] "c" "list" .null).2
        [unknownMethod "c" "list"])).endsAsCompleted := by
  constructor
  · rw [serverStreamRaw, register, ServerState.listen, decodeRpc_encodeRpc]
    rfl
  · have answer : signals "c" (serverStreamRaw [] "c" "list" .null).2
        [unknownMethod "c" "list"] = [.drop] := by
      rw [signals_eq, serverStreamRaw, register, AssocMap.get?_insert, if_pos rfl,
        outputs, callStep_of_response (decodeRpc_unknownMethod "c" "list") rfl]
      rfl
    rw [answer]
    simp [Pending.view, ofSignals, observesError, endsAsCompleted]

end TrustForge.Rpc
