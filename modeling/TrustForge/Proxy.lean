import TrustForge.Foundation.HttpGrammar
import TrustForge.Foundation.Lines
import TrustForge.Foundation.Result
import TrustForge.Json.Value

/-!
# The enforcement proxy

Model of `tf-proxy`: the question to the daemon, `handle_request`, and `serve_connection`, which
looks at the first bytes of a connection and either splices it to the upstream or leaves it to
`hyper`.  What the daemon and the upstream answer may depend on everything that happened on the
connection before.
-/

namespace TrustForge.Proxy

open Json (Value)
open Lines (isWhitespace splitOnce trim)

/-! ## Headers -/

/-- `HeaderMap`: names are in lower case, and the first value of a name counts. -/
abbrev Headers := List (String × Bytes)

/-- `to_ascii_lowercase`. -/
def lower (s : String) : String :=
  String.ofList (s.toList.map Char.toLower)

def isVisibleAscii (b : UInt8) : Bool :=
  (32 ≤ b && b < 127) || b = 9

def toStr (value : Bytes) : Option String :=
  if value.all isVisibleAscii then some (Text.latin1 value) else none

/-- `HeaderValue::from_str`. -/
def headerValue (text : String) : Option Bytes :=
  let bytes := Text.utf8 text
  if bytes.all (fun b => (32 ≤ b && b ≠ 127) || b = 9) then some bytes else none

/-- `HeaderName::from_bytes`. -/
def headerName (text : String) : Option String :=
  if HttpGrammar.isToken (Text.utf8 text) then some (lower text) else none

/-- The text of the first value of a header. -/
def headerText (headers : Headers) (name : String) : Option String :=
  (AssocMap.get? name headers).bind toStr

/-- A header that is left out if its value is not valid. -/
def optionalHeader (name value : String) : Headers :=
  ((headerValue value).map fun v => (name, v)).toList

/-! ## Configuration and messages -/

inductive Mode where
  | observeOnly
  | enforce
  deriving DecidableEq

/-- `ProxyConfig`, as far as a plain connection depends on it. -/
structure ProxyConfig where
  upstream : String
  daemon : String
  profile : String
  mode : Mode

structure Uri where
  scheme : Option String
  host : Option String
  port : Option Nat
  path : String
  pathAndQuery : Option String

/-- A request as `hyper` hands it over; its body may break off. -/
structure Request where
  method : String
  uri : Uri
  headers : Headers
  body : Except String Bytes

/-- `DecideRequest`, with the two entries of its context. -/
structure DecideRequest where
  hostToken : Option String
  hostTokenKind : Option String
  action : String
  target : String
  ip : String
  userAgent : Option String
  traceId : String
  deriving DecidableEq

structure DecideResponse where
  decision : String
  reason : Option String
  proofId : Option String
  approvalId : Option String
  deriving DecidableEq

/-- What comes back from the daemon. -/
inductive DaemonReply where
  | unbuilt (e : String)
  | unreachable (e : String)
  | failed (status : String)
  | brokenBody (e : String)
  | malformed (e text : String)
  | answer (response : DecideResponse)

/-- A request as the upstream sees it. -/
structure UpstreamRequest where
  method : String
  path : String
  headers : Headers
  body : Bytes
  deriving DecidableEq

/-- What the upstream received, and the status it answered with. -/
structure Received where
  request : UpstreamRequest
  status : Option Nat
  deriving DecidableEq

/-- How a forwarded request ends. -/
inductive UpstreamReply where
  /-- The upstream never saw the request. -/
  | unreachable (e : String)
  /-- It did, but there is no response. -/
  | dropped (e : String)
  | response (status : Nat) (headers : Headers) (body : Except String Bytes)

inductive Body where
  | json (value : Value)
  | bytes (content : Bytes)

structure Response where
  status : Nat
  headers : Headers
  body : Body

/-- What happens on a connection, as far as it is about mediation. -/
inductive Event where
  | decided (call : DecideRequest) (result : Except String DecideResponse)
  | received (r : Received)
  deriving DecidableEq

/-- The events so far, in order. -/
abbrev History := List Event

/-- The configuration, the client's address, and everything around the proxy. -/
structure Env where
  cfg : ProxyConfig
  ip : String
  parseUri : String → Option Uri
  /-- The message for a URL that is none. -/
  uriError : String → String
  /-- The requests that `hyper` reads off a byte stream. -/
  hyper : Bytes → List Request
  nextTraceId : History → String
  daemon : History → DecideRequest → DaemonReply
  upstream : History → UpstreamRequest → UpstreamReply
  connects : String → Nat → Bool
  /-- The requests that the upstream reads off a byte stream, with its answers. -/
  readOff : Bytes → List Received

/-! ## The question to the daemon -/

def classifyToken (t : String) : String :=
  if t.toList.count '.' = 2 ∧
      t.toList.all fun c => c.isAlphanum || c = '.' || c = '-' || c = '_' then "jwt"
  else "opaque"

/-- `strip_prefix`. -/
def stripFront (front text : List Char) : Option (List Char) :=
  if front <+: text then some (text.drop front.length) else none

/-- The token after a mark, unless it is empty. -/
def tokenAfter (mark : String) (text : List Char) : Option (String × String) :=
  (stripFront mark.toList text).bind fun rest =>
    let token := String.ofList (trim rest)
    if token = "" then none else some (token, classifyToken token)

def extractHostToken (headers : Headers) : Option (String × String) :=
  let bearer := (headerText headers "authorization").bind fun s => tokenAfter "Bearer " s.toList
  let cookie := (headerText headers "cookie").bind fun s =>
    (s.toList.splitOn ';').findSome? fun raw =>
      let part := trim raw
      ["__session=", "__Secure-next-auth.session-token="].findSome? fun name => tokenAfter name part
  bearer.or cookie

def actionFor (method path : String) : String :=
  let segments := (path.toList.splitOn '/').filter (· ≠ [])
  let m := lower method
  if segments = [] then m ++ ".root"
  else m ++ "." ++ String.ofList (['.'].intercalate segments)

def isWebsocketUpgrade (headers : Headers) : Bool :=
  (headerText headers "upgrade").any fun s => lower s = "websocket"

/-- The result of `call_decide` for a reply. -/
def DaemonReply.result : DaemonReply → Except String DecideResponse
  | .unbuilt e => .error s!"build decide request: {e}"
  | .unreachable e => .error s!"daemon unreachable: {e}"
  | .failed status => .error s!"daemon status {status}"
  | .brokenBody e => .error s!"daemon body read: {e}"
  | .malformed e text => .error s!"daemon malformed body: {e}: {text}"
  | .answer response =>
    if response.decision = "" then .error "daemon returned empty decision" else .ok response

section

variable (env : Env) (history : History)

/-- The body of the question. -/
def decideRequest (headers : Headers) (method path : String) (isConnect : Bool) :
    DecideRequest where
  hostToken := (extractHostToken headers).map Prod.fst
  hostTokenKind := (extractHostToken headers).map Prod.snd
  action := if isConnect then "connect" else actionFor method path
  target := path
  ip := env.ip
  userAgent := headerText headers "user-agent"
  traceId := env.nextTraceId history

/-- `call_decide`: what is asked, and what comes of it. -/
def callDecide (headers : Headers) (method path : String) (isConnect : Bool) :
    DecideRequest × Except String DecideResponse :=
  let call := decideRequest env history headers method path isConnect
  (call, (env.daemon history call).result)

end

/-! ## Forwarding -/

/-- The text without slashes at its end. -/
def trimSlashes (s : String) : String :=
  String.ofList (s.toList.rdropWhile (· = '/'))

/-- The headers of a response that are not passed on. -/
def hopByHop : List String :=
  ["connection", "keep-alive", "proxy-authenticate", "proxy-authorization", "te", "trailers",
    "transfer-encoding", "upgrade", "content-length"]

/-- The URL that a request is forwarded to. -/
def upstreamUrl (cfg : ProxyConfig) (uri : Uri) : String :=
  trimSlashes cfg.upstream ++ uri.pathAndQuery.getD uri.path

/-- `forward_to_upstream`: what the upstream received, and what goes back to the client. -/
def forwardToUpstream (env : Env) (history : History) (req : Request) :
    Option Received × Except String Response :=
  let url := upstreamUrl env.cfg req.uri
  match req.body, env.parseUri url with
  | .error e, _ => (none, .error s!"read req body: {e}")
  | .ok _, none =>
    let e := env.uriError url
    (none, .error s!"build upstream request: {e}")
  | .ok body, some uri =>
    let headers := req.headers.filter fun header => header.1 ∉ "host" :: hopByHop
    let request := ⟨req.method, uri.path, headers, body⟩
    match env.upstream history request with
    | .unreachable e => (none, .error s!"upstream error: {e}")
    | .dropped e => (some ⟨request, none⟩, .error s!"upstream error: {e}")
    | .response status _ (.error e) =>
      (some ⟨request, some status⟩, .error s!"upstream body: {e}")
    | .response status headers (.ok content) =>
      (some ⟨request, some status⟩,
        .ok ⟨status, headers.filter fun header => header.1 ∉ hopByHop, .bytes content⟩)

/-! ## Requests -/

/-- `json_response`, with further headers. -/
def jsonResponse (status : Nat) (entries : List (String × String)) (headers : Headers) : Response :=
  ⟨status, ("content-type", Text.utf8 "application/json") :: headers,
    .json (.object (entries.map fun entry => (entry.1, .string entry.2)))⟩

/-- The address at which an approval can be given. -/
def approvalLocation (cfg : ProxyConfig) (approvalId : String) : String :=
  trimSlashes cfg.daemon ++ "/v1/approval/" ++ approvalId

/-- What a denied request gets. -/
def denied (env : Env) (d : DecideResponse) : Response :=
  let realm := ((env.parseUri env.cfg.upstream).bind Uri.host).getD env.cfg.profile
  let reason := d.reason.getD ""
  jsonResponse 403 [("error", "deny"), ("reason", reason), ("proof_id", d.proofId.getD "")]
    (optionalHeader "www-authenticate" s!"TrustForge realm=\"{realm}\", reason=\"{reason}\"")

/-- What a request that waits for an approval gets. -/
def pending (env : Env) (d : DecideResponse) : Response :=
  let approvalId := d.approvalId.getD ""
  jsonResponse 202 [("status", "pending"), ("approval_id", approvalId)]
    (optionalHeader "location" (approvalLocation env.cfg approvalId))

/-- A request that was handled. -/
structure Handled where
  request : Request
  call : DecideRequest
  result : Except String DecideResponse
  received : Option Received
  response : Response

/-- What to do with a request. -/
inductive Verdict where
  | forward
  | answer (response : Response)

/-- The branches of `handle_request` on a decision. -/
def verdict (env : Env) (d : DecideResponse) : Verdict :=
  let decision := d.decision
  if decision = "allow" then .forward
  else if decision = "deny" then
    if env.cfg.mode = .enforce then .answer (denied env d) else .forward
  else if decision = "approval-required" ∨ decision = "approval_required" then
    .answer (pending env d)
  else if decision = "log-only" ∨ decision = "log_only" then .forward
  else if env.cfg.mode = .enforce then
    .answer (jsonResponse 403 [("error", "deny"), ("reason", s!"unknown decision: {decision}")] [])
  else .forward

def handleRequest (env : Env) (history : History) (req : Request) : Handled :=
  let (call, result) := callDecide env history req.headers req.method req.uri.path
    (isWebsocketUpgrade req.headers)
  match result with
  | .error e =>
    ⟨req, call, result, none, jsonResponse 502 [("error", "daemon-error"), ("detail", e)] []⟩
  | .ok d =>
    match verdict env d with
    | .answer response => ⟨req, call, result, none, response⟩
    | .forward =>
      let (received, forwarded) :=
        forwardToUpstream env (history ++ [.decided call result]) req
      match forwarded with
      | .ok response => ⟨req, call, result, received, response⟩
      | .error e =>
        ⟨req, call, result, received,
          jsonResponse 502 [("error", "upstream-error"), ("detail", e)] []⟩

/-- The events of a request. -/
def Handled.events (h : Handled) : List Event :=
  .decided h.call h.result :: (h.received.map .received).toList

/-- The requests of a connection, one after the other. -/
def serveRequests (env : Env) : History → List Request → List Handled
  | _, [] => []
  | history, req :: rest =>
    let h := handleRequest env history req
    h :: serveRequests env (history ++ h.events) rest

/-! ## Connections -/

/-- The text before the first empty line. -/
def takeHead : List Char → List Char
  | [] => []
  | c :: rest => if ['\r', '\n', '\r', '\n'] <+: c :: rest then [] else c :: takeHead rest

/-- `split("\r\n")`. -/
def splitCrLf : List Char → List (List Char)
  | '\r' :: '\n' :: rest => [] :: splitCrLf rest
  | c :: rest =>
    match splitCrLf rest with
    | [] => [[c]]
    | line :: lines => (c :: line) :: lines
  | [] => [[]]

/-- The lines of the head of a request. -/
def headLines (buf : Bytes) : Option (List (List Char)) :=
  (Text.ofUtf8? buf).map fun s => splitCrLf (takeHead s.toList)

def headLooksLikeWebsocket (buf : Bytes) : Bool :=
  match headLines buf with
  | none => false
  | some lines => (lines.drop 1).any fun line =>
    match splitOnce ':' line with
    | some (name, value) =>
      lower (String.ofList (trim name)) = "upgrade" &&
        lower (String.ofList (trim value)) = "websocket"
    | none => false

/-- A field line, unless its name or its value is not valid. -/
def headerLine (line : List Char) : Option (String × Bytes) := do
  let (n, v) ← splitOnce ':' line
  let name ← headerName (String.ofList (trim n))
  let value ← headerValue (String.ofList (trim v))
  some (name, value)

/-- `parse_request_head`; the last value of a name replaces the ones before. -/
def parseRequestHead (buf : Bytes) : Option (String × String × Headers) := do
  let lines ← headLines buf
  let parts := ((lines.headD []).splitOnP isWhitespace).filter (· ≠ [])
  let method ← parts[0]?
  let path ← parts[1]?
  some (String.ofList method, String.ofList path,
    AssocMap.ofPairs ((lines.drop 1).filterMap headerLine))

/-- `splice_to_upstream`: what the upstream reads off the client's bytes. -/
def spliceToUpstream (env : Env) (stream : Bytes) : List Received :=
  match env.parseUri env.cfg.upstream with
  | none => []
  | some url =>
    let host := url.host.getD "127.0.0.1"
    let port := url.port.getD (if url.scheme = some "https" then 443 else 80)
    if env.connects host port then env.readOff stream else []

/-- What a client sends, and how much of it `peek` sees. -/
structure Connection where
  stream : Bytes
  peeked : Bytes
  begins : peeked <+: stream
  short : peeked.length ≤ 4096

/-- How a connection was served. -/
inductive Run where
  | closed
  | refused (call : DecideRequest) (result : Except String DecideResponse) (response : String)
  | spliced (call : DecideRequest) (result : Except String DecideResponse)
      (received : List Received)
  | served (requests : List Handled)

/-- A response with a JSON text, as it is written to the socket. -/
def rawResponse (status : String) (headers body : String) : String :=
  let length := body.utf8ByteSize
  s!"HTTP/1.1 {status}\r\n{headers}Content-Type: application/json\r\n" ++
    s!"Content-Length: {length}\r\nConnection: close\r\n\r\n{body}"

/-- The decisions that wait for an approval. -/
def isPending (d : DecideResponse) : Bool :=
  d.decision = "approval-required" || d.decision = "approval_required"

/-- What a client gets whose upgrade was not allowed. -/
def refusal (env : Env) (d : DecideResponse) : String :=
  if isPending d then
    let approvalId := d.approvalId.getD ""
    let location := approvalLocation env.cfg approvalId
    rawResponse "202 Accepted" s!"Location: {location}\r\n"
      ("\x7b\"status\":\"pending\",\"approval_id\":\"" ++ approvalId ++ "\"\x7d")
  else
    rawResponse "403 Forbidden" ""
      ("\x7b\"error\":\"deny\",\"reason\":\"" ++ d.reason.getD "" ++ "\"\x7d")

/-- The branch of `serve_connection_inner` for a websocket upgrade. -/
def serveUpgrade (env : Env) (stream : Bytes) (method path : String) (headers : Headers) : Run :=
  let m := if HttpGrammar.isToken (Text.utf8 method) then method else "GET"
  let (call, result) := callDecide env [] headers m path true
  match result with
  | .ok d =>
    if d.decision = "allow" ∨ (env.cfg.mode = .observeOnly ∧ isPending d = false) then
      .spliced call result (spliceToUpstream env stream)
    else .refused call result (refusal env d)
  | .error e =>
    .refused call result
      (rawResponse "502 Bad Gateway" ""
        ("\x7b\"error\":\"daemon-error\",\"detail\":\"" ++ e ++ "\"\x7d"))

def serveConnection (env : Env) (conn : Connection) : Run :=
  if conn.peeked = [] then .closed
  else
    let upgrade :=
      if headLooksLikeWebsocket conn.peeked then parseRequestHead conn.peeked else none
    match upgrade with
    | some (method, path, headers) => serveUpgrade env conn.stream method path headers
    | none => .served (serveRequests env [] (env.hyper conn.stream))

/-- The events of a connection. -/
def Run.events : Run → List Event
  | .closed => []
  | .refused call result _ => [.decided call result]
  | .spliced call result received => .decided call result :: received.map .received
  | .served requests => requests.flatMap Handled.events

end TrustForge.Proxy
