import TrustForge.Proxy

/-!
# Which requests are mediated

A request that the upstream receives is mediated if the daemon granted it before: under its own
path, and as its own action or, if the upstream switches protocols for it, as a connection.  What
has to hold for that depends on how the connection was served.  Bytes that are spliced are asked
about only once; a request that `hyper` reads is asked about before it is forwarded, but one that
carries `Upgrade: websocket` is asked about as a connection and forwarded without the header.
-/

namespace TrustForge.Proxy

open Handled List Option

/-- A decision that lets a request pass. -/
def Granted (d : DecideResponse) : Prop :=
  d.decision = "allow" ∨ d.decision = "log-only" ∨ d.decision = "log_only"

/-- A question to the daemon that covers a request of the upstream. -/
def Asks (call : DecideRequest) (r : Received) : Prop :=
  call.target = r.request.path ∧
    (call.action = actionFor r.request.method r.request.path ∨
      call.action = "connect" ∧ r.status = some 101)

/-- Every request that the upstream receives comes after a question about it that was granted. -/
def Mediated (events : List Event) : Prop :=
  ∀ before r after, events = before ++ .received r :: after →
    ∃ call d, .decided call (.ok d) ∈ before ∧ Granted d ∧ Asks call r

/-- What holds of every request that the upstream receives and of the events before it. -/
def Each (Q : History → Received → Prop) (history : History) (events : List Event) : Prop :=
  ∀ before r after, events = before ++ .received r :: after → Q (history ++ before) r

section

variable (env : Env)

/-- The question about a request, and what comes of it. -/
def question (history : History) (req : Request) : DecideRequest × Except String DecideResponse :=
  callDecide env history req.headers req.method req.uri.path (isWebsocketUpgrade req.headers)

def asked (history : History) (req : Request) : Event :=
  .decided (question env history req).1 (question env history req).2

/-- The daemon lets a request pass. -/
def Grants (history : History) (req : Request) : Prop :=
  ∃ d, (question env history req).2 = .ok d ∧ Granted d

/-- The status that the upstream answers a request with, if it sees the request. -/
def UpstreamReply.status : UpstreamReply → Option (Option Nat)
  | .unreachable _ => none
  | .dropped _ => some none
  | .response status _ _ => some (some status)

/-- The upstream sees a request as another one, which it answers with the status. -/
def Sends (history : History) (req : Request) (sent : UpstreamRequest) (status : Option Nat) : Prop :=
  ∃ body uri, req.body = .ok body ∧ env.parseUri (upstreamUrl env.cfg req.uri) = some uri ∧
    sent = ⟨req.method, uri.path, req.headers.filter fun header => header.1 ∉ "host" :: hopByHop,
      body⟩ ∧
    (env.upstream (history ++ [asked env history req]) sent).status = some status

/-- Every granted request that the upstream sees is covered by a granted one, itself or an earlier
one: by its path, and by its method or, for an upgrade, by an upstream that switches protocols.  The
earlier requests are listed with what had happened before each. -/
def RequestsCovered (earlier : List (History × Request)) (history : History) :
    List Request → Prop
  | [] => True
  | req :: rest =>
    (Grants env history req → ∀ sent status, Sends env history req sent status →
      ∃ g ∈ earlier ++ [(history, req)], Grants env g.1 g.2 ∧ g.2.uri.path = sent.path ∧
        if isWebsocketUpgrade g.2.headers then status = some 101
        else lower g.2.method = lower sent.method) ∧
    RequestsCovered (earlier ++ [(history, req)])
      (history ++ (handleRequest env history req).events) rest

/-- All that the upstream reads off a connection is for one path, and it switches protocols for all
of it. -/
def SpliceCovered (stream : Bytes) (path : String) : Prop :=
  ∀ url, env.parseUri env.cfg.upstream = some url →
    env.connects (url.host.getD "127.0.0.1")
      (url.port.getD (if url.scheme = some "https" then 443 else 80)) = true →
    ∀ r ∈ env.readOff stream, r.request.path = path ∧ r.status = some 101

/-- What mediation comes down to, by what the client sends. -/
def Covered (conn : Connection) : Prop :=
  conn.peeked ≠ [] →
    match if headLooksLikeWebsocket conn.peeked then parseRequestHead conn.peeked else none with
    | some (method, path, headers) =>
      let m := if HttpGrammar.isToken (Text.utf8 method) then method else "GET"
      (∃ d, (callDecide env [] headers m path true).2 = .ok d ∧ d.decision = "allow") →
        SpliceCovered env conn.stream path
    | none => RequestsCovered env [] [] (env.hyper conn.stream)

end

/-! ## Actions -/

/-- An action is the method in lower case, a dot, and a text of the path. -/
theorem exists_actionFor_eq (path : String) :
    ∃ rest, ∀ m, actionFor m path = lower m ++ "." ++ rest := by
  by_cases empty : (path.toList.splitOn '/').filter (· ≠ []) = []
  · refine ⟨"root", fun m => ?_⟩
    rw [actionFor, if_pos empty, String.append_assoc]
    rfl
  · exact ⟨_, fun m => by rw [actionFor, if_neg empty]⟩

/-- An action has a dot, so it is none of a connection. -/
theorem connect_ne_actionFor (m path : String) : "connect" ≠ actionFor m path := by
  obtain ⟨rest, same⟩ := exists_actionFor_eq path
  intro equal
  have dot : '.' ∈ "connect".toList := by
    rw [equal, same, String.toList_append, String.toList_append]
    simp
  exact absurd dot (by decide)

theorem actionFor_eq_iff {m m' path : String} :
    actionFor m path = actionFor m' path ↔ lower m = lower m' := by
  obtain ⟨rest, same⟩ := exists_actionFor_eq path
  rw [same, same, String.append_left_inj, String.append_left_inj]

/-! ## What is asked and what is sent -/

section

variable {env : Env} {history : History} {req : Request} {r : Received}
  {Q : History → Received → Prop}

/-- The question about a request covers what the upstream received by path and method, or by path
and status if it is about a connection. -/
theorem asks_question_iff :
    Asks (question env history req).1 r ↔ req.uri.path = r.request.path ∧
      if isWebsocketUpgrade req.headers then r.status = some 101
      else lower req.method = lower r.request.method := by
  have action : (question env history req).1.action = if isWebsocketUpgrade req.headers then "connect"
      else actionFor req.method req.uri.path := rfl
  refine and_congr_right fun same : req.uri.path = r.request.path => ?_
  rw [action, same]
  split
  · simp [connect_ne_actionFor]
  · simp [actionFor_eq_iff, (connect_ne_actionFor _ _).symm]

/-- In enforcing mode, what is not granted is not forwarded. -/
theorem verdict_eq_forward_iff (enforce : env.cfg.mode = .enforce) (d : DecideResponse) :
    verdict env d = .forward ↔ Granted d := by
  unfold verdict Granted
  by_cases allow : d.decision = "allow"
  · simp [allow]
  by_cases deny : d.decision = "deny"
  · simp [deny, enforce]
  by_cases waits : d.decision = "approval-required" ∨ d.decision = "approval_required"
  · obtain same | same := waits <;> simp [same]
  by_cases logs : d.decision = "log-only" ∨ d.decision = "log_only"
  · obtain same | same := logs <;> simp [same]
  · rw [not_or] at waits logs
    simp [deny, waits, logs, enforce]

theorem events_handleRequest (history : History) (req : Request) :
    (handleRequest env history req).events =
      asked env history req :: ((handleRequest env history req).received.map .received).toList := by
  unfold handleRequest
  dsimp only
  split
  · rfl
  · split
    · rfl
    · split <;> rfl

theorem received_forwardToUpstream_iff :
    (forwardToUpstream env (history ++ [asked env history req]) req).1 = some r ↔
      Sends env history req r.request r.status := by
  unfold forwardToUpstream Sends
  dsimp only
  cases req.body with
  | error e => simp
  | ok body =>
    cases env.parseUri (upstreamUrl env.cfg req.uri) with
    | none => simp
    | some uri =>
      simp only [Except.ok.injEq, some.injEq, exists_and_left, exists_eq_left']
      constructor
      · intro found
        split at found
        · cases found
        all_goals
          next answered =>
            obtain rfl := some.inj found
            exact ⟨rfl, by rw [answered]; rfl⟩
      · obtain ⟨sent, status⟩ := r
        rintro ⟨rfl, answered⟩
        split
        · next reply => rw [reply] at answered; cases answered
        all_goals
          next reply =>
            rw [reply] at answered
            cases answered
            rfl

/-- In enforcing mode, a request reaches the upstream exactly if it is granted and can be sent. -/
theorem received_handleRequest_iff (enforce : env.cfg.mode = .enforce) :
    (handleRequest env history req).received = some r ↔
      Grants env history req ∧ Sends env history req r.request r.status := by
  rw [← received_forwardToUpstream_iff]
  unfold handleRequest
  dsimp only
  split
  · next e failed =>
    refine iff_of_false nofun ?_
    rintro ⟨⟨d, decided, _⟩, _⟩
    exact absurd (failed.symm.trans decided) nofun
  · next d decided =>
    have grants : Grants env history req ↔ verdict env d = .forward := by
      rw [verdict_eq_forward_iff enforce]
      refine ⟨?_, fun granted => ⟨d, decided, granted⟩⟩
      rintro ⟨d', decided', granted⟩
      exact Except.ok.inj (decided'.symm.trans decided) ▸ granted
    rw [grants]
    split
    · next refused =>
      refine iff_of_false nofun fun sent => ?_
      rw [refused] at sent
      cases sent.1
    · next forward =>
      rw [and_iff_right forward]
      split <;> rfl

/-! ## Mediation -/

theorem each_nil : Each Q history [] := by
  intro before r after same
  simp at same

theorem each_cons_iff {e : Event} {events : List Event} :
    Each Q history (e :: events) ↔
      (∀ r, e = .received r → Q history r) ∧ Each Q (history ++ [e]) events := by
  constructor
  · intro each
    constructor
    · rintro r rfl
      simpa using each [] r events rfl
    · rintro before r after rfl
      simpa using each (e :: before) r after rfl
  · rintro ⟨first, later⟩ before r after same
    cases before with
    | nil =>
      obtain ⟨rfl, rfl⟩ := cons.inj same
      simpa using first r rfl
    | cons e' before =>
      rw [cons_append, cons.injEq] at same
      simpa [same.1] using later before r after same.2

/-- The first request is received right after the question about it. -/
theorem each_serveRequests_iff (enforce : env.cfg.mode = .enforce) {rest : List Request} :
    Each Q history ((serveRequests env history (req :: rest)).flatMap events) ↔
      (Grants env history req → ∀ sent status, Sends env history req sent status →
        Q (history ++ [asked env history req]) ⟨sent, status⟩) ∧
      Each Q (history ++ (handleRequest env history req).events)
        ((serveRequests env (history ++ (handleRequest env history req).events) rest).flatMap
          events) := by
  have sends (sent : UpstreamRequest) (status : Option Nat) :=
    @received_handleRequest_iff env history req ⟨sent, status⟩ enforce
  rw [serveRequests, flatMap_cons]
  generalize (serveRequests env _ rest).flatMap events = later
  rw [events_handleRequest, cons_append, each_cons_iff, and_iff_right nofun]
  cases found : (handleRequest env history req).received with
  | none =>
    rw [found] at sends
    refine (and_iff_right fun granted sent status sent' => ?_).symm
    exact absurd ((sends sent status).mpr ⟨granted, sent'⟩) nofun
  | some r =>
    rw [found] at sends
    rw [map_some, toList_some, singleton_append, each_cons_iff, append_assoc]
    refine and_congr_left' ⟨fun own granted sent status sent' => ?_, ?_⟩
    · obtain rfl := some.inj ((sends sent status).mpr ⟨granted, sent'⟩)
      exact own _ rfl
    · rintro own _ ⟨⟩
      obtain ⟨granted, sent⟩ := (sends r.request r.status).mp rfl
      exact own granted _ _ sent

/-- The questions that were asked are those about the requests. -/
def Logged (env : Env) (earlier : List (History × Request)) (history : History) : Prop :=
  ∀ call result, .decided call result ∈ history ↔
    ∃ g ∈ earlier, question env g.1 g.2 = (call, result)

theorem mediated_requests_iff (enforce : env.cfg.mode = .enforce) (requests : List Request)
    {earlier : List (History × Request)} (logged : Logged env earlier history) :
    Each (fun before r => ∃ call d, .decided call (.ok d) ∈ before ∧ Granted d ∧ Asks call r) history
        ((serveRequests env history requests).flatMap events) ↔
      RequestsCovered env earlier history requests := by
  induction requests generalizing earlier history with
  | nil => exact iff_of_true each_nil trivial
  | cons req rest ih =>
    have asks : Logged env (earlier ++ [(history, req)]) (history ++ [asked env history req]) := by
      intro call result
      simp [logged call result, asked, Prod.ext_iff, or_and_right, exists_or, eq_comm]
    have after : Logged env (earlier ++ [(history, req)])
        (history ++ (handleRequest env history req).events) := by
      intro call result
      rw [← asks, events_handleRequest]
      cases (handleRequest env history req).received <;> simp
    rw [each_serveRequests_iff enforce, RequestsCovered, ih after]
    refine and_congr_left' (forall_congr' fun _ => forall₃_congr fun sent status _ => ?_)
    constructor
    · rintro ⟨call, d, decided, granted, covers⟩
      obtain ⟨g, member, same⟩ := (asks _ _).mp decided
      exact ⟨g, member, ⟨d, by rw [same], granted⟩, asks_question_iff.mp (by rwa [same])⟩
    · rintro ⟨g, member, ⟨d, answered, granted⟩, covers⟩
      exact ⟨_, d, (asks _ _).mpr ⟨g, member, Prod.ext rfl answered⟩, granted,
        asks_question_iff.mpr covers⟩

/-- What holds of every granted request that is sent holds of all that the upstream receives. -/
theorem each_of_requests (enforce : env.cfg.mode = .enforce) {requests : List Request}
    (holds : ∀ history, ∀ req ∈ requests, Grants env history req → ∀ sent status,
      Sends env history req sent status → Q (history ++ [asked env history req]) ⟨sent, status⟩) :
    Each Q history ((serveRequests env history requests).flatMap events) := by
  induction requests generalizing history with
  | nil => exact each_nil
  | cons req rest ih =>
    refine (each_serveRequests_iff enforce).mpr ⟨holds history req mem_cons_self, ih ?_⟩
    exact fun history req member => holds history req (mem_cons_of_mem _ member)

/-- A spliced connection is mediated if its one question covers all that the upstream reads. -/
theorem mediated_spliced_iff {call : DecideRequest} {d : DecideResponse} {received : List Received}
    (connect : call.action = "connect") (granted : Granted d) :
    Mediated (Run.spliced call (.ok d) received).events ↔
      ∀ r ∈ received, r.request.path = call.target ∧ r.status = some 101 := by
  have asks (r : Received) : Asks call r ↔ r.request.path = call.target ∧ r.status = some 101 := by
    unfold Asks
    rw [connect]
    simp [connect_ne_actionFor, eq_comm]
  constructor
  · intro mediated r member
    obtain ⟨front, back, rfl⟩ := append_of_mem member
    obtain ⟨call', d', decided, _, covers⟩ :=
      mediated (.decided call (.ok d) :: front.map .received) r (back.map .received)
        (by simp [Run.events])
    obtain ⟨rfl, _⟩ : call' = call ∧ d' = d := by simpa using decided
    exact (asks r).mp covers
  · intro covered before r after same
    cases before with
    | nil => cases same
    | cons first before =>
      rw [Run.events, cons_append, cons.injEq] at same
      obtain ⟨rfl, same⟩ := same
      have member : r ∈ received := by
        have listed : Event.received r ∈ received.map Event.received := by
          rw [same]
          simp
        simpa using listed
      exact ⟨call, d, mem_cons_self, granted, (asks r).mpr (covered r member)⟩

theorem spliceCovered_iff {stream : Bytes} {path : String} :
    SpliceCovered env stream path ↔
      ∀ r ∈ spliceToUpstream env stream, r.request.path = path ∧ r.status = some 101 := by
  unfold SpliceCovered spliceToUpstream
  cases env.parseUri env.cfg.upstream with
  | none => simp
  | some url =>
    simp only [some.injEq, forall_eq']
    cases env.connects (url.host.getD "127.0.0.1")
      (url.port.getD (if url.scheme = some "https" then 443 else 80)) with
    | false => simp
    | true => simp

/-- A connection in enforcing mode is mediated exactly if what the client and the upstream send
is covered. -/
theorem mediated_iff (env : Env) (enforce : env.cfg.mode = .enforce) (conn : Connection) :
    Mediated (serveConnection env conn).events ↔ Covered env conn := by
  have silent (call : DecideRequest) (result : Except String DecideResponse) (text : String) :
      Mediated (Run.refused call result text).events := by
    intro before r after same
    cases before with
    | nil => cases same
    | cons first before => simp [Run.events] at same
  unfold serveConnection Covered
  split
  · next empty =>
    refine iff_of_true (fun before r after same => ?_) (absurd empty)
    simp [Run.events] at same
  · next some =>
    rw [forall_prop_of_true some]
    dsimp only
    cases if headLooksLikeWebsocket conn.peeked then parseRequestHead conn.peeked else none with
    | none => exact mediated_requests_iff enforce _ fun _ _ => iff_of_false nofun nofun
    | some head =>
      dsimp only [serveUpgrade]
      split
      · next d decided =>
        split
        · next allowed =>
          have allow : d.decision = "allow" := by
            obtain allow | ⟨observe, _⟩ := allowed
            · exact allow
            · rw [enforce] at observe
              cases observe
          rw [forall_prop_of_true ⟨d, decided, allow⟩, decided, spliceCovered_iff]
          exact mediated_spliced_iff rfl (.inl allow)
        · next refused =>
          refine iff_of_true (silent _ _ _) ?_
          rintro ⟨d', decided', allow⟩
          cases decided.symm.trans decided'
          exact absurd (.inl allow) refused
      · next failed =>
        refine iff_of_true (silent _ _ _) ?_
        rintro ⟨d, decided, _⟩
        exact absurd (failed.symm.trans decided) nofun

/-! ## Connections without upgrades -/

/-- Without upgrades, and if the upstream's URL adds nothing to a path, every request comes after a
granted question about its own action and path. -/
theorem mediated_of_plain (enforce : env.cfg.mode = .enforce) (conn : Connection)
    (first : headLooksLikeWebsocket conn.peeked = false)
    (plain : ∀ req ∈ env.hyper conn.stream, isWebsocketUpgrade req.headers = false)
    (kept : ∀ req ∈ env.hyper conn.stream, ∀ uri,
      env.parseUri (upstreamUrl env.cfg req.uri) = some uri → uri.path = req.uri.path) :
    Each (fun before r => ∃ call d, .decided call (.ok d) ∈ before ∧ Granted d ∧
      call.target = r.request.path ∧ call.action = actionFor r.request.method r.request.path) []
      (serveConnection env conn).events := by
  unfold serveConnection
  split
  · exact each_nil
  · rw [first]
    refine each_of_requests enforce fun history req listed granted sent status sends => ?_
    obtain ⟨d, answered, granted⟩ := granted
    obtain ⟨body, uri, _, parsed, rfl, _⟩ := sends
    refine ⟨(question env history req).1, d, ?_, granted, ?_, ?_⟩
    · rw [asked, answered]
      exact mem_append_right _ (mem_singleton_self _)
    · exact (kept req listed uri parsed).symm
    · rw [kept req listed uri parsed]
      exact if_neg (by rw [plain req listed]; exact Bool.false_ne_true)

end

/-! ## Two requests that are not mediated -/

def sampleUri (path : String) : Uri :=
  ⟨some "http", some "u", none, path, some path⟩

/-- The requests of a byte stream without bodies, each of which is answered with 200. -/
def readHeads : Nat → Bytes → List Received
  | 0, _ => []
  | fuel + 1, bytes =>
      match HttpGrammar.readHead bytes with
      | none => []
      | some (head, rest) =>
        ⟨⟨Text.latin1 head.line.method, Text.latin1 head.line.target, [], []⟩, some 200⟩ ::
          readHeads fuel rest

/-- The daemon allows connections and nothing else. -/
def sampleEnv : Env where
  cfg := ⟨"http://u", "http://d", "p", .enforce⟩
  ip := "1"
  parseUri := fun url => some (sampleUri (String.ofList (url.toList.drop 8)))
  uriError := fun _ => ""
  hyper := fun _ =>
    [⟨"POST", sampleUri "/admin", [("upgrade", Text.utf8 "websocket")], .ok []⟩]
  nextTraceId := fun _ => ""
  daemon := fun _ call =>
    .answer ⟨if call.action = "connect" then "allow" else "deny", none, none, none⟩
  upstream := fun _ _ => .response 200 [] (.ok [])
  connects := fun _ _ => true
  readOff := readHeads 2

/-- An upgrade, and another request right behind it. -/
def pipelinedStream : Bytes :=
  Text.utf8 "GET /ws HTTP/1.1\r\nUpgrade: websocket\r\n\r\nPOST /admin HTTP/1.1\r\n\r\n"

def pipelined : Connection where
  stream := pipelinedStream
  peeked := pipelinedStream
  begins := prefix_refl _
  short := by decide +kernel

/-- A request with the header, of which only the first byte is there when the proxy looks. -/
def delayedStream : Bytes :=
  Text.utf8 "POST /admin HTTP/1.1\r\nUpgrade: websocket\r\n\r\n"

def delayed : Connection where
  stream := delayedStream
  peeked := delayedStream.take 1
  begins := take_prefix 1 _
  short := by decide +kernel

/-- The question that is asked on both connections. -/
def connectTo (path : String) : Event :=
  .decided ⟨none, none, "connect", path, "1", none, ""⟩ (.ok ⟨"allow", none, none, none⟩)

def seen (method path : String) : Received :=
  ⟨⟨method, path, [], []⟩, some 200⟩

/-- The daemon allows `GET /a`, and the upstream receives it. -/
theorem mediated_of_plain_sample :
    let env := { sampleEnv with
      hyper := fun _ => [⟨"GET", sampleUri "/a", [], .ok []⟩]
      daemon := fun _ call =>
        .answer ⟨if call.action = "get.a" then "allow" else "deny", none, none, none⟩ }
    ∃ before after, (serveConnection env delayed).events =
        before ++ .received (seen "GET" "/a") :: after ∧
      ∃ call d, .decided call (.ok d) ∈ before ∧ Granted d ∧ call.target = "/a" ∧
        call.action = actionFor "GET" "/a" := by
  intro env
  have ran : (serveConnection env delayed).events =
      [.decided ⟨none, none, "get.a", "/a", "1", none, ""⟩ (.ok ⟨"allow", none, none, none⟩)] ++
        .received (seen "GET" "/a") :: [] := by
    decide +kernel
  refine ⟨_, _, ran, mediated_of_plain rfl delayed (by decide +kernel) (by decide) ?_ _ _ _ ran⟩
  intro req listed uri parsed
  cases mem_singleton.mp listed
  cases parsed
  decide

theorem pipelined_events : (serveConnection sampleEnv pipelined).events =
    [connectTo "/ws", .received (seen "GET" "/ws"), .received (seen "POST" "/admin")] := by
  decide +kernel

theorem delayed_events : (serveConnection sampleEnv delayed).events =
    [connectTo "/admin", .received (seen "POST" "/admin")] := by
  decide +kernel

theorem pipelined_mediated_iff :
    sampleEnv.cfg.mode = .enforce ∧
      (Mediated (serveConnection sampleEnv pipelined).events ↔
        Covered sampleEnv pipelined) :=
  ⟨rfl, mediated_iff sampleEnv rfl pipelined⟩

/-- A connection on which only one question was asked, for a connection to a path. -/
theorem not_mediated_of_connectTo {path : String} {r : Received} {front back : List Received}
    (answered : r.status = some 200) :
    ¬Mediated (connectTo path :: front.map .received ++ .received r :: back.map .received) := by
  intro mediated
  obtain ⟨call, d, decided, _, _, asked⟩ := mediated _ r _ rfl
  obtain ⟨rfl, _⟩ : call = ⟨none, none, "connect", path, "1", none, ""⟩ ∧
      d = ⟨"allow", none, none, none⟩ := by
    simpa [connectTo] using decided
  obtain own | ⟨_, switched⟩ := asked
  · exact connect_ne_actionFor _ _ own
  · rw [answered] at switched
    exact absurd switched (by decide)

/-- The daemon allows connections only, and the upstream gets `POST /admin` off the spliced bytes
and, with the header taken away, from a request that `hyper` read. -/
theorem post_not_mediated :
    ¬Mediated (serveConnection sampleEnv pipelined).events ∧
      ¬Mediated (serveConnection sampleEnv delayed).events := by
  rw [pipelined_events, delayed_events]
  constructor
  · exact @not_mediated_of_connectTo "/ws" (seen "POST" "/admin") [seen "GET" "/ws"] [] rfl
  · exact @not_mediated_of_connectTo "/admin" (seen "POST" "/admin") [] [] rfl

end TrustForge.Proxy
