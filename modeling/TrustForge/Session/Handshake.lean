import TrustForge.Session.State

/-!
# Handshake

Model of `Initiator` and `Responder` in `session.rs`.  Each call returns its result
and the party it leaves behind.  `process_hello_r` and `process_auth` take the state
out before they look at the message, so a failure sends the party back to `Fresh`.
-/

namespace TrustForge.Session

open Except Result
open Json (Value)

def sessionSuite : String :=
  "x25519-hkdf-sha256-chacha20poly1305-ed25519"

/-- `SESSION_SUITE_HYBRID_ED25519_MLDSA65`. -/
def sessionSuiteHybrid : String :=
  "x25519-hkdf-sha256-chacha20poly1305-ed25519+ml-dsa-65"

def knownSessionSuites : List String :=
  [sessionSuite, sessionSuiteHybrid]

def isHybridSuite (suite : String) : Bool :=
  decide ("+ml-dsa-65".toList <:+ suite.toList)

structure SessionConfig where
  selfActor : String
  peerHint : Option String
  selfHint : Option String
  identityPriv : Key
  identityPub : Key
  preferredSuite : Option String
  supportedSuites : Option (List String)
  identityMldsaPriv : Option Bytes
  identityMldsaPub : Option Bytes
  ephSeed : Option Key
  sessionIdSeed : Option Bytes

inductive InitiatorState where
  | fresh
  | awaitingHelloR (helloI : HelloI) (ephPriv : Key)
  | established (session : SessionState)

structure Initiator where
  cfg : SessionConfig
  state : InitiatorState

inductive ResponderState where
  | fresh
  | awaitingAuth (helloI : HelloI) (helloR : HelloR) (shared : Key)
  | established (session : SessionState)

structure Responder where
  cfg : SessionConfig
  state : ResponderState

def Initiator.new (cfg : SessionConfig) : Initiator :=
  ⟨cfg, .fresh⟩

def Responder.new (cfg : SessionConfig) : Responder :=
  ⟨cfg, .fresh⟩

/-- The suites a configuration accepts. -/
def SessionConfig.accepted (cfg : SessionConfig) : List String :=
  cfg.supportedSuites.getD knownSessionSuites

/-- A message without its signatures, as it enters a transcript. -/
def HelloR.unsigned (msg : HelloR) : HelloR :=
  { msg with signature := "", signatureMldsa := none }

def Auth.unsigned (msg : Auth) : Auth :=
  { msg with signature := "", signatureMldsa := none }

/-- The suite both sides settle on. -/
def negotiatedSuite (helloI : HelloI) (helloR : HelloR) : String :=
  helloR.selectedSuite.getD helloI.suite

/-- An actor claim; the empty one counts as absent. -/
def claimOf (selfHint : Option String) : Option String :=
  selfHint.filter fun s => s != ""

namespace Platform

variable (platform : Platform)

/-! ## Transcripts -/

def canonicalConcat (values : List Value) : String :=
  String.ofList (values.flatMap platform.encode)

/-- The SHA-256 of a transcript. -/
def transcriptHash (values : List Value) : Bytes :=
  platform.sha256 (Text.utf8 (platform.canonicalConcat values))

/-- The hash the responder signs. -/
def helloHash (helloI : HelloI) (helloR : HelloR) : Bytes :=
  platform.transcriptHash [helloI.toValue, helloR.unsigned.toValue]

/-- The hash the initiator signs, which also enters the key schedule. -/
def fullHash (helloI : HelloI) (helloR : HelloR) (auth : Auth) : Bytes :=
  platform.transcriptHash [helloI.toValue, helloR.toValue, auth.unsigned.toValue]

/-! ## The hybrid companion signature -/

/-- The check of the companion signature in hybrid suites.  `message` and `signer` are
the words of the error texts. -/
def checkMldsa (message signer suite : String) (signatureMldsa identPubMldsa : Option String)
    (hash : Bytes) : Except SessionError Unit :=
  if isHybridSuite suite then
    match signatureMldsa with
    | none => .error (.generic
        s!"negotiated hybrid suite {suite} but {message} missing signature_mldsa")
    | some signature =>
      match identPubMldsa with
      | none => .error (.generic
          s!"negotiated hybrid suite {suite} but {message} missing ident_pub_mldsa")
      | some identPub => do
        let signatureBytes ← b64decode signature
        let identPubBytes ← b64decode identPub
        if platform.mlDsa65Verify identPubBytes hash signatureBytes then .ok ()
        else .error (.generic s!"{signer} ml-dsa-65 signature invalid")
  else .ok ()

variable (cfg : SessionConfig)

/-- The companion signature of the own side, in hybrid suites. -/
def signMldsa (signer suite : String) (hash : Bytes) :
    Except SessionError (Option String) :=
  if isHybridSuite suite then
    match cfg.identityMldsaPriv with
    | none => .error (.generic
        s!"negotiated hybrid suite {suite} but {signer} is missing identity_mldsa_priv")
    | some secret =>
      match platform.mlDsa65Sign secret hash with
      | .error text => .error (.generic text)
      | .ok signature => .ok (some (b64encode signature))
  else .ok none

/-- The companion public key, in hybrid suites. -/
def ownMldsaPub (suite : String) : Option String :=
  if isHybridSuite suite then cfg.identityMldsaPub.map b64encode else none

/-! ## Initiator -/

/-- The `HelloI` of a configuration. -/
def makeHelloI (ephPriv : Key) (sessionId : Bytes) : HelloI :=
  let preferred := cfg.preferredSuite.getD sessionSuite
  let supported := preferred :: cfg.accepted.filter fun s => s != preferred
  { version := 0
    suite := preferred
    supportedSuites := some supported
    sessionId := b64encode sessionId
    peerHint := cfg.peerHint.getD ""
    selfHint := cfg.selfHint
    ephPub := b64encode (platform.x25519Public ephPriv).bytes }

/-- `Initiator::start`, with the random ephemeral key and session id it may draw. -/
def start (party : Initiator) (drawEph : Key) (drawId : Bytes) :
    Except SessionError HelloI × Initiator :=
  match party.state with
  | .fresh =>
    let ephPriv := makeEphemeral party.cfg.ephSeed drawEph
    let helloI :=
      platform.makeHelloI party.cfg ephPriv (party.cfg.sessionIdSeed.getD drawId)
    (.ok helloI, { party with state := .awaitingHelloR helloI ephPriv })
  | _ => (.error (.generic "initiator already started"), party)

/-- The `Auth` before it is signed. -/
def authDraft (suite : String) : Auth :=
  { identPub := b64encode cfg.identityPub.bytes
    signatureMldsa := none
    identPubMldsa := ownMldsaPub cfg suite
    signature := "" }

/-- The `Auth` with its signatures. -/
def signAuth (draft : Auth) (fullHash : Bytes) (pqSig : Option String) :
    Auth :=
  { draft with
    signatureMldsa := pqSig
    signature := b64encode (platform.ed25519Sign cfg.identityPriv fullHash) }

/-- The body of `Initiator::process_hello_r`, once the state was taken. -/
def answerHelloR (helloI : HelloI) (ephPriv : Key) (msg : HelloR) :
    Except SessionError (Auth × SessionState) := do
  let helloHash := platform.helloHash helloI msg
  let identPub ← b64decode msg.identPub
  let sig ← b64decode msg.signature
  if ¬platform.ed25519Verify identPub helloHash sig then
    .error (.generic "responder identity signature invalid")
  else
    let suite := negotiatedSuite helloI msg
    platform.checkMldsa "HelloR" "responder" suite msg.signatureMldsa msg.identPubMldsa helloHash
    let peerEph ← decodeEphPub msg.ephPub
    let shared := platform.x25519DiffieHellman ephPriv peerEph
    let draft := authDraft cfg suite
    let fullHash := platform.fullHash helloI msg draft
    let authPqSig ← platform.signMldsa cfg "initiator" suite fullHash
    let auth := platform.signAuth cfg draft fullHash authPqSig
    let sessionId ← b64decode helloI.sessionId
    let peerActor ← platform.derivePeerActor identPub
    .ok (auth, platform.deriveWithClaim .initiator shared sessionId fullHash cfg.selfActor
      peerActor (claimOf msg.selfHint))

def processHelloR (party : Initiator) (msg : HelloR) :
    Except SessionError (Auth × SessionState) × Initiator :=
  match party.state with
  | .awaitingHelloR helloI ephPriv =>
    match platform.answerHelloR party.cfg helloI ephPriv msg with
    | .ok (auth, session) => (.ok (auth, session), { party with state := .established session })
    | .error e => (.error e, { party with state := .fresh })
  | _ => (.error (.generic "not awaiting hello-r"), { party with state := .fresh })

/-! ## Responder -/

/-- Suite negotiation: the first offered suite we accept, or for legacy peers the
suite they name. -/
def chooseSuite (msg : HelloI) : Except SessionError String :=
  match msg.supportedSuites with
  | some offered =>
    match offered.find? fun s => cfg.accepted.contains s with
    | some chosen => .ok chosen
    | none => .error (.noMutualSuite offered cfg.accepted)
  | none =>
    if cfg.accepted.contains msg.suite then .ok msg.suite
    else .error (.generic s!"unsupported suite {msg.suite}")

/-- The `HelloR` before it is signed. -/
def helloRDraft (ephPriv : Key) (chosen : String) : HelloR :=
  { ephPub := b64encode (platform.x25519Public ephPriv).bytes
    identPub := b64encode cfg.identityPub.bytes
    selectedSuite := some chosen
    selfHint := cfg.selfHint
    signatureMldsa := none
    identPubMldsa := ownMldsaPub cfg chosen
    signature := "" }

/-- The `HelloR` with its signatures. -/
def signHelloR (draft : HelloR) (helloHash : Bytes) (pqSig : Option String) : HelloR :=
  { draft with
    signature := b64encode (platform.ed25519Sign cfg.identityPriv helloHash)
    signatureMldsa := pqSig }

/-- The body of `Responder::process_hello_i`: the reply and the shared secret. -/
def answerHelloI (ephPriv : Key) (msg : HelloI) :
    Except SessionError (HelloR × Key) := do
  if msg.version ≠ 0 then .error (.generic s!"unsupported version {msg.version.toNat}")
  else
    let chosen ← chooseSuite cfg msg
    let peerEph ← decodeEphPub msg.ephPub
    let shared := platform.x25519DiffieHellman ephPriv peerEph
    let draft := platform.helloRDraft cfg ephPriv chosen
    let helloHash := platform.helloHash msg draft
    let pqSig ← platform.signMldsa cfg "responder" chosen helloHash
    .ok (platform.signHelloR cfg draft helloHash pqSig, shared)

def processHelloI (party : Responder) (drawEph : Key) (msg : HelloI) :
    Except SessionError HelloR × Responder :=
  match party.state with
  | .fresh =>
    match platform.answerHelloI party.cfg (makeEphemeral party.cfg.ephSeed drawEph) msg with
    | .ok (helloR, shared) =>
      (.ok helloR, { party with state := .awaitingAuth msg helloR shared })
    | .error e => (.error e, party)
  | _ => (.error (.generic "responder already engaged"), party)

/-- The body of `Responder::process_auth`, once the state was taken. -/
def acceptAuth (helloI : HelloI) (helloR : HelloR) (shared : Key)
    (msg : Auth) : Except SessionError SessionState := do
  let fullHash := platform.fullHash helloI helloR msg
  let identPub ← b64decode msg.identPub
  let sig ← b64decode msg.signature
  if ¬platform.ed25519Verify identPub fullHash sig then
    .error (.generic "initiator identity signature invalid")
  else
    let suite := negotiatedSuite helloI helloR
    platform.checkMldsa "Auth" "initiator" suite msg.signatureMldsa msg.identPubMldsa fullHash
    let sessionId ← b64decode helloI.sessionId
    let peerActor ← platform.derivePeerActor identPub
    .ok (platform.deriveWithClaim .responder shared sessionId fullHash cfg.selfActor peerActor
      (claimOf helloI.selfHint))

def processAuth (party : Responder) (msg : Auth) :
    Except SessionError SessionState × Responder :=
  match party.state with
  | .awaitingAuth helloI helloR shared =>
    match platform.acceptAuth party.cfg helloI helloR shared msg with
    | .ok session => (.ok session, { party with state := .established session })
    | .error e => (.error e, { party with state := .fresh })
  | _ => (.error (.generic "not awaiting auth"), { party with state := .fresh })

/-! ## What a success says -/

section

variable {cfg : SessionConfig} {ephPriv shared : Key} {helloI : HelloI} {helloR : HelloR}
  {auth : Auth} {session : SessionState}

/-- The reply of a responder, by the parts it is made of. -/
theorem answerHelloI_eq_ok_iff :
    platform.answerHelloI cfg ephPriv helloI = .ok (helloR, shared) ↔
      helloI.version = 0 ∧ ∃ chosen, chooseSuite cfg helloI = .ok chosen ∧
        ∃ peerEph, decodeEphPub helloI.ephPub = .ok peerEph ∧
        ∃ pqSig, platform.signMldsa cfg "responder" chosen
          (platform.helloHash helloI (platform.helloRDraft cfg ephPriv chosen)) = .ok pqSig ∧
        platform.signHelloR cfg (platform.helloRDraft cfg ephPriv chosen)
          (platform.helloHash helloI (platform.helloRDraft cfg ephPriv chosen)) pqSig = helloR ∧
        platform.x25519DiffieHellman ephPriv peerEph = shared := by
  simp only [answerHelloI, ite_eq_ok_iff, bind_eq_ok_iff, not_not, ok.injEq, Prod.mk.injEq]

/-- The `Auth` and the session of an initiator, by the parts they are made of. -/
theorem answerHelloR_eq_ok_iff :
    platform.answerHelloR cfg helloI ephPriv helloR = .ok (auth, session) ↔
      ∃ identPub, b64decode helloR.identPub = .ok identPub ∧
        ∃ sig, b64decode helloR.signature = .ok sig ∧
        platform.ed25519Verify identPub (platform.helloHash helloI helloR) sig = true ∧
        ∃ u, platform.checkMldsa "HelloR" "responder" (negotiatedSuite helloI helloR)
          helloR.signatureMldsa helloR.identPubMldsa (platform.helloHash helloI helloR) = .ok u ∧
        ∃ peerEph, decodeEphPub helloR.ephPub = .ok peerEph ∧
        ∃ pqSig, platform.signMldsa cfg "initiator" (negotiatedSuite helloI helloR)
          (platform.fullHash helloI helloR (authDraft cfg (negotiatedSuite helloI helloR))) =
            .ok pqSig ∧
        ∃ sessionId, b64decode helloI.sessionId = .ok sessionId ∧
        ∃ peerActor, platform.derivePeerActor identPub = .ok peerActor ∧
        platform.signAuth cfg (authDraft cfg (negotiatedSuite helloI helloR))
          (platform.fullHash helloI helloR (authDraft cfg (negotiatedSuite helloI helloR))) pqSig =
            auth ∧
        platform.deriveWithClaim .initiator (platform.x25519DiffieHellman ephPriv peerEph)
          sessionId (platform.fullHash helloI helloR
            (authDraft cfg (negotiatedSuite helloI helloR))) cfg.selfActor peerActor
          (claimOf helloR.selfHint) = session := by
  simp [answerHelloR, ite_eq_ok_iff, bind_eq_ok_iff]

/-- The session of a responder, and the signature it rests on. -/
theorem acceptAuth_eq_ok_iff :
    platform.acceptAuth cfg helloI helloR shared auth = .ok session ↔
      ∃ identPub, b64decode auth.identPub = .ok identPub ∧
        ∃ sig, b64decode auth.signature = .ok sig ∧
        platform.ed25519Verify identPub (platform.fullHash helloI helloR auth) sig = true ∧
        ∃ u, platform.checkMldsa "Auth" "initiator" (negotiatedSuite helloI helloR)
          auth.signatureMldsa auth.identPubMldsa (platform.fullHash helloI helloR auth) = .ok u ∧
        ∃ sessionId, b64decode helloI.sessionId = .ok sessionId ∧
        ∃ peerActor, platform.derivePeerActor identPub = .ok peerActor ∧
        platform.deriveWithClaim .responder shared sessionId
          (platform.fullHash helloI helloR auth) cfg.selfActor peerActor
          (claimOf helloI.selfHint) = session := by
  simp [acceptAuth, ite_eq_ok_iff, bind_eq_ok_iff]

end

variable {cfg : SessionConfig}

theorem processHelloI_of_answerHelloI {drawEph : Key} {msg : HelloI}
    {helloR : HelloR} {shared : Key}
    (answered : platform.answerHelloI cfg (makeEphemeral cfg.ephSeed drawEph) msg =
      .ok (helloR, shared)) :
    platform.processHelloI (.new cfg) drawEph msg =
      (.ok helloR, ⟨cfg, .awaitingAuth msg helloR shared⟩) := by
  simp only [processHelloI, Responder.new, answered]

theorem processHelloI_eq_ok {party after : Responder} {drawEph : Key} {msg : HelloI}
    {helloR : HelloR} (processed : platform.processHelloI party drawEph msg = (.ok helloR, after)) :
    ∃ shared,
      platform.answerHelloI party.cfg (makeEphemeral party.cfg.ephSeed drawEph) msg =
        .ok (helloR, shared) ∧
      after = { party with state := .awaitingAuth msg helloR shared } := by
  unfold processHelloI at processed
  split at processed
  · split at processed
    · next reply shared answered =>
      simp only [Prod.mk.injEq, ok.injEq] at processed
      rcases processed with ⟨sameReply, sameParty⟩
      subst sameReply
      exact ⟨shared, answered, sameParty.symm⟩
    · simp at processed
  · simp at processed

variable {session : SessionState}

theorem processHelloR_of_answerHelloR {helloI : HelloI} {ephPriv : Key} {msg : HelloR} {auth : Auth}
    (answered : platform.answerHelloR cfg helloI ephPriv msg = .ok (auth, session)) :
    platform.processHelloR ⟨cfg, .awaitingHelloR helloI ephPriv⟩ msg =
      (.ok (auth, session), ⟨cfg, .established session⟩) := by
  simp only [processHelloR, answered]

theorem processHelloR_eq_ok {party after : Initiator} {msg : HelloR} {auth : Auth}
    (processed : platform.processHelloR party msg = (.ok (auth, session), after)) :
    ∃ helloI ephPriv, party.state = .awaitingHelloR helloI ephPriv ∧
      platform.answerHelloR party.cfg helloI ephPriv msg = .ok (auth, session) := by
  unfold processHelloR at processed
  split at processed
  · next helloI ephPriv waiting =>
    split at processed
    · next sent derived answered =>
      simp only [Prod.mk.injEq, ok.injEq] at processed
      rcases processed with ⟨⟨sameAuth, sameSession⟩, _⟩
      subst sameAuth sameSession
      exact ⟨helloI, ephPriv, waiting, answered⟩
    · simp at processed
  · simp at processed

theorem processAuth_of_acceptAuth {helloI : HelloI} {helloR : HelloR} {shared : Key} {msg : Auth}
    (accepted : platform.acceptAuth cfg helloI helloR shared msg = .ok session) :
    platform.processAuth ⟨cfg, .awaitingAuth helloI helloR shared⟩ msg =
      (.ok session, ⟨cfg, .established session⟩) := by
  simp only [processAuth, accepted]

theorem processAuth_eq_ok {party after : Responder} {msg : Auth}
    (processed : platform.processAuth party msg = (.ok session, after)) :
    ∃ helloI helloR shared, party.state = .awaitingAuth helloI helloR shared ∧
      platform.acceptAuth party.cfg helloI helloR shared msg = .ok session := by
  unfold processAuth at processed
  split at processed
  · next helloI helloR shared waiting =>
    split at processed
    · next derived accepted =>
      simp only [Prod.mk.injEq] at processed
      rw [processed.1] at accepted
      exact ⟨helloI, helloR, shared, waiting, accepted⟩
    · simp at processed
  · simp at processed

/-! ## Classical suites -/

theorem signMldsa_of_classical {suite : String}
    (classical : isHybridSuite suite = false) (signer : String) (hash : Bytes) :
    platform.signMldsa cfg signer suite hash = .ok none := by
  simp [signMldsa, classical]

theorem checkMldsa_of_classical {suite : String} (classical : isHybridSuite suite = false)
    (message signer : String) (signature pub : Option String) (hash : Bytes) :
    platform.checkMldsa message signer suite signature pub hash = .ok () := by
  simp [checkMldsa, classical]

end Platform

end TrustForge.Session
