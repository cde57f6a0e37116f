import TrustForge.Session.Handshake

/-!
# Honest handshakes and companion signatures

Two honest parties complete the handshake in every suite they share, with a companion signature
where the suite asks for one.  The companion signature is looked at in hybrid suites only.
-/

namespace TrustForge.Session

open Option

/-- The suites an initiator offers, the preferred one first. -/
def SessionConfig.offered (cfg : SessionConfig) : List String :=
  let preferred := cfg.preferredSuite.getD sessionSuite
  preferred :: cfg.accepted.filter fun s => s != preferred

/-- The first offered suite that the responder supports. -/
def firstMutual (initiator responder : SessionConfig) : Option String :=
  initiator.offered.find? fun s => responder.accepted.contains s

namespace Platform

variable (platform : Platform)

/-- The configuration carries an ML-DSA key pair: what the private key signs, the public key
verifies. -/
def MatchingMldsa (cfg : SessionConfig) : Prop :=
  ∃ secret pub, cfg.identityMldsaPriv = some secret ∧ cfg.identityMldsaPub = some pub ∧
    ∀ msg, ∃ signature, platform.mlDsa65Sign secret msg = .ok signature ∧
      platform.mlDsa65Verify pub msg signature = true

/-- A party that is ready for a suite signs so that the other one is satisfied. -/
theorem exists_signMldsa {cfg : SessionConfig} {suite : String}
    (ready : isHybridSuite suite = true → platform.MatchingMldsa cfg) (own : String)
    (hash : Bytes) :
    ∃ pqSig, platform.signMldsa cfg own suite hash = .ok pqSig ∧
      ∀ message signer,
        platform.checkMldsa message signer suite pqSig (ownMldsaPub cfg suite) hash = .ok () := by
  cases hybrid : isHybridSuite suite with
  | false =>
    exact ⟨none, platform.signMldsa_of_classical hybrid _ _, fun _ _ =>
      platform.checkMldsa_of_classical hybrid _ _ _ _ _⟩
  | true =>
    obtain ⟨secret, pub, hasSecret, hasPub, matching⟩ := ready hybrid
    obtain ⟨signature, signed, verified⟩ := matching hash
    refine ⟨some (b64encode signature), ?_, fun message signer => ?_⟩
    · simp [signMldsa, hybrid, hasSecret, signed]
    · simp [checkMldsa, ownMldsaPub, hybrid, hasPub, verified, bind, Except.bind]

/-- The four calls succeed in order, and the responder selects the suite. -/
def HandshakeSucceeds (initiator responder : SessionConfig) (drawEphI drawEphR : Key)
    (drawId : Bytes) (suite : String) : Prop :=
  ∃ helloI waitingI helloR waitingR auth sessionI doneI sessionR doneR,
    platform.start (.new initiator) drawEphI drawId = (.ok helloI, waitingI) ∧
    platform.processHelloI (.new responder) drawEphR helloI = (.ok helloR, waitingR) ∧
    platform.processHelloR waitingI helloR = (.ok (auth, sessionI), doneI) ∧
    platform.processAuth waitingR auth = (.ok sessionR, doneR) ∧
    helloI.supportedSuites = some initiator.offered ∧ helloR.selectedSuite = some suite

section

variable (initiator responder : SessionConfig) (drawEphI drawEphR : Key) (drawId : Bytes)
  (identityI : initiator.identityPub = platform.ed25519Public initiator.identityPriv)
  (identityR : responder.identityPub = platform.ed25519Public responder.identityPriv)

include identityI identityR

theorem handshakeSucceeds_of_first {suite : String}
    (first : firstMutual initiator responder = some suite)
    (ready : isHybridSuite suite = true →
      platform.MatchingMldsa initiator ∧ platform.MatchingMldsa responder) :
    platform.HandshakeSucceeds initiator responder drawEphI drawEphR drawId suite := by
  let ephPrivI := makeEphemeral initiator.ephSeed drawEphI
  let ephPrivR := makeEphemeral responder.ephSeed drawEphR
  let helloI := platform.makeHelloI initiator ephPrivI (initiator.sessionIdSeed.getD drawId)
  have agreed : chooseSuite responder helloI = .ok suite := by
    have found : initiator.offered.find? (fun s => responder.accepted.contains s) = some suite :=
      first
    simp only [chooseSuite, show helloI.supportedSuites = some initiator.offered from rfl, found]
  -- The responder signs the greeting, and the initiator checks what it signed.
  obtain ⟨pqSigR, signedR, checkedR⟩ := platform.exists_signMldsa (fun hybrid => (ready hybrid).2)
    "responder" (platform.helloHash helloI (platform.helloRDraft responder ephPrivR suite))
  let helloR := platform.signHelloR responder (platform.helloRDraft responder ephPrivR suite)
    (platform.helloHash helloI (platform.helloRDraft responder ephPrivR suite)) pqSigR
  have replied : platform.answerHelloI responder ephPrivR helloI = .ok (helloR, _) :=
    platform.answerHelloI_eq_ok_iff.mpr
      ⟨rfl, _, agreed, _, decodeEphPub_b64encode _, _, signedR, rfl, rfl⟩
  obtain ⟨actorR, namedR⟩ := platform.exists_derivePeerActor responder.identityPub
  have verifiedR : platform.ed25519Verify responder.identityPub.bytes
      (platform.helloHash helloI helloR) (platform.ed25519Sign responder.identityPriv
        (platform.helloHash helloI (platform.helloRDraft responder ephPrivR suite))) = true := by
    rw [identityR]
    exact platform.ed25519Verify_sign _ _
  -- The same for the whole transcript, the other way round.
  obtain ⟨pqSigI, signedI, checkedI⟩ := platform.exists_signMldsa (fun hybrid => (ready hybrid).1)
    "initiator" (platform.fullHash helloI helloR (authDraft initiator suite))
  let auth := platform.signAuth initiator (authDraft initiator suite)
    (platform.fullHash helloI helloR (authDraft initiator suite)) pqSigI
  have answered : platform.answerHelloR initiator helloI ephPrivI helloR = .ok (auth, _) :=
    platform.answerHelloR_eq_ok_iff.mpr ⟨_, b64decode_b64encode _, _, b64decode_b64encode _,
      verifiedR, (), checkedR _ _, _, decodeEphPub_b64encode _, _, signedI, _,
      b64decode_b64encode _, _, namedR, rfl, rfl⟩
  obtain ⟨actorI, namedI⟩ := platform.exists_derivePeerActor initiator.identityPub
  have verifiedI : platform.ed25519Verify initiator.identityPub.bytes
      (platform.fullHash helloI helloR auth) (platform.ed25519Sign initiator.identityPriv
        (platform.fullHash helloI helloR (authDraft initiator suite))) = true := by
    rw [identityI]
    exact platform.ed25519Verify_sign _ _
  have accepted : platform.acceptAuth responder helloI helloR
      (platform.x25519DiffieHellman ephPrivR (platform.x25519Public ephPrivI)) auth = .ok _ :=
    platform.acceptAuth_eq_ok_iff.mpr ⟨_, b64decode_b64encode _, _, b64decode_b64encode _,
      verifiedI, (), checkedI _ _, _, b64decode_b64encode _, _, namedI, rfl⟩
  exact ⟨helloI, _, helloR, _, _, _, _, _, _, rfl, platform.processHelloI_of_answerHelloI replied,
    platform.processHelloR_of_answerHelloR answered, platform.processAuth_of_acceptAuth accepted,
    rfl, rfl⟩

/-- Honest parties that share a suite complete the handshake, and settle on the first suite of the
offered list that the responder supports. -/
theorem honest_handshake_succeeds (share : ∃ suite ∈ initiator.offered, suite ∈ responder.accepted)
    (companions : ∀ suite, firstMutual initiator responder = some suite →
      isHybridSuite suite = true →
        platform.MatchingMldsa initiator ∧ platform.MatchingMldsa responder) :
    ∃ suite, firstMutual initiator responder = some suite ∧
      platform.HandshakeSucceeds initiator responder drawEphI drawEphR drawId suite := by
  obtain ⟨suite, first⟩ : ∃ suite, firstMutual initiator responder = some suite := by
    rw [← isSome_iff_exists, firstMutual, List.find?_isSome]
    simpa using share
  exact ⟨suite, first, platform.handshakeSucceeds_of_first _ _ _ _ _ identityI identityR first
    (companions suite first)⟩

end

/-- A configuration with nothing but an actor and an identity key. -/
def plainConfig (actor : String) (identity : Key) : SessionConfig :=
  { selfActor := actor
    peerHint := none
    selfHint := none
    identityPriv := identity
    identityPub := identity
    preferredSuite := none
    supportedSuites := none
    identityMldsaPriv := none
    identityMldsaPub := none
    ephSeed := none
    sessionIdSeed := none }

def alice : SessionConfig :=
  plainConfig "tf:actor:agent:example.com/alice" (.filled [1])

def bob : SessionConfig :=
  plainConfig "tf:actor:agent:example.com/bob" (.filled [2])

theorem alice_bob_handshake :
    transparent.HandshakeSucceeds alice bob (.filled [3]) (.filled [4]) [5] sessionSuite :=
  transparent.handshakeSucceeds_of_first _ _ _ _ _ rfl rfl (by decide) nofun

/-- A configuration that prefers the hybrid suite. -/
def hybridConfig (actor : String) (identity : Key) : SessionConfig :=
  { plainConfig actor identity with
    preferredSuite := some sessionSuiteHybrid
    identityMldsaPriv := some [1]
    identityMldsaPub := some [1] }

theorem transparent_hybrid_handshake_succeeds :
    (∃ suite ∈ (hybridConfig "a" (.filled [1])).offered,
        suite ∈ (hybridConfig "b" (.filled [2])).accepted) ∧
      ∃ suite,
        firstMutual (hybridConfig "a" (.filled [1])) (hybridConfig "b" (.filled [2])) =
          some suite ∧
        transparent.HandshakeSucceeds (hybridConfig "a" (.filled [1]))
          (hybridConfig "b" (.filled [2])) (.filled [3]) (.filled [4]) [5] suite := by
  have share : ∃ suite ∈ (hybridConfig "a" (.filled [1])).offered,
      suite ∈ (hybridConfig "b" (.filled [2])).accepted :=
    ⟨sessionSuiteHybrid, List.mem_cons_self, .tail _ (.head _)⟩
  have matching (actor : String) (identity : Key) :
      transparent.MatchingMldsa (hybridConfig actor identity) :=
    ⟨[1], [1], rfl, rfl, fun msg => ⟨msg, rfl, beq_self_eq_true msg⟩⟩
  exact ⟨share, transparent.honest_handshake_succeeds _ _ _ _ _ rfl rfl share
    fun _ _ _ => ⟨matching _ _, matching _ _⟩⟩

/-! ## Companion signatures -/

/-- The companion signature is there, with a key under which it verifies. -/
def CompanionGood (signatureMldsa identPubMldsa : Option String) (hash : Bytes) : Prop :=
  ∃ signature pub signatureBytes pubBytes, signatureMldsa = some signature ∧
    identPubMldsa = some pub ∧ b64decode signature = .ok signatureBytes ∧
      b64decode pub = .ok pubBytes ∧ platform.mlDsa65Verify pubBytes hash signatureBytes = true

/-- A companion signature that is present comes with a key under which it verifies. -/
def CompanionVerifies (signatureMldsa identPubMldsa : Option String) (hash : Bytes) : Prop :=
  ∀ signature, signatureMldsa = some signature →
    platform.CompanionGood (some signature) identPubMldsa hash

variable {signatureMldsa identPubMldsa : Option String}

theorem companionGood_of_checkMldsa {message signer suite : String} {hash : Bytes} {u : Unit}
    (checked : platform.checkMldsa message signer suite signatureMldsa identPubMldsa hash = .ok u)
    (hybrid : isHybridSuite suite = true) :
    platform.CompanionGood signatureMldsa identPubMldsa hash := by
  simp only [checkMldsa, hybrid, if_true] at checked
  cases signatureMldsa with
  | none => contradiction
  | some signature =>
    cases identPubMldsa with
    | none => contradiction
    | some pub =>
      obtain ⟨signatureBytes, decodedSignature, checked⟩ := Result.bind_eq_ok checked
      obtain ⟨pubBytes, decodedPub, checked⟩ := Result.bind_eq_ok checked
      refine ⟨signature, pub, signatureBytes, pubBytes, rfl, rfl, decodedSignature, decodedPub, ?_⟩
      by_contra refused
      rw [if_neg refused] at checked
      contradiction

/-- Of a message that passed the check, the companion signature verifies if the suite is hybrid, or
there is none, or it happens to be good. -/
theorem companionVerifies_iff_of_checkMldsa {message signer suite : String} {hash : Bytes}
    {u : Unit}
    (checked : platform.checkMldsa message signer suite signatureMldsa identPubMldsa hash = .ok u) :
    platform.CompanionVerifies signatureMldsa identPubMldsa hash ↔
      isHybridSuite suite = true ∨ signatureMldsa = none ∨
        platform.CompanionGood signatureMldsa identPubMldsa hash := by
  have required := platform.companionGood_of_checkMldsa checked
  constructor
  · intro verifies
    cases signatureMldsa with
    | none => exact .inr (.inl rfl)
    | some signature => exact .inr (.inr (verifies signature rfl))
  · rintro (hybrid | absent | good) signature rfl
    · exact required hybrid
    · contradiction
    · exact good

theorem not_companionVerifies_forged (identPubMldsa : Option String) (hash : Bytes) :
    ¬platform.CompanionVerifies (some "forged") identPubMldsa hash := by
  intro verifies
  obtain ⟨_, _, _, _, same, _, decoded, _⟩ := verifies "forged" rfl
  have refused : (b64decode "forged").isOk = false := by decide +kernel
  rw [some.inj same, decoded] at refused
  contradiction

/-- In a classical suite the initiator accepts a reply whatever its companion signature is. -/
theorem processHelloR_any_companion {party after : Initiator} {helloI : HelloI} {ephPriv : Key}
    {msg : HelloR} {accepted : Auth × SessionState}
    (waiting : party.state = .awaitingHelloR helloI ephPriv)
    (classical : isHybridSuite (negotiatedSuite helloI msg) = false)
    (processed : platform.processHelloR party msg = (.ok accepted, after))
    (signature : Option String) :
    ∃ accepted after, platform.processHelloR party { msg with signatureMldsa := signature } =
      (.ok accepted, after) := by
  obtain ⟨cfg, state⟩ := party
  cases waiting
  obtain ⟨_, _, ⟨⟩, answered⟩ := platform.processHelloR_eq_ok processed
  obtain ⟨identPub, named, sig, signed, verified, _, _, peerEph, decoded, _, _, sessionId, known,
    peerActor, actor, _⟩ := platform.answerHelloR_eq_ok_iff.mp answered
  exact ⟨_, _, platform.processHelloR_of_answerHelloR (platform.answerHelloR_eq_ok_iff.mpr
    ⟨identPub, named, sig, signed, verified, (), platform.checkMldsa_of_classical classical _ _ _ _ _,
      peerEph, decoded, _, platform.signMldsa_of_classical classical _ _, sessionId, known, peerActor,
      actor, rfl, rfl⟩)⟩

/-- Likewise for the responder and an `Auth`. -/
theorem processAuth_any_companion {party after : Responder} {helloI : HelloI} {helloR : HelloR}
    {shared : Key} {msg : Auth} {session : SessionState}
    (waiting : party.state = .awaitingAuth helloI helloR shared)
    (classical : isHybridSuite (negotiatedSuite helloI helloR) = false)
    (processed : platform.processAuth party msg = (.ok session, after)) (signature : Option String) :
    ∃ session after, platform.processAuth party { msg with signatureMldsa := signature } =
      (.ok session, after) := by
  obtain ⟨cfg, state⟩ := party
  cases waiting
  obtain ⟨_, _, _, ⟨⟩, accepted⟩ := platform.processAuth_eq_ok processed
  obtain ⟨identPub, named, sig, signed, verified, _, _, sessionId, known, peerActor, actor, _⟩ :=
    platform.acceptAuth_eq_ok_iff.mp accepted
  exact ⟨_, _, platform.processAuth_of_acceptAuth (platform.acceptAuth_eq_ok_iff.mpr
    ⟨identPub, named, sig, signed, verified, (), platform.checkMldsa_of_classical classical _ _ _ _ _,
      sessionId, known, peerActor, actor, rfl⟩)⟩

/-- Of an accepted message, the companion signature verifies exactly if the suite is hybrid, the
field is absent, or what it holds happens to verify.  In a classical suite the field is not read:
the message is accepted with every other value of it, forged ones included. -/
theorem companion_verifies_iff :
    (∀ {party after : Initiator} {msg : HelloR} {accepted : Auth × SessionState} {helloI : HelloI}
        {ephPriv : Key}, party.state = .awaitingHelloR helloI ephPriv →
      platform.processHelloR party msg = (.ok accepted, after) →
        (platform.CompanionVerifies msg.signatureMldsa msg.identPubMldsa
            (platform.helloHash helloI msg) ↔
          isHybridSuite (negotiatedSuite helloI msg) = true ∨ msg.signatureMldsa = none ∨
            platform.CompanionGood msg.signatureMldsa msg.identPubMldsa
              (platform.helloHash helloI msg)) ∧
        (isHybridSuite (negotiatedSuite helloI msg) = false → ∀ signature, ∃ accepted after,
          platform.processHelloR party { msg with signatureMldsa := signature } =
            (.ok accepted, after))) ∧
      ∀ {party after : Responder} {msg : Auth} {session : SessionState} {helloI : HelloI}
          {helloR : HelloR} {shared : Key}, party.state = .awaitingAuth helloI helloR shared →
        platform.processAuth party msg = (.ok session, after) →
          (platform.CompanionVerifies msg.signatureMldsa msg.identPubMldsa
              (platform.fullHash helloI helloR msg) ↔
            isHybridSuite (negotiatedSuite helloI helloR) = true ∨ msg.signatureMldsa = none ∨
              platform.CompanionGood msg.signatureMldsa msg.identPubMldsa
                (platform.fullHash helloI helloR msg)) ∧
          (isHybridSuite (negotiatedSuite helloI helloR) = false → ∀ signature, ∃ session after,
            platform.processAuth party { msg with signatureMldsa := signature } =
              (.ok session, after)) := by
  constructor
  · intro party after msg accepted helloI ephPriv waiting processed
    refine ⟨?_, fun classical => platform.processHelloR_any_companion waiting classical processed⟩
    obtain ⟨greeting, eph, state, answered⟩ := platform.processHelloR_eq_ok processed
    obtain ⟨rfl, rfl⟩ := InitiatorState.awaitingHelloR.inj (waiting.symm.trans state)
    obtain ⟨_, _, _, _, _, _, checked, _⟩ := platform.answerHelloR_eq_ok_iff.mp answered
    exact platform.companionVerifies_iff_of_checkMldsa checked
  · intro party after msg session helloI helloR shared waiting processed
    refine ⟨?_, fun classical => platform.processAuth_any_companion waiting classical processed⟩
    obtain ⟨greeting, reply, secret, state, accepted⟩ := platform.processAuth_eq_ok processed
    obtain ⟨rfl, rfl, rfl⟩ := ResponderState.awaitingAuth.inj (waiting.symm.trans state)
    obtain ⟨_, _, _, _, _, _, checked, _⟩ := platform.acceptAuth_eq_ok_iff.mp accepted
    exact platform.companionVerifies_iff_of_checkMldsa checked

/-- In a classical suite both sides accept a companion signature that is no base64, without a key for
it. -/
theorem forged_companion_accepted :
    (∃ (helloI : HelloI) (ephPriv : Key) (helloR : HelloR) (accepted : Auth × SessionState)
      (waiting done : Initiator),
      waiting.state = .awaitingHelloR helloI ephPriv ∧
      transparent.processHelloR waiting helloR = (.ok accepted, done) ∧
      helloR.signatureMldsa = some "forged" ∧
      ¬transparent.CompanionVerifies helloR.signatureMldsa helloR.identPubMldsa
        (transparent.helloHash helloI helloR)) ∧
    ∃ (helloI : HelloI) (helloR : HelloR) (shared : Key) (auth : Auth) (session : SessionState)
      (waiting done : Responder),
      waiting.state = .awaitingAuth helloI helloR shared ∧
      transparent.processAuth waiting auth = (.ok session, done) ∧
      auth.signatureMldsa = some "forged" ∧
      ¬transparent.CompanionVerifies auth.signatureMldsa auth.identPubMldsa
        (transparent.fullHash helloI helloR auth) := by
  obtain ⟨helloI, waitingI, helloR, waitingR, auth, sessionI, doneI, sessionR, doneR, ⟨⟩, greeted,
    answered, accepted, _, selected⟩ := alice_bob_handshake
  have classical (helloI : HelloI) : isHybridSuite (negotiatedSuite helloI helloR) = false := by
    rw [negotiatedSuite, selected, getD_some]
    decide
  obtain ⟨shared, _, rfl⟩ := transparent.processHelloI_eq_ok greeted
  obtain ⟨answer, doneI, answered⟩ :=
    transparent.processHelloR_any_companion rfl (classical _) answered (some "forged")
  obtain ⟨session, doneR, accepted⟩ :=
    transparent.processAuth_any_companion rfl (classical _) accepted (some "forged")
  have unverified := transparent.not_companionVerifies_forged
  exact ⟨⟨_, _, _, answer, _, doneI, rfl, answered, rfl, unverified _ _⟩,
    ⟨_, _, shared, _, session, _, doneR, rfl, accepted, rfl, unverified _ _⟩⟩

end Platform

end TrustForge.Session
