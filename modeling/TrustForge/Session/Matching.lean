import TrustForge.Session.Honest
import TrustForge.Session.Transcript

/-!
# Matching conversations

When a responder accepts the `Auth` of an honest identity, the holder of that identity
has completed a run with the same two greetings, and both hold the same keys.  The
signature covers the transcript of the run, the transcript determines the messages up
to NFC, and the fields that enter the key schedule are base64 texts, which NFC leaves
alone.
-/

namespace TrustForge.Session

open Except

/-- A completed run of an initiator, from `start` to an accepted `HelloR`. -/
structure InitiatorRun (platform : Platform) where
  cfg : SessionConfig
  drawEph : Key
  drawId : Bytes
  helloI : HelloI
  waiting : Initiator
  helloR : HelloR
  auth : Auth
  session : SessionState
  done : Initiator
  started : platform.start (.new cfg) drawEph drawId = (.ok helloI, waiting)
  accepted : platform.processHelloR waiting helloR = (.ok (auth, session), done)

/-- The ephemeral key of a run. -/
def InitiatorRun.ephPriv {platform : Platform} (run : InitiatorRun platform) : Key :=
  makeEphemeral run.cfg.ephSeed run.drawEph

/-- The session id of a run. -/
def InitiatorRun.sessionId {platform : Platform} (run : InitiatorRun platform) : Bytes :=
  run.cfg.sessionIdSeed.getD run.drawId

namespace Platform

variable (platform : Platform)

/-- The text whose hash the initiator signs. -/
def fullText (helloI : HelloI) (helloR : HelloR) (auth : Auth) : Bytes :=
  Text.utf8 (platform.canonicalConcat [helloI.toValue, helloR.toValue, auth.unsigned.toValue])

/-- The signature on the hash was not forged: if it verifies under the identity, it was
made in one of the runs of that identity. -/
def Unforged (runs : List (InitiatorRun platform)) (identity : Key) (hash signature : Bytes) :
    Prop :=
  platform.ed25519Verify identity.bytes hash signature = true →
    ∃ run ∈ runs, run.cfg.identityPub = identity ∧
      platform.fullHash run.helloI run.helloR run.auth = hash ∧
      b64decode run.auth.signature = .ok signature

/-- The texts hashed in the runs. -/
def texts (runs : List (InitiatorRun platform)) : Set Bytes :=
  {text | ∃ run ∈ runs, text = platform.fullText run.helloI run.helloR run.auth}

/-- The run of the initiator fits the responder's side of the conversation. -/
structure Matches (run : InitiatorRun platform) (helloI : HelloI) (helloR : HelloR) (auth : Auth)
    (session : SessionState) : Prop where
  helloI : run.helloI.normalize platform.nfc = helloI.normalize platform.nfc
  helloR : run.helloR.normalize platform.nfc = helloR.normalize platform.nfc
  identPub : run.auth.identPub = auth.identPub
  signature : run.auth.signature = auth.signature
  identPubMldsa : run.auth.identPubMldsa.map platform.nfc = auth.identPubMldsa.map platform.nfc
  sessionId : run.session.sessionId = session.sessionId
  generationI : run.session.generation = 0
  generationR : session.generation = 0
  crossed : Crossed run.session session

/-! ## Base64 fields -/

/-- Texts that decode alike are equal. -/
theorem eq_of_b64decode {s t : String} {bytes : Bytes} (left : b64decode s = .ok bytes)
    (right : b64decode t = .ok bytes) : s = t := by
  rw [← b64encode_of_b64decode left, b64encode_of_b64decode right]

/-- NFC does not identify an ASCII text with another one. -/
theorem eq_of_nfc_eq {s t : String} (left : Text.IsAscii s) (right : Text.IsAscii t)
    (same : platform.nfc s = platform.nfc t) : s = t := by
  rw [platform.nfc_ascii s left, platform.nfc_ascii t right] at same
  exact same

/-! ## Runs -/

variable (run : InitiatorRun platform)

theorem run_helloI :
    run.helloI = platform.makeHelloI run.cfg run.ephPriv run.sessionId ∧
      run.waiting = ⟨run.cfg, .awaitingHelloR run.helloI run.ephPriv⟩ := by
  have started := run.started
  simp only [start, Initiator.new, Prod.mk.injEq, ok.injEq] at started
  rcases started with ⟨sameHello, sameWaiting⟩
  rw [← sameWaiting, ← sameHello]
  exact ⟨rfl, rfl⟩

theorem run_answered :
    platform.answerHelloR run.cfg run.helloI run.ephPriv run.helloR =
      .ok (run.auth, run.session) := by
  rcases platform.processHelloR_eq_ok run.accepted with ⟨helloI, ephPriv, state, answered⟩
  rw [(platform.run_helloI run).2] at state answered
  simp only [InitiatorState.awaitingHelloR.injEq] at state
  rw [state.1, state.2]
  exact answered

/-- What the initiator of a run sent and derived. -/
theorem run_spec :
    run.auth.identPub = b64encode run.cfg.identityPub.bytes ∧
      ∃ peerEph peerActor, decodeEphPub run.helloR.ephPub = .ok peerEph ∧
        run.session = platform.deriveWithClaim .initiator
          (platform.x25519DiffieHellman run.ephPriv peerEph) run.sessionId
          (platform.fullHash run.helloI run.helloR run.auth) run.cfg.selfActor peerActor
          (claimOf run.helloR.selfHint) := by
  obtain ⟨_, _, _, _, _, _, _, peerEph, ephemeral, _, _, sessionId, decodedId, peerActor, _, auth,
    session⟩ := platform.answerHelloR_eq_ok_iff.mp (platform.run_answered run)
  rw [(platform.run_helloI run).1, makeHelloI, b64decode_b64encode, ok.injEq] at decodedId
  rw [← decodedId] at session
  rw [← auth]
  exact ⟨rfl, peerEph, peerActor, ephemeral, session.symm⟩

/-! ## The responder's side -/

/-- What a responder sent, checked and derived. -/
theorem responder_spec {cfg : SessionConfig} {drawEph : Key} {helloI : HelloI} {helloR : HelloR}
    {auth : Auth} {session : SessionState} {waiting done : Responder}
    (greeted : platform.processHelloI (.new cfg) drawEph helloI = (.ok helloR, waiting))
    (accepted : platform.processAuth waiting auth = (.ok session, done)) :
    ∃ ephPriv peerEph identPub sig sessionId peerActor,
      helloR.ephPub = b64encode (platform.x25519Public ephPriv).bytes ∧
      decodeEphPub helloI.ephPub = .ok peerEph ∧ b64decode auth.identPub = .ok identPub ∧
      b64decode auth.signature = .ok sig ∧
      platform.ed25519Verify identPub (platform.fullHash helloI helloR auth) sig = true ∧
      b64decode helloI.sessionId = .ok sessionId ∧
      session = platform.deriveWithClaim .responder
        (platform.x25519DiffieHellman ephPriv peerEph) sessionId
        (platform.fullHash helloI helloR auth) cfg.selfActor peerActor
        (claimOf helloI.selfHint) := by
  rcases platform.processHelloI_eq_ok greeted with ⟨shared, answered, rfl⟩
  obtain ⟨_, chosen, _, peerEph, ephemeral, pqSig, _, rfl, rfl⟩ :=
    platform.answerHelloI_eq_ok_iff.mp answered
  rcases platform.processAuth_eq_ok accepted with ⟨_, _, _, state, accepted⟩
  obtain ⟨rfl, rfl, rfl⟩ := ResponderState.awaitingAuth.inj state
  obtain ⟨identPub, decodedPub, sig, decodedSig, verified, _, _, sessionId, decodedId, peerActor, _,
    derived⟩ := platform.acceptAuth_eq_ok_iff.mp accepted
  exact ⟨makeEphemeral cfg.ephSeed drawEph, peerEph, identPub, sig, sessionId, peerActor, rfl,
    ephemeral, decodedPub, decodedSig, verified, decodedId, derived.symm⟩

/-! ## Agreement -/

section

variable {run : InitiatorRun platform} {helloI : HelloI} {helloR : HelloR}

section

variable (sameI : run.helloI.normalize platform.nfc = helloI.normalize platform.nfc)

include sameI

theorem sessionId_eq_of_normalize_eq {sessionId : Bytes}
    (decoded : b64decode helloI.sessionId = .ok sessionId) : run.sessionId = sessionId := by
  have sent : run.helloI.sessionId = b64encode run.sessionId := by
    rw [(platform.run_helloI run).1]
    rfl
  have same : run.helloI.sessionId = helloI.sessionId := by
    apply platform.eq_of_nfc_eq _ (isAscii_of_b64decode decoded) (congrArg HelloI.sessionId sameI)
    rw [sent]
    exact b64encode_isAscii _
  rw [← same, sent, b64decode_b64encode, ok.injEq] at decoded
  exact decoded

/-- Each side has decoded the other's ephemeral key, so the secrets agree. -/
theorem shared_eq_of_normalize_eq {ephPriv peerEph runPeer : Key}
    (sameR : run.helloR.normalize platform.nfc = helloR.normalize platform.nfc)
    (reply : helloR.ephPub = b64encode (platform.x25519Public ephPriv).bytes)
    (decodedI : decodeEphPub helloI.ephPub = .ok peerEph)
    (decodedR : decodeEphPub run.helloR.ephPub = .ok runPeer) :
    platform.x25519DiffieHellman run.ephPriv runPeer =
      platform.x25519DiffieHellman ephPriv peerEph := by
  have sent : run.helloI.ephPub = b64encode (platform.x25519Public run.ephPriv).bytes := by
    rw [(platform.run_helloI run).1]
    rfl
  have ephI : run.helloI.ephPub = helloI.ephPub := by
    apply platform.eq_of_nfc_eq _ (isAscii_of_decodeEphPub decodedI)
      (congrArg HelloI.ephPub sameI)
    rw [sent]
    exact b64encode_isAscii _
  have ephR : run.helloR.ephPub = helloR.ephPub := by
    apply platform.eq_of_nfc_eq (isAscii_of_decodeEphPub decodedR) _
      (congrArg HelloR.ephPub sameR)
    rw [reply]
    exact b64encode_isAscii _
  rw [← ephI, sent, decodeEphPub_b64encode, ok.injEq] at decodedI
  rw [ephR, reply, decodeEphPub_b64encode, ok.injEq] at decodedR
  rw [← decodedI, ← decodedR]
  exact platform.x25519_comm _ _

end

end

/-! ## The assumptions hold of a single run -/

theorem unforged_self (companion : Option String) (signature : Bytes)
    (presented : b64decode run.auth.signature = .ok signature) :
    platform.Unforged [run] run.cfg.identityPub
      (platform.fullHash run.helloI run.helloR { run.auth with signatureMldsa := companion })
      signature := by
  intro _
  exact ⟨run, List.mem_singleton_self run, rfl, rfl, presented⟩

theorem injOn_sha256_self (companion : Option String) :
    Set.InjOn platform.sha256 (insert
      (platform.fullText run.helloI run.helloR { run.auth with signatureMldsa := companion })
      (platform.texts [run])) := by
  have single : ∀ text ∈ insert
      (platform.fullText run.helloI run.helloR { run.auth with signatureMldsa := companion })
      (platform.texts [run]), text = platform.fullText run.helloI run.helloR run.auth := by
    intro text member
    rcases member with own | ⟨other, member, hashed⟩
    · exact own
    · rw [hashed, List.mem_singleton.mp member]
  intro left leftMember right rightMember _
  rw [single left leftMember, single right rightMember]

/-! ## Matching -/

/-- An accepted `Auth` of an honest identity matches a run of its holder. -/
theorem exists_matching_run (runs : List (InitiatorRun platform)) (identity : Key)
    {cfg : SessionConfig} {drawEph : Key} {helloI : HelloI} {helloR : HelloR} {auth : Auth}
    {session : SessionState} {waiting done : Responder}
    (greeted : platform.processHelloI (.new cfg) drawEph helloI = (.ok helloR, waiting))
    (accepted : platform.processAuth waiting auth = (.ok session, done))
    (honest : b64decode auth.identPub = .ok identity.bytes)
    (unforged : ∀ signature, b64decode auth.signature = .ok signature →
      platform.Unforged runs identity (platform.fullHash helloI helloR auth) signature)
    (collisionFree : Set.InjOn platform.sha256
      (insert (platform.fullText helloI helloR auth) (platform.texts runs))) :
    ∃ run ∈ runs, platform.Matches run helloI helloR auth session := by
  rcases platform.responder_spec greeted accepted with
    ⟨ephPriv, peerEph, identPub, sig, sessionId, peerActor, reply, ephemeral, decodedPub,
      decodedSig, verified, decodedId, sessionEq⟩
  rw [honest, ok.injEq] at decodedPub
  subst decodedPub
  rcases unforged sig decodedSig verified with ⟨run, member, sameIdentity, sameHash, sameSig⟩
  rcases platform.run_spec run with ⟨runIdentPub, runPeer, runActor, runEphemeral, runSession⟩
  have sameText : platform.fullText run.helloI run.helloR run.auth =
      platform.fullText helloI helloR auth :=
    collisionFree (.inr ⟨run, member, rfl⟩) (.inl rfl) sameHash
  rcases platform.normalize_eq_of_canonicalConcat (Text.utf8_injective sameText) with
    ⟨sameI, sameR, sameA⟩
  have sameShared :=
    platform.shared_eq_of_normalize_eq sameI sameR reply ephemeral runEphemeral
  have sameId := platform.sessionId_eq_of_normalize_eq sameI decodedId
  rw [sameShared, sameId, sameHash] at runSession
  refine ⟨run, member, ?_⟩
  constructor
  case helloI => exact sameI
  case helloR => exact sameR
  case identPub => rw [runIdentPub, sameIdentity, b64encode_of_b64decode honest]
  case signature => exact eq_of_b64decode sameSig decodedSig
  case identPubMldsa => exact congrArg Auth.identPubMldsa sameA
  all_goals subst sessionEq
  case sessionId => rw [runSession]; rfl
  case generationI => rw [runSession]; rfl
  case generationR => rfl
  case crossed =>
      rw [runSession]
      exact platform.crossed_deriveWithClaim _ _ _ _ _ _ _ _ _

/-- The handshake of the two configurations, with any companion signature. -/
theorem alice_bob_run (companion : Option String) :
    ∃ run : InitiatorRun transparent, run.cfg = alice ∧ run.auth.signatureMldsa = none ∧
      ∃ waiting session done,
        transparent.processHelloI (.new bob) (.filled [4]) run.helloI = (.ok run.helloR, waiting) ∧
        transparent.processAuth waiting { run.auth with signatureMldsa := companion } =
          (.ok session, done) := by
  obtain ⟨helloI, waitingI, helloR, waitingR, auth, sessionI, doneI, sessionR, doneR, started,
    greeted, answered, accepted, _, selected⟩ := alice_bob_handshake
  let run : InitiatorRun transparent :=
    ⟨alice, .filled [3], [5], helloI, waitingI, helloR, auth, sessionI, doneI, started, answered⟩
  have classical : isHybridSuite (negotiatedSuite helloI helloR) = false := by
    rw [negotiatedSuite, selected, Option.getD_some]
    decide
  obtain ⟨shared, _, rfl⟩ := transparent.processHelloI_eq_ok greeted
  obtain ⟨session, done, accepted⟩ :=
    transparent.processAuth_any_companion rfl classical accepted companion
  refine ⟨run, rfl, ?_, _, session, done, greeted, accepted⟩
  obtain ⟨_, _, _, _, _, _, _, _, _, pqSig, signed, _, _, _, _, made, _⟩ :=
    transparent.answerHelloR_eq_ok_iff.mp (transparent.run_answered run)
  rw [transparent.signMldsa_of_classical classical] at signed
  exact (congrArg Auth.signatureMldsa made).symm.trans (ok.inj signed).symm

/-- The handshake of the two configurations meets the assumptions. -/
theorem exists_matching_run_alice_bob :
    ∃ (run : InitiatorRun transparent) (session : SessionState) (waiting done : Responder),
      run.cfg = alice ∧
      transparent.processHelloI (.new bob) (.filled [4]) run.helloI = (.ok run.helloR, waiting) ∧
      transparent.processAuth waiting { run.auth with signatureMldsa := none } =
        (.ok session, done) ∧
      ∃ found ∈ [run], transparent.Matches found run.helloI run.helloR
        { run.auth with signatureMldsa := none } session := by
  rcases alice_bob_run none with
    ⟨run, cfg, unsigned, waiting, session, done, greeted, accepted⟩
  have honest : b64decode run.auth.identPub = .ok run.cfg.identityPub.bytes := by
    rw [(transparent.run_spec run).1, b64decode_b64encode]
  exact ⟨run, session, waiting, done, cfg, greeted, accepted,
    transparent.exists_matching_run [run] run.cfg.identityPub greeted accepted honest
      (transparent.unforged_self run none) (transparent.injOn_sha256_self run none)⟩

/-- The responder also accepts an `Auth` with a companion signature that no initiator
made: in a classical suite nothing covers that field. -/
theorem altered_companion_accepted :
    ∃ (run : InitiatorRun transparent) (auth : Auth) (session : SessionState)
      (waiting done : Responder),
      transparent.processHelloI (.new bob) (.filled [4]) run.helloI = (.ok run.helloR, waiting) ∧
      transparent.processAuth waiting auth = (.ok session, done) ∧
      b64decode auth.identPub = .ok run.cfg.identityPub.bytes ∧
      (∀ signature, b64decode auth.signature = .ok signature →
        transparent.Unforged [run] run.cfg.identityPub
          (transparent.fullHash run.helloI run.helloR auth) signature) ∧
      Set.InjOn transparent.sha256
        (insert (transparent.fullText run.helloI run.helloR auth) (transparent.texts [run])) ∧
      ∀ other ∈ [run], other.auth ≠ auth := by
  rcases alice_bob_run (some "forged") with
    ⟨run, cfg, unsigned, waiting, session, done, greeted, accepted⟩
  refine ⟨run, { run.auth with signatureMldsa := some "forged" }, session, waiting, done, greeted,
    accepted, ?_, transparent.unforged_self run _, transparent.injOn_sha256_self run _, ?_⟩
  · rw [(transparent.run_spec run).1, b64decode_b64encode]
  · intro other member equal
    rw [List.mem_singleton.mp member] at equal
    have companion := congrArg Auth.signatureMldsa equal
    rw [unsigned] at companion
    contradiction

end Platform

end TrustForge.Session
