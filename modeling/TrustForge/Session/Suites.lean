import TrustForge.Session.Handshake

/-!
# Suite negotiation

An honest responder picks a suite from the list it was offered.  The initiator does
not check that: whatever suite a correctly signed `HelloR` names is taken, so for
every configuration some accepted reply settles on a suite that was never offered.
-/

namespace TrustForge.Session

open List

/-- The suites a `HelloI` lists. -/
def HelloI.listed (msg : HelloI) : List String :=
  msg.supportedSuites.getD []

namespace Platform

variable (platform : Platform)

/-! ## The honest responder -/

theorem chooseSuite_mem {cfg : SessionConfig} {msg : HelloI} {chosen : String}
    {offered : List String} (list : msg.supportedSuites = some offered)
    (agreed : chooseSuite cfg msg = .ok chosen) : chosen ∈ offered := by
  unfold chooseSuite at agreed
  rw [list] at agreed
  cases found : offered.find? fun s => cfg.accepted.contains s with
  | none =>
    simp only [found] at agreed
    contradiction
  | some first =>
    simp only [found, Except.ok.injEq] at agreed
    subst agreed
    exact mem_of_find?_eq_some found

/-- An honest reply settles on a suite of the offered list. -/
theorem negotiatedSuite_mem_of_answerHelloI {cfg : SessionConfig} {ephPriv : Key}
    {msg : HelloI} {helloR : HelloR} {shared : Key} {offered : List String}
    (list : msg.supportedSuites = some offered)
    (answered : platform.answerHelloI cfg ephPriv msg = .ok (helloR, shared)) :
    negotiatedSuite msg helloR ∈ offered := by
  obtain ⟨_, chosen, agreed, _, _, _, _, rfl, _⟩ := platform.answerHelloI_eq_ok_iff.mp answered
  exact chooseSuite_mem list agreed

/-! ## The initiator -/

/-- What the initiator's list is for: every accepted reply settles on one of its suites. -/
def SuiteBound (cfg : SessionConfig) : Prop :=
  ∀ drawEph drawId helloI waiting helloR auth session after,
    platform.start (.new cfg) drawEph drawId = (.ok helloI, waiting) →
    platform.processHelloR waiting helloR = (.ok (auth, session), after) →
      negotiatedSuite helloI helloR ∈ helloI.listed

variable (suites : List String)

/-- The length of the longest suite. -/
def longest : Nat :=
  suites.foldr (fun s n => max s.toList.length n) 0

theorem length_le_longest (s : String) (member : s ∈ suites) :
    s.toList.length ≤ longest suites := by
  induction suites with
  | nil => contradiction
  | cons first rest ih =>
    rcases mem_cons.mp member with equal | later
    · subst equal
      exact le_max_left _ _
    · exact le_trans (ih later) (le_max_right _ _)

/-- A suite longer than all the listed ones. -/
def unlistedSuite : String :=
  String.ofList (List.replicate (longest suites + 1) 'x')

theorem unlistedSuite_not_mem : unlistedSuite suites ∉ suites := by
  intro member
  have bound := length_le_longest suites _ member
  rw [unlistedSuite, String.toList_ofList, length_replicate] at bound
  exact Nat.not_succ_le_self _ bound

theorem isHybridSuite_unlistedSuite :
    isHybridSuite (unlistedSuite suites) = false := by
  apply decide_eq_false
  intro suffix
  have member : '5' ∈ (unlistedSuite suites).toList := suffix.subset (by decide)
  rw [unlistedSuite, String.toList_ofList] at member
  exact absurd (eq_of_mem_replicate member) (by decide)

/-- A reply with a suite of the sender's choice, signed with the sender's own key. -/
def forcedHelloR (secret : Key) (helloI : HelloI) (suite : String) : HelloR :=
  let draft : HelloR :=
    { ephPub := b64encode (platform.x25519Public secret).bytes
      identPub := b64encode (platform.ed25519Public secret).bytes
      selectedSuite := some suite
      selfHint := none
      signatureMldsa := none
      identPubMldsa := none
      signature := "" }
  { draft with
    signature := b64encode (platform.ed25519Sign secret (platform.helloHash helloI draft)) }

/-- The initiator accepts a forced reply whenever its suite is not a hybrid one. -/
theorem answerHelloR_forcedHelloR (cfg : SessionConfig) (helloI : HelloI)
    (ephPriv secret : Key) (suite : String) (classical : isHybridSuite suite = false)
    (sessionId : Bytes) (decodable : b64decode helloI.sessionId = .ok sessionId) :
    ∃ auth session,
      platform.answerHelloR cfg helloI ephPriv (platform.forcedHelloR secret helloI suite) =
        .ok (auth, session) := by
  rcases platform.exists_derivePeerActor (platform.ed25519Public secret) with ⟨peerActor, actor⟩
  exact ⟨_, _, platform.answerHelloR_eq_ok_iff.mpr ⟨_, b64decode_b64encode _, _,
    b64decode_b64encode _, platform.ed25519Verify_sign secret _, (),
    platform.checkMldsa_of_classical classical _ _ _ _ _, _, decodeEphPub_b64encode _, _,
    platform.signMldsa_of_classical classical _ _, _, decodable, _, actor, rfl, rfl⟩⟩

/-- No configuration binds the negotiation to its list. -/
theorem not_suiteBound (cfg : SessionConfig) : ¬platform.SuiteBound cfg := by
  intro bound
  let helloI := platform.makeHelloI cfg (makeEphemeral cfg.ephSeed (.filled []))
    (cfg.sessionIdSeed.getD [])
  have classical := isHybridSuite_unlistedSuite helloI.listed
  rcases platform.answerHelloR_forcedHelloR cfg helloI
    (makeEphemeral cfg.ephSeed (.filled [])) (.filled []) (unlistedSuite helloI.listed) classical
    _ (b64decode_b64encode _) with ⟨auth, session, accepted⟩
  have listed := bound (.filled []) [] helloI
    ⟨cfg, .awaitingHelloR helloI (makeEphemeral cfg.ephSeed (.filled []))⟩
    (platform.forcedHelloR (.filled []) helloI (unlistedSuite helloI.listed)) auth session
    ⟨cfg, .established session⟩ rfl
    (platform.processHelloR_of_answerHelloR accepted)
  exact unlistedSuite_not_mem helloI.listed listed

/-- An initiator that lists the hybrid suite only. -/
def hybridOnly : SessionConfig :=
  { selfActor := "tf:actor:agent:example.com/alice"
    peerHint := none
    selfHint := none
    identityPriv := .filled [1]
    identityPub := .filled [1]
    preferredSuite := some sessionSuiteHybrid
    supportedSuites := some [sessionSuiteHybrid]
    identityMldsaPriv := none
    identityMldsaPub := none
    ephSeed := none
    sessionIdSeed := none }

/-- Such an initiator is talked down to the classical suite. -/
theorem transparent_accepts_unlisted_suite :
    let helloI := transparent.makeHelloI hybridOnly (.filled [2]) [3]
    let waiting : Initiator := ⟨hybridOnly, .awaitingHelloR helloI (.filled [2])⟩
    let helloR := transparent.forcedHelloR (.filled [4]) helloI sessionSuite
    transparent.start (.new hybridOnly) (.filled [2]) [3] = (.ok helloI, waiting) ∧
      (∃ auth session after,
        transparent.processHelloR waiting helloR = (.ok (auth, session), after)) ∧
      helloI.listed = [sessionSuiteHybrid] ∧ negotiatedSuite helloI helloR = sessionSuite ∧
      negotiatedSuite helloI helloR ∉ helloI.listed := by
  intro helloI waiting helloR
  rcases transparent.answerHelloR_forcedHelloR hybridOnly helloI (.filled [2]) (.filled [4])
    sessionSuite (by decide) _ (b64decode_b64encode _) with ⟨auth, session, accepted⟩
  have processed := transparent.processHelloR_of_answerHelloR accepted
  have listed : helloI.listed = [sessionSuiteHybrid] := by
    simp [helloI, HelloI.listed, makeHelloI, hybridOnly, SessionConfig.accepted]
  have settled : negotiatedSuite helloI helloR = sessionSuite := rfl
  refine ⟨rfl, ⟨auth, session, _, processed⟩, listed, settled, ?_⟩
  rw [listed, settled]
  decide

end Platform

end TrustForge.Session
