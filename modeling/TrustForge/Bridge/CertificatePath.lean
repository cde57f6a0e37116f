import Mathlib.Data.List.Nodup
import Mathlib.Data.List.Perm.Subperm
import TrustForge.Bridge
import TrustForge.Encoding
import TrustForge.Foundation.Lines

/-!
# Certificate chains

Model of the TLS bridge in `bridge_tls.rs`: `TlsBridge::verify_chain` walks from the first supplied
certificate to a configured root, choosing issuers by name, and `project` makes an identity of the
leaf.  Certificates are records; reading them and checking their signatures is left to the library.
-/

namespace TrustForge.Tls

open Result List Option Except

/-- A distinguished name: names are equal where their encodings are, and printed as texts. -/
structure Name where
  encoding : Bytes
  text : String
  deriving DecidableEq

inductive GeneralName where
  | uri (uri : String)
  | dnsName (name : String)
  | other
  deriving DecidableEq

/-- `ExtendedKeyUsage` of the parser. -/
structure ExtendedKeyUsage where
  any : Bool
  serverAuth : Bool
  clientAuth : Bool
  codeSigning : Bool
  emailProtection : Bool
  timeStamping : Bool
  ocspSigning : Bool
  other : List String
  deriving DecidableEq

inductive Extension where
  | subjectAlternativeName (names : List GeneralName)
  | extendedKeyUsage (usage : ExtendedKeyUsage)
  | basicConstraints (ca : Bool)
  | other
  deriving DecidableEq

/-- `SubjectPublicKeyInfo`. -/
structure PublicKey where
  algorithm : String
  parameters : Option Bytes
  subjectPublicKey : Bytes
  deriving DecidableEq

/-- `X509Certificate`; times are in seconds. -/
structure Certificate where
  der : Bytes
  subject : Name
  issuer : Name
  notBefore : Int
  notAfter : Int
  publicKey : PublicKey
  extensions : List Extension
  deriving DecidableEq

def Certificate.isValidAt (cert : Certificate) (now : Int) : Bool :=
  cert.notBefore ≤ now && now ≤ cert.notAfter

/-- The basic constraints say that the certificate may issue others. -/
def Certificate.isCa (cert : Certificate) : Bool :=
  cert.extensions.contains (.basicConstraints true)

/-- The crates that do the work; texts are those of their errors. -/
structure Library where
  /-- `Pem::read`: the label and contents of a block and the number of bytes up to its end. -/
  pemRead : Bytes → Option (String × Bytes × Nat)
  /-- `X509Certificate::from_der`. -/
  fromDer : Bytes → Except String Certificate
  /-- `verify_signature`. -/
  verifySignature : Certificate → PublicKey → Except String Unit
  /-- `ASN1Time::from_timestamp`. -/
  fromTimestamp : Int → Except String Int
  sha256 : Bytes → Bytes
  /-- The `Debug` text of a list of strings. -/
  debugTexts : List String → String

/-- `TlsBridgeConfig`, without the name of the bridge and the PEM texts of the roots. -/
structure TlsBridgeConfig where
  trustDomain : String
  maxChainLength : Option Nat
  requiredSanUri : Option String
  nowUnixSeconds : Option UInt64

/-- `TlsBridge`, with the roots as `new` decodes them. -/
structure TlsBridge where
  cfg : TlsBridgeConfig
  roots : List Bytes

inductive ActorType where
  | service
  | device
  deriving DecidableEq

inductive TrustLevel where
  | t3
  | t4

/-- What `project` sets in an `ActorIdentity`, with its only key and its only root. -/
structure Identity where
  actorId : String
  actorType : ActorType
  keyId : String
  algorithm : String
  publicKey : String
  trustLevel : TrustLevel
  authorityRoot : String
  validFrom : String
  validUntil : String

structure TlsVerificationResult where
  identity : Identity
  capabilities : List String
  leafSubject : String
  chainSubjects : List String

/-! ## What is read off a certificate -/

def defaultEkuToAction (oid : String) : Option String :=
  if oid = "1.3.6.1.5.5.7.3.1" then some "tls.server-auth"
  else if oid = "1.3.6.1.5.5.7.3.2" then some "tls.client-auth"
  else if oid = "1.3.6.1.5.5.7.3.3" then some "code.sign"
  else if oid = "1.3.6.1.5.5.7.3.4" then some "email.protect"
  else if oid = "1.3.6.1.5.5.7.3.8" then some "timestamp.sign"
  else if oid = "1.3.6.1.5.5.7.3.9" then some "ocsp.sign"
  else none

def Extension.names : Extension → List GeneralName
  | .subjectAlternativeName names => names
  | _ => []

def collectSanUris (cert : Certificate) : List String :=
  (cert.extensions.flatMap Extension.names).filterMap fun
    | .uri uri => some uri
    | _ => none

def collectSanDns (cert : Certificate) : List String :=
  (cert.extensions.flatMap Extension.names).filterMap fun
    | .dnsName name => some name
    | _ => none

def ExtendedKeyUsage.actions (usage : ExtendedKeyUsage) : List String :=
  if usage.any then []
  else
    usage.other.filterMap defaultEkuToAction ++
      (if usage.clientAuth then ["tls.client-auth"] else []) ++
      (if usage.serverAuth then ["tls.server-auth"] else []) ++
      (if usage.codeSigning then ["code.sign"] else []) ++
      (if usage.emailProtection then ["email.protect"] else []) ++
      (if usage.timeStamping then ["timestamp.sign"] else []) ++
      (if usage.ocspSigning then ["ocsp.sign"] else [])

/-- `collect_eku_actions`: every action once, where it stands first. -/
def collectEkuActions (cert : Certificate) : List String :=
  let all := cert.extensions.flatMap fun
    | .extendedKeyUsage usage => usage.actions
    | _ => []
  all.foldl (fun out action => if action ∈ out then out else out ++ [action]) []

def parseCommonName (distinguishedName : String) : Option String :=
  (distinguishedName.toList.splitOnP fun c => c = '\n' ∨ c = ',').findSome? fun part =>
    let trimmed := Lines.trim part
    ((['C', 'N', '='].isPrefixOf? trimmed) <|> (['c', 'n', '='].isPrefixOf? trimmed)).map
      String.ofList

def encodeActorPath (s : String) : String :=
  percentEncode ['-', '_', '.', '~', '/'] s

def rfc3339FromUnix (secs : Int) : String :=
  utcText secs

namespace Library

variable (lib : Library)

/-- The loop of `parse_pem_bundle`.  A block takes some bytes, so that the length of the input is
enough fuel. -/
def readBlocks : Nat → Bytes → List Bytes
  | 0, _ => []
  | fuel + 1, bytes =>
    if bytes.isEmpty then []
    else
      match lib.pemRead bytes with
      | none => []
      | some (label, contents, consumed) =>
        if label = "CERTIFICATE" then contents :: readBlocks fuel (bytes.drop consumed)
        else readBlocks fuel (bytes.drop consumed)

/-- `parse_pem_bundle`, which does not fail. -/
def parsePemBundle (pem : String) : List Bytes :=
  lib.readBlocks (Text.utf8 pem).length (Text.utf8 pem)

/-- The certificates of a list of DER texts, or the first error. -/
def parseAll (error : String → BridgeError) (ders : List Bytes) :
    Except BridgeError (List Certificate) :=
  ders.mapM fun der => (lib.fromDer der).mapError error

/-- The certificates that a peer supplies. -/
def supplied (chainPem : List String) : Except BridgeError (List Certificate) :=
  lib.parseAll (fun e => .invalidInput s!"DER parse: {e}") (chainPem.flatMap lib.parsePemBundle)

end Library

/-! ## The bridge -/

namespace TlsBridge

variable (lib : Library) (bridge : TlsBridge)

/-- The configured roots as certificates. -/
def anchors : Except BridgeError (List Certificate) :=
  lib.parseAll (fun e => .internal s!"root DER reparse: {e}") bridge.roots

def project (leaf root : Certificate) (chainSubjects : List String) :
    Except BridgeError TlsVerificationResult := do
  let sanUris := collectSanUris leaf
  let uriTexts := lib.debugTexts sanUris
  let missing := bridge.cfg.requiredSanUri.getD ""
  require (bridge.cfg.requiredSanUri.all (· ∈ sanUris))
    (.rejected s!"leaf SAN URIs {uriTexts} missing required {missing}")
  let leafText := leaf.subject.text
  let spiffeSan := sanUris.find? fun uri => "spiffe://".toList <+: uri.toList
  let subject :=
    (spiffeSan <|> parseCommonName leafText <|> (collectSanDns leaf).head?).getD leafText
  let actorType := if spiffeSan.isSome then ActorType.service else .device
  let typeStr := if actorType = .service then "service" else "device"
  let domain := bridge.cfg.trustDomain
  let path := encodeActorPath subject
  let oid := leaf.publicKey.algorithm
  let algorithm :=
    if oid = "1.2.840.113549.1.1.1" then "rsa"
    else if oid = "1.2.840.10045.2.1" then "p256"
    else if oid = "1.3.101.112" then "ed25519"
    else "unknown"
  let identity : Identity :=
    { actorId := s!"tf:actor:{typeStr}:{domain}/{path}"
      actorType
      keyId := Text.hex (lib.sha256 leaf.der)
      algorithm
      publicKey := Encoding.standard.encode leaf.publicKey.subjectPublicKey
      trustLevel := if actorType = .service then .t4 else .t3
      authorityRoot := (parseCommonName root.subject.text).getD root.subject.text
      validFrom := rfc3339FromUnix leaf.notBefore
      validUntil := rfc3339FromUnix leaf.notAfter }
  return ⟨identity, collectEkuActions leaf, leafText, chainSubjects⟩

/-- `cert.verify_signature(Some(issuer.public_key()))`, with the message of the bridge. -/
def checkSignature (cert issuer : Certificate) (message : String → String) :
    Except BridgeError Unit :=
  (lib.verifySignature cert issuer.publicKey).mapError fun e => .rejected (message e)

/-- The first supplied certificate, other than the current one, with the name of its issuer. -/
def findIssuer (parsed : List Certificate) (currentIdx : Nat) (cur : Certificate) :
    Option (Certificate × Nat) :=
  parsed.zipIdx.find? fun (c, i) => i ≠ currentIdx ∧ c.subject = cur.issuer

section

variable (parsed roots : List Certificate) (leaf : Certificate)

/-- The loop of `verify_chain` with the rounds that are left; the current certificate goes with its
index. -/
def walk (max : Nat) : Nat → Nat → Certificate → List String → List String →
    Except BridgeError TlsVerificationResult
  | 0, _, _, _, _ =>
    .error (.rejected s!"chain exceeds max depth {max} without reaching trust anchor")
  | rounds + 1, currentIdx, cur, visited, chainSubjects => do
    let subject := cur.subject.text
    let issuerText := cur.issuer.text
    let message (e : String) := s!"signature verification failed for {subject}: {e}"
    match findIssuer parsed currentIdx cur with
    | some (issuer, interIdx) =>
      checkSignature lib cur issuer message
      require (issuer.subject.text ∉ visited) (.rejected "chain loop detected")
      walk max rounds interIdx issuer (issuer.subject.text :: visited)
        (chainSubjects ++ [issuer.subject.text])
    | none =>
      match roots.find? fun root => root.subject = cur.issuer with
      | none => throw (.rejected s!"no issuer cert for {subject} (issuer={issuerText})")
      | some root =>
        let rootText := root.subject.text
        checkSignature lib cur root message
        checkSignature lib root root fun e => s!"root {rootText} not self-consistent: {e}"
        bridge.project lib leaf root (chainSubjects ++ [rootText])

end

/-- The seconds since 1970 as a signed number, as `as i64` makes it. -/
def asI64 (seconds : UInt64) : Int :=
  seconds.toInt64.toInt

/-- The time of a verification, which the configuration can set. -/
def now (clock : UInt64) : Except BridgeError Int :=
  (lib.fromTimestamp (asI64 (bridge.cfg.nowUnixSeconds.getD clock))).mapError
    fun e => .invalidInput s!"now overflow: {e}"

def verifyChain (clock : UInt64) (chainPem : List String) :
    Except BridgeError TlsVerificationResult := do
  let size := (chainPem.flatMap lib.parsePemBundle).length
  require (size ≠ 0) (.invalidInput "empty chain")
  let max := bridge.cfg.maxChainLength.getD 6
  require (size ≤ max) (.rejected s!"chain longer than max ({size} > {max})")
  let now ← bridge.now lib clock
  let parsed ← lib.supplied chainPem
  parsed.forM fun c =>
    let subject := c.subject.text
    require (c.isValidAt now) (.rejected s!"cert {subject} outside validity window")
  let leaf ← okOr parsed.head? (.invalidInput "empty chain")
  let roots ← bridge.anchors lib
  bridge.walk lib parsed roots leaf max max 0 leaf [leaf.subject.text] [leaf.subject.text]

end TlsBridge

/-! ## Paths -/

section

variable (lib : Library) (parsed roots : List Certificate)

/-- The signature of a certificate verifies under the key of another one. -/
def Signs (issuer cert : Certificate) : Prop :=
  lib.verifySignature cert issuer.publicKey = .ok ()

/-- The issuers from a certificate up to a root, through supplied certificates. -/
inductive PathTo : Certificate → List Certificate → Prop where
  | root {cert root : Certificate} (configured : root ∈ roots) (signed : Signs lib root cert) :
      PathTo cert [root]
  | next {cert issuer : Certificate} {issuers : List Certificate} (given : issuer ∈ parsed)
      (signed : Signs lib issuer cert) (path : PathTo issuer issuers) :
      PathTo cert (issuer :: issuers)

/-- A path on which every certificate is valid and every issuer may issue. -/
structure SoundPath (now : Int) (leaf : Certificate) (issuers : List Certificate) : Prop where
  path : PathTo lib parsed roots leaf issuers
  valid : ∀ cert ∈ leaf :: issuers, cert.isValidAt now = true
  authority : ∀ cert ∈ issuers, cert.isCa = true

end

section

variable {lib : Library} {parsed roots : List Certificate}

variable {cert : Certificate} {issuers : List Certificate}

section

variable (path : PathTo lib parsed roots cert issuers)

include path

theorem PathTo.mem_of_mem_dropLast :
    ∀ issuer ∈ issuers.dropLast, issuer ∈ parsed := by
  induction path with
  | root configured signed => exact forall_mem_nil _
  | next given signed path ih =>
    intro issuer member
    cases path with
    | root _ _ => rwa [mem_singleton.mp member]
    | next _ _ _ =>
      rcases mem_cons.mp member with rfl | inside
      · exact given
      · exact ih issuer inside

theorem PathTo.root_mem :
    ∀ root ∈ issuers.getLast?, root ∈ roots := by
  induction path with
  | root configured signed =>
    intro root last
    exact some.inj last ▸ configured
  | next given signed path ih =>
    intro root last
    cases path with
    | root | next => exact ih root last

theorem PathTo.ne_nil : issuers ≠ [] := by
  cases path with
  | root | next => nofun

end

/-- Where the supplied certificates are valid, a path is sound if its root is valid and its issuers
may issue. -/
theorem soundPath_iff {now : Int} {leaf : Certificate} (leafGiven : leaf ∈ parsed)
    (valid : ∀ cert ∈ parsed, cert.isValidAt now = true) (issuers : List Certificate) :
    SoundPath lib parsed roots now leaf issuers ↔
      PathTo lib parsed roots leaf issuers ∧
        (∀ root ∈ issuers.getLast?, root.isValidAt now = true) ∧
        ∀ cert ∈ issuers, cert.isCa = true := by
  constructor
  · intro sound
    refine ⟨sound.path, fun root last => ?_, sound.authority⟩
    exact sound.valid root (mem_cons_of_mem leaf (mem_of_getLast? last))
  · rintro ⟨path, rootValid, authority⟩
    refine ⟨path, forall_mem_cons.mpr ⟨valid leaf leafGiven, fun cert member => ?_⟩, authority⟩
    rw [← dropLast_append_getLast path.ne_nil, mem_append, mem_singleton] at member
    rcases member with inside | rfl
    · exact valid cert (path.mem_of_mem_dropLast cert inside)
    · exact rootValid _ (getLast?_eq_getLast_of_ne_nil path.ne_nil)

namespace TlsBridge

variable {bridge : TlsBridge}

theorem checkSignature_eq_ok {cert issuer : Certificate} {message : String → String} {u : Unit}
    (checked : checkSignature lib cert issuer message = .ok u) : Signs lib issuer cert :=
  mapError_eq_ok_iff.mp checked

variable {result : TlsVerificationResult}

theorem project_chainSubjects {leaf root : Certificate} {subjects : List String}
    (projected : bridge.project lib leaf root subjects = .ok result) :
    result.chainSubjects = subjects := by
  obtain ⟨_, _, projected⟩ := bind_eq_ok projected
  exact congrArg TlsVerificationResult.chainSubjects (ok.inj projected).symm

/-- The issuers that the names give: the first other supplied certificate with the name of the
issuer, or else the first root with it. -/
inductive NamedPath (parsed roots : List Certificate) :
    Nat → Certificate → List Certificate → Prop where
  | root {k : Nat} {cert root : Certificate}
      (missing : findIssuer parsed k cert = none)
      (found : roots.find? (fun root => root.subject = cert.issuer) = some root) :
      NamedPath parsed roots k cert [root]
  | next {k i : Nat} {cert issuer : Certificate} {issuers : List Certificate}
      (found : findIssuer parsed k cert = some (issuer, i))
      (path : NamedPath parsed roots i issuer issuers) :
      NamedPath parsed roots k cert (issuer :: issuers)

/-- The walk follows the names, every signature on the way is good, and the result lists the
subjects. -/
theorem walk_eq_ok {leaf : Certificate} {max rounds currentIdx : Nat} {cur : Certificate}
    {visited subjects : List String}
    (ended : bridge.walk lib parsed roots leaf max rounds currentIdx cur visited subjects =
      .ok result) :
    ∃ issuers, NamedPath parsed roots currentIdx cur issuers ∧ PathTo lib parsed roots cur issuers ∧
      result.chainSubjects = subjects ++ issuers.map (·.subject.text) := by
  induction rounds generalizing currentIdx cur visited subjects with
  | zero => contradiction
  | succ rounds ih =>
    unfold walk at ended
    dsimp only at ended
    split at ended
    · next issuer interIdx found =>
      simp only [bind_eq_ok_iff] at ended
      obtain ⟨_, signed, _, _, ended⟩ := ended
      obtain ⟨issuers, named, path, listed⟩ := ih ended
      have given := fst_mem_of_mem_zipIdx (mem_of_find?_eq_some found)
      refine ⟨issuer :: issuers, .next found named,
        .next given (checkSignature_eq_ok signed) path, ?_⟩
      rw [listed, map_cons, append_assoc, singleton_append]
    · next missing =>
      split at ended
      · contradiction
      · next root found =>
        simp only [bind_eq_ok_iff] at ended
        obtain ⟨_, signed, _, _, ended⟩ := ended
        refine ⟨[root], .root missing found,
          .root (mem_of_find?_eq_some found) (checkSignature_eq_ok signed), ?_⟩
        exact project_chainSubjects ended

/-- The checks that `verify_chain` makes before its walk, and what they read. -/
structure Begins (lib : Library) (bridge : TlsBridge) (clock : UInt64) (chainPem : List String)
    (leaf : Certificate) (others roots : List Certificate) : Prop where
  few : (chainPem.flatMap lib.parsePemBundle).length ≤ bridge.cfg.maxChainLength.getD 6
  supplied : lib.supplied chainPem = .ok (leaf :: others)
  valid : ∃ now, bridge.now lib clock = .ok now ∧
    ∀ cert ∈ leaf :: others, cert.isValidAt now = true
  anchors : bridge.anchors lib = .ok roots

/-- A chain is verified by its walk, once the checks before it have passed. -/
theorem verifyChain_eq_ok_iff {clock : UInt64} {chainPem : List String} :
    bridge.verifyChain lib clock chainPem = .ok result ↔
      ∃ leaf others roots, Begins lib bridge clock chainPem leaf others roots ∧
        bridge.walk lib (leaf :: others) roots leaf (bridge.cfg.maxChainLength.getD 6)
          (bridge.cfg.maxChainLength.getD 6) 0 leaf [leaf.subject.text] [leaf.subject.text] =
            .ok result := by
  simp only [verifyChain, bind_eq_ok_iff, okOr_eq_ok_iff, forM_eq_ok_iff, require_eq_ok_iff]
  constructor
  · rintro ⟨_, _, _, few, now, time, parsed, supplied, _, valid, leaf, head, roots, anchors, walked⟩
    obtain ⟨others, rfl⟩ := head?_eq_some_iff.mp head
    exact ⟨leaf, others, roots, ⟨few, supplied, ⟨now, time, valid⟩, anchors⟩, walked⟩
  · rintro ⟨leaf, others, roots, ⟨few, supplied, ⟨now, time, valid⟩, anchors⟩, walked⟩
    have sizes := (mapM_eq_ok_iff.mp supplied).length_eq
    exact ⟨(), by rw [sizes]; nofun, (), few, now, time, _, supplied, (), valid, leaf, rfl, roots,
      anchors, walked⟩

/-- What is behind an accepted chain: the certificates and the time, and the path that the names
give. -/
structure Accepted (lib : Library) (bridge : TlsBridge) (clock : UInt64) (chainPem : List String)
    (result : TlsVerificationResult) (now : Int) (leaf : Certificate)
    (parsed roots issuers : List Certificate) : Prop where
  time : bridge.now lib clock = .ok now
  supplied : lib.supplied chainPem = .ok parsed
  first : parsed.head? = some leaf
  anchors : bridge.anchors lib = .ok roots
  valid : ∀ cert ∈ parsed, cert.isValidAt now = true
  named : NamedPath parsed roots 0 leaf issuers
  path : PathTo lib parsed roots leaf issuers
  subjects : result.chainSubjects = (leaf :: issuers).map (·.subject.text)

theorem accepted_of_eq_ok {clock : UInt64} {chainPem : List String}
    (ended : bridge.verifyChain lib clock chainPem = .ok result) :
    ∃ now leaf parsed roots issuers,
      Accepted lib bridge clock chainPem result now leaf parsed roots issuers := by
  obtain ⟨leaf, others, roots, begins, walked⟩ := verifyChain_eq_ok_iff.mp ended
  obtain ⟨now, time, valid⟩ := begins.valid
  obtain ⟨issuers, named, path, subjects⟩ := walk_eq_ok walked
  exact ⟨now, leaf, leaf :: others, roots, issuers, time, begins.supplied, rfl, begins.anchors, valid,
    named, path, subjects⟩

/-- An accepted chain has a path of good signatures to a root, with all supplied certificates valid.
The path is sound where the root is valid and the issuers may issue, which nothing checks. -/
theorem accepted_path_sound_iff {clock : UInt64} {chainPem : List String}
    {result : TlsVerificationResult} (ended : bridge.verifyChain lib clock chainPem = .ok result) :
    ∃ now leaf parsed roots issuers,
      Accepted lib bridge clock chainPem result now leaf parsed roots issuers ∧
      (SoundPath lib parsed roots now leaf issuers ↔
        (∀ root ∈ issuers.getLast?, root.isValidAt now = true) ∧
          ∀ cert ∈ issuers, cert.isCa = true) ∧
      ((∃ others, SoundPath lib parsed roots now leaf others) ↔
        ∃ others, PathTo lib parsed roots leaf others ∧
          (∀ root ∈ others.getLast?, root.isValidAt now = true) ∧
          ∀ cert ∈ others, cert.isCa = true) := by
  obtain ⟨now, leaf, parsed, roots, issuers, accepted⟩ := accepted_of_eq_ok ended
  have sound (others : List Certificate) :=
    @soundPath_iff lib parsed roots now leaf (mem_of_head? accepted.first) accepted.valid
      others
  refine ⟨now, leaf, parsed, roots, issuers, accepted, ?_, exists_congr sound⟩
  rw [sound, and_iff_right accepted.path]

/-! ## The order of the certificates

At every step the walk takes the first other certificate with the name of the issuer.  Which one is
first depends on the order alone, so that the walks in all orders are those that take any one of
them. -/

section

variable (lib : Library) (bridge : TlsBridge) (parsed roots : List Certificate) (leaf : Certificate)

/-- The first root with the name of the issuer signs the certificate and itself, and the leaf has
the URI that is required. -/
def Anchored (cur : Certificate) : Prop :=
  ∃ root, roots.find? (fun root => root.subject = cur.issuer) = some root ∧ Signs lib root cur ∧
    Signs lib root root ∧ bridge.cfg.requiredSanUri.all (· ∈ collectSanUris leaf) = true

/-- How a walk can end, accepted or not, that goes from a certificate to any other supplied one with
the name of its issuer: with the rounds that are left and the names that were visited. -/
inductive Ends : Nat → Certificate → List String → Bool → Prop where
  | spent {cur : Certificate} {visited : List String} : Ends 0 cur visited false
  | root {rounds : Nat} {cur : Certificate} {visited : List String} {accepted : Bool}
      (missing : ∀ issuer ∈ parsed.erase cur, issuer.subject ≠ cur.issuer)
      (anchored : accepted = true ↔ Anchored lib bridge roots leaf cur) :
      Ends (rounds + 1) cur visited accepted
  | refused {rounds : Nat} {cur issuer : Certificate} {visited : List String}
      (other : issuer ∈ parsed.erase cur) (named : issuer.subject = cur.issuer)
      (bad : Signs lib issuer cur → issuer.subject.text ∈ visited) :
      Ends (rounds + 1) cur visited false
  | next {rounds : Nat} {cur issuer : Certificate} {visited : List String} {accepted : Bool}
      (other : issuer ∈ parsed.erase cur) (named : issuer.subject = cur.issuer)
      (signed : Signs lib issuer cur) (unseen : issuer.subject.text ∉ visited)
      (later : Ends rounds issuer (issuer.subject.text :: visited) accepted) :
      Ends (rounds + 1) cur visited accepted

end

section

variable {order : List Certificate} {leaf cur issuer : Certificate} {max rounds k i : Nat}
  {visited subjects : List String} {accepted : Bool}

theorem isOk_checkSignature_bind_iff {α : Type} {message : String → String}
    {later : Except BridgeError α} :
    (checkSignature lib cur issuer message >>= fun _ => later).isOk = true ↔
      Signs lib issuer cur ∧ later.isOk = true := by
  simp only [isOk_iff, bind_eq_ok_iff, checkSignature, mapError_eq_ok_iff, Signs,
    Unique.exists_iff, PUnit.default_eq_unit, exists_and_left]

theorem isOk_walk_next (found : findIssuer order k cur = some (issuer, i)) :
    (bridge.walk lib order roots leaf max (rounds + 1) k cur visited subjects).isOk = true ↔
      (Signs lib issuer cur ∧ issuer.subject.text ∉ visited) ∧
        (bridge.walk lib order roots leaf max rounds i issuer (issuer.subject.text :: visited)
          (subjects ++ [issuer.subject.text])).isOk = true := by
  simp only [walk, found, isOk_checkSignature_bind_iff, and_assoc]
  simp only [isOk_iff, bind_eq_ok_iff, require_eq_ok_iff, exists_and_left, exists_const]

theorem isOk_walk_root (missing : findIssuer order k cur = none) :
    (bridge.walk lib order roots leaf max (rounds + 1) k cur visited subjects).isOk = true ↔
      Anchored lib bridge roots leaf cur := by
  simp only [walk, missing, Anchored]
  cases roots.find? fun root => root.subject = cur.issuer with
  | none => exact iff_of_false Bool.false_ne_true nofun
  | some root =>
    simp only [isOk_checkSignature_bind_iff, some.injEq, exists_eq_left']
    simp only [project, isOk_iff, bind_eq_ok_iff, require_eq_ok_iff, exists_and_left, exists_const]
    exact and_congr_right' (and_congr_right' (and_iff_left ⟨_, rfl⟩))

section

variable (perm : order.Perm parsed)

include perm

section

variable (here : order[k]? = some cur)

include here

/-- The other certificates are those at the other places. -/
theorem exists_place_iff :
    (∃ i, i ≠ k ∧ order[i]? = some issuer) ↔ issuer ∈ parsed.erase cur := by
  obtain ⟨inside, rfl⟩ := List.getElem?_eq_some_iff.mp here
  have without : (order.eraseIdx k).Perm (parsed.erase order[k]) :=
    ((getElem_cons_eraseIdx_perm inside).trans (perm_cons_erase
      (getElem_mem inside))).cons_inv.trans (perm.erase _)
  rw [← without.mem_iff, mem_eraseIdx_iff_getElem?]

/-- What is found is another certificate with the name of the issuer. -/
theorem of_findIssuer_eq_some (found : findIssuer order k cur = some (issuer, i)) :
    issuer ∈ parsed.erase cur ∧ issuer.subject = cur.issuer ∧ order[i]? = some issuer := by
  have place := mem_zipIdx_iff_getElem?.mp (mem_of_find?_eq_some found)
  have fits := find?_some found
  simp only [decide_eq_true_eq] at fits
  exact ⟨(exists_place_iff perm here).mp ⟨i, fits.1, place⟩, fits.2, place⟩

theorem findIssuer_eq_none_iff :
    findIssuer order k cur = none ↔ ∀ issuer ∈ parsed.erase cur, issuer.subject ≠ cur.issuer := by
  simp only [findIssuer, find?_eq_none, Prod.forall, mem_zipIdx_iff_getElem?,
    decide_eq_true_eq, not_and, ← exists_place_iff perm here]
  exact ⟨fun none issuer ⟨i, apart, place⟩ => none issuer i place apart,
    fun none issuer i place apart => none issuer ⟨i, apart, place⟩⟩

/-- In every order, the walk ends as one of the walks does. -/
theorem ends_walk :
    Ends lib bridge parsed roots leaf rounds cur visited
      (bridge.walk lib order roots leaf max rounds k cur visited subjects).isOk := by
  induction rounds generalizing k cur visited subjects with
  | zero => exact .spent
  | succ rounds ih =>
    cases found : findIssuer order k cur with
    | none => exact .root ((findIssuer_eq_none_iff perm here).mp found) (isOk_walk_root found)
    | some pair =>
      obtain ⟨issuer, i⟩ := pair
      obtain ⟨other, named, place⟩ := of_findIssuer_eq_some perm here found
      have ends := @isOk_walk_next lib roots bridge order leaf cur issuer max rounds k i visited
        subjects found
      by_cases good : Signs lib issuer cur ∧ issuer.subject.text ∉ visited
      · rw [Bool.eq_iff_iff.mpr (ends.trans (and_iff_right good))]
        exact .next other named good.1 good.2 (ih place)
      · rw [Bool.eq_false_iff.mpr fun ok => good (ends.mp ok).1]
        exact .refused other named fun signed => not_not.mp fun unseen => good ⟨signed, unseen⟩

end

end

/-- The first certificate of a name is found by the search for that name. -/
theorem exists_find?_of_first (first : order.find? (fun c => c.subject = cur.issuer) = some issuer)
    (apart : issuer ≠ cur) (here : order[k]? = some cur) :
    ∃ i, findIssuer order k cur = some (issuer, i) ∧ order[i]? = some issuer := by
  obtain ⟨named, i, inside, rfl, before⟩ := find?_eq_some_iff_getElem.mp first
  have place := getElem?_eq_getElem inside
  refine ⟨i, ?_, place⟩
  refine find?_eq_some_iff_getElem.mpr ⟨?_, i, by simpa using inside, by simp, fun j early => ?_⟩
  · refine decide_eq_true ⟨?_, of_decide_eq_true named⟩
    rintro rfl
    exact apart (some.inj (place.symm.trans here))
  · have other := before j early
    simp only [Bool.not_eq_eq_eq_not, Bool.not_true, decide_eq_false_iff_not] at other
    simp [other]

/-- A walk is the walk in some order: in every one that has the certificates it takes before others
of their names. -/
theorem Ends.exists_chosen (ends : Ends lib bridge parsed roots leaf rounds cur visited accepted)
    (home : cur.subject.text ∈ visited) :
    ∃ chosen : List Certificate, (chosen.map (·.subject.text)).Nodup ∧
      (∀ c ∈ chosen, c ∈ parsed ∧ c.subject.text ∉ visited) ∧
      ∀ order k subjects, order.Perm parsed → order[k]? = some cur →
        (∀ c ∈ chosen, order.find? (fun other => other.subject = c.subject) = some c) →
        (bridge.walk lib order roots leaf max rounds k cur visited subjects).isOk = accepted := by
  induction ends with
  | spent => exact ⟨[], .nil, nofun, fun _ _ _ _ _ _ => rfl⟩
  | root missing anchored =>
    refine ⟨[], .nil, nofun, fun order k subjects perm here _ => ?_⟩
    exact Bool.eq_iff_iff.mpr ((isOk_walk_root
      ((findIssuer_eq_none_iff perm here).mpr missing)).trans anchored.symm)
  | @refused rounds cur issuer visited other named bad =>
    by_cases seen : issuer.subject.text ∈ visited
    · refine ⟨[], .nil, nofun, fun order k subjects perm here _ => ?_⟩
      cases found : findIssuer order k cur with
      | none => exact absurd named ((findIssuer_eq_none_iff perm here).mp found issuer other)
      | some pair =>
        refine Bool.eq_false_iff.mpr fun ok => ((isOk_walk_next found).mp ok).1.2 ?_
        rwa [(of_findIssuer_eq_some perm here found).2.1, ← named]
    · refine ⟨[issuer], nodup_singleton _, ?_, fun order k subjects perm here first => ?_⟩
      · exact forall_mem_singleton.mpr ⟨mem_of_mem_erase other, seen⟩
      · obtain ⟨i, found, _⟩ := exists_find?_of_first (named ▸ first issuer mem_cons_self)
          (fun same => seen (by rwa [same])) here
        exact Bool.eq_false_iff.mpr fun ok => seen (bad ((isOk_walk_next found).mp ok).1.1)
  | @next rounds cur issuer visited accepted other named signed unseen later ih =>
    obtain ⟨chosen, distinct, members, realised⟩ := ih mem_cons_self
    have fresh (c : Certificate) (member : c ∈ chosen) := not_or.mp
      (mt mem_cons.mpr (members c member).2)
    refine ⟨issuer :: chosen, ?_, ?_, fun order k subjects perm here first => ?_⟩
    · refine nodup_cons.mpr ⟨fun repeated => ?_, distinct⟩
      obtain ⟨c, member, same⟩ := mem_map.mp repeated
      exact (fresh c member).1 same
    · exact forall_mem_cons.mpr
        ⟨⟨mem_of_mem_erase other, unseen⟩, fun c member =>
          ⟨(members c member).1, (fresh c member).2⟩⟩
    · have apart : issuer ≠ cur := fun same => unseen (same ▸ home)
      obtain ⟨i, found, place⟩ := exists_find?_of_first
        (named ▸ first issuer mem_cons_self) apart here
      rw [← realised order i _ perm place fun c member => first c (mem_cons_of_mem _ member)]
      exact Bool.eq_iff_iff.mpr ((isOk_walk_next found).trans (and_iff_right ⟨signed, unseen⟩))

end

/-- Certificates of different names can be put before all others. -/
theorem exists_order {leaf : Certificate} {others chosen : List Certificate}
    (distinct : (chosen.map (·.subject.text)).Nodup)
    (members : ∀ c ∈ chosen, c ∈ leaf :: others ∧ c.subject.text ∉ [leaf.subject.text]) :
    ∃ order, order.Perm others ∧ ∀ c ∈ chosen,
      (leaf :: order).find? (fun other => other.subject = c.subject) = some c := by
  have named (c : Certificate) (member : c ∈ chosen) :=
    mt mem_singleton.mpr (members c member).2
  have inside : chosen ⊆ others := fun c member =>
    (mem_cons.mp (members c member).1).resolve_left fun same => named c member (by rw [same])
  refine ⟨chosen ++ others.diff chosen, subperm_append_diff_self_of_count_le
    (subperm_ext_iff.mp (List.Nodup.subperm distinct.of_map inside)), fun c member => ?_⟩
  have skipped : leaf.subject ≠ c.subject := fun same => named c member (by rw [same])
  rw [find?_cons_of_neg (by simpa using skipped), find?_append]
  cases found : chosen.find? fun other => other.subject = c.subject with
  | none => exact absurd (decide_eq_true rfl) (find?_eq_none.mp found c member)
  | some other =>
    have same := find?_some found
    simp only [decide_eq_true_eq] at same
    rw [inj_on_of_nodup_map distinct (mem_of_find?_eq_some found) member (congrArg Name.text same)]
    rfl

/-- Some walk from the leaf through the other certificates ends so. -/
def CanEnd (lib : Library) (bridge : TlsBridge) (leaf : Certificate)
    (others roots : List Certificate) (accepted : Bool) : Prop :=
  Ends lib bridge (leaf :: others) roots leaf (bridge.cfg.maxChainLength.getD 6) leaf
    [leaf.subject.text] accepted

section

variable {clock : UInt64} {chainPem chainPem' : List String} {leaf : Certificate}
  {others order roots : List Certificate} {der : Bytes} {rest rest' : List Bytes}

theorem exists_begins_of_isOk (accepted : (bridge.verifyChain lib clock chainPem).isOk = true) :
    ∃ leaf others roots, Begins lib bridge clock chainPem leaf others roots := by
  obtain ⟨result, ended⟩ := isOk_iff.mp accepted
  obtain ⟨leaf, others, roots, begins, _⟩ := verifyChain_eq_ok_iff.mp ended
  exact ⟨leaf, others, roots, begins⟩

section

variable (begins : Begins lib bridge clock chainPem leaf others roots)

include begins

theorem Begins.isOk_eq :
    (bridge.verifyChain lib clock chainPem).isOk =
      (bridge.walk lib (leaf :: others) roots leaf (bridge.cfg.maxChainLength.getD 6)
        (bridge.cfg.maxChainLength.getD 6) 0 leaf [leaf.subject.text] [leaf.subject.text]).isOk := by
  refine Bool.eq_iff_iff.mpr ?_
  simp only [isOk_iff, verifyChain_eq_ok_iff]
  constructor
  · rintro ⟨result, leaf', others', roots', begins', walked⟩
    obtain ⟨rfl, rfl⟩ :=
      cons.inj (ok.inj (begins'.supplied.symm.trans begins.supplied))
    obtain rfl := ok.inj (begins'.anchors.symm.trans begins.anchors)
    exact ⟨result, walked⟩
  · rintro ⟨result, walked⟩
    exact ⟨result, leaf, others, roots, begins, walked⟩

section

variable (given : chainPem.flatMap lib.parsePemBundle = der :: rest)

include given

theorem Begins.of_order
    (given' : chainPem'.flatMap lib.parsePemBundle = der :: rest') (perm : rest'.Perm rest)
    (supplied : lib.supplied chainPem' = .ok (leaf :: order)) (same : order.Perm others) :
    Begins lib bridge clock chainPem' leaf order roots := by
  obtain ⟨now, time, valid⟩ := begins.valid
  refine ⟨?_, supplied, ⟨now, time, fun cert member => ?_⟩, begins.anchors⟩
  · rw [given', length_cons, perm.length_eq, ← length_cons, ← given]
    exact begins.few
  · exact valid cert ((same.cons leaf).mem_iff.mp member)

/-- Certificates that are supplied in another order are read in that order. -/
theorem Begins.exists_of_perm
    (given' : chainPem'.flatMap lib.parsePemBundle = der :: rest') (perm : rest'.Perm rest) :
    ∃ order, order.Perm others ∧ Begins lib bridge clock chainPem' leaf order roots := by
  have supplied := begins.supplied
  simp only [Library.supplied, Library.parseAll, given, mapM_eq_ok_iff, forall₂_cons] at supplied
  obtain ⟨order, later, same⟩ := perm_comp_forall₂ perm supplied.2
  refine ⟨order, same, begins.of_order given given' perm ?_ same⟩
  simp only [Library.supplied, Library.parseAll, given', mapM_eq_ok_iff, forall₂_cons]
  exact ⟨supplied.1, later⟩

/-- Where every certificate can be supplied in a text of its own, every order of the certificates
is that of some texts. -/
theorem Begins.exists_texts
    (readable : ∀ der ∈ chainPem.flatMap lib.parsePemBundle, ∃ pem, lib.parsePemBundle pem = [der])
    (same : order.Perm others) :
    ∃ chainPem' rest', rest'.Perm rest ∧ chainPem'.flatMap lib.parsePemBundle = der :: rest' ∧
      Begins lib bridge clock chainPem' leaf order roots := by
  have supplied := begins.supplied
  simp only [Library.supplied, Library.parseAll, given, mapM_eq_ok_iff, forall₂_cons] at supplied
  obtain ⟨rest', later, perm⟩ := perm_comp_forall₂ same supplied.2.flip
  obtain ⟨texts, read⟩ : ∃ texts : List String,
      texts.flatMap lib.parsePemBundle = der :: rest' := by
    rw [given] at readable
    choose! text read using readable
    refine ⟨(der :: rest').map text, ?_⟩
    rw [flatMap_map, flatMap_congr fun der member => read der ((perm.cons _).mem_iff.mp member)]
    exact flatMap_singleton' _
  refine ⟨texts, rest', perm, read, begins.of_order given read perm ?_ same⟩
  simp only [Library.supplied, Library.parseAll, read, mapM_eq_ok_iff, forall₂_cons]
  exact ⟨supplied.1, later.flip⟩

end

end

/-- Every order of the certificates ends as some walk does. -/
theorem Begins.canEnd (begins : Begins lib bridge clock chainPem leaf order roots)
    (same : order.Perm others) :
    CanEnd lib bridge leaf others roots (bridge.verifyChain lib clock chainPem).isOk := by
  rw [begins.isOk_eq]
  exact ends_walk (same.cons leaf) rfl

/-- Every walk is that of an order of the certificates. -/
theorem CanEnd.exists_order {accepted : Bool}
    (ends : CanEnd lib bridge leaf others roots accepted) :
    ∃ order, order.Perm others ∧ ∀ clock chainPem,
      Begins lib bridge clock chainPem leaf order roots →
        (bridge.verifyChain lib clock chainPem).isOk = accepted := by
  obtain ⟨chosen, distinct, members, realised⟩ := Ends.exists_chosen ends (mem_singleton_self _)
  obtain ⟨order, same, first⟩ := TlsBridge.exists_order distinct members
  refine ⟨order, same, fun clock chainPem begins => ?_⟩
  rw [begins.isOk_eq]
  exact realised _ 0 _ (same.cons leaf) rfl first

/-- Whether a chain is accepted is the same for every order of the certificates behind the leaf
exactly if the checks before the walk fail, or no two walks through the certificates end
differently. -/
theorem verifyChain_order_iff (given : chainPem.flatMap lib.parsePemBundle = der :: rest)
    (readable : ∀ der ∈ chainPem.flatMap lib.parsePemBundle,
      ∃ pem, lib.parsePemBundle pem = [der]) :
    (∀ chainPem' rest', rest'.Perm rest → chainPem'.flatMap lib.parsePemBundle = der :: rest' →
      (bridge.verifyChain lib clock chainPem').isOk =
        (bridge.verifyChain lib clock chainPem).isOk) ↔
      ∀ leaf others roots, Begins lib bridge clock chainPem leaf others roots →
        ¬(CanEnd lib bridge leaf others roots true ∧ CanEnd lib bridge leaf others roots false) := by
  constructor
  · intro same leaf others roots begins
    have only {accepted : Bool} (ends : CanEnd lib bridge leaf others roots accepted) :
        (bridge.verifyChain lib clock chainPem).isOk = accepted := by
      obtain ⟨order, sorted, ended⟩ := ends.exists_order
      obtain ⟨chainPem', rest', perm, given', begins'⟩ := begins.exists_texts given readable sorted
      rw [← same chainPem' rest' perm given', ended clock chainPem' begins']
    rintro ⟨reached, missed⟩
    exact absurd ((only reached).symm.trans (only missed)) nofun
  · intro apart chainPem' rest' perm given'
    by_cases begun : ∃ leaf others roots, Begins lib bridge clock chainPem leaf others roots
    · obtain ⟨leaf, others, roots, begins⟩ := begun
      obtain ⟨order, sorted, begins'⟩ := begins.exists_of_perm given given' perm
      have ends := begins.canEnd (.refl others)
      have ends' := begins'.canEnd sorted
      generalize (bridge.verifyChain lib clock chainPem).isOk = accepted at ends ⊢
      generalize (bridge.verifyChain lib clock chainPem').isOk = accepted' at ends' ⊢
      cases accepted with
      | false =>
        exact Bool.of_not_eq_true fun yes => apart leaf others roots begins ⟨yes ▸ ends', ends⟩
      | true =>
        exact Bool.of_not_eq_false fun no => apart leaf others roots begins ⟨ends, no ▸ ends'⟩
    · -- a chain whose checks fail is refused in every order
      rw [Bool.eq_false_iff.mpr fun ok => begun (exists_begins_of_isOk ok)]
      refine Bool.eq_false_iff.mpr fun ok => ?_
      obtain ⟨leaf, order, roots, begins'⟩ := exists_begins_of_isOk ok
      obtain ⟨others, _, begins⟩ := begins'.exists_of_perm given' given perm.symm
      exact begun ⟨leaf, others, roots, begins⟩

end

end TlsBridge

end

/-! ## A root that has expired and an issuer that may not issue -/

def sampleCertificate (name issuer : UInt8) (notAfter : Int) (ca : Bool) : Certificate where
  der := [name]
  subject := ⟨[name], Text.hex [name]⟩
  issuer := ⟨[issuer], Text.hex [issuer]⟩
  notBefore := 0
  notAfter
  publicKey := ⟨"", none, [name]⟩
  extensions := [.basicConstraints ca]

/-- The certificates `1`, which is signed by `2`, which is signed by the root `3`. -/
def sampleLibrary (rootEnd : Int) (interCa : Bool) : Library where
  pemRead := fun bytes => some ("CERTIFICATE", bytes, bytes.length)
  fromDer := fun der =>
    if der = [49] then .ok (sampleCertificate 49 50 10 false)
    else if der = [50] then .ok (sampleCertificate 50 51 10 interCa)
    else .ok (sampleCertificate 51 51 rootEnd true)
  verifySignature := fun cert key =>
    if cert.issuer.encoding = key.subjectPublicKey then .ok () else .error ""
  fromTimestamp := .ok
  sha256 := id
  debugTexts := fun _ => ""

def sampleBridge : TlsBridge where
  cfg := ⟨"", none, none, some 5⟩
  roots := [[51]]

section

variable (rootEnd : Int) (interCa : Bool)

theorem sample_isOk :
    (sampleBridge.verifyChain (sampleLibrary rootEnd interCa) 0 ["1", "2"]).isOk = true :=
  rfl

theorem sample_supplied :
    (sampleLibrary rootEnd interCa).supplied ["1", "2"] =
      .ok [sampleCertificate 49 50 10 false, sampleCertificate 50 51 10 interCa] :=
  rfl

theorem sample_anchors :
    sampleBridge.anchors (sampleLibrary rootEnd interCa) =
      .ok [sampleCertificate 51 51 rootEnd true] :=
  rfl

end

/-- Two certificates of the issuer, of which one has the key. -/
def rolledLibrary : Library :=
  { sampleLibrary 10 true with
    fromDer := fun der =>
      if der = [52] then .ok { sampleCertificate 50 51 10 true with publicKey := ⟨"", none, [52]⟩ }
      else (sampleLibrary 10 true).fromDer der }

/-- A chain is accepted with the certificate of the old key behind that of the new one, and refused
with the two the other way round. -/
theorem order_of_rolled_keys :
    (sampleBridge.verifyChain rolledLibrary 0 ["1", "2", "4"]).isOk = true ∧
      (sampleBridge.verifyChain rolledLibrary 0 ["1", "4", "2"]).isOk = false := by
  decide +kernel

/-- So there are two walks through those certificates that end differently. -/
theorem sample_order_iff :
    ∃ leaf others roots,
      TlsBridge.Begins rolledLibrary sampleBridge 0 ["1", "2", "4"] leaf others roots ∧
        TlsBridge.CanEnd rolledLibrary sampleBridge leaf others roots true ∧
        TlsBridge.CanEnd rolledLibrary sampleBridge leaf others roots false := by
  have readable : ∀ der ∈ [[49], [50], [52]], ∃ pem, rolledLibrary.parsePemBundle pem = [der] :=
    forall_mem_cons.mpr ⟨⟨"1", rfl⟩, forall_mem_cons.mpr ⟨⟨"2", rfl⟩,
      forall_mem_singleton.mpr ⟨"4", rfl⟩⟩⟩
  by_contra none
  have same := (@TlsBridge.verifyChain_order_iff rolledLibrary sampleBridge 0 ["1", "2", "4"] [49]
    [[50], [52]] rfl readable).mpr
      fun leaf others roots begins both => none ⟨leaf, others, roots, begins, both⟩
  exact absurd (same ["1", "4", "2"] _ (.swap ..) rfl) (by decide +kernel)

theorem sample_path_sound :
    ∃ result, sampleBridge.verifyChain (sampleLibrary 10 true) 0 ["1", "2"] = .ok result ∧
      ∃ now leaf parsed roots issuers,
        TlsBridge.Accepted (sampleLibrary 10 true) sampleBridge 0 ["1", "2"] result now leaf parsed
          roots issuers ∧
        (SoundPath (sampleLibrary 10 true) parsed roots now leaf issuers ↔
          (∀ root ∈ issuers.getLast?, root.isValidAt now = true) ∧
            ∀ cert ∈ issuers, cert.isCa = true) ∧
        ((∃ others, SoundPath (sampleLibrary 10 true) parsed roots now leaf others) ↔
          ∃ others, PathTo (sampleLibrary 10 true) parsed roots leaf others ∧
            (∀ root ∈ others.getLast?, root.isValidAt now = true) ∧
            ∀ cert ∈ others, cert.isCa = true) := by
  obtain ⟨result, ended⟩ := isOk_iff.mp (sample_isOk 10 true)
  exact ⟨result, ended, TlsBridge.accepted_path_sound_iff ended⟩

theorem no_sound_path_expired (issuers : List Certificate) :
    ¬SoundPath (sampleLibrary 4 true)
      [sampleCertificate 49 50 10 false, sampleCertificate 50 51 10 true]
      [sampleCertificate 51 51 4 true] 5 (sampleCertificate 49 50 10 false) issuers := by
  intro sound
  obtain ⟨root, last⟩ := isSome_iff_exists.mp (getLast?_isSome.mpr sound.path.ne_nil)
  have expired := sound.valid root (mem_cons_of_mem _ (mem_of_getLast? last))
  rw [mem_singleton.mp (sound.path.root_mem root last)] at expired
  exact absurd expired (by decide)

theorem no_sound_path_without_ca (issuers : List Certificate) :
    ¬SoundPath (sampleLibrary 10 false)
      [sampleCertificate 49 50 10 false, sampleCertificate 50 51 10 false]
      [sampleCertificate 51 51 10 true] 5 (sampleCertificate 49 50 10 false) issuers := by
  rintro ⟨path, _, authority⟩
  cases path with
  | root configured signed =>
    rw [mem_singleton.mp configured] at signed
    exact absurd signed nofun
  | next given signed path =>
    have none : ∀ cert ∈ [sampleCertificate 49 50 10 false, sampleCertificate 50 51 10 false],
        cert.isCa = false := by
      decide
    exact absurd (authority _ mem_cons_self) (Bool.eq_false_iff.mp (none _ given))

/-- A chain to a root that expired at 4 is accepted at 5, and so is one whose leaf is issued by a
certificate that is not one of a CA; neither has a sound path. -/
theorem unsound_paths_accepted :
    sampleBridge.now (sampleLibrary 4 true) 0 = .ok 5 ∧
      (sampleBridge.verifyChain (sampleLibrary 4 true) 0 ["1", "2"]).isOk = true ∧
      (∀ parsed roots leaf, (sampleLibrary 4 true).supplied ["1", "2"] = .ok parsed →
        parsed.head? = some leaf → sampleBridge.anchors (sampleLibrary 4 true) = .ok roots →
        ¬∃ issuers, SoundPath (sampleLibrary 4 true) parsed roots 5 leaf issuers) ∧
      (sampleBridge.verifyChain (sampleLibrary 10 false) 0 ["1", "2"]).isOk = true ∧
      ∀ parsed roots leaf, (sampleLibrary 10 false).supplied ["1", "2"] = .ok parsed →
        parsed.head? = some leaf → sampleBridge.anchors (sampleLibrary 10 false) = .ok roots →
        ¬∃ issuers, SoundPath (sampleLibrary 10 false) parsed roots 5 leaf issuers := by
  refine ⟨rfl, rfl, ?_, rfl, ?_⟩
  · rintro parsed roots leaf supplied first anchors ⟨issuers, sound⟩
    obtain rfl := ok.inj ((sample_supplied 4 true).symm.trans supplied)
    obtain rfl := ok.inj ((sample_anchors 4 true).symm.trans anchors)
    obtain rfl := some.inj first
    exact no_sound_path_expired issuers sound
  · rintro parsed roots leaf supplied first anchors ⟨issuers, sound⟩
    obtain rfl := ok.inj ((sample_supplied 10 false).symm.trans supplied)
    obtain rfl := ok.inj ((sample_anchors 10 false).symm.trans anchors)
    obtain rfl := some.inj first
    exact no_sound_path_without_ca issuers sound

end TrustForge.Tls
