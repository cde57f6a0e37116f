import TrustForge.Issuers

/-!
# Federation

Model of `federation.rs`: attestations by which one trust domain vouches for keys of
another, and the store that answers whether a foreign actor's signature is to be trusted.
The store is a hash map, which is walked in an order of its own; the model has one order,
and results speak about all reorderings of it.
-/

namespace TrustForge.Federation

open AssocMap List Except
open Encoding (standard)
open Json (Value)
open PacketMode (Window isWithinWindow)
open Session (Key optionalField)
open Signing (SignatureEnvelope Toolkit strings)

structure TrustBundleEntry where
  kind : String
  value : String
  keyId : Option String

def TrustBundleEntry.toValue (entry : TrustBundleEntry) : Value :=
  .object ([("kind", .string entry.kind), ("value", .string entry.value)] ++
    optionalField "key_id" (entry.keyId.map .string))

structure FederationAttestation where
  attestationVersion : String
  attestationId : String
  issuerDomain : String
  subjectDomain : String
  subjectActor : Option String
  scope : Option (List String)
  trustLevelsGranted : Option (List String)
  trustBundle : List TrustBundleEntry
  constraints : Option (List Value)
  issuedAt : String
  validUntil : String
  issuer : String
  signature : SignatureEnvelope

namespace FederationAttestation

variable (att : FederationAttestation)

def signedFields : List (String × Value) :=
  [("attestation_version", .string att.attestationVersion),
    ("attestation_id", .string att.attestationId), ("issuer_domain", .string att.issuerDomain),
    ("subject_domain", .string att.subjectDomain)] ++
  optionalField "subject_actor" (att.subjectActor.map .string) ++
  optionalField "scope" (att.scope.map strings) ++
  optionalField "trust_levels_granted" (att.trustLevelsGranted.map strings) ++
  [("trust_bundle", .array (att.trustBundle.map TrustBundleEntry.toValue))] ++
  optionalField "constraints" (att.constraints.map .array) ++
  [("issued_at", .string att.issuedAt), ("valid_until", .string att.validUntil),
    ("issuer", .string att.issuer)]

def toValue : Value :=
  .object (att.signedFields ++ [("signature", att.signature.toValue)])

/-- The window in which an attestation counts. -/
def window : Window where
  validFrom := some att.issuedAt
  validUntil := some att.validUntil

end FederationAttestation

/-! ## Signing and verifying attestations -/

structure SignAttestationArgs where
  attestationId : String
  issuerDomain : String
  subjectDomain : String
  subjectActor : Option String
  scope : Option (List String)
  trustLevelsGranted : Option (List String)
  trustBundle : List TrustBundleEntry
  constraints : Option (List Value)
  issuedAt : Option String
  validUntil : String
  issuer : String
  privateKey : Key

/-- The attestation before it is signed; lists without members are left out. -/
def SignAttestationArgs.draft (args : SignAttestationArgs) (clock : String) :
    FederationAttestation where
  attestationVersion := "1"
  attestationId := args.attestationId
  issuerDomain := args.issuerDomain
  subjectDomain := args.subjectDomain
  subjectActor := args.subjectActor
  scope := args.scope.filter fun s => !s.isEmpty
  trustLevelsGranted := args.trustLevelsGranted.filter fun s => !s.isEmpty
  trustBundle := args.trustBundle
  constraints := args.constraints.filter fun s => !s.isEmpty
  issuedAt := args.issuedAt.getD clock
  validUntil := args.validUntil
  issuer := args.issuer
  signature := ⟨"ed25519", args.issuer, ""⟩

section

variable (toolkit : Toolkit) (att : FederationAttestation)

def attestationSigningBytes : Bytes :=
  toolkit.signingBytes att.toValue

/-- `sign_federation_attestation`, at the time `clock`. -/
def signFederationAttestation (args : SignAttestationArgs) (clock : String) :
    Except String FederationAttestation :=
  if args.trustBundle = [] then .error "trust_bundle must be non-empty"
  else
    let att := args.draft clock
    let signature := toolkit.sign args.privateKey (attestationSigningBytes toolkit att)
    .ok { att with signature := { att.signature with signature } }

/-- `verify_federation_attestation`.  A rejection is an error with its reason. -/
def verifyFederationAttestation (issuerPublicKey : Key)
    (now : Option String) (clock : String) : Except String Unit :=
  if att.attestationVersion ≠ "1" then
    let version := att.attestationVersion
    .error s!"unsupported version {version}"
  else if att.signature.signer ≠ att.issuer then
    .error "signature signer does not match issuer"
  else if att.signature.algorithm ≠ "ed25519" then
    let algorithm := att.signature.algorithm
    .error s!"unsupported algorithm {algorithm}"
  else if ¬isWithinWindow att.window (now.getD clock) then
    .error "attestation outside valid window"
  else
    (toolkit.verifySignature issuerPublicKey (attestationSigningBytes toolkit att)
      att.signature.signature).mapError
        (toolkit.faultText "signature base64" "signature did not verify")

theorem signature_not_mem_signedFields :
    "signature" ∉ keys att.signedFields := by
  simp only [FederationAttestation.signedFields, AssocMap.keys, optionalField, map_append,
    mem_append]
  cases att.subjectActor <;> cases att.scope <;> cases att.trustLevelsGranted <;>
    cases att.constraints <;> simp

/-- The envelope is not covered by the signature. -/
theorem attestationSigningBytes_envelope (envelope : SignatureEnvelope) :
    attestationSigningBytes toolkit { att with signature := envelope } =
      attestationSigningBytes toolkit att :=
  toolkit.signingBytes_envelope (signature_not_mem_signedFields att) _ _

/-- What was signed verifies while it is valid. -/
theorem verify_signFederationAttestation {args : SignAttestationArgs} {clock : String}
    {att : FederationAttestation}
    (signed : signFederationAttestation toolkit args clock = .ok att) {now : Option String}
    {later : String} (valid : isWithinWindow att.window (now.getD later) = true) :
    verifyFederationAttestation toolkit att (toolkit.ed25519Public args.privateKey) now later =
      .ok () := by
  obtain ⟨_, equal⟩ := Result.ite_eq_ok signed
  cases ok.inj equal
  rw [verifyFederationAttestation, if_neg (by simp [SignAttestationArgs.draft]),
    if_neg (by simp [SignAttestationArgs.draft]), if_neg (by simp [SignAttestationArgs.draft]),
    if_neg (not_not.mpr valid), attestationSigningBytes_envelope, toolkit.verifySignature_sign]
  rfl

end

/-! ## The store -/

/-- `FederatedTrustStore`, in the order in which its map is walked.  Attestations are filed
under their identifiers. -/
structure FederatedTrustStore where
  byId : List (String × FederationAttestation)
  nodup : (keys byId).Nodup
  filed : ∀ entry ∈ byId, entry.1 = entry.2.attestationId

namespace FederatedTrustStore

def new : FederatedTrustStore where
  byId := []
  nodup := nodup_nil
  filed := by simp

variable (store : FederatedTrustStore)

def add (att : FederationAttestation) : FederatedTrustStore where
  byId := insert att.attestationId att store.byId
  nodup := nodup_keys_insert _ _ store.nodup
  filed := by
    intro entry member
    cases mem_of_mem_insert member with
    | inl equal => rw [equal]
    | inr earlier => exact store.filed entry earlier

/-- `FederatedTrustStore::remove`, with whether there was an attestation. -/
def remove (attestationId : String) : Bool × FederatedTrustStore :=
  ((get? attestationId store.byId).isSome,
    { byId := store.byId.filter fun entry => entry.1 ≠ attestationId
      nodup := store.nodup.sublist (filter_sublist.map Prod.fst)
      filed := fun entry member => store.filed entry (mem_of_mem_filter member) })

def list : List FederationAttestation :=
  store.byId.map Prod.snd

end FederatedTrustStore

/-- What `find_for` asks of an attestation. -/
def isActive (actor subjectDomain now : String) (att : FederationAttestation) : Bool :=
  if att.subjectDomain ≠ subjectDomain then false
  else if att.subjectActor.any (· ≠ actor) then false
  else isWithinWindow att.window now

def FederatedTrustStore.findFor (store : FederatedTrustStore) (actor subjectDomain now : String) :
    Option FederationAttestation :=
  store.list.find? (isActive actor subjectDomain now)

structure ForeignIdentityCheck where
  ok : Bool
  reason : Option String := none
  matchedAttestationId : Option String := none
  trustLevels : Option (List String) := none
  scope : Option (List String) := none

section

variable (toolkit : Toolkit) (message signature : Bytes)

/-- One round of the loop over the trust bundle. -/
def entryMatches (entry : TrustBundleEntry) : Bool :=
  if entry.kind ≠ "ed25519" then false
  else
    match standard.decode (Text.utf8 entry.value) with
    | .error _ => false
    | .ok bytes =>
      match Key.ofBytes? bytes with
      | none => false
      | some key =>
        match toolkit.verifyingKey key with
        | .error _ => false
        | .ok () => toolkit.ed25519Check key.bytes message signature

/-- `FederatedTrustStore::verify_foreign`, at the time `clock`.  A signature is parsed when
it has 64 bytes. -/
def verifyForeign (store : FederatedTrustStore) (actor subjectDomain : String)
    (signed : Option (Bytes × Bytes)) (now : Option String) (clock : String) :
    ForeignIdentityCheck :=
  match store.findFor actor subjectDomain (now.getD clock) with
  | none =>
    { ok := false, reason := some s!"no active attestation for {actor} in {subjectDomain}" }
  | some att =>
    let granted : ForeignIdentityCheck :=
      { ok := true
        matchedAttestationId := some att.attestationId
        trustLevels := att.trustLevelsGranted
        scope := att.scope }
    match signed with
    | none => granted
    | some (message, signature) =>
      if signature.length ≠ 64 then
        let e := toolkit.signatureError
        { ok := false
          reason := some s!"foreign sig parse: {e}"
          matchedAttestationId := some att.attestationId }
      else if att.trustBundle.any (entryMatches toolkit message signature) then granted
      else
        { ok := false
          reason := some "no bundle key matched the foreign actor's signature"
          matchedAttestationId := some att.attestationId }

/-! ## Which attestation answers -/

/-- The attestation is about this domain and this actor, at this time. -/
def Active (actor subjectDomain now : String) (att : FederationAttestation) : Prop :=
  att.subjectDomain = subjectDomain ∧
    (att.subjectActor = none ∨ att.subjectActor = some actor) ∧
    att.issuedAt ≤ now ∧ now ≤ att.validUntil

/-- The attestation lists an ed25519 key under which the signature verifies. -/
def Vouches (att : FederationAttestation) : Prop :=
  ∃ entry ∈ att.trustBundle, entry.kind = "ed25519" ∧
    ∃ key : Key, standard.decode (Text.utf8 entry.value) = .ok key.bytes ∧
      toolkit.verifyingKey key = .ok () ∧ signature.length = 64 ∧
      toolkit.ed25519Check key.bytes message signature = true

theorem isWithinWindow_window_iff (att : FederationAttestation) (now : String) :
    isWithinWindow att.window now = true ↔ att.issuedAt ≤ now ∧ now ≤ att.validUntil := by
  have verdict : PacketMode.checkWindow att.window now =
      ((if now < att.issuedAt then some (PacketMode.ExpirationVerdict.notYetValid att.issuedAt)
          else none) <|>
        (if att.validUntil < now then some (PacketMode.ExpirationVerdict.expired att.validUntil)
          else none)).getD .ok := rfl
  rw [isWithinWindow, decide_eq_true_iff, verdict]
  by_cases early : now < att.issuedAt
  · rw [if_pos early]
    exact iff_of_false (by rintro ⟨⟩) fun within => not_lt.mpr within.1 early
  · by_cases late : att.validUntil < now
    · rw [if_neg early, if_pos late]
      exact iff_of_false (by rintro ⟨⟩) fun within => not_lt.mpr within.2 late
    · rw [if_neg early, if_neg late]
      exact iff_of_true rfl ⟨not_lt.mp early, not_lt.mp late⟩

theorem isActive_iff (actor subjectDomain now : String) (att : FederationAttestation) :
    isActive actor subjectDomain now att = true ↔ Active actor subjectDomain now att := by
  unfold isActive Active
  by_cases domain : att.subjectDomain = subjectDomain
  · cases named : att.subjectActor with
    | none => simp [isWithinWindow_window_iff]
    | some subject =>
      by_cases same : subject = actor
      · simp [isWithinWindow_window_iff]
      · simp [same]
  · simp [domain]

theorem entryMatches_iff (entry : TrustBundleEntry) :
    entryMatches toolkit message signature entry = true ↔
      entry.kind = "ed25519" ∧
        ∃ key : Key, standard.decode (Text.utf8 entry.value) = .ok key.bytes ∧
          toolkit.verifyingKey key = .ok () ∧
          toolkit.ed25519Check key.bytes message signature = true := by
  unfold entryMatches
  by_cases kind : entry.kind = "ed25519"
  · cases decoded : standard.decode (Text.utf8 entry.value) with
    | error e => simp
    | ok bytes =>
      by_cases length : bytes.length = 32
      · have parsed : Key.ofBytes? bytes = some ⟨bytes, length⟩ := dif_pos length
        have unique (key : Key) : bytes = key.bytes ↔ key = ⟨bytes, length⟩ := by
          rw [Key.ext_iff, eq_comm]
        simp only [parsed, unique, ok.injEq, exists_eq_left]
        cases toolkit.verifyingKey ⟨bytes, length⟩ with
        | error | ok => simp
      · have refused : Key.ofBytes? bytes = none := dif_neg length
        simp only [kind, refused, ne_eq, not_true_eq_false, if_false, true_and,
          ok.injEq, Bool.false_eq_true, false_iff, not_exists, not_and]
        intro key equal
        exact absurd (equal ▸ key.length) length
  · simp [kind]

theorem any_entryMatches_iff {message signature : Bytes} (length : signature.length = 64)
    (att : FederationAttestation) :
    att.trustBundle.any (entryMatches toolkit message signature) = true ↔
      Vouches toolkit message signature att := by
  simp [entryMatches_iff, Vouches, length]

/-- The answer is that of the first active attestation. -/
theorem verifyForeign_ok_iff (store : FederatedTrustStore) (actor subjectDomain : String)
    (message signature : Bytes) (now : Option String) (clock : String) :
    (verifyForeign toolkit store actor subjectDomain (some (message, signature)) now clock).ok =
        true ↔
      ∃ att, store.findFor actor subjectDomain (now.getD clock) = some att ∧
        Vouches toolkit message signature att := by
  unfold verifyForeign
  cases store.findFor actor subjectDomain (now.getD clock) with
  | none => simp
  | some att =>
    by_cases length : signature.length = 64
    · simp only [length, ne_eq, not_true_eq_false, if_false, Option.some.injEq, exists_eq_left']
      rw [← any_entryMatches_iff toolkit length]
      split <;> simp_all
    · have silent : ¬Vouches toolkit message signature att := by
        rintro ⟨_, _, _, _, _, _, known, _⟩
        exact length known
      simp [length, silent]

namespace FederatedTrustStore

/-- The same map, walked in another order. -/
def Reorders (order store : FederatedTrustStore) : Prop :=
  order.byId.Perm store.byId

theorem mem_list_iff {order store : FederatedTrustStore} (reorders : order.Reorders store)
    (att : FederationAttestation) : att ∈ order.list ↔ att ∈ store.list :=
  (reorders.map Prod.snd).mem_iff

/-- Some order of the map starts with a given attestation. -/
theorem exists_first {store : FederatedTrustStore} {att : FederationAttestation}
    (member : att ∈ store.list) :
    ∃ order : FederatedTrustStore, order.Reorders store ∧ order.list.head? = some att := by
  obtain ⟨entry, listed, equal⟩ := mem_map.mp member
  obtain ⟨before, after, split⟩ := append_of_mem listed
  have perm : (entry :: (before ++ after)).Perm store.byId := by
    rw [split]
    exact perm_middle.symm
  refine ⟨⟨entry :: (before ++ after), ?_, ?_⟩, perm, ?_⟩
  · exact (perm.map Prod.fst).nodup_iff.mpr store.nodup
  · exact fun other present => store.filed other (perm.mem_iff.mp present)
  · rw [← equal]
    rfl

theorem findFor_of_head? {store : FederatedTrustStore} {att : FederationAttestation}
    (first : store.list.head? = some att) {actor subjectDomain now : String}
    (active : Active actor subjectDomain now att) :
    store.findFor actor subjectDomain now = some att := by
  obtain ⟨rest, equal⟩ := head?_eq_some_iff.mp first
  rw [findFor, equal, find?_cons_of_pos ((isActive_iff _ _ _ _).mpr active)]

end FederatedTrustStore

/-- The answer is the same for every order of the map, and says whether some active
attestation vouches for the signature, exactly when the active attestations agree on it. -/
theorem verifyForeign_order_independent_iff (store : FederatedTrustStore)
    (actor subjectDomain : String) (message signature : Bytes) (now : Option String)
    (clock : String) :
    (∀ order : FederatedTrustStore, order.Reorders store →
        ((verifyForeign toolkit order actor subjectDomain (some (message, signature)) now clock).ok =
            true ↔
          ∃ att ∈ store.list, Active actor subjectDomain (now.getD clock) att ∧
            Vouches toolkit message signature att)) ↔
      (∀ att ∈ store.list, Active actor subjectDomain (now.getD clock) att →
          Vouches toolkit message signature att) ∨
        (∀ att ∈ store.list, Active actor subjectDomain (now.getD clock) att →
          ¬Vouches toolkit message signature att) := by
  constructor
  · intro independent
    by_contra disagree
    push Not at disagree
    obtain ⟨⟨silent, listed, active, refuses⟩, ⟨voucher, present, valid, vouches⟩⟩ := disagree
    -- walk the map from the attestation that does not vouch
    obtain ⟨order, reorders, first⟩ := FederatedTrustStore.exists_first listed
    have accepted := (independent order reorders).mpr ⟨voucher, present, valid, vouches⟩
    obtain ⟨att, found, accepts⟩ := (verifyForeign_ok_iff toolkit _ _ _ _ _ _ _).mp accepted
    rw [FederatedTrustStore.findFor_of_head? first active] at found
    cases Option.some.inj found
    exact refuses accepts
  · intro agree order reorders
    rw [verifyForeign_ok_iff]
    constructor
    · rintro ⟨att, found, vouches⟩
      refine ⟨att, ?_, ?_, vouches⟩
      · exact (FederatedTrustStore.mem_list_iff reorders att).mp (mem_of_find?_eq_some found)
      · exact (isActive_iff _ _ _ _).mp (find?_some found)
    · rintro ⟨att, listed, active, vouches⟩
      have present := (FederatedTrustStore.mem_list_iff reorders att).mpr listed
      have some := find?_isSome.mpr ⟨att, present, (isActive_iff _ _ _ _).mpr active⟩
      obtain ⟨first, found⟩ := Option.isSome_iff_exists.mp some
      have listedFirst :=
        (FederatedTrustStore.mem_list_iff reorders first).mp (mem_of_find?_eq_some found)
      have activeFirst := (isActive_iff _ _ _ _).mp (find?_some found)
      cases agree with
      | inl all => exact ⟨first, found, all first listedFirst activeFirst⟩
      | inr none => exact absurd vouches (none att listed active)

/-! ## Changing stores -/

inductive Change where
  | add (att : FederationAttestation)
  | remove (attestationId : String)

/-- The identifier a change is about, and what it leaves under it. -/
def Change.outcome : Change → String × Option FederationAttestation
  | .add att => (att.attestationId, some att)
  | .remove attestationId => (attestationId, none)

def FederatedTrustStore.change (store : FederatedTrustStore) : Change → FederatedTrustStore
  | .add att => store.add att
  | .remove attestationId => (store.remove attestationId).2

/-- The last change under its identifier has added the attestation. -/
def Standing (changes : List Change) (att : FederationAttestation) : Prop :=
  (changes.reverse.find? (·.outcome.1 = att.attestationId)).bind (·.outcome.2) = some att

theorem get?_changes (changes : List Change) (id : String) :
    get? id (changes.foldl .change .new : FederatedTrustStore).byId =
      (changes.reverse.find? (·.outcome.1 = id)).bind (·.outcome.2) := by
  have get?_change (store : FederatedTrustStore) (last : Change) :
      get? id (store.change last).byId =
        if last.outcome.1 = id then last.outcome.2 else get? id store.byId := by
    cases last with
    | add att => exact get?_insert ..
    | remove gone => exact get?_erase ..
  induction changes using reverseRecOn with
  | nil => rfl
  | append_singleton changes last ih =>
    rw [foldl_concat, get?_change, ih, reverse_concat, find?_cons]
    split <;> simp [*]

/-- After any changes the store lists what stands. -/
theorem mem_list_changes_iff (changes : List Change) (att : FederationAttestation) :
    att ∈ (changes.foldl .change .new : FederatedTrustStore).list ↔ Standing changes att := by
  generalize whole : changes.foldl FederatedTrustStore.change .new = store
  rw [Standing, ← get?_changes, whole, get?_eq_some_iff_of_nodup _ store.nodup,
    FederatedTrustStore.list, mem_map]
  constructor
  · rintro ⟨entry, member, rfl⟩
    rwa [← store.filed entry member]
  · intro member
    exact ⟨_, member, rfl⟩

/-- Whatever was added and removed, and in whatever order the map is walked: without a signature
an actor passes exactly if an attestation that stands is active for it, and with one only if such
an attestation vouches for it. -/
theorem verifyForeign_changes (changes : List Change) {order : FederatedTrustStore}
    (reorders : order.Reorders (changes.foldl .change .new)) (actor subjectDomain : String)
    (now : Option String) (clock : String) :
    ((verifyForeign toolkit order actor subjectDomain none now clock).ok = true ↔
      ∃ att, Standing changes att ∧ Active actor subjectDomain (now.getD clock) att) ∧
    ((verifyForeign toolkit order actor subjectDomain (some (message, signature)) now clock).ok =
        true →
      ∃ att, Standing changes att ∧ Active actor subjectDomain (now.getD clock) att ∧
        Vouches toolkit message signature att) := by
  simp only [← mem_list_changes_iff, ← FederatedTrustStore.mem_list_iff reorders, ← isActive_iff]
  constructor
  · rw [← find?_isSome, ← FederatedTrustStore.findFor, verifyForeign]
    split <;> simp [*]
  · rw [verifyForeign_ok_iff]
    rintro ⟨att, found, vouches⟩
    exact ⟨att, mem_of_find?_eq_some found, find?_some found, vouches⟩

end

/-- An attestation that lists one key for a whole domain, for a day. -/
def sampleAttestation (id : String) (key : Key) : FederationAttestation where
  attestationVersion := "1"
  attestationId := id
  issuerDomain := "home.example"
  subjectDomain := "partner.example"
  subjectActor := none
  scope := none
  trustLevelsGranted := none
  trustBundle := [⟨"ed25519", standard.encode key.bytes, none⟩]
  constraints := none
  issuedAt := "2026-01-01T00:00:00Z"
  validUntil := "2026-01-02T00:00:00Z"
  issuer := "tf:actor:service:home.example/ca"
  signature := ⟨"ed25519", "tf:actor:service:home.example/ca", ""⟩

/-- Of two attestations one is removed, and the other one removed and added again. -/
theorem verifyForeign_changes_add :
    let again := sampleAttestation "fed-1" (.filled [1])
    let changes : List Change := [.add again, .add (sampleAttestation "fed-2" (.filled [2])),
      .remove "fed-1", .remove "fed-2", .add again]
    (verifyForeign Signing.transparent (changes.foldl .change .new) "ada" "partner.example" none
      none "2026-01-01T12:00:00Z").ok = true := by
  intro again changes
  apply (verifyForeign_changes Signing.transparent [] [] changes (.refl _) _ _ _ _).1.mpr
  exact ⟨again, rfl, (isActive_iff _ _ _ _).mp (by decide)⟩

theorem verify_signFederationAttestation_sample :
    ∃ att, signFederationAttestation Signing.transparent
        ⟨"fed-1", "home", "partner", none, none, none, [⟨"ed25519", "", none⟩], none, none,
          "2026-01-02", "ca", .filled [1]⟩ "2026-01-01" = .ok att ∧
      verifyFederationAttestation Signing.transparent att
        (Signing.transparent.ed25519Public (.filled [1])) none "2026-01-01" = .ok () :=
  ⟨_, if_neg (by decide), verify_signFederationAttestation Signing.transparent
    (if_neg (by decide)) (by decide +kernel)⟩

/-- Two attestations for one domain, of which the second lists the key of the signature: it
is refused or accepted by the order in which the two are found. -/
theorem verifyForeign_depends_on_order :
    let known := sampleAttestation "fed-2" (.filled [2])
    let store := (FederatedTrustStore.new.add (sampleAttestation "fed-1" (.filled [1]))).add known
    let other := (FederatedTrustStore.new.add known).add (sampleAttestation "fed-1" (.filled [1]))
    let signature := Signing.transparent.ed25519Sign (.filled [2]) [104, 105]
    let ask := fun order => (verifyForeign Signing.transparent order
      "tf:actor:human:partner.example/ada" "partner.example" (some ([104, 105], signature))
      (some "2026-01-01T12:00:00Z") "").ok
    other.Reorders store ∧ ask store = false ∧ ask other = true := by
  refine ⟨List.Perm.swap _ _ _, ?_, ?_⟩
  · decide +kernel
  · decide +kernel

end TrustForge.Federation
