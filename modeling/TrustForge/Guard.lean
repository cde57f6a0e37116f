import TrustForge.Glob
import TrustForge.Json.Value

/-!
# Agent guard

Model of `guard.rs`: an agent contract is indexed once and then answers guard
queries.  `checkRaw` is cut along the source's own sections into stages that may
each end the check with a denial, followed by the verdict for an action that
passed all of them.
-/

namespace TrustForge.Guard

open AssocMap Option
open Json (Value)

inductive GuardDecision where
  | allow (dangerTags : List String)
  | approvalRequired (approval reason : String) (dangerTags : List String)
  | escalate (reason : String) (dangerTags : List String)
  | deny (reason : String) (dangerTags : List String)
  | logOnly (reason : String) (dangerTags : List String)
  deriving Repr, DecidableEq

namespace GuardDecision

def kind : GuardDecision → String
  | .allow _ => "allow"
  | .approvalRequired _ _ _ => "approval-required"
  | .escalate _ _ => "escalate"
  | .deny _ _ => "deny"
  | .logOnly _ _ => "log-only"

def dangerTags : GuardDecision → List String
  | .allow tags => tags
  | .approvalRequired _ _ tags => tags
  | .escalate _ tags => tags
  | .deny _ tags => tags
  | .logOnly _ tags => tags

def isDeny : GuardDecision → Bool
  | .deny _ _ => true
  | _ => false

end GuardDecision

inductive EnforcementLevel where
  | e0 | e1 | e2 | e3 | e4 | e5
  deriving Repr, DecidableEq

def EnforcementLevel.asStr : EnforcementLevel → String
  | .e0 => "E0"
  | .e1 => "E1"
  | .e2 => "E2"
  | .e3 => "E3"
  | .e4 => "E4"
  | .e5 => "E5"

structure NegativeCapability where
  name : String
  target : Option String
  reason : Option String
  overrides : Option (List String)
  deriving Repr, DecidableEq

structure GuardQuery where
  /-- Key-derived caller URI. -/
  actor : Option String
  /-- Self-claimed URI, advisory. -/
  actorClaim : Option String
  action : String
  target : Option String
  deriving Repr, DecidableEq

structure GuardEventStub where
  kind : String
  actor : String
  action : String
  target : Option String
  decision : String
  dangerTags : List String
  enforcementLevel : Option String
  deriving Repr, DecidableEq

structure IndexedAction where
  name : String
  approval : Option String
  dangerTags : List String
  allowTargets : List String
  denyTargets : List String
  allowActors : List String
  denyActors : List String
  deriving Repr, DecidableEq

/-- `join(", ")`. -/
def commaJoined (tags : List String) : String :=
  String.intercalate ", " tags

def escalateTags : List String :=
  ["destructive", "irreversible", "financial", "security-sensitive", "legal-exposure"]

/-- `AgentGuard`.  The listener is a callback; only its presence matters here. -/
structure AgentGuard where
  actionByName : List (String × IndexedAction)
  forbiddenByName : List (String × String)
  targetSets : List (String × List String)
  listening : Bool
  enforcementLevel : EnforcementLevel
  negativeCapabilities : List NegativeCapability

/-! ## Indexing a contract -/

/-- A field read as an array, empty when it is absent or of another type. -/
def arrayField (key : String) (value : Value) : List Value :=
  ((value.get? key).bind Value.asArray).getD []

/-- A field read as a string, empty when it is absent or of another type. -/
def stringField (key : String) (value : Value) : String :=
  ((value.get? key).bind Value.asStr).getD ""

/-- A field read as an array of strings; other elements are skipped. -/
def stringArrayField (key : String) (value : Value) : List String :=
  (arrayField key value).filterMap Value.asStr

/-- One entry of the contract's `actions`. -/
def indexAction (a : Value) : IndexedAction where
  name := stringField "name" a
  approval := (a.get? "approval").bind Value.asStr
  dangerTags := stringArrayField "danger_tags" a
  allowTargets := stringArrayField "allow_targets" a
  denyTargets := stringArrayField "deny_targets" a
  allowActors := stringArrayField "allow_actors" a
  denyActors := stringArrayField "deny_actors" a

/-- The named target sets, skipping those that are not arrays. -/
def indexTargetSets (contract : Value) : List (String × List String) :=
  match contract.get? "target_sets" with
  | some (.object entries) => ofPairs (entries.filterMap fun entry =>
    entry.2.asArray.map fun arr => (entry.1, arr.filterMap Value.asStr))
  | _ => []

/-- `AgentGuard::from_contract`.  A later entry of one name replaces the earlier. -/
def AgentGuard.fromContract (contract : Value) : AgentGuard where
  actionByName := ofPairs ((arrayField "actions" contract).map fun a =>
    ((indexAction a).name, indexAction a))
  forbiddenByName := ofPairs ((arrayField "forbidden" contract).map fun f =>
    (stringField "action" f, stringField "reason" f))
  targetSets := indexTargetSets contract
  listening := false
  enforcementLevel := .e4
  negativeCapabilities := []

def AgentGuard.setNegativeCapabilities (guard : AgentGuard)
    (caps : List NegativeCapability) : AgentGuard :=
  { guard with negativeCapabilities := caps }

/-! ## The check -/

/-- The target half of `negative_matches`, shared by both engines. -/
def targetCovered (pattern target : Option String) : Bool :=
  match pattern with
  | none => true
  | some targetPattern =>
    match target with
    | none => false
    | some queryTarget => globMatch targetPattern queryTarget

/-- `negative_matches` of `guard.rs`: the action name is matched as a glob. -/
def negativeMatches (neg : NegativeCapability) (q : GuardQuery) : Bool :=
  if globMatch neg.name q.action then targetCovered neg.target q.target else false

namespace AgentGuard

variable (guard : AgentGuard)

def matchTarget (pattern value : String) : Bool :=
  match pattern.toList with
  | '@' :: rest =>
    match get? (String.ofList rest) guard.targetSets with
    | none => false
    | some set => set.any fun p => globMatch p value
  | _ => globMatch pattern value

variable (query : GuardQuery)

/-- The first negative capability that matches denies. -/
def negativeDenial : Option GuardDecision :=
  (guard.negativeCapabilities.find? fun neg => negativeMatches neg query).map fun neg =>
    .deny (neg.reason.getD s!"action {query.action} is denied by negative_capability")
      ["explicit-denial"]

/-- Actions the contract forbids by name. -/
def forbiddenDenial : Option GuardDecision :=
  (get? query.action guard.forbiddenByName).map fun reason =>
    .deny (if reason.isEmpty then "action listed in forbidden" else reason) []

/-- A deny list before an allow list: the first denied pattern refuses, and so does an
allow list that is not empty and has no pattern that hits. -/
def scopeDenial (deny allow : List String) (hit : String → Bool)
    (denied : String → GuardDecision) (missed : GuardDecision) : Option GuardDecision :=
  match deny.find? hit with
  | some pattern => some (denied pattern)
  | none => if !allow.isEmpty && !allow.any hit then some missed else none

/-- A pattern hits the key-derived actor or, when there is one, the claim. -/
def actorHit (actor pattern : String) : Bool :=
  globMatch pattern actor ||
    (query.actorClaim.map fun c => globMatch pattern c).getD false

variable (action : IndexedAction)

/-- Caller scope.  Without an actor only the allow list is looked at. -/
def actorDenial (query : GuardQuery) : Option GuardDecision :=
  match query.actor with
  | some actor =>
    scopeDenial action.denyActors action.allowActors (actorHit query actor)
      (fun pattern => .deny s!"actor {actor} matches deny_actors ({pattern})"
        action.dangerTags)
      (.deny s!"actor {actor} not in allow_actors" action.dangerTags)
  | none =>
    if !action.allowActors.isEmpty then
      some (.deny s!"action {action.name} requires an authenticated actor" action.dangerTags)
    else none

/-- Target scope.  The source looks at it only for queries with a target. -/
def targetDenial (query : GuardQuery) :
    Option GuardDecision :=
  match query.target with
  | some target =>
    scopeDenial action.denyTargets action.allowTargets (guard.matchTarget · target)
      (fun pattern => .deny s!"target {target} is in deny_targets ({pattern})"
        action.dangerTags)
      (.deny s!"target {target} is not in allow_targets" action.dangerTags)
  | none => none

/-- What an action that passed every scope gets: escalation tags come before the
approval mode. -/
def verdict (query : GuardQuery) : GuardDecision :=
  let escalating := commaJoined (action.dangerTags.filter fun t => escalateTags.contains t)
  if action.dangerTags.any fun t => escalateTags.contains t then
    .escalate s!"danger_tags require escalation: {escalating}" action.dangerTags
  else
    match action.approval with
    | some approval =>
      if approval = "required" ∨ approval = "quorum" then
        .approvalRequired approval s!"action \"{query.action}\" requires approval"
          action.dangerTags
      else .allow action.dangerTags
    | none => .allow action.dangerTags

def checkRaw : GuardDecision :=
  match guard.negativeDenial query with
  | some denial => denial
  | none =>
    match guard.forbiddenDenial query with
    | some denial => denial
    | none =>
      match get? query.action guard.actionByName with
      | none => .deny s!"action \"{query.action}\" is not declared" []
      | some action =>
        match actorDenial action query with
        | some denial => denial
        | none =>
          match guard.targetDenial action query with
          | some denial => denial
          | none => verdict action query

end AgentGuard

/-! ## Enforcement levels -/

def tagDecision (d : GuardDecision) (tag : String) : GuardDecision :=
  match d with
  | .allow tags => .allow (tags ++ [tag])
  | .approvalRequired approval reason tags => .approvalRequired approval reason (tags ++ [tag])
  | .escalate reason tags => .escalate reason (tags ++ [tag])
  | .deny reason tags => .deny reason (tags ++ [tag])
  | .logOnly reason tags => .logOnly reason (tags ++ [tag])

/-- The E0 branch: observe only. -/
def shadowed (reason : String) (tags : List String) : GuardDecision :=
  .logOnly s!"[shadow] would have decided: {reason}" (tags ++ ["shadow"])

def applyEnforcementLevel (raw : GuardDecision) : EnforcementLevel → GuardDecision
  | .e0 =>
    match raw with
    | .deny reason tags => shadowed reason tags
    | .escalate reason tags => shadowed reason tags
    | .approvalRequired _ reason tags => shadowed reason tags
    | other => other
  | .e1 =>
    match raw with
    | .deny reason tags => .allow (tags ++ ["warn"] ++ [s!"would-deny:{reason}"])
    | .escalate reason tags => .logOnly s!"[warn] {reason}" (tags ++ ["warn"])
    | other => other
  | .e2 => tagDecision raw "proof-log-required"
  | .e3 =>
    match raw with
    | .allow tags =>
      if tags.isEmpty then .allow tags
      else
        let listed := commaJoined tags
        .escalate s!"E3 escalates allow with danger tags: {listed}" tags
    | other => other
  | .e4 => raw
  | .e5 =>
    match raw with
    | .escalate reason tags => .deny s!"E5 fail-closed: {reason}" tags
    | .approvalRequired _ reason tags => .deny s!"E5 fail-closed: {reason}" tags
    | .allow tags =>
      if tags.isEmpty then .allow tags
      else
        let listed := commaJoined tags
        .deny s!"E5 fail-closed: allow with danger tags {listed} blocked" tags
    | other => other

/-- `AgentGuard::check`, with the event handed to the listener when there is one. -/
def AgentGuard.check (guard : AgentGuard) (query : GuardQuery) :
    GuardDecision × Option GuardEventStub :=
  let adjusted := applyEnforcementLevel (guard.checkRaw query) guard.enforcementLevel
  let event : GuardEventStub :=
    { kind := "guard.check"
      actor := query.actor.getD "tf:actor:process:local/unknown"
      action := query.action
      target := query.target
      decision := adjusted.kind
      dangerTags := adjusted.dangerTags
      enforcementLevel := some guard.enforcementLevel.asStr }
  (adjusted, if guard.listening then some event else none)

/-! ## What an action that is not denied has passed -/

/-- The patterns of a scope let a value through. -/
def Passes (deny allow : List String) (hit : String → Bool) : Prop :=
  (∀ p ∈ deny, hit p = false) ∧ (allow ≠ [] → ∃ p ∈ allow, hit p = true)

namespace AgentGuard

theorem scopeDenial_eq_none_iff (deny allow : List String) (hit : String → Bool)
    (denied : String → GuardDecision) (missed : GuardDecision) :
    scopeDenial deny allow hit denied missed = none ↔ Passes deny allow hit := by
  unfold scopeDenial Passes
  cases found : deny.find? hit with
  | some pattern =>
    have member := List.mem_of_find?_eq_some found
    have hits := List.find?_some found
    simp only [reduceCtorEq, false_iff, not_and]
    intro clear
    rw [clear pattern member] at hits
    contradiction
  | none =>
    have clear : ∀ p ∈ deny, hit p = false := by
      intro p member
      simpa using List.find?_eq_none.mp found p member
    simp only [ite_eq_right_iff, reduceCtorEq, imp_false, Bool.and_eq_true, Bool.not_eq_eq_eq_not,
      Bool.not_true, not_and, List.isEmpty_eq_false_iff, Bool.not_eq_false, List.any_eq_true]
    constructor
    · intro allowed
      exact ⟨clear, allowed⟩
    · intro passes
      exact passes.2

variable (guard : AgentGuard) (action : IndexedAction) (query : GuardQuery)

/-- The caller is let through: its actor passes both lists, or there is no actor and
no allow list. -/
def ActorPasses : Prop :=
  match query.actor with
  | some actor => Passes action.denyActors action.allowActors (actorHit query actor)
  | none => action.allowActors = []

theorem negativeDenial_eq_none_iff :
    guard.negativeDenial query = none ↔
      ∀ neg ∈ guard.negativeCapabilities, negativeMatches neg query = false := by
  simp [negativeDenial]

theorem forbiddenDenial_eq_none_iff :
    guard.forbiddenDenial query = none ↔
      get? query.action guard.forbiddenByName = none := by
  simp [forbiddenDenial]

theorem actorDenial_eq_none_iff :
    actorDenial action query = none ↔ ActorPasses action query := by
  unfold actorDenial ActorPasses
  cases query.actor with
  | none => simp
  | some actor => apply scopeDenial_eq_none_iff

theorem targetDenial_eq_none_iff :
    guard.targetDenial action query = none ↔
      ∀ target, query.target = some target →
        Passes action.denyTargets action.allowTargets (guard.matchTarget · target) := by
  unfold targetDenial
  cases query.target with
  | none => simp
  | some target => simp [scopeDenial_eq_none_iff]

/-! Every early exit of the check is a denial, the verdict never is. -/

theorem scopeDenial_isDeny {deny allow : List String} {hit : String → Bool}
    {denied : String → GuardDecision} {missed denial : GuardDecision}
    (deniedIs : ∀ pattern, (denied pattern).isDeny = true) (missedIs : missed.isDeny = true)
    (exited : scopeDenial deny allow hit denied missed = some denial) :
    denial.isDeny = true := by
  unfold scopeDenial at exited
  cases found : deny.find? hit with
  | some pattern =>
    simp only [found, some.injEq] at exited
    subst exited
    exact deniedIs pattern
  | none =>
    simp only [found, ite_none_right_eq_some, some.injEq] at exited
    rcases exited with ⟨_, equal⟩
    subst equal
    exact missedIs

variable {denial : GuardDecision}

theorem negativeDenial_isDeny (exited : guard.negativeDenial query = some denial) :
    denial.isDeny = true := by
  rcases map_eq_some_iff.mp exited with ⟨neg, _, equal⟩
  subst equal
  rfl

theorem forbiddenDenial_isDeny (exited : guard.forbiddenDenial query = some denial) :
    denial.isDeny = true := by
  rcases map_eq_some_iff.mp exited with ⟨reason, _, equal⟩
  subst equal
  rfl

theorem actorDenial_isDeny (exited : actorDenial action query = some denial) :
    denial.isDeny = true := by
  unfold actorDenial at exited
  cases present : query.actor with
  | some actor =>
    rw [present] at exited
    exact scopeDenial_isDeny (fun _ => rfl) rfl exited
  | none =>
    simp only [present, ite_none_right_eq_some, some.injEq] at exited
    rcases exited with ⟨_, equal⟩
    subst equal
    rfl

theorem targetDenial_isDeny (exited : guard.targetDenial action query = some denial) :
    denial.isDeny = true := by
  unfold targetDenial at exited
  cases present : query.target with
  | some target =>
    rw [present] at exited
    exact scopeDenial_isDeny (fun _ => rfl) rfl exited
  | none =>
    rw [present] at exited
    contradiction

theorem verdict_isDeny : (verdict action query).isDeny = false := by
  unfold verdict
  split
  · rfl
  · cases action.approval with
    | none => rfl
    | some approval =>
      simp only
      split <;> rfl

/-- A declared action is not denied exactly when every stage lets it pass. -/
theorem checkRaw_isDeny_eq_false_iff
    (declared : get? query.action guard.actionByName = some action) :
    (guard.checkRaw query).isDeny = false ↔
      guard.negativeDenial query = none ∧ guard.forbiddenDenial query = none ∧
      actorDenial action query = none ∧ guard.targetDenial action query = none := by
  unfold checkRaw
  cases negative : guard.negativeDenial query with
  | some denial => simp [negativeDenial_isDeny guard query negative]
  | none =>
    cases forbidden : guard.forbiddenDenial query with
    | some denial => simp [forbiddenDenial_isDeny guard query forbidden]
    | none =>
      simp only [declared]
      cases actor : actorDenial action query with
      | some denial => simp [actorDenial_isDeny action query actor]
      | none =>
        cases target : guard.targetDenial action query with
        | some denial => simp [targetDenial_isDeny guard action query target]
        | none => simp [verdict_isDeny]

/-! ## Target confinement -/

/-- What an allow list of targets is for: an action that is not denied carries a
target that some allowed pattern and no denied pattern matches. -/
def TargetConfined : Prop :=
  (guard.checkRaw query).isDeny = false →
    ∃ target, query.target = some target ∧
      (∃ p ∈ action.allowTargets, guard.matchTarget p target = true) ∧
      ∀ p ∈ action.denyTargets, guard.matchTarget p target = false

/-- Among declared actions with an allow list the confinement fails exactly for
queries without a target that no earlier stage denies. -/
theorem targetConfined_iff (declared : get? query.action guard.actionByName = some action)
    (restricted : action.allowTargets ≠ []) :
    TargetConfined guard action query ↔
      query.target ≠ none ∨
      (∃ neg ∈ guard.negativeCapabilities, negativeMatches neg query = true) ∨
      get? query.action guard.forbiddenByName ≠ none ∨
      ¬ActorPasses action query := by
  unfold TargetConfined
  rw [checkRaw_isDeny_eq_false_iff guard action query declared, negativeDenial_eq_none_iff,
    forbiddenDenial_eq_none_iff, actorDenial_eq_none_iff, targetDenial_eq_none_iff]
  cases present : query.target with
  | some target =>
    simp only [some.injEq, forall_eq', ne_eq, reduceCtorEq, not_false_eq_true, true_or,
      iff_true]
    intro passed
    rcases passed with ⟨_, _, _, clear, allowed⟩
    exact ⟨target, rfl, allowed restricted, clear⟩
  | none =>
    simp only [reduceCtorEq, false_implies, implies_true, and_true, false_and, exists_false,
      ne_eq, not_true_eq_false, false_or]
    constructor
    · intro refused
      by_contra none
      apply refused
      simpa [not_or] using none
    · intro reasons passed
      rcases passed with ⟨noNegative, notForbidden, actorPasses⟩
      rcases reasons with ⟨neg, member, matched⟩ | forbidden | refused
      · rw [noNegative neg member] at matched
        contradiction
      · exact forbidden notForbidden
      · exact refused actorPasses

/-! ## Denied actors -/

/-- Some identity the query carries, key-derived or claimed, matches a denied pattern. -/
def ActorDenied : Prop :=
  ∃ p ∈ action.denyActors, ∃ identity,
    (query.actor = some identity ∨ query.actorClaim = some identity) ∧
      globMatch p identity = true

/-- What a deny list of actors is for. -/
def DeniedActorsRefused : Prop :=
  ActorDenied action query → (guard.checkRaw query).isDeny = true

/-- The two identities are looked at together, whichever of them matches. -/
theorem exists_actorHit_iff {actor : String} (present : query.actor = some actor) :
    ActorDenied action query ↔ ∃ p ∈ action.denyActors, actorHit query actor p = true := by
  unfold ActorDenied
  constructor
  · intro denied
    rcases denied with ⟨p, member, identity, carried, hits⟩
    refine ⟨p, member, ?_⟩
    rcases carried with asActor | asClaim
    · rw [present, some.injEq] at asActor
      subst asActor
      simp [actorHit, hits]
    · simp [actorHit, asClaim, hits]
  · intro hit
    rcases hit with ⟨p, member, hits⟩
    rw [actorHit, Bool.or_eq_true] at hits
    rcases hits with byActor | byClaim
    · exact ⟨p, member, actor, .inl present, byActor⟩
    · cases claim : query.actorClaim with
      | none => simp [claim] at byClaim
      | some identity =>
        rw [claim] at byClaim
        exact ⟨p, member, identity, .inr rfl, byClaim⟩

/-- A key-derived actor makes the deny list effective for both identities. -/
theorem not_actorPasses_of_actorDenied {actor : String} (present : query.actor = some actor)
    (denied : ActorDenied action query) : ¬ActorPasses action query := by
  unfold ActorPasses
  rw [present]
  intro passes
  rcases (exists_actorHit_iff action query present).mp denied with ⟨p, member, hits⟩
  rw [passes.1 p member] at hits
  contradiction

/-- Among declared actions a denied actor gets through exactly when the query has only
the claimed identity, the action has no allow list of actors, and no other stage denies. -/
theorem deniedActorsRefused_iff (declared : get? query.action guard.actionByName = some action) :
    DeniedActorsRefused guard action query ↔
      query.actor ≠ none ∨
      ¬ActorDenied action query ∨
      (∃ neg ∈ guard.negativeCapabilities, negativeMatches neg query = true) ∨
      get? query.action guard.forbiddenByName ≠ none ∨
      action.allowActors ≠ [] ∨
      ∃ target, query.target = some target ∧
        ¬Passes action.denyTargets action.allowTargets (guard.matchTarget · target) := by
  have notDenied := checkRaw_isDeny_eq_false_iff guard action query declared
  rw [negativeDenial_eq_none_iff, forbiddenDenial_eq_none_iff, actorDenial_eq_none_iff,
    targetDenial_eq_none_iff] at notDenied
  unfold DeniedActorsRefused
  rw [← Bool.not_eq_false, notDenied]
  cases present : query.actor with
  | some actor =>
    simp only [ne_eq, reduceCtorEq, not_false_eq_true, true_or, iff_true]
    intro denied passed
    exact not_actorPasses_of_actorDenied action query present denied passed.2.2.1
  | none =>
    have passes : ActorPasses action query ↔ action.allowActors = [] := by
      unfold ActorPasses
      rw [present]
    rw [passes]
    constructor
    · intro refused
      by_contra none
      simp only [ne_eq, not_true_eq_false, false_or, not_or, not_not, not_exists, not_and,
        Bool.not_eq_true] at none
      rcases none with ⟨denied, noNegative, notForbidden, unrestricted, targetPasses⟩
      exact refused denied ⟨noNegative, notForbidden, unrestricted, targetPasses⟩
    · intro reasons denied passed
      rcases passed with ⟨noNegative, notForbidden, unrestricted, targetPasses⟩
      rcases reasons with actor | clear | ⟨neg, member, matched⟩ | forbidden | restricted |
        ⟨target, carried, refused⟩
      · exact actor rfl
      · exact clear denied
      · rw [noNegative neg member] at matched
        contradiction
      · exact forbidden notForbidden
      · exact restricted unrestricted
      · exact refused (targetPasses target carried)

end AgentGuard

/-- A contract whose only action may touch files below `repo/src`. -/
def sourceTreeContract : Value :=
  .object [("actions", .array [.object
    [("name", .string "fs.write"), ("allow_targets", .array [.string "repo/src/**"])]])]

theorem AgentGuard.targetConfined_sourceTree :
    let guard := AgentGuard.fromContract sourceTreeContract
    let query : GuardQuery := ⟨none, none, "fs.write", some "repo/src/lib.rs"⟩
    let action : IndexedAction := ⟨"fs.write", none, [], ["repo/src/**"], [], [], []⟩
    TargetConfined guard action query :=
  (targetConfined_iff _ _ _ (by decide) (by decide)).mpr (.inl (by decide))

/-- A query for the action without a target is allowed. -/
theorem AgentGuard.missing_target_escapes :
    let guard := AgentGuard.fromContract sourceTreeContract
    let query : GuardQuery := ⟨none, none, "fs.write", none⟩
    let action : IndexedAction := ⟨"fs.write", none, [], ["repo/src/**"], [], [], []⟩
    get? query.action guard.actionByName = some action ∧
      guard.checkRaw query = .allow [] ∧ ¬TargetConfined guard action query := by
  refine ⟨by decide, by decide, ?_⟩
  intro confined
  rcases confined (by decide) with ⟨target, present, _⟩
  contradiction

/-- A contract whose only action refuses one agent. -/
def noMalloryContract : Value :=
  .object [("actions", .array [.object
    [("name", .string "fs.write"), ("deny_actors", .array [.string "tf:actor:agent:mallory"])]])]

theorem AgentGuard.deniedActorsRefused_mallory :
    let guard := AgentGuard.fromContract noMalloryContract
    let query : GuardQuery := ⟨some "tf:actor:process:key/00", some "tf:actor:agent:mallory",
      "fs.write", none⟩
    let action : IndexedAction :=
      ⟨"fs.write", none, [], [], [], [], ["tf:actor:agent:mallory"]⟩
    DeniedActorsRefused guard action query :=
  (deniedActorsRefused_iff _ _ _ (by decide)).mpr (.inl (by decide))

/-- The refused agent's claim alone, without a key-derived actor, is allowed. -/
theorem AgentGuard.claimed_actor_escapes :
    let guard := AgentGuard.fromContract noMalloryContract
    let query : GuardQuery := ⟨none, some "tf:actor:agent:mallory", "fs.write", none⟩
    let action : IndexedAction :=
      ⟨"fs.write", none, [], [], [], [], ["tf:actor:agent:mallory"]⟩
    get? query.action guard.actionByName = some action ∧
      ActorDenied action query ∧ guard.checkRaw query = .allow [] ∧
      ¬DeniedActorsRefused guard action query := by
  have denied : ActorDenied
      ⟨"fs.write", none, [], [], [], [], ["tf:actor:agent:mallory"]⟩
      ⟨none, some "tf:actor:agent:mallory", "fs.write", none⟩ :=
    ⟨_, List.mem_singleton_self _, _, .inr rfl, by decide⟩
  refine ⟨by decide, denied, by decide, ?_⟩
  intro refused
  have isDeny := refused denied
  revert isDeny
  decide

/-! ## Added restrictions -/

namespace AgentGuard

/-- One restriction is added to the configuration of a guard, at any place of its list. -/
inductive Restricted : AgentGuard → AgentGuard → Prop where
  | negativeCapability (guard : AgentGuard) (neg : NegativeCapability)
      (front back : List NegativeCapability)
      (listed : guard.negativeCapabilities = front ++ back) :
      Restricted guard { guard with negativeCapabilities := front ++ neg :: back }
  | forbidden (guard : AgentGuard) (name reason : String) :
      Restricted guard
        { guard with forbiddenByName := insert name reason guard.forbiddenByName }
  | denyActors (guard : AgentGuard) (name pattern : String) (action : IndexedAction)
      (front back : List String)
      (declared : get? name guard.actionByName = some action)
      (listed : action.denyActors = front ++ back) :
      Restricted guard { guard with
        actionByName := insert name
          { action with denyActors := front ++ pattern :: back } guard.actionByName }
  | denyTargets (guard : AgentGuard) (name pattern : String) (action : IndexedAction)
      (front back : List String)
      (declared : get? name guard.actionByName = some action)
      (listed : action.denyTargets = front ++ back) :
      Restricted guard { guard with
        actionByName := insert name
          { action with denyTargets := front ++ pattern :: back } guard.actionByName }

/-- A query gets past every stage and is answered with the verdict of its action. -/
def Reaches (guard : AgentGuard) (query : GuardQuery) (decision : GuardDecision) : Prop :=
  ∃ action, get? query.action guard.actionByName = some action ∧
    (∀ neg ∈ guard.negativeCapabilities, negativeMatches neg query = false) ∧
    get? query.action guard.forbiddenByName = none ∧
    ActorPasses action query ∧
    (∀ target, query.target = some target →
      Passes action.denyTargets action.allowTargets (guard.matchTarget · target)) ∧
    verdict action query = decision

variable {query : GuardQuery} {decision : GuardDecision}

theorem checkRaw_of_reaches {guard : AgentGuard} (reaches : Reaches guard query decision) :
    guard.checkRaw query = decision := by
  obtain ⟨action, declared, negative, forbidden, actor, target, verdictEq⟩ := reaches
  rw [← negativeDenial_eq_none_iff] at negative
  rw [← forbiddenDenial_eq_none_iff] at forbidden
  rw [← actorDenial_eq_none_iff] at actor
  rw [← targetDenial_eq_none_iff] at target
  simp only [checkRaw, negative, forbidden, declared, actor, target, verdictEq]

/-- A check ends in a denial or in the verdict of a declared action. -/
theorem checkRaw_cases (guard : AgentGuard) (query : GuardQuery) :
    (guard.checkRaw query).kind = "deny" ∨ Reaches guard query (guard.checkRaw query) := by
  have kindOf {decision : GuardDecision} (denies : decision.isDeny = true) :
      decision.kind = "deny" := by
    cases decision with
    | deny reason tags => rfl
    | allow | approvalRequired | escalate | logOnly => contradiction
  cases declared : get? query.action guard.actionByName with
  | none =>
    refine .inl (kindOf ?_)
    unfold checkRaw
    cases negative : guard.negativeDenial query with
    | some denial => exact negativeDenial_isDeny guard query negative
    | none =>
      cases forbidden : guard.forbiddenDenial query with
      | some denial => exact forbiddenDenial_isDeny guard query forbidden
      | none => simp only [declared]; rfl
  | some action =>
    cases denies : (guard.checkRaw query).isDeny with
    | true => exact .inl (kindOf denies)
    | false =>
      obtain ⟨negative, forbidden, actor, target⟩ :=
        (checkRaw_isDeny_eq_false_iff guard action query declared).mp denies
      refine .inr ⟨action, declared, (negativeDenial_eq_none_iff guard query).mp negative,
        (forbiddenDenial_eq_none_iff guard query).mp forbidden,
        (actorDenial_eq_none_iff action query).mp actor,
        (targetDenial_eq_none_iff guard action query).mp target, ?_⟩
      simp only [checkRaw, negative, forbidden, declared, actor, target]

/-- A deny list that lost a pattern lets through what it let through before. -/
theorem passes_of_middle {front back allow : List String} {pattern : String}
    {hit : String → Bool} (passes : Passes (front ++ pattern :: back) allow hit) :
    Passes (front ++ back) allow hit := by
  refine ⟨fun p member => passes.1 p ?_, passes.2⟩
  exact (List.sublist_cons_self pattern back).append_left front |>.subset member

variable {guard restricted : AgentGuard}

/-- What still reaches a verdict with the restriction reached the same one without it. -/
theorem Restricted.reaches (added : Restricted guard restricted)
    (reaches : Reaches restricted query decision) : Reaches guard query decision := by
  obtain ⟨action, declared, negative, forbidden, actor, target, verdictEq⟩ := reaches
  cases added with
  | negativeCapability neg front back listed =>
    refine ⟨action, declared, fun earlier member => negative earlier ?_, forbidden, actor, target,
      verdictEq⟩
    rw [listed] at member
    exact (List.sublist_cons_self neg back).append_left front |>.subset member
  | forbidden name reason =>
    rw [get?_insert] at forbidden
    refine ⟨action, declared, negative, ?_, actor, target, verdictEq⟩
    split at forbidden
    · contradiction
    · exact forbidden
  | denyActors name pattern before front back found listed =>
    rw [get?_insert] at declared
    split at declared
    · next same =>
      cases declared
      refine ⟨before, same ▸ found, negative, forbidden, ?_, target, verdictEq⟩
      revert actor
      unfold ActorPasses
      cases query.actor with
      | none => exact id
      | some identity =>
        intro actor
        rw [listed]
        exact passes_of_middle actor
    · exact ⟨action, declared, negative, forbidden, actor, target, verdictEq⟩
  | denyTargets name pattern before front back found listed =>
    rw [get?_insert] at declared
    split at declared
    · next same =>
      cases declared
      refine ⟨before, same ▸ found, negative, forbidden, actor, ?_, verdictEq⟩
      intro value present
      rw [listed]
      exact passes_of_middle (target value present)
    · exact ⟨action, declared, negative, forbidden, actor, target, verdictEq⟩

theorem reaches_of_restrictions (added : Relation.ReflTransGen Restricted guard restricted)
    (reaches : Reaches restricted query decision) : Reaches guard query decision := by
  induction added with
  | refl => exact reaches
  | tail _ last ih => exact ih (last.reaches reaches)

/-- However many restrictions are added, a decision keeps its kind or becomes a denial. -/
theorem restrictions_never_loosen
    (added : Relation.ReflTransGen Restricted guard restricted) (query : GuardQuery) :
    (restricted.checkRaw query).kind = (guard.checkRaw query).kind ∨
      (restricted.checkRaw query).kind = "deny" := by
  rcases checkRaw_cases restricted query with denied | reaches
  · exact .inr denied
  · exact .inl (congrArg GuardDecision.kind
      (checkRaw_of_reaches (reaches_of_restrictions added reaches)).symm)

/-- Two restrictions: the action loses the targets below `prod`, and a negative capability
bars it from those below `etc`. -/
theorem restrictions_on_noMallory :
    let guard := AgentGuard.fromContract noMalloryContract
    let action : IndexedAction := ⟨"fs.write", none, [], [], [], [], ["tf:actor:agent:mallory"]⟩
    let restricted : AgentGuard := { guard with
      negativeCapabilities := [⟨"fs.*", some "etc/**", none, none⟩]
      actionByName := insert "fs.write" { action with denyTargets := ["prod/**"] }
        guard.actionByName }
    ∀ query, (restricted.checkRaw query).kind = (guard.checkRaw query).kind ∨
      (restricted.checkRaw query).kind = "deny" := by
  intro guard action restricted query
  have declared : get? "fs.write" guard.actionByName = some action := by decide
  have first := Restricted.denyTargets guard "fs.write" "prod/**" action [] [] declared rfl
  refine restrictions_never_loosen (.tail (.single first) ?_) query
  exact .negativeCapability _ ⟨"fs.*", some "etc/**", none, none⟩ [] [] rfl

/-- Added restrictions turn a decision only into what the enforcement level makes of a denial.  At
E1 that is an allow, so that a restriction can lift a required approval. -/
theorem check_restricted (added : Relation.ReflTransGen Restricted guard restricted)
    (query : GuardQuery) :
    (restricted.check query).1 = (guard.check query).1 ∨
      (restricted.check query).1.kind =
        if guard.enforcementLevel = .e0 then "log-only"
        else if guard.enforcementLevel = .e1 then "allow"
        else "deny" := by
  have level : restricted.enforcementLevel = guard.enforcementLevel := by
    induction added with
    | refl => rfl
    | tail _ last ih => cases last <;> exact ih
  unfold check
  rw [level]
  rcases checkRaw_cases restricted query with denied | reaches
  · right
    cases raw : restricted.checkRaw query with
    | deny reason tags => cases guard.enforcementLevel <;> rfl
    | allow | approvalRequired | escalate | logOnly => simp [raw, GuardDecision.kind] at denied
  · left
    rw [checkRaw_of_reaches (reaches_of_restrictions added reaches)]

/-- At E1, two restrictions turn a required approval into an allow. -/
theorem check_restricted_forbidden :
    let guard : AgentGuard := ⟨[("fs.write", ⟨"fs.write", some "required", [], [], [], [], []⟩)],
      [], [], false, .e1, []⟩
    let restricted : AgentGuard := { guard with
      forbiddenByName := insert "fs.write" "frozen" guard.forbiddenByName
      negativeCapabilities := [⟨"fs.*", none, none, none⟩] }
    let query : GuardQuery := ⟨none, none, "fs.write", none⟩
    (guard.check query).1.kind = "approval-required" ∧
      (restricted.check query).1.kind = "allow" := by
  intro guard restricted query
  refine ⟨by decide, ?_⟩
  rcases check_restricted (.tail (.single (.forbidden guard "fs.write" "frozen"))
    (.negativeCapability _ ⟨"fs.*", none, none, none⟩ [] [] rfl)) query with same | lifted
  · revert same
    decide
  · exact lifted

end AgentGuard

end TrustForge.Guard
