import TrustForge.Guard

/-!
# Native policy engine

Model of `policy_engine.rs`: `NativePolicyEngine::evaluate` consults one list of
negative capabilities, walks the rules of the manifest in order, and denies when no
rule decides.

The regular expressions come from the `regex` crate.  They enter as a function that
compiles a pattern to its matcher, or fails, about which nothing is assumed.  The
wall clock is read only for queries without a time of their own and enters as the
text it would give.
-/

namespace TrustForge.PolicyEngine

open Option
open Json (Value)
open Guard (NegativeCapability targetCovered)

structure PolicyQuery where
  subject : String
  instanceUri : Option String
  action : String
  target : Option String
  context : List (String × Value)
  negativeCapabilities : List NegativeCapability
  enforcementLevel : Option String
  now : Option String

structure PolicyDecision where
  decisionVersion : String
  policyEngine : String
  engineVersion : Option String
  trustDomain : String
  subject : String
  instanceUri : Option String
  action : String
  target : Option String
  decision : String
  ruleId : Option String
  reason : Option String
  approval : Option String
  proofRequired : Option String
  constraintsApplied : Option (List Value)
  negativeCapabilitiesConsulted : Option (List NegativeCapability)
  enforcementLevel : Option String
  evaluatedAt : String
  policyManifestHash : Option String
  context : Option (List (String × Value))

structure PolicyRule where
  id : String
  effect : String
  action : Option String
  actionPattern : Option String
  subjectPattern : Option String
  targetPatterns : Option (List String)
  approval : Option String
  proofRequired : Option String
  constraints : Option (List Value)
  reason : Option String

/-- `PolicyManifest`, without the fields that evaluation does not read. -/
structure PolicyManifest where
  trustDomain : String
  rules : List PolicyRule
  negativeCapabilities : List NegativeCapability

structure NativePolicyEngine where
  policy : PolicyManifest
  manifestHash : String

/-- `negative_matches` of `policy_engine.rs`: the action name is compared exactly. -/
def negativeMatches (neg : NegativeCapability) (q : PolicyQuery) : Bool :=
  if neg.name ≠ q.action then false else targetCovered neg.target q.target

/-- An optional list that is dropped when it is empty. -/
def nonEmpty {α : Type} (list : Option (List α)) : Option (List α) :=
  list.filter fun entries => !entries.isEmpty

namespace NativePolicyEngine

def decision (engine : NativePolicyEngine) (query : PolicyQuery) (verdict reason : String)
    (ruleId : Option String) (constraints : Option (List Value)) (proof approval : Option String)
    (negCaps : Option (List NegativeCapability)) (now : String) : PolicyDecision where
  decisionVersion := "1"
  policyEngine := "native"
  engineVersion := some "tf-policy-native-0.1.0"
  trustDomain := engine.policy.trustDomain
  subject := query.subject
  instanceUri := query.instanceUri
  action := query.action
  target := query.target
  decision := verdict
  ruleId := ruleId
  reason := some reason
  approval := approval
  proofRequired := proof
  constraintsApplied := nonEmpty constraints
  negativeCapabilitiesConsulted := nonEmpty negCaps
  enforcementLevel := query.enforcementLevel
  evaluatedAt := now
  policyManifestHash := some engine.manifestHash
  context := if query.context.isEmpty then none else some query.context

/-- The list `evaluate` consults: the query's own when it has one. -/
def consulted (engine : NativePolicyEngine) (query : PolicyQuery) : List NegativeCapability :=
  if query.negativeCapabilities.isEmpty then engine.policy.negativeCapabilities
  else query.negativeCapabilities

end NativePolicyEngine

section

variable (regexNew : String → Option (String → Bool))

/-- An optional pattern; one that does not compile matches nothing. -/
def patternMatches (pattern : Option String) (text : String) : Bool :=
  match pattern with
  | none => true
  | some source =>
    match regexNew source with
    | none => false
    | some isMatch => isMatch text

def ruleMatches (rule : PolicyRule) (query : PolicyQuery) : Bool :=
  (match rule.action with
    | none => true
    | some action => action == query.action) &&
  patternMatches regexNew rule.actionPattern query.action &&
  patternMatches regexNew rule.subjectPattern query.subject &&
  (match rule.targetPatterns with
    | none => true
    | some targets =>
      targets.isEmpty ||
        (match query.target with
          | none => false
          | some target => targets.any fun p => globMatch p target))

namespace NativePolicyEngine

/-- The `match` on the effect of a rule that applies; `none` goes on to the next rule. -/
def applyRule (engine : NativePolicyEngine) (query : PolicyQuery)
    (negCaps : List NegativeCapability) (now : String) (rule : PolicyRule) :
    Option PolicyDecision :=
  let reason := rule.reason.getD s!"matched rule {rule.id}"
  match rule.effect with
  | "allow" =>
    some (engine.decision query "allow" reason (some rule.id) rule.constraints
      rule.proofRequired rule.approval (some negCaps) now)
  | "deny" =>
    some (engine.decision query "deny" reason (some rule.id) none none none
      (some negCaps) now)
  | "escalate" =>
    let verdict := if rule.approval = some "quorum" then "escalate" else "approval-required"
    some (engine.decision query verdict reason (some rule.id) rule.constraints
      rule.proofRequired (rule.approval.or (some "required")) (some negCaps) now)
  | "log_only" =>
    some (engine.decision query "log-only" reason (some rule.id) rule.constraints
      rule.proofRequired none (some negCaps) now)
  | _ => none

/-- The rule loop, with the default denial at its end. -/
def walkRules (engine : NativePolicyEngine) (query : PolicyQuery)
    (negCaps : List NegativeCapability) (now : String) : List PolicyRule → PolicyDecision
  | [] => engine.decision query "deny" "no matching rule (default deny)" none none none none
      (some negCaps) now
  | rule :: rest =>
    if !ruleMatches regexNew rule query then engine.walkRules query negCaps now rest
    else
      match engine.applyRule query negCaps now rule with
      | some decided => decided
      | none => engine.walkRules query negCaps now rest

def evaluate (engine : NativePolicyEngine) (nowIso8601 : String) (query : PolicyQuery) :
    PolicyDecision :=
  let now := query.now.getD nowIso8601
  let negCaps := engine.consulted query
  match negCaps.find? fun neg => negativeMatches neg query with
  | some neg =>
    engine.decision query "deny"
      (neg.reason.getD s!"denied by negative_capability {neg.name}") none none none none
      (some negCaps) now
  | none => engine.walkRules regexNew query negCaps now engine.policy.rules

end NativePolicyEngine

/-! ## Effects and the first rule that decides -/

/-- The effects a rule can have. -/
inductive Effect where
  | allow
  | deny
  | escalate
  | logOnly
  deriving Repr, DecidableEq

/-- The effect an effect name stands for; other names are not recognised. -/
def Effect.ofName : String → Option Effect
  | "allow" => some .allow
  | "deny" => some .deny
  | "escalate" => some .escalate
  | "log_only" => some .logOnly
  | _ => none

/-- The decision an effect gives, which for escalation depends on the approval mode. -/
def Effect.decision (approval : Option String) : Effect → String
  | .allow => "allow"
  | .deny => "deny"
  | .escalate => if approval = some "quorum" then "escalate" else "approval-required"
  | .logOnly => "log-only"

theorem Effect.decision_eq_allow_iff (approval : Option String) (effect : Effect) :
    effect.decision approval = "allow" ↔ effect = .allow := by
  cases effect with
  | escalate =>
    simp only [Effect.decision]
    split <;> decide
  | allow | deny | logOnly => simp [Effect.decision]

theorem Effect.decision_eq_deny_iff (approval : Option String) (effect : Effect) :
    effect.decision approval = "deny" ↔ effect = .deny := by
  cases effect with
  | escalate =>
    simp only [Effect.decision]
    split <;> decide
  | allow | deny | logOnly => simp [Effect.decision]

/-- A rule takes part in the walk: it matches and its effect is recognised. -/
def Decides (query : PolicyQuery) (rule : PolicyRule) : Prop :=
  ruleMatches regexNew rule query = true ∧ (Effect.ofName rule.effect).isSome = true

/-- `rule` is the first rule of the list that decides, and `effect` is its effect. -/
def FirstMatch (query : PolicyQuery) (rules : List PolicyRule) (rule : PolicyRule)
    (effect : Effect) : Prop :=
  Effect.ofName rule.effect = some effect ∧ ruleMatches regexNew rule query = true ∧
    ∃ before after, rules = before ++ rule :: after ∧
      ∀ earlier ∈ before, ¬Decides regexNew query earlier

/-- A consulted negative capability matches. -/
def NegativeHit (engine : NativePolicyEngine) (query : PolicyQuery) : Prop :=
  ∃ neg ∈ engine.consulted query, negativeMatches neg query = true

/-- A rule that decides, paired with its effect. -/
def deciding (query : PolicyQuery) (rule : PolicyRule) : Option (PolicyRule × Effect) :=
  if ruleMatches regexNew rule query then
    (Effect.ofName rule.effect).map fun effect => (rule, effect)
  else none

theorem deciding_eq_some_iff (query : PolicyQuery) (head rule : PolicyRule) (effect : Effect) :
    deciding regexNew query head = some (rule, effect) ↔
      head = rule ∧ Effect.ofName rule.effect = some effect ∧
        ruleMatches regexNew rule query = true := by
  unfold deciding
  constructor
  · intro decides
    rw [ite_none_right_eq_some, map_eq_some_iff] at decides
    rcases decides with ⟨matched, found, named, equal⟩
    rw [Prod.mk.injEq] at equal
    rcases equal with ⟨sameRule, sameEffect⟩
    subst sameRule sameEffect
    exact ⟨rfl, named, matched⟩
  · intro decides
    rcases decides with ⟨equal, named, matched⟩
    subst equal
    simp [named, matched]

theorem deciding_eq_none_iff (query : PolicyQuery) (rule : PolicyRule) :
    deciding regexNew query rule = none ↔ ¬Decides regexNew query rule := by
  simp [deciding, Decides]

theorem findSome?_deciding_eq_some_iff (query : PolicyQuery) (rules : List PolicyRule)
    (rule : PolicyRule) (effect : Effect) :
    rules.findSome? (deciding regexNew query) = some (rule, effect) ↔
      FirstMatch regexNew query rules rule effect := by
  rw [List.findSome?_eq_some_iff]
  simp only [deciding_eq_some_iff, deciding_eq_none_iff]
  constructor
  · intro found
    rcases found with ⟨before, head, after, split, ⟨equal, named, matched⟩, earlier⟩
    subst equal
    exact ⟨named, matched, before, after, split, earlier⟩
  · intro first
    rcases first with ⟨named, matched, before, after, split, earlier⟩
    exact ⟨before, rule, after, split, ⟨rfl, named, matched⟩, earlier⟩

theorem FirstMatch.unique {query : PolicyQuery} {rules : List PolicyRule} {left right : PolicyRule}
    {leftEffect rightEffect : Effect} (first : FirstMatch regexNew query rules left leftEffect)
    (other : FirstMatch regexNew query rules right rightEffect) :
    left = right ∧ leftEffect = rightEffect := by
  rw [← findSome?_deciding_eq_some_iff] at first other
  rw [first, some.injEq, Prod.mk.injEq] at other
  exact other

/-! ## Evaluation is first match with default deny -/

namespace NativePolicyEngine

variable (engine : NativePolicyEngine) (query : PolicyQuery)

/-- The source's `match` on the effect name gives the decision of the named effect. -/
theorem applyRule_decision (negCaps : List NegativeCapability) (now : String) (rule : PolicyRule) :
    (engine.applyRule query negCaps now rule).map PolicyDecision.decision =
      (Effect.ofName rule.effect).map (Effect.decision rule.approval) := by
  unfold applyRule Effect.ofName
  split <;> rfl

/-- The walk ends at the first rule that decides, or in the default denial. -/
theorem walkRules_decision (negCaps : List NegativeCapability) (now : String)
    (rules : List PolicyRule) :
    (engine.walkRules regexNew query negCaps now rules).decision =
      match rules.findSome? (deciding regexNew query) with
      | some (rule, effect) => effect.decision rule.approval
      | none => "deny" := by
  induction rules with
  | nil => rfl
  | cons head rest ih =>
    have applied := applyRule_decision engine query negCaps now head
    unfold walkRules
    cases matched : ruleMatches regexNew head query with
    | false => simpa [deciding, matched] using ih
    | true =>
      cases named : Effect.ofName head.effect with
      | none =>
        rw [named, map_none, map_eq_none_iff] at applied
        simpa [deciding, matched, named, applied] using ih
      | some effect =>
        rw [named, map_some, map_eq_some_iff] at applied
        rcases applied with ⟨decided, applied, verdict⟩
        simp [deciding, matched, named, applied, verdict]

variable (clock : String)

theorem evaluate_decision_of_negativeHit (hit : NegativeHit engine query) :
    (engine.evaluate regexNew clock query).decision = "deny" := by
  unfold evaluate
  cases found : (engine.consulted query).find? fun neg => negativeMatches neg query with
  | some neg =>
    simp only [found]
    rfl
  | none =>
    rcases hit with ⟨neg, member, matched⟩
    exact absurd matched (List.find?_eq_none.mp found neg member)

theorem evaluate_of_not_negativeHit (noHit : ¬NegativeHit engine query) :
    engine.evaluate regexNew clock query =
      engine.walkRules regexNew query (engine.consulted query) (query.now.getD clock)
        engine.policy.rules := by
  have nothing : ((engine.consulted query).find? fun neg => negativeMatches neg query) = none := by
    rw [List.find?_eq_none]
    intro neg member matched
    exact noHit ⟨neg, member, matched⟩
  simp only [evaluate, nothing]

theorem evaluate_decision_of_firstMatch (noHit : ¬NegativeHit engine query) (rule : PolicyRule)
    (effect : Effect) (first : FirstMatch regexNew query engine.policy.rules rule effect) :
    (engine.evaluate regexNew clock query).decision = effect.decision rule.approval := by
  rw [evaluate_of_not_negativeHit regexNew engine query clock noHit, walkRules_decision,
    (findSome?_deciding_eq_some_iff regexNew query _ rule effect).mpr first]

theorem evaluate_decision_of_no_match (noHit : ¬NegativeHit engine query)
    (noMatch : ∀ rule effect, ¬FirstMatch regexNew query engine.policy.rules rule effect) :
    (engine.evaluate regexNew clock query).decision = "deny" := by
  have nothing : engine.policy.rules.findSome? (deciding regexNew query) = none := by
    rw [eq_none_iff_forall_ne_some]
    intro decided found
    exact noMatch decided.1 decided.2
      ((findSome?_deciding_eq_some_iff regexNew query _ _ _).mp found)
  rw [evaluate_of_not_negativeHit regexNew engine query clock noHit, walkRules_decision, nothing]

/-- The three ways an evaluation ends, with the decision of each. -/
theorem evaluate_cases :
    (NegativeHit engine query ∧
      (engine.evaluate regexNew clock query).decision = "deny") ∨
    (¬NegativeHit engine query ∧
      ∃ rule effect, FirstMatch regexNew query engine.policy.rules rule effect ∧
        (engine.evaluate regexNew clock query).decision = effect.decision rule.approval) ∨
    (¬NegativeHit engine query ∧
      (∀ rule effect, ¬FirstMatch regexNew query engine.policy.rules rule effect) ∧
      (engine.evaluate regexNew clock query).decision = "deny") := by
  by_cases hit : NegativeHit engine query
  · exact .inl ⟨hit, evaluate_decision_of_negativeHit regexNew engine query clock hit⟩
  · by_cases first : ∃ rule effect, FirstMatch regexNew query engine.policy.rules rule effect
    · rcases first with ⟨rule, effect, first⟩
      exact .inr (.inl ⟨hit, rule, effect, first,
        evaluate_decision_of_firstMatch regexNew engine query clock hit rule effect first⟩)
    · have noMatch : ∀ rule effect,
          ¬FirstMatch regexNew query engine.policy.rules rule effect := by
        intro rule effect found
        exact first ⟨rule, effect, found⟩
      exact .inr (.inr ⟨hit, noMatch,
        evaluate_decision_of_no_match regexNew engine query clock hit noMatch⟩)

/-- Evaluation allows exactly when no consulted negative capability matches and the
first rule that decides allows; otherwise that rule's effect decides, and a negative
hit or the absence of such a rule denies. -/
theorem evaluate_first_match_default_deny :
    ((engine.evaluate regexNew clock query).decision = "allow" ↔
      ¬NegativeHit engine query ∧
        ∃ rule, FirstMatch regexNew query engine.policy.rules rule .allow) ∧
    (NegativeHit engine query →
      (engine.evaluate regexNew clock query).decision = "deny") ∧
    (¬NegativeHit engine query → ∀ rule effect,
      FirstMatch regexNew query engine.policy.rules rule effect →
        (engine.evaluate regexNew clock query).decision = effect.decision rule.approval) ∧
    (¬NegativeHit engine query →
      (∀ rule effect, ¬FirstMatch regexNew query engine.policy.rules rule effect) →
        (engine.evaluate regexNew clock query).decision = "deny") := by
  refine ⟨?_, evaluate_decision_of_negativeHit regexNew engine query clock,
    evaluate_decision_of_firstMatch regexNew engine query clock,
    evaluate_decision_of_no_match regexNew engine query clock⟩
  rcases evaluate_cases regexNew engine query clock with
    ⟨hit, denied⟩ | ⟨noHit, rule, effect, first, decided⟩ | ⟨noHit, noMatch, denied⟩
  · simp [denied, hit]
  · rw [decided, Effect.decision_eq_allow_iff]
    constructor
    · intro allows
      subst allows
      exact ⟨noHit, rule, first⟩
    · intro allowed
      rcases allowed with ⟨_, other, otherFirst⟩
      exact (first.unique regexNew otherFirst).2
  · have none : ¬∃ rule, FirstMatch regexNew query engine.policy.rules rule .allow := by
      intro found
      rcases found with ⟨rule, first⟩
      exact noMatch rule .allow first
    simp [denied, none]

/-! ## Negative capabilities of the manifest -/

/-- A negative capability of the manifest matches the query. -/
def ManifestHit : Prop :=
  ∃ neg ∈ engine.policy.negativeCapabilities, negativeMatches neg query = true

theorem negativeHit_iff :
    NegativeHit engine query ↔
      if query.negativeCapabilities = [] then ManifestHit engine query
      else ∃ neg ∈ query.negativeCapabilities, negativeMatches neg query = true := by
  unfold NegativeHit ManifestHit consulted
  by_cases own : query.negativeCapabilities = []
  · simp [own]
  · simp [own]

theorem evaluate_decision_eq_deny_iff :
    (engine.evaluate regexNew clock query).decision = "deny" ↔
      NegativeHit engine query ∨
        ∀ rule effect, FirstMatch regexNew query engine.policy.rules rule effect →
          effect = .deny := by
  rcases evaluate_cases regexNew engine query clock with
    ⟨hit, denied⟩ | ⟨noHit, rule, effect, first, decided⟩ | ⟨noHit, noMatch, denied⟩
  · simp [denied, hit]
  · rw [decided, Effect.decision_eq_deny_iff]
    constructor
    · intro denies
      subst denies
      refine .inr ?_
      intro other otherEffect otherFirst
      exact (otherFirst.unique regexNew first).2
    · intro reasons
      rcases reasons with hit | onlyDeny
      · exact absurd hit noHit
      · exact onlyDeny rule effect first
  · simp [denied, noMatch]

/-- A matching negative capability of the manifest forces a denial only as long as
the query does not bring a list of its own that misses it. -/
theorem manifest_negative_denies_iff :
    (ManifestHit engine query →
      (engine.evaluate regexNew clock query).decision = "deny") ↔
    (¬ManifestHit engine query ∨ query.negativeCapabilities = [] ∨
      (∃ neg ∈ query.negativeCapabilities, negativeMatches neg query = true) ∨
      ∀ rule effect, FirstMatch regexNew query engine.policy.rules rule effect →
        effect = .deny) := by
  rw [evaluate_decision_eq_deny_iff, negativeHit_iff]
  by_cases listed : ManifestHit engine query
  · by_cases own : query.negativeCapabilities = []
    · simp [listed, own]
    · simp [listed, own]
  · simp [listed]

end NativePolicyEngine

end

/-- A manifest that allows everything but `deploy`, and a query for `deploy` that
brings a list naming another action. -/
theorem NativePolicyEngine.query_list_hides_manifest_denial :
    let deny (name : String) : NegativeCapability := ⟨name, none, none, none⟩
    let rule : PolicyRule :=
      ⟨"everything", "allow", none, none, none, none, none, none, none, none⟩
    let engine : NativePolicyEngine :=
      ⟨⟨"example.org", [rule], [deny "deploy"]⟩, "sha256-00"⟩
    let query : PolicyQuery :=
      ⟨"tf:actor:agent:example.org/a", none, "deploy", none, [], [deny "other"], none,
        some "2026-01-01T00:00:00Z"⟩
    ManifestHit engine query ∧ ∀ regexNew clock,
      (engine.evaluate regexNew clock query).decision = "allow" := by
  refine ⟨⟨_, List.mem_cons_self, by decide⟩, ?_⟩
  intro regexNew clock
  rfl

/-! ## Two matchers for one capability -/

/-- On one action and target the guard and the engine disagree about a capability
exactly when its name is a wildcard that matches the action without being equal to it
and its target covers the query. -/
theorem negativeMatches_agree_iff (neg : NegativeCapability) (action : String)
    (target : Option String) (guardQuery : Guard.GuardQuery) (policyQuery : PolicyQuery) :
    Guard.negativeMatches neg { guardQuery with action := action, target := target } =
        negativeMatches neg { policyQuery with action := action, target := target } ↔
      neg.name = action ∨ globMatch neg.name action = false ∨
        targetCovered neg.target target = false := by
  unfold Guard.negativeMatches negativeMatches
  by_cases same : neg.name = action
  · subst same
    simp [globMatch_self]
  · cases globMatch neg.name action with
    | false | true => simp [same]

/-- The capability `fs.*` bars `fs.write` from the guard but not from the engine. -/
theorem negativeMatches_disagree :
    let neg : NegativeCapability := ⟨"fs.*", none, none, none⟩
    let guardQuery : Guard.GuardQuery := ⟨none, none, "fs.write", none⟩
    let policyQuery : PolicyQuery :=
      ⟨"tf:actor:agent:example.org/a", none, "fs.write", none, [], [], none, none⟩
    Guard.negativeMatches neg guardQuery = true ∧
      negativeMatches neg policyQuery = false := by
  decide

end TrustForge.PolicyEngine
