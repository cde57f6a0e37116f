import TrustForge.Foundation.Result
import TrustForge.PolicyEngine

/-!
# Policy backends

Model of the dispatcher `evaluate_with_engine` of `policy_engine.rs` and of the two adapters
behind it, the crates `tf-cedar` and `tf-rego`.  An adapter translates a query, asks the engine
it wraps, and turns the answer, or a failure on the way, into a decision.

The Cedar authorizer and the Rego interpreter enter as functions about which nothing is
assumed, and so do the JSON texts that the Rego adapter exchanges with its interpreter.
-/

namespace TrustForge.PolicyBackends

open Except List
open Json (Value)
open Guard (NegativeCapability)
open PolicyEngine (PolicyQuery PolicyDecision NativePolicyEngine negativeMatches nonEmpty)

/-- The `decision` functions of both adapters.  Neither reads the negative capabilities of the
query for anything but this report. -/
def adapterDecision (policyEngine engineVersion trustDomain : String) (query : PolicyQuery)
    (now verdict : String) (ruleId : Option String) (reason : String) : PolicyDecision where
  decisionVersion := "1"
  policyEngine := policyEngine
  engineVersion := some engineVersion
  trustDomain := trustDomain
  subject := query.subject
  instanceUri := query.instanceUri
  action := query.action
  target := query.target
  decision := verdict
  ruleId := ruleId
  reason := some reason
  approval := none
  proofRequired := none
  constraintsApplied := none
  negativeCapabilitiesConsulted := nonEmpty (some query.negativeCapabilities)
  enforcementLevel := query.enforcementLevel
  evaluatedAt := now
  policyManifestHash := none
  context := if query.context.isEmpty then none else some query.context

/-! ## The Cedar adapter -/

/-- `Decision` of Cedar. -/
inductive Decision where
  | allow
  | deny
  deriving DecidableEq

/-- `Response` of Cedar: the decision, the policies that contributed and the errors met. -/
structure Response where
  decision : Decision
  reason : List String
  errors : List String

/-- What the adapter calls of the `cedar-policy` crate. -/
structure Cedar (Uid Context Request PolicySet Entities : Type) where
  uidFromStr : String → Except String Uid
  emptyContext : Context
  contextFromJsonValue : Value → Except String Context
  requestNew : Uid → Uid → Uid → Context → Except String Request
  isAuthorized : Request → PolicySet → Entities → Response

structure CedarPolicyEngine (PolicySet Entities : Type) where
  policySet : PolicySet
  entities : Entities
  trustDomain : String

section

variable {Uid Context Request PolicySet Entities : Type}
variable (cedar : Cedar Uid Context Request PolicySet Entities)

/-- Backslashes are escaped first, then quotation marks. -/
def escaped (s : String) : String :=
  .ofList ((s.toList.flatMap fun c => if c = '\\' then ['\\', '\\'] else [c]).flatMap
    fun c => if c = '"' then ['\\', '"'] else [c])

def parseOrWrapUid (s fallbackType : String) : Except String Uid :=
  match cedar.uidFromStr s with
  | .ok uid => .ok uid
  | .error _ => cedar.uidFromStr (fallbackType ++ "::\"" ++ escaped s ++ "\"")

def buildContext (ctx : List (String × Value)) : Except String Context :=
  if ctx.isEmpty then .ok cedar.emptyContext else cedar.contextFromJsonValue (.object ctx)

namespace CedarPolicyEngine

variable (engine : CedarPolicyEngine PolicySet Entities)

/-- The request a query becomes, or the reason why it becomes none. -/
def request (query : PolicyQuery) : Except String Request := do
  let principal ← (parseOrWrapUid cedar query.subject "Subject").mapError
    ("invalid subject UID: " ++ ·)
  let action ← (parseOrWrapUid cedar query.action "Action").mapError ("invalid action UID: " ++ ·)
  let resource ← (parseOrWrapUid cedar (query.target.getD "Resource::\"unknown\"")
    "Resource").mapError ("invalid resource UID: " ++ ·)
  let context ← (buildContext cedar query.context).mapError ("invalid context: " ++ ·)
  (cedar.requestNew principal action resource context).mapError
    ("could not build cedar request: " ++ ·)

/-- The verdict and the reason a response is reported with. -/
def verdict (response : Response) : String × String :=
  match response.decision with
  | .allow => ("allow", "cedar permit policy matched")
  | .deny =>
    if response.reason.isEmpty then
      if response.errors.isEmpty then
        ("deny", "no cedar permit policy matched (default deny)")
      else ("deny", "cedar evaluation errors: " ++ String.intercalate "; " response.errors)
    else ("deny", "cedar forbid policy matched")

def decision (query : PolicyQuery) (now verdict : String) (ruleId : Option String)
    (reason : String) : PolicyDecision :=
  adapterDecision "cedar" "cedar-policy-0.1.9" engine.trustDomain query now verdict ruleId reason

def evaluate (nowIso8601 : String) (query : PolicyQuery) : PolicyDecision :=
  let now := query.now.getD nowIso8601
  match request cedar query with
  | .error reason => engine.decision query now "deny" none reason
  | .ok built =>
    let response := cedar.isAuthorized built engine.policySet engine.entities
    engine.decision query now (verdict response).1 response.reason.head? (verdict response).2

/-- The authorizer gets to see the query and allows it. -/
def Permits (query : PolicyQuery) : Prop :=
  ∃ built, request cedar query = .ok built ∧
    (cedar.isAuthorized built engine.policySet engine.entities).decision = .allow

theorem verdict_eq_deny_iff (response : Response) :
    (verdict response).1 = "deny" ↔ response.decision ≠ .allow := by
  cases decided : response.decision with
  | allow =>
    simp only [verdict, decided]
    decide
  | deny =>
    refine iff_of_true ?_ nofun
    simp only [verdict, decided]
    split
    · split
      · rfl
      · rfl
    · rfl

/-- Only the authorizer decides. -/
theorem evaluate_decision_eq_deny_iff (nowIso8601 : String) (query : PolicyQuery) :
    (engine.evaluate cedar nowIso8601 query).decision = "deny" ↔ ¬engine.Permits cedar query := by
  unfold evaluate Permits
  cases asked : request cedar query with
  | error reason =>
    refine iff_of_true rfl ?_
    rintro ⟨built, found, _⟩
    contradiction
  | ok built =>
    simp only [ok.injEq, exists_eq_left']
    exact verdict_eq_deny_iff _

end CedarPolicyEngine

end

/-! ## The Rego adapter -/

/-- What the adapter calls of `regorus` and of `serde_json`. -/
structure Rego (Engine RegoValue : Type) where
  toString : Value → Except String String
  fromJsonStr : String → Except String RegoValue
  /-- `eval_rule` on a clone of the engine that was given the input. -/
  evalRule : Engine → RegoValue → String → Except String RegoValue
  asBool : RegoValue → Option Bool
  toJsonStr : RegoValue → Except String String
  fromStr : String → Except String Value
  display : Value → String

structure RegoPolicyEngine (Engine : Type) where
  engine : Engine
  trustDomain : String
  rulePath : String

/-- A field that is left out when it is `None`. -/
def optionalField (key : String) (value : Option Value) : List (String × Value) :=
  (value.map fun v => (key, v)).toList

/-- A negative capability as JSON. -/
def negativeCapabilityValue (neg : NegativeCapability) : Value :=
  .object ([("name", .string neg.name)] ++ optionalField "target" (neg.target.map .string) ++
    optionalField "reason" (neg.reason.map .string) ++
    optionalField "overrides" (neg.overrides.map fun ids => .array (ids.map .string)))

/-- `InputView`: the query as the policy sees it. -/
def inputView (query : PolicyQuery) : Value :=
  .object ([("subject", .string query.subject)] ++
    optionalField "instance" (query.instanceUri.map .string) ++
    [("action", .string query.action)] ++ optionalField "target" (query.target.map .string) ++
    [("context", .object query.context),
      ("negative_capabilities", .array (query.negativeCapabilities.map negativeCapabilityValue))] ++
    optionalField "enforcement_level" (query.enforcementLevel.map .string) ++
    optionalField "now" (query.now.map .string))

section

variable {Engine RegoValue : Type} (rego : Rego Engine RegoValue)

namespace RegoPolicyEngine

variable (engine : RegoPolicyEngine Engine) (query : PolicyQuery)

/-- What the rule evaluates to. -/
def result : Except String RegoValue := do
  let inputJson ← (rego.toString (inputView query)).mapError ("could not serialize input: " ++ ·)
  let value ← (rego.fromJsonStr inputJson).mapError ("input is not valid JSON: " ++ ·)
  (rego.evalRule engine.engine value engine.rulePath).mapError ("rego evaluation error: " ++ ·)

/-- An output that is not a boolean, read as an object. -/
def outputObject (value : RegoValue) : Except String (List (String × Value)) := do
  let jsonStr ← (rego.toJsonStr value).mapError ("rego output not JSON: " ++ ·)
  let parsed ← (rego.fromStr jsonStr).mapError ("rego output is not valid JSON: " ++ ·)
  match parsed with
  | .object obj => .ok obj
  | other => .error ("rego output is not an object: " ++ rego.display other)

/-- A member of the output that is a string. -/
def stringMember (key : String) (obj : List (String × Value)) : Option String :=
  (AssocMap.get? key obj).bind Value.asStr

/-- The verdict, the rule and the reason of a query. -/
def answer : Except String (String × Option String × String) := do
  let value ← engine.result rego query
  match rego.asBool value with
  | some true => .ok ("allow", none, "rego rule evaluated to true")
  | some false => .ok ("deny", none, "rego rule evaluated to false")
  | none => do
    let obj ← outputObject rego value
    let decision := (stringMember "decision" obj).getD "deny"
    .ok (decision, stringMember "rule_id" obj,
      (stringMember "reason" obj).getD ("rego rule decided " ++ decision))

def decision (now verdict : String) (ruleId : Option String) (reason : String) : PolicyDecision :=
  adapterDecision "rego" "regorus-0.1.9" engine.trustDomain query now verdict ruleId reason

def evaluate (nowIso8601 : String) (query : PolicyQuery) : PolicyDecision :=
  let now := query.now.getD nowIso8601
  match engine.answer rego query with
  | .error reason => engine.decision query now "deny" none reason
  | .ok (verdict, ruleId, reason) => engine.decision query now verdict ruleId reason

/-- The rule evaluates to `true`, or to an object that decides something else than a denial. -/
def Grants : Prop :=
  ∃ value, engine.result rego query = .ok value ∧
    (rego.asBool value = some true ∨
      rego.asBool value = none ∧ ∃ obj verdict, outputObject rego value = .ok obj ∧
        stringMember "decision" obj = some verdict ∧ verdict ≠ "deny")

/-- Only the rule decides. -/
theorem evaluate_decision_eq_deny_iff (nowIso8601 : String) (query : PolicyQuery) :
    (engine.evaluate rego nowIso8601 query).decision = "deny" ↔ ¬engine.Grants rego query := by
  unfold evaluate answer Grants
  cases asked : engine.result rego query with
  | error reason =>
    refine iff_of_true rfl ?_
    rintro ⟨value, found, _⟩
    contradiction
  | ok value =>
    simp only [ok.injEq, exists_eq_left', bind, Except.bind]
    cases rego.asBool value with
    | some granted =>
      cases granted with
      | true => exact iff_of_false (show ¬"allow" = "deny" by decide) (not_not_intro (.inl rfl))
      | false => exact iff_of_true rfl (by rintro (granted | ⟨object, _⟩) <;> contradiction)
    | none =>
      simp only [reduceCtorEq, false_or, true_and]
      cases read : outputObject rego value with
      | error reason =>
        refine iff_of_true rfl ?_
        rintro ⟨obj, verdict, found, _⟩
        contradiction
      | ok obj =>
        simp only [ok.injEq, exists_and_left, exists_eq_left']
        cases member : stringMember "decision" obj with
        | none => exact iff_of_true (by simp only [Option.getD_none]; rfl) (by simp)
        | some verdict =>
          simp only [Option.some.injEq, exists_eq_left', not_not]
          exact Iff.rfl

end RegoPolicyEngine

end

/-! ## The dispatcher -/

def unavailableDecision (engine : String) (query : PolicyQuery) (trustDomain nowIso8601 : String) :
    PolicyDecision where
  decisionVersion := "1"
  policyEngine := engine
  engineVersion := some (engine ++ "-stub")
  trustDomain := trustDomain
  subject := query.subject
  instanceUri := query.instanceUri
  action := query.action
  target := query.target
  decision := "deny"
  ruleId := none
  reason := some (engine ++ " engine not configured for this dispatcher (no adapter supplied)")
  approval := none
  proofRequired := none
  constraintsApplied := none
  negativeCapabilitiesConsulted := none
  enforcementLevel := query.enforcementLevel
  evaluatedAt := nowIso8601
  policyManifestHash := none
  context := if query.context.isEmpty then none else some query.context

section

variable (regexNew : String → Option (String → Bool)) (nowIso8601 : String)

/-- `evaluate_with_engine`.  An adapter is what it answers to a query. -/
def evaluateWithEngine (hint : Option String) (native : NativePolicyEngine)
    (cedar rego : Option (PolicyQuery → PolicyDecision)) (query : PolicyQuery) : PolicyDecision :=
  if hint = some "cedar" then
    match cedar with
    | some evaluate => evaluate query
    | none => unavailableDecision "cedar" query native.policy.trustDomain nowIso8601
  else if hint = some "rego" then
    match rego with
    | some evaluate => evaluate query
    | none => unavailableDecision "rego" query native.policy.trustDomain nowIso8601
  else native.evaluate regexNew nowIso8601 query

variable {Uid Context Request PolicySet Entities Engine RegoValue : Type}
variable (cedarLib : Cedar Uid Context Request PolicySet Entities) (regoLib : Rego Engine RegoValue)

/-- A negative capability of the query that matches it makes the native engine deny; behind the
two adapters the answer is a denial exactly if the wrapped policy does not grant the query. -/
theorem negative_capabilities_bind_iff (hint : Option String) (native : NativePolicyEngine)
    (cedar : Option (CedarPolicyEngine PolicySet Entities)) (rego : Option (RegoPolicyEngine Engine))
    (query : PolicyQuery)
    (hit : ∃ neg ∈ query.negativeCapabilities, negativeMatches neg query = true) :
    (evaluateWithEngine regexNew nowIso8601 hint native
        (cedar.map fun engine => engine.evaluate cedarLib nowIso8601)
        (rego.map fun engine => engine.evaluate regoLib nowIso8601) query).decision = "deny" ↔
      (hint = some "cedar" → ∀ engine, cedar = some engine → ¬engine.Permits cedarLib query) ∧
      (hint = some "rego" → ∀ engine, rego = some engine → ¬engine.Grants regoLib query) := by
  unfold evaluateWithEngine
  split
  · next cedarHint =>
    have notRego : hint ≠ some "rego" := by
      rw [cedarHint]
      decide
    cases cedar with
    | none => exact iff_of_true rfl ⟨fun _ => nofun, fun regoHint => absurd regoHint notRego⟩
    | some engine =>
      refine (engine.evaluate_decision_eq_deny_iff cedarLib nowIso8601 query).trans ?_
      constructor
      · intro refused
        refine ⟨?_, fun regoHint => absurd regoHint notRego⟩
        rintro _ _ ⟨⟩
        exact refused
      · intro bound
        exact bound.1 cedarHint engine rfl
  · next notCedar =>
    split
    · next regoHint =>
      cases rego with
      | none => exact iff_of_true rfl ⟨fun cedarHint => absurd cedarHint notCedar, fun _ => nofun⟩
      | some engine =>
        refine (engine.evaluate_decision_eq_deny_iff regoLib nowIso8601 query).trans ?_
        constructor
        · intro refused
          refine ⟨fun cedarHint => absurd cedarHint notCedar, ?_⟩
          rintro _ _ ⟨⟩
          exact refused
        · intro bound
          exact bound.2 regoHint engine rfl
    · next notRego =>
      refine iff_of_true ?_ ⟨fun cedarHint => absurd cedarHint notCedar,
        fun regoHint => absurd regoHint notRego⟩
      refine NativePolicyEngine.evaluate_decision_of_negativeHit regexNew native query _ ?_
      obtain ⟨neg, member, matched⟩ := hit
      have own : query.negativeCapabilities ≠ [] := ne_nil_of_mem member
      refine ⟨neg, ?_, matched⟩
      rw [NativePolicyEngine.consulted, isEmpty_eq_false_iff.mpr own]
      exact member

end

/-- A Cedar library whose authorizer gives the same answer to every request. -/
def constantCedar (answer : Decision) : Cedar String Unit Unit Unit Unit where
  uidFromStr := .ok
  emptyContext := ()
  contextFromJsonValue := fun _ => .ok ()
  requestNew := fun _ _ _ _ => .ok ()
  isAuthorized := fun _ _ _ => ⟨answer, [], []⟩

/-- A Rego library whose rules evaluate to the same boolean on every input. -/
def constantRego (answer : Bool) : Rego Unit Bool where
  toString := fun _ => .ok ""
  fromJsonStr := fun _ => .ok false
  evalRule := fun _ _ _ => .ok answer
  asBool := some
  toJsonStr := fun _ => .ok ""
  fromStr := fun _ => .ok .null
  display := fun _ => ""

/-- A query for `deploy` that carries a denial of `deploy`. -/
def deniedDeploy : PolicyQuery :=
  ⟨"tf:actor:agent:example.org/a", none, "deploy", none, [], [⟨"deploy", none, none, none⟩], none,
    some "2026-01-01T00:00:00Z"⟩

theorem denied_deploy_bound :
    (evaluateWithEngine (fun _ => none) "" (some "cedar") ⟨⟨"example.org", [], []⟩, ""⟩
        (some (CedarPolicyEngine.evaluate (constantCedar .deny) ⟨(), (), "cedar"⟩ ""))
        (some (RegoPolicyEngine.evaluate (constantRego true) ⟨(), "rego", "data.trustforge.allow"⟩ ""))
        deniedDeploy).decision = "deny" := by
  refine (negative_capabilities_bind_iff (fun _ => none) "" (constantCedar .deny) (constantRego true)
    (some "cedar") ⟨⟨"example.org", [], []⟩, ""⟩ (some ⟨(), (), "cedar"⟩)
    (some ⟨(), "rego", "data.trustforge.allow"⟩) deniedDeploy ⟨_, mem_singleton_self _, rfl⟩).mpr
    ⟨?_, nofun⟩
  rintro _ engine _ ⟨built, _, allowed⟩
  contradiction

/-- A permissive policy behind either adapter allows the query, and the decision names the denial
as consulted. -/
theorem denied_deploy_allowed :
    let native : NativePolicyEngine := ⟨⟨"example.org", [], []⟩, ""⟩
    let cedar := CedarPolicyEngine.evaluate (constantCedar .allow) ⟨(), (), "cedar"⟩ ""
    let rego := RegoPolicyEngine.evaluate (constantRego true) ⟨(), "rego", "data.trustforge.allow"⟩ ""
    let answer hint := evaluateWithEngine (fun _ => none) "" (some hint) native (some cedar)
      (some rego) deniedDeploy
    (∃ neg ∈ deniedDeploy.negativeCapabilities, negativeMatches neg deniedDeploy = true) ∧
      ∀ hint ∈ ["cedar", "rego"], (answer hint).decision = "allow" ∧
        (answer hint).negativeCapabilitiesConsulted = some deniedDeploy.negativeCapabilities := by
  refine ⟨⟨_, mem_singleton_self _, rfl⟩, ?_⟩
  intro hint member
  rcases mem_pair.mp member with rfl | rfl
  · exact ⟨rfl, rfl⟩
  · exact ⟨rfl, rfl⟩

end TrustForge.PolicyBackends
