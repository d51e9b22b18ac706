import Hepha.Js.Collections
import Hepha.Js.Date
import Hepha.Js.Pattern
import Hepha.Js.Value
import Hepha.Runtime.Contracts

/-!
# Routing contracts

Which model an agent's action runs on is decided by three things: the registry
of the actions with what they require, the facts about the routes that the
catalog offers, and the policy, a set of selectors.  A selector assigns a route,
and what to do when it fails, to one action, to a type of actions or to all.

The records are those of the source without the members that have one value
only, its schema version and the identifier of the one policy.  A guard of a
record is a test of the record at its type.
-/

namespace Hepha.Routing

open Hepha.Runtime (RouteIdentity AgentActionType AgentRoleId RoutingPolicySource)

/-! ## Texts and numbers -/

/-- `isBoundedString`, which other modules of the source call `text` or `isNonEmpty`. -/
def isBoundedString (max : ℕ) (value : JsString) : Bool :=
  0 < value.length && value.length ≤ max && value.trim == value

/-- `isPositiveInteger`. -/
def isPositiveInteger : JsNumber → Bool
  | .int value => 0 < value && value ≤ 10000000
  | _ => false

/-- `isNullableNonNegativeInteger`, of a number. -/
def isNonNegativeInteger : JsNumber → Bool
  | .int value => 0 ≤ value && value ≤ 10000000
  | _ => false

/-- `isCanonicalIsoTimestamp`. -/
def isCanonicalIso (value : JsString) : Bool :=
  (Date.canonicalTime value).isSome

/-- `/^[a-z][a-z0-9-]*$/`. -/
def isActionWord (value : JsString) : Bool :=
  Pattern.testWhole (Pattern.seq (Pattern.unit Pattern.isLower)
    (Pattern.many fun u => Pattern.isLower u || Pattern.isDigit u || u == 0x2D)) value

/-- `isActionId`. -/
def isActionId (value : JsString) : Bool :=
  isBoundedString 128 value && isActionWord value

/-! ## The registry -/

structure CapabilityRequirements where
  minimumContextWindowTokens : JsNumber
  requiresTools : Bool
  requiresApi : Bool
  requiresReasoning : Bool
deriving DecidableEq

/-- `AgentRegistryEntryV1`. -/
structure RegistryEntry where
  actionId : JsString
  actionType : AgentActionType
  actionTypeLabel : JsString
  actionTypeDisplayOrder : JsNumber
  label : JsString
  displayOrder : JsNumber
  roleId : AgentRoleId
  promptVersion : JsString
  capabilityRequirements : CapabilityRequirements
deriving DecidableEq

/-- `isAgentCapabilityRequirementsV1`. -/
def isCapabilityRequirements (value : CapabilityRequirements) : Bool :=
  isPositiveInteger value.minimumContextWindowTokens

/-- `isAgentRegistryEntryV1`. -/
def isRegistryEntry (value : RegistryEntry) : Bool :=
  isActionId value.actionId && isBoundedString 256 value.actionTypeLabel &&
    isPositiveInteger value.actionTypeDisplayOrder && isBoundedString 256 value.label &&
    isPositiveInteger value.displayOrder && isBoundedString 256 value.promptVersion &&
    isCapabilityRequirements value.capabilityRequirements

/-- The loop of `isAgentRegistryCollectionV1`: an action type has one label and
one place in the order, and no other type has this place. -/
def typesAgree (typeMetadata : List (AgentActionType × (JsString × JsNumber)))
    (typeOrders : List (JsNumber × AgentActionType)) : List RegistryEntry → Bool
  | [] => true
  | entry :: rest =>
      let identity := (entry.actionTypeLabel, entry.actionTypeDisplayOrder)
      (JsMap.get typeMetadata entry.actionType).all (· == identity) &&
        (JsMap.get typeOrders entry.actionTypeDisplayOrder).all (· == entry.actionType) &&
        typesAgree (JsMap.set typeMetadata entry.actionType identity)
          (JsMap.set typeOrders entry.actionTypeDisplayOrder entry.actionType) rest

/-- `isAgentRegistryCollectionV1`.  The keys that the source joins to one text are
pairs here. -/
def isRegistryCollection (value : List RegistryEntry) : Bool :=
  0 < value.length && value.all isRegistryEntry && hasUniqueValues (value.map (·.actionId)) &&
    hasUniqueValues (value.map fun entry => (entry.roleId, entry.promptVersion)) &&
    hasUniqueValues (value.map fun entry => (entry.actionType, entry.displayOrder)) &&
    typesAgree [] [] value

/-! ## Routes -/

/-- `isRouteIdentityV1`. -/
def isRouteIdentity (value : RouteIdentity) : Bool :=
  isBoundedString 512 value.connectionId && isBoundedString 512 value.modelId

/-- `routeIdentityKey`: two routes are the same to the source when their keys are. -/
def routeIdentityKey (route : RouteIdentity) : JsString :=
  route.connectionId ++ 0 :: route.modelId

/-- `RoutingCatalogRouteFactV1`. -/
structure RouteFact where
  route : RouteIdentity
  connectionActive : Bool
  available : Bool
  contextWindowTokens : Option JsNumber
  tools : Option Bool
  api : Option Bool
  reasoning : Option Bool
deriving DecidableEq

/-- `isRoutingCatalogRouteFactV1`, which the resolver repeats as `isCatalogFact`. -/
def isRouteFact (value : RouteFact) : Bool :=
  isRouteIdentity value.route && value.contextWindowTokens.all isNonNegativeInteger

/-- `value.every(isRoutingCatalogRouteFactV1)`, with one fact a route. -/
def isRouteFactCollection (value : List RouteFact) : Bool :=
  value.all isRouteFact && hasUniqueValues (value.map fun fact => routeIdentityKey fact.route)

/-! ## Policies -/

inductive RouteSelector
  | inherit
  | route (route : RouteIdentity)
deriving DecidableEq

inductive FailurePolicy
  | failImmediately
  | rerouteGlobalOnce
  | rerouteRouteOnce (fallbackRoute : RouteIdentity)
deriving DecidableEq

/-- `RoutingSelectorScopeV1`. -/
inductive SelectorScope
  | global
  | actionType (actionType : AgentActionType)
  | action (actionId : JsString)
deriving DecidableEq

/-- `RoutingPolicySelectorV1`. -/
structure PolicySelector where
  scope : SelectorScope
  selector : RouteSelector
  failurePolicy : FailurePolicy
deriving DecidableEq

def isRouteSelector : RouteSelector → Bool
  | .inherit => true
  | .route route => isRouteIdentity route

def isFailurePolicy : FailurePolicy → Bool
  | .failImmediately | .rerouteGlobalOnce => true
  | .rerouteRouteOnce fallbackRoute => isRouteIdentity fallbackRoute

def isSelectorScope : SelectorScope → Bool
  | .global | .actionType _ => true
  | .action actionId => isActionId actionId

/-- `isRoutingPolicySelectorV1`. -/
def isPolicySelector (value : PolicySelector) : Bool :=
  isSelectorScope value.scope && isRouteSelector value.selector &&
    isFailurePolicy value.failurePolicy

/-- The name of an action type. -/
def actionTypeText : AgentActionType → String
  | .completion => "completion"
  | .discoveryPlanning => "discovery_planning"
  | .implementation => "implementation"
  | .knowledgeDocumentation => "knowledge_documentation"
  | .review => "review"

def selectorScopeKey : SelectorScope → JsString
  | .global => js "global"
  | .actionType actionType => js "action_type:" ++ js (actionTypeText actionType)
  | .action actionId => js "action:" ++ actionId

inductive RevisionReason
  | bootstrap
  | operatorMutation
  | catalogReset
deriving DecidableEq

/-- `RoutingPolicyMutationV1`. -/
structure PolicyMutation where
  registryVersion : JsString
  expectedRevisionId : Option JsString
  reason : RevisionReason
  occurredAt : JsString
  actor : Option JsString
  correlationId : Option JsString
  selectors : List PolicySelector

/-- `isRoutingPolicyMutationV1`. -/
def isPolicyMutation (value : PolicyMutation) : Bool :=
  isBoundedString 256 value.registryVersion && value.expectedRevisionId.all (isBoundedString 256) &&
    (value.reason == .bootstrap || value.reason == .operatorMutation) &&
    isCanonicalIso value.occurredAt && value.actor.all (isBoundedString 512) &&
    value.correlationId.all (isBoundedString 512) && value.selectors.all isPolicySelector

/-- `RoutingPolicyRevisionV1`. -/
structure PolicyRevision where
  revisionId : JsString
  registryVersion : JsString
  reason : RevisionReason
  createdAt : JsString
  actor : Option JsString
  correlationId : Option JsString
  selectors : List PolicySelector

/-- `isRoutingPolicyRevisionV1`. -/
def isPolicyRevision (value : PolicyRevision) : Bool :=
  isBoundedString 256 value.revisionId && isBoundedString 256 value.registryVersion &&
    isCanonicalIso value.createdAt && value.actor.all (isBoundedString 512) &&
    value.correlationId.all (isBoundedString 512) && value.selectors.all isPolicySelector

/-- `RoutingPolicyValidationContextV1`. -/
structure ValidationContext where
  registry : List RegistryEntry
  routes : List RouteFact

/-- `isRoutingPolicyValidationContextV1`. -/
def isValidationContext (value : ValidationContext) : Bool :=
  isRegistryCollection value.registry && isRouteFactCollection value.routes

/-! ## The routing matrix -/

/-- `RoutingMatrixPolicyIdentityV1`. -/
structure PolicyIdentity where
  revisionId : JsString
  revisionNumber : ℕ
  registryVersion : JsString
  revisionGuard : JsString

/-- `RoutingMatrixRowSelectionV1`. -/
inductive RowSelection
  | inherit
  | route (route : RouteIdentity) (failurePolicy : FailurePolicy)

/-- `RoutingMatrixRowDraftV1`, with the members of its expected revision. -/
structure RowDraft where
  scope : SelectorScope
  selection : RowSelection
  expectedRevisionId : JsString
  expectedRevisionNumber : JsNumber
  revisionGuard : JsString

def isRowSelection : RowSelection → Bool
  | .inherit => true
  | .route route failurePolicy => isRouteIdentity route && isFailurePolicy failurePolicy

/-- `positive`: a safe integer above zero. -/
def isPositiveSafeInteger : JsNumber → Bool
  | .int value => 0 < value && value ≤ JsValue.maxSafeInteger
  | _ => false

/-- `isRoutingMatrixRowDraftV1`. -/
def isRowDraft (value : RowDraft) : Bool :=
  isSelectorScope value.scope && isRowSelection value.selection &&
    isBoundedString 256 value.expectedRevisionId &&
    isPositiveSafeInteger value.expectedRevisionNumber &&
    isBoundedString 512 value.revisionGuard &&
    match value.scope, value.selection with
    | .global, .route _ .failImmediately => true
    | .global, _ => false
    | _, _ => true

/-- `RoutingMatrixMutationContextV1`. -/
structure MutationContext where
  registryVersion : JsString
  registry : List RegistryEntry
  routes : List RouteFact
  occurredAt : JsString
  actor : Option JsString
  correlationId : Option JsString

/-- `isRoutingMatrixMutationContextV1`. -/
def isMutationContext (value : MutationContext) : Bool :=
  isBoundedString 256 value.registryVersion && isRegistryCollection value.registry &&
    isRouteFactCollection value.routes && isCanonicalIso value.occurredAt &&
    value.actor.all (isBoundedString 512) && value.correlationId.all (isBoundedString 512)

/-! ## Plans -/

/-- `ResolvedRouteV1`. -/
structure ResolvedRoute where
  action : RegistryEntry
  route : RouteIdentity
  policySource : RoutingPolicySource
  revisionId : JsString

inductive StepKind
  | primary
  | recovery
deriving DecidableEq

/-- `HandoffPlanStepV1`. -/
structure HandoffPlanStep where
  kind : StepKind
  route : RouteIdentity

/-- `HandoffPlanV1`. -/
structure HandoffPlan where
  resolvedRoute : ResolvedRoute
  steps : List HandoffPlanStep

/-- `isResolvedRouteV1`. -/
def isResolvedRoute (value : ResolvedRoute) : Bool :=
  isRegistryEntry value.action && isRouteIdentity value.route &&
    isBoundedString 256 value.revisionId

/-- `sameRoute`. -/
def sameRoute (left right : RouteIdentity) : Bool :=
  isRouteIdentity left && isRouteIdentity right && left.connectionId == right.connectionId &&
    left.modelId == right.modelId

/-- `isHandoffPlanV1`: one step, or a second one to another route. -/
def isHandoffPlan (value : HandoffPlan) : Bool :=
  isResolvedRoute value.resolvedRoute && value.steps.all (fun step => isRouteIdentity step.route) &&
    match value.steps with
    | [first] => first.kind == .primary && sameRoute first.route value.resolvedRoute.route
    | [first, second] =>
        first.kind == .primary && sameRoute first.route value.resolvedRoute.route &&
          second.kind == .recovery && !sameRoute second.route first.route &&
          value.resolvedRoute.policySource != .global
    | _ => false

/-! ## Texts in columns -/

@[simp] theorem isBoundedString_toWellFormed (max : ℕ) (value : JsString) :
    isBoundedString max value.toWellFormed = isBoundedString max value := by
  have htrim : (value.toWellFormed.trim == value.toWellFormed) = (value.trim == value) := by
    rw [Bool.eq_iff_iff, beq_iff_eq, beq_iff_eq, JsString.trim_toWellFormed]
  simp [isBoundedString, htrim]

theorem isBoundedString_mono {max max' : ℕ} (hle : max ≤ max') {value : JsString}
    (h : isBoundedString max value = true) : isBoundedString max' value = true := by
  simp only [isBoundedString, Bool.and_eq_true, decide_eq_true_eq] at h ⊢
  exact ⟨⟨h.1.1, h.1.2.trans hle⟩, h.2⟩

end Hepha.Routing
