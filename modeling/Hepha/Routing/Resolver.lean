import Hepha.Routing.Contracts
import Mathlib.Data.List.Sort

/-!
# The routing resolver

`RoutingResolver.resolve` turns a registered action into a plan: the route it is
sent to, and at most one more route for when that fails.  The assignment of the
action comes before that of its type, and this before the global one.

The store is used through two of its methods.  They are parameters here
(`StorePort`); reading the current policy can throw.
-/

namespace Hepha.Routing

open Hepha.Runtime (RouteIdentity AgentActionType RoutingPolicySource)

/-! ## The registry -/

/-- The version of a registry: `/^[a-z][a-z0-9-]*\/v[1-9][0-9]*$/`. -/
def isRegistryVersion (value : JsString) : Bool :=
  Pattern.testWhole (Pattern.concat [Pattern.unit Pattern.isLower,
    Pattern.many fun u => Pattern.isLower u || Pattern.isDigit u || u == 0x2D,
    Pattern.lit "/v", Pattern.unit fun u => Pattern.isDigit u && u != 0x30,
    Pattern.many Pattern.isDigit]) value

/-- `AgentRegistry`, whose constructor checks what it is given. -/
structure AgentRegistry where
  version : JsString
  entries : List RegistryEntry
  isVersion : isRegistryVersion version = true
  isCollection : isRegistryCollection entries = true

namespace AgentRegistry

def get (registry : AgentRegistry) (actionId : JsString) : Option RegistryEntry :=
  JsMap.get (registry.entries.map fun entry => (entry.actionId, entry)) actionId

/-- The entries by the place of their type, and by their own. -/
def list (registry : AgentRegistry) : List RegistryEntry :=
  registry.entries.insertionSort fun left right =>
    JsNumber.lt left.actionTypeDisplayOrder right.actionTypeDisplayOrder ||
      (left.actionTypeDisplayOrder == right.actionTypeDisplayOrder &&
        JsNumber.le left.displayOrder right.displayOrder)

end AgentRegistry

/-! ## Requests and refusals -/

/-- `RoutingResolutionErrorCode`. -/
inductive ResolutionErrorCode
  | invalidRequest
  | unknownAction
  | bootstrapRequired
  | globalUnavailable
  | routeUnavailable
  | capabilityMismatch
  | invalidPolicy
  | invalidHandoffChain
  | policyConflict
  | unknownScope
  | globalDeleteBlocked
deriving DecidableEq

/-- The messages of `rejection`. -/
def ResolutionErrorCode.message : ResolutionErrorCode → String
  | invalidRequest => "Routing request is invalid."
  | unknownAction => "The requested routing action is not registered."
  | bootstrapRequired => "Global Default is unset and no valid bootstrap route is available."
  | globalUnavailable => "Global Default route is unavailable and must be replaced."
  | routeUnavailable => "The selected connection/model route is unavailable."
  | capabilityMismatch => "The selected route does not meet this action's capability requirements."
  | invalidPolicy => "Routing policy is invalid."
  | invalidHandoffChain => "Routing fallback policy must be one distinct available hop."
  | policyConflict => "Routing policy changed; refresh and retry the requested update."
  | unknownScope => "The requested routing scope is not registered."
  | globalDeleteBlocked =>
      "A replacement Global Default is required before deleting this connection."

structure Bootstrap where
  route : RouteIdentity
  occurredAt : JsString
  actor : Option JsString
  correlationId : Option JsString

/-- `RoutingResolutionInput`. -/
structure ResolutionInput where
  actionId : JsString
  bootstrap : Option Bootstrap

def isBootstrap (value : Bootstrap) : Bool :=
  isRouteIdentity value.route && isCanonicalIso value.occurredAt &&
    value.actor.all (isBoundedString 512) && value.correlationId.all (isBoundedString 512)

/-- `isResolutionInput`. -/
def isResolutionInput (value : ResolutionInput) : Bool :=
  isActionWord value.actionId && value.bootstrap.all isBootstrap

/-! ## Resolving -/

/-- The fact about a route. -/
def factOf (facts : List RouteFact) (route : RouteIdentity) : Option RouteFact :=
  facts.find? fun candidate => routeIdentityKey candidate.route == routeIdentityKey route

/-- `validateRoute`: why an action cannot be sent to a route. -/
def validateRoute (route : RouteIdentity) (action : RegistryEntry) (facts : List RouteFact)
    (isGlobal : Bool) : Option ResolutionErrorCode :=
  match factOf facts route with
  | none => some (if isGlobal then .globalUnavailable else .routeUnavailable)
  | some fact =>
      let requirements := action.capabilityRequirements
      if !fact.connectionActive || !fact.available then
        some (if isGlobal then .globalUnavailable else .routeUnavailable)
      else if JsNumber.lt (fact.contextWindowTokens.getD (.int (-1)))
            requirements.minimumContextWindowTokens ||
          (requirements.requiresTools && fact.tools != some true) ||
          (requirements.requiresApi && fact.api != some true) ||
          (requirements.requiresReasoning && fact.reasoning != some true) then
        some .capabilityMismatch
      else none

/-- The selector of a scope. -/
def selectorOf (policy : PolicyRevision) (scope : SelectorScope) : Option PolicySelector :=
  policy.selectors.find? fun selector => selector.scope = scope

/-- The route of a selector that does not inherit it. -/
def explicitRoute (selector : Option PolicySelector) : Option (RouteIdentity × FailurePolicy) :=
  selector.bind fun selector =>
    match selector.selector with
    | .route route => some (route, selector.failurePolicy)
    | .inherit => none

/-- The steps after the first one of a plan: where the action goes when `primary`
fails. -/
def recoverySteps (primary globalRoute : RouteIdentity) (failurePolicy : FailurePolicy)
    (action : RegistryEntry) (facts : List RouteFact) :
    Except ResolutionErrorCode (List HandoffPlanStep) :=
  match failurePolicy with
  | .failImmediately => .ok []
  | .rerouteGlobalOnce =>
      match validateRoute globalRoute action facts true with
      | some code => .error code
      | none =>
          if routeIdentityKey primary = routeIdentityKey globalRoute then
            .error .invalidHandoffChain
          else .ok [⟨.recovery, globalRoute⟩]
  | .rerouteRouteOnce fallback =>
      if routeIdentityKey primary = routeIdentityKey fallback then .error .invalidHandoffChain
      else
        match validateRoute fallback action facts false with
        | some code => .error code
        | none => .ok [⟨.recovery, fallback⟩]

/-- The plan for the assignment that was selected. -/
def planFor (policy : PolicyRevision) (action : RegistryEntry) (facts : List RouteFact)
    (globalRoute primary : RouteIdentity) (failurePolicy : FailurePolicy)
    (source : RoutingPolicySource) : Except ResolutionErrorCode HandoffPlan :=
  match validateRoute primary action facts (source == .global) with
  | some code => .error code
  | none =>
      (if source == .global then .ok []
        else recoverySteps primary globalRoute failurePolicy action facts).map fun recovery =>
          ⟨⟨action, primary, source, policy.revisionId⟩, ⟨.primary, primary⟩ :: recovery⟩

/-- `resolvePolicy`. -/
def resolvePolicy (policy : PolicyRevision) (action : RegistryEntry) (facts : List RouteFact) :
    Except ResolutionErrorCode HandoffPlan :=
  match explicitRoute (selectorOf policy .global) with
  | none => .error .invalidPolicy
  | some (globalRoute, globalFailure) =>
      match explicitRoute (selectorOf policy (.action action.actionId)) with
      | some (route, failurePolicy) =>
          planFor policy action facts globalRoute route failurePolicy .action
      | none =>
          match explicitRoute (selectorOf policy (.actionType action.actionType)) with
          | some (route, failurePolicy) =>
              planFor policy action facts globalRoute route failurePolicy .actionType
          | none => planFor policy action facts globalRoute globalRoute globalFailure .global

/-- What the resolver uses of `AgentRoutingStore`: `getCurrentPolicy`, which is
`none` if it throws, and `applyMutation`. -/
structure StorePort (σ : Type) where
  getCurrentPolicy : σ → Option (Option PolicyRevision)
  applyMutation : σ → PolicyMutation → ValidationContext →
    Except ResolutionErrorCode PolicyRevision × σ

/-- The mutation that makes the first policy. -/
def bootstrapMutation (registry : AgentRegistry) (bootstrap : Bootstrap) : PolicyMutation where
  registryVersion := registry.version
  expectedRevisionId := none
  reason := .bootstrap
  occurredAt := bootstrap.occurredAt
  actor := bootstrap.actor
  correlationId := bootstrap.correlationId
  selectors := [⟨.global, .route bootstrap.route, .failImmediately⟩]

section Resolve

variable {σ : Type} (port : StorePort σ) (registry : AgentRegistry) (facts : List RouteFact)

/-- The policy to resolve by, made from the bootstrap if there is none yet. -/
def policyFor (store : σ) (input : ResolutionInput) (action : RegistryEntry) :
    Except ResolutionErrorCode PolicyRevision × σ :=
  match port.getCurrentPolicy store with
  | none => (.error .invalidPolicy, store)
  | some (some policy) => (.ok policy, store)
  | some none =>
      match input.bootstrap with
      | none => (.error .bootstrapRequired, store)
      | some bootstrap =>
          match validateRoute bootstrap.route action facts false with
          | some code => (.error code, store)
          | none =>
              match port.applyMutation store (bootstrapMutation registry bootstrap)
                  ⟨registry.list, facts⟩ with
              | (.ok revision, store) => (.ok revision, store)
              | (.error .policyConflict, store) =>
                  match port.getCurrentPolicy store with
                  | none => (.error .invalidPolicy, store)
                  | some none => (.error .policyConflict, store)
                  | some (some policy) => (.ok policy, store)
              | (.error code, store) => (.error code, store)

/-- `RoutingResolver.resolve`, with the store it leaves. -/
def resolve (store : σ) (input : ResolutionInput) : Except ResolutionErrorCode HandoffPlan × σ :=
  if !isResolutionInput input then (.error .invalidRequest, store)
  else
    match registry.get input.actionId with
    | none => (.error .unknownAction, store)
    | some action =>
        if !isRouteFactCollection facts then (.error .invalidRequest, store)
        else
          match policyFor port registry facts store input action with
          | (.error code, store) => (.error code, store)
          | (.ok policy, store) =>
              if policy.registryVersion ≠ registry.version then (.error .invalidPolicy, store)
              else (resolvePolicy policy action facts, store)

end Resolve

end Hepha.Routing
