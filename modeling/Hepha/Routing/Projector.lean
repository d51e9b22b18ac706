import Hepha.Routing.Matrix

/-!
# The projection of the routing matrix

`RoutingMatrixProjector.project` joins the registry, the policy and the facts of
the catalog to the rows of the matrix.  It reads the selectors of the policy
through a map of their scopes, and it judges a route with a list of reasons
against it.
-/

namespace Hepha.Routing

open Hepha.Runtime (RouteIdentity AgentActionType AgentRoleId RoutingPolicySource)

/-! ## Catalog facts -/

/-- `RoutingMatrixCatalogIdentityFact`. -/
structure CatalogIdentity where
  route : RouteIdentity
  connectionLabel : JsString
  modelDisplayLabel : Option JsString

/-- `RoutingMatrixCatalogFacts`. -/
structure MatrixCatalogFacts where
  routes : List RouteFact
  identities : List CatalogIdentity
  connectionStates : List ConnectionState

/-- `isIdentityFact`. -/
def isIdentityFact (value : CatalogIdentity) : Bool :=
  isBoundedString 512 value.route.connectionId && isBoundedString 512 value.route.modelId &&
    isBoundedString 10000 value.connectionLabel &&
    value.modelDisplayLabel.all (isBoundedString 10000)

/-- `strictlyOrdered`. -/
def strictlyOrdered (values : List JsString) : Bool :=
  (values.zip values.tail).all fun pair => decide (pair.1 < pair.2)

/-- `isRoutingMatrixCatalogFacts`. -/
def isMatrixCatalogFacts (value : MatrixCatalogFacts) : Bool :=
  let identityKeys := value.identities.map fun identity => routeIdentityKey identity.route
  let connectionIds := value.connectionStates.map fun state => state.connectionId
  isRouteFactCollection value.routes && value.identities.all isIdentityFact &&
    value.connectionStates.all isConnectionState && hasUniqueValues identityKeys &&
    strictlyOrdered identityKeys &&
    (identityKeys.all (value.routes.map fun fact => routeIdentityKey fact.route).contains) &&
    hasUniqueValues connectionIds && strictlyOrdered connectionIds

/-- `RoutingMatrixProjectionInput`. -/
structure ProjectionInput where
  registryVersion : JsString
  registry : List RegistryEntry
  policy : PolicyRevision
  policyIdentity : PolicyIdentity
  catalog : MatrixCatalogFacts
  attention : List Attention

/-- `isProjectionInput`. -/
def isProjectionInput (value : ProjectionInput) : Bool :=
  isBoundedString 256 value.registryVersion && isRegistryCollection value.registry &&
    isPolicyRevision value.policy && isPolicyIdentity value.policyIdentity &&
    isMatrixCatalogFacts value.catalog && value.attention.all isAttention &&
    hasUniqueValues (value.attention.map fun item => item.attentionId)

/-- `validateAuthorityBindings`. -/
def authoritiesBound (input : ProjectionInput) : Bool :=
  input.policy.registryVersion == input.registryVersion &&
    input.policyIdentity.registryVersion == input.registryVersion &&
    input.policy.revisionId == input.policyIdentity.revisionId &&
    hasUniqueValues (input.policy.selectors.map fun selector => selectorScopeKey selector.scope) &&
    (input.policy.selectors.all fun selector =>
      !(selector.selector == .inherit && selector.failurePolicy != .failImmediately) &&
        match selector.scope with
        | .global => true
        | .action actionId => (input.registry.map (·.actionId)).contains actionId
        | .actionType actionType => (input.registry.map (·.actionType)).contains actionType) &&
    input.attention.all fun item => item.revisionId == input.policy.revisionId

/-! ## Routes -/

/-- The reason that a required capability of a route is unknown or missing. -/
def capabilityReasons (isRequired : Bool) (capability : RouteFact → Option Bool)
    (unknown needed : ReasonCode) (fact : Option RouteFact) : List ReasonCode :=
  if isRequired && fact.any fun fact => capability fact == none then [unknown]
  else if isRequired && !fact.any fun fact => capability fact == some true then [needed]
  else []

/-- `routeReasons`. -/
def routeReasons (fact : Option RouteFact) (requirements : CapabilityRequirements) :
    List ReasonCode :=
  (if fact.any RouteFact.connectionActive then [] else [.connectionInactive]) ++
    (if fact.any RouteFact.available then [] else [.routeUnavailable]) ++
    (match fact.bind RouteFact.contextWindowTokens with
      | none => [.contextWindowUnknown]
      | some tokens =>
          if JsNumber.lt tokens requirements.minimumContextWindowTokens then
            [.contextWindowTooSmall]
          else []) ++
    capabilityReasons requirements.requiresTools RouteFact.tools .toolsUnknown .toolsRequired
      fact ++
    capabilityReasons requirements.requiresApi RouteFact.api .apiUnknown .apiRequired fact ++
    capabilityReasons requirements.requiresReasoning RouteFact.reasoning .reasoningUnknown
      .reasoningRequired fact

/-- `matrixRoute`. -/
def matrixRoute (route : RouteIdentity) (requirements : CapabilityRequirements)
    (catalog : MatrixCatalogFacts) : MatrixRoute :=
  let key := routeIdentityKey route
  let identity := catalog.identities.find? fun candidate => routeIdentityKey candidate.route == key
  let fact := factOf catalog.routes route
  let state := catalog.connectionStates.find? fun candidate =>
    candidate.connectionId == route.connectionId
  let reasons := routeReasons fact requirements
  { route
    connectionLabel := ((identity.map CatalogIdentity.connectionLabel).or
      (state.map ConnectionState.label)).getD (js "Unavailable connection")
    modelDisplayLabel := identity.bind CatalogIdentity.modelDisplayLabel
    availability := if fact.any fun fact => fact.connectionActive && fact.available then .available
      else .unavailable
    eligible := reasons.length == 0
    reasons := reasons.map routingMatrixReason }

/-- `routeChoices`. -/
def routeChoices (requirements : CapabilityRequirements) (catalog : MatrixCatalogFacts) :
    List MatrixRoute :=
  catalog.identities.map fun identity => matrixRoute identity.route requirements catalog

/-- `eligibility`. -/
def eligibility (route : MatrixRoute) : Eligibility :=
  ⟨route.eligible, route.reasons⟩

/-! ## Rows -/

/-- `aggregateRequirements`, of at least one entry. -/
def aggregateRequirements (entries : List RegistryEntry) : CapabilityRequirements where
  minimumContextWindowTokens := entries.foldl (fun largest entry =>
    if JsNumber.lt largest entry.capabilityRequirements.minimumContextWindowTokens then
      entry.capabilityRequirements.minimumContextWindowTokens
    else largest) (.infinite false)
  requiresTools := entries.any fun entry => entry.capabilityRequirements.requiresTools
  requiresApi := entries.any fun entry => entry.capabilityRequirements.requiresApi
  requiresReasoning := entries.any fun entry => entry.capabilityRequirements.requiresReasoning

/-- `configured`. -/
def configured (selector : Option PolicySelector) : RouteSelector :=
  match explicitRoute selector with
  | some (route, _) => .route route
  | none => .inherit

/-- `configuredFailure`. -/
def configuredFailure (selector : Option PolicySelector) : Option FailurePolicy :=
  (explicitRoute selector).map Prod.snd

/-- `globalRow`; the route and the failure policy of the global selector are passed
apart. -/
def globalRow (route : RouteIdentity) (requirements : CapabilityRequirements)
    (catalog : MatrixCatalogFacts) : MatrixRow :=
  let effectiveRoute := matrixRoute route requirements catalog
  { scope := .global
    scopeKey := js "global"
    label := js "Global Default"
    displayOrder := .int 0
    configured := .route route
    configuredFailurePolicy := some .failImmediately
    effectiveRoute
    effectiveFailurePolicy := .failImmediately
    policySource := .global
    requirements
    eligibility := eligibility effectiveRoute
    routeChoices := routeChoices requirements catalog }

/-- `actionTypeRow`. -/
def actionTypeRow (metadata : RegistryEntry) (entries : List RegistryEntry)
    (selector : Option PolicySelector) (globalRoute : RouteIdentity × FailurePolicy)
    (catalog : MatrixCatalogFacts) : MatrixRow :=
  let requirements := aggregateRequirements entries
  let effective := (explicitRoute selector).getD globalRoute
  let effectiveRoute := matrixRoute effective.1 requirements catalog
  { scope := .actionType metadata.actionType
    scopeKey := selectorScopeKey (.actionType metadata.actionType)
    label := metadata.actionTypeLabel
    displayOrder := metadata.actionTypeDisplayOrder
    configured := configured selector
    configuredFailurePolicy := configuredFailure selector
    effectiveRoute
    effectiveFailurePolicy := effective.2
    policySource := if (explicitRoute selector).isSome then .actionType else .global
    requirements
    eligibility := eligibility effectiveRoute
    routeChoices := routeChoices requirements catalog }

/-- `actionRow`. -/
def actionRow (entry : RegistryEntry) (selector typeSelector : Option PolicySelector)
    (globalRoute : RouteIdentity × FailurePolicy) (catalog : MatrixCatalogFacts) : ActionRow :=
  let selected := ((explicitRoute selector).or (explicitRoute typeSelector)).getD globalRoute
  let effectiveRoute := matrixRoute selected.1 entry.capabilityRequirements catalog
  { scope := .action entry.actionId
    scopeKey := selectorScopeKey (.action entry.actionId)
    label := entry.label
    displayOrder := entry.displayOrder
    configured := configured selector
    configuredFailurePolicy := configuredFailure selector
    effectiveRoute
    effectiveFailurePolicy := selected.2
    policySource := if (explicitRoute selector).isSome then .action
      else if (explicitRoute typeSelector).isSome then .actionType else .global
    requirements := entry.capabilityRequirements
    eligibility := eligibility effectiveRoute
    routeChoices := routeChoices entry.capabilityRequirements catalog
    roleId := entry.roleId
    promptVersion := entry.promptVersion }

/-- The map of the selectors by their scopes. -/
def selectorMap (selectors : List PolicySelector) : List (JsString × PolicySelector) :=
  selectors.map fun selector => (selectorScopeKey selector.scope, selector)

/-- The map of the entries by their types. -/
def registryByType (registry : List RegistryEntry) :
    List (AgentActionType × List RegistryEntry) :=
  registry.foldl (fun byType entry => JsMap.set byType entry.actionType
    ((JsMap.get byType entry.actionType).getD [] ++ [entry])) []

/-- The group of a type: `none` if it has no entries. -/
def actionTypeGroup (selectors : List (JsString × PolicySelector))
    (globalRoute : RouteIdentity × FailurePolicy) (catalog : MatrixCatalogFacts)
    (entries : List RegistryEntry) : Option ActionTypeGroup :=
  match entries with
  | [] => none
  | first :: _ =>
      let orderedEntries := entries.insertionSort fun left right =>
        JsNumber.le left.displayOrder right.displayOrder
      let typeSelector := JsMap.get selectors (selectorScopeKey (.actionType first.actionType))
      some {
        actionType := first.actionType
        label := first.actionTypeLabel
        displayOrder := first.actionTypeDisplayOrder
        typeDefault := actionTypeRow first orderedEntries typeSelector globalRoute catalog
        actions := orderedEntries.map fun entry => actionRow entry
          (JsMap.get selectors (selectorScopeKey (.action entry.actionId))) typeSelector globalRoute
          catalog }

/-- `compareAttention`; `collate` is `localeCompare`. -/
def compareAttention (collate : JsString → JsString → Ordering) (left right : Attention) :
    Ordering :=
  (collate left.occurredAt right.occurredAt).then (collate left.attentionId right.attentionId)

/-- `RoutingMatrixProjector.project`: `none` if it throws. -/
def project (collate : JsString → JsString → Ordering) (input : ProjectionInput) :
    Option MatrixSnapshot :=
  if isProjectionInput input && authoritiesBound input then do
    let selectors := selectorMap input.policy.selectors
    let (globalRoute, globalFailure) ← explicitRoute (JsMap.get selectors (js "global"))
    if globalFailure ≠ .failImmediately then none
    else
      let globalRow := globalRow globalRoute (aggregateRequirements input.registry) input.catalog
      let groups ← (registryByType input.registry).mapM fun group =>
        actionTypeGroup selectors (globalRoute, globalFailure) input.catalog group.2
      let groups := groups.insertionSort fun left right =>
        JsNumber.le left.displayOrder right.displayOrder
      let snapshot : MatrixSnapshot := {
        policy := input.policyIdentity
        state := matrixState globalRow groups
        global := globalRow
        groups
        connectionStates := input.catalog.connectionStates
        attention := (input.attention.insertionSort fun left right =>
          (compareAttention collate left right).isLE).map fun item =>
            ⟨item.attentionId, item.revisionId, ⟨item.connectionId, item.modelId⟩,
              item.reasonCode, item.occurredAt, item.acknowledgedAt⟩ }
      if isMatrixSnapshot snapshot then some snapshot else none
  else none

end Hepha.Routing
