import Hepha.Routing.Resolver

/-!
# The routing matrix

The routing editor shows the policy as a matrix: a row for the global
assignment, one for each type of actions and one for each action, with the route
each one comes to and why that route cannot be used.
`RoutingMatrixProjector.project` builds the rows from the registry, the policy
and the facts of the catalog, and checks the whole matrix against its contract.
-/

namespace Hepha.Routing

open Hepha.Runtime (RouteIdentity AgentActionType AgentRoleId RoutingPolicySource)

/-! ## Reasons -/

/-- `RoutingMatrixReasonCodeV1`, in the order of `reasonOrder`. -/
inductive ReasonCode
  | connectionInactive
  | routeUnavailable
  | contextWindowUnknown
  | contextWindowTooSmall
  | toolsUnknown
  | toolsRequired
  | apiUnknown
  | apiRequired
  | reasoningUnknown
  | reasoningRequired
  | sameAsPrimary
  | fallbackCycle
deriving DecidableEq

/-- `reasonMessages`. -/
def reasonMessages : ReasonCode → String
  | .connectionInactive => "The provider connection is inactive."
  | .routeUnavailable => "The connection/model route is unavailable."
  | .contextWindowUnknown => "The model context window is unknown."
  | .contextWindowTooSmall => "The model context window is too small."
  | .toolsUnknown => "Tool support is unknown."
  | .toolsRequired => "Tool support is required."
  | .apiUnknown => "API support is unknown."
  | .apiRequired => "API support is required."
  | .reasoningUnknown => "Reasoning support is unknown."
  | .reasoningRequired => "Reasoning support is required."
  | .sameAsPrimary => "The fallback route must differ from the primary route."
  | .fallbackCycle => "The fallback route would create a cycle."

structure MatrixReason where
  code : ReasonCode
  message : String
deriving DecidableEq

def routingMatrixReason (code : ReasonCode) : MatrixReason :=
  ⟨code, reasonMessages code⟩

/-! ## Rows -/

inductive Availability
  | available
  | unavailable
deriving DecidableEq

/-- `RoutingMatrixRouteV1`. -/
structure MatrixRoute where
  route : RouteIdentity
  connectionLabel : JsString
  modelDisplayLabel : Option JsString
  availability : Availability
  eligible : Bool
  reasons : List MatrixReason
deriving DecidableEq

/-- `RoutingMatrixEligibilityV1`. -/
structure Eligibility where
  eligible : Bool
  reasons : List MatrixReason
deriving DecidableEq

/-- `RoutingMatrixGlobalRowV1` and `RoutingMatrixActionTypeRowV1`; the kind of a row
is that of its scope. -/
structure MatrixRow where
  scope : SelectorScope
  scopeKey : JsString
  label : JsString
  displayOrder : JsNumber
  configured : RouteSelector
  configuredFailurePolicy : Option FailurePolicy
  effectiveRoute : MatrixRoute
  effectiveFailurePolicy : FailurePolicy
  policySource : RoutingPolicySource
  requirements : CapabilityRequirements
  eligibility : Eligibility
  routeChoices : List MatrixRoute

/-- `RoutingMatrixActionRowV1`. -/
structure ActionRow extends MatrixRow where
  roleId : AgentRoleId
  promptVersion : JsString

/-- `RoutingMatrixActionTypeGroupV1`. -/
structure ActionTypeGroup where
  actionType : AgentActionType
  label : JsString
  displayOrder : JsNumber
  typeDefault : MatrixRow
  actions : List ActionRow

/-! ## Connections and attention -/

inductive ProviderConnectionKind
  | custom
  | known
  | piSession
deriving DecidableEq

inductive CatalogScanState
  | neverScanned
  | scanning
  | available
  | empty
  | failed
deriving DecidableEq

inductive CatalogGuidanceCode
  | scanNotStarted
  | scanInProgress
  | modelsAvailable
  | noModelsReturned
  | scanFailed
deriving DecidableEq

/-- `scanGuidance`. -/
def scanGuidance : CatalogScanState → CatalogGuidanceCode
  | .neverScanned => .scanNotStarted
  | .scanning => .scanInProgress
  | .available => .modelsAvailable
  | .empty => .noModelsReturned
  | .failed => .scanFailed

/-- `RoutingMatrixConnectionStateV1`. -/
structure ConnectionState where
  connectionId : JsString
  label : JsString
  providerKind : ProviderConnectionKind
  scanState : CatalogScanState
  guidanceCode : CatalogGuidanceCode
  claimedAt : Option JsString
  settledAt : Option JsString
  diagnosticOccurredAt : Option JsString
  safeMessage : Option JsString

/-- `RoutingAttentionV1`. -/
structure Attention where
  attentionId : JsString
  connectionId : JsString
  modelId : JsString
  reasonCode : JsString
  revisionId : JsString
  occurredAt : JsString
  acknowledgedAt : Option JsString

/-- `RoutingMatrixAttentionV1`. -/
structure MatrixAttention where
  attentionId : JsString
  attentionRevisionId : JsString
  affectedRoute : RouteIdentity
  reasonCode : JsString
  occurredAt : JsString
  acknowledgedAt : Option JsString

inductive MatrixState
  | ready
  | emptyChoices
  | globalUnavailable
deriving DecidableEq

/-- `RoutingMatrixSnapshotV1`. -/
structure MatrixSnapshot where
  policy : PolicyIdentity
  state : MatrixState
  global : MatrixRow
  groups : List ActionTypeGroup
  connectionStates : List ConnectionState
  attention : List MatrixAttention

/-- `isRoutingAttentionV1`. -/
def isAttention (value : Attention) : Bool :=
  isBoundedString 512 value.attentionId && isBoundedString 512 value.connectionId &&
    isBoundedString 512 value.modelId && isBoundedString 256 value.reasonCode &&
    isBoundedString 256 value.revisionId && isCanonicalIso value.occurredAt &&
    value.acknowledgedAt.all isCanonicalIso

/-! ## The contract of the matrix -/

/-- `Date.parse(left) >= Date.parse(right)`, of two canonical timestamps. -/
def notBefore (left right : JsString) : Bool :=
  match Date.canonicalTime left, Date.canonicalTime right with
  | some left, some right => right ≤ left
  | _, _ => false

/-- `strictlyIncreasing`. -/
def strictlyIncreasing (values : List JsNumber) : Bool :=
  (values.zip values.tail).all fun pair => JsNumber.lt pair.1 pair.2

/-- `isRoutingMatrixReasonV1`, for every reason of a list without repetitions in the
order of `reasonOrder`. -/
def isReasonList (value : List MatrixReason) : Bool :=
  (value.all fun reason => reason.message == reasonMessages reason.code) &&
    strictlyIncreasing (value.map fun reason => .int reason.code.ctorIdx)

/-- `isAvailabilityRefusal`. -/
def isAvailabilityRefusal (code : ReasonCode) : Bool :=
  code == .connectionInactive || code == .routeUnavailable

/-- `isRoutingMatrixRouteV1`. -/
def isMatrixRoute (value : MatrixRoute) : Bool :=
  isRouteIdentity value.route && isBoundedString 10000 value.connectionLabel &&
    value.modelDisplayLabel.all (isBoundedString 10000) && isReasonList value.reasons &&
    let hasAvailabilityRefusal := value.reasons.any fun reason => isAvailabilityRefusal reason.code
    match value.availability with
    | .unavailable => !value.eligible && 0 < value.reasons.length && hasAvailabilityRefusal
    | .available =>
        if value.eligible then value.reasons.length == 0
        else 0 < value.reasons.length && !hasAvailabilityRefusal

/-- `isRoutingMatrixEligibilityV1`. -/
def isEligibility (value : Eligibility) : Bool :=
  isReasonList value.reasons && value.eligible == (value.reasons.length == 0)

/-- `nonNegative`. -/
def isNonNegativeSafe : JsNumber → Bool
  | .int value => 0 ≤ value && value ≤ JsValue.maxSafeInteger
  | _ => false

/-- `isRowBase`, but for the kind of the scope. -/
def isRowBase (value : MatrixRow) : Bool :=
  isSelectorScope value.scope && value.scopeKey == selectorScopeKey value.scope &&
    isBoundedString 256 value.label && isNonNegativeSafe value.displayOrder &&
    isRouteSelector value.configured && value.configuredFailurePolicy.all isFailurePolicy &&
    isMatrixRoute value.effectiveRoute && isFailurePolicy value.effectiveFailurePolicy &&
    isCapabilityRequirements value.requirements && isEligibility value.eligibility &&
    value.routeChoices.all isMatrixRoute &&
    hasUniqueValues (value.routeChoices.map fun choice => routeIdentityKey choice.route) &&
    (value.configured == .inherit) == (value.configuredFailurePolicy == none) &&
    value.eligibility.eligible == value.effectiveRoute.eligible &&
    value.eligibility.reasons == value.effectiveRoute.reasons

/-- `explicitRowMatchesConfigured`. -/
def explicitRowMatchesConfigured (value : MatrixRow) : Bool :=
  value.configured == .route value.effectiveRoute.route &&
    value.configuredFailurePolicy == some value.effectiveFailurePolicy

/-- `isRoutingMatrixGlobalRowV1`. -/
def isGlobalRow (value : MatrixRow) : Bool :=
  isRowBase value && value.scope == .global && value.scopeKey == js "global" &&
    value.label == js "Global Default" && value.displayOrder == .int 0 &&
    value.configuredFailurePolicy == some .failImmediately &&
    value.effectiveFailurePolicy == .failImmediately && value.policySource == .global &&
    explicitRowMatchesConfigured value

/-- `isRoutingMatrixActionTypeRowV1`, of the row of a type. -/
def isActionTypeRow (actionType : AgentActionType) (value : MatrixRow) : Bool :=
  isRowBase value && value.scope == .actionType actionType &&
    isPositiveSafeInteger value.displayOrder &&
    match value.configured with
    | .route _ => value.policySource == .actionType && explicitRowMatchesConfigured value
    | .inherit =>
        value.policySource == .global && value.effectiveFailurePolicy == .failImmediately

/-- `isRoutingMatrixActionRowV1`. -/
def isActionRow (value : ActionRow) : Bool :=
  isRowBase value.toMatrixRow && (value.scope matches .action _) &&
    isPositiveSafeInteger value.displayOrder && isBoundedString 256 value.promptVersion &&
    match value.configured with
    | .route _ => value.policySource == .action && explicitRowMatchesConfigured value.toMatrixRow
    | .inherit => value.policySource == .actionType ||
        (value.policySource == .global && value.effectiveFailurePolicy == .failImmediately)

/-- `isRoutingMatrixActionTypeGroupV1`. -/
def isActionTypeGroup (value : ActionTypeGroup) : Bool :=
  isBoundedString 256 value.label && isPositiveSafeInteger value.displayOrder &&
    isActionTypeRow value.actionType value.typeDefault && value.typeDefault.label == value.label &&
    value.typeDefault.displayOrder == value.displayOrder && 0 < value.actions.length &&
    value.actions.all isActionRow &&
    strictlyIncreasing (value.actions.map fun action => action.displayOrder) &&
    hasUniqueValues (value.actions.map fun action => action.scopeKey)

/-- `isRoutingMatrixPolicyIdentityV1`. -/
def isPolicyIdentity (value : PolicyIdentity) : Bool :=
  isBoundedString 256 value.revisionId && 0 < value.revisionNumber &&
    value.revisionNumber ≤ JsValue.maxSafeInteger && isBoundedString 256 value.registryVersion &&
    isBoundedString 512 value.revisionGuard

/-- `isRoutingMatrixConnectionStateV1`. -/
def isConnectionState (value : ConnectionState) : Bool :=
  isBoundedString 10000 value.connectionId && isBoundedString 10000 value.label &&
    value.guidanceCode == scanGuidance value.scanState && value.claimedAt.all isCanonicalIso &&
    value.settledAt.all isCanonicalIso && value.diagnosticOccurredAt.all isCanonicalIso &&
    value.safeMessage.all (isBoundedString 10000) &&
    match value.scanState, value.claimedAt, value.settledAt, value.safeMessage with
    | .neverScanned, claimedAt, settledAt, safeMessage =>
        claimedAt.isNone && settledAt.isNone && value.diagnosticOccurredAt.isNone &&
          safeMessage.isNone
    | _, none, _, _ => false
    | .scanning, some _, settledAt, safeMessage => settledAt.isNone && safeMessage.isNone
    | _, some claimedAt, some settledAt, some _ => notBefore settledAt claimedAt
    | _, some _, _, _ => false

/-- `isRoutingMatrixAttentionV1`. -/
def isMatrixAttention (value : MatrixAttention) : Bool :=
  isBoundedString 512 value.attentionId && isBoundedString 256 value.attentionRevisionId &&
    isRouteIdentity value.affectedRoute && isBoundedString 256 value.reasonCode &&
    isCanonicalIso value.occurredAt && value.acknowledgedAt.all isCanonicalIso &&
    value.acknowledgedAt.all (notBefore · value.occurredAt)

/-- All rows of a matrix. -/
def matrixRows (globalRow : MatrixRow) (groups : List ActionTypeGroup) : List MatrixRow :=
  globalRow :: groups.flatMap fun group =>
    group.typeDefault :: group.actions.map ActionRow.toMatrixRow

/-- The state of a matrix with these rows. -/
def matrixState (globalRow : MatrixRow) (groups : List ActionTypeGroup) : MatrixState :=
  if globalRow.effectiveRoute.availability = .unavailable then .globalUnavailable
  else if (matrixRows globalRow groups).all fun row =>
      row.routeChoices.all fun choice => !choice.eligible then .emptyChoices
  else .ready

/-- `isRoutingMatrixSnapshotV1`. -/
def isMatrixSnapshot (value : MatrixSnapshot) : Bool :=
  isPolicyIdentity value.policy && isGlobalRow value.global && 0 < value.groups.length &&
    value.groups.all isActionTypeGroup && value.connectionStates.all isConnectionState &&
    value.attention.all isMatrixAttention &&
    strictlyIncreasing (value.groups.map fun group => group.displayOrder) &&
    hasUniqueValues (value.groups.map fun group => group.actionType) &&
    hasUniqueValues (value.groups.flatMap fun group => group.actions.map fun action =>
      action.scopeKey) &&
    hasUniqueValues (value.connectionStates.map fun connection => connection.connectionId) &&
    hasUniqueValues (value.attention.map fun item => item.attentionId) &&
    value.state == matrixState value.global value.groups

end Hepha.Routing
