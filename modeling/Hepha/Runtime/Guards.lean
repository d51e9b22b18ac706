import Hepha.Js.Collections
import Hepha.Js.Value
import Hepha.Runtime.Contracts

/-!
# The guards of runtime evidence

Every guard of the contract has two parts.  The shape of a value, its keys and
the types of its fields, is read by a `decode` function; the conditions on a
value of that shape are a Boolean `valid` function.  A guard on an unknown
value is one after the other, and reading a row back, which already has the
shape, is the second alone.
-/

namespace Hepha.Runtime

open JsValue

/-! ## Fields -/

/-- `text(value, max)`, on a string. -/
def isText (max : ℕ) (value : JsString) : Bool :=
  0 < value.length && value.length ≤ max && value.trim == value && !value.any isControl

def isNullableText (max : ℕ) (value : Option JsString) : Bool :=
  value.all (isText max)

/-- `/^[a-z][a-z0-9-]*$/` on a text of at most 128 units. -/
def isActionId (value : JsString) : Bool :=
  isText 128 value && (value.head?.any fun u => 0x61 ≤ u && u ≤ 0x7A) &&
    value.all fun u => (0x61 ≤ u && u ≤ 0x7A) || (0x30 ≤ u && u ≤ 0x39) || u == 0x2D

/-- A list of distinct ids, of a bounded length. -/
def isOrderedIds (min max : ℕ) (ids : List JsString) : Bool :=
  min ≤ ids.length && ids.length ≤ max && ids.all (isText 512) && hasUniqueValues ids

def isSortedUniqueText (maxCount maxLength : ℕ) (values : List JsString) : Bool :=
  values.length ≤ maxCount && values.all (isText maxLength) &&
    (values.zip values.tail).all fun pair => decide (pair.1 < pair.2)

def isSafe (value : ℕ) : Bool :=
  value ≤ maxSafeInteger

def timestamp (value : JsValue) : Option ℤ :=
  value.isString.bind Date.canonicalTime

def failureCodes : List (String × RuntimeSafeFailureCode) :=
  [("invalid_input", .invalidInput), ("connection_unavailable", .connectionUnavailable),
    ("auth_unavailable", .authUnavailable), ("provider_unsupported", .providerUnsupported),
    ("secret_read_failed", .secretReadFailed),
    ("context_preparation_failed", .contextPreparationFailed), ("spawn_failed", .spawnFailed),
    ("payment_required", .paymentRequired), ("quota_exceeded", .quotaExceeded),
    ("rate_limited", .rateLimited), ("endpoint_unavailable", .endpointUnavailable),
    ("provider_unavailable", .providerUnavailable), ("timed_out", .timedOut),
    ("cancelled", .cancelled), ("safety_rejected", .safetyRejected),
    ("invalid_output", .invalidOutput), ("checkpoint_required", .checkpointRequired),
    ("cleanup_failed", .cleanupFailed), ("persistence_failed", .persistenceFailed)]

def actionTypes : List (String × AgentActionType) :=
  [("discovery_planning", .discoveryPlanning), ("implementation", .implementation),
    ("review", .review), ("completion", .completion),
    ("knowledge_documentation", .knowledgeDocumentation)]

def roleIds : List (String × AgentRoleId) :=
  [("product-architect", .productArchitect), ("requirements-agent", .requirementsAgent),
    ("ux-design-agent", .uxDesignAgent), ("planning-agent", .planningAgent),
    ("implementation-agent", .implementationAgent), ("code-review-agent", .codeReviewAgent),
    ("completion-agent", .completionAgent),
    ("phase-lessons-capture-agent", .phaseLessonsCaptureAgent),
    ("feature-lessons-writer-agent", .featureLessonsWriterAgent),
    ("post-complete-lessons-curator-agent", .postCompleteLessonsCuratorAgent)]

def policySources : List (String × RoutingPolicySource) :=
  [("global", .global), ("action_type", .actionType), ("action", .action)]

/-- The contract version every record carries. -/
def hasSchemaVersion (version : String) (value : JsValue) : Bool :=
  ((value.get (js "schemaVersion")).isOneOf [(version, ())]).isSome

def decodeRoute (value : JsValue) : Option RouteIdentity := do
  guard (value.exactKeys ["connectionId", "modelId"])
  let connectionId ← (value.get (js "connectionId")).isString
  let modelId ← (value.get (js "modelId")).isString
  return { connectionId, modelId }

/-- `isRuntimeSafeRouteIdentityV1`. -/
def routeValid (route : RouteIdentity) : Bool :=
  isText 512 route.connectionId && isText 512 route.modelId

def sameRoute (left right : RouteIdentity) : Bool :=
  left.connectionId == right.connectionId && left.modelId == right.modelId

/-- `atOrAfter`, on timestamps that are dates. -/
def atOrAfter (candidate baseline : ℤ) : Bool :=
  baseline ≤ candidate

/-! ## The receipt -/

def decodeReceipt (value : JsValue) : Option RuntimeInvocationReceipt := do
  guard (value.exactKeys ["schemaVersion", "invocationId", "rootInvocationId",
    "parentInvocationId", "invocationKind", "planHash", "actionId", "actionType", "roleId",
    "promptVersion", "policySource", "revisionId", "approvedPrimaryRoute", "approvedSecondRoute",
    "projectId", "cardKey", "workflowRunId", "workflowNodeId", "phaseExecutionContractId",
    "phaseNumber", "taskId", "correlationId", "selectedLessonIds", "attemptIds",
    "routeChangeEventIds", "status", "openedAt", "settledAt", "durationMs", "failureCode"])
  guard (hasSchemaVersion "runtime-execution/v1" value)
  let invocationId ← (value.get (js "invocationId")).isString
  let rootInvocationId ← (value.get (js "rootInvocationId")).isString
  let parentInvocationId ← isNullable isString (value.get (js "parentInvocationId"))
  let invocationKind ← (value.get (js "invocationKind")).isOneOf
    [("root", RuntimeInvocationKind.root), ("nested", .nested)]
  let planHash ← (value.get (js "planHash")).isString
  let actionId ← (value.get (js "actionId")).isString
  let actionType ← (value.get (js "actionType")).isOneOf actionTypes
  let roleId ← (value.get (js "roleId")).isOneOf roleIds
  let promptVersion ← (value.get (js "promptVersion")).isString
  let policySource ← (value.get (js "policySource")).isOneOf policySources
  let revisionId ← (value.get (js "revisionId")).isString
  let approvedPrimaryRoute ← decodeRoute (value.get (js "approvedPrimaryRoute"))
  let approvedSecondRoute ← isNullable decodeRoute (value.get (js "approvedSecondRoute"))
  let projectId ← (value.get (js "projectId")).isString
  let cardKey ← isNullable isString (value.get (js "cardKey"))
  let workflowRunId ← isNullable isString (value.get (js "workflowRunId"))
  let workflowNodeId ← isNullable isString (value.get (js "workflowNodeId"))
  let phaseExecutionContractId ← isNullable isString (value.get (js "phaseExecutionContractId"))
  let phaseNumber ← isNullable isNatural (value.get (js "phaseNumber"))
  let taskId ← isNullable isString (value.get (js "taskId"))
  let correlationId ← (value.get (js "correlationId")).isString
  let selectedLessonIds ← (value.get (js "selectedLessonIds")).isArrayOf isString
  let attemptIds ← (value.get (js "attemptIds")).isArrayOf isString
  let routeChangeEventIds ← (value.get (js "routeChangeEventIds")).isArrayOf isString
  let status ← (value.get (js "status")).isOneOf
    [("running", RuntimeInvocationStatus.running), ("completed", .completed),
      ("failed", .failed), ("timed_out", .timedOut), ("cancelled", .cancelled)]
  let openedAt ← timestamp (value.get (js "openedAt"))
  let settledAt ← isNullable timestamp (value.get (js "settledAt"))
  let durationMs ← isNullable isNatural (value.get (js "durationMs"))
  let failureCode ← isNullable (isOneOf failureCodes) (value.get (js "failureCode"))
  return { invocationId, rootInvocationId, parentInvocationId, invocationKind, planHash, actionId,
           actionType, roleId, promptVersion, policySource, revisionId, approvedPrimaryRoute,
           approvedSecondRoute, projectId, cardKey, workflowRunId, workflowNodeId,
           phaseExecutionContractId, phaseNumber, taskId, correlationId, selectedLessonIds,
           attemptIds, routeChangeEventIds, status, openedAt, settledAt, durationMs, failureCode }

/-- The bounds of the receipt's fields. -/
def receiptFieldsValid (r : RuntimeInvocationReceipt) : Bool :=
  isText 512 r.invocationId && isText 512 r.rootInvocationId &&
    isNullableText 512 r.parentInvocationId && r.planHash.isHexDigest && isActionId r.actionId &&
    isText 256 r.promptVersion && isText 256 r.revisionId && routeValid r.approvedPrimaryRoute &&
    r.approvedSecondRoute.all routeValid && isText 512 r.projectId &&
    isNullableText 512 r.cardKey && isNullableText 512 r.workflowRunId &&
    isNullableText 512 r.workflowNodeId && isNullableText 512 r.phaseExecutionContractId &&
    r.phaseNumber.all isSafe && isNullableText 512 r.taskId && isText 512 r.correlationId &&
    isSortedUniqueText 128 512 r.selectedLessonIds && isOrderedIds 1 2 r.attemptIds &&
    isOrderedIds 0 1 r.routeChangeEventIds && r.durationMs.all isSafe

/-- A root is its own root and has no parent; a nested invocation has another
root and a parent. -/
def kindCoherent (r : RuntimeInvocationReceipt) : Bool :=
  match r.invocationKind with
  | .root => r.rootInvocationId == r.invocationId && r.parentInvocationId.isNone
  | .nested => r.parentInvocationId.isSome && r.rootInvocationId != r.invocationId

/-- A running chain has no settlement; a settled one has its duration, and a
failure code unless it completed. -/
def settlementCoherent (r : RuntimeInvocationReceipt) : Bool :=
  match r.status with
  | .running => r.settledAt.isNone && r.durationMs.isNone && r.failureCode.isNone
  | status =>
      (match r.settledAt, r.durationMs with
        | some settledAt, some durationMs =>
            atOrAfter settledAt r.openedAt && settledAt - r.openedAt == durationMs
        | _, _ => false) &&
      (if status = .completed then r.failureCode.isNone else r.failureCode.isSome)

/-- The two approved routes differ. -/
def routesDistinct (r : RuntimeInvocationReceipt) : Bool :=
  r.approvedSecondRoute.all fun second => !sameRoute r.approvedPrimaryRoute second

/-- `isRuntimeInvocationReceiptV1`, on a value of the receipt's shape. -/
def receiptValid (r : RuntimeInvocationReceipt) : Bool :=
  receiptFieldsValid r && kindCoherent r &&
    r.phaseExecutionContractId.isNone == r.phaseNumber.isNone && routesDistinct r &&
    !(r.attemptIds.length == 2 &&
      (r.approvedSecondRoute.isNone || r.routeChangeEventIds.length != 1)) &&
    !(r.attemptIds.length == 1 && decide (r.routeChangeEventIds.length > 1)) &&
    settlementCoherent r

def isRuntimeInvocationReceipt (value : JsValue) : Option RuntimeInvocationReceipt :=
  (decodeReceipt value).filter receiptValid

/-! ## The attempt -/

def decodeAttempt (value : JsValue) : Option RuntimeAttempt := do
  guard (value.exactKeys ["schemaVersion", "attemptId", "invocationId", "attemptIndex",
    "attemptKind", "approvedRoute", "actualRoute", "providerId", "authenticationConnectionId",
    "authenticationKind", "credentialVersion", "workState", "checkpointId", "checkpointCursor",
    "status", "preparationStartedAt", "startedAt", "spawnedAt", "terminalAt", "durationMs",
    "exitCode", "timeoutMarker", "failureCode"])
  guard (hasSchemaVersion "runtime-execution/v1" value)
  let attemptId ← (value.get (js "attemptId")).isString
  let invocationId ← (value.get (js "invocationId")).isString
  let attemptIndex ← (value.get (js "attemptIndex")).isNatural
  let attemptKind ← (value.get (js "attemptKind")).isOneOf
    [("primary", RuntimeAttemptKind.primary), ("fallback", .fallback), ("recovery", .recovery)]
  let approvedRoute ← decodeRoute (value.get (js "approvedRoute"))
  let actualRoute ← isNullable decodeRoute (value.get (js "actualRoute"))
  let providerId ← isNullable isString (value.get (js "providerId"))
  let authenticationConnectionId ←
    isNullable isString (value.get (js "authenticationConnectionId"))
  let authenticationKind ← isNullable
    (isOneOf [("pi_session", RuntimeAuthenticationKind.piSession),
      ("injected_connection_secret", .injectedConnectionSecret)])
    (value.get (js "authenticationKind"))
  let credentialVersion ← isNullable isNatural (value.get (js "credentialVersion"))
  let workState ← (value.get (js "workState")).isOneOf
    [("none", RuntimeWorkState.none), ("started", .started), ("checkpointed", .checkpointed)]
  let checkpointId ← isNullable isString (value.get (js "checkpointId"))
  let checkpointCursor ← isNullable isString (value.get (js "checkpointCursor"))
  let status ← (value.get (js "status")).isOneOf
    [("preparing", RuntimeAttemptStatus.preparing), ("running", .running),
      ("completed", .completed), ("failed", .failed), ("timed_out", .timedOut),
      ("cancelled", .cancelled)]
  let preparationStartedAt ← timestamp (value.get (js "preparationStartedAt"))
  let startedAt ← isNullable timestamp (value.get (js "startedAt"))
  let spawnedAt ← isNullable timestamp (value.get (js "spawnedAt"))
  let terminalAt ← isNullable timestamp (value.get (js "terminalAt"))
  let durationMs ← isNullable isNatural (value.get (js "durationMs"))
  let exitCode ← isNullable isInteger (value.get (js "exitCode"))
  let timeoutMarker ← (value.get (js "timeoutMarker")).isBoolean
  let failureCode ← isNullable (isOneOf failureCodes) (value.get (js "failureCode"))
  return { attemptId, invocationId, attemptIndex, attemptKind, approvedRoute, actualRoute,
           providerId, authenticationConnectionId, authenticationKind, credentialVersion,
           workState, checkpointId, checkpointCursor, status, preparationStartedAt, startedAt,
           spawnedAt, terminalAt, durationMs, exitCode, timeoutMarker, failureCode }

/-- The bounds of the attempt's fields. -/
def attemptFieldsValid (a : RuntimeAttempt) : Bool :=
  isText 512 a.attemptId && isText 512 a.invocationId && a.attemptIndex ≤ 1 &&
    routeValid a.approvedRoute && a.actualRoute.all routeValid &&
    isNullableText 256 a.providerId && isNullableText 512 a.authenticationConnectionId &&
    a.credentialVersion.all (fun version => isSafe version && decide (0 < version)) &&
    isNullableText 512 a.checkpointId && isNullableText 512 a.checkpointCursor &&
    a.durationMs.all isSafe && a.exitCode.all fun code => -2147483648 ≤ code && code ≤ 2147483647

def authAbsent (a : RuntimeAttempt) : Bool :=
  a.providerId.isNone && a.authenticationConnectionId.isNone && a.authenticationKind.isNone &&
    a.credentialVersion.isNone

/-- No authentication facts at all, or those of one of the two kinds. -/
def authCoherent (a : RuntimeAttempt) : Bool :=
  authAbsent a ||
    (a.providerId.isSome && a.authenticationConnectionId.isSome &&
      ((a.authenticationKind == some .piSession && a.credentialVersion.isNone) ||
        (a.authenticationKind == some .injectedConnectionSecret && a.credentialVersion.isSome)))

/-- A checkpoint has its id and cursor, and nothing else has them. -/
def checkpointCoherent (a : RuntimeAttempt) : Bool :=
  if a.workState = .checkpointed then a.checkpointId.isSome && a.checkpointCursor.isSome
  else a.checkpointId.isNone && a.checkpointCursor.isNone

/-- The start of the process: prepared, started and spawned, in this order. -/
def spawnCoherent (a : RuntimeAttempt) : Bool :=
  match a.startedAt, a.spawnedAt with
  | some startedAt, some spawnedAt =>
      atOrAfter startedAt a.preparationStartedAt && atOrAfter spawnedAt startedAt
  | _, _ => false

/-- Nothing of the end of the process is recorded yet. -/
def openEnded (a : RuntimeAttempt) : Bool :=
  a.terminalAt.isNone && a.durationMs.isNone && a.exitCode.isNone && !a.timeoutMarker &&
    a.failureCode.isNone

def preparingCoherent (a : RuntimeAttempt) : Bool :=
  a.actualRoute.isNone && a.startedAt.isNone && a.spawnedAt.isNone && openEnded a &&
    a.workState == .none

def runningCoherent (a : RuntimeAttempt) : Bool :=
  a.actualRoute.isSome && spawnCoherent a && openEnded a

/-- The end of an attempt, and the failure code its status asks for. -/
def terminalCoherent (a : RuntimeAttempt) : Bool :=
  (match a.terminalAt, a.durationMs with
    | some terminalAt, some durationMs =>
        atOrAfter terminalAt a.preparationStartedAt &&
          terminalAt - a.preparationStartedAt == durationMs
    | _, _ => false) &&
  (if a.actualRoute.isNone then
      a.startedAt.isNone && a.spawnedAt.isNone && a.workState == .none
    else
      spawnCoherent a && match a.terminalAt, a.spawnedAt with
        | some terminalAt, some spawnedAt => atOrAfter terminalAt spawnedAt
        | _, _ => false) &&
  match a.status with
  | .completed => a.actualRoute.isSome && a.failureCode.isNone && !a.timeoutMarker
  | .timedOut => a.actualRoute.isSome && a.timeoutMarker && a.failureCode == some .timedOut
  | .cancelled => !a.timeoutMarker && a.failureCode == some .cancelled
  | _ => !a.timeoutMarker && a.failureCode.isSome

def statusCoherent (a : RuntimeAttempt) : Bool :=
  match a.status with
  | .preparing => preparingCoherent a
  | .running => runningCoherent a
  | _ => terminalCoherent a

/-- `isRuntimeAttemptV1`, on a value of the attempt's shape. -/
def attemptValid (a : RuntimeAttempt) : Bool :=
  attemptFieldsValid a && (a.attemptIndex == 0) == (a.attemptKind == .primary) &&
    a.actualRoute.all (sameRoute · a.approvedRoute) && authCoherent a &&
    !(a.actualRoute.isSome && authAbsent a) && checkpointCoherent a && statusCoherent a

def isRuntimeAttempt (value : JsValue) : Option RuntimeAttempt :=
  (decodeAttempt value).filter attemptValid

def isTerminalAttempt (a : RuntimeAttempt) : Bool :=
  a.status == .completed || a.status == .failed || a.status == .timedOut || a.status == .cancelled

/-! ## The route change event -/

def decodeEvent (value : JsValue) : Option RuntimeRouteChangeEvent := do
  guard (value.exactKeys ["schemaVersion", "eventId", "invocationId", "eventIndex",
    "sourceInvocationId", "sourceAttemptId", "targetInvocationId", "targetAttemptId", "kind",
    "reasonCode", "occurredAt", "sourceApprovedRoute", "targetApprovedRoute", "result"])
  guard (hasSchemaVersion "runtime-execution/v1" value)
  let eventId ← (value.get (js "eventId")).isString
  let invocationId ← (value.get (js "invocationId")).isString
  let eventIndex ← (value.get (js "eventIndex")).isInteger
  guard (eventIndex = 0)
  let sourceInvocationId ← (value.get (js "sourceInvocationId")).isString
  let sourceAttemptId ← (value.get (js "sourceAttemptId")).isString
  let targetInvocationId ← (value.get (js "targetInvocationId")).isString
  let targetAttemptId ← (value.get (js "targetAttemptId")).isString
  let kind ← (value.get (js "kind")).isOneOf
    [("fallback", RuntimeRouteChangeKind.fallback), ("recovery", .recovery)]
  let reasonCode ← (value.get (js "reasonCode")).isOneOf failureCodes
  let occurredAt ← timestamp (value.get (js "occurredAt"))
  let sourceApprovedRoute ← decodeRoute (value.get (js "sourceApprovedRoute"))
  let targetApprovedRoute ← decodeRoute (value.get (js "targetApprovedRoute"))
  let result ← (value.get (js "result")).isOneOf
    [("started", RuntimeRouteChangeResult.started), ("completed", .completed),
      ("failed", .failed)]
  return { eventId, invocationId, sourceInvocationId, sourceAttemptId, targetInvocationId,
           targetAttemptId, kind, reasonCode, occurredAt, sourceApprovedRoute,
           targetApprovedRoute, result }

/-- `isRuntimeRouteChangeEventV1`, on a value of the event's shape. -/
def eventValid (e : RuntimeRouteChangeEvent) : Bool :=
  isText 512 e.eventId && isText 512 e.invocationId && isText 512 e.sourceInvocationId &&
    isText 512 e.sourceAttemptId && isText 512 e.targetInvocationId &&
    isText 512 e.targetAttemptId && routeValid e.sourceApprovedRoute &&
    routeValid e.targetApprovedRoute && !sameRoute e.sourceApprovedRoute e.targetApprovedRoute

def isRuntimeRouteChangeEvent (value : JsValue) : Option RuntimeRouteChangeEvent :=
  (decodeEvent value).filter eventValid

end Hepha.Runtime
