import Hepha.Js.Date
import Hepha.Js.Unicode

/-!
# Runtime evidence

The contract of one runtime invocation: a receipt for the chain, at most two
attempts of it and at most one event for the change of route between them.  A
timestamp is its time value, to which a canonical timestamp is equivalent.

`stored` is a record as its row keeps it.  The columns that hold free text go
through UTF-8; the others are ASCII by the guards, and the three lists of ids
are JSON columns, which escape what UTF-8 cannot hold.
-/

namespace Hepha.Runtime

structure RouteIdentity where
  connectionId : JsString
  modelId : JsString
  deriving DecidableEq

inductive AgentActionType where
  | discoveryPlanning
  | implementation
  | review
  | completion
  | knowledgeDocumentation
  deriving DecidableEq

inductive AgentRoleId where
  | productArchitect
  | requirementsAgent
  | uxDesignAgent
  | planningAgent
  | implementationAgent
  | codeReviewAgent
  | completionAgent
  | phaseLessonsCaptureAgent
  | featureLessonsWriterAgent
  | postCompleteLessonsCuratorAgent
  deriving DecidableEq

inductive RoutingPolicySource where
  | global
  | actionType
  | action
  deriving DecidableEq

inductive RuntimeInvocationKind where
  | root
  | nested
  deriving DecidableEq

inductive RuntimeInvocationStatus where
  | running
  | completed
  | failed
  | timedOut
  | cancelled
  deriving DecidableEq

inductive RuntimeAttemptKind where
  | primary
  | fallback
  | recovery
  deriving DecidableEq

inductive RuntimeAttemptStatus where
  | preparing
  | running
  | completed
  | failed
  | timedOut
  | cancelled
  deriving DecidableEq

inductive RuntimeWorkState where
  | none
  | started
  | checkpointed
  deriving DecidableEq

inductive RuntimeAuthenticationKind where
  | piSession
  | injectedConnectionSecret
  deriving DecidableEq

inductive RuntimeRouteChangeKind where
  | fallback
  | recovery
  deriving DecidableEq

inductive RuntimeRouteChangeResult where
  | started
  | completed
  | failed
  deriving DecidableEq

inductive RuntimeSafeFailureCode where
  | invalidInput
  | connectionUnavailable
  | authUnavailable
  | providerUnsupported
  | secretReadFailed
  | contextPreparationFailed
  | spawnFailed
  | paymentRequired
  | quotaExceeded
  | rateLimited
  | endpointUnavailable
  | providerUnavailable
  | timedOut
  | cancelled
  | safetyRejected
  | invalidOutput
  | checkpointRequired
  | cleanupFailed
  | persistenceFailed
  deriving DecidableEq

/-- Immutable facts of a chain, with its canonically ordered child identities. -/
structure RuntimeInvocationReceipt where
  invocationId : JsString
  rootInvocationId : JsString
  parentInvocationId : Option JsString
  invocationKind : RuntimeInvocationKind
  planHash : JsString
  actionId : JsString
  actionType : AgentActionType
  roleId : AgentRoleId
  promptVersion : JsString
  policySource : RoutingPolicySource
  revisionId : JsString
  approvedPrimaryRoute : RouteIdentity
  approvedSecondRoute : Option RouteIdentity
  projectId : JsString
  cardKey : Option JsString
  workflowRunId : Option JsString
  workflowNodeId : Option JsString
  phaseExecutionContractId : Option JsString
  phaseNumber : Option ℕ
  taskId : Option JsString
  correlationId : JsString
  selectedLessonIds : List JsString
  attemptIds : List JsString
  routeChangeEventIds : List JsString
  status : RuntimeInvocationStatus
  openedAt : ℤ
  settledAt : Option ℤ
  durationMs : Option ℕ
  failureCode : Option RuntimeSafeFailureCode
  deriving DecidableEq

/-- One process attempt. -/
structure RuntimeAttempt where
  attemptId : JsString
  invocationId : JsString
  attemptIndex : ℕ
  attemptKind : RuntimeAttemptKind
  approvedRoute : RouteIdentity
  actualRoute : Option RouteIdentity
  providerId : Option JsString
  authenticationConnectionId : Option JsString
  authenticationKind : Option RuntimeAuthenticationKind
  credentialVersion : Option ℕ
  workState : RuntimeWorkState
  checkpointId : Option JsString
  checkpointCursor : Option JsString
  status : RuntimeAttemptStatus
  preparationStartedAt : ℤ
  startedAt : Option ℤ
  spawnedAt : Option ℤ
  terminalAt : Option ℤ
  durationMs : Option ℕ
  exitCode : Option ℤ
  timeoutMarker : Bool
  failureCode : Option RuntimeSafeFailureCode
  deriving DecidableEq

/-- One auditable edge between attempts; its `eventIndex` is always 0. -/
structure RuntimeRouteChangeEvent where
  eventId : JsString
  invocationId : JsString
  sourceInvocationId : JsString
  sourceAttemptId : JsString
  targetInvocationId : JsString
  targetAttemptId : JsString
  kind : RuntimeRouteChangeKind
  reasonCode : RuntimeSafeFailureCode
  occurredAt : ℤ
  sourceApprovedRoute : RouteIdentity
  targetApprovedRoute : RouteIdentity
  result : RuntimeRouteChangeResult
  deriving DecidableEq

/-- The complete read model of a chain. -/
structure RuntimeInvocationEvidence where
  receipt : RuntimeInvocationReceipt
  attempts : List RuntimeAttempt
  routeChangeEvents : List RuntimeRouteChangeEvent
  deriving DecidableEq

/-- The errors of the store, with their fixed texts. -/
inductive RuntimePersistenceErrorCode where
  | invalidReceipt
  | conflict
  | corrupt
  | historyLimit
  deriving DecidableEq

def RuntimePersistenceErrorCode.message : RuntimePersistenceErrorCode → String
  | .invalidReceipt => "Runtime invocation evidence is invalid."
  | .conflict => "Runtime invocation evidence conflicts with an immutable persisted fact."
  | .corrupt => "Persisted runtime invocation evidence is invalid."
  | .historyLimit => "Runtime invocation evidence exceeds the bounded history limit."

abbrev RuntimePersistenceResult (α : Type) := Except RuntimePersistenceErrorCode α

/-! ## Stored records -/

def RouteIdentity.stored (route : RouteIdentity) : RouteIdentity where
  connectionId := route.connectionId.toWellFormed
  modelId := route.modelId.toWellFormed

def RuntimeInvocationReceipt.stored (r : RuntimeInvocationReceipt) : RuntimeInvocationReceipt :=
  { r with
    invocationId := r.invocationId.toWellFormed
    rootInvocationId := r.rootInvocationId.toWellFormed
    parentInvocationId := r.parentInvocationId.map (·.toWellFormed)
    promptVersion := r.promptVersion.toWellFormed
    revisionId := r.revisionId.toWellFormed
    approvedPrimaryRoute := r.approvedPrimaryRoute.stored
    approvedSecondRoute := r.approvedSecondRoute.map (·.stored)
    projectId := r.projectId.toWellFormed
    cardKey := r.cardKey.map (·.toWellFormed)
    workflowRunId := r.workflowRunId.map (·.toWellFormed)
    workflowNodeId := r.workflowNodeId.map (·.toWellFormed)
    phaseExecutionContractId := r.phaseExecutionContractId.map (·.toWellFormed)
    taskId := r.taskId.map (·.toWellFormed)
    correlationId := r.correlationId.toWellFormed }

def RuntimeAttempt.stored (a : RuntimeAttempt) : RuntimeAttempt :=
  { a with
    attemptId := a.attemptId.toWellFormed
    invocationId := a.invocationId.toWellFormed
    approvedRoute := a.approvedRoute.stored
    actualRoute := a.actualRoute.map (·.stored)
    providerId := a.providerId.map (·.toWellFormed)
    authenticationConnectionId := a.authenticationConnectionId.map (·.toWellFormed)
    checkpointId := a.checkpointId.map (·.toWellFormed)
    checkpointCursor := a.checkpointCursor.map (·.toWellFormed) }

def RuntimeRouteChangeEvent.stored (e : RuntimeRouteChangeEvent) : RuntimeRouteChangeEvent :=
  { e with
    eventId := e.eventId.toWellFormed
    invocationId := e.invocationId.toWellFormed
    sourceInvocationId := e.sourceInvocationId.toWellFormed
    sourceAttemptId := e.sourceAttemptId.toWellFormed
    targetInvocationId := e.targetInvocationId.toWellFormed
    targetAttemptId := e.targetAttemptId.toWellFormed
    sourceApprovedRoute := e.sourceApprovedRoute.stored
    targetApprovedRoute := e.targetApprovedRoute.stored }

@[simp] theorem RouteIdentity.stored_stored (route : RouteIdentity) :
    route.stored.stored = route.stored := by
  simp [RouteIdentity.stored]

@[simp] theorem RuntimeAttempt.stored_stored (a : RuntimeAttempt) : a.stored.stored = a.stored := by
  simp [RuntimeAttempt.stored, Option.map_map, Function.comp_def]

@[simp] theorem RuntimeRouteChangeEvent.stored_stored (e : RuntimeRouteChangeEvent) :
    e.stored.stored = e.stored := by
  simp [RuntimeRouteChangeEvent.stored]

@[simp] theorem RuntimeInvocationReceipt.stored_stored (r : RuntimeInvocationReceipt) :
    r.stored.stored = r.stored := by
  simp [RuntimeInvocationReceipt.stored, Option.map_map, Function.comp_def]

end Hepha.Runtime
