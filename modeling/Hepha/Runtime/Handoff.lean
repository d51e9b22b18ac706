import Hepha.Connections.Stores
import Hepha.Lib.Interaction
import Hepha.Runtime.Store

/-!
# The handover of a plan

What an executor of a handoff plan is given, and the requests it makes of its
surroundings: of the clock, the connections, the vault, the worker's isolated
context and process, and the store of runtime evidence.

A promise that is rejected is an answer of its own.  The environment of a worker
and the directories of its context go through the executor untouched and are left
out; so are values of another shape than the one an interface gives.
-/

namespace Hepha.Runtime

open Connections JsValue

/-! ## Contexts -/

/-- `RuntimeAttemptContextV1`. -/
structure AttemptContext where
  projectId : JsString
  cardKey : Option JsString
  workflowRunId : Option JsString
  workflowNodeId : Option JsString
  phaseExecutionContractId : Option JsString
  phaseNumber : Option ℕ
  taskId : Option JsString
  correlationId : JsString
  selectedLessonIds : List JsString
  invocationKind : RuntimeInvocationKind
  rootInvocationId : JsString
  parentInvocationId : Option JsString
  deriving DecidableEq

/-- `isRuntimeAttemptContextV1`. -/
def isAttemptContext (c : AttemptContext) : Bool :=
  isText 512 c.projectId && isNullableText 512 c.cardKey && isNullableText 512 c.workflowRunId &&
    isNullableText 512 c.workflowNodeId && isNullableText 512 c.phaseExecutionContractId &&
    c.phaseNumber.all isSafe && isNullableText 512 c.taskId && isText 512 c.correlationId &&
    isSortedUniqueText 128 512 c.selectedLessonIds && isText 512 c.rootInvocationId &&
    isNullableText 512 c.parentInvocationId &&
    c.phaseExecutionContractId.isNone == c.phaseNumber.isNone &&
    match c.invocationKind with
    | .root => c.parentInvocationId.isNone
    | .nested => c.parentInvocationId.isSome

/-- `RuntimeRecoveryContextV1`: where the work of an earlier attempt goes on. -/
structure RecoveryContext where
  priorInvocationId : JsString
  checkpointId : JsString
  checkpointCursor : JsString
  unresolvedTaskCursor : JsString
  completedTaskIds : List JsString
  deriving DecidableEq

/-- `isRuntimeRecoveryContextV1`. -/
def isRecoveryContext (r : RecoveryContext) : Bool :=
  isText 512 r.priorInvocationId && isText 512 r.checkpointId && isText 512 r.checkpointCursor &&
    isText 512 r.unresolvedTaskCursor && isSortedUniqueText 128 512 r.completedTaskIds

/-- `RuntimeExecutorInput`; the plan is read by its guard. -/
structure ExecutorInput where
  plan : JsValue
  stepIndex : ℕ
  attemptKind : RuntimeAttemptKind
  invocationId : JsString
  context : AttemptContext
  inputRef : JsString
  recoveryContext : Option RecoveryContext

/-- `isLegalRuntimeStepSelection`. -/
def isLegalStepSelection (input : ExecutorInput) (plan : HandoffPlan) : Bool :=
  if input.stepIndex = 0 then
    input.attemptKind == .primary && plan.steps[0]?.any (·.kind == .primary)
  else
    input.stepIndex == 1 && (input.attemptKind == .fallback || input.attemptKind == .recovery) &&
      plan.steps[1]?.any (·.kind == .recovery)

/-- `isRecoveryContextForSelection`. -/
def isRecoveryContextForSelection (input : ExecutorInput) : Bool :=
  if input.attemptKind = .recovery then
    input.recoveryContext.any fun r =>
      isRecoveryContext r && r.priorInvocationId == input.invocationId
  else input.recoveryContext.isNone

/-! ## Connections -/

/-- `RuntimeAuthenticationProjection`. -/
inductive Authentication
  | piSession
  | injectedConnectionSecret (secretRef : JsString) (version : ℕ)
  deriving DecidableEq

def Authentication.kind : Authentication → RuntimeAuthenticationKind
  | piSession => .piSession
  | injectedConnectionSecret _ _ => .injectedConnectionSecret

def Authentication.version : Authentication → Option ℕ
  | piSession => none
  | injectedConnectionSecret _ version => some version

/-- `runtimeAuthenticationFor`. -/
def authenticationFor (connection : ConnectionRecord) : Option Authentication :=
  match connection.kind, connection.secretRef, connection.secretVersion with
  | .piSession, none, none => some .piSession
  | .piSession, _, _ => none
  | _, some secretRef, some version =>
      if 0 < secretRef.length ∧ isSafe version ∧ 0 < version then
        some (.injectedConnectionSecret secretRef version)
      else none
  | _, _, _ => none

/-- `isUsableRuntimeConnection`. -/
def isUsableConnection (connection : ConnectionRecord) (expectedId : JsString) : Bool :=
  connection.connectionId == expectedId && connection.lifecycleState == .active &&
    match connection.kind, connection.provider with
    | .piSession, .piSession => true
    | .known, .known _ => true
    | .custom, .custom _ => true
    | _, _ => false

/-! ## Processes -/

inductive ProcessStatus
  | completed
  | failed
  | timedOut
  | cancelled
  deriving DecidableEq

def ProcessStatus.attemptStatus : ProcessStatus → RuntimeAttemptStatus
  | completed => .completed
  | failed => .failed
  | timedOut => .timedOut
  | cancelled => .cancelled

/-- `PiAttemptProcessResult`. -/
structure ProcessResult where
  status : ProcessStatus
  exitCode : Option ℤ
  failureCode : Option RuntimeSafeFailureCode
  output : JsString

/-- What executing a process comes to: an exception, a value of another shape, or a result. -/
inductive ProcessAnswer
  | thrown
  | refused
  | result (result : ProcessResult)

/-- `invalidProcessResult`. -/
def invalidProcessResult : ProcessResult :=
  { status := .failed, exitCode := none, failureCode := some .invalidOutput, output := [] }

/-- `isProcessResult`, on a value of the right shape. -/
def isProcessResult (r : ProcessResult) : Bool :=
  r.exitCode.all fun code => code.natAbs ≤ maxSafeInteger

/-- `normalizePiAttemptProcessResult`, after the `catch` of the executor. -/
def normalizeProcessAnswer : ProcessAnswer → ProcessResult
  | .thrown =>
      { status := .failed, exitCode := none, failureCode := some .spawnFailed, output := [] }
  | .refused => invalidProcessResult
  | .result r =>
      if isProcessResult r = false then invalidProcessResult
      else match r.status, r.failureCode with
        | .completed, none => r
        | .completed, some _ => invalidProcessResult
        | .timedOut, none => { r with failureCode := some .timedOut }
        | .timedOut, some code => if code = .timedOut then r else invalidProcessResult
        | .cancelled, none => { r with failureCode := some .cancelled }
        | .cancelled, some code => if code = .cancelled then r else invalidProcessResult
        | .failed, none => { r with failureCode := some .providerUnavailable }
        | .failed, some code =>
            if code = .timedOut ∨ code = .cancelled then invalidProcessResult else r

/-- `PiAttemptProcessRequest`: all that a worker gets. -/
structure ProcessRequest where
  approvedRoute : RouteIdentity
  providerId : JsString
  arguments : List JsString
  inputRef : JsString
  recoveryContext : Option RecoveryContext
  deriving DecidableEq

/-- `DurableWorkStateSnapshotV1`. -/
structure WorkStateSnapshot where
  invocationId : JsString
  attemptId : JsString
  workState : RuntimeWorkState
  checkpointId : Option JsString
  checkpointCursor : Option JsString
  unresolvedTaskCursor : Option JsString
  completedTaskIds : List JsString
  deriving DecidableEq

/-- `isDurableWorkStateSnapshotV1`, on a value of the right shape. -/
def isWorkStateSnapshot (s : WorkStateSnapshot) : Bool :=
  isText 512 s.invocationId && isText 512 s.attemptId && isNullableText 512 s.checkpointId &&
    isNullableText 512 s.checkpointCursor && isNullableText 512 s.unresolvedTaskCursor &&
    isSortedUniqueText 128 512 s.completedTaskIds &&
    if s.workState = .checkpointed then
      s.checkpointId.isSome && s.checkpointCursor.isSome && s.unresolvedTaskCursor.isSome
    else
      s.checkpointId.isNone && s.checkpointCursor.isNone && s.unresolvedTaskCursor.isNone &&
        s.completedTaskIds.isEmpty

/-! ## Requests -/

/-- How the hook before a process ends. -/
inductive HookAnswer
  | proceed
  | stopped
  | thrown
  deriving DecidableEq

/-- How the preparation of an isolated context ends. -/
inductive ContextAnswer
  | prepared
  | thrown (cleanupFailed : Bool)
  deriving DecidableEq

inductive Request
  | now
  | createId
  | getConnection (connectionId : JsString)
  | providerIdForConnection (connection : ConnectionRecord)
  | beforeProcess (attempt : RuntimeAttempt)
  | prepareContext (attemptId : JsString) (connection : ConnectionRecord) (providerId : JsString)
      (route : RouteIdentity)
  | readSecret (secretRef : JsString)
  | buildEnvironment (secret : Option JsString)
  | cleanup
  | execute (process : ProcessRequest)
  | openInvocation (plan : JsValue) (receipt : RuntimeInvocationReceipt)
  | startAttempt (start : RuntimeAttemptStart)
  | markAttemptSpawned (attempt : RuntimeAttempt)
  | settleAttempt (attempt : RuntimeAttempt)
  | appendRouteChange (event : RuntimeRouteChangeEvent)
  | settleInvocation (receipt : RuntimeInvocationReceipt)
  | getInvocation (invocationId : JsString)
  | readWorkState (invocationId attemptId : JsString) (context : AttemptContext)

/-- What is answered.  Where `none` stands the request has thrown; a write of the store
answers whether it was accepted. -/
abbrev Request.Answer : Request → Type
  | now => ℤ
  | createId => JsString
  | getConnection _ => Option ConnectionRecord
  | providerIdForConnection _ => Option JsString
  | beforeProcess _ => HookAnswer
  | prepareContext .. => ContextAnswer
  | readSecret _ => Option (Option JsString)
  | buildEnvironment _ => Bool
  | cleanup => Bool
  | execute _ => ProcessAnswer
  | openInvocation .. => Bool
  | startAttempt _ => Bool
  | markAttemptSpawned _ => Bool
  | settleAttempt _ => Bool
  | appendRouteChange _ => Bool
  | settleInvocation _ => Bool
  | getInvocation _ => RuntimePersistenceResult (Option RuntimeInvocationEvidence)
  | readWorkState .. => Option (Option WorkStateSnapshot)

abbrev Handoff (α : Type) := Interaction.Program Request Request.Answer α

/-! The requests as programs, at the types of their answers. -/

namespace Ask

open Interaction.Program

abbrev now : Handoff ℤ := request Request.now

abbrev createId : Handoff JsString := request Request.createId

abbrev getConnection (connectionId : JsString) : Handoff (Option ConnectionRecord) :=
  request (Request.getConnection connectionId)

abbrev providerIdForConnection (connection : ConnectionRecord) : Handoff (Option JsString) :=
  request (Request.providerIdForConnection connection)

abbrev beforeProcess (attempt : RuntimeAttempt) : Handoff HookAnswer :=
  request (Request.beforeProcess attempt)

abbrev prepareContext (attemptId : JsString) (connection : ConnectionRecord)
    (providerId : JsString) (route : RouteIdentity) : Handoff ContextAnswer :=
  request (Request.prepareContext attemptId connection providerId route)

abbrev readSecret (secretRef : JsString) : Handoff (Option (Option JsString)) :=
  request (Request.readSecret secretRef)

abbrev buildEnvironment (secret : Option JsString) : Handoff Bool :=
  request (Request.buildEnvironment secret)

abbrev cleanup : Handoff Bool := request Request.cleanup

abbrev execute (process : ProcessRequest) : Handoff ProcessAnswer := request (Request.execute process)

abbrev openInvocation (plan : JsValue) (receipt : RuntimeInvocationReceipt) : Handoff Bool :=
  request (Request.openInvocation plan receipt)

abbrev startAttempt (start : RuntimeAttemptStart) : Handoff Bool :=
  request (Request.startAttempt start)

abbrev markAttemptSpawned (attempt : RuntimeAttempt) : Handoff Bool :=
  request (Request.markAttemptSpawned attempt)

abbrev settleAttempt (attempt : RuntimeAttempt) : Handoff Bool :=
  request (Request.settleAttempt attempt)

abbrev appendRouteChange (event : RuntimeRouteChangeEvent) : Handoff Bool :=
  request (Request.appendRouteChange event)

abbrev settleInvocation (receipt : RuntimeInvocationReceipt) : Handoff Bool :=
  request (Request.settleInvocation receipt)

abbrev getInvocation (invocationId : JsString) :
    Handoff (RuntimePersistenceResult (Option RuntimeInvocationEvidence)) :=
  request (Request.getInvocation invocationId)

abbrev readWorkState (invocationId attemptId : JsString) (context : AttemptContext) :
    Handoff (Option (Option WorkStateSnapshot)) :=
  request (Request.readWorkState invocationId attemptId context)

end Ask

end Hepha.Runtime
