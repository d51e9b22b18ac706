import Hepha.Runtime.Handoff

/-!
# The executor of a handoff plan

`HandoffPlanExecutor.executeAttempt` executes one step of a plan.  It opens the
invocation or takes it over from its primary attempt, prepares the worker, marks
the attempt as spawned, executes the process and settles what has come of it.
`RuntimeExecutionCoordinator.execute` executes the primary step and, where it may,
the second one.

Both are programs here that make their requests in the order of the source.  The
clock answers with a time, so a timestamp is its time value; a duration that would
be negative is refused by the guards in both.
-/

namespace Hepha.Runtime

open Connections Interaction Interaction.Program

/-! ## Results -/

/-- `RuntimeExecutorErrorCode`. -/
inductive ExecutorErrorCode
  | invalidPlan
  | invalidContext
  | invalidStep
  | connectionUnavailable
  | authUnavailable
  | providerUnsupported
  | secretReadFailed
  | contextPreparationFailed
  | spawnFailed
  | persistenceFailed
  | cleanupFailed
  | attemptFailed
  | attemptExecutionStopped
  | attemptTimedOut
  | attemptCancelled
  deriving DecidableEq

/-- `HandoffPlanAttemptResult`. -/
inductive AttemptResult
  | ok (attempt : RuntimeAttempt) (receipt : RuntimeInvocationReceipt) (output : JsString)
  | rejected (code : ExecutorErrorCode) (attempt : Option RuntimeAttempt)
      (receipt : Option RuntimeInvocationReceipt)

def AttemptResult.isOk : AttemptResult → Bool
  | ok .. => true
  | rejected .. => false

def elapsed (start finish : ℤ) : ℕ :=
  (finish - start).toNat

/-! ## The end of an attempt -/

/-- `settleReceipt`. -/
def settleReceipt (receipt : RuntimeInvocationReceipt) (attempt : RuntimeAttempt)
    (settledAt : ℤ) : RuntimeInvocationReceipt :=
  { receipt with
    status := match attempt.status with
      | .completed => .completed
      | .timedOut => .timedOut
      | .cancelled => .cancelled
      | _ => .failed
    settledAt := some settledAt
    durationMs := some (elapsed receipt.openedAt settledAt)
    failureCode := attempt.failureCode }

/-- The receipt that the store holds. -/
def currentReceipt (invocationId : JsString) : Handoff (Option RuntimeInvocationReceipt) := do
  match ← Ask.getInvocation invocationId with
  | .ok (some evidence) => return some evidence.receipt
  | _ => return none

/-- The second half of `finishAttempt`: a primary attempt that has failed leaves the
invocation open for the second step. -/
def closeInvocation (input : ExecutorInput) (plan : HandoffPlan)
    (receipt : RuntimeInvocationReceipt) (terminal : RuntimeAttempt)
    (failureCode : ExecutorErrorCode) (output : JsString) : Handoff AttemptResult :=
  if input.stepIndex = 0 ∧ plan.steps.length = 2 ∧ terminal.status ≠ .completed then
    return .rejected failureCode terminal receipt
  else do
    let settledAt ← Ask.now
    let settled := settleReceipt receipt terminal settledAt
    match ← Ask.settleInvocation settled with
    | false => return .rejected .persistenceFailed terminal receipt
    | true =>
        if terminal.status = .completed then return .ok terminal settled output
        else return .rejected failureCode terminal settled

/-- `finishAttempt`. -/
def finishAttempt (input : ExecutorInput) (plan : HandoffPlan)
    (receipt : RuntimeInvocationReceipt) (terminal : RuntimeAttempt)
    (routeChangeEvent : Option RuntimeRouteChangeEvent) (failureCode : ExecutorErrorCode)
    (output : JsString) : Handoff AttemptResult :=
  if attemptValid terminal = false then
    return .rejected .persistenceFailed terminal receipt
  else do
    match ← Ask.settleAttempt terminal with
    | false => return .rejected .persistenceFailed terminal receipt
    | true =>
        match ← currentReceipt input.invocationId with
        | none => return .rejected .persistenceFailed terminal receipt
        | some persisted =>
            match routeChangeEvent with
            | none => closeInvocation input plan persisted terminal failureCode output
            | some event =>
                match ← Ask.appendRouteChange { event with
                  result := if terminal.status = .completed then .completed else .failed } with
                | false => return .rejected .persistenceFailed terminal persisted
                | true =>
                    match ← currentReceipt input.invocationId with
                    | none => return .rejected .persistenceFailed terminal persisted
                    | some updated =>
                        closeInvocation input plan updated terminal failureCode output

/-! ## The beginning of an attempt -/

/-- `AttemptInitialization`, where it is one. -/
structure Initialization where
  receipt : RuntimeInvocationReceipt
  preparing : RuntimeAttempt
  routeChangeEvent : Option RuntimeRouteChangeEvent

/-- `createPreparingAttempt`. -/
def createPreparingAttempt (attemptId invocationId : JsString) (route : RouteIdentity)
    (preparationStartedAt : ℤ) (attemptIndex : ℕ) (attemptKind : RuntimeAttemptKind) :
    RuntimeAttempt where
  attemptId := attemptId
  invocationId := invocationId
  attemptIndex := attemptIndex
  attemptKind := attemptKind
  approvedRoute := route
  actualRoute := none
  providerId := none
  authenticationConnectionId := none
  authenticationKind := none
  credentialVersion := none
  workState := .none
  checkpointId := none
  checkpointCursor := none
  status := .preparing
  preparationStartedAt := preparationStartedAt
  startedAt := none
  spawnedAt := none
  terminalAt := none
  durationMs := none
  exitCode := none
  timeoutMarker := false
  failureCode := none

/-- `createRunningReceipt`. -/
def createRunningReceipt (planHash : JsValue → JsString) (input : ExecutorInput)
    (plan : HandoffPlan) (route : RouteIdentity) (attemptId : JsString) (openedAt : ℤ) :
    Option RuntimeInvocationReceipt :=
  let receipt : RuntimeInvocationReceipt := {
    invocationId := input.invocationId
    rootInvocationId := input.context.rootInvocationId
    parentInvocationId := input.context.parentInvocationId
    invocationKind := input.context.invocationKind
    planHash := planHash input.plan
    actionId := plan.action.actionId
    actionType := plan.action.actionType
    roleId := plan.action.roleId
    promptVersion := plan.action.promptVersion
    policySource := plan.policySource
    revisionId := plan.revisionId
    approvedPrimaryRoute := route
    approvedSecondRoute := plan.steps[1]?.map (·.route)
    projectId := input.context.projectId
    cardKey := input.context.cardKey
    workflowRunId := input.context.workflowRunId
    workflowNodeId := input.context.workflowNodeId
    phaseExecutionContractId := input.context.phaseExecutionContractId
    phaseNumber := input.context.phaseNumber
    taskId := input.context.taskId
    correlationId := input.context.correlationId
    selectedLessonIds := input.context.selectedLessonIds
    attemptIds := [attemptId]
    routeChangeEventIds := []
    status := .running
    openedAt := openedAt
    settledAt := none
    durationMs := none
    failureCode := none }
  if receiptValid receipt then some receipt else none

/-- `openPrimary`. -/
def openPrimary (planHash : JsValue → JsString) (input : ExecutorInput) (plan : HandoffPlan)
    (step : HandoffPlanStep) (attemptId : JsString) (openedAt : ℤ) :
    Handoff (Except ExecutorErrorCode Initialization) :=
  match createRunningReceipt planHash input plan step.route attemptId openedAt with
  | none => return .error .invalidPlan
  | some receipt => do
      match ← Ask.openInvocation input.plan receipt with
      | false => return .error .persistenceFailed
      | true => return .ok {
          receipt
          preparing := createPreparingAttempt attemptId receipt.invocationId step.route openedAt 0
            .primary
          routeChangeEvent := none }

/-- What `isLegalSecondAttemptState` asks of the work of the primary attempt. -/
def workAllows (input : ExecutorInput) (primary : RuntimeAttempt) : Bool :=
  match input.attemptKind with
  | .primary => false
  | .fallback => primary.workState == .none
  | .recovery => primary.workState == .checkpointed &&
      primary.checkpointId == input.recoveryContext.map (·.checkpointId) &&
      primary.checkpointCursor == input.recoveryContext.map (·.checkpointCursor)

/-- `isLegalSecondAttemptState`, with the primary attempt and what it has failed with. -/
def legalSecondAttemptState (evidence : RuntimeInvocationEvidence) (input : ExecutorInput) :
    Option (RuntimeAttempt × RuntimeSafeFailureCode) :=
  match evidence.attempts with
  | [primary] =>
      if evidence.receipt.invocationId = input.invocationId ∧ evidence.receipt.status = .running ∧
          evidence.receipt.attemptIds.length = 1 ∧
          evidence.receipt.routeChangeEventIds.length = 0 ∧
          evidence.routeChangeEvents.length = 0 ∧ primary.status ≠ .completed ∧
          primary.status ≠ .running ∧ primary.status ≠ .preparing ∧
          evidence.receipt.approvedSecondRoute.isSome ∧ workAllows input primary then
        primary.failureCode.map fun code => (primary, code)
      else none
  | _ => none

/-- `openSecond`. -/
def openSecond (input : ExecutorInput) (step : HandoffPlanStep) (attemptId : JsString)
    (openedAt : ℤ) : Handoff (Except ExecutorErrorCode Initialization) := do
  match ← Ask.getInvocation input.invocationId with
  | .error _ => return .error .persistenceFailed
  | .ok none => return .error .invalidStep
  | .ok (some evidence) =>
      match legalSecondAttemptState evidence input with
      | none => return .error .invalidStep
      | some (primary, reasonCode) =>
          let eventId ← Ask.createId
          return .ok {
            receipt := evidence.receipt
            preparing := createPreparingAttempt attemptId input.invocationId step.route openedAt 1
              input.attemptKind
            routeChangeEvent := some {
              eventId
              invocationId := input.invocationId
              sourceInvocationId := input.invocationId
              sourceAttemptId := primary.attemptId
              targetInvocationId := input.invocationId
              targetAttemptId := attemptId
              kind := if input.attemptKind = .fallback then .fallback else .recovery
              reasonCode
              occurredAt := openedAt
              sourceApprovedRoute := primary.approvedRoute
              targetApprovedRoute := step.route
              result := .started } }

/-! ## Preparation -/

/-- `settleStartedPreparation`. -/
def settleStartedPreparation (input : ExecutorInput) (plan : HandoffPlan)
    (receipt : RuntimeInvocationReceipt) (preparing : RuntimeAttempt)
    (routeChangeEvent : Option RuntimeRouteChangeEvent) (failureCode : RuntimeSafeFailureCode)
    (code : ExecutorErrorCode) : Handoff AttemptResult := do
  let terminalAt ← Ask.now
  finishAttempt input plan receipt { preparing with
    status := .failed
    terminalAt := some terminalAt
    durationMs := some (elapsed preparing.preparationStartedAt terminalAt)
    failureCode := some failureCode } routeChangeEvent code []

/-- `failPreparation`. -/
def failPreparation (input : ExecutorInput) (plan : HandoffPlan) (opened : Initialization)
    (failureCode : RuntimeSafeFailureCode) (code : ExecutorErrorCode) : Handoff AttemptResult := do
  match ← Ask.startAttempt ⟨opened.preparing, opened.routeChangeEvent⟩ with
  | false => return .rejected .persistenceFailed none opened.receipt
  | true =>
      settleStartedPreparation input plan opened.receipt opened.preparing opened.routeChangeEvent
        failureCode code

/-- After a context was prepared it is cleaned up first; where that fails, the attempt
has failed for this reason. -/
def abandonPreparation (input : ExecutorInput) (plan : HandoffPlan)
    (receipt : RuntimeInvocationReceipt) (preparing : RuntimeAttempt)
    (routeChangeEvent : Option RuntimeRouteChangeEvent) (failureCode : RuntimeSafeFailureCode)
    (code : ExecutorErrorCode) : Handoff AttemptResult := do
  match ← Ask.cleanup with
  | true => settleStartedPreparation input plan receipt preparing routeChangeEvent failureCode code
  | false =>
      settleStartedPreparation input plan receipt preparing routeChangeEvent .cleanupFailed
        .cleanupFailed

/-- The secret of the connection, `none` where it cannot be read; an empty one counts as
none. -/
def secretFor : Authentication → Handoff (Option (Option JsString))
  | .piSession => return some none
  | .injectedConnectionSecret secretRef _ => do
      match ← Ask.readSecret secretRef with
      | some (some value) => if value.length = 0 then return none else return some (some value)
      | _ => return none

/-- From a context to a spawned attempt. -/
def spawnAttempt (input : ExecutorInput) (plan : HandoffPlan) (step : HandoffPlanStep)
    (opened : Initialization) (preparing : RuntimeAttempt) (auth : Authentication) :
    Handoff (Except AttemptResult RuntimeAttempt) := do
  match ← secretFor auth with
  | none =>
      return .error (← abandonPreparation input plan opened.receipt preparing
        opened.routeChangeEvent .secretReadFailed .secretReadFailed)
  | some secret =>
      match ← Ask.buildEnvironment secret with
      | false =>
          return .error (← abandonPreparation input plan opened.receipt preparing
            opened.routeChangeEvent .contextPreparationFailed .contextPreparationFailed)
      | true =>
          let spawnedAt ← Ask.now
          let running := { preparing with
            actualRoute := some step.route
            status := .running
            startedAt := some spawnedAt
            spawnedAt := some spawnedAt }
          match ← Ask.markAttemptSpawned running with
          | true => return .ok running
          | false =>
              match ← Ask.cleanup with
              | true => return .error (.rejected .persistenceFailed preparing opened.receipt)
              | false =>
                  return .error (← settleStartedPreparation input plan opened.receipt preparing
                    opened.routeChangeEvent .cleanupFailed .cleanupFailed)

/-- An attempt whose row is there is taken through the hook and into a context. -/
def prepareStarted (input : ExecutorInput) (plan : HandoffPlan) (step : HandoffPlanStep)
    (opened : Initialization) (connection : ConnectionRecord) (providerId : JsString)
    (preparing : RuntimeAttempt) (auth : Authentication) :
    Handoff (Except AttemptResult RuntimeAttempt) := do
  match ← Ask.beforeProcess preparing with
  | .stopped =>
      return .error (← settleStartedPreparation input plan opened.receipt preparing
        opened.routeChangeEvent .invalidInput .attemptExecutionStopped)
  | .thrown =>
      return .error (← settleStartedPreparation input plan opened.receipt preparing
        opened.routeChangeEvent .persistenceFailed .persistenceFailed)
  | .proceed =>
      match ← Ask.prepareContext preparing.attemptId connection providerId step.route with
      | .thrown true =>
          return .error (← settleStartedPreparation input plan opened.receipt preparing
            opened.routeChangeEvent .cleanupFailed .cleanupFailed)
      | .thrown false =>
          return .error (← settleStartedPreparation input plan opened.receipt preparing
            opened.routeChangeEvent .contextPreparationFailed .contextPreparationFailed)
      | .prepared => spawnAttempt input plan step opened preparing auth

/-- The part of `executeAttempt` before the process: the attempt that was marked as
spawned, with its provider, or how the attempt has ended. -/
def prepareProcess (input : ExecutorInput) (plan : HandoffPlan) (step : HandoffPlanStep)
    (opened : Initialization) : Handoff (Except AttemptResult (RuntimeAttempt × JsString)) := do
  match ← Ask.getConnection step.route.connectionId with
  | none =>
      return .error (← failPreparation input plan opened .connectionUnavailable
        .connectionUnavailable)
  | some connection =>
      if isUsableConnection connection step.route.connectionId = false then
        return .error (← failPreparation input plan opened .connectionUnavailable
          .connectionUnavailable)
      else
        match (← Ask.providerIdForConnection connection).filter (isText 256) with
        | none =>
            return .error (← failPreparation input plan opened .providerUnsupported
              .providerUnsupported)
        | some providerId =>
            match authenticationFor connection with
            | none =>
                return .error (← failPreparation input plan opened .authUnavailable
                  .authUnavailable)
            | some auth =>
                let preparing := { opened.preparing with
                  providerId := some providerId
                  authenticationConnectionId := some connection.connectionId
                  authenticationKind := some auth.kind
                  credentialVersion := auth.version }
                match ← Ask.startAttempt ⟨preparing, opened.routeChangeEvent⟩ with
                | false => return .error (.rejected .persistenceFailed none opened.receipt)
                | true =>
                    match ← prepareStarted input plan step opened connection providerId preparing
                      auth with
                    | .error result => return .error result
                    | .ok running => return .ok (running, providerId)

/-! ## One attempt -/

/-- `readCurrentAttempt`. -/
def readCurrentAttempt (invocationId attemptId : JsString) : Handoff (Option RuntimeAttempt) := do
  match ← Ask.getInvocation invocationId with
  | .ok (some evidence) => return evidence.attempts.find? (·.attemptId == attemptId)
  | _ => return none

/-- What the process of an attempt is given. -/
def processRequest (input : ExecutorInput) (step : HandoffPlanStep) (providerId : JsString) :
    ProcessRequest where
  approvedRoute := step.route
  providerId := providerId
  arguments := [js "--provider", providerId, js "--model", step.route.modelId]
  inputRef := input.inputRef
  recoveryContext := input.recoveryContext

/-- The part of `executeAttempt` after the process. -/
def settleProcess (input : ExecutorInput) (plan : HandoffPlan) (opened : Initialization)
    (running : RuntimeAttempt) (answer : ProcessAnswer) : Handoff AttemptResult := do
  let cleaned ← Ask.cleanup
  let normalized := normalizeProcessAnswer answer
  let effective := if cleaned then normalized else { normalized with
    status := .failed, failureCode := some .cleanupFailed, output := [] }
  let terminalAt ← Ask.now
  let latest := (← readCurrentAttempt input.invocationId running.attemptId).getD running
  finishAttempt input plan opened.receipt { latest with
      status := effective.status.attemptStatus
      terminalAt := some terminalAt
      durationMs := some (elapsed latest.preparationStartedAt terminalAt)
      exitCode := effective.exitCode
      timeoutMarker := effective.status == .timedOut
      failureCode := if effective.status = .completed then none else effective.failureCode }
    opened.routeChangeEvent
    (if cleaned = false then .cleanupFailed
      else match effective.status with
        | .timedOut => .attemptTimedOut
        | .cancelled => .attemptCancelled
        | _ => if effective.failureCode = some .spawnFailed then .spawnFailed else .attemptFailed)
    effective.output

/-- The checks of `executeAttempt`: the plan and the step that it is for. -/
def readInput (input : ExecutorInput) : Except ExecutorErrorCode (HandoffPlan × HandoffPlanStep) :=
  match isHandoffPlan input.plan with
  | none => .error .invalidPlan
  | some plan =>
      if (isAttemptContext input.context && isText 512 input.inputRef &&
          isText 512 input.invocationId) = false then .error .invalidContext
      else if (isLegalStepSelection input plan && isRecoveryContextForSelection input) = false then
        .error .invalidStep
      else if (input.context.invocationKind = .root ∧
            input.context.rootInvocationId ≠ input.invocationId) ∨
          (input.context.invocationKind = .nested ∧
            input.context.rootInvocationId = input.invocationId) then .error .invalidContext
      else match plan.steps[input.stepIndex]? with
        | none => .error .invalidStep
        | some step => .ok (plan, step)

/-- The attempt of the selected step is opened. -/
def initializeAttempt (planHash : JsValue → JsString) (input : ExecutorInput) (plan : HandoffPlan)
    (step : HandoffPlanStep) (attemptId : JsString) (openedAt : ℤ) :
    Handoff (Except ExecutorErrorCode Initialization) :=
  if input.stepIndex = 0 then openPrimary planHash input plan step attemptId openedAt
  else openSecond input step attemptId openedAt

/-- `HandoffPlanExecutor.executeAttempt`. -/
def executeAttempt (planHash : JsValue → JsString) (input : ExecutorInput) :
    Handoff AttemptResult :=
  match readInput input with
  | .error code => return .rejected code none none
  | .ok (plan, step) => do
      let openedAt ← Ask.now
      let attemptId ← Ask.createId
      match ← initializeAttempt planHash input plan step attemptId openedAt with
      | .error code => return .rejected code none none
      | .ok opened =>
          match ← prepareProcess input plan step opened with
          | .error result => return result
          | .ok (running, providerId) =>
              let answer ← Ask.execute (processRequest input step providerId)
              settleProcess input plan opened running answer

end Hepha.Runtime
