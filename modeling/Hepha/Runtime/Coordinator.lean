import Hepha.Runtime.Executor

/-!
# The coordinator of a handoff plan

`RuntimeExecutionCoordinator.execute` executes the primary step of a plan, and after a
failure at most one more: a fallback where no work has begun, a recovery where the work
has a checkpoint.  Everything else ends the invocation.

What the port for the durable work state answers is left open: the executor checks it
against the store before it uses it.
-/

namespace Hepha.Runtime

open Interaction Interaction.Program

/-- `RuntimeCoordinatorErrorCode`. -/
inductive CoordinatorErrorCode
  | invalidPlan
  | invalidContext
  | recoveryCheckpointRequired
  | routeSequenceExhausted
  | persistenceFailed
  deriving DecidableEq

/-- `RuntimeExecutionResult`; a failed one without a kind is `terminal`. -/
inductive ExecutionResult
  | ok (classification : RuntimeAttemptKind) (attemptResult : AttemptResult)
  | failed (code : CoordinatorErrorCode) (classification : Option RuntimeAttemptKind)
      (attemptResult : Option AttemptResult)

/-- `CoordinatorInput`. -/
structure CoordinatorInput where
  plan : JsValue
  invocationId : JsString
  context : AttemptContext
  inputRef : JsString

/-- What the coordinator gives its executor for one step. -/
def CoordinatorInput.step (input : CoordinatorInput) (stepIndex : ℕ)
    (attemptKind : RuntimeAttemptKind) (recoveryContext : Option RecoveryContext) :
    ExecutorInput where
  plan := input.plan
  stepIndex := stepIndex
  attemptKind := attemptKind
  invocationId := input.invocationId
  context := input.context
  inputRef := input.inputRef
  recoveryContext := recoveryContext

/-- `settleFromAttempt`. -/
def settleFromAttempt (receipt : RuntimeInvocationReceipt) (attempt : RuntimeAttempt)
    (settledAt : ℤ) : RuntimeInvocationReceipt :=
  { receipt with
    status := match attempt.status with
      | .timedOut => .timedOut
      | .cancelled => .cancelled
      | _ => .failed
    settledAt := some settledAt
    durationMs := some (elapsed receipt.openedAt settledAt)
    failureCode := attempt.failureCode }

/-- `terminal`, of a rejected attempt with its row and its receipt. -/
def settleTerminal (rejected : ExecutorErrorCode) (attempt : RuntimeAttempt)
    (receipt : RuntimeInvocationReceipt) (code : CoordinatorErrorCode) :
    Handoff ExecutionResult := do
  let primary := AttemptResult.rejected rejected attempt receipt
  match ← Ask.getInvocation receipt.invocationId with
  | .ok (some current) =>
      match current.attempts.find? (·.attemptId == attempt.attemptId) with
      | none => return .failed .persistenceFailed none primary
      | some attempt =>
          if isTerminalAttempt attempt = false then
            return .failed .persistenceFailed none primary
          else if current.receipt.status ≠ .running then
            return .failed code none (some (.rejected rejected attempt current.receipt))
          else
            let settled := settleFromAttempt current.receipt attempt (← Ask.now)
            if receiptValid settled = false then return .failed .persistenceFailed none primary
            else match ← Ask.settleInvocation settled with
              | false => return .failed .persistenceFailed none primary
              | true => return .failed code none (some (.rejected rejected attempt settled))
  | _ => return .failed .persistenceFailed none primary

/-- `terminal`. -/
def terminal (rejected : ExecutorErrorCode) (attempt : Option RuntimeAttempt)
    (receipt : Option RuntimeInvocationReceipt) (code : CoordinatorErrorCode) :
    Handoff ExecutionResult :=
  match attempt, receipt with
  | some attempt, some receipt =>
      if isTerminalAttempt attempt then settleTerminal rejected attempt receipt code
      else return .failed .persistenceFailed none (some (.rejected rejected attempt receipt))
  | _, _ => return .failed .persistenceFailed none (some (.rejected rejected attempt receipt))

/-- `toRecoveryContext`. -/
def toRecoveryContext (s : WorkStateSnapshot) : Option RecoveryContext := do
  guard (s.workState == .checkpointed)
  let checkpointId ← s.checkpointId
  let checkpointCursor ← s.checkpointCursor
  let unresolvedTaskCursor ← s.unresolvedTaskCursor
  return { priorInvocationId := s.invocationId, checkpointId, checkpointCursor,
           unresolvedTaskCursor, completedTaskIds := s.completedTaskIds }

/-- The second step, with the checkpoint from which it recovers. -/
def executeSecond (planHash : JsValue → JsString) (input : CoordinatorInput)
    (classification : RuntimeAttemptKind) (recoveryContext : Option RecoveryContext) :
    Handoff ExecutionResult := do
  let second ← executeAttempt planHash (input.step 1 classification recoveryContext)
  if second.isOk then return .ok classification second
  else return .failed .routeSequenceExhausted classification second

/-- What follows from the work state of a primary attempt that has failed. -/
def continueFrom (planHash : JsValue → JsString) (input : CoordinatorInput)
    (rejected : ExecutorErrorCode) (attempt : RuntimeAttempt)
    (receipt : RuntimeInvocationReceipt) (snapshot : Option WorkStateSnapshot) :
    Handoff ExecutionResult :=
  match snapshot.filter isWorkStateSnapshot with
  | none => terminal rejected attempt receipt .recoveryCheckpointRequired
  | some s =>
      if s.invocationId ≠ input.invocationId ∨ s.attemptId ≠ attempt.attemptId ∨
          s.workState ≠ attempt.workState then
        terminal rejected attempt receipt .recoveryCheckpointRequired
      else match s.workState with
        | .started => terminal rejected attempt receipt .recoveryCheckpointRequired
        | .none => executeSecond planHash input .fallback none
        | .checkpointed =>
            match toRecoveryContext s with
            | none => terminal rejected attempt receipt .recoveryCheckpointRequired
            | some recoveryContext =>
                executeSecond planHash input .recovery (some recoveryContext)

/-- What follows from a primary attempt that may have left the invocation open. -/
def afterFailure (planHash : JsValue → JsString) (input : CoordinatorInput)
    (plan : HandoffPlan) (rejected : ExecutorErrorCode) (attempt : Option RuntimeAttempt)
    (receipt : Option RuntimeInvocationReceipt) : Handoff ExecutionResult :=
  let primary := AttemptResult.rejected rejected attempt receipt
  match attempt, receipt with
  | some attempt, some receipt =>
      if plan.steps.length = 1 then return .failed .routeSequenceExhausted none primary
      else do
        match ← Ask.readWorkState input.invocationId attempt.attemptId input.context with
        | none => terminal rejected attempt receipt .persistenceFailed
        | some snapshot => continueFrom planHash input rejected attempt receipt snapshot
  | _, _ => return .failed .routeSequenceExhausted none primary

/-- What follows from a primary attempt that was rejected. -/
def afterRejection (planHash : JsValue → JsString) (input : CoordinatorInput)
    (plan : HandoffPlan) (rejected : ExecutorErrorCode) (attempt : Option RuntimeAttempt)
    (receipt : Option RuntimeInvocationReceipt) : Handoff ExecutionResult :=
  if attempt.bind (·.failureCode) = some .safetyRejected then
    terminal rejected attempt receipt .routeSequenceExhausted
  else if rejected = .persistenceFailed then
    terminal rejected attempt receipt .persistenceFailed
  else if rejected = .attemptExecutionStopped then
    if receipt.any (·.status == .running) then
      terminal rejected attempt receipt .routeSequenceExhausted
    else
      return .failed .routeSequenceExhausted none (some (.rejected rejected attempt receipt))
  else afterFailure planHash input plan rejected attempt receipt

/-- `RuntimeExecutionCoordinator.execute`. -/
def execute (planHash : JsValue → JsString) (input : CoordinatorInput) :
    Handoff ExecutionResult :=
  match isHandoffPlan input.plan with
  | none => return .failed .invalidPlan none none
  | some plan =>
      if (isAttemptContext input.context && isText 512 input.inputRef &&
          isText 512 input.invocationId) = false then
        return .failed .invalidContext none none
      else do
        match ← executeAttempt planHash (input.step 0 .primary none) with
        | .ok attempt receipt output => return .ok .primary (.ok attempt receipt output)
        | .rejected rejected attempt receipt =>
            afterRejection planHash input plan rejected attempt receipt

end Hepha.Runtime
