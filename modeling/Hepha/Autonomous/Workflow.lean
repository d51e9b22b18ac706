import Hepha.Js.Decimal
import Hepha.Lib.Recording
import Hepha.Phases.Ledger

/-!
# The autonomous implementation of a feature

`AutonomousImplementationWorkflowApplication` takes the phases of a queue one after the
other through entry, planning, worker, review and exit.  Any of these may ask for the same
phase again; a circuit stops the workflow when nothing has changed in between.

The workflow is a program here that makes a request of each of the other applications, in
the order of the source.  What is the same in all requests of a run (the card, the project,
the branch, the routes) is left out of them, and so is the context that only the record of
a failure reads.  The loop over the phases is given a number of passes.
-/

namespace Hepha.Autonomous

open Interaction Interaction.Program Phases

/-! ## The circuit -/

/-- `PhaseNoProgressObservation`. -/
structure PhaseNoProgressObservation where
  detail : JsString
  durableFingerprint : JsString
  phaseNumber : ℕ
  route : JsString
  deriving DecidableEq

/-- `value.replace(/\s+/g, " ").trim().slice(0, 500)`. -/
def normalizeDetail (value : JsString) : JsString :=
  (JsString.replaceRuns isWhiteSpace [0x20] false value).trim.take 500

namespace PhaseNoProgressObservation

def signature (o : PhaseNoProgressObservation) : JsString :=
  [0].intercalate [decimalText o.phaseNumber, o.route, o.durableFingerprint,
    normalizeDetail o.detail]

/-- What the circuit stops the workflow with. -/
def message (o : PhaseNoProgressObservation) : JsString :=
  [0x20].intercalate [
    js "WORKFLOW_AWAITING_USER_DECISION: Phase " ++ decimalText o.phaseNumber ++
      js " returned to the " ++ o.route ++
      js " transition with the same decision and unchanged durable state.",
    js "Durable fingerprint: " ++ o.durableFingerprint ++ js ".",
    js "Last decision: " ++ (if normalizeDetail o.detail = [] then
      js "No transition detail was recorded." else normalizeDetail o.detail),
    js ("Hepha paused the workflow rather than consuming resources without progress. " ++
      "Completed task evidence remains preserved. The user may repair the reported authority " ++
      "mismatch and choose Continue Implementation, or cancel the workflow.")]

/-- `PhaseNoProgressCircuit.observe`, with the signature before. -/
def observe (previous : Option JsString) (o : PhaseNoProgressObservation) :
    Except JsString JsString :=
  if some o.signature ≠ previous then .ok o.signature else .error o.message

end PhaseNoProgressObservation

/-! ## What is passed on -/

structure NumberedPhase where
  number : ℕ
  title : JsString
  status : JsString
  documentPath : JsString
  deriving DecidableEq

/-- The types of what the loop does not look into: a work item, the rest of a planning, the
binding of a remediation successor, what a worker puts out and the receipt of a review. -/
structure Carried where
  Feature : Type
  Details : Type
  Lease : Type
  Output : Type
  Receipt : Type

variable (K : Carried)

/-- `PhaseEntryPreparationResult`; a skipped phase has its summary. -/
structure PhaseEntry where
  feature : K.Feature
  phase : NumberedPhase
  missingQualityGates : List JsString
  summaries : List JsString
  skipped : Option JsString

/-- The artifact of a durable review. -/
structure ReviewArtifact where
  isReviewManifest : Bool
  isApproved : Bool
  contentHash : JsString

/-- `PhaseExecutionPlanningReady`, in the fields that the loop reads. -/
structure Planning where
  phaseRef : JsString
  contractId : Option JsString
  reviewRequiredNow : Bool
  orderedReviewRequired : Bool
  phaseHasTerminalReviewDecision : Bool
  durableArtifact : Option ReviewArtifact
  details : K.Details

/-- `PhaseExecutionPlanningResult`; without a planning the phase is repeated. -/
structure PlanningResult where
  feature : K.Feature
  phase : NumberedPhase
  summaries : List JsString
  planning : Option (Planning K)

/-- `PhaseWorkerEntryResult`. -/
inductive WorkerEntry
  | reviewRoute (summary : JsString)
  | repeatPhase (summary : JsString)
  | worker (activeTask : Option PhaseTaskLedgerItem)

structure WorkerExecution where
  identityLease : Option K.Lease
  output : K.Output

/-- `PhaseWorkerResultApplicationResult`; with a brief the phase is repeated. -/
structure WorkerResult where
  summaries : List JsString
  brief : Option JsString

structure TaskSettlement where
  feature : K.Feature
  phase : NumberedPhase
  summary : JsString

structure PostWorkerReview where
  feature : K.Feature
  phase : NumberedPhase
  reviewRequired : Bool
  summaries : List JsString

/-- `PhasePostWorkerValidationResult`; a complete recovery has its summary. -/
structure PostWorkerValidation where
  recovered : Option JsString

/-- `PhasePreReviewRoutingResult`. -/
structure PreReviewRoute where
  feature : K.Feature
  phase : NumberedPhase
  summaries : List JsString
  repeatsPhase : Bool
  awaitsBaseline : Bool
  awaitsRerun : Bool

/-- `PhaseReviewDispatchResult`. -/
structure ReviewDispatch where
  repeatsPhase : Bool
  receipt : Option K.Receipt
  summaries : List JsString

inductive ExitKind
  | repeatPhase
  | checkpointPending
  | completed
  deriving DecidableEq

/-- `PhaseExitLifecycleResult`. -/
structure ExitLifecycle where
  kind : ExitKind
  feature : K.Feature
  phase : NumberedPhase
  summaries : List JsString

structure WorkflowError where
  message : JsString
  isCancelled : Bool

/-- What the record of a failure is given. -/
structure Failure where
  error : WorkflowError
  activePhase : Option NumberedPhase
  activeTask : Option PhaseTaskLedgerItem
  feature : K.Feature

/-! ## Requests -/

inductive Request
  | yieldControl
  | assertBranches
  | prepareEntry (feature : K.Feature) (phase : NumberedPhase)
  | preparePlanning (feature : K.Feature) (phase : NumberedPhase)
      (missingQualityGates : List JsString)
  | enterWorker (feature : K.Feature) (phase : NumberedPhase) (planning : Planning K)
  | executeWorker (feature : K.Feature) (phase : NumberedPhase) (planning : Planning K)
      (activeTask : Option PhaseTaskLedgerItem) (identityLease : Option K.Lease)
      (previousFailureBrief : Option JsString)
  | processResult (feature : K.Feature) (phase : NumberedPhase) (planning : Planning K)
      (activeTask : Option PhaseTaskLedgerItem) (output : K.Output)
  | settleTask (feature : K.Feature) (phase : NumberedPhase) (planning : Planning K)
      (activeTask : Option PhaseTaskLedgerItem) (output : K.Output)
  | prepareReview (feature : K.Feature) (phase : NumberedPhase) (planning : Planning K)
  | validateWorker (feature : K.Feature) (phase : NumberedPhase) (planning : Planning K)
  | routePreReview (feature : K.Feature) (phase : NumberedPhase) (planning : Planning K)
      (reviewRequired : Bool)
  | dispatchReview (feature : K.Feature) (phase : NumberedPhase) (planning : Planning K)
      (baselineReviewRequired rerunRequired : Bool) (durableApprovedHash : Option JsString)
  | executeExit (feature : K.Feature) (phase : NumberedPhase) (planning : Planning K)
      (reviewReceipt : Option K.Receipt) (summaryFallback : Option JsString)
      (v1ReviewRequired : Bool)
  | capturePhase (feature : K.Feature) (phase : NumberedPhase) (contractId : Option JsString)
  | writeFeatureLessons (feature : K.Feature)
  | complete (feature : K.Feature) (summaries : List JsString)
  | captureDurableProgress (feature : K.Feature) (phaseNumber : ℕ) (route detail : JsString)
  | recordFailure (failure : Failure K)

variable {K}

/-- What a request is answered with.  The fingerprint of the durable progress is captured
for an observation, which stands in its request. -/
abbrev Request.Reply : Request K → Type
  | yieldControl => Unit
  | assertBranches => Unit
  | prepareEntry .. => PhaseEntry K
  | preparePlanning .. => PlanningResult K
  | enterWorker .. => WorkerEntry
  | executeWorker .. => WorkerExecution K
  | processResult .. => WorkerResult
  | settleTask .. => TaskSettlement K
  | prepareReview .. => PostWorkerReview K
  | validateWorker .. => PostWorkerValidation
  | routePreReview .. => PreReviewRoute K
  | dispatchReview .. => ReviewDispatch K
  | executeExit .. => ExitLifecycle K
  | capturePhase .. => Unit
  | writeFeatureLessons _ => Unit
  | complete .. => JsString
  | captureDurableProgress .. => JsString
  | recordFailure _ => Unit

/-- A request may throw. -/
abbrev Request.Answer (r : Request K) : Type := Except WorkflowError r.Reply

/-- A part of the workflow: what has come of it, or what it has failed with. -/
abbrev Work (K : Carried) (α : Type) : Type :=
  Throwing (Request K) Request.Answer (Failure K) α

/-- A request, and what a failure of it is recorded with. -/
def Work.ask (activePhase : Option NumberedPhase) (activeTask : Option PhaseTaskLedgerItem)
    (feature : K.Feature) (r : Request K) : Work K r.Reply :=
  Program.ask r fun
    | .ok b => .done (.ok b)
    | .error error => .done (.error ⟨error, activePhase, activeTask, feature⟩)

/-! ## One pass -/

/-- What is kept from pass to pass.  No task is active between two passes. -/
structure Progress (K : Carried) where
  feature : K.Feature
  phaseIndex : ℕ
  summaries : List JsString
  activePhase : Option NumberedPhase
  sameRunRepairBrief : Option JsString
  identityLease : Option K.Lease
  completedPhaseInThisRun : Bool
  previousSignature : Option JsString

/-- How a pass ends: with another one, or with the result of the workflow. -/
inductive Pass (K : Carried)
  | next (progress : Progress K)
  | returned (text : JsString)

/-- `observeRepeatedTransition`, and `phaseIndex -= 1; continue`. -/
def repeatPhase (progress : Progress K) (active : NumberedPhase)
    (activeTask : Option PhaseTaskLedgerItem) (route : String) (phase : NumberedPhase)
    (detail : JsString) : Work K (Pass K) := do
  let durableFingerprint ← Work.ask (some active) activeTask progress.feature
    (.captureDurableProgress progress.feature phase.number (js route) detail)
  match PhaseNoProgressObservation.observe progress.previousSignature
      ⟨detail, durableFingerprint, phase.number, js route⟩ with
  | .error message =>
      .done (.error ⟨⟨message, false⟩, some active, activeTask, progress.feature⟩)
  | .ok signature =>
      -- the index stays: the next pass takes the same place of the queue
      return .next { progress with activePhase := none, previousSignature := some signature }

/-- The last summary of an application, or what stands for it. -/
def lastSummary (summaries : List JsString) (fallback : String) : JsString :=
  summaries.getLast?.getD (js fallback)

/-- `durableApprovedHash`. -/
def Planning.approvedHash (planning : Planning K) : Option JsString :=
  (planning.durableArtifact.filter fun artifact =>
    artifact.isReviewManifest && artifact.isApproved).map (·.contentHash)

/-- The exit of a phase, and its lessons. -/
def exitPhase (progress : Progress K) (active phase : NumberedPhase) (planning : Planning K)
    (route : PreReviewRoute K) (receipt : Option K.Receipt) : Work K (Pass K) := do
  let exit ← Work.ask (some active) none progress.feature
    (.executeExit progress.feature phase planning receipt progress.summaries.getLast?
      (route.awaitsBaseline || route.awaitsRerun || planning.phaseHasTerminalReviewDecision ||
        planning.orderedReviewRequired))
  let progress := { progress with
    feature := exit.feature
    summaries := progress.summaries ++ exit.summaries }
  match exit.kind with
  | .repeatPhase =>
      repeatPhase progress active none "phase_exit" exit.phase
        (lastSummary exit.summaries "Phase exit requested the same phase.")
  | .checkpointPending => return .returned (JsString.joinLines progress.summaries)
  | .completed =>
      Work.ask (some active) none exit.feature
        (.capturePhase exit.feature exit.phase planning.contractId)
      return .next { progress with
        phaseIndex := progress.phaseIndex + 1
        activePhase := none
        completedPhaseInThisRun := true
        summaries := progress.summaries ++ [planning.phaseRef ++
          js ": phase lessons captured by an independently routed worker."] }

/-- From the worker to the exit: the review. -/
def reviewPhase (progress : Progress K) (active phase : NumberedPhase) (planning : Planning K)
    (reviewRequired : Bool) : Work K (Pass K) := do
  let route ← Work.ask (some active) none progress.feature
    (.routePreReview progress.feature phase planning reviewRequired)
  let progress := { progress with
    feature := route.feature
    summaries := progress.summaries ++ route.summaries }
  if route.repeatsPhase then
    repeatPhase progress active none "pre_review" route.phase
      (lastSummary route.summaries "Pre-review routing requested the same phase.")
  else
    let dispatch ← Work.ask (some active) none progress.feature
      (.dispatchReview progress.feature route.phase planning route.awaitsBaseline
        route.awaitsRerun planning.approvedHash)
    let progress := { progress with summaries := progress.summaries ++ dispatch.summaries }
    if dispatch.repeatsPhase then
      repeatPhase progress active none "review_dispatch" route.phase
        (lastSummary dispatch.summaries "Review dispatch requested the same phase.")
    else exitPhase progress active route.phase planning route dispatch.receipt

/-- The settlement of a task, after its worker. -/
def settleWorker (progress : Progress K) (active phase : NumberedPhase) (planning : Planning K)
    (activeTask : Option PhaseTaskLedgerItem) (output : K.Output) : Work K (Pass K) := do
  let settled ← Work.ask (some active) activeTask progress.feature
    (.settleTask progress.feature phase planning activeTask output)
  let review ← Work.ask (some active) none settled.feature
    (.prepareReview settled.feature settled.phase planning)
  let validation ← Work.ask (some active) none review.feature
    (.validateWorker review.feature review.phase planning)
  let progress := { progress with
    feature := review.feature
    summaries := progress.summaries ++ [settled.summary] ++ review.summaries }
  match validation.recovered with
  | some summary => return .returned (JsString.joinLines (progress.summaries ++ [summary]))
  | none => reviewPhase progress active review.phase planning review.reviewRequired

/-- A worker, and what has come of it. -/
def executeWorker (previousFailureBrief : Option JsString) (progress : Progress K)
    (active phase : NumberedPhase) (planning : Planning K)
    (activeTask : Option PhaseTaskLedgerItem) : Work K (Pass K) := do
  let execution ← Work.ask (some active) activeTask progress.feature
    (.executeWorker progress.feature phase planning activeTask progress.identityLease
      (progress.sameRunRepairBrief <|> previousFailureBrief))
  let result ← Work.ask (some active) activeTask progress.feature
    (.processResult progress.feature phase planning activeTask execution.output)
  let progress := { progress with
    identityLease := execution.identityLease
    sameRunRepairBrief := result.brief
    summaries := progress.summaries ++ result.summaries }
  match result.brief with
  | some brief => repeatPhase progress active activeTask "worker_result" phase brief
  | none => settleWorker progress active phase planning activeTask execution.output

/-- The entry of a worker, where the phase has a planning. -/
def enterWorker (previousFailureBrief : Option JsString) (progress : Progress K)
    (active phase : NumberedPhase) (planning : Planning K) : Work K (Pass K) := do
  let workerEntry ← Work.ask (some active) none progress.feature
    (.enterWorker progress.feature phase planning)
  match workerEntry with
  | .reviewRoute summary =>
      reviewPhase { progress with summaries := progress.summaries ++ [summary] } active phase
        planning planning.reviewRequiredNow
  | .repeatPhase summary =>
      repeatPhase { progress with summaries := progress.summaries ++ [summary] } active none
        "worker_entry" phase summary
  | .worker activeTask =>
      executeWorker previousFailureBrief progress active phase planning activeTask

/-- The planning of a phase that is not skipped. -/
def planPhase (previousFailureBrief : Option JsString) (progress : Progress K)
    (active phase : NumberedPhase) (missingQualityGates : List JsString) :
    Work K (Pass K) := do
  let planned ← Work.ask (some active) none progress.feature
    (.preparePlanning progress.feature phase missingQualityGates)
  let progress := { progress with
    feature := planned.feature
    summaries := progress.summaries ++ planned.summaries }
  match planned.planning with
  | none =>
      repeatPhase progress active none "execution_planning" planned.phase
        (lastSummary planned.summaries "Execution planning requested the same phase.")
  | some planning => enterWorker previousFailureBrief progress active planned.phase planning

/-- One pass of the loop over the phases. -/
def passPhase (previousFailureBrief : Option JsString) (progress : Progress K)
    (active : NumberedPhase) : Work K (Pass K) := do
  Work.ask progress.activePhase none progress.feature .yieldControl
  Work.ask progress.activePhase none progress.feature .assertBranches
  let entry ← Work.ask (some active) none progress.feature
    (.prepareEntry progress.feature active)
  let progress := { progress with
    feature := entry.feature
    summaries := progress.summaries ++ entry.summaries }
  match entry.skipped with
  | some summary =>
      -- the phase stays the active one until the next pass reads the queue
      return .next { progress with
        phaseIndex := progress.phaseIndex + 1
        activePhase := some active
        summaries := progress.summaries ++ [summary] }
  | none =>
      planPhase previousFailureBrief progress active entry.phase entry.missingQualityGates

/-! ## The workflow -/

/-- After the last phase. -/
def completeRun (progress : Progress K) : Work K JsString :=
  if progress.completedPhaseInThisRun then do
    Work.ask none none progress.feature (.writeFeatureLessons progress.feature)
    Work.ask none none progress.feature (.complete progress.feature (progress.summaries ++
      [js "Raw feature lessons compiled by an independently routed worker."]))
  else Work.ask none none progress.feature (.complete progress.feature progress.summaries)

/-- The loop over the phases, for a number of passes. -/
def passes (previousFailureBrief : Option JsString) (queue : List NumberedPhase) :
    ℕ → Progress K → Work K (Option JsString)
  | 0, _ => return none
  | n + 1, progress =>
      match queue[progress.phaseIndex]? with
      | none => do
          let text ← completeRun progress
          return some text
      | some active => do
          let pass ← passPhase previousFailureBrief progress active
          match pass with
          | .next progress => passes previousFailureBrief queue n progress
          | .returned text => return some text

def startProgress (feature : K.Feature) : Progress K where
  feature := feature
  phaseIndex := 0
  summaries := []
  activePhase := none
  sameRunRepairBrief := none
  identityLease := none
  completedPhaseInThisRun := false
  previousSignature := none

/-- `executePhases`, for a number of passes. -/
def executePhases (n : ℕ) (previousFailureBrief : Option JsString) (feature : K.Feature)
    (queue : List NumberedPhase) :
    Program (Request K) Request.Answer (Except WorkflowError (Option JsString)) :=
  Program.bind (passes previousFailureBrief queue n (startProgress feature)) fun
    | .ok text => .done (.ok text)
    | .error failure =>
        if failure.error.isCancelled then .done (.error failure.error)
        else .ask (.recordFailure failure) fun
          | .ok _ => .done (.error failure.error)
          | .error error => .done (.error error)

end Hepha.Autonomous
