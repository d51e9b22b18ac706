import Hepha.Autonomous.Workflow
import Hepha.Phases.Contract

/-!
# The exit of a phase

`PhaseExitLifecycleApplication.execute` takes a phase from its review to its completion:
`PhaseExitApplication.authorize` assesses the checkpoint, with the review store open, and
`PhaseCompletionAuthorizationApplication` marks the phase; a git checkpoint may follow.

The assessment, the documents, the stores and the progress are requests.  What is the same
in all requests (the card, the command, the project, the run) is left out, and so are the
agent, the model and the step of a progress record.
-/

namespace Hepha.PhaseExit

open Interaction Autonomous Phases

variable {F : Type}

/-- The message of what was thrown, or its text. -/
abbrev Thrown := JsString

/-- `AuthoritativeReviewPhaseScope`. -/
structure Scope where
  projectId : JsString
  featureId : JsString
  phaseNumber : ℕ
  reviewGateId : JsString
  deriving DecidableEq

/-- `PhaseExitReviewReceipt`. -/
structure ReviewReceipt where
  contentHash : JsString
  databasePath : JsString
  scope : Scope

/-- `PhaseExitGate`. -/
structure Gate where
  gate : JsString
  status : JsString
  justification : Option JsString

/-- `PhaseExitCheckpointInput`.  The authority is the scope and the hash of a review, which
is there where a receipt and its store are; it is not always required. -/
structure CheckpointInput where
  completionEvidencePresent : Bool
  phaseNumber : ℕ
  phaseStatus : JsString
  qualityGates : List Gate
  authoritativeReview : Option (Option (Scope × JsString))

/-- `PhaseExitCheckpointDecision`. -/
structure Decision where
  allowed : Bool
  reason : JsString
  missingGates : List JsString

/-- `PhaseGitCheckpointAttempt`, with the summary of a result or the reason of none. -/
inductive GitAttempt
  | completed (summary : JsString)
  | pending (reason : JsString)

inductive ProgressStatus
  | checkpoint
  | blocked
  | completed
  deriving DecidableEq

/-- What an exit is given to read features with. -/
structure Features (F : Type) where
  projectId : JsString
  deriveFeatureId : F → Option JsString
  numberedPhases : F → List NumberedPhase
  formatPhase : NumberedPhase → JsString

/-! ## Requests -/

inductive Request (F : Type)
  | refreshFeature (fallback : F)
  | completeRecoveredReviewTask (phase : NumberedPhase) (summary : JsString)
  | hasUnresolvedContractTask (phase : NumberedPhase)
  | openReviewStore (databasePath : JsString)
  | closeReviewStore
  | hasCheckedTaskLedger (phase : NumberedPhase)
  | hasCompletionEvidence (phase : NumberedPhase)
  | getQualityGates (feature : F) (phaseNumber : ℕ)
  | assessCheckpoint (input : CheckpointInput)
  | recordProgress (status : ProgressStatus) (feature : F) (phase : NumberedPhase)
      (error : Option JsString) (summary : JsString)
  | persistDocumentationApplicability (feature : F) (phase : NumberedPhase)
  | markCompleted (feature : F) (phase : NumberedPhase)
  | attemptGitCheckpoint (feature : F) (phase : NumberedPhase)

/-- A review store is opened, or there is none. -/
abbrev Request.Reply : Request F → Type
  | refreshFeature _ => F
  | completeRecoveredReviewTask .. => Bool
  | hasUnresolvedContractTask _ => Bool
  | openReviewStore _ => Bool
  | closeReviewStore => Unit
  | hasCheckedTaskLedger _ => Bool
  | hasCompletionEvidence _ => Bool
  | getQualityGates .. => List Gate
  | assessCheckpoint _ => Decision
  | recordProgress .. => Unit
  | persistDocumentationApplicability .. => Unit
  | markCompleted .. => Unit
  | attemptGitCheckpoint .. => GitAttempt

abbrev Request.Answer (r : Request F) : Type := Except Thrown r.Reply

abbrev Work (F α : Type) : Type := Throwing (Request F) Request.Answer Thrown α

def Work.ask (r : Request F) : Work F r.Reply := Program.request r

def Work.throw {α : Type} (message : JsString) : Work F α := Program.done (.error message)

/-- `try { … } finally { … }`: what the end throws takes the place of the rest. -/
def Work.ensure {α : Type} (p : Work F α) (finish : Work F Unit) : Work F α :=
  Program.bind p fun result =>
    Program.bind finish fun
      | .ok _ => .done result
      | .error thrown => .done (.error thrown)

/-! ## The authorization -/

/-- What `authorize` is given. -/
structure ExitInput (F : Type) where
  feature : F
  phase : NumberedPhase
  orderedReviewRequired : Bool
  orderedTaskWorkflow : Bool
  orderedTasksComplete : Bool
  reviewReceipt : Option ReviewReceipt
  v1ReviewRequired : Bool

def phaseRef (phase : NumberedPhase) : JsString := js "Phase " ++ decimalText phase.number

/-- `reviewAuthority`, where it is required. -/
def reviewAuthority (required : Bool) (receipt : Option ReviewReceipt) (opened : Bool) :
    Option (Option (Scope × JsString)) :=
  if required then
    some (if opened then receipt.map fun receipt => (receipt.scope, receipt.contentHash) else none)
  else none

/-- The assessment of an ordered workflow; it is not made while a task is unresolved. -/
def assessOrdered (input : ExitInput F) (opened : Bool) : Work F Decision :=
  if input.orderedTasksComplete then
    Work.ask (.assessCheckpoint {
      completionEvidencePresent := true
      phaseNumber := input.phase.number
      phaseStatus := input.phase.status
      qualityGates := []
      authoritativeReview :=
        reviewAuthority input.orderedReviewRequired input.reviewReceipt opened })
  else pure {
    allowed := false
    missingGates := [js "declared-phase-tasks"]
    reason := phaseRef input.phase ++
      js " cannot exit while a declared task remains unresolved." }

def completionEvidence (input : ExitInput F) : Work F Bool :=
  if input.v1ReviewRequired || input.orderedTasksComplete then
    Work.ask (.hasCheckedTaskLedger input.phase)
  else Work.ask (.hasCompletionEvidence input.phase)

/-- The assessment of any other workflow. -/
def assessGeneric (input : ExitInput F) (opened : Bool) : Work F Decision := do
  let evidence ← completionEvidence input
  let qualityGates ← Work.ask (.getQualityGates input.feature input.phase.number)
  Work.ask (.assessCheckpoint {
    completionEvidencePresent := evidence
    phaseNumber := input.phase.number
    phaseStatus := input.phase.status
    qualityGates := qualityGates
    authoritativeReview := reviewAuthority input.v1ReviewRequired input.reviewReceipt opened })

def assess (input : ExitInput F) (opened : Bool) : Work F Decision :=
  if input.orderedTaskWorkflow then assessOrdered input opened else assessGeneric input opened

/-- The assessment with the store of the receipt, which is closed in the end. -/
def assessWithStore (input : ExitInput F) : Work F Decision :=
  match input.reviewReceipt with
  | none => assess input false
  | some receipt => do
      let opened ← Work.ask (.openReviewStore receipt.databasePath)
      if opened then (assess input true).ensure (Work.ask .closeReviewStore)
      else assess input false

section

variable (features : Features F)

/-- The scope is that of the code review of the phase. -/
def isExactScope (feature : F) (phase : NumberedPhase) (scope : Scope) : Bool :=
  scope.projectId = features.projectId && some scope.featureId = features.deriveFeatureId feature &&
    scope.phaseNumber = phase.number && scope.reviewGateId = js "code-review"

/-- `PhaseCompletionAuthorizationApplication.completeAfterReview`. -/
def completeAfterReview (feature : F) (phase : NumberedPhase) (scope : Option Scope) :
    Work F Unit :=
  if scope.any (isExactScope features feature phase) then
    Work.ask (.markCompleted feature phase)
  else Work.throw (features.formatPhase phase ++
    js " cannot become COMPLETED without its exact authorized V1 code-review gate.")

/-- `PhaseCompletionAuthorizationApplication.completeFromTasks`. -/
def completeFromTasks (feature : F) (phase : NumberedPhase) : Work F Unit := do
  let checked ← Work.ask (.hasCheckedTaskLedger phase)
  if checked then
    Work.ask (.persistDocumentationApplicability feature phase)
    Work.ask (.markCompleted feature phase)
  else Work.throw (features.formatPhase phase ++
    js " cannot become COMPLETED while a declared task remains unresolved.")

/-- The phase of a number in a feature that was read again. -/
def resolvePhase (feature : F) (fallback : NumberedPhase) : NumberedPhase :=
  ((features.numberedPhases feature).find? (·.number = fallback.number)).getD fallback

def refresh (feature : F) (phase : NumberedPhase) : Work F (F × NumberedPhase) := do
  let refreshed ← Work.ask (.refreshFeature feature)
  return (refreshed, resolvePhase features refreshed phase)

/-- What follows the assessment. -/
def complete (input : ExitInput F) (checkpoint : Decision) : Work F (F × NumberedPhase) :=
  if !checkpoint.allowed && !(input.v1ReviewRequired && input.orderedTasksComplete) then
    Work.throw (if input.v1ReviewRequired then
      phaseRef input.phase ++ js ": REVIEW_CONTRACT_V1_GATE_DENIED (" ++ checkpoint.reason ++ js ")"
    else checkpoint.reason)
  else if input.orderedTasksComplete then do
    completeFromTasks features input.feature input.phase
    refresh features input.feature input.phase
  else if input.v1ReviewRequired then do
    completeAfterReview features input.feature input.phase (input.reviewReceipt.map (·.scope))
    refresh features input.feature input.phase
  else pure (input.feature, input.phase)

/-- `PhaseExitApplication.authorize`. -/
def authorize (input : ExitInput F) : Work F (F × NumberedPhase) := do
  let checkpoint ← assessWithStore input
  Work.ask (.recordProgress (if checkpoint.allowed then .checkpoint else .blocked) input.feature
    input.phase (if checkpoint.allowed then none else some checkpoint.reason) checkpoint.reason)
  complete features input checkpoint

end

/-! ## The git checkpoint -/

/-- `PhaseGitCheckpointApplicationResult`. -/
structure GitCheckpoint where
  completed : Bool
  summary : JsString

def recordPending (feature : F) (phase : NumberedPhase) (reason : JsString) :
    Work F GitCheckpoint := do
  let summary := phaseRef phase ++
    js " implementation and gates are complete; git checkpoint remains pending. " ++ reason
  Work.ask (.recordProgress .checkpoint feature phase none summary)
  return ⟨false, summary⟩

/-- `PhaseGitCheckpointApplication.execute`: what the attempt throws leaves the checkpoint
pending. -/
def executeGitCheckpoint (feature : F) (phase : NumberedPhase) : Work F GitCheckpoint :=
  Program.ask (.attemptGitCheckpoint feature phase) fun
    | .ok (.completed summary) => .done (.ok ⟨true, phaseRef phase ++ js ": " ++ summary⟩)
    | .ok (.pending reason) => recordPending feature phase reason
    | .error thrown => recordPending feature phase thrown

/-! ## The lifecycle -/

def phaseUsesOrderedTaskExecutors (phase : Option PhaseExecutionContractPhase) : Bool :=
  phase.any fun phase => phase.tasks.any fun task =>
    task.kind ∈ [.agent, .codeReview, .verification, .gitCommit, .gitPush]

def phaseRequiresGitCheckpoint (phase : Option PhaseExecutionContractPhase) : Bool :=
  phase.any (·.gitCheckpoint)

/-- What `execute` is given. -/
structure LifecycleInput (F : Type) where
  contract : Option PhaseExecutionContractPhase
  feature : F
  orderedReviewRequired : Bool
  phase : NumberedPhase
  phaseRef : JsString
  resumingAtPhaseExit : Bool
  reviewReceipt : Option ReviewReceipt
  summaryFallback : Option JsString
  v1ReviewRequired : Bool

inductive LifecycleKind
  | repeatPhase
  | checkpointPending
  | completed
  deriving DecidableEq

/-- `PhaseExitLifecycleResult`. -/
structure LifecycleResult (F : Type) where
  kind : LifecycleKind
  feature : F
  phase : NumberedPhase
  summaries : List JsString

section

variable (features : Features F) (input : LifecycleInput F)

def recordCompleted (feature : F) (phase : NumberedPhase) (summaries : List JsString) :
    Work F (LifecycleResult F) := do
  Work.ask (.recordProgress .completed feature phase none
    ((summaries.getLast?.or input.summaryFallback).getD (input.phaseRef ++ js " completed.")))
  return ⟨.completed, feature, phase, summaries⟩

/-- What follows the authorization. -/
def checkpointPhase (feature : F) (phase : NumberedPhase) : Work F (LifecycleResult F) :=
  if phaseRequiresGitCheckpoint input.contract then do
    let checkpoint ← executeGitCheckpoint feature phase
    if checkpoint.completed then recordCompleted input feature phase [checkpoint.summary]
    else return ⟨.checkpointPending, feature, phase, [checkpoint.summary]⟩
  else recordCompleted input feature phase []

def exitPhase (feature : F) (phase : NumberedPhase) (orderedTasksComplete : Bool) :
    Work F (LifecycleResult F) := do
  let exit ← authorize features {
    feature := feature
    phase := phase
    orderedReviewRequired := input.orderedReviewRequired
    orderedTaskWorkflow := phaseUsesOrderedTaskExecutors input.contract
    orderedTasksComplete := orderedTasksComplete
    reviewReceipt := input.reviewReceipt
    v1ReviewRequired := input.v1ReviewRequired }
  checkpointPhase input exit.1 exit.2

/-- Only the contract of an ordered workflow declares tasks that are asked about. -/
def resolveTasks (feature : F) (phase : NumberedPhase) : Work F (LifecycleResult F) :=
  if phaseUsesOrderedTaskExecutors input.contract then do
    let unresolved ← Work.ask (.hasUnresolvedContractTask phase)
    exitPhase features input feature phase !unresolved
  else exitPhase features input feature phase false

/-- `PhaseExitLifecycleApplication.execute`. -/
def execute : Work F (LifecycleResult F) := do
  let current ← refresh features input.feature input.phase
  if input.resumingAtPhaseExit && phaseUsesOrderedTaskExecutors input.contract then
    let completedReviewTask ← Work.ask (.completeRecoveredReviewTask current.2 (js
      "Recovered the durable approved review and completed the declared code-review task."))
    if completedReviewTask then
      return ⟨.repeatPhase, current.1, current.2, [input.phaseRef ++ js
        ": recovered approved code-review task; selecting the next declared task."]⟩
    else resolveTasks features input current.1 current.2
  else resolveTasks features input current.1 current.2

end

end Hepha.PhaseExit
