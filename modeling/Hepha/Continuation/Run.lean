import Hepha.Recovery.Attempt

/-!
# Runs that continue themselves

`ContinueImplementationRunApplication.execute` takes one run from the reading of the feature
to its announcement, and `AutonomousContinuationScheduler.schedule` starts the next one
where work remains and the durable state has changed.  The next run starts when nothing of
the one before is left to do, so a chain of runs is one program here, of a number of runs.

The autonomous loop and the recovery of a failure are requests.  What is the same in all
runs (the card, the project, the branch) is left out.
-/

namespace Hepha.Continuation

open Interaction Recovery

variable {F : Type}

/-- What was thrown: the message of an `Error`, or anything else. -/
structure Thrown where
  message : Option JsString
  isCancelled : Bool

structure RunInput (F : Type) extends WorkflowInput F where
  runId : JsString

structure TaskResolution where
  currentStep : JsString
  summary : JsString

/-- The status that a run is recorded with. -/
inductive RunStatus
  | running
  | blocked
  | failed
  deriving DecidableEq

/-- The events `workflow.completed` and so on. -/
inductive Announcement
  | completed
  | blocked
  | failed
  | cancelled
  | continuationScheduled
  deriving DecidableEq

/-- The functions that the application is given. -/
structure Policy (F : Type) where
  externalId : F → JsString
  classifyBlocked : JsString → Bool
  createFailureBrief : RunInput F → F → JsString → JsString
  summarizeOutput : JsString → JsString → JsString

/-! ## Requests -/

inductive Request (F : Type)
  | createRunner (input : RunInput F)
  | enterNode (nodeId : String) (feature : F)
  | findCurrentFeature (input : RunInput F) (fallback : F)
  | recoverPersistedWorkerEvidence (input : RunInput F) (feature : F)
  | reconcileRecordedGherkin (input : RunInput F) (feature : F)
  | reviewHandoff (input : RunInput F) (feature : F)
  | captureDurableProgress (feature : F)
  | reconcile (input : RunInput F) (feature : F)
  | resolveTask (input : RunInput F) (feature : F)
  | recordProgress (input : RunInput F) (feature : F) (resolution : TaskResolution)
  | runAutonomous (input : RunInput F)
  | runInteractive (input : RunInput F)
  | assertRunActive (runId : JsString)
  | recordCompletion (runId : JsString) (command : Command) (summary : JsString)
  | recordRun (runId : JsString) (command : Command) (status : RunStatus)
      (error : Option JsString) (summary : JsString)
  | notifyChanged (announcement : Announcement)
  | attemptRecovery (errorMessage : JsString) (feature : F) (input : RunInput F)
  | clearCancellation (runId : JsString)
  | hasRemainingWork (feature : F)
  | createId

/-- A reconciliation answers with the feature and whether all of it is terminal. -/
abbrev Request.Reply : Request F → Type
  | createRunner _ => Unit
  | enterNode .. => Unit
  | findCurrentFeature .. => F
  | recoverPersistedWorkerEvidence .. => F
  | reconcileRecordedGherkin .. => F
  | reviewHandoff .. => F
  | captureDurableProgress _ => JsString
  | reconcile .. => F × Bool
  | resolveTask .. => TaskResolution
  | recordProgress .. => Unit
  | runAutonomous _ => JsString
  | runInteractive _ => JsString
  | assertRunActive _ => Unit
  | recordCompletion .. => Unit
  | recordRun .. => Unit
  | notifyChanged _ => Unit
  | attemptRecovery .. => Outcome
  | clearCancellation _ => Unit
  | hasRemainingWork _ => Bool
  | createId => JsString

abbrev Request.Answer (r : Request F) : Type := Except Thrown r.Reply

/-- A failure of a run, and the feature that the run has read last. -/
structure Failure (F : Type) where
  thrown : Thrown
  feature : F

/-- A part of a run. -/
abbrev Work (F α : Type) : Type := Throwing (Request F) Request.Answer (Failure F) α

/-- A request, and the feature that a failure of it finds. -/
def Work.ask (feature : F) (r : Request F) : Work F r.Reply :=
  Program.ask r fun
    | .ok b => .done (.ok b)
    | .error thrown => .done (.error ⟨thrown, feature⟩)

section

variable (policy : Policy F)

/-! ## The next run -/

/-- What the scheduler records of a run that has changed nothing. -/
def unchangedError (before after : JsString) : JsString :=
  [0x20].intercalate [
    js ("WORKFLOW_AWAITING_USER_DECISION: The completed implementation run returned to the " ++
      "autonomous continuation boundary with unresolved work and unchanged durable FEAT " ++
      "evidence."),
    js "Durable fingerprint before run: " ++ before ++ js ".",
    js "Durable fingerprint after run: " ++ after ++ js ".",
    js ("Hepha stopped autonomous continuation scheduling rather than creating an equivalent " ++
      "workflow run. Completed task evidence remains preserved. Repair the reported authority " ++
      "mismatch and choose Continue Implementation, or cancel the workflow.")]

/-- `"not_scheduled"`, `"blocked"`, or the run that is scheduled. -/
inductive ContinuationOutcome (F : Type)
  | notScheduled
  | blocked
  | scheduled (next : RunInput F)

def nextRun (feature : F) (id : JsString) : RunInput F where
  autonomous := true
  command := .continueImplementing
  feature := feature
  forcedRecoveryPhaseNumber := none
  previousFailureBrief := none
  recoveryAttempt := 0
  runId := js "workflow-" ++ id

/-- `AutonomousContinuationScheduler.schedule`, where work remains. -/
def scheduleRemaining (input : RunInput F) (feature : F) (durableFingerprintBeforeRun : JsString) :
    Work F (ContinuationOutcome F) := do
  let durableFingerprintAfterRun ← Work.ask feature (.captureDurableProgress feature)
  if durableFingerprintBeforeRun = durableFingerprintAfterRun then
    let error := unchangedError durableFingerprintBeforeRun durableFingerprintAfterRun
    Work.ask feature (.recordRun input.runId input.command .blocked (some error) error)
    Work.ask feature (.notifyChanged .blocked)
    return .blocked
  else
    let id ← Work.ask feature .createId
    let next := nextRun feature id
    Work.ask feature (.recordRun next.runId .continueImplementing .running none
      (js ("The preceding implementation run changed durable FEAT evidence, so the orchestrator " ++
        "is starting a fresh Continue Implementation run for the next durable phase task.")))
    Work.ask feature (.notifyChanged .continuationScheduled)
    return .scheduled next

/-- `AutonomousContinuationScheduler.schedule`. -/
def schedule (input : RunInput F) (feature : F) (durableFingerprintBeforeRun : JsString) :
    Work F (ContinuationOutcome F) :=
  if input.autonomous then do
    let remaining ← Work.ask feature (.hasRemainingWork feature)
    if remaining then scheduleRemaining input feature durableFingerprintBeforeRun
    else return .notScheduled
  else pure .notScheduled

/-! ## A run -/

/-- The end of a run without another one. -/
def announce (feature : F) (announcement : Announcement) : Work F (Option (RunInput F)) := do
  Work.ask feature (.notifyChanged announcement)
  return none

def completeTerminal (input : RunInput F) (feature : F) (summary : String) :
    Work F (Option (RunInput F)) := do
  Work.ask feature (.recordCompletion input.runId input.command (js summary))
  announce feature .completed

/-- From the end of the implementation loop. -/
def finishRun (input : RunInput F) (feature : F) (durableFingerprintBeforeRun output : JsString) :
    Work F (Option (RunInput F)) := do
  let resolution ← Work.ask feature (.resolveTask input feature)
  Work.ask feature (.recordProgress input feature resolution)
  Work.ask feature (.recordCompletion input.runId input.command
    (policy.summarizeOutput output
      (js "Continued implementation for " ++ policy.externalId input.feature ++ js ".")))
  let outcome ← schedule input feature durableFingerprintBeforeRun
  match outcome with
  | .notScheduled => announce feature .completed
  | .blocked => return none
  | .scheduled next => return some next

/-- The reconciliation after the implementation loop. -/
def afterLoop (input : RunInput F) (feature : F) (durableFingerprintBeforeRun output : JsString) :
    Work F (Option (RunInput F)) := do
  Work.ask feature (.assertRunActive input.runId)
  let current ← Work.ask feature (.findCurrentFeature input feature)
  let handed ← Work.ask current (.reviewHandoff input current)
  let reconciled ← Work.ask handed (.reconcile input handed)
  if reconciled.2 then
    completeTerminal input reconciled.1 ("All numbered phases and declared tasks were " ++
      "reconciled as complete from durable evidence after the worker returned. Manual Code " ++
      "Review and Manual Tests are now required before Complete Feature.")
  else finishRun policy input reconciled.1 durableFingerprintBeforeRun output

/-- The next task, and the implementation loop. -/
def implementRun (input : RunInput F) (feature : F) (durableFingerprintBeforeRun : JsString) :
    Work F (Option (RunInput F)) := do
  Work.ask feature (.enterNode "resolve-next-task" feature)
  let resolution ← Work.ask feature (.resolveTask input feature)
  Work.ask feature (.recordProgress input feature resolution)
  Work.ask feature (.enterNode "implementation-loop" feature)
  let loop := { input with feature := feature }
  if input.autonomous then do
    let output ← Work.ask feature (.runAutonomous loop)
    afterLoop policy input feature durableFingerprintBeforeRun output
  else do
    let output ← Work.ask feature (.runInteractive loop)
    afterLoop policy input feature durableFingerprintBeforeRun output

/-- A run up to its failure. -/
def tryRun (input : RunInput F) : Work F (Option (RunInput F)) := do
  Work.ask input.feature (.enterNode "refresh-current-feature" input.feature)
  let current ← Work.ask input.feature (.findCurrentFeature input input.feature)
  let recovered ← Work.ask current (.recoverPersistedWorkerEvidence input current)
  let recorded ← Work.ask recovered (.reconcileRecordedGherkin input recovered)
  let handed ← Work.ask recorded (.reviewHandoff input recorded)
  let durableFingerprintBeforeRun ← Work.ask handed (.captureDurableProgress handed)
  let reconciled ← Work.ask handed (.reconcile input handed)
  if reconciled.2 then
    completeTerminal input reconciled.1 ("All numbered phases and declared tasks were " ++
      "reconciled as complete from durable evidence. Manual Code Review and Manual Tests are " ++
      "now required before Complete Feature.")
  else implementRun policy input reconciled.1 durableFingerprintBeforeRun

/-- The record of a failed run; where it fails itself, that is passed over. -/
def recordFailure (input : RunInput F) (feature : F) (recovery : Outcome) :
    Work F (Option (RunInput F)) :=
  let blocked := policy.classifyBlocked recovery.errorMessage
  Program.ask (.recordRun input.runId input.command (if blocked then .blocked else .failed)
      (some recovery.errorMessage) (recovery.failureBrief.getD
        (policy.createFailureBrief input feature recovery.errorMessage)))
    fun _ => announce feature (if blocked then .blocked else .failed)

/-- What follows a recovery: the run is completed, or has failed. -/
def settleFailure (input : RunInput F) (feature : F) (recovery : Outcome) :
    Work F (Option (RunInput F)) :=
  if recovery.recovered then do
    Work.ask feature (.recordCompletion input.runId input.command
      (policy.summarizeOutput recovery.output (js "Recovered and continued implementation for " ++
        policy.externalId input.feature ++ js ".")))
    announce feature .completed
  else recordFailure policy input feature recovery

def recoverFailure (input : RunInput F) (failure : Failure F) : Work F (Option (RunInput F)) :=
  let errorMessage := failure.thrown.message.getD
    (js "Unknown implementation continuation error.")
  Program.ask (.attemptRecovery errorMessage failure.feature input) fun
    | .ok recovery => settleFailure policy input failure.feature recovery
    | .error thrown => settleFailure policy input failure.feature {
        errorMessage := errorMessage ++ [0x0A, 0x0A] ++ js "Workflow recovery failed: " ++
          thrown.message.getD (js "Unknown workflow recovery error.")
        failureBrief := none
        output := []
        recovered := false }

/-- `handleFailure`. -/
def handleFailure (input : RunInput F) (failure : Failure F) : Work F (Option (RunInput F)) :=
  if failure.thrown.isCancelled then do
    Work.ask failure.feature (.clearCancellation input.runId)
    announce failure.feature .cancelled
  else recoverFailure policy input failure

/-- A run, and what has come of its failure. -/
def catchRun (input : RunInput F) : Work F (Option (RunInput F)) :=
  Program.bind (tryRun policy input) fun
    | .ok next => .done (.ok next)
    | .error failure => handleFailure policy input failure

/-- `ContinueImplementationRunApplication.execute`, with the run that it has scheduled. -/
def executeRun (input : RunInput F) : Work F (Option (RunInput F)) := do
  Work.ask input.feature (.createRunner input)
  catchRun policy input

/-- A run and those after it, for a number of runs. -/
def executeRuns : ℕ → RunInput F → Work F Unit
  | 0, _ => pure ()
  | n + 1, input => do
      let next ← executeRun policy input
      match next with
      | none => return ()
      | some next => executeRuns n next

end

end Hepha.Continuation
