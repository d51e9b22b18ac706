import Hepha.Js.Lines
import Hepha.Lib.Recording

/-!
# The recovery of an implementation

`ImplementationAutoRecoveryApplication.attempt` chooses what is done about a failure, and
`ImplementationRecoveryRetryApplication.execute` runs the implementation again; a failure
of that is attempted in turn.  The two call each other for as long as failures are
recovered from; here they do so for a number of levels.

The judgements about a failure, and the texts that are made of it, are a policy.  What is
the same in all inputs of a run (the card, the project, the branch) is left out.
-/

namespace Hepha.Recovery

open Interaction Interaction.Program JsString

/-- What was thrown: the message of an `Error`, or anything else. -/
abbrev Thrown := Option JsString

inductive Command
  | startImplementing
  | continueImplementing
  deriving DecidableEq

variable {F : Type}

/-- `ImplementationWorkflowInput`, in what a retry may change. -/
structure WorkflowInput (F : Type) where
  autonomous : Bool
  command : Command
  feature : F
  forcedRecoveryPhaseNumber : Option ℕ
  previousFailureBrief : Option JsString
  recoveryAttempt : ℕ

/-- `ImplementationRecoveryOutcome`. -/
structure Outcome where
  errorMessage : JsString
  failureBrief : Option JsString
  output : JsString
  recovered : Bool

/-- `PreparedImplementationRecovery`. -/
structure PreparedRecovery where
  canRetry : Bool
  skipRecoveryAgent : Bool
  summary : JsString

/-- The functions that the application is given. -/
structure Policy (F : Type) where
  appendAnalysis : JsString → JsString → JsString
  appendHostRecovery : JsString → JsString → JsString
  createFailureBrief : JsString → WorkflowInput F → F → JsString
  extractFailurePhase : JsString → Option ℕ
  isCodeReviewFailure : JsString → Bool
  isFatalFailure : JsString → Bool
  isProviderPromptRefusalFailure : JsString → Bool
  isRecoverableFailure : JsString → Bool
  isReviewFindingResolutionFailure : F → JsString → Bool
  parsesAsRetry : JsString → Bool
  summarizeOutput : JsString → JsString → JsString

/-! ## Requests -/

inductive Request (F : Type)
  | findCurrentFeature (input : WorkflowInput F) (fallback : F)
  | prepareRecovery (errorMessage : JsString)
  | recordFeatureProgress (input : WorkflowInput F) (feature : F) (step summary : JsString)
  | recordRecoveryProgress (input : WorkflowInput F) (feature : F) (phaseNumber : Option ℕ)
      (step : JsString)
  | runRecoveryWorker (errorMessage failureBrief : JsString) (feature : F)
      (input : WorkflowInput F) (prepared : PreparedRecovery) (step : JsString)
  | runAutonomous (input : WorkflowInput F)

/-- A worker answers with its output and the paths that were reverted after it. -/
abbrev Request.Reply : Request F → Type
  | findCurrentFeature .. => F
  | prepareRecovery _ => PreparedRecovery
  | recordFeatureProgress .. => Unit
  | recordRecoveryProgress .. => Unit
  | runRecoveryWorker .. => JsString × List JsString
  | runAutonomous _ => JsString

abbrev Request.Answer (r : Request F) : Type := Except Thrown r.Reply

/-- A part of an attempt; what a request throws, it throws itself. -/
abbrev Attempt (F α : Type) : Type := Throwing (Request F) Request.Answer Thrown α

def Attempt.ask (r : Request F) : Attempt F r.Reply := Program.request r

/-! ## A retry -/

/-- What is done about a failure; nothing where the levels are used up. -/
abbrev Recover (F : Type) := JsString → F → WorkflowInput F → Attempt F (Option Outcome)

/-- `nestedRecovery` stands for the retry: its failure stays the last word. -/
def Outcome.nested (nested : Outcome) (originalErrorMessage outputPrefix : JsString) : Outcome :=
  if nested.recovered then
    ⟨originalErrorMessage, none, joinLines [outputPrefix, nested.output], true⟩
  else ⟨nested.errorMessage, nested.failureBrief, nested.output, false⟩

/-- `ImplementationRecoveryRetryApplication.execute`. -/
def retry (attemptNestedRecovery : Recover F) (originalErrorMessage outputPrefix : JsString)
    (retryFeature : F) (retryInput : WorkflowInput F) : Attempt F (Option Outcome) :=
  Program.ask (.runAutonomous retryInput) fun
    | .ok retryOutput =>
        .done (.ok (some ⟨originalErrorMessage, none, joinLines [outputPrefix, retryOutput], true⟩))
    | .error thrown =>
        (attemptNestedRecovery (thrown.getD (js "Unknown workflow recovery retry error."))
          retryFeature retryInput).bind fun nested =>
            .done (.ok (nested.map fun n => n.nested originalErrorMessage outputPrefix))

section

variable (policy : Policy F) (nested : Recover F)

def retryWithBrief (input : WorkflowInput F) (feature : F)
    (failureBrief errorMessage outputPrefix previousFailureBrief : JsString) :
    Attempt F (Option Outcome) := do
  let retryFeature ← Attempt.ask (.findCurrentFeature input feature)
  retry nested errorMessage outputPrefix retryFeature { input with
    feature := retryFeature
    forcedRecoveryPhaseNumber :=
      policy.extractFailurePhase failureBrief <|> input.forcedRecoveryPhaseNumber
    previousFailureBrief := some previousFailureBrief
    recoveryAttempt := input.recoveryAttempt + 1 }

/-- `RetryRoute`. -/
structure RetryRoute where
  outputPrefix : String
  progressStep : String
  progressSummary : String
  recoverySummary : String

def retryDirectly (input : WorkflowInput F) (feature : F)
    (failureBrief errorMessage : JsString) (route : RetryRoute) : Attempt F (Option Outcome) := do
  Attempt.ask (.recordFeatureProgress input feature (js route.progressStep)
    (js route.progressSummary))
  retryWithBrief policy nested input feature failureBrief errorMessage (js route.outputPrefix)
    (policy.appendHostRecovery failureBrief (js route.recoverySummary))

/-! ## An attempt -/

def unrecovered (errorMessage : JsString) : Outcome := ⟨errorMessage, none, [], false⟩

/-- The failures about which nothing is done. -/
def Policy.refuses (errorMessage : JsString) (input : WorkflowInput F) : Bool :=
  errorMessage.includes "WORKFLOW_AWAITING_USER_DECISION" ||
    policy.isFatalFailure errorMessage ||
    !input.autonomous ||
    (!policy.isCodeReviewFailure errorMessage && decide (1 ≤ input.recoveryAttempt)) ||
    !policy.isRecoverableFailure errorMessage

def providerPromptRefusal : RetryRoute where
  outputPrefix := "Retry provider-refused task in a fresh session"
  progressStep := "Continuing implementation in a fresh worker session"
  progressSummary := "The provider refused the accumulated worker prompt. Continue Implementing " ++
    "is resuming the same durable task once with a fresh Pi session."
  recoverySummary := "Provider prompt refusal: preserve completed task evidence and resume the " ++
    "same unfinished task through Continue Implementing in one fresh Pi session."

def incompleteFixer : RetryRoute where
  outputPrefix := "Retry incomplete code-review finding resolution"
  progressStep := "Retrying incomplete code-review finding resolution"
  progressSummary := "The fixer did not complete; retrying the same review-finding resolution " ++
    "before any review rerun."
  recoverySummary := "Fixer response was incomplete; retry the same finding resolution. Do not " ++
    "run code review."

def codeReviewFindings : RetryRoute where
  outputPrefix := "Direct code-review finding resolution"
  progressStep := "Preparing Resolve Findings after code review"
  progressSummary := "Code-review findings are being routed directly to the fixer for a bounded " ++
    "response."
  recoverySummary := "Code-review findings routed directly to the fixer; no generic " ++
    "recovery-agent retry was run."

/-- `\bexited with code 143\b` under the flag `i`, behind a unit of a word or not. -/
def exitedWithCode143 : Bool → JsString → Bool
  | _, [] => false
  | behindWord, u :: rest =>
      (!behindWord && (Pattern.litIgnoreCase "exited with code 143" (u :: rest)).any fun s =>
        !(s.head?.any isWordUnit)) || exitedWithCode143 (isWordUnit u) rest
where
  isWordUnit (u : CodeUnit) : Bool := Pattern.isAlphanumeric u || u == 0x5F

def recoveryStep : JsString := js "Analyzing failed workflow and preparing autonomous retry"

/-- The output of a recovery worker, with the paths that were reverted after it. -/
def guardedOutput (output : JsString) (revertedPaths : List JsString) : JsString :=
  if revertedPaths ≠ [] then
    joinLines [output.trimEnd, [], js "## Host Recovery Guard", [],
      js ("Hepha reverted prohibited recovery-agent mutations to machine-owned workflow " ++
        "state: ") ++ (js ", ").intercalate revertedPaths ++
        js (". Recovery agents may diagnose state but cannot write phase lifecycle fields, " ++
          "quality gates, task ledgers, or FeatureTasks.md.")]
  else output

/-- The recovery by a worker. -/
def recoverByWorker (errorMessage : JsString) (input : WorkflowInput F) (currentFeature : F)
    (failureBrief : JsString) (prepared : PreparedRecovery) : Attempt F (Option Outcome) := do
  Attempt.ask (.recordRecoveryProgress input currentFeature
    (policy.extractFailurePhase errorMessage <|>
      policy.extractFailurePhase (input.previousFailureBrief.getD []) <|>
      input.forcedRecoveryPhaseNumber) recoveryStep)
  let worker ← Attempt.ask (.runRecoveryWorker errorMessage failureBrief currentFeature input
    prepared recoveryStep)
  let recoveryOutput := guardedOutput worker.1 worker.2
  if !policy.parsesAsRetry recoveryOutput && !prepared.canRetry then
    return some {
      errorMessage := errorMessage ++ [0x0A, 0x0A] ++
        js "Recovery analysis did not approve an autonomous retry." ++ [0x0A] ++ recoveryOutput
      failureBrief := some (policy.appendAnalysis failureBrief recoveryOutput)
      output := recoveryOutput
      recovered := false }
  else
    Attempt.ask (.recordFeatureProgress input currentFeature
      (js "Retrying implementation after recovery analysis")
      (policy.summarizeOutput recoveryOutput
        (js "Recovery analysis approved an autonomous retry.")))
    retryWithBrief policy nested input currentFeature failureBrief errorMessage
      (js "Recovery analysis: " ++
        policy.summarizeOutput recoveryOutput (js "Recovery completed."))
      (policy.appendAnalysis failureBrief recoveryOutput)

/-- The recovery that the host has prepared. -/
def recoverPrepared (errorMessage : JsString) (input : WorkflowInput F) (currentFeature : F)
    (failureBrief : JsString) (prepared : PreparedRecovery) : Attempt F (Option Outcome) :=
  if policy.isReviewFindingResolutionFailure currentFeature errorMessage &&
      exitedWithCode143 false errorMessage then
    pure (some (unrecovered (errorMessage ++ [0x0A, 0x0A] ++
      js ("Fixer response did not complete; no code-review rerun was started. Continue " ++
        "Implementation may retry the same finding resolution."))))
  else if policy.isReviewFindingResolutionFailure currentFeature errorMessage then
    retryDirectly policy nested input currentFeature failureBrief errorMessage incompleteFixer
  else if policy.isCodeReviewFailure errorMessage then
    retryDirectly policy nested input currentFeature failureBrief errorMessage codeReviewFindings
  else if prepared.skipRecoveryAgent then
    if prepared.canRetry then do
      Attempt.ask (.recordFeatureProgress input currentFeature
        (js "Retrying implementation after host-side recovery") prepared.summary)
      retryWithBrief policy nested input currentFeature failureBrief errorMessage
        (js "Host-side recovery: " ++ prepared.summary)
        (policy.appendHostRecovery failureBrief prepared.summary)
    else
      pure (some {
        errorMessage := errorMessage ++ [0x0A, 0x0A] ++ prepared.summary
        failureBrief := some (policy.appendHostRecovery failureBrief prepared.summary)
        output := []
        recovered := false })
  else recoverByWorker policy nested errorMessage input currentFeature failureBrief prepared

/-- `ImplementationAutoRecoveryApplication.attempt`, with what a retry does about a failure
of its own. -/
def attemptWith : Recover F := fun errorMessage feature input =>
  if policy.refuses errorMessage input then pure (some (unrecovered errorMessage))
  else do
    let currentFeature ← Attempt.ask (.findCurrentFeature input feature)
    let failureBrief := policy.createFailureBrief errorMessage input currentFeature
    if policy.isProviderPromptRefusalFailure errorMessage then
      retryDirectly policy nested { input with command := .continueImplementing } currentFeature
        failureBrief errorMessage providerPromptRefusal
    else
      let prepared ← Attempt.ask (.prepareRecovery errorMessage)
      recoverPrepared policy nested errorMessage input currentFeature failureBrief prepared

end

/-- `attempt`, for a number of levels. -/
def attempt (policy : Policy F) : ℕ → Recover F
  | 0 => fun _ _ _ => pure none
  | n + 1 => attemptWith policy (attempt policy n)

end Hepha.Recovery
