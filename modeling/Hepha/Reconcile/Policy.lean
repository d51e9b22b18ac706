import Hepha.Js.Collections
import Hepha.Js.Decimal
import Hepha.Js.Lines
import Mathlib.Data.List.Sort

/-!
# The reconciliation policy

The policy decides from facts about every numbered phase: the status of its
document and of its row in FeatureTasks, its tasks and its quality gates.  It
looks at the phase with the least number that is not terminal, and it promotes
this phase when every task is checked and every required gate is settled.
-/

namespace Hepha.Reconcile

open JsString Pattern

/-- `ReconciliationGateStatus`. -/
inductive GateStatus
  | satisfied
  | notApplicable
  | waived
  | missing
  | unknown
deriving DecidableEq, Repr

def GateStatus.text : GateStatus → JsString
  | satisfied => js "satisfied"
  | notApplicable => js "not_applicable"
  | waived => js "waived"
  | missing => js "missing"
  | unknown => js "unknown"

/-- `SETTLED_GATES.has(status)`. -/
def GateStatus.isSettled : GateStatus → Bool
  | satisfied | notApplicable | waived => true
  | missing | unknown => false

/-- The names that `REQUIRED_GATES` holds. -/
inductive GateName
  | changedFiles
  | tests
  | gherkinE2e
  | codeReview
deriving DecidableEq, Repr

def GateName.text : GateName → JsString
  | changedFiles => js "changed_files"
  | tests => js "tests"
  | gherkinE2e => js "gherkin_e2e"
  | codeReview => js "code_review"

/-- `REQUIRED_GATES`, in its order. -/
def requiredGates : List GateName := [.changedFiles, .tests, .gherkinE2e, .codeReview]

/-- `ReconciliationGate`. -/
structure Gate where
  name : GateName
  status : GateStatus
  justification : Option JsString
deriving DecidableEq

inductive TaskRunStatus
  | notStarted
  | inProgress
  | completed
  | skipped
deriving DecidableEq, Repr

def TaskRunStatus.text : TaskRunStatus → JsString
  | notStarted => js "NOT_STARTED"
  | inProgress => js "IN_PROGRESS"
  | completed => js "COMPLETED"
  | skipped => js "SKIPPED"

/-- `COMPLETED` or `SKIPPED`. -/
def TaskRunStatus.isTerminal : TaskRunStatus → Bool
  | completed | skipped => true
  | notStarted | inProgress => false

/-- `ReconciliationTask`. -/
structure Task where
  id : JsString
  index : ℕ
  checked : Bool
  persistedStatus : Option TaskRunStatus

/-- `ReconciliationPhase`, less its title, which the policy does not read. -/
structure PhaseFacts where
  number : ℕ
  documentExists : Bool
  documentStatus : Option JsString
  featureTasksStatus : Option JsString
  tasks : Option (List Task)
  taskRunCount : ℕ
  gates : Option (List Gate)
  autonomousCodeReviewRequired : Option Bool

/-- `PhaseStateReconciliationDecision`. -/
inductive Decision
  | promote (phaseNumber : ℕ) (taskIds : List JsString) (reason : JsString)
  | initializeLedger (phaseNumber : ℕ) (reason : JsString)
  | select (phaseNumber : ℕ) (taskId : JsString) (reason : JsString)
  | blocked (phaseNumber : ℕ) (reason : JsString)
  | allTerminal (reason : JsString)
deriving DecidableEq

/-! ## Statuses -/

def canonicalStatuses : List JsString :=
  ["AWAITING_REVIEW", "AWAITING_CODE_REVIEW_RERUN", "COMPLETED", "COMPLETE", "DONE", "SKIPPED",
    "IN_PROGRESS", "PENDING", "BLOCKED", "FAILED"].map js

/-- The canonical word before `(?=_|$)` in front of a status. -/
def canonicalStatus (value : JsString) : Option JsString :=
  canonicalStatuses.find? fun word =>
    word.isPrefixOf value && (value.drop word.length).head?.all (· == 0x5F)

/-- The status that a text in upper case stands for. -/
def canonicalize (value : JsString) : JsString :=
  match canonicalStatus value with
  | some word =>
      if [js "COMPLETED", js "COMPLETE", js "DONE"].contains word then js "COMPLETED" else word
  | none => value

/-- `normalizeReconciliationPhaseStatus`. -/
def normalizeReconciliationPhaseStatus (casing : Casing) (status : Option JsString) :
    Option JsString :=
  status.bind fun status =>
    if status.trim.isEmpty then none
    else some (canonicalize (replaceRuns (fun u => isWhiteSpace u || u == 0x2D) [0x5F] false
      (casing.toUpperCase status.trim)))

/-- `TERMINAL.has(status ?? "")`. -/
def isTerminal (status : Option JsString) : Bool :=
  status == some (js "COMPLETED") || status == some (js "SKIPPED")

/-! ## Gates -/

/-- `findRecoverableMissingGate`. -/
def findRecoverableMissingGate (gates : List Gate) : Option GateName :=
  requiredGates.find? fun required =>
    (gates.find? fun gate => gate.name == required).any fun gate => gate.status == .missing

/-- What `validateSettledGates` says of one required gate. -/
def gateProblem (required : GateName) : Option Gate → Option JsString
  | none => some (js "is missing the " ++ required.text ++ js " quality gate.")
  | some gate =>
      if !gate.status.isSettled then
        some (js "has an unsettled " ++ required.text ++ js " quality gate (" ++
          gate.status.text ++ js ").")
      else if (gate.justification.getD []).trim.isEmpty then
        some (js "has no evidence/justification for the " ++ required.text ++ js " quality gate.")
      else none

/-- `validateSettledGates`: what keeps the gates from being settled. -/
def validateSettledGates (gates : List Gate) : Option JsString :=
  requiredGates.findSome? fun required =>
    gateProblem required (JsMap.get (gates.map fun gate => (gate.name, gate)) required)

/-- `isContradictoryStatus`. -/
def isContradictoryStatus (documentStatus featureTasksStatus : JsString) : Bool :=
  documentStatus != featureTasksStatus &&
    !(featureTasksStatus == js "PENDING" || featureTasksStatus == js "IN_PROGRESS")

/-! ## The decision -/

/-- `Phase ${number}`. -/
def phaseText (number : ℕ) : JsString :=
  js "Phase " ++ decimalText number

/-- The facts in the order of the phases' numbers. -/
def sortedPhases (input : List PhaseFacts) : List PhaseFacts :=
  input.insertionSort fun left right => left.number ≤ right.number

/-- The first phase whose number is that of the phase before it. -/
def findDuplicate (phases : List PhaseFacts) : Option PhaseFacts :=
  (phases.zip phases.tail).findSome? fun (previous, phase) =>
    if phase.number = previous.number then some phase else none

variable (casing : Casing)

/-- The unchecked task of a completed phase. -/
def uncheckedCompleted (candidate : PhaseFacts) : Option (PhaseFacts × Task) :=
  let status := normalizeReconciliationPhaseStatus casing candidate.documentStatus
  if status = some (js "SKIPPED") || !isTerminal status then none
  else ((candidate.tasks.getD []).find? fun task => !task.checked).map (candidate, ·)

def isAwaitingReview (documentStatus : JsString) : Bool :=
  documentStatus == js "AWAITING_REVIEW" || documentStatus == js "AWAITING_CODE_REVIEW_RERUN"

/-- The decision on a phase whose tasks are all checked. -/
def decideChecked (phase : PhaseFacts) (documentStatus : JsString) (orderedTasks : List Task)
    (gates : List Gate) : Decision :=
  let gateFailure := validateSettledGates gates
  let taskIds := orderedTasks.map Task.id
  if isAwaitingReview documentStatus && phase.autonomousCodeReviewRequired == some false &&
      gateFailure.isNone then
    .promote phase.number taskIds (js ("Checked tasks and settled gates show no " ++
      "production-source change, so stale autonomous review state is recovered without " ++
      "reviewing reports."))
  else if isAwaitingReview documentStatus then
    .select phase.number ((orderedTasks.getLast?.map Task.id).getD [])
      (phaseText phase.number ++ js (" has completed task work and is awaiting the " ++
        "orchestrator-owned review gate."))
  else match gateFailure, findRecoverableMissingGate gates with
    | some failure, missing =>
        if missing.isSome && (documentStatus == js "IN_PROGRESS" ||
            documentStatus == js "PENDING") then
          .blocked phase.number (phaseText phase.number ++ js " has checked task work but its " ++
            (missing.map GateName.text).getD [] ++ js (" quality gate is missing. No unchecked " ++
            "declared task can repair that gate safely; explicit gate evidence or " ++
            "authoritative task invalidation is required."))
        else .blocked phase.number (phaseText phase.number ++ js " " ++ failure)
    | none, _ =>
        .promote phase.number taskIds (js ("Every phase-document task is checked and every " ++
          "quality gate is settled with evidence."))

/-- The decision on a phase with tasks and a gate table. -/
def decideTasks (phase : PhaseFacts) (documentStatus featureTasksStatus : JsString)
    (orderedTasks : List Task) (gates : List Gate) : Decision :=
  let featureTasksAheadWithProof := isTerminal (some featureTasksStatus) &&
    !isTerminal (some documentStatus) && orderedTasks.all Task.checked
  if isContradictoryStatus documentStatus featureTasksStatus && !featureTasksAheadWithProof then
    .blocked phase.number (phaseText phase.number ++ js " has contradictory statuses: document " ++
      documentStatus ++ js ", FeatureTasks " ++ featureTasksStatus ++ js ".")
  else match orderedTasks.find? fun task =>
      !task.checked && task.persistedStatus.any TaskRunStatus.isTerminal with
    | some task =>
        .blocked phase.number (phaseText phase.number ++ js " task " ++ task.id ++
          js " is unchecked in the phase document but " ++
          (task.persistedStatus.map TaskRunStatus.text).getD [] ++ js " in the task ledger.")
    | none =>
        match orderedTasks.find? fun task => !task.checked with
        | none => decideChecked phase documentStatus orderedTasks gates
        | some firstUnchecked =>
            if orderedTasks.any fun task => firstUnchecked.index < task.index &&
                (task.checked || task.persistedStatus.any fun status => status != .notStarted) then
              .blocked phase.number (phaseText phase.number ++ js (" task ledger is out of " ++
                "order: a later task has state after unchecked task ") ++ firstUnchecked.id ++
                js ".")
            else .select phase.number firstUnchecked.id
              (js "Selected the first unchecked task in the earliest non-terminal phase.")

/-- The decision on a phase without a task. -/
def decideUninitialized (phase : PhaseFacts) (documentStatus featureTasksStatus : JsString) :
    Decision :=
  let taskPlanIsActive :=
    featureTasksStatus == js "PENDING" || featureTasksStatus == js "IN_PROGRESS"
  if documentStatus == js "IN_PROGRESS" && taskPlanIsActive && phase.taskRunCount == 0 then
    .initializeLedger phase.number (phaseText phase.number ++ js (" was interrupted before any " ++
      "durable task-run evidence; the recovery worker must inspect current files and create " ++
      "its task ledger before substantive work."))
  else if documentStatus == js "PENDING" && taskPlanIsActive then
    .initializeLedger phase.number (phaseText phase.number ++ js (" is a fresh pending phase; the " ++
      "worker must create its durable task ledger before substantive work."))
  else .blocked phase.number (phaseText phase.number ++
    js " has no durable phase-document task ledger.")

/-- The decision on the phase that is first among those not terminal. -/
def decidePhase (phase : PhaseFacts) : Decision :=
  if !phase.documentExists then
    .blocked phase.number (phaseText phase.number ++ js " document is missing.")
  else
    match truthy (normalizeReconciliationPhaseStatus casing phase.documentStatus),
        truthy (normalizeReconciliationPhaseStatus casing phase.featureTasksStatus) with
    | some documentStatus, some featureTasksStatus =>
        if (phase.tasks.getD []).isEmpty then
          decideUninitialized phase documentStatus featureTasksStatus
        else match phase.gates with
          | none => .blocked phase.number (phaseText phase.number ++
              js " has no readable Quality Gate Evidence table.")
          | some gates => decideTasks phase documentStatus featureTasksStatus
              ((phase.tasks.getD []).insertionSort fun left right => left.index ≤ right.index) gates
    | _, _ => .blocked phase.number (phaseText phase.number ++
        js " is missing a document or FeatureTasks status.")

/-- `reconcilePhaseState`. -/
def reconcilePhaseState (input : List PhaseFacts) : Decision :=
  let phases := sortedPhases input
  match findDuplicate phases with
  | some duplicate => .blocked duplicate.number (js "Duplicate " ++ phaseText duplicate.number ++
      js " documents cannot be reconciled safely.")
  | none =>
      match phases.findSome? (uncheckedCompleted casing) with
      | some (candidate, unchecked) => .blocked candidate.number (phaseText candidate.number ++
          js " is marked COMPLETED but durable task " ++ unchecked.id ++ js " remains unchecked.")
      | none =>
          match phases.find? fun candidate =>
              !isTerminal (normalizeReconciliationPhaseStatus casing candidate.documentStatus) with
          | none => .allTerminal (js ("Every numbered phase is terminal; feature completion " ++
              "remains a manual workflow."))
          | some phase => decidePhase casing phase

end Hepha.Reconcile
