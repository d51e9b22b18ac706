import Hepha.Markdown.Sections
import Hepha.Reconcile.FeatureTasks
import Hepha.Reconcile.Policy
import Hepha.Js.Date

/-!
# Reconciliation on disk

A call reads FeatureTasks, the phase documents and the task runs, and either
repairs one of them or asks the policy.  It is given here as the decision that
it returns and the writes that it makes, in their order: what it reads does not
depend on its own writes.
-/

namespace Hepha.Reconcile

open JsString Pattern Markdown Date

/-- `ReconciliationPhaseTask`, less what is only written to the task run. -/
structure PhaseTask where
  id : JsString
  index : ℕ
  checked : Bool
deriving DecidableEq

/-- `ReconciliationPhaseDescriptor`, less its title. -/
structure PhaseDescriptor where
  number : ℕ
  documentPath : JsString
  autonomousCodeReviewRequired : Option Bool
deriving DecidableEq

/-- A row of the task run store. -/
structure TaskRun where
  phaseNumber : ℕ
  taskId : JsString
  status : TaskRunStatus
  startedAt : Option JsString
  completedAt : Option JsString
deriving DecidableEq

/-- The files and the store that a call works on. -/
structure Disk where
  featureTasks : Option JsString
  documents : JsString → Option JsString
  runs : List TaskRun

/-- The arguments of a call that are not on the disk.  `readTasks` reads the
document of a phase; it returns nothing where it throws. -/
structure Input where
  phases : List PhaseDescriptor
  readTasks : PhaseDescriptor → JsString → Option (List PhaseTask)
  casing : Casing

/-! ## The phase document -/

/-- `/^\*\*Status:\*\*\s*/i`: what follows the label of a status line. -/
def afterStatusLabel (line : JsString) : Option JsString :=
  (litIgnoreCase "**status:**" line).head?

/-- `extractPhaseStatus`. -/
def extractPhaseStatus (markdown : JsString) : Option JsString :=
  ((splitLines markdown).findSome? afterStatusLabel).bind captureTrimmed

/-- `replacePhaseStatus`. -/
def replacePhaseStatus (markdown status : JsString) : JsString :=
  let lines := splitLines markdown
  match lines.findIdx? fun line => (afterStatusLabel line).isSome with
  | none => js "**Status:** " ++ status ++ js "\n\n" ++ markdown.trimEnd ++ js "\n"
  | some index => (joinLines (lines.set index (js "**Status:** " ++ status))).trimEnd ++ js "\n"

/-- `upsertMarkdownSection`. -/
def upsertMarkdownSection (markdown : JsString) (heading : String) (text : JsString) : JsString :=
  match findSection markdown heading with
  | none => markdown.trimEnd ++ js "\n\n" ++ text.trim ++ js "\n"
  | some parts =>
      parts.before.trimEnd ++ js "\n\n" ++ text.trim ++ js "\n" ++ parts.after.trimStart

/-- An entry of the legacy task table: a task and its state. -/
def legacyEntry (line : JsString) : Option (JsString × JsString) :=
  if line.head? != some unitPipe then none
  else match tableCells line with
    | id :: task :: state :: _ =>
        if testWhole (litIgnoreCase "task id") id || testWhole (atLeast 1 (anyOf "-:")) id ||
            task.isEmpty then none
        else some (task, state)
    | _ => none

/-- `initializeLegacyHephaTaskStateLedger`: the document with a ledger, if it needs one. -/
def initializeLegacyHephaTaskStateLedger (markdown : JsString) : Option JsString := do
  if (searchLines (sectionHeading "phase task ledger") true markdown).isSome then none
  else
    let body ← truthy (extractSection markdown "hepha task state")
    let entries := (splitLines body).filterMap legacyEntry
    if entries.isEmpty then none
    else some (markdown.trimEnd ++ js "\n\n" ++ joinLines
      ([js "## Phase Task Ledger", []] ++ entries.map (fun (task, state) =>
        js "- [" ++ (if testWhole (oneOf [litIgnoreCase "completed", litIgnoreCase "skipped"]) state
          then js "x" else js " ") ++ js "] " ++ task) ++ [[]]))

/-! ## Quality gates -/

/-- `normalizeGateName`. -/
def normalizeGateName (casing : Casing) (value : JsString) : Option GateName :=
  let normalized := casing.toLowerCase value
  if normalized.includes "coverage" then none
  else if normalized.includes "changed file" then some .changedFiles
  else if normalized.includes "code review" then some .codeReview
  else if normalized.includes "gherkin" || normalized.includes "playwright" ||
      normalized.includes "e2e" then some .gherkinE2e
  else if normalized.includes "test" then some .tests
  else none

/-- `normalizeGateStatus`. -/
def normalizeGateStatus (casing : Casing) (value : JsString) : GateStatus :=
  let normalized := casing.toLowerCase value
  if ["satisfied", "pass", "approved", "complete", "done"].any normalized.includes then .satisfied
  else if ["not applicable", "n/a", "na"].any normalized.includes then .notApplicable
  else if ["waived", "not required"].any normalized.includes then .waived
  else if ["missing", "required", "pending", "todo"].any normalized.includes then .missing
  else .unknown

/-- `cells.slice(2).join(" | ").trim()`. -/
def joinEvidence (cells : List JsString) : JsString :=
  trim ((js " | ").intercalate (cells.drop 2))

/-- The gate that a row of the table says something about. -/
def readGate (casing : Casing) (cells : List JsString) : Option Gate :=
  match cells with
  | name :: status :: _ :: _ =>
      (normalizeGateName casing name).map fun name =>
        { name, status := normalizeGateStatus casing status
          justification := truthy (some (joinEvidence cells)) }
  | _ => none

/-- The rows of the section `Quality Gate Evidence`, as their cells. -/
def gateRows (markdown : JsString) : Option (List (List JsString)) :=
  (extractSection markdown "quality gate evidence").map fun body =>
    (splitLines body).map tableCells

/-- `parseQualityGates`: of several rows for one gate the last one counts. -/
def parseQualityGates (casing : Casing) (markdown : JsString) : Option (List Gate) :=
  (gateRows markdown).map fun rows =>
    ((rows.filterMap (readGate casing)).foldl
      (fun gates gate => JsMap.set gates gate.name gate) []).map Prod.snd

/-! ## A call -/

/-- `store.listTaskRuns`. -/
def listTaskRuns (disk : Disk) (phaseNumber : ℕ) : List TaskRun :=
  disk.runs.filter fun run => run.phaseNumber == phaseNumber

/-- `runByTaskId.get(taskId)?.status`. -/
def persistedStatus (runs : List TaskRun) (taskId : JsString) : Option TaskRunStatus :=
  (JsMap.get (runs.map fun run => (run.taskId, run)) taskId).map TaskRun.status

/-- A write of a call. -/
inductive Write
  | document (path text : JsString)
  | featureTasks (text : JsString)
  | taskRun (run : TaskRun)
deriving DecidableEq

/-- `ReconcilePhaseStateOnDiskResult`, with the writes of the call. -/
structure Outcome where
  decision : Decision
  promotedAt : Option JsString
  changed : Bool
  writes : List Write

/-- What reading one phase comes to: a repair that ends the call, or facts. -/
inductive PhaseReading
  | repair (outcome : Outcome)
  | facts (facts : PhaseFacts)

/-- The run that `resetTaskRun` leaves. -/
def resetRun (phaseNumber : ℕ) (taskId : JsString) : TaskRun :=
  ⟨phaseNumber, taskId, .notStarted, none, none⟩

/-- The run that `recordCompletedTask` leaves. -/
def completedRun (phaseNumber : ℕ) (taskId completedAt : JsString) : TaskRun :=
  ⟨phaseNumber, taskId, .completed, some completedAt, some completedAt⟩

variable (input : Input) (disk : Disk)

/-- One turn of the loop over the phases; nothing where `readTasks` throws. -/
def readPhase (phase : PhaseDescriptor) : Option PhaseReading :=
  let featureTasksStatus := (truthy disk.featureTasks).bind fun markdown =>
    readFeatureTasksPhaseStatus input.casing markdown phase.number
  match disk.documents phase.documentPath with
  | none => some (.facts ⟨phase.number, false, none, featureTasksStatus, none, 0, none,
      phase.autonomousCodeReviewRequired⟩)
  | some markdown =>
      match initializeLegacyHephaTaskStateLedger markdown with
      | some migrated => some (.repair ⟨.initializeLedger phase.number (phaseText phase.number ++
          js (" legacy Hepha Task State was deterministically initialized as a durable " ++
          "Phase Task Ledger.")), none, true, [.document phase.documentPath migrated]⟩)
      | none => (input.readTasks phase markdown).map fun tasks =>
          let runs := listTaskRuns disk phase.number
          match tasks.find? fun task =>
              !task.checked && (persistedStatus runs task.id).any TaskRunStatus.isTerminal with
          | some staleRun => .repair ⟨.initializeLedger phase.number (phaseText phase.number ++
              js " task " ++ staleRun.id ++ js (" is unchecked in the durable phase plan; " ++
              "its stale ") ++ ((persistedStatus runs staleRun.id).map TaskRunStatus.text).getD [] ++
              js " task-run mirror was reset."), none, true,
              [.taskRun (resetRun phase.number staleRun.id)]⟩
          | none => .facts ⟨phase.number, true,
              (truthy (some markdown)).bind extractPhaseStatus, featureTasksStatus,
              some (tasks.map fun task =>
                ⟨task.id, task.index, task.checked, persistedStatus runs task.id⟩),
              runs.length, parseQualityGates input.casing markdown,
              phase.autonomousCodeReviewRequired⟩

/-- The loop over the phases: it ends with the first repair. -/
def readPhases : List PhaseDescriptor → Option (Outcome ⊕ List PhaseFacts)
  | [] => some (.inr [])
  | phase :: rest => do
      match ← readPhase input disk phase with
      | .repair outcome => some (.inl outcome)
      | .facts facts =>
          match ← readPhases rest with
          | .inl outcome => some (.inl outcome)
          | .inr others => some (.inr (facts :: others))

/-- The lines of the section `Hepha Phase State`. -/
def phaseStateLines (timestamp : JsString) : List JsString :=
  [js "## Hepha Phase State", [], js "- **Status:** COMPLETED",
    js "- **Completed At:** " ++ timestamp,
    js ("- **Completion Provenance:** Deterministic phase-state reconciliation from checked " ++
      "phase-document tasks and settled Quality Gate Evidence; worker final prose was not " ++
      "used."), []]

/-- The lines of the section `Hepha State Reconciliation Audit`. -/
def auditLines (timestamp : JsString) (phaseNumber : ℕ) : List JsString :=
  [js "## Hepha State Reconciliation Audit", [],
    js "- " ++ timestamp ++ js " | " ++ phaseText phaseNumber ++ js (" promoted to COMPLETED | " ++
      "checked phase-document tasks and settled quality gates verified."), []]

/-- The phase document of a promotion. -/
def promotedDocument (markdown timestamp : JsString) (phaseNumber : ℕ) : JsString :=
  let phaseMarkdown := upsertMarkdownSection (replacePhaseStatus markdown (js "COMPLETED"))
    "hepha phase state" (joinLines (phaseStateLines timestamp))
  upsertMarkdownSection phaseMarkdown "hepha state reconciliation audit"
    (joinLines (auditLines timestamp phaseNumber))

/-- The writes that complete the task runs of a promoted phase. -/
def taskRunWrites (phaseNumber : ℕ) (tasks : List PhaseTask) (timestamp : JsString) : List Write :=
  let runs := listTaskRuns disk phaseNumber
  (tasks.filter fun task =>
    task.checked && persistedStatus runs task.id != some .completed).map fun task =>
      .taskRun (completedRun phaseNumber task.id timestamp)

/-- The write of FeatureTasks that follows the document of a promoted phase. -/
def featureTasksWrites (phaseNumber : ℕ) : List Write :=
  match disk.featureTasks with
  | none => []
  | some markdown =>
      match replaceFeatureTasksPhaseStatus input.casing markdown phaseNumber (js "COMPLETED") with
      | none => []
      | some updated => if updated = markdown then [] else [.featureTasks updated]

/-- The writes of a promotion, whose document is read again. -/
def promotionWrites (phase : PhaseDescriptor) (timestamp : JsString) : Option (List Write) := do
  let markdown ← disk.documents phase.documentPath
  let tasks ← input.readTasks phase markdown
  let audited := promotedDocument markdown timestamp phase.number
  return taskRunWrites disk phase.number tasks timestamp ++
    (if audited = markdown then [] else [.document phase.documentPath audited]) ++
    featureTasksWrites input disk phase.number

/-- `reconcilePhaseStateOnDisk`, at a reading of the clock; nothing where it throws. -/
def reconcilePhaseStateOnDisk (time : ℤ) : Option Outcome := do
  match ← readPhases input disk input.phases with
  | .inl outcome => some outcome
  | .inr facts =>
      match reconcilePhaseState input.casing facts with
      | .promote number taskIds reason =>
          match input.phases.find? fun candidate => candidate.number == number with
          | none => some ⟨.blocked number (phaseText number ++
              js " disappeared before reconciliation."), none, false, []⟩
          | some phase =>
              let writes ← promotionWrites input disk phase (toISOString time)
              some ⟨.promote number taskIds reason, some (toISOString time), true, writes⟩
      | decision => some ⟨decision, none, false, []⟩

end Hepha.Reconcile
