import Hepha.Js.Json
import Hepha.Reconcile.FeatureTasks

/-!
# The execution contract of the phases

The contract declares the phases of a feature and the tasks of each phase.  It is
read from a JSON text with a diagnostic for everything that is wrong with it; a
contract is returned only where there is none.
-/

namespace Hepha.Phases

open JsString Pattern

/-! ## The contract -/

inductive ContractVersion
  | v3
  | v2
  | v1
deriving DecidableEq, Repr

inductive PhaseExecutionRole
  | entryGate
  | planning
  | implementation
  | evidenceOnly
  | integration
  | finalCheckpoint
deriving DecidableEq, Repr

inductive ValidationProfile
  | none
  | focused
  | full
deriving DecidableEq, Repr

inductive CodeReviewPolicy
  | never
  | whenProductionCodeChanges
deriving DecidableEq, Repr

inductive TaskKind
  | agent
  | codeReview
  | verification
  | gitCommit
  | gitPush
  | work
  | developmentValidation
  | finalValidation
deriving DecidableEq, Repr

inductive TaskCondition
  | always
  | whenProductionCodeChanges
deriving DecidableEq, Repr

def readVersion : JsValue → Option ContractVersion :=
  JsValue.isOneOf [("hepha-phase-execution/v3", .v3), ("hepha-phase-execution/v2", .v2),
    ("hepha-phase-execution/v1", .v1)]

def readRole : JsValue → Option PhaseExecutionRole :=
  JsValue.isOneOf [("entry_gate", .entryGate), ("planning", .planning),
    ("implementation", .implementation), ("evidence_only", .evidenceOnly),
    ("integration", .integration), ("final_checkpoint", .finalCheckpoint)]

def readProfile : JsValue → Option ValidationProfile :=
  JsValue.isOneOf [("none", .none), ("focused", .focused), ("full", .full)]

def readCodeReviewPolicy : JsValue → Option CodeReviewPolicy :=
  JsValue.isOneOf [("never", .never),
    ("when_production_code_changes", .whenProductionCodeChanges)]

def readTaskKind : JsValue → Option TaskKind :=
  JsValue.isOneOf [("agent", .agent), ("code_review", .codeReview),
    ("verification", .verification), ("git_commit", .gitCommit), ("git_push", .gitPush),
    ("work", .work), ("development_validation", .developmentValidation),
    ("final_validation", .finalValidation)]

def readCondition : JsValue → Option TaskCondition :=
  JsValue.isOneOf [("always", .always),
    ("when_production_code_changes", .whenProductionCodeChanges)]

/-- `PhaseExecutionTaskContract`. -/
structure PhaseExecutionTaskContract where
  id : JsString
  kind : TaskKind
  required : Bool
  profile : Option ValidationProfile
  condition : Option TaskCondition
deriving DecidableEq

/-- `PhaseExecutionContractPhase`. -/
structure PhaseExecutionContractPhase where
  id : JsString
  order : JsNumber
  document : JsString
  role : PhaseExecutionRole
  tasks : List PhaseExecutionTaskContract
  developmentValidation : ValidationProfile
  codeReview : CodeReviewPolicy
  finalValidation : ValidationProfile
  gitCheckpoint : Bool
deriving DecidableEq

structure PhaseExecutionContract where
  schemaVersion : ContractVersion
  phases : List PhaseExecutionContractPhase
deriving DecidableEq

/-- `PhaseExecutionContractDiagnostic`. -/
structure ContractDiagnostic where
  path : JsString
  message : JsString
deriving DecidableEq

structure ContractLoadResult where
  contract : Option PhaseExecutionContract
  diagnostics : List ContractDiagnostic

/-! ## Reading a task -/

/-- `readNonEmptyString`. -/
def readNonEmptyString (value : JsValue) : Option JsString :=
  (value.isString.map trim).filter fun text => !text.isEmpty

def orderedKinds : List TaskKind := [.agent, .codeReview, .verification, .gitCommit, .gitPush]

/-- A kind that the version of the contract does not allow, with what is said of it. -/
def refusedKind (version : ContractVersion) (kind : TaskKind) : Option String :=
  match version with
  | .v3 =>
      if [TaskKind.agent, .codeReview, .verification].contains kind then none
      else some ("V3 task kind must be agent, code_review, or verification; git persistence is " ++
        "the phase gitCheckpoint")
  | .v2 =>
      if orderedKinds.contains kind then none
      else some ("Ordered contract task kind must be agent, code_review, verification, git_commit, " ++
        "or git_push")
  | .v1 => none

/-- One turn of the loop over the tasks: the task or what is wrong with it, and
the ids of the tasks so far. -/
def readTask (version : ContractVersion) (taskIds : List JsString) (rawTask : JsValue) :
    Except String PhaseExecutionTaskContract × List JsString :=
  match (rawTask.get (js "id")).isString, readTaskKind (rawTask.get (js "kind")),
      (rawTask.get (js "required")).isBoolean with
  | some taskId, some kind, some required =>
      if taskId.trim.isEmpty then (.error "requires id, kind, and required fields", taskIds)
      else if taskIds.contains taskId then (.error "task id must be unique within phase", taskIds)
      else
        let profile := readProfile (rawTask.get (js "profile"))
        let condition := readCondition (rawTask.get (js "condition"))
        match refusedKind version kind with
        | some message => (.error message, taskId :: taskIds)
        | none =>
            if kind == .verification && profile.isNone then
              (.error "verification tasks require profile none, focused, or full", taskId :: taskIds)
            else if kind == .codeReview && condition.isNone then
              (.error "code_review tasks require condition always or when_production_code_changes",
                taskId :: taskIds)
            else (.ok ⟨taskId, kind, required, profile, condition⟩, taskId :: taskIds)
  | _, _, _ => (.error "requires id, kind, and required fields", taskIds)

/-- The loop over the tasks of a phase. -/
def readTasks (version : ContractVersion) (path : JsString) :
    List JsString → ℕ → List JsValue → List PhaseExecutionTaskContract × List ContractDiagnostic
  | _, _, [] => ([], [])
  | taskIds, index, rawTask :: rest =>
      let read := readTask version taskIds rawTask
      let others := readTasks version path read.2 (index + 1) rest
      match read.1 with
      | .ok task => (task :: others.1, others.2)
      | .error message =>
          (others.1, ⟨path ++ js ".tasks[" ++ decimalText index ++ js "]", js message⟩ :: others.2)

/-! ## Reading a phase -/

/-- What the loop over the phases has seen. -/
structure SeenPhases where
  ids : List JsString
  orders : List ℤ
  documents : List JsString

/-- `typeof value === "number"`. -/
def readNumber (value : JsValue) : Option JsNumber :=
  match value with
  | .num n => some n
  | _ => none

/-- `readPhaseDocumentNumber`. -/
def readPhaseDocumentNumber (document : JsString) : Option ℕ :=
  Reconcile.readPhaseDocumentNumber (document.map fun u => if u = 0x5C then 0x2F else u)

variable (platform : Platform) (toText : JsValue → JsString)

/-- The diagnostics of the document of a phase. -/
def documentMessage (seen : SeenPhases) (document : Option JsString) (order : JsValue) :
    Option JsString :=
  match document, document.bind readPhaseDocumentNumber with
  | some text, some number =>
      if seen.documents.contains text then
        some (js "document must be a unique feature-relative path beginning with Phases/phase-<number>")
      else if (JsValue.num (.int number)).identical order then none
      else some (js "document phase prefix " ++ decimalText number ++ js " must match order " ++
        toText order)
  | _, _ => some
      (js "document must be a unique feature-relative path beginning with Phases/phase-<number>")

/-- A message where a condition fails. -/
def requireThat (condition : Bool) (message : String) : List JsString :=
  if condition then [] else [js message]

/-- The diagnostics of the members of a phase, in their order. -/
def phaseMessages (version : ContractVersion) (seen : SeenPhases) (phase : JsValue) :
    List JsString :=
  let member (name : String) := phase.get (js name)
  let id := readNonEmptyString (member "id")
  requireThat (id.any fun id => !seen.ids.contains id) "id must be a unique non-empty string" ++
  requireThat ((member "order").isInteger.any fun n => 0 ≤ n && !seen.orders.contains n)
    "order must be a unique non-negative integer" ++
  (documentMessage toText seen (readNonEmptyString (member "document")) (member "order")).toList ++
  requireThat (readRole (member "role")).isSome "role is invalid" ++
  requireThat (readProfile (member "developmentValidation")).isSome "developmentValidation is invalid" ++
  requireThat (readProfile (member "finalValidation")).isSome "finalValidation is invalid" ++
  requireThat (readCodeReviewPolicy (member "codeReview")).isSome "codeReview is invalid" ++
  requireThat ((member "failurePolicy").identical (.text "repair_and_rerun"))
    "failurePolicy must be repair_and_rerun" ++
  requireThat (version != .v3 || (member "gitCheckpoint").identical (.text "commit_and_push"))
    "gitCheckpoint must be commit_and_push" ++
  requireThat ((member "tasks").isArray.any fun tasks => !tasks.isEmpty)
    "tasks must be a non-empty array"

/-- The phase, where its members are there. -/
def readPhase (phase : JsValue) (tasks : List PhaseExecutionTaskContract) :
    Option PhaseExecutionContractPhase := do
  let member (name : String) := phase.get (js name)
  let id ← readNonEmptyString (member "id")
  let order ← readNumber (member "order")
  let document ← readNonEmptyString (member "document")
  let role ← readRole (member "role")
  let developmentValidation ← readProfile (member "developmentValidation")
  let finalValidation ← readProfile (member "finalValidation")
  let codeReview ← readCodeReviewPolicy (member "codeReview")
  guard ((member "failurePolicy").identical (.text "repair_and_rerun") && !tasks.isEmpty)
  return { id, order, document, role, tasks, developmentValidation, codeReview, finalValidation
           gitCheckpoint := (member "gitCheckpoint").identical (.text "commit_and_push") }

/-- What a phase adds to what the loop has seen. -/
def SeenPhases.add (seen : SeenPhases) (phase : JsValue) : SeenPhases where
  ids := (readNonEmptyString (phase.get (js "id"))).toList ++ seen.ids
  orders := (phase.get (js "order")).isInteger.toList ++ seen.orders
  documents := (readNonEmptyString (phase.get (js "document"))).toList ++ seen.documents

/-- The loop over the phases. -/
def readPhases (version : ContractVersion) (sourcePath : JsString) :
    SeenPhases → ℕ → List JsValue → List PhaseExecutionContractPhase × List ContractDiagnostic
  | _, _, [] => ([], [])
  | seen, index, phase :: rest =>
      let path := sourcePath ++ js ".phases[" ++ decimalText index ++ js "]"
      if phase.isRecord then
        let tasks := readTasks version path [] 0 ((phase.get (js "tasks")).isArray.getD [])
        let others := readPhases version sourcePath (seen.add phase) (index + 1) rest
        ((readPhase phase tasks.1).toList ++ others.1,
          (phaseMessages toText version seen phase).map (ContractDiagnostic.mk path) ++ tasks.2 ++
            others.2)
      else
        let others := readPhases version sourcePath seen (index + 1) rest
        (others.1, ⟨path, js "must be an object"⟩ :: others.2)

/-! ## Reading the contract -/

/-- `phases.sort((left, right) => left.order - right.order)`. -/
def sortPhases (phases : List PhaseExecutionContractPhase) : List PhaseExecutionContractPhase :=
  phases.insertionSort fun left right => left.order.le right.order = true

/-- The diagnostics of the sorted phases. -/
def orderedMessages (ordered : List PhaseExecutionContractPhase) : List JsString :=
  requireThat (ordered.zipIdx.all fun (phase, index) => phase.order == .int index)
    "phase orders must be contiguous starting at 0" ++
  requireThat (ordered.all fun phase =>
      (phase.tasks.filter fun task => task.kind == .finalValidation).length ≤ 1)
    "a phase may declare at most one final_validation task"

/-- `parsePhaseExecutionContract`. -/
def parsePhaseExecutionContract (raw : JsString)
    (sourcePath : JsString := js "PhaseExecutionContract.json") : ContractLoadResult :=
  match platform.parseJson raw with
  | none => ⟨none, [⟨sourcePath, js "must contain valid JSON"⟩]⟩
  | some value =>
      match readVersion (value.get (js "schemaVersion")), (value.get (js "phases")).isArray with
      | some schemaVersion, some items =>
          let read := readPhases toText schemaVersion sourcePath ⟨[], [], []⟩ 0 items
          let ordered := sortPhases read.1
          let diagnostics := read.2 ++
            (orderedMessages ordered).map (ContractDiagnostic.mk sourcePath)
          if diagnostics.isEmpty then ⟨some ⟨schemaVersion, ordered⟩, []⟩ else ⟨none, diagnostics⟩
      | _, _ => ⟨none, [⟨sourcePath, js ("must contain schemaVersion hepha-phase-execution/v3 " ++
          "(or previous hepha-phase-execution/v2/hepha-phase-execution/v1) and phases[]")⟩]⟩

/-! ## The tasks of an accepted contract -/

section Accepted

variable {version : ContractVersion} {path : JsString}

/-- A task is refused before its id is seen, or its id is new and the task has it. -/
theorem readTask_cases (taskIds : List JsString) (rawTask : JsValue) :
    (∃ message, readTask version taskIds rawTask = (.error message, taskIds)) ∨
      ∃ taskId ∉ taskIds, (readTask version taskIds rawTask).2 = taskId :: taskIds ∧
        ∀ task, (readTask version taskIds rawTask).1 = .ok task → task.id = taskId := by
  unfold readTask
  split
  · rename_i taskId kind required _ _ _
    split_ifs with hempty hseen
    · exact .inl ⟨_, rfl⟩
    · exact .inl ⟨_, rfl⟩
    · refine .inr ⟨taskId, by simpa using hseen, ?_⟩
      dsimp only
      split
      · exact ⟨rfl, fun task htask => by cases htask⟩
      · split_ifs
        · exact ⟨rfl, fun task htask => by cases htask⟩
        · exact ⟨rfl, fun task htask => by cases htask⟩
        · exact ⟨rfl, fun task htask => by cases htask; rfl⟩
  · exact .inl ⟨_, rfl⟩

/-- The ids of the tasks of a phase are unique. -/
theorem nodup_readTasks (taskIds : List JsString) (index : ℕ) (rawTasks : List JsValue) :
    ((readTasks version path taskIds index rawTasks).1.map PhaseExecutionTaskContract.id).Nodup ∧
      ∀ task ∈ (readTasks version path taskIds index rawTasks).1, task.id ∉ taskIds := by
  induction rawTasks generalizing taskIds index with
  | nil => simp [readTasks]
  | cons rawTask rest ih =>
      obtain ⟨hnodup, hfresh⟩ := ih (readTask version taskIds rawTask).2 (index + 1)
      rw [readTasks]
      rcases @readTask_cases version taskIds rawTask with
        ⟨message, hread⟩ | ⟨taskId, hnew, hids, htask⟩
      · rw [hread] at hnodup hfresh ⊢
        exact ⟨hnodup, hfresh⟩
      · rw [hids] at hnodup hfresh
        rw [hids]
        have hrest (task : PhaseExecutionTaskContract)
            (hmem : task ∈ (readTasks version path (taskId :: taskIds) (index + 1) rest).1) :
            task.id ≠ taskId ∧ task.id ∉ taskIds := by
          simpa using hfresh task hmem
        cases hread : (readTask version taskIds rawTask).1 with
        | error message => exact ⟨hnodup, fun task hmem => (hrest task hmem).2⟩
        | ok task =>
            have hid := htask task hread
            refine ⟨List.nodup_cons.mpr ⟨fun hmem => ?_, hnodup⟩, fun other hother => ?_⟩
            · obtain ⟨other, hother, heq⟩ := List.mem_map.mp hmem
              exact (hrest other hother).1 (heq.trans hid)
            · rcases List.mem_cons.mp hother with rfl | hother
              · exact hid ▸ hnew
              · exact (hrest other hother).2

variable {platform : Platform} {toText : JsValue → JsString}

theorem tasks_of_readPhase {value : JsValue} {tasks : List PhaseExecutionTaskContract}
    {phase : PhaseExecutionContractPhase} (h : readPhase value tasks = some phase) :
    phase.tasks = tasks := by
  simp only [readPhase, Option.bind_eq_bind, Option.bind_eq_some_iff, Option.pure_def,
    Option.some.injEq] at h
  obtain ⟨_, -, _, -, _, -, _, -, _, -, _, -, _, -, _, -, rfl⟩ := h
  rfl

theorem nodup_of_mem_readPhases {sourcePath : JsString} {seen : SeenPhases} {index : ℕ}
    {items : List JsValue} {phase : PhaseExecutionContractPhase}
    (h : phase ∈ (readPhases toText version sourcePath seen index items).1) :
    (phase.tasks.map PhaseExecutionTaskContract.id).Nodup := by
  induction items generalizing seen index with
  | nil => cases h
  | cons item rest ih =>
      rw [readPhases] at h
      dsimp only at h
      split at h
      · rcases List.mem_append.mp h with h | h
        · rw [tasks_of_readPhase (Option.mem_toList.mp h)]
          exact (nodup_readTasks _ _ _).1
        · exact ih h
      · exact ih h

/-- No two tasks of a phase of an accepted contract have the same id. -/
theorem nodup_of_accepted {raw sourcePath : JsString} {contract : PhaseExecutionContract}
    (h : (parsePhaseExecutionContract platform toText raw sourcePath).contract = some contract)
    {phase : PhaseExecutionContractPhase} (hphase : phase ∈ contract.phases) :
    (phase.tasks.map PhaseExecutionTaskContract.id).Nodup := by
  unfold parsePhaseExecutionContract at h
  split at h
  · cases h
  · split at h
    · dsimp only at h
      split at h
      · cases h
        exact nodup_of_mem_readPhases ((List.perm_insertionSort _ _).mem_iff.mp hphase)
      · cases h
    · cases h

end Accepted

end Hepha.Phases
