import Hepha.Phases.Contract
import Hepha.Phases.Ledger
import Hepha.Js.Collections

/-!
# The contract and the ledger of a phase

The tasks of a contract phase are projected to the checkboxes of its ledger: each
has a marker with the id of its task.  A validator compares the ledger with the
contract, and the tasks to execute are picked from what the ledger parser reads.
The two read the document each in its own way.
-/

namespace Hepha.Phases

open JsString Pattern

/-! ## Markers -/

/-- `[a-z0-9]` with the flag `i`. -/
def isIdStart (u : CodeUnit) : Bool := isAlphanumeric u

/-- `[a-z0-9-]` with the flag `i`. -/
def isIdUnit (u : CodeUnit) : Bool := isAlphanumeric u || u == 0x2D

/-- `/^\[contract:([a-z0-9][a-z0-9-]*)\]/i`: the id and what follows the marker. -/
def readMarker (text : JsString) : Option (JsString × JsString) :=
  (litIgnoreCase "[contract:" text).head?.bind fun tail =>
    if (tail.head?.any isIdStart) && (tail.dropWhile isIdUnit).head? == some 0x5D then
      some (tail.takeWhile isIdUnit, (tail.dropWhile isIdUnit).tail)
    else none

/-- `[a-z_]` with the flag `i`. -/
def isExecutorUnit (u : CodeUnit) : Bool := isUpper u || isLower u || u == 0x5F

/-- `(?:\s+\[executor:([a-z_]+)\])?` after a marker. -/
def readExecutor (rest : JsString) : Option JsString :=
  if rest.head?.any isWhiteSpace then
    (litIgnoreCase "[executor:" (rest.dropWhile isWhiteSpace)).head?.bind fun tail =>
      if tail.head?.any isExecutorUnit && (tail.dropWhile isExecutorUnit).head? == some 0x5D then
        some (tail.takeWhile isExecutorUnit)
      else none
  else none

/-- `readPhaseContractTaskId`: the first marker of a text. -/
def readPhaseContractTaskId (text : JsString) : Option JsString :=
  text.tails.findSome? fun tail => (readMarker tail).map Prod.fst

/-! ## The validator -/

/-- `/^##\s+Phase Task Ledger\s*$/i.test(line)`. -/
def isParityHeading (line : JsString) : Bool :=
  testWhole (concat [lit "##", atLeast 1 isWhiteSpace, litIgnoreCase "phase task ledger",
    many isWhiteSpace]) line

/-- `/^##\s+/.test(line)`. -/
def endsParitySection : JsString → Bool
  | first :: second :: white :: _ => first == 0x23 && second == 0x23 && isWhiteSpace white
  | _ => false

/-- What `\s+(.+)$` captures after its first white space. -/
def captureRest (rest : JsString) : Option JsString :=
  if (rest.dropWhile isWhiteSpace).isEmpty then
    (rest.getLast?.filter fun u => !isLineTerminator u).map ([·])
  else if (rest.dropWhile isWhiteSpace).any isLineTerminator then none
  else some (rest.dropWhile isWhiteSpace)

/-- The text of a checkbox: `/^\s*[-*]\s+\[[ xX]\]\s+(.+)$/`. -/
def readParityCheckbox (line : JsString) : Option JsString :=
  (splitCheckbox line).bind fun box =>
    if anyOf " xX" box.mark then captureRest box.rest else none

/-- An entry of the ledger, as the validator reads it. -/
structure ParityEntry where
  line : ℕ
  taskId : Option JsString
  executor : Option JsString
deriving DecidableEq

/-- The entry of a checkbox with its text. -/
def parityEntry (line : ℕ) (text : JsString) : ParityEntry :=
  { line
    taskId := (readMarker text).map Prod.fst
    executor := (readMarker text).bind fun marker => readExecutor marker.2 }

/-- The loop over the lines below the heading. -/
def parityEntriesFrom : ℕ → List JsString → List ParityEntry
  | _, [] => []
  | index, line :: rest =>
      if endsParitySection line then []
      else ((readParityCheckbox line).map (parityEntry (index + 1))).toList ++
        parityEntriesFrom (index + 1) rest

/-- The entries below the heading of the ledger in the given line. -/
def parityEntries (lines : List JsString) (headingIndex : ℕ) : List ParityEntry :=
  parityEntriesFrom (headingIndex + 1) (lines.drop (headingIndex + 1))

/-- `mapTaskExecutor`. -/
def mapTaskExecutor : TaskKind → String
  | .codeReview => "code_review"
  | .verification | .developmentValidation | .finalValidation => "verification"
  | .gitCommit => "git_commit"
  | .gitPush => "git_push"
  | .agent | .work => "agent"

/-- `PhaseTaskLedgerParityDiagnostic`. -/
structure ParityDiagnostic where
  line : ℕ
  message : JsString
deriving DecidableEq

/-- `ids.join(", ")`. -/
def joinIds (ids : List JsString) : JsString := (js ", ").intercalate ids

/-- A task whose entry does not project its executor. -/
def executorDiagnostic (ledger : List ParityEntry) (task : PhaseExecutionTaskContract) :
    Option ParityDiagnostic :=
  (ledger.find? fun entry => entry.taskId == some task.id).bind fun entry =>
    if entry.executor == some (js (mapTaskExecutor task.kind)) then none
    else some ⟨entry.line, js "Contract task '" ++ task.id ++ js "' must project executor '[executor:" ++
      js (mapTaskExecutor task.kind) ++ js "]' immediately after its contract marker."⟩

/-- The diagnostics of the entries below a heading. -/
def ledgerDiagnostics (headingIndex : ℕ) (ledger : List ParityEntry)
    (phase : PhaseExecutionContractPhase) : List ParityDiagnostic :=
  let expectedIds := phase.tasks.map PhaseExecutionTaskContract.id
  let actualIds := ledger.map fun entry => entry.taskId.getD (js "<missing-contract-id>")
  ((ledger.filter fun entry => entry.taskId.isNone).map fun entry => ⟨entry.line,
    js ("Every Phase Task Ledger checkbox must begin with one [contract:<task-id>] marker; " ++
      "detailed work belongs outside the ledger as plain text.")⟩) ++
  (if actualIds = expectedIds then [] else [⟨headingIndex + 1,
    js "Phase Task Ledger must project exactly the declared contract task IDs in order. Expected [" ++
      joinIds expectedIds ++ js "]; actual [" ++ joinIds actualIds ++ js "]."⟩]) ++
  (if phase.tasks.any fun task => orderedKinds.contains task.kind then
    phase.tasks.filterMap (executorDiagnostic ledger) else [])

/-- `validatePhaseTaskLedgerParity`. -/
def validatePhaseTaskLedgerParity (markdown : JsString) (phase : PhaseExecutionContractPhase) :
    List ParityDiagnostic :=
  match (splitLines markdown).findIdx? isParityHeading with
  | none => [⟨1, js "Phase Task Ledger section is required for an ordered contract phase."⟩]
  | some headingIndex =>
      ledgerDiagnostics headingIndex (parityEntries (splitLines markdown) headingIndex) phase

/-! ## The tasks to execute -/

/-- `item.section.trim().toLowerCase() === "phase task ledger"`. -/
def inLedgerSection (casing : Casing) (heading : JsString) : Bool :=
  casing.toLowerCase heading.trim == js "phase task ledger"

/-- The items by the task ids that their texts carry. -/
def itemByTaskId (casing : Casing) (items : List PhaseTaskLedgerItem) :
    List (JsString × PhaseTaskLedgerItem) :=
  (items.filter fun item => inLedgerSection casing item.heading).filterMap fun item =>
    (readPhaseContractTaskId item.text).map (·, item)

/-- `selectDeclaredOrderedLedgerItems`, with `readPhaseContractTaskId`. -/
def selectDeclaredOrderedLedgerItems (casing : Casing) (items : List PhaseTaskLedgerItem)
    (declaredTaskIds : List JsString) : List PhaseTaskLedgerItem :=
  declaredTaskIds.flatMap fun taskId => (JsMap.get (itemByTaskId casing items) taskId).toList

end Hepha.Phases
