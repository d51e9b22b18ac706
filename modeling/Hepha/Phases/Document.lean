import Hepha.Js.Collections
import Hepha.Js.Date
import Hepha.Markdown.Sections
import Hepha.Phases.Ledger

/-!
# Edits of a phase document

The orchestrator edits the phase document that it reads its tasks from: it marks
the phase as in progress, it checks a task off, and it keeps a table with the
state of the tasks in a section of its own.
-/

namespace Hepha.Phases

open JsString Pattern Markdown

/-! ## The status of the phase -/

/-- `^(?:#{1,6}\s*)?(?:[-*]\s*)?(?:\*\*)?(?:Phase\s+\d+\s+)?Status(?:\*\*)?\s*:\s*` followed by
a quote and one more unit, with the flag `i`. -/
def phaseStatusLabel : Pattern :=
  let mark := optional (lit "#")
  concat [optional (concat [lit "#", mark, mark, mark, mark, mark, many isWhiteSpace]),
    optional (concat [unit (anyOf "-*"), many isWhiteSpace]), optional (lit "**"),
    optional (concat [litIgnoreCase "phase", atLeast 1 isWhiteSpace, atLeast 1 isDigit,
      atLeast 1 isWhiteSpace]),
    litIgnoreCase "status", optional (lit "**"), many isWhiteSpace, lit ":", many isWhiteSpace,
    optional (unit (· == 0x60)), unit fun u => u != 0x60 && u != 0x0D && u != 0x0A]

/-- `isStandalonePhaseStatusLine`. -/
def isStandalonePhaseStatusLine (line : JsString) : Bool :=
  line.trim.head?.any (· != 0x7C) && !(phaseStatusLabel line.trim).isEmpty

/-- `replacePhaseStatus`. -/
def replacePhaseStatus (markdown status : JsString) : JsString :=
  match (splitLines markdown).findIdx? isStandalonePhaseStatusLine with
  | none => js "**Status:** " ++ status ++ js "\n\n" ++ markdown
  | some index =>
      trimEnd (joinLines ((splitLines markdown).set index (js "**Status:** " ++ status))) ++ js "\n"

/-- `markImplementationPhaseInProgress`, on the phase document. -/
def markImplementationPhaseInProgress (markdown : JsString) : JsString :=
  replacePhaseStatus markdown (js "IN_PROGRESS")

/-! ## The checkbox of a task -/

/-- `line.replace(/^(\s*[-*]\s+\[)[ xX-](\]\s+)/, …)`. -/
def setMark (mark : CodeUnit) (line : JsString) : JsString :=
  match splitCheckbox line with
  | some box =>
      if anyOf " xX-" box.mark then box.opening ++ mark :: 0x5D :: box.white :: box.rest else line
  | none => line

/-- `setPhaseTaskCheckbox`. -/
def setPhaseTaskCheckbox (casing : Casing) (phaseNumber : Option ℕ) (task : PhaseTaskLedgerItem)
    (checked : Bool) (markdown : JsString) : JsString :=
  let lines := splitLines markdown
  let currentTask := (extractPhaseTaskLedger casing (joinLines lines) phaseNumber).find? fun item =>
    item.id == task.id
  let lineNumber := (currentTask.getD task).lineNumber
  if 1 ≤ lineNumber ∧ lineNumber ≤ lines.length then
    trimEnd (joinLines (lines.modify (lineNumber - 1) (setMark (if checked then 0x78 else 0x20)))) ++
      js "\n"
  else markdown

/-! ## The table of task states -/

/-- What the table takes from a `StoredImplementationTaskRun`. -/
structure StoredImplementationTaskRun where
  taskId : JsString
  status : ImplementationTaskRunStatus
  startedAt : Option JsString
  completedAt : Option JsString

def ImplementationTaskRunStatus.text : ImplementationTaskRunStatus → JsString
  | notStarted => js "NOT_STARTED"
  | inProgress => js "IN_PROGRESS"
  | completed => js "COMPLETED"
  | skipped => js "SKIPPED"

/-- `escapeTableCell`. -/
def escapeTableCell (value : JsString) : JsString :=
  (replaceRuns isWhiteSpace (js " ") false
    ((cleanInlineMarkdown value).flatMap fun u => if u = 0x7C then js "\\|" else [u])).trim

/-- `Date.parse`: the time value of a date; nothing where it is not valid. -/
abbrev ParseDate := JsString → Option ℤ

section Table

variable (parseDate : ParseDate)

/-- `formatTimestamp`; nothing where it throws. -/
def formatTimestamp (value : Option JsString) : Option JsString :=
  match truthy value with
  | some text => (parseDate text).map Date.toISOString
  | none => some (js "-")

/-- `formatDuration`. -/
def formatDuration (startedAt completedAt : Option JsString) : JsString :=
  match (truthy startedAt).bind parseDate, (truthy completedAt).bind parseDate with
  | some started, some completed =>
      if completed < started then js "-"
      else
        let totalSeconds := max 1 (((completed - started).toNat + 500) / 1000)
        let seconds := decimalText (totalSeconds % 60) ++ js "s"
        if 0 < totalSeconds / 60 then decimalText (totalSeconds / 60) ++ js "m " ++ seconds
        else seconds
  | _, _ => js "-"

/-- The row of a task. -/
def renderRow (taskRuns : List StoredImplementationTaskRun) (item : PhaseTaskLedgerItem) :
    Option JsString := do
  let taskRun := JsMap.get (taskRuns.map fun run => (run.taskId, run)) item.id
  let startedAt := taskRun.bind StoredImplementationTaskRun.startedAt
  let completedAt := taskRun.bind StoredImplementationTaskRun.completedAt
  let status := (taskRun.map StoredImplementationTaskRun.status).getD item.status
  let started ← formatTimestamp parseDate startedAt
  let completed ← formatTimestamp parseDate completedAt
  return js "| " ++ escapeTableCell item.id ++ js " | " ++ escapeTableCell item.text ++ js " | " ++
    status.text ++ js " | " ++ started ++ js " | " ++ completed ++ js " | " ++
    formatDuration parseDate startedAt completedAt ++ js " |"

/-- The lines above the rows. -/
def tableHead : List JsString :=
  [js "## Hepha Task State", [],
    js "| Task ID | Task | State | Started | Completed | Duration |",
    js "| --- | --- | --- | --- | --- | --- |"]

/-- `renderPhaseTaskStateTable`. -/
def renderPhaseTaskStateTable (items : List PhaseTaskLedgerItem)
    (taskRuns : List StoredImplementationTaskRun) : Option JsString :=
  (items.mapM (renderRow parseDate taskRuns)).map fun rows =>
    joinLines (tableHead ++ rows) ++ js "\n"

/-- `upsertMarkdownSection`, for the section of the table. -/
def upsertTaskStateSection (markdown table : JsString) : JsString :=
  match findSection markdown "hepha task state" with
  | none => trimEnd markdown ++ js "\n\n" ++ trimEnd table
  | some parts =>
      trimEnd (trimEnd parts.before ++ js "\n\n" ++ trimEnd table ++ js "\n\n" ++
        trimStart parts.after)

/-- `syncPhaseTaskStateSection`: the document that is written; nothing where the
table cannot be written. -/
def syncPhaseTaskStateSection (items : List PhaseTaskLedgerItem)
    (taskRuns : List StoredImplementationTaskRun) (markdown : JsString) : Option JsString :=
  (renderPhaseTaskStateTable parseDate items taskRuns).map (upsertTaskStateSection markdown)

end Table

end Hepha.Phases
