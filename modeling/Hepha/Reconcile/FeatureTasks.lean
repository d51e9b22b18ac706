import Hepha.Js.Decimal
import Hepha.Js.Lines

/-!
# The phase inventory of FeatureTasks

FeatureTasks holds one table with a row for each phase.  The table is found by
its header, of the contract schema if there is one and of the legacy schema
otherwise; it ends with the first line that is not a row.
-/

namespace Hepha.Reconcile

open JsString Pattern

def unitPipe : CodeUnit := 0x7C

/-- `line.split("|").slice(1, -1)`, each cell trimmed. -/
def tableCells (line : JsString) : List JsString :=
  (line.splitOn unitPipe).tail.dropLast.map trim

/-- `parseCells`. -/
def parseCells (line : JsString) : List JsString :=
  tableCells line.trim

/-- `line.trim().startsWith("|")`. -/
def isRowLine (line : JsString) : Bool :=
  line.trim.head? == some unitPipe

/-- Where the number of a phase stands in a row. -/
inductive PhaseColumn
  | document (column : ℕ)
  | phase (column : ℕ)
deriving DecidableEq, Repr

/-- `InventoryHeader`, less the schema, which the phase column tells. -/
structure InventoryHeader where
  headerLine : ℕ
  phaseColumn : PhaseColumn
  statusColumn : ℕ
deriving DecidableEq, Repr

/-- `InventoryRow`, less its line and the status column of its header. -/
structure InventoryRow where
  lineIndex : ℕ
  phaseNumber : ℕ
  status : JsString
deriving DecidableEq

/-- `/^Phases\/phase-(\d+)(?:-[^/]+)?\.md$/i` on a path with `/` between its parts. -/
def readPhaseDocumentNumber (document : JsString) : Option ℕ :=
  (concat [litIgnoreCase "phases/phase-"] document).head?.bind fun tail =>
    if (tail.takeWhile isDigit).isEmpty then none
    else if testWhole
        (concat [optional (concat [lit "-", atLeast 1 (· != 0x2F)]), litIgnoreCase ".md"])
        (tail.dropWhile isDigit) then some (decimal (tail.takeWhile isDigit))
    else none

/-- `readContractPhaseNumber`. -/
def readContractPhaseNumber (value : JsString) : Option ℕ :=
  let normalized := (trim (value.filter (· != 0x60))).map fun u => if u = 0x5C then 0x2F else u
  readPhaseDocumentNumber
    (if (js "./").isPrefixOf normalized then normalized.drop 2 else normalized)

/-- `readLegacyPhaseNumber`. -/
def readLegacyPhaseNumber (value : JsString) : Option ℕ :=
  let digits := value.trim.takeWhile isDigit
  let rest := trimStart (value.trim.dropWhile isDigit)
  if !digits.isEmpty && rest.head?.all [0x7C, 0x2014, 0x2D, 0x3A].contains then
    some (decimal digits)
  else none

/-- The number of the phase whose row has these cells. -/
def readRowNumber (column : PhaseColumn) (cells : List JsString) : Option ℕ :=
  match column with
  | .document column => readContractPhaseNumber ((cells[column]?).getD [])
  | .phase column => readLegacyPhaseNumber ((cells[column]?).getD [])

/-- `/^:?-{2,}:?$/`. -/
def isSeparatorCell (cell : JsString) : Bool :=
  testWhole (concat [optional (lit ":"), atLeast 2 (· == 0x2D), optional (lit ":")]) cell

variable (casing : Casing)

/-- The header that a line is, if it is one. -/
def readHeader (headerLine : ℕ) (line : JsString) : Option InventoryHeader :=
  if !isRowLine line then none
  else
    let headers := (parseCells line).map casing.toLowerCase
    let column (name : String) := headers.idxOf? (js name)
    match column "status", column "document", column "contract id", column "role",
        column "phase" with
    | some status, some document, some _, some _, _ =>
        some ⟨headerLine, .document document, status⟩
    | some status, _, _, _, some phase => some ⟨headerLine, .phase phase, status⟩
    | _, _, _, _, _ => none

def PhaseColumn.isContract : PhaseColumn → Bool
  | document _ => true
  | phase _ => false

/-- `findInventoryHeader`. -/
def findInventoryHeader (lines : List JsString) : Option InventoryHeader :=
  let candidates := lines.zipIdx.filterMap fun (line, headerLine) =>
    readHeader casing headerLine line
  (candidates.find? fun candidate => candidate.phaseColumn.isContract).or candidates.head?

/-- The row that a line below the header is, if it is one. -/
def readRow (header : InventoryHeader) (lineIndex : ℕ) (line : JsString) : Option InventoryRow :=
  let cells := parseCells line
  if cells.all isSeparatorCell then none
  else
    let status := ((cells[header.statusColumn]?).getD []).trim
    match readRowNumber header.phaseColumn cells with
    | some phaseNumber => if status.isEmpty then none else some ⟨lineIndex, phaseNumber, status⟩
    | none => none

/-- The rows among numbered lines, up to the first line that is not a row. -/
def rowsFrom (header : InventoryHeader) (lines : List (JsString × ℕ)) : List InventoryRow :=
  (lines.takeWhile fun line => isRowLine line.1).filterMap fun line => readRow header line.2 line.1

/-- The rows of the table below a header. -/
def readRows (header : InventoryHeader) (lines : List JsString) : List InventoryRow :=
  rowsFrom header (lines.zipIdx.drop (header.headerLine + 1))

/-- `readInventoryRows`. -/
def readInventoryRows (markdown : JsString) : List InventoryRow :=
  match findInventoryHeader casing (splitLines markdown) with
  | some header => readRows header (splitLines markdown)
  | none => []

/-- `readFeatureTasksPhaseStatus`. -/
def readFeatureTasksPhaseStatus (markdown : JsString) (phaseNumber : ℕ) : Option JsString :=
  ((readInventoryRows casing markdown).find? fun row => row.phaseNumber == phaseNumber).map
    InventoryRow.status

/-- The line with another status in its cell.  `split` keeps the border in front
of the first cell. -/
def setStatusCell (statusColumn : ℕ) (status line : JsString) : JsString :=
  [unitPipe].intercalate
    ((line.splitOn unitPipe).set (statusColumn + 1) (js " " ++ status ++ js " "))

/-- `replaceFeatureTasksPhaseStatus`: nothing where there is not one row of the phase. -/
def replaceFeatureTasksPhaseStatus (markdown : JsString) (phaseNumber : ℕ) (status : JsString) :
    Option JsString :=
  let lines := splitLines markdown
  match findInventoryHeader casing lines,
      (readInventoryRows casing markdown).filter fun row => row.phaseNumber == phaseNumber with
  | some header, [row] =>
      some ((joinLines (lines.modify row.lineIndex
        (setStatusCell header.statusColumn status))).trimEnd ++ js "\n")
  | _, _ => none

end Hepha.Reconcile
