import Hepha.Js.Decimal
import Hepha.Js.Lines

/-!
# The delivery section of a feature document

How a feature is delivered stands in a table of its document, under the
heading `## Hepha Delivery`.  `parseDeliverySection` reads the table,
`updateDeliverySection` writes it.
-/

namespace Hepha.Delivery

open JsString

inductive FeatDeliveryMode where
  | directMerge
  | pullRequest
  deriving DecidableEq, Repr

inductive FeatIssueRole where
  | featureIssue
  | tracking
  | epic
  deriving DecidableEq, Repr

inductive FeatIssueUpdateMode where
  | prBody
  | checklist
  | comment
  deriving DecidableEq, Repr

inductive FeatDeliveryStatus where
  | notApplicable
  | blocked
  | ready
  | preparing
  | open
  | error
  deriving DecidableEq, Repr

def FeatDeliveryMode.word : FeatDeliveryMode → String
  | .directMerge => "direct_merge"
  | .pullRequest => "pull_request"

def FeatIssueRole.word : FeatIssueRole → String
  | .featureIssue => "feature_issue"
  | .tracking => "tracking"
  | .epic => "epic"

def FeatIssueUpdateMode.word : FeatIssueUpdateMode → String
  | .prBody => "pr_body"
  | .checklist => "checklist"
  | .comment => "comment"

def FeatDeliveryStatus.word : FeatDeliveryStatus → String
  | .notApplicable => "not_applicable"
  | .blocked => "blocked"
  | .ready => "ready"
  | .preparing => "preparing"
  | .open => "open"
  | .error => "error"

structure ParsedDeliveryConfig where
  deliveryMode : FeatDeliveryMode
  targetBranch : JsString
  githubIssue : Option ℕ
  issueRole : FeatIssueRole
  issueUpdateMode : FeatIssueUpdateMode
  pullRequest : Option ℕ
  deliveryStatus : FeatDeliveryStatus
  deriving DecidableEq

/-- `DELIVERY_SECTION_HEADER`. -/
def deliverySectionHeader : JsString :=
  js "## Hepha Delivery"

/-! ## The extent of the section -/

/-- `text.startsWith(word)`. -/
def startsWith (text : JsString) (word : String) : Bool :=
  (js word).isPrefixOf text

def isDeliveryHeading (line : JsString) : Bool :=
  line.trim == deliverySectionHeader

/-- The index of the heading, if there is one. -/
def findSectionStart (lines : List JsString) : Except JsString (Option ℕ) :=
  if (lines.filter isDeliveryHeading).length > 1 then
    .error (js "Duplicate \"" ++ deliverySectionHeader ++
      js "\" section found. Only one delivery section is allowed.")
  else .ok (lines.findIdx? isDeliveryHeading)

/-- A heading of the second level. -/
def isNextHeading (line : JsString) : Bool :=
  startsWith line.trim "## " && !startsWith line.trim "### "

def isTableRow (line : JsString) : Bool :=
  startsWith line.trim "|"

/-- The loop of `findSectionEnd` over the lines below the heading: `position` of them are
done, and the last row of a table among these is at `lastTableRow`. -/
def bodyLength : ℕ → Option ℕ → List JsString → ℕ
  | position, none, [] => position
  | _, some row, [] => row + 1
  | position, lastTableRow, line :: rest =>
      if isNextHeading line then position
      else bodyLength (position + 1) (if isTableRow line then some position else lastTableRow) rest

def findSectionEnd (lines : List JsString) (startIndex : ℕ) : ℕ :=
  startIndex + 1 + bodyLength 0 none (lines.drop (startIndex + 1))

def extractSectionLines (lines : List JsString) (startIndex : ℕ) : List JsString :=
  (lines.take (findSectionEnd lines startIndex)).drop startIndex

/-! ## Reading -/

structure ParsedTableRow where
  deliveryMode : JsString
  targetBranch : JsString
  githubIssue : JsString
  issueRole : JsString
  issueUpdateMode : JsString
  pullRequest : JsString
  deliveryStatus : JsString

/-- `value || fallback`. -/
def orWord (value : JsString) (fallback : String) : JsString :=
  if value.isEmpty then js fallback else value

section Parse

variable (casing : Casing)

/-- One line of the loop over the lines of the section. -/
def visitRow (result : ParsedTableRow) (line : JsString) : ParsedTableRow :=
  let trimmed := line.trim
  if !startsWith trimmed "|" || !(js "|").isSuffixOf trimmed then result
  else if trimmed.includes "---" then result
  else if (casing.toLowerCase trimmed).includes "field" &&
      (casing.toLowerCase trimmed).includes "value" then result
  else
    match ((trimmed.splitOn 0x7C).map trim).filter fun part => !part.isEmpty with
    | field :: value :: _ =>
        let field := (casing.toLowerCase field).trim
        let value := value.trim
        if field = js "delivery mode" then { result with deliveryMode := value }
        else if field = js "target branch" then
          { result with targetBranch := orWord value "master" }
        else if field = js "github issue" then { result with githubIssue := value }
        else if field = js "issue role" then
          { result with issueRole := orWord value "feature_issue" }
        else if field = js "issue update mode" then
          { result with issueUpdateMode := orWord value "pr_body" }
        else if field = js "pull request" then { result with pullRequest := value }
        else if field = js "delivery status" then
          { result with deliveryStatus := orWord value "not_applicable" }
        else result
    | _ => result

def parseDeliveryTable (sectionLines : List JsString) : ParsedTableRow :=
  sectionLines.foldl (visitRow casing)
    { deliveryMode := js "direct_merge"
      targetBranch := js "master"
      githubIssue := []
      issueRole := js "feature_issue"
      issueUpdateMode := js "pr_body"
      pullRequest := []
      deliveryStatus := js "not_applicable" }

def parseMode (raw : JsString) : Except JsString FeatDeliveryMode :=
  let normalized := casing.toLowerCase raw.trim
  if normalized = js "direct_merge" then .ok .directMerge
  else if normalized = js "pull_request" then .ok .pullRequest
  else .error (js "Invalid delivery mode: \"" ++ raw ++
    js "\". Supported values: direct_merge, pull_request.")

/-- `/^#?(\d+)$/`, read as a number. -/
def parseIssueNumber (raw : JsString) : Option ℕ :=
  let trimmed := raw.trim
  let digits := if trimmed.head? = some 0x23 then trimmed.tail else trimmed
  if digits.isEmpty || !digits.all Pattern.isDigit then none else some (decimal digits)

def parseIssueRole (raw : JsString) : FeatIssueRole :=
  let normalized := casing.toLowerCase raw.trim
  if normalized = js "tracking" then .tracking
  else if normalized = js "epic" then .epic
  else .featureIssue

def parseIssueUpdateMode (raw : JsString) : FeatIssueUpdateMode :=
  let normalized := casing.toLowerCase raw.trim
  if normalized = js "checklist" then .checklist
  else if normalized = js "comment" then .comment
  else .prBody

/-- `normalizeDeliveryStatus`, which takes `-` for `_`. -/
def parseDeliveryStatus (raw : JsString) : FeatDeliveryStatus :=
  let normalized := (casing.toLowerCase raw.trim).map fun u => if u = 0x2D then 0x5F else u
  if normalized = js "blocked" then .blocked
  else if normalized = js "ready" then .ready
  else if normalized = js "preparing" then .preparing
  else if normalized = js "open" then .open
  else if normalized = js "error" then .error
  else .notApplicable

def createDefaultConfig : ParsedDeliveryConfig where
  deliveryMode := .directMerge
  targetBranch := js "master"
  githubIssue := none
  issueRole := .featureIssue
  issueUpdateMode := .prBody
  pullRequest := none
  deliveryStatus := .notApplicable

def parseDeliverySection (markdown : JsString) : Except JsString ParsedDeliveryConfig := do
  let lines := splitLines markdown
  match ← findSectionStart lines with
  | none => return createDefaultConfig
  | some sectionStart =>
      let table := parseDeliveryTable casing (extractSectionLines lines sectionStart)
      let deliveryMode ← parseMode casing table.deliveryMode
      return {
        deliveryMode
        targetBranch := orWord table.targetBranch "master"
        githubIssue := parseIssueNumber table.githubIssue
        issueRole := parseIssueRole casing table.issueRole
        issueUpdateMode := parseIssueUpdateMode casing table.issueUpdateMode
        pullRequest := parseIssueNumber table.pullRequest
        deliveryStatus := parseDeliveryStatus casing table.deliveryStatus }

end Parse

/-! ## Writing -/

/-- `${number ? `#${number}` : ""}`. -/
def issueText (number : Option ℕ) : JsString :=
  match number with
  | none | some 0 => []
  | some n => 0x23 :: decimalText n

/-- `| field | value |`. -/
def tableRow (field : String) (value : JsString) : JsString :=
  js "| " ++ js field ++ js " | " ++ value ++ js " |"

/-- The rows of the section from its heading on. -/
def sectionRows (config : ParsedDeliveryConfig) : List JsString :=
  [deliverySectionHeader, [], js "| Field | Value |", js "| --- | --- |",
    tableRow "Delivery Mode" (js config.deliveryMode.word),
    tableRow "Target Branch" config.targetBranch,
    tableRow "GitHub Issue" (issueText config.githubIssue),
    tableRow "Issue Role" (js config.issueRole.word),
    tableRow "Issue Update Mode" (js config.issueUpdateMode.word),
    tableRow "Pull Request" (issueText config.pullRequest),
    tableRow "Delivery Status" (js config.deliveryStatus.word)]

/-- The section begins and ends with an empty line. -/
def renderDeliverySection (config : ParsedDeliveryConfig) : JsString :=
  joinLines ([] :: sectionRows config ++ [[]])

def updateDeliverySection (document : JsString) (config : ParsedDeliveryConfig) :
    Except JsString JsString := do
  let lines := splitLines document
  let sectionStart ← findSectionStart lines
  let newSection := (renderDeliverySection config).trimEnd
  match sectionStart with
  | none => return document.trimEnd ++ [0x0A] ++ newSection ++ [0x0A]
  | some sectionStart =>
      let sectionEnd := findSectionEnd lines sectionStart
      return joinLines (lines.take sectionStart ++ [newSection.trimEnd] ++ lines.drop sectionEnd)

end Hepha.Delivery
