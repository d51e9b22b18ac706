import Hepha.Js.Collections
import Hepha.Js.Unicode
import Hepha.Js.Value
import Mathlib.Data.Option.Basic

/-!
# Phase gates

The record in which an agent declares the gates of a phase: the checks that
were run, the acceptance criteria with the tests that cover them, and the code
review.  The first half reads a record as the schema admits it; the second half
is the evaluation of a record against the proof found for it, which answers
with a decision for each gate.

The schema counts characters where a limit is one, and so does the test for a
character other than white space.  The fields of a record that the evaluation
does not read are kept, since the schema decides on them.
-/

namespace Hepha.Exchange

open JsValue

/-! ## Records -/

structure PhaseGateFlags where
  needCodeReview : Bool
  needTestCoverage : Bool
  deriving DecidableEq

structure PhaseGateEvidenceReference where
  path : JsString
  toolCallId : Option JsString
  deriving DecidableEq

inductive FeatureQualityGateKind where
  | tests
  | gherkinE2e
  | codeReview
  | build
  | lint
  deriving DecidableEq

/-- The gates of a check: all but the code review. -/
inductive CheckGate where
  | tests
  | gherkinE2e
  | build
  | lint
  deriving DecidableEq

def CheckGate.kind : CheckGate → FeatureQualityGateKind
  | tests => .tests
  | gherkinE2e => .gherkinE2e
  | build => .build
  | lint => .lint

inductive CheckOutcome where
  | pending
  | passed
  | failed
  | notRun
  deriving DecidableEq

inductive ReviewOutcome where
  | pending
  | approved
  | changesRequired
  | notApplicable
  deriving DecidableEq

inductive CoverageOutcome where
  | pending
  | sufficient
  | missing
  | notApplicable
  deriving DecidableEq

structure PhaseGateCriterion where
  id : JsString
  description : JsString
  deriving DecidableEq

structure PhaseGateCheck where
  id : JsString
  gate : CheckGate
  required : Bool
  command : JsString
  cwd : JsString
  outcome : CheckOutcome
  evidence : List PhaseGateEvidenceReference
  reason : Option JsString
  deriving DecidableEq

structure PhaseGateReview where
  outcome : ReviewOutcome
  reportPath : Option JsString
  reason : Option JsString
  deriving DecidableEq

structure PhaseGateCoverageItem where
  criterionId : JsString
  checkIds : List JsString
  testPaths : List JsString
  assertions : JsString
  deriving DecidableEq

structure PhaseGateCoverage where
  outcome : CoverageOutcome
  reason : Option JsString
  criteria : List PhaseGateCoverageItem
  deriving DecidableEq

structure PhaseGateRevision where
  before : PhaseGateFlags
  after : PhaseGateFlags
  reason : JsString
  implementedScope : JsString
  evidencePaths : List JsString
  deriving DecidableEq

structure PhaseGateRecord where
  phaseId : JsString
  flags : PhaseGateFlags
  criteria : List PhaseGateCriterion
  checks : List PhaseGateCheck
  review : PhaseGateReview
  coverage : PhaseGateCoverage
  revisions : Option (List PhaseGateRevision)
  deriving DecidableEq

/-! ## The words of a record -/

def CheckGate.word : CheckGate → String
  | tests => "tests"
  | gherkinE2e => "gherkin_e2e"
  | build => "build"
  | lint => "lint"

def CheckOutcome.word : CheckOutcome → String
  | pending => "pending"
  | passed => "passed"
  | failed => "failed"
  | notRun => "not_run"

def ReviewOutcome.word : ReviewOutcome → String
  | pending => "pending"
  | approved => "approved"
  | changesRequired => "changes_required"
  | notApplicable => "not_applicable"

def CoverageOutcome.word : CoverageOutcome → String
  | pending => "pending"
  | sufficient => "sufficient"
  | missing => "missing"
  | notApplicable => "not_applicable"

/-! ## The schema -/

/-- A string of at least one character that is not white space. -/
def nonBlank (value : JsValue) : Option JsString :=
  value.isString.filter fun text => text.any fun u => !isWhiteSpace u

/-- An array of at most ten thousand items. -/
def items {α : Type} (item : JsValue → Option α) (value : JsValue) : Option (List α) :=
  (value.isArrayOf item).filter fun values => values.length ≤ 10000

/-- A word of an enumeration. -/
def enumerated {α : Type} (values : List α) (word : α → String) (value : JsValue) : Option α :=
  value.isOneOf (values.map fun v => (word v, v))

def readFlags (value : JsValue) : Option PhaseGateFlags := do
  guard (value.hasShape ["needCodeReview", "needTestCoverage"] [])
  let needCodeReview ← (value.get (js "needCodeReview")).isBoolean
  let needTestCoverage ← (value.get (js "needTestCoverage")).isBoolean
  return { needCodeReview, needTestCoverage }

def readCriterion (value : JsValue) : Option PhaseGateCriterion := do
  guard (value.hasShape ["id", "description"] [])
  let id ← nonBlank (value.get (js "id"))
  let description ← nonBlank (value.get (js "description"))
  return { id, description }

def readEvidence (value : JsValue) : Option PhaseGateEvidenceReference := do
  guard (value.hasShape ["path"] ["toolCallId"])
  let path ← nonBlank (value.get (js "path"))
  let toolCallId ← value.optionalMember "toolCallId" nonBlank
  return { path, toolCallId }

def readCheck (value : JsValue) : Option PhaseGateCheck := do
  guard (value.hasShape ["id", "gate", "required", "command", "cwd", "outcome", "evidence"]
    ["reason"])
  let id ← nonBlank (value.get (js "id"))
  let gate ← enumerated [.tests, .gherkinE2e, .build, .lint] CheckGate.word
    (value.get (js "gate"))
  let required ← (value.get (js "required")).isBoolean
  let command ← nonBlank (value.get (js "command"))
  let cwd ← nonBlank (value.get (js "cwd"))
  let outcome ← enumerated [.pending, .passed, .failed, .notRun] CheckOutcome.word
    (value.get (js "outcome"))
  let evidence ← items readEvidence (value.get (js "evidence"))
  let reason ← value.optionalMember "reason" nonBlank
  return { id, gate, required, command, cwd, outcome, evidence, reason }

def readReview (value : JsValue) : Option PhaseGateReview := do
  guard (value.hasShape ["outcome"] ["reportPath", "reason"])
  let outcome ← enumerated [.pending, .approved, .changesRequired, .notApplicable]
    ReviewOutcome.word (value.get (js "outcome"))
  let reportPath ← value.optionalMember "reportPath" nonBlank
  let reason ← value.optionalMember "reason" nonBlank
  return { outcome, reportPath, reason }

def readCoverageItem (value : JsValue) : Option PhaseGateCoverageItem := do
  guard (value.hasShape ["criterionId", "checkIds", "testPaths", "assertions"] [])
  let criterionId ← nonBlank (value.get (js "criterionId"))
  let checkIds ← items nonBlank (value.get (js "checkIds"))
  let testPaths ← items nonBlank (value.get (js "testPaths"))
  let assertions ← nonBlank (value.get (js "assertions"))
  return { criterionId, checkIds, testPaths, assertions }

def readCoverage (value : JsValue) : Option PhaseGateCoverage := do
  guard (value.hasShape ["outcome", "criteria"] ["reason"])
  let outcome ← enumerated [.pending, .sufficient, .missing, .notApplicable]
    CoverageOutcome.word (value.get (js "outcome"))
  let reason ← value.optionalMember "reason" nonBlank
  let criteria ← items readCoverageItem (value.get (js "criteria"))
  return { outcome, reason, criteria }

def readRevision (value : JsValue) : Option PhaseGateRevision := do
  guard (value.hasShape ["before", "after", "reason", "implementedScope", "evidencePaths"] [])
  let before ← readFlags (value.get (js "before"))
  let after ← readFlags (value.get (js "after"))
  let reason ← nonBlank (value.get (js "reason"))
  let implementedScope ← nonBlank (value.get (js "implementedScope"))
  let evidencePaths ← items nonBlank (value.get (js "evidencePaths"))
  return { before, after, reason, implementedScope, evidencePaths }

/-- A payload that the schema of `phase.gates` admits. -/
def readPhaseGateRecord (value : JsValue) : Option PhaseGateRecord := do
  guard (value.hasShape ["phaseId", "flags", "criteria", "checks", "review", "coverage"]
    ["revisions"])
  let phaseId ← nonBlank (value.get (js "phaseId"))
  let flags ← readFlags (value.get (js "flags"))
  let criteria ← items readCriterion (value.get (js "criteria"))
  let checks ← items readCheck (value.get (js "checks"))
  let review ← readReview (value.get (js "review"))
  let coverage ← readCoverage (value.get (js "coverage"))
  let revisions ← value.optionalMember "revisions" (items readRevision)
  return { phaseId, flags, criteria, checks, review, coverage, revisions }

/-! ## Evaluation -/

inductive FeatureQualityGateStatus where
  | satisfied
  | waived
  | missing
  | notApplicable
  | unknown
  deriving DecidableEq

structure FeaturePhaseQualityGateDecision where
  gate : FeatureQualityGateKind
  status : FeatureQualityGateStatus
  evidencePaths : List JsString
  justification : JsString

/-- What is found for a record: the problem of a check that is said to have
passed and of a report, if there is one, and whether a source exists. -/
structure PhaseGateProof where
  check : PhaseGateCheck → Option JsString
  review : JsString → Option JsString
  source : JsString → Bool

/-- A `Map` of the decisions by their gates. -/
abbrev Decisions := List (FeatureQualityGateKind × FeaturePhaseQualityGateDecision)

namespace Decisions

/-- `decisions.has(gate)`. -/
def has (decisions : Decisions) (gate : FeatureQualityGateKind) : Bool :=
  (decisions.map Prod.fst).contains gate

/-- `decisions.set(decision.gate, decision)`. -/
def put (decisions : Decisions) (decision : FeaturePhaseQualityGateDecision) : Decisions :=
  JsMap.set decisions decision.gate decision

/-- `if (!decisions.has(decision.gate)) decisions.set(decision.gate, decision)`. -/
def putIfAbsent (decisions : Decisions) (decision : FeaturePhaseQualityGateDecision) :
    Decisions :=
  if decisions.has decision.gate then decisions else decisions.put decision

def missing (decisions : Decisions) (gate : FeatureQualityGateKind) (reason : JsString) :
    Decisions :=
  decisions.put { gate, status := .missing, evidencePaths := [], justification := reason }

end Decisions

/-- ` — `, which is not ASCII. -/
def dash : JsString := [0x20, 0x2014, 0x20]

section Evaluate

variable (record : PhaseGateRecord) (proof : PhaseGateProof)

/-- The problem of a check. -/
def checkProblem (check : PhaseGateCheck) : Option JsString :=
  if check.outcome ≠ .passed then
    some (check.id ++ js ": " ++ js check.outcome.word ++
      ((JsString.truthy check.reason).map fun reason => dash ++ reason).getD [])
  else proof.check check

/-- The variables of the loop over the checks. -/
structure Checked where
  decisions : Decisions
  passedChecks : List JsString
  seen : List JsString

/-- One turn of the loop over the checks. -/
def visitCheck (s : Checked) (check : PhaseGateCheck) : Checked :=
  if s.seen.contains check.id then
    { s with decisions :=
        s.decisions.missing check.gate.kind (js "Duplicate configured check: " ++ check.id) }
  else
    let seen := check.id :: s.seen
    match JsString.truthy (checkProblem proof check) with
    | some problem =>
        { s with
          seen
          decisions :=
            if check.required then s.decisions.missing check.gate.kind problem else s.decisions }
    | none =>
        { seen
          passedChecks := check.id :: s.passedChecks
          decisions :=
            if check.required then
              s.decisions.putIfAbsent
                { gate := check.gate.kind
                  status := .satisfied
                  evidencePaths := check.evidence.map (·.path)
                  justification := js "Configured execution verified." }
            else s.decisions }

def visitChecks : Checked :=
  record.checks.foldl (visitCheck proof) { decisions := [], passedChecks := [], seen := [] }

/-- `if (applies) gap ||= text`. -/
def noteGap (gap : JsString) (applies : Bool) (text : JsString) : JsString :=
  if applies && gap.isEmpty then text else gap

/-- The item cites a behavioral test that passed, and no other check that is
not one of those that passed or of the supporting health checks. -/
def citesTests (passedChecks : List JsString) (item : PhaseGateCoverageItem) : Bool :=
  (item.checkIds.any fun id => passedChecks.contains id &&
    record.checks.any fun c => c.id == id && (c.gate == .tests || c.gate == .gherkinE2e)) &&
  !(item.checkIds.any fun id => !passedChecks.contains id &&
    !record.checks.any fun c => c.id == id && (c.gate == .build || c.gate == .lint))

/-- One turn of the loop over the items of the coverage, with the criteria
assessed before and the gap found so far. -/
def visitItem (passedChecks : List JsString) (s : List JsString × JsString)
    (item : PhaseGateCoverageItem) : List JsString × JsString :=
  let (assessed, gap) := s
  let gap := noteGap gap
    (assessed.contains item.criterionId || !record.criteria.any (·.id == item.criterionId))
    (js "Unknown or duplicate coverage criterion: " ++ item.criterionId)
  let gap := noteGap gap (!citesTests record passedChecks item)
    (js "Criterion " ++ item.criterionId ++ js " lacks passing test execution.")
  let gap := noteGap gap
    (item.testPaths.isEmpty || item.testPaths.any fun path => !proof.source path)
    (js "Criterion " ++ item.criterionId ++ js " lacks its test/assertion source.")
  (item.criterionId :: assessed, gap)

/-- The first gap in the coverage, or the empty string. -/
def coverageGap (passedChecks : List JsString) : JsString :=
  let gap := if record.coverage.outcome ≠ .sufficient then
    record.coverage.reason.getD
      (js "Coverage assessment: " ++ js record.coverage.outcome.word) else []
  let gap := noteGap gap (!hasUniqueValues (record.criteria.map (·.id)))
    (js "Duplicate acceptance criterion identity.")
  let gap := noteGap gap record.criteria.isEmpty
    (js "Meaningful coverage requires the phase acceptance criteria.")
  let (assessed, gap) :=
    record.coverage.criteria.foldl (visitItem record proof passedChecks) ([], gap)
  record.criteria.foldl (fun gap item => noteGap gap (!assessed.contains item.id)
    (js "Missing acceptance coverage: " ++ item.id ++ dash ++ item.description)) gap

/-- `reason?.trim()` is truthy. -/
def hasReason (reason : Option JsString) : Bool :=
  reason.any fun text => !text.trim.isEmpty

/-- The decisions after those on the coverage. -/
def decideCoverage (checked : Checked) : Decisions :=
  let decisions :=
    if record.flags.needTestCoverage then
      let gap := coverageGap record proof checked.passedChecks
      if gap.isEmpty then
        checked.decisions.putIfAbsent
          { gate := .tests
            status := .satisfied
            evidencePaths := []
            justification := js ("All declared acceptance criteria have assessed assertions " ++
              "and passing evidence.") }
      else checked.decisions.missing .tests gap
    else if record.coverage.criteria.length > 0 then
      checked.decisions.missing .tests (js ("The record disables acceptance coverage but " ++
        "supplies an active acceptance assessment. Reconcile needTestCoverage with the " ++
        "implemented scope; numeric measurement applicability does not decide this flag. " ++
        "Preserve the criterion mappings while correcting the declaration."))
    else if record.coverage.outcome ≠ .notApplicable || !hasReason record.coverage.reason then
      checked.decisions.missing .tests
        (js "Coverage is disabled but its scope justification is missing.")
    else checked.decisions
  decisions.putIfAbsent
    { gate := .tests
      status := .notApplicable
      evidencePaths := []
      justification := record.coverage.reason.getD (js "No required test check declared.") }

/-- The problem of the code review. -/
def reviewProblem : Option JsString :=
  if record.review.outcome ≠ .approved then
    some (record.review.reason.getD (js "Code review: " ++ js record.review.outcome.word))
  else
    match JsString.truthy record.review.reportPath with
    | none => some (js "Approved review has no report.")
    | some reportPath => proof.review reportPath

/-- The decisions with the one on the code review. -/
def decideReview (decisions : Decisions) : Decisions :=
  if record.flags.needCodeReview then
    match JsString.truthy (reviewProblem record proof) with
    | some problem => decisions.missing .codeReview problem
    | none => decisions.put
        { gate := .codeReview
          status := .satisfied
          evidencePaths := record.review.reportPath.toList
          justification := js "Required review report is approved." }
  else decisions.put
    { gate := .codeReview
      status := if record.review.outcome = .notApplicable ∧ hasReason record.review.reason then
        .notApplicable else .missing
      evidencePaths := []
      justification :=
        record.review.reason.getD (js "Disabled review requires a scope justification.") }

def evaluatePhaseGates : List FeaturePhaseQualityGateDecision :=
  (decideReview record proof (decideCoverage record proof (visitChecks record proof))).map
    Prod.snd

end Evaluate

end Hepha.Exchange
