import Hepha.Js.Coercion
import Hepha.Js.Decimal
import Hepha.Js.MatchAll
import Hepha.Verification.Receipts

/-!
# Reports of an execution

What a test runner leaves behind: a TRX document, the JSON of Playwright or of Vitest, or
the lines that Cargo prints.  A reader takes from it the tests that were executed, under a
name for each, and refuses what is incomplete or did not pass.

The XML and the JSON parser are parameters.  The TRX reader is a machine over the events
of the XML parser, in their order.
-/

namespace Hepha.Verification

open JsString Pattern

/-! ## Names -/

/-- A label that others have too, with what tells the record apart. -/
def addressed (label suffix : JsString) : JsString :=
  label ++ js " [" ++ suffix ++ js "]"

/-- A label that is familiar when it is the only one, and addressed otherwise. -/
def displayIdentity (labels : List JsString) (label suffix : JsString) : JsString :=
  if labels.count label = 1 then label else addressed label suffix

/-- What tells a record apart by its place in the report. -/
def localSuffix (index : ℕ) : JsString :=
  js "report-local execution " ++ decimalText (index + 1)

/-- `executionDisplayIdentities(labels)`. -/
def localIdentities (labels : List JsString) : List JsString :=
  labels.zipIdx.map fun entry => displayIdentity labels entry.1 (localSuffix entry.2)

/-- `executionDisplayIdentities(labels, nativeIds)`, for labels with their native ids. -/
def nativeIdentities (records : List (JsString × JsString)) : List JsString :=
  records.map fun record => displayIdentity (records.map Prod.fst) record.1
    (js "native execution " ++ quote record.2)

/-- `complete`. -/
def complete (identities : List JsString) (total : JsValue) : Except JsString ParsedReport := do
  require (!identities.isEmpty && (JsValue.num (.int identities.length)).identical total &&
    hasUniqueValues identities) "Executed identities do not match unique non-zero report totals."
  return { count := identities.length, identities }

/-- `value && typeof value === "object" && !Array.isArray(value) ? value : {}`. -/
def object (value : JsValue) : JsValue :=
  if value.isRecord then value else .obj []

/-- `nonempty`. -/
def nonempty (value : JsValue) : Option JsString :=
  value.isString.filter fun text => !text.trim.isEmpty

/-- What a loop over the items pushes. -/
def collect {α β : Type} (f : α → Except JsString (List β)) : List α → Except JsString (List β)
  | [] => .ok []
  | item :: rest => do
      let first ← f item
      let others ← collect f rest
      return first ++ others

/-- What the XML parser reports. -/
inductive XmlEvent where
  | doctype
  | error
  /-- A tag with its namespace, its local name and its attributes without a namespace. -/
  | opentag (uri localName : JsString) (attributes : List (JsString × JsString))
  | closetag

structure ReportHost where
  platform : Platform
  /-- `Number.isFinite(Date.parse(value))`. -/
  isDate : JsString → Bool
  /-- The events of the XML parser, up to the first error. -/
  xmlEvents : JsString → List XmlEvent

/-! ## Playwright -/

/-- A whole number above 0. -/
def isPosition (value : JsValue) : Option ℕ :=
  value.isSafeNatural.filter (0 < ·)

/-- A spec that names itself and has tests. -/
structure PlaywrightSpec where
  title : JsString
  file : JsString
  tests : List JsValue

def playwrightSpec (spec : JsValue) : Option PlaywrightSpec :=
  match nonempty (member spec "title"), nonempty (member spec "file"),
      (member spec "tests").isArray with
  | some title, some file, some tests =>
      if (member spec "ok").identical (.bool true) && !tests.isEmpty then
        some { title, file, tests }
      else none
  | _, _, _ => none

/-- The one result of a test ran once, without an error. -/
def isPassingResult (host : ReportHost) (result : JsValue) : Bool :=
  (member result "status").identical (.text "passed") &&
    (member result "retry").identical (.num (.int 0)) &&
    (match member result "duration" with
      | .num duration => duration.isFinite && JsNumber.le (.int 0) duration
      | _ => false) &&
    (nonempty (member result "startTime")).any host.isDate &&
    (member result "errors").isArray.any List.isEmpty && (member result "error").isFalsy

/-- What a Playwright test is called. -/
def playwrightName (titles : List JsString) (file title project : JsString) (line column : ℕ) :
    JsString :=
  file ++ js ":" ++ decimalText line ++ js ":" ++ decimalText column ++ js " [" ++ project ++
    js "]: " ++ (js " > ").intercalate (titles ++ [title])

/-- The body of the loop over the tests of a spec. -/
def playwrightTest (host : ReportHost) (titles : List JsString) (spec : JsValue)
    (read : PlaywrightSpec) (rawTest : JsValue) : Except JsString (List JsString) := do
  let test := object rawTest
  let results := (member test "results").isArray.getD []
  require ((member test "expectedStatus").identical (.text "passed") &&
    (member test "status").identical (.text "expected") && results.length == 1)
    "Playwright test did not execute once with an unqualified passing outcome."
  require (results.all fun result => isPassingResult host (object result))
    "Playwright execution result is missing, retried or failed."
  match (member test "projectName").isString, isPosition (member spec "line"),
      isPosition (member spec "column") with
  | some projectName, some line, some column =>
      let project := (member test "projectId").isString.getD projectName
      return [playwrightName titles read.file read.title project line column]
  | _, _, _ => fail "Playwright project or source location is missing."

/-- The body of the loop over the specs of a suite. -/
def playwrightSpecTests (host : ReportHost) (titles : List JsString) (rawSpec : JsValue) :
    Except JsString (List JsString) :=
  match playwrightSpec (object rawSpec) with
  | some read => collect (playwrightTest host titles (object rawSpec) read) read.tests
  | none => fail "Playwright spec has no complete passing executions."

/-- `suite`, with the levels of nesting that are left. -/
def suite (host : ReportHost) : ℕ → List JsString → JsValue → Except JsString (List JsString)
  | 0, _, _ => fail "Playwright suite nesting exceeds the evidence limit."
  | left + 1, parents, raw =>
      match nonempty (member (object raw) "title"), (member (object raw) "specs").isArray with
      | some title, some specs => do
          let titles := parents ++ [title]
          let own ← collect (playwrightSpecTests host titles) specs
          match member (object raw) "suites" with
          | .undefined => return own
          | .arr children =>
              let nested ← collect (suite host left titles) children
              return own ++ nested
          | _ => fail "Playwright child suites are invalid."
      | _, _ => fail "Playwright suite identity or specs are missing."

def parsePlaywrightReport (host : ReportHost) (report : JsValue) :
    Except JsString ParsedReport := do
  let stats := object (member report "stats")
  match (member report "errors").isArray.filter List.isEmpty, (member report "suites").isArray with
  | some _, some suites =>
      require (["unexpected", "flaky", "skipped"].all fun field =>
        (member stats field).identical (.num (.int 0)))
        "Playwright run contains failed, flaky or skipped tests."
      let identities ← collect (suite host 128 []) suites
      complete identities (member stats "expected")
  | _, _ => fail "Playwright report is incomplete or has global errors."

/-! ## TRX -/

abbrev Attributes := List (JsString × JsString)

/-- `attributes[name]`. -/
def attributeOf (attributes : Attributes) (name : String) : Option JsString :=
  attributes.lookup (js name)

/-- An attribute that is there and not blank. -/
def nonemptyAttribute (attributes : Attributes) (name : String) : Option JsString :=
  (attributeOf attributes name).filter fun value => !value.trim.isEmpty

structure TrxDefinition where
  execution : Option JsString
  className : Option JsString
  method : Option JsString
  assembly : Option JsString
  deriving DecidableEq

structure TrxState where
  /-- The names of the open elements, from the root. -/
  path : List JsString
  results : List Attributes
  definitions : List (JsString × TrxDefinition)
  /-- The id of the definition that is open. -/
  definition : Option JsString
  counters : Option Attributes
  summary : Option JsString
  roots : ℕ
  nodes : ℕ

def TrxState.initial : TrxState :=
  ⟨[], [], [], none, none, none, 0, 0⟩

/-- The open definition, with its id. -/
def TrxState.openDefinition (state : TrxState) : Option (JsString × TrxDefinition) :=
  state.definition.bind fun id => (JsMap.get state.definitions id).map fun test => (id, test)

def trxNamespace : JsString := js "http://microsoft.com/schemas/VisualStudio/TeamTest/2010"

/-- A new test definition. -/
def openUnitTest (state : TrxState) (attributes : Attributes) : Except JsString TrxState :=
  match (nonemptyAttribute attributes "id").filter fun id =>
      (JsMap.get state.definitions id).isNone with
  | some id => .ok { state with
      definitions := JsMap.set state.definitions id ⟨none, none, none, none⟩
      definition := some id }
  | none => fail "TRX test definition is missing or duplicated."

def openExecution (state : TrxState) (attributes : Attributes) : Except JsString TrxState :=
  match state.openDefinition, nonemptyAttribute attributes "id" with
  | some (id, test), some execution =>
      if test.execution.isNone then
        .ok { state with definitions := JsMap.set state.definitions id
                            { test with execution := some execution } }
      else fail "TRX definition execution is missing or duplicated."
  | _, _ => fail "TRX definition execution is missing or duplicated."

def openTestMethod (state : TrxState) (attributes : Attributes) : Except JsString TrxState :=
  match state.openDefinition, nonemptyAttribute attributes "className",
      nonemptyAttribute attributes "name" with
  | some (id, test), some className, some method =>
      if test.method.isNone then
        .ok { state with definitions := JsMap.set state.definitions id
                            { test with className := some className, method := some method
                                        assembly := attributeOf attributes "codeBase" } }
      else fail "TRX method identity is missing or duplicated."
  | _, _, _ => fail "TRX method identity is missing or duplicated."

def openSummary (state : TrxState) (attributes : Attributes) : Except JsString TrxState :=
  match (attributeOf attributes "outcome").filter fun outcome =>
      (["Completed", "Passed"].map js).contains outcome with
  | some outcome =>
      if state.summary.isNone then .ok { state with summary := some outcome }
      else fail "TRX summary is incomplete or failed."
  | none => fail "TRX summary is incomplete or failed."

/-- What the code does with an element by its location.  A local name has no slash, so the
locations are compared name by name. -/
def openAt (state : TrxState) (attributes : Attributes) : Except JsString TrxState :=
  if state.path = ["TestRun", "Results", "UnitTestResult"].map js then
    .ok { state with results := state.results ++ [attributes] }
  else if state.path = ["TestRun", "TestDefinitions", "UnitTest"].map js then
    openUnitTest state attributes
  else if state.path = ["TestRun", "TestDefinitions", "UnitTest", "Execution"].map js then
    openExecution state attributes
  else if state.path = ["TestRun", "TestDefinitions", "UnitTest", "TestMethod"].map js then
    openTestMethod state attributes
  else if state.path = ["TestRun", "ResultSummary"].map js then openSummary state attributes
  else if state.path = ["TestRun", "ResultSummary", "Counters"].map js then do
    require state.counters.isNone "Duplicate TRX counters."
    return { state with counters := some attributes }
  else .ok state

/-- The handlers of the XML parser. -/
def trxStep (state : TrxState) : XmlEvent → Except JsString TrxState
  | .doctype => fail "TRX DTD declarations are not accepted."
  | .error => fail "Malformed TRX XML; restore the complete reporter artifact."
  | .opentag uri localName attributes => do
      require (state.nodes + 1 ≤ 200000 && state.path.length < 128)
        "TRX structure exceeds the evidence limit."
      require (uri == trxNamespace) "Unsupported TRX namespace."
      require (!state.path.isEmpty || localName == js "TestRun") "TRX root must be TestRun."
      let state ← openAt
        { state with
          path := state.path ++ [localName], nodes := state.nodes + 1
          roots := if state.path.isEmpty then state.roots + 1 else state.roots } attributes
      require (!(["ErrorInfo", "RunInfo"].map js).contains localName)
        ("TRX contains execution error or run diagnostics; inspect the report before linking " ++
          "it.")
      return state
  | .closetag => .ok { state with
      definition := if state.path = ["TestRun", "TestDefinitions", "UnitTest"].map js then none
        else state.definition
      path := state.path.dropLast }

def trxRun : TrxState → List XmlEvent → Except JsString TrxState
  | state, [] => .ok state
  | state, event :: rest => do
      let next ← trxStep state event
      trxRun next rest

/-- `/^\d+$/.test(value) && Number(value) === expected`. -/
def countsTo (value : Option JsString) (expected : ℕ) : Bool :=
  value.any fun digits => !digits.isEmpty && digits.all isDigit && decimal digits == expected

/-- `/^0+$/.test(value)`. -/
def isZeros (value : JsString) : Bool :=
  !value.isEmpty && value.all (· == 0x30)

def trxTotals : List String := ["total", "executed", "passed"]

/-- The label of a passing result that is bound to a test method, and its execution. -/
def trxResult (definitions : List (JsString × TrxDefinition)) (executions : List JsString)
    (result : Attributes) : Option (JsString × JsString) := do
  let test ← JsMap.get definitions ((attributeOf result "testId").getD [])
  let testName ← nonemptyAttribute result "testName"
  let executionId ← nonemptyAttribute result "executionId"
  let className ← truthy test.className
  let method ← truthy test.method
  if attributeOf result "outcome" = some (js "Passed") ∧ executionId ∉ executions ∧
      test.execution = some executionId then
    let assembly := ((truthy test.assembly).map fun assembly =>
      js "[assembly " ++ quote assembly ++ js "] ").getD []
    some (assembly ++ className ++ js "." ++ method ++ js ": " ++ testName, executionId)
  else none

/-- The loop over the results, with the executions seen so far. -/
def trxResults (definitions : List (JsString × TrxDefinition)) :
    List JsString → List Attributes → Except JsString (List (JsString × JsString))
  | _, [] => .ok []
  | executions, result :: rest =>
      match trxResult definitions executions result with
      | some record => do
          let others ← trxResults definitions (record.2 :: executions) rest
          return record :: others
      | none => fail "TRX result is not a unique passing execution bound to a test method."

def parseTrxReport (host : ReportHost) (content : JsString) : Except JsString ParsedReport := do
  let state ← trxRun .initial (host.xmlEvents content)
  match state.roots, state.summary, state.counters with
  | 1, some _, some counters => do
      require (trxTotals.all fun key => countsTo (attributeOf counters key) state.results.length)
        "TRX executed totals do not match results."
      require (counters.all fun entry => (trxTotals.map js).contains entry.1 || isZeros entry.2)
        "TRX has non-passing or incomplete outcomes."
      let records ← trxResults state.definitions [] state.results
      require (state.definitions.length == state.results.length)
        "TRX test definitions include unexecuted or unmatched tests."
      complete (nativeIdentities records)
        (.num (.int (((attributeOf counters "total").map decimal).getD 0)))
  | _, _, _ => fail "TRX results or summary are missing."

/-! ## Vitest and Jest -/

/-- The label of an assertion. -/
def assertionLabel (platform : Platform) (suite : JsValue) (fullName : JsString) : JsString :=
  ((member suite "name").orElse (.str [])).toText platform ++ js ": " ++ fullName

def assertion (platform : Platform) (suite rawAssertion : JsValue) :
    Except JsString (List JsString) :=
  match nonempty (member (object rawAssertion) "fullName") with
  | some fullName =>
      if (member (object rawAssertion) "status").identical (.text "passed") then
        .ok [assertionLabel platform suite fullName]
      else fail "Executed test identity or passing outcome is missing."
  | none => fail "Executed test identity or passing outcome is missing."

def suiteAssertions (platform : Platform) (raw : JsValue) : Except JsString (List JsString) :=
  match (member (object raw) "assertionResults").isArray with
  | some assertions =>
      if (member (object raw) "status").identical (.text "passed") then
        collect (assertion platform (object raw)) assertions
      else fail "Suite results are incomplete or failed."
  | none => fail "Suite results are incomplete or failed."

def parseVitestReport (host : ReportHost) (report : JsValue) : Except JsString ParsedReport :=
  let total := member report "numTotalTests"
  match total.isSafeNatural.filter (0 < ·), (member report "testResults").isArray with
  | some numTotalTests, some testResults => do
      require ((member report "success").identical (.bool true) &&
        (member report "numPassedTests").identical total &&
        (member report "numFailedTests").identical (.num (.int 0)) &&
        (member report "numPendingTests").identical (.num (.int 0)))
        "JSON reporter does not prove non-zero, entirely passing execution."
      let assertions ← collect (suiteAssertions host.platform) testResults
      require (assertions.length == numTotalTests)
        "Executed assertion records do not match the report count."
      return { count := assertions.length, identities := localIdentities assertions }
  | _, _ => fail "JSON reporter does not prove non-zero, entirely passing execution."

/-! ## Cargo -/

/-- `/^test result: (ok|FAILED)\. (\d+) passed; (\d+) failed; (\d+) ignored;/gm`. -/
def summaryPattern : Pattern :=
  concat [lit "test result: ", oneOf [lit "ok", lit "FAILED"], lit ". ", atLeast 1 isDigit,
    lit " passed; ", atLeast 1 isDigit, lit " failed; ", atLeast 1 isDigit, lit " ignored;"]

/-- The groups of a match of `summaryPattern`: whether it is `ok`, and its three numbers. -/
def summaryGroups (found : JsString) : Bool × List ℕ :=
  (found.take 15 == js "test result: ok", (((found.drop 13).splitOnP fun u => !isDigit u).filter
    fun digits => !digits.isEmpty).map decimal)

/-- `/^test (.+) \.\.\. ok\s*$/gm`. -/
def testLinePattern : Pattern :=
  concat [lit "test ", atLeast 1 isDot, lit " ... ok", many isWhiteSpace, endOfLine]

/-- The group of a match of `testLinePattern`. -/
def testLineName (found : JsString) : JsString :=
  (found.trimEnd.drop 5).take (found.trimEnd.length - 12)

def parseCargoOutput (content : JsString) : Except JsString ParsedReport := do
  let results := (matchLines summaryPattern true 0 0 content).map fun found =>
    summaryGroups found.2
  let identities := (matchLines testLinePattern true 0 0 content).map fun found =>
    testLineName found.2
  let passed := (results.map fun result => result.2.getD 0 0).sum
  require (!results.isEmpty && passed != 0 && (results.all fun result =>
    result.1 && result.2.getD 1 0 == 0 && result.2.getD 2 0 == 0) && identities.length == passed)
    ("Unsupported reporter or no verifiable, non-zero passing execution. Publish a JSON test " ++
      "report with executed assertion identities.")
  return { count := passed, identities := localIdentities identities }

/-! ## All readers -/

def parseExecutedReport (host : ReportHost) (content : JsString) :
    Except JsString ParsedReport :=
  if content.trimStart.head? = some 0x3C then parseTrxReport host content
  else if content.trimStart.head? = some 0x7B then
    match host.platform.parseJson content with
    | none => fail "Malformed JSON evidence; restore a valid reporter artifact."
    | some value =>
        let report := object value
        if (member report "suites").isArray.isSome ||
            !(member report "stats").identical .undefined then parsePlaywrightReport host report
        else parseVitestReport host report
  else parseCargoOutput content

end Hepha.Verification
