import Hepha.Js.Coercion
import Hepha.Payload.Decode
import Hepha.Verification.Receipts

/-!
# The plan of a fresh verification

A model writes a plan: checks, each with a command and a working directory, and for every
phase the checks it relies on.  The plan is admitted when the checks are well formed and
different, every phase is there once, and nothing is left over.  The checks are then put
into an order in which each comes after those it depends on.

What the code asks of the file system is a parameter.  The rejected plan, which the error
carries along for the correction, is left out.
-/

namespace Hepha

/-- `value[key] = member`, for a record. -/
def JsValue.assign (value : JsValue) (key : String) (member : JsValue) : JsValue :=
  match value with
  | .obj properties => .obj (JsMap.set properties (js key) member)
  | other => other

namespace Verification

open JsString Pattern

/-- The paths and the file system, where an error is a message. -/
structure PlanEnvironment where
  platform : Platform
  parse : Payload.Parser
  isAbsolute : JsString → Bool
  resolve : JsString → JsString → JsString
  relative : JsString → JsString → JsString
  dirname : JsString → JsString
  sep : JsString
  realpath : JsString → Except JsString JsString
  isFile : JsString → Except JsString Bool
  isDirectory : JsString → Except JsString Bool
  /-- `git rev-parse --show-toplevel` in a directory. -/
  toplevel : JsString → Except JsString JsString
  /-- The matches of the patterns, less `node_modules` and `.git`. -/
  glob : List JsString → JsString → Except JsString (List JsString)
  /-- The files that `git ls-files` lists in a directory; nothing where it fails. -/
  listFiles : JsString → Option (List JsString)
  /-- The entries of a directory, less `node_modules` and `.git`. -/
  listEntries : JsString → Except JsString (List JsString)

/-- Why there is no plan. -/
inductive PlanFailure where
  /-- A `VerificationPlanError` of the kind `format`. -/
  | format (message : JsString)
  /-- A `VerificationPlanError` of the kind `semantic`. -/
  | semantic (message : JsString)
  /-- A check that is looked for is not there. -/
  | typeError
deriving DecidableEq

/-! ## Guards -/

/-- `text`. -/
def planText (value : JsValue) (max : ℕ) : Option JsString :=
  value.isString.filter fun t => !t.trim.isEmpty && t.length ≤ max && !t.contains 0

/-- `strings`. -/
def planStrings : JsValue → Option (List JsString)
  | .arr items => if items.length ≤ 200 then items.mapM (planText · 4000) else none
  | _ => none

/-- The id of a check, where it is a text. -/
def checkId (check : JsValue) : Option JsString :=
  planText (check.get (js "id")) 120

/-- The id of a check that has one. -/
def idOf (check : JsValue) : JsString :=
  (checkId check).getD []

def dependsOn (check : JsValue) : List JsString :=
  (planStrings (check.get (js "dependsOn"))).getD []

section Environment

variable (env : PlanEnvironment)

/-- `within`. -/
def within (root path : JsString) : Bool :=
  let part := env.relative root path
  !env.isAbsolute part && part != js ".." && !(js ".." ++ env.sep).isPrefixOf part

/-- `repositoryRoot`. -/
def repositoryRoot (directory : JsString) : Except JsString JsString := do
  let root ← env.toplevel directory
  env.realpath root.trim

/-- The repository that a configuration file belongs to. -/
def configurationOwner (primary cwd path : JsString) : Except JsString JsString := do
  let full := env.resolve cwd path
  let isFile ← if env.isAbsolute path then .ok false else env.isFile full
  require isFile "configuration must be a relative regular file"
  let owner ← if within env primary full then .ok primary
    else repositoryRoot env (env.dirname full)
  require (within env owner full) "configuration escapes its bound repository"
  let actual ← env.realpath full
  require (within env owner actual) "configuration escapes its bound repository"
  return owner

/-- The roots of the configuration files from an index on. -/
def configurationRoots (primary cwd : JsString) :
    ℕ → List JsString → List JsString → Except JsString (List JsString)
  | _, roots, [] => .ok roots
  | index, roots, path :: rest =>
      match configurationOwner env primary cwd path with
      | .ok owner => configurationRoots primary cwd (index + 1)
          (if roots.contains owner then roots else roots ++ [owner]) rest
      | .error message =>
          .error (js "configurationFiles[" ++ decimalText index ++ js "] " ++ quote path ++
            js " is resolved relative to cwd " ++ quote cwd ++ js " as " ++
            quote (env.resolve cwd path) ++ js ": " ++ message ++
            js (". Configuration must exist inside its repository; linked repositories " ++
              "require an explicit configuration reference. Fix this check's paths; phases " ++
              "referencing it do not need remapping."))

/-- `verificationCheckSourceRoots`. -/
def verificationCheckSourceRoots (cwd : JsString) (configurationFiles : List JsString) :
    Except JsString (List JsString) := do
  let actual ← env.realpath cwd
  let primary := match repositoryRoot env actual with
    | .ok root => root
    | .error _ => actual
  configurationRoots env primary cwd 0 [primary] configurationFiles

/-! ## The checks -/

/-- `c.kind ??= "test"`. -/
def withKind (check : JsValue) : JsValue :=
  match check.get (js "kind") with
  | .undefined | .null => check.assign "kind" (.text "test")
  | _ => check

/-- A check that was identified. -/
structure IdentifiedCheck where
  check : JsValue
  id : JsString
  cwd : JsString
  kind : JsString
  testPaths : List JsString
  repositories : List JsString
  /-- `JSON.stringify([c.cwd, c.command.trim()])`. -/
  execution : JsString

/-- What the loop over the checks has gathered. -/
structure Admission where
  checks : List JsValue
  ids : List JsString
  executions : List (JsString × JsString)
  issues : List JsString

/-- `/^[\w.-]+$/`, for a text that is not empty. -/
def isIdText (id : JsString) : Bool :=
  id.all fun u => isWord u || u == 0x2E || u == 0x2D

/-- `c.dependsOn` is not there or names other checks. -/
def dependsOnOthers (declaredIds : List JsString) (id : JsString) (value : JsValue) : Bool :=
  match value with
  | .undefined => true
  | value => (planStrings value).any fun ids => ids.all fun other =>
      other != id && declaredIds.contains other

/-- `c.gates` is not there or holds gates that the check can satisfy. -/
def gatesFit (kind : JsString) (value : JsValue) : Bool :=
  match value with
  | .undefined => true
  | .arr gates =>
      gates.all (fun gate => gate.isString.any [js "tests", js "gherkin_e2e"].contains) &&
        (kind == js "test" || gates.isEmpty)
  | _ => false

def executionText (cwd command : JsString) : JsString :=
  js "[" ++ quote cwd ++ js "," ++ quote command.trim ++ js "]"

/-- The part of a turn in which the check is identified. -/
def identifyCheck (declaredIds ids : List JsString) (executions : List (JsString × JsString))
    (check : JsValue) : Except JsString IdentifiedCheck :=
  match checkId check, planText (check.get (js "cwd")) 4000,
      planText (check.get (js "command")) 10000, planText (check.get (js "reason")) 4000,
      planStrings (check.get (js "configurationFiles")) with
  | some id, some cwd, some command, some _, some configurationFiles => do
      require (isIdText id && env.isAbsolute cwd && !configurationFiles.isEmpty)
        ("needs identity, configured cwd/command, configuration files and scope " ++
          "justification")
      require (dependsOnOthers declaredIds id (check.get (js "dependsOn")))
        "dependsOn must reference other selected check IDs"
      let check := withKind check
      let kind := (check.get (js "kind")).isString.getD []
      require ([js "test", js "static", js "preparation", js "discovery"].contains kind)
        "kind must be test, static, preparation or discovery"
      let testPaths := planStrings (check.get (js "testPaths"))
      require (testPaths.any fun paths => kind != js "test" || !paths.isEmpty)
        ("test execution needs nonempty testPaths; classify lint/build/setup/discovery " ++
          "separately using kind")
      require (gatesFit kind (check.get (js "gates")))
        "only actual tests may satisfy automated gates; no human/code-review gates"
      require (kind != js "test" || !hasOption
          ["list", "listTests", "list-tests", "collect-only", "no-build"] command)
        "discovery or unproven prebuilt binaries cannot supply fresh source verification"
      let cwd ← env.realpath cwd
      let repositories ← verificationCheckSourceRoots env cwd configurationFiles
      let execution := executionText cwd command
      require (!ids.contains id) ("Duplicate verification check ID; use unique check IDs and " ++
        "shared phase references")
      match truthy (JsMap.get executions execution) with
      | some priorExecution =>
          .error (js "Duplicate verification execution between " ++ priorExecution ++
            js " and " ++ id ++ js "; share one check across phase obligations")
      | none => .ok ⟨check.assign "cwd" (.str cwd), id, cwd, kind, testPaths.getD [],
          repositories, execution⟩
  | _, _, _, _, _ => fail
      "needs identity, configured cwd/command, configuration files and scope justification"

/-- The parts of a path without the first that has a wildcard, and those behind it. -/
def staticPrefix (path : JsString) : JsString :=
  let parts := path.splitOnP fun u => u == 0x5C || u == 0x2F
  let isWildcard (part : JsString) : Bool := part.any (anyOf "*?[]\x7b\x7d()!")
  if parts.any isWildcard then
    let before := [0x2F].intercalate (parts.takeWhile fun part => !isWildcard part)
    if before.isEmpty then js "." else before
  else path

def exceedsScope : String := "test selection exceeds bounded scope enumeration"

/-- The files of the selection: `pending` is still to be visited. -/
def enumerateFiles (repositories : List JsString) (pending visited files : List JsString) :
    Except JsString (List JsString) :=
  match pending with
  | [] => .ok files
  | full :: pending =>
      if visited.contains full then enumerateFiles repositories pending visited files
      else if _h : 20000 < visited.length + 1 then fail exceedsScope
      else
        match env.realpath full with
        | .error message => .error message
        | .ok actual =>
            if !repositories.any fun root => within env root full && within env root actual then
              .error (js "testPaths source escapes its bound repository: " ++ full)
            else
              match env.isDirectory actual with
              | .error message => .error message
              | .ok true =>
                  match ((env.listFiles actual).map Except.ok).getD (env.listEntries actual) with
                  | .error message => .error message
                  | .ok entries => enumerateFiles repositories
                      (pending ++ entries.map (env.resolve actual)) (full :: visited) files
              | .ok false =>
                  match env.isFile actual with
                  | .error message => .error message
                  | .ok false => enumerateFiles repositories pending (full :: visited) files
                  | .ok true =>
                      let files := files.insert actual
                      if 20000 < files.length then fail exceedsScope
                      else enumerateFiles repositories pending (full :: visited) files
termination_by (20000 - visited.length, pending.length)
decreasing_by
  all_goals simp_wf
  all_goals first | (apply Prod.Lex.left; omega) | (apply Prod.Lex.right; omega)

/-- The part of a turn in which a test with a suite is followed to its files. -/
def followSuite (check : IdentifiedCheck) : Except JsString Unit :=
  match check.kind == js "test", check.check.get (js "suiteKey") with
  | false, _ | true, .undefined => .ok ()
  | true, suiteKey => do
      require (planText suiteKey 200).isSome
        "suiteKey must identify the configured runner/environment profile"
      require (check.testPaths.all fun path => !env.isAbsolute path &&
          check.repositories.any fun root =>
            within env root (env.resolve check.cwd (staticPrefix path)))
        ("testPaths must be repository-relative configured selections inside repositories bound " ++
          "by configurationFiles; preserve the delegated runner reference when its tests live " ++
          "outside cwd")
      let found ← env.glob check.testPaths check.cwd
      let files ← enumerateFiles env check.repositories (found.map (env.resolve check.cwd)) [] []
      if files.isEmpty then
        .error (js "testPaths have no current source matches relative to cwd " ++
          quote check.cwd ++ js ("; update the FeatureDescription.md inventory and configured " ++
            "test locations when tests are renamed or replaced"))
      else .ok ()

/-- One turn of the loop over the checks. -/
def admitCheck (declaredIds : List JsString) (index : ℕ) (check : JsValue) (s : Admission) :
    Admission :=
  let label := (checkId check).getD (js "check[" ++ decimalText index ++ js "]")
  match identifyCheck env declaredIds s.ids s.executions check with
  | .error message =>
      { s with checks := s.checks ++ [check], issues := s.issues ++ [label ++ js ": " ++ message] }
  | .ok identified =>
      let s := { s with
        checks := s.checks ++ [identified.check], ids := s.ids ++ [identified.id],
        executions := JsMap.set s.executions identified.execution identified.id }
      match followSuite env identified with
      | .error message => { s with issues := s.issues ++ [label ++ js ": " ++ message] }
      | .ok () => s

def admitChecks (declaredIds : List JsString) : ℕ → List JsValue → Admission → Admission
  | _, [], s => s
  | index, check :: rest, s =>
      admitChecks declaredIds (index + 1) rest (admitCheck env declaredIds index check s)

/-! ## The phases -/

/-- What the loop over the phases has gathered. -/
structure PhaseScope where
  seen : List JsNumber
  selected : List JsString
  issues : List JsString

/-- The checks of a phase that is well formed, with its number. -/
def readPhase (phaseNumbers : List JsNumber) (declaredIds : List JsString) (seen : List JsNumber)
    (phase : JsValue) : Option (JsNumber × List JsString) :=
  match phase.get (js "phaseNumber"), phase.get (js "checkIds") with
  | .num number, .arr items => do
      let checkIds ← items.mapM JsValue.isString
      guard (phaseNumbers.contains number && !seen.contains number && hasUniqueValues checkIds &&
        checkIds.all declaredIds.contains &&
        (!checkIds.isEmpty || (planText (phase.get (js "noAutomationReason")) 4000).isSome))
      return (number, checkIds)
  | _, _ => none

def admitPhase (phaseNumbers : List JsNumber) (declaredIds : List JsString) (s : PhaseScope)
    (phase : JsValue) : PhaseScope :=
  match readPhase phaseNumbers declaredIds s.seen phase with
  | none => { s with issues := s.issues ++
      [js "phase " ++ (phase.get (js "phaseNumber")).toText env.platform ++
        js (": unique configured check references or noAutomationReason required (check ID " ++
          "order does not matter)")] }
  | some (number, checkIds) =>
      { s with seen := number :: s.seen, selected := s.selected ++ checkIds }

/-! ## The order -/

/-- The checks that are in order, with their ids. -/
structure CheckOrder where
  done : List JsString
  ordered : List JsValue

def cyclicPrerequisites : PlanFailure :=
  .semantic (js "Verification prerequisites contain a cycle")

/-- `visit(plan.checks.find(c => c.id === id)!)`. -/
def visitById (checks : List JsValue)
    (visit : CheckOrder → JsValue → Except PlanFailure CheckOrder) (s : CheckOrder)
    (id : JsString) : Except PlanFailure CheckOrder :=
  match checks.find? fun check => checkId check == some id with
  | none => .error .typeError
  | some check => visit s check

/-- `visit`, with the ids that are being visited.  The fuel bounds the depth. -/
def visitCheck (checks : List JsValue) :
    ℕ → List JsString → CheckOrder → JsValue → Except PlanFailure CheckOrder
  | 0, _, _, _ => .error .typeError
  | fuel + 1, visiting, s, check =>
      if idOf check ∈ s.done then .ok s
      else if idOf check ∈ visiting then .error cyclicPrerequisites
      else do
        let s ← (dependsOn check).foldlM
          (visitById checks (visitCheck checks fuel (idOf check :: visiting))) s
        return ⟨idOf check :: s.done, s.ordered ++ [check]⟩

def orderChecks (checks : List JsValue) : Except PlanFailure (List JsValue) :=
  (checks.foldlM (visitCheck checks (checks.length + 1) []) ⟨[], []⟩).map CheckOrder.ordered

/-! ## The plan -/

/-- The plan with its checks and phases. -/
def decodePlan (output : JsString) : Except PlanFailure (JsValue × List JsValue × List JsValue) :=
  match Payload.modelJsonPayload env.parse output with
  | .error message => .error (.format (message ++ js " No tests were dispatched."))
  | .ok plan =>
      match plan.get (js "checks"), plan.get (js "phases") with
      | .arr checks, .arr phases =>
          if 100 < checks.length then
            .error (.semantic
              (js "Invalid feature verification plan: checks/phases arrays required."))
          else .ok (plan, checks, phases)
      | _, _ =>
          .error (.semantic
            (js "Invalid feature verification plan: checks/phases arrays required."))

/-- The issue of a plan that leaves a phase out or has a check that no phase relies on. -/
def omittedScope (phaseNumbers : List JsNumber) (declaredIds : List JsString)
    (scope : PhaseScope) : List JsString :=
  if setSize scope.seen ≠ setSize phaseNumbers ∨
      setSize scope.selected ≠ setSize declaredIds then
    [js "Verification scope omitted a phase or contains an unrelated unassigned check."]
  else []

/-- The checks as they are admitted. -/
def admitPlan (phaseNumbers : List JsNumber) (checks phases : List JsValue) :
    Except PlanFailure (List JsValue) :=
  let declaredIds := checks.filterMap checkId
  let admitted := admitChecks env declaredIds 0 checks ⟨[], [], [], []⟩
  let scope := phases.foldl (admitPhase env phaseNumbers declaredIds) ⟨[], [], admitted.issues⟩
  let issues := scope.issues ++ omittedScope phaseNumbers declaredIds scope
  if issues.isEmpty then .ok admitted.checks
  else .error (.semantic (joinLines (issues.take 20)))

/-- `parseFreshVerificationPlan`. -/
def parseFreshVerificationPlan (output : JsString) (phaseNumbers : List JsNumber) :
    Except PlanFailure JsValue := do
  let (plan, checks, phases) ← decodePlan env output
  let admitted ← admitPlan env phaseNumbers checks phases
  let ordered ← orderChecks admitted
  return plan.assign "checks" (.arr ordered)

end Environment

end Verification

end Hepha
