import Hepha.Js.Json
import Hepha.Js.Collections
import Hepha.Js.Lines

/-!
# Checks of a verification receipt

A receipt lists the checks that a worker ran.  A check names its command, the
revision it was run on and the reports of its execution, each bound by a
checksum.  It counts as evidence when the command succeeded, the revision is
unambiguous, every report still has its checksum, and the native reports add up
to the numbers that the check claims.
-/

namespace Hepha.Verification

open JsString Pattern

/-- A check of `ExecutionReceiptScope`, less its configuration files, which only
the test of a linked revision reads. -/
structure ScopedCheck where
  id : JsString
  cwd : JsString
  command : JsString
  kind : Option JsString

/-- `ExecutionReceiptScope`. -/
structure ExecutionReceiptScope where
  directory : JsString
  runId : JsString
  checks : List ScopedCheck

/-- The log that a command may be captured to. -/
structure Capture where
  logPath : JsString
  nativePaths : List JsString
  nonTest : Bool
  nativeStdout : Bool

/-- What `parseExecutedReport` reads. -/
structure ParsedReport where
  count : ℕ
  identities : List JsString
deriving DecidableEq

/-- What the code takes from elsewhere. -/
structure Environment where
  /-- `createHash("sha256").update(value).digest("hex")`. -/
  sha256 : JsString → JsString
  /-- `JSON.stringify`. -/
  stringify : JsValue → JsString
  /-- `String(value)`. -/
  toText : JsValue → JsString
  /-- `Date.parse`; nothing where it is not finite. -/
  parseDate : JsString → Option ℤ
  /-- The path of a report, from the directory of the receipts. -/
  resolve : JsString → JsString
  /-- The working directory is the root of the project. -/
  isProjectRoot : JsString → Bool
  /-- The text of a report within the size limits; the message where it cannot be read. -/
  readFile : JsString → Except JsString JsString
  /-- `parseExecutedReport`. -/
  parseReport : JsString → Except JsString ParsedReport
  /-- `verifiedLinkedRevisionClaim`, for a revision and the id of a check in the scope. -/
  linkedRevision : JsString → JsValue → Bool
  /-- `receiptCommandMatches`, for the command that the scope selects. -/
  commandMatches : JsValue → ScopedCheck → Option Capture → Bool

/-- `throw new Error(message)`. -/
def fail {α : Type} (message : String) : Except JsString α := .error (js message)

/-- `if (!condition) throw new Error(message)`. -/
def require (condition : Bool) (message : String) : Except JsString Unit :=
  if condition then .ok () else fail message

theorem bind_ok {α β : Type} {x : Except JsString α} {f : α → Except JsString β} {b : β}
    (h : x >>= f = .ok b) : ∃ a, x = .ok a ∧ f a = .ok b := by
  cases x with
  | error message => cases h
  | ok a => exact ⟨a, rfl, h⟩

theorem require_ok {condition : Bool} {message : String} {u : Unit}
    (h : require condition message = .ok u) : condition = true := by
  unfold require at h
  split at h
  · assumption
  · cases h

/-! ## Commands and revisions -/

def endOfText : Pattern := fun s => if s.isEmpty then [s] else []

/-- `--(?:names)(?:\s|=|$)` with the flag `i`. -/
def optionNamed (names : List String) : Pattern :=
  concat [lit "--", oneOf (names.map litIgnoreCase),
    oneOf [unit isWhiteSpace, unit (· == 0x3D), endOfText]]

/-- `/(?:^|\s)--(?:names)(?:\s|=|$)/i.test(command)`. -/
def hasOption (names : List String) (command : JsString) : Bool :=
  !(optionNamed names command).isEmpty ||
    test (concat [unit isWhiteSpace, optionNamed names]) command

/-- `\w`. -/
def isWord (u : CodeUnit) : Bool := isAlphanumeric u || u == 0x5F

/-- `[a-f\d]` with the flag `i`. -/
def isHexDigit (u : CodeUnit) : Bool :=
  isDigit u || (0x61 ≤ lowerCase u && lowerCase u ≤ 0x66)

/-- `/^[a-f\d]{7,40}$/i.test(text)`. -/
def isCommit (text : JsString) : Bool :=
  7 ≤ text.length && text.length ≤ 40 && text.all isHexDigit

/-- The matches of `/\b[a-f\d]{7,40}\b/gi`: a match is a whole word. -/
def commitWords (text : JsString) : List JsString :=
  (text.splitOnP fun u => !isWord u).filter isCommit

/-- `[a-f\d]{7,40}\b`, or the same before a unit that is not of a word. -/
def commit : Pattern := fun s =>
  if isCommit (s.takeWhile isWord) then [s.dropWhile isWord] else []

/-- `working[ -]tree` with the flag `i`. -/
def workingTreeWords : Pattern :=
  concat [litIgnoreCase "working", unit (anyOf " -"), litIgnoreCase "tree"]

/-- `\b` after a word. -/
def wordEnd : Pattern := fun s => if s.head?.all fun u => !isWord u then [s] else []

/-- `working[ -]tree\s*@\s*[a-f\d]{7,40}\b`. -/
def treeAtCommit : Pattern :=
  concat [workingTreeWords, many isWhiteSpace, lit "@", many isWhiteSpace, commit]

/-- `^[a-f\d]{7,40}\s*@\s*working[ -]tree\b`. -/
def commitAtTree : Pattern :=
  concat [commit, many isWhiteSpace, lit "@", many isWhiteSpace, workingTreeWords, wordEnd]

/-- `^[a-f\d]{7,40}\s+\+\s+.+\bworking[ -]tree\b`: the unit before the word is none of a word. -/
def commitPlusTree : Pattern :=
  concat [commit, atLeast 1 isWhiteSpace, lit "+", atLeast 1 isWhiteSpace,
    many fun u => !isLineTerminator u, unit fun u => !isLineTerminator u && !isWord u,
    workingTreeWords, wordEnd]

/-- An explicit working-tree baseline with one commit in it. -/
def isWorkingTree (revision : JsString) : Bool :=
  revision.length ≤ 2000 &&
    (!(treeAtCommit revision).isEmpty ||
      test (concat [unit fun u => !isWord u, treeAtCommit]) revision ||
      !(commitAtTree revision).isEmpty || !(commitPlusTree revision).isEmpty) &&
    (commitWords revision).length == 1

example : isWorkingTree (js "working tree @ 0123abc (two files changed)") = true := by
  decide +kernel

/-! ## Report bindings -/

/-- A report of a check. -/
structure ReportBinding where
  path : JsString
  hash : JsString
  auditOnly : Bool
deriving DecidableEq

section Bindings

variable (env : Environment) (check : JsValue)

/-- `check[field]`. -/
def member (field : String) : JsValue := check.get (js field)

/-- `check[field] !== undefined`. -/
def isGiven (field : String) : Bool := !(member check field).identical .undefined

/-- `/^[a-f\d]{64}$/i.test(value)`. -/
def readSha256 (value : JsValue) : Option JsString :=
  value.isString.filter fun text => text.length == 64 && text.all isHexDigit

/-- A path and a checksum in a list of bindings. -/
def readBinding (auditOnly : Bool) (message : String) (binding : JsValue) :
    Except JsString ReportBinding :=
  match (member binding "path").isString.filter fun path => !path.trim.isEmpty,
      readSha256 (member binding "sha256") with
  | some path, some hash => .ok ⟨env.resolve path, hash.map lowerCase, auditOnly⟩
  | _, _ => fail message

/-- The items of a list of bindings, where the check has one. -/
def boundedItems (field message : String) : Except JsString (List JsValue) :=
  if isGiven check field then
    match (member check field).isArray with
    | some items => if items.isEmpty || 100 < items.length then fail message else .ok items
    | none => fail message
  else .ok []

def legacyFields : List String :=
  ["reportPath", "reportSha256", "extraPath", "extraSha256", "extraReportPath", "extraReportSha256"]

/-- `check.reports`. -/
def readReports : Except JsString (List ReportBinding) := do
  let items ← boundedItems check "reports"
    "reports must be a bounded nonempty array of native report bindings."
  require (!isGiven check "reports" || !legacyFields.any (isGiven check))
    "Do not mix reports with legacy native report bindings."
  items.mapM (readBinding env false
    "A report path and SHA-256 binding are required for every supplied report.")

/-- `check.artifacts`. -/
def readArtifacts : Except JsString (List ReportBinding) := do
  let items ← boundedItems check "artifacts"
    "artifacts must be a bounded nonempty array of supporting artifact bindings."
  items.mapM (readBinding env true
    "A supporting artifact path and SHA-256 binding are required.")

/-- One turn of the loop over `report`, `extra` and `log`, the second with its
other name. -/
def readSupplement (name other : String) : Except JsString (List ReportBinding) := do
  let path := member check (name ++ "Path")
  let hash := member check (name ++ "Sha256")
  let otherPath := member check (other ++ "Path")
  let otherHash := member check (other ++ "Sha256")
  require (other == name || !isGiven check (name ++ "Path") || !isGiven check (other ++ "Path") ||
      path.identical otherPath && hash.identical otherHash)
    "Conflicting supplemental report bindings; use one path and checksum pair."
  match path.orElse otherPath with
  | .undefined => .ok []
  | .str path =>
      match readSha256 (hash.orElse otherHash) with
      | some hash => .ok [⟨env.resolve path, hash.map lowerCase,
          name == "log" && (isGiven check "reportPath" || isGiven check "reports")⟩]
      | none => fail "A report path and SHA-256 binding are required for every supplied report."
  | _ => fail "A report path and SHA-256 binding are required for every supplied report."

/-- All reports of a check. -/
def readReportBindings : Except JsString (List ReportBinding) := do
  let reports ← readReports env check
  let artifacts ← readArtifacts env check
  let report ← readSupplement env check "report" "report"
  let extra ← readSupplement env check "extra" "extraReport"
  let log ← readSupplement env check "log" "log"
  let bindings := reports ++ artifacts ++ report ++ extra ++ log
  require (!bindings.isEmpty) "No checksum-bound execution report is available."
  return bindings

end Bindings

/-! ## Reports -/

/-- A report that was read, and what it counts where it is a native one. -/
structure ReadReport where
  binding : ReportBinding
  content : JsString
  parsed : Option ParsedReport

/-- One turn of the loop over the reports. -/
def readReport (env : Environment) (nonTest : Bool) (binding : ReportBinding) :
    Except JsString ReadReport := do
  let content ← env.readFile binding.path
  require (env.sha256 content == binding.hash) ("Execution report checksum has changed; restore " ++
    "the matching report or publish a new receipt.")
  -- process and audit logs never count as tests
  if binding.auditOnly || nonTest then return ⟨binding, content, none⟩
  else
    let parsed ← env.parseReport content
    return ⟨binding, content, some parsed⟩

/-- The native reports, with what they count. -/
def nativeReports (reports : List ReadReport) : List (JsString × ParsedReport) :=
  reports.filterMap fun report => report.parsed.map fun parsed => (report.content, parsed)

/-- The checksums of all reports, each once, in their order. -/
def reportHashes (env : Environment) (reports : List ReadReport) : List JsString :=
  reports.foldl (fun hashes report =>
    if hashes.contains (env.sha256 report.content) then hashes
    else hashes ++ [env.sha256 report.content]) []

/-- An executed check: the entry of the evidence, with the working directory and
the reports that it is counted from. -/
structure Execution where
  id : JsString
  title : JsString
  command : JsString
  sourcePath : JsString
  executionIdentities : List JsString
  testedRevision : JsString
  sourceState : JsString
  executedCount : ℕ
  reportHashes : List JsString
  cwd : JsString
  nativeHashes : List JsString
  natives : List (JsString × ParsedReport)

section Verify

variable (env : Environment) (scope : Option ExecutionReceiptScope) (receipt check : JsValue)

/-- The kind that decides whether a check is a test: that of the scope, where there is one. -/
def checkKind : JsValue :=
  match scope with
  | none => member check "kind"
  | some scope =>
      match scope.checks.find? fun selected => (member check "id").identical (.str selected.id) with
      | some selected => (selected.kind.map JsValue.str).getD .undefined
      | none => .undefined

/-- A check that runs no test. -/
def isNonTest (kind : JsValue) : Bool :=
  (["static", "preparation", "discovery"].map js).contains (env.toText kind)

/-- The revision that a check was run on. -/
def checkRevision (cwd : JsString) : JsValue :=
  (((member check "testedRevision").orElse (member check "revision")).orElse
    (member receipt "testedRevision")).orElse
      (if env.isProjectRoot cwd then member receipt "clientRevision" else .undefined)

/-- The revision is unambiguous. -/
def isUnambiguous (revision : JsString) : Bool :=
  isCommit revision || isWorkingTree revision ||
    scope.isSome && env.linkedRevision revision (member check "id")

/-- The command of a check that succeeded. -/
def readCommand : Except JsString JsString := do
  let command := ((member check "command").isString).getD []
  require (!command.isEmpty && command.length ≤ 10000 &&
      (member check "exitCode").identical (.num (.int 0)) &&
      (member check "success").identical (.bool true))
    "No successful command execution was recorded."
  require (isNonTest env (checkKind scope check) ||
      !hasOption ["listtests", "list", "list-tests", "collect-only"] command)
    ("Discovery is not execution; supply an executed machine report, not another discovery run.")
  require (!hasOption ["no-build"] command)
    ("Prebuilt binary-to-source provenance is unavailable. Reuse an existing source-built run " ++
      "with a checksum-bound identity report; a current HEAD or aggregate console pass cannot " ++
      "establish the binary's tested source.")
  return command

/-- The working directory of a check. -/
def readCwd : Except JsString JsString :=
  match (member check "cwd").isString.filter fun cwd => !cwd.trim.isEmpty with
  | some cwd => .ok cwd
  | none => fail "Execution working directory is missing."

/-- The revision of a test. -/
def readRevision (cwd : JsString) : Except JsString JsString :=
  match (checkRevision env receipt check cwd).isString.filter (isUnambiguous env scope check) with
  | some revision => .ok revision
  | none => fail ("An unambiguous tested revision is missing. Record a commit hash, or an " ++
      "explicit working tree @ hash with its source-state qualifications.")

/-- The evidence of an executed test. -/
def executionOf (command cwd revision : JsString) (bindings : List ReportBinding)
    (reports : List ReadReport) : Execution :=
  let natives := nativeReports reports
  let hashes := reportHashes env reports
  { id := js "receipt-" ++ (env.sha256 (env.stringify (.arr [.str command, .str cwd, .str revision,
      .arr (hashes.map JsValue.str)]))).take 24
    title := env.toText (((member check "id").orElse (member check "kind")).orElse
      (.text "Executed tests"))
    command
    sourcePath := (bindings.head?.map ReportBinding.path).getD []
    executionIdentities := natives.flatMap fun (content, parsed) =>
      parsed.identities.map fun identity =>
        if 1 < (bindings.filter fun binding => !binding.auditOnly).length then
          js "[report " ++ env.sha256 content ++ js "] " ++ identity
        else identity
    testedRevision := ((commitWords revision).head?).getD []
    sourceState := revision
    executedCount := (natives.map fun native => native.2.count).sum
    reportHashes := hashes
    cwd
    nativeHashes := natives.map fun native => env.sha256 native.1
    natives }

/-- The count that a check claims. -/
def claims (field : String) (total : ℕ) : Bool :=
  (member check field).identical (.num (.int total))

/-- The checks of one turn of the loop over a receipt, up to its duplicates;
nothing is executed by a check that runs no test. -/
def verifyCheck : Except JsString (Option Execution) := do
  let command ← readCommand env scope check
  let cwd ← readCwd check
  if isNonTest env (checkKind scope check) then
    let bindings ← readReportBindings env check
    let _ ← bindings.mapM (readReport env true)
    require (claims check "tests" 0 && claims check "passed" 0 && claims check "failed" 0)
      "Non-test checks require zero claimed tests; process success cannot certify coverage."
    return none
  else
    let revision ← readRevision env scope receipt check cwd
    let bindings ← readReportBindings env check
    let reports ← bindings.mapM (readReport env false)
    let execution := executionOf env check command cwd revision bindings reports
    let total := execution.executedCount
    require (total != 0 && claims check "tests" total && claims check "passed" total &&
        claims check "failed" 0)
      "Receipt counts do not match non-zero passing report results."
    require (hasUniqueValues execution.nativeHashes)
      "Repeated reports cannot be added together as separate executions."
    return some execution

end Verify

end Hepha.Verification
