import Hepha.Js.Decimal
import Hepha.Verification.Receipts

/-!
# Reading the evidence

Every check of every receipt is an attempt.  Attempts at one check in one working
directory form a group, and a group upholds its evidence when all of its latest
attempts, with those that have no date, gave this evidence.  What is returned is
the evidence that a group upholds.
-/

namespace Hepha.Verification

open JsString Pattern

variable (env : Environment) (featureId : JsString)

/-! ## The scope of an invocation -/

/-- The paths of native reports that a check names. -/
def nativePaths (check : JsValue) : List JsString :=
  ([member check "reportPath", member check "extraPath", member check "extraReportPath"] ++
    (((member check "reports").isArray.getD []).map fun report => member report "path")).filterMap
      fun path => path.isString.filter fun path => !path.trim.isEmpty

/-- The kind of a check in the scope. -/
def ScopedCheck.kindOrTest (selected : ScopedCheck) : JsString := selected.kind.getD (js "test")

/-- The log that a check was captured to, where it is bound by a checksum. -/
def readCapture (selected : ScopedCheck) (check : JsValue) : Option Capture :=
  let stdoutReport := !isGiven check "logPath" && (member check "reportPath").isString.any
    (test (concat [lit ".", oneOf [litIgnoreCase "log", litIgnoreCase "txt"], endOfText]))
  let logPath := if stdoutReport then member check "reportPath" else member check "logPath"
  let logHash := if stdoutReport then member check "reportSha256" else member check "logSha256"
  match logPath.isString, readSha256 logHash with
  | some logPath, some _ => some
      { logPath, nativePaths := nativePaths check
        nonTest := (["static", "preparation", "discovery"].map js).contains selected.kindOrTest
        nativeStdout := stdoutReport }
  | _, _ => none

/-- The loop of `assertExecutionReceiptBinding` over the checks. -/
def bindChecks (scope : ExecutionReceiptScope) (receipt : JsValue) :
    List JsString → List JsValue → Except JsString Unit
  | _, [] => .ok ()
  | seen, check :: rest =>
      match scope.checks.find? fun selected => (member check "id").identical (.str selected.id) with
      | none => fail "Receipt contains an unknown or duplicate check ID."
      | some selected =>
          let refuse (reason : String) : Except JsString Unit :=
            .error (js "Receipt check " ++ selected.id ++ js ": " ++ js reason)
          if seen.contains selected.id then
            fail "Receipt contains an unknown or duplicate check ID."
          else if !(member check "cwd").identical (.str selected.cwd) then
            refuse "cwd does not match the inspected execution plan."
          else if (member receipt "schemaVersion").identical (.text "hepha-exchange/v1") &&
              !(member check "kind").identical (.str selected.kindOrTest) then
            refuse "kind does not match the inspected execution plan."
          else if !env.commandMatches (member check "command") selected
              (readCapture selected check) then
            refuse "command does not match the inspected execution plan."
          else bindChecks scope receipt (selected.id :: seen) rest

/-- `assertExecutionReceiptBinding`, for a receipt with its schema and feature. -/
def assertExecutionReceiptBinding (scope : ExecutionReceiptScope) (receipt : JsValue)
    (checks : List JsValue) : Except JsString Unit := do
  let runId := member receipt "runId"
  require (runId.identical .undefined || runId.identical .null || runId.identical (.str []) ||
      runId.identical (.str scope.runId))
    "Receipt runId does not match the current invocation."
  require (checks.length ≤ 100 && checks.length == scope.checks.length)
    "Receipt must account for every selected check exactly once."
  bindChecks env scope receipt [] checks

/-! ## Attempts -/

/-- An attempt: its group, its date and what it gave. -/
structure Attempt where
  key : JsString
  timestamp : Option ℤ
  label : JsString
  result : Except JsString (Option Execution)

/-- The execution that an attempt gave. -/
def Attempt.execution (attempt : Attempt) : Option Execution :=
  match attempt.result with
  | .ok execution => execution
  | .error _ => none

/-- `attempt.id`. -/
def Attempt.id (attempt : Attempt) : Option JsString := attempt.execution.map Execution.id

/-- The group of a check: its id, kind or command, and its working directory. -/
def attemptKey (check : JsValue) : JsString :=
  env.stringify (.arr [((member check "id").orElse (member check "kind")).orElse
    (member check "command"), member check "cwd"])

/-- `reportKey`: the working directory and the set of native reports. -/
def reportKey (execution : Execution) : JsString :=
  env.stringify (.arr [.str execution.cwd,
    .arr ((execution.nativeHashes.insertionSort (· ≤ ·)).map JsValue.str)])

/-- What a check gave, after the report keys of the checks before it. -/
def refuseDuplicate (seen : List JsString) (execution : Execution) :
    Except JsString (Option Execution) :=
  if seen.contains (reportKey env execution) then
    fail "Duplicate report cannot count as separate checks; share the execution in the scope plan."
  else .ok (some execution)

/-- The loop over the checks of a receipt. -/
def readChecks (scope : Option ExecutionReceiptScope) (name : JsString) (receipt : JsValue) :
    List JsString → ℕ → List JsValue → List Attempt
  | _, _, [] => []
  | seen, index, check :: rest =>
      let result := match verifyCheck env scope receipt check with
        | .ok (some execution) => refuseDuplicate env seen execution
        | result => result
      let seen' := match result with
        | .ok (some execution) => reportKey env execution :: seen
        | _ => seen
      { key := attemptKey env check
        timestamp := (member receipt "verifiedAt").isString.bind env.parseDate
        label := name ++ js " check " ++ decimalText (index + 1) ++ js " (" ++
          (env.toText ((member check "kind").orElse (.text "unnamed"))).take 120 ++ js ")"
        result } :: readChecks scope name receipt seen' (index + 1) rest

/-- A receipt: the name of its file and what `decodeExecutionReceipt` reads. -/
structure Receipt where
  name : JsString
  decoded : Except JsString JsValue

/-- One turn of the loop over the receipts: the attempts, or why there are none. -/
def readReceipt (scope : Option ExecutionReceiptScope) (file : Receipt) :
    Except JsString (List Attempt) := do
  let receipt ← file.decoded
  if !(member receipt "schema").identical (.text "phase-verification-receipt/v1") then
    if scope.isSome then fail "Invalid current run verification receipt schema."
    else return []
  else
    match (member receipt "checks").isArray with
    | none => fail "Receipt feature identity or check list is invalid."
    | some checks =>
        require ((member receipt "feature").identical (.str featureId) && checks.length ≤ 100)
          "Receipt feature identity or check list is invalid."
        match scope with
        | none => return readChecks env scope file.name receipt [] 0 checks
        | some bound =>
            assertExecutionReceiptBinding env bound receipt checks
            return readChecks env scope file.name receipt [] 0 checks

/-- The attempts of all receipts, in their order. -/
def readAttempts (scope : Option ExecutionReceiptScope) (receipts : List Receipt) : List Attempt :=
  receipts.flatMap fun receipt => (readReceipt env featureId scope receipt).toOption.getD []

/-- The diagnostics of one receipt. -/
def receiptDiagnostics (scope : Option ExecutionReceiptScope) (receipt : Receipt) :
    List JsString :=
  match readReceipt env featureId scope receipt with
  | .error message => [receipt.name ++ js ": " ++ message]
  | .ok attempts => attempts.filterMap fun attempt =>
      match attempt.result with
      | .error message => some (attempt.label ++ js ": " ++ message)
      | .ok _ => none

/-! ## Evidence -/

/-- `evidence.push(…)`: repeated receipts are not additional tests. -/
def pushEvidence (evidence : List Execution) (attempt : Attempt) : List Execution :=
  match attempt.execution with
  | none => evidence
  | some execution =>
      if evidence.any fun entry => entry.id == execution.id then evidence
      else evidence ++ [execution]

/-- The groups of the attempts. -/
def attemptGroups (attempts : List Attempt) : List (JsString × List Attempt) :=
  attempts.foldl (fun groups attempt =>
    JsMap.set groups attempt.key ((JsMap.get groups attempt.key).getD [] ++ [attempt])) []

/-- The attempts without a date and those with the last date. -/
def latestAttempts (group : List Attempt) : List Attempt :=
  let timestamp := (group.filterMap Attempt.timestamp).max?
  group.filter fun attempt => attempt.timestamp.isNone || attempt.timestamp == timestamp

/-- The evidence that a group upholds. -/
def upheld (group : List Attempt) : Option JsString :=
  let latest := latestAttempts group
  if latest.any (fun attempt => attempt.id.isNone) || setSize (latest.map Attempt.id) != 1 then none
  else latest.head?.bind Attempt.id

/-- What is said of a group whose attempts give different evidence. -/
def groupDiagnostic (group : List Attempt) : Option JsString :=
  if (upheld group).isNone && (latestAttempts group).any fun attempt => attempt.id.isSome then
    some (js ("Conflicting or unordered outcomes for an execution check were excluded. Publish " ++
      "an unambiguous dated receipt before linking that evidence."))
  else none

/-- The last hundred diagnostics. -/
def limitDiagnostics (diagnostics : List JsString) : List JsString :=
  if 100 < diagnostics.length then
    (decimalText (diagnostics.length - 100) ++ js (" earlier receipt diagnostics omitted; " ++
      "omitted evidence cannot establish coverage.")) ::
      diagnostics.drop (diagnostics.length - 100)
  else diagnostics

/-- The result, less its fingerprint. -/
structure RecoveryEvidence where
  evidence : List Execution
  diagnostics : List JsString

/-- `readRecoveryExecutionEvidence`, on the receipts of the directory. -/
def readRecoveryExecutionEvidence (scope : Option ExecutionReceiptScope)
    (receipts : List Receipt) : Except JsString RecoveryEvidence :=
  if 100 < receipts.length then
    fail "Too many verification receipts; archive obsolete receipts before refreshing."
  else
    let attempts := readAttempts env featureId scope receipts
    let groups := attemptGroups attempts
    let allowed := groups.filterMap fun group => upheld group.2
    .ok
      { evidence := (attempts.foldl pushEvidence []).filter fun entry => allowed.contains entry.id
        diagnostics :=
          limitDiagnostics (receipts.flatMap (receiptDiagnostics env featureId scope) ++
          groups.filterMap fun group => groupDiagnostic group.2) }

end Hepha.Verification
