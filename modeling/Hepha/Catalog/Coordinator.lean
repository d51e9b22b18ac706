import Hepha.Catalog.Ledger
import Hepha.Catalog.Models

/-!
# Scanning a catalog

A scan claims the connection's row in the ledger, discovers the models of the
connection, which writes them to the model store, and settles the claim.  A scan
that fails clears the models before it settles its claim as failed; the startup
reconciler does the same for the claims that a stopped process has left.

What runs between two `await`s or between two writes is one step, so that a
process may stop after any write.  `none` stands for what throws; a callback for
removed routes may throw when the models are cleared already.
-/

namespace Hepha.Catalog

/-! ## Outcomes -/

/-- `CatalogScanResult`. -/
structure ScanResult where
  connectionId : JsString
  scanCorrelationId : JsString
  outcome : ScanOutcome
  modelCount : ℕ
  diagnostic : ScanDiagnostic
deriving DecidableEq

/-- `safeMessages`. -/
def safeMessages : ScanOutcome → String
  | .success => "Model catalog scan completed."
  | .unavailable => "Provider catalog is unavailable."
  | .authenticationFailed => "Provider authentication was rejected."
  | .timeout => "Provider catalog scan timed out."
  | .redirectRejected => "Provider catalog redirect was rejected."
  | .malformedResponse => "Provider catalog returned an invalid response."
  | .normalizationFailed => "Provider catalog response could not be normalized."
  | .vaultUnavailable => "Catalog credential vault is unavailable."
  | .notScannable => "Connection is not eligible for catalog scanning."
  | .processFailed => "Pi catalog process did not complete successfully."

/-- `createCatalogScanDiagnostic`. -/
def createScanDiagnostic (connectionId scanCorrelationId : JsString) (outcome : ScanOutcome)
    (httpStatusCode : Option ℕ) (occurredAt diagnosticId : JsString) : ScanDiagnostic :=
  { diagnosticId, connectionId, scanCorrelationId, outcome
    safeMessage := js (safeMessages outcome), httpStatusCode, occurredAt }

/-- What a scanner and the normalization of its payload come to: the models that were
discovered, or an outcome other than success. -/
inductive Scanned (δ : Type)
  | models (found : List (ModelRecord δ))
  | failure (outcome : ScanOutcome) (httpStatusCode : Option ℕ) (h : outcome ≠ .success)

def Scanned.outcome {δ : Type} : Scanned δ → ScanOutcome
  | models _ => .success
  | failure outcome _ _ => outcome

def Scanned.httpStatusCode {δ : Type} : Scanned δ → Option ℕ
  | models _ => none
  | failure _ httpStatusCode _ => httpStatusCode

def Scanned.modelsFound {δ : Type} : Scanned δ → List (ModelRecord δ)
  | models found => found
  | failure _ _ _ => []

/-- The purposes of a deterministic diagnostic. -/
inductive Purpose
  | coordinator
  | interrupted
  | legacyContradiction
deriving DecidableEq, Repr

def Purpose.text : Purpose → String
  | coordinator => "coordinator"
  | interrupted => "interrupted"
  | legacyContradiction => "legacy-contradiction"

/-- `CATALOG_COORDINATOR_FAILURE_MESSAGE`. -/
def coordinatorFailureMessage : JsString :=
  js "Catalog scan coordinator failed safely. Retry to scan again."

/-- `INTERRUPTED_SCAN_MESSAGE`. -/
def interruptedScanMessage : JsString :=
  js "Previous catalog scan was interrupted and was settled safely. Retry to scan again."

/-- `LEGACY_ROWS_ADOPTED_MESSAGE`. -/
def legacyRowsAdoptedMessage : JsString :=
  js "Existing model catalog evidence was adopted."

/-- `LEGACY_CONTRADICTION_MESSAGE`. -/
def legacyContradictionMessage : JsString :=
  js "Contradictory legacy catalog evidence was settled safely. Retry to scan again."

/-- The last of the values in their order as strings. -/
def latest (values : List JsString) : JsString :=
  (values.insertionSort (· ≤ ·)).getLastD []

section Parameters

variable {δ : Type} (columns : Details δ) (sha256 : JsString → JsString)

/-- `deterministicDiagnosticId`. -/
def deterministicDiagnosticId (purpose : Purpose) (connectionId attemptId : JsString) : JsString :=
  js "catalog-" ++ js purpose.text ++ js "-" ++ sha256 (connectionId ++ 0 :: attemptId)

/-! ## Writing outcomes -/

namespace ModelStore

/-- `CatalogDiscoveryService.persistResult`, with the store after it. -/
def persistResult (store : ModelStore δ) (connectionId scanCorrelationId occurredAt diagnosticId :
    JsString) (scanned : Scanned δ) (callbackThrows : Bool) :
    ModelStore δ × Option ScanResult :=
  let removedRoutes := if scanned.outcome = .success then some []
    else store.listModelsForConnection columns connectionId
  let diagnostic := createScanDiagnostic connectionId scanCorrelationId scanned.outcome
    scanned.httpStatusCode occurredAt diagnosticId
  match removedRoutes, store.applyScanOutcome columns
      { connectionId, models := scanned.modelsFound, diagnostic } with
  | some removedRoutes, some after =>
      (after, if removedRoutes ≠ [] ∧ callbackThrows then none
        else some { connectionId, scanCorrelationId, outcome := scanned.outcome
                    modelCount := scanned.modelsFound.length, diagnostic })
  | _, _ => (store, none)

/-- `CatalogFailClosedOutcomeWriter.apply`, with the store after it. -/
def failClosed (store : ModelStore δ) (connectionId attemptId diagnosticId occurredAt safeMessage :
    JsString) (callbackThrows : Bool) : ModelStore δ × Option ScanDiagnostic :=
  let diagnostic : ScanDiagnostic :=
    { diagnosticId, connectionId, scanCorrelationId := attemptId, outcome := .processFailed
      safeMessage, httpStatusCode := none, occurredAt }
  match store.listModelsForConnection columns connectionId,
      store.applyIdempotentFailureOutcome columns { connectionId, models := [], diagnostic } with
  | some removedRoutes, some after =>
      (after, if removedRoutes ≠ [] ∧ callbackThrows then none else some diagnostic)
  | _, _ => (store, none)

end ModelStore

/-! ## Scans in flight -/

/-- Where a scan stands that has claimed its connection. -/
inductive TaskState
  | discovering
  | discovered (result : ScanResult)
  | failing
  | cleared (diagnostic : ScanDiagnostic)

/-- A scan in flight. -/
structure Task where
  connectionId : JsString
  attemptId : JsString
  claimedAt : JsString
  claim : ReconciliationRecord
  state : TaskState

/-- The settlement of a discovery result, `none` where it throws before it is written. -/
def settleDiscoveryInput (claim : ReconciliationRecord) (result : ScanResult) (now : JsString) :
    Option SettleInput := do
  let attemptId ← claim.attemptId
  let claimedAt ← claim.claimedAt
  guard (result.connectionId = claim.connectionId ∧ result.scanCorrelationId = attemptId ∧
    result.diagnostic.connectionId = claim.connectionId ∧
    result.diagnostic.scanCorrelationId = attemptId ∧ isNonNegativeInteger result.modelCount)
  guard (isCanonicalIsoTimestamp claimedAt ∧
    isCanonicalIsoTimestamp result.diagnostic.occurredAt ∧ isCanonicalIsoTimestamp now)
  return { connectionId := claim.connectionId
           reconciliationVersion := claim.reconciliationVersion
           attemptId
           settledAt := latest [claimedAt, result.diagnostic.occurredAt, now]
           settledOutcome := if result.outcome = .success then
             if 0 < result.modelCount then .available else .empty else .failed
           modelCount := result.modelCount
           outcomeCode := .scan result.outcome
           safeOutcomeMessage := result.diagnostic.safeMessage
           diagnosticId := result.diagnostic.diagnosticId }

/-- The settlement of a scan that failed. -/
def settleFailureInput (task : Task) (diagnostic : ScanDiagnostic) (now : JsString) :
    Option SettleInput := do
  guard (isCanonicalIsoTimestamp task.claimedAt ∧ isCanonicalIsoTimestamp diagnostic.occurredAt ∧
    isCanonicalIsoTimestamp now)
  return { connectionId := task.connectionId
           reconciliationVersion := targetVersion
           attemptId := task.attemptId
           settledAt := latest [task.claimedAt, diagnostic.occurredAt, now]
           settledOutcome := .failed
           modelCount := 0
           outcomeCode := .coordinatorFailure
           safeOutcomeMessage := diagnostic.safeMessage
           diagnosticId := diagnostic.diagnosticId }

/-- The settlement of an interrupted claim. -/
def settleInterruptedInput (record : ReconciliationRecord) (attemptId claimedAt : JsString)
    (diagnostic : ScanDiagnostic) (now : JsString) : SettleInput :=
  { connectionId := record.connectionId
    reconciliationVersion := record.reconciliationVersion
    attemptId
    settledAt := latest [claimedAt, diagnostic.occurredAt, now]
    settledOutcome := .failed
    modelCount := 0
    outcomeCode := .interruptedScan
    safeOutcomeMessage := diagnostic.safeMessage
    diagnosticId := diagnostic.diagnosticId }

/-- What the process does: it settles interrupted claims, of which the first may be
cleared, or it serves scans, or it has stopped. -/
inductive Phase
  | starting (interrupted : List ReconciliationRecord) (cleared : Option ScanDiagnostic)
  | running
  | stopped

/-- The two stores, the scans in flight and the phase of the process. -/
structure World (δ : Type) where
  ledger : Ledger
  store : ModelStore δ
  tasks : List Task
  phase : Phase

namespace World

/-- The process stops, and the scans in flight with it. -/
def stop (w : World δ) : World δ :=
  { w with tasks := [], phase := .stopped }

/-- A new process begins `reconcileAtStartup`. -/
def restart (w : World δ) : World δ :=
  match w.ledger.listInterruptedClaims with
  | some interrupted => { w with tasks := [], phase := .starting interrupted none }
  | none => w.stop

/-- The first write of `settleInterrupted`. -/
def clearInterrupted (w : World δ) (callbackThrows : Bool) : World δ :=
  match w.phase with
  | .starting (record :: rest) none =>
      match record.attemptId, record.claimedAt with
      | some attemptId, some claimedAt =>
          let cleared := w.store.failClosed columns record.connectionId attemptId
            (deterministicDiagnosticId sha256 .interrupted record.connectionId attemptId) claimedAt
            interruptedScanMessage callbackThrows
          match cleared.2 with
          | some diagnostic =>
              { w with store := cleared.1, phase := .starting (record :: rest) (some diagnostic) }
          | none => { w with store := cleared.1 }.stop
      | _, _ => { w with phase := .starting rest none }
  | _ => w

/-- The second write of `settleInterrupted`. -/
def settleInterrupted (w : World δ) (now : JsString) : World δ :=
  match w.phase with
  | .starting (record :: rest) (some diagnostic) =>
      match record.attemptId, record.claimedAt with
      | some attemptId, some claimedAt =>
          match w.ledger.settleAttempt
              (settleInterruptedInput record attemptId claimedAt diagnostic now) with
          | some settled => { w with ledger := settled.2, phase := .starting rest none }
          | none => w.stop
      | _, _ => w
  | _ => w

/-- All interrupted claims are settled. -/
def serve (w : World δ) : World δ :=
  match w.phase with
  | .starting [] _ => { w with phase := .running }
  | _ => w

/-! ### The coordinator -/

/-- The mode that a request with the trigger must have. -/
def modeOf (trigger : ScanTrigger) : ClaimMode :=
  if trigger = .startupReconciliation then .eligibleOnly else .forceSettled

/-- `CatalogScanCoordinator.scanConnection`, until discovery waits for its provider. -/
def request (w : World δ) (connectionId : JsString) (trigger : ScanTrigger)
    (attemptId claimedAt : JsString) (active : Bool) : World δ :=
  if isBoundedString connectionId ∧ Table.find Task.connectionId w.tasks connectionId = none ∧
      active ∧ isCanonicalIsoTimestamp claimedAt then
    match w.ledger.claimAttempt
        { connectionId, reconciliationVersion := targetVersion, trigger, attemptId, claimedAt
          mode := modeOf trigger } with
    | some (.claimed claim, ledger) =>
        { w with
          ledger
          tasks := w.tasks ++ [{ connectionId, attemptId, claimedAt, claim, state := .discovering }] }
    | _ => w
  else w

/-- The scan goes on from a new state. -/
def become (w : World δ) (connectionId : JsString) (state : TaskState) : World δ :=
  { w with tasks := Table.update Task.connectionId w.tasks connectionId fun task =>
      { task with state } }

/-- The scan ends. -/
def finish (w : World δ) (connectionId : JsString) : World δ :=
  { w with tasks := Table.delete Task.connectionId w.tasks connectionId }

/-- The provider has answered, and discovery writes what was found. -/
def discover (w : World δ) (task : Task) (occurredAt diagnosticId : JsString)
    (scanned : Scanned δ) (callbackThrows : Bool) : World δ :=
  let persisted := w.store.persistResult columns task.connectionId.toWellFormed task.attemptId
    occurredAt diagnosticId scanned callbackThrows
  { w with store := persisted.1 }.become task.connectionId
    (persisted.2.elim .failing .discovered)

/-- `settleDiscoveryResult`. -/
def settleDiscovery (w : World δ) (task : Task) (result : ScanResult) (now : JsString) : World δ :=
  match (settleDiscoveryInput task.claim result now).bind w.ledger.settleAttempt with
  | some settled => { w with ledger := settled.2 }.finish task.connectionId
  | none => w.become task.connectionId .failing

/-- The first write after a failure. -/
def clear (w : World δ) (task : Task) (callbackThrows : Bool) : World δ :=
  let cleared := w.store.failClosed columns task.connectionId task.attemptId
    (deterministicDiagnosticId sha256 .coordinator task.connectionId task.attemptId)
    task.claimedAt coordinatorFailureMessage callbackThrows
  match cleared.2 with
  | some diagnostic => { w with store := cleared.1 }.become task.connectionId (.cleared diagnostic)
  | none => { w with store := cleared.1 }.finish task.connectionId

/-- The second write after a failure. -/
def settleFailure (w : World δ) (task : Task) (diagnostic : ScanDiagnostic) (now : JsString) :
    World δ :=
  match (settleFailureInput task diagnostic now).bind w.ledger.settleAttempt with
  | some settled => { w with ledger := settled.2 }.finish task.connectionId
  | none => w.finish task.connectionId

/-- What may happen next to a scan in flight. -/
inductive Turn (δ : Type)
  | discover (occurredAt diagnosticId : JsString) (scanned : Scanned δ) (callbackThrows : Bool)
  | throws
  | settle (now : JsString)
  | clear (callbackThrows : Bool)

/-- A turn of the scan of a connection; one that does not fit the scan is no turn. -/
def turn (w : World δ) (connectionId : JsString) (t : Turn δ) : World δ :=
  match Table.find Task.connectionId w.tasks connectionId with
  | none => w
  | some task =>
      match task.state, t with
      | .discovering, .discover occurredAt diagnosticId scanned callbackThrows =>
          w.discover columns task occurredAt diagnosticId scanned callbackThrows
      | .discovering, .throws => w.become task.connectionId .failing
      | .discovered result, .settle now => w.settleDiscovery task result now
      | .failing, .clear callbackThrows => w.clear columns sha256 task callbackThrows
      | .cleared diagnostic, .settle now => w.settleFailure task diagnostic now
      | _, _ => w

/-! ### The startup reconciler -/

/-- `legacyAttemptId`. -/
def legacyAttemptId (connectionId : JsString) (diagnostic : ScanDiagnostic) : JsString :=
  js "legacy-contradiction-" ++
    sha256 (connectionId ++ 0 :: (diagnostic.diagnosticId ++ 0 :: diagnostic.occurredAt))

/-- `rowOnlyLegacyAttemptId`. -/
def rowOnlyLegacyAttemptId (connectionId evidenceAt : JsString) : JsString :=
  js "legacy-catalog-adoption-" ++ sha256 (connectionId ++ 0 :: evidenceAt)

/-- The adoption of a diagnostic. -/
def adoptInput (connectionId : JsString) (settledOutcome : SettledOutcome) (modelCount : ℕ)
    (diagnostic : ScanDiagnostic) : AdoptInput :=
  { connectionId, reconciliationVersion := targetVersion
    attemptId := diagnostic.scanCorrelationId, claimedAt := diagnostic.occurredAt
    settledAt := diagnostic.occurredAt, settledOutcome, modelCount
    safeOutcomeMessage := diagnostic.safeMessage, diagnosticId := some diagnostic.diagnosticId }

/-- The adoption of models without a diagnostic. -/
def adoptRowsInput (connectionId evidenceAt : JsString) (modelCount : ℕ) : AdoptInput :=
  { connectionId, reconciliationVersion := targetVersion
    attemptId := rowOnlyLegacyAttemptId sha256 connectionId evidenceAt, claimedAt := evidenceAt
    settledAt := evidenceAt, settledOutcome := .available, modelCount
    safeOutcomeMessage := legacyRowsAdoptedMessage, diagnosticId := none }

/-- An adoption, with the record that it returns. -/
def adopt (w : World δ) (input : AdoptInput) : World δ × Option ReconciliationRecord :=
  (w.ledger.adoptLegacyEvidence input).elim (w, none) fun adopted =>
    ({ w with ledger := adopted.2 }, some adopted.1)

/-- What a diagnostic says of the models that are stored. -/
def legacyOutcome {α : Type} (outcome : ScanOutcome) (models : List α) : SettledOutcome :=
  if outcome = .success then if models.isEmpty then .empty else .available else .failed

/-- `adoptLegacyEvidence`. -/
def adoptLegacyEvidence (w : World δ) (connectionId : JsString) (initialized : ReconciliationRecord)
    (callbackThrows : Bool) : World δ × Option ReconciliationRecord :=
  match w.store.listModelsForConnection columns connectionId,
      w.store.listDiagnostics connectionId 1 with
  | some [], some [] => (w, some initialized)
  | some (model :: models), some [] =>
      w.adopt (adoptRowsInput sha256 connectionId
        (latest ((model :: models).map ModelRecord.lastSuccessfulScanAt)) (model :: models).length)
  | some models, some (diagnostic :: _) =>
      if models.isEmpty = false ∧ diagnostic.outcome ≠ .success then
        let attemptId := legacyAttemptId sha256 connectionId diagnostic
        let cleared := w.store.failClosed columns connectionId attemptId
          (deterministicDiagnosticId sha256 .legacyContradiction connectionId attemptId)
          diagnostic.occurredAt legacyContradictionMessage callbackThrows
        match cleared.2 with
        | some diagnostic =>
            { w with store := cleared.1 }.adopt (adoptInput connectionId .failed 0 diagnostic)
        | none => ({ w with store := cleared.1 }, none)
      else
        let outcome := legacyOutcome diagnostic.outcome models
        w.adopt (adoptInput connectionId outcome
          (if outcome = .available then models.length else 0) diagnostic)
  | _, _ => (w, none)

/-- `isStartupEligible`. -/
def isStartupEligible (record : ReconciliationRecord) : Bool :=
  if record.reconciliationVersion > targetVersion then false
  else if record.reconciliationVersion < targetVersion then record.scanState != .scanning
  else record.scanState == .neverScanned

/-- The record of a connection, initialized if there is none. -/
def initialized (ledger : Ledger) (connectionId : JsString) :
    Option (ReconciliationRecord × Ledger) := do
  match ← ledger.read connectionId with
  | some record => return (record, ledger)
  | none =>
      ledger.initializeNeverScanned { connectionId, reconciliationVersion := targetVersion }

/-- One turn of the loop over the connections, until its scan waits for the provider.
The process may stop after the row was initialized. -/
def startConnection (w : World δ) (connectionId attemptId claimedAt : JsString)
    (active stops callbackThrows : Bool) : World δ :=
  match initialized w.ledger connectionId with
  | none => w.stop
  | some (record, ledger) =>
      if stops then { w with ledger }.stop
      else
        let adopted := if record.reconciliationVersion = targetVersion ∧
            record.scanState = .neverScanned then
          { w with ledger }.adoptLegacyEvidence columns sha256 connectionId record callbackThrows
          else ({ w with ledger }, some record)
        match adopted.2 with
        | none => adopted.1.stop
        | some record =>
            if isStartupEligible record then
              adopted.1.request connectionId .startupReconciliation attemptId claimedAt active
            else adopted.1

/-! ### Steps -/

inductive Step (δ : Type)
  | restart
  | clearInterrupted (callbackThrows : Bool)
  | settleInterrupted (now : JsString)
  | serve
  | startConnection (connectionId attemptId claimedAt : JsString)
      (active stops callbackThrows : Bool)
  | request (connectionId : JsString) (trigger : ScanTrigger) (attemptId claimedAt : JsString)
      (active : Bool)
  | turn (connectionId : JsString) (t : Turn δ)

/-- Only a process that runs takes requests. -/
def isRunning (w : World δ) : Bool :=
  match w.phase with
  | .running => true
  | _ => false

def step (w : World δ) : Step δ → World δ
  | .restart => w.restart
  | .clearInterrupted callbackThrows => w.clearInterrupted columns sha256 callbackThrows
  | .settleInterrupted now => w.settleInterrupted now
  | .serve => w.serve
  | .startConnection connectionId attemptId claimedAt active stops callbackThrows =>
      if w.isRunning then
        w.startConnection columns sha256 connectionId attemptId claimedAt active stops callbackThrows
      else w
  | .request connectionId trigger attemptId claimedAt active =>
      if w.isRunning then w.request connectionId trigger attemptId claimedAt active else w
  | .turn connectionId t => w.turn columns sha256 connectionId t

/-- Before the first process: no record of a scan, and whatever models there are. -/
def initial (store : ModelStore δ) : World δ :=
  { ledger := [], store, tasks := [], phase := .stopped }

def run (store : ModelStore δ) (steps : List (Step δ)) : World δ :=
  steps.foldl (step columns sha256) (initial store)

end World

end Parameters

end Hepha.Catalog
