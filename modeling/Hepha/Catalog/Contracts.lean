import Hepha.Js.Collections
import Hepha.Js.Date
import Hepha.Js.Value

/-!
# Records of the catalog reconciliation

The reconciliation ledger has one record for each connection: that it was never
scanned, that it is being scanned, or what the last scan came to.  The inputs of
the ledger and the diagnostics of a scan are here as well.

The guards of the source narrow unknown values to these types: the keys of a
value, the types of its members and the literals are in the types, and what is
checked of the contents is in the functions below.
-/

namespace Hepha.Catalog

open JsValue (maxSafeInteger)

/-- `MAX_CATALOG_RECONCILIATION_TEXT_LENGTH`, also `MAX_CATALOG_TEXT_LENGTH`. -/
def maxTextLength : ℕ := 10000

/-- `CATALOG_RECONCILIATION_TARGET_VERSION`. -/
def targetVersion : ℕ := 2

inductive ScanState
  | neverScanned
  | scanning
  | available
  | empty
  | failed
deriving DecidableEq, Repr

inductive ScanTrigger
  | startupReconciliation
  | connectionCreated
  | materialConnectionChange
  | connectionReactivated
  | credentialChanged
  | individualRetry
  | scanActive
deriving DecidableEq, Repr

inductive SettledOutcome
  | available
  | empty
  | failed
deriving DecidableEq, Repr

/-- The state of a record with the outcome. -/
def SettledOutcome.scanState : SettledOutcome → ScanState
  | available => .available
  | empty => .empty
  | failed => .failed

/-- `CatalogScanOutcome`. -/
inductive ScanOutcome
  | success
  | unavailable
  | authenticationFailed
  | timeout
  | redirectRejected
  | malformedResponse
  | normalizationFailed
  | vaultUnavailable
  | notScannable
  | processFailed
deriving DecidableEq, Repr

inductive OutcomeCode
  | scan (outcome : ScanOutcome)
  | interruptedScan
  | coordinatorFailure
  | legacyEvidenceAdopted
deriving DecidableEq, Repr

inductive ClaimMode
  | eligibleOnly
  | forceSettled
deriving DecidableEq, Repr

/-! ## Checks -/

def isBoundedString (value : JsString) : Bool :=
  0 < value.length && value.length ≤ maxTextLength

def isPositiveInteger (value : ℕ) : Bool :=
  value ≤ maxSafeInteger && 0 < value

def isNonNegativeInteger (value : ℕ) : Bool :=
  value ≤ maxSafeInteger

def isCanonicalIsoTimestamp (value : JsString) : Bool :=
  (Date.canonicalTime value).isSome

/-- `Date.parse(left) < Date.parse(right)`, of canonical timestamps. -/
def isBefore (left right : JsString) : Bool :=
  match Date.canonicalTime left, Date.canonicalTime right with
  | some leftTime, some rightTime => leftTime < rightTime
  | _, _ => false

theorem isBefore_self (value : JsString) : isBefore value value = false := by
  unfold isBefore
  cases Date.canonicalTime value <;> simp

@[simp] theorem isBoundedString_toWellFormed (value : JsString) :
    isBoundedString value.toWellFormed = isBoundedString value := by
  simp [isBoundedString]

/-! ## The record -/

/-- `CatalogReconciliationRecord`. -/
structure ReconciliationRecord where
  connectionId : JsString
  reconciliationVersion : ℕ
  scanState : ScanState
  trigger : Option ScanTrigger
  attemptId : Option JsString
  claimedAt : Option JsString
  settledAt : Option JsString
  settledOutcome : Option SettledOutcome
  modelCount : Option ℕ
  outcomeCode : Option OutcomeCode
  safeOutcomeMessage : Option JsString
  diagnosticId : Option JsString
deriving DecidableEq

def outcomeMatchesState (state : SettledOutcome) (modelCount : ℕ) (outcomeCode : OutcomeCode) :
    Bool :=
  match state with
  | .available =>
      0 < modelCount && (outcomeCode == .scan .success || outcomeCode == .legacyEvidenceAdopted)
  | .empty =>
      modelCount == 0 && (outcomeCode == .scan .success || outcomeCode == .legacyEvidenceAdopted)
  | .failed => modelCount == 0 && outcomeCode != .scan .success

namespace ReconciliationRecord

/-- The members that a claim fills in are null. -/
def unclaimed (value : ReconciliationRecord) : Bool :=
  value.trigger.isNone && value.attemptId.isNone && value.claimedAt.isNone

/-- The members that a settlement fills in are null. -/
def unsettled (value : ReconciliationRecord) : Bool :=
  value.settledAt.isNone && value.settledOutcome.isNone && value.modelCount.isNone &&
    value.outcomeCode.isNone && value.safeOutcomeMessage.isNone && value.diagnosticId.isNone

/-- The checks of a record with the state of an outcome. -/
def settledCoherent (value : ReconciliationRecord) (state : SettledOutcome) : Bool :=
  match value.trigger, value.claimedAt, value.settledAt, value.modelCount, value.outcomeCode with
  | some trigger, some claimedAt, some settledAt, some modelCount, some outcomeCode =>
      value.attemptId.isSome && value.settledOutcome == some state &&
        value.safeOutcomeMessage.isSome && !isBefore settledAt claimedAt &&
        (outcomeCode != .legacyEvidenceAdopted ||
          trigger == .startupReconciliation && claimedAt == settledAt) &&
        outcomeMatchesState state modelCount outcomeCode &&
        (value.diagnosticId.isSome ||
          state == .available && outcomeCode == .legacyEvidenceAdopted)
  | _, _, _, _, _ => false

/-- The checks that depend on the state. -/
def stateCoherent (value : ReconciliationRecord) : Bool :=
  match value.scanState with
  | .neverScanned => value.unclaimed && value.unsettled
  | .scanning =>
      value.trigger.isSome && value.attemptId.isSome && value.claimedAt.isSome && value.unsettled
  | .available => value.settledCoherent .available
  | .empty => value.settledCoherent .empty
  | .failed => value.settledCoherent .failed

/-- `isSettled`. -/
def isSettled (value : ReconciliationRecord) : Bool :=
  value.scanState == .available || value.scanState == .empty || value.scanState == .failed

/-- The record as the columns of its row keep it. -/
def stored (value : ReconciliationRecord) : ReconciliationRecord :=
  { value with
    connectionId := value.connectionId.toWellFormed
    attemptId := value.attemptId.map JsString.toWellFormed
    claimedAt := value.claimedAt.map JsString.toWellFormed
    settledAt := value.settledAt.map JsString.toWellFormed
    safeOutcomeMessage := value.safeOutcomeMessage.map JsString.toWellFormed
    diagnosticId := value.diagnosticId.map JsString.toWellFormed }

end ReconciliationRecord

/-- `isCatalogReconciliationRecord`. -/
def isReconciliationRecord (value : ReconciliationRecord) : Bool :=
  isBoundedString value.connectionId && isPositiveInteger value.reconciliationVersion &&
    value.attemptId.all isBoundedString && value.claimedAt.all isCanonicalIsoTimestamp &&
    value.settledAt.all isCanonicalIsoTimestamp && value.modelCount.all isNonNegativeInteger &&
    value.safeOutcomeMessage.all isBoundedString && value.diagnosticId.all isBoundedString &&
    value.stateCoherent

theorem toWellFormed_of_isCanonical {value : Option JsString}
    (h : value.all isCanonicalIsoTimestamp = true) : value.map JsString.toWellFormed = value := by
  cases value with
  | none => rfl
  | some text => exact congrArg some (Date.toWellFormed_of_canonicalTime h)

theorem all_isBoundedString_toWellFormed (value : Option JsString) :
    (value.map JsString.toWellFormed).all isBoundedString = value.all isBoundedString := by
  cases value <;> simp

/-- What is stored of a valid record is valid. -/
theorem isReconciliationRecord_stored {value : ReconciliationRecord}
    (h : isReconciliationRecord value = true) : isReconciliationRecord value.stored = true := by
  have hclaimed : value.claimedAt.map JsString.toWellFormed = value.claimedAt :=
    toWellFormed_of_isCanonical (by simp only [isReconciliationRecord, Bool.and_eq_true] at h; tauto)
  have hsettled : value.settledAt.map JsString.toWellFormed = value.settledAt :=
    toWellFormed_of_isCanonical (by simp only [isReconciliationRecord, Bool.and_eq_true] at h; tauto)
  have hcoherent : value.stored.stateCoherent = value.stateCoherent := by
    simp only [ReconciliationRecord.stateCoherent, ReconciliationRecord.unclaimed,
      ReconciliationRecord.unsettled, ReconciliationRecord.settledCoherent,
      ReconciliationRecord.stored, hclaimed, hsettled, Option.isNone_map, Option.isSome_map]
  rw [← h]
  simp only [isReconciliationRecord, hcoherent]
  simp only [ReconciliationRecord.stored, hclaimed, hsettled, all_isBoundedString_toWellFormed,
    isBoundedString_toWellFormed]

@[simp] theorem stored_stored (value : ReconciliationRecord) : value.stored.stored = value.stored := by
  have hmap (text : Option JsString) :
      (text.map JsString.toWellFormed).map JsString.toWellFormed =
        text.map JsString.toWellFormed := by
    cases text <;> simp
  simp only [ReconciliationRecord.stored, hmap, JsString.toWellFormed_toWellFormed]

/-! ## Inputs of the ledger -/

/-- `InitializeCatalogReconciliationInput`. -/
structure InitializeInput where
  connectionId : JsString
  reconciliationVersion : ℕ
deriving DecidableEq

def isInitializeInput (value : InitializeInput) : Bool :=
  isBoundedString value.connectionId && value.reconciliationVersion == targetVersion

/-- `AdoptCatalogLegacyEvidenceInput`. -/
structure AdoptInput where
  connectionId : JsString
  reconciliationVersion : ℕ
  attemptId : JsString
  claimedAt : JsString
  settledAt : JsString
  settledOutcome : SettledOutcome
  modelCount : ℕ
  safeOutcomeMessage : JsString
  diagnosticId : Option JsString
deriving DecidableEq

/-- `adoptionRecord`, also `legacyAdoptionRecord`. -/
def adoptionRecord (input : AdoptInput) : ReconciliationRecord :=
  { connectionId := input.connectionId
    reconciliationVersion := input.reconciliationVersion
    scanState := input.settledOutcome.scanState
    trigger := some .startupReconciliation
    attemptId := some input.attemptId
    claimedAt := some input.claimedAt
    settledAt := some input.settledAt
    settledOutcome := some input.settledOutcome
    modelCount := some input.modelCount
    outcomeCode := some .legacyEvidenceAdopted
    safeOutcomeMessage := some input.safeOutcomeMessage
    diagnosticId := input.diagnosticId }

def isAdoptInput (value : AdoptInput) : Bool :=
  isBoundedString value.connectionId && value.reconciliationVersion == targetVersion &&
    isBoundedString value.attemptId && isCanonicalIsoTimestamp value.claimedAt &&
    isCanonicalIsoTimestamp value.settledAt && value.claimedAt == value.settledAt &&
    isNonNegativeInteger value.modelCount && isBoundedString value.safeOutcomeMessage &&
    value.diagnosticId.all isBoundedString && isReconciliationRecord (adoptionRecord value)

/-- `ClaimCatalogScanAttemptInput`. -/
structure ClaimInput where
  connectionId : JsString
  reconciliationVersion : ℕ
  trigger : ScanTrigger
  attemptId : JsString
  claimedAt : JsString
  mode : ClaimMode
deriving DecidableEq

def isClaimInput (value : ClaimInput) : Bool :=
  isBoundedString value.connectionId && isPositiveInteger value.reconciliationVersion &&
    isBoundedString value.attemptId && isCanonicalIsoTimestamp value.claimedAt

/-- `SettleCatalogScanAttemptInput`. -/
structure SettleInput where
  connectionId : JsString
  reconciliationVersion : ℕ
  attemptId : JsString
  settledAt : JsString
  settledOutcome : SettledOutcome
  modelCount : ℕ
  outcomeCode : OutcomeCode
  safeOutcomeMessage : JsString
  diagnosticId : JsString
deriving DecidableEq

def isSettleInput (value : SettleInput) : Bool :=
  isBoundedString value.connectionId && isPositiveInteger value.reconciliationVersion &&
    isBoundedString value.attemptId && isCanonicalIsoTimestamp value.settledAt &&
    isNonNegativeInteger value.modelCount && value.outcomeCode != .legacyEvidenceAdopted &&
    isBoundedString value.safeOutcomeMessage && isBoundedString value.diagnosticId &&
    outcomeMatchesState value.settledOutcome value.modelCount value.outcomeCode

end Hepha.Catalog
