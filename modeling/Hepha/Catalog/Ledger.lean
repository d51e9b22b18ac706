import Hepha.Catalog.Contracts
import Hepha.Lib.Table
import Mathlib.Data.List.Lex
import Mathlib.Data.List.Sort

/-!
# The catalog reconciliation ledger

The ledger has one current row for each connection.  A scan claims the row with
an attempt of its own, and whoever holds the attempt settles it.

A text that is bound to a column or looked up goes through UTF-8.  An operation
that throws is `none`; its transaction is rolled back.
-/

namespace Hepha.Catalog

/-- The rows of `catalog_reconciliation_ledger`; every column is a member of the record. -/
abbrev Ledger := List ReconciliationRecord

inductive ClaimResult
  | claimed (record : ReconciliationRecord)
  | alreadyScanning (record : ReconciliationRecord)
  | settledForVersion (record : ReconciliationRecord)
deriving DecidableEq

namespace Ledger

/-- `rowToRecord`. -/
def rowToRecord (row : ReconciliationRecord) : Option ReconciliationRecord :=
  if isReconciliationRecord row then some row else none

/-- `readWithinTransaction`. -/
def readWithinTransaction (ledger : Ledger) (connectionId : JsString) :
    Option (Option ReconciliationRecord) :=
  match Table.find ReconciliationRecord.connectionId ledger connectionId.toWellFormed with
  | none => some none
  | some row => (rowToRecord row).map some

def requireRecord (ledger : Ledger) (connectionId : JsString) : Option ReconciliationRecord :=
  (ledger.readWithinTransaction connectionId).join

def replace (ledger : Ledger) (record : ReconciliationRecord) : Option Ledger :=
  if isReconciliationRecord record then
    some (Table.upsert ReconciliationRecord.connectionId ledger record.stored)
  else none

/-- The row of `insertNever`. -/
def neverScannedRow (connectionId : JsString) (reconciliationVersion : ℕ) :
    ReconciliationRecord :=
  { connectionId := connectionId.toWellFormed, reconciliationVersion, scanState := .neverScanned
    trigger := none, attemptId := none, claimedAt := none, settledAt := none
    settledOutcome := none, modelCount := none, outcomeCode := none, safeOutcomeMessage := none
    diagnosticId := none }

def read (ledger : Ledger) (connectionId : JsString) : Option (Option ReconciliationRecord) :=
  if isBoundedString connectionId then ledger.readWithinTransaction connectionId else none

def list (ledger : Ledger) : Option (List ReconciliationRecord) :=
  (ledger.mapM rowToRecord).map fun records =>
    records.insertionSort fun left right => left.connectionId ≤ right.connectionId

def listInterruptedClaims (ledger : Ledger) : Option (List ReconciliationRecord) :=
  ledger.list.map fun records => records.filter fun record => record.scanState = .scanning

def initializeNeverScanned (ledger : Ledger) (input : InitializeInput) :
    Option (ReconciliationRecord × Ledger) := do
  guard (isInitializeInput input)
  match ← ledger.readWithinTransaction input.connectionId with
  | some existing => return (existing, ledger)
  | none =>
      let after ← Table.insert ReconciliationRecord.connectionId ledger
        (neverScannedRow input.connectionId input.reconciliationVersion)
      return (← requireRecord after input.connectionId, after)

def adoptLegacyEvidence (ledger : Ledger) (input : AdoptInput) :
    Option (ReconciliationRecord × Ledger) := do
  guard (isAdoptInput input)
  let existing ← ledger.readWithinTransaction input.connectionId
  guard (existing.all fun record => record.reconciliationVersion == input.reconciliationVersion &&
    record.scanState == .neverScanned)
  let after ← ledger.replace (adoptionRecord input)
  return (← requireRecord after input.connectionId, after)

/-- The record of a claim. -/
def claimedRecord (input : ClaimInput) : ReconciliationRecord :=
  { connectionId := input.connectionId, reconciliationVersion := input.reconciliationVersion
    scanState := .scanning, trigger := some input.trigger, attemptId := some input.attemptId
    claimedAt := some input.claimedAt, settledAt := none, settledOutcome := none
    modelCount := none, outcomeCode := none, safeOutcomeMessage := none, diagnosticId := none }

/-- What `claimAttempt` returns without a new claim, if it does. -/
def refuses (existing : ReconciliationRecord) (input : ClaimInput) : Option ClaimResult :=
  if existing.scanState = .scanning then some (.alreadyScanning existing)
  else if existing.reconciliationVersion = input.reconciliationVersion ∧
      input.mode = .eligibleOnly ∧ existing.isSettled then
    some (.settledForVersion existing)
  else none

def claimAttempt (ledger : Ledger) (input : ClaimInput) : Option (ClaimResult × Ledger) := do
  guard (isClaimInput input)
  let existing ← ledger.readWithinTransaction input.connectionId
  match existing.bind fun record => refuses record input with
  | some result => return (result, ledger)
  | none =>
      guard (existing.all fun record => record.reconciliationVersion ≤ input.reconciliationVersion)
      let after ← ledger.replace (claimedRecord input)
      return (.claimed (← requireRecord after input.connectionId), after)

/-- The record of a settlement. -/
def settledRecord (existing : ReconciliationRecord) (input : SettleInput) :
    ReconciliationRecord :=
  { existing with
    scanState := input.settledOutcome.scanState
    settledAt := some input.settledAt
    settledOutcome := some input.settledOutcome
    modelCount := some input.modelCount
    outcomeCode := some input.outcomeCode
    safeOutcomeMessage := some input.safeOutcomeMessage
    diagnosticId := some input.diagnosticId }

/-- The row is the open claim that the input settles. -/
def holds (existing : ReconciliationRecord) (input : SettleInput) : Bool :=
  existing.scanState == .scanning && existing.reconciliationVersion == input.reconciliationVersion &&
    existing.attemptId == some input.attemptId &&
    existing.claimedAt.any fun claimedAt => !isBefore input.settledAt claimedAt

def settleAttempt (ledger : Ledger) (input : SettleInput) :
    Option (ReconciliationRecord × Ledger) := do
  guard (isSettleInput input)
  let existing ← (← ledger.readWithinTransaction input.connectionId)
  guard (holds existing input)
  let after ← ledger.replace (settledRecord existing input)
  return (← requireRecord after input.connectionId, after)

end Ledger

end Hepha.Catalog
