import Hepha.Lib.Table
import Hepha.Lib.Transaction
import Hepha.Rollout.Contracts
import Mathlib.Data.List.Lex
import Mathlib.Data.List.Sort
import Mathlib.Data.Prod.Lex

/-!
# The governance rollout store

The store keeps parity receipts, migration audits and pilot events in tables
that are append-only.  The state of the pilot is not kept: `readStatus` replays
the events of the project, and an event carries the state that it leads to.

A store is opened for one project.  The constructor (`ensureSchema`) creates the
tables or verifies them, with the read-back hash of every audit, and refuses a
database in which another project has newer evidence; it then appends an audit
of its own and verifies it in a connection of its own.
-/

namespace Hepha.Rollout

open JsValue (maxSafeInteger)

/-! ## The tables -/

/-- A row of `hepha_governance_pilot_events`. -/
structure PilotEventRow where
  projectId : JsString
  eventVersion : ℕ
  pilotId : JsString
  eventKind : EventKind
  state : EventState
  payload : EventPayload
  occurredAt : JsString
deriving DecidableEq

/-- The four tables, which are created together with their triggers. -/
structure Tables where
  migrations : List ℕ
  parityReceipts : List ParityReceipt
  migrationAudit : List MigrationAudit
  pilotEvents : List PilotEventRow
deriving DecidableEq

/-- A database in which the tables may not have been created. -/
abbrev Database := Option Tables

inductive RefusalCode
  | invalidInput
  | persistenceFailed
deriving DecidableEq, Repr

/-- `order by time desc, id desc`. -/
def newestFirst {ρ : Type*} (time id : ρ → JsString) (rows : List ρ) : List ρ :=
  rows.insertionSort fun a b =>
    toLex ((time b).codePoints, (id b).codePoints) ≤ toLex ((time a).codePoints, (id a).codePoints)

theorem mem_newestFirst {ρ : Type*} {time id : ρ → JsString} {rows : List ρ} {r : ρ} :
    r ∈ newestFirst time id rows ↔ r ∈ rows :=
  List.mem_insertionSort _

/-- `readParity`. -/
def Tables.readParity (t : Tables) (receiptId : JsString) : Option ParityReceipt :=
  (Table.find ParityReceipt.receiptId t.parityReceipts receiptId).filter validParity

/-- `readAudit`. -/
def Tables.readAudit (t : Tables) (auditId : JsString) : Option MigrationAudit :=
  (Table.find MigrationAudit.auditId t.migrationAudit auditId).filter validAudit

/-! ## Status -/

inductive Mode
  | disabled
  | active
  | needsHuman
deriving DecidableEq, Repr

def EventState.mode : EventState → Mode
  | active => .active
  | needsHuman => .needsHuman

/-- `GovernancePilotStatus`. -/
structure PilotStatus where
  pilotId : JsString
  featureId : JsString
  phaseContractId : JsString
  taskId : JsString
  contractVersion : ℕ
  pilotConfigHash : JsString
  approvalReceiptId : JsString
  approvedAt : JsString
  expiresAt : JsString
  lastOutcome : JsString
deriving DecidableEq

/-- What `readStatus` makes of a receipt. -/
structure ParityView where
  receiptId : JsString
  sourceVersionHash : JsString
  authoritativeHash : JsString
  dashboardHash : JsString
  result : ParityResult
  differenceCategories : List DifferenceCategory
  comparedAt : JsString
  validUntil : JsString
deriving DecidableEq

/-- What `readStatus` makes of an audit. -/
structure MigrationView where
  auditId : JsString
  fromVersion : ℕ
  toVersion : ℕ
  outcome : MigrationOutcome
  completedAt : JsString
  readBackHash : Option JsString
deriving DecidableEq

/-- The state of the loop over the events. -/
structure PilotState where
  mode : Mode
  eventVersion : ℕ
  pilot : Option PilotStatus
deriving DecidableEq

/-- `GovernanceRolloutStatus`. -/
structure Status extends PilotState where
  parity : Option ParityView
  migration : Option MigrationView
deriving DecidableEq

def PilotApproval.status (a : PilotApproval) : PilotStatus :=
  { pilotId := a.pilotId, featureId := a.featureId, phaseContractId := a.phaseContractId
    taskId := a.taskId, contractVersion := a.contractVersion
    pilotConfigHash := a.pilotConfigHash, approvalReceiptId := a.approvalReceiptId
    approvedAt := a.approvedAt, expiresAt := a.expiresAt, lastOutcome := js "PILOT_ADMITTED" }

def ParityReceipt.view (p : ParityReceipt) : ParityView :=
  { receiptId := p.receiptId, sourceVersionHash := p.sourceVersionHash
    authoritativeHash := p.authoritativeHash, dashboardHash := p.dashboardHash
    result := p.result, differenceCategories := p.differenceCategories
    comparedAt := p.comparedAt, validUntil := p.validUntil }

def MigrationAudit.view (m : MigrationAudit) : MigrationView :=
  { auditId := m.auditId, fromVersion := m.fromVersion, toVersion := m.toVersion
    outcome := m.outcome, completedAt := m.completedAt, readBackHash := m.readBackHash }

/-- What an event makes of the pilot, `none` where its payload does not fit. -/
def PilotEventRow.outcome (row : PilotEventRow) (s : PilotState) :
    Option (Mode × PilotStatus) :=
  match row.eventKind, row.payload with
  | .pilotAdmitted, .approval approval =>
      if approval.pilotId = row.pilotId ∧ approval.resultingVersion = s.eventVersion + 1 ∧
          approval.expectedVersion = s.eventVersion then
        some (.active, approval.status)
      else none
  | .pilotAdmitted, .outcome _ => none
  | _, .approval _ => none
  | _, .outcome lastOutcome =>
      s.pilot.map fun pilot => (row.state.mode, { pilot with lastOutcome })

/-- One turn of the loop over the events. -/
def PilotState.next (s : PilotState) (row : PilotEventRow) : Option PilotState :=
  if row.eventVersion ≤ maxSafeInteger ∧ row.eventVersion = s.eventVersion + 1 ∧
      identifier row.pilotId ∧ utc row.occurredAt ∧ validPayload row.eventKind row.payload then
    (row.outcome s).map fun (mode, pilot) =>
      { mode, eventVersion := s.eventVersion + 1, pilot := some pilot }
  else none

def PilotState.initial : PilotState :=
  { mode := .disabled, eventVersion := 0, pilot := none }

/-- The loop over the events. -/
def replay (events : List PilotEventRow) : Option PilotState :=
  events.foldlM PilotState.next .initial

namespace Tables

/-- The events of a project, `order by event_version`. -/
def eventsOf (t : Tables) (projectId : JsString) : List PilotEventRow :=
  (t.pilotEvents.filter (·.projectId = projectId)).insertionSort
    fun a b => a.eventVersion ≤ b.eventVersion

/-- The latest receipt of a project, `none` where it cannot be read. -/
def latestParity (t : Tables) (projectId : JsString) : Option (Option ParityReceipt) :=
  match (newestFirst ParityReceipt.comparedAt ParityReceipt.receiptId
      (t.parityReceipts.filter (·.projectId = projectId))).head? with
  | none => some none
  | some row => ((t.readParity row.receiptId).filter (·.projectId = projectId)).map some

/-- The latest audit of a project, `none` where it cannot be read. -/
def latestMigration (t : Tables) (projectId : JsString) : Option (Option MigrationAudit) :=
  match (newestFirst MigrationAudit.completedAt MigrationAudit.auditId
      (t.migrationAudit.filter (·.projectId = projectId))).head? with
  | none => some none
  | some row => ((t.readAudit row.auditId).filter (·.projectId = projectId)).map some

/-- `readStatus`, without the check of the project. -/
def status (t : Tables) (projectId : JsString) : Option Status := do
  let parity ← t.latestParity projectId
  let migration ← t.latestMigration projectId
  let state ← replay (t.eventsOf projectId)
  return { state with
    parity := parity.map ParityReceipt.view, migration := migration.map MigrationAudit.view }

/-- `readStatus`, of a store opened for `migrationProjectId`. -/
def readStatus (migrationProjectId : JsString) (t : Tables) (rawProjectId : JsString) :
    Except RefusalCode Status :=
  if !identifier rawProjectId || rawProjectId != migrationProjectId then .error .invalidInput
  else (t.status rawProjectId).elim (.error .persistenceFailed) .ok

end Tables

/-! ## Appending -/

/-- The transaction of `appendParityReceipt`. -/
def insertParity (raw : ParityReceipt) : Tx Tables RefusalCode ParityReceipt := do
  let t ← get
  let rows ← Tx.ofOption .persistenceFailed
    (Table.insert ParityReceipt.receiptId t.parityReceipts raw)
  modify fun t => { t with parityReceipts := rows }
  let t ← get
  let saved ← Tx.ofOption .persistenceFailed (t.readParity raw.receiptId)
  Tx.require .persistenceFailed (saved == raw)
  return saved

/-- `appendParityReceipt`, with the tables after it. -/
def appendParityReceipt (t : Tables) (raw : ParityReceipt) :
    Except RefusalCode ParityReceipt × Tables :=
  if validParity raw then Tx.atomically (insertParity raw) t else (.error .invalidInput, t)

/-- The row that `appendPilotEvent` inserts. -/
def PilotEventInput.row (raw : PilotEventInput) : PilotEventRow :=
  { projectId := raw.projectId, eventVersion := raw.expectedVersion + 1, pilotId := raw.pilotId
    eventKind := raw.eventKind, state := raw.state, payload := raw.payload
    occurredAt := raw.occurredAt }

/-- The primary key of `hepha_governance_pilot_events`. -/
def PilotEventRow.key (row : PilotEventRow) : JsString × ℕ :=
  (row.projectId, row.eventVersion)

/-- The transaction of `appendPilotEvent`. -/
def insertPilotEvent (migrationProjectId : JsString) (raw : PilotEventInput) :
    Tx Tables RefusalCode Status := do
  let t ← get
  let current ← Tx.ofOption .persistenceFailed
    (t.readStatus migrationProjectId raw.projectId).toOption
  Tx.require .persistenceFailed (current.eventVersion == raw.expectedVersion)
  let rows ← Tx.ofOption .persistenceFailed (Table.insert PilotEventRow.key t.pilotEvents raw.row)
  modify fun t => { t with pilotEvents := rows }
  let t ← get
  let saved ← Tx.ofOption .persistenceFailed
    (t.readStatus migrationProjectId raw.projectId).toOption
  Tx.require .persistenceFailed (saved.eventVersion == raw.expectedVersion + 1)
  return saved

/-- `appendPilotEvent`, with the tables after it. -/
def appendPilotEvent (migrationProjectId : JsString) (t : Tables) (raw : PilotEventInput) :
    Except RefusalCode Status × Tables :=
  if validPilotEvent raw && raw.projectId == migrationProjectId then
    Tx.atomically (insertPilotEvent migrationProjectId raw) t
  else (.error .invalidInput, t)

/-! ## Opening -/

/-- `validateInstalledSchema`. -/
def validateInstalledSchema (t : Tables) : Bool :=
  t.migrations == [1]

/-- What `migrationReadBackHash` hashes: the audit's id, and the schema. -/
def readBackText (auditId : JsString) : JsString :=
  js "\x7b\"auditId\":\"" ++ auditId ++ js ("\",\"migrationCount\":1,\"migrationVersions\":[1]," ++
    "\"tables\":[\"hepha_governance_rollout_schema_migrations\"," ++
    "\"hepha_governance_parity_receipts\",\"hepha_governance_migration_audit\"," ++
    "\"hepha_governance_pilot_events\"],\"triggers\":[" ++
    "\"trg_hepha_governance_migration_audit_no_delete\"," ++
    "\"trg_hepha_governance_migration_audit_no_update\"," ++
    "\"trg_hepha_governance_parity_receipts_no_delete\"," ++
    "\"trg_hepha_governance_parity_receipts_no_update\"," ++
    "\"trg_hepha_governance_pilot_events_no_delete\"," ++
    "\"trg_hepha_governance_pilot_events_no_update\"," ++
    "\"trg_hepha_governance_rollout_schema_migrations_no_delete\"," ++
    "\"trg_hepha_governance_rollout_schema_migrations_no_update\"],\"version\":1\x7d")

/-- A row of either evidence table. -/
structure Evidence where
  projectId : JsString
  occurredAt : JsString
  evidenceId : JsString

/-- The rows of both evidence tables, the newest first. -/
def Tables.evidence (t : Tables) : List Evidence :=
  newestFirst Evidence.occurredAt Evidence.evidenceId
    (t.parityReceipts.map (fun row => ⟨row.projectId, row.comparedAt, row.receiptId⟩) ++
      t.migrationAudit.map fun row => ⟨row.projectId, row.completedAt, row.auditId⟩)

/-- `Date.parse(left) > Date.parse(right)`. -/
def isLater (left right : JsString) : Bool :=
  match Date.parseUtc left, Date.parseUtc right with
  | some leftTime, some rightTime => rightTime < leftTime
  | _, _ => false

/-- `hasNewerForeignEvidence`, `none` where a row is invalid. -/
def hasNewerForeignEvidence (t : Tables) (projectId : JsString) : Option Bool :=
  if t.evidence.all fun row => identifier row.projectId && utc row.occurredAt &&
      identifier row.evidenceId then
    match t.evidence.find? (·.projectId ≠ projectId), t.evidence.find? (·.projectId = projectId)
    with
    | none, _ => some false
    | some _, none => some true
    | some newestForeign, some newestRequested =>
        some (isLater newestForeign.occurredAt newestRequested.occurredAt)
  else none

section Opening

variable (sha256 : JsString → HexDigest)

/-- `migrationReadBackHash`, `none` where it throws. -/
def migrationReadBackHash (t : Tables) (auditId : JsString) : Option JsString :=
  if validateInstalledSchema t && identifier auditId then some (sha256 (readBackText auditId)).1
  else none

/-- The audit of an id reads back with its hash. -/
def Tables.verifies (t : Tables) (auditId : JsString) : Bool :=
  (migrationReadBackHash sha256 t auditId).any fun hash =>
    (t.readAudit auditId).any fun audit => audit.readBackHash == some hash

/-- The checks of tables that exist already. -/
def verifyExisting (migrationProjectId : JsString) (t : Tables) : Bool :=
  validateInstalledSchema t &&
    (t.migrationAudit.all fun row => identifier row.auditId && t.verifies sha256 row.auditId) &&
    hasNewerForeignEvidence t migrationProjectId == some false

/-- The tables as they are created. -/
def Tables.created : Tables :=
  { migrations := [1], parityReceipts := [], migrationAudit := [], pilotEvents := [] }

/-- The tables with an audit of the migration, `none` where the insert throws. -/
def recordAudit (migrationProjectId auditId startedAt completedAt : JsString) (fromVersion : ℕ)
    (outcome : MigrationOutcome) (t : Tables) : Option Tables := do
  let readBackHash ← migrationReadBackHash sha256 t auditId
  let rows ← Table.insert MigrationAudit.auditId t.migrationAudit
    { auditId, projectId := migrationProjectId, fromVersion, toVersion := 1, outcome, startedAt
      completedAt, readBackHash := some readBackHash, safeCode := none }
  return { t with migrationAudit := rows }

/-- `new GovernanceRolloutSqliteStore(…)`, whether it returns and the database
that it leaves.  A new audit is committed before a second connection verifies it. -/
def openStore (migrationProjectId : JsString) (recordCurrentAudit : Bool)
    (auditId startedAt completedAt : JsString) (database : Database) : Bool × Database :=
  let verified : Option Tables → Bool × Database
    | some t => (t.verifies sha256 auditId, some t)
    | none => (false, database)
  match database with
  | none =>
      verified (recordAudit sha256 migrationProjectId auditId startedAt completedAt 0 .applied
        .created)
  | some t =>
      if verifyExisting sha256 migrationProjectId t then
        if recordCurrentAudit then
          verified (recordAudit sha256 migrationProjectId auditId startedAt completedAt 1
            .alreadyCurrent t)
        else (true, database)
      else (false, database)

end Opening

end Hepha.Rollout
