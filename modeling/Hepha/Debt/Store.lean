import Hepha.Debt.Records
import Hepha.Js.Unicode
import Hepha.Lib.Replay
import Mathlib.Data.List.Sort
import Mathlib.Data.Prod.Lex
import Mathlib.Order.WithBot
import Mathlib.Data.List.Lex

/-!
# The architecture-debt store

Structured SQLite rows are the authority about architecture debt.  The tables
are append-only: a record has one row with what it was created with, rows for
its locations and its linked observations, and a list of events.  A record is
read by replaying its events over the created row, and every historical triage
payload is checked again on the way (`reconstruct`).

`commitArchitectureDebtOperation` is one transaction.  It reads the record
first, appends, reads the record back and commits only if that succeeds; the
optional callback is asked about the record that was read back.

A text column keeps a string as UTF-8, and so does a string bound to a query
(`toWellFormed`); a column that holds JSON keeps its text as it is.
-/

namespace Hepha.Debt

open JsString (toWellFormed)

/-! ## Triage events and decisions -/

inductive TriageOperation
  | confirm
  | reject
  | merge
  | reassign
  | defer
  | acceptRisk
  | planLink
  | close
  | supersede
deriving DecidableEq

/-- What the event of an operation has besides the common members. -/
inductive TriageDetail
  | confirm (ownerId rationale risk architecturalBoundary : JsString) (priority : DebtPriority)
      (futureTouchTrigger : Trigger)
  | reject
  | merge (targetRecordId : JsString)
  | reassign (ownerId : JsString)
  | defer
  | acceptRisk (reviewTrigger : JsString)
  | planLink (featureId phaseTask : JsString)
  | close (closureEvidence : JsString)
  | supersede (targetRecordId : JsString)
deriving DecidableEq

def TriageDetail.operation : TriageDetail → TriageOperation
  | confirm .. => .confirm
  | reject => .reject
  | merge _ => .merge
  | reassign _ => .reassign
  | defer => .defer
  | acceptRisk _ => .acceptRisk
  | planLink _ _ => .planLink
  | close _ => .close
  | supersede _ => .supersede

/-- `ArchitectureDebtTriageEvent`. -/
structure TriageEvent where
  detail : TriageDetail
  projectId : JsString
  recordId : JsString
  actorId : JsString
  reason : JsString
  expectedVersion : ℕ
  resultingVersion : ℕ
  occurredAt : JsString
deriving DecidableEq

/-- What a future-touch decision of each kind has besides the common members. -/
inductive DecisionDetail
  | remediate (owningPhaseTask acceptanceObligation : JsString)
  | prerequisite (prerequisiteFeatureId orderingEvidence completionCondition : JsString)
  | waiver (waiverExpiry reconsiderationTrigger : Option JsString)
  | nonInteraction (inspectedBoundary explanation : JsString)
deriving DecidableEq

/-- `FutureTouchDecision`. -/
structure FutureTouchDecision where
  decisionId : JsString
  projectId : JsString
  featureId : JsString
  touchPlanHash : JsString
  recordId : JsString
  recordVersion : ℕ
  selectorIds : List JsString
  actorId : JsString
  reason : JsString
  occurredAt : JsString
  detail : DecisionDetail
deriving DecidableEq

def DecisionDetail.valid : DecisionDetail → Bool
  | remediate owningPhaseTask acceptanceObligation =>
      identifier owningPhaseTask && text acceptanceObligation
  | prerequisite prerequisiteFeatureId orderingEvidence completionCondition =>
      identifier prerequisiteFeatureId && text orderingEvidence && text completionCondition
  | waiver waiverExpiry reconsiderationTrigger =>
      waiverExpiry.all utc && reconsiderationTrigger.all identifier &&
        (waiverExpiry.isSome || reconsiderationTrigger.isSome)
  | nonInteraction inspectedBoundary explanation =>
      identifier inspectedBoundary && text explanation

/-- `validPersistedFutureTouchDecision`, which the policy repeats as
`validDecision`. -/
def FutureTouchDecision.valid (d : FutureTouchDecision) : Bool :=
  identifier d.decisionId && identifier d.projectId && identifier d.featureId &&
    hash d.touchPlanHash && isRecordId d.recordId && stringList text d.selectorIds &&
    0 < d.selectorIds.length && identifier d.actorId && text d.reason && utc d.occurredAt &&
    d.detail.valid

/-- `ArchitectureDebtTouchPlanV1`. -/
structure TouchPlan where
  projectId : JsString
  featureId : JsString
  paths : List JsString
  symbols : List (JsString × JsString)
  ruleTags : List JsString
deriving DecidableEq

/-! ## Operations -/

structure CreateOperation where
  recordId : JsString
  projectId : JsString
  ownerId : JsString
  rationale : JsString
  risk : JsString
  architecturalBoundary : JsString
  futureTouchTrigger : Trigger
  discovery : Discovery
  rule : Rule
  locations : List Location
  createdAt : JsString

structure LinkOperation where
  expectedVersion : ℕ
  projectId : JsString
  recordId : JsString
  observation : ArtifactReference
  linkedAt : JsString

structure TriageCommit where
  expectedVersion : ℕ
  projectId : JsString
  recordId : JsString
  event : TriageEvent
  nextAggregate : Aggregate

structure DecisionCommit where
  projectId : JsString
  featureId : JsString
  touchPlanHash : JsString
  touchPlan : TouchPlan
  decision : FutureTouchDecision

inductive Operation
  | createPending (op : CreateOperation)
  | linkObservation (op : LinkOperation)
  | applyTriage (op : TriageCommit)
  | recordTouchDecision (op : DecisionCommit)

/-- `validCreate`. -/
def CreateOperation.valid (sha256 : JsString → HexDigest) (op : CreateOperation) : Bool :=
  isRecordId op.recordId && identifier op.projectId && identifier op.ownerId &&
    text op.rationale && text op.risk && identifier op.architecturalBoundary &&
    op.futureTouchTrigger.valid && op.discovery.valid && op.rule.valid &&
    0 < op.locations.length && op.locations.all Location.valid &&
    hasUniqueValues (op.locations.map Location.locationId) &&
    setSize (canonicalLocationTuples op.locations) == op.locations.length && utc op.createdAt &&
    op.recordId == createArchitectureDebtRecordId sha256 op.projectId op.rule
      op.architecturalBoundary op.locations

/-- `validLink`. -/
def LinkOperation.valid (op : LinkOperation) : Bool :=
  identifier op.projectId && isRecordId op.recordId && op.observation.valid .debtObservation &&
    utc op.linkedAt

/-- `validTriage`. -/
def TriageCommit.valid (op : TriageCommit) : Bool :=
  identifier op.projectId && isRecordId op.recordId && op.nextAggregate.valid

/-- `validDecisionOperation`. -/
def DecisionCommit.valid (op : DecisionCommit) : Bool :=
  identifier op.projectId && identifier op.featureId && hash op.touchPlanHash && op.decision.valid

/-! ## Rows -/

structure DebtRow where
  recordId : JsString
  projectId : JsString
  ownerId : JsString
  rationale : JsString
  risk : JsString
  architecturalBoundary : JsString
  priority : DebtPriority
  prioritySource : PrioritySource
  trigger : Trigger
  discovery : Discovery
  rule : Rule
  createdAt : JsString

structure LocationRow where
  recordId : JsString
  locationId : JsString
  relativePath : JsString
  symbol : Option JsString
  endpoint : Option JsString
  ruleTags : List JsString

structure ObservationRow where
  recordId : JsString
  contentHash : JsString
  artifactId : JsString
  relativePath : JsString
  linkedAt : JsString
deriving DecidableEq

inductive EventKind
  | createPending
  | linkObservation
  | triage
deriving DecidableEq

structure EventRow where
  recordId : JsString
  eventVersion : ℕ
  eventKind : EventKind
  state : DebtState
  occurredAt : JsString
  payload : Option (TriageEvent × Aggregate)
deriving DecidableEq

structure TouchPlanRow where
  touchPlanHash : JsString
  projectId : JsString
  featureId : JsString
  touchPlan : TouchPlan

structure DecisionRow where
  decisionId : JsString
  recordId : JsString
  decision : FutureTouchDecision

/-- The tables of the store. -/
structure Store where
  debts : List DebtRow
  locations : List LocationRow
  observations : List ObservationRow
  events : List EventRow
  touchPlans : List TouchPlanRow
  decisions : List DecisionRow

def Store.empty : Store :=
  ⟨[], [], [], [], [], []⟩

/-! ## Reading a record -/

/-- `relative_path, symbol, location_id`, in the order of text columns; a missing
symbol comes first. -/
def LocationRow.key (row : LocationRow) : List ℕ ×ₗ WithBot (List ℕ) ×ₗ List ℕ :=
  toLex (row.relativePath.codePoints,
    toLex (row.symbol.map JsString.codePoints, row.locationId.codePoints))

/-- `linked_at, content_hash`, in the order of text columns. -/
def ObservationRow.key (row : ObservationRow) : List ℕ ×ₗ List ℕ :=
  toLex (row.linkedAt.codePoints, row.contentHash.codePoints)

def LocationRow.location (row : LocationRow) : Location :=
  ⟨row.locationId, row.relativePath, row.symbol, row.endpoint, row.ruleTags⟩

def ObservationRow.reference (row : ObservationRow) : ArtifactReference :=
  ⟨.debtObservation, row.artifactId, row.contentHash, row.relativePath⟩

/-- `validRoot`. -/
def DebtRow.valid (row : DebtRow) : Bool :=
  isRecordId row.recordId && identifier row.projectId && identifier row.ownerId &&
    text row.rationale && text row.risk && identifier row.architecturalBoundary &&
    row.prioritySource == .autoPendingDefault && utc row.createdAt

namespace Store

variable (s : Store) (recordId : JsString)

def locationRows : List LocationRow :=
  (s.locations.filter fun row => row.recordId = recordId).insertionSort
    fun a b => a.key ≤ b.key

def observationRows : List ObservationRow :=
  (s.observations.filter fun row => row.recordId = recordId).insertionSort
    fun a b => a.key ≤ b.key

/-- The events of a record, by version. -/
def eventRows : List EventRow :=
  (s.events.filter fun row => row.recordId = recordId).insertionSort
    fun a b => a.eventVersion ≤ b.eventVersion

/-- `readLocations`. -/
def readLocations : Option (List Location) :=
  let values := (s.locationRows recordId).map LocationRow.location
  if values.all Location.valid && 0 < values.length &&
      hasUniqueValues (values.map Location.locationId) &&
      setSize (canonicalLocationTuples values) == values.length then some values
  else none

/-- `readObservations`. -/
def readObservations : Option (List ArtifactReference) :=
  let rows := s.observationRows recordId
  let values := rows.map ObservationRow.reference
  if (rows.all fun row => utc row.linkedAt) &&
      values.all (ArtifactReference.valid .debtObservation) && 0 < values.length &&
      hasUniqueValues (values.map fun r => r.contentHash ++ 0 :: (r.artifactId ++ 0 ::
        r.relativePath)) then some values
  else none

end Store

/-- One turn of the loop of `reconstruct`: the record so far and the number of
links, and an event with its index. -/
def replayEvent (base : Aggregate) (acc : Aggregate × ℕ) (event : EventRow × ℕ) :
    Option (Aggregate × ℕ) :=
  let (row, index) := event
  let (current, linkCount) := acc
  if row.recordId = base.recordId ∧ row.eventVersion = index ∧ utc row.occurredAt = true then
    if index = 0 then
      if row.eventKind = .createPending ∧ row.state = .pendingTriage ∧ row.payload = none then
        some acc
      else none
    else
      match row.eventKind, row.payload with
      | .linkObservation, none =>
          if row.state = current.state then
            some ({ current with eventVersion := index }, linkCount + 1)
          else none
      | .triage, some (_, next) =>
          if next.valid = true ∧ next.recordId = base.recordId ∧ next.projectId = base.projectId ∧
              next.eventVersion = index ∧ next.state = row.state ∧
              next.observationReferences.length = base.observationReferences.length then
            some ({ next with observationReferences := base.observationReferences }, linkCount)
          else none
      | _, _ => none
  else none

/-- `reconstruct`. -/
def reconstruct (base : Aggregate) (events : List EventRow) : Option Aggregate :=
  if events = [] then none
  else
    match replay (replayEvent base) (base, 0) events with
    | none => none
    | some (current, linkCount) =>
        if linkCount + 1 = base.observationReferences.length ∧
            current.eventVersion + 1 = events.length ∧ current.valid = true then some current
        else none

namespace Store

variable (sha256 : JsString → HexDigest) (s : Store)

/-- The created row of a record of a project. -/
def debtRow (projectId recordId : JsString) : Option DebtRow :=
  s.debts.find? fun row => row.projectId = toWellFormed projectId ∧ row.recordId = recordId

/-- The record as it was created, with all that is linked to it now. -/
def base (root : DebtRow) (locations : List Location) (observations : List ArtifactReference) :
    Aggregate where
  recordId := root.recordId
  projectId := root.projectId
  eventVersion := 0
  state := .pendingTriage
  ownerId := root.ownerId
  rationale := root.rationale
  risk := root.risk
  architecturalBoundary := root.architecturalBoundary
  priority := root.priority
  prioritySource := root.prioritySource
  futureTouchTrigger := root.trigger
  discovery := root.discovery
  rule := root.rule
  locations := locations
  observationReferences := observations
  duplicateOfRecordId := none
  supersededByRecordId := none

/-- `getArchitectureDebtAggregate`. -/
def getAggregate (projectId recordId : JsString) : Option Aggregate := do
  guard (identifier projectId && isRecordId recordId)
  let root ← s.debtRow projectId recordId
  guard root.valid
  let locations ← s.readLocations root.recordId
  let observations ← s.readObservations root.recordId
  guard (root.trigger.valid && root.discovery.valid && root.rule.valid)
  guard (observations.head? = some root.discovery.observation)
  guard (root.recordId = createArchitectureDebtRecordId sha256 root.projectId root.rule
    root.architecturalBoundary locations)
  reconstruct (base root locations observations) (s.eventRows root.recordId)

/-! ## Committing an operation -/

inductive RefusalCode
  | invalidInput
  | staleVersion
  | persistenceFailed
deriving DecidableEq

/-- `ArchitectureDebtCommitResult`. -/
inductive CommitResult
  | committed (aggregate : Aggregate)
  | decisionCommitted
  | refusal (code : RefusalCode)
deriving DecidableEq

def RefusalCode.message : RefusalCode → JsString
  | invalidInput => js "Architecture-debt input is invalid."
  | staleVersion => js "Architecture-debt record version is stale."
  | persistenceFailed => js "Architecture-debt storage could not persist the operation."

/-- The location rows of a record, inserted one after the other. -/
def insertLocations (recordId : JsString) : List Location → List LocationRow →
    Option (List LocationRow)
  | [], rows => some rows
  | l :: rest, rows =>
      let row : LocationRow := ⟨recordId, toWellFormed l.locationId, toWellFormed l.relativePath,
        l.symbol.map toWellFormed, l.endpoint.map toWellFormed, l.ruleTags⟩
      if rows.all fun r => r.recordId ≠ recordId || (r.locationId ≠ row.locationId &&
          !(r.relativePath == row.relativePath && r.symbol.isSome && r.symbol == row.symbol)) then
        insertLocations recordId rest (rows ++ [row])
      else none

/-- An observation row: neither its hash nor its artifact is linked yet. -/
def insertObservation (recordId : JsString) (observation : ArtifactReference)
    (linkedAt : JsString) : Option Store :=
  let row : ObservationRow := ⟨recordId, observation.contentHash,
    toWellFormed observation.artifactId, toWellFormed observation.relativePath, linkedAt⟩
  if s.observations.all fun r => r.recordId ≠ recordId || (r.contentHash ≠ row.contentHash &&
      !(r.artifactId == row.artifactId && r.relativePath == row.relativePath)) then
    some { s with observations := s.observations ++ [row] }
  else none

/-- An event row: its version is the next primary key of the record. -/
def insertEvent (row : EventRow) : Option Store :=
  if s.events.all fun r => r.recordId ≠ row.recordId || r.eventVersion ≠ row.eventVersion then
    some { s with events := s.events ++ [row] }
  else none

/-- `insertCreate`: `none` where a constraint fails. -/
def insertCreate (op : CreateOperation) : Option Store := do
  guard (s.debts.all fun row => row.recordId ≠ op.recordId)
  let root : DebtRow :=
    { recordId := op.recordId
      projectId := toWellFormed op.projectId
      ownerId := toWellFormed op.ownerId
      rationale := toWellFormed op.rationale
      risk := toWellFormed op.risk
      architecturalBoundary := toWellFormed op.architecturalBoundary
      priority := .p2
      prioritySource := .autoPendingDefault
      trigger := op.futureTouchTrigger
      discovery := op.discovery
      rule := op.rule
      createdAt := op.createdAt }
  let locations ← insertLocations op.recordId op.locations s.locations
  let s := { s with debts := s.debts ++ [root], locations := locations }
  let s ← s.insertObservation op.recordId op.discovery.observation op.createdAt
  s.insertEvent ⟨op.recordId, 0, .createPending, .pendingTriage, op.createdAt, none⟩

/-- `insertLink`. -/
def insertLink (op : LinkOperation) (existing : Aggregate) : Option Store := do
  let s ← s.insertObservation op.recordId op.observation op.linkedAt
  s.insertEvent ⟨op.recordId, existing.eventVersion + 1, .linkObservation, existing.state,
    op.linkedAt, none⟩

/-- `eventOccurredAt`. -/
def eventOccurredAt (event : TriageEvent) : JsString :=
  if utc event.occurredAt then event.occurredAt else js "1970-01-01T00:00:00.000Z"

/-- The event row of a triage. -/
def insertTriage (op : TriageCommit) (existing : Aggregate) : Option Store :=
  s.insertEvent ⟨existing.recordId, existing.eventVersion + 1, .triage, op.nextAggregate.state,
    eventOccurredAt op.event, some (op.event, op.nextAggregate)⟩

/-- The plan of a decision: a known plan must be the same one, a new one is
inserted. -/
def insertTouchPlan (op : DecisionCommit) : Option Store :=
  match s.touchPlans.find? fun row => row.touchPlanHash = op.touchPlanHash with
  | some known =>
      if known.projectId = op.projectId ∧ known.featureId = op.featureId ∧
          known.touchPlan = op.touchPlan then some s
      else none
  | none =>
      some { s with
        touchPlans := s.touchPlans ++ [⟨op.touchPlanHash, toWellFormed op.projectId,
          toWellFormed op.featureId, op.touchPlan⟩] }

/-- The row of a decision, whose identifier is the primary key. -/
def insertDecision (decision : FutureTouchDecision) : Option Store :=
  if s.decisions.all fun row => row.decisionId ≠ toWellFormed decision.decisionId then
    some { s with
      decisions := s.decisions ++ [⟨toWellFormed decision.decisionId, decision.recordId,
        decision⟩] }
  else none

/-- `commitDecision` inside the transaction. -/
def commitDecision (op : DecisionCommit) : Except RefusalCode Store :=
  if op.decision.projectId = op.projectId ∧ op.decision.featureId = op.featureId ∧
      op.decision.touchPlanHash = op.touchPlanHash then
    match s.getAggregate sha256 op.projectId op.decision.recordId with
    | none => .error .invalidInput
    | some aggregate =>
        if op.decision.recordVersion = aggregate.eventVersion then
          match s.insertTouchPlan op with
          | none => .error .invalidInput
          | some planned =>
              match planned.insertDecision op.decision with
              | none => .error .persistenceFailed
              | some next => .ok next
        else .error .invalidInput
  else .error .invalidInput

/-- The record read back after an append, if the callback accepts it. -/
def readBack (verifyReadBack : Aggregate → Bool) (projectId recordId : JsString)
    (appended : Option Store) : Except RefusalCode (CommitResult × Store) :=
  match appended with
  | none => .error .persistenceFailed
  | some next =>
      match next.getAggregate sha256 projectId recordId with
      | none => .error .persistenceFailed
      | some aggregate =>
          if verifyReadBack aggregate then .ok (.committed aggregate, next)
          else .error .persistenceFailed

/-- The body of the transaction. -/
def runOperation (verifyReadBack : Aggregate → Bool) :
    Operation → Except RefusalCode (CommitResult × Store)
  | .createPending op =>
      if op.valid sha256 = false then .error .invalidInput
      else
        match s.getAggregate sha256 op.projectId op.recordId with
        | some _ => .error .invalidInput
        | none => readBack sha256 verifyReadBack op.projectId op.recordId (s.insertCreate op)
  | .linkObservation op =>
      if op.valid = false then .error .invalidInput
      else
        match s.getAggregate sha256 op.projectId op.recordId with
        | none => .error .invalidInput
        | some existing =>
            if existing.eventVersion ≠ op.expectedVersion then .error .staleVersion
            else if existing.observationReferences.any fun r =>
                r.contentHash = op.observation.contentHash then .ok (.committed existing, s)
            else readBack sha256 verifyReadBack op.projectId op.recordId (s.insertLink op existing)
  | .applyTriage op =>
      if op.valid = false then .error .invalidInput
      else
        match s.getAggregate sha256 op.projectId op.recordId with
        | none => .error .invalidInput
        | some existing =>
            if existing.eventVersion ≠ op.expectedVersion then .error .staleVersion
            else if op.nextAggregate.projectId = existing.projectId ∧
                op.nextAggregate.recordId = existing.recordId ∧
                op.nextAggregate.eventVersion = existing.eventVersion + 1 ∧
                op.nextAggregate.observationReferences = existing.observationReferences then
              readBack sha256 verifyReadBack op.projectId op.recordId (s.insertTriage op existing)
            else .error .invalidInput
  | .recordTouchDecision op =>
      if op.valid = false then .error .invalidInput
      else (s.commitDecision sha256 op).map fun next => (.decisionCommitted, next)

/-- `commitArchitectureDebtOperation`: an operation that is refused leaves the
store as it was. -/
def commitOperation (verifyReadBack : Aggregate → Bool) (op : Operation) : CommitResult × Store :=
  match s.runOperation sha256 verifyReadBack op with
  | .ok done => done
  | .error code => (.refusal code, s)

end Store

end Hepha.Debt
