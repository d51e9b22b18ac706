import Hepha.Lib.Table
import Hepha.Lib.Transaction
import Hepha.Replan.Guards
import Mathlib.Data.List.Sort

/-!
# The replan store

Seven append-only tables.  `commit` writes the one to three records of an
operation in one transaction and reads the aggregate back; each record is
written by an operation of its own, which checks it against the database, also
against the rows that the commit has written before it.  The tables of review
evidence are written elsewhere and only read here, so a commit is given what it
finds in them.
-/

namespace Hepha.Replan

open JsValue Review Tx

/-! ## Review evidence -/

/-- The row of a finding observation, with its finding and review run. -/
structure FindingObservation where
  scope : ReviewScope
  defectClass : JsString
  disposition : FindingDisposition
  agentInvocationId : Option JsString

/-- The review evidence in the database. -/
structure ReviewEvidence where
  artifact : JsString → Option (ReviewStoreArtifactKind × ReviewScope)
  cycle : JsString → Option ReviewScope
  findingObservation : JsString → Option FindingObservation
  runOfManifest : JsString → Option JsString

/-! ## Tables -/

structure Database where
  observations : List DefectClassObservation
  requests : List ReplanRequest
  scopeExpansionDecisions : List ScopeExpansionDecision
  decisions : List ReplanDecision
  transitions : List ReplanTransition
  dispatchAttempts : List ReplanDispatchAttempt
  reviewAssessments : List ReplanReviewAssessment

def Database.empty : Database := ⟨[], [], [], [], [], [], []⟩

/-- A part of a transaction on the tables. -/
abbrev Write (α : Type) := Tx Database StoreError α

/-- `if (!condition) rejectInput()`. -/
def accept (condition : Bool) : Write Unit :=
  require .invalidInput condition

/-- A constraint of a table; the error of the database becomes `PERSISTENCE_FAILED`. -/
def constraint (condition : Bool) : Write Unit :=
  require .persistenceFailed condition

/-- `assertReadBack`: there is a row, and it is the expected one. -/
def assertReadBack {ρ : Type} (row : Option ρ) (expected : ρ → Bool) : Write Unit :=
  require .persistenceFailed (row.any expected)

/-! ## Reads -/

namespace Database

/-- The transitions of an aggregate, `order by resulting_version asc`. -/
def transitionsOf (db : Database) (key : AggregateKey) : List ReplanTransition :=
  (db.transitions.filter fun t => t.toAggregateKey = key).insertionSort
    fun a b => a.resultingVersion ≤ b.resultingVersion

/-- `select max(resulting_version)`, or 0. -/
def currentEventVersion (db : Database) (key : AggregateKey) : ℕ :=
  ((db.transitionsOf key).map (·.resultingVersion)).foldl max 0

/-- The `to_state` of the row with the greatest version. -/
def currentState (db : Database) (key : AggregateKey) : ReplanGovernanceState :=
  ((db.transitionsOf key).getLast?.map (·.toState)).getD .normalRemediation

/-- The order of two rows by a text column, and where it is equal by another one. -/
def textOrder (a b : JsString × JsString) : Bool :=
  (a.1 ≠ b.1 && JsString.textLe a.1 b.1) || (a.1 = b.1 && JsString.textLe a.2 b.2)

/-- The order of two rows by an integer column, and where it is equal by a text column. -/
def versionOrder (a b : ℕ × JsString) : Bool :=
  a.1 < b.1 || (a.1 = b.1 && JsString.textLe a.2 b.2)

/-- `order by attempted_at, case outcome when 'STARTED' then 0 else 1 end, attempt_event_id`. -/
def dispatchOrder (a b : ReplanDispatchAttempt) : Bool :=
  (a.attemptedAt ≠ b.attemptedAt && JsString.textLe a.attemptedAt b.attemptedAt) ||
    (a.attemptedAt = b.attemptedAt &&
      ((a.outcome = .started && b.outcome ≠ .started) ||
        (a.outcome = b.outcome && JsString.textLe a.attemptEventId b.attemptEventId)))

/-- `ReviewReplanQueryRepository.getAggregate`. -/
def getAggregate (db : Database) (key : AggregateKey) : ReplanGovernanceAggregate where
  toAggregateKey := key
  eventVersion := ((db.transitionsOf key).getLast?.map (·.resultingVersion)).getD 0
  state := db.currentState key
  observations := (db.observations.filter fun o => o.toAggregateKey = key).insertionSort
    fun a b => textOrder (a.createdAt, a.observationEventId) (b.createdAt, b.observationEventId)
  requests := (db.requests.filter fun r => r.toAggregateKey = key).insertionSort
    fun a b => versionOrder (a.planVersion, a.requestId) (b.planVersion, b.requestId)
  scopeExpansionDecisions :=
    (db.scopeExpansionDecisions.filter fun d => d.toAggregateKey = key).insertionSort
      fun a b => versionOrder (a.resultingVersion, a.decisionId) (b.resultingVersion, b.decisionId)
  decisions := (db.decisions.filter fun d => d.toAggregateKey = key).insertionSort
    fun a b => versionOrder (a.resultingVersion, a.decisionId) (b.resultingVersion, b.decisionId)
  transitions := db.transitionsOf key
  dispatchAttempts := (db.dispatchAttempts.filter fun d => d.toAggregateKey = key).insertionSort
    fun a b => dispatchOrder a b
  reviewAssessments := (db.reviewAssessments.filter fun a => a.toAggregateKey = key).insertionSort
    fun a b => textOrder (a.createdAt, a.assessmentId) (b.createdAt, b.assessmentId)

end Database

/-! ## Writing one record -/

open Database

section Append

variable (review : ReviewEvidence)

/-- `assertArtifact`. -/
def assertArtifact (hash : JsString) (scope : ReviewScope)
    (kind : Option ReviewStoreArtifactKind) : Write Unit :=
  accept ((review.artifact hash).any fun (artifactKind, artifactScope) =>
    kind.all (· == artifactKind) && artifactScope == scope)

/-- What an observation of each kind refers to. -/
def assertObservationReferences (input : DefectClassObservation) : Write Unit := do
  let scope := input.scope.toReviewScope
  assertArtifact review input.triggerManifestHash scope (some .reviewManifest)
  assertArtifact review input.basisManifestHash scope (some .reviewManifest)
  match input.observationKind with
  | .postFixManifestation =>
      accept (input.remediationCycleId.isSome && input.findingObservationId.isNone &&
        input.decisionId.isNone)
      assertReadBack (input.remediationCycleId.bind review.cycle) (· == scope)
  | .scopeExpansionAccepted =>
      accept (input.findingObservationId.isSome && input.decisionId.isSome &&
        input.remediationCycleId.isNone)
      let db ← get
      let decision := input.decisionId.bind fun id =>
        Table.find ScopeExpansionDecision.decisionId db.scopeExpansionDecisions id
      assertReadBack decision fun d => d.toAggregateKey == input.toAggregateKey &&
        some d.findingObservationId == input.findingObservationId && d.outcome == .accept
  | .findingExhaustiveness =>
      accept (input.findingObservationId.isSome && input.remediationCycleId.isNone &&
        input.decisionId.isNone)
      assertReadBack (input.findingObservationId.bind review.findingObservation) fun f =>
        f.scope == scope && f.defectClass == input.scope.defectClass

def appendObservation (rawInput : JsValue) : Write Unit := do
  let input ← ofOption .invalidInput (decodeObservation rawInput)
  assertObservationReferences review input
  let db ← get
  constraint (!db.observations.any fun o => o.observationEventId = input.observationEventId)
  constraint (!db.observations.any fun o => o.scope = input.scope ∧
    o.observationKind = input.observationKind ∧
    o.triggerManifestHash = input.triggerManifestHash)
  constraint (!db.observations.any fun o => o.findingObservationId.isSome ∧ o.decisionId.isSome ∧
    o.findingObservationId = input.findingObservationId ∧ o.decisionId = input.decisionId)
  constraint (input.findingObservationId.all fun id => (review.findingObservation id).isSome)
  modify fun db => { db with observations := db.observations ++ [input] }
  let db ← get
  assertReadBack (Table.find DefectClassObservation.observationEventId db.observations
    input.observationEventId) fun o => o.aggregateId == input.aggregateId &&
      o.scope.defectClass == input.scope.defectClass &&
      o.observationKind == input.observationKind &&
      o.triggerManifestHash == input.triggerManifestHash

def appendRequest (rawInput : JsValue) : Write Unit := do
  let input ← ofOption .invalidInput (decodeRequest rawInput)
  assertArtifact review input.planHash input.scope.toReviewScope (some .replanPlan)
  let db ← get
  assertReadBack (Table.find DefectClassObservation.observationEventId db.observations
    input.triggerEventId) fun o => o.toAggregateKey == input.toAggregateKey
  constraint (!db.requests.any fun r => r.requestId = input.requestId)
  constraint (!db.requests.any fun r => r.toAggregateKey = input.toAggregateKey ∧
    (r.planVersion = input.planVersion ∨ r.planHash = input.planHash))
  modify fun db => { db with requests := db.requests ++ [input] }
  let db ← get
  assertReadBack (Table.find ReplanRequest.requestId db.requests input.requestId) fun r =>
    r.aggregateId == input.aggregateId && r.planHash == input.planHash &&
      r.planVersion == input.planVersion && r.proposalAuthorActor == input.proposalAuthorActor

def appendScopeDecision (rawInput : JsValue) : Write Unit := do
  let input ← ofOption .invalidInput (decodeScopeDecision rawInput)
  let db ← get
  accept (db.currentEventVersion input.toAggregateKey == input.expectedVersion)
  let observation := review.findingObservation input.findingObservationId
  assertReadBack observation fun f => f.scope == input.scope.toReviewScope &&
    f.defectClass == input.scope.defectClass && f.disposition == .scopeExpansion
  accept (observation.any fun f =>
    f.agentInvocationId.isSome && f.agentInvocationId != some input.actorId)
  constraint (!db.scopeExpansionDecisions.any fun d => d.decisionId = input.decisionId ∨
    d.findingObservationId = input.findingObservationId)
  modify fun db =>
    { db with scopeExpansionDecisions := db.scopeExpansionDecisions ++ [input] }
  let db ← get
  assertReadBack (Table.find ScopeExpansionDecision.decisionId db.scopeExpansionDecisions
    input.decisionId) fun d => d.findingObservationId == input.findingObservationId &&
      d.outcome == input.outcome

def appendDecision (rawInput : JsValue) : Write Unit := do
  let input ← ofOption .invalidInput (decodeDecision rawInput)
  assertArtifact review input.planHash input.scope.toReviewScope (some .replanPlan)
  let db ← get
  let request := Table.find ReplanRequest.requestId db.requests input.requestId
  assertReadBack request fun r => r.toAggregateKey == input.toAggregateKey &&
    r.planHash == input.planHash && r.planVersion == input.planVersion
  accept (!(request.any fun r => r.proposalAuthorActor == input.actorId) &&
    db.currentEventVersion input.toAggregateKey == input.expectedVersion)
  constraint (!db.decisions.any fun d => d.decisionId = input.decisionId ∨
    (d.requestId = input.requestId ∧ d.planVersion = input.planVersion))
  modify fun db => { db with decisions := db.decisions ++ [input] }
  let db ← get
  assertReadBack (Table.find ReplanDecision.decisionId db.decisions input.decisionId) fun d =>
    d.requestId == input.requestId && d.outcome == input.outcome &&
      d.actorId == input.actorId && d.resultingVersion == input.resultingVersion

def appendTransition (rawInput : JsValue) : Write Unit := do
  let input ← ofOption .invalidInput (decodeTransition rawInput)
  let db ← get
  accept (db.currentEventVersion input.toAggregateKey == input.expectedVersion &&
    db.currentState input.toAggregateKey == input.fromState)
  accept (input.triggerHash.all fun hash => (review.artifact hash).any fun artifact =>
    artifact.2 == input.scope.toReviewScope)
  constraint (!db.transitions.any fun t => t.transitionId = input.transitionId ∨
    (t.toAggregateKey = input.toAggregateKey ∧ t.resultingVersion = input.resultingVersion))
  modify fun db => { db with transitions := db.transitions ++ [input] }
  let db ← get
  assertReadBack (Table.find ReplanTransition.transitionId db.transitions input.transitionId)
    fun t => t.aggregateId == input.aggregateId && t.fromState == input.fromState &&
      t.toState == input.toState && t.resultingVersion == input.resultingVersion

/-- A dispatch starts once; its failure to start names the same dispatch. -/
def dispatchFollows (db : Database) (input : ReplanDispatchAttempt) : Bool :=
  match input.outcome with
  | .started => !db.dispatchAttempts.any fun d =>
      d.toAggregateKey = input.toAggregateKey ∧ d.requestId = input.requestId ∧
        d.planVersion = input.planVersion ∧ d.outcome = .started
  | .startFailed =>
      (db.dispatchAttempts.find? fun d =>
        d.dispatchId = input.dispatchId ∧ d.outcome = .started).any fun d =>
          d.toAggregateKey == input.toAggregateKey && d.requestId == input.requestId &&
            d.planHash == input.planHash && d.planVersion == input.planVersion &&
            d.approvalDecisionId == input.approvalDecisionId &&
            d.approvalEventVersion == input.approvalEventVersion &&
            d.workflowRunId == input.workflowRunId

def appendDispatch (rawInput : JsValue) : Write Unit := do
  let input ← ofOption .invalidInput (decodeDispatch rawInput)
  assertArtifact review input.planHash input.scope.toReviewScope (some .replanPlan)
  let db ← get
  assertReadBack (Table.find ReplanDecision.decisionId db.decisions input.approvalDecisionId)
    fun d => d.requestId == input.requestId && d.toAggregateKey == input.toAggregateKey &&
      d.planHash == input.planHash && d.planVersion == input.planVersion &&
      d.outcome == .approve && d.resultingVersion == input.approvalEventVersion
  accept (dispatchFollows db input)
  constraint (!db.dispatchAttempts.any fun d => d.attemptEventId = input.attemptEventId)
  constraint (!db.dispatchAttempts.any fun d => d.dispatchId = input.dispatchId ∧
    d.outcome = input.outcome)
  constraint (!db.dispatchAttempts.any fun d => d.toAggregateKey = input.toAggregateKey ∧
    d.requestId = input.requestId ∧ d.planVersion = input.planVersion ∧
    d.outcome = input.outcome)
  modify fun db => { db with dispatchAttempts := db.dispatchAttempts ++ [input] }
  let db ← get
  assertReadBack (Table.find ReplanDispatchAttempt.attemptEventId db.dispatchAttempts
    input.attemptEventId) fun d => d.dispatchId == input.dispatchId &&
      d.approvalDecisionId == input.approvalDecisionId && d.outcome == input.outcome

def appendAssessment (rawInput : JsValue) : Write Unit := do
  let input ← ofOption .invalidInput (decodeAssessment rawInput)
  assertArtifact review input.reviewManifestHash input.scope.toReviewScope (some .reviewManifest)
  assertArtifact review input.planHash input.scope.toReviewScope (some .replanPlan)
  let db ← get
  assertReadBack (Table.find ReplanDispatchAttempt.dispatchId db.dispatchAttempts
    input.dispatchId) fun d => d.aggregateId == input.aggregateId &&
      d.planHash == input.planHash && d.planVersion == input.planVersion && d.outcome == .started
  accept (review.runOfManifest input.reviewManifestHash == some input.reviewRunId)
  constraint (!db.reviewAssessments.any fun a => a.assessmentId = input.assessmentId ∨
    (a.dispatchId = input.dispatchId ∧ a.reviewManifestHash = input.reviewManifestHash))
  modify fun db => { db with reviewAssessments := db.reviewAssessments ++ [input] }
  let db ← get
  let row := Table.find ReplanReviewAssessment.assessmentId db.reviewAssessments
    input.assessmentId
  assertReadBack row fun a => a.dispatchId == input.dispatchId &&
    a.reviewManifestHash == input.reviewManifestHash && a.reviewRunId == input.reviewRunId
  accept (row.any fun a => a.assessedSurfaceIds == input.assessedSurfaceIds &&
    a.assessedRemediationItemIds == input.assessedRemediationItemIds &&
    a.assessedTestIds == input.assessedTestIds)

/-! ## Commits -/

/-- The records of an operation, in the order in which they are written. -/
def appendRecords (kind : ReplanOperationKind) (records : JsValue) : Write Unit := do
  match kind with
  | .observation => appendObservation review (records.get (js "observation"))
  | .thresholdManifestation =>
      appendObservation review (records.get (js "observation"))
      appendTransition review (records.get (js "transition"))
  | .scopeExpansionAccepted =>
      appendScopeDecision review (records.get (js "decision"))
      appendObservation review (records.get (js "observation"))
      appendTransition review (records.get (js "transition"))
  | .scopeExpansionAcceptedNoThreshold | .scopeExpansionRejected =>
      appendScopeDecision review (records.get (js "decision"))
      appendTransition review (records.get (js "transition"))
  | .planRequest =>
      appendRequest review (records.get (js "request"))
      appendTransition review (records.get (js "transition"))
  | .replanDecision =>
      appendDecision review (records.get (js "decision"))
      appendTransition review (records.get (js "transition"))
  | .dispatchStarted =>
      appendDispatch review (records.get (js "dispatch"))
      appendTransition review (records.get (js "transition"))
  | .dispatchFailed => appendDispatch review (records.get (js "dispatch"))
  | .reviewAssessment =>
      appendAssessment review (records.get (js "assessment"))
      appendTransition review (records.get (js "transition"))

end Append

/-- A check of the caller on the aggregate read back; `none` is an exception. -/
abbrev VerifyReadBack := ReplanGovernanceAggregate → Option Bool

/-- An operation of the right shape, whose records belong to one aggregate. -/
structure CoherentOperation where
  kind : ReplanOperationKind
  records : JsValue
  key : AggregateKey

/-- What `commit` checks of its argument before the transaction begins. -/
def coherentOperation (rawInput : JsValue) : Option CoherentOperation := do
  guard (rawInput.hasShape ["kind", "records"] [])
  let kind ← (rawInput.get (js "kind")).isOneOf replanOperationKinds
  let records := rawInput.get (js "records")
  guard (records.hasShape (replanOperationRecordKeys kind) [])
  let key ← coherentKey kind records
  return { kind, records, key }

/-- A call of `commit` by some client, with the review evidence it finds, and
whether the database lets its transaction begin and end. -/
structure Commit where
  review : ReviewEvidence
  verifyReadBack : Option VerifyReadBack
  begins : Bool
  ends : Bool
  rawInput : JsValue

/-- The body of the transaction of a commit. -/
def commitBody (call : Commit) (operation : CoherentOperation) :
    Write ReplanGovernanceAggregate := do
  appendRecords call.review operation.kind operation.records
  let db ← get
  let aggregate := db.getAggregate operation.key
  require .persistenceFailed
    (call.verifyReadBack.all fun verify => verify aggregate == some true)
  constraint call.ends
  return aggregate

/-- `commit`, with the tables after it. -/
def commit (call : Commit) (db : Database) :
    Except StoreError ReplanGovernanceAggregate × Database :=
  match coherentOperation call.rawInput with
  | none => (.error .invalidInput, db)
  | some operation =>
      if call.begins then atomically (commitBody call operation) db
      else (.error .persistenceFailed, db)

/-- The tables after commits of any clients, in the order of their transactions. -/
def run (calls : List Commit) : Database :=
  calls.foldl (fun db call => (commit call db).2) .empty

end Hepha.Replan
