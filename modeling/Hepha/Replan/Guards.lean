import Hepha.Replan.Records
import Hepha.Review.Guards

/-!
# The guards of the replan store

What a commit checks of its argument before it looks at the database.  A
`decode` function reads a record: its keys, the types of its fields and their
rules, all of which the source rejects with `INVALID_INPUT`.  The rules that
need the database are with the operations.
-/

namespace Hepha.Replan

open JsValue Pattern Review

/-! ## Fields -/

/-- `assertAssessmentIds`. -/
def isAssessmentIds (maximum : ℕ) (ids : List JsString) : Bool :=
  0 < ids.length && ids.length ≤ maximum && ids.all isKebabIdentifier && hasUniqueValues ids

def positiveInteger (value : JsValue) : Option ℕ :=
  value.isNatural.filter (1 ≤ ·)

def assessmentIds (maximum : ℕ) (value : JsValue) : Option (List JsString) :=
  (value.isArrayOf isString).filter (isAssessmentIds maximum)

/-- The one policy of replan decisions, in its one version. -/
def hasPolicy (value : JsValue) : Bool :=
  ((value.get (js "policyId")).isOneOf [("replan-governance-v1", ())]).isSome &&
    (value.get (js "policyVersion")).isNatural == some 1

/-- The version before a record, and the one after it. -/
def decodeVersions (value : JsValue) : Option (ℕ × ℕ) := do
  let expectedVersion ← (value.get (js "expectedVersion")).isNatural
  let resultingVersion ← (value.get (js "resultingVersion")).isNatural
  guard (resultingVersion = expectedVersion + 1)
  return (expectedVersion, resultingVersion)

/-! ## Records -/

/-- `assertReplanScope`. -/
def decodeScope (value : JsValue) : Option ReplanGovernanceScope := do
  let projectId ← safeIdentifier (value.get (js "projectId"))
  let featureId ← safeIdentifier (value.get (js "featureId"))
  let reviewGateId ← safeIdentifier (value.get (js "reviewGateId"))
  let phaseNumber ← (value.get (js "phaseNumber")).isNatural
  let defectClass ← kebabIdentifier (value.get (js "defectClass"))
  return { projectId, featureId, phaseNumber, reviewGateId, defectClass }

/-- The scope of a record and its aggregate. -/
def decodeKey (value : JsValue) : Option AggregateKey := do
  let scope ← decodeScope value
  let aggregateId ← kebabIdentifier (value.get (js "aggregateId"))
  return { scope, aggregateId }

def keyFields : List String :=
  ["projectId", "featureId", "phaseNumber", "reviewGateId", "defectClass", "aggregateId"]

def decodeObservation (value : JsValue) : Option DefectClassObservation := do
  guard (value.hasShape (keyFields ++ ["observationEventId", "observationKind",
    "triggerManifestHash", "basisManifestHash", "createdAt"])
    ["findingObservationId", "remediationCycleId", "decisionId"])
  let key ← decodeKey value
  let observationEventId ← kebabIdentifier (value.get (js "observationEventId"))
  let observationKind ← (value.get (js "observationKind")).isOneOf replanObservationKinds
  let createdAt ← utcTimestamp (value.get (js "createdAt"))
  let findingObservationId ←
    isOptional kebabIdentifier (value.get (js "findingObservationId"))
  let remediationCycleId ← isOptional kebabIdentifier (value.get (js "remediationCycleId"))
  let decisionId ← isOptional kebabIdentifier (value.get (js "decisionId"))
  let triggerManifestHash ← validHash (value.get (js "triggerManifestHash"))
  let basisManifestHash ← validHash (value.get (js "basisManifestHash"))
  return { key with
    observationEventId, observationKind, triggerManifestHash, basisManifestHash,
    findingObservationId, remediationCycleId, decisionId, createdAt }

def decodeRequest (value : JsValue) : Option ReplanRequest := do
  guard (value.hasShape (keyFields ++ ["requestId", "triggerEventId", "planHash", "planVersion",
    "proposalAuthorActor", "producerInvocationId", "policyId", "policyVersion", "requestedAt"]) [])
  let key ← decodeKey value
  let requestId ← kebabIdentifier (value.get (js "requestId"))
  let triggerEventId ← kebabIdentifier (value.get (js "triggerEventId"))
  let proposalAuthorActor ← safeIdentifier (value.get (js "proposalAuthorActor"))
  let producerInvocationId ← safeIdentifier (value.get (js "producerInvocationId"))
  let planVersion ← positiveInteger (value.get (js "planVersion"))
  guard (hasPolicy value)
  let requestedAt ← utcTimestamp (value.get (js "requestedAt"))
  let planHash ← validHash (value.get (js "planHash"))
  return { key with
    requestId, triggerEventId, planHash, planVersion, proposalAuthorActor, producerInvocationId,
    requestedAt }

def decodeScopeDecision (value : JsValue) : Option ScopeExpansionDecision := do
  guard (value.hasShape (keyFields ++ ["decisionId", "findingObservationId", "outcome", "actorId",
    "policyId", "policyVersion", "reason", "expectedVersion", "resultingVersion", "decidedAt"]) [])
  let key ← decodeKey value
  let decisionId ← kebabIdentifier (value.get (js "decisionId"))
  let findingObservationId ← kebabIdentifier (value.get (js "findingObservationId"))
  let actorId ← safeIdentifier (value.get (js "actorId"))
  let outcome ← (value.get (js "outcome")).isOneOf scopeExpansionOutcomes
  guard (hasPolicy value)
  let (expectedVersion, resultingVersion) ← decodeVersions value
  let reason ← safeBoundedString (value.get (js "reason"))
  let decidedAt ← utcTimestamp (value.get (js "decidedAt"))
  return { key with
    decisionId, findingObservationId, outcome, actorId, reason, expectedVersion,
    resultingVersion, decidedAt }

def decodeDecision (value : JsValue) : Option ReplanDecision := do
  guard (value.hasShape (keyFields ++ ["decisionId", "requestId", "planHash", "planVersion",
    "outcome", "actorId", "policyId", "policyVersion", "reason", "expectedVersion",
    "resultingVersion", "decidedAt"]) [])
  let key ← decodeKey value
  let decisionId ← kebabIdentifier (value.get (js "decisionId"))
  let requestId ← kebabIdentifier (value.get (js "requestId"))
  let actorId ← safeIdentifier (value.get (js "actorId"))
  let planVersion ← positiveInteger (value.get (js "planVersion"))
  let (expectedVersion, resultingVersion) ← decodeVersions value
  let outcome ← (value.get (js "outcome")).isOneOf replanDecisionOutcomes
  guard (hasPolicy value)
  let reason ← safeBoundedString (value.get (js "reason"))
  let decidedAt ← utcTimestamp (value.get (js "decidedAt"))
  let planHash ← validHash (value.get (js "planHash"))
  return { key with
    decisionId, requestId, planHash, planVersion, outcome, actorId, reason, expectedVersion,
    resultingVersion, decidedAt }

def decodeTransition (value : JsValue) : Option ReplanTransition := do
  guard (value.hasShape (keyFields ++ ["transitionId", "fromState", "toState", "reasonCode",
    "triggerRecordId", "expectedVersion", "resultingVersion", "transitionedAt"]) ["triggerHash"])
  let key ← decodeKey value
  let transitionId ← kebabIdentifier (value.get (js "transitionId"))
  let triggerRecordId ← kebabIdentifier (value.get (js "triggerRecordId"))
  let reasonCode ← kebabIdentifier (value.get (js "reasonCode"))
  let fromState ← (value.get (js "fromState")).isOneOf replanGovernanceStates
  let toState ← (value.get (js "toState")).isOneOf replanGovernanceStates
  let (expectedVersion, resultingVersion) ← decodeVersions value
  let transitionedAt ← utcTimestamp (value.get (js "transitionedAt"))
  let triggerHash ← isOptional validHash (value.get (js "triggerHash"))
  return { key with
    transitionId, fromState, toState, reasonCode, triggerRecordId, triggerHash, expectedVersion,
    resultingVersion, transitionedAt }

def decodeDispatch (value : JsValue) : Option ReplanDispatchAttempt := do
  guard (value.hasShape (keyFields ++ ["attemptEventId", "dispatchId", "requestId", "planHash",
    "planVersion", "approvalDecisionId", "approvalEventVersion", "outcome", "workflowRunId",
    "attemptedAt"]) ["reasonCode"])
  let key ← decodeKey value
  let attemptEventId ← kebabIdentifier (value.get (js "attemptEventId"))
  let dispatchId ← kebabIdentifier (value.get (js "dispatchId"))
  let requestId ← kebabIdentifier (value.get (js "requestId"))
  let approvalDecisionId ← kebabIdentifier (value.get (js "approvalDecisionId"))
  let workflowRunId ← safeIdentifier (value.get (js "workflowRunId"))
  let planVersion ← positiveInteger (value.get (js "planVersion"))
  let approvalEventVersion ← (value.get (js "approvalEventVersion")).isNatural
  let outcome ← (value.get (js "outcome")).isOneOf replanDispatchOutcomes
  let reasonCode ← isOptional kebabIdentifier (value.get (js "reasonCode"))
  let attemptedAt ← utcTimestamp (value.get (js "attemptedAt"))
  let planHash ← validHash (value.get (js "planHash"))
  return { key with
    attemptEventId, dispatchId, requestId, planHash, planVersion, approvalDecisionId,
    approvalEventVersion, outcome, reasonCode, workflowRunId, attemptedAt }

def decodeAssessment (value : JsValue) : Option ReplanReviewAssessment := do
  guard (value.hasShape (keyFields ++ ["assessmentId", "dispatchId", "reviewManifestHash",
    "reviewRunId", "planHash", "planVersion", "outcome", "assessedSurfaceIds",
    "assessedRemediationItemIds", "assessedTestIds", "createdAt"]) [])
  let key ← decodeKey value
  let assessmentId ← kebabIdentifier (value.get (js "assessmentId"))
  let dispatchId ← kebabIdentifier (value.get (js "dispatchId"))
  let _ ← (value.get (js "outcome")).isOneOf [("APPROVED", ())]
  let reviewRunId ← safeIdentifier (value.get (js "reviewRunId"))
  let planVersion ← positiveInteger (value.get (js "planVersion"))
  let assessedSurfaceIds ← assessmentIds 128 (value.get (js "assessedSurfaceIds"))
  let assessedRemediationItemIds ← assessmentIds 64 (value.get (js "assessedRemediationItemIds"))
  let assessedTestIds ← assessmentIds 64 (value.get (js "assessedTestIds"))
  let createdAt ← utcTimestamp (value.get (js "createdAt"))
  let reviewManifestHash ← validHash (value.get (js "reviewManifestHash"))
  let planHash ← validHash (value.get (js "planHash"))
  return { key with
    assessmentId, dispatchId, reviewManifestHash, reviewRunId, planHash, planVersion,
    assessedSurfaceIds, assessedRemediationItemIds, assessedTestIds, createdAt }

/-! ## Operations -/

inductive ReplanOperationKind where
  | observation
  | thresholdManifestation
  | scopeExpansionAccepted
  | scopeExpansionAcceptedNoThreshold
  | scopeExpansionRejected
  | planRequest
  | replanDecision
  | dispatchStarted
  | dispatchFailed
  | reviewAssessment
  deriving DecidableEq

def replanOperationKinds : List (String × ReplanOperationKind) :=
  [("OBSERVATION", .observation), ("THRESHOLD_MANIFESTATION", .thresholdManifestation),
    ("SCOPE_EXPANSION_ACCEPTED", .scopeExpansionAccepted),
    ("SCOPE_EXPANSION_ACCEPTED_NO_THRESHOLD", .scopeExpansionAcceptedNoThreshold),
    ("SCOPE_EXPANSION_REJECTED", .scopeExpansionRejected), ("PLAN_REQUEST", .planRequest),
    ("REPLAN_DECISION", .replanDecision), ("DISPATCH_STARTED", .dispatchStarted),
    ("DISPATCH_FAILED", .dispatchFailed), ("REVIEW_ASSESSMENT", .reviewAssessment)]

/-- The records of an operation; the first is its primary one. -/
def replanOperationRecordKeys : ReplanOperationKind → List String
  | .observation => ["observation"]
  | .thresholdManifestation => ["observation", "transition"]
  | .scopeExpansionAccepted => ["decision", "observation", "transition"]
  | .scopeExpansionAcceptedNoThreshold => ["decision", "transition"]
  | .scopeExpansionRejected => ["decision", "transition"]
  | .planRequest => ["request", "transition"]
  | .replanDecision => ["decision", "transition"]
  | .dispatchStarted => ["dispatch", "transition"]
  | .dispatchFailed => ["dispatch"]
  | .reviewAssessment => ["assessment", "transition"]

/-- Two fields with the same text.  A field that is no text is rejected when its
record is read. -/
def sameText (left right : JsValue) : Bool :=
  left.isString == right.isString

/-- The transition names the record that caused it. -/
def triggersCoherent (kind : ReplanOperationKind) (records : JsValue) : Bool :=
  let field := fun record name => (records.get (js record)).get (js name)
  let trigger := field "transition" "triggerRecordId"
  match kind with
  | .thresholdManifestation => sameText trigger (field "observation" "observationEventId")
  | .scopeExpansionAccepted =>
      sameText (field "observation" "findingObservationId")
        (field "decision" "findingObservationId") &&
      sameText (field "observation" "decisionId") (field "decision" "decisionId") &&
      sameText trigger (field "observation" "observationEventId")
  | .scopeExpansionAcceptedNoThreshold | .scopeExpansionRejected | .replanDecision =>
      sameText trigger (field "decision" "decisionId")
  | .planRequest => sameText trigger (field "request" "requestId")
  | .dispatchStarted => sameText trigger (field "dispatch" "attemptEventId")
  | .reviewAssessment => sameText trigger (field "assessment" "assessmentId")
  | .observation | .dispatchFailed => true

/-- `assertCoherentReplanOperation`: the one aggregate of all the records. -/
def coherentKey (kind : ReplanOperationKind) (records : JsValue) : Option AggregateKey := do
  let names := replanOperationRecordKeys kind
  let primary ← names.head?
  let key ← decodeKey (records.get (js primary))
  guard (names.all fun name => decodeKey (records.get (js name)) == some key)
  guard (triggersCoherent kind records)
  return key

end Hepha.Replan
