import Hepha.Replan.Store

/-!
# Reading an aggregate

The aggregate that the query interface answers with, as the object its caller
receives.  Every record repeats the scope and the aggregate; the columns with a
constant value are written out, and an optional field that has no value is
`undefined`.
-/

namespace Hepha.Replan

open JsValue Review

/-! ## Records -/

/-- The word of a table for a constant. -/
def wordOf {α : Type} [DecidableEq α] (table : List (String × α)) (a : α) : JsValue :=
  ((table.find? fun entry => entry.2 = a).map fun entry => text entry.1).getD undefined

def optionalText (value : Option JsString) : JsValue :=
  (value.map str).getD undefined

def natural (n : ℕ) : JsValue :=
  num (.int n)

def policyFields : List (String × JsValue) :=
  [("policyId", text "replan-governance-v1"), ("policyVersion", natural 1)]

def ReplanGovernanceScope.fields (scope : ReplanGovernanceScope) : List (String × JsValue) :=
  [("projectId", str scope.projectId), ("featureId", str scope.featureId),
    ("phaseNumber", natural scope.phaseNumber), ("reviewGateId", str scope.reviewGateId),
    ("defectClass", str scope.defectClass)]

def AggregateKey.fields (key : AggregateKey) : List (String × JsValue) :=
  key.scope.fields ++ [("aggregateId", str key.aggregateId)]

def DefectClassObservation.toValue (o : DefectClassObservation) : JsValue :=
  record (o.fields ++ [("observationEventId", str o.observationEventId),
    ("observationKind", wordOf replanObservationKinds o.observationKind),
    ("triggerManifestHash", str o.triggerManifestHash),
    ("basisManifestHash", str o.basisManifestHash),
    ("findingObservationId", optionalText o.findingObservationId),
    ("remediationCycleId", optionalText o.remediationCycleId),
    ("decisionId", optionalText o.decisionId), ("createdAt", str o.createdAt)])

def ReplanRequest.toValue (r : ReplanRequest) : JsValue :=
  record (r.fields ++ [("requestId", str r.requestId), ("triggerEventId", str r.triggerEventId),
    ("planHash", str r.planHash), ("planVersion", natural r.planVersion),
    ("proposalAuthorActor", str r.proposalAuthorActor),
    ("producerInvocationId", str r.producerInvocationId)] ++ policyFields ++
    [("eligibleRoles", arr [text "ARCHITECTURE_STEWARD"]), ("requestedAt", str r.requestedAt)])

def ScopeExpansionDecision.toValue (d : ScopeExpansionDecision) : JsValue :=
  record (d.fields ++ [("decisionId", str d.decisionId),
    ("findingObservationId", str d.findingObservationId),
    ("outcome", wordOf scopeExpansionOutcomes d.outcome), ("actorId", str d.actorId),
    ("authorizedRole", text "FEATURE_OWNER")] ++ policyFields ++
    [("reason", str d.reason), ("expectedVersion", natural d.expectedVersion),
    ("resultingVersion", natural d.resultingVersion), ("decidedAt", str d.decidedAt)])

def ReplanDecision.toValue (d : ReplanDecision) : JsValue :=
  record (d.fields ++ [("decisionId", str d.decisionId), ("requestId", str d.requestId),
    ("planHash", str d.planHash), ("planVersion", natural d.planVersion),
    ("outcome", wordOf replanDecisionOutcomes d.outcome), ("actorId", str d.actorId),
    ("authorizedRole", text "ARCHITECTURE_STEWARD")] ++ policyFields ++
    [("reason", str d.reason), ("expectedVersion", natural d.expectedVersion),
    ("resultingVersion", natural d.resultingVersion), ("decidedAt", str d.decidedAt)])

def ReplanTransition.toValue (t : ReplanTransition) : JsValue :=
  record (t.fields ++ [("transitionId", str t.transitionId),
    ("fromState", wordOf replanGovernanceStates t.fromState),
    ("toState", wordOf replanGovernanceStates t.toState), ("reasonCode", str t.reasonCode),
    ("triggerRecordId", str t.triggerRecordId), ("triggerHash", optionalText t.triggerHash),
    ("expectedVersion", natural t.expectedVersion),
    ("resultingVersion", natural t.resultingVersion), ("transitionedAt", str t.transitionedAt)])

def ReplanDispatchAttempt.toValue (d : ReplanDispatchAttempt) : JsValue :=
  record (d.fields ++ [("attemptEventId", str d.attemptEventId), ("dispatchId", str d.dispatchId),
    ("requestId", str d.requestId), ("planHash", str d.planHash),
    ("planVersion", natural d.planVersion), ("approvalDecisionId", str d.approvalDecisionId),
    ("approvalEventVersion", natural d.approvalEventVersion),
    ("outcome", wordOf replanDispatchOutcomes d.outcome),
    ("reasonCode", optionalText d.reasonCode), ("workflowRunId", str d.workflowRunId),
    ("attemptedAt", str d.attemptedAt)])

def ReplanReviewAssessment.toValue (a : ReplanReviewAssessment) : JsValue :=
  record (a.fields ++ [("assessmentId", str a.assessmentId), ("dispatchId", str a.dispatchId),
    ("reviewManifestHash", str a.reviewManifestHash), ("reviewRunId", str a.reviewRunId),
    ("planHash", str a.planHash), ("planVersion", natural a.planVersion),
    ("outcome", text "APPROVED"), ("assessedSurfaceIds", arr (a.assessedSurfaceIds.map str)),
    ("assessedRemediationItemIds", arr (a.assessedRemediationItemIds.map str)),
    ("assessedTestIds", arr (a.assessedTestIds.map str)), ("createdAt", str a.createdAt)])

/-! ## Aggregates -/

namespace ReplanGovernanceAggregate

def toValue (aggregate : ReplanGovernanceAggregate) : JsValue :=
  record [("scope", record aggregate.scope.fields), ("aggregateId", str aggregate.aggregateId),
    ("eventVersion", natural aggregate.eventVersion),
    ("state", wordOf replanGovernanceStates aggregate.state),
    ("observations", arr (aggregate.observations.map (·.toValue))),
    ("requests", arr (aggregate.requests.map (·.toValue))),
    ("scopeExpansionDecisions", arr (aggregate.scopeExpansionDecisions.map (·.toValue))),
    ("decisions", arr (aggregate.decisions.map (·.toValue))),
    ("transitions", arr (aggregate.transitions.map (·.toValue))),
    ("dispatchAttempts", arr (aggregate.dispatchAttempts.map (·.toValue))),
    ("reviewAssessments", arr (aggregate.reviewAssessments.map (·.toValue)))]

/-- The number of records of an aggregate. -/
def size (aggregate : ReplanGovernanceAggregate) : ℕ :=
  aggregate.observations.length + aggregate.requests.length +
    aggregate.scopeExpansionDecisions.length + aggregate.decisions.length +
    aggregate.transitions.length + aggregate.dispatchAttempts.length +
    aggregate.reviewAssessments.length

end ReplanGovernanceAggregate

/-- `assertScope` of the query interface, which allows no other keys. -/
def readScope (rawScope : JsValue) : Option ReplanGovernanceScope := do
  guard (rawScope.exactKeys ["projectId", "featureId", "phaseNumber", "reviewGateId",
    "defectClass"])
  decodeScope rawScope

/-- `getAggregate`, which rejects a scope or an aggregate of the wrong form. -/
def getAggregate (db : Database) (rawScope rawAggregateId : JsValue) :
    Option ReplanGovernanceAggregate := do
  let scope ← readScope rawScope
  let aggregateId ← kebabIdentifier rawAggregateId
  return db.getAggregate { scope, aggregateId }

end Hepha.Replan
