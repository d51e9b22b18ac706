import Hepha.Review.Contracts

/-!
# Replan governance records

An aggregate is the history of one class of defects in one review scope.  Seven
kinds of records make it up; each repeats the aggregate it belongs to, and none
is ever changed.  The columns with a constant value are left out of a record:
the policy and its version, and the role that decided.
-/

namespace Hepha.Replan

open Review

/-- A review scope and a class of defects in it. -/
structure ReplanGovernanceScope extends ReviewScope where
  defectClass : JsString
  deriving DecidableEq

/-- The aggregate that a record belongs to. -/
structure AggregateKey where
  scope : ReplanGovernanceScope
  aggregateId : JsString
  deriving DecidableEq

inductive ReplanGovernanceState where
  | normalRemediation
  | remediationReplanRequired
  | replanPendingApproval
  | replanApproved
  | replanRejected
  | boundedRemediationDispatched
  | reviewPending
  deriving DecidableEq

inductive ReplanObservationKind where
  | postFixManifestation
  | scopeExpansionAccepted
  | findingExhaustiveness
  deriving DecidableEq

inductive ScopeExpansionOutcome where
  | accept
  | reject
  deriving DecidableEq

inductive ReplanDecisionOutcome where
  | approve
  | reject
  deriving DecidableEq

inductive ReplanDispatchOutcome where
  | started
  | startFailed
  deriving DecidableEq

structure DefectClassObservation extends AggregateKey where
  observationEventId : JsString
  observationKind : ReplanObservationKind
  triggerManifestHash : JsString
  basisManifestHash : JsString
  findingObservationId : Option JsString
  remediationCycleId : Option JsString
  decisionId : Option JsString
  createdAt : JsString
  deriving DecidableEq

structure ReplanRequest extends AggregateKey where
  requestId : JsString
  triggerEventId : JsString
  planHash : JsString
  planVersion : ℕ
  proposalAuthorActor : JsString
  producerInvocationId : JsString
  requestedAt : JsString
  deriving DecidableEq

structure ScopeExpansionDecision extends AggregateKey where
  decisionId : JsString
  findingObservationId : JsString
  outcome : ScopeExpansionOutcome
  actorId : JsString
  reason : JsString
  expectedVersion : ℕ
  resultingVersion : ℕ
  decidedAt : JsString
  deriving DecidableEq

structure ReplanDecision extends AggregateKey where
  decisionId : JsString
  requestId : JsString
  planHash : JsString
  planVersion : ℕ
  outcome : ReplanDecisionOutcome
  actorId : JsString
  reason : JsString
  expectedVersion : ℕ
  resultingVersion : ℕ
  decidedAt : JsString
  deriving DecidableEq

structure ReplanTransition extends AggregateKey where
  transitionId : JsString
  fromState : ReplanGovernanceState
  toState : ReplanGovernanceState
  reasonCode : JsString
  triggerRecordId : JsString
  triggerHash : Option JsString
  expectedVersion : ℕ
  resultingVersion : ℕ
  transitionedAt : JsString
  deriving DecidableEq

structure ReplanDispatchAttempt extends AggregateKey where
  attemptEventId : JsString
  dispatchId : JsString
  requestId : JsString
  planHash : JsString
  planVersion : ℕ
  approvalDecisionId : JsString
  approvalEventVersion : ℕ
  outcome : ReplanDispatchOutcome
  reasonCode : Option JsString
  workflowRunId : JsString
  attemptedAt : JsString
  deriving DecidableEq

/-- The outcome of an assessment is always `APPROVED`. -/
structure ReplanReviewAssessment extends AggregateKey where
  assessmentId : JsString
  dispatchId : JsString
  reviewManifestHash : JsString
  reviewRunId : JsString
  planHash : JsString
  planVersion : ℕ
  assessedSurfaceIds : List JsString
  assessedRemediationItemIds : List JsString
  assessedTestIds : List JsString
  createdAt : JsString
  deriving DecidableEq

/-- What the store answers with: the aggregate as its records tell it. -/
structure ReplanGovernanceAggregate extends AggregateKey where
  eventVersion : ℕ
  state : ReplanGovernanceState
  observations : List DefectClassObservation
  requests : List ReplanRequest
  scopeExpansionDecisions : List ScopeExpansionDecision
  decisions : List ReplanDecision
  transitions : List ReplanTransition
  dispatchAttempts : List ReplanDispatchAttempt
  reviewAssessments : List ReplanReviewAssessment
  deriving DecidableEq

/-! ## The words of the records -/

def replanGovernanceStates : List (String × ReplanGovernanceState) :=
  [("NORMAL_REMEDIATION", .normalRemediation),
    ("REMEDIATION_REPLAN_REQUIRED", .remediationReplanRequired),
    ("REPLAN_PENDING_APPROVAL", .replanPendingApproval), ("REPLAN_APPROVED", .replanApproved),
    ("REPLAN_REJECTED", .replanRejected),
    ("BOUNDED_REMEDIATION_DISPATCHED", .boundedRemediationDispatched),
    ("REVIEW_PENDING", .reviewPending)]

def replanObservationKinds : List (String × ReplanObservationKind) :=
  [("POST_FIX_MANIFESTATION", .postFixManifestation),
    ("SCOPE_EXPANSION_ACCEPTED", .scopeExpansionAccepted),
    ("FINDING_EXHAUSTIVENESS", .findingExhaustiveness)]

def scopeExpansionOutcomes : List (String × ScopeExpansionOutcome) :=
  [("ACCEPT", .accept), ("REJECT", .reject)]

def replanDecisionOutcomes : List (String × ReplanDecisionOutcome) :=
  [("APPROVE", .approve), ("REJECT", .reject)]

def replanDispatchOutcomes : List (String × ReplanDispatchOutcome) :=
  [("STARTED", .started), ("START_FAILED", .startFailed)]

end Hepha.Replan
