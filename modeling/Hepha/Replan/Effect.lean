import Hepha.Replan.Store

/-!
# What a commit can do

An accepted commit appends the records of its operation, which belong to one
aggregate, and does nothing else.  `Appended` says what it has checked of them:
the fields of each record, and for a decision and a transition the version of
the aggregate before the commit.  What holds of runs of commits is proved from
`commit_ok` alone.
-/

namespace Hepha.Replan

open JsValue Review Tx Database

/-! ## Fields of a record that was read -/

structure KeyValid (key : AggregateKey) : Prop where
  projectId : isSafeIdentifier key.scope.projectId = true
  featureId : isSafeIdentifier key.scope.featureId = true
  reviewGateId : isSafeIdentifier key.scope.reviewGateId = true
  defectClass : isKebabIdentifier key.scope.defectClass = true
  aggregateId : isKebabIdentifier key.aggregateId = true

/-- The references an observation of its kind has. -/
def observationReferences (o : DefectClassObservation) : Bool :=
  match o.observationKind with
  | .postFixManifestation =>
      o.remediationCycleId.isSome && o.findingObservationId.isNone && o.decisionId.isNone
  | .scopeExpansionAccepted =>
      o.findingObservationId.isSome && o.decisionId.isSome && o.remediationCycleId.isNone
  | .findingExhaustiveness =>
      o.findingObservationId.isSome && o.remediationCycleId.isNone && o.decisionId.isNone

structure ObservationValid (o : DefectClassObservation) : Prop where
  observationEventId : isKebabIdentifier o.observationEventId = true
  createdAt : isUtcTimestamp o.createdAt = true
  findingObservationId : o.findingObservationId.all isKebabIdentifier = true
  remediationCycleId : o.remediationCycleId.all isKebabIdentifier = true
  decisionId : o.decisionId.all isKebabIdentifier = true
  triggerManifestHash : o.triggerManifestHash.isHexDigest = true
  basisManifestHash : o.basisManifestHash.isHexDigest = true

structure RequestValid (r : ReplanRequest) : Prop where
  requestId : isKebabIdentifier r.requestId = true
  triggerEventId : isKebabIdentifier r.triggerEventId = true
  planHash : r.planHash.isHexDigest = true
  planVersion : 1 ≤ r.planVersion
  requestedAt : isUtcTimestamp r.requestedAt = true

structure ScopeDecisionValid (d : ScopeExpansionDecision) : Prop where
  decisionId : isKebabIdentifier d.decisionId = true
  findingObservationId : isKebabIdentifier d.findingObservationId = true
  versions : d.resultingVersion = d.expectedVersion + 1
  decidedAt : isUtcTimestamp d.decidedAt = true

structure DecisionValid (d : ReplanDecision) : Prop where
  decisionId : isKebabIdentifier d.decisionId = true
  requestId : isKebabIdentifier d.requestId = true
  planHash : d.planHash.isHexDigest = true
  planVersion : 1 ≤ d.planVersion
  versions : d.resultingVersion = d.expectedVersion + 1
  decidedAt : isUtcTimestamp d.decidedAt = true

structure TransitionValid (t : ReplanTransition) : Prop where
  transitionId : isKebabIdentifier t.transitionId = true
  triggerRecordId : isKebabIdentifier t.triggerRecordId = true
  reasonCode : isKebabIdentifier t.reasonCode = true
  triggerHash : t.triggerHash.all JsString.isHexDigest = true
  versions : t.resultingVersion = t.expectedVersion + 1
  transitionedAt : isUtcTimestamp t.transitionedAt = true

structure DispatchValid (d : ReplanDispatchAttempt) : Prop where
  attemptEventId : isKebabIdentifier d.attemptEventId = true
  dispatchId : isKebabIdentifier d.dispatchId = true
  requestId : isKebabIdentifier d.requestId = true
  planHash : d.planHash.isHexDigest = true
  planVersion : 1 ≤ d.planVersion
  approvalDecisionId : isKebabIdentifier d.approvalDecisionId = true
  reasonCode : d.reasonCode.all isKebabIdentifier = true
  attemptedAt : isUtcTimestamp d.attemptedAt = true

structure AssessmentValid (a : ReplanReviewAssessment) : Prop where
  assessmentId : isKebabIdentifier a.assessmentId = true
  dispatchId : isKebabIdentifier a.dispatchId = true
  reviewManifestHash : a.reviewManifestHash.isHexDigest = true
  planHash : a.planHash.isHexDigest = true
  planVersion : 1 ≤ a.planVersion
  assessedSurfaceIds : isAssessmentIds 128 a.assessedSurfaceIds = true
  assessedRemediationItemIds : isAssessmentIds 64 a.assessedRemediationItemIds = true
  assessedTestIds : isAssessmentIds 64 a.assessedTestIds = true
  createdAt : isUtcTimestamp a.createdAt = true

section Decode

variable {value : JsValue}

theorem positiveInteger_some {n : ℕ} (h : positiveInteger value = some n) : 1 ≤ n := by
  simpa using (Option.filter_eq_some_iff.mp h).2

theorem assessmentIds_some {maximum : ℕ} {ids : List JsString}
    (h : assessmentIds maximum value = some ids) : isAssessmentIds maximum ids = true :=
  (Option.filter_eq_some_iff.mp h).2

theorem decodeVersions_some {versions : ℕ × ℕ} (h : decodeVersions value = some versions) :
    versions.2 = versions.1 + 1 := by
  simp only [decodeVersions, Option.bind_eq_bind, Option.bind_eq_some_iff,
    Option.guard_eq_some'] at h
  obtain ⟨expected, -, resulting, -, _, hversions, heq⟩ := h
  cases heq
  exact hversions

theorem decodeObservation_some {o : DefectClassObservation}
    (h : decodeObservation value = some o) :
    decodeKey value = some o.toAggregateKey ∧ ObservationValid o := by
  simp only [decodeObservation, Option.bind_eq_bind, Option.bind_eq_some_iff] at h
  obtain ⟨_, -, key, hkey, eventId, heventId, kind, -, createdAt, hcreatedAt, finding, hfinding,
    cycle, hcycle, decision, hdecision, trigger, htrigger, basis, hbasis, heq⟩ := h
  cases heq
  exact ⟨hkey, kebabIdentifier_some heventId, utcTimestamp_some hcreatedAt,
    isOptional_all (fun _ => kebabIdentifier_some) hfinding,
    isOptional_all (fun _ => kebabIdentifier_some) hcycle,
    isOptional_all (fun _ => kebabIdentifier_some) hdecision, validHash_some htrigger,
    validHash_some hbasis⟩

theorem decodeRequest_some {r : ReplanRequest} (h : decodeRequest value = some r) :
    decodeKey value = some r.toAggregateKey ∧ RequestValid r := by
  simp only [decodeRequest, Option.bind_eq_bind, Option.bind_eq_some_iff] at h
  obtain ⟨_, -, key, hkey, requestId, hrequestId, triggerId, htriggerId, author, -, producer, -,
    version, hversion, _, -, requestedAt, hrequestedAt, planHash, hplanHash, heq⟩ := h
  cases heq
  exact ⟨hkey, kebabIdentifier_some hrequestId, kebabIdentifier_some htriggerId,
    validHash_some hplanHash, positiveInteger_some hversion, utcTimestamp_some hrequestedAt⟩

theorem decodeScopeDecision_some {d : ScopeExpansionDecision}
    (h : decodeScopeDecision value = some d) :
    decodeKey value = some d.toAggregateKey ∧ ScopeDecisionValid d := by
  simp only [decodeScopeDecision, Option.bind_eq_bind, Option.bind_eq_some_iff] at h
  obtain ⟨_, -, key, hkey, decisionId, hdecisionId, finding, hfinding, actor, -, outcome, -, _, -,
    versions, hversions, reason, -, decidedAt, hdecidedAt, heq⟩ := h
  cases heq
  exact ⟨hkey, kebabIdentifier_some hdecisionId, kebabIdentifier_some hfinding,
    decodeVersions_some hversions, utcTimestamp_some hdecidedAt⟩

theorem decodeDecision_some {d : ReplanDecision} (h : decodeDecision value = some d) :
    decodeKey value = some d.toAggregateKey ∧ DecisionValid d := by
  unfold decodeDecision at h
  obtain ⟨_, -, h⟩ := Option.bind_eq_some_iff.mp h
  obtain ⟨key, hkey, h⟩ := Option.bind_eq_some_iff.mp h
  obtain ⟨decisionId, hdecisionId, h⟩ := Option.bind_eq_some_iff.mp h
  obtain ⟨requestId, hrequestId, h⟩ := Option.bind_eq_some_iff.mp h
  obtain ⟨actor, -, h⟩ := Option.bind_eq_some_iff.mp h
  obtain ⟨planVersion, hplanVersion, h⟩ := Option.bind_eq_some_iff.mp h
  obtain ⟨versions, hversions, h⟩ := Option.bind_eq_some_iff.mp h
  obtain ⟨outcome, -, h⟩ := Option.bind_eq_some_iff.mp h
  obtain ⟨_, -, h⟩ := Option.bind_eq_some_iff.mp h
  obtain ⟨reason, -, h⟩ := Option.bind_eq_some_iff.mp h
  obtain ⟨decidedAt, hdecidedAt, h⟩ := Option.bind_eq_some_iff.mp h
  obtain ⟨planHash, hplanHash, h⟩ := Option.bind_eq_some_iff.mp h
  cases h
  exact ⟨hkey, kebabIdentifier_some hdecisionId, kebabIdentifier_some hrequestId,
    validHash_some hplanHash, positiveInteger_some hplanVersion, decodeVersions_some hversions,
    utcTimestamp_some hdecidedAt⟩

theorem decodeTransition_some {t : ReplanTransition} (h : decodeTransition value = some t) :
    decodeKey value = some t.toAggregateKey ∧ TransitionValid t := by
  simp only [decodeTransition, Option.bind_eq_bind, Option.bind_eq_some_iff] at h
  obtain ⟨_, -, key, hkey, transitionId, htransitionId, triggerId, htriggerId, reason, hreason,
    fromState, -, toState, -, versions, hversions, transitionedAt, htransitionedAt, triggerHash,
    htriggerHash, heq⟩ := h
  cases heq
  exact ⟨hkey, kebabIdentifier_some htransitionId, kebabIdentifier_some htriggerId,
    kebabIdentifier_some hreason, isOptional_all (fun _ => validHash_some) htriggerHash,
    decodeVersions_some hversions, utcTimestamp_some htransitionedAt⟩

theorem decodeDispatch_some {d : ReplanDispatchAttempt} (h : decodeDispatch value = some d) :
    decodeKey value = some d.toAggregateKey ∧ DispatchValid d := by
  unfold decodeDispatch at h
  obtain ⟨_, -, h⟩ := Option.bind_eq_some_iff.mp h
  obtain ⟨key, hkey, h⟩ := Option.bind_eq_some_iff.mp h
  obtain ⟨attemptId, hattemptId, h⟩ := Option.bind_eq_some_iff.mp h
  obtain ⟨dispatchId, hdispatchId, h⟩ := Option.bind_eq_some_iff.mp h
  obtain ⟨requestId, hrequestId, h⟩ := Option.bind_eq_some_iff.mp h
  obtain ⟨approvalId, happrovalId, h⟩ := Option.bind_eq_some_iff.mp h
  obtain ⟨run, -, h⟩ := Option.bind_eq_some_iff.mp h
  obtain ⟨planVersion, hplanVersion, h⟩ := Option.bind_eq_some_iff.mp h
  obtain ⟨approvalVersion, -, h⟩ := Option.bind_eq_some_iff.mp h
  obtain ⟨outcome, -, h⟩ := Option.bind_eq_some_iff.mp h
  obtain ⟨reason, hreason, h⟩ := Option.bind_eq_some_iff.mp h
  obtain ⟨attemptedAt, hattemptedAt, h⟩ := Option.bind_eq_some_iff.mp h
  obtain ⟨planHash, hplanHash, h⟩ := Option.bind_eq_some_iff.mp h
  cases h
  exact ⟨hkey, kebabIdentifier_some hattemptId, kebabIdentifier_some hdispatchId,
    kebabIdentifier_some hrequestId, validHash_some hplanHash, positiveInteger_some hplanVersion,
    kebabIdentifier_some happrovalId, isOptional_all (fun _ => kebabIdentifier_some) hreason,
    utcTimestamp_some hattemptedAt⟩

theorem decodeAssessment_some {a : ReplanReviewAssessment} (h : decodeAssessment value = some a) :
    decodeKey value = some a.toAggregateKey ∧ AssessmentValid a := by
  unfold decodeAssessment at h
  obtain ⟨_, -, h⟩ := Option.bind_eq_some_iff.mp h
  obtain ⟨key, hkey, h⟩ := Option.bind_eq_some_iff.mp h
  obtain ⟨assessmentId, hassessmentId, h⟩ := Option.bind_eq_some_iff.mp h
  obtain ⟨dispatchId, hdispatchId, h⟩ := Option.bind_eq_some_iff.mp h
  obtain ⟨_, -, h⟩ := Option.bind_eq_some_iff.mp h
  obtain ⟨run, -, h⟩ := Option.bind_eq_some_iff.mp h
  obtain ⟨planVersion, hplanVersion, h⟩ := Option.bind_eq_some_iff.mp h
  obtain ⟨surfaces, hsurfaces, h⟩ := Option.bind_eq_some_iff.mp h
  obtain ⟨items, hitems, h⟩ := Option.bind_eq_some_iff.mp h
  obtain ⟨tests, htests, h⟩ := Option.bind_eq_some_iff.mp h
  obtain ⟨createdAt, hcreatedAt, h⟩ := Option.bind_eq_some_iff.mp h
  obtain ⟨manifestHash, hmanifestHash, h⟩ := Option.bind_eq_some_iff.mp h
  obtain ⟨planHash, hplanHash, h⟩ := Option.bind_eq_some_iff.mp h
  cases h
  exact ⟨hkey, kebabIdentifier_some hassessmentId, kebabIdentifier_some hdispatchId,
    validHash_some hmanifestHash, validHash_some hplanHash, positiveInteger_some hplanVersion,
    assessmentIds_some hsurfaces, assessmentIds_some hitems, assessmentIds_some htests,
    utcTimestamp_some hcreatedAt⟩

end Decode

/-! ## The records of an operation -/

/-- The records of one operation, each where its kind has one. -/
structure OperationRecords where
  observation : Option DefectClassObservation := none
  request : Option ReplanRequest := none
  scopeExpansionDecision : Option ScopeExpansionDecision := none
  decision : Option ReplanDecision := none
  transition : Option ReplanTransition := none
  dispatch : Option ReplanDispatchAttempt := none
  assessment : Option ReplanReviewAssessment := none

def CoherentOperation.decode (operation : CoherentOperation) : Option OperationRecords :=
  let record := fun name => operation.records.get (js name)
  match operation.kind with
  | .observation => do
      let observation ← decodeObservation (record "observation")
      return { observation }
  | .thresholdManifestation => do
      let observation ← decodeObservation (record "observation")
      let transition ← decodeTransition (record "transition")
      return { observation, transition }
  | .scopeExpansionAccepted => do
      let scopeExpansionDecision ← decodeScopeDecision (record "decision")
      let observation ← decodeObservation (record "observation")
      let transition ← decodeTransition (record "transition")
      return { scopeExpansionDecision, observation, transition }
  | .scopeExpansionAcceptedNoThreshold | .scopeExpansionRejected => do
      let scopeExpansionDecision ← decodeScopeDecision (record "decision")
      let transition ← decodeTransition (record "transition")
      return { scopeExpansionDecision, transition }
  | .planRequest => do
      let request ← decodeRequest (record "request")
      let transition ← decodeTransition (record "transition")
      return { request, transition }
  | .replanDecision => do
      let decision ← decodeDecision (record "decision")
      let transition ← decodeTransition (record "transition")
      return { decision, transition }
  | .dispatchStarted => do
      let dispatch ← decodeDispatch (record "dispatch")
      let transition ← decodeTransition (record "transition")
      return { dispatch, transition }
  | .dispatchFailed => do
      let dispatch ← decodeDispatch (record "dispatch")
      return { dispatch }
  | .reviewAssessment => do
      let assessment ← decodeAssessment (record "assessment")
      let transition ← decodeTransition (record "transition")
      return { assessment, transition }

/-- The tables with the records at their ends. -/
def Database.append (db : Database) (r : OperationRecords) : Database where
  observations := db.observations ++ r.observation.toList
  requests := db.requests ++ r.request.toList
  scopeExpansionDecisions := db.scopeExpansionDecisions ++ r.scopeExpansionDecision.toList
  decisions := db.decisions ++ r.decision.toList
  transitions := db.transitions ++ r.transition.toList
  dispatchAttempts := db.dispatchAttempts ++ r.dispatch.toList
  reviewAssessments := db.reviewAssessments ++ r.assessment.toList

/-- What has been checked of the records of an operation when they are appended. -/
structure Appended (db : Database) (key : AggregateKey) (r : OperationRecords) : Prop where
  observation : ∀ o ∈ r.observation,
    o.toAggregateKey = key ∧ ObservationValid o ∧ observationReferences o = true
  request : ∀ q ∈ r.request, q.toAggregateKey = key ∧ RequestValid q
  scopeExpansionDecision : ∀ d ∈ r.scopeExpansionDecision, d.toAggregateKey = key ∧
    ScopeDecisionValid d ∧ db.currentEventVersion key = d.expectedVersion ∧
      r.transition.isSome = true
  decision : ∀ d ∈ r.decision, d.toAggregateKey = key ∧ DecisionValid d ∧
    db.currentEventVersion key = d.expectedVersion ∧ r.transition.isSome = true
  transition : ∀ t ∈ r.transition, t.toAggregateKey = key ∧ TransitionValid t ∧
    db.currentEventVersion key = t.expectedVersion ∧ db.currentState key = t.fromState
  dispatch : ∀ d ∈ r.dispatch, d.toAggregateKey = key ∧ DispatchValid d
  assessment : ∀ a ∈ r.assessment, a.toAggregateKey = key ∧ AssessmentValid a

/-! ## The rows a record refers to -/

/-- A decision is the only one on its request and plan version, and not made by
the author of the request. -/
structure DecisionLinked (db : Database) (d : ReplanDecision) : Prop where
  request : ∃ q ∈ db.requests, q.requestId = d.requestId ∧ q.toAggregateKey = d.toAggregateKey ∧
    q.planHash = d.planHash ∧ q.planVersion = d.planVersion ∧ q.proposalAuthorActor ≠ d.actorId
  fresh : ∀ other ∈ db.decisions, other.decisionId ≠ d.decisionId
  once : ∀ other ∈ db.decisions,
    ¬(other.requestId = d.requestId ∧ other.planVersion = d.planVersion)

/-- A dispatch attempt has an approval, it is the only one of its outcome, and
one that failed to start had started. -/
structure DispatchLinked (db : Database) (d : ReplanDispatchAttempt) : Prop where
  approval : ∃ approval ∈ db.decisions, approval.decisionId = d.approvalDecisionId ∧
    approval.requestId = d.requestId ∧ approval.toAggregateKey = d.toAggregateKey ∧
    approval.planHash = d.planHash ∧ approval.planVersion = d.planVersion ∧
    approval.outcome = .approve ∧ approval.resultingVersion = d.approvalEventVersion
  once : ∀ other ∈ db.dispatchAttempts, ¬(other.toAggregateKey = d.toAggregateKey ∧
    other.requestId = d.requestId ∧ other.planVersion = d.planVersion ∧
    other.outcome = d.outcome)
  started : d.outcome = .startFailed → ∃ start ∈ db.dispatchAttempts, start.outcome = .started ∧
    start.dispatchId = d.dispatchId ∧ start.toAggregateKey = d.toAggregateKey ∧
    start.requestId = d.requestId ∧ start.planHash = d.planHash ∧
    start.planVersion = d.planVersion ∧ start.approvalDecisionId = d.approvalDecisionId ∧
    start.approvalEventVersion = d.approvalEventVersion ∧ start.workflowRunId = d.workflowRunId

/-- An assessment has a dispatch that started. -/
def AssessmentLinked (db : Database) (a : ReplanReviewAssessment) : Prop :=
  ∃ start ∈ db.dispatchAttempts, start.dispatchId = a.dispatchId ∧
    start.aggregateId = a.aggregateId ∧ start.planHash = a.planHash ∧
    start.planVersion = a.planVersion ∧ start.outcome = .started

/-- The rows that the records of an operation refer to were there when they are appended. -/
structure Linked (db : Database) (r : OperationRecords) : Prop where
  request : ∀ q ∈ r.request, ∀ other ∈ db.requests, other.requestId ≠ q.requestId
  decision : ∀ d ∈ r.decision, DecisionLinked db d
  dispatch : ∀ d ∈ r.dispatch, DispatchLinked db d
  assessment : ∀ a ∈ r.assessment, AssessmentLinked db a

/-! ## The effect of each write -/

section Append

variable {review : ReviewEvidence} {db after : Database} {raw : JsValue} {key : AggregateKey}

theorem runs_accept {condition : Bool} {a : Unit} :
    Runs (accept condition) db a after ↔ condition = true ∧ after = db :=
  runs_require

theorem runs_constraint {condition : Bool} {a : Unit} :
    Runs (constraint condition) db a after ↔ condition = true ∧ after = db :=
  runs_require

theorem runs_assertReadBack {ρ : Type} {row : Option ρ} {expected : ρ → Bool} {a : Unit} :
    Runs (assertReadBack row expected) db a after ↔ row.any expected = true ∧ after = db :=
  runs_require

theorem assertObservationReferences_runs {input : DefectClassObservation} {a : Unit}
    (h : Runs (assertObservationReferences review input) db a after) :
    observationReferences input = true ∧ after = db := by
  simp only [assertObservationReferences, assertArtifact, runs_bind, runs_accept] at h
  obtain ⟨_, _, ⟨-, rfl⟩, _, _, ⟨-, rfl⟩, h⟩ := h
  unfold observationReferences
  split at h
  · simp only [runs_bind, runs_accept, runs_assertReadBack] at h
    obtain ⟨_, _, ⟨hshape, rfl⟩, -, rfl⟩ := h
    simp_all
  · simp only [runs_bind, runs_accept, runs_get, runs_assertReadBack] at h
    obtain ⟨_, _, ⟨hshape, rfl⟩, _, _, ⟨rfl, rfl⟩, -, rfl⟩ := h
    simp_all
  · simp only [runs_bind, runs_accept, runs_assertReadBack] at h
    obtain ⟨_, _, ⟨hshape, rfl⟩, -, rfl⟩ := h
    simp_all

theorem appendObservation_runs {a : Unit} (hkey : decodeKey raw = some key)
    (h : Runs (appendObservation review raw) db a after) :
    ∃ o, decodeObservation raw = some o ∧
      (o.toAggregateKey = key ∧ ObservationValid o ∧ observationReferences o = true) ∧
      after = { db with observations := db.observations ++ [o] } := by
  simp only [appendObservation, runs_bind, runs_ofOption, runs_get, runs_modify, runs_constraint,
    runs_assertReadBack] at h
  obtain ⟨o, _, ⟨hdecode, rfl⟩, _, _, hreferences, _, _, ⟨rfl, rfl⟩, _, _, ⟨-, rfl⟩, _, _,
    ⟨-, rfl⟩, _, _, ⟨-, rfl⟩, _, _, ⟨-, rfl⟩, _, _, rfl, _, _, ⟨rfl, rfl⟩, -, rfl⟩ := h
  obtain ⟨hshape, rfl⟩ := assertObservationReferences_runs hreferences
  obtain ⟨hsame, hvalid⟩ := decodeObservation_some hdecode
  rw [hkey] at hsame
  exact ⟨o, hdecode, ⟨(Option.some.inj hsame).symm, hvalid, hshape⟩, rfl⟩

theorem appendRequest_runs {a : Unit} (hkey : decodeKey raw = some key)
    (h : Runs (appendRequest review raw) db a after) :
    ∃ r, decodeRequest raw = some r ∧ (r.toAggregateKey = key ∧ RequestValid r) ∧
      (∀ other ∈ db.requests, other.requestId ≠ r.requestId) ∧
      after = { db with requests := db.requests ++ [r] } := by
  simp only [appendRequest, assertArtifact, runs_bind, runs_ofOption, runs_get, runs_modify,
    runs_accept, runs_constraint, runs_assertReadBack] at h
  obtain ⟨r, _, ⟨hdecode, rfl⟩, _, _, ⟨-, rfl⟩, _, _, ⟨rfl, rfl⟩, _, _, ⟨-, rfl⟩, _, _,
    ⟨hfresh, rfl⟩, _, _, ⟨-, rfl⟩, _, _, rfl, _, _, ⟨rfl, rfl⟩, -, rfl⟩ := h
  obtain ⟨hsame, hvalid⟩ := decodeRequest_some hdecode
  rw [hkey] at hsame
  exact ⟨r, hdecode, ⟨(Option.some.inj hsame).symm, hvalid⟩, by simpa using hfresh, rfl⟩

theorem appendScopeDecision_runs {a : Unit} (hkey : decodeKey raw = some key)
    (h : Runs (appendScopeDecision review raw) db a after) :
    ∃ d, decodeScopeDecision raw = some d ∧
      (d.toAggregateKey = key ∧ ScopeDecisionValid d ∧
        db.currentEventVersion key = d.expectedVersion) ∧
      after = { db with scopeExpansionDecisions := db.scopeExpansionDecisions ++ [d] } := by
  simp only [appendScopeDecision, runs_bind, runs_ofOption, runs_get, runs_modify, runs_accept,
    runs_constraint, runs_assertReadBack, beq_iff_eq] at h
  obtain ⟨d, _, ⟨hdecode, rfl⟩, _, _, ⟨rfl, rfl⟩, _, _, ⟨hversion, rfl⟩, _, _, ⟨-, rfl⟩, _, _,
    ⟨-, rfl⟩, _, _, ⟨-, rfl⟩, _, _, rfl, _, _, ⟨rfl, rfl⟩, -, rfl⟩ := h
  obtain ⟨hsame, hvalid⟩ := decodeScopeDecision_some hdecode
  rw [hkey] at hsame
  obtain rfl := Option.some.inj hsame
  exact ⟨d, hdecode, ⟨rfl, hvalid, hversion⟩, rfl⟩

theorem appendDecision_runs {a : Unit} (hkey : decodeKey raw = some key)
    (h : Runs (appendDecision review raw) db a after) :
    ∃ d, decodeDecision raw = some d ∧
      (d.toAggregateKey = key ∧ DecisionValid d ∧
        db.currentEventVersion key = d.expectedVersion) ∧ DecisionLinked db d ∧
      after = { db with decisions := db.decisions ++ [d] } := by
  simp only [appendDecision, assertArtifact, runs_bind, runs_ofOption, runs_get, runs_modify,
    runs_accept, runs_constraint, runs_assertReadBack, Bool.and_eq_true, beq_iff_eq] at h
  obtain ⟨d, _, ⟨hdecode, rfl⟩, _, _, ⟨-, rfl⟩, _, _, ⟨rfl, rfl⟩, _, _, ⟨hrequest, rfl⟩, _, _,
    ⟨⟨hactor, hversion⟩, rfl⟩, _, _, ⟨hunique, rfl⟩, _, _, rfl, _, _, ⟨rfl, rfl⟩, -, rfl⟩ := h
  obtain ⟨hsame, hvalid⟩ := decodeDecision_some hdecode
  rw [hkey] at hsame
  obtain rfl := Option.some.inj hsame
  refine ⟨d, hdecode, ⟨rfl, hvalid, hversion⟩, ?_, rfl⟩
  simp only [Option.any_eq_true, Bool.and_eq_true, beq_iff_eq] at hrequest
  obtain ⟨q, hfind, ⟨hqkey, hhash⟩, hplan⟩ := hrequest
  obtain ⟨hmem, hid⟩ := Table.mem_of_find hfind
  rw [hfind] at hactor
  simp only [Bool.not_eq_true', List.any_eq_false, decide_eq_true_eq, not_or] at hunique
  exact ⟨⟨q, hmem, hid, hqkey, hhash, hplan, by simpa using hactor⟩,
    fun other hother => (hunique other hother).1, fun other hother => (hunique other hother).2⟩

theorem appendTransition_runs (before : Database) {a : Unit} (hkey : decodeKey raw = some key)
    (h : Runs (appendTransition review raw) db a after)
    (hsame : db.transitions = before.transitions) :
    ∃ t, decodeTransition raw = some t ∧
      (t.toAggregateKey = key ∧ TransitionValid t ∧
        before.currentEventVersion key = t.expectedVersion ∧
        before.currentState key = t.fromState) ∧
      after = { db with transitions := db.transitions ++ [t] } := by
  simp only [appendTransition, runs_bind, runs_ofOption, runs_get, runs_modify, runs_accept,
    runs_constraint, runs_assertReadBack, Bool.and_eq_true, beq_iff_eq] at h
  obtain ⟨t, _, ⟨hdecode, rfl⟩, _, _, ⟨rfl, rfl⟩, _, _, ⟨⟨hversion, hstate⟩, rfl⟩, _, _,
    ⟨-, rfl⟩, _, _, ⟨-, rfl⟩, _, _, rfl, _, _, ⟨rfl, rfl⟩, -, rfl⟩ := h
  obtain ⟨hread, hvalid⟩ := decodeTransition_some hdecode
  rw [hkey] at hread
  obtain rfl := Option.some.inj hread
  simp only [currentEventVersion, currentState, transitionsOf, hsame] at hversion hstate
  exact ⟨t, hdecode, ⟨rfl, hvalid, hversion, hstate⟩, rfl⟩

/-- An attempt that failed to start follows the one that started. -/
theorem dispatchFollows_startFailed {d : ReplanDispatchAttempt}
    (h : dispatchFollows db d = true) (hfailed : d.outcome = .startFailed) :
    ∃ start ∈ db.dispatchAttempts, start.outcome = .started ∧ start.dispatchId = d.dispatchId ∧
      start.toAggregateKey = d.toAggregateKey ∧ start.requestId = d.requestId ∧
      start.planHash = d.planHash ∧ start.planVersion = d.planVersion ∧
      start.approvalDecisionId = d.approvalDecisionId ∧
      start.approvalEventVersion = d.approvalEventVersion ∧
      start.workflowRunId = d.workflowRunId := by
  simp only [dispatchFollows, hfailed, Option.any_eq_true, Bool.and_eq_true, beq_iff_eq] at h
  obtain ⟨start, hfind, ⟨⟨⟨⟨⟨⟨hkey, hrequest⟩, hhash⟩, hplan⟩, hid⟩, hversion⟩, hrun⟩⟩ := h
  have hfound := List.find?_some hfind
  obtain ⟨hdispatch, houtcome⟩ := of_decide_eq_true hfound
  exact ⟨start, List.mem_of_find?_eq_some hfind, houtcome, hdispatch, hkey, hrequest, hhash,
    hplan, hid, hversion, hrun⟩

theorem appendDispatch_runs {a : Unit} (hkey : decodeKey raw = some key)
    (h : Runs (appendDispatch review raw) db a after) :
    ∃ d, decodeDispatch raw = some d ∧ (d.toAggregateKey = key ∧ DispatchValid d) ∧
      DispatchLinked db d ∧ after = { db with dispatchAttempts := db.dispatchAttempts ++ [d] } := by
  simp only [appendDispatch, assertArtifact, runs_bind, runs_ofOption, runs_get, runs_modify,
    runs_accept, runs_constraint, runs_assertReadBack] at h
  obtain ⟨d, _, ⟨hdecode, rfl⟩, _, _, ⟨-, rfl⟩, _, _, ⟨rfl, rfl⟩, _, _, ⟨happroval, rfl⟩, _, _,
    ⟨hfollows, rfl⟩, _, _, ⟨-, rfl⟩, _, _, ⟨-, rfl⟩, _, _, ⟨honce, rfl⟩, _, _, rfl, _, _,
    ⟨rfl, rfl⟩, -, rfl⟩ := h
  obtain ⟨hsame, hvalid⟩ := decodeDispatch_some hdecode
  rw [hkey] at hsame
  refine ⟨d, hdecode, ⟨(Option.some.inj hsame).symm, hvalid⟩, ?_, rfl⟩
  simp only [Option.any_eq_true, Bool.and_eq_true, beq_iff_eq] at happroval
  obtain ⟨approval, hfind, ⟨⟨⟨⟨hrequest, hakey⟩, hhash⟩, hplan⟩, houtcome⟩, hversion⟩ := happroval
  obtain ⟨hmem, hid⟩ := Table.mem_of_find hfind
  exact ⟨⟨approval, hmem, hid, hrequest, hakey, hhash, hplan, houtcome, hversion⟩,
    by simpa using honce, dispatchFollows_startFailed hfollows⟩

theorem appendAssessment_runs {a : Unit} (hkey : decodeKey raw = some key)
    (h : Runs (appendAssessment review raw) db a after) :
    ∃ r, decodeAssessment raw = some r ∧ (r.toAggregateKey = key ∧ AssessmentValid r) ∧
      AssessmentLinked db r ∧
      after = { db with reviewAssessments := db.reviewAssessments ++ [r] } := by
  simp only [appendAssessment, assertArtifact, runs_bind, runs_ofOption, runs_get, runs_modify,
    runs_accept, runs_constraint, runs_assertReadBack] at h
  obtain ⟨r, _, ⟨hdecode, rfl⟩, _, _, ⟨-, rfl⟩, _, _, ⟨-, rfl⟩, _, _, ⟨rfl, rfl⟩, _, _,
    ⟨hdispatch, rfl⟩, _, _, ⟨-, rfl⟩, _, _, ⟨-, rfl⟩, _, _, rfl, _, _, ⟨rfl, rfl⟩, _, _,
    ⟨-, rfl⟩, -, rfl⟩ := h
  obtain ⟨hsame, hvalid⟩ := decodeAssessment_some hdecode
  rw [hkey] at hsame
  refine ⟨r, hdecode, ⟨(Option.some.inj hsame).symm, hvalid⟩, ?_, rfl⟩
  simp only [Option.any_eq_true, Bool.and_eq_true, beq_iff_eq] at hdispatch
  obtain ⟨start, hfind, ⟨⟨haggregate, hhash⟩, hplan⟩, houtcome⟩ := hdispatch
  obtain ⟨hmem, hid⟩ := Table.mem_of_find hfind
  exact ⟨start, hmem, hid, haggregate, hhash, hplan, houtcome⟩

end Append

/-! ## Commits -/

theorem coherentOperation_some {rawInput : JsValue} {operation : CoherentOperation}
    (h : coherentOperation rawInput = some operation) :
    ∀ name ∈ replanOperationRecordKeys operation.kind,
      decodeKey (operation.records.get (js name)) = some operation.key := by
  simp only [coherentOperation, coherentKey, Option.bind_eq_bind, Option.bind_eq_some_iff] at h
  obtain ⟨_, -, kind, -, _, -, key, ⟨primary, -, first, -, _, hkeys, _, -, hkey⟩, heq⟩ := h
  cases hkey
  cases heq
  simpa [Option.guard_eq_some'] using hkeys

theorem appendRecords_runs {review : ReviewEvidence} {db after : Database}
    {operation : CoherentOperation} {a : Unit}
    (hkeys : ∀ name ∈ replanOperationRecordKeys operation.kind,
      decodeKey (operation.records.get (js name)) = some operation.key)
    (h : Runs (appendRecords review operation.kind operation.records) db a after) :
    ∃ r, operation.decode = some r ∧ (Appended db operation.key r ∧ Linked db r) ∧
      after = db.append r := by
  rcases operation with ⟨kind, records, key⟩
  cases kind with
  | observation =>
      simp only [replanOperationRecordKeys, List.forall_mem_singleton] at hkeys
      obtain ⟨o, ho, hoValid, rfl⟩ := appendObservation_runs hkeys h
      refine ⟨{ observation := some o },
        by simp [CoherentOperation.decode, ho], ?_, by simp [Database.append]⟩
      constructor <;> constructor <;> simp_all
  | thresholdManifestation =>
      simp only [replanOperationRecordKeys, List.forall_mem_singleton,
        List.forall_mem_cons] at hkeys
      obtain ⟨hoKey, htKey⟩ := hkeys
      obtain ⟨_, _, hrun, h⟩ := runs_bind.1 h
      obtain ⟨o, ho, hoValid, rfl⟩ := appendObservation_runs hoKey hrun
      obtain ⟨t, ht, htValid, rfl⟩ := appendTransition_runs db htKey h rfl
      refine ⟨{ observation := some o, transition := some t },
        by simp [CoherentOperation.decode, ho, ht], ?_, by simp [Database.append]⟩
      constructor <;> constructor <;> simp_all
  | scopeExpansionAccepted =>
      simp only [replanOperationRecordKeys, List.forall_mem_singleton,
        List.forall_mem_cons] at hkeys
      obtain ⟨hdKey, hoKey, htKey⟩ := hkeys
      obtain ⟨_, _, hrun, h⟩ := runs_bind.1 h
      obtain ⟨d, hd, hdValid, rfl⟩ := appendScopeDecision_runs hdKey hrun
      obtain ⟨_, _, hrun, h⟩ := runs_bind.1 h
      obtain ⟨o, ho, hoValid, rfl⟩ := appendObservation_runs hoKey hrun
      obtain ⟨t, ht, htValid, rfl⟩ := appendTransition_runs db htKey h rfl
      refine ⟨{ scopeExpansionDecision := some d, observation := some o, transition := some t },
        by simp [CoherentOperation.decode, hd, ho, ht], ?_, by simp [Database.append]⟩
      constructor <;> constructor <;> simp_all
  | scopeExpansionAcceptedNoThreshold =>
      simp only [replanOperationRecordKeys, List.forall_mem_singleton,
        List.forall_mem_cons] at hkeys
      obtain ⟨hdKey, htKey⟩ := hkeys
      obtain ⟨_, _, hrun, h⟩ := runs_bind.1 h
      obtain ⟨d, hd, hdValid, rfl⟩ := appendScopeDecision_runs hdKey hrun
      obtain ⟨t, ht, htValid, rfl⟩ := appendTransition_runs db htKey h rfl
      refine ⟨{ scopeExpansionDecision := some d, transition := some t },
        by simp [CoherentOperation.decode, hd, ht], ?_, by simp [Database.append]⟩
      constructor <;> constructor <;> simp_all
  | scopeExpansionRejected =>
      simp only [replanOperationRecordKeys, List.forall_mem_singleton,
        List.forall_mem_cons] at hkeys
      obtain ⟨hdKey, htKey⟩ := hkeys
      obtain ⟨_, _, hrun, h⟩ := runs_bind.1 h
      obtain ⟨d, hd, hdValid, rfl⟩ := appendScopeDecision_runs hdKey hrun
      obtain ⟨t, ht, htValid, rfl⟩ := appendTransition_runs db htKey h rfl
      refine ⟨{ scopeExpansionDecision := some d, transition := some t },
        by simp [CoherentOperation.decode, hd, ht], ?_, by simp [Database.append]⟩
      constructor <;> constructor <;> simp_all
  | planRequest =>
      simp only [replanOperationRecordKeys, List.forall_mem_singleton,
        List.forall_mem_cons] at hkeys
      obtain ⟨hqKey, htKey⟩ := hkeys
      obtain ⟨_, _, hrun, h⟩ := runs_bind.1 h
      obtain ⟨q, hq, hqValid, hqFresh, rfl⟩ := appendRequest_runs hqKey hrun
      obtain ⟨t, ht, htValid, rfl⟩ := appendTransition_runs db htKey h rfl
      refine ⟨{ request := some q, transition := some t },
        by simp [CoherentOperation.decode, hq, ht], ?_, by simp [Database.append]⟩
      constructor <;> constructor <;> simp_all
  | replanDecision =>
      simp only [replanOperationRecordKeys, List.forall_mem_singleton,
        List.forall_mem_cons] at hkeys
      obtain ⟨hdKey, htKey⟩ := hkeys
      obtain ⟨_, _, hrun, h⟩ := runs_bind.1 h
      obtain ⟨d, hd, hdValid, hdLinked, rfl⟩ := appendDecision_runs hdKey hrun
      obtain ⟨t, ht, htValid, rfl⟩ := appendTransition_runs db htKey h rfl
      refine ⟨{ decision := some d, transition := some t },
        by simp [CoherentOperation.decode, hd, ht], ?_, by simp [Database.append]⟩
      constructor <;> constructor <;> simp_all
  | dispatchStarted =>
      simp only [replanOperationRecordKeys, List.forall_mem_singleton,
        List.forall_mem_cons] at hkeys
      obtain ⟨hdKey, htKey⟩ := hkeys
      obtain ⟨_, _, hrun, h⟩ := runs_bind.1 h
      obtain ⟨d, hd, hdValid, hdLinked, rfl⟩ := appendDispatch_runs hdKey hrun
      obtain ⟨t, ht, htValid, rfl⟩ := appendTransition_runs db htKey h rfl
      refine ⟨{ dispatch := some d, transition := some t },
        by simp [CoherentOperation.decode, hd, ht], ?_, by simp [Database.append]⟩
      constructor <;> constructor <;> simp_all
  | dispatchFailed =>
      simp only [replanOperationRecordKeys, List.forall_mem_singleton] at hkeys
      obtain ⟨d, hd, hdValid, hdLinked, rfl⟩ := appendDispatch_runs hkeys h
      refine ⟨{ dispatch := some d },
        by simp [CoherentOperation.decode, hd], ?_, by simp [Database.append]⟩
      constructor <;> constructor <;> simp_all
  | reviewAssessment =>
      simp only [replanOperationRecordKeys, List.forall_mem_singleton,
        List.forall_mem_cons] at hkeys
      obtain ⟨hrKey, htKey⟩ := hkeys
      obtain ⟨_, _, hrun, h⟩ := runs_bind.1 h
      obtain ⟨r, hr, hrValid, hrLinked, rfl⟩ := appendAssessment_runs hrKey hrun
      obtain ⟨t, ht, htValid, rfl⟩ := appendTransition_runs db htKey h rfl
      refine ⟨{ assessment := some r, transition := some t },
        by simp [CoherentOperation.decode, hr, ht], ?_, by simp [Database.append]⟩
      constructor <;> constructor <;> simp_all

/-- **What an accepted commit does.** -/
theorem commit_ok {call : Commit} {db after : Database} {aggregate : ReplanGovernanceAggregate}
    (h : commit call db = (.ok aggregate, after)) :
    ∃ operation r, coherentOperation call.rawInput = some operation ∧ operation.decode = some r ∧
      Appended db operation.key r ∧ Linked db r ∧ after = db.append r ∧
      aggregate = after.getAggregate operation.key := by
  unfold commit at h
  split at h
  · cases h
  · rename_i operation hoperation
    split at h
    · rw [atomically_ok_iff] at h
      simp only [commitBody, runs_bind, runs_get, runs_require, runs_constraint, runs_pure] at h
      obtain ⟨_, _, hrecords, _, _, ⟨rfl, rfl⟩, _, _, ⟨-, rfl⟩, _, _, ⟨-, rfl⟩, haggregate,
        rfl⟩ := h
      obtain ⟨r, hdecode, ⟨hchecked, hlinked⟩, hafter⟩ :=
        appendRecords_runs (coherentOperation_some hoperation) hrecords
      exact ⟨operation, r, hoperation, hdecode, hchecked, hlinked, hafter, haggregate⟩
    · cases h

/-- **A commit that is rejected or fails leaves the tables as they were.** -/
theorem commit_error {call : Commit} {db : Database} {e : StoreError}
    (h : (commit call db).1 = .error e) : (commit call db).2 = db := by
  revert h
  unfold commit
  split
  · exact fun _ => rfl
  · split
    · exact atomically_error
    · exact fun _ => rfl

end Hepha.Replan
