import Hepha.Js.Value

/-!
# Review governance contracts

The words, the records and the rows of the review evidence: what a caller gives
the store and what its tables keep.  The schema version of an artifact is
always 1 and its source always the validated ingress, so neither is a column
here.
-/

namespace Hepha.Review

/-- The scope of a review gate. -/
structure ReviewScope where
  projectId : JsString
  featureId : JsString
  phaseNumber : ℕ
  reviewGateId : JsString
  deriving DecidableEq

/-- The errors of the stores, which are all that a caller sees of what went wrong. -/
inductive StoreError where
  | invalidInput
  | persistenceFailed
  deriving DecidableEq

def StoreError.message : StoreError → String
  | .invalidInput => "INVALID_INPUT"
  | .persistenceFailed => "PERSISTENCE_FAILED"

/-! ## Words -/

inductive ReviewStoreArtifactKind where
  | reviewManifest
  | remediationResponse
  | verificationReceipt
  | replanPlan
  | debtObservation
  deriving DecidableEq

def ReviewStoreArtifactKind.word : ReviewStoreArtifactKind → String
  | .reviewManifest => "review_manifest"
  | .remediationResponse => "remediation_response"
  | .verificationReceipt => "verification_receipt"
  | .replanPlan => "replan_plan"
  | .debtObservation => "debt_observation"

inductive ManifestResult where
  | approved
  | needsChanges
  | blocked
  deriving DecidableEq

inductive FindingDisposition where
  | inScopeBlocker
  | scopeExpansion
  | architectureDebt
  | observation
  deriving DecidableEq

inductive ClaimType where
  | architecture
  | security
  | policy
  | quality
  | featureCorrectness
  deriving DecidableEq

inductive FindingSeverity where
  | blocker
  | required
  | note
  | info
  deriving DecidableEq

inductive ReviewStoreCycleState where
  | noRemediationRequired
  | remediationVerified
  | opened
  | awaitingResponse
  | awaitingReceipt
  | reviewPending
  | replanRequired
  deriving DecidableEq

inductive ReviewStoreGateState where
  | approved
  | rejected
  | blocked
  | pending
  deriving DecidableEq

inductive RemediationDecision where
  | applied
  | notApplied
  | notApplicable
  deriving DecidableEq

def RemediationDecision.word : RemediationDecision → String
  | .applied => "APPLIED"
  | .notApplied => "NOT_APPLIED"
  | .notApplicable => "NOT_APPLICABLE"

inductive SubjectKind where
  | remediationItem
  | test
  deriving DecidableEq

def SubjectKind.word : SubjectKind → String
  | .remediationItem => "remediation_item"
  | .test => "test"

inductive VerificationOutcome where
  | verified
  | passed
  | failed
  | notRun
  | notVerifiable
  deriving DecidableEq

def VerificationOutcome.word : VerificationOutcome → String
  | .verified => "VERIFIED"
  | .passed => "PASSED"
  | .failed => "FAILED"
  | .notRun => "NOT_RUN"
  | .notVerifiable => "NOT_VERIFIABLE"

inductive RelationKind where
  | predecessor
  | supersedes
  deriving DecidableEq

def allowedArtifactKinds : List (String × ReviewStoreArtifactKind) :=
  [.reviewManifest, .remediationResponse, .verificationReceipt, .replanPlan,
    .debtObservation].map fun kind => (kind.word, kind)

def manifestResults : List (String × ManifestResult) :=
  [("APPROVED", .approved), ("NEEDS_CHANGES", .needsChanges), ("BLOCKED", .blocked)]

def findingDispositions : List (String × FindingDisposition) :=
  [("IN_SCOPE_BLOCKER", .inScopeBlocker), ("SCOPE_EXPANSION", .scopeExpansion),
    ("ARCHITECTURE_DEBT", .architectureDebt), ("OBSERVATION", .observation)]

def claimTypes : List (String × ClaimType) :=
  [("architecture", .architecture), ("security", .security), ("policy", .policy),
    ("quality", .quality), ("feature_correctness", .featureCorrectness)]

def findingSeverities : List (String × FindingSeverity) :=
  [("blocker", .blocker), ("required", .required), ("note", .note), ("info", .info)]

def allowedCycleStates : List (String × ReviewStoreCycleState) :=
  [("NO_REMEDIATION_REQUIRED", .noRemediationRequired),
    ("REMEDIATION_VERIFIED", .remediationVerified), ("OPEN", .opened),
    ("AWAITING_RESPONSE", .awaitingResponse), ("AWAITING_RECEIPT", .awaitingReceipt),
    ("REVIEW_PENDING", .reviewPending), ("REPLAN_REQUIRED", .replanRequired)]

def allowedGateStates : List (String × ReviewStoreGateState) :=
  [("APPROVED", .approved), ("REJECTED", .rejected), ("BLOCKED", .blocked), ("PENDING", .pending)]

def remediationDecisions : List (String × RemediationDecision) :=
  [.applied, .notApplied, .notApplicable].map fun decision => (decision.word, decision)

def subjectKinds : List (String × SubjectKind) :=
  [.remediationItem, .test].map fun kind => (kind.word, kind)

/-- The outcomes of a subject of either kind. -/
def verificationOutcomes : SubjectKind → List (String × VerificationOutcome)
  | .remediationItem =>
      [.verified, .failed, .notVerifiable].map fun outcome => (outcome.word, outcome)
  | .test =>
      [.passed, .failed, .notRun, .notVerifiable].map fun outcome => (outcome.word, outcome)

/-! ## What a caller gives -/

structure ReviewArtifactReferenceInput where
  artifactKind : ReviewStoreArtifactKind
  artifactId : JsString
  contentHash : JsString
  relativePath : JsString
  deriving DecidableEq

/-- The references of an artifact to those it follows. -/
structure ReviewLineageInput where
  predecessorReferences : List ReviewArtifactReferenceInput
  supersedesReference : Option ReviewArtifactReferenceInput
  deriving DecidableEq

def ReviewLineageInput.predecessorHashes (lineage : ReviewLineageInput) : List JsString :=
  lineage.predecessorReferences.map (·.contentHash)

def ReviewLineageInput.supersedesHash (lineage : ReviewLineageInput) : Option JsString :=
  lineage.supersedesReference.map (·.contentHash)

structure ReviewFindingObservationInput where
  observationId : JsString
  findingId : JsString
  surfaceJson : JsString
  remediationItemsJson : JsString
  testMatrixJson : JsString
  rootCause : Option JsString
  scopeRationale : Option JsString
  createdAt : JsString
  deriving DecidableEq

/-- The columns of a finding that do not come from its run. -/
structure ReviewFindingColumns where
  findingId : JsString
  disposition : FindingDisposition
  claimType : ClaimType
  severity : FindingSeverity
  defectClass : JsString
  summary : JsString
  ruleReference : Option JsString
  ruleId : Option JsString
  ruleVersion : Option JsString
  ruleHash : Option JsString
  acSourcePath : Option JsString
  acSection : Option JsString
  deriving DecidableEq

/-- A finding with its observation, which a validated input always has. -/
structure ReviewStoreFindingInput extends ReviewFindingColumns where
  observation : ReviewFindingObservationInput
  deriving DecidableEq

structure ReviewRemediationCycleInput where
  cycleId : JsString
  basisManifestHash : JsString
  predecessorCycleId : Option JsString
  cycleState : ReviewStoreCycleState
  reasonCode : Option JsString
  createdAt : JsString
  deriving DecidableEq

structure ReviewRemediationItemInput where
  itemEventId : JsString
  cycleId : JsString
  reviewRunId : JsString
  findingId : JsString
  remediationItemId : JsString
  eventKind : JsString
  responseHash : Option JsString
  decision : Option RemediationDecision
  outcomeSummary : Option JsString
  createdAt : JsString
  deriving DecidableEq

structure ReviewVerificationReceiptInput where
  receiptEventId : JsString
  cycleId : JsString
  receiptHash : JsString
  reviewRunId : JsString
  findingId : JsString
  subjectKind : SubjectKind
  subjectId : JsString
  outcome : VerificationOutcome
  evidenceSummary : Option JsString
  createdAt : JsString
  deriving DecidableEq

/-- Evidence hashes that are not given are none. -/
structure ReviewGateDecisionInput where
  triggerArtifactHash : JsString
  basisManifestHash : JsString
  cycleId : Option JsString
  gateState : ReviewStoreGateState
  reasonCode : JsString
  evidenceHashes : List JsString
  decidedAt : JsString
  deriving DecidableEq

/-- What only a manifest brings with it. -/
structure ReviewRunInput where
  reviewRunId : JsString
  manifestResult : ManifestResult
  workflowRunId : Option JsString
  agentInvocationId : Option JsString
  findings : List ReviewStoreFindingInput
  deriving DecidableEq

/-- An artifact as it is stored. -/
structure StoredReviewArtifact where
  contentHash : JsString
  artifactId : JsString
  artifactKind : ReviewStoreArtifactKind
  scope : ReviewScope
  featureRootPath : JsString
  artifactRelativePath : JsString
  canonicalJson : JsString
  ingestedAt : JsString
  deriving DecidableEq

/-- The input of an ingestion.  The manifest it is about is the artifact itself
where that is a manifest, and the basis manifest of any other artifact. -/
structure ReviewIngestInput extends StoredReviewArtifact where
  lineage : ReviewLineageInput
  run : Option ReviewRunInput
  manifestHash : JsString
  cycle : Option ReviewRemediationCycleInput
  gateDecision : Option ReviewGateDecisionInput
  remediationItems : Option (List ReviewRemediationItemInput)
  verificationReceipts : Option (List ReviewVerificationReceiptInput)
  /-- A manifest, and no other artifact, brings a review run. -/
  run_isSome : run.isSome ↔ artifactKind = .reviewManifest
  deriving DecidableEq

/-! ## The rows of the other tables -/

structure StoredReviewArtifactLineage where
  artifactHash : JsString
  predecessorHash : JsString
  relationKind : RelationKind
  deriving DecidableEq

structure StoredReviewRun where
  reviewRunId : JsString
  manifestHash : JsString
  scope : ReviewScope
  manifestResult : ManifestResult
  workflowRunId : Option JsString
  agentInvocationId : Option JsString
  createdAt : JsString
  deriving DecidableEq

structure StoredReviewFinding extends ReviewFindingColumns where
  reviewRunId : JsString
  scope : ReviewScope
  deriving DecidableEq

structure StoredReviewFindingObservation extends ReviewFindingObservationInput where
  reviewRunId : JsString
  deriving DecidableEq

structure StoredReviewRemediationCycle extends ReviewRemediationCycleInput where
  scope : ReviewScope
  deriving DecidableEq

structure StoredReviewGateDecision extends ReviewGateDecisionInput where
  gateDecisionId : ℕ
  scope : ReviewScope
  deriving DecidableEq

end Hepha.Review
