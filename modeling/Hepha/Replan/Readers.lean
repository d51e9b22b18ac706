import Hepha.Replan.Query

/-!
# The readers of an aggregate

The policy and the presentation each check the aggregate that the store answers
with before they use it, field by field.  Their checks have the same shape, and
differ in the rules for the texts of a record: `ReaderRules` has one rule for
each kind of text, and `Reader` the checks that the rules lead to.
-/

namespace Hepha.Replan

open JsValue Pattern Review

/-- The rules of a reader for the texts of a record. -/
structure ReaderRules where
  identifier : JsString → Bool
  identity : JsString → Bool
  text : JsString → Bool
  timestamp : JsString → Bool
  reasonCode : JsString → Bool
  runId : JsString → Bool
  distinctIds : Bool

/-! ## The shape that both have -/

/-- A record with no keys but the given ones, of the given aggregate. -/
def scopedRecord (value : JsValue) (keys : List String) (key : AggregateKey) : Bool :=
  value.isRecord && value.hasOnlyKeys (keyFields ++ keys) &&
    value.hasText "projectId" (· == key.scope.projectId) &&
    value.hasText "featureId" (· == key.scope.featureId) &&
    (value.get (js "phaseNumber")).isNatural == some key.scope.phaseNumber &&
    value.hasText "reviewGateId" (· == key.scope.reviewGateId) &&
    value.hasText "defectClass" (· == key.scope.defectClass) &&
    value.hasText "aggregateId" (· == key.aggregateId)

/-- `value.resultingVersion === value.expectedVersion + 1`. -/
def countedVersions (value : JsValue) : Bool :=
  (value.get (js "expectedVersion")).isNatural.any fun expected =>
    (value.get (js "resultingVersion")).isNatural == some (expected + 1)

section Records

variable (rules : ReaderRules) (value : JsValue) (key : AggregateKey)

def observationRecord : Bool :=
  scopedRecord value ["observationEventId", "observationKind", "triggerManifestHash",
      "basisManifestHash", "findingObservationId", "remediationCycleId", "decisionId",
      "createdAt"] key &&
    value.hasText "observationEventId" rules.identifier &&
    value.hasWord "observationKind"
      ["POST_FIX_MANIFESTATION", "SCOPE_EXPANSION_ACCEPTED", "FINDING_EXHAUSTIVENESS"] &&
    value.hasText "triggerManifestHash" JsString.isHexDigest &&
    value.hasText "basisManifestHash" JsString.isHexDigest &&
    value.hasText "createdAt" rules.timestamp

def requestRecord : Bool :=
  scopedRecord value ["requestId", "triggerEventId", "planHash", "planVersion",
      "proposalAuthorActor", "producerInvocationId", "policyId", "policyVersion", "eligibleRoles",
      "requestedAt"] key &&
    value.hasText "requestId" rules.identifier &&
    value.hasText "triggerEventId" rules.identifier &&
    value.hasText "planHash" JsString.isHexDigest && value.hasNatural "planVersion" 1 &&
    value.hasText "proposalAuthorActor" rules.identity &&
    value.hasText "producerInvocationId" rules.identity && hasPolicy value &&
    (value.get (js "eligibleRoles")).isArrayOf isString == some [js "ARCHITECTURE_STEWARD"] &&
    value.hasText "requestedAt" rules.timestamp

def scopeDecisionRecord : Bool :=
  scopedRecord value ["decisionId", "findingObservationId", "outcome", "actorId",
      "authorizedRole", "policyId", "policyVersion", "reason", "expectedVersion",
      "resultingVersion", "decidedAt"] key &&
    value.hasText "decisionId" rules.identifier &&
    value.hasText "findingObservationId" rules.identifier &&
    value.hasWord "outcome" ["ACCEPT", "REJECT"] && value.hasText "actorId" rules.identity &&
    value.hasWord "authorizedRole" ["FEATURE_OWNER"] && hasPolicy value &&
    value.hasText "reason" rules.text && countedVersions value &&
    value.hasText "decidedAt" rules.timestamp

def decisionRecord : Bool :=
  scopedRecord value ["decisionId", "requestId", "planHash", "planVersion", "outcome", "actorId",
      "authorizedRole", "policyId", "policyVersion", "reason", "expectedVersion",
      "resultingVersion", "decidedAt"] key &&
    value.hasText "decisionId" rules.identifier && value.hasText "requestId" rules.identifier &&
    value.hasText "planHash" JsString.isHexDigest && value.hasNatural "planVersion" 1 &&
    value.hasWord "outcome" ["APPROVE", "REJECT"] && value.hasText "actorId" rules.identity &&
    value.hasWord "authorizedRole" ["ARCHITECTURE_STEWARD"] && hasPolicy value &&
    value.hasText "reason" rules.text && countedVersions value &&
    value.hasText "decidedAt" rules.timestamp

def transitionRecord : Bool :=
  scopedRecord value ["transitionId", "fromState", "toState", "reasonCode", "triggerRecordId",
      "triggerHash", "expectedVersion", "resultingVersion", "transitionedAt"] key &&
    value.hasText "transitionId" rules.identifier &&
    ((value.get (js "fromState")).isOneOf replanGovernanceStates).isSome &&
    ((value.get (js "toState")).isOneOf replanGovernanceStates).isSome &&
    value.hasText "reasonCode" rules.reasonCode &&
    value.hasText "triggerRecordId" rules.identifier &&
    value.hasOptionalText "triggerHash" JsString.isHexDigest && countedVersions value &&
    value.hasText "transitionedAt" rules.timestamp

def dispatchRecord : Bool :=
  scopedRecord value ["attemptEventId", "dispatchId", "requestId", "planHash", "planVersion",
      "approvalDecisionId", "approvalEventVersion", "outcome", "reasonCode", "workflowRunId",
      "attemptedAt"] key &&
    value.hasText "attemptEventId" rules.identifier &&
    value.hasText "dispatchId" rules.identifier && value.hasText "requestId" rules.identifier &&
    value.hasText "planHash" JsString.isHexDigest && value.hasNatural "planVersion" 1 &&
    value.hasText "approvalDecisionId" rules.identifier &&
    value.hasNatural "approvalEventVersion" 0 &&
    value.hasWord "outcome" ["STARTED", "START_FAILED"] &&
    value.hasOptionalText "reasonCode" rules.reasonCode &&
    value.hasText "workflowRunId" rules.runId && value.hasText "attemptedAt" rules.timestamp

/-- A list of one to `maximum` identifiers. -/
def hasIds (field : String) (maximum : ℕ) : Bool :=
  ((value.get (js field)).isArrayOf isString).any fun ids =>
    0 < ids.length && ids.length ≤ maximum && ids.all rules.identifier &&
      (!rules.distinctIds || hasUniqueValues ids)

def assessmentRecord : Bool :=
  scopedRecord value ["assessmentId", "dispatchId", "reviewManifestHash", "reviewRunId",
      "planHash", "planVersion", "outcome", "assessedSurfaceIds", "assessedRemediationItemIds",
      "assessedTestIds", "createdAt"] key &&
    value.hasText "assessmentId" rules.identifier && value.hasText "dispatchId" rules.identifier &&
    value.hasText "reviewManifestHash" JsString.isHexDigest &&
    value.hasText "reviewRunId" rules.runId && value.hasText "planHash" JsString.isHexDigest &&
    value.hasNatural "planVersion" 1 && value.hasText "outcome" rules.text &&
    hasIds rules value "assessedSurfaceIds" 128 &&
    hasIds rules value "assessedRemediationItemIds" 64 &&
    hasIds rules value "assessedTestIds" 64 && value.hasText "createdAt" rules.timestamp

end Records

/-- The states that may follow a state. -/
abbrev TransitionTable := ReplanGovernanceState → List ReplanGovernanceState

/-- The transitions count from a version and go on from a state, each as the table allows. -/
def coherentFrom (allowed : TransitionTable) :
    ℕ → ReplanGovernanceState → List JsValue → Bool
  | _, _, [] => true
  | version, state, transition :: rest =>
      (transition.get (js "expectedVersion")).isNatural == some version &&
        (transition.get (js "resultingVersion")).isNatural == some (version + 1) &&
        (transition.get (js "fromState")).isOneOf replanGovernanceStates == some state &&
        ((transition.get (js "toState")).isOneOf replanGovernanceStates).any fun toState =>
          (allowed state).contains toState && coherentFrom allowed (version + 1) toState rest

/-- The transitions lead to the version and the state of the aggregate. -/
def coherentTransitionChain (allowed : TransitionTable) (eventVersion : ℕ)
    (state : ReplanGovernanceState) (transitions : List JsValue) : Bool :=
  match transitions.getLast? with
  | none => eventVersion == 0 && state == .normalRemediation
  | some last => coherentFrom allowed 0 .normalRemediation transitions &&
      (last.get (js "resultingVersion")).isNatural == some eventVersion &&
      (last.get (js "toState")).isOneOf replanGovernanceStates == some state

/-- The checks of a reader, one for each kind of record. -/
structure Reader where
  rules : ReaderRules
  observation : JsValue → AggregateKey → Bool
  request : JsValue → AggregateKey → Bool
  scopeExpansionDecision : JsValue → AggregateKey → Bool
  decision : JsValue → AggregateKey → Bool
  transition : JsValue → AggregateKey → Bool
  dispatchAttempt : JsValue → AggregateKey → Bool
  reviewAssessment : JsValue → AggregateKey → Bool
  allowedTransitions : TransitionTable

namespace Reader

variable (reader : Reader)

def scope (value : JsValue) : Option ReplanGovernanceScope := do
  guard (value.isRecord && value.hasOnlyKeys
    ["projectId", "featureId", "phaseNumber", "reviewGateId", "defectClass"])
  let projectId ← (value.get (js "projectId")).isString.filter reader.rules.identity
  let featureId ← (value.get (js "featureId")).isString.filter reader.rules.identity
  let phaseNumber ← (value.get (js "phaseNumber")).isNatural
  let reviewGateId ← (value.get (js "reviewGateId")).isString.filter reader.rules.identity
  let defectClass ← (value.get (js "defectClass")).isString.filter reader.rules.identifier
  return { projectId, featureId, phaseNumber, reviewGateId, defectClass }

/-- The most records of an aggregate that is read. -/
def maxRecords : ℕ := 512

/-- The check of a whole aggregate. -/
def validAggregate (value : JsValue) : Bool :=
  let list := fun field => (value.get (js field)).isArray
  Option.isSome (do
    guard (value.isRecord && value.hasOnlyKeys ["scope", "aggregateId", "eventVersion", "state",
      "observations", "requests", "scopeExpansionDecisions", "decisions", "transitions",
      "dispatchAttempts", "reviewAssessments"])
    let scope ← reader.scope (value.get (js "scope"))
    let aggregateId ← (value.get (js "aggregateId")).isString.filter reader.rules.identifier
    let eventVersion ← (value.get (js "eventVersion")).isNatural
    let state ← (value.get (js "state")).isOneOf replanGovernanceStates
    let observations ← list "observations"
    let requests ← list "requests"
    let scopeExpansionDecisions ← list "scopeExpansionDecisions"
    let decisions ← list "decisions"
    let transitions ← list "transitions"
    let dispatchAttempts ← list "dispatchAttempts"
    let reviewAssessments ← list "reviewAssessments"
    let key : AggregateKey := { scope, aggregateId }
    guard (observations.length + requests.length + scopeExpansionDecisions.length +
      decisions.length + transitions.length + dispatchAttempts.length +
      reviewAssessments.length ≤ maxRecords)
    guard (observations.all (reader.observation · key) && requests.all (reader.request · key) &&
      scopeExpansionDecisions.all (reader.scopeExpansionDecision · key) &&
      decisions.all (reader.decision · key) && transitions.all (reader.transition · key) &&
      dispatchAttempts.all (reader.dispatchAttempt · key) &&
      reviewAssessments.all (reader.reviewAssessment · key))
    guard (coherentTransitionChain reader.allowedTransitions eventVersion state transitions))

end Reader

/-- A timestamp of this century, with what may follow its seconds. -/
def centuryTime (suffix : Pattern) (value : JsString) : Option Date.DateTime := do
  let (time, rest) ← Date.readDateTime value
  guard (2000 ≤ time.year ∧ time.year ≤ 2099 ∧ testWhole suffix rest)
  return time

/-- `(?:\.\d+)?`. -/
def fraction : Pattern :=
  optional (seq (lit ".") (atLeast 1 isDigit))

/-! ## The policy -/

namespace Policy

def identifier (value : JsString) : Bool :=
  value.length ≤ 128 && value.isKebabCase

def safeText (value : JsString) : Bool :=
  value.isWellFormed && Review.isReviewContractSafeString value &&
    !value.any Review.isTextControl

def safeIdentity (value : JsString) : Bool :=
  value.length ≤ 256 && safeText value

/-- `/^20\d{2}-…(?:\.\d+)?(?:Z|\+00:00)$/`, and a real date and time. -/
def timestamp (value : JsString) : Bool :=
  (centuryTime (seq fraction (oneOf [lit "Z", lit "+00:00"])) value).any (·.exists)

def rules : ReaderRules where
  identifier := identifier
  identity := safeIdentity
  text := safeText
  timestamp := timestamp
  reasonCode := safeText
  runId := identifier
  distinctIds := true

def isObservationRecord (value : JsValue) (key : AggregateKey) : Bool :=
  let absent := fun field => ((value.get (js field)).isOptional isString).any Option.isNone
  observationRecord rules value key &&
    value.hasOptionalText "findingObservationId" identifier &&
    value.hasOptionalText "remediationCycleId" identifier &&
    value.hasOptionalText "decisionId" identifier &&
    match (value.get (js "observationKind")).isOneOf replanObservationKinds with
    | some .postFixManifestation => !absent "remediationCycleId" &&
        absent "findingObservationId" && absent "decisionId"
    | some .scopeExpansionAccepted => !absent "findingObservationId" && !absent "decisionId" &&
        absent "remediationCycleId"
    | _ => !absent "findingObservationId" && absent "decisionId" && absent "remediationCycleId"

def isRequestRecord := requestRecord rules
def isScopeDecisionRecord := scopeDecisionRecord rules
def isDecisionRecord := decisionRecord rules
def isTransitionRecord := transitionRecord rules
def isDispatchRecord := dispatchRecord rules
def isAssessmentRecord := assessmentRecord rules

def allowedTransitions : TransitionTable
  | .normalRemediation => [.normalRemediation, .remediationReplanRequired]
  | .remediationReplanRequired => [.replanPendingApproval]
  | .replanPendingApproval => [.replanApproved, .replanRejected]
  | .replanApproved => [.boundedRemediationDispatched]
  | .replanRejected => [.replanPendingApproval]
  | .boundedRemediationDispatched => [.reviewPending]
  | .reviewPending => [.reviewPending, .normalRemediation, .remediationReplanRequired]

def reader : Reader where
  rules := rules
  observation := isObservationRecord
  request := isRequestRecord
  scopeExpansionDecision := isScopeDecisionRecord
  decision := isDecisionRecord
  transition := isTransitionRecord
  dispatchAttempt := isDispatchRecord
  reviewAssessment := isAssessmentRecord
  allowedTransitions := allowedTransitions

def validateAggregate : JsValue → Bool := reader.validAggregate

end Policy

/-! ## The presentation -/

namespace Presentation

def safeText (maximumLength : ℕ) (value : JsString) : Bool :=
  0 < value.length && value.length ≤ maximumLength && value.isWellFormed &&
    Review.isReviewContractSafeString value && !value.any Review.isTextControl

def safeIdentifier : JsString → Bool := safeText 256

def kebabIdentifier (value : JsString) : Bool := value.isKebabCase

/-- `TIMESTAMP_RE`, and `new Date(value).toISOString() === value`. -/
def timestamp (value : JsString) : Bool :=
  (centuryTime (seq fraction (lit "Z")) value).isSome && (Date.canonicalTime value).isSome

def rules : ReaderRules where
  identifier := kebabIdentifier
  identity := safeIdentifier
  text := safeText 4096
  timestamp := timestamp
  reasonCode := kebabIdentifier
  runId := safeIdentifier
  distinctIds := false

def observation := observationRecord rules
def request := requestRecord rules
def scopeDecision := scopeDecisionRecord rules
def replanDecision := decisionRecord rules
def transition := transitionRecord rules
def dispatch := dispatchRecord rules
def assessment := assessmentRecord rules

/-- `ALLOWED_TRANSITIONS`. -/
def allowedTransitions : TransitionTable
  | .normalRemediation => [.normalRemediation, .remediationReplanRequired]
  | .remediationReplanRequired => [.replanPendingApproval]
  | .replanPendingApproval => [.replanApproved, .replanRejected]
  | .replanApproved => [.boundedRemediationDispatched]
  | .replanRejected => [.replanPendingApproval]
  | .boundedRemediationDispatched => [.reviewPending]
  | .reviewPending => [.reviewPending, .normalRemediation, .remediationReplanRequired]

def reader : Reader where
  rules := rules
  observation := observation
  request := request
  scopeExpansionDecision := scopeDecision
  decision := replanDecision
  transition := transition
  dispatchAttempt := dispatch
  reviewAssessment := assessment
  allowedTransitions := allowedTransitions

def validAggregate : JsValue → Bool := reader.validAggregate

end Presentation

end Hepha.Replan
