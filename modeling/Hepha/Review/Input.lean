import Hepha.Review.Artifact

/-!
# The input of an ingestion

`validateReviewIngestInput` reads an unknown value as the input of an
ingestion.  The text of the artifact is the only authority: what a caller adds
about the findings or the lineage has to repeat what is derived from the text,
and the derived values are the ones that are kept.
-/

namespace Hepha.Review

open JsValue

/-! ## Text that must not be kept -/

mutual

/-- `scanSafeParsedStringValues`. -/
def scanSafeParsedStringValues : JsValue → Bool
  | .str value => scanSafeStringValue value
  | .arr items => scanSafeItems items
  | .obj properties => scanSafeProperties properties
  | _ => true

def scanSafeItems : List JsValue → Bool
  | [] => true
  | item :: rest => scanSafeParsedStringValues item && scanSafeItems rest

def scanSafeProperties : List (JsString × JsValue) → Bool
  | [] => true
  | (_, value) :: rest => scanSafeParsedStringValues value && scanSafeProperties rest

end

/-! ## The artifact -/

/-- The required and the optional members of an artifact. -/
def artifactShape (kind : ReviewStoreArtifactKind) : List String × List String :=
  let common := ["schemaVersion", "artifactKind", "artifactId", "scope"]
  match kind with
  | .reviewManifest =>
      (common ++ ["result", "ruleSnapshots", "findings"], ["lineage", "blockerReason"])
  | .remediationResponse =>
      (common ++ ["manifestReference", "findingResponses"],
        ["lineage", "suspectedOutOfScopeObservations"])
  | .verificationReceipt =>
      (common ++ ["manifestReference", "responseReference", "itemReceipts", "testReceipts"],
        ["lineage"])
  | .replanPlan =>
      (common ++ ["manifestReference", "findingIds", "defectClass", "replanReason", "rootCause",
        "surface", "explicitExclusions", "remediationItems", "testMatrix", "verificationPlan",
        "closureCriteria"], ["lineage"])
  | .debtObservation =>
      (common ++ ["manifestReference", "findingId", "authority", "historicalSurface", "evidence",
        "riskRationale", "currentFeatureImpact"], ["lineage"])

/-- The scope of an artifact, which is also the scope of the input. -/
def isArtifactScope (input scope : JsValue) : Bool :=
  scope.isRecord && scope.hasOnlyKeys ["projectId", "featureId", "phaseNumber", "reviewGateId"] &&
    (["projectId", "featureId", "reviewGateId"].all fun field =>
      scope.hasText field (isKebabText 64)) &&
    (scope.get (js "phaseNumber")).isNatural.isSome &&
    ["projectId", "featureId", "phaseNumber", "reviewGateId"].all fun field =>
      (scope.get (js field)).identical (input.get (js field))

/-- The members that all artifacts have.  The source compares the version, the
kind, the id and the scope with those of the input twice. -/
def isEnvelope (kind : ReviewStoreArtifactKind) (input artifact : JsValue) : Bool :=
  artifact.hasShape (artifactShape kind).1 (artifactShape kind).2 &&
    (artifact.get (js "schemaVersion")).isInteger == some 1 &&
    artifact.hasWord "artifactKind" [kind.word] &&
    (artifact.get (js "artifactId")).identical (input.get (js "artifactId")) &&
    artifact.hasText "artifactId" isKebabIdentifier &&
    isArtifactScope input (artifact.get (js "scope"))

/-- The reference of an artifact to its basis manifest. -/
def isManifestReference (input reference : JsValue) : Bool :=
  isReferenceTo .reviewManifest reference &&
    (reference.get (js "contentHash")).identical (input.get (js "basisManifestHash"))

section Validate

variable (platform : Platform) (catalog : Catalog)

/-- `validateCurrentV1Artifact`, without the derivation of the findings. -/
def isCurrentV1Artifact (kind : ReviewStoreArtifactKind) (input artifact : JsValue) : Bool :=
  isEnvelope kind input artifact &&
    match kind with
    | .reviewManifest =>
        (artifact.get (js "result")).identical (input.get (js "manifestResult")) &&
          ((artifact.get (js "scope")).get (js "featureId")).isString.any fun featureId =>
            isReviewManifest platform catalog featureId artifact
    | kind =>
        isManifestReference input (artifact.get (js "manifestReference")) &&
          match kind with
          | .remediationResponse => isRemediationResponse artifact
          | .verificationReceipt => isVerificationReceipt artifact
          | .replanPlan => isReplanPlan artifact
          | _ => isDebtObservation artifact

/-! ## Derived findings -/

/-- `deriveCanonicalObservationId`. -/
def deriveCanonicalObservationId (scope contentHash artifactId findingId : JsValue) :
    Option JsString :=
  let identity := record [("projectId", scope.get (js "projectId")),
    ("featureId", scope.get (js "featureId")), ("phaseNumber", scope.get (js "phaseNumber")),
    ("reviewGateId", scope.get (js "reviewGateId")), ("contentHash", contentHash),
    ("artifactId", artifactId), ("findingId", findingId)]
  (canonicalizeJson platform identity).map fun text => js "observation-" ++ platform.sha256 text

/-- A member of an object literal that is only there for a text. -/
def textMember (name : String) (value : JsValue) : List (String × JsValue) :=
  if value.isString.isSome then [(name, value)] else []

/-- The columns of a finding that come from its authority. -/
def authorityColumns (authority : JsValue) : List (String × JsValue) :=
  let snapshot := authority.get (js "snapshot")
  let source := authority.get (js "source")
  match (authority.get (js "kind")).isOneOf authorityKinds with
  | some .activeRule =>
      [("ruleReference", authority.get (js "reference")),
        ("ruleId", snapshot.get (js "ruleId")), ("ruleVersion", snapshot.get (js "ruleVersion")),
        ("ruleHash", snapshot.get (js "ruleHash"))]
  | some .acceptanceCriterion =>
      [("acSourcePath", source.get (js "relativePath")), ("acSection", source.get (js "section"))]
  | none => []

/-- `deriveCanonicalFinding`. -/
def deriveCanonicalFinding (input artifact finding : JsValue) : Option JsValue := do
  let findingId := finding.get (js "findingId")
  let observationId ← deriveCanonicalObservationId platform (artifact.get (js "scope"))
    (input.get (js "contentHash")) (artifact.get (js "artifactId")) findingId
  let surfaceJson ← canonicalizeJson platform (finding.get (js "surface"))
  let remediationItemsJson ←
    canonicalizeJson platform ((finding.get (js "remediationItems")).orElse (arr []))
  let testMatrixJson ← canonicalizeJson platform ((finding.get (js "testMatrix")).orElse (arr []))
  let observation := record (
    [("observationId", str observationId), ("findingId", findingId),
      ("surfaceJson", str surfaceJson), ("remediationItemsJson", str remediationItemsJson),
      ("testMatrixJson", str testMatrixJson)] ++
    textMember "rootCause" (finding.get (js "rootCause")) ++
    textMember "scopeRationale" (finding.get (js "scopeExpansionRationale")) ++
    [("createdAt", input.get (js "ingestedAt"))])
  return record (
    (["findingId", "disposition", "claimType", "severity", "defectClass", "summary"].map
      fun field => (field, finding.get (js field))) ++
    [("observation", observation)] ++ authorityColumns (finding.get (js "authority")))

/-- The findings that are derived from a manifest. -/
def deriveCanonicalFindings (input artifact : JsValue) : Option (List JsValue) :=
  ((artifact.get (js "findings")).isArray).bind fun findings =>
    findings.mapM (deriveCanonicalFinding platform input artifact)

end Validate

def decodeObservation (value : JsValue) : Option ReviewFindingObservationInput := do
  let text := fun field => (value.get (js field)).isString
  let observationId ← text "observationId"
  let findingId ← text "findingId"
  let surfaceJson ← text "surfaceJson"
  let remediationItemsJson ← text "remediationItemsJson"
  let testMatrixJson ← text "testMatrixJson"
  let createdAt ← text "createdAt"
  let rootCause ← optionalMember value "rootCause" isString
  let scopeRationale ← optionalMember value "scopeRationale" isString
  return {
    observationId, findingId, surfaceJson, remediationItemsJson, testMatrixJson, rootCause,
    scopeRationale, createdAt }

/-- A derived finding at its type. -/
def decodeFinding (value : JsValue) : Option ReviewStoreFindingInput := do
  let text := fun field => (value.get (js field)).isString
  let findingId ← text "findingId"
  let disposition ← (value.get (js "disposition")).isOneOf findingDispositions
  let claimType ← (value.get (js "claimType")).isOneOf claimTypes
  let severity ← (value.get (js "severity")).isOneOf findingSeverities
  let defectClass ← text "defectClass"
  let summary ← text "summary"
  let observation ← decodeObservation (value.get (js "observation"))
  let ruleReference ← optionalMember value "ruleReference" isString
  let ruleId ← optionalMember value "ruleId" isString
  let ruleVersion ← optionalMember value "ruleVersion" isString
  let ruleHash ← optionalMember value "ruleHash" isString
  let acSourcePath ← optionalMember value "acSourcePath" isString
  let acSection ← optionalMember value "acSection" isString
  return {
    findingId, disposition, claimType, severity, defectClass, summary, observation, ruleReference,
    ruleId, ruleVersion, ruleHash, acSourcePath, acSection }

/-! ## What a caller says -/

/-- The longest text that is derived from a member of an artifact. -/
def maxSerializedDerivativeLength : ℕ := 256 * 1024

/-- `assertOptionalSafeBoundedMember`. -/
def hasOptionalSafeMember (maxLength : ℕ) (value : JsValue) (field : String) : Bool :=
  value.hasOptionalText field (isSafeText maxLength)

def isObservationInput (value : JsValue) : Bool :=
  value.hasShape ["observationId", "findingId", "surfaceJson", "remediationItemsJson",
    "testMatrixJson", "createdAt"] ["rootCause", "scopeRationale"] &&
    (["observationId", "findingId"].all fun field => value.hasText field isSafeIdentifier) &&
    (["surfaceJson", "remediationItemsJson", "testMatrixJson"].all fun field =>
      value.hasText field (isSafeText maxSerializedDerivativeLength)) &&
    value.hasText "createdAt" isUtcTimestamp &&
    ["rootCause", "scopeRationale"].all (hasOptionalSafeMember 4096 value)

def isFindingInput (value : JsValue) : Bool :=
  value.hasShape ["findingId", "disposition", "claimType", "severity", "defectClass", "summary"]
    ["observation", "ruleReference", "ruleId", "ruleVersion", "ruleHash", "acSourcePath",
      "acSection"] &&
    (["findingId", "disposition", "claimType", "severity", "defectClass"].all fun field =>
      value.hasText field isSafeIdentifier) &&
    value.hasText "summary" isSafeBoundedString &&
    (["ruleReference", "ruleId", "ruleVersion", "acSourcePath", "acSection"].all
      (hasOptionalSafeMember 256 value)) &&
    value.hasIfPresent "ruleHash" (fun ruleHash => (validHash ruleHash).isSome) &&
    value.hasIfPresent "observation" isObservationInput

/-- An array of different hashes. -/
def decodeHashes (maximum : ℕ) (value : JsValue) : Option (List JsString) :=
  (value.isArrayOf validHash).filter fun hashes => hashes.length ≤ maximum && hasUniqueValues hashes

/-- The lineage that the caller gives repeats the one that is derived. -/
def lineageAgrees (contentHash : JsString) (lineage : ReviewLineageInput) (supplied : JsValue) :
    Bool :=
  supplied.hasShape [] ["predecessorHashes", "supersedesHash"] &&
    (memberIfPresent supplied "predecessorHashes" (decodeHashes maxPredecessorHashes)).any
      (fun hashes => hashes.getD [] = lineage.predecessorHashes) &&
    (memberIfPresent supplied "supersedesHash" validHash).any
      (fun superseded => superseded = lineage.supersedesHash) &&
    !lineage.predecessorHashes.contains contentHash &&
    lineage.supersedesHash.all fun superseded =>
      superseded ≠ contentHash && !lineage.predecessorHashes.contains superseded

def decodeCycle (value : JsValue) : Option ReviewRemediationCycleInput := do
  guard (value.hasShape ["cycleId", "basisManifestHash", "cycleState", "createdAt"]
    ["predecessorCycleId", "reasonCode"])
  let cycleId ← safeIdentifier (value.get (js "cycleId"))
  let basisManifestHash ← validHash (value.get (js "basisManifestHash"))
  let cycleState ← (value.get (js "cycleState")).isOneOf allowedCycleStates
  let createdAt ← utcTimestamp (value.get (js "createdAt"))
  let predecessorCycleId ← optionalMember value "predecessorCycleId" (safeText 256)
  let reasonCode ← optionalMember value "reasonCode" (safeText 256)
  return { cycleId, basisManifestHash, predecessorCycleId, cycleState, reasonCode, createdAt }

def decodeGateDecision (value : JsValue) : Option ReviewGateDecisionInput := do
  guard (value.hasShape
    ["triggerArtifactHash", "basisManifestHash", "gateState", "reasonCode", "decidedAt"]
    ["cycleId", "evidenceHashes"])
  let triggerArtifactHash ← validHash (value.get (js "triggerArtifactHash"))
  let basisManifestHash ← validHash (value.get (js "basisManifestHash"))
  let gateState ← (value.get (js "gateState")).isOneOf allowedGateStates
  let reasonCode ← safeText 128 (value.get (js "reasonCode"))
  let decidedAt ← utcTimestamp (value.get (js "decidedAt"))
  let cycleId ← optionalMember value "cycleId" (safeText 256)
  let evidenceHashes ← memberIfPresent value "evidenceHashes" (decodeHashes 128)
  return {
    triggerArtifactHash, basisManifestHash, cycleId, gateState, reasonCode, decidedAt
    evidenceHashes := evidenceHashes.getD [] }

def decodeRemediationItem (value : JsValue) : Option ReviewRemediationItemInput := do
  guard (value.hasShape ["itemEventId", "cycleId", "reviewRunId", "findingId", "remediationItemId",
    "eventKind", "createdAt"] ["responseHash", "decision", "outcomeSummary"])
  let itemEventId ← safeIdentifier (value.get (js "itemEventId"))
  let cycleId ← safeIdentifier (value.get (js "cycleId"))
  let reviewRunId ← safeIdentifier (value.get (js "reviewRunId"))
  let findingId ← safeIdentifier (value.get (js "findingId"))
  let remediationItemId ← safeIdentifier (value.get (js "remediationItemId"))
  let eventKind ← safeIdentifier (value.get (js "eventKind"))
  let createdAt ← utcTimestamp (value.get (js "createdAt"))
  let responseHash ← memberIfPresent value "responseHash" validHash
  let decision ← memberIfPresent value "decision" (isOneOf remediationDecisions)
  let outcomeSummary ← optionalMember value "outcomeSummary" (safeText 256)
  return {
    itemEventId, cycleId, reviewRunId, findingId, remediationItemId, eventKind, responseHash,
    decision, outcomeSummary, createdAt }

def decodeVerificationReceipt (value : JsValue) : Option ReviewVerificationReceiptInput := do
  guard (value.hasShape ["receiptEventId", "cycleId", "receiptHash", "reviewRunId", "findingId",
    "subjectKind", "subjectId", "outcome", "createdAt"] ["evidenceSummary"])
  let receiptEventId ← safeIdentifier (value.get (js "receiptEventId"))
  let cycleId ← safeIdentifier (value.get (js "cycleId"))
  let reviewRunId ← safeIdentifier (value.get (js "reviewRunId"))
  let findingId ← safeIdentifier (value.get (js "findingId"))
  let subjectId ← safeIdentifier (value.get (js "subjectId"))
  let receiptHash ← validHash (value.get (js "receiptHash"))
  let subjectKind ← (value.get (js "subjectKind")).isOneOf subjectKinds
  let outcome ← (value.get (js "outcome")).isOneOf (verificationOutcomes subjectKind)
  let createdAt ← utcTimestamp (value.get (js "createdAt"))
  let evidenceSummary ← optionalMember value "evidenceSummary" (safeText 4096)
  return {
    receiptEventId, cycleId, receiptHash, reviewRunId, findingId, subjectKind, subjectId, outcome,
    evidenceSummary, createdAt }

/-- At most 128 events with different ids. -/
def decodeEvents {α : Type} (event : JsValue → Option α) (id : α → JsString)
    (value : JsValue) : Option (List α) :=
  (value.isArrayOf event).filter fun events =>
    events.length ≤ 128 && hasUniqueValues (events.map id)

/-! ## The whole input -/

section Input

variable (platform : Platform) (catalog : Catalog)

def inputRequiredKeys : List String :=
  ["contentHash", "artifactId", "artifactKind", "schemaVersion", "canonicalJson", "projectId",
    "featureId", "phaseNumber", "reviewGateId", "featureRootPath", "artifactRelativePath",
    "sourceMode", "ingestedAt", "lineage"]

/-- The members of the input of a manifest only. -/
def runKeys : List String :=
  ["reviewRunId", "manifestResult", "workflowRunId", "agentInvocationId", "findings"]

def inputOptionalKeys : List String :=
  runKeys ++ ["cycle", "gateDecision", "basisManifestHash", "remediationItems",
    "verificationReceipts"]

/-- `assertValidScopeMembers`. -/
def decodeScope (input : JsValue) : Option ReviewScope := do
  let projectId ← safeIdentifier (input.get (js "projectId"))
  let featureId ← safeIdentifier (input.get (js "featureId"))
  let phaseNumber ← (input.get (js "phaseNumber")).isNatural
  let reviewGateId ← safeIdentifier (input.get (js "reviewGateId"))
  return { projectId, featureId, phaseNumber, reviewGateId }

/-- The run of a manifest, with the findings that are derived from its text and
that the caller's findings repeat. -/
def decodeManifestRun (input artifact : JsValue) : Option ReviewRunInput := do
  let reviewRunId ← safeIdentifier (input.get (js "reviewRunId"))
  let manifestResult ← (input.get (js "manifestResult")).isOneOf manifestResults
  let workflowRunId ← optionalMember input "workflowRunId" (safeText 256)
  let agentInvocationId ← optionalMember input "agentInvocationId" (safeText 256)
  guard (input.hasArray "findings" fun findings =>
    0 < findings.length && findings.length ≤ maxFindings && findings.all isFindingInput)
  let derived ← deriveCanonicalFindings platform input artifact
  guard (sameJson platform (input.get (js "findings")) (arr derived))
  let findings ← derived.mapM decodeFinding
  return { reviewRunId, manifestResult, workflowRunId, agentInvocationId, findings }

/-- The run of a manifest, or none. -/
def decodeRun (kind : ReviewStoreArtifactKind) (input artifact : JsValue) :
    Option { run : Option ReviewRunInput // run.isSome ↔ kind = .reviewManifest } :=
  if h : kind = .reviewManifest then
    (decodeManifestRun platform input artifact).map fun run => ⟨some run, by simp [h]⟩
  else if runKeys.all fun key => (input.get (js key)).identical undefined then
    some ⟨none, by simp [h]⟩
  else none

/-- The text of an artifact, parsed: it is the canonical text of what it says. -/
def parseCanonicalJson (canonicalJson : JsString) : Option JsValue := do
  let parsed ← platform.parseJson canonicalJson
  guard (canonicalizeJson platform parsed = some canonicalJson)
  guard (scanSafeContent canonicalJson && scanSafeParsedStringValues parsed)
  return parsed

/-- The artifact of the input, and its parsed text. -/
def decodeArtifact (input : JsValue) : Option (StoredReviewArtifact × JsValue) := do
  let contentHash ← validHash (input.get (js "contentHash"))
  let artifactId ← safeIdentifier (input.get (js "artifactId"))
  let artifactKind ← (input.get (js "artifactKind")).isOneOf allowedArtifactKinds
  guard ((input.get (js "schemaVersion")).isInteger == some 1)
  let canonicalJson ← (input.get (js "canonicalJson")).isNonEmptyString
  let artifact ← parseCanonicalJson platform canonicalJson
  guard (isCurrentV1Artifact platform catalog artifactKind input artifact)
  guard (platform.sha256 canonicalJson = contentHash)
  let scope ← decodeScope input
  let featureRootPath ← projectRelativePosixPath (input.get (js "featureRootPath"))
  let artifactRelativePath ← projectRelativePosixPath (input.get (js "artifactRelativePath"))
  guard (artifactRelativePath = deriveArtifactPath featureRootPath artifactKind contentHash)
  guard (input.hasWord "sourceMode" ["v1_validated_ingress"])
  let ingestedAt ← utcTimestamp (input.get (js "ingestedAt"))
  return ({ contentHash, artifactId, artifactKind, scope, featureRootPath, artifactRelativePath,
            canonicalJson, ingestedAt }, artifact)

/-- The lineage that is derived from the text and that the caller's lineage repeats. -/
def decodeLineage (contentHash : JsString) (input artifact : JsValue) :
    Option ReviewLineageInput :=
  (deriveCanonicalLineage (artifact.get (js "lineage"))).filter fun lineage =>
    lineageAgrees contentHash lineage (input.get (js "lineage"))

/-- The manifest that an artifact is about. -/
def decodeManifestHash (row : StoredReviewArtifact) (input : JsValue) : Option JsString :=
  if row.artifactKind = .reviewManifest then some row.contentHash
  else validHash (input.get (js "basisManifestHash"))

/-- `validateReviewIngestInput`. -/
def validateReviewIngestInput (input : JsValue) : Option ReviewIngestInput := do
  guard (input.hasShape inputRequiredKeys inputOptionalKeys)
  let (row, artifact) ← decodeArtifact platform catalog input
  let lineage ← decodeLineage row.contentHash input artifact
  let ⟨run, run_isSome⟩ ← decodeRun platform row.artifactKind input artifact
  let manifestHash ← decodeManifestHash row input
  let cycle ← optionalMember input "cycle" decodeCycle
  let gateDecision ← optionalMember input "gateDecision" decodeGateDecision
  let remediationItems ← optionalMember input "remediationItems"
    (decodeEvents decodeRemediationItem (·.itemEventId))
  let verificationReceipts ← optionalMember input "verificationReceipts"
    (decodeEvents decodeVerificationReceipt (·.receiptEventId))
  return { row with
    lineage, run, manifestHash, cycle, gateDecision, remediationItems, verificationReceipts,
    run_isSome }

end Input

end Hepha.Review
