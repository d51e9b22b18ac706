import Hepha.Js.Json
import Hepha.Review.Guards

/-!
# Artifacts of the current version

What the store asks of the parsed text of an artifact, whatever the caller says
about it: the exact members of each kind of artifact, the rules of their fields
and the agreement of a manifest with the catalog of active rules.  Every
refusal is the same `INVALID_INPUT`, so a check is a Boolean.
-/

namespace Hepha.Review

open JsValue

/-- The active rules that were resolved when the store was built, by their ids. -/
abbrev Catalog := List (JsString × JsValue)

def maxFindings : ℕ := 64

def maxPredecessorHashes : ℕ := 64

def maxItemsPerFinding : ℕ := 64

def maxCollectionEntries : ℕ := 128

/-! ## References and lineage -/

/-- `assertArtifactReferenceShape`. -/
def decodeArtifactReference (value : JsValue) : Option ReviewArtifactReferenceInput := do
  guard (value.hasShape ["artifactKind", "artifactId", "contentHash", "relativePath"] [])
  let artifactKind ← (value.get (js "artifactKind")).isOneOf allowedArtifactKinds
  let artifactId ← kebabIdentifier (value.get (js "artifactId"))
  let contentHash ← validHash (value.get (js "contentHash"))
  let relativePath ← projectRelativePosixPath (value.get (js "relativePath"))
  return { artifactKind, artifactId, contentHash, relativePath }

/-- A reference to an artifact of the given kind. -/
def isReferenceTo (kind : ReviewStoreArtifactKind) (value : JsValue) : Bool :=
  (decodeArtifactReference value).any fun reference => reference.artifactKind = kind

/-- The predecessors in a lineage that has some. -/
def decodePredecessors (value : JsValue) : Option (List ReviewArtifactReferenceInput) := do
  let items ← value.isArray
  guard (0 < items.length && items.length ≤ maxPredecessorHashes)
  let references ← items.mapM decodeArtifactReference
  guard (hasUniqueValues (references.map (·.contentHash)))
  return references

/-- `deriveCanonicalLineage`. -/
def deriveCanonicalLineage (value : JsValue) : Option ReviewLineageInput :=
  match value with
  | undefined => some { predecessorReferences := [], supersedesReference := none }
  | lineage => do
      guard (lineage.hasShape [] ["predecessors", "supersedes"])
      let predecessors ← memberIfPresent lineage "predecessors" decodePredecessors
      let predecessorReferences := predecessors.getD []
      let supersedesReference ← memberIfPresent lineage "supersedes" decodeArtifactReference
      guard (predecessorReferences.all fun reference =>
        supersedesReference.all fun superseded => reference.contentHash ≠ superseded.contentHash)
      return { predecessorReferences, supersedesReference }

/-! ## Surfaces, rules and authorities -/

def isSurfaceEntry (entry : JsValue) : Bool :=
  entry.hasShape ["surfaceId", "relativePath"] ["symbol", "endpoint", "rationale"] &&
    entry.hasText "surfaceId" isKebabIdentifier &&
    entry.hasText "relativePath" isProjectRelativePosixPath &&
    ["symbol", "endpoint", "rationale"].all fun key =>
      entry.hasIfPresent key fun value => (safeBoundedString value).isSome

def isSurfaceCollection (entries : List JsValue) : Bool :=
  entries.length ≤ maxCollectionEntries && entries.all isSurfaceEntry &&
    hasUniqueValues (textsOf entries "surfaceId")

/-- The entries of a collection of a surface. -/
def surfaceEntries (surface : JsValue) (member : String) : List JsValue :=
  (surface.get (js member)).isArray.getD []

/-- `assertSurfaceShape`. -/
def isSurface (surface : JsValue) : Bool :=
  surface.hasShape ["inspected", "affected", "confirmedUnaffected"] [] &&
    (["inspected", "affected", "confirmedUnaffected"].all fun member =>
      surface.hasArray member isSurfaceCollection) &&
    (textsOf (surfaceEntries surface "affected") "surfaceId").all fun id =>
      !(textsOf (surfaceEntries surface "confirmedUnaffected") "surfaceId").contains id

/-- `assertActiveRuleSnapshotShape`. -/
def isActiveRuleSnapshot (snapshot : JsValue) : Bool :=
  snapshot.hasShape ["schemaVersion", "catalogSchemaVersion", "ruleId", "ruleVersion", "category",
    "scope", "title", "source", "catalogPath", "catalogSourceHash", "ruleHash"] [] &&
    (snapshot.get (js "schemaVersion")).isInteger == some 1 &&
    (snapshot.get (js "catalogSchemaVersion")).isInteger == some 1 &&
    snapshot.hasWord "category" ["architecture", "security", "policy", "quality"] &&
    snapshot.hasWord "catalogPath" [".hepha/architecture-rules.yaml"] &&
    snapshot.hasText "ruleId" isKebabIdentifier &&
    snapshot.hasText "ruleVersion" (isSafeText 32) &&
    snapshot.hasText "scope" isSafeBoundedString &&
    snapshot.hasText "title" isSafeBoundedString &&
    snapshot.hasText "catalogSourceHash" JsString.isHexDigest &&
    snapshot.hasText "ruleHash" JsString.isHexDigest &&
    (snapshot.get (js "source")).hasShape ["document", "section"] [] &&
    (snapshot.get (js "source")).hasText "document" isSafeBoundedString &&
    (snapshot.get (js "source")).hasText "section" isSafeBoundedString

inductive AuthorityKind where
  | activeRule
  | acceptanceCriterion
  deriving DecidableEq

def authorityKinds : List (String × AuthorityKind) :=
  [("active_rule", .activeRule), ("acceptance_criterion", .acceptanceCriterion)]

/-- `/^rule:[a-z][a-z0-9]*(?:-[a-z0-9]+)*$/`. -/
def isRuleReference (reference : JsString) : Bool :=
  (js "rule:").isPrefixOf reference && JsString.isKebabCase (reference.drop 5)

/-- `^ac:${featureId}:[a-zA-Z0-9_-]+$`. -/
def isCriterionReference (featureId reference : JsString) : Bool :=
  let start := js "ac:" ++ featureId ++ js ":"
  start.isPrefixOf reference && start.length < reference.length &&
    (reference.drop start.length).all fun u => Pattern.isAlphanumeric u || Pattern.anyOf "_-" u

/-- The authority of a finding. -/
def isAuthority (featureId : JsString) (authority : JsValue) : Bool :=
  authority.hasShape ["kind", "reference"] ["snapshot", "source"] &&
    match (authority.get (js "kind")).isOneOf authorityKinds with
    | some .activeRule =>
        let snapshot := authority.get (js "snapshot")
        isActiveRuleSnapshot snapshot && authority.hasText "reference" fun reference =>
          isRuleReference reference &&
            (snapshot.get (js "ruleId")).isString.any fun ruleId =>
              reference == js "rule:" ++ ruleId
    | some .acceptanceCriterion =>
        let source := authority.get (js "source")
        authority.hasText "reference" (isCriterionReference featureId) &&
          source.hasShape ["relativePath", "section"] [] &&
          source.hasText "relativePath" isProjectRelativePosixPath &&
          source.hasText "section" isSafeBoundedString
    | none => false

/-! ## Findings -/

/-- A remediation item or a test of a finding. -/
def isObligation (id text : String) (minimumTargets : ℕ) (affected : List JsString)
    (item : JsValue) : Bool :=
  item.hasShape [id, text, "targetSurfaceIds"] [] &&
    item.hasText id isKebabIdentifier && item.hasText text isSafeBoundedString &&
    item.hasArray "targetSurfaceIds" fun targets =>
      minimumTargets ≤ targets.length && targets.length ≤ maxCollectionEntries &&
        (targets.all fun target => target.isString.any fun surfaceId =>
          isKebabIdentifier surfaceId && affected.contains surfaceId) &&
        hasUniqueValues (targets.filterMap isString)

/-- `validateObligations`. -/
def isObligations (id text : String) (minimumTargets : ℕ) (affected : List JsString)
    (items : List JsValue) : Bool :=
  0 < items.length && items.length ≤ maxItemsPerFinding &&
    items.all (isObligation id text minimumTargets affected) && hasUniqueValues (textsOf items id)

def exhaustivenessDecisions : List String :=
  ["local_only", "cross_cutting_complete", "replan_required"]

/-- The members of a finding that has to be remediated. -/
def isRemediable (disposition : FindingDisposition) (finding : JsValue) : Bool :=
  let surface := finding.get (js "surface")
  let affected := textsOf (surfaceEntries surface "affected") "surfaceId"
  finding.hasText "rootCause" isSafeBoundedString &&
    (["inspected", "affected", "confirmedUnaffected"].all fun member =>
      !(surfaceEntries surface member).isEmpty) &&
    finding.hasArray "remediationItems" (isObligations "remediationItemId" "instruction" 1 affected)
    && finding.hasArray "testMatrix" (isObligations "testId" "requirement" 0 affected) &&
    finding.hasWord "exhaustivenessDecision" exhaustivenessDecisions &&
    finding.hasWord "compatibilityDecision"
      ["breaking_change_permitted", "backward_compatibility_required"] &&
    (if finding.hasWord "compatibilityDecision" ["backward_compatibility_required"] then
      finding.hasText "compatibilityApprovalSource" isSafeBoundedString &&
        finding.hasText "compatibilityJustification" isSafeBoundedString
    else !finding.hasKey "compatibilityApprovalSource" &&
      !finding.hasKey "compatibilityJustification") &&
    (if disposition = .scopeExpansion then
      finding.hasText "scopeExpansionRationale" isSafeBoundedString
    else !finding.hasKey "scopeExpansionRationale") &&
    !finding.hasKey "debtImpact" && !finding.hasKey "debtObservationReference"

/-- The members of a finding only when it has to be remediated. -/
def remediationKeys : List String :=
  ["rootCause", "scopeExpansionRationale", "remediationItems", "testMatrix",
    "exhaustivenessDecision", "compatibilityDecision", "compatibilityApprovalSource",
    "compatibilityJustification"]

/-- `assertFindingNestedContract`. -/
def isFindingNestedContract (featureId : JsString) (finding : JsValue) : Bool :=
  let surface := finding.get (js "surface")
  let authority := finding.get (js "authority")
  let disposition := (finding.get (js "disposition")).isOneOf findingDispositions
  isSurface surface && finding.hasIfPresent "authority" (isAuthority featureId) &&
    (finding.hasKey "authority" || disposition == some .observation) &&
    match disposition with
    | some .inScopeBlocker => isRemediable .inScopeBlocker finding
    | some .scopeExpansion => isRemediable .scopeExpansion finding
    | some .architectureDebt =>
        (authority.get (js "kind")).isOneOf authorityKinds == some .activeRule &&
          !(surfaceEntries surface "inspected").isEmpty &&
          !(surfaceEntries surface "affected").isEmpty &&
          finding.hasWord "debtImpact" ["untouched_non_blocking"] &&
          finding.hasIfPresent "debtObservationReference" (isReferenceTo .debtObservation) &&
          remediationKeys.all (!finding.hasKey ·)
    | some .observation =>
        !(surfaceEntries surface "inspected").isEmpty &&
          (remediationKeys ++ ["debtImpact", "debtObservationReference"]).all (!finding.hasKey ·)
    | none => false

/-- Whether a finding of the disposition has to be remediated before an approval. -/
def FindingDisposition.isBlocking : FindingDisposition → Bool
  | .inScopeBlocker | .scopeExpansion => true
  | .architectureDebt | .observation => false

/-- The severities that go with a disposition. -/
def severityAgrees (disposition : FindingDisposition) (severity : FindingSeverity) : Bool :=
  if disposition.isBlocking then severity = .blocker || severity = .required
  else severity = .note || severity = .info

section Manifest

variable (platform : Platform) (catalog : Catalog)

/-- The catalog has the rule of the snapshot as the snapshot has it. -/
def isCatalogSnapshot (snapshot : JsValue) : Bool :=
  (snapshot.get (js "ruleId")).isString.any fun ruleId =>
    (JsMap.get catalog ruleId).any fun current => sameJson platform current snapshot

/-- The kind of authority that goes with a claim, and the rule it cites. -/
def authorityAgrees (snapshots : List JsValue) (claimType : ClaimType) (authority : JsValue) :
    Bool :=
  match (authority.get (js "kind")).isOneOf authorityKinds with
  | some .acceptanceCriterion => claimType = .featureCorrectness
  | some .activeRule =>
      let snapshot := authority.get (js "snapshot")
      claimType ≠ .featureCorrectness && isCatalogSnapshot platform catalog snapshot &&
        snapshots.any fun cited =>
          (cited.get (js "ruleId")).identical (snapshot.get (js "ruleId")) &&
            sameJson platform snapshot cited
  | none => false

/-- A finding of a manifest with the given rule snapshots. -/
def isFinding (featureId : JsString) (snapshots : List JsValue) (finding : JsValue) : Bool :=
  finding.hasShape
    ["findingId", "disposition", "claimType", "defectClass", "severity", "summary", "surface"]
    (["authority"] ++ remediationKeys ++ ["debtImpact", "debtObservationReference"]) &&
    finding.hasText "findingId" isKebabIdentifier &&
    ((finding.get (js "disposition")).isOneOf findingDispositions).any (fun disposition =>
      ((finding.get (js "severity")).isOneOf findingSeverities).any (severityAgrees disposition)) &&
    ((finding.get (js "claimType")).isOneOf claimTypes).any (fun claimType =>
      finding.hasIfPresent "authority" (authorityAgrees platform catalog snapshots claimType)) &&
    finding.hasText "defectClass" isKebabIdentifier &&
    finding.hasText "summary" isSafeBoundedString &&
    isFindingNestedContract featureId finding

/-- The rules that the findings cite. -/
def citedRuleIds (findings : List JsValue) : List JsString :=
  findings.filterMap fun finding =>
    let authority := finding.get (js "authority")
    if (authority.get (js "kind")).isOneOf authorityKinds = some .activeRule then
      ((authority.get (js "snapshot")).get (js "ruleId")).isString
    else none

/-- Whether a finding has to be remediated before an approval. -/
def isBlockingFinding (finding : JsValue) : Bool :=
  ((finding.get (js "disposition")).isOneOf findingDispositions).any (·.isBlocking)

/-- The findings of a manifest, the rules they cite and its result. -/
def isManifestFindings (featureId : JsString) (result : ManifestResult)
    (snapshots findings : List JsValue) : Bool :=
  snapshots.length ≤ maxFindings && 0 < findings.length && findings.length ≤ maxFindings &&
    snapshots.all isActiveRuleSnapshot && hasUniqueValues (textsOf snapshots "ruleId") &&
    snapshots.all (isCatalogSnapshot platform catalog) &&
    findings.all (isFinding platform catalog featureId snapshots) &&
    hasUniqueValues (textsOf findings "findingId") &&
    setSize (citedRuleIds findings) == setSize (textsOf snapshots "ruleId") &&
    (citedRuleIds findings).all (textsOf snapshots "ruleId").contains &&
    match result with
    | .approved => !findings.any isBlockingFinding
    | .needsChanges => findings.any isBlockingFinding
    | .blocked => true

def isReviewManifest (featureId : JsString) (artifact : JsValue) : Bool :=
  ((artifact.get (js "result")).isOneOf manifestResults).any fun result =>
    (if result = .blocked then artifact.hasText "blockerReason" isSafeBoundedString
    else artifact.hasOptionalText "blockerReason" isSafeBoundedString) &&
    artifact.hasArray "ruleSnapshots" fun snapshots =>
      artifact.hasArray "findings"
        (isManifestFindings platform catalog featureId result snapshots)

end Manifest

/-! ## Descendants of a manifest -/

def isResponseItem (item : JsValue) : Bool :=
  item.hasShape ["remediationItemId", "decision", "changedSurfaceIds", "rationale"] [] &&
    item.hasText "remediationItemId" isKebabIdentifier &&
    ((item.get (js "decision")).isOneOf remediationDecisions).isSome &&
    item.hasArray "changedSurfaceIds" (·.all fun id => (kebabIdentifier id).isSome) &&
    item.hasText "rationale" isSafeBoundedString

def isFindingResponse (response : JsValue) : Bool :=
  response.hasShape ["findingId", "items"] [] && response.hasText "findingId" isKebabIdentifier &&
    response.hasArray "items" fun items =>
      !items.isEmpty && items.all isResponseItem &&
        hasUniqueValues (textsOf items "remediationItemId")

def isOutOfScopeObservation (observation : JsValue) : Bool :=
  observation.hasShape ["relativePath", "rationale"] [] &&
    observation.hasText "relativePath" isProjectRelativePosixPath &&
    observation.hasText "rationale" isSafeBoundedString

def isRemediationResponse (artifact : JsValue) : Bool :=
  artifact.hasArray "findingResponses" (fun responses =>
    !responses.isEmpty && responses.all isFindingResponse &&
      hasUniqueValues (textsOf responses "findingId")) &&
    artifact.hasIfPresent "suspectedOutOfScopeObservations" fun value =>
      value.isArray.any (·.all isOutOfScopeObservation)

/-- The field that names the subject of a receipt. -/
def SubjectKind.idField : SubjectKind → String
  | .remediationItem => "remediationItemId"
  | .test => "testId"

def isReceipt (subject : SubjectKind) (receipt : JsValue) : Bool :=
  receipt.hasShape ["findingId", subject.idField, "outcome", "evidence"] [] &&
    receipt.hasText "findingId" isKebabIdentifier &&
    receipt.hasText subject.idField isKebabIdentifier &&
    ((receipt.get (js "outcome")).isOneOf (verificationOutcomes subject)).isSome &&
    receipt.hasText "evidence" isSafeBoundedString

def isVerificationReceipt (artifact : JsValue) : Bool :=
  isReferenceTo .remediationResponse (artifact.get (js "responseReference")) &&
    artifact.hasArray "itemReceipts" (·.all (isReceipt .remediationItem)) &&
    artifact.hasArray "testReceipts" (·.all (isReceipt .test))

def isReplanPlan (artifact : JsValue) : Bool :=
  artifact.hasArray "findingIds" (fun ids =>
    !ids.isEmpty && ids.all fun id => (kebabIdentifier id).isSome) &&
    artifact.hasText "defectClass" isKebabIdentifier &&
    artifact.hasWord "replanReason" ["finding_exhaustiveness", "recurrence_signal"] &&
    artifact.hasText "rootCause" isSafeBoundedString && isSurface (artifact.get (js "surface")) &&
    (["explicitExclusions", "remediationItems", "testMatrix"].all fun field =>
      artifact.hasArray field fun _ => true) &&
    artifact.hasText "verificationPlan" isSafeBoundedString &&
    artifact.hasText "closureCriteria" isSafeBoundedString

def isDebtObservation (artifact : JsValue) : Bool :=
  let authority := artifact.get (js "authority")
  artifact.hasText "findingId" isKebabIdentifier &&
    authority.hasShape ["kind", "reference", "snapshot"] [] &&
    authority.hasWord "kind" ["active_rule"] &&
    authority.hasText "reference" (js "rule:").isPrefixOf &&
    isActiveRuleSnapshot (authority.get (js "snapshot")) &&
    artifact.hasArray "historicalSurface" (·.all isSurfaceEntry) &&
    artifact.hasText "evidence" isSafeBoundedString &&
    artifact.hasText "riskRationale" isSafeBoundedString &&
    artifact.hasWord "currentFeatureImpact" ["untouched_non_blocking"]

end Hepha.Review
