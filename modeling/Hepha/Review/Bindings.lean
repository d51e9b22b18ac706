import Hepha.Review.Database

/-!
# The bindings of an ingestion

What a validated input refers to has to be in the store, in its scope: the
basis manifest and the response of a descendant, the lineage, the predecessor
of a cycle, the evidence of a gate decision.  The rows that a caller gives for
a response or a receipt have to be those of its text, and the text has to
answer the findings of the basis manifest.

The texts of stored artifacts are parsed again.  They were validated when they
were stored, so `String(value)` is only ever applied to texts here.
-/

namespace Hepha.Review

open JsValue

variable (platform : Platform) (catalog : Catalog) (db : Database) (input : ReviewIngestInput)

/-! ## Texts of artifacts -/

/-- The ids of the obligations of a finding, which may have none. -/
def obligationIds (subject : SubjectKind) (finding : JsValue) : Option (List JsString) := do
  let field := match subject with
    | .remediationItem => "remediationItems"
    | .test => "testMatrix"
  let items ← ((finding.get (js field)).orElse (arr [])).isArray
  items.mapM fun item => (item.get (js subject.idField)).isString

/-- The findings of a manifest by their ids. -/
def findingsById (payload : JsValue) : Option (List (JsString × JsValue)) := do
  let findings ← (payload.get (js "findings")).isArray
  let entries ← findings.mapM fun finding =>
    (finding.get (js "findingId")).isString.map fun findingId => (findingId, finding)
  guard (hasUniqueValues (entries.map Prod.fst))
  return entries

/-- What a response says about the remediation items of a finding. -/
structure FindingResponse where
  findingId : JsString
  items : List (JsString × RemediationDecision)

def readFindingResponse (value : JsValue) : Option FindingResponse := do
  let findingId ← (value.get (js "findingId")).isString
  let values ← (value.get (js "items")).isArray
  let items ← values.mapM fun item => do
    let remediationItemId ← (item.get (js "remediationItemId")).isString
    let decision ← (item.get (js "decision")).isOneOf remediationDecisions
    return (remediationItemId, decision)
  return { findingId, items }

def readFindingResponses (payload : JsValue) : Option (List FindingResponse) :=
  (payload.get (js "findingResponses")).isArrayOf readFindingResponse

/-- The receipt of an artifact for a remediation item or a test. -/
structure SubjectReceipt where
  findingId : JsString
  subjectId : JsString
  outcome : VerificationOutcome
  evidence : JsString

def readSubjectReceipt (subject : SubjectKind) (value : JsValue) : Option SubjectReceipt := do
  let findingId ← (value.get (js "findingId")).isString
  let subjectId ← (value.get (js subject.idField)).isString
  let outcome ← (value.get (js "outcome")).isOneOf (verificationOutcomes subject)
  let evidence ← (value.get (js "evidence")).isString
  return { findingId, subjectId, outcome, evidence }

def readSubjectReceipts (subject : SubjectKind) (payload : JsValue) :
    Option (List SubjectReceipt) :=
  let field := match subject with
    | .remediationItem => "itemReceipts"
    | .test => "testReceipts"
  (payload.get (js field)).isArrayOf (readSubjectReceipt subject)

/-! ## Keys -/

/-- Two texts with a unit `0` between them. -/
def joined (left right : JsString) : JsString :=
  left ++ 0 :: right

/-- `key.split("\u0000").slice(0, 2).join("\u0000")`. -/
def firstTwoParts (key : JsString) : JsString :=
  [0].intercalate ((key.splitOn 0).take 2)

/-- Two arrays with the same keys, none of them twice. -/
def exactKeys (actual expected : List JsString) : Bool :=
  actual.length = expected.length && hasUniqueValues actual && hasUniqueValues expected &&
    actual.all expected.contains

def SubjectReceipt.key (receipt : SubjectReceipt) : JsString :=
  joined receipt.findingId (joined receipt.subjectId
    (joined (js receipt.outcome.word) receipt.evidence))

/-- The key of a row that the caller gives. -/
def receiptRowKey (row : ReviewVerificationReceiptInput) : JsString :=
  joined (js row.subjectKind.word) (joined row.findingId (joined row.subjectId
    (joined (js row.outcome.word) (row.evidenceSummary.getD []))))

/-- `${item.decision}`. -/
def decisionText (decision : Option RemediationDecision) : JsString :=
  js ((decision.map RemediationDecision.word).getD "undefined")

def itemRowKey (row : ReviewRemediationItemInput) : JsString :=
  joined row.findingId (joined row.remediationItemId (decisionText row.decision))

/-! ## References -/

/-- A reference in a text names the stored artifact. -/
def refersTo (reference : JsValue) (stored : StoredReviewArtifact) : Bool :=
  (reference.get (js "artifactId")).identical (str stored.artifactId) &&
    (reference.get (js "relativePath")).identical (str stored.artifactRelativePath) &&
    (reference.get (js "contentHash")).identical (str stored.contentHash)

/-- `assertManifestReference`. -/
def isManifestInScope (manifestHash : JsString) : Bool :=
  (input.artifactKind = .reviewManifest && manifestHash = input.contentHash) ||
    ((db.getByHash manifestHash).any (fun artifact =>
      artifact.artifactKind = .reviewManifest && artifact.scope = input.scope) &&
      (db.getRunByManifestHash manifestHash).isSome)

/-- The stored response that a receipt is for, of the same scope and the same manifest. -/
def responseOf (manifest : StoredReviewArtifact) (payload : JsValue) :
    Option (StoredReviewArtifact × JsValue) := do
  let reference := payload.get (js "responseReference")
  let responseHash ← (reference.get (js "contentHash")).isString
  let response ← db.getByHash responseHash
  guard (response.artifactKind = .remediationResponse && response.scope = input.scope &&
    refersTo reference response)
  let responsePayload ← platform.parseJson response.canonicalJson
  let manifestReference := responsePayload.get (js "manifestReference")
  guard (manifestReference.hasWord "artifactKind" [ReviewStoreArtifactKind.word .reviewManifest] &&
    refersTo manifestReference manifest)
  return (response, responsePayload)

/-- A reference of the lineage is to a stored artifact of the same kind and scope. -/
def isLineageResolved (reference : ReviewArtifactReferenceInput) : Bool :=
  reference.contentHash ≠ input.contentHash &&
    (db.getByHash reference.contentHash).any fun stored =>
      stored.scope = input.scope && stored.artifactKind = input.artifactKind &&
        stored.artifactKind = reference.artifactKind && stored.artifactId = reference.artifactId &&
        stored.artifactRelativePath = reference.relativePath

/-- `validateLineageResolved`. -/
def validateLineageResolved : Bool :=
  input.lineage.predecessorReferences.all (isLineageResolved db input) &&
    hasUniqueValues input.lineage.predecessorHashes &&
    input.lineage.supersedesReference.all fun reference =>
      isLineageResolved db input reference &&
        !input.lineage.predecessorHashes.contains reference.contentHash

/-! ## Cycles and gate decisions -/

/-- `assertCycle`: a cycle of the scope and the manifest, be it the new one. -/
def isCycleOfManifest (cycleId : JsString) : Bool :=
  if input.cycle.any (·.cycleId = cycleId) then
    input.cycle.any (·.basisManifestHash = input.manifestHash)
  else (db.getCycle cycleId).any fun row =>
    row.scope = input.scope && row.basisManifestHash = input.manifestHash

/-- The cycles that have not been seen. -/
def unseenCycles (seen : List JsString) : List StoredReviewRemediationCycle :=
  db.cycles.filter fun row => row.cycleId ∉ seen

theorem unseenCycles_length_lt {seen : List JsString} {cycleId : JsString}
    {row : StoredReviewRemediationCycle} (hrow : db.getCycle cycleId = some row)
    (hseen : cycleId ∉ seen) :
    (unseenCycles db (cycleId :: seen)).length < (unseenCycles db seen).length := by
  obtain ⟨hmem, hid⟩ := Table.mem_of_find hrow
  have hsub : (unseenCycles db (cycleId :: seen)).Sublist (unseenCycles db seen) := by
    refine List.monotone_filter_right _ fun other hother => ?_
    simp only [List.mem_cons, not_or, decide_eq_true_eq] at hother ⊢
    exact hother.2
  refine lt_of_le_of_ne hsub.length_le fun hlength => ?_
  have hin : row ∈ unseenCycles db seen := by
    simp [unseenCycles, hmem, hid, hseen]
  rw [← hsub.eq_of_length hlength] at hin
  simp [unseenCycles, hid] at hin

/-- The predecessors of a cycle end before one of them comes back. -/
def chainTerminates (seen : List JsString) : Option JsString → Bool
  | none => true
  | some cycleId =>
      if _ : cycleId ∈ seen then false
      else match _ : db.getCycle cycleId with
        | none => false
        | some row => chainTerminates (cycleId :: seen) row.predecessorCycleId
termination_by (unseenCycles db seen).length
decreasing_by exact unseenCycles_length_lt db ‹_› ‹_›

def isCycleBound (cycle : ReviewRemediationCycleInput) : Bool :=
  cycle.basisManifestHash = input.manifestHash &&
    isManifestInScope db input cycle.basisManifestHash &&
    cycle.predecessorCycleId.all fun predecessor =>
      predecessor ≠ cycle.cycleId && isCycleOfManifest db input predecessor &&
        chainTerminates db [cycle.cycleId] (some predecessor)

def isGateDecisionBound (decision : ReviewGateDecisionInput) : Bool :=
  decision.triggerArtifactHash = input.contentHash &&
    decision.basisManifestHash = input.manifestHash &&
    isManifestInScope db input decision.basisManifestHash &&
    decision.cycleId.all (isCycleOfManifest db input) &&
    decision.evidenceHashes.all fun evidence => evidence = input.contentHash ||
      (db.getByHash evidence).any (·.scope = input.scope)

/-! ## Rows of a response and of a receipt -/

/-- The response answers a blocker of the manifest, item by item. -/
def answersFinding (basis : List (JsString × JsValue)) (response : FindingResponse) : Bool :=
  (JsMap.get basis response.findingId).any fun finding =>
    finding.hasWord "disposition" ["IN_SCOPE_BLOCKER"] &&
      (obligationIds .remediationItem finding).any fun ids =>
        exactKeys (response.items.map Prod.fst) ids

/-- The keys of the rows of a response. -/
def responseKeys (responses : List FindingResponse) : List JsString :=
  responses.flatMap fun response => response.items.map fun item =>
    joined response.findingId (joined item.1 (js item.2.word))

/-- The rows of a response are those of its text, in its run and in cycles of its manifest. -/
def isResponseBound (reviewRunId : JsString) (basis : List (JsString × JsValue))
    (payload : JsValue) : Bool :=
  (readFindingResponses payload).any fun responses =>
    let rows := input.remediationItems.getD []
    responses.all (answersFinding basis) &&
      ((responseKeys responses).isEmpty || input.remediationItems.isSome) &&
      exactKeys (rows.map itemRowKey) (responseKeys responses) &&
      rows.all fun row => row.reviewRunId = reviewRunId &&
        row.responseHash = some input.contentHash && isCycleOfManifest db input row.cycleId

/-- The remediation items that a response answers. -/
def respondedItems (responses : List FindingResponse) : List JsString :=
  (responses.flatMap fun response => response.items.map fun item =>
    joined response.findingId item.1).dedup

/-- The findings that a response answers. -/
def respondedFindings (responses : List FindingResponse) : List JsString :=
  (responses.map (·.findingId)).dedup

/-- The tests of a finding of the manifest; none where it has no such finding. -/
def testsOf (basis : List (JsString × JsValue)) (findingId : JsString) : Option (List JsString) :=
  match JsMap.get basis findingId with
  | some finding => obligationIds .test finding
  | none => some []

/-- The tests of the findings that a response answers. -/
def requiredTests (basis : List (JsString × JsValue)) (responses : List FindingResponse) :
    Option (List JsString) := do
  let tests ← (respondedFindings responses).mapM fun findingId =>
    (testsOf basis findingId).map fun ids => ids.map (joined findingId)
  return tests.flatten

/-- The receipts cover what the response answers, each item and each test once. -/
def coversResponse (basis : List (JsString × JsValue)) (responses : List FindingResponse)
    (itemReceipts testReceipts : List SubjectReceipt) : Bool :=
  (itemReceipts.all fun receipt =>
    (respondedItems responses).contains (joined receipt.findingId receipt.subjectId)) &&
    (testReceipts.all fun receipt =>
      (respondedFindings responses).contains receipt.findingId &&
        (testsOf basis receipt.findingId).any (·.contains receipt.subjectId)) &&
    exactKeys (itemReceipts.map fun receipt => firstTwoParts receipt.key)
      (respondedItems responses) &&
    (requiredTests basis responses).any fun tests =>
      exactKeys (testReceipts.map fun receipt => firstTwoParts receipt.key) tests

/-- The rows of a receipt are those of its text, and its text covers its response. -/
def isReceiptBound (reviewRunId : JsString) (basis : List (JsString × JsValue))
    (payload responsePayload : JsValue) : Bool :=
  (readFindingResponses responsePayload).any fun responses =>
    (readSubjectReceipts .remediationItem payload).any fun itemReceipts =>
      (readSubjectReceipts .test payload).any fun testReceipts =>
        let rows := input.verificationReceipts.getD []
        coversResponse basis responses itemReceipts testReceipts &&
          ((itemReceipts.isEmpty && testReceipts.isEmpty) || input.verificationReceipts.isSome) &&
          exactKeys (rows.map receiptRowKey)
            ((itemReceipts.map fun receipt =>
              joined (js (SubjectKind.word .remediationItem)) receipt.key) ++
            testReceipts.map fun receipt => joined (js (SubjectKind.word .test)) receipt.key) &&
          rows.all fun row => row.reviewRunId = reviewRunId &&
            row.receiptHash = input.contentHash && isCycleOfManifest db input row.cycleId

/-- The findings that a replan plan is about. -/
def isReplanPlanBound (basis : List (JsString × JsValue)) (payload : JsValue) : Bool :=
  ((payload.get (js "findingIds")).isArrayOf isString).any fun findingIds =>
    hasUniqueValues findingIds && findingIds.all fun findingId =>
      (JsMap.get basis findingId).any fun finding =>
        (finding.get (js "defectClass")).identical (payload.get (js "defectClass")) &&
          (!payload.hasWord "replanReason" ["finding_exhaustiveness"] ||
            finding.hasWord "exhaustivenessDecision" ["replan_required"])

/-- The debt of a finding, with the authority that the manifest and the catalog have. -/
def isDebtObservationBound (basis : List (JsString × JsValue)) (payload : JsValue) : Bool :=
  let authority := payload.get (js "authority")
  (payload.get (js "findingId")).isString.any fun findingId =>
    (JsMap.get basis findingId).any fun finding =>
      finding.hasWord "disposition" ["ARCHITECTURE_DEBT"] &&
        sameJson platform (finding.get (js "authority")) authority &&
        isCatalogSnapshot platform catalog (authority.get (js "snapshot"))

/-! ## All bindings -/

/-- The stored manifest of a descendant, and the response of a receipt. -/
def resolveReferences (payload : JsValue) : Option (Option JsValue) := do
  if input.artifactKind = .reviewManifest then return none
  let manifest ← db.getByHash input.manifestHash
  guard (refersTo (payload.get (js "manifestReference")) manifest)
  if input.artifactKind = .verificationReceipt then
    let (_, responsePayload) ← responseOf platform db input manifest payload
    return some responsePayload
  return none

/-- The text of the manifest that the input is about. -/
def basisJson : Option JsString :=
  if input.manifestHash = input.contentHash then some input.canonicalJson
  else (db.getByHash input.manifestHash).map (·.canonicalJson)

/-- The rows and references that only artifacts of a kind have. -/
def isKindBound (reviewRunId : JsString) (basis : List (JsString × JsValue)) (payload : JsValue)
    (responsePayload : Option JsValue) : Bool :=
  let noItems := (input.remediationItems.getD []).isEmpty
  let noReceipts := (input.verificationReceipts.getD []).isEmpty
  match input.artifactKind with
  | .reviewManifest => noItems && noReceipts
  | .remediationResponse => isResponseBound db input reviewRunId basis payload && noReceipts
  | .verificationReceipt =>
      noItems && responsePayload.any (isReceiptBound db input reviewRunId basis payload)
  | .replanPlan => noItems && noReceipts && isReplanPlanBound basis payload
  | .debtObservation =>
      noItems && noReceipts && isDebtObservationBound platform catalog basis payload

/-- `validateAggregateBindings`. -/
def validateAggregateBindings (reviewRunId : JsString) : Option Unit := do
  guard (isManifestInScope db input input.manifestHash)
  let payload ← platform.parseJson input.canonicalJson
  let responsePayload ← resolveReferences platform db input payload
  guard (validateLineageResolved db input)
  guard (input.cycle.all (isCycleBound db input))
  guard (input.gateDecision.all (isGateDecisionBound db input))
  let basisText ← basisJson db input
  let basisPayload ← platform.parseJson basisText
  let basis ← findingsById basisPayload
  guard (isKindBound platform catalog db input reviewRunId basis payload responsePayload)

/-- The review run of the input: its own, or the one of its stored basis manifest. -/
def effectiveRunId : Option JsString :=
  match input.run with
  | some run => some run.reviewRunId
  | none => do
      let manifest ← db.getByHash input.manifestHash
      guard (manifest.artifactKind = .reviewManifest && manifest.scope = input.scope)
      let run ← db.getRunByManifestHash input.manifestHash
      return run.reviewRunId

end Hepha.Review
