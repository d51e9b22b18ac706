import Hepha.Review.Bindings

/-!
# The ingestion of review evidence

`ingestValidatedReviewEvidence` validates its input, resolves what it refers to
and then, in one transaction, writes the rows of the artifact and reads each of
them back.
-/

namespace Hepha.Review

open JsValue Tx

variable (platform : Platform) (catalog : Catalog) (input : ReviewIngestInput)
  (reviewRunId : JsString)

/-! ## The rows of an input -/

def lineageRows : List StoredReviewArtifactLineage :=
  (input.lineage.predecessorHashes.map fun hash =>
    ⟨input.contentHash, hash, .predecessor⟩) ++
  input.lineage.supersedesHash.toList.map fun hash => ⟨input.contentHash, hash, .supersedes⟩

def runRow (run : ReviewRunInput) : StoredReviewRun :=
  { reviewRunId := run.reviewRunId, manifestHash := input.contentHash, scope := input.scope
    manifestResult := run.manifestResult, workflowRunId := run.workflowRunId
    agentInvocationId := run.agentInvocationId, createdAt := input.ingestedAt }

def findingRow (run : ReviewRunInput) (finding : ReviewStoreFindingInput) : StoredReviewFinding :=
  { finding.toReviewFindingColumns with reviewRunId := run.reviewRunId, scope := input.scope }

def observationRow (run : ReviewRunInput) (finding : ReviewStoreFindingInput) :
    StoredReviewFindingObservation :=
  { finding.observation with reviewRunId := run.reviewRunId }

def cycleRow (cycle : ReviewRemediationCycleInput) : StoredReviewRemediationCycle :=
  { cycle with scope := input.scope }

/-! ## Writing -/

/-- The run of a manifest with its findings, each with its observation. -/
def insertReviewRun (run : ReviewRunInput) : Write Unit := do
  insertRun (runRow input run)
  run.findings.forM fun finding => do
    insertFinding (findingRow input run finding)
    insertObservation (observationRow run finding)

/-- The items of a response; a row that names another run is refused. -/
def insertRemediationItems : Write Unit :=
  (input.remediationItems.getD []).forM fun item => do
    require .invalidInput (item.reviewRunId = reviewRunId)
    insertRemediationItem item

/-- The rows of a receipt; a row that names another run is refused. -/
def insertVerificationReceipts : Write Unit :=
  (input.verificationReceipts.getD []).forM fun receipt => do
    require .invalidInput (receipt.reviewRunId = reviewRunId)
    insertVerificationReceipt receipt

/-- All rows of the input. -/
def insertEvidence : Write Unit := do
  insertArtifact input.toStoredReviewArtifact
  (lineageRows input).forM insertLineage
  input.run.forM (insertReviewRun input)
  input.cycle.forM fun cycle => insertCycle (cycleRow input cycle)
  input.gateDecision.forM (insertGateDecision input.scope)
  insertRemediationItems input reviewRunId
  insertVerificationReceipts input reviewRunId

/-! ## Reading back -/

/-- Whether the database returns an integer: a greater one than the largest safe
integer is an error as long as the database keeps it as an integer. -/
def isReadableInteger (n : ℕ) : Bool :=
  n ≤ maxSafeInteger || 2 ^ 63 ≤ n

/-- `verifyArtifactReadBack`.  The database keeps texts as UTF-8, so a path with a
lone surrogate does not come back as it was. -/
def isArtifactReadBack (db : Database) : Bool :=
  db.getByHash input.contentHash == some input.toStoredReviewArtifact &&
    !input.canonicalJson.isEmpty && platform.sha256 input.canonicalJson == input.contentHash &&
    input.featureRootPath.isWellFormed && isReadableInteger input.scope.phaseNumber

/-- The rows of a run. -/
def isRunReadBack (db : Database) (run : ReviewRunInput) : Bool :=
  db.getRunByManifestHash input.contentHash == some (runRow input run) &&
    run.findings.all fun finding =>
      db.findings.contains (findingRow input run finding) &&
        db.observations.contains (observationRow run finding)

/-- The current decision of the scope is the one of the input. -/
def isGateDecisionReadBack (db : Database) (decision : ReviewGateDecisionInput) : Bool :=
  (db.getCurrent input.scope).any fun row => row.toReviewGateDecisionInput = decision

/-- Every row that was written is read back as it was written. -/
def isReadBack (db : Database) : Bool :=
  isArtifactReadBack platform input db &&
    (db.lineage.filter fun edge => edge.artifactHash = input.contentHash).isPerm
      (lineageRows input) &&
    input.run.all (isRunReadBack input db) &&
    input.cycle.all (fun cycle => db.getCycle cycle.cycleId == some (cycleRow input cycle)) &&
    input.gateDecision.all (isGateDecisionReadBack input db) &&
    (input.remediationItems.getD []).all db.remediationItems.contains &&
    (input.verificationReceipts.getD []).all db.verificationReceipts.contains

/-- The body of the transaction. -/
def persist : Write JsString := do
  insertEvidence input reviewRunId
  let db ← get
  require .persistenceFailed (isReadBack platform input db)
  return input.contentHash

/-! ## Ingestion -/

/-- What is checked before the transaction: the input and the run it belongs to. -/
def prepare (db : Database) (rawInput : JsValue) : Option (ReviewIngestInput × JsString) := do
  let input ← validateReviewIngestInput platform catalog rawInput
  let reviewRunId ← effectiveRunId db input
  validateAggregateBindings platform catalog db input reviewRunId
  return (input, reviewRunId)

/-- `ReviewIngestRepository.ingestValidatedReviewEvidence`. -/
def ingestValidatedReviewEvidence (rawInput : JsValue) (db : Database) :
    Except StoreError JsString × Database :=
  match prepare platform catalog db rawInput with
  | none => (.error .invalidInput, db)
  | some (input, reviewRunId) => atomically (persist platform input reviewRunId) db

/-- The tables after a sequence of ingestions. -/
def run (rawInputs : List JsValue) : Database :=
  rawInputs.foldl (fun db rawInput =>
    (ingestValidatedReviewEvidence platform catalog rawInput db).2) .empty

end Hepha.Review
