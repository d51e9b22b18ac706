import Hepha.Lib.Table
import Hepha.Lib.Transaction
import Hepha.Review.Input

/-!
# The tables of the review evidence

Nine append-only tables.  A part of a transaction that inserts a row checks the
constraints of its table: its primary key, its uniqueness constraints and the
foreign keys, as far as its columns are not already of a type that has no other
values.  The number of a gate decision is its place in its table, because no
row is ever deleted.
-/

namespace Hepha.Review

open Tx

structure Database where
  artifacts : List StoredReviewArtifact
  lineage : List StoredReviewArtifactLineage
  runs : List StoredReviewRun
  findings : List StoredReviewFinding
  observations : List StoredReviewFindingObservation
  cycles : List StoredReviewRemediationCycle
  remediationItems : List ReviewRemediationItemInput
  verificationReceipts : List ReviewVerificationReceiptInput
  gateDecisions : List StoredReviewGateDecision
  deriving DecidableEq

namespace Database

def empty : Database := ⟨[], [], [], [], [], [], [], [], []⟩

variable (db : Database)

/-! ## Reads -/

def getByHash (contentHash : JsString) : Option StoredReviewArtifact :=
  Table.find StoredReviewArtifact.contentHash db.artifacts contentHash

def getRunByManifestHash (manifestHash : JsString) : Option StoredReviewRun :=
  Table.find StoredReviewRun.manifestHash db.runs manifestHash

/-- `select … from hepha_review_remediation_cycles where cycle_id = ?`. -/
def getCycle (cycleId : JsString) : Option StoredReviewRemediationCycle :=
  Table.find (·.cycleId) db.cycles cycleId

def hasArtifact (contentHash : JsString) : Bool :=
  (db.getByHash contentHash).isSome

def hasCycle (cycleId : JsString) : Bool :=
  (db.getCycle cycleId).isSome

/-- The foreign key of a row about a finding. -/
def hasFinding (reviewRunId findingId : JsString) : Bool :=
  db.findings.any fun f => f.reviewRunId = reviewRunId ∧ f.findingId = findingId

/-- `ReviewGateRepository.getCurrent`: the decision with the greatest number. -/
def getCurrent (scope : ReviewScope) : Option StoredReviewGateDecision :=
  (db.gateDecisions.filter fun gate => gate.scope = scope).getLast?

end Database

/-! ## Inserts -/

/-- A part of a transaction on the tables. -/
abbrev Write (α : Type) := Tx Database StoreError α

/-- A constraint of a table; the error of the database becomes `PERSISTENCE_FAILED`. -/
def constraint (condition : Bool) : Write Unit :=
  require .persistenceFailed condition

def insertArtifact (row : StoredReviewArtifact) : Write Unit := do
  let db ← get
  constraint (!db.hasArtifact row.contentHash)
  constraint (!db.artifacts.any fun a => a.scope = row.scope ∧ a.artifactKind = row.artifactKind ∧
    a.artifactId = row.artifactId)
  modify fun db => { db with artifacts := db.artifacts ++ [row] }

def insertLineage (row : StoredReviewArtifactLineage) : Write Unit := do
  let db ← get
  constraint (db.hasArtifact row.artifactHash && db.hasArtifact row.predecessorHash)
  constraint (!db.lineage.contains row)
  constraint (row.relationKind ≠ .supersedes || !db.lineage.any fun edge =>
    edge.artifactHash = row.artifactHash ∧ edge.relationKind = .supersedes)
  modify fun db => { db with lineage := db.lineage ++ [row] }

def insertRun (row : StoredReviewRun) : Write Unit := do
  let db ← get
  constraint (!db.runs.any fun run =>
    run.reviewRunId = row.reviewRunId ∨ run.manifestHash = row.manifestHash)
  constraint (db.hasArtifact row.manifestHash)
  modify fun db => { db with runs := db.runs ++ [row] }

def insertFinding (row : StoredReviewFinding) : Write Unit := do
  let db ← get
  constraint (!db.hasFinding row.reviewRunId row.findingId)
  constraint (db.runs.any (·.reviewRunId = row.reviewRunId))
  modify fun db => { db with findings := db.findings ++ [row] }

def insertObservation (row : StoredReviewFindingObservation) : Write Unit := do
  let db ← get
  constraint (!db.observations.any fun o => o.observationId = row.observationId ∨
    (o.reviewRunId = row.reviewRunId ∧ o.findingId = row.findingId))
  constraint (db.hasFinding row.reviewRunId row.findingId)
  modify fun db => { db with observations := db.observations ++ [row] }

def insertCycle (row : StoredReviewRemediationCycle) : Write Unit := do
  let db ← get
  constraint (!db.hasCycle row.cycleId)
  constraint (db.hasArtifact row.basisManifestHash)
  constraint (row.predecessorCycleId.all fun predecessor =>
    predecessor = row.cycleId || db.hasCycle predecessor)
  modify fun db => { db with cycles := db.cycles ++ [row] }

/-- The number of a decision is the next one of its table. -/
def insertGateDecision (scope : ReviewScope) (decision : ReviewGateDecisionInput) :
    Write Unit := do
  let db ← get
  constraint (db.hasArtifact decision.triggerArtifactHash &&
    db.hasArtifact decision.basisManifestHash)
  constraint (decision.cycleId.all db.hasCycle)
  modify fun db => { db with
    gateDecisions := db.gateDecisions ++
      [{ decision with gateDecisionId := db.gateDecisions.length + 1, scope }] }

def insertRemediationItem (row : ReviewRemediationItemInput) : Write Unit := do
  let db ← get
  constraint (!db.remediationItems.any (·.itemEventId = row.itemEventId))
  constraint (db.hasCycle row.cycleId && row.responseHash.all db.hasArtifact)
  constraint (db.hasFinding row.reviewRunId row.findingId)
  modify fun db => { db with remediationItems := db.remediationItems ++ [row] }

def insertVerificationReceipt (row : ReviewVerificationReceiptInput) : Write Unit := do
  let db ← get
  constraint (!db.verificationReceipts.any (·.receiptEventId = row.receiptEventId))
  constraint (db.hasCycle row.cycleId && db.hasArtifact row.receiptHash)
  constraint (db.hasFinding row.reviewRunId row.findingId)
  modify fun db => { db with verificationReceipts := db.verificationReceipts ++ [row] }

end Hepha.Review
