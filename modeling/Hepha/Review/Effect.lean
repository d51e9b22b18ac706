import Hepha.Review.Store

/-!
# What an ingestion does to the tables

An accepted ingestion appends the rows of its input and changes nothing else; a
refused one changes nothing at all.  `ingest_ok` states what its checks have
found on the way, as far as the history of the tables needs it.
-/

namespace Hepha.Review

open Tx Database

variable {platform : Platform} {catalog : Catalog} {input : ReviewIngestInput}
  {reviewRunId : JsString} {db after : Database}

/-! ## Single rows -/

theorem runs_insertArtifact {row : StoredReviewArtifact}
    (h : Runs (insertArtifact row) db () after) :
    db.hasArtifact row.contentHash = false ∧
      after = { db with artifacts := db.artifacts ++ [row] } := by
  simp only [insertArtifact, constraint, runs_bind, runs_get, runs_require, runs_modify] at h
  obtain ⟨_, _, ⟨rfl, rfl⟩, _, _, ⟨hnew, rfl⟩, _, _, ⟨-, rfl⟩, rfl⟩ := h
  exact ⟨by simpa using hnew, rfl⟩

theorem runs_insertLineage {row : StoredReviewArtifactLineage}
    (h : Runs (insertLineage row) db () after) :
    after = { db with lineage := db.lineage ++ [row] } := by
  simp only [insertLineage, constraint, runs_bind, runs_get, runs_require, runs_modify] at h
  obtain ⟨_, _, ⟨rfl, rfl⟩, _, _, ⟨-, rfl⟩, _, _, ⟨-, rfl⟩, _, _, ⟨-, rfl⟩, rfl⟩ := h
  rfl

theorem runs_insertRun {row : StoredReviewRun} (h : Runs (insertRun row) db () after) :
    (∀ run ∈ db.runs, run.reviewRunId ≠ row.reviewRunId ∧ run.manifestHash ≠ row.manifestHash) ∧
      after = { db with runs := db.runs ++ [row] } := by
  simp only [insertRun, constraint, runs_bind, runs_get, runs_require, runs_modify] at h
  obtain ⟨_, _, ⟨rfl, rfl⟩, _, _, ⟨hnew, rfl⟩, _, _, ⟨-, rfl⟩, rfl⟩ := h
  exact ⟨by simpa [not_or] using hnew, rfl⟩

theorem runs_insertFinding {row : StoredReviewFinding}
    (h : Runs (insertFinding row) db () after) :
    after = { db with findings := db.findings ++ [row] } := by
  simp only [insertFinding, constraint, runs_bind, runs_get, runs_require, runs_modify] at h
  obtain ⟨_, _, ⟨rfl, rfl⟩, _, _, ⟨-, rfl⟩, _, _, ⟨-, rfl⟩, rfl⟩ := h
  rfl

theorem runs_insertObservation {row : StoredReviewFindingObservation}
    (h : Runs (insertObservation row) db () after) :
    after = { db with observations := db.observations ++ [row] } := by
  simp only [insertObservation, constraint, runs_bind, runs_get, runs_require, runs_modify] at h
  obtain ⟨_, _, ⟨rfl, rfl⟩, _, _, ⟨-, rfl⟩, _, _, ⟨-, rfl⟩, rfl⟩ := h
  rfl

theorem runs_insertCycle {row : StoredReviewRemediationCycle}
    (h : Runs (insertCycle row) db () after) :
    db.hasCycle row.cycleId = false ∧ after = { db with cycles := db.cycles ++ [row] } := by
  simp only [insertCycle, constraint, runs_bind, runs_get, runs_require, runs_modify] at h
  obtain ⟨_, _, ⟨rfl, rfl⟩, _, _, ⟨hnew, rfl⟩, _, _, ⟨-, rfl⟩, _, _, ⟨-, rfl⟩, rfl⟩ := h
  exact ⟨by simpa using hnew, rfl⟩

/-- The row of a decision behind the given ones. -/
def gateRow (input : ReviewIngestInput) (gates : List StoredReviewGateDecision)
    (decision : ReviewGateDecisionInput) : StoredReviewGateDecision :=
  { decision with gateDecisionId := gates.length + 1, scope := input.scope }

theorem runs_insertGateDecision {decision : ReviewGateDecisionInput}
    (h : Runs (insertGateDecision input.scope decision) db () after) :
    after = { db with
      gateDecisions := db.gateDecisions ++ [gateRow input db.gateDecisions decision] } := by
  simp only [insertGateDecision, constraint, runs_bind, runs_get, runs_require, runs_modify] at h
  obtain ⟨_, _, ⟨rfl, rfl⟩, _, _, ⟨-, rfl⟩, _, _, ⟨-, rfl⟩, rfl⟩ := h
  rfl

theorem runs_insertRemediationItem {row : ReviewRemediationItemInput}
    (h : Runs (insertRemediationItem row) db () after) :
    after = { db with remediationItems := db.remediationItems ++ [row] } := by
  simp only [insertRemediationItem, constraint, runs_bind, runs_get, runs_require,
    runs_modify] at h
  obtain ⟨_, _, ⟨rfl, rfl⟩, _, _, ⟨-, rfl⟩, _, _, ⟨-, rfl⟩, _, _, ⟨-, rfl⟩, rfl⟩ := h
  rfl

theorem runs_insertVerificationReceipt {row : ReviewVerificationReceiptInput}
    (h : Runs (insertVerificationReceipt row) db () after) :
    after = { db with verificationReceipts := db.verificationReceipts ++ [row] } := by
  simp only [insertVerificationReceipt, constraint, runs_bind, runs_get, runs_require,
    runs_modify] at h
  obtain ⟨_, _, ⟨rfl, rfl⟩, _, _, ⟨-, rfl⟩, _, _, ⟨-, rfl⟩, _, _, ⟨-, rfl⟩, rfl⟩ := h
  rfl

/-! ## The rows of an input -/

/-- The tables with the rows of a run. -/
def Database.withRun (db : Database) (input : ReviewIngestInput) (run : ReviewRunInput) :
    Database :=
  { db with
    runs := db.runs ++ [runRow input run]
    findings := db.findings ++ run.findings.map (findingRow input run)
    observations := db.observations ++ run.findings.map (observationRow run) }

theorem runs_insertReviewRun {run : ReviewRunInput}
    (h : Runs (insertReviewRun input run) db () after) : after = db.withRun input run := by
  rw [insertReviewRun, runs_bind] at h
  obtain ⟨_, middle, hrun, hfindings⟩ := h
  obtain ⟨-, rfl⟩ := runs_insertRun hrun
  refine runs_forM (fun findings db => { db with
    findings := db.findings ++ findings.map (findingRow input run)
    observations := db.observations ++ findings.map (observationRow run) }) ?_ ?_ ?_ hfindings
  · intro s
    simp
  · intro finding findings s
    simp
  · intro finding s u t hbody
    rw [runs_bind] at hbody
    obtain ⟨_, middle, hfinding, hobservation⟩ := hbody
    rw [runs_insertObservation hobservation, runs_insertFinding hfinding]
    simp

/-- The tables with all rows of an input. -/
def Database.withEvidence (db : Database) (input : ReviewIngestInput) : Database :=
  { artifacts := db.artifacts ++ [input.toStoredReviewArtifact]
    lineage := db.lineage ++ lineageRows input
    runs := db.runs ++ input.run.toList.map (runRow input)
    findings := db.findings ++
      input.run.toList.flatMap fun run => run.findings.map (findingRow input run)
    observations := db.observations ++
      input.run.toList.flatMap fun run => run.findings.map (observationRow run)
    cycles := db.cycles ++ input.cycle.toList.map (cycleRow input)
    remediationItems := db.remediationItems ++ input.remediationItems.getD []
    verificationReceipts := db.verificationReceipts ++ input.verificationReceipts.getD []
    gateDecisions := db.gateDecisions ++
      input.gateDecision.toList.map (gateRow input db.gateDecisions) }

/-! ## The parts of the transaction -/

theorem runs_insertLineages {u : PUnit}
    (h : Runs ((lineageRows input).forM insertLineage) db u after) :
    after = { db with lineage := db.lineage ++ lineageRows input } :=
  runs_forM (fun rows db => { db with lineage := db.lineage ++ rows })
    (fun _ => by simp) (fun _ _ _ => by simp) (fun _ _ _ _ => runs_insertLineage) h

theorem runs_insertRuns {u : PUnit} (h : Runs (input.run.forM (insertReviewRun input)) db u after) :
    after = { db with
      runs := db.runs ++ input.run.toList.map (runRow input)
      findings := db.findings ++
        input.run.toList.flatMap fun run => run.findings.map (findingRow input run)
      observations := db.observations ++
        input.run.toList.flatMap fun run => run.findings.map (observationRow run) } := by
  rw [runs_option_forM] at h
  cases hrun : input.run with
  | none =>
      rw [hrun] at h
      simpa using h
  | some run =>
      rw [hrun] at h
      rw [runs_insertReviewRun h]
      simp [Database.withRun]

theorem runs_insertCycles {u : PUnit}
    (h : Runs (input.cycle.forM fun cycle => insertCycle (cycleRow input cycle)) db u after) :
    (∀ cycle, input.cycle = some cycle → db.hasCycle cycle.cycleId = false) ∧
      after = { db with cycles := db.cycles ++ input.cycle.toList.map (cycleRow input) } := by
  rw [runs_option_forM] at h
  cases hcycle : input.cycle with
  | none =>
      rw [hcycle] at h
      simpa using h
  | some cycle =>
      rw [hcycle] at h
      obtain ⟨hfresh, hafter⟩ := runs_insertCycle h
      refine ⟨fun other hother => ?_, by simpa using hafter⟩
      cases hother
      exact hfresh

theorem runs_insertGateDecisions {u : PUnit}
    (h : Runs (input.gateDecision.forM (insertGateDecision input.scope)) db u after) :
    after = { db with gateDecisions := db.gateDecisions ++
      input.gateDecision.toList.map (gateRow input db.gateDecisions) } := by
  rw [runs_option_forM] at h
  cases hgate : input.gateDecision with
  | none =>
      rw [hgate] at h
      simpa using h
  | some decision =>
      rw [hgate] at h
      rw [runs_insertGateDecision h]
      simp

theorem runs_insertRemediationItems {u : PUnit}
    (h : Runs (insertRemediationItems input reviewRunId) db u after) :
    after = { db with
      remediationItems := db.remediationItems ++ input.remediationItems.getD [] } := by
  refine runs_forM (fun rows db =>
    { db with remediationItems := db.remediationItems ++ rows }) (fun _ => by simp)
    (fun _ _ _ => by simp) (fun row s u t hbody => ?_) h
  simp only [runs_bind, runs_require] at hbody
  obtain ⟨_, _, ⟨-, rfl⟩, hinsert⟩ := hbody
  exact runs_insertRemediationItem hinsert

theorem runs_insertVerificationReceipts {u : PUnit}
    (h : Runs (insertVerificationReceipts input reviewRunId) db u after) :
    after = { db with
      verificationReceipts :=
        db.verificationReceipts ++ input.verificationReceipts.getD [] } := by
  refine runs_forM (fun rows db =>
    { db with verificationReceipts := db.verificationReceipts ++ rows }) (fun _ => by simp)
    (fun _ _ _ => by simp) (fun row s u t hbody => ?_) h
  simp only [runs_bind, runs_require] at hbody
  obtain ⟨_, _, ⟨-, rfl⟩, hinsert⟩ := hbody
  exact runs_insertVerificationReceipt hinsert

/-- All rows of the input, with the keys that are new. -/
theorem runs_insertEvidence {u : Unit} (h : Runs (insertEvidence input reviewRunId) db u after) :
    db.hasArtifact input.contentHash = false ∧
      (∀ cycle, input.cycle = some cycle → db.hasCycle cycle.cycleId = false) ∧
      after = db.withEvidence input := by
  simp only [insertEvidence, runs_bind] at h
  obtain ⟨_, s₁, hartifact, _, s₂, hlineage, _, s₃, hrun, _, s₄, hcycle, _, s₅, hgate, _, s₆,
    hitems, hreceipts⟩ := h
  obtain ⟨hnew, rfl⟩ := runs_insertArtifact hartifact
  obtain rfl := runs_insertLineages hlineage
  obtain rfl := runs_insertRuns hrun
  obtain ⟨hfresh, rfl⟩ := runs_insertCycles hcycle
  obtain rfl := runs_insertGateDecisions hgate
  obtain rfl := runs_insertRemediationItems hitems
  obtain rfl := runs_insertVerificationReceipts hreceipts
  exact ⟨hnew, hfresh, rfl⟩

/-! ## Ingestions -/

/-- **What an accepted ingestion has checked, and the tables after it.** -/
theorem ingest_ok {rawInput : JsValue} {contentHash : JsString}
    (h : ingestValidatedReviewEvidence platform catalog rawInput db = (.ok contentHash, after)) :
    ∃ input reviewRunId,
      prepare platform catalog db rawInput = some (input, reviewRunId) ∧
      contentHash = input.contentHash ∧ db.hasArtifact input.contentHash = false ∧
      (∀ cycle, input.cycle = some cycle → db.hasCycle cycle.cycleId = false) ∧
      after = db.withEvidence input := by
  unfold ingestValidatedReviewEvidence at h
  split at h
  · cases h
  · rename_i input reviewRunId hprepare
    rw [atomically_ok_iff] at h
    simp only [persist, runs_bind, runs_get, runs_require, runs_pure] at h
    obtain ⟨_, _, hinsert, _, _, ⟨rfl, rfl⟩, _, _, ⟨-, rfl⟩, rfl, rfl⟩ := h
    obtain ⟨hnew, hcycle, hafter⟩ := runs_insertEvidence hinsert
    exact ⟨input, reviewRunId, hprepare, rfl, hnew, hcycle, hafter⟩

/-- **An ingestion that is refused or fails leaves the tables as they were.** -/
theorem ingest_error {rawInput : JsValue} {e : StoreError}
    (h : (ingestValidatedReviewEvidence platform catalog rawInput db).1 = .error e) :
    (ingestValidatedReviewEvidence platform catalog rawInput db).2 = db := by
  revert h
  unfold ingestValidatedReviewEvidence
  split
  · exact fun _ => rfl
  · exact atomically_error

/-- The two ways in which an ingestion can end. -/
theorem ingest_cases (platform : Platform) (catalog : Catalog) (rawInput : JsValue)
    (db : Database) :
    (ingestValidatedReviewEvidence platform catalog rawInput db).2 = db ∨
      ∃ input reviewRunId, prepare platform catalog db rawInput = some (input, reviewRunId) ∧
        db.hasArtifact input.contentHash = false ∧
        (∀ cycle, input.cycle = some cycle → db.hasCycle cycle.cycleId = false) ∧
        (ingestValidatedReviewEvidence platform catalog rawInput db).2 =
          db.withEvidence input := by
  rcases hresult : ingestValidatedReviewEvidence platform catalog rawInput db with ⟨result, after⟩
  cases result with
  | error e =>
      have hfirst := congrArg Prod.fst hresult
      have hsecond := ingest_error hfirst
      rw [hresult] at hsecond
      exact Or.inl hsecond
  | ok contentHash =>
      obtain ⟨input, reviewRunId, hprepare, -, hnew, hcycle, hafter⟩ := ingest_ok hresult
      exact Or.inr ⟨input, reviewRunId, hprepare, hnew, hcycle, hafter⟩

end Hepha.Review
