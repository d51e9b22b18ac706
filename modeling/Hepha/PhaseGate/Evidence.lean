import Hepha.Js.Collections
import Hepha.Js.Value
import Mathlib.Data.Option.Basic

/-!
# The evidence of the phase gate

The input of the authoritative phase gate: the active workflow scope, the
candidate manifest with its lineage, the predecessors resolved from the store
and the remediation recorded for one of them.  The first half declares the
records at the types the policy names; the second half is the policy's own
validation of an unknown value, guard by guard.

The guards bound the number of predecessor manifests, responses and receipts,
but an identifier is any non-empty string: no unit is excluded, not even the
unit `0` with which the policy later joins identifiers into keys.
-/

namespace Hepha.PhaseGate

structure AuthoritativeReviewScope where
  projectId : JsString
  featureId : JsString
  phaseNumber : ℕ
  reviewGateId : JsString
  deriving DecidableEq

inductive AuthoritativeManifestResult where
  | approved
  | needsChanges
  | blocked
  deriving DecidableEq

inductive Disposition where
  | inScopeBlocker
  | scopeExpansion
  | architectureDebt
  | observation
  deriving DecidableEq

inductive AuthoritativeCycleState where
  | noRemediationRequired
  | remediationVerified
  | «open»
  | awaitingResponse
  | awaitingReceipt
  | reviewPending
  | replanRequired
  deriving DecidableEq

inductive LookupResult where
  | found
  | missing
  | wrongScope
  | wrongKind
  deriving DecidableEq

inductive LookupArtifactKind where
  | reviewManifest
  | other
  deriving DecidableEq

inductive ResponseOutcome where
  | applied
  | notApplied
  | notApplicable
  deriving DecidableEq

inductive SubjectKind where
  | remediationItem
  | test
  deriving DecidableEq

inductive ReceiptOutcome where
  | verified
  | failed
  | notVerifiable
  | passed
  | notRun
  deriving DecidableEq

structure AuthoritativeReviewFinding where
  findingId : JsString
  disposition : Disposition
  requiredRemediationItemIds : List JsString
  requiredTestIds : List JsString
  deriving DecidableEq

/-- A validated immutable manifest; its `artifactKind` is always `review_manifest`. -/
structure AuthoritativeManifestEvidence where
  contentHash : JsString
  scope : AuthoritativeReviewScope
  result : AuthoritativeManifestResult
  findings : List AuthoritativeReviewFinding
  deriving DecidableEq

structure AuthoritativeArtifactLineage where
  artifactHash : JsString
  predecessorHashes : List JsString
  deriving DecidableEq

structure AuthoritativePredecessorLookup where
  contentHash : JsString
  lookup : LookupResult
  artifactKind : LookupArtifactKind
  scope : AuthoritativeReviewScope
  deriving DecidableEq

structure AuthoritativeRemediationCycle where
  cycleId : JsString
  scope : AuthoritativeReviewScope
  basisManifestHash : JsString
  cycleState : AuthoritativeCycleState
  deriving DecidableEq

structure AuthoritativeRemediationResponseEvidence where
  responseHash : JsString
  basisManifestHash : JsString
  cycleId : JsString
  findingId : JsString
  remediationItemId : JsString
  outcome : ResponseOutcome
  deriving DecidableEq

structure AuthoritativeVerificationReceiptEvidence where
  receiptHash : JsString
  responseHash : JsString
  basisManifestHash : JsString
  cycleId : JsString
  findingId : JsString
  subjectKind : SubjectKind
  subjectId : JsString
  outcome : ReceiptOutcome
  deriving DecidableEq

structure AuthoritativeRemediationEvidence where
  cycle : AuthoritativeRemediationCycle
  responses : List AuthoritativeRemediationResponseEvidence
  receipts : List AuthoritativeVerificationReceiptEvidence
  deriving DecidableEq

structure Enforcement where
  enabled : Bool
  storeAvailable : Bool
  deriving DecidableEq

structure AuthoritativePhaseGateInput where
  expectedScope : AuthoritativeReviewScope
  manifest : AuthoritativeManifestEvidence
  lineage : AuthoritativeArtifactLineage
  predecessorLookups : List AuthoritativePredecessorLookup
  predecessorManifests : List AuthoritativeManifestEvidence
  remediation : AuthoritativeRemediationEvidence
  enforcement : Enforcement
  deriving DecidableEq

/-! ## Validation -/

def isHash (value : JsValue) : Option JsString :=
  value.isString.filter JsString.isHexDigest

def isStringArray (value : JsValue) : Option (List JsString) :=
  value.isArrayOf JsValue.isNonEmptyString

def dispositions : List (String × Disposition) :=
  [("IN_SCOPE_BLOCKER", .inScopeBlocker), ("SCOPE_EXPANSION", .scopeExpansion),
    ("ARCHITECTURE_DEBT", .architectureDebt), ("OBSERVATION", .observation)]

def cycleStates : List (String × AuthoritativeCycleState) :=
  [("NO_REMEDIATION_REQUIRED", .noRemediationRequired),
    ("REMEDIATION_VERIFIED", .remediationVerified), ("OPEN", .open),
    ("AWAITING_RESPONSE", .awaitingResponse), ("AWAITING_RECEIPT", .awaitingReceipt),
    ("REVIEW_PENDING", .reviewPending), ("REPLAN_REQUIRED", .replanRequired)]

def isScope (value : JsValue) : Option AuthoritativeReviewScope := do
  guard (value.isRecord &&
    value.hasOnlyKeys ["projectId", "featureId", "phaseNumber", "reviewGateId"])
  let projectId ← (value.get (js "projectId")).isNonEmptyString
  let featureId ← (value.get (js "featureId")).isNonEmptyString
  let phaseNumber ← (value.get (js "phaseNumber")).isNatural
  let reviewGateId ← (value.get (js "reviewGateId")).isNonEmptyString
  return { projectId, featureId, phaseNumber, reviewGateId }

def validateFinding (value : JsValue) : Option AuthoritativeReviewFinding := do
  guard (value.isRecord && value.hasOnlyKeys
    ["findingId", "disposition", "requiredRemediationItemIds", "requiredTestIds"])
  let findingId ← (value.get (js "findingId")).isNonEmptyString
  let disposition ← (value.get (js "disposition")).isOneOf dispositions
  let requiredRemediationItemIds ← isStringArray (value.get (js "requiredRemediationItemIds"))
  let requiredTestIds ← isStringArray (value.get (js "requiredTestIds"))
  guard (hasUniqueValues requiredRemediationItemIds && hasUniqueValues requiredTestIds)
  return { findingId, disposition, requiredRemediationItemIds, requiredTestIds }

def validateManifest (value : JsValue) : Option AuthoritativeManifestEvidence := do
  guard (value.isRecord &&
    value.hasOnlyKeys ["artifactKind", "contentHash", "scope", "result", "findings"])
  let _ ← (value.get (js "artifactKind")).isOneOf [("review_manifest", ())]
  let contentHash ← isHash (value.get (js "contentHash"))
  let scope ← isScope (value.get (js "scope"))
  let result ← (value.get (js "result")).isOneOf
    [("APPROVED", AuthoritativeManifestResult.approved), ("NEEDS_CHANGES", .needsChanges),
      ("BLOCKED", .blocked)]
  let findings ← (value.get (js "findings")).isArrayOf validateFinding
  guard (hasUniqueValues (findings.map (·.findingId)))
  return { contentHash, scope, result, findings }

def validateLineage (value : JsValue) : Option AuthoritativeArtifactLineage := do
  guard (value.isRecord && value.hasOnlyKeys ["artifactHash", "predecessorHashes"])
  let artifactHash ← isHash (value.get (js "artifactHash"))
  let predecessorHashes ← (value.get (js "predecessorHashes")).isArrayOf isHash
  guard (hasUniqueValues predecessorHashes)
  return { artifactHash, predecessorHashes }

def validatePredecessorLookup (value : JsValue) : Option AuthoritativePredecessorLookup := do
  guard (value.isRecord && value.hasOnlyKeys ["contentHash", "lookup", "artifactKind", "scope"])
  let contentHash ← isHash (value.get (js "contentHash"))
  let lookup ← (value.get (js "lookup")).isOneOf
    [("found", LookupResult.found), ("missing", .missing), ("wrong_scope", .wrongScope),
      ("wrong_kind", .wrongKind)]
  let artifactKind ← (value.get (js "artifactKind")).isOneOf
    [("review_manifest", LookupArtifactKind.reviewManifest), ("other", .other)]
  let scope ← isScope (value.get (js "scope"))
  return { contentHash, lookup, artifactKind, scope }

/-- The `cycle` of `validateRemediation`. -/
def validateCycle (value : JsValue) : Option AuthoritativeRemediationCycle := do
  guard (value.isRecord &&
    value.hasOnlyKeys ["cycleId", "scope", "basisManifestHash", "cycleState"])
  let cycleId ← (value.get (js "cycleId")).isNonEmptyString
  let scope ← isScope (value.get (js "scope"))
  let basisManifestHash ← isHash (value.get (js "basisManifestHash"))
  let cycleState ← (value.get (js "cycleState")).isOneOf cycleStates
  return { cycleId, scope, basisManifestHash, cycleState }

/-- One element of the `responses` of `validateRemediation`. -/
def validateResponse (value : JsValue) : Option AuthoritativeRemediationResponseEvidence := do
  guard (value.isRecord && value.hasOnlyKeys ["responseHash", "basisManifestHash", "cycleId",
    "findingId", "remediationItemId", "outcome"])
  let responseHash ← isHash (value.get (js "responseHash"))
  let basisManifestHash ← isHash (value.get (js "basisManifestHash"))
  let cycleId ← (value.get (js "cycleId")).isNonEmptyString
  let findingId ← (value.get (js "findingId")).isNonEmptyString
  let remediationItemId ← (value.get (js "remediationItemId")).isNonEmptyString
  let outcome ← (value.get (js "outcome")).isOneOf
    [("APPLIED", ResponseOutcome.applied), ("NOT_APPLIED", .notApplied),
      ("NOT_APPLICABLE", .notApplicable)]
  return { responseHash, basisManifestHash, cycleId, findingId, remediationItemId, outcome }

/-- One element of the `receipts` of `validateRemediation`. -/
def validateReceipt (value : JsValue) : Option AuthoritativeVerificationReceiptEvidence := do
  guard (value.isRecord && value.hasOnlyKeys ["receiptHash", "responseHash", "basisManifestHash",
    "cycleId", "findingId", "subjectKind", "subjectId", "outcome"])
  let receiptHash ← isHash (value.get (js "receiptHash"))
  let responseHash ← isHash (value.get (js "responseHash"))
  let basisManifestHash ← isHash (value.get (js "basisManifestHash"))
  let cycleId ← (value.get (js "cycleId")).isNonEmptyString
  let findingId ← (value.get (js "findingId")).isNonEmptyString
  let subjectKind ← (value.get (js "subjectKind")).isOneOf
    [("remediation_item", SubjectKind.remediationItem), ("test", .test)]
  let subjectId ← (value.get (js "subjectId")).isNonEmptyString
  let outcome ← (value.get (js "outcome")).isOneOf
    [("VERIFIED", ReceiptOutcome.verified), ("FAILED", .failed),
      ("NOT_VERIFIABLE", .notVerifiable), ("PASSED", .passed), ("NOT_RUN", .notRun)]
  return { receiptHash, responseHash, basisManifestHash, cycleId, findingId, subjectKind,
           subjectId, outcome }

def validateRemediation (value : JsValue) : Option AuthoritativeRemediationEvidence := do
  guard (value.isRecord && value.hasOnlyKeys ["cycle", "responses", "receipts"])
  let cycle ← validateCycle (value.get (js "cycle"))
  let responses ← (value.get (js "responses")).isArrayOf validateResponse
  let receipts ← (value.get (js "receipts")).isArrayOf validateReceipt
  guard (responses.length ≤ 128 ∧ receipts.length ≤ 128)
  return { cycle, responses, receipts }

def validateEnforcement (value : JsValue) : Option Enforcement := do
  guard (value.isRecord && value.hasOnlyKeys ["enabled", "storeAvailable"])
  let enabled ← (value.get (js "enabled")).isBoolean
  let storeAvailable ← (value.get (js "storeAvailable")).isBoolean
  return { enabled, storeAvailable }

def validateInput (value : JsValue) : Option AuthoritativePhaseGateInput := do
  guard (value.isRecord && value.hasOnlyKeys ["expectedScope", "manifest", "lineage",
    "predecessorLookups", "predecessorManifests", "remediation", "enforcement"])
  let expectedScope ← isScope (value.get (js "expectedScope"))
  let manifest ← validateManifest (value.get (js "manifest"))
  let lineage ← validateLineage (value.get (js "lineage"))
  let predecessorLookups ←
    (value.get (js "predecessorLookups")).isArrayOf validatePredecessorLookup
  let predecessorManifests ← (value.get (js "predecessorManifests")).isArrayOf validateManifest
  guard (predecessorManifests.length ≤ 64)
  let remediation ← validateRemediation (value.get (js "remediation"))
  let enforcement ← validateEnforcement (value.get (js "enforcement"))
  guard (hasUniqueValues (predecessorLookups.map (·.contentHash)) &&
    hasUniqueValues (predecessorManifests.map (·.contentHash)))
  return { expectedScope, manifest, lineage, predecessorLookups, predecessorManifests,
           remediation, enforcement }

/-! ## What validation establishes -/

theorem validateLineage_nodup {value : JsValue} {lineage : AuthoritativeArtifactLineage}
    (h : validateLineage value = some lineage) : lineage.predecessorHashes.Nodup := by
  simp only [validateLineage, Option.bind_eq_bind, Option.bind_eq_some_iff] at h
  obtain ⟨_, _, _, _, hashes, _, _, hunique, heq⟩ := h
  cases heq
  simpa [Option.guard_eq_some'] using hunique

/-- The hashes of the predecessor manifests, and of the lineage's predecessors,
are without repetition. -/
theorem validateInput_nodup {value : JsValue} {input : AuthoritativePhaseGateInput}
    (h : validateInput value = some input) :
    input.lineage.predecessorHashes.Nodup ∧
      (input.predecessorManifests.map (·.contentHash)).Nodup := by
  simp only [validateInput, Option.bind_eq_bind, Option.bind_eq_some_iff] at h
  obtain ⟨_, _, _, _, _, _, lineage, hlineage, _, _, manifests, _, _, _, _, _, _, _, _, hunique,
    heq⟩ := h
  cases heq
  refine ⟨validateLineage_nodup hlineage, ?_⟩
  simp only [Option.guard_eq_some', Bool.and_eq_true, hasUniqueValues_iff] at hunique
  exact hunique.2

end Hepha.PhaseGate
