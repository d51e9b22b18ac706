import Hepha.PhaseExit.Authorized
import Hepha.Js.Lines
import Hepha.Review.Contracts

/-!
# The checkpoint of a phase exit

`assessPhaseExitCheckpoint` lets a phase exit by its quality gates, and where a review is
required by the durable review as well.  The store of the reviews may throw in any read.
-/

namespace Hepha.PhaseExit

open Interaction Autonomous

variable {F : Type}

/-! ## What the store holds -/

/-- `AuthoritativeReviewPhaseGate`. -/
structure ReviewGate where
  scope : Scope
  triggerArtifactHash : JsString
  basisManifestHash : JsString
  gateState : Review.ReviewStoreGateState
  reasonCode : JsString
  cycleId : Option JsString

/-- `AuthoritativeReviewCycle`. -/
structure ReviewCycle where
  cycleId : JsString
  scope : Scope
  basisManifestHash : JsString
  cycleState : Review.ReviewStoreCycleState

/-- `AuthoritativeReviewManifest`. -/
structure ReviewManifest where
  contentHash : JsString
  artifactKind : JsString
  schemaVersion : ℕ
  scope : Scope
  sourceMode : JsString

/-- `AuthoritativeReviewRun`. -/
structure ReviewRun where
  manifestHash : JsString
  manifestResult : JsString
  scope : Scope

/-- The store of an exit, any read of which may throw. -/
structure ReviewStore where
  getCurrentAuthoritativeReviewGate : Scope → Except Thrown (Option ReviewGate)
  getArtifactByHash : JsString → Except Thrown (Option ReviewManifest)
  getReviewRunByManifestHash : JsString → Except Thrown (Option ReviewRun)
  listRemediationCyclesByScope : Scope → Except Thrown (List ReviewCycle)

/-! ## The review -/

def Scope.isScope (scope : Scope) : Bool :=
  !scope.projectId.isEmpty && !scope.featureId.isEmpty && !scope.reviewGateId.isEmpty

def gateStateWord : Review.ReviewStoreGateState → String
  | .approved => "approved"
  | .rejected => "rejected"
  | .blocked => "blocked"
  | .pending => "pending"

/-- Each state of a gate has its own reasons. -/
def reasonCodes : Review.ReviewStoreGateState → List String
  | .approved => ["approved_terminal_review"]
  | .rejected => ["review_needs_changes"]
  | .blocked => ["review_blocked", "enforcement_disabled"]
  | .pending => ["terminal_remediation_required"]

namespace ReviewGate

def isCurrentGate (gate : ReviewGate) : Bool :=
  gate.scope.isScope && gate.triggerArtifactHash.isHexDigest &&
    gate.basisManifestHash.isHexDigest && gate.cycleId.any (!·.isEmpty) &&
    gate.reasonCode ∈ (reasonCodes gate.gateState).map js

/-- `deniedPersistedGate`. -/
def denied (gate : ReviewGate) : JsString :=
  js ("Authoritative review phase exit denied: the current exact-scope persisted gate is " ++
    gateStateWord gate.gateState ++ " (") ++ gate.reasonCode ++ js ")."

end ReviewGate

def ReviewManifest.isCurrentManifest (manifest : ReviewManifest) : Bool :=
  manifest.scope.isScope && manifest.contentHash.isHexDigest &&
    manifest.artifactKind = js "review_manifest" && manifest.schemaVersion = 1 &&
    manifest.sourceMode = js "v1_validated_ingress"

def ReviewRun.isApprovedManifestRun (run : ReviewRun) : Bool :=
  run.scope.isScope && run.manifestHash.isHexDigest && run.manifestResult = js "APPROVED"

def ReviewCycle.isTerminalCycle (cycle : ReviewCycle) : Bool :=
  cycle.scope.isScope && !cycle.cycleId.isEmpty && cycle.basisManifestHash.isHexDigest &&
    (cycle.cycleState = .noRemediationRequired || cycle.cycleState = .remediationVerified)

def denial (reason : String) : JsString :=
  js ("Authoritative review phase exit denied: " ++ reason)

def unlessDenied (condition : Bool) (reason : JsString) : Except JsString Unit :=
  if condition then .ok () else .error reason

/-- A read that throws denies the exit. -/
def readStore {α : Type} (read : Except Thrown α) : Except JsString α :=
  read.mapError fun _ => denial "review-governance storage is unavailable."

/-- A value that is missing denies the exit. -/
def orDenied {α : Type} (value : Option α) (reason : String) : Except JsString α :=
  match value with
  | some a => .ok a
  | none => .error (denial reason)

section

variable (store : ReviewStore) (scope : Scope) (freshTriggerArtifactHash : JsString)

/-- The gate that is approved for the fresh manifest. -/
def readApprovedGate : Except JsString ReviewGate := do
  let current ← readStore (store.getCurrentAuthoritativeReviewGate scope)
  let gate ← orDenied (current.filter fun gate => gate.isCurrentGate && gate.scope = scope)
    "no current exact-scope persisted gate exists."
  unlessDenied (gate.gateState = .approved) gate.denied
  unlessDenied (gate.triggerArtifactHash = freshTriggerArtifactHash)
    (denial "the persisted gate is not bound to this ingestion receipt.")
  unlessDenied (gate.basisManifestHash = gate.triggerArtifactHash)
    (denial "the current approved gate is not bound to the fresh persisted manifest.")
  return gate

/-- What the gate is based on is read before any of it is looked at. -/
def readBasis (gate : ReviewGate) :
    Except JsString (Option ReviewManifest × Option ReviewRun × List ReviewCycle) := do
  let manifest ← readStore (store.getArtifactByHash gate.basisManifestHash)
  let run ← readStore (store.getReviewRunByManifestHash gate.basisManifestHash)
  let cycles ← readStore (store.listRemediationCyclesByScope scope)
  return (manifest, run, cycles)

def isExactManifest (gate : ReviewGate) (manifest : ReviewManifest) : Bool :=
  manifest.isCurrentManifest && manifest.scope = scope &&
    manifest.contentHash = gate.basisManifestHash

def isExactRun (gate : ReviewGate) (run : ReviewRun) : Bool :=
  run.isApprovedManifestRun && run.scope = scope && run.manifestHash = gate.basisManifestHash

def isExactCycle (gate : ReviewGate) (cycle : ReviewCycle) : Bool :=
  cycle.isTerminalCycle && some cycle.cycleId = gate.cycleId && cycle.scope = scope &&
    cycle.basisManifestHash = gate.basisManifestHash

/-- `assessAuthoritativeReviewPhaseExit`: what denies the exit, if anything does. -/
def assessAuthoritativeReviewPhaseExit (genericCheckpoint : Decision) : Except JsString Unit := do
  unlessDenied (scope.isScope && freshTriggerArtifactHash.isHexDigest)
    (denial "the authoritative review scope or fresh ingestion receipt is unavailable.")
  unlessDenied genericCheckpoint.allowed genericCheckpoint.reason
  let gate ← readApprovedGate store scope freshTriggerArtifactHash
  let (manifest, run, cycles) ← readBasis store scope gate
  unlessDenied (manifest.any (isExactManifest scope gate))
    (denial "the current exact-scope persisted V1 manifest is unavailable.")
  unlessDenied (run.any (isExactRun scope gate))
    (denial "the current persisted V1 manifest is not approved.")
  unlessDenied (cycles.any (isExactCycle scope gate))
    (denial "terminal remediation evidence is unavailable.")

end

/-! ## The quality gates -/

/-- `isUnresolvedQualityGate`, of a status in lower case. -/
def isUnresolvedQualityGate (gate : Gate) : Bool :=
  if gate.gate = js "build" || gate.gate = js "lint" then false
  else gate.status = js "missing" || gate.status = js "unknown" ||
    gate.status = js "waived" && (gate.justification.getD []).trim.isEmpty

section

variable (casing : Casing)

def missingGates (gates : List Gate) : List JsString :=
  ((gates.filter fun gate =>
    isUnresolvedQualityGate { gate with status := casing.toLowerCase gate.status }).map
      (·.gate)).insertionSort (· ≤ ·)

def assessGenericPhaseExitCheckpoint (input : CheckpointInput) : Decision :=
  let missing := missingGates casing input.qualityGates
  let phaseRef := js "Phase " ++ decimalText input.phaseNumber
  if !input.completionEvidencePresent then
    ⟨false, phaseRef ++ js " cannot exit: durable completion evidence is incomplete.", missing⟩
  else if missing ≠ [] then
    ⟨false, phaseRef ++ js " cannot exit: required quality gates are missing (" ++
      (js ", ").intercalate missing ++ js ").", missing⟩
  else ⟨true, phaseRef ++ js
    " exit checkpoint passed: completion evidence and required quality gates are durable.", []⟩

/-- What denies the exit by the review that the input carries. -/
def assessReview (store : ReviewStore) (review : Option (Scope × JsString))
    (genericCheckpoint : Decision) : Except JsString Unit :=
  match review with
  | none => .error (denial "the required V1 review receipt or store is unavailable.")
  | some (scope, contentHash) =>
      assessAuthoritativeReviewPhaseExit store scope contentHash genericCheckpoint

/-- `assessPhaseExitCheckpoint`. -/
def assessPhaseExitCheckpoint (store : ReviewStore) (input : CheckpointInput) : Decision :=
  let genericCheckpoint := assessGenericPhaseExitCheckpoint casing input
  match input.authoritativeReview with
  | none => genericCheckpoint
  | some review =>
      if !genericCheckpoint.allowed then genericCheckpoint
      else match assessReview store review genericCheckpoint with
        | .ok _ => genericCheckpoint
        | .error reason =>
            ⟨false, reason, (genericCheckpoint.missingGates ++
              [js "authoritative-v1-review"]).insertionSort (· ≤ ·)⟩

end

end Hepha.PhaseExit
