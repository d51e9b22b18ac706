import Hepha.PhaseGate.Evidence

/-!
# The authoritative phase gate

`evaluateAuthoritativePhaseGate` proposes one outcome for the evidence of a
phase: a durable gate decision, or a refusal that leaves the prior gate as it
is.  Only the decision `APPROVED` opens the phase.

The remediation of a predecessor is compared with its findings through keys:
an identifier pair is joined with the unit `0`, a receipt's triple likewise,
and the arrays of keys are compared as multisets.  A required key is turned
into a required receipt key by rewriting its first unit `0`.
-/

namespace Hepha.PhaseGate

inductive AuthoritativeGateState where
  | approved
  | rejected
  | blocked
  | pending
  deriving DecidableEq

inductive AuthoritativeGateReasonCode where
  | approvedTerminalReview
  | reviewNeedsChanges
  | reviewBlocked
  | enforcementDisabled
  | terminalRemediationRequired
  deriving DecidableEq

inductive AuthoritativeGateRefusalCode where
  | invalidInput
  | scopeMismatch
  | invalidArtifactLineage
  | predecessorUnavailable
  | storeUnavailable
  deriving DecidableEq

inductive GateTransition where
  | requiresAuthoritativeExitCheck
  | forbidden
  deriving DecidableEq

structure ProposedAuthoritativePhaseGate where
  outcome : AuthoritativeGateState
  gateState : AuthoritativeGateState
  reasonCode : AuthoritativeGateReasonCode
  transition : GateTransition
  deriving DecidableEq

structure AuthoritativePhaseGateRefusal where
  code : AuthoritativeGateRefusalCode
  message : String
  transition : GateTransition
  deriving DecidableEq

/-- A refusal's `outcome` is always `UNAVAILABLE`. -/
inductive AuthoritativePhaseGateOutcome where
  | decision (proposed : ProposedAuthoritativePhaseGate)
  | refusal (refused : AuthoritativePhaseGateRefusal)
  deriving DecidableEq

def refusalMessage : AuthoritativeGateRefusalCode → String
  | .invalidInput => "Authoritative review evidence has an invalid structure."
  | .scopeMismatch => "Authoritative review evidence does not match the active workflow scope."
  | .invalidArtifactLineage => "Authoritative review artifact lineage is invalid."
  | .predecessorUnavailable => "Authoritative review predecessor evidence is unavailable."
  | .storeUnavailable => "Authoritative review storage is unavailable."

def refusal (code : AuthoritativeGateRefusalCode) : AuthoritativePhaseGateOutcome :=
  .refusal { code, message := refusalMessage code, transition := .forbidden }

def decision (gateState : AuthoritativeGateState) (reasonCode : AuthoritativeGateReasonCode) :
    AuthoritativePhaseGateOutcome :=
  .decision
    { outcome := gateState
      gateState
      reasonCode
      transition :=
        if gateState = .approved then .requiresAuthoritativeExitCheck else .forbidden }

/-! ## Lineage -/

def sameScope (left right : AuthoritativeReviewScope) : Bool :=
  left.projectId == right.projectId && left.featureId == right.featureId &&
    left.phaseNumber == right.phaseNumber && left.reviewGateId == right.reviewGateId

/-- The loop of `lineageIsResolved`: the first predecessor that is not found
as a review manifest of the expected scope decides. -/
def lookupsResolved (input : AuthoritativePhaseGateInput) :
    List JsString → Option AuthoritativeGateRefusalCode
  | [] => none
  | hash :: rest =>
      match JsMap.get (input.predecessorLookups.map fun l => (l.contentHash, l)) hash with
      | none => some .invalidArtifactLineage
      | some lookup =>
          if lookup.lookup ≠ .found then some .predecessorUnavailable
          else if lookup.artifactKind ≠ .reviewManifest ∨
              sameScope lookup.scope input.expectedScope = false then
            some .predecessorUnavailable
          else lookupsResolved input rest

def lineageIsResolved (input : AuthoritativePhaseGateInput) :
    Option AuthoritativeGateRefusalCode :=
  let expected := input.lineage.predecessorHashes
  let actual := input.predecessorLookups.map fun l => (l.contentHash, l)
  if input.lineage.artifactHash ≠ input.manifest.contentHash then some .invalidArtifactLineage
  else if setSize expected ≠ JsMap.size actual ∨
      expected.any (fun hash => (JsMap.get actual hash).isNone) then
    some .invalidArtifactLineage
  else lookupsResolved input expected

/-- The predecessor manifests are exactly those of the lineage, in scope. -/
def predecessorsResolved (input : AuthoritativePhaseGateInput) : Bool :=
  let predecessorByHash := input.predecessorManifests.map fun m => (m.contentHash, m)
  JsMap.size predecessorByHash == input.lineage.predecessorHashes.length &&
    input.lineage.predecessorHashes.all fun hash =>
      match JsMap.get predecessorByHash hash with
      | none => false
      | some predecessor => sameScope predecessor.scope input.expectedScope

/-! ## Remediation -/

def requiredFindings (findings : List AuthoritativeReviewFinding) :
    List AuthoritativeReviewFinding :=
  findings.filter fun finding =>
    finding.disposition == .inScopeBlocker || finding.disposition == .scopeExpansion

def subjectWord : SubjectKind → JsString
  | .remediationItem => js "remediation_item"
  | .test => js "test"

/-- `` `${findingId}\u0000${id}` ``. -/
def joinKey (findingId id : JsString) : JsString :=
  findingId ++ 0 :: id

def responseKey (response : AuthoritativeRemediationResponseEvidence) : JsString :=
  joinKey response.findingId response.remediationItemId

def receiptKey (receipt : AuthoritativeVerificationReceiptEvidence) : JsString :=
  receipt.findingId ++ 0 :: subjectWord receipt.subjectKind ++ 0 :: receipt.subjectId

/-- The ids of a finding that one kind of receipt must cover. -/
def subjectIds (kind : SubjectKind) (finding : AuthoritativeReviewFinding) : List JsString :=
  match kind with
  | .remediationItem => finding.requiredRemediationItemIds
  | .test => finding.requiredTestIds

/-- The keys `requiredItems` and `requiredTests`. -/
def requiredKeys (kind : SubjectKind) (findings : List AuthoritativeReviewFinding) :
    List JsString :=
  findings.flatMap fun finding => (subjectIds kind finding).map (joinKey finding.findingId)

/-- `` key.replace("\u0000", `\u0000${kind}\u0000`) ``. -/
def toReceiptKey (kind : SubjectKind) (key : JsString) : JsString :=
  JsString.replaceFirst 0 (0 :: subjectWord kind ++ [0]) key

def requiredReceiptKeys (findings : List AuthoritativeReviewFinding) : List JsString :=
  (requiredKeys .remediationItem findings).map (toReceiptKey .remediationItem) ++
    (requiredKeys .test findings).map (toReceiptKey .test)

/-- What `remediationIsComplete` asks of the responses. -/
def responsesComplete (findings : List AuthoritativeReviewFinding) (predecessorHash : JsString)
    (remediation : AuthoritativeRemediationEvidence) : Bool :=
  let requiredItems := requiredKeys .remediationItem findings
  let responseKeys := remediation.responses.map responseKey
  hasUniqueValues responseKeys && responseKeys.length == requiredItems.length &&
    responseKeys.all (requiredItems.contains ·) &&
    remediation.responses.all fun response =>
      response.outcome == .applied && response.basisManifestHash == predecessorHash &&
        response.cycleId == remediation.cycle.cycleId

/-- What `remediationIsComplete` asks of one receipt, its key apart. -/
def receiptVerified (remediation : AuthoritativeRemediationEvidence)
    (receipt : AuthoritativeVerificationReceiptEvidence) : Bool :=
  let responseHashByKey := remediation.responses.map fun r => (responseKey r, r.responseHash)
  match receipt.subjectKind with
  | .remediationItem =>
      receipt.outcome == .verified &&
        JsMap.get responseHashByKey (joinKey receipt.findingId receipt.subjectId) ==
          some receipt.responseHash
  | .test =>
      receipt.outcome == .passed && remediation.responses.any fun response =>
        response.findingId == receipt.findingId && response.responseHash == receipt.responseHash

/-- What `remediationIsComplete` asks of the receipts. -/
def receiptsComplete (findings : List AuthoritativeReviewFinding) (predecessorHash : JsString)
    (remediation : AuthoritativeRemediationEvidence) : Bool :=
  let receiptKeys := remediation.receipts.map receiptKey
  hasUniqueValues receiptKeys && receiptKeys.length == (requiredReceiptKeys findings).length &&
    receiptKeys.all ((requiredReceiptKeys findings).contains ·) &&
    remediation.receipts.all fun receipt =>
      receipt.basisManifestHash == predecessorHash &&
        receipt.cycleId == remediation.cycle.cycleId && receiptVerified remediation receipt

def remediationIsComplete (findings : List AuthoritativeReviewFinding)
    (predecessorHash : JsString) (remediation : AuthoritativeRemediationEvidence) : Bool :=
  responsesComplete findings predecessorHash remediation &&
    receiptsComplete findings predecessorHash remediation

/-! ## The gate -/

def needsChangesPredecessors (input : AuthoritativePhaseGateInput) :
    List AuthoritativeManifestEvidence :=
  input.predecessorManifests.filter (·.result == .needsChanges)

/-- The last branch of the gate: an approved manifest whose lineage is
resolved, judged by what it still owes to its predecessors. -/
def evaluateRemediation (input : AuthoritativePhaseGateInput) : AuthoritativePhaseGateOutcome :=
  let cycle := input.remediation.cycle
  let pending := decision .pending .terminalRemediationRequired
  match needsChangesPredecessors input with
  | [] =>
      if cycle.basisManifestHash = input.manifest.contentHash ∧
          cycle.cycleState = .noRemediationRequired ∧
          input.remediation.responses.length = 0 ∧ input.remediation.receipts.length = 0 then
        decision .approved .approvedTerminalReview
      else pending
  | [predecessor] =>
      if cycle.basisManifestHash ≠ predecessor.contentHash ∨
          cycle.cycleState ≠ .remediationVerified then
        pending
      else if remediationIsComplete (requiredFindings predecessor.findings)
          predecessor.contentHash input.remediation then
        decision .approved .approvedTerminalReview
      else pending
  | _ :: _ :: _ => pending

/-- The gate on evidence that passed `validateInput`. -/
def evaluateValidated (input : AuthoritativePhaseGateInput) : AuthoritativePhaseGateOutcome :=
  if sameScope input.expectedScope input.manifest.scope = false ∨
      sameScope input.expectedScope input.remediation.cycle.scope = false then
    refusal .scopeMismatch
  else
    match lineageIsResolved input with
    | some lineageFailure => refusal lineageFailure
    | none =>
        if input.enforcement.storeAvailable = false then refusal .storeUnavailable
        else if input.manifest.result = .needsChanges then decision .rejected .reviewNeedsChanges
        else if input.manifest.result = .blocked then decision .blocked .reviewBlocked
        else if input.enforcement.enabled = false then decision .blocked .enforcementDisabled
        else if predecessorsResolved input = false then refusal .predecessorUnavailable
        else evaluateRemediation input

def evaluateAuthoritativePhaseGate (input : JsValue) : AuthoritativePhaseGateOutcome :=
  match validateInput input with
  | none => refusal .invalidInput
  | some validated => evaluateValidated validated

/-- The gate's decision is `APPROVED`. -/
def AuthoritativePhaseGateOutcome.Approves (outcome : AuthoritativePhaseGateOutcome) : Prop :=
  ∃ proposed, outcome = .decision proposed ∧ proposed.gateState = .approved

/-! ## When the gate approves -/

/-- What the gate has checked when it comes to the remediation. -/
structure Admitted (input : AuthoritativePhaseGateInput) : Prop where
  manifestScope : sameScope input.expectedScope input.manifest.scope = true
  cycleScope : sameScope input.expectedScope input.remediation.cycle.scope = true
  lineage : lineageIsResolved input = none
  storeAvailable : input.enforcement.storeAvailable = true
  result : input.manifest.result = .approved
  enabled : input.enforcement.enabled = true
  predecessors : predecessorsResolved input = true

/-- The approving branch without a `NEEDS_CHANGES` predecessor. -/
structure NothingOwed (input : AuthoritativePhaseGateInput) : Prop where
  none : needsChangesPredecessors input = []
  basis : input.remediation.cycle.basisManifestHash = input.manifest.contentHash
  state : input.remediation.cycle.cycleState = .noRemediationRequired
  responses : input.remediation.responses = []
  receipts : input.remediation.receipts = []

/-- The approving branch for the remediation of one predecessor. -/
structure Remediated (input : AuthoritativePhaseGateInput)
    (predecessor : AuthoritativeManifestEvidence) : Prop where
  one : needsChangesPredecessors input = [predecessor]
  basis : input.remediation.cycle.basisManifestHash = predecessor.contentHash
  state : input.remediation.cycle.cycleState = .remediationVerified
  complete : remediationIsComplete (requiredFindings predecessor.findings)
    predecessor.contentHash input.remediation = true

@[simp] theorem refusal_not_approves (code : AuthoritativeGateRefusalCode) :
    ¬ (refusal code).Approves := by
  rintro ⟨_, h, _⟩
  cases h

@[simp] theorem decision_approves {state : AuthoritativeGateState}
    {reason : AuthoritativeGateReasonCode} :
    (decision state reason).Approves ↔ state = .approved := by
  simp [decision, AuthoritativePhaseGateOutcome.Approves]

theorem approves_ite {c : Prop} [Decidable c] {state : AuthoritativeGateState}
    {reason : AuthoritativeGateReasonCode} {otherwise : AuthoritativePhaseGateOutcome}
    (h : ¬ otherwise.Approves) :
    (if c then decision state reason else otherwise).Approves ↔ c ∧ state = .approved := by
  split_ifs with hc <;> simp [hc, h]

/-- A guard that leaves without approval when it fires. -/
theorem guard_approves {c : Prop} [Decidable c] {leave rest : AuthoritativePhaseGateOutcome}
    (h : ¬ leave.Approves) : (if c then leave else rest).Approves ↔ ¬ c ∧ rest.Approves := by
  split_ifs with hc <;> simp [hc, h]

theorem evaluateRemediation_approves_iff {input : AuthoritativePhaseGateInput} :
    (evaluateRemediation input).Approves ↔
      NothingOwed input ∨ ∃ predecessor, Remediated input predecessor := by
  unfold evaluateRemediation
  rcases hneeds : needsChangesPredecessors input with _ | ⟨predecessor, _ | ⟨second, rest⟩⟩
  · simp only
    rw [approves_ite (by simp)]
    constructor
    · rintro ⟨⟨hbasis, hstate, hresponses, hreceipts⟩, -⟩
      exact Or.inl ⟨hneeds, hbasis, hstate, List.length_eq_zero_iff.mp hresponses,
        List.length_eq_zero_iff.mp hreceipts⟩
    · rintro (h | ⟨predecessor, h⟩)
      · simp [h.basis, h.state, h.responses, h.receipts]
      · simp [h.one] at hneeds
  · simp only
    rw [guard_approves (by simp), approves_ite (by simp), not_or, not_not, not_not]
    constructor
    · rintro ⟨⟨hbasis, hstate⟩, hcomplete, -⟩
      exact Or.inr ⟨predecessor, hneeds, hbasis, hstate, hcomplete⟩
    · rintro (h | ⟨other, h⟩)
      · simp [h.none] at hneeds
      · obtain rfl : other = predecessor := by simpa [h.one] using hneeds
        exact ⟨⟨h.basis, h.state⟩, h.complete, rfl⟩
  · constructor
    · simp
    · rintro (h | ⟨other, h⟩)
      · simp [h.none] at hneeds
      · simp [h.one] at hneeds

theorem evaluateValidated_approves_iff {input : AuthoritativePhaseGateInput} :
    (evaluateValidated input).Approves ↔
      Admitted input ∧ (NothingOwed input ∨ ∃ predecessor, Remediated input predecessor) := by
  rw [← evaluateRemediation_approves_iff]
  unfold evaluateValidated
  rw [guard_approves (by simp), not_or, Bool.not_eq_false, Bool.not_eq_false]
  cases hlineage : lineageIsResolved input with
  | some failure =>
      simp only [refusal_not_approves, and_false, false_iff, not_and]
      intro hadmitted
      simp [hadmitted.lineage] at hlineage
  | none =>
      simp only
      rw [guard_approves (by simp), guard_approves (by simp), guard_approves (by simp),
        guard_approves (by simp), guard_approves (by simp), Bool.not_eq_false, Bool.not_eq_false,
        Bool.not_eq_false]
      constructor
      · rintro ⟨⟨hmanifest, hcycle⟩, hstore, hneeds, hblocked, henabled, hpredecessors, h⟩
        have hresult : input.manifest.result = .approved := by
          cases hr : input.manifest.result <;> simp_all
        exact ⟨⟨hmanifest, hcycle, hlineage, hstore, hresult, henabled, hpredecessors⟩, h⟩
      · rintro ⟨hadmitted, h⟩
        simp [hadmitted.manifestScope, hadmitted.cycleScope, hadmitted.storeAvailable,
          hadmitted.result, hadmitted.enabled, hadmitted.predecessors, h]

/-- **The gate's approving branches**, for every value it may be given. -/
theorem evaluate_approves_iff {value : JsValue} :
    (evaluateAuthoritativePhaseGate value).Approves ↔
      ∃ input, validateInput value = some input ∧ Admitted input ∧
        (NothingOwed input ∨ ∃ predecessor, Remediated input predecessor) := by
  unfold evaluateAuthoritativePhaseGate
  cases h : validateInput value with
  | none => simp
  | some input => simp [evaluateValidated_approves_iff]

end Hepha.PhaseGate
