import Hepha.Rollout.Store

/-!
# Admission and disablement of a pilot

The policy admits a pilot and disables it through the store.  A call reads the
status, decides, and appends one event with the version that it has read.  The
two accesses are separate, and other clients of the store may come between them,
so each call is given in two parts: what it decides from the status it reads, and
what it makes of the store's answer.
-/

namespace Hepha.Rollout

open Pattern

/-- `text` of the policy. -/
def policyText (value : JsString) : Bool :=
  0 < value.length && value.length ≤ 1024 &&
    !(value.any fun u => Review.isTextControl u || isSurrogate u) &&
    !test Review.contractAssignment value && !test markup value && !test scriptScheme value

/-- `GovernancePilotConfiguration`. -/
structure PilotConfiguration where
  pilotId : JsString
  projectId : JsString
  featureId : JsString
  phaseContractId : JsString
  taskId : JsString
  contractVersion : ℕ
  pilotConfigHash : JsString
deriving DecidableEq

/-- `isGovernancePilotConfiguration`. -/
def isGovernancePilotConfiguration (value : PilotConfiguration) : Bool :=
  ([value.pilotId, value.projectId, value.featureId, value.phaseContractId, value.taskId].all
      JsString.isKebabCase) &&
    integer value.contractVersion && hash value.pilotConfigHash

/-- The members of a target that are compared with the configuration. -/
structure PilotTarget where
  pilotId : JsString
  featureId : JsString
  phaseContractId : JsString
  taskId : JsString
  contractVersion : ℕ
  pilotConfigHash : JsString
deriving DecidableEq

/-- `sameConfig`. -/
def sameConfig (config : PilotConfiguration) (target : PilotTarget) (projectId : JsString) : Bool :=
  config.projectId == projectId && config.pilotId == target.pilotId &&
    config.featureId == target.featureId && config.phaseContractId == target.phaseContractId &&
    config.taskId == target.taskId && config.contractVersion == target.contractVersion &&
    config.pilotConfigHash == target.pilotConfigHash

/-- The argument of `evaluateGovernancePilotAdmission`, with what its clock
returns. -/
structure AdmissionRequest where
  projectId : JsString
  config : PilotConfiguration
  target : PilotTarget
  parityReceiptId : JsString
  migrationAuditId : JsString
  expiresAt : JsString
  expectedVersion : ℕ
  reason : JsString
  actorId : JsString
  role : JsString
  sourceVersionHash : JsString
  now : JsString

/-- `currentPrerequisites`. -/
def currentPrerequisites (status : Status) (request : AdmissionRequest) : Bool :=
  match status.parity, status.migration with
  | some parity, some migration =>
      parity.receiptId == request.parityReceiptId && parity.result == .matched &&
        parity.sourceVersionHash == request.sourceVersionHash &&
        isLater parity.validUntil request.now &&
        migration.auditId == request.migrationAuditId &&
        (migration.outcome == .applied || migration.outcome == .alreadyCurrent) &&
        migration.readBackHash.isSome
  | _, _ => false

inductive PolicyRefusal
  | pilotPrerequisiteMissing
  | pilotExpired
  | persistenceFailed
deriving DecidableEq, Repr

/-- The approval of a request, and the event with it. -/
def AdmissionRequest.event (raw : AdmissionRequest) (uuid : JsString) : PilotEventInput :=
  { projectId := raw.projectId, expectedVersion := raw.expectedVersion
    pilotId := raw.config.pilotId, eventKind := .pilotAdmitted, state := .active
    payload := .approval
      { approvalReceiptId := js "pilot-approval-" ++ uuid, pilotId := raw.config.pilotId
        featureId := raw.config.featureId, phaseContractId := raw.config.phaseContractId
        taskId := raw.config.taskId, contractVersion := raw.config.contractVersion
        pilotConfigHash := raw.config.pilotConfigHash, actorId := raw.actorId
        reason := raw.reason, parityReceiptId := raw.parityReceiptId
        migrationAuditId := raw.migrationAuditId, approvedAt := raw.now
        expiresAt := raw.expiresAt, expectedVersion := raw.expectedVersion
        resultingVersion := raw.expectedVersion + 1 }
    occurredAt := raw.now }

/-- `evaluateGovernancePilotAdmission` up to the event that it appends. -/
def evaluateGovernancePilotAdmission (migrationProjectId : JsString) (t : Tables)
    (raw : AdmissionRequest) (uuid : JsString) : Except PolicyRefusal PilotEventInput :=
  if !(raw.projectId.isKebabCase && isGovernancePilotConfiguration raw.config &&
      integer raw.expectedVersion && policyText raw.reason && raw.actorId.isKebabCase &&
      raw.role == js "ARCHITECTURE_STEWARD" && hash raw.sourceVersionHash) then
    .error .pilotPrerequisiteMissing
  else if !(utc raw.now && sameConfig raw.config raw.target raw.projectId &&
      raw.parityReceiptId.isKebabCase && raw.migrationAuditId.isKebabCase &&
      utc raw.expiresAt) then
    .error .pilotPrerequisiteMissing
  else if !withinDay raw.now raw.expiresAt then .error .pilotExpired
  else
    match t.readStatus migrationProjectId raw.projectId with
    | .error _ => .error .persistenceFailed
    | .ok current =>
        if current.mode = .disabled ∧ current.eventVersion = raw.expectedVersion ∧
            current.pilot = none ∧ currentPrerequisites current raw then
          .ok (raw.event uuid)
        else .error .pilotPrerequisiteMissing

/-- The argument of `disableGovernancePilot`, with what its clock returns. -/
structure DisablementRequest where
  projectId : JsString
  pilotId : JsString
  expectedVersion : ℕ
  reason : JsString
  now : JsString

/-- The event that disables a pilot. -/
def DisablementRequest.event (raw : DisablementRequest) : PilotEventInput :=
  { projectId := raw.projectId, expectedVersion := raw.expectedVersion, pilotId := raw.pilotId
    eventKind := .disabledByOperator, state := .needsHuman
    payload := .outcome (js "DISABLED_BY_OPERATOR"), occurredAt := raw.now }

/-- `disableGovernancePilot` up to the event that it appends. -/
def disableGovernancePilot (migrationProjectId : JsString) (t : Tables)
    (raw : DisablementRequest) : Except PolicyRefusal PilotEventInput :=
  if !(raw.projectId.isKebabCase && raw.pilotId.isKebabCase && integer raw.expectedVersion &&
      policyText raw.reason) then
    .error .pilotPrerequisiteMissing
  else if !utc raw.now then .error .persistenceFailed
  else
    match t.readStatus migrationProjectId raw.projectId with
    | .error _ => .error .persistenceFailed
    | .ok current =>
        if current.pilot.map PilotStatus.pilotId = some raw.pilotId ∧
            current.eventVersion = raw.expectedVersion ∧
            (current.mode = .active ∨ current.mode = .needsHuman) then
          .ok raw.event
        else .error .pilotPrerequisiteMissing

/-- A policy call that has read the status and is about to append its event. -/
inductive PolicyCall
  | admission (event : PilotEventInput)
  | disablement (event : PilotEventInput)

def PolicyCall.event : PolicyCall → PilotEventInput
  | admission event => event
  | disablement event => event

/-- Whether the call returns `admitted`, by the status that the store returns. -/
def PolicyCall.admits : PolicyCall → Status → Bool
  | admission _, saved => saved.mode == .active
  | disablement _, _ => false

variable {p uuid : JsString} {t : Tables}

/-- **An admission is decided at version 0 of a project without a pilot.** -/
theorem evaluateGovernancePilotAdmission_ok {raw : AdmissionRequest} {event : PilotEventInput}
    (h : evaluateGovernancePilotAdmission p t raw uuid = .ok event) :
    event = raw.event uuid ∧ ∃ current, t.readStatus p raw.projectId = .ok current ∧
      current.eventVersion = raw.expectedVersion ∧ current.pilot = none := by
  unfold evaluateGovernancePilotAdmission at h
  split at h
  · cases h
  split at h
  · cases h
  split at h
  · cases h
  split at h
  · cases h
  · rename_i current hcurrent
    split at h
    · rename_i hchecks
      exact ⟨(Except.ok.inj h).symm, current, hcurrent, hchecks.2.1, hchecks.2.2.1⟩
    · cases h

/-- **A disablement names the pilot of the status that it has read.** -/
theorem disableGovernancePilot_ok {raw : DisablementRequest} {event : PilotEventInput}
    (h : disableGovernancePilot p t raw = .ok event) :
    event = raw.event ∧ ∃ current, t.readStatus p raw.projectId = .ok current ∧
      current.eventVersion = raw.expectedVersion ∧
      current.pilot.map PilotStatus.pilotId = some raw.pilotId := by
  unfold disableGovernancePilot at h
  split at h
  · cases h
  split at h
  · cases h
  split at h
  · cases h
  · rename_i current hcurrent
    split at h
    · rename_i hchecks
      exact ⟨(Except.ok.inj h).symm, current, hcurrent, hchecks.2.1, hchecks.1⟩
    · cases h

end Hepha.Rollout
