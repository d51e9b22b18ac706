import Hepha.Debt.Store

/-!
# The triage policy

The policy decides about one action of an architecture steward on one record as
it was read, without any access to the store.  An action that closes a record in
favour of another one carries that target as it was read, too.

`recordArchitectureDebtTriage` asks the policy and commits what it accepts.  The
store compares the version of the record only; nothing is checked about the
target any more.
-/

namespace Hepha.Debt

/-! ## Actions -/

/-- What the action of an operation has besides the common members. -/
inductive ActionDetail
  | confirm (ownerId rationale risk architecturalBoundary : JsString) (priority : DebtPriority)
      (futureTouchTrigger : Trigger)
  | reject
  | merge (targetAggregate : Aggregate)
  | reassign (ownerId : JsString)
  | defer
  | acceptRisk (reviewTrigger : JsString)
  | planLink (featureId phaseTask : JsString)
  | close (closureEvidence : JsString)
  | supersede (targetAggregate : Aggregate)
deriving DecidableEq

def ActionDetail.operation : ActionDetail → TriageOperation
  | confirm .. => .confirm
  | reject => .reject
  | merge _ => .merge
  | reassign _ => .reassign
  | defer => .defer
  | acceptRisk _ => .acceptRisk
  | planLink _ _ => .planLink
  | close _ => .close
  | supersede _ => .supersede

/-- The target that an action carries. -/
def ActionDetail.target : ActionDetail → Option Aggregate
  | merge targetAggregate | supersede targetAggregate => some targetAggregate
  | _ => none

structure TriageAction where
  projectId : JsString
  recordId : JsString
  expectedVersion : ℕ
  reason : JsString
  occurredAt : JsString
  detail : ActionDetail
deriving DecidableEq

/-- `actionBase`. -/
def TriageAction.valid (action : TriageAction) : Bool :=
  identifier action.projectId && isRecordId action.recordId && text action.reason &&
    utc action.occurredAt

/-! ## The state machine of a record -/

/-- The operations that `transitions` lists for a state. -/
def DebtState.transitions : DebtState → List TriageOperation
  | .pendingTriage =>
      [.confirm, .reject, .merge, .reassign, .defer, .acceptRisk, .planLink, .supersede]
  | .confirmed => [.merge, .reassign, .defer, .acceptRisk, .planLink, .close, .supersede]
  | .deferred => [.confirm, .merge, .reassign, .acceptRisk, .planLink, .close, .supersede]
  | .acceptedRisk => [.confirm, .reassign, .planLink, .close, .supersede]
  | .planned => [.reassign, .defer, .acceptRisk, .close, .supersede]
  | .closed | .rejected | .merged | .superseded => []

/-- `transitionAllowed`. -/
def transitionAllowed (state : DebtState) (operation : TriageOperation) : Bool :=
  state.transitions.contains operation

/-- `nextState`. -/
def nextState (operation : TriageOperation) (state : DebtState) : DebtState :=
  match operation with
  | .confirm => .confirmed
  | .reject => .rejected
  | .merge => .merged
  | .reassign => state
  | .defer => .deferred
  | .acceptRisk => .acceptedRisk
  | .planLink => .planned
  | .close => .closed
  | .supersede => .superseded

/-- A closed state is final. -/
theorem isOpen_of_transitionAllowed {state : DebtState} {operation : TriageOperation}
    (h : transitionAllowed state operation = true) : state.isOpen = true := by
  cases state <;> first | rfl | exact absurd h (by simp [transitionAllowed, DebtState.transitions])

/-! ## The policy -/

inductive PolicyRefusalCode
  | invalidInput
  | unauthorized
  | staleVersion
  | foreignIdentity
  | invalidTransition
  | invalidTarget
  | invalidDecision
deriving DecidableEq

def PolicyRefusalCode.message : PolicyRefusalCode → JsString
  | invalidInput => js "Architecture-debt policy input is invalid."
  | unauthorized => js "Architecture-debt authority is not authorized."
  | staleVersion => js "Architecture-debt record version is stale."
  | foreignIdentity => js "Architecture-debt identity does not match the record."
  | invalidTransition => js "Architecture-debt state does not permit this operation."
  | invalidTarget => js "Architecture-debt target is invalid."
  | invalidDecision => js "Architecture-debt future-touch decision is incomplete or stale."

/-- `ArchitectureDebtTriageAccepted`. -/
structure TriageAccepted where
  event : TriageEvent
  nextAggregate : Aggregate
deriving DecidableEq

/-- `sameTargetProject`. -/
def sameTargetProject (source candidate : Aggregate) : Bool :=
  source.projectId == candidate.projectId && source.recordId != candidate.recordId &&
    candidate.state.isOpen

/-- `targetCreatesCycle`. -/
def targetCreatesCycle (source candidate : Aggregate) : Bool :=
  candidate.duplicateOfRecordId == some source.recordId ||
    candidate.supersededByRecordId == some source.recordId

/-- What an accepted action does to a record whose state and version are
advanced already. -/
def applyDetail (source nextBase : Aggregate) :
    ActionDetail → Except PolicyRefusalCode (TriageDetail × Aggregate)
  | .confirm ownerId rationale risk architecturalBoundary priority futureTouchTrigger =>
      if identifier ownerId && text rationale && text risk && identifier architecturalBoundary &&
          futureTouchTrigger.valid then
        .ok (.confirm ownerId rationale risk architecturalBoundary priority futureTouchTrigger,
          { nextBase with
            ownerId, rationale, risk, architecturalBoundary, priority
            prioritySource := .stewardConfirmed
            futureTouchTrigger })
      else .error .invalidInput
  | .reassign ownerId =>
      if identifier ownerId then .ok (.reassign ownerId, { nextBase with ownerId })
      else .error .invalidInput
  | .merge target =>
      if target.valid = false then .error .invalidInput
      else if !sameTargetProject source target || targetCreatesCycle source target then
        .error .invalidTarget
      else
        .ok (.merge target.recordId, { nextBase with duplicateOfRecordId := some target.recordId })
  | .supersede target =>
      if target.valid = false then .error .invalidInput
      else if !sameTargetProject source target || targetCreatesCycle source target then
        .error .invalidTarget
      else
        .ok (.supersede target.recordId,
          { nextBase with supersededByRecordId := some target.recordId })
  | .planLink featureId phaseTask =>
      if identifier featureId && identifier phaseTask then
        .ok (.planLink featureId phaseTask, nextBase)
      else .error .invalidInput
  | .acceptRisk reviewTrigger =>
      if identifier reviewTrigger then .ok (.acceptRisk reviewTrigger, nextBase)
      else .error .invalidInput
  | .close closureEvidence =>
      if text closureEvidence then .ok (.close closureEvidence, nextBase)
      else .error .invalidInput
  | .reject => .ok (.reject, nextBase)
  | .defer => .ok (.defer, nextBase)

/-- `evaluateArchitectureDebtTriage`. -/
def evaluateArchitectureDebtTriage (aggregate : Aggregate) (actorId : JsString)
    (action : TriageAction) : Except PolicyRefusalCode TriageAccepted :=
  if !(aggregate.valid && identifier actorId && action.valid) then .error .invalidInput
  else if action.projectId ≠ aggregate.projectId ∨ action.recordId ≠ aggregate.recordId then
    .error .foreignIdentity
  else if action.expectedVersion ≠ aggregate.eventVersion then .error .staleVersion
  else if transitionAllowed aggregate.state action.detail.operation = false then
    .error .invalidTransition
  else
    let nextBase := { aggregate with
      state := nextState action.detail.operation aggregate.state
      eventVersion := aggregate.eventVersion + 1 }
    (applyDetail aggregate nextBase action.detail).map fun (detail, nextAggregate) =>
      { event :=
          { detail
            projectId := aggregate.projectId
            recordId := aggregate.recordId
            actorId
            reason := action.reason
            expectedVersion := aggregate.eventVersion
            resultingVersion := aggregate.eventVersion + 1
            occurredAt := action.occurredAt }
        nextAggregate }

/-! ## Committing a triage -/

/-- What an accepted triage commits. -/
def TriageAccepted.operation (accepted : TriageAccepted) : Operation :=
  .applyTriage
    { expectedVersion := accepted.event.expectedVersion
      projectId := accepted.event.projectId
      recordId := accepted.event.recordId
      event := accepted.event
      nextAggregate := accepted.nextAggregate }

inductive IntegrationRefusalCode
  | invalidInput
  | touchPlanMissing
  | touchPlanInvalid
  | storeUnavailable
  | policyRefusal
  | persistenceFailed
  | readinessBlocked
deriving DecidableEq

/-- `recordArchitectureDebtTriage`, with the store it leaves. -/
def recordArchitectureDebtTriage (sha256 : JsString → HexDigest) (store : Store)
    (aggregate : Aggregate) (actorId : JsString) (action : TriageAction)
    (verifyReadBack : Aggregate → Bool) : Except IntegrationRefusalCode Aggregate × Store :=
  match evaluateArchitectureDebtTriage aggregate actorId action with
  | .error _ => (.error .policyRefusal, store)
  | .ok accepted =>
      match store.commitOperation sha256 verifyReadBack accepted.operation with
      | (.committed committed, next) => (.ok committed, next)
      | (.refusal .persistenceFailed, next) => (.error .persistenceFailed, next)
      | (_, next) => (.error .invalidInput, next)

/-! ## What the policy accepts -/

/-- Who takes the place of a record. -/
def Aggregate.PointsAt (a : Aggregate) (recordId : JsString) : Prop :=
  a.duplicateOfRecordId = some recordId ∨ a.supersededByRecordId = some recordId

/-- What an accepted action has been checked for, and what it makes of a
record. -/
structure Accepts (aggregate : Aggregate) (action : TriageAction) (accepted : TriageAccepted) :
    Prop where
  projectId : accepted.event.projectId = aggregate.projectId
  recordId : accepted.event.recordId = aggregate.recordId
  expectedVersion : accepted.event.expectedVersion = aggregate.eventVersion
  operation : accepted.event.detail.operation = action.detail.operation
  allowed : transitionAllowed aggregate.state accepted.event.detail.operation = true
  state : accepted.nextAggregate.state =
    nextState accepted.event.detail.operation aggregate.state
  /-- A new pointer leads to the target of the action: another open record of
  the project. -/
  pointers : ∀ id, accepted.nextAggregate.PointsAt id → aggregate.PointsAt id ∨
    ∃ target, action.detail.target = some target ∧ id = target.recordId ∧
      target.projectId = aggregate.projectId ∧ target.recordId ≠ aggregate.recordId ∧
      target.state.isOpen = true
  points : ∀ target, action.detail.target = some target →
    accepted.nextAggregate.PointsAt target.recordId
  /-- Only a closed record gets a pointer. -/
  closed : accepted.nextAggregate.state.isOpen = true →
    ∀ id, accepted.nextAggregate.PointsAt id → aggregate.PointsAt id

theorem sameTargetProject_iff {source candidate : Aggregate} :
    sameTargetProject source candidate = true ↔ candidate.projectId = source.projectId ∧
      candidate.recordId ≠ source.recordId ∧ candidate.state.isOpen = true := by
  simp only [sameTargetProject, Bool.and_eq_true, beq_iff_eq, bne_iff_ne]
  constructor
  · rintro ⟨⟨hproject, hrecord⟩, hopen⟩
    exact ⟨hproject.symm, hrecord.symm, hopen⟩
  · rintro ⟨hproject, hrecord, hopen⟩
    exact ⟨⟨hproject.symm, hrecord.symm⟩, hopen⟩

/-- What an action does besides moving the state and the version. -/
theorem applyDetail_ok {source nextBase next : Aggregate} {detail : ActionDetail}
    {event : TriageDetail} (h : applyDetail source nextBase detail = .ok (event, next)) :
    event.operation = detail.operation ∧ next.state = nextBase.state ∧
      (detail.target = none ∧ (∀ id, next.PointsAt id ↔ nextBase.PointsAt id) ∨
        ∃ target, detail.target = some target ∧ sameTargetProject source target = true ∧
          (detail.operation = .merge ∨ detail.operation = .supersede) ∧
          next.PointsAt target.recordId ∧
          ∀ id, next.PointsAt id → nextBase.PointsAt id ∨ id = target.recordId) := by
  cases detail with
  | confirm =>
      simp only [applyDetail] at h
      split at h
      · cases h
        exact ⟨rfl, rfl, .inl ⟨rfl, fun _ => Iff.rfl⟩⟩
      · cases h
  | reassign =>
      simp only [applyDetail] at h
      split at h
      · cases h
        exact ⟨rfl, rfl, .inl ⟨rfl, fun _ => Iff.rfl⟩⟩
      · cases h
  | merge target =>
      simp only [applyDetail] at h
      split at h
      · cases h
      · split at h
        · cases h
        · rename_i htarget
          simp only [Bool.or_eq_true, not_or, Bool.not_eq_true, Bool.not_eq_false'] at htarget
          cases h
          refine ⟨rfl, rfl, .inr ⟨target, rfl, htarget.1, .inl rfl, .inl rfl, ?_⟩⟩
          rintro id (hid | hid)
          · exact .inr (Option.some.inj hid).symm
          · exact .inl (.inr hid)
  | supersede target =>
      simp only [applyDetail] at h
      split at h
      · cases h
      · split at h
        · cases h
        · rename_i htarget
          simp only [Bool.or_eq_true, not_or, Bool.not_eq_true, Bool.not_eq_false'] at htarget
          cases h
          refine ⟨rfl, rfl, .inr ⟨target, rfl, htarget.1, .inr rfl, .inr rfl, ?_⟩⟩
          rintro id (hid | hid)
          · exact .inl (.inl hid)
          · exact .inr (Option.some.inj hid).symm
  | planLink =>
      simp only [applyDetail] at h
      split at h
      · cases h
        exact ⟨rfl, rfl, .inl ⟨rfl, fun _ => Iff.rfl⟩⟩
      · cases h
  | acceptRisk =>
      simp only [applyDetail] at h
      split at h
      · cases h
        exact ⟨rfl, rfl, .inl ⟨rfl, fun _ => Iff.rfl⟩⟩
      · cases h
  | close =>
      simp only [applyDetail] at h
      split at h
      · cases h
        exact ⟨rfl, rfl, .inl ⟨rfl, fun _ => Iff.rfl⟩⟩
      · cases h
  | reject =>
      cases h
      exact ⟨rfl, rfl, .inl ⟨rfl, fun _ => Iff.rfl⟩⟩
  | defer =>
      cases h
      exact ⟨rfl, rfl, .inl ⟨rfl, fun _ => Iff.rfl⟩⟩

/-- **What `evaluateArchitectureDebtTriage` accepts.** -/
theorem evaluateArchitectureDebtTriage_ok {aggregate : Aggregate} {actorId : JsString}
    {action : TriageAction} {accepted : TriageAccepted}
    (h : evaluateArchitectureDebtTriage aggregate actorId action = .ok accepted) :
    Accepts aggregate action accepted := by
  unfold evaluateArchitectureDebtTriage at h
  split at h
  · cases h
  · split at h
    · cases h
    · split at h
      · cases h
      · split at h
        · cases h
        · rename_i hallowed
          dsimp only at h
          cases hdetail : applyDetail aggregate { aggregate with
              state := nextState action.detail.operation aggregate.state
              eventVersion := aggregate.eventVersion + 1 } action.detail with
          | error code =>
              rw [hdetail] at h
              cases h
          | ok done =>
              rw [hdetail] at h
              obtain ⟨detail, next⟩ := done
              cases h
              obtain ⟨hoperation, hstate, hpointers⟩ := applyDetail_ok hdetail
              refine ⟨rfl, rfl, rfl, hoperation, ?_, ?_, ?_, ?_, ?_⟩
              · rw [hoperation]
                exact eq_true_of_ne_false hallowed
              · rw [hoperation]
                exact hstate
              · intro id hid
                rcases hpointers with ⟨-, hsame⟩ | ⟨target, htarget, hproject, -, -, hnew⟩
                · exact .inl ((hsame id).mp hid)
                · rcases hnew id hid with hold | rfl
                  · exact .inl hold
                  · exact .inr ⟨target, htarget, rfl, sameTargetProject_iff.1 hproject⟩
              · intro target htarget
                rcases hpointers with ⟨hnone, -⟩ | ⟨target', htarget', -, -, hpoints, -⟩
                · rw [hnone] at htarget
                  cases htarget
                · rw [htarget] at htarget'
                  cases htarget'
                  exact hpoints
              · intro hopen id hid
                rcases hpointers with ⟨-, hsame⟩ | ⟨target, htarget, -, hkind, -⟩
                · exact (hsame id).mp hid
                · have hclosed : next.state.isOpen = false := by
                    rw [hstate]
                    rcases hkind with hkind | hkind <;> rw [hkind] <;> rfl
                  rw [hclosed] at hopen
                  cases hopen

/-- What the policy accepts is handed to the store. -/
theorem recordArchitectureDebtTriage_store {sha256 : JsString → HexDigest} {s : Store}
    {source : Aggregate} {actorId : JsString} {action : TriageAction}
    {accepted : TriageAccepted} (verifyReadBack : Aggregate → Bool)
    (h : evaluateArchitectureDebtTriage source actorId action = .ok accepted) :
    (recordArchitectureDebtTriage sha256 s source actorId action verifyReadBack).2 =
      (s.commitOperation sha256 verifyReadBack accepted.operation).2 := by
  unfold recordArchitectureDebtTriage
  rw [h]
  dsimp only
  generalize s.commitOperation sha256 verifyReadBack accepted.operation = done
  obtain ⟨result, next⟩ := done
  cases result with
  | committed committed => rfl
  | decisionCommitted => rfl
  | refusal code => cases code <;> rfl

end Hepha.Debt
