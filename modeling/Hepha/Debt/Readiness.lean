import Hepha.Debt.Presentation
import Hepha.Debt.Touch

/-!
# Readiness of a feature

A feature is ready when every open record that its touch plan touches has been
decided about.  `evaluateFeatureDebtReadiness` loads the plan, asks the store
for the open records and for the decisions, asks the policy, and builds the
context from the safe projection of the records.
-/

namespace Hepha.Debt

open Presentation (Projection projectArchitectureDebtRegister projectionRecord)

/-! ## The touch plan of a feature -/

/-- What `ArchitectureDebtTouchPlan.json` holds. -/
inductive PlanFile
  | missing
  /-- No JSON, or not the members of a plan. -/
  | malformed
  | plan (plan : TouchPlan)

/-- `LoadedArchitectureDebtTouchPlan`. -/
inductive LoadedPlan
  | missing
  | refusal
  | valid (plan : TouchPlan) (touchPlanHash : JsString)

/-- `loadArchitectureDebtTouchPlan`. -/
def loadArchitectureDebtTouchPlan (sha256 : JsString → HexDigest) : PlanFile → LoadedPlan
  | .missing => .missing
  | .malformed => .refusal
  | .plan plan => if plan.valid then .valid plan (plan.digest sha256) else .refusal

/-! ## The context -/

inductive DecisionKind
  | remediate
  | prerequisite
  | waiver
  | nonInteraction
deriving DecidableEq

def DecisionDetail.kind : DecisionDetail → DecisionKind
  | remediate _ _ => .remediate
  | prerequisite _ _ _ => .prerequisite
  | waiver _ _ => .waiver
  | nonInteraction _ _ => .nonInteraction

/-- `ArchitectureDebtContextEntry`. -/
structure ContextEntry where
  recordId : JsString
  recordVersion : ℕ
  ownerId : JsString
  priority : DebtPriority
  ruleId : JsString
  architecturalBoundary : JsString
  rationale : JsString
  futureTouchTriggerName : JsString
  selectorIds : List JsString
  decisionKind : DecisionKind
deriving DecidableEq

/-- `ArchitectureDebtContext`. -/
structure DebtContext where
  featureId : JsString
  touchPlanHash : JsString
  matchedDebt : List ContextEntry
deriving DecidableEq

/-- `validProjection`. -/
def validProjection (p : Projection) : Bool :=
  isRecordId p.recordId && identifier p.ownerId && identifier p.architecturalBoundary &&
    text p.rationale && text p.risk && identifier p.ruleId && identifier p.ruleVersion &&
    identifier p.ruleCategory && path p.ruleSourceReference &&
    identifier p.futureTouchTrigger.triggerId && text p.futureTouchTrigger.name

/-- The entry of a match, from the projection of its record. -/
def contextEntry (projections : List Projection) (found : FutureTouchMatch) :
    Option ContextEntry :=
  match JsMap.get (projections.map fun p => (p.recordId, p)) found.recordId with
  | none => none
  | some item =>
      if item.eventVersion = found.recordVersion then
        some
          { recordId := item.recordId
            recordVersion := item.eventVersion
            ownerId := item.ownerId
            priority := item.priority
            ruleId := item.ruleId
            architecturalBoundary := item.architecturalBoundary
            rationale := item.rationale
            futureTouchTriggerName := item.futureTouchTrigger.name
            selectorIds := found.selectorIds
            decisionKind := found.decision.detail.kind }
      else none

/-- `buildArchitectureDebtContext`. -/
def buildArchitectureDebtContext (projection : Option (List Projection))
    (featureId touchPlanHash : JsString) (found : List FutureTouchMatch) : Option DebtContext :=
  match projection with
  | none => none
  | some projections =>
      if identifier featureId && hash touchPlanHash && projections.all validProjection &&
          found.all fun entry => entry.decision.validCommon then
        (found.mapM (contextEntry projections)).map fun entries =>
          ⟨featureId, touchPlanHash,
            entries.insertionSort fun l r => l.recordId ≤ r.recordId⟩
      else none

/-! ## Readiness -/

inductive LifecycleState
  | submitted
  | ready
  | inProgress
  | completed
  | cancelled
deriving DecidableEq

/-- What `evaluateFeatureDebtReadiness` is given; `taskIds` are the tasks that
`refinedTaskIds` finds in the folder of the feature. -/
structure ReadinessInput where
  planFile : PlanFile
  taskIds : List JsString
  projectId : JsString
  featureId : JsString
  authority : Option JsString
  prerequisiteStates : List (JsString × LifecycleState)
  clockNow : JsString

/-- What the input is checked for. -/
def ReadinessInput.valid (input : ReadinessInput) : Bool :=
  identifier input.projectId && identifier input.featureId && input.authority.all identifier &&
    input.prerequisiteStates.length ≤ 4096 &&
    (input.prerequisiteStates.all fun entry => identifier entry.1) &&
    hasUniqueValues (input.prerequisiteStates.map Prod.fst) && utc input.clockNow

/-- `ArchitectureDebtReadinessResult`. -/
inductive Readiness
  | ready (context : DebtContext)
  | blocked (code : IntegrationRefusalCode) (message : JsString)
deriving DecidableEq

def invalidInputMessage : JsString := js "Architecture-debt readiness input is invalid."

def planMissingMessage : JsString :=
  js "ArchitectureDebtTouchPlan.json is required before readiness."

def planInvalidMessage : JsString :=
  js "ArchitectureDebtTouchPlan.json is not a valid V1 structured touch plan."

def planForeignMessage : JsString :=
  js "ArchitectureDebtTouchPlan.json identity does not match the refined feature."

def storeUnavailableMessage : JsString := js "Architecture-debt storage is unavailable."

def stewardRequiredMessage : JsString :=
  js ("A configured architecture steward is required when the touch plan matches open " ++
    "architecture debt.")

def decisionsMissingMessage : JsString :=
  js "Architecture-debt decisions are missing, stale, foreign, or incomplete."

def contextMessage : JsString :=
  js "Architecture-debt context could not be safely projected."

/-- What is wrong with the decision of a match, if anything is. -/
def decisionProblem (input : ReadinessInput) (found : FutureTouchMatch) : Option JsString :=
  match found.decision.detail with
  | .remediate owningPhaseTask _ =>
      if input.taskIds.contains owningPhaseTask then none
      else some (js "A REMEDIATE decision does not bind a current refined phase task.")
  | .prerequisite prerequisiteFeatureId _ _ =>
      if JsMap.get input.prerequisiteStates prerequisiteFeatureId = some .completed then none
      else some (js "A PREREQUISITE decision is not complete.")
  | .waiver (some waiverExpiry) _ =>
      match Date.parseUtc waiverExpiry, Date.parseUtc input.clockNow with
      | some expiry, some now =>
          if expiry ≤ now then some (js "A future-touch waiver has expired.") else none
      | _, _ => some (js "A future-touch waiver has expired.")
  | .waiver none _ => none
  | .nonInteraction _ _ => none

/-- What follows once the decisions have been read. -/
def readinessOfDecisions (collate : JsString → JsString → Bool) (input : ReadinessInput)
    (plan : TouchPlan) (touchPlanHash : JsString) (aggregates : List Aggregate)
    (decisions : List FutureTouchDecision) (actorId : JsString) : Readiness :=
  match evaluateFutureTouch collate plan touchPlanHash aggregates decisions actorId with
  | .error _ => .blocked .readinessBlocked decisionsMissingMessage
  | .ok found =>
      match found.findSome? (decisionProblem input) with
      | some message => .blocked .readinessBlocked message
      | none =>
          match buildArchitectureDebtContext (projectArchitectureDebtRegister aggregates)
              input.featureId touchPlanHash found with
          | some context => .ready context
          | none => .blocked .readinessBlocked contextMessage

/-- `evaluateFeatureDebtReadiness`. -/
def evaluateFeatureDebtReadiness (sha256 : JsString → HexDigest)
    (collate : JsString → JsString → Bool) (store : Store) (input : ReadinessInput) : Readiness :=
  if input.valid = false then .blocked .invalidInput invalidInputMessage
  else
    match loadArchitectureDebtTouchPlan sha256 input.planFile with
    | .missing => .blocked .touchPlanMissing planMissingMessage
    | .refusal => .blocked .touchPlanInvalid planInvalidMessage
    | .valid plan touchPlanHash =>
        if plan.projectId ≠ input.projectId ∨ plan.featureId ≠ input.featureId then
          .blocked .touchPlanInvalid planForeignMessage
        else
          match store.queryOpenArchitectureDebt sha256 input.projectId
              (plan.paths.insertionSort (· ≤ ·))
              ((plan.symbols.map Prod.snd).insertionSort (· ≤ ·))
              (plan.ruleTags.insertionSort (· ≤ ·)) with
          | none => .blocked .storeUnavailable storeUnavailableMessage
          | some [] => .ready ⟨input.featureId, touchPlanHash, []⟩
          | some aggregates =>
              match input.authority with
              | none => .blocked .readinessBlocked stewardRequiredMessage
              | some actorId =>
                  match store.getFutureTouchDecisions input.projectId input.featureId
                      touchPlanHash with
                  | none => .blocked .storeUnavailable storeUnavailableMessage
                  | some decisions =>
                      readinessOfDecisions collate input plan touchPlanHash aggregates decisions
                        actorId

end Hepha.Debt
