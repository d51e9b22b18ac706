import Hepha.Runtime.Guards

/-!
# The evidence of a chain and the requests that extend it

`evidenceValid` is the cross-record guard of the store's own read-back: the
receipt, its attempts and its route change events must tell one story.  The
second half reads the requests that open a chain and start an attempt; a chain
is opened from a handoff plan, whose steps its approved routes repeat.
-/

namespace Hepha.Runtime

open JsValue

def RuntimeRouteChangeKind.toAttemptKind : RuntimeRouteChangeKind → RuntimeAttemptKind
  | .fallback => .fallback
  | .recovery => .recovery

def eventResultMatchesAttempt (result : RuntimeRouteChangeResult) (status : RuntimeAttemptStatus) :
    Bool :=
  match result with
  | .started => true
  | .completed => status == .completed
  | .failed => status == .failed || status == .timedOut || status == .cancelled

def eventResultMatchesTerminalAttempt (result : RuntimeRouteChangeResult)
    (status : RuntimeAttemptStatus) : Bool :=
  if status = .completed then result == .completed else result == .failed

def chainMatchesFinalAttempt (r : RuntimeInvocationReceipt) (a : RuntimeAttempt) : Bool :=
  match a.status with
  | .completed => r.status == .completed && r.failureCode.isNone
  | .timedOut => r.status == .timedOut && r.failureCode == some .timedOut
  | .cancelled => r.status == .cancelled && r.failureCode == some .cancelled
  | status => status == .failed && r.status == .failed && r.failureCode == a.failureCode

/-! ## The guard of a chain's evidence -/

/-- The attempts are those the receipt lists, in this order. -/
def attemptsListed (r : RuntimeInvocationReceipt) (attempts : List RuntimeAttempt) : Bool :=
  attempts.length == r.attemptIds.length &&
    attempts.zipIdx.all fun (a, i) => a.invocationId == r.invocationId && a.attemptIndex == i &&
      r.attemptIds[i]? == some a.attemptId

/-- The events are those the receipt lists; an event's index is always 0. -/
def eventsListed (r : RuntimeInvocationReceipt) (events : List RuntimeRouteChangeEvent) : Bool :=
  events.length == r.routeChangeEventIds.length &&
    events.zipIdx.all fun (e, i) => e.invocationId == r.invocationId && i == 0 &&
      r.routeChangeEventIds[i]? == some e.eventId

/-- The second attempt, its event and the primary attempt it takes over from. -/
def handoverCoherent (r : RuntimeInvocationReceipt) (primary second : RuntimeAttempt)
    (event : RuntimeRouteChangeEvent) : Bool :=
  r.approvedSecondRoute.any (sameRoute second.approvedRoute) &&
    second.attemptKind == event.kind.toAttemptKind && isTerminalAttempt primary &&
    primary.status != .completed && primary.failureCode == some event.reasonCode &&
    event.sourceInvocationId == r.invocationId && event.targetInvocationId == r.invocationId &&
    event.sourceAttemptId == primary.attemptId && event.targetAttemptId == second.attemptId &&
    sameRoute event.sourceApprovedRoute primary.approvedRoute &&
    sameRoute event.targetApprovedRoute second.approvedRoute &&
    primary.terminalAt.any (atOrAfter event.occurredAt) &&
    atOrAfter second.preparationStartedAt event.occurredAt &&
    !(event.kind == .fallback && primary.workState != .none) &&
    !(event.kind == .recovery && primary.workState != .checkpointed) &&
    eventResultMatchesAttempt event.result second.status

/-- A settled chain agrees with its attempts, the last of which gave its outcome. -/
def settledCoherent (r : RuntimeInvocationReceipt) (attempts : List RuntimeAttempt)
    (events : List RuntimeRouteChangeEvent) : Bool :=
  match attempts.getLast?, r.settledAt with
  | some finalAttempt, some settledAt =>
      attempts.all isTerminalAttempt && chainMatchesFinalAttempt r finalAttempt &&
        (attempts.all fun a => a.terminalAt.any (atOrAfter settledAt)) &&
        (events.all fun e => atOrAfter settledAt e.occurredAt) &&
        (attempts.length != 2 ||
          events.head?.any (eventResultMatchesTerminalAttempt ·.result finalAttempt.status))
  | _, _ => false

/-- `isRuntimeInvocationEvidenceV1`, on records of the right shapes. -/
def evidenceValid (evidence : RuntimeInvocationEvidence) : Bool :=
  let { receipt := r, attempts, routeChangeEvents := events } := evidence
  receiptValid r && attempts.all attemptValid && events.all eventValid &&
    attemptsListed r attempts && eventsListed r events &&
    (attempts.head?.any fun primary =>
      primary.attemptKind == .primary && sameRoute primary.approvedRoute r.approvedPrimaryRoute) &&
    (attempts.all fun a => atOrAfter a.preparationStartedAt r.openedAt) &&
    (match attempts, events with
      | [primary, second], event :: _ => handoverCoherent r primary second event
      | [_, _], [] => false
      | _, events => events.isEmpty) &&
    (r.status == .running || settledCoherent r attempts events)

/-! ## Handoff plans -/

/-- The action a plan is for, in the fields that the receipt repeats. -/
structure AgentRegistryEntry where
  actionId : JsString
  actionType : AgentActionType
  roleId : AgentRoleId
  promptVersion : JsString
  deriving DecidableEq

inductive HandoffPlanStepKind where
  | primary
  | recovery
  deriving DecidableEq

structure HandoffPlanStep where
  kind : HandoffPlanStepKind
  route : RouteIdentity
  deriving DecidableEq

structure HandoffPlan where
  action : AgentRegistryEntry
  route : RouteIdentity
  policySource : RoutingPolicySource
  revisionId : JsString
  steps : List HandoffPlanStep
  deriving DecidableEq

/-- `isBoundedString`. -/
def isBoundedString (max : ℕ) (value : JsValue) : Option JsString :=
  value.isString.filter fun s => 0 < s.length && s.length ≤ max && s.trim == s

/-- `isPositiveInteger`, of the routing contract. -/
def isRoutingPositiveInteger (value : JsValue) : Option ℕ :=
  value.isNatural.filter fun n => 0 < n && n ≤ 10000000

/-- `isActionId`, of the routing contract. -/
def isRoutingActionId (value : JsValue) : Option JsString :=
  (isBoundedString 128 value).filter fun s => (s.head?.any fun u => 0x61 ≤ u && u ≤ 0x7A) &&
    s.all fun u => (0x61 ≤ u && u ≤ 0x7A) || (0x30 ≤ u && u ≤ 0x39) || u == 0x2D

def isRouteIdentity (value : JsValue) : Option RouteIdentity := do
  guard (value.exactKeys ["connectionId", "modelId"])
  let connectionId ← isBoundedString 512 (value.get (js "connectionId"))
  let modelId ← isBoundedString 512 (value.get (js "modelId"))
  return { connectionId, modelId }

def isAgentCapabilityRequirements (value : JsValue) : Option Unit := do
  guard (value.exactKeys
    ["minimumContextWindowTokens", "requiresTools", "requiresApi", "requiresReasoning"])
  let _ ← isRoutingPositiveInteger (value.get (js "minimumContextWindowTokens"))
  let _ ← (value.get (js "requiresTools")).isBoolean
  let _ ← (value.get (js "requiresApi")).isBoolean
  let _ ← (value.get (js "requiresReasoning")).isBoolean
  return ()

def isAgentRegistryEntry (value : JsValue) : Option AgentRegistryEntry := do
  guard (value.exactKeys ["schemaVersion", "actionId", "actionType", "actionTypeLabel",
    "actionTypeDisplayOrder", "label", "displayOrder", "roleId", "promptVersion",
    "capabilityRequirements"])
  guard (hasSchemaVersion "agent-routing/v1" value)
  let actionId ← isRoutingActionId (value.get (js "actionId"))
  let actionType ← (value.get (js "actionType")).isOneOf actionTypes
  let _ ← isBoundedString 256 (value.get (js "actionTypeLabel"))
  let _ ← isRoutingPositiveInteger (value.get (js "actionTypeDisplayOrder"))
  let _ ← isBoundedString 256 (value.get (js "label"))
  let _ ← isRoutingPositiveInteger (value.get (js "displayOrder"))
  let roleId ← (value.get (js "roleId")).isOneOf roleIds
  let promptVersion ← isBoundedString 256 (value.get (js "promptVersion"))
  isAgentCapabilityRequirements (value.get (js "capabilityRequirements"))
  return { actionId, actionType, roleId, promptVersion }

def isHandoffPlanStep (value : JsValue) : Option HandoffPlanStep := do
  guard (value.exactKeys ["kind", "route"])
  let kind ← (value.get (js "kind")).isOneOf
    [("primary", HandoffPlanStepKind.primary), ("recovery", .recovery)]
  let route ← isRouteIdentity (value.get (js "route"))
  return { kind, route }

/-- One primary step on the resolved route, and at most one recovery step on
another route, which the global policy does not allow. -/
def planStepsValid (route : RouteIdentity) (policySource : RoutingPolicySource) :
    List HandoffPlanStep → Bool
  | [primary] => primary.kind == .primary && sameRoute primary.route route
  | [primary, second] =>
      primary.kind == .primary && sameRoute primary.route route && second.kind == .recovery &&
        !sameRoute second.route primary.route && policySource != .global
  | _ => false

/-- `isHandoffPlanV1`. -/
def isHandoffPlan (value : JsValue) : Option HandoffPlan := do
  guard (value.exactKeys ["schemaVersion", "resolvedRoute", "steps"])
  guard (hasSchemaVersion "agent-routing/v1" value)
  let resolved := value.get (js "resolvedRoute")
  guard (resolved.exactKeys ["schemaVersion", "action", "route", "policySource", "revisionId"])
  guard (hasSchemaVersion "agent-routing/v1" resolved)
  let action ← isAgentRegistryEntry (resolved.get (js "action"))
  let route ← isRouteIdentity (resolved.get (js "route"))
  let policySource ← (resolved.get (js "policySource")).isOneOf policySources
  let revisionId ← isBoundedString 256 (resolved.get (js "revisionId"))
  let steps ← (value.get (js "steps")).isArrayOf isHandoffPlanStep
  guard (planStepsValid route policySource steps)
  return { action, route, policySource, revisionId, steps }

/-! ## Requests -/

def receiptMatchesPlan (r : RuntimeInvocationReceipt) (plan : HandoffPlan) : Bool :=
  r.actionId == plan.action.actionId && r.actionType == plan.action.actionType &&
    r.roleId == plan.action.roleId && r.promptVersion == plan.action.promptVersion &&
    r.policySource == plan.policySource && r.revisionId == plan.revisionId &&
    match plan.steps with
    | [primary] =>
        sameRoute r.approvedPrimaryRoute primary.route && r.approvedSecondRoute.isNone
    | primary :: second :: _ =>
        sameRoute r.approvedPrimaryRoute primary.route &&
          r.approvedSecondRoute.any (sameRoute · second.route)
    | [] => false

/-- An accepted request to open a chain: its plan as it was given, and its receipt. -/
structure RuntimeInvocationOpen where
  plan : JsValue
  receipt : RuntimeInvocationReceipt

def isRuntimeInvocationOpen (value : JsValue) : Option RuntimeInvocationOpen := do
  guard (value.exactKeys ["schemaVersion", "plan", "receipt"])
  guard (hasSchemaVersion "runtime-execution/v1" value)
  let plan ← isHandoffPlan (value.get (js "plan"))
  let receipt ← isRuntimeInvocationReceipt (value.get (js "receipt"))
  guard (receiptMatchesPlan receipt plan && receipt.status == .running &&
    receipt.attemptIds.length == 1 && receipt.routeChangeEventIds.length == 0)
  return { plan := value.get (js "plan"), receipt }

/-- An accepted request to start an attempt.  The second attempt of a chain
comes with the event of its route change. -/
structure RuntimeAttemptStart where
  attempt : RuntimeAttempt
  routeChangeEvent : Option RuntimeRouteChangeEvent
  deriving DecidableEq

def attemptStartValid (start : RuntimeAttemptStart) : Bool :=
  let a := start.attempt
  a.status == .preparing &&
    if a.attemptIndex = 0 then start.routeChangeEvent.isNone
    else start.routeChangeEvent.any fun e => e.result == .started &&
      e.kind.toAttemptKind == a.attemptKind && e.invocationId == a.invocationId &&
      e.sourceInvocationId == a.invocationId && e.targetInvocationId == a.invocationId &&
      e.targetAttemptId == a.attemptId

def isRuntimeAttemptStart (value : JsValue) : Option RuntimeAttemptStart := do
  guard (value.exactKeys ["schemaVersion", "attempt", "routeChangeEvent"])
  guard (hasSchemaVersion "runtime-execution/v1" value)
  let attempt ← isRuntimeAttempt (value.get (js "attempt"))
  let routeChangeEvent ←
    isNullable isRuntimeRouteChangeEvent (value.get (js "routeChangeEvent"))
  let start := { attempt, routeChangeEvent : RuntimeAttemptStart }
  guard (attemptStartValid start)
  return start

/-- The filter of a feature's history. -/
structure RuntimeFeatureInvocationFilter where
  projectId : JsString
  cardKey : Option JsString
  limit : ℕ
  deriving DecidableEq

def isRuntimeFeatureInvocationFilter (value : JsValue) :
    Option RuntimeFeatureInvocationFilter := do
  guard (value.exactKeys ["schemaVersion", "projectId", "cardKey", "limit"])
  guard (hasSchemaVersion "runtime-execution/v1" value)
  let projectId ← (value.get (js "projectId")).isString.filter (isText 512)
  let cardKey ← isNullable (fun v => v.isString.filter (isText 512)) (value.get (js "cardKey"))
  let limit ← (value.get (js "limit")).isSafeNatural.filter (0 < ·)
  guard (limit ≤ 256)
  return { projectId, cardKey, limit }

end Hepha.Runtime
