import Hepha.Lib.Table
import Hepha.Runtime.Evidence
import Mathlib.Data.List.Sort

/-!
# The runtime invocation store

The store's database has three tables: chains, attempts and route change
events.  A row is the record it was written from, as stored; the columns
`mode` and `schema_version` are constants and are left out.  A write returns
`none` when it violates a constraint of its table, and a read when the row it
finds does not pass its guard; both throw in the source.  Every operation
catches what is thrown and answers with a conflict, or for a query with
corruption, and then the database is as it was before.

`planHash` is the SHA-256 digest of the canonical JSON of a plan.
-/

namespace Hepha.Runtime

structure Database where
  chains : List RuntimeInvocationReceipt
  attempts : List RuntimeAttempt
  events : List RuntimeRouteChangeEvent

namespace Database

/-- The database of a newly installed schema. -/
def empty : Database := ⟨[], [], []⟩

/-! ## Constraints and writes -/

def hasChain (db : Database) (id : JsString) : Bool :=
  db.chains.any fun c => c.invocationId = id

def hasAttempt (db : Database) (id : JsString) : Bool :=
  db.attempts.any fun a => a.attemptId = id

/-- `insert into hepha_runtime_invocation_chains`. -/
def insertChain (db : Database) (receipt : RuntimeInvocationReceipt) : Option Database := do
  let row := receipt.stored
  guard (!db.hasChain row.invocationId)
  guard (row.rootInvocationId == row.invocationId || db.hasChain row.rootInvocationId)
  guard (row.parentInvocationId.all fun parent =>
    parent == row.invocationId || db.hasChain parent)
  guard (kindCoherent row)
  guard (row.phaseExecutionContractId.isNone == row.phaseNumber.isNone)
  return { db with chains := db.chains ++ [row] }

/-- `insert into hepha_runtime_attempts`. -/
def insertAttempt (db : Database) (attempt : RuntimeAttempt) : Option Database := do
  let row := attempt.stored
  guard (!db.hasAttempt row.attemptId)
  guard (db.hasChain row.invocationId && row.attemptIndex ≤ 1)
  guard (!db.attempts.any fun a =>
    a.invocationId = row.invocationId ∧ a.attemptIndex = row.attemptIndex)
  guard (row.checkpointId.isNone == row.checkpointCursor.isNone)
  return { db with attempts := db.attempts ++ [row] }

/-- `insert into hepha_runtime_route_change_events`. -/
def insertEvent (db : Database) (event : RuntimeRouteChangeEvent) : Option Database := do
  let row := event.stored
  guard (!db.events.any fun e => e.eventId = row.eventId ∨ e.invocationId = row.invocationId)
  guard (db.hasChain row.invocationId && db.hasChain row.sourceInvocationId &&
    db.hasChain row.targetInvocationId)
  guard (db.hasAttempt row.sourceAttemptId && db.hasAttempt row.targetAttemptId)
  return { db with events := db.events ++ [row] }

/-- `update hepha_runtime_attempts`, of all columns but the key. -/
def updateAttemptRow (db : Database) (attempt : RuntimeAttempt) : Option Database := do
  let row := attempt.stored
  guard (db.hasChain row.invocationId && row.attemptIndex ≤ 1)
  guard (!db.attempts.any fun a => a.attemptId ≠ row.attemptId ∧
    a.invocationId = row.invocationId ∧ a.attemptIndex = row.attemptIndex)
  guard (row.checkpointId.isNone == row.checkpointCursor.isNone)
  return { db with
    attempts := Table.update RuntimeAttempt.attemptId db.attempts row.attemptId fun _ => row }

/-- `update … set result=? where event_id=?`. -/
def updateEventResult (db : Database) (eventId : JsString) (result : RuntimeRouteChangeResult) :
    Database :=
  { db with
    events := Table.update RuntimeRouteChangeEvent.eventId db.events eventId.toWellFormed
      fun e => { e with result } }

/-- `update … set attempt_ids_json=?,route_change_event_ids_json=? where invocation_id=?`. -/
def updateChainIds (db : Database) (invocationId : JsString)
    (attemptIds routeChangeEventIds : List JsString) : Database :=
  { db with
    chains := Table.update RuntimeInvocationReceipt.invocationId db.chains
      invocationId.toWellFormed fun c => { c with attemptIds, routeChangeEventIds } }

/-- `update … set status=?,settled_at=?,duration_ms=?,failure_code=? where invocation_id=?`. -/
def updateChainSettlement (db : Database) (receipt : RuntimeInvocationReceipt) : Database :=
  { db with
    chains := Table.update RuntimeInvocationReceipt.invocationId db.chains
      receipt.invocationId.toWellFormed fun c =>
        { c with
          status := receipt.status
          settledAt := receipt.settledAt
          durationMs := receipt.durationMs
          failureCode := receipt.failureCode } }

/-! ## Reads -/

/-- `where invocation_id=? order by attempt_index,attempt_id`. -/
def attemptRows (db : Database) (invocationId : JsString) : List RuntimeAttempt :=
  (db.attempts.filter fun a => a.invocationId = invocationId.toWellFormed).insertionSort
    fun a b => a.attemptIndex < b.attemptIndex ∨
      a.attemptIndex = b.attemptIndex ∧ JsString.textLe a.attemptId b.attemptId

/-- `where invocation_id=? order by event_index,event_id`; the index is always 0. -/
def eventRows (db : Database) (invocationId : JsString) : List RuntimeRouteChangeEvent :=
  (db.events.filter fun e => e.invocationId = invocationId.toWellFormed).insertionSort
    fun a b => JsString.textLe a.eventId b.eventId

def readAttempt (db : Database) (id : JsString) : Option (Option RuntimeAttempt) :=
  match Table.find RuntimeAttempt.attemptId db.attempts id.toWellFormed with
  | none => some none
  | some row => if attemptValid row then some (some row) else none

def readEvent (db : Database) (id : JsString) : Option (Option RuntimeRouteChangeEvent) :=
  match Table.find RuntimeRouteChangeEvent.eventId db.events id.toWellFormed with
  | none => some none
  | some row => if eventValid row then some (some row) else none

def readAttempts (db : Database) (id : JsString) : Option (List RuntimeAttempt) :=
  if (db.attemptRows id).all attemptValid then some (db.attemptRows id) else none

def readEvents (db : Database) (id : JsString) : Option (List RuntimeRouteChangeEvent) :=
  if (db.eventRows id).all eventValid then some (db.eventRows id) else none

/-- A chain's receipt.  The ids it lists must be those of its rows; with
`allowPendingPrimary` the one attempt it lists may have no row yet. -/
def readReceipt (db : Database) (id : JsString) (allowPendingPrimary : Bool) :
    Option (Option RuntimeInvocationReceipt) :=
  match Table.find RuntimeInvocationReceipt.invocationId db.chains id.toWellFormed with
  | none => some none
  | some row =>
      let queriedAttemptIds := (db.attemptRows id).map (·.attemptId)
      let queriedEventIds := (db.eventRows id).map (·.eventId)
      let pendingPrimary :=
        allowPendingPrimary && row.attemptIds.length == 1 && queriedAttemptIds.length == 0
      if (!pendingPrimary && row.attemptIds != queriedAttemptIds) ||
          row.routeChangeEventIds != queriedEventIds then none
      else if receiptValid row then some (some row) else none

def readEvidence (db : Database) (id : JsString) : Option (Option RuntimeInvocationEvidence) := do
  match ← db.readReceipt id false with
  | none => return none
  | some receipt =>
      let attempts ← db.readAttempts id
      let routeChangeEvents ← db.readEvents id
      let evidence := { receipt, attempts, routeChangeEvents }
      guard (evidenceValid evidence)
      return some evidence

/-- `validateInstalledEvidence`: every chain can be read. -/
def validateInstalledEvidence (db : Database) : Bool :=
  db.chains.all fun c => (db.readEvidence c.invocationId).isSome

end Database

/-! ## Operations -/

open Database

/-- An operation's answer, with the database after it. -/
abbrev Outcome (α : Type) := Database × RuntimePersistenceResult α

/-- `try … catch { return conflict }`: what is thrown leaves the database as it was. -/
def catchConflict {α : Type} (db : Database) (body : Option (Outcome α)) : Outcome α :=
  body.getD (db, .error .conflict)

section Operations

variable (planHash : JsValue → JsString) (db : Database)

/-- The checks on the parent of a nested invocation. -/
def parentAccepts (receipt : RuntimeInvocationReceipt) : Option Bool :=
  match receipt.invocationKind, receipt.parentInvocationId with
  | .root, _ => some true
  | .nested, none => some false
  | .nested, some parentId => do
      match ← db.readEvidence parentId with
      | none => return false
      | some parent =>
          return parent.receipt.rootInvocationId == receipt.rootInvocationId &&
            parent.receipt.correlationId == receipt.correlationId &&
            parent.receipt.projectId == receipt.projectId

def openInvocation (raw : JsValue) : Outcome RuntimeInvocationReceipt :=
  match isRuntimeInvocationOpen raw with
  | none => (db, .error .invalidReceipt)
  | some input =>
      if planHash input.plan ≠ input.receipt.planHash then (db, .error .invalidReceipt)
      else catchConflict db do
        match ← db.readReceipt input.receipt.invocationId true with
        | some current =>
            if current = input.receipt then return (db, .ok current)
            else return (db, .error .conflict)
        | none =>
            if ← parentAccepts db input.receipt then
              return (← db.insertChain input.receipt, .ok input.receipt)
            else return (db, .error .invalidReceipt)

/-- The event of a repeated start is the one that is stored. -/
def eventReplayMatches (input : RuntimeAttemptStart) : Option Bool :=
  if input.attempt.attemptIndex = 0 then some true
  else match input.routeChangeEvent with
    | none => some false
    | some event => (db.readEvent event.eventId).map (· == some event)

/-- A repeated start of an attempt answers with the row if nothing differs. -/
def replayAttemptStart (input : RuntimeAttemptStart) (existing : RuntimeAttempt) :
    Option (Outcome RuntimeAttempt) := do
  let eventMatches ← eventReplayMatches db input
  if existing = input.attempt ∧ eventMatches then return (db, .ok existing)
  else return (db, .error .conflict)

def validSameChainAttemptStart (receipt : RuntimeInvocationReceipt)
    (primary target : RuntimeAttempt) (event : RuntimeRouteChangeEvent) : Bool :=
  receipt.status == .running && receipt.approvedSecondRoute.isSome &&
    receipt.attemptIds.length == 1 && receipt.routeChangeEventIds.length == 0 &&
    isTerminalAttempt primary && primary.status != .completed && primary.failureCode.isSome &&
    primary.invocationId == receipt.invocationId && event.result == .started &&
    event.invocationId == receipt.invocationId &&
    event.sourceInvocationId == receipt.invocationId &&
    event.targetInvocationId == receipt.invocationId &&
    event.sourceAttemptId == primary.attemptId && event.targetAttemptId == target.attemptId &&
    event.kind.toAttemptKind == target.attemptKind &&
    some event.reasonCode == primary.failureCode &&
    primary.terminalAt.any (atOrAfter event.occurredAt) &&
    atOrAfter target.preparationStartedAt event.occurredAt &&
    (if event.kind = .fallback then primary.workState == .none
      else event.kind == .recovery && primary.workState == .checkpointed) &&
    receipt.approvedSecondRoute.any (sameRoute target.approvedRoute) &&
    sameRoute event.sourceApprovedRoute primary.approvedRoute &&
    sameRoute event.targetApprovedRoute target.approvedRoute

/-- The first attempt of a chain. -/
def startPrimary (receipt : RuntimeInvocationReceipt) (attempt : RuntimeAttempt) :
    Option (Outcome RuntimeAttempt) := do
  if receipt.attemptIds.head? ≠ some attempt.attemptId ∨
      sameRoute attempt.approvedRoute receipt.approvedPrimaryRoute = false then
    return (db, .error .invalidReceipt)
  else return (← db.insertAttempt attempt, .ok attempt)

/-- The second attempt of a chain, its event and the longer lists of ids, in
one transaction. -/
def startSecond (receipt : RuntimeInvocationReceipt) (attempt : RuntimeAttempt)
    (event : RuntimeRouteChangeEvent) : Option (Outcome RuntimeAttempt) := do
  let primaryId ← receipt.attemptIds.head?
  match ← db.readAttempt primaryId with
  | none => return (db, .error .invalidReceipt)
  | some primary =>
      if validSameChainAttemptStart receipt primary attempt event then
        let withAttempt ← db.insertAttempt attempt
        let withEvent ← withAttempt.insertEvent event
        return (withEvent.updateChainIds receipt.invocationId
          (receipt.attemptIds ++ [attempt.attemptId]) [event.eventId], .ok attempt)
      else return (db, .error .invalidReceipt)

/-- The start of an attempt that has no row yet. -/
def startNewAttempt (receipt : RuntimeInvocationReceipt) (input : RuntimeAttemptStart) :
    Option (Outcome RuntimeAttempt) :=
  if input.attempt.attemptIndex = 0 then startPrimary db receipt input.attempt
  else input.routeChangeEvent.bind fun event => startSecond db receipt input.attempt event

def startAttempt (raw : JsValue) : Outcome RuntimeAttempt :=
  match isRuntimeAttemptStart raw with
  | none => (db, .error .invalidReceipt)
  | some input => catchConflict db do
      match ← db.readReceipt input.attempt.invocationId true with
      | none => return (db, .error .invalidReceipt)
      | some receipt =>
          if atOrAfter input.attempt.preparationStartedAt receipt.openedAt = false then
            return (db, .error .invalidReceipt)
          else match ← db.readAttempt input.attempt.attemptId with
            | some existing => replayAttemptStart db input existing
            | none => startNewAttempt db receipt input

/-- The three updates of an attempt share their replay path: an attempt equal
to the row answers if the row is a valid result of the update. -/
def updateAttempt (raw : JsValue) (validPostState : RuntimeAttempt → Bool)
    (transition : RuntimeAttempt → RuntimeAttempt → Bool) : Outcome RuntimeAttempt :=
  match isRuntimeAttempt raw with
  | none => (db, .error .invalidReceipt)
  | some attempt => catchConflict db do
      match ← db.readAttempt attempt.attemptId with
      | none => return (db, .error .invalidReceipt)
      | some current =>
          if current = attempt then
            if validPostState current then return (db, .ok current)
            else return (db, .error .conflict)
          else if transition current attempt then
            return (← db.updateAttemptRow attempt, .ok attempt)
          else return (db, .error .conflict)

def isSpawnedPostState (a : RuntimeAttempt) : Bool :=
  a.status == .running && a.actualRoute.isSome && a.workState == .none

def isWorkStartedPostState (a : RuntimeAttempt) : Bool :=
  a.status == .running && a.workState == .started

def isCheckpointedPostState (a : RuntimeAttempt) : Bool :=
  a.status == .running && a.workState == .checkpointed

def sameAttemptIdentity (left right : RuntimeAttempt) : Bool :=
  left.attemptId == right.attemptId && left.invocationId == right.invocationId &&
    left.attemptIndex == right.attemptIndex && left.attemptKind == right.attemptKind &&
    sameRoute left.approvedRoute right.approvedRoute &&
    left.preparationStartedAt == right.preparationStartedAt

/-- Nothing differs but the work state and the checkpoint. -/
def sameAttemptExceptWork (left right : RuntimeAttempt) : Bool :=
  { left with
    workState := right.workState
    checkpointId := right.checkpointId
    checkpointCursor := right.checkpointCursor } == right

def stablePreparedAuth (left right : RuntimeAttempt) : Bool :=
  left.providerId == right.providerId &&
    left.authenticationConnectionId == right.authenticationConnectionId &&
    left.authenticationKind == right.authenticationKind &&
    left.credentialVersion == right.credentialVersion

def stableRouteAndAuth (left right : RuntimeAttempt) : Bool :=
  left.actualRoute == right.actualRoute && stablePreparedAuth left right

def sameProcessFacts (left right : RuntimeAttempt) : Bool :=
  left.startedAt == right.startedAt && left.spawnedAt == right.spawnedAt

def sameWorkFacts (left right : RuntimeAttempt) : Bool :=
  left.workState == right.workState && left.checkpointId == right.checkpointId &&
    left.checkpointCursor == right.checkpointCursor

def spawnTransition (before after : RuntimeAttempt) : Bool :=
  before.status == .preparing && isSpawnedPostState after && after.actualRoute.isSome &&
    sameAttemptIdentity before after && stablePreparedAuth before after

def workTransition (before after : RuntimeAttempt) : Bool :=
  before.status == .running && before.workState == .none && isWorkStartedPostState after &&
    sameAttemptExceptWork before after

def checkpointTransition (before after : RuntimeAttempt) : Bool :=
  before.status == .running && before.workState == .started && isCheckpointedPostState after &&
    sameAttemptExceptWork before after

def settleTransition (before after : RuntimeAttempt) : Bool :=
  isTerminalAttempt after && (before.status == .preparing || before.status == .running) &&
    sameAttemptIdentity before after && stableRouteAndAuth before after &&
    sameProcessFacts before after && sameWorkFacts before after

def markAttemptSpawned (raw : JsValue) : Outcome RuntimeAttempt :=
  updateAttempt db raw isSpawnedPostState spawnTransition

def markSubstantiveWorkStarted (raw : JsValue) : Outcome RuntimeAttempt :=
  updateAttempt db raw isWorkStartedPostState workTransition

def recordCheckpoint (raw : JsValue) : Outcome RuntimeAttempt :=
  updateAttempt db raw isCheckpointedPostState checkpointTransition

def settleAttempt (raw : JsValue) : Outcome RuntimeAttempt :=
  updateAttempt db raw isTerminalAttempt settleTransition

/-- An event's result may be set once, to the outcome of its target. -/
def resultMatchesTarget (result : RuntimeRouteChangeResult) (target : Option RuntimeAttempt) :
    Bool :=
  if result = .completed then target.any (·.status == .completed)
  else target.any fun a => a.status == .failed || a.status == .timedOut || a.status == .cancelled

def appendRouteChange (raw : JsValue) : Outcome RuntimeRouteChangeEvent :=
  match isRuntimeRouteChangeEvent raw with
  | none => (db, .error .invalidReceipt)
  | some event => catchConflict db do
      match ← db.readEvent event.eventId with
      | none => return (db, .error .invalidReceipt)
      | some existing =>
          if existing = event then
            if (← db.readEvidence event.invocationId).isSome then return (db, .ok existing)
            else return (db, .error .corrupt)
          else if existing.result = .started ∧ event.result ≠ .started ∧
              { existing with result := event.result } = event then
            if resultMatchesTarget event.result (← db.readAttempt event.targetAttemptId) then
              return (db.updateEventResult event.eventId event.result, .ok event)
            else return (db, .error .invalidReceipt)
          else return (db, .error .conflict)

/-- Nothing differs but the lists of ids and the settlement. -/
def sameOpenFacts (left right : RuntimeInvocationReceipt) : Bool :=
  { left with
    attemptIds := right.attemptIds
    routeChangeEventIds := right.routeChangeEventIds
    status := right.status
    settledAt := right.settledAt
    durationMs := right.durationMs
    failureCode := right.failureCode } == right

def eventMatchesFinalAttempt (event : Option RuntimeRouteChangeEvent) (a : RuntimeAttempt) : Bool :=
  event.any fun e => eventResultMatchesTerminalAttempt e.result a.status

/-- What `settleInvocation` asks of the chain's attempts and events. -/
def settlementMatches (receipt : RuntimeInvocationReceipt) (attempts : List RuntimeAttempt)
    (events : List RuntimeRouteChangeEvent) : Bool :=
  attempts.length == receipt.attemptIds.length && attempts.all isTerminalAttempt &&
    match attempts.getLast?, receipt.settledAt with
    | some finalAttempt, some settledAt =>
        chainMatchesFinalAttempt receipt finalAttempt &&
          (attempts.all fun a => a.terminalAt.any (atOrAfter settledAt)) &&
          (events.all fun e => atOrAfter settledAt e.occurredAt) &&
          (attempts.length != 2 ||
            (events.length == 1 && eventMatchesFinalAttempt events.head? finalAttempt))
    | _, _ => false

def settleInvocation (raw : JsValue) : Outcome RuntimeInvocationReceipt :=
  match (isRuntimeInvocationReceipt raw).filter (·.status != .running) with
  | none => (db, .error .invalidReceipt)
  | some receipt => catchConflict db do
      match ← db.readReceipt receipt.invocationId false with
      | none => return (db, .error .invalidReceipt)
      | some current =>
          if current = receipt then
            if (← db.readEvidence receipt.invocationId).isSome then return (db, .ok current)
            else return (db, .error .corrupt)
          else if current.status = .running ∧ sameOpenFacts current receipt ∧
              current.attemptIds = receipt.attemptIds ∧
              current.routeChangeEventIds = receipt.routeChangeEventIds then
            let attempts ← db.readAttempts receipt.invocationId
            let events ← db.readEvents receipt.invocationId
            if settlementMatches receipt attempts events then
              return (db.updateChainSettlement receipt, .ok receipt)
            else return (db, .error .invalidReceipt)
          else return (db, .error .conflict)

/-! ## Queries -/

def getInvocation (invocationId : JsValue) :
    RuntimePersistenceResult (Option RuntimeInvocationEvidence) :=
  match invocationId.isString.filter (fun s => 0 < s.length && s.length ≤ 512) with
  | none => .error .invalidReceipt
  | some id =>
      match db.readEvidence id with
      | none => .error .corrupt
      | some evidence => .ok evidence

def runtimeHistoryLimitExceeded (value : JsValue) : Bool :=
  match value.get (js "limit") with
  | .num limit => limit.exceeds 256
  | _ => false

/-- `where project_id=? and card_key=? order by opened_at,invocation_id`. -/
def featureRows (filter : RuntimeFeatureInvocationFilter) : List RuntimeInvocationReceipt :=
  (db.chains.filter fun c => c.projectId = filter.projectId.toWellFormed ∧
      c.cardKey = filter.cardKey.map (·.toWellFormed)).insertionSort
    fun a b => let opened := fun c : RuntimeInvocationReceipt => Date.toISOString c.openedAt
      (opened a ≠ opened b ∧ JsString.textLe (opened a) (opened b)) ∨
        opened a = opened b ∧ JsString.textLe a.invocationId b.invocationId

def listFeatureInvocations (raw : JsValue) :
    RuntimePersistenceResult (List RuntimeInvocationEvidence) :=
  if runtimeHistoryLimitExceeded raw then .error .historyLimit
  else match isRuntimeFeatureInvocationFilter raw with
    | none => .error .invalidReceipt
    | some filter =>
        if db.validateInstalledEvidence = false then .error .corrupt
        else if filter.limit < (featureRows db filter).length then .error .historyLimit
        else match (featureRows db filter).mapM fun c => db.readEvidence c.invocationId with
          | none => .error .corrupt
          | some values => .ok (values.filterMap id)

end Operations

/-! ## Runs -/

/-- A call of one of the store's writing operations, with any argument. -/
inductive Call where
  | openInvocation (raw : JsValue)
  | startAttempt (raw : JsValue)
  | markAttemptSpawned (raw : JsValue)
  | markSubstantiveWorkStarted (raw : JsValue)
  | recordCheckpoint (raw : JsValue)
  | appendRouteChange (raw : JsValue)
  | settleAttempt (raw : JsValue)
  | settleInvocation (raw : JsValue)

/-- The database after one call. -/
def Call.apply (planHash : JsValue → JsString) (db : Database) : Call → Database
  | .openInvocation raw => (Runtime.openInvocation planHash db raw).1
  | .startAttempt raw => (Runtime.startAttempt db raw).1
  | .markAttemptSpawned raw => (Runtime.markAttemptSpawned db raw).1
  | .markSubstantiveWorkStarted raw => (Runtime.markSubstantiveWorkStarted db raw).1
  | .recordCheckpoint raw => (Runtime.recordCheckpoint db raw).1
  | .appendRouteChange raw => (Runtime.appendRouteChange db raw).1
  | .settleAttempt raw => (Runtime.settleAttempt db raw).1
  | .settleInvocation raw => (Runtime.settleInvocation db raw).1

/-- The database after a sequence of calls, from an empty one. -/
def run (planHash : JsValue → JsString) (calls : List Call) : Database :=
  calls.foldl (Call.apply planHash) Database.empty

end Hepha.Runtime
