import Hepha.Js.Collections
import Hepha.Js.Date
import Hepha.Js.Value
import Hepha.Review.SafeText

/-!
# Records of the governance rollout

The receipts, audits and pilot events that the rollout store keeps, and the
checks the store makes of them.  The guards of the source narrow unknown values
to these types: what they check of the shape of a value (its keys, the types of
its members, literal members with one value) is in the types, and what they
check of the contents is in the functions below.

Everything that a check lets into a text column is ASCII, so a column gives
back the text it was given; a payload is kept as JSON, which keeps any string.
-/

namespace Hepha.Rollout

open Pattern
open JsValue (maxSafeInteger)

/-! ## Texts -/

/-- `/-----BEGIN [A-Z ]+PRIVATE KEY-----/`. -/
def privateKey : Pattern :=
  concat [lit "-----BEGIN ", atLeast 1 fun u => isUpper u || u == 0x20, lit "PRIVATE KEY-----"]

/-- `/<\/?[A-Za-z][^>]*>/`. -/
def markup : Pattern :=
  concat [lit "<", optional (lit "/"), unit fun u => isUpper u || isLower u, many (· != 0x3E),
    lit ">"]

/-- `/(?:javascript|data|vbscript)\s*:/i`. -/
def scriptScheme : Pattern :=
  concat [oneOf [litIgnoreCase "javascript", litIgnoreCase "data", litIgnoreCase "vbscript"],
    many isWhiteSpace, lit ":"]

/-- `text`: bounded, and without control characters, credentials and markup. -/
def isText (maximum : ℕ) (value : JsString) : Bool :=
  0 < value.length && value.length ≤ maximum && !value.any Review.isTextControl &&
    !test Review.contractAssignment value && !test privateKey value && !test markup value &&
    !test scriptScheme value

/-- `text`, with its default bound. -/
def text (value : JsString) : Bool :=
  isText 256 value

/-- `identifier`. -/
def identifier (value : JsString) : Bool :=
  text value && value.isKebabCase

/-- `hash`. -/
def hash (value : JsString) : Bool :=
  value.isHexDigest

/-- `utc`. -/
def utc (value : JsString) : Bool :=
  (Date.parseUtc value).isSome

/-- `integer`, of a number that is an integer and not negative. -/
def integer (value : ℕ) : Bool :=
  value ≤ maxSafeInteger

/-- A period of at most a day, that is not empty. -/
def withinDay (start finish : JsString) : Bool :=
  match Date.parseUtc start, Date.parseUtc finish with
  | some startTime, some finishTime => startTime < finishTime && finishTime - startTime ≤ 86400000
  | _, _ => false

/-! ## Parity receipts -/

inductive DifferenceCategory
  | schema
  | project
  | sourceVersion
  | replan
  | debt
  | queue
  | metrics
deriving DecidableEq, Repr

/-- `CATEGORY_ORDER.indexOf`. -/
def DifferenceCategory.position : DifferenceCategory → ℕ
  | schema => 0
  | project => 1
  | sourceVersion => 2
  | replan => 3
  | debt => 4
  | queue => 5
  | metrics => 6

inductive ParityResult
  | matched
  | mismatched
deriving DecidableEq, Repr

/-- `GovernanceParityReceipt`. -/
structure ParityReceipt where
  receiptId : JsString
  projectId : JsString
  sourceVersionHash : JsString
  authoritativeHash : JsString
  dashboardHash : JsString
  result : ParityResult
  differenceCategories : List DifferenceCategory
  differenceCount : ℕ
  comparedAt : JsString
  validUntil : JsString
deriving DecidableEq

/-- `stringArray`, of an array of categories. -/
def stringArray (values : List DifferenceCategory) : Bool :=
  values.length ≤ 7 &&
    ((values.zip values.tail).all fun pair => pair.1.position < pair.2.position) &&
    hasUniqueValues values

/-- `validParity`. -/
def validParity (value : ParityReceipt) : Bool :=
  identifier value.receiptId && identifier value.projectId && hash value.sourceVersionHash &&
    hash value.authoritativeHash && hash value.dashboardHash &&
    stringArray value.differenceCategories && integer value.differenceCount &&
    value.differenceCount == value.differenceCategories.length && utc value.comparedAt &&
    utc value.validUntil && withinDay value.comparedAt value.validUntil

/-! ## Migration audits -/

inductive MigrationOutcome
  | applied
  | alreadyCurrent
  | failed
deriving DecidableEq, Repr

/-- `GovernanceMigrationAudit`. -/
structure MigrationAudit where
  auditId : JsString
  projectId : JsString
  fromVersion : ℕ
  toVersion : ℕ
  outcome : MigrationOutcome
  startedAt : JsString
  completedAt : JsString
  readBackHash : Option JsString
  safeCode : Option JsString
deriving DecidableEq

/-- `validAudit`. -/
def validAudit (value : MigrationAudit) : Bool :=
  identifier value.auditId && identifier value.projectId && integer value.fromVersion &&
    integer value.toVersion && utc value.startedAt && utc value.completedAt &&
    value.readBackHash.all hash && value.safeCode.all identifier

/-! ## Pilot events -/

/-- `GovernancePilotApproval`. -/
structure PilotApproval where
  approvalReceiptId : JsString
  pilotId : JsString
  featureId : JsString
  phaseContractId : JsString
  taskId : JsString
  contractVersion : ℕ
  pilotConfigHash : JsString
  actorId : JsString
  reason : JsString
  parityReceiptId : JsString
  migrationAuditId : JsString
  approvedAt : JsString
  expiresAt : JsString
  expectedVersion : ℕ
  resultingVersion : ℕ
deriving DecidableEq

/-- `validPilotApproval`. -/
def validPilotApproval (value : PilotApproval) : Bool :=
  ([value.approvalReceiptId, value.pilotId, value.featureId, value.phaseContractId, value.taskId,
      value.actorId, value.parityReceiptId, value.migrationAuditId].all identifier) &&
    integer value.contractVersion && hash value.pilotConfigHash && isText 1024 value.reason &&
    utc value.approvedAt && utc value.expiresAt && withinDay value.approvedAt value.expiresAt &&
    integer value.expectedVersion && integer value.resultingVersion

inductive EventKind
  | pilotAdmitted
  | disabledByOperator
  | pilotExpired
  | pilotStopped
  | dispatchAllowed
  | dispatchRefused
deriving DecidableEq, Repr

/-- The state that an event carries. -/
inductive EventState
  | active
  | needsHuman
deriving DecidableEq, Repr

/-- An approval, or a record whose one member is `lastOutcome`. -/
inductive EventPayload
  | approval (approval : PilotApproval)
  | outcome (lastOutcome : JsString)
deriving DecidableEq

/-- The check of a payload, which depends on the kind of its event. -/
def validPayload : EventKind → EventPayload → Bool
  | .pilotAdmitted, .approval approval => validPilotApproval approval
  | .pilotAdmitted, .outcome _ => false
  | _, .approval _ => false
  | _, .outcome lastOutcome => text lastOutcome

/-- `GovernancePilotEventInput`. -/
structure PilotEventInput where
  projectId : JsString
  expectedVersion : ℕ
  pilotId : JsString
  eventKind : EventKind
  state : EventState
  payload : EventPayload
  occurredAt : JsString
deriving DecidableEq

/-- `validPilotEvent`. -/
def validPilotEvent (value : PilotEventInput) : Bool :=
  identifier value.projectId && integer value.expectedVersion && identifier value.pilotId &&
    utc value.occurredAt && validPayload value.eventKind value.payload

end Hepha.Rollout
