import Hepha.Debt.Records
import Mathlib.Data.List.Sort

/-!
# The safe projection of the register

The presentation has rules of its own for what it shows: no control characters
at all, no markup and no active links besides what the store refuses, and a
pointer exactly in the states that need one.  A register with one record that
breaks them is not projected at all.
-/

namespace Hepha.Debt.Presentation

open Pattern

/-- `RAW_HTML`. -/
def rawHtml : Pattern :=
  oneOf [concat [lit "<!--", many fun _ => true, lit "-->"],
    concat [lit "<", optional (lit "/"), unit fun u => isUpper u || isLower u,
      many (· != 0x3E), lit ">"]]

/-- `ACTIVE_MARKDOWN_URI`. -/
def activeMarkdownUri : Pattern :=
  concat [oneOf [concat [optional (lit "!"), lit "[", many (· != 0x5D), lit "](",
      many isWhiteSpace], concat [lit "<", many isWhiteSpace]],
    oneOf [litIgnoreCase "javascript", litIgnoreCase "data", litIgnoreCase "vbscript"],
    many isWhiteSpace, lit ":"]

/-- `safeText`. -/
def safeText (maximumLength : ℕ) (value : JsString) : Bool :=
  0 < value.length && value.length ≤ maximumLength &&
    (value.all fun u => 0x20 ≤ u && u != 0x7F) &&
    (!Review.secretPatterns.any fun pattern => test pattern value) && !test rawHtml value &&
    !test activeMarkdownUri value

/-- `safeText` with its default bound. -/
def shown (value : JsString) : Bool :=
  safeText 4096 value

/-- `identifier`, with its default bound. -/
def identifier (value : JsString) : Bool :=
  safeText 256 value

/-- `path`. -/
def path (value : JsString) : Bool :=
  safeText 1024 value && !value.contains 0x5C && value.head? != some 0x2F && !hasDrive value &&
    (value.splitOn 0x2F).all fun part => !part.isEmpty && part != js "." && part != js ".."

/-- `reference`. -/
def reference (kind : ArtifactKind) (r : ArtifactReference) : Bool :=
  r.artifactKind == kind && identifier r.artifactId && hash r.contentHash && path r.relativePath

/-- `location`. -/
def location (l : Location) : Bool :=
  identifier l.locationId && path l.relativePath && l.symbol.all identifier &&
    l.endpoint.all identifier && stringList shown l.ruleTags

/-- `trigger`. -/
def trigger (t : Trigger) : Bool :=
  identifier t.triggerId && shown t.name && stringList path t.paths &&
    stringList shown t.symbols && stringList shown t.ruleTags &&
    0 < t.paths.length + t.symbols.length + t.ruleTags.length

/-- `discovery`. -/
def discovery (d : Discovery) : Bool :=
  identifier d.featureId && identifier d.reviewGateId && identifier d.findingId &&
    reference .reviewManifest d.manifest && reference .debtObservation d.observation

/-- `rule`. -/
def rule (r : Rule) : Bool :=
  identifier r.ruleId && identifier r.ruleVersion && hash r.ruleHash && hash r.catalogHash &&
    safeText 128 r.category && path r.sourceReference

/-- `aggregate`. -/
def aggregate (a : Aggregate) : Bool :=
  isRecordId a.recordId && identifier a.projectId && identifier a.ownerId && shown a.rationale &&
    shown a.risk && identifier a.architecturalBoundary && trigger a.futureTouchTrigger &&
    discovery a.discovery && rule a.rule && 0 < a.locations.length && a.locations.length ≤ 128 &&
    a.locations.all location && 0 < a.observationReferences.length &&
    a.observationReferences.length ≤ 128 &&
    a.observationReferences.all (reference .debtObservation) &&
    hasUniqueValues (a.locations.map Location.locationId) &&
    hasUniqueValues (a.locations.map Location.tuple) &&
    a.observationReferences.head? == some a.discovery.observation &&
    (a.duplicateOfRecordId.all fun id => isRecordId id && id != a.recordId) &&
    (a.supersededByRecordId.all fun id => isRecordId id && id != a.recordId) &&
    (a.state == .merged) == a.duplicateOfRecordId.isSome &&
    (a.state == .superseded) == a.supersededByRecordId.isSome &&
    !(a.duplicateOfRecordId.isSome && a.supersededByRecordId.isSome)

/-- `ArchitectureDebtProjectionV1`. -/
structure Projection where
  recordId : JsString
  state : DebtState
  eventVersion : ℕ
  ownerId : JsString
  priority : DebtPriority
  prioritySource : PrioritySource
  ruleId : JsString
  ruleVersion : JsString
  ruleCategory : JsString
  ruleSourceReference : JsString
  architecturalBoundary : JsString
  rationale : JsString
  risk : JsString
  locations : List Location
  futureTouchTrigger : Trigger
  discoveryFeatureId : JsString
  discoveryPhaseNumber : ℕ
  discoveryReviewGateId : JsString
  discoveryFindingId : JsString
  duplicateOfRecordId : Option JsString
  supersededByRecordId : Option JsString

/-- `locationCompare(left, right) <= 0`. -/
def locationLe (left right : Location) : Bool :=
  if left.relativePath ≠ right.relativePath then decide (left.relativePath ≤ right.relativePath)
  else if left.symbol.getD [] ≠ right.symbol.getD [] then
    decide (left.symbol.getD [] ≤ right.symbol.getD [])
  else decide (left.locationId ≤ right.locationId)

/-- `projectionRecord`. -/
def projectionRecord (a : Aggregate) : Projection where
  recordId := a.recordId
  state := a.state
  eventVersion := a.eventVersion
  ownerId := a.ownerId
  priority := a.priority
  prioritySource := a.prioritySource
  ruleId := a.rule.ruleId
  ruleVersion := a.rule.ruleVersion
  ruleCategory := a.rule.category
  ruleSourceReference := a.rule.sourceReference
  architecturalBoundary := a.architecturalBoundary
  rationale := a.rationale
  risk := a.risk
  locations := a.locations.insertionSort fun l r => locationLe l r
  futureTouchTrigger := a.futureTouchTrigger
  discoveryFeatureId := a.discovery.featureId
  discoveryPhaseNumber := a.discovery.phaseNumber
  discoveryReviewGateId := a.discovery.reviewGateId
  discoveryFindingId := a.discovery.findingId
  duplicateOfRecordId := a.duplicateOfRecordId
  supersededByRecordId := a.supersededByRecordId

/-- `projectArchitectureDebtRegister`: `none` for a refusal. -/
def projectArchitectureDebtRegister (records : List Aggregate) : Option (List Projection) :=
  if records.length ≤ 512 && records.all aggregate &&
      hasUniqueValues (records.map Aggregate.recordId) then
    some ((records.map projectionRecord).insertionSort fun l r => l.recordId ≤ r.recordId)
  else none

end Hepha.Debt.Presentation
