import Hepha.Js.Collections
import Hepha.Js.Date
import Hepha.Js.Json
import Hepha.Review.SafeText
import Mathlib.Data.List.Sort

/-!
# Architecture-debt records

The records of the architecture-debt register, and the checks that the store
and the policy make of them.  The guards of the source narrow unknown values to
these types: what they check of the shape of a value (its keys, the types of its
members, literal members with one value) is in the types, and what they check
of the contents is in the functions below.
-/

namespace Hepha.Debt

/-! ## Texts -/

/-- Text of a bounded length, without control characters but tabs and line
ends, and without anything like a secret. -/
def isText (maximum : ℕ) (value : JsString) : Bool :=
  0 < value.length && value.length ≤ maximum &&
    (value.all fun u => (0x20 ≤ u || u == 0x09 || u == 0x0A || u == 0x0D) && u != 0x7F) &&
    !Review.secretPatterns.any fun pattern => Pattern.test pattern value

/-- `text`, with its default bound. -/
def text (value : JsString) : Bool :=
  isText 4096 value

/-- `identifier`, with its default bound. -/
def identifier (value : JsString) : Bool :=
  isText 256 value

/-- `/^[A-Za-z]:/`. -/
def hasDrive : JsString → Bool
  | u :: 0x3A :: _ => Pattern.isUpper u || Pattern.isLower u
  | _ => false

theorem isText_mono {maximum maximum' : ℕ} (hle : maximum ≤ maximum') {value : JsString}
    (h : isText maximum value = true) : isText maximum' value = true := by
  simp only [isText, Bool.and_eq_true, decide_eq_true_eq] at h ⊢
  exact ⟨⟨⟨h.1.1.1, by omega⟩, h.1.2⟩, h.2⟩

/-- A text column keeps a text as one. -/
theorem isText_toWellFormed {maximum : ℕ} (value : JsString) :
    isText maximum value.toWellFormed = isText maximum value := by
  have hclass : ∀ u, isSurrogate u = true →
      ((0x20 ≤ u || u == 0x09 || u == 0x0A || u == 0x0D) && u != 0x7F) =
        ((0x20 ≤ (0xFFFD : CodeUnit) || (0xFFFD : CodeUnit) == 0x09 ||
          (0xFFFD : CodeUnit) == 0x0A || (0xFFFD : CodeUnit) == 0x0D) &&
          (0xFFFD : CodeUnit) != 0x7F) := by
    intro u hu
    simp only [isSurrogate, isHighSurrogate, isLowSurrogate, Bool.or_eq_true, Bool.and_eq_true,
      decide_eq_true_eq, UInt16.le_iff_toNat_le] at hu
    simp [UInt16.le_iff_toNat_le, ← UInt16.toNat_inj] at hu ⊢
    omega
  have hall : (value.toWellFormed.all fun u =>
      (0x20 ≤ u || u == 0x09 || u == 0x0A || u == 0x0D) && u != 0x7F) =
      value.all fun u => (0x20 ≤ u || u == 0x09 || u == 0x0A || u == 0x0D) && u != 0x7F := by
    have hmap := congrArg (List.all · id) (JsString.map_toWellFormed hclass value)
    simpa only [List.all_map, Function.id_comp] using hmap
  rw [isText, JsString.length_toWellFormed, hall, Review.secretPatterns_toWellFormed, isText]

/-- `path`: relative, with forward slashes and without empty or dotted parts. -/
def path (value : JsString) : Bool :=
  isText 1024 value && !value.contains 0x5C && value.head? != some 0x2F && !hasDrive value &&
    (value.splitOn 0x2F).all fun part => !part.isEmpty && part != js "." && part != js ".."

/-- `hash`. -/
def hash (value : JsString) : Bool :=
  value.isHexDigest

/-- `utc`. -/
def utc (value : JsString) : Bool :=
  (Date.parseUtc value).isSome

/-- `RECORD_ID_RE`. -/
def isRecordId (value : JsString) : Bool :=
  value.take 10 == js "ARCH-DEBT-" && (value.drop 10).length == 32 &&
    (value.drop 10).all fun u => (0x61 ≤ u && u ≤ 0x66) || (0x30 ≤ u && u ≤ 0x39)

/-- `sortedUnique`, in the order of code units. -/
def sortedUnique (values : List JsString) : Bool :=
  (values.zip values.tail).all fun pair => decide (pair.1 < pair.2)

/-- Each value is before all later ones. -/
theorem sortedUnique_iff {values : List JsString} :
    sortedUnique values = true ↔ values.Pairwise (· < ·) := by
  rw [← List.isChain_iff_pairwise]
  induction values with
  | nil => simp [sortedUnique]
  | cons first rest ih =>
      cases rest with
      | nil => simp [sortedUnique]
      | cons second rest =>
          rw [List.isChain_cons_cons, ← ih]
          simp [sortedUnique]

/-- A list of strings becomes strictly sorted exactly if they are all
different. -/
theorem sortedUnique_insertionSort_iff {values : List JsString} :
    sortedUnique (values.insertionSort (· ≤ ·)) = true ↔ values.Nodup := by
  rw [sortedUnique_iff, ← (List.perm_insertionSort (· ≤ ·) values).nodup_iff]
  constructor
  · exact fun h => h.imp fun hlt => Std.ne_of_lt hlt
  · intro h
    have hsorted : (values.insertionSort (· ≤ ·)).Pairwise (· ≤ ·) :=
      List.pairwise_insertionSort _ _
    exact (hsorted.and h).imp fun hpair => Std.lt_of_le_of_ne hpair.1 hpair.2

theorem insertionSort_of_sortedUnique {values : List JsString} (h : sortedUnique values = true) :
    values.insertionSort (· ≤ ·) = values :=
  List.Pairwise.insertionSort_eq ((sortedUnique_iff.1 h).imp fun hlt => Std.le_of_lt hlt)

/-- `stringList`. -/
def stringList (item : JsString → Bool) (values : List JsString) : Bool :=
  values.length ≤ 128 && values.all item && sortedUnique values

/-! ## Records -/

inductive DebtState
  | pendingTriage
  | confirmed
  | deferred
  | acceptedRisk
  | planned
  | closed
  | rejected
  | merged
  | superseded
deriving DecidableEq

/-- `OPEN_STATES`. -/
def DebtState.isOpen : DebtState → Bool
  | pendingTriage | confirmed | deferred | acceptedRisk | planned => true
  | closed | rejected | merged | superseded => false

inductive DebtPriority
  | p0
  | p1
  | p2
  | p3
deriving DecidableEq

inductive PrioritySource
  | autoPendingDefault
  | stewardConfirmed
deriving DecidableEq

inductive ArtifactKind
  | debtObservation
  | reviewManifest
deriving DecidableEq

structure ArtifactReference where
  artifactKind : ArtifactKind
  artifactId : JsString
  contentHash : JsString
  relativePath : JsString
deriving DecidableEq

structure Location where
  locationId : JsString
  relativePath : JsString
  symbol : Option JsString
  endpoint : Option JsString
  ruleTags : List JsString
deriving DecidableEq

structure Trigger where
  triggerId : JsString
  name : JsString
  paths : List JsString
  symbols : List JsString
  ruleTags : List JsString
deriving DecidableEq

structure Discovery where
  featureId : JsString
  phaseNumber : ℕ
  reviewGateId : JsString
  findingId : JsString
  manifest : ArtifactReference
  observation : ArtifactReference
deriving DecidableEq

structure Rule where
  ruleId : JsString
  ruleVersion : JsString
  ruleHash : JsString
  catalogHash : JsString
  category : JsString
  sourceReference : JsString
deriving DecidableEq

/-- `ArchitectureDebtAggregateV1`. -/
structure Aggregate where
  recordId : JsString
  projectId : JsString
  eventVersion : ℕ
  state : DebtState
  ownerId : JsString
  rationale : JsString
  risk : JsString
  architecturalBoundary : JsString
  priority : DebtPriority
  prioritySource : PrioritySource
  futureTouchTrigger : Trigger
  discovery : Discovery
  rule : Rule
  locations : List Location
  observationReferences : List ArtifactReference
  duplicateOfRecordId : Option JsString
  supersededByRecordId : Option JsString
deriving DecidableEq

/-! ## Checks -/

/-- `reference`, for references of one kind. -/
def ArtifactReference.valid (kind : ArtifactKind) (r : ArtifactReference) : Bool :=
  r.artifactKind == kind && identifier r.artifactId && hash r.contentHash && path r.relativePath

/-- `location`. -/
def Location.valid (l : Location) : Bool :=
  identifier l.locationId && path l.relativePath && l.symbol.all identifier &&
    l.endpoint.all identifier && stringList text l.ruleTags

/-- `trigger`. -/
def Trigger.valid (t : Trigger) : Bool :=
  identifier t.triggerId && text t.name && stringList path t.paths && stringList text t.symbols &&
    stringList text t.ruleTags && 0 < t.paths.length + t.symbols.length + t.ruleTags.length

/-- `discovery`. -/
def Discovery.valid (d : Discovery) : Bool :=
  identifier d.featureId && identifier d.reviewGateId && identifier d.findingId &&
    d.manifest.valid .reviewManifest && d.observation.valid .debtObservation

/-- `rule`. -/
def Rule.valid (r : Rule) : Bool :=
  identifier r.ruleId && identifier r.ruleVersion && hash r.ruleHash && hash r.catalogHash &&
    isText 128 r.category && path r.sourceReference

/-- `validAggregate`, which the policy repeats as `validPolicyAggregate`. -/
def Aggregate.valid (a : Aggregate) : Bool :=
  isRecordId a.recordId && identifier a.projectId && identifier a.ownerId && text a.rationale &&
    text a.risk && identifier a.architecturalBoundary && a.futureTouchTrigger.valid &&
    a.discovery.valid && a.rule.valid && 0 < a.locations.length && a.locations.length ≤ 128 &&
    a.locations.all Location.valid && hasUniqueValues (a.locations.map Location.locationId) &&
    0 < a.observationReferences.length && a.observationReferences.length ≤ 128 &&
    a.observationReferences.all (ArtifactReference.valid .debtObservation) &&
    a.duplicateOfRecordId.all isRecordId && a.supersededByRecordId.all isRecordId

/-! ## Identifiers -/

/-- `${relativePath}\0${symbol ?? ""}`. -/
def Location.tuple (l : Location) : JsString :=
  l.relativePath ++ 0 :: l.symbol.getD []

/-- `canonicalLocationTuples`: the tuples, sorted by code units. -/
def canonicalLocationTuples (locations : List Location) : List JsString :=
  (locations.map Location.tuple).insertionSort (· ≤ ·)

/-- The text whose digest identifies a record. -/
def recordIdInput (projectId : JsString) (rule : Rule) (architecturalBoundary : JsString)
    (locations : List Location) : JsString :=
  js "\x7b\"projectId\":" ++ quote projectId ++ js ",\"ruleId\":" ++ quote rule.ruleId ++
    js ",\"ruleVersion\":" ++ quote rule.ruleVersion ++ js ",\"ruleHash\":" ++
    quote rule.ruleHash ++ js ",\"architecturalBoundary\":" ++ quote architecturalBoundary ++
    js ",\"locations\":[" ++
    [0x2C].intercalate ((canonicalLocationTuples locations).map quote) ++ js "]\x7d"

/-- `createArchitectureDebtRecordId`. -/
def createArchitectureDebtRecordId (sha256 : JsString → HexDigest) (projectId : JsString)
    (rule : Rule) (architecturalBoundary : JsString) (locations : List Location) : JsString :=
  js "ARCH-DEBT-" ++
    (sha256 (recordIdInput projectId rule architecturalBoundary locations)).1.take 32

end Hepha.Debt
