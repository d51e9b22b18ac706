import Hepha.Coverage.Passages
import Hepha.Js.Collections
import Hepha.Js.Decimal
import Hepha.Js.Json

/-!
# Facts that are quoted from passages

A worker quotes clauses of the passages it was shown.  A quote is validated against its
passage; where it occurs more than once, the worker says which occurrence it means.  The
facts of all pages are then brought together: facts with the same quote and the same
scope are one, with every place they were cited from.

The scope of a quote is read from the passage alone: the headings open at its beginning,
and the headings in its text up to the quote.
-/

namespace Hepha.Coverage

open JsString Pattern

structure SourceFact where
  sourceIds : List JsString
  passageId : ℕ
  quote : JsString
  occurrence : Option ℕ
  deriving DecidableEq, Repr

/-- `SOURCE_FACT_PAGE_LIMIT`. -/
def SOURCE_FACT_PAGE_LIMIT : ℕ := 12000

/-- An error of the validation, with its detail. -/
inductive SourceFactError where
  | incomplete (detail : JsString)
  | budgetExceeded (detail : JsString)
  deriving DecidableEq, Repr

/-! ## Quotes -/

/-- The offsets at which a quote stands in a text. -/
def occurrences (text quote : JsString) : List ℕ :=
  (List.range (text.length + 1)).filter fun offset => quote.isPrefixOf (text.drop offset)

/-- `text.indexOf(quote, start)`, for a quote that is not empty. -/
def indexOf (text quote : JsString) (start : ℕ) : Option ℕ :=
  (occurrences text quote).find? (start ≤ ·)

/-- `text.lastIndexOf(quote)`, for a quote that is not empty. -/
def lastIndexOfText (text quote : JsString) : Option ℕ :=
  (occurrences text quote).getLast?

/-- The loop of `quoteOffset`. -/
def quoteOffsetFrom (text quote : JsString) : ℕ → ℕ → Option ℕ
  | start, 0 => indexOf text quote start
  | start, i + 1 => (indexOf text quote start).bind fun offset =>
      quoteOffsetFrom text quote (offset + 1) i

/-- `quoteOffset`. -/
def quoteOffset (text quote : JsString) (occurrence : Option ℕ) : Option ℕ :=
  quoteOffsetFrom text quote 0 (occurrence.getD 0)

/-- `scopeAtQuote`. -/
def scopeAtQuote (passage : SourcePassage) (index : ℕ) : List JsString :=
  outline level (passage.context.map SourceHeading.text ++
    (headings (passage.text.take index)).map SourceHeading.text)

/-! ## Validation -/

/-- What the validation takes from its platform. -/
structure FactPlatform where
  /-- `JSON.parse`; nothing where it throws. -/
  parseJson : JsString → Option JsValue
  /-- `coveragePromptSize(JSON.stringify(value))`. -/
  promptSize : JsValue → ℕ

/-- What remains of a text without the mark of a code block before it:
`/^```(?:json)?\s*/`. -/
def dropOpeningFence (text : JsString) : JsString :=
  ((concat [lit "```", optional (lit "json"), many isWhiteSpace]) text).head?.getD text

/-- `/\s*```$/`. -/
def dropClosingFence (text : JsString) : JsString :=
  if (js "```").isSuffixOf text then trimEnd (text.take (text.length - 3)) else text

/-- `new Map(passages.map(p => [p.id, p])).get(id)`. -/
def passageOf (passages : List SourcePassage) (id : ℕ) : Option SourcePassage :=
  JsMap.get (passages.map fun passage => (passage.id, passage)) id

/-- Ids that are distinct and all requested. -/
def readIds (requested : List JsString) (value : JsValue) : Option (List JsString) :=
  (value.isArrayOf JsValue.isString).filter fun ids =>
    setSize ids == ids.length && ids.all requested.contains

def unknownCitation : SourceFactError :=
  .incomplete (js ("Source fact cites an unknown criterion/passage, an invented quote, or an " ++
    "oversized clause."))

def ambiguousOccurrence : SourceFactError :=
  .incomplete (js ("Source quote occurrence is ambiguous or outside the supplied passage; scope " ++
    "cannot be inferred."))

/-- `occurrence`, where it is not outside the text. -/
def readOccurrence (text : JsString) (value : JsValue) : Option (Option ℕ) :=
  (JsValue.isOptional JsValue.isSafeNatural value).filter fun occurrence =>
    occurrence.all (· ≤ text.length)

/-- One turn of the loop over the facts. -/
def readFact (passages : List SourcePassage) (requested : List JsString) (fact : JsValue) :
    Except SourceFactError SourceFact :=
  match readIds requested (fact.get (js "sourceIds")),
    ((fact.get (js "passageId")).isSafeNatural).bind (passageOf passages),
    (fact.get (js "quote")).isString with
  | some sourceIds, some passage, some quote =>
      if sourceIds.isEmpty || quote.trim.isEmpty || 1200 < quote.length ||
          (occurrences passage.text quote).isEmpty then .error unknownCitation
      else
        match readOccurrence passage.text (fact.get (js "occurrence")) with
        | none => .error ambiguousOccurrence
        | some occurrence =>
            if occurrence.isNone &&
                indexOf passage.text quote 0 != lastIndexOfText passage.text quote then
              .error ambiguousOccurrence
            else if (quoteOffset passage.text quote occurrence).isNone then
              .error ambiguousOccurrence
            else .ok ⟨sourceIds, passage.id, quote, occurrence⟩
  | _, _, _ => .error unknownCitation

/-- `validateSourceFacts`. -/
def validateSourceFacts (platform : FactPlatform) (response : JsString)
    (passages : List SourcePassage) (requested : List JsString) :
    Except SourceFactError (List SourceFact) :=
  match platform.parseJson (dropClosingFence (dropOpeningFence response.trim)) with
  | none => .error (.incomplete (js "Source fact extraction returned invalid JSON."))
  | some value =>
      if !((value.get (js "complete")).identical (.bool true) &&
          (value.get (js "inspectedCount")).identical (.num (.int passages.length)) &&
          (readIds requested (value.get (js "accountedSourceIds"))).any fun ids =>
            ids.length == setSize requested) then
        .error (.incomplete (js ("Source facts did not completely account for every passage and " ++
          "criterion; no missing-test inference is permitted.")))
      else
        match (value.get (js "facts")).isArray with
        | none => .error (.incomplete (js "Source fact extraction facts must be an array."))
        | some facts =>
            let factBytes := platform.promptSize (.arr facts)
            if 100 < facts.length || SOURCE_FACT_PAGE_LIMIT < factBytes then
              .error (.budgetExceeded (js ("Source fact extraction exceeded its bounded fact " ++
                "budget: facts=") ++ decimalText facts.length ++ js "/100; serializedBytes=" ++
                decimalText factBytes ++ js "/" ++ decimalText SOURCE_FACT_PAGE_LIMIT ++ js "."))
            else facts.mapM (readFact passages requested)

/-! ## Facts of all pages -/

/-- Where a fact was cited from. -/
structure Citation where
  passageId : ℕ
  offset : ℕ
  deriving DecidableEq, Repr

/-- Facts with one quote and one scope. -/
structure FactGroup where
  quote : JsString
  scope : List JsString
  sourceIds : List JsString
  citations : List (ℕ × Citation)
  deriving DecidableEq, Repr

/-- `JSON.stringify([quote, scope])`. -/
def factKey (quote : JsString) (scope : List JsString) : JsString :=
  js "[" ++ (Hepha.quote quote ++ js ",[" ++
    ([0x2C].intercalate (scope.map Hepha.quote) ++ js "]]"))

/-- `new Set([...values, ...added])`, in the order of insertion. -/
def addAll (values added : List JsString) : List JsString :=
  added.foldl (fun values value =>
    if values.contains value then values else values ++ [value]) values

/-- One turn of the loop of `aggregateSourceFacts`, where the passage and the quote are found. -/
def recordFact (passages : List SourcePassage) (groups : List (JsString × FactGroup))
    (fact : SourceFact) : Option (List (JsString × FactGroup)) := do
  let passage ← passageOf passages fact.passageId
  let relativeOffset ← quoteOffset passage.text fact.quote fact.occurrence
  let scope := scopeAtQuote passage relativeOffset
  let key := factKey fact.quote scope
  let group := (JsMap.get groups key).getD ⟨fact.quote, scope, [], []⟩
  let offset := passage.offset + relativeOffset
  return JsMap.set groups key { group with
    sourceIds := addAll group.sourceIds fact.sourceIds
    citations := JsMap.set group.citations offset ⟨passage.id, offset⟩ }

/-- The groups of `aggregateSourceFacts`. -/
def aggregateSourceFacts (facts : List SourceFact) (passages : List SourcePassage) :
    Option (List (JsString × FactGroup)) :=
  facts.foldlM (recordFact passages) []

end Hepha.Coverage
