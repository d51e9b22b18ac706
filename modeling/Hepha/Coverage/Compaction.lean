import Hepha.Js.Decimal
import Hepha.Js.Stringify
import Hepha.Lib.Cut
import Hepha.Lib.Intern

/-!
# Compact coverage contexts

The context of a coverage assessment lists the identities of executed tests, which have
much text in common.  Its compact form factors common beginnings and ends of identities,
or writes the identities of all reports as references into one catalog, whichever is
shorter.  Diagnostics and source documents are shortened in the same spirit.

What the text of a prompt says about reading a compact form is `decodeContext`.
-/

namespace Hepha.Coverage

/-! ## Identities -/

/-- `IdentityFragment`: a text, or texts between a common beginning and a common end. -/
inductive IdentityFragment where
  | literal (text : JsString)
  | factor (first last : JsString) (items : List IdentityFragment)

/-- How many units all identities have in common with the first one at the beginning. -/
def commonStart (identities : List JsString) (first : JsString) : ℕ :=
  ((List.range first.length).takeWhile fun i =>
    identities.all fun value => value[i]? == first[i]?).length

/-- How many units they have in common at the end, behind the common beginning. -/
def commonEnd (identities : List JsString) (first : JsString) (start : ℕ) : ℕ :=
  ((List.range (first.length - start)).takeWhile fun i =>
    identities.all fun value => decide (i < value.length - start) &&
      value[value.length - 1 - i]? == first[first.length - 1 - i]?).length

/-- What is left of an identity without the common parts. -/
def middle (start stop : ℕ) (value : JsString) : JsString :=
  (value.take (value.length - stop)).drop start

/-- One turn of the loop over the middles: it joins the last group, or begins a new one. -/
def addToGroups (groups : List (List JsString)) (value : JsString) : List (List JsString) :=
  match groups.getLast? with
  | some last =>
      if last.head?.bind List.head? = value.head? then groups.dropLast ++ [last ++ [value]]
      else groups ++ [[value]]
  | none => groups ++ [[value]]

/-- The middles in groups of neighbours that begin with the same unit. -/
def groupMiddles (middles : List JsString) : List (List JsString) :=
  middles.foldl addToGroups []

theorem addToGroups_cases (groups : List (List JsString)) (value : JsString) :
    addToGroups groups value = groups ++ [[value]] ∨
      ∃ front last, groups = front ++ [last] ∧
        addToGroups groups value = front ++ [last ++ [value]] := by
  unfold addToGroups
  cases hlast : groups.getLast? with
  | none => exact .inl rfl
  | some last =>
      obtain ⟨front, rfl⟩ := List.getLast?_eq_some_iff.mp hlast
      by_cases hsame : last.head?.bind List.head? = value.head?
      · exact .inr ⟨front, last, rfl, by simp [hsame]⟩
      · exact .inl (if_neg hsame)

theorem groupMiddles_spec (middles : List JsString) :
    (groupMiddles middles).flatten = middles ∧ [] ∉ groupMiddles middles := by
  induction middles using List.reverseRecOn with
  | nil => exact ⟨rfl, List.not_mem_nil⟩
  | append_singleton middles value ih =>
      obtain ⟨hflatten, hnonempty⟩ := ih
      have hstep : groupMiddles (middles ++ [value]) =
          addToGroups (groupMiddles middles) value := by
        rw [groupMiddles, List.foldl_append]
        rfl
      rw [hstep]
      rcases addToGroups_cases (groupMiddles middles) value with hnew | ⟨front, last, hold, hjoined⟩
      · rw [hnew]
        simp [hflatten, hnonempty]
      · rw [hold] at hflatten hnonempty
        rw [hjoined, ← hflatten]
        simp only [List.mem_append, not_or, List.flatten_append] at hnonempty ⊢
        simp [hnonempty.1]

/-- One group of several has fewer members than all have. -/
theorem length_lt_of_mem_groupMiddles {middles group : List JsString}
    (hseveral : 1 < (groupMiddles middles).length) (hgroup : group ∈ groupMiddles middles) :
    group.length < middles.length := by
  obtain ⟨hflatten, hnonempty⟩ := groupMiddles_spec middles
  obtain ⟨before, after, hsplit⟩ := List.append_of_mem hgroup
  rw [hsplit] at hflatten hnonempty hseveral
  have hother : ∃ other ∈ before ++ after, other ≠ [] := by
    have hlength : 0 < (before ++ after).length := by
      simp only [List.length_append, List.length_cons] at hseveral ⊢
      omega
    obtain ⟨other, hmem⟩ := List.exists_mem_of_length_pos hlength
    refine ⟨other, hmem, ?_⟩
    rintro rfl
    simp only [List.mem_append, List.mem_cons] at hmem hnonempty
    tauto
  obtain ⟨other, hmem, hne⟩ := hother
  have hle : other.length ≤ (before ++ after).flatten.length :=
    (List.sublist_flatten_of_mem hmem).length_le
  have hpos := List.length_pos_iff.mpr hne
  rw [← hflatten]
  simp only [List.flatten_append, List.flatten_cons, List.length_append] at hle ⊢
  omega

section Compact

variable (platform : Platform)

mutual

/-- A fragment as it stands in the text of a prompt. -/
def fragmentValue : IdentityFragment → JsValue
  | .literal text => .str text
  | .factor first last items =>
      .record [("prefix", .str first), ("suffix", .str last),
        ("items", .arr (fragmentValues items))]

def fragmentValues : List IdentityFragment → List JsValue
  | [] => []
  | fragment :: rest => fragmentValue fragment :: fragmentValues rest

end

/-- `JSON.stringify(fragments).length`. -/
def fragmentsLength (fragments : List IdentityFragment) : ℕ :=
  jsonLength platform (.arr (fragmentValues fragments))

/-- `JSON.stringify(texts).length`. -/
def textsLength (texts : List JsString) : ℕ :=
  jsonLength platform (.arr (texts.map .str))

/-- `compactIdentities`. -/
def compactIdentities (identities : List JsString) : List IdentityFragment :=
  match identities with
  | [] | [_] => identities.map .literal
  | first :: second :: rest =>
      let identities := first :: second :: rest
      let start := commonStart identities first
      let stop := commonEnd identities first start
      let middles := identities.map (middle start stop)
      let items :=
        if _h : 1 < (groupMiddles middles).length then
          (groupMiddles middles).attach.flatMap fun group =>
            compactIdentities group.1
        else middles.map .literal
      let factored := [.factor (first.take start) (first.drop (first.length - stop)) items]
      if fragmentsLength platform factored < textsLength platform identities then factored
      else identities.map .literal
termination_by identities.length
decreasing_by
  have hlt := length_lt_of_mem_groupMiddles _h group.2
  rwa [List.length_map] at hlt

end Compact

mutual

def expandFragment : IdentityFragment → List JsString
  | .literal text => [text]
  | .factor first last items =>
      (expandIdentities items).map fun value => first ++ value ++ last

/-- `expandIdentities`. -/
def expandIdentities : List IdentityFragment → List JsString
  | [] => []
  | fragment :: rest => expandFragment fragment ++ expandIdentities rest

end

/-! ## Coverage models -/

/-- A report of automated tests: its other properties, and the identities it lists. -/
structure AutomatedEvidence where
  metadata : List (JsString × JsValue)
  executionIdentities : Option (List JsString)

/-- A context of a recovery: its other properties, and its diagnostics. -/
structure RecoveryContext where
  properties : List (JsString × JsValue)
  executionDiagnostics : JsValue

/-- `ManualTestDeliveryModel`, as far as it is compacted. -/
structure DeliveryModel where
  properties : List (JsString × JsValue)
  automatedEvidence : List AutomatedEvidence
  recoveryContext : Option RecoveryContext

/-- How a report of a compact model gives its identities: under `executionIdentities`, or
with their number under `executionIdentityFragments` or `executionIdentityReferences`. -/
inductive ReportIdentities where
  | plain (identities : Option (List JsString))
  | fragments (count : ℕ) (fragments : List IdentityFragment)
  | references (count : ℕ) (references : List ℕ)

structure ReportView where
  metadata : List (JsString × JsValue)
  identities : ReportIdentities

/-- `executionDiagnosticCatalog`. -/
structure DiagnosticCatalog where
  origins : List IdentityFragment
  reasons : List IdentityFragment
  entries : List (ℕ × ℕ)

inductive DiagnosticsView where
  | plain (executionDiagnostics : JsValue)
  | catalog (executionDiagnosticCatalog : DiagnosticCatalog)

structure ContextView where
  properties : List (JsString × JsValue)
  diagnostics : DiagnosticsView

/-- A compact model. -/
structure CoverageView where
  properties : List (JsString × JsValue)
  automatedEvidence : List ReportView
  executionIdentityCatalog : Option (List IdentityFragment)
  recoveryContext : Option ContextView

/-! ### As they stand in the text of a prompt -/

def countValue (n : ℕ) : JsValue :=
  .num (.int n)

def ReportView.value (report : ReportView) : JsValue :=
  .obj (report.metadata ++ match report.identities with
    | .plain none => []
    | .plain (some identities) => [(js "executionIdentities", .arr (identities.map .str))]
    | .fragments count fragments =>
        [(js "executionIdentityCount", countValue count),
          (js "executionIdentityFragments", .arr (fragmentValues fragments))]
    | .references count references =>
        [(js "executionIdentityCount", countValue count),
          (js "executionIdentityReferences", .arr (references.map countValue))])

def DiagnosticCatalog.value (catalog : DiagnosticCatalog) : JsValue :=
  .record [("origins", .arr (fragmentValues catalog.origins)),
    ("reasons", .arr (fragmentValues catalog.reasons)),
    ("entries", .arr (catalog.entries.map fun entry =>
      .arr [countValue entry.1, countValue entry.2]))]

def ContextView.value (context : ContextView) : JsValue :=
  .obj (context.properties ++ match context.diagnostics with
    | .plain diagnostics => [(js "executionDiagnostics", diagnostics)]
    | .catalog catalog => [(js "executionDiagnosticCatalog", catalog.value)])

def CoverageView.value (view : CoverageView) : JsValue :=
  .obj (view.properties ++
    [(js "automatedEvidence", .arr (view.automatedEvidence.map ReportView.value)),
      (js "executionIdentityCatalog",
        (view.executionIdentityCatalog.map fun catalog => .arr (fragmentValues catalog)).getD
          .undefined),
      (js "recoveryContext", (view.recoveryContext.map ContextView.value).getD .undefined)])

/-! ## Compacting -/

section Encode

variable (platform : Platform)

/-- The origin and the reason of a diagnostic. -/
def splitDiagnostic (value : JsString) : JsString × JsString :=
  match cut (js ": ") value with
  | origin :: _ :: _ => (origin ++ js ": ", value.drop (origin.length + 2))
  | _ => ([], value)

/-- `compactDiagnostics`, which changes the context of the recovery only. -/
def compactDiagnostics (context : RecoveryContext) : ContextView :=
  let plain : ContextView := ⟨context.properties, .plain context.executionDiagnostics⟩
  match context.executionDiagnostics.isArrayOf JsValue.isString with
  | none | some [] => plain
  | some values =>
      let origins := internAll [] (values.map fun value => (splitDiagnostic value).1)
      let reasons := internAll [] (values.map fun value => (splitDiagnostic value).2)
      let encoded : DiagnosticCatalog :=
        ⟨compactIdentities platform origins.1, compactIdentities platform reasons.1,
          origins.2.zip reasons.2⟩
      if textsLength platform values ≤ jsonLength platform encoded.value + 128 then plain
      else ⟨context.properties, .catalog encoded⟩

/-- A report as it is. -/
def plainReport (entry : AutomatedEvidence) : ReportView :=
  ⟨entry.metadata, .plain entry.executionIdentities⟩

/-- A report with factored identities. -/
def factoredReport (entry : AutomatedEvidence) : ReportView :=
  match entry.executionIdentities with
  | none | some [] => plainReport entry
  | some identities =>
      let fragments := compactIdentities platform identities
      if textsLength platform identities ≤ fragmentsLength platform fragments then plainReport entry
      else ⟨entry.metadata, .fragments identities.length fragments⟩

/-- The reports with references into a catalog, and the catalog. -/
def shareReports : List JsString → List AutomatedEvidence → List JsString × List ReportView
  | catalog, [] => (catalog, [])
  | catalog, entry :: rest =>
      match entry.executionIdentities with
      | none | some [] =>
          let last := shareReports catalog rest
          (last.1, plainReport entry :: last.2)
      | some identities =>
          let next := internAll catalog identities
          let last := shareReports next.1 rest
          (last.1, ⟨entry.metadata, .references identities.length next.2⟩ :: last.2)

/-- A report whose references are carried over to the sorted catalog. -/
def remapReport (catalog sortedCatalog : List JsString) (report : ReportView) : ReportView :=
  match report.identities with
  | .references count references =>
      { report with
        identities := .references count
          (references.map fun index => sortedCatalog.idxOf (catalog[index]?.getD [])) }
  | _ => report

def shorter (view other : CoverageView) : CoverageView :=
  if jsonLength platform view.value < jsonLength platform other.value then view else other

/-- `compactCoverageContext`. -/
def compactCoverageContext (model : DeliveryModel) : CoverageView :=
  let context := model.recoveryContext.map (compactDiagnostics platform)
  let factored : CoverageView :=
    ⟨model.properties, model.automatedEvidence.map (factoredReport platform), none, context⟩
  let reports := shareReports [] model.automatedEvidence
  let catalog := reports.1
  let shared : CoverageView :=
    ⟨model.properties, reports.2, some (compactIdentities platform catalog), context⟩
  let sortedCatalog := catalog.insertionSort (· ≤ ·)
  let sorted : CoverageView :=
    { shared with
      executionIdentityCatalog := some (compactIdentities platform sortedCatalog)
      automatedEvidence := shared.automatedEvidence.map (remapReport catalog sortedCatalog) }
  shorter platform (shorter platform sorted shared) factored

/-- What `compactSourceDocuments` returns: the source, or its different lines in order. -/
inductive SourceView where
  | text (source : JsString)
  | orderedLines (lines : List JsString) (order : List ℕ)

def SourceView.value : SourceView → JsValue
  | .text source => .str source
  | .orderedLines lines order =>
      .record [("encoding", .text "ordered-lines/v1"), ("lines", .arr (lines.map .str)),
        ("order", .arr (order.map countValue))]

/-- `compactSourceDocuments`. -/
def compactSourceDocuments (source : JsString) : SourceView :=
  let lines := internAll [] (cut [0x0A] source)
  let encoded := SourceView.orderedLines lines.1 lines.2
  if jsonLength platform encoded.value < jsonLength platform (.str source) then encoded
  else .text source

end Encode

/-! ## Reading compact forms -/

/-- The identities of a report, of which there are as many as it says. -/
def decodeReport (catalog : List JsString) (report : ReportView) : Option AutomatedEvidence :=
  match report.identities with
  | .plain identities => some ⟨report.metadata, identities⟩
  | .fragments count fragments =>
      let identities := expandIdentities fragments
      if identities.length = count then some ⟨report.metadata, some identities⟩ else none
  | .references count references =>
      (select catalog references).bind fun identities =>
        if identities.length = count then some ⟨report.metadata, some identities⟩ else none

/-- The diagnostics of a catalog. -/
def DiagnosticCatalog.decode (catalog : DiagnosticCatalog) : Option (List JsString) := do
  let origins ← select (expandIdentities catalog.origins) (catalog.entries.map Prod.fst)
  let reasons ← select (expandIdentities catalog.reasons) (catalog.entries.map Prod.snd)
  return origins.zipWith (· ++ ·) reasons

def decodeRecovery (context : ContextView) : Option RecoveryContext :=
  match context.diagnostics with
  | .plain diagnostics => some ⟨context.properties, diagnostics⟩
  | .catalog catalog =>
      catalog.decode.map fun values => ⟨context.properties, .arr (values.map .str)⟩

/-- `COMPACT_IDENTITY_INSTRUCTIONS`: what a compact model stands for. -/
def decodeContext (view : CoverageView) : Option DeliveryModel := do
  let catalog := expandIdentities (view.executionIdentityCatalog.getD [])
  let automatedEvidence ← view.automatedEvidence.mapM (decodeReport catalog)
  let recoveryContext ← view.recoveryContext.mapM decodeRecovery
  return ⟨view.properties, automatedEvidence, recoveryContext⟩

/-- The source for which its lines in order stand. -/
def decodeSource : SourceView → Option JsString
  | .text source => some source
  | .orderedLines lines order => (select lines order).map [0x0A].intercalate

end Hepha.Coverage
