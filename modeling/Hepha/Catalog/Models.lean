import Hepha.Catalog.Contracts
import Hepha.Lib.Table
import Hepha.Rollout.Store

/-!
# The model catalog store

The store keeps the models that the last successful scan of each connection has
found, and the diagnostics of the last scans.  An outcome replaces the models of
one connection and records its diagnostic in one transaction.

Of a model, the store reads its identity and the time of its scan; the rest is
checked and kept as a whole (`Details`).
-/

namespace Hepha.Catalog

open Rollout (newestFirst)

/-- `MAX_CATALOG_MODEL_ID_LENGTH`. -/
def maxModelIdLength : ℕ := 512

/-- `CATALOG_DIAGNOSTIC_RETENTION_LIMIT`. -/
def diagnosticRetentionLimit : ℕ := 20

/-- `CatalogModelRecord`, with its other members as one. -/
structure ModelRecord (δ : Type) where
  connectionId : JsString
  modelId : JsString
  lastSuccessfulScanAt : JsString
  details : δ

/-- The checks of the other members of a model, what their columns keep of them, and the
order of two texts (`localeCompare`). -/
structure Details (δ : Type) where
  valid : δ → Bool
  stored : δ → δ
  localeCompare : JsString → JsString → Ordering

/-- `CatalogScanDiagnostic`. -/
structure ScanDiagnostic where
  diagnosticId : JsString
  connectionId : JsString
  scanCorrelationId : JsString
  outcome : ScanOutcome
  safeMessage : JsString
  httpStatusCode : Option ℕ
  occurredAt : JsString
deriving DecidableEq

/-- `isCatalogScanDiagnostic`. -/
def isScanDiagnostic (value : ScanDiagnostic) : Bool :=
  isBoundedString value.diagnosticId && isBoundedString value.connectionId &&
    isBoundedString value.scanCorrelationId && isBoundedString value.safeMessage &&
    (value.httpStatusCode.all fun code => 100 ≤ code && code ≤ 599) &&
    isCanonicalIsoTimestamp value.occurredAt

/-- The diagnostic as the columns of its row keep it. -/
def ScanDiagnostic.stored (value : ScanDiagnostic) : ScanDiagnostic :=
  { value with
    diagnosticId := value.diagnosticId.toWellFormed
    connectionId := value.connectionId.toWellFormed
    scanCorrelationId := value.scanCorrelationId.toWellFormed
    safeMessage := value.safeMessage.toWellFormed
    occurredAt := value.occurredAt.toWellFormed }

/-- `CatalogStoreScanOutcome`. -/
structure StoreScanOutcome (δ : Type) where
  connectionId : JsString
  models : List (ModelRecord δ)
  diagnostic : ScanDiagnostic

/-- The tables `catalog_models` and `catalog_scan_diagnostics`. -/
structure ModelStore (δ : Type) where
  models : List (ModelRecord δ)
  diagnostics : List ScanDiagnostic

section Store

variable {δ : Type} (columns : Details δ)

/-- `isCatalogModelRecord`. -/
def isModelRecord (value : ModelRecord δ) : Bool :=
  isBoundedString value.connectionId && 0 < value.modelId.length &&
    value.modelId.length ≤ maxModelIdLength && columns.valid value.details &&
    isCanonicalIsoTimestamp value.lastSuccessfulScanAt

/-- `compareCatalogModels`. -/
def compareModels (left right : ModelRecord δ) : Ordering :=
  (columns.localeCompare left.connectionId right.connectionId).then
    (columns.localeCompare left.modelId right.modelId)

/-- `isCatalogStoreScanOutcome`. -/
def isStoreScanOutcome (value : StoreScanOutcome δ) : Bool :=
  isBoundedString value.connectionId && isScanDiagnostic value.diagnostic &&
    value.diagnostic.connectionId == value.connectionId &&
    value.models.all (isModelRecord columns) &&
    (value.models.all fun model => model.connectionId == value.connectionId) &&
    ((value.models.zip value.models.tail).all fun pair =>
      compareModels columns pair.1 pair.2 == .lt) &&
    (value.diagnostic.outcome == .success || value.models.isEmpty)

/-- The row of a model. -/
def ModelRecord.row (value : ModelRecord δ) : ModelRecord δ :=
  { connectionId := value.connectionId.toWellFormed, modelId := value.modelId.toWellFormed
    lastSuccessfulScanAt := value.lastSuccessfulScanAt.toWellFormed
    details := columns.stored value.details }

/-- The primary key of `catalog_models`. -/
def ModelRecord.key (value : ModelRecord δ) : JsString × JsString :=
  (value.connectionId, value.modelId)

/-- `rowToCatalogModel`. -/
def rowToModel (row : ModelRecord δ) : Option (ModelRecord δ) :=
  if isModelRecord columns row then some row else none

/-- `rowToCatalogDiagnostic`. -/
def rowToDiagnostic (row : ScanDiagnostic) : Option ScanDiagnostic :=
  if isScanDiagnostic row then some row else none

namespace ModelStore

/-- The rows of a connection. -/
def modelsOf (store : ModelStore δ) (connectionId : JsString) : List (ModelRecord δ) :=
  store.models.filter fun row => row.connectionId = connectionId.toWellFormed

/-- `deleteModelsForConnection`, of the rows. -/
def withoutModelsOf (store : ModelStore δ) (connectionId : JsString) : List (ModelRecord δ) :=
  store.models.filter fun row => row.connectionId ≠ connectionId.toWellFormed

/-- The diagnostics of a connection, the newest first. -/
def diagnosticsOf (diagnostics : List ScanDiagnostic) (connectionId : JsString) :
    List ScanDiagnostic :=
  newestFirst ScanDiagnostic.occurredAt ScanDiagnostic.diagnosticId
    (diagnostics.filter fun row => row.connectionId = connectionId.toWellFormed)

/-- `deleteOldDiagnostics`, of the rows. -/
def withoutOldDiagnostics (diagnostics : List ScanDiagnostic) (connectionId : JsString) :
    List ScanDiagnostic :=
  let old := ((diagnosticsOf diagnostics connectionId).drop diagnosticRetentionLimit).map
    ScanDiagnostic.diagnosticId
  diagnostics.filter fun row => row.diagnosticId ∉ old

/-- `applyScanOutcome`, `none` where it throws. -/
def applyScanOutcome (store : ModelStore δ) (outcome : StoreScanOutcome δ) :
    Option (ModelStore δ) := do
  guard (isStoreScanOutcome columns outcome)
  let models ← Table.insertAll ModelRecord.key (store.withoutModelsOf outcome.connectionId)
    (outcome.models.map (ModelRecord.row columns))
  let diagnostics ← Table.insert ScanDiagnostic.diagnosticId store.diagnostics
    outcome.diagnostic.stored
  return { models, diagnostics := withoutOldDiagnostics diagnostics outcome.connectionId }

/-- The diagnostic of a failure inserted, or found as it is. -/
def insertOrVerify (diagnostics : List ScanDiagnostic) (diagnostic : ScanDiagnostic) :
    Option (List ScanDiagnostic) :=
  match Table.find ScanDiagnostic.diagnosticId diagnostics diagnostic.diagnosticId.toWellFormed with
  | none => Table.insert ScanDiagnostic.diagnosticId diagnostics diagnostic.stored
  | some row => if rowToDiagnostic row = some diagnostic then some diagnostics else none

/-- `applyIdempotentFailureOutcome`, `none` where it throws. -/
def applyIdempotentFailureOutcome (store : ModelStore δ) (outcome : StoreScanOutcome δ) :
    Option (ModelStore δ) := do
  guard (isStoreScanOutcome columns outcome)
  guard (outcome.models.isEmpty ∧ outcome.diagnostic.outcome ≠ .success)
  let diagnostics ← insertOrVerify store.diagnostics outcome.diagnostic
  return { models := store.withoutModelsOf outcome.connectionId
           diagnostics := withoutOldDiagnostics diagnostics outcome.connectionId }

/-- `listModelsForConnection`, `none` where a row cannot be read. -/
def listModelsForConnection (store : ModelStore δ) (connectionId : JsString) :
    Option (List (ModelRecord δ)) :=
  ((store.modelsOf connectionId).insertionSort fun left right =>
    left.modelId.codePoints ≤ right.modelId.codePoints).mapM (rowToModel columns)

/-- `listDiagnostics`, `none` where it throws. -/
def listDiagnostics (store : ModelStore δ) (connectionId : JsString) (limit : ℕ) :
    Option (List ScanDiagnostic) :=
  if 1 ≤ limit ∧ limit ≤ diagnosticRetentionLimit then
    ((diagnosticsOf store.diagnostics connectionId).take limit).mapM rowToDiagnostic
  else none

end ModelStore

end Store

/-! ## What the operations do to the models of a connection -/

namespace ModelStore

variable {δ : Type} {columns : Details δ} {store after : ModelStore δ} {connectionId : JsString}
  {outcome : StoreScanOutcome δ}

theorem modelsOf_withoutModelsOf (other : JsString) {diagnostics : List ScanDiagnostic} :
    modelsOf ⟨store.withoutModelsOf connectionId, diagnostics⟩ other =
      if other.toWellFormed = connectionId.toWellFormed then [] else store.modelsOf other := by
  rw [modelsOf, withoutModelsOf, List.filter_filter]
  split
  · next h =>
      refine List.filter_eq_nil_iff.mpr fun row _ => ?_
      simp [h]
  · next h =>
      refine List.filter_congr fun row _ => ?_
      simp only [Bool.and_eq_left_iff_imp, decide_eq_true_eq]
      exact fun hrow => hrow ▸ h

theorem modelsOf_applyIdempotentFailureOutcome
    (h : store.applyIdempotentFailureOutcome columns outcome = some after) (other : JsString) :
    after.modelsOf other =
      if other.toWellFormed = outcome.connectionId.toWellFormed then [] else store.modelsOf other := by
  simp only [applyIdempotentFailureOutcome, Option.bind_eq_bind, Option.bind_eq_some_iff,
    Option.guard_eq_some', exists_and_left, exists_const, Option.pure_def, Option.some.injEq] at h
  obtain ⟨-, -, diagnostics, -, rfl⟩ := h
  exact modelsOf_withoutModelsOf other

theorem modelsOf_applyScanOutcome (h : store.applyScanOutcome columns outcome = some after)
    (other : JsString) :
    after.modelsOf other =
      if other.toWellFormed = outcome.connectionId.toWellFormed then
        outcome.models.map (ModelRecord.row columns) else store.modelsOf other := by
  simp only [applyScanOutcome, Option.bind_eq_bind, Option.bind_eq_some_iff,
    Option.guard_eq_some', exists_and_left, exists_const, Option.pure_def, Option.some.injEq] at h
  obtain ⟨hvalid, models, hmodels, diagnostics, -, rfl⟩ := h
  obtain ⟨-, -, rfl⟩ := Table.insertAll_eq_some.1 hmodels
  have hconnection : ∀ row ∈ outcome.models.map (ModelRecord.row columns),
      row.connectionId = outcome.connectionId.toWellFormed := by
    simp only [isStoreScanOutcome, Bool.and_eq_true, List.all_eq_true, beq_iff_eq] at hvalid
    intro row hrow
    obtain ⟨model, hmodel, rfl⟩ := List.mem_map.mp hrow
    exact congrArg JsString.toWellFormed (hvalid.1.1.2 model hmodel)
  have hkept := @modelsOf_withoutModelsOf δ store outcome.connectionId other diagnostics
  rw [modelsOf] at hkept
  rw [modelsOf, List.filter_append, hkept]
  split
  · next h =>
      rw [List.nil_append]
      exact List.filter_eq_self.mpr fun row hrow => decide_eq_true ((hconnection row hrow).trans h.symm)
  · next h =>
      rw [List.filter_eq_nil_iff.mpr, List.append_nil]
      exact fun row hrow hother => h ((of_decide_eq_true hother).symm.trans (hconnection row hrow))

theorem mapM_rowToModel {rows models : List (ModelRecord δ)}
    (h : rows.mapM (rowToModel columns) = some models) : models = rows := by
  induction rows generalizing models with
  | nil => exact (Option.some.inj h).symm
  | cons row rest ih =>
      simp only [List.mapM_cons, rowToModel, Option.bind_eq_bind, Option.bind_eq_some_iff,
        Option.ite_none_right_eq_some, Option.pure_def, Option.some.injEq] at h
      obtain ⟨_, ⟨-, rfl⟩, others, hothers, rfl⟩ := h
      rw [ih hothers]

/-- The models of a connection that can be listed are its rows. -/
theorem length_listModelsForConnection {models : List (ModelRecord δ)}
    (h : store.listModelsForConnection columns connectionId = some models) :
    models.length = (store.modelsOf connectionId).length := by
  rw [mapM_rowToModel h, List.length_insertionSort]

end ModelStore

end Hepha.Catalog
