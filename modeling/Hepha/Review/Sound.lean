import Hepha.Lib.Acyclic
import Hepha.Review.Coverage
import Mathlib.Data.List.Induction

/-!
# The history of the review evidence

What holds of the tables after any sequence of ingestions: the lineage and the
cycles lead backwards in the order in which they were stored, a receipt covers
its response, and a gate decision rests on what is stored in its scope.  An
ingestion keeps this because whatever a new row refers to is in the tables
before it, or is the new artifact or cycle itself.

* `Consistent.withEvidence`: one accepted ingestion;
* `run_consistent`: every sequence of ingestions;
* `run_sound`: what this says of the tables.
-/

namespace Hepha.Review

open JsValue Relation

/-! ## What the tables promise -/

namespace Database

variable (db : Database)

def lineageEdge (artifactHash predecessorHash : JsString) : Prop :=
  ∃ relation, ⟨artifactHash, predecessorHash, relation⟩ ∈ db.lineage

def cycleEdge (cycleId predecessorCycleId : JsString) : Prop :=
  ∃ cycle ∈ db.cycles, cycle.cycleId = cycleId ∧
    cycle.predecessorCycleId = some predecessorCycleId

/-- The rows of a receipt. -/
def rowsOf (receiptHash : JsString) : List ReviewVerificationReceiptInput :=
  db.verificationReceipts.filter fun row => row.receiptHash = receiptHash

/-- An artifact of the scope is stored under the hash. -/
def InScope (scope : ReviewScope) (contentHash : JsString) : Prop :=
  ∃ artifact ∈ db.artifacts, artifact.contentHash = contentHash ∧ artifact.scope = scope

end Database

/-- Two stored artifacts of the same kind and scope. -/
def LineageAgrees (db : Database) (artifactHash predecessorHash : JsString) : Prop :=
  ∃ artifact ∈ db.artifacts, ∃ predecessor ∈ db.artifacts,
    artifact.contentHash = artifactHash ∧ predecessor.contentHash = predecessorHash ∧
      artifact.artifactKind = predecessor.artifactKind ∧ artifact.scope = predecessor.scope

/-- The reference in a text of an artifact names a stored one of its scope. -/
structure Referenced (db : Database) (artifact : StoredReviewArtifact) (reference : JsValue)
    (kind : ReviewStoreArtifactKind) (target : StoredReviewArtifact) : Prop where
  stored : target ∈ db.artifacts
  refers : refersTo reference target = true
  kind : target.artifactKind = kind
  scope : target.scope = artifact.scope

/-- The rows of a receipt cover the response and the basis manifest that it refers to. -/
def ReceiptCovered (platform : Platform) (db : Database) (receipt : StoredReviewArtifact) :
    Prop :=
  ∃ payload responsePayload basisPayload response manifest responses basis,
    platform.parseJson receipt.canonicalJson = some payload ∧
    Referenced db receipt (payload.get (js "responseReference")) .remediationResponse response ∧
    platform.parseJson response.canonicalJson = some responsePayload ∧
    readFindingResponses responsePayload = some responses ∧
    Referenced db receipt (payload.get (js "manifestReference")) .reviewManifest manifest ∧
    platform.parseJson manifest.canonicalJson = some basisPayload ∧
    findingsById basisPayload = some basis ∧
    Covers (db.rowsOf receipt.contentHash) responses basis

/-- What a gate decision names is stored in its scope. -/
structure GateBound (db : Database) (gate : StoredReviewGateDecision) : Prop where
  trigger : db.InScope gate.scope gate.triggerArtifactHash
  basis : db.InScope gate.scope gate.basisManifestHash
  cycle : ∀ cycleId, gate.cycleId = some cycleId →
    ∃ cycle ∈ db.cycles, cycle.cycleId = cycleId ∧ cycle.scope = gate.scope
  evidence : ∀ evidence ∈ gate.evidenceHashes, db.InScope gate.scope evidence

/-- **The tables of the review evidence are in order.** -/
structure Sound (platform : Platform) (db : Database) : Prop where
  lineage_acyclic : Acyclic db.lineageEdge
  lineage_agrees : ∀ a b, db.lineageEdge a b → LineageAgrees db a b
  cycles_acyclic : Acyclic db.cycleEdge
  cycles_agree : ∀ cycle ∈ db.cycles, ∀ cycleId,
    ReflTransGen db.cycleEdge cycle.cycleId cycleId →
      ∃ other ∈ db.cycles, other.cycleId = cycleId ∧ other.scope = cycle.scope ∧
        other.basisManifestHash = cycle.basisManifestHash
  receipts_covered : ∀ receipt ∈ db.artifacts, receipt.artifactKind = .verificationReceipt →
    ReceiptCovered platform db receipt
  gates_bound : ∀ gate ∈ db.gateDecisions, GateBound db gate

/-! ## What an ingestion keeps -/

/-- The predecessor of a cycle is stored, for the same scope and manifest. -/
def CycleAgrees (db : Database) (cycle : StoredReviewRemediationCycle) : Prop :=
  ∀ predecessor, cycle.predecessorCycleId = some predecessor →
    ∃ other ∈ db.cycles, other.cycleId = predecessor ∧ other.scope = cycle.scope ∧
      other.basisManifestHash = cycle.basisManifestHash

/-- The invariant of the tables. -/
structure Consistent (platform : Platform) (db : Database) : Prop where
  lineage_backward : Backward (db.artifacts.map (·.contentHash)) db.lineageEdge
  lineage_agrees : ∀ a b, db.lineageEdge a b → LineageAgrees db a b
  cycles_nodup : (db.cycles.map (·.cycleId)).Nodup
  cycles_backward : Backward (db.cycles.map (·.cycleId)) db.cycleEdge
  cycles_agree : ∀ cycle ∈ db.cycles, CycleAgrees db cycle
  receipts_stored : ∀ row ∈ db.verificationReceipts,
    row.receiptHash ∈ db.artifacts.map (·.contentHash)
  receipts_covered : ∀ receipt ∈ db.artifacts, receipt.artifactKind = .verificationReceipt →
    ReceiptCovered platform db receipt
  gates_bound : ∀ gate ∈ db.gateDecisions, GateBound db gate

theorem consistent_empty (platform : Platform) : Consistent platform .empty where
  lineage_backward := fun _ _ ⟨_, h⟩ => absurd h List.not_mem_nil
  lineage_agrees := fun _ _ ⟨_, h⟩ => absurd h List.not_mem_nil
  cycles_nodup := List.nodup_nil
  cycles_backward := fun _ _ ⟨_, h, _⟩ => absurd h List.not_mem_nil
  cycles_agree := fun _ h => absurd h List.not_mem_nil
  receipts_stored := fun _ h => absurd h List.not_mem_nil
  receipts_covered := fun _ h => absurd h List.not_mem_nil
  gates_bound := fun _ h => absurd h List.not_mem_nil

variable {platform : Platform} {db : Database}

/-- A cycle that is reached along predecessors is of the same scope and manifest. -/
theorem Consistent.cycle_chain (h : Consistent platform db) {cycle : StoredReviewRemediationCycle}
    (hcycle : cycle ∈ db.cycles) {cycleId : JsString}
    (hpath : ReflTransGen db.cycleEdge cycle.cycleId cycleId) :
    ∃ other ∈ db.cycles, other.cycleId = cycleId ∧ other.scope = cycle.scope ∧
      other.basisManifestHash = cycle.basisManifestHash := by
  induction hpath with
  | refl => exact ⟨cycle, hcycle, rfl, rfl, rfl⟩
  | tail _ hedge ih =>
      obtain ⟨other, hother, hid, hscope, hbasis⟩ := ih
      obtain ⟨source, hsource, hsourceId, hpredecessor⟩ := hedge
      obtain rfl := List.inj_on_of_nodup_map h.cycles_nodup hsource hother
        (hsourceId.trans hid.symm)
      obtain ⟨next, hnext, hnextId, hnextScope, hnextBasis⟩ :=
        h.cycles_agree source hsource _ hpredecessor
      exact ⟨next, hnext, hnextId, hnextScope.trans hscope, hnextBasis.trans hbasis⟩

theorem Consistent.sound (h : Consistent platform db) : Sound platform db where
  lineage_acyclic := h.lineage_backward.acyclic
  lineage_agrees := h.lineage_agrees
  cycles_acyclic := h.cycles_backward.acyclic
  cycles_agree := fun _ hcycle _ => h.cycle_chain hcycle
  receipts_covered := h.receipts_covered
  gates_bound := h.gates_bound

/-! ## What the checks have found -/

variable {catalog : Catalog} {input : ReviewIngestInput} {reviewRunId : JsString}

theorem getByHash_some {contentHash : JsString} {artifact : StoredReviewArtifact}
    (h : db.getByHash contentHash = some artifact) :
    artifact ∈ db.artifacts ∧ artifact.contentHash = contentHash :=
  Table.mem_of_find h

theorem not_mem_of_hasArtifact {contentHash : JsString} (h : db.hasArtifact contentHash = false) :
    contentHash ∉ db.artifacts.map (·.contentHash) := by
  intro hmem
  obtain ⟨artifact, hartifact, hhash⟩ := List.mem_map.mp hmem
  simp only [Database.hasArtifact, Option.isSome_eq_false_iff, Option.isNone_iff_eq_none] at h
  exact Table.find_eq_none_iff.1 h artifact hartifact hhash

theorem not_mem_of_hasCycle {cycleId : JsString} (h : db.hasCycle cycleId = false) :
    cycleId ∉ db.cycles.map (·.cycleId) := by
  intro hmem
  obtain ⟨cycle, hcycle, hid⟩ := List.mem_map.mp hmem
  simp only [Database.hasCycle, Option.isSome_eq_false_iff, Option.isNone_iff_eq_none] at h
  exact Table.find_eq_none_iff.1 h cycle hcycle hid

/-- An edge of the new artifact leads to a stored one of its kind and scope. -/
theorem lineageRows_resolved (h : validateLineageResolved db input = true)
    {row : StoredReviewArtifactLineage} (hrow : row ∈ lineageRows input) :
    row.artifactHash = input.contentHash ∧ ∃ stored ∈ db.artifacts,
      stored.contentHash = row.predecessorHash ∧ stored.scope = input.scope ∧
        stored.artifactKind = input.artifactKind := by
  have hresolved : ∀ reference, isLineageResolved db input reference = true →
      ∃ stored ∈ db.artifacts, stored.contentHash = reference.contentHash ∧
        stored.scope = input.scope ∧ stored.artifactKind = input.artifactKind := by
    intro reference hreference
    simp only [isLineageResolved, Bool.and_eq_true, Option.any_eq_true, decide_eq_true_eq]
      at hreference
    obtain ⟨-, stored, hstored, ⟨⟨⟨hscope, hkind⟩, -⟩, -⟩, -⟩ := hreference
    obtain ⟨hmem, hhash⟩ := getByHash_some hstored
    exact ⟨stored, hmem, hhash, hscope, hkind⟩
  simp only [validateLineageResolved, Bool.and_eq_true, List.all_eq_true] at h
  obtain ⟨⟨hpredecessors, -⟩, hsupersedes⟩ := h
  rcases List.mem_append.mp hrow with hmem | hmem
  · obtain ⟨predecessorHash, hhash, rfl⟩ := List.mem_map.mp hmem
    obtain ⟨reference, hreference, rfl⟩ := List.mem_map.mp hhash
    exact ⟨rfl, hresolved reference (hpredecessors reference hreference)⟩
  · obtain ⟨supersedesHash, hhash, rfl⟩ := List.mem_map.mp hmem
    obtain ⟨reference, hreference, rfl⟩ :=
      Option.map_eq_some_iff.mp (Option.mem_toList.mp hhash)
    rw [hreference, Option.all_some, Bool.and_eq_true] at hsupersedes
    exact ⟨rfl, hresolved reference hsupersedes.1⟩

/-- A cycle that an input names is its own or a stored one. -/
theorem isCycleOfManifest_cases {cycleId : JsString}
    (h : isCycleOfManifest db input cycleId = true) :
    (∃ cycle, input.cycle = some cycle ∧ cycle.cycleId = cycleId) ∨
      ∃ row ∈ db.cycles, row.cycleId = cycleId ∧ row.scope = input.scope ∧
        row.basisManifestHash = input.manifestHash := by
  unfold isCycleOfManifest at h
  split at h
  · rename_i hown
    simp only [Option.any_eq_true, decide_eq_true_eq] at hown
    exact Or.inl hown
  · simp only [Option.any_eq_true, Bool.and_eq_true, decide_eq_true_eq] at h
    obtain ⟨row, hrow, hscope, hbasis⟩ := h
    obtain ⟨hmem, hid⟩ := Table.mem_of_find hrow
    exact Or.inr ⟨row, hmem, hid, hscope, hbasis⟩

/-- The manifest that an input names is its own artifact or stored in its scope. -/
theorem isManifestInScope_cases {manifestHash : JsString}
    (h : isManifestInScope db input manifestHash = true) :
    manifestHash = input.contentHash ∨ db.InScope input.scope manifestHash := by
  simp only [isManifestInScope, Bool.or_eq_true, Bool.and_eq_true, Option.any_eq_true,
    decide_eq_true_eq] at h
  rcases h with ⟨-, hown⟩ | ⟨⟨artifact, hartifact, -, hscope⟩, -⟩
  · exact Or.inl hown
  · obtain ⟨hmem, hhash⟩ := getByHash_some hartifact
    exact Or.inr ⟨artifact, hmem, hhash, hscope⟩

theorem isCycleBound_predecessor {cycle : ReviewRemediationCycleInput}
    (hinput : input.cycle = some cycle) (h : isCycleBound db input cycle = true)
    {predecessor : JsString}
    (hpredecessor : cycle.predecessorCycleId = some predecessor) :
    ∃ row ∈ db.cycles, row.cycleId = predecessor ∧ row.scope = input.scope ∧
      row.basisManifestHash = cycle.basisManifestHash := by
  simp only [isCycleBound, hpredecessor, Option.all_some, Bool.and_eq_true, decide_eq_true_eq] at h
  obtain ⟨⟨hbasis, -⟩, ⟨hother, hcycle⟩, -⟩ := h
  rcases isCycleOfManifest_cases hcycle with ⟨own, hown, hid⟩ | ⟨row, hmem, hid, hscope, hrow⟩
  · rw [hinput] at hown
    cases hown
    exact absurd hid.symm hother
  · exact ⟨row, hmem, hid, hscope, hrow.trans hbasis.symm⟩

/-- What the checks before the transaction have established. -/
structure Bound (platform : Platform) (db : Database) (input : ReviewIngestInput) : Prop where
  manifest : isManifestInScope db input input.manifestHash = true
  lineage : validateLineageResolved db input = true
  cycle : ∀ cycle, input.cycle = some cycle → isCycleBound db input cycle = true
  gate : ∀ gate, input.gateDecision = some gate → isGateDecisionBound db input gate = true
  rows : ∀ row ∈ input.verificationReceipts.getD [], row.receiptHash = input.contentHash
  receipt : input.artifactKind = .verificationReceipt →
    ∃ payload responsePayload basisPayload response manifest responses basis,
      platform.parseJson input.canonicalJson = some payload ∧
      Referenced db input.toStoredReviewArtifact (payload.get (js "responseReference"))
        .remediationResponse response ∧
      platform.parseJson response.canonicalJson = some responsePayload ∧
      readFindingResponses responsePayload = some responses ∧
      Referenced db input.toStoredReviewArtifact (payload.get (js "manifestReference"))
        .reviewManifest manifest ∧
      platform.parseJson manifest.canonicalJson = some basisPayload ∧
      findingsById basisPayload = some basis ∧
      Covers (input.verificationReceipts.getD []) responses basis

/-- Only a receipt brings receipt rows, and they are its own. -/
theorem isKindBound_rows {basis : List (JsString × JsValue)} {payload : JsValue}
    {responsePayload : Option JsValue}
    (h : isKindBound platform catalog db input reviewRunId basis payload responsePayload = true) :
    ∀ row ∈ input.verificationReceipts.getD [], row.receiptHash = input.contentHash := by
  intro row hrow
  have hempty : (input.verificationReceipts.getD []).isEmpty ≠ true := by
    rw [ne_eq, List.isEmpty_iff]
    exact List.ne_nil_of_mem hrow
  unfold isKindBound at h
  cases hkind : input.artifactKind with
  | reviewManifest => simp_all
  | remediationResponse => simp_all
  | replanPlan => simp_all
  | debtObservation => simp_all
  | verificationReceipt =>
      simp only [hkind, Bool.and_eq_true, Option.any_eq_true] at h
      obtain ⟨-, value, -, hbound⟩ := h
      simp only [isReceiptBound, Option.any_eq_true, Bool.and_eq_true, List.all_eq_true,
        decide_eq_true_eq] at hbound
      obtain ⟨_, -, _, -, _, -, -, hall⟩ := hbound
      exact (hall row hrow).1.2

/-- The references of a receipt. -/
theorem resolveReferences_receipt {payload : JsValue} {responsePayload : Option JsValue}
    (hkind : input.artifactKind = .verificationReceipt)
    (h : resolveReferences platform db input payload = some responsePayload) :
    ∃ manifest response value, db.getByHash input.manifestHash = some manifest ∧
      refersTo (payload.get (js "manifestReference")) manifest = true ∧
      Referenced db input.toStoredReviewArtifact (payload.get (js "responseReference"))
        .remediationResponse response ∧
      platform.parseJson response.canonicalJson = some value ∧ responsePayload = some value := by
  simp only [resolveReferences, hkind, reduceCtorEq, if_false, if_true, Option.bind_eq_bind,
    Option.bind_eq_some_iff, Option.guard_eq_some', responseOf, Bool.and_eq_true,
    decide_eq_true_eq] at h
  obtain ⟨manifest, hmanifest, _, hrefers, ⟨response, value⟩, hresponse, heq⟩ := h
  obtain ⟨responseHash, -, stored, hstored, _, ⟨⟨hresponseKind, hscope⟩, hreference⟩, parsed,
    hparsed, _, -, hpair⟩ := hresponse
  cases hpair
  exact ⟨manifest, response, value, hmanifest, hrefers,
    ⟨(getByHash_some hstored).1, hreference, hresponseKind, hscope⟩, hparsed,
    (Option.some.inj heq).symm⟩

/-- **What the checks of an accepted ingestion have established.** -/
theorem prepare_bound {rawInput : JsValue}
    (h : prepare platform catalog db rawInput = some (input, reviewRunId))
    (hnew : db.hasArtifact input.contentHash = false) : Bound platform db input := by
  simp only [prepare, Option.bind_eq_bind, Option.bind_eq_some_iff] at h
  obtain ⟨validated, hvalid, runId, hrun, _, hbindings, heq⟩ := h
  cases heq
  obtain ⟨⟨artifact, hparse, hcurrent⟩, hmanifest, hplain⟩ := validateReviewIngestInput_some hvalid
  simp only [validateAggregateBindings, Option.bind_eq_bind, Option.bind_eq_some_iff,
    Option.guard_eq_some', Option.all_eq_true] at hbindings
  obtain ⟨_, hmanifestInScope, payload, hpayload, responsePayload, hreferences, _, hlineage, _,
    hcycle, _, hgate, basisText, hbasisText, basisPayload, hbasisPayload, basis, hbasis,
    hkindBound⟩ := hbindings
  obtain rfl := Option.some.inj (hpayload.symm.trans hparse)
  refine ⟨hmanifestInScope, hlineage, hcycle, hgate, isKindBound_rows hkindBound, fun hkind => ?_⟩
  obtain ⟨manifest, response, value, hmanifest, hrefers, hresponse, hvalue, rfl⟩ :=
    resolveReferences_receipt hkind hreferences
  have hstored : input.manifestHash ≠ input.contentHash := by
    intro hsame
    rw [hsame] at hmanifest
    simp [Database.hasArtifact, hmanifest] at hnew
  rw [basisJson, if_neg hstored, hmanifest, Option.map_some] at hbasisText
  obtain rfl := Option.some.inj hbasisText
  simp only [isManifestInScope, hkind, reduceCtorEq, decide_false, Bool.false_and, Bool.false_or,
    hmanifest, Option.any_some, Bool.and_eq_true, decide_eq_true_eq] at hmanifestInScope
  obtain ⟨⟨hmanifestKind, hmanifestScope⟩, -⟩ := hmanifestInScope
  simp only [isKindBound, hkind, Option.any_some, Bool.and_eq_true] at hkindBound
  have hreceipt := hkindBound.2
  have hresponses : ∃ responses, readFindingResponses value = some responses := by
    simp only [isReceiptBound, Option.any_eq_true] at hreceipt
    obtain ⟨responses, hread, -⟩ := hreceipt
    exact ⟨responses, hread⟩
  obtain ⟨responses, hread⟩ := hresponses
  have hreceiptShape : isVerificationReceipt payload = true := by
    simp only [isCurrentV1Artifact, hkind, Bool.and_eq_true] at hcurrent
    exact hcurrent.2.2
  exact ⟨payload, value, basisPayload, response, manifest, responses, basis, hpayload, hresponse,
    hvalue, hread, ⟨(getByHash_some hmanifest).1, hrefers, hmanifestKind, hmanifestScope⟩,
    hbasisPayload, hbasis, covers_of_isReceiptBound hread hreceiptShape hplain hreceipt⟩

/-! ## One ingestion -/

section Keep

theorem Referenced.withEvidence {artifact target : StoredReviewArtifact} {reference : JsValue}
    {kind : ReviewStoreArtifactKind} (h : Referenced db artifact reference kind target) :
    Referenced (db.withEvidence input) artifact reference kind target :=
  ⟨List.mem_append_left _ h.stored, h.refers, h.kind, h.scope⟩

theorem inScope_withEvidence {scope : ReviewScope} {contentHash : JsString}
    (h : db.InScope scope contentHash) : (db.withEvidence input).InScope scope contentHash := by
  obtain ⟨artifact, hmem, hhash, hscope⟩ := h
  exact ⟨artifact, List.mem_append_left _ hmem, hhash, hscope⟩

theorem inScope_new : (db.withEvidence input).InScope input.scope input.contentHash :=
  ⟨input.toStoredReviewArtifact, by simp [Database.withEvidence], rfl, rfl⟩

/-- A stored receipt keeps its rows. -/
theorem rowsOf_withEvidence_of_ne (hbound : Bound platform db input) {receiptHash : JsString}
    (hne : receiptHash ≠ input.contentHash) :
    (db.withEvidence input).rowsOf receiptHash = db.rowsOf receiptHash := by
  rw [Database.rowsOf, Database.withEvidence, List.filter_append]
  have hnone : (input.verificationReceipts.getD []).filter
      (fun row => row.receiptHash = receiptHash) = [] := by
    rw [List.filter_eq_nil_iff]
    intro row hrow hhash
    exact hne ((of_decide_eq_true hhash).symm.trans (hbound.rows row hrow))
  rw [hnone, List.append_nil]
  rfl

/-- The rows of a new receipt are those of its input. -/
theorem rowsOf_withEvidence_new (hnew : db.hasArtifact input.contentHash = false)
    (hbound : Bound platform db input)
    (hstored : ∀ row ∈ db.verificationReceipts,
      row.receiptHash ∈ db.artifacts.map (·.contentHash)) :
    (db.withEvidence input).rowsOf input.contentHash = input.verificationReceipts.getD [] := by
  rw [Database.rowsOf, Database.withEvidence, List.filter_append]
  have hold : db.verificationReceipts.filter
      (fun row => row.receiptHash = input.contentHash) = [] := by
    rw [List.filter_eq_nil_iff]
    intro row hrow hhash
    exact not_mem_of_hasArtifact hnew (of_decide_eq_true hhash ▸ hstored row hrow)
  have hown : (input.verificationReceipts.getD []).filter
      (fun row => row.receiptHash = input.contentHash) = input.verificationReceipts.getD [] := by
    rw [List.filter_eq_self]
    intro row hrow
    exact decide_eq_true (hbound.rows row hrow)
  rw [hold, hown, List.nil_append]

theorem ReceiptCovered.withEvidence (hbound : Bound platform db input)
    {receipt : StoredReviewArtifact} (hne : receipt.contentHash ≠ input.contentHash)
    (h : ReceiptCovered platform db receipt) :
    ReceiptCovered platform (db.withEvidence input) receipt := by
  obtain ⟨payload, value, basisPayload, response, manifest, responses, basis, hpayload, hresponse,
    hvalue, hread, hmanifest, hbasisPayload, hbasis, hcovers⟩ := h
  refine ⟨payload, value, basisPayload, response, manifest, responses, basis, hpayload,
    hresponse.withEvidence, hvalue, hread, hmanifest.withEvidence, hbasisPayload, hbasis, ?_⟩
  rwa [rowsOf_withEvidence_of_ne hbound hne]

theorem receiptCovered_new (hnew : db.hasArtifact input.contentHash = false)
    (hbound : Bound platform db input)
    (hstored : ∀ row ∈ db.verificationReceipts,
      row.receiptHash ∈ db.artifacts.map (·.contentHash))
    (hkind : input.artifactKind = .verificationReceipt) :
    ReceiptCovered platform (db.withEvidence input) input.toStoredReviewArtifact := by
  obtain ⟨payload, value, basisPayload, response, manifest, responses, basis, hpayload, hresponse,
    hvalue, hread, hmanifest, hbasisPayload, hbasis, hcovers⟩ := hbound.receipt hkind
  refine ⟨payload, value, basisPayload, response, manifest, responses, basis, hpayload,
    hresponse.withEvidence, hvalue, hread, hmanifest.withEvidence, hbasisPayload, hbasis, ?_⟩
  rwa [rowsOf_withEvidence_new hnew hbound hstored]

/-- An edge of the lineage is an old one or leads from the new artifact to a stored one. -/
theorem lineageEdge_withEvidence (hbound : Bound platform db input) {a b : JsString}
    (h : (db.withEvidence input).lineageEdge a b) :
    db.lineageEdge a b ∨ a = input.contentHash ∧ ∃ stored ∈ db.artifacts,
      stored.contentHash = b ∧ stored.scope = input.scope ∧
        stored.artifactKind = input.artifactKind := by
  obtain ⟨relation, hmem⟩ := h
  rcases List.mem_append.mp hmem with hold | hrow
  · exact Or.inl ⟨relation, hold⟩
  · exact Or.inr (lineageRows_resolved hbound.lineage hrow)

theorem LineageAgrees.withEvidence {a b : JsString} (h : LineageAgrees db a b) :
    LineageAgrees (db.withEvidence input) a b := by
  obtain ⟨artifact, hartifact, predecessor, hpredecessor, hagrees⟩ := h
  exact ⟨artifact, List.mem_append_left _ hartifact, predecessor,
    List.mem_append_left _ hpredecessor, hagrees⟩

/-- An edge between cycles is an old one or leads from the new cycle to its predecessor. -/
theorem cycleEdge_withEvidence (hbound : Bound platform db input) {a b : JsString}
    (h : (db.withEvidence input).cycleEdge a b) :
    db.cycleEdge a b ∨ ∃ cycle, input.cycle = some cycle ∧ a = cycle.cycleId ∧
      ∃ row ∈ db.cycles, row.cycleId = b ∧ row.scope = input.scope ∧
        row.basisManifestHash = cycle.basisManifestHash := by
  obtain ⟨row, hrow, hid, hpredecessor⟩ := h
  rcases List.mem_append.mp hrow with hold | hmem
  · exact Or.inl ⟨row, hold, hid, hpredecessor⟩
  · obtain ⟨cycle, hcycle, rfl⟩ := List.mem_map.mp hmem
    have hinput := Option.mem_toList.mp hcycle
    exact Or.inr ⟨cycle, hinput, hid.symm,
      isCycleBound_predecessor hinput (hbound.cycle cycle hinput) hpredecessor⟩

theorem GateBound.withEvidence {gate : StoredReviewGateDecision} (h : GateBound db gate) :
    GateBound (db.withEvidence input) gate where
  trigger := inScope_withEvidence h.trigger
  basis := inScope_withEvidence h.basis
  cycle := fun cycleId hcycle => by
    obtain ⟨cycle, hmem, hid, hscope⟩ := h.cycle cycleId hcycle
    exact ⟨cycle, List.mem_append_left _ hmem, hid, hscope⟩
  evidence := fun evidence hevidence => inScope_withEvidence (h.evidence evidence hevidence)

theorem gateBound_new {decision : ReviewGateDecisionInput} {gates : List StoredReviewGateDecision}
    (h : isGateDecisionBound db input decision = true) :
    GateBound (db.withEvidence input) (gateRow input gates decision) := by
  simp only [isGateDecisionBound, Bool.and_eq_true, decide_eq_true_eq, List.all_eq_true,
    Bool.or_eq_true, Option.any_eq_true] at h
  obtain ⟨⟨⟨⟨htrigger, hbasis⟩, hmanifest⟩, hcycle⟩, hevidence⟩ := h
  refine ⟨?_, ?_, fun cycleId hid => ?_, fun evidence hmem => ?_⟩
  · exact htrigger ▸ inScope_new
  · change (db.withEvidence input).InScope input.scope decision.basisManifestHash
    rcases isManifestInScope_cases hmanifest with hown | hstored
    · exact hown ▸ inScope_new
    · exact inScope_withEvidence hstored
  · change decision.cycleId = some cycleId at hid
    rw [hid, Option.all_some] at hcycle
    rcases isCycleOfManifest_cases hcycle with ⟨cycle, hinput, rfl⟩ | ⟨row, hrow, hrowId, hscope, -⟩
    · refine ⟨cycleRow input cycle, List.mem_append_right _ ?_, rfl, rfl⟩
      exact List.mem_map_of_mem (Option.mem_toList.mpr hinput)
    · exact ⟨row, List.mem_append_left _ hrow, hrowId, hscope⟩
  · rcases hevidence evidence hmem with rfl | ⟨artifact, hartifact, hscope⟩
    · exact inScope_new
    · obtain ⟨hartifactMem, hhash⟩ := getByHash_some hartifact
      exact inScope_withEvidence ⟨artifact, hartifactMem, hhash, hscope⟩

/-- **An accepted ingestion keeps the tables consistent.** -/
theorem Consistent.withEvidence (h : Consistent platform db) (hbound : Bound platform db input)
    (hnew : db.hasArtifact input.contentHash = false)
    (hcycle : ∀ cycle, input.cycle = some cycle → db.hasCycle cycle.cycleId = false) :
    Consistent platform (db.withEvidence input) where
  lineage_backward := by
    rw [Database.withEvidence, List.map_append, List.map_singleton]
    refine h.lineage_backward.append (not_mem_of_hasArtifact hnew) fun a b hedge => ?_
    rcases lineageEdge_withEvidence hbound hedge with hold | ⟨rfl, stored, hmem, rfl, -⟩
    · exact Or.inl hold
    · exact Or.inr ⟨rfl, List.mem_map_of_mem hmem⟩
  lineage_agrees := fun a b hedge => by
    rcases lineageEdge_withEvidence hbound hedge with
      hold | ⟨rfl, stored, hmem, hhash, hscope, hkind⟩
    · exact (h.lineage_agrees a b hold).withEvidence
    · exact ⟨input.toStoredReviewArtifact, by simp [Database.withEvidence], stored,
        List.mem_append_left _ hmem, rfl, hhash, hkind.symm, hscope.symm⟩
  cycles_nodup := by
    cases hinput : input.cycle with
    | none => simpa [Database.withEvidence, hinput] using h.cycles_nodup
    | some cycle =>
        rw [Database.withEvidence, hinput]
        refine Table.nodup_append h.cycles_nodup fun row hrow heq => ?_
        exact not_mem_of_hasCycle (hcycle cycle hinput)
          (heq ▸ List.mem_map_of_mem (f := fun c : StoredReviewRemediationCycle => c.cycleId) hrow)
  cycles_backward := by
    cases hinput : input.cycle with
    | none =>
        have hcycles : (db.withEvidence input).cycles = db.cycles := by
          simp [Database.withEvidence, hinput]
        rw [hcycles]
        refine h.cycles_backward.mono fun a b hedge => ?_
        rcases cycleEdge_withEvidence hbound hedge with hold | ⟨cycle, hsome, -⟩
        · exact hold
        · rw [hinput] at hsome
          cases hsome
    | some cycle =>
        have hcycles : (db.withEvidence input).cycles.map (·.cycleId) =
            db.cycles.map (·.cycleId) ++ [cycle.cycleId] := by
          simp [Database.withEvidence, hinput, cycleRow]
        rw [hcycles]
        refine h.cycles_backward.append (not_mem_of_hasCycle (hcycle cycle hinput))
          fun a b hedge => ?_
        rcases cycleEdge_withEvidence hbound hedge with hold | ⟨own, hown, rfl, row, hmem, rfl, -⟩
        · exact Or.inl hold
        · rw [hinput] at hown
          cases hown
          exact Or.inr ⟨rfl, List.mem_map_of_mem hmem⟩
  cycles_agree := fun row hrow predecessor hpredecessor => by
    rcases List.mem_append.mp hrow with hold | hmem
    · obtain ⟨other, hother, hagrees⟩ := h.cycles_agree row hold predecessor hpredecessor
      exact ⟨other, List.mem_append_left _ hother, hagrees⟩
    · obtain ⟨cycle, hsome, rfl⟩ := List.mem_map.mp hmem
      have hinput := Option.mem_toList.mp hsome
      obtain ⟨other, hother, hagrees⟩ :=
        isCycleBound_predecessor hinput (hbound.cycle cycle hinput) hpredecessor
      exact ⟨other, List.mem_append_left _ hother, hagrees⟩
  receipts_stored := fun row hrow => by
    rw [Database.withEvidence, List.map_append, List.map_singleton]
    rcases List.mem_append.mp hrow with hold | hmem
    · exact List.mem_append_left _ (h.receipts_stored row hold)
    · exact List.mem_append_right _ (by simp [hbound.rows row hmem])
  receipts_covered := fun receipt hreceipt hkind => by
    rcases List.mem_append.mp hreceipt with hold | hmem
    · refine (h.receipts_covered receipt hold hkind).withEvidence hbound fun hsame => ?_
      exact not_mem_of_hasArtifact hnew (hsame ▸ List.mem_map_of_mem
        (f := fun a : StoredReviewArtifact => a.contentHash) hold)
    · obtain rfl := List.mem_singleton.mp hmem
      exact receiptCovered_new hnew hbound h.receipts_stored hkind
  gates_bound := fun gate hgate => by
    rcases List.mem_append.mp hgate with hold | hmem
    · exact (h.gates_bound gate hold).withEvidence
    · obtain ⟨decision, hsome, rfl⟩ := List.mem_map.mp hmem
      exact gateBound_new (hbound.gate decision (Option.mem_toList.mp hsome))

end Keep

/-! ## Every sequence of ingestions -/

/-- An ingestion, accepted or not, keeps the tables consistent. -/
theorem Consistent.ingest (h : Consistent platform db) (rawInput : JsValue) :
    Consistent platform (ingestValidatedReviewEvidence platform catalog rawInput db).2 := by
  rcases ingest_cases platform catalog rawInput db with
    hsame | ⟨input, runId, hprepare, hnew, hcycle,
    hafter⟩
  · rw [hsame]
    exact h
  · rw [hafter]
    exact h.withEvidence (prepare_bound hprepare hnew) hnew hcycle

theorem run_consistent (rawInputs : List JsValue) :
    Consistent platform (run platform catalog rawInputs) := by
  induction rawInputs using List.reverseRecOn with
  | nil => exact consistent_empty platform
  | append_singleton earlier rawInput ih =>
      rw [run, List.foldl_append]
      exact Consistent.ingest ih rawInput

/-- **After every sequence of ingestions the tables are in order, and a call that
fails changes nothing.** -/
theorem run_sound (platform : Platform) (catalog : Catalog) (rawInputs : List JsValue) :
    Sound platform (run platform catalog rawInputs) ∧ ∀ rawInput error,
      (ingestValidatedReviewEvidence platform catalog rawInput
        (run platform catalog rawInputs)).1 = .error error →
      (ingestValidatedReviewEvidence platform catalog rawInput
        (run platform catalog rawInputs)).2 = run platform catalog rawInputs :=
  ⟨(run_consistent rawInputs).sound, fun _ _ => ingest_error⟩

end Hepha.Review
