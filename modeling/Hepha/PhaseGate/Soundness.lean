import Hepha.PhaseGate.Policy

/-!
# What an approval is worth

An approved phase is meant to owe nothing: its lineage is exactly the
predecessors found in the store, and if one of them asked for changes, every
blocking finding of it has been answered item by item and verified test by
test.

The gate compares the answers with the findings through joined keys.  Joining
with the unit `0` is injective on identifiers that do not hold this unit, and
the validation does not exclude it, so two different pairs of identifiers can
have one key.  The keys of an approved input are a permutation of the required
keys; the approval is sound exactly when each response and each receipt that
hits a required key is a required one component by component.

* `ApprovalSound`: what an approval promises;
* `KeysUnambiguous`: no response or receipt hits a required key from other
  components;
* `sound_of_unambiguous`, `unambiguous_of_sound`: the two are equivalent for
  an input whose remediation the gate accepts.
-/

namespace Hepha.PhaseGate

/-! ## The promise -/

/-- The pairs of a finding and one of its subjects that a kind of receipt must cover. -/
def requiredSubjects (kind : SubjectKind) (findings : List AuthoritativeReviewFinding) :
    List (JsString × JsString) :=
  findings.flatMap fun finding => (subjectIds kind finding).map fun id => (finding.findingId, id)

def responsePair (response : AuthoritativeRemediationResponseEvidence) : JsString × JsString :=
  (response.findingId, response.remediationItemId)

def receiptTriple (receipt : AuthoritativeVerificationReceiptEvidence) :
    SubjectKind × JsString × JsString :=
  (receipt.subjectKind, receipt.findingId, receipt.subjectId)

def responsesFor (remediation : AuthoritativeRemediationEvidence) (findingId itemId : JsString) :
    List AuthoritativeRemediationResponseEvidence :=
  remediation.responses.filter fun response => responsePair response = (findingId, itemId)

def receiptsFor (remediation : AuthoritativeRemediationEvidence) (kind : SubjectKind)
    (findingId subjectId : JsString) : List AuthoritativeVerificationReceiptEvidence :=
  remediation.receipts.filter fun receipt => receiptTriple receipt = (kind, findingId, subjectId)

/-- Item `itemId` of a finding is answered once, applied, and verified once. -/
def ItemRemediated (predecessorHash : JsString) (remediation : AuthoritativeRemediationEvidence)
    (findingId itemId : JsString) : Prop :=
  ∃ response, responsesFor remediation findingId itemId = [response] ∧
    response.outcome = .applied ∧ response.basisManifestHash = predecessorHash ∧
    response.cycleId = remediation.cycle.cycleId ∧
    ∃ receipt, receiptsFor remediation .remediationItem findingId itemId = [receipt] ∧
      receipt.outcome = .verified ∧ receipt.responseHash = response.responseHash

/-- Test `testId` of a finding has passed, once. -/
def TestPassed (remediation : AuthoritativeRemediationEvidence)
    (findingId testId : JsString) : Prop :=
  ∃ receipt, receiptsFor remediation .test findingId testId = [receipt] ∧
    receipt.outcome = .passed

/-- The remediation discharges the blocking findings of a predecessor, and nothing else. -/
structure RemediationSound (predecessor : AuthoritativeManifestEvidence)
    (remediation : AuthoritativeRemediationEvidence) : Prop where
  items : ∀ finding ∈ requiredFindings predecessor.findings,
    ∀ itemId ∈ finding.requiredRemediationItemIds,
      ItemRemediated predecessor.contentHash remediation finding.findingId itemId
  tests : ∀ finding ∈ requiredFindings predecessor.findings,
    ∀ testId ∈ finding.requiredTestIds, TestPassed remediation finding.findingId testId
  noOtherResponse : ∀ response ∈ remediation.responses,
    ∃ finding ∈ requiredFindings predecessor.findings, finding.findingId = response.findingId ∧
      response.remediationItemId ∈ finding.requiredRemediationItemIds
  noOtherReceipt : ∀ receipt ∈ remediation.receipts,
    ∃ finding ∈ requiredFindings predecessor.findings, finding.findingId = receipt.findingId ∧
      receipt.subjectId ∈ subjectIds receipt.subjectKind finding

/-- What the decision `APPROVED` promises of the evidence. -/
structure ApprovalSound (input : AuthoritativePhaseGateInput) : Prop where
  enabled : input.enforcement.enabled = true
  storeAvailable : input.enforcement.storeAvailable = true
  manifestScope : input.manifest.scope = input.expectedScope
  cycleScope : input.remediation.cycle.scope = input.expectedScope
  predecessorScope : ∀ predecessor ∈ input.predecessorManifests,
    predecessor.scope = input.expectedScope
  lookups : ∀ hash, hash ∈ input.lineage.predecessorHashes ↔
    hash ∈ input.predecessorLookups.map (·.contentHash)
  predecessors : ∀ hash, hash ∈ input.lineage.predecessorHashes ↔
    hash ∈ input.predecessorManifests.map (·.contentHash)
  result : input.manifest.result = .approved
  oneNeedsChanges : (needsChangesPredecessors input).length ≤ 1
  remediation : ∀ predecessor ∈ needsChangesPredecessors input,
    RemediationSound predecessor input.remediation
  nothingElse : needsChangesPredecessors input = [] →
    input.remediation.responses = [] ∧ input.remediation.receipts = []

/-- No response or receipt has the joined key of a required one without being
required component by component. -/
structure KeysUnambiguous (findings : List AuthoritativeReviewFinding)
    (remediation : AuthoritativeRemediationEvidence) : Prop where
  responses : ∀ response ∈ remediation.responses,
    responseKey response ∈ requiredKeys .remediationItem findings →
      (response.findingId, response.remediationItemId) ∈
        requiredSubjects .remediationItem findings
  receipts : ∀ receipt ∈ remediation.receipts,
    receiptKey receipt ∈ requiredReceiptKeys findings →
      (receipt.findingId, receipt.subjectId) ∈ requiredSubjects receipt.subjectKind findings

/-! ## Scope and lineage -/

theorem sameScope_iff {left right : AuthoritativeReviewScope} :
    sameScope left right = true ↔ left = right := by
  cases left
  cases right
  simp [sameScope, and_assoc]

theorem lookups_mem_iff {input : AuthoritativePhaseGateInput}
    (hnodup : input.lineage.predecessorHashes.Nodup) (h : lineageIsResolved input = none)
    (hash : JsString) :
    hash ∈ input.lineage.predecessorHashes ↔
      hash ∈ input.predecessorLookups.map (·.contentHash) := by
  simp only [lineageIsResolved] at h
  split_ifs at h with hartifact hmembers
  obtain ⟨hsize, hany⟩ := not_or.mp hmembers
  rw [not_not, JsMap.size, List.map_map] at hsize
  have hsubset : input.lineage.predecessorHashes ⊆
      (input.predecessorLookups.map (·.contentHash)).dedup := by
    intro x hx
    rw [List.mem_dedup]
    by_contra hnot
    refine hany (List.any_eq_true.mpr ⟨x, hx, ?_⟩)
    rw [Option.isNone_iff_eq_none, JsMap.get_eq_none_iff, List.map_map]
    exact hnot
  have hperm := (hnodup.subperm hsubset).perm_of_length_le
    (Nat.le_of_eq ((setSize_eq_length.2 hnodup).symm.trans hsize).symm)
  rw [hperm.mem_iff, List.mem_dedup]

theorem predecessors_mem_iff {input : AuthoritativePhaseGateInput}
    (hnodup : input.lineage.predecessorHashes.Nodup)
    (hmanifests : (input.predecessorManifests.map (·.contentHash)).Nodup)
    (h : predecessorsResolved input = true) (hash : JsString) :
    hash ∈ input.lineage.predecessorHashes ↔
      hash ∈ input.predecessorManifests.map (·.contentHash) := by
  simp only [predecessorsResolved, Bool.and_eq_true, beq_iff_eq, List.all_eq_true] at h
  obtain ⟨hsize, hall⟩ := h
  rw [JsMap.size, List.map_map] at hsize
  have hsubset : input.lineage.predecessorHashes ⊆
      input.predecessorManifests.map (·.contentHash) := by
    intro x hx
    by_contra hnot
    have := hall x hx
    rw [JsMap.get_eq_none_iff.2 (by rw [List.map_map]; exact hnot)] at this
    simp at this
  have hlength := (setSize_eq_length.2 hmanifests).symm.trans hsize
  exact ((hnodup.subperm hsubset).perm_of_length_le (Nat.le_of_eq hlength)).mem_iff

theorem predecessor_scope {input : AuthoritativePhaseGateInput}
    (hnodup : input.lineage.predecessorHashes.Nodup)
    (hmanifests : (input.predecessorManifests.map (·.contentHash)).Nodup)
    (h : predecessorsResolved input = true) {predecessor : AuthoritativeManifestEvidence}
    (hmem : predecessor ∈ input.predecessorManifests) :
    predecessor.scope = input.expectedScope := by
  have hhash := (predecessors_mem_iff hnodup hmanifests h predecessor.contentHash).mpr
    (List.mem_map_of_mem hmem)
  simp only [predecessorsResolved, Bool.and_eq_true, List.all_eq_true] at h
  have := h.2 _ hhash
  rw [JsMap.get_of_mem (by rw [List.map_map]; exact hmanifests)
    (List.mem_map_of_mem (f := fun m => (m.contentHash, m)) hmem)] at this
  exact sameScope_iff.1 this

/-! ## The keys of a completed remediation -/

theorem mem_requiredSubjects {kind : SubjectKind} {findings : List AuthoritativeReviewFinding}
    {findingId id : JsString} :
    (findingId, id) ∈ requiredSubjects kind findings ↔
      ∃ finding ∈ findings, finding.findingId = findingId ∧ id ∈ subjectIds kind finding := by
  simp only [requiredSubjects, List.mem_flatMap, List.mem_map, Prod.mk.injEq]
  constructor
  · rintro ⟨finding, hfinding, x, hx, hid, rfl⟩
    exact ⟨finding, hfinding, hid, hx⟩
  · rintro ⟨finding, hfinding, hid, hx⟩
    exact ⟨finding, hfinding, id, hx, hid, rfl⟩

theorem requiredKeys_eq (kind : SubjectKind) (findings : List AuthoritativeReviewFinding) :
    requiredKeys kind findings =
      (requiredSubjects kind findings).map fun subject => joinKey subject.1 subject.2 := by
  simp [requiredKeys, requiredSubjects, List.map_flatMap, Function.comp_def]

/-- The triples that the receipts of a completed remediation must cover. -/
def requiredTriples (findings : List AuthoritativeReviewFinding) :
    List (SubjectKind × JsString × JsString) :=
  (requiredSubjects .remediationItem findings).map (Prod.mk .remediationItem) ++
    (requiredSubjects .test findings).map (Prod.mk .test)

theorem mem_requiredTriples {findings : List AuthoritativeReviewFinding} {kind : SubjectKind}
    {subject : JsString × JsString} :
    (kind, subject) ∈ requiredTriples findings ↔ subject ∈ requiredSubjects kind findings := by
  cases kind <;> simp [requiredTriples]

theorem requiredReceiptKeys_length (findings : List AuthoritativeReviewFinding) :
    (requiredReceiptKeys findings).length = (requiredTriples findings).length := by
  simp [requiredReceiptKeys, requiredTriples, requiredKeys_eq]

section Complete

variable {findings : List AuthoritativeReviewFinding} {predecessorHash : JsString}
  {remediation : AuthoritativeRemediationEvidence}

/-- What the gate has checked of the responses, as facts about their keys. -/
theorem responsesComplete_iff :
    responsesComplete findings predecessorHash remediation = true ↔
      (remediation.responses.map responseKey).Nodup ∧
      remediation.responses.length = (requiredSubjects .remediationItem findings).length ∧
      (∀ response ∈ remediation.responses,
        responseKey response ∈ requiredKeys .remediationItem findings) ∧
      ∀ response ∈ remediation.responses, response.outcome = .applied ∧
        response.basisManifestHash = predecessorHash ∧
        response.cycleId = remediation.cycle.cycleId := by
  simp [responsesComplete, requiredKeys_eq, and_assoc]

theorem receiptsComplete_iff :
    receiptsComplete findings predecessorHash remediation = true ↔
      (remediation.receipts.map receiptKey).Nodup ∧
      remediation.receipts.length = (requiredTriples findings).length ∧
      (∀ receipt ∈ remediation.receipts, receiptKey receipt ∈ requiredReceiptKeys findings) ∧
      ∀ receipt ∈ remediation.receipts, receipt.basisManifestHash = predecessorHash ∧
        receipt.cycleId = remediation.cycle.cycleId ∧
        receiptVerified remediation receipt = true := by
  simp [receiptsComplete, requiredReceiptKeys_length, and_assoc]

theorem responsePair_nodup (h : (remediation.responses.map responseKey).Nodup) :
    (remediation.responses.map responsePair).Nodup := by
  have : (remediation.responses.map responsePair).map (fun p => joinKey p.1 p.2) =
      remediation.responses.map responseKey := by
    rw [List.map_map]
    rfl
  exact List.Nodup.of_map _ (this ▸ h)

theorem receiptTriple_nodup (h : (remediation.receipts.map receiptKey).Nodup) :
    (remediation.receipts.map receiptTriple).Nodup := by
  have : (remediation.receipts.map receiptTriple).map
      (fun t => t.2.1 ++ 0 :: subjectWord t.1 ++ 0 :: t.2.2) =
      remediation.receipts.map receiptKey := by
    rw [List.map_map]
    rfl
  exact List.Nodup.of_map _ (this ▸ h)

/-- Unambiguous keys make the responses a permutation of the required items. -/
theorem responsePair_perm
    (hcomplete : responsesComplete findings predecessorHash remediation = true)
    (hkeys : KeysUnambiguous findings remediation) :
    (remediation.responses.map responsePair).Perm (requiredSubjects .remediationItem findings) := by
  obtain ⟨hnodup, hlength, hmem, -⟩ := responsesComplete_iff.1 hcomplete
  have hsubset : remediation.responses.map responsePair ⊆
      requiredSubjects .remediationItem findings := by
    intro pair hpair
    obtain ⟨response, hresponse, rfl⟩ := List.mem_map.mp hpair
    exact hkeys.responses response hresponse (hmem response hresponse)
  exact ((responsePair_nodup hnodup).subperm hsubset).perm_of_length_le (by simp [hlength])

/-- Unambiguous keys make the receipts a permutation of the required triples. -/
theorem receiptTriple_perm
    (hcomplete : receiptsComplete findings predecessorHash remediation = true)
    (hkeys : KeysUnambiguous findings remediation) :
    (remediation.receipts.map receiptTriple).Perm (requiredTriples findings) := by
  obtain ⟨hnodup, hlength, hmem, -⟩ := receiptsComplete_iff.1 hcomplete
  have hsubset : remediation.receipts.map receiptTriple ⊆ requiredTriples findings := by
    intro triple htriple
    obtain ⟨receipt, hreceipt, rfl⟩ := List.mem_map.mp htriple
    exact mem_requiredTriples.2 (hkeys.receipts receipt hreceipt (hmem receipt hreceipt))
  exact ((receiptTriple_nodup hnodup).subperm hsubset).perm_of_length_le (by simp [hlength])

/-- A required triple has exactly one receipt. -/
theorem exists_receipt (hcomplete : receiptsComplete findings predecessorHash remediation = true)
    (hkeys : KeysUnambiguous findings remediation) {kind : SubjectKind}
    {findingId subjectId : JsString}
    (h : (findingId, subjectId) ∈ requiredSubjects kind findings) :
    ∃ receipt ∈ remediation.receipts, receiptsFor remediation kind findingId subjectId = [receipt] ∧
      receiptTriple receipt = (kind, findingId, subjectId) := by
  have hmem := (receiptTriple_perm hcomplete hkeys).mem_iff.mpr (mem_requiredTriples.2 h)
  obtain ⟨receipt, hreceipt, htriple⟩ := List.mem_map.mp hmem
  refine ⟨receipt, hreceipt, ?_, htriple⟩
  have hnodup := receiptTriple_nodup (receiptsComplete_iff.1 hcomplete).1
  have := filter_eq_singleton hnodup hreceipt
  rw [htriple] at this
  exact this

/-- A required item has exactly one response. -/
theorem exists_response (hcomplete : responsesComplete findings predecessorHash remediation = true)
    (hkeys : KeysUnambiguous findings remediation) {findingId itemId : JsString}
    (h : (findingId, itemId) ∈ requiredSubjects .remediationItem findings) :
    ∃ response ∈ remediation.responses, responsesFor remediation findingId itemId = [response] ∧
      responsePair response = (findingId, itemId) := by
  have hmem := (responsePair_perm hcomplete hkeys).mem_iff.mpr h
  obtain ⟨response, hresponse, hpair⟩ := List.mem_map.mp hmem
  refine ⟨response, hresponse, ?_, hpair⟩
  have hnodup := responsePair_nodup (responsesComplete_iff.1 hcomplete).1
  have := filter_eq_singleton hnodup hresponse
  rw [hpair] at this
  exact this

end Complete

/-! ## Soundness -/

section Sound

variable {predecessor : AuthoritativeManifestEvidence}
  {remediation : AuthoritativeRemediationEvidence}

theorem itemRemediated {findings : List AuthoritativeReviewFinding} {predecessorHash : JsString}
    (hcomplete : remediationIsComplete findings predecessorHash remediation = true)
    (hkeys : KeysUnambiguous findings remediation) {findingId itemId : JsString}
    (h : (findingId, itemId) ∈ requiredSubjects .remediationItem findings) :
    ItemRemediated predecessorHash remediation findingId itemId := by
  obtain ⟨hresponses, hreceipts⟩ := Bool.and_eq_true_iff.mp hcomplete
  obtain ⟨response, hresponse, honly, hpair⟩ := exists_response hresponses hkeys h
  obtain ⟨receipt, hreceipt, hreceiptOnly, htriple⟩ := exists_receipt hreceipts hkeys h
  obtain ⟨hnodup, -, -, hbound⟩ := responsesComplete_iff.1 hresponses
  obtain ⟨houtcome, hbasis, hcycle⟩ := hbound response hresponse
  obtain ⟨-, -, hverified⟩ := (receiptsComplete_iff.1 hreceipts).2.2.2 receipt hreceipt
  simp only [receiptTriple, Prod.mk.injEq] at htriple
  obtain ⟨hkind, hfinding, hsubject⟩ := htriple
  simp only [receiptVerified, hkind, Bool.and_eq_true, beq_iff_eq] at hverified
  -- the hash the receipt carries is looked up under the key of this response
  have hkey : joinKey receipt.findingId receipt.subjectId = responseKey response := by
    rw [hfinding, hsubject, responseKey]
    simp only [responsePair, Prod.mk.injEq] at hpair
    rw [hpair.1, hpair.2]
  have hget := JsMap.get_of_mem (by rw [List.map_map]; exact hnodup)
    (List.mem_map_of_mem (f := fun r => (responseKey r, r.responseHash)) hresponse)
  rw [hkey, hget] at hverified
  exact ⟨response, honly, houtcome, hbasis, hcycle, receipt, hreceiptOnly, hverified.1,
    (Option.some.inj hverified.2).symm⟩

theorem testPassed {findings : List AuthoritativeReviewFinding} {predecessorHash : JsString}
    (hcomplete : remediationIsComplete findings predecessorHash remediation = true)
    (hkeys : KeysUnambiguous findings remediation) {findingId testId : JsString}
    (h : (findingId, testId) ∈ requiredSubjects .test findings) :
    TestPassed remediation findingId testId := by
  obtain ⟨-, hreceipts⟩ := Bool.and_eq_true_iff.mp hcomplete
  obtain ⟨receipt, hreceipt, hreceiptOnly, htriple⟩ := exists_receipt hreceipts hkeys h
  obtain ⟨-, -, hverified⟩ := (receiptsComplete_iff.1 hreceipts).2.2.2 receipt hreceipt
  simp only [receiptTriple, Prod.mk.injEq] at htriple
  simp only [receiptVerified, htriple.1, Bool.and_eq_true, beq_iff_eq] at hverified
  exact ⟨receipt, hreceiptOnly, hverified.1⟩

theorem sound_of_unambiguous
    (hcomplete : remediationIsComplete (requiredFindings predecessor.findings)
      predecessor.contentHash remediation = true)
    (hkeys : KeysUnambiguous (requiredFindings predecessor.findings) remediation) :
    RemediationSound predecessor remediation := by
  obtain ⟨hresponses, hreceipts⟩ := Bool.and_eq_true_iff.mp hcomplete
  refine ⟨?_, ?_, ?_, ?_⟩
  · intro finding hfinding itemId hitem
    exact itemRemediated hcomplete hkeys
      (mem_requiredSubjects.2 ⟨finding, hfinding, rfl, hitem⟩)
  · intro finding hfinding testId htest
    exact testPassed hcomplete hkeys (mem_requiredSubjects.2 ⟨finding, hfinding, rfl, htest⟩)
  · intro response hresponse
    have hkey := (responsesComplete_iff.1 hresponses).2.2.1 response hresponse
    exact mem_requiredSubjects.1 (hkeys.responses response hresponse hkey)
  · intro receipt hreceipt
    have hkey := (receiptsComplete_iff.1 hreceipts).2.2.1 receipt hreceipt
    exact mem_requiredSubjects.1 (hkeys.receipts receipt hreceipt hkey)

theorem unambiguous_of_sound (h : RemediationSound predecessor remediation) :
    KeysUnambiguous (requiredFindings predecessor.findings) remediation where
  responses response hresponse _ := mem_requiredSubjects.2 (h.noOtherResponse response hresponse)
  receipts receipt hreceipt _ := mem_requiredSubjects.2 (h.noOtherReceipt receipt hreceipt)

end Sound

theorem approvalSound_of_admitted {value : JsValue} {input : AuthoritativePhaseGateInput}
    (hvalid : validateInput value = some input) (hadmitted : Admitted input)
    (hone : (needsChangesPredecessors input).length ≤ 1)
    (hremediation : ∀ predecessor ∈ needsChangesPredecessors input,
      RemediationSound predecessor input.remediation)
    (hnothing : needsChangesPredecessors input = [] →
      input.remediation.responses = [] ∧ input.remediation.receipts = []) :
    ApprovalSound input := by
  obtain ⟨hhashes, hmanifests⟩ := validateInput_nodup hvalid
  exact
    { enabled := hadmitted.enabled
      storeAvailable := hadmitted.storeAvailable
      manifestScope := (sameScope_iff.1 hadmitted.manifestScope).symm
      cycleScope := (sameScope_iff.1 hadmitted.cycleScope).symm
      predecessorScope := fun _ => predecessor_scope hhashes hmanifests hadmitted.predecessors
      lookups := lookups_mem_iff hhashes hadmitted.lineage
      predecessors := predecessors_mem_iff hhashes hmanifests hadmitted.predecessors
      result := hadmitted.result
      oneNeedsChanges := hone
      remediation := hremediation
      nothingElse := hnothing }

/-- **An approval is sound exactly when no key of the accepted remediation is
ambiguous.** -/
theorem approves_sound_iff (value : JsValue) :
    ((evaluateAuthoritativePhaseGate value).Approves →
        ∃ input, validateInput value = some input ∧ ApprovalSound input) ↔
      ∀ input predecessor, validateInput value = some input → Admitted input →
        Remediated input predecessor →
        KeysUnambiguous (requiredFindings predecessor.findings) input.remediation := by
  constructor
  · intro h input predecessor hvalid hadmitted hremediated
    obtain ⟨other, hother, hsound⟩ := h
      (evaluate_approves_iff.2 ⟨input, hvalid, hadmitted, Or.inr ⟨predecessor, hremediated⟩⟩)
    obtain rfl : input = other := Option.some.inj (hvalid.symm.trans hother)
    exact unambiguous_of_sound (hsound.remediation predecessor (by simp [hremediated.one]))
  · intro h happroves
    obtain ⟨input, hvalid, hadmitted, howed | ⟨predecessor, hremediated⟩⟩ :=
      evaluate_approves_iff.1 happroves
    · refine ⟨input, hvalid, approvalSound_of_admitted hvalid hadmitted ?_ ?_ ?_⟩
      · simp [howed.none]
      · simp [howed.none]
      · exact fun _ => ⟨howed.responses, howed.receipts⟩
    · have hkeys := h input predecessor hvalid hadmitted hremediated
      refine ⟨input, hvalid, approvalSound_of_admitted hvalid hadmitted ?_ ?_ ?_⟩
      · simp [hremediated.one]
      · intro other hother
        obtain rfl : other = predecessor := by simpa [hremediated.one] using hother
        exact sound_of_unambiguous hremediated.complete hkeys
      · simp [hremediated.one]

/-! ## An ambiguous key

The blocking finding `a␀b` requires the item `c`.  The response answers the
item `b␀c` of a finding `a`, which does not exist; both keys are `a␀b␀c`.
-/

open JsValue in
/-- An approved input whose only response answers a finding that does not exist. -/
def ambiguousInput : JsValue :=
  let scope := record [("projectId", text "p"), ("featureId", text "f"),
    ("phaseNumber", num (.int 1)), ("reviewGateId", text "g")]
  let hash (digit : Char) := str (List.replicate 64 digit.toNat.toUInt16)
  let manifest (digit : Char) (result : String) (findings : List JsValue) :=
    record [("artifactKind", text "review_manifest"), ("contentHash", hash digit),
      ("scope", scope), ("result", text result), ("findings", arr findings)]
  record
    [("expectedScope", scope),
      ("manifest", manifest 'a' "APPROVED" []),
      ("lineage", record [("artifactHash", hash 'a'), ("predecessorHashes", arr [hash 'b'])]),
      ("predecessorLookups", arr [record [("contentHash", hash 'b'), ("lookup", text "found"),
        ("artifactKind", text "review_manifest"), ("scope", scope)]]),
      ("predecessorManifests", arr [manifest 'b' "NEEDS_CHANGES" [record
        [("findingId", text "a\u0000b"), ("disposition", text "IN_SCOPE_BLOCKER"),
          ("requiredRemediationItemIds", arr [text "c"]), ("requiredTestIds", arr [])]]]),
      ("remediation", record
        [("cycle", record [("cycleId", text "cycle"), ("scope", scope),
            ("basisManifestHash", hash 'b'), ("cycleState", text "REMEDIATION_VERIFIED")]),
          ("responses", arr [record [("responseHash", hash 'c'), ("basisManifestHash", hash 'b'),
            ("cycleId", text "cycle"), ("findingId", text "a"),
            ("remediationItemId", text "b\u0000c"), ("outcome", text "APPLIED")]]),
          ("receipts", arr [record [("receiptHash", hash 'd'), ("responseHash", hash 'c'),
            ("basisManifestHash", hash 'b'), ("cycleId", text "cycle"), ("findingId", text "a"),
            ("subjectKind", text "remediation_item"), ("subjectId", text "b\u0000c"),
            ("outcome", text "VERIFIED")]])]),
      ("enforcement", record [("enabled", bool true), ("storeAvailable", bool true)])]

/-- The gate approves `ambiguousInput`, and the approval is not sound. -/
theorem ambiguousInput_approved_unsound :
    ¬ ((evaluateAuthoritativePhaseGate ambiguousInput).Approves →
      ∃ input, validateInput ambiguousInput = some input ∧ ApprovalSound input) := by
  intro h
  have happroves : evaluateAuthoritativePhaseGate ambiguousInput =
      decision .approved .approvedTerminalReview := by decide
  obtain ⟨input, hvalid, hsound⟩ := h (by simp [happroves])
  have hanswered : (validateInput ambiguousInput).map (fun input =>
      (needsChangesPredecessors input).all fun predecessor =>
        input.remediation.responses.all fun response =>
          (requiredFindings predecessor.findings).any fun finding =>
            finding.findingId == response.findingId) = some false := by decide
  rw [hvalid, Option.map_some, Option.some_inj, List.all_eq_false] at hanswered
  obtain ⟨predecessor, hpredecessor, hnot⟩ := hanswered
  refine hnot (List.all_eq_true.mpr fun response hresponse => List.any_eq_true.mpr ?_)
  obtain ⟨finding, hfinding, hid, -⟩ :=
    (hsound.remediation predecessor hpredecessor).noOtherResponse response hresponse
  exact ⟨finding, hfinding, by simpa using hid⟩

end Hepha.PhaseGate
