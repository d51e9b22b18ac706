import Hepha.Exchange.PhaseGates
import Mathlib.Data.List.Perm.Lattice

/-!
# A phase without missing gates

The evaluation answers with one decision for each gate it knows, and none of
them is `missing` exactly when the record is complete.

A gate that is missing stays so: what is written over it later is missing too,
and nothing else is written over a decision.  The code review is decided last,
and no check has its gate.

* `clean_visitChecks`: the loop over the checks;
* `coverageGap_eq_nil_iff`: the loops over the items and the criteria;
* `evaluatePhaseGates_complete`: the whole evaluation.
-/

namespace Hepha.Exchange

open JsValue

/-! ## Complete records -/

/-- The proof reports no problem: `null`, or a report without a text. -/
def NoProblem (report : Option JsString) : Prop :=
  report = none ∨ report = some []

/-- A check that passed, and was proved to have. -/
def Passed (proof : PhaseGateProof) (check : PhaseGateCheck) : Prop :=
  check.outcome = .passed ∧ NoProblem (proof.check check)

/-- The item is on behavioral tests that passed, with sources that exist. -/
structure ItemProved (record : PhaseGateRecord) (proof : PhaseGateProof)
    (item : PhaseGateCoverageItem) : Prop where
  tested : ∃ id ∈ item.checkIds, ∃ check ∈ record.checks, check.id = id ∧ Passed proof check ∧
    (check.gate = .tests ∨ check.gate = .gherkinE2e)
  supported : ∀ id ∈ item.checkIds, ∃ check ∈ record.checks, check.id = id ∧
    (Passed proof check ∨ check.gate = .build ∨ check.gate = .lint)
  testPaths : item.testPaths ≠ []
  sources : ∀ path ∈ item.testPaths, proof.source path = true

/-- The criteria are all covered, each by one item. -/
structure CoverageProved (record : PhaseGateRecord) (proof : PhaseGateProof) : Prop where
  outcome : record.coverage.outcome = .sufficient
  criteria : record.criteria ≠ []
  criterionIds : (record.criteria.map (·.id)).Nodup
  assessed : (record.coverage.criteria.map (·.criterionId)).Perm (record.criteria.map (·.id))
  items : ∀ item ∈ record.coverage.criteria, ItemProved record proof item

/-- Nothing is missing in the record: what its flags ask for is proved, and
what they do not ask for is declared not applicable, with a reason. -/
structure Complete (record : PhaseGateRecord) (proof : PhaseGateProof) : Prop where
  checkIds : (record.checks.map (·.id)).Nodup
  required : ∀ check ∈ record.checks, check.required = true → Passed proof check
  covered : record.flags.needTestCoverage = true → CoverageProved record proof
  notCovered : record.flags.needTestCoverage = false →
    record.coverage.outcome = .notApplicable ∧ record.coverage.criteria = [] ∧
      ∃ reason ∈ record.coverage.reason, reason.any (fun u => !isWhiteSpace u) = true
  reviewed : record.flags.needCodeReview = true → record.review.outcome = .approved ∧
    ∃ reportPath ∈ record.review.reportPath, NoProblem (proof.review reportPath)
  notReviewed : record.flags.needCodeReview = false → record.review.outcome = .notApplicable ∧
    ∃ reason ∈ record.review.reason, reason.any (fun u => !isWhiteSpace u) = true

/-! ## The map of the decisions -/

namespace Decisions

/-- The decisions are kept under their gates, one for each. -/
structure Keyed (decisions : Decisions) : Prop where
  gate : ∀ entry ∈ decisions, entry.2.gate = entry.1
  nodup : (decisions.map Prod.fst).Nodup

/-- No decision is missing. -/
def Clean (decisions : Decisions) : Prop :=
  ∀ entry ∈ decisions, entry.2.status ≠ .missing

/-- The code review is not decided. -/
def Unreviewed (decisions : Decisions) : Prop :=
  ∀ entry ∈ decisions, entry.1 ≠ .codeReview

variable {decisions : Decisions} {decision : FeaturePhaseQualityGateDecision}

theorem Keyed.put (h : decisions.Keyed) : (decisions.put decision).Keyed where
  gate := by
    intro entry hentry
    rcases JsMap.mem_set.1 hentry with rfl | ⟨hmem, -⟩
    · rfl
    · exact h.gate entry hmem
  nodup := JsMap.nodup_keys_set h.nodup

theorem Unreviewed.put (h : decisions.Unreviewed) (hgate : decision.gate ≠ .codeReview) :
    (decisions.put decision).Unreviewed := by
  intro entry hentry
  rcases JsMap.mem_set.1 hentry with rfl | ⟨hmem, -⟩
  · exact hgate
  · exact h entry hmem

/-- What is put is kept whatever was there before. -/
theorem clean_put : (decisions.put decision).Clean ↔ decision.status ≠ .missing ∧
    ∀ entry ∈ decisions, entry.1 ≠ decision.gate → entry.2.status ≠ .missing := by
  constructor
  · intro h
    exact ⟨h _ (JsMap.mem_set.2 (.inl rfl)), fun entry hmem hne =>
      h entry (JsMap.mem_set.2 (.inr ⟨hmem, hne⟩))⟩
  · rintro ⟨hnew, hrest⟩ entry hentry
    rcases JsMap.mem_set.1 hentry with rfl | ⟨hmem, hne⟩
    · exact hnew
    · exact hrest entry hmem hne

theorem not_clean_missing {gate : FeatureQualityGateKind} {reason : JsString} :
    ¬(decisions.missing gate reason).Clean :=
  fun h => (clean_put.1 h).1 rfl

theorem clean_put_of_not_has (hnew : ∀ entry ∈ decisions, entry.1 ≠ decision.gate)
    (hstatus : decision.status ≠ .missing) : (decisions.put decision).Clean ↔ decisions.Clean := by
  rw [clean_put]
  exact ⟨fun h entry hmem => h.2 entry hmem (hnew entry hmem),
    fun h => ⟨hstatus, fun entry hmem _ => h entry hmem⟩⟩

theorem clean_putIfAbsent (hstatus : decision.status ≠ .missing) :
    (decisions.putIfAbsent decision).Clean ↔ decisions.Clean := by
  unfold putIfAbsent
  split
  · rfl
  · rename_i hhas
    refine clean_put_of_not_has (fun entry hmem heq => hhas ?_) hstatus
    rw [has, List.contains_iff_mem]
    exact heq ▸ List.mem_map_of_mem hmem

/-- What holds of the decisions before and after one more is put. -/
theorem putIfAbsent_of {P : Decisions → Prop} (h : P decisions)
    (hput : P (decisions.put decision)) :
    P (decisions.putIfAbsent decision) := by
  unfold putIfAbsent
  split
  · exact h
  · exact hput

end Decisions

open Decisions

section Proof

variable {record : PhaseGateRecord} {proof : PhaseGateProof}

/-! ## Checks -/

theorem noProblem_iff {report : Option JsString} :
    NoProblem report ↔ JsString.truthy report = none :=
  JsString.truthy_eq_none_iff.symm

theorem passed_iff {check : PhaseGateCheck} :
    Passed proof check ↔ JsString.truthy (checkProblem proof check) = none := by
  unfold Passed checkProblem
  rw [noProblem_iff]
  split
  · rename_i houtcome
    have hcolon : js ": " ≠ [] := js_ne_nil (by decide)
    simp [houtcome, JsString.truthy_eq_none_iff, hcolon]
  · rename_i houtcome
    simp [not_not.mp houtcome]

theorem CheckGate.kind_ne_codeReview (gate : CheckGate) : gate.kind ≠ .codeReview := by
  cases gate <;> decide

/-- The decisions of the loop over the checks are on the gates of the checks, and say
that a gate is satisfied or missing. -/
theorem visitCheck_decisions {P : Decisions → Prop} {s : Checked} {check : PhaseGateCheck}
    (h : P s.decisions)
    (hput : ∀ decision : FeaturePhaseQualityGateDecision, decision.gate = check.gate.kind →
      decision.status = .satisfied ∨ decision.status = .missing → P (s.decisions.put decision)) :
    P (visitCheck proof s check).decisions := by
  unfold visitCheck
  dsimp only
  split
  · exact hput _ rfl (.inr rfl)
  · split <;> dsimp only <;> split
    · exact hput _ rfl (.inr rfl)
    · exact h
    · exact putIfAbsent_of h (hput _ rfl (.inl rfl))
    · exact h

theorem keyed_visitChecks : (visitChecks record proof).decisions.Keyed := by
  unfold visitChecks
  refine List.foldlRecOn (motive := fun s : Checked => s.decisions.Keyed) _ _ ?_ ?_
  · exact ⟨by simp, by simp⟩
  · exact fun s h check _ => visitCheck_decisions h fun _ _ _ => h.put

theorem unreviewed_visitChecks : (visitChecks record proof).decisions.Unreviewed := by
  unfold visitChecks
  refine List.foldlRecOn (motive := fun s : Checked => s.decisions.Unreviewed) _ _ ?_ ?_
  · exact fun entry hentry => absurd hentry List.not_mem_nil
  · intro s h check _
    exact visitCheck_decisions h fun decision hgate _ =>
      h.put (hgate ▸ check.gate.kind_ne_codeReview)

/-- One turn leaves the decisions clean if the check is new and is not required in vain. -/
theorem clean_visitCheck {s : Checked} {check : PhaseGateCheck} :
    (visitCheck proof s check).decisions.Clean ↔ s.decisions.Clean ∧ check.id ∉ s.seen ∧
      (check.required = true → Passed proof check) := by
  unfold visitCheck
  rw [passed_iff]
  dsimp only
  by_cases hseen : check.id ∈ s.seen
  · rw [if_pos (List.contains_iff_mem.mpr hseen)]
    exact ⟨fun h => absurd h not_clean_missing, fun h => absurd hseen h.2.1⟩
  · rw [if_neg (by simpa using hseen)]
    cases hproblem : JsString.truthy (checkProblem proof check) <;>
      cases hrequired : check.required
    · simp [hseen]
    · simp [hseen, clean_putIfAbsent]
    · simp [hseen]
    · simp [hseen, not_clean_missing]

theorem seen_visitCheck {s : Checked} {check : PhaseGateCheck} {id : JsString} :
    id ∈ (visitCheck proof s check).seen ↔ id = check.id ∨ id ∈ s.seen := by
  unfold visitCheck
  dsimp only
  by_cases hseen : check.id ∈ s.seen
  · rw [if_pos (List.contains_iff_mem.mpr hseen)]
    exact ⟨Or.inr, fun h => h.elim (fun heq => heq ▸ hseen) fun hmem => hmem⟩
  · rw [if_neg (by simpa using hseen)]
    split <;> exact List.mem_cons

theorem passedChecks_visitCheck {s : Checked} {check : PhaseGateCheck} {id : JsString}
    (hseen : check.id ∉ s.seen) :
    id ∈ (visitCheck proof s check).passedChecks ↔
      (id = check.id ∧ Passed proof check) ∨ id ∈ s.passedChecks := by
  unfold visitCheck
  rw [passed_iff]
  dsimp only
  rw [if_neg (by simpa using hseen)]
  cases hproblem : JsString.truthy (checkProblem proof check) <;> simp

/-- The loop from any state; the invariant is what has been seen. -/
theorem clean_foldl_visitCheck {checks : List PhaseGateCheck} {s : Checked} :
    (checks.foldl (visitCheck proof) s).decisions.Clean ↔ s.decisions.Clean ∧
      (checks.map (·.id)).Nodup ∧ (∀ check ∈ checks, check.id ∉ s.seen) ∧
      ∀ check ∈ checks, check.required = true → Passed proof check := by
  induction checks generalizing s with
  | nil => simp
  | cons check rest ih =>
      rw [List.foldl_cons, ih, clean_visitCheck]
      simp only [seen_visitCheck, not_or, List.map_cons, List.nodup_cons, List.mem_map,
        List.forall_mem_cons, not_exists, not_and]
      constructor
      · rintro ⟨⟨hclean, hnew, hrequired⟩, hnodup, hrest, hall⟩
        exact ⟨hclean, ⟨fun c hc => (hrest c hc).1, hnodup⟩, ⟨hnew, fun c hc => (hrest c hc).2⟩,
          hrequired, hall⟩
      · rintro ⟨hclean, ⟨hfresh, hnodup⟩, ⟨hnew, hrest⟩, hrequired, hall⟩
        exact ⟨⟨hclean, hnew, hrequired⟩, hnodup, fun c hc => ⟨hfresh c hc, hrest c hc⟩, hall⟩

theorem passedChecks_foldl_visitCheck {checks : List PhaseGateCheck} {s : Checked} {id : JsString}
    (hnodup : (checks.map (·.id)).Nodup) (hseen : ∀ check ∈ checks, check.id ∉ s.seen) :
    id ∈ (checks.foldl (visitCheck proof) s).passedChecks ↔
      (∃ check ∈ checks, check.id = id ∧ Passed proof check) ∨ id ∈ s.passedChecks := by
  induction checks generalizing s with
  | nil => simp
  | cons check rest ih =>
      rw [List.map_cons, List.nodup_cons] at hnodup
      rw [List.forall_mem_cons] at hseen
      have hnext : ∀ c ∈ rest, c.id ∉ (visitCheck proof s check).seen := by
        intro c hc hmem
        rcases seen_visitCheck.1 hmem with heq | hmem
        · exact hnodup.1 (heq ▸ List.mem_map_of_mem hc)
        · exact hseen.2 c hc hmem
      rw [List.foldl_cons, ih hnodup.2 hnext, passedChecks_visitCheck hseen.1]
      simp only [List.mem_cons, exists_eq_or_imp, eq_comm (a := id)]
      rw [or_left_comm, or_assoc]

/-- **The loop over the checks.** -/
theorem clean_visitChecks : (visitChecks record proof).decisions.Clean ↔
    (record.checks.map (·.id)).Nodup ∧
      ∀ check ∈ record.checks, check.required = true → Passed proof check := by
  unfold visitChecks
  rw [clean_foldl_visitCheck]
  simp [Clean]

theorem mem_passedChecks (hnodup : (record.checks.map (·.id)).Nodup) {id : JsString} :
    id ∈ (visitChecks record proof).passedChecks ↔
      ∃ check ∈ record.checks, check.id = id ∧ Passed proof check := by
  unfold visitChecks
  rw [passedChecks_foldl_visitCheck hnodup (by simp)]
  simp

/-! ## Coverage -/

theorem noteGap_eq_nil_iff {gap text : JsString} {applies : Bool} (htext : text ≠ []) :
    noteGap gap applies text = [] ↔ gap = [] ∧ applies = false := by
  unfold noteGap
  cases applies <;> cases gap <;> simp [htext]

/-- A text of the source with more after it is not empty. -/
theorem js_append_ne_nil {s : String} {rest : JsString} (h : s ≠ "") : js s ++ rest ≠ [] :=
  List.append_ne_nil_of_left_ne_nil (js_ne_nil h) rest

/-- What one turn of the loop over the items asks of the item itself. -/
structure ItemChecked (record : PhaseGateRecord) (proof : PhaseGateProof)
    (passedChecks : List JsString) (item : PhaseGateCoverageItem) : Prop where
  known : item.criterionId ∈ record.criteria.map (·.id)
  cites : citesTests record passedChecks item = true
  testPaths : item.testPaths ≠ []
  sources : ∀ path ∈ item.testPaths, proof.source path = true

theorem gap_visitItem {passedChecks assessed : List JsString} {gap : JsString}
    {item : PhaseGateCoverageItem} :
    (visitItem record proof passedChecks (assessed, gap) item).2 = [] ↔ gap = [] ∧
      item.criterionId ∉ assessed ∧ ItemChecked record proof passedChecks item := by
  unfold visitItem
  dsimp only
  rw [noteGap_eq_nil_iff (by simp [js_ne_nil]), noteGap_eq_nil_iff (by simp [js_ne_nil]),
    noteGap_eq_nil_iff (js_append_ne_nil (by decide))]
  simp only [Bool.or_eq_false_iff, Bool.not_eq_false', List.contains_eq_mem,
    decide_eq_false_iff_not, List.any_eq_true, beq_iff_eq, List.isEmpty_eq_false_iff,
    List.any_eq_false, Bool.not_eq_true', Bool.not_eq_false]
  constructor
  · rintro ⟨⟨⟨hgap, hnew, hknown⟩, hcites⟩, hpaths, hsources⟩
    exact ⟨hgap, hnew, ⟨List.mem_map.mpr hknown, hcites, hpaths, hsources⟩⟩
  · rintro ⟨hgap, hnew, hchecked⟩
    exact ⟨⟨⟨hgap, hnew, List.mem_map.mp hchecked.known⟩, hchecked.cites⟩, hchecked.testPaths,
      hchecked.sources⟩

/-- The loop over the items; the invariant is what has been assessed. -/
theorem foldl_visitItem {passedChecks assessed : List JsString} {gap : JsString}
    {items : List PhaseGateCoverageItem} :
    (∀ id, id ∈ (items.foldl (visitItem record proof passedChecks) (assessed, gap)).1 ↔
      id ∈ items.map (·.criterionId) ∨ id ∈ assessed) ∧
    ((items.foldl (visitItem record proof passedChecks) (assessed, gap)).2 = [] ↔ gap = [] ∧
      (items.map (·.criterionId)).Nodup ∧ (∀ item ∈ items, item.criterionId ∉ assessed) ∧
      ∀ item ∈ items, ItemChecked record proof passedChecks item) := by
  induction items generalizing assessed gap with
  | nil => simp
  | cons item rest ih =>
      rw [List.foldl_cons]
      obtain ⟨hassessed, hgap⟩ := @ih (item.criterionId :: assessed)
        (visitItem record proof passedChecks (assessed, gap) item).2
      constructor
      · intro id
        refine (hassessed id).trans ?_
        rw [List.map_cons, List.mem_cons, List.mem_cons]
        tauto
      · refine hgap.trans ?_
        rw [gap_visitItem]
        simp only [List.map_cons, List.nodup_cons, List.forall_mem_cons]
        simp only [List.mem_cons, not_or, List.mem_map, not_exists, not_and]
        constructor
        · rintro ⟨⟨hgap, hnew, hitem⟩, hnodup, hrest, hall⟩
          exact ⟨hgap, ⟨fun c hc => (hrest c hc).1, hnodup⟩, ⟨hnew, fun c hc => (hrest c hc).2⟩,
            hitem, hall⟩
        · rintro ⟨hgap, ⟨hfresh, hnodup⟩, ⟨hnew, hrest⟩, hitem, hall⟩
          exact ⟨⟨hgap, hnew, hitem⟩, hnodup, fun c hc => ⟨hfresh c hc, hrest c hc⟩, hall⟩

/-- The loop over the criteria. -/
theorem foldl_criteria {assessed : List JsString} {criteria : List PhaseGateCriterion}
    {gap : JsString} :
    criteria.foldl (fun gap item => noteGap gap (!assessed.contains item.id)
        (js "Missing acceptance coverage: " ++ item.id ++ dash ++ item.description)) gap = [] ↔
      gap = [] ∧ ∀ c ∈ criteria, c.id ∈ assessed := by
  induction criteria generalizing gap with
  | nil => simp
  | cons c rest ih =>
      rw [List.foldl_cons, ih, noteGap_eq_nil_iff (by simp [js_ne_nil]), List.forall_mem_cons]
      simp [and_assoc]

/-- The checks that an item cites, when no two checks have one id. -/
theorem citesTests_iff (hnodup : (record.checks.map (·.id)).Nodup) {item : PhaseGateCoverageItem} :
    citesTests record (visitChecks record proof).passedChecks item = true ↔
      (∃ id ∈ item.checkIds, ∃ check ∈ record.checks, check.id = id ∧ Passed proof check ∧
        (check.gate = .tests ∨ check.gate = .gherkinE2e)) ∧
      ∀ id ∈ item.checkIds, ∃ check ∈ record.checks, check.id = id ∧
        (Passed proof check ∨ check.gate = .build ∨ check.gate = .lint) := by
  unfold citesTests
  simp only [Bool.and_eq_true, List.any_eq_true, List.contains_eq_mem, decide_eq_true_eq,
    decide_eq_false_iff_not, Bool.or_eq_true, beq_iff_eq, Bool.not_eq_true', List.any_eq_false,
    mem_passedChecks hnodup]
  refine and_congr ⟨?_, ?_⟩ ⟨?_, ?_⟩
  · rintro ⟨id, hid, ⟨check, hcheck, heq, hpassed⟩, other, hother, hsame, hgate⟩
    have hone : check = other :=
      List.inj_on_of_nodup_map hnodup hcheck hother (heq.trans hsame.symm)
    exact ⟨id, hid, check, hcheck, heq, hpassed, hone ▸ hgate⟩
  · rintro ⟨id, hid, check, hcheck, heq, hpassed, hgate⟩
    exact ⟨id, hid, ⟨check, hcheck, heq, hpassed⟩, check, hcheck, heq, hgate⟩
  · intro h id hid
    by_contra hnone
    refine h id hid ⟨?_, ?_⟩
    · rintro ⟨check, hcheck, heq, hpassed⟩
      exact hnone ⟨check, hcheck, heq, .inl hpassed⟩
    · rintro check hcheck ⟨heq, hgate⟩
      exact hnone ⟨check, hcheck, heq, .inr hgate⟩
  · rintro h id hid ⟨hfailed, hother⟩
    obtain ⟨check, hcheck, heq, hpassed | hgate⟩ := h id hid
    · exact hfailed ⟨check, hcheck, heq, hpassed⟩
    · exact hother check hcheck ⟨heq, hgate⟩

/-- **The loops over the items and the criteria.** -/
theorem coverageGap_eq_nil_iff (hnodup : (record.checks.map (·.id)).Nodup)
    (hreason : ∀ reason ∈ record.coverage.reason, reason ≠ []) :
    coverageGap record proof (visitChecks record proof).passedChecks = [] ↔
      CoverageProved record proof := by
  have houtcome : (if record.coverage.outcome ≠ .sufficient then
      record.coverage.reason.getD
        (js "Coverage assessment: " ++ js record.coverage.outcome.word) else []) = [] ↔
      record.coverage.outcome = .sufficient := by
    split
    · rename_i hne
      refine iff_of_false ?_ hne
      cases hsome : record.coverage.reason with
      | none => simp [js_ne_nil]
      | some reason => exact hreason reason hsome
    · rename_i heq
      exact iff_of_true rfl (not_not.mp heq)
  unfold coverageGap
  dsimp only
  obtain ⟨hassessed, hgap⟩ := @foldl_visitItem record proof
    (visitChecks record proof).passedChecks [] (noteGap (noteGap
      (if record.coverage.outcome ≠ .sufficient then
        record.coverage.reason.getD
          (js "Coverage assessment: " ++ js record.coverage.outcome.word) else [])
      (!hasUniqueValues (record.criteria.map (·.id)))
      (js "Duplicate acceptance criterion identity.")) record.criteria.isEmpty
      (js "Meaningful coverage requires the phase acceptance criteria."))
    record.coverage.criteria
  rw [foldl_criteria, hgap, noteGap_eq_nil_iff (js_ne_nil (by decide)),
    noteGap_eq_nil_iff (js_ne_nil (by decide)), houtcome]
  simp only [hassessed, Bool.not_eq_false', hasUniqueValues_iff, List.isEmpty_eq_false_iff,
    List.not_mem_nil, or_false]
  constructor
  · rintro ⟨⟨⟨⟨hsufficient, hids⟩, hcriteria⟩, honce, -, hitems⟩, hall⟩
    refine ⟨hsufficient, hcriteria, hids, ?_, fun item hitem => ?_⟩
    · rw [List.perm_ext_iff_of_nodup honce hids]
      refine fun id => ⟨fun hid => ?_, fun hid => ?_⟩
      · obtain ⟨item, hitem, rfl⟩ := List.mem_map.mp hid
        exact (hitems item hitem).known
      · obtain ⟨c, hc, rfl⟩ := List.mem_map.mp hid
        exact hall c hc
    · obtain ⟨-, hcites, hpaths, hsources⟩ := hitems item hitem
      obtain ⟨htested, hsupported⟩ := (citesTests_iff hnodup).mp hcites
      exact ⟨htested, hsupported, hpaths, hsources⟩
  · rintro ⟨hsufficient, hcriteria, hids, hperm, hitems⟩
    refine ⟨⟨⟨⟨hsufficient, hids⟩, hcriteria⟩, hperm.nodup_iff.mpr hids, by simp,
      fun item hitem => ?_⟩, fun c hc => hperm.mem_iff.mpr (List.mem_map_of_mem hc)⟩
    obtain ⟨htested, hsupported, hpaths, hsources⟩ := hitems item hitem
    exact ⟨hperm.mem_iff.mp (List.mem_map_of_mem hitem),
      (citesTests_iff hnodup).mpr ⟨htested, hsupported⟩, hpaths, hsources⟩

/-! ## The decisions on coverage and review -/

theorem hasReason_iff {reason : Option JsString} :
    hasReason reason = true ↔ ∃ text ∈ reason, text.any (fun u => !isWhiteSpace u) = true := by
  cases reason with
  | none => simp [hasReason]
  | some text => simp [hasReason, JsString.trim_eq_nil_iff]

theorem decideCoverage_of {P : Decisions → Prop} {checked : Checked} (h : P checked.decisions)
    (hput : ∀ (decisions : Decisions) (decision : FeaturePhaseQualityGateDecision),
      P decisions → decision.gate = .tests → P (decisions.put decision)) :
    P (decideCoverage record proof checked) := by
  unfold decideCoverage
  have hlast : ∀ (decisions : Decisions) (decision : FeaturePhaseQualityGateDecision),
      P decisions → decision.gate = .tests → P (decisions.putIfAbsent decision) :=
    fun decisions decision hd hgate => putIfAbsent_of hd (hput _ _ hd hgate)
  refine hlast _ _ ?_ rfl
  dsimp only
  split
  · split
    · exact hlast _ _ h rfl
    · exact hput _ _ h rfl
  · split
    · exact hput _ _ h rfl
    · split
      · exact hput _ _ h rfl
      · exact h

theorem clean_decideCoverage {checked : Checked} :
    (decideCoverage record proof checked).Clean ↔ checked.decisions.Clean ∧
      (record.flags.needTestCoverage = true →
        coverageGap record proof checked.passedChecks = []) ∧
      (record.flags.needTestCoverage = false → record.coverage.outcome = .notApplicable ∧
        record.coverage.criteria = [] ∧
        ∃ reason ∈ record.coverage.reason, reason.any (fun u => !isWhiteSpace u) = true) := by
  unfold decideCoverage
  -- no decision depends on what the texts say
  generalize js _ = covered
  generalize js _ = disabled
  generalize js _ = unjustified
  generalize js _ = undeclared
  rw [clean_putIfAbsent (by simp), ← hasReason_iff]
  cases record.flags.needTestCoverage with
  | true =>
      by_cases hgap : coverageGap record proof checked.passedChecks = []
      · simp [hgap, clean_putIfAbsent]
      · simp [hgap, not_clean_missing]
  | false =>
      by_cases hitems : record.coverage.criteria = []
      · by_cases houtcome : record.coverage.outcome = .notApplicable <;>
          cases hasReason record.coverage.reason <;>
          simp [hitems, houtcome, not_clean_missing]
      · have hpositive : record.coverage.criteria.length > 0 := List.length_pos_iff.mpr hitems
        simp [hitems, hpositive, not_clean_missing]

theorem truthy_reviewProblem (hreason : ∀ reason ∈ record.review.reason, reason ≠ [])
    (hpath : ∀ path ∈ record.review.reportPath, path ≠ []) :
    JsString.truthy (reviewProblem record proof) = none ↔ record.review.outcome = .approved ∧
      ∃ reportPath ∈ record.review.reportPath, NoProblem (proof.review reportPath) := by
  unfold reviewProblem
  split
  · rename_i hne
    refine iff_of_false ?_ fun h => hne h.1
    cases hsome : record.review.reason with
    | none => simp [JsString.truthy_eq_none_iff, js_ne_nil]
    | some reason => simp [JsString.truthy_eq_none_iff, hreason reason hsome]
  · rename_i heq
    rw [and_iff_right (not_not.mp heq)]
    cases hsome : record.review.reportPath with
    | none => simp [JsString.truthy, js_ne_nil]
    | some path => simp [JsString.truthy_some (hpath path hsome), noProblem_iff]

theorem clean_decideReview {decisions : Decisions} (hunreviewed : decisions.Unreviewed)
    (hreason : ∀ reason ∈ record.review.reason, reason ≠ [])
    (hpath : ∀ path ∈ record.review.reportPath, path ≠ []) :
    (decideReview record proof decisions).Clean ↔ decisions.Clean ∧
      (record.flags.needCodeReview = true → record.review.outcome = .approved ∧
        ∃ reportPath ∈ record.review.reportPath, NoProblem (proof.review reportPath)) ∧
      (record.flags.needCodeReview = false → record.review.outcome = .notApplicable ∧
        ∃ reason ∈ record.review.reason, reason.any (fun u => !isWhiteSpace u) = true) := by
  have hkeep : ∀ decision : FeaturePhaseQualityGateDecision, decision.gate = .codeReview →
      decision.status ≠ .missing → ((decisions.put decision).Clean ↔ decisions.Clean) :=
    fun decision hgate => clean_put_of_not_has fun entry hmem => hgate ▸ hunreviewed entry hmem
  unfold decideReview
  rw [← truthy_reviewProblem hreason hpath, ← hasReason_iff]
  cases record.flags.needCodeReview with
  | true =>
      cases hproblem : JsString.truthy (reviewProblem record proof) with
      | none => simpa using hkeep _ rfl (by simp)
      | some problem => simp [not_clean_missing]
  | false =>
      by_cases h : record.review.outcome = .notApplicable ∧ hasReason record.review.reason = true
      · simpa [h] using hkeep _ rfl (by simp)
      · simp [h, clean_put]

theorem keyed_decideReview {decisions : Decisions} (h : decisions.Keyed) :
    (decideReview record proof decisions).Keyed := by
  unfold decideReview
  split
  · split <;> exact h.put
  · exact h.put

/-! ## The schema -/

theorem nonBlank_some {value : JsValue} {text : JsString} (h : nonBlank value = some text) :
    text ≠ [] := by
  have hany := (Option.filter_eq_some_iff.mp h).2
  intro heq
  simp [heq] at hany

/-- The texts that the evaluation tests are not empty in a record that the schema admits. -/
theorem readPhaseGateRecord_some {value : JsValue} (h : readPhaseGateRecord value = some record) :
    (∀ reason ∈ record.coverage.reason, reason ≠ []) ∧
      (∀ reason ∈ record.review.reason, reason ≠ []) ∧
      ∀ path ∈ record.review.reportPath, path ≠ [] := by
  have htext : ∀ {value : JsValue} {field : String} {text : Option JsString},
      value.optionalMember field nonBlank = some text → ∀ t ∈ text, t ≠ [] := by
    intro value field text h t ht
    have hall : text.all (fun t => !t.isEmpty) = true :=
      isOptional_all (fun t ht => by simpa using nonBlank_some ht) h
    rw [ht] at hall
    simpa using hall
  simp only [readPhaseGateRecord, Option.bind_eq_bind, Option.bind_eq_some_iff] at h
  obtain ⟨_, -, phaseId, -, flags, -, criteria, -, checks, -, review, hreview, coverage,
    hcoverage, revisions, -, heq⟩ := h
  cases heq
  simp only [readReview, Option.bind_eq_bind, Option.bind_eq_some_iff] at hreview
  obtain ⟨_, -, outcome, -, reportPath, hpath, reason, hreason, heq⟩ := hreview
  cases heq
  simp only [readCoverage, Option.bind_eq_bind, Option.bind_eq_some_iff] at hcoverage
  obtain ⟨_, -, outcome, -, reason, hcoverageReason, items, -, heq⟩ := hcoverage
  cases heq
  exact ⟨htext hcoverageReason, htext hreason, htext hpath⟩

/-! ## The evaluation -/

theorem keyed_evaluatePhaseGates : (decideReview record proof
    (decideCoverage record proof (visitChecks record proof))).Keyed :=
  keyed_decideReview
    (decideCoverage_of (P := Decisions.Keyed) keyed_visitChecks fun _ _ h _ => h.put)

end Proof

/-- **What `evaluatePhaseGates` decides.**  For every record that the schema
admits and every proof there is at most one decision for each gate, and none
of them is missing if and only if the record is complete. -/
theorem evaluatePhaseGates_complete (value : JsValue) (record : PhaseGateRecord)
    (proof : PhaseGateProof) (h : readPhaseGateRecord value = some record) :
    ((evaluatePhaseGates record proof).map (·.gate)).Nodup ∧
      ((∀ decision ∈ evaluatePhaseGates record proof, decision.status ≠ .missing) ↔
        Complete record proof) := by
  obtain ⟨hcoverage, hreason, hpath⟩ := readPhaseGateRecord_some h
  have hkeyed : (decideReview record proof
      (decideCoverage record proof (visitChecks record proof))).Keyed :=
    keyed_evaluatePhaseGates
  have hunreviewed : (decideCoverage record proof (visitChecks record proof)).Unreviewed :=
    decideCoverage_of (P := Decisions.Unreviewed) unreviewed_visitChecks fun _ _ hd hgate =>
      hd.put (hgate ▸ by decide)
  constructor
  · rw [evaluatePhaseGates, List.map_map]
    have hgates := List.map_congr_left hkeyed.gate
    exact hgates ▸ hkeyed.nodup
  · have hclean : (∀ decision ∈ evaluatePhaseGates record proof, decision.status ≠ .missing) ↔
        (decideReview record proof
          (decideCoverage record proof (visitChecks record proof))).Clean := by
      rw [evaluatePhaseGates, List.forall_mem_map]
      rfl
    rw [hclean, clean_decideReview hunreviewed hreason hpath, clean_decideCoverage,
      clean_visitChecks]
    constructor
    · rintro ⟨⟨⟨hids, hrequired⟩, hcovered, hnotCovered⟩, hreviewed, hnotReviewed⟩
      exact ⟨hids, hrequired, fun hflag =>
        (coverageGap_eq_nil_iff hids hcoverage).mp (hcovered hflag), hnotCovered, hreviewed,
        hnotReviewed⟩
    · rintro ⟨hids, hrequired, hcovered, hnotCovered, hreviewed, hnotReviewed⟩
      exact ⟨⟨⟨hids, hrequired⟩, fun hflag =>
        (coverageGap_eq_nil_iff hids hcoverage).mpr (hcovered hflag), hnotCovered⟩, hreviewed,
        hnotReviewed⟩

/-! ### One covered criterion -/

/-- The record of a phase with one criterion, one test and a code review. -/
def exampleValue : JsValue :=
  record [("phaseId", text "phase-1"),
    ("flags", record [("needCodeReview", bool true), ("needTestCoverage", bool true)]),
    ("criteria", arr [record [("id", text "ordering"),
      ("description", text "Preserve request order")]]),
    ("checks", arr [record [("id", text "behavior"), ("gate", text "tests"),
      ("required", bool true), ("command", text "runner test"), ("cwd", text "."),
      ("outcome", text "passed"), ("evidence", arr [record [("path", text "run.log")]])]]),
    ("review", record [("outcome", text "approved"), ("reportPath", text "review.md")]),
    ("coverage", record [("outcome", text "sufficient"),
      ("criteria", arr [record [("criterionId", text "ordering"),
        ("checkIds", arr [text "behavior"]), ("testPaths", arr [text "ordering.test.ts"]),
        ("assertions", text "Two queued requests return in original order.")]])])]

def exampleRecord : PhaseGateRecord where
  phaseId := js "phase-1"
  flags := { needCodeReview := true, needTestCoverage := true }
  criteria := [{ id := js "ordering", description := js "Preserve request order" }]
  checks :=
    [{ id := js "behavior"
       gate := .tests
       required := true
       command := js "runner test"
       cwd := js "."
       outcome := .passed
       evidence := [{ path := js "run.log", toolCallId := none }]
       reason := none }]
  review := { outcome := .approved, reportPath := some (js "review.md"), reason := none }
  coverage :=
    { outcome := .sufficient
      reason := none
      criteria :=
        [{ criterionId := js "ordering"
           checkIds := [js "behavior"]
           testPaths := [js "ordering.test.ts"]
           assertions := js "Two queued requests return in original order." }] }
  revisions := none

/-- A proof that reports the same on everything, and knows every source. -/
def constantProof (report : Option JsString) : PhaseGateProof where
  check := fun _ => report
  review := fun _ => report
  source := fun _ => true

/-- The record that is read, and its decisions with either answer, evaluated. -/
theorem exampleRecord_holds :
    readPhaseGateRecord exampleValue = some exampleRecord ∧
      (∀ decision ∈ evaluatePhaseGates exampleRecord (constantProof none),
        decision.status ≠ .missing) ∧
      ∀ decision ∈ evaluatePhaseGates exampleRecord (constantProof (some [])),
        decision.status ≠ .missing := by
  decide +kernel

/-- Nothing is missing in the example, so that it is complete. -/
theorem evaluatePhaseGates_complete_example :
    (∀ decision ∈ evaluatePhaseGates exampleRecord (constantProof none),
        decision.status ≠ .missing) ∧
      Complete exampleRecord (constantProof none) := by
  obtain ⟨hread, hclean, -⟩ := exampleRecord_holds
  exact ⟨hclean, (evaluatePhaseGates_complete exampleValue exampleRecord (constantProof none)
    hread).2.mp hclean⟩

/-- A report of the empty string counts as no problem: it need not be `null`. -/
theorem evaluatePhaseGates_empty_report :
    ¬ ∀ (value : JsValue) (record : PhaseGateRecord) (proof : PhaseGateProof),
      readPhaseGateRecord value = some record →
        ((∀ decision ∈ evaluatePhaseGates record proof, decision.status ≠ .missing) →
          ∀ check ∈ record.checks, check.required = true →
            check.outcome = .passed ∧ proof.check check = none) := by
  intro h
  obtain ⟨hread, -, hclean⟩ := exampleRecord_holds
  have hnull := h exampleValue exampleRecord (constantProof (some [])) hread hclean
  have hreport := (hnull _ List.mem_cons_self rfl).2
  exact absurd hreport (by decide)

end Hepha.Exchange
