import Hepha.Exchange.Complete

/-!
# Revisions of a phase-gate record

A worker may change the record it was admitted with.  A change of the flags, and
a required check or a criterion that is gone, needs an entry in the list of
revisions that says what was implemented and why.

The guard looks entries up by their identifiers and compares no other field.
What it accepts without an entry keeps the flags, the identifiers of the
criteria and those of the required checks; it may give a criterion another
description and a check another gate, command or working directory.

* `exists_satisfied`: the gate of a required check is satisfied when nothing is
  missing;
* `undescribed_spec`: what the guard accepts without an entry;
* `validatePhaseGateRevision_iff`: when that is all a worker may change.
-/

namespace Hepha.Exchange

open Decisions

/-! ## The guard -/

/-- `after.revisions?.at(-1)`. -/
def PhaseGateRecord.lastRevision (record : PhaseGateRecord) : Option PhaseGateRevision :=
  record.revisions.bind List.getLast?

section Guard

variable (before after : PhaseGateRecord)

/-- A required check of the old record that the new one does not require. -/
def removedChecks : Bool :=
  before.checks.any fun check =>
    check.required && !after.checks.any fun c => c.id == check.id && c.required

/-- A criterion of the old record that the new one does not have. -/
def removedCriteria : Bool :=
  before.criteria.any fun c => !after.criteria.any fun a => a.id == c.id

/-- A failure on record: of a required behavioral test, or of the review. -/
def recordedFailure : Bool :=
  (before.checks.any fun c => c.required && (c.gate == .tests || c.gate == .gherkinE2e) &&
    c.outcome == .failed) || before.review.outcome == .changesRequired

/-- The change takes a gate away. -/
def disablesGate : Bool :=
  removedChecks before after || removedCriteria before after ||
    (before.flags.needTestCoverage && !after.flags.needTestCoverage) ||
    (before.flags.needCodeReview && !after.flags.needCodeReview)

/-- The last revision says what was changed, and why. -/
def describes (source : JsString → Bool) (revision : PhaseGateRevision) : Bool :=
  revision.before == before.flags && revision.after == after.flags &&
    !revision.reason.trim.isEmpty && !revision.implementedScope.trim.isEmpty &&
    !revision.evidencePaths.isEmpty && !revision.evidencePaths.any fun p => !source p

/-- `validatePhaseGateRevision`: what is wrong with a change of the record. -/
def validatePhaseGateRevision (source : JsString → Bool) : Option JsString :=
  if before.phaseId ≠ after.phaseId then
    some (js "The record cannot change its assigned phase identity.")
  else if before.flags = after.flags ∧ removedChecks before after = false ∧
      removedCriteria before after = false then none
  else if !after.lastRevision.any (describes before after source) then
    some (js ("Flag revision needs previous/new values, implemented scope, justification " ++
      "and source evidence."))
  else if disablesGate before after && recordedFailure before then
    some (js "Resolve recorded failing checks/review findings before disabling a gate.")
  else none

end Guard

/-! ## Weakened gates -/

/-- The check of the new record runs what the old one declared. -/
structure SameExecution (check c : PhaseGateCheck) : Prop where
  id : c.id = check.id
  gate : c.gate = check.gate
  command : c.command = check.command
  cwd : c.cwd = check.cwd

/-- The last revision of the new record gives both flags. -/
def Described (before after : PhaseGateRecord) : Prop :=
  ∃ revision ∈ after.lastRevision, revision.before = before.flags ∧ revision.after = after.flags

/-- **Nothing is weakened**: the gates of the old record are there in the new one,
and when nothing is missing there, they are satisfied by what was declared. -/
structure NotWeakened (before after : PhaseGateRecord) : Prop where
  flags : after.flags = before.flags
  criteria : ∀ criterion ∈ before.criteria, criterion ∈ after.criteria
  checks : ∀ check ∈ before.checks, check.required = true →
    ∃ c ∈ after.checks, c.required = true ∧ SameExecution check c
  satisfied : ∀ proof, (∀ decision ∈ evaluatePhaseGates after proof, decision.status ≠ .missing) →
    ∀ check ∈ before.checks, check.required = true →
      (∃ c ∈ after.checks, c.required = true ∧ SameExecution check c ∧ Passed proof c) ∧
        ∃ decision ∈ evaluatePhaseGates after proof,
          decision.gate = check.gate.kind ∧ decision.status = .satisfied

/-- No entry of the old record that the new one has by its identifier is edited
in the fields that the guard does not compare. -/
structure EntriesKept (before after : PhaseGateRecord) : Prop where
  criteria : ∀ criterion ∈ before.criteria, (∃ a ∈ after.criteria, a.id = criterion.id) →
    ∃ a ∈ after.criteria, a.id = criterion.id ∧ a.description = criterion.description
  checks : ∀ check ∈ before.checks, check.required = true →
    (∃ c ∈ after.checks, c.id = check.id ∧ c.required = true) →
    ∃ c ∈ after.checks, c.id = check.id ∧ c.required = true ∧ c.gate = check.gate ∧
      c.command = check.command ∧ c.cwd = check.cwd

/-! ## The gate of a required check -/

section Decided

variable {record : PhaseGateRecord} {proof : PhaseGateProof} {decisions : Decisions}
  {decision : FeaturePhaseQualityGateDecision} {gate : FeatureQualityGateKind}

/-- The gate is decided, and not as one that does not apply. -/
structure Decided (gate : FeatureQualityGateKind) (decisions : Decisions) : Prop where
  mem : ∃ entry ∈ decisions, entry.1 = gate
  status : ∀ entry ∈ decisions, entry.1 = gate →
    entry.2.status = .satisfied ∨ entry.2.status = .missing

theorem Decided.put (h : Decided gate decisions)
    (hnew : decision.gate ≠ gate ∨ decision.status = .satisfied ∨ decision.status = .missing) :
    Decided gate (decisions.put decision) where
  mem := by
    obtain ⟨entry, hentry, hkey⟩ := h.mem
    by_cases hgate : decision.gate = gate
    · exact ⟨_, JsMap.mem_set.2 (.inl rfl), hgate⟩
    · refine ⟨entry, JsMap.mem_set.2 (.inr ⟨hentry, fun heq => hgate ?_⟩), hkey⟩
      exact heq.symm.trans hkey
  status := by
    intro entry hentry hkey
    rcases JsMap.mem_set.1 hentry with rfl | ⟨hmem, -⟩
    · exact hnew.resolve_left fun hne => hne hkey
    · exact h.status entry hmem hkey

theorem Decided.putIfAbsent (h : Decided gate decisions) :
    Decided gate (decisions.putIfAbsent decision) := by
  unfold Decisions.putIfAbsent
  split
  · exact h
  · rename_i hhas
    refine h.put (.inl fun hgate => hhas ?_)
    obtain ⟨entry, hentry, hkey⟩ := h.mem
    rw [has, List.contains_iff_mem]
    exact (hkey.trans hgate.symm) ▸ List.mem_map_of_mem hentry

/-- Every decision on the checks is that a gate is satisfied or missing. -/
theorem status_visitChecks : ∀ entry ∈ (visitChecks record proof).decisions,
    entry.2.status = .satisfied ∨ entry.2.status = .missing := by
  unfold visitChecks
  refine List.foldlRecOn (motive := fun s : Checked => ∀ entry ∈ s.decisions,
    entry.2.status = .satisfied ∨ entry.2.status = .missing) _ _ (by simp) ?_
  intro s h check _
  refine visitCheck_decisions (P := fun decisions => ∀ entry ∈ decisions,
    entry.2.status = .satisfied ∨ entry.2.status = .missing) h
    fun decision _ hstatus entry hentry => ?_
  rcases JsMap.mem_set.1 hentry with rfl | ⟨hmem, -⟩
  · exact hstatus
  · exact h entry hmem

theorem mem_put : ∃ entry ∈ decisions.put decision, entry.1 = decision.gate :=
  ⟨_, JsMap.mem_set.2 (.inl rfl), rfl⟩

theorem mem_put_of_mem (h : ∃ entry ∈ decisions, entry.1 = gate) :
    ∃ entry ∈ decisions.put decision, entry.1 = gate := by
  obtain ⟨entry, hentry, hkey⟩ := h
  by_cases hgate : decision.gate = gate
  · exact hgate ▸ mem_put
  · exact ⟨entry, JsMap.mem_set.2 (.inr ⟨hentry, fun heq => hgate (heq.symm.trans hkey)⟩), hkey⟩

/-- A required check decides its gate. -/
theorem mem_visitCheck {s : Checked} {check : PhaseGateCheck} (hrequired : check.required = true) :
    ∃ entry ∈ (visitCheck proof s check).decisions, entry.1 = check.gate.kind := by
  unfold visitCheck
  dsimp only
  split
  · exact mem_put
  · split
    · exact mem_put
    · dsimp only
      unfold Decisions.putIfAbsent
      split
      · rename_i hhas
        rw [has, List.contains_iff_mem, List.mem_map] at hhas
        exact hhas
      · exact mem_put

theorem mem_visitChecks {check : PhaseGateCheck} (hcheck : check ∈ record.checks)
    (hrequired : check.required = true) :
    ∃ entry ∈ (visitChecks record proof).decisions, entry.1 = check.gate.kind := by
  obtain ⟨front, rest, hsplit⟩ := List.append_of_mem hcheck
  rw [visitChecks, hsplit, List.foldl_append, List.foldl_cons]
  refine List.foldlRecOn (motive := fun s : Checked =>
    ∃ entry ∈ s.decisions, entry.1 = check.gate.kind) _ _ (mem_visitCheck hrequired) ?_
  exact fun s h other _ => visitCheck_decisions
    (P := fun decisions => ∃ entry ∈ decisions, entry.1 = check.gate.kind) h
    fun _ _ _ => mem_put_of_mem h

/-- **The gate of a required check is satisfied when nothing is missing.** -/
theorem exists_satisfied {check : PhaseGateCheck} (hcheck : check ∈ record.checks)
    (hrequired : check.required = true)
    (hclean : ∀ decision ∈ evaluatePhaseGates record proof, decision.status ≠ .missing) :
    ∃ decision ∈ evaluatePhaseGates record proof,
      decision.gate = check.gate.kind ∧ decision.status = .satisfied := by
  have hchecks : Decided check.gate.kind (visitChecks record proof).decisions :=
    ⟨mem_visitChecks hcheck hrequired, fun entry hentry _ => status_visitChecks entry hentry⟩
  have hcoverage : Decided check.gate.kind
      (decideCoverage record proof (visitChecks record proof)) := by
    unfold decideCoverage
    refine Decided.putIfAbsent ?_
    split
    · dsimp only
      split
      · exact hchecks.putIfAbsent
      · exact hchecks.put (.inr (.inr rfl))
    · split
      · exact hchecks.put (.inr (.inr rfl))
      · split
        · exact hchecks.put (.inr (.inr rfl))
        · exact hchecks
  have hreview : Decided check.gate.kind
      (decideReview record proof (decideCoverage record proof (visitChecks record proof))) := by
    unfold decideReview
    have hother : FeatureQualityGateKind.codeReview ≠ check.gate.kind :=
      check.gate.kind_ne_codeReview.symm
    split
    · split <;> exact hcoverage.put (.inl hother)
    · exact hcoverage.put (.inl hother)
  obtain ⟨entry, hentry, hkey⟩ := hreview.mem
  refine ⟨entry.2, List.mem_map_of_mem hentry, ?_, ?_⟩
  · rw [keyed_evaluatePhaseGates.gate entry hentry, hkey]
  · exact (hreview.status entry hentry hkey).resolve_right
      (hclean entry.2 (List.mem_map_of_mem hentry))

end Decided

/-! ## What the guard accepts without an entry -/

section Accepted

variable {before after : PhaseGateRecord} {source : JsString → Bool}

theorem removedChecks_eq_false : removedChecks before after = false ↔
    ∀ check ∈ before.checks, check.required = true →
      ∃ c ∈ after.checks, c.id = check.id ∧ c.required = true := by
  simp [removedChecks]

theorem removedCriteria_eq_false : removedCriteria before after = false ↔
    ∀ criterion ∈ before.criteria, ∃ a ∈ after.criteria, a.id = criterion.id := by
  simp [removedCriteria]

/-- The flags and the identifiers are kept. -/
theorem undescribed_spec (haccept : validatePhaseGateRevision before after source = none)
    (hundescribed : ¬Described before after) :
    after.flags = before.flags ∧
      (∀ check ∈ before.checks, check.required = true →
        ∃ c ∈ after.checks, c.id = check.id ∧ c.required = true) ∧
      ∀ criterion ∈ before.criteria, ∃ a ∈ after.criteria, a.id = criterion.id := by
  unfold validatePhaseGateRevision at haccept
  split at haccept
  · cases haccept
  · split at haccept
    · rename_i hsame
      exact ⟨hsame.1.symm, removedChecks_eq_false.1 hsame.2.1,
        removedCriteria_eq_false.1 hsame.2.2⟩
    · split at haccept
      · cases haccept
      · rename_i hdescribes
        refine absurd ?_ hundescribed
        rw [Bool.not_eq_true', Bool.not_eq_false, Option.any_eq_true] at hdescribes
        obtain ⟨revision, hrevision, hdescribes⟩ := hdescribes
        simp only [describes, Bool.and_eq_true, beq_iff_eq] at hdescribes
        obtain ⟨⟨⟨⟨⟨hbefore, hafter⟩, -⟩, -⟩, -⟩, -⟩ := hdescribes
        exact ⟨revision, hrevision, hbefore, hafter⟩

/-- **When nothing is weakened without an entry.**  What the guard accepts
without an entry weakens nothing if and only if the entries that stay are not
edited in the fields it does not compare. -/
theorem validatePhaseGateRevision_iff (value value' : JsValue) (before after : PhaseGateRecord)
    (source : JsString → Bool) (_hbefore : readPhaseGateRecord value = some before)
    (hafter : readPhaseGateRecord value' = some after)
    (haccept : validatePhaseGateRevision before after source = none)
    (hundescribed : ¬Described before after) :
    NotWeakened before after ↔ EntriesKept before after := by
  obtain ⟨hflags, hchecks, hcriteria⟩ := undescribed_spec haccept hundescribed
  constructor
  · intro h
    refine ⟨fun criterion hcriterion _ => ⟨criterion, h.criteria criterion hcriterion, rfl, rfl⟩,
      fun check hcheck hrequired _ => ?_⟩
    obtain ⟨c, hc, hcrequired, hsame⟩ := h.checks check hcheck hrequired
    exact ⟨c, hc, hsame.id, hcrequired, hsame.gate, hsame.command, hsame.cwd⟩
  · intro h
    have hkept : ∀ check ∈ before.checks, check.required = true →
        ∃ c ∈ after.checks, c.required = true ∧ SameExecution check c := by
      intro check hcheck hrequired
      obtain ⟨c, hc, hid, hcrequired, hgate, hcommand, hcwd⟩ :=
        h.checks check hcheck hrequired (hchecks check hcheck hrequired)
      exact ⟨c, hc, hcrequired, hid, hgate, hcommand, hcwd⟩
    refine ⟨hflags, ?_, hkept, ?_⟩
    · intro criterion hcriterion
      obtain ⟨a, ha, hid, hdescription⟩ :=
        h.criteria criterion hcriterion (hcriteria criterion hcriterion)
      cases a
      cases criterion
      cases hid
      cases hdescription
      exact ha
    · intro proof hclean check hcheck hrequired
      obtain ⟨c, hc, hcrequired, hsame⟩ := hkept check hcheck hrequired
      have hcomplete : Complete after proof :=
        (evaluatePhaseGates_complete value' after proof hafter).2.mp hclean
      refine ⟨⟨c, hc, hcrequired, hsame, hcomplete.required c hc hcrequired⟩, ?_⟩
      exact hsame.gate ▸ exists_satisfied hc hcrequired hclean

end Accepted

/-! ### A check with another command -/

open JsValue

/-- The example with an optional linter, and with some command for its test. -/
def revisedValue (command : String) : JsValue :=
  record [("phaseId", text "phase-1"),
    ("flags", record [("needCodeReview", bool true), ("needTestCoverage", bool true)]),
    ("criteria", arr [record [("id", text "ordering"),
      ("description", text "Preserve request order")]]),
    ("checks", arr [record [("id", text "behavior"), ("gate", text "tests"),
      ("required", bool true), ("command", text command), ("cwd", text "."),
      ("outcome", text "passed"), ("evidence", arr [record [("path", text "run.log")]])],
      record [("id", text "style"), ("gate", text "lint"), ("required", bool false),
      ("command", text "runner lint"), ("cwd", text "."), ("outcome", text "pending"),
      ("evidence", arr [])]]),
    ("review", record [("outcome", text "approved"), ("reportPath", text "review.md")]),
    ("coverage", record [("outcome", text "sufficient"),
      ("criteria", arr [record [("criterionId", text "ordering"),
        ("checkIds", arr [text "behavior"]), ("testPaths", arr [text "ordering.test.ts"]),
        ("assertions", text "Two queued requests return in original order.")]])])]

def revisedRecord (command : String) : PhaseGateRecord :=
  { exampleRecord with
    checks :=
      [{ id := js "behavior"
         gate := .tests
         required := true
         command := js command
         cwd := js "."
         outcome := .passed
         evidence := [{ path := js "run.log", toolCallId := none }]
         reason := none },
       { id := js "style"
         gate := .lint
         required := false
         command := js "runner lint"
         cwd := js "."
         outcome := .pending
         evidence := []
         reason := none }] }

theorem not_described_revisedRecord (command : String) :
    ¬Described exampleRecord (revisedRecord command) := by
  rintro ⟨revision, hrevision, -⟩
  cases hrevision

/-- One more check weakens nothing. -/
theorem validatePhaseGateRevision_iff_example :
    NotWeakened exampleRecord (revisedRecord "runner test") := by
  refine (validatePhaseGateRevision_iff exampleValue (revisedValue "runner test") exampleRecord
    (revisedRecord "runner test") (fun _ => true) (by decide) (by decide)
    (by decide) (not_described_revisedRecord _)).mpr ⟨?_, ?_⟩
  · decide
  · decide

/-- The guard accepts another command for a required check without an entry. -/
theorem revised_command_accepted :
    ¬∀ (value value' : JsValue) (before after : PhaseGateRecord) (source : JsString → Bool),
      readPhaseGateRecord value = some before → readPhaseGateRecord value' = some after →
        validatePhaseGateRevision before after source = none → ¬Described before after →
          NotWeakened before after := by
  intro h
  have hkept := (h exampleValue (revisedValue "exit 0") exampleRecord (revisedRecord "exit 0")
    (fun _ => true) (by decide) (by decide) (by decide)
    (not_described_revisedRecord _)).checks
  obtain ⟨c, hc, hrequired, hsame⟩ := hkept _ List.mem_cons_self rfl
  have hcommand : ∀ c ∈ (revisedRecord "exit 0").checks, c.command ≠ js "runner test" := by
    decide
  exact hcommand c hc hsame.command

end Hepha.Exchange
