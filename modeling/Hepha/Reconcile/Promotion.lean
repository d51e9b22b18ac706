import Hepha.Lib.Cut
import Hepha.Reconcile.Adapter

/-!
# What a promotion rests on

When a call promotes a phase, the numbers of the phases are unique, every phase
below is terminal, no completed document has an unchecked task and every task
of the promoted phase is checked.  For the gates the same is not true: their
rows are free text, and the code reads a row in another way than it is written
when

* the row has fewer than three cells, so that it is passed over,
* a later row for the same gate takes its place,
* its status has a settled word only inside another word or after a negation, as
  in `not passed`, `unsatisfied` or `incomplete`, or
* its evidence cells are empty, and only the bar that joins them is left.

A promotion is sound exactly when no row of the table is of these kinds, unless
it would have settled its gate anyway.
-/

namespace Hepha.Reconcile

open JsString Pattern Markdown

/-! ## What a status cell states -/

/-- The phrases that state satisfaction, non-applicability or waiver. -/
def settledPhrases : List String :=
  ["satisfied", "pass", "passed", "approved", "complete", "completed", "done",
    "not applicable", "n/a", "na", "waived", "not required"]

/-- A letter of a word, an apostrophe being one. -/
def isWordUnit (u : CodeUnit) : Bool :=
  isAlphanumeric u || u == 0x27 || u == 0x2019

/-- A word that negates what follows it. -/
def isNegation (word : JsString) : Bool :=
  (["not", "no", "never", "cannot", "non", "un", "without"].map js).contains word ||
    (js "n't").isSuffixOf word || [0x6E, 0x2019, 0x74].isSuffixOf word

/-- The text before a phrase leaves it standing on its own and not negated. -/
def leavesPlain (before : JsString) : Bool :=
  before.getLast?.all (fun u => !isWordUnit u) &&
    (before.splitOnP fun u => !isWordUnit u).all fun word => !isNegation word

/-- The status has a settled phrase that stands on its own and is not negated. -/
def affirms (casing : Casing) (status : JsString) : Bool :=
  let text := casing.toLowerCase status
  (List.range (text.length + 1)).any fun i => leavesPlain (text.take i) &&
    settledPhrases.any fun phrase => (js phrase).isPrefixOf (text.drop i) &&
      (text.drop (i + phrase.length)).head?.all fun u => !isWordUnit u

example : (["review passed", "not passed", "unsatisfied"].map fun status =>
    affirms .ascii (js status)) = [true, false, false] := by
  decide

theorem includes_iff {text : JsString} {word : String} :
    text.includes word = true ↔ js word <:+: text := by
  rw [includes, List.any_eq_true, List.infix_iff_prefix_suffix]
  simp only [List.mem_tails, List.isPrefixOf_iff_prefix]
  exact ⟨fun ⟨s, hsuffix, hstarts⟩ => ⟨s, hstarts, hsuffix⟩,
    fun ⟨s, hstarts, hsuffix⟩ => ⟨s, hsuffix, hstarts⟩⟩

/-- The words under which `normalizeGateStatus` counts a gate as settled. -/
def settledWords : List String :=
  ["satisfied", "pass", "approved", "complete", "done", "not applicable", "n/a", "na", "waived",
    "not required"]

theorem isSettled_normalizeGateStatus {casing : Casing} {status : JsString} :
    (normalizeGateStatus casing status).isSettled = true ↔
      ∃ word ∈ settledWords, js word <:+: casing.toLowerCase status := by
  have hwords : settledWords = ["satisfied", "pass", "approved", "complete", "done"] ++
      (["not applicable", "n/a", "na"] ++ ["waived", "not required"]) := rfl
  simp only [← includes_iff, ← List.any_eq_true, hwords, List.any_append]
  unfold normalizeGateStatus
  dsimp only
  split
  · simp_all [GateStatus.isSettled]
  · split
    · simp_all [GateStatus.isSettled]
    · split
      · simp_all [GateStatus.isSettled]
      · split <;> simp_all [GateStatus.isSettled]

theorem exists_settledWord : ∀ phrase ∈ settledPhrases,
    ∃ word ∈ settledWords, js word <:+: js phrase := by
  decide

/-- What a cell affirms, the code reads as settled. -/
theorem isSettled_of_affirms {casing : Casing} {status : JsString}
    (h : affirms casing status = true) : (normalizeGateStatus casing status).isSettled = true := by
  obtain ⟨i, -, hi⟩ := List.any_eq_true.mp h
  rw [Bool.and_eq_true] at hi
  obtain ⟨phrase, hphrase, hstarts⟩ := List.any_eq_true.mp hi.2
  rw [Bool.and_eq_true, List.isPrefixOf_iff_prefix] at hstarts
  obtain ⟨word, hword, hinfix⟩ := exists_settledWord phrase hphrase
  refine isSettled_normalizeGateStatus.2 ⟨word, hword, ?_⟩
  exact hinfix.trans (hstarts.1.isInfix.trans (List.drop_suffix i _).isInfix)

/-! ## The property -/

section Property

variable (input : Input) (disk : Disk)

/-- The status of a phase document, as the policy compares it. -/
def documentStatus (phase : PhaseDescriptor) : Option JsString :=
  normalizeReconciliationPhaseStatus input.casing
    ((disk.documents phase.documentPath).bind extractPhaseStatus)

/-- The tasks of a phase document. -/
def ledger (phase : PhaseDescriptor) : List PhaseTask :=
  ((disk.documents phase.documentPath).bind (input.readTasks phase)).getD []

/-- The rows of the gate table of a phase document. -/
def phaseGateRows (phase : PhaseDescriptor) : List (List JsString) :=
  ((disk.documents phase.documentPath).bind gateRows).getD []

/-- The gate that the first cell of a row names. -/
def rowGate (casing : Casing) (row : List JsString) : Option GateName :=
  row.head?.bind (normalizeGateName casing)

/-- The status cell of a row. -/
def statusCell (row : List JsString) : JsString :=
  (row[1]?).getD []

/-- A row with an affirmative status and with evidence. -/
def Proves (casing : Casing) (row : List JsString) : Prop :=
  affirms casing (statusCell row) = true ∧ ∃ cell ∈ row.drop 2, cell ≠ []

/-- What a promotion of phase `n` must rest on. -/
structure PromotionSound (n : ℕ) : Prop where
  unique : (input.phases.map PhaseDescriptor.number).Nodup
  earlier : ∀ phase ∈ input.phases, phase.number < n →
    isTerminal (documentStatus input disk phase) = true
  completed : ∀ phase ∈ input.phases, documentStatus input disk phase = some (js "COMPLETED") →
    ∀ task ∈ ledger input disk phase, task.checked = true
  listed : ∃ phase ∈ input.phases, phase.number = n
  checked : ∀ phase ∈ input.phases, phase.number = n →
    ∀ task ∈ ledger input disk phase, task.checked = true
  named : ∀ phase ∈ input.phases, phase.number = n → ∀ gate ∈ requiredGates,
    ∃ row ∈ phaseGateRows disk phase, rowGate input.casing row = some gate
  settled : ∀ phase ∈ input.phases, phase.number = n → ∀ row ∈ phaseGateRows disk phase,
    (rowGate input.casing row).isSome = true → Proves input.casing row

/-- A row that settles its gate when it is the one that counts. -/
def Counts (casing : Casing) (row : List JsString) : Prop :=
  ∃ gate, readGate casing row = some gate ∧ gateProblem gate.name (some gate) = none

/-- No row of the table is read in another way than it is written. -/
structure PlainGates (casing : Casing) (rows : List (List JsString)) : Prop where
  full : ∀ row ∈ rows, (rowGate casing row).isSome = true → 3 ≤ row.length
  overridden : ∀ before row after gate, rows = before ++ row :: after →
    rowGate casing row = some gate →
    (∃ later ∈ after, 3 ≤ later.length ∧ rowGate casing later = some gate) → Counts casing row
  affirmative : ∀ row ∈ rows, (rowGate casing row).isSome = true →
    (normalizeGateStatus casing (statusCell row)).isSettled = true →
      affirms casing (statusCell row) = true
  evidence : ∀ row ∈ rows, (rowGate casing row).isSome = true →
    joinEvidence row ≠ [] → ∃ cell ∈ row.drop 2, cell ≠ []

end Property

/-! ## The gate that counts -/

/-- The last of the gates with a name. -/
def lastGate (gates : List Gate) (name : GateName) : Option Gate :=
  gates.reverse.find? fun gate => gate.name == name

theorem lastGate_concat {gates : List Gate} {gate : Gate} {name : GateName} :
    lastGate (gates ++ [gate]) name =
      if gate.name = name then some gate else lastGate gates name := by
  rw [lastGate, List.reverse_concat, List.find?_cons]
  by_cases h : gate.name = name
  · simp [h]
  · simp [beq_eq_false_iff_ne.mpr h, h, lastGate]

/-- The map of `parseQualityGates` keeps the last gate of each name. -/
theorem get_foldl_set (gates : List Gate) (name : GateName) :
    let entries := gates.foldl (fun entries gate => JsMap.set entries gate.name gate) []
    JsMap.get ((entries.map Prod.snd).map fun gate => (gate.name, gate)) name =
      lastGate gates name := by
  have hentries : ∀ gates : List Gate,
      let entries := gates.foldl (fun entries gate => JsMap.set entries gate.name gate) []
      (entries.map Prod.fst).Nodup ∧ ∀ entry, entry ∈ entries ↔
        lastGate gates entry.1 = some entry.2 := by
    intro gates
    induction gates using List.reverseRecOn with
    | nil => simp [lastGate]
    | append_singleton gates gate ih =>
        rw [List.foldl_append, List.foldl_cons, List.foldl_nil]
        refine ⟨JsMap.nodup_keys_set ih.1, fun entry => ?_⟩
        rw [JsMap.mem_set, ih.2, lastGate_concat]
        rcases entry with ⟨key, value⟩
        by_cases h : gate.name = key
        · subst h
          simp [eq_comm]
        · simp [h, Ne.symm h]
  obtain ⟨hnodup, hmem⟩ := hentries gates
  dsimp only
  generalize gates.foldl (fun entries gate => JsMap.set entries gate.name gate) [] = entries
    at hnodup hmem
  have hself : (entries.map Prod.snd).map (fun gate => (gate.name, gate)) = entries := by
    rw [List.map_map]
    refine (List.map_congr_left ?_).trans (List.map_id _)
    rintro ⟨key, gate⟩ hentry
    have hname := List.find?_some ((hmem _).mp hentry)
    simp only [beq_iff_eq] at hname
    simp [hname]
  rw [hself]
  cases hlast : lastGate gates name with
  | none =>
      refine JsMap.get_eq_none_iff.2 fun hkey => ?_
      obtain ⟨entry, hentry, rfl⟩ := List.mem_map.mp hkey
      rw [(hmem entry).mp hentry] at hlast
      cases hlast
  | some gate => exact JsMap.get_of_mem hnodup ((hmem (name, gate)).mpr hlast)

theorem validateSettledGates_eq_none {casing : Casing} {rows : List (List JsString)} :
    validateSettledGates (((rows.filterMap (readGate casing)).foldl
        (fun gates gate => JsMap.set gates gate.name gate) []).map Prod.snd) = none ↔
      ∀ name, gateProblem name (lastGate (rows.filterMap (readGate casing)) name) = none := by
  rw [validateSettledGates, List.findSome?_eq_none_iff]
  simp only [get_foldl_set]
  refine ⟨fun h name => h name ?_, fun h name _ => h name⟩
  cases name <;> decide

/-! ## What the policy promotes -/

/-- Neighbours of a sorted list that differ: the list has no repeated number. -/
theorem nodup_of_findDuplicate {phases : List PhaseFacts}
    (hsorted : phases.Pairwise fun left right => left.number ≤ right.number)
    (h : findDuplicate phases = none) : (phases.map PhaseFacts.number).Nodup := by
  have hlt : phases.Pairwise fun left right => left.number < right.number := by
    induction phases with
    | nil => exact .nil
    | cons phase rest ih =>
        cases rest with
        | nil => exact List.pairwise_singleton _ _
        | cons next rest =>
            obtain ⟨hle, hrest⟩ := List.pairwise_cons.mp hsorted
            simp only [findDuplicate, List.tail_cons, List.zip_cons_cons,
              List.findSome?_cons] at h ih
            have hne : next.number ≠ phase.number := by
              rintro heq
              rw [if_pos heq] at h
              cases h
            rw [if_neg hne] at h
            have hnext := ih hrest h
            have hfirst := hle next List.mem_cons_self
            refine List.pairwise_cons.mpr ⟨fun other hother => ?_, hnext⟩
            rcases List.mem_cons.mp hother with rfl | hother
            · omega
            · have := List.rel_of_pairwise_cons hnext hother
              omega
  exact List.pairwise_map.mpr (hlt.imp fun hlt => Nat.ne_of_lt hlt)

section Policy

variable {casing : Casing} {number : ℕ} {taskIds : List JsString} {reason : JsString}

theorem decideChecked_promote {phase : PhaseFacts} {documentStatus : JsString}
    {orderedTasks : List Task} {gates : List Gate}
    (h : decideChecked phase documentStatus orderedTasks gates = .promote number taskIds reason) :
    phase.number = number ∧ validateSettledGates gates = none := by
  unfold decideChecked at h
  dsimp only at h
  split at h
  · rename_i hstale
    simp only [Bool.and_eq_true, Option.isNone_iff_eq_none] at hstale
    cases h
    exact ⟨rfl, hstale.2⟩
  · split at h
    · cases h
    · split at h
      · split at h <;> cases h
      · rename_i hnone
        cases h
        exact ⟨rfl, hnone⟩

theorem decideTasks_promote {phase : PhaseFacts} {documentStatus featureTasksStatus : JsString}
    {orderedTasks : List Task} {gates : List Gate}
    (h : decideTasks phase documentStatus featureTasksStatus orderedTasks gates =
      .promote number taskIds reason) :
    phase.number = number ∧ (∀ task ∈ orderedTasks, task.checked = true) ∧
      validateSettledGates gates = none := by
  unfold decideTasks at h
  dsimp only at h
  split at h
  · cases h
  · split at h
    · cases h
    · split at h
      · rename_i hchecked
        obtain ⟨hnumber, hgates⟩ := decideChecked_promote h
        refine ⟨hnumber, fun task htask => ?_, hgates⟩
        simpa using List.find?_eq_none.mp hchecked task htask
      · split at h <;> cases h

theorem decidePhase_promote {phase : PhaseFacts}
    (h : decidePhase casing phase = .promote number taskIds reason) :
    phase.number = number ∧
      (normalizeReconciliationPhaseStatus casing phase.documentStatus).isSome = true ∧
        (∀ task ∈ phase.tasks.getD [], task.checked = true) ∧
          ∃ gates, phase.gates = some gates ∧ validateSettledGates gates = none := by
  unfold decidePhase at h
  split at h
  · cases h
  · split at h
    · rename_i documentStatus featureTasksStatus hstatus hfeatureTasks
      split at h
      · unfold decideUninitialized at h
        dsimp only at h
        split at h
        · cases h
        · split at h <;> cases h
      · split at h
        · cases h
        · rename_i gates hgates
          obtain ⟨hnumber, hchecked, hsettled⟩ := decideTasks_promote h
          refine ⟨hnumber, ?_, fun task htask => hchecked task
            ((List.mem_insertionSort _).mpr htask), gates, hgates, hsettled⟩
          cases hnone : normalizeReconciliationPhaseStatus casing phase.documentStatus with
          | none =>
              rw [hnone] at hstatus
              cases hstatus
          | some status => rfl
    · cases h

/-- What the policy has found when it promotes a phase. -/
structure Promotable (casing : Casing) (facts : List PhaseFacts) (number : ℕ) : Prop where
  nodup : (facts.map PhaseFacts.number).Nodup
  earlier : ∀ phase ∈ facts, phase.number < number →
    isTerminal (normalizeReconciliationPhaseStatus casing phase.documentStatus) = true
  completed : ∀ phase ∈ facts, uncheckedCompleted casing phase = none
  promoted : ∃ phase ∈ facts, phase.number = number ∧
    (normalizeReconciliationPhaseStatus casing phase.documentStatus).isSome = true ∧
      isTerminal (normalizeReconciliationPhaseStatus casing phase.documentStatus) = false ∧
        (∀ task ∈ phase.tasks.getD [], task.checked = true) ∧
          ∃ gates, phase.gates = some gates ∧ validateSettledGates gates = none

theorem reconcilePhaseState_promote {facts : List PhaseFacts}
    (h : reconcilePhaseState casing facts = .promote number taskIds reason) :
    Promotable casing facts number := by
  have hperm : (sortedPhases facts).Perm facts := List.perm_insertionSort _ _
  have hsorted : (sortedPhases facts).Pairwise fun left right => left.number ≤ right.number :=
    haveI : Std.Total fun left right : PhaseFacts => left.number ≤ right.number :=
      ⟨fun a b => Nat.le_total a.number b.number⟩
    haveI : IsTrans PhaseFacts fun left right => left.number ≤ right.number :=
      ⟨fun _ _ _ => Nat.le_trans⟩
    List.pairwise_insertionSort _ _
  unfold reconcilePhaseState at h
  dsimp only at h
  split at h
  · cases h
  · rename_i hduplicate
    split at h
    · cases h
    · rename_i hunchecked
      split at h
      · cases h
      · rename_i phase hfind
        obtain ⟨hnumber, hstatus, hchecked, hgates⟩ := decidePhase_promote h
        obtain ⟨hopen, before, after, hsplit, hterminal⟩ := List.find?_eq_some_iff_append.mp hfind
        have hmem : phase ∈ sortedPhases facts := by simp [hsplit]
        refine ⟨(hperm.map _).nodup_iff.mp (nodup_of_findDuplicate hsorted hduplicate),
          fun other hother hlt => ?_, fun other hother =>
            List.findSome?_eq_none_iff.mp hunchecked other (hperm.mem_iff.mpr hother),
          phase, hperm.mem_iff.mp hmem, hnumber, hstatus, by simpa using hopen, hchecked, hgates⟩
        -- a phase with a lesser number stands before the one that is not terminal
        rw [← hperm.mem_iff, hsplit, List.mem_append] at hother
        rcases hother with hbefore | hafter
        · simpa using hterminal other hbefore
        · rw [hsplit, List.pairwise_append] at hsorted
          rcases List.mem_cons.mp hafter with rfl | hafter
          · omega
          · have := List.rel_of_pairwise_cons hsorted.2.1 hafter
            omega

end Policy

/-! ## What a call has read -/

section Read

variable {input : Input} {disk : Disk}

theorem readPhases_inr {phases : List PhaseDescriptor} {facts : List PhaseFacts}
    (h : readPhases input disk phases = some (.inr facts)) :
    List.Forall₂ (fun phase fact => readPhase input disk phase = some (.facts fact))
      phases facts := by
  induction phases generalizing facts with
  | nil =>
      cases h
      exact .nil
  | cons phase rest ih =>
      simp only [readPhases, Option.bind_eq_bind, Option.bind_eq_some_iff] at h
      obtain ⟨reading, hreading, h⟩ := h
      cases reading with
      | repair outcome => cases h
      | facts fact =>
          simp only [Option.bind_eq_some_iff] at h
          obtain ⟨others, hothers, h⟩ := h
          cases others with
          | inl outcome => cases h
          | inr others =>
              cases h
              exact .cons hreading (ih hothers)

/-- A repair is not a promotion. -/
theorem readPhases_inl {phases : List PhaseDescriptor} {outcome : Outcome}
    (h : readPhases input disk phases = some (.inl outcome)) (number : ℕ)
    (taskIds : List JsString) (reason : JsString) :
    outcome.decision ≠ .promote number taskIds reason := by
  induction phases with
  | nil => cases h
  | cons phase rest ih =>
      simp only [readPhases, Option.bind_eq_bind, Option.bind_eq_some_iff] at h
      obtain ⟨reading, hreading, h⟩ := h
      cases reading with
      | repair repaired =>
          cases h
          unfold readPhase at hreading
          dsimp only at hreading
          split at hreading
          · cases hreading
          · split at hreading
            · cases hreading
              exact Decision.noConfusion
            · obtain ⟨tasks, -, hreading⟩ := Option.map_eq_some_iff.mp hreading
              split at hreading <;> cases hreading
              exact Decision.noConfusion
      | facts fact =>
          simp only [Option.bind_eq_some_iff] at h
          obtain ⟨others, hothers, h⟩ := h
          cases others with
          | inl repaired =>
              cases h
              exact ih hothers
          | inr others => cases h

/-- The facts of a phase are what its document says. -/
structure FactsOf (input : Input) (disk : Disk) (phase : PhaseDescriptor) (fact : PhaseFacts) :
    Prop where
  number : fact.number = phase.number
  documentStatus : normalizeReconciliationPhaseStatus input.casing fact.documentStatus =
    documentStatus input disk phase
  tasks : (fact.tasks.getD []).map Task.checked = (ledger input disk phase).map PhaseTask.checked
  gates : fact.gates =
    (disk.documents phase.documentPath).bind (parseQualityGates input.casing)

theorem readPhase_facts {phase : PhaseDescriptor} {fact : PhaseFacts}
    (h : readPhase input disk phase = some (.facts fact)) : FactsOf input disk phase fact := by
  unfold readPhase at h
  dsimp only at h
  split at h
  · rename_i hdocument
    cases h
    constructor <;> simp [documentStatus, ledger, hdocument]
  · rename_i markdown hdocument
    split at h
    · cases h
    · obtain ⟨tasks, htasks, h⟩ := Option.map_eq_some_iff.mp h
      split at h
      · cases h
      · cases h
        have hstatus : (truthy (some markdown)).bind extractPhaseStatus =
            extractPhaseStatus markdown := by
          cases markdown with
          | nil => rfl
          | cons u s => rfl
        constructor
        · rfl
        · simp [documentStatus, hdocument, hstatus]
        · simp [ledger, hdocument, htasks, Function.comp_def]
        · simp [hdocument]

theorem reconcile_promote {time : ℤ} {outcome : Outcome} {number : ℕ} {taskIds : List JsString}
    {reason : JsString} (h : reconcilePhaseStateOnDisk input disk time = some outcome)
    (hdecision : outcome.decision = .promote number taskIds reason) :
    ∃ facts, List.Forall₂ (FactsOf input disk) input.phases facts ∧
      Promotable input.casing facts number := by
  unfold reconcilePhaseStateOnDisk at h
  simp only [Option.bind_eq_bind, Option.bind_eq_some_iff] at h
  obtain ⟨reading, hreading, h⟩ := h
  cases reading with
  | inl repaired =>
      cases h
      exact absurd hdecision (readPhases_inl hreading _ _ _)
  | inr facts =>
      have hfacts := (readPhases_inr hreading).imp fun _ _ => readPhase_facts
      refine ⟨facts, hfacts, ?_⟩
      dsimp only at h
      split at h
      · rename_i promoted hpolicy
        split at h
        · cases h
          cases hdecision
        · simp only [Option.bind_eq_some_iff] at h
          obtain ⟨writes, -, h⟩ := h
          cases h
          cases hdecision
          exact reconcilePhaseState_promote hpolicy
      · rename_i hne
        cases h
        exact absurd hdecision (hne _ _ _)

end Read

/-! ## Rows and gates -/

section Rows

variable {casing : Casing}

theorem joinEvidence_ne_nil {line : JsString}
    (h : ∃ cell ∈ (tableCells line).drop 2, cell ≠ []) :
    joinEvidence (tableCells line) ≠ [] := by
  obtain ⟨cell, hcell, hne⟩ := h
  obtain ⟨piece, -, rfl⟩ := List.mem_map.mp (List.mem_of_mem_drop hcell)
  obtain ⟨u, hu, hwhite⟩ := exists_of_trim_ne_nil hne
  rw [joinEvidence, ne_eq, trim_eq_nil_iff]
  intro hall
  have hmem : u ∈ (js " | ").intercalate ((tableCells line).drop 2) :=
    (infix_intercalate hcell).mem hu
  exact absurd (hall u hmem) (by rw [hwhite]; exact Bool.false_ne_true)

/-- A row counts when it has its three cells, a settled status and evidence. -/
theorem counts_iff {row : List JsString} :
    Counts casing row ↔ (rowGate casing row).isSome = true ∧ 3 ≤ row.length ∧
      (normalizeGateStatus casing (statusCell row)).isSettled = true ∧ joinEvidence row ≠ [] := by
  rcases row with _ | ⟨name, _ | ⟨status, _ | ⟨third, rest⟩⟩⟩
  · simp [Counts, readGate]
  · simp [Counts, readGate]
  · simp [Counts, readGate]
  · have hjustification : ∀ evidence : JsString, evidence = evidence.trim →
        (((truthy (some evidence)).getD []).trim.isEmpty = false ↔ evidence ≠ []) := by
      intro evidence htrim
      cases evidence with
      | nil => simp [truthy, Option.filter, trim]
      | cons u s =>
          rw [truthy_some (List.cons_ne_nil u s), Option.getD_some, ← htrim]
          simp
    have htrim : joinEvidence (name :: status :: third :: rest) =
        (joinEvidence (name :: status :: third :: rest)).trim := by
      rw [joinEvidence, trim_trim]
    simp only [Counts, readGate, rowGate, statusCell, List.head?_cons, Option.bind_some,
      Option.map_eq_some_iff, List.getElem?_cons_succ, List.getElem?_cons_zero, Option.getD_some]
    constructor
    · rintro ⟨gate, ⟨gateName, hname, rfl⟩, hproblem⟩
      rw [gateProblem] at hproblem
      split at hproblem
      · cases hproblem
      · rename_i hsettled
        split at hproblem
        · cases hproblem
        · rename_i hevidence
          refine ⟨by rw [hname]; rfl, by simp, by simpa using hsettled, ?_⟩
          exact (hjustification _ htrim).mp (by simpa using hevidence)
    · rintro ⟨hname, -, hsettled, hevidence⟩
      obtain ⟨gateName, hname⟩ := Option.isSome_iff_exists.mp hname
      refine ⟨_, ⟨gateName, hname, rfl⟩, ?_⟩
      rw [gateProblem, if_neg (by simpa using hsettled),
        if_neg (by simpa using (hjustification _ htrim).mpr hevidence)]

/-- A row that affirms its gate and has evidence counts. -/
theorem counts_of_proves {line : JsString}
    (hgate : (rowGate casing (tableCells line)).isSome = true)
    (h : Proves casing (tableCells line)) : Counts casing (tableCells line) := by
  refine counts_iff.2 ⟨hgate, ?_, isSettled_of_affirms h.1, joinEvidence_ne_nil h.2⟩
  obtain ⟨cell, hcell, -⟩ := h.2
  have := List.length_pos_of_mem hcell
  rw [List.length_drop] at this
  omega

theorem readGate_eq_some {row : List JsString} {gate : Gate} (h : readGate casing row = some gate) :
    rowGate casing row = some gate.name ∧ 3 ≤ row.length := by
  rcases row with _ | ⟨name, _ | ⟨status, _ | ⟨third, rest⟩⟩⟩
  · cases h
  · cases h
  · cases h
  · obtain ⟨gateName, hname, rfl⟩ := Option.map_eq_some_iff.mp h
    exact ⟨hname, by simp⟩

theorem exists_readGate {row : List JsString} {name : GateName} (h : rowGate casing row = some name)
    (hlength : 3 ≤ row.length) : ∃ gate, readGate casing row = some gate ∧ gate.name = name := by
  rcases row with _ | ⟨first, _ | ⟨status, _ | ⟨third, rest⟩⟩⟩
  · simp at hlength
  · simp at hlength
  · simp at hlength
  · simp only [rowGate, List.head?_cons, Option.bind_some] at h
    exact ⟨_, Option.map_eq_some_iff.mpr ⟨name, h, rfl⟩, rfl⟩

/-- The row of the gate that counts, after which no row names this gate. -/
theorem lastGate_row (before : List (List JsString)) {after : List (List JsString)}
    {row : List JsString} {gate : Gate}
    (hgate : readGate casing row = some gate)
    (hafter : ∀ later ∈ after, 3 ≤ later.length → rowGate casing later ≠ some gate.name) :
    lastGate ((before ++ row :: after).filterMap (readGate casing)) gate.name = some gate := by
  rw [lastGate, List.filterMap_append, List.filterMap_cons_some hgate, List.reverse_append,
    List.reverse_cons, List.append_assoc, List.find?_append, Option.or_eq_some_iff]
  refine Or.inr ⟨List.find?_eq_none.mpr fun other hother => ?_, by simp⟩
  obtain ⟨later, hlater, hread⟩ := List.mem_filterMap.mp (List.mem_reverse.mp hother)
  obtain ⟨hname, hlength⟩ := readGate_eq_some hread
  intro heq
  rw [beq_iff_eq] at heq
  exact hafter later hlater hlength (heq ▸ hname)

/-- A table whose gates the policy found settled shows it row by row exactly when
it is plain. -/
theorem proves_iff_plainGates {lines : List JsString}
    (h : ∀ name, gateProblem name
      (lastGate ((lines.map tableCells).filterMap (readGate casing)) name) = none) :
    (∀ row ∈ lines.map tableCells, (rowGate casing row).isSome = true → Proves casing row) ↔
      PlainGates casing (lines.map tableCells) := by
  constructor
  · intro hproves
    constructor
    · intro row hrow hgate
      obtain ⟨line, -, rfl⟩ := List.mem_map.mp hrow
      exact (counts_iff.1 (counts_of_proves hgate (hproves _ hrow hgate))).2.1
    · intro before row after gate hsplit hgate _
      have hrow : row ∈ lines.map tableCells := by simp [hsplit]
      have hsome : (rowGate casing row).isSome = true := by rw [hgate]; rfl
      obtain ⟨line, -, rfl⟩ := List.mem_map.mp hrow
      exact counts_of_proves hsome (hproves _ hrow hsome)
    · exact fun row hrow hgate _ => (hproves row hrow hgate).1
    · exact fun row hrow hgate _ => (hproves row hrow hgate).2
  · intro hplain row hrow hgate
    have hcounts : Counts casing row := by
      obtain ⟨before, after, hsplit⟩ := List.append_of_mem hrow
      obtain ⟨name, hname⟩ := Option.isSome_iff_exists.mp hgate
      by_cases hlater : ∃ later ∈ after, 3 ≤ later.length ∧ rowGate casing later = some name
      · exact hplain.overridden before row after name hsplit hname hlater
      · obtain ⟨gate, hread, rfl⟩ := exists_readGate hname (hplain.full row hrow hgate)
        have hlast := lastGate_row before hread fun later hmem hlength heq =>
          hlater ⟨later, hmem, hlength, heq⟩
        have hproblem := h gate.name
        rw [hsplit, hlast] at hproblem
        exact ⟨gate, hread, hproblem⟩
    obtain ⟨-, -, hsettled, hevidence⟩ := counts_iff.1 hcounts
    exact ⟨hplain.affirmative row hrow hgate hsettled, hplain.evidence row hrow hgate hevidence⟩

end Rows

/-! ## Promotions -/

section Promotions

variable {input : Input} {disk : Disk} {facts : List PhaseFacts} {number : ℕ}

/-- The promoted phase, with the table in which its gates are settled. -/
theorem Promotable.gates (h : Promotable input.casing facts number)
    (hfacts : List.Forall₂ (FactsOf input disk) input.phases facts) {phase : PhaseDescriptor}
    (hphase : phase ∈ input.phases) (hnumber : phase.number = number) :
    (∀ task ∈ ledger input disk phase, task.checked = true) ∧
      ∃ lines : List JsString, phaseGateRows disk phase = lines.map tableCells ∧
        ∀ name, gateProblem name
        (lastGate ((lines.map tableCells).filterMap (readGate input.casing)) name) = none := by
  obtain ⟨fact, hfact, hof⟩ := exists_of_forall₂ hfacts hphase
  obtain ⟨promoted, hpromoted, hpromotedNumber, -, -, hchecked, gates, hgates, hsettled⟩ :=
    h.promoted
  -- the numbers are unique, so this phase is the promoted one
  obtain rfl : fact = promoted := List.inj_on_of_nodup_map h.nodup hfact hpromoted
    (by rw [hof.number, hnumber, hpromotedNumber])
  constructor
  · intro task htask
    have hmem : task.checked ∈ (fact.tasks.getD []).map Task.checked := by
      rw [hof.tasks]
      exact List.mem_map_of_mem htask
    obtain ⟨other, hother, heq⟩ := List.mem_map.mp hmem
    exact heq ▸ hchecked other hother
  · rw [hof.gates, Option.bind_eq_some_iff] at hgates
    obtain ⟨markdown, hdocument, hgates⟩ := hgates
    obtain ⟨rows, hrows, rfl⟩ := Option.map_eq_some_iff.mp hgates
    have hphaseRows : phaseGateRows disk phase = rows := by
      rw [phaseGateRows, hdocument, Option.bind_some, hrows, Option.getD_some]
    obtain ⟨body, -, rfl⟩ := Option.map_eq_some_iff.mp hrows
    exact ⟨splitLines body, hphaseRows, validateSettledGates_eq_none.1 hsettled⟩

end Promotions

/-! ## A phase whose tests did not pass -/

/-- A phase document with one checked task, whose tests have the given status. -/
def sampleDocument (tests : String) : JsString :=
  js ("**Status:** IN_PROGRESS\n\n## Phase Task Ledger\n\n- [x] Build\n\n" ++
    "## Quality Gate Evidence\n\n| Changed files | satisfied | a.ts |\n| Tests | " ++ tests ++
    " | run 1 |\n| Gherkin | not applicable | none |\n| Code review | waived | small |\n")

def sampleInput : Input where
  phases := [⟨1, js "phase-1.md", none⟩]
  readTasks _ _ := some [⟨js "phase-1.build", 0, true⟩]
  casing := .ascii

def sampleDisk (tests : String) : Disk where
  featureTasks := some (js "| Phase | Status |\n| 1 | IN_PROGRESS |\n")
  documents _ := some (sampleDocument tests)
  runs := []

/-- The decision to promote phase 1. -/
def samplePromotion : Decision :=
  .promote 1 [js "phase-1.build"] (js ("Every phase-document task is checked and every " ++
    "quality gate is settled with evidence."))

/-- A table with at most one row for each gate overrides none. -/
theorem not_overridden {casing : Casing} {rows before after : List (List JsString)}
    {row later : List JsString} {gate : GateName} (h : (rows.filterMap (rowGate casing)).Nodup)
    (hsplit : rows = before ++ row :: after) (hrow : rowGate casing row = some gate)
    (hmem : later ∈ after) : rowGate casing later ≠ some gate := by
  intro hlater
  rw [hsplit, List.filterMap_append, List.filterMap_cons_some hrow] at h
  exact (List.nodup_cons.mp (List.nodup_append.mp h).2.1).1
    (List.mem_filterMap.mpr ⟨later, hmem, hlater⟩)

/-- The cells of the lines of the gates, between the two blank lines. -/
def sampleRows (tests : String) : List (List JsString) :=
  [[], [js "Changed files", js "satisfied", js "a.ts"], [js "Tests", js tests, js "run 1"],
    [js "Gherkin", js "not applicable", js "none"],
    [js "Code review", js "waived", js "small"], []]

/-- With either status of the tests the phase is promoted. -/
theorem sampleDisk_holds : ∀ tests ∈ ["passed", "not passed"],
    (reconcilePhaseStateOnDisk sampleInput (sampleDisk tests) 0).map Outcome.decision =
        some samplePromotion ∧
      phaseGateRows (sampleDisk tests) ⟨1, js "phase-1.md", none⟩ = sampleRows tests := by
  decide +kernel

end Hepha.Reconcile
