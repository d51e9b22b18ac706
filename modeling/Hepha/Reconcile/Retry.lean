import Hepha.Reconcile.Converge
import Mathlib.Algebra.Order.BigOperators.Group.List
import Mathlib.Data.Prod.Lex

/-!
# Calls that are stopped

An attempt is a call that may be stopped after some of its writes; a run is a
list of attempts, one after the other.  The store of the task runs has one row
for each task of a phase, which a write replaces.

What a call can do is said once, in `Step`; from it follows here that calls which
are not stopped come to an end.
-/

namespace Hepha.Reconcile

open JsString Pattern Markdown Date

/-! ## Writes -/

/-- The key of a row in the task run store. -/
def TaskRun.key (run : TaskRun) : ℕ × JsString := (run.phaseNumber, run.taskId)

/-- The rows with a row written. -/
def putRun (runs : List TaskRun) (run : TaskRun) : List TaskRun :=
  if runs.any fun other => other.key == run.key then
    runs.map fun other => if other.key = run.key then run else other
  else runs ++ [run]

/-- The disk after a write. -/
def Disk.write (disk : Disk) : Write → Disk
  | .document path text =>
      { disk with documents := fun other =>
          if other = path then some text else disk.documents other }
  | .featureTasks text => { disk with featureTasks := some text }
  | .taskRun run => { disk with runs := putRun disk.runs run }

theorem documents_write {disk : Disk} {path text : JsString} (other : JsString) :
    (disk.write (.document path text)).documents other =
      if other = path then some text else disk.documents other :=
  rfl

/-- A call at a reading of the clock, stopped after some of its writes or not. -/
structure Attempt where
  time : ℤ
  cut : Option ℕ

/-- The writes that an attempt makes. -/
def made (input : Input) (disk : Disk) (attempt : Attempt) : List Write :=
  match reconcilePhaseStateOnDisk input disk attempt.time with
  | none => []
  | some outcome =>
      match attempt.cut with
      | none => outcome.writes
      | some count => outcome.writes.take count

/-- The disk after an attempt. -/
def afterAttempt (input : Input) (disk : Disk) (attempt : Attempt) : Disk :=
  (made input disk attempt).foldl Disk.write disk

/-- The disk after a run. -/
def run (input : Input) (disk : Disk) (attempts : List Attempt) : Disk :=
  attempts.foldl (afterAttempt input) disk

/-- The disk after the first calls of a sequence that is not stopped. -/
def calls (input : Input) (disk : Disk) (times : ℕ → ℤ) (n : ℕ) : Disk :=
  run input disk ((List.range n).map fun i => ⟨times i, none⟩)

/-- A call changes nothing. -/
def Settles (input : Input) (disk : Disk) (time : ℤ) : Prop :=
  ∀ outcome, reconcilePhaseStateOnDisk input disk time = some outcome → outcome.changed = false

/-! ## What a call can do -/

section Steps

variable (input : Input) (disk : Disk)

/-- A call promotes the phase, whose document has these tasks. -/
structure Promotes (phase : PhaseDescriptor) (tasks : List PhaseTask) : Prop where
  decided : ∃ facts taskIds reason, readPhases input disk input.phases = some (.inr facts) ∧
    reconcilePhaseState input.casing facts = .promote phase.number taskIds reason
  found : input.phases.find? (fun candidate => candidate.number == phase.number) = some phase
  read : ∃ markdown, disk.documents phase.documentPath = some markdown ∧
    input.readTasks phase markdown = some tasks

/-- The writes of a promotion after those of the task runs. -/
def fileWrites (phase : PhaseDescriptor) (timestamp : JsString) : List Write :=
  match disk.documents phase.documentPath with
  | none => []
  | some markdown =>
      let audited := promotedDocument markdown timestamp phase.number
      (if audited = markdown then [] else [.document phase.documentPath audited]) ++
        featureTasksWrites input disk phase.number

/-- What a call can do. -/
inductive Step (time : ℤ) : Outcome → Prop
  | settled (decision : Decision) : Step time ⟨decision, none, false, []⟩
  | migrated (phase : PhaseDescriptor) (markdown migrated : JsString) (decision : Decision) :
      phase ∈ input.phases → disk.documents phase.documentPath = some markdown →
      initializeLegacyHephaTaskStateLedger markdown = some migrated →
      Step time ⟨decision, none, true, [.document phase.documentPath migrated]⟩
  | reset (phase : PhaseDescriptor) (taskId : JsString) (decision : Decision) :
      phase ∈ input.phases →
      (persistedStatus (listTaskRuns disk phase.number) taskId).any TaskRunStatus.isTerminal →
      Step time ⟨decision, none, true, [.taskRun (resetRun phase.number taskId)]⟩
  | promoted (phase : PhaseDescriptor) (tasks : List PhaseTask) (taskIds : List JsString)
      (reason : JsString) : Promotes input disk phase tasks →
      Step time ⟨.promote phase.number taskIds reason, some (toISOString time), true,
        taskRunWrites disk phase.number tasks (toISOString time) ++
          fileWrites input disk phase (toISOString time)⟩

variable {input disk}

theorem readPhases_step {phases : List PhaseDescriptor} {outcome : Outcome}
    (h : readPhases input disk phases = some (.inl outcome))
    (hphases : ∀ phase ∈ phases, phase ∈ input.phases) (time : ℤ) :
    Step input disk time outcome := by
  induction phases with
  | nil => cases h
  | cons phase rest ih =>
      have hphase := hphases phase List.mem_cons_self
      simp only [readPhases, Option.bind_eq_bind, Option.bind_eq_some_iff] at h
      obtain ⟨reading, hreading, h⟩ := h
      cases reading with
      | repair repaired =>
          cases h
          unfold readPhase at hreading
          dsimp only at hreading
          split at hreading
          · cases hreading
          · rename_i markdown hdocument
            split at hreading
            · rename_i migrated hmigrated
              cases hreading
              exact .migrated phase markdown migrated _ hphase hdocument hmigrated
            · obtain ⟨tasks, -, hreading⟩ := Option.map_eq_some_iff.mp hreading
              split at hreading
              · rename_i staleRun hstale
                cases hreading
                have hterminal := List.find?_some hstale
                rw [Bool.and_eq_true] at hterminal
                exact .reset phase staleRun.id _ hphase hterminal.2
              · cases hreading
      | facts fact =>
          simp only [Option.bind_eq_some_iff] at h
          obtain ⟨others, hothers, h⟩ := h
          cases others with
          | inl repaired =>
              cases h
              exact ih hothers fun other hother => hphases other (List.mem_cons_of_mem _ hother)
          | inr others => cases h

theorem promotionWrites_eq_some {phase : PhaseDescriptor} {timestamp : JsString}
    {writes : List Write} (h : promotionWrites input disk phase timestamp = some writes) :
    ∃ tasks, (∃ markdown, disk.documents phase.documentPath = some markdown ∧
      input.readTasks phase markdown = some tasks) ∧
        writes = taskRunWrites disk phase.number tasks timestamp ++
          fileWrites input disk phase timestamp := by
  simp only [promotionWrites, Option.bind_eq_bind, Option.bind_eq_some_iff] at h
  obtain ⟨markdown, hdocument, tasks, htasks, h⟩ := h
  cases h
  refine ⟨tasks, ⟨markdown, hdocument, htasks⟩, ?_⟩
  rw [fileWrites, hdocument, List.append_assoc]

/-- **A call** settles, repairs one document or one task run, or promotes a phase. -/
theorem reconcile_step {time : ℤ} {outcome : Outcome}
    (h : reconcilePhaseStateOnDisk input disk time = some outcome) :
    Step input disk time outcome := by
  unfold reconcilePhaseStateOnDisk at h
  simp only [Option.bind_eq_bind, Option.bind_eq_some_iff] at h
  obtain ⟨reading, hreading, h⟩ := h
  cases reading with
  | inl repaired =>
      cases h
      exact readPhases_step hreading (fun _ hphase => hphase) time
  | inr facts =>
      dsimp only at h
      split at h
      · rename_i number taskIds reason hpolicy
        split at h
        · cases h
          exact .settled _
        · rename_i phase hfound
          simp only [Option.bind_eq_some_iff] at h
          obtain ⟨writes, hwrites, h⟩ := h
          cases h
          obtain rfl : phase.number = number := by simpa using List.find?_some hfound
          obtain ⟨tasks, hread, rfl⟩ := promotionWrites_eq_some hwrites
          exact .promoted phase tasks taskIds reason
            ⟨⟨facts, taskIds, reason, hreading, hpolicy⟩, hfound, hread⟩
      · cases h
        exact .settled _

/-- The phase that is promoted, as the policy found it. -/
theorem Promotes.phase {phase : PhaseDescriptor} {tasks : List PhaseTask}
    (h : Promotes input disk phase tasks) :
    phase ∈ input.phases ∧ (input.phases.map PhaseDescriptor.number).Nodup ∧
      (documentStatus input disk phase).isSome = true ∧
        isTerminal (documentStatus input disk phase) = false ∧
          ∀ task ∈ tasks, task.checked = true := by
  obtain ⟨facts, taskIds, reason, hreading, hpolicy⟩ := h.decided
  obtain ⟨markdown, hdocument, htasks⟩ := h.read
  have hfacts := (readPhases_inr hreading).imp fun _ _ => readPhase_facts
  have hpromotable := reconcilePhaseState_promote hpolicy
  have hphase := List.mem_of_find?_eq_some h.found
  have hnumbers : facts.map PhaseFacts.number = input.phases.map PhaseDescriptor.number :=
    map_eq_of_forall₂ (hfacts.imp fun _ _ hof => hof.number)
  obtain ⟨fact, hfact, hof⟩ := exists_of_forall₂ hfacts hphase
  obtain ⟨promoted, hpromoted, hnumber, hsome, hopen, -, -⟩ := hpromotable.promoted
  obtain rfl : fact = promoted := List.inj_on_of_nodup_map hpromotable.nodup hfact hpromoted
    (by rw [hof.number, hnumber])
  rw [hof.documentStatus] at hsome hopen
  refine ⟨hphase, hnumbers ▸ hpromotable.nodup, hsome, hopen, fun task htask => ?_⟩
  refine (hpromotable.gates hfacts hphase rfl).1 task ?_
  rw [ledger, hdocument, Option.bind_some, htasks]
  exact htask

end Steps

/-! ## Writes of one kind -/

/-- Writes of task runs leave the files as they are. -/
theorem foldl_taskRuns {writes : List Write} (h : ∀ write ∈ writes, ∃ run, write = .taskRun run)
    (disk : Disk) : (writes.foldl Disk.write disk).documents = disk.documents ∧
      (writes.foldl Disk.write disk).featureTasks = disk.featureTasks := by
  induction writes generalizing disk with
  | nil => exact ⟨rfl, rfl⟩
  | cons write rest ih =>
      obtain ⟨run, rfl⟩ := h _ List.mem_cons_self
      exact ih (fun other hother => h other (List.mem_cons_of_mem _ hother)) _

theorem mem_taskRunWrites {disk : Disk} {phaseNumber : ℕ} {tasks : List PhaseTask}
    {timestamp : JsString} {write : Write}
    (h : write ∈ taskRunWrites disk phaseNumber tasks timestamp) :
    ∃ task ∈ tasks, write = .taskRun (completedRun phaseNumber task.id timestamp) := by
  obtain ⟨task, htask, rfl⟩ := List.mem_map.mp h
  exact ⟨task, List.mem_of_mem_filter htask, rfl⟩

theorem foldl_taskRunWrites (disk other : Disk) (phaseNumber : ℕ) (tasks : List PhaseTask)
    (timestamp : JsString) :
    ((taskRunWrites disk phaseNumber tasks timestamp).foldl Disk.write other).documents =
        other.documents ∧
      ((taskRunWrites disk phaseNumber tasks timestamp).foldl Disk.write other).featureTasks =
        other.featureTasks :=
  foldl_taskRuns (fun _ hwrite => let ⟨_, _, heq⟩ := mem_taskRunWrites hwrite; ⟨_, heq⟩) other

theorem foldl_featureTasksWrites (input : Input) (disk other : Disk) (phaseNumber : ℕ) :
    ((featureTasksWrites input disk phaseNumber).foldl Disk.write other).documents =
        other.documents ∧
      ((featureTasksWrites input disk phaseNumber).foldl Disk.write other).runs = other.runs := by
  unfold featureTasksWrites
  split
  · exact ⟨rfl, rfl⟩
  · split
    · exact ⟨rfl, rfl⟩
    · split
      · exact ⟨rfl, rfl⟩
      · exact ⟨rfl, rfl⟩

/-! ## Calls come to an end -/

section Progress

variable (input : Input) (disk : Disk)

/-- The open status lines of the documents of all phases. -/
def openLines : ℕ :=
  (input.phases.map fun phase => (disk.documents phase.documentPath).elim 0 openStatuses).sum

/-- Whether the document of a phase needs a ledger. -/
def needsLedger (phase : PhaseDescriptor) : Bool :=
  (disk.documents phase.documentPath).any fun markdown =>
    (initializeLegacyHephaTaskStateLedger markdown).isSome

def missingLedgers : ℕ := input.phases.countP (needsLedger disk)

def terminalRuns : ℕ := disk.runs.countP fun run => run.status.isTerminal

/-- What goes down with every call that changes something. -/
def rank : ℕ ×ₗ ℕ ×ₗ ℕ :=
  toLex (openLines input disk, toLex (missingLedgers input disk, terminalRuns disk))

variable {input disk}

/-- A document that is written over with one of fewer open lines. -/
theorem openLines_write {phase : PhaseDescriptor} {markdown text : JsString}
    (hphase : phase ∈ input.phases)
    (hdocument : disk.documents phase.documentPath = some markdown) :
    (openStatuses text ≤ openStatuses markdown → openLines input
        (disk.write (.document phase.documentPath text)) ≤ openLines input disk) ∧
      (openStatuses text < openStatuses markdown → openLines input
        (disk.write (.document phase.documentPath text)) < openLines input disk) := by
  have hle (h : openStatuses text ≤ openStatuses markdown) (other : PhaseDescriptor) :
      ((disk.write (.document phase.documentPath text)).documents other.documentPath).elim 0
        openStatuses ≤ (disk.documents other.documentPath).elim 0 openStatuses := by
    by_cases hpath : other.documentPath = phase.documentPath
    · simpa [documents_write, hpath, hdocument] using h
    · simp [documents_write, hpath]
  constructor
  · exact fun h => List.sum_le_sum fun other _ => hle h other
  · intro h
    refine List.sum_lt_sum _ _ (fun other _ => hle (Nat.le_of_lt h) other) ⟨phase, hphase, ?_⟩
    simpa [documents_write, hdocument] using h

theorem missingLedgers_write {phase : PhaseDescriptor} {markdown text : JsString}
    (hphase : phase ∈ input.phases) (hdocument : disk.documents phase.documentPath = some markdown)
    (hold : (initializeLegacyHephaTaskStateLedger markdown).isSome = true)
    (hnew : initializeLegacyHephaTaskStateLedger text = none) :
    missingLedgers input (disk.write (.document phase.documentPath text)) <
      missingLedgers input disk := by
  obtain ⟨before, after, hsplit⟩ := List.append_of_mem hphase
  have hmono (phases : List PhaseDescriptor) :
      phases.countP (needsLedger (disk.write (.document phase.documentPath text))) ≤
        phases.countP (needsLedger disk) := by
    refine List.countP_mono_left fun other _ hneeds => ?_
    by_cases hpath : other.documentPath = phase.documentPath
    · rw [needsLedger, hpath, hdocument]
      exact hold
    · rwa [needsLedger, documents_write, if_neg hpath] at hneeds
  have hself : needsLedger (disk.write (.document phase.documentPath text)) phase = false := by
    rw [needsLedger, documents_write, if_pos rfl, Option.any_some, hnew]
    rfl
  have hself' : needsLedger disk phase = true := by
    rw [needsLedger, hdocument]
    exact hold
  have hbefore := hmono before
  have hafter := hmono after
  rw [missingLedgers, missingLedgers, hsplit, List.countP_append, List.countP_append,
    List.countP_cons, List.countP_cons, hself, hself']
  simp only [Bool.false_eq_true, if_false, if_true]
  omega

/-- A row with the key stands behind a status that the store returns. -/
theorem exists_run {n : ℕ} {taskId : JsString} {status : TaskRunStatus}
    (h : persistedStatus (listTaskRuns disk n) taskId = some status) :
    ∃ run ∈ disk.runs, run.key = (n, taskId) ∧ run.status = status := by
  obtain ⟨run, hrun, rfl⟩ := Option.map_eq_some_iff.mp h
  obtain ⟨other, hother, heq⟩ := List.mem_map.mp (JsMap.mem_of_get hrun)
  obtain ⟨hid, rfl⟩ := Prod.mk.inj heq
  obtain ⟨hmem, hnumber⟩ := List.mem_filter.mp hother
  exact ⟨other, hmem, Prod.ext (beq_iff_eq.mp hnumber) hid, rfl⟩

theorem terminalRuns_reset {n : ℕ} {taskId : JsString}
    (h : (persistedStatus (listTaskRuns disk n) taskId).any TaskRunStatus.isTerminal = true) :
    terminalRuns (disk.write (.taskRun (resetRun n taskId))) < terminalRuns disk := by
  obtain ⟨status, hstatus, hterminal⟩ := (Option.any_eq_true _ _).mp h
  obtain ⟨run, hrun, hkey, rfl⟩ := exists_run hstatus
  have hput : putRun disk.runs (resetRun n taskId) =
      disk.runs.map fun other => if other.key = (n, taskId) then resetRun n taskId else other :=
    if_pos (List.any_eq_true.mpr ⟨run, hrun, by rw [hkey]; exact beq_self_eq_true _⟩)
  have hmono (runs : List TaskRun) :
      (runs.map fun other => if other.key = (n, taskId) then resetRun n taskId else other).countP
        (fun run => run.status.isTerminal) ≤ runs.countP fun run => run.status.isTerminal := by
    rw [List.countP_map]
    refine List.countP_mono_left fun other _ hother => ?_
    rw [Function.comp_apply] at hother
    split at hother
    · cases hother
    · exact hother
  obtain ⟨before, after, hsplit⟩ := List.append_of_mem hrun
  have hbefore := hmono before
  have hafter := hmono after
  rw [terminalRuns, terminalRuns, Disk.write, hput, hsplit, List.map_append, List.map_cons,
    if_pos hkey, List.countP_append, List.countP_append, List.countP_cons, List.countP_cons,
    hterminal]
  have hreset : (resetRun n taskId).status.isTerminal = false := rfl
  rw [hreset]
  simp only [Bool.false_eq_true, if_false, if_true]
  omega

/-- The document of a promotion comes after its task runs and before FeatureTasks. -/
theorem fileWrites_eq {phase : PhaseDescriptor} {tasks : List PhaseTask}
    (h : Promotes input disk phase tasks) (time : ℤ) :
    ∃ markdown, disk.documents phase.documentPath = some markdown ∧
      openStatuses (promotedDocument markdown (toISOString time) phase.number) <
        openStatuses markdown ∧
      fileWrites input disk phase (toISOString time) =
        .document phase.documentPath (promotedDocument markdown (toISOString time) phase.number) ::
          featureTasksWrites input disk phase.number := by
  obtain ⟨markdown, hdocument, -⟩ := h.read
  obtain ⟨-, -, hsome, hopen, -⟩ := h.phase
  rw [documentStatus, hdocument, Option.bind_some] at hsome hopen
  obtain ⟨before, line, after, hsplit, hindex, hline⟩ := exists_openLine hsome hopen
  have hlt : openStatuses (promotedDocument markdown (toISOString time) phase.number) <
      openStatuses markdown :=
    openStatuses_promotedDocument hsplit hindex hline (lineFeed_not_mem_toISOString time)
  refine ⟨markdown, hdocument, hlt, ?_⟩
  rw [fileWrites, hdocument]
  dsimp only
  rw [if_neg, List.singleton_append]
  intro heq
  rw [heq] at hlt
  exact Nat.lt_irrefl _ hlt

/-- A call that changes something lowers the rank. -/
theorem rank_lt {time : ℤ} {outcome : Outcome}
    (h : reconcilePhaseStateOnDisk input disk time = some outcome)
    (hchanged : outcome.changed = true) :
    rank input (afterAttempt input disk ⟨time, none⟩) < rank input disk := by
  have hafter : afterAttempt input disk ⟨time, none⟩ = outcome.writes.foldl Disk.write disk := by
    rw [afterAttempt, made, h]
  rw [hafter]
  simp only [rank, Prod.Lex.toLex_lt_toLex]
  cases reconcile_step h with
  | settled decision => cases hchanged
  | migrated phase markdown migrated decision hphase hdocument hmigrated =>
      have hlines : openLines input (disk.write (.document phase.documentPath migrated)) ≤
          openLines input disk :=
        (openLines_write hphase hdocument).1 (openStatuses_migrated hmigrated)
      have hledgers := missingLedgers_write hphase hdocument (by rw [hmigrated]; rfl)
        (initializeLegacy_migrated hmigrated)
      rcases Nat.lt_or_eq_of_le hlines with hlt | heq
      · exact .inl hlt
      · exact .inr ⟨heq, .inl hledgers⟩
  | reset phase taskId decision hphase hterminal =>
      exact .inr ⟨rfl, .inr ⟨rfl, terminalRuns_reset hterminal⟩⟩
  | promoted phase tasks taskIds reason hpromotes =>
      obtain ⟨markdown, hdocument, hlt, hwrites⟩ := fileWrites_eq hpromotes time
      have hruns := foldl_taskRunWrites disk disk phase.number tasks (toISOString time)
      refine .inl ?_
      rw [List.foldl_append, hwrites, List.foldl_cons]
      have hdocuments : openLines input disk = openLines input
          ((taskRunWrites disk phase.number tasks (toISOString time)).foldl Disk.write disk) := by
        rw [openLines, openLines, hruns.1]
      rw [hdocuments, openLines, (foldl_featureTasksWrites _ _ _ _).1]
      refine (openLines_write hpromotes.phase.1 ?_).2 hlt
      rw [hruns.1, hdocument]

/-- **Progress.** Calls that are not stopped come to one that changes nothing. -/
theorem exists_settles (times : ℕ → ℤ) :
    ∃ n, Settles input (calls input disk times n) (times n) := by
  induction hrank : rank input disk using WellFoundedLT.induction generalizing disk times with
  | ind r ih =>
      by_cases hsettles : Settles input disk (times 0)
      · exact ⟨0, hsettles⟩
      · simp only [Settles, not_forall] at hsettles
        obtain ⟨outcome, houtcome, hchanged⟩ := hsettles
        have hlt := rank_lt houtcome (by simpa using hchanged)
        obtain ⟨n, hn⟩ := ih _ (hrank ▸ hlt) (fun i => times (i + 1)) rfl
        refine ⟨n + 1, ?_⟩
        have hcalls : calls input (afterAttempt input disk ⟨times 0, none⟩)
            (fun i => times (i + 1)) n = calls input disk times (n + 1) := by
          rw [calls, calls, List.range_succ_eq_map, List.map_cons, List.map_map]
          rfl
        rwa [hcalls] at hn

end Progress

end Hepha.Reconcile
