import Hepha.Reconcile.Essence
import Hepha.Reconcile.Inventory
import Hepha.Reconcile.Retry

/-!
# Retried promotions

A run whose calls are stopped is compared with the run of its calls that were not
stopped.  The files agree, and the statuses of the task runs agree up to tasks
that a stopped promotion has completed and that the next promotion completes.
The decision of a call does not see this difference: all tasks of a phase that is
promoted are checked, so its task runs are not looked at.

This is so for every stop but one.  A promotion that is stopped after the phase
document and before FeatureTasks is not made up for: the phase is terminal now,
and the next call passes it over.
-/

namespace Hepha.Reconcile

open JsString Pattern Markdown Date

/-! ## Statuses of task runs -/

section Statuses

variable {disk : Disk}

/-- The status that the store returns for a task of a phase. -/
def taskStatus (disk : Disk) (phaseNumber : ℕ) (taskId : JsString) : Option TaskRunStatus :=
  persistedStatus (listTaskRuns disk phaseNumber) taskId

/-- It is the status of the last row with the key. -/
theorem taskStatus_eq (phaseNumber : ℕ) (taskId : JsString) :
    taskStatus disk phaseNumber taskId =
      (disk.runs.reverse.find? fun run => run.key == (phaseNumber, taskId)).map TaskRun.status := by
  rw [taskStatus, persistedStatus, JsMap.get, ← List.map_reverse, listTaskRuns,
    ← List.filter_reverse]
  congr 1
  induction disk.runs.reverse with
  | nil => rfl
  | cons run rest ih =>
      by_cases hnumber : run.phaseNumber = phaseNumber
      · by_cases hid : run.taskId = taskId
        · simp [TaskRun.key, hnumber, hid]
        · have hne : @BEq.beq JsString instBEqOfDecidableEq taskId run.taskId = false :=
            decide_eq_false (Ne.symm hid)
          simpa [TaskRun.key, hnumber, hid, List.lookup_cons, hne] using ih
      · simpa [TaskRun.key, hnumber] using ih

theorem find?_putRun (runs : List TaskRun) (run : TaskRun) (key : ℕ × JsString) :
    (putRun runs run).reverse.find? (fun other => other.key == key) =
      if key = run.key then some run else runs.reverse.find? fun other => other.key == key := by
  unfold putRun
  by_cases hkey : key = run.key
  · subst hkey
    rw [if_pos rfl]
    split
    · rename_i hany
      obtain ⟨other, hother, hkey⟩ := List.any_eq_true.mp hany
      rw [← List.map_reverse, List.find?_map, Option.map_eq_some_iff]
      have hsome : (runs.reverse.find? ((fun other => other.key == run.key) ∘
          fun other => if other.key = run.key then run else other)).isSome = true := by
        rw [List.find?_isSome]
        exact ⟨other, List.mem_reverse.mpr hother, by simp [beq_iff_eq.mp hkey]⟩
      obtain ⟨found, hfound⟩ := Option.isSome_iff_exists.mp hsome
      have hmatch := List.find?_some hfound
      rw [Function.comp_apply] at hmatch
      refine ⟨found, hfound, ?_⟩
      split
      · rfl
      · rename_i hne
        rw [if_neg hne, beq_iff_eq] at hmatch
        exact absurd hmatch hne
    · rw [List.reverse_append, List.reverse_singleton, List.singleton_append, List.find?_cons,
        beq_self_eq_true]
  · rw [if_neg hkey]
    split
    · rw [← List.map_reverse, List.find?_map]
      have hcomp : ((fun other : TaskRun => other.key == key) ∘
          fun other => if other.key = run.key then run else other) = fun other => other.key == key := by
        funext other
        rw [Function.comp_apply]
        split
        · rename_i heq
          rw [heq]
        · rfl
      rw [hcomp]
      cases h : runs.reverse.find? fun other => other.key == key with
      | none => rfl
      | some found =>
          have hfound : found.key = key := by simpa using List.find?_some h
          rw [Option.map_some, if_neg (by rw [hfound]; exact hkey)]
    · rw [List.reverse_append, List.reverse_singleton, List.singleton_append, List.find?_cons]
      have hne : (run.key == key) = false := by simpa using Ne.symm hkey
      rw [hne]

theorem taskStatus_write_taskRun (run : TaskRun) (phaseNumber : ℕ) (taskId : JsString) :
    taskStatus (disk.write (.taskRun run)) phaseNumber taskId =
      if (phaseNumber, taskId) = run.key then some run.status
      else taskStatus disk phaseNumber taskId := by
  rw [taskStatus_eq, taskStatus_eq, Disk.write, find?_putRun]
  split <;> rfl

/-- Task runs of some tasks are completed, and nothing else changes. -/
theorem taskStatus_completed {writes : List Write} {number : ℕ} {timestamp : JsString}
    (h : ∀ write ∈ writes, ∃ taskId, write = .taskRun (completedRun number taskId timestamp))
    (phaseNumber : ℕ) (taskId : JsString) :
    taskStatus (writes.foldl Disk.write disk) phaseNumber taskId =
      if phaseNumber = number ∧ .taskRun (completedRun number taskId timestamp) ∈ writes then
        some .completed
      else taskStatus disk phaseNumber taskId := by
  induction writes generalizing disk with
  | nil => simp
  | cons write rest ih =>
      obtain ⟨first, rfl⟩ := h _ List.mem_cons_self
      rw [List.foldl_cons, ih fun other hother => h other (List.mem_cons_of_mem _ hother),
        taskStatus_write_taskRun]
      by_cases hnumber : phaseNumber = number
      · subst hnumber
        by_cases hid : taskId = first
        · subst hid
          simp [completedRun, TaskRun.key]
        · simp [TaskRun.key, completedRun, hid]
      · simp [hnumber, TaskRun.key, completedRun]

/-- A phase has no task run exactly when the store returns no status for it. -/
theorem listTaskRuns_eq_nil (phaseNumber : ℕ) :
    listTaskRuns disk phaseNumber = [] ↔ ∀ taskId, taskStatus disk phaseNumber taskId = none := by
  constructor
  · intro h taskId
    rw [taskStatus, h]
    rfl
  · intro h
    refine List.eq_nil_iff_forall_not_mem.mpr fun run hrun => ?_
    have hnone := h run.taskId
    rw [taskStatus, persistedStatus, Option.map_eq_none_iff, JsMap.get_eq_none_iff] at hnone
    exact hnone (List.mem_map_of_mem (List.mem_map_of_mem hrun))

end Statuses

/-! ## Two disks -/

section Follows

variable (input : Input)

/-- A task of the phase that a call on the disk promotes. -/
def Promoting (disk : Disk) (phaseNumber : ℕ) (taskId : JsString) : Prop :=
  ∃ phase tasks, Promotes input disk phase tasks ∧ phase.number = phaseNumber ∧
    taskId ∈ tasks.map PhaseTask.id

/-- The disk after a run with stopped calls, next to the one without them. -/
structure Follows (stopped whole : Disk) : Prop where
  featureTasks : stopped.featureTasks = whole.featureTasks
  documents : stopped.documents = whole.documents
  statuses : ∀ phaseNumber taskId,
    taskStatus stopped phaseNumber taskId = taskStatus whole phaseNumber taskId ∨
      (taskStatus stopped phaseNumber taskId = some .completed ∧
        Promoting input whole phaseNumber taskId)

/-- A reading up to what a decision does not depend on. -/
def PhaseReading.essence : PhaseReading → PhaseReading
  | .repair outcome => .repair outcome
  | .facts read => .facts read.essence

variable {input} {stopped whole : Disk}

theorem Promotes.unique {phase phase' : PhaseDescriptor} {tasks tasks' : List PhaseTask}
    (h : Promotes input whole phase tasks) (h' : Promotes input whole phase' tasks') :
    phase = phase' ∧ tasks = tasks' := by
  obtain ⟨facts, taskIds, reason, hreading, hpolicy⟩ := h.decided
  obtain ⟨facts', taskIds', reason', hreading', hpolicy'⟩ := h'.decided
  cases hreading.symm.trans hreading'
  obtain ⟨hnumber, -, -⟩ := Decision.promote.inj (hpolicy.symm.trans hpolicy')
  have hfound := h.found
  rw [hnumber, h'.found] at hfound
  cases hfound
  obtain ⟨markdown, hdocument, htasks⟩ := h.read
  obtain ⟨markdown', hdocument', htasks'⟩ := h'.read
  cases hdocument.symm.trans hdocument'
  exact ⟨rfl, Option.some.inj (htasks.symm.trans htasks')⟩

/-- The facts of a phase with checked tasks, whatever their task runs. -/
theorem essence_checked {tasks : List PhaseTask} (hne : tasks ≠ [])
    (hchecked : ∀ task ∈ tasks, task.checked = true) (number count count' : ℕ)
    (documentStatus featureTasksStatus : Option JsString) (gates : Option (List Gate))
    (review : Option Bool) (status status' : JsString → Option TaskRunStatus) :
    PhaseFacts.essence ⟨number, true, documentStatus, featureTasksStatus,
      some (tasks.map fun task =>
        ⟨task.id, task.index, task.checked, status task.id⟩), count, gates, review⟩ =
      PhaseFacts.essence ⟨number, true, documentStatus, featureTasksStatus,
        some (tasks.map fun task =>
        ⟨task.id, task.index, task.checked, status' task.id⟩), count', gates, review⟩ := by
  have hall (status : JsString → Option TaskRunStatus) : (tasks.map fun task : PhaseTask =>
      (⟨task.id, task.index, task.checked, status task.id⟩ : Task)).all Task.checked = true := by
    rw [List.all_map]
    exact List.all_eq_true.mpr hchecked
  simp only [PhaseFacts.essence, Option.getD_some, hall, if_true, Option.map_some, List.map_map,
    List.isEmpty_map, List.isEmpty_eq_false_iff.mpr hne, Bool.false_eq_true, if_false]
  rfl

/-- A phase is read in the same way on both disks. -/
theorem readPhase_follows (h : Follows input stopped whole) {phase : PhaseDescriptor}
    (hphase : phase ∈ input.phases) :
    (readPhase input stopped phase).map PhaseReading.essence =
      (readPhase input whole phase).map PhaseReading.essence := by
  unfold readPhase
  rw [h.featureTasks, h.documents]
  cases hdocument : whole.documents phase.documentPath with
  | none => rfl
  | some markdown =>
      dsimp only
      cases initializeLegacyHephaTaskStateLedger markdown with
      | some migrated => rfl
      | none =>
          dsimp only
          cases htasks : input.readTasks phase markdown with
          | none => rfl
          | some tasks =>
              simp only [Option.map_some]
              by_cases hstatuses : ∀ taskId, taskStatus stopped phase.number taskId =
                  taskStatus whole phase.number taskId
              · have hstatus : persistedStatus (listTaskRuns stopped phase.number) =
                    persistedStatus (listTaskRuns whole phase.number) := funext hstatuses
                have hcount : (listTaskRuns stopped phase.number).length = 0 ↔
                    (listTaskRuns whole phase.number).length = 0 := by
                  rw [List.length_eq_zero_iff, List.length_eq_zero_iff, listTaskRuns_eq_nil,
                    listTaskRuns_eq_nil]
                  simp only [hstatuses]
                have hmin : min (listTaskRuns stopped phase.number).length 1 =
                    min (listTaskRuns whole phase.number).length 1 := by omega
                rw [hstatus]
                split
                · rfl
                · simp only [PhaseReading.essence, PhaseFacts.essence, hmin]
              · -- the phase is being promoted, so its tasks are checked
                rw [not_forall] at hstatuses
                obtain ⟨taskId, hne⟩ := hstatuses
                obtain ⟨-, promoted, tasks', hpromotes, hnumber, hid⟩ :=
                  (h.statuses phase.number taskId).resolve_left hne
                obtain ⟨hmem, hnodup, -, -, hchecked⟩ := hpromotes.phase
                obtain rfl := List.inj_on_of_nodup_map hnodup hmem hphase hnumber
                obtain ⟨markdown', hdocument', htasks'⟩ := hpromotes.read
                cases hdocument.symm.trans hdocument'
                cases htasks.symm.trans htasks'
                have hnotStale (runs : List TaskRun) : (tasks.find? fun task => !task.checked &&
                    (persistedStatus runs task.id).any TaskRunStatus.isTerminal) = none :=
                  List.find?_eq_none.mpr fun task htask => by rw [hchecked task htask]; simp
                rw [hnotStale, hnotStale]
                have htasksNe : tasks ≠ [] := by
                  rintro rfl
                  cases hid
                exact congrArg (fun facts => some (PhaseReading.facts facts))
                  (essence_checked htasksNe hchecked _ _ _ _ _ _ _ _ _)

theorem readPhases_follows (h : Follows input stopped whole) {phases : List PhaseDescriptor}
    (hphases : ∀ phase ∈ phases, phase ∈ input.phases) :
    (readPhases input stopped phases).map (Sum.map id (List.map PhaseFacts.essence)) =
      (readPhases input whole phases).map (Sum.map id (List.map PhaseFacts.essence)) := by
  induction phases with
  | nil => rfl
  | cons phase rest ih =>
      have hphase := readPhase_follows h (hphases phase List.mem_cons_self)
      have hrest := ih fun other hother => hphases other (List.mem_cons_of_mem _ hother)
      simp only [readPhases, Option.bind_eq_bind]
      rcases hstopped : readPhase input stopped phase with _ | ⟨outcome⟩ | ⟨facts⟩ <;>
        rcases hwhole : readPhase input whole phase with _ | ⟨outcome'⟩ | ⟨facts'⟩ <;>
        rw [hstopped, hwhole] at hphase
      · rfl
      · cases hphase
      · cases hphase
      · cases hphase
      · cases hphase
        rfl
      · cases hphase
      · cases hphase
      · cases hphase
      · have hfacts : facts.essence = facts'.essence :=
          PhaseReading.facts.inj (Option.some.inj hphase)
        simp only [Option.bind_some]
        rcases hstoppedRest : readPhases input stopped rest with _ | outcome | others <;>
          rcases hwholeRest : readPhases input whole rest with _ | outcome' | others' <;>
          rw [hstoppedRest, hwholeRest] at hrest
        · rfl
        · cases hrest
        · cases hrest
        · cases hrest
        · cases hrest
          rfl
        · cases hrest
        · cases hrest
        · cases hrest
        · have hothers : others.map PhaseFacts.essence = others'.map PhaseFacts.essence :=
            Sum.inr.inj (Option.some.inj hrest)
          simp only [Option.bind_some, Option.map_some, Sum.map_inr, List.map_cons, hfacts, hothers]

/-- The outcome of a promotion on a disk. -/
def promotion (input : Input) (disk : Disk) (phase : PhaseDescriptor) (tasks : List PhaseTask)
    (taskIds : List JsString) (reason : JsString) (time : ℤ) : Outcome :=
  ⟨.promote phase.number taskIds reason, some (toISOString time), true,
    taskRunWrites disk phase.number tasks (toISOString time) ++
      fileWrites input disk phase (toISOString time)⟩

theorem Promotes.reconcile {disk : Disk} {phase : PhaseDescriptor} {tasks : List PhaseTask}
    (h : Promotes input disk phase tasks) (time : ℤ) :
    ∃ taskIds reason, reconcilePhaseStateOnDisk input disk time =
      some (promotion input disk phase tasks taskIds reason time) := by
  obtain ⟨facts, taskIds, reason, hreading, hpolicy⟩ := h.decided
  obtain ⟨markdown, hdocument, htasks⟩ := h.read
  refine ⟨taskIds, reason, ?_⟩
  simp only [reconcilePhaseStateOnDisk, hreading, Option.bind_eq_bind, Option.bind_some, hpolicy,
    h.found, promotionWrites, hdocument, htasks]
  rw [promotion, fileWrites, hdocument, ← List.append_assoc]
  rfl

/-- The policy decides in the same way on both disks. -/
theorem decision_follows (h : Follows input stopped whole) {facts : List PhaseFacts}
    (hwhole : readPhases input whole input.phases = some (.inr facts)) :
    ∃ facts', readPhases input stopped input.phases = some (.inr facts') ∧
      reconcilePhaseState input.casing facts' = reconcilePhaseState input.casing facts := by
  have hreading := readPhases_follows h fun phase (hphase : phase ∈ input.phases) => hphase
  rcases hstopped : readPhases input stopped input.phases with _ | outcome | facts' <;>
    rw [hstopped, hwhole] at hreading
  · cases hreading
  · cases hreading
  · have hessence : facts'.map PhaseFacts.essence = facts.map PhaseFacts.essence :=
      Sum.inr.inj (Option.some.inj hreading)
    refine ⟨facts', rfl, ?_⟩
    rw [← reconcilePhaseState_essence, hessence, reconcilePhaseState_essence]

theorem Promotes.follows (h : Follows input stopped whole) {phase : PhaseDescriptor}
    {tasks : List PhaseTask} (hpromotes : Promotes input whole phase tasks) :
    Promotes input stopped phase tasks := by
  obtain ⟨facts, taskIds, reason, hreading, hpolicy⟩ := hpromotes.decided
  obtain ⟨facts', hreading', hpolicy'⟩ := decision_follows h hreading
  exact ⟨⟨facts', taskIds, reason, hreading', hpolicy'.trans hpolicy⟩, hpromotes.found,
    h.documents ▸ hpromotes.read⟩

/-- A call that does not promote is the same on both disks. -/
theorem reconcile_follows (h : Follows input stopped whole)
    (hnot : ∀ phase tasks, ¬Promotes input whole phase tasks) (time : ℤ) :
    reconcilePhaseStateOnDisk input stopped time = reconcilePhaseStateOnDisk input whole time := by
  have hreading := readPhases_follows h fun phase (hphase : phase ∈ input.phases) => hphase
  simp only [reconcilePhaseStateOnDisk, Option.bind_eq_bind]
  rcases hwhole : readPhases input whole input.phases with _ | outcome | facts
  · rw [hwhole, Option.map_none, Option.map_eq_none_iff] at hreading
    rw [hreading]
    rfl
  · rcases hstopped : readPhases input stopped input.phases with _ | outcome' | facts' <;>
      rw [hstopped, hwhole] at hreading <;> cases hreading
    rfl
  · obtain ⟨facts', hreading', hpolicy'⟩ := decision_follows h hwhole
    simp only [hreading', Option.bind_some, hpolicy']
    cases hpolicy : reconcilePhaseState input.casing facts with
    | promote number taskIds reason =>
        dsimp only
        cases hfound : input.phases.find? fun candidate => candidate.number == number with
        | none => rfl
        | some phase =>
            obtain rfl : phase.number = number := by simpa using List.find?_some hfound
            simp only [promotionWrites, Option.bind_eq_bind, h.documents]
            cases hdocument : whole.documents phase.documentPath with
            | none => rfl
            | some markdown =>
                simp only [Option.bind_some]
                cases htasks : input.readTasks phase markdown with
                | none => rfl
                | some tasks =>
                    exact absurd ⟨⟨facts, taskIds, reason, hwhole, hpolicy⟩, hfound, markdown,
                      hdocument, htasks⟩ (hnot phase tasks)
    | initializeLedger => rfl
    | select => rfl
    | blocked => rfl
    | allTerminal => rfl

end Follows

/-! ## Attempts -/

section Attempts

/-- Two disks with the same files and the same statuses of task runs. -/
structure Agree (left right : Disk) : Prop where
  featureTasks : left.featureTasks = right.featureTasks
  documents : left.documents = right.documents
  statuses : ∀ phaseNumber taskId,
    taskStatus left phaseNumber taskId = taskStatus right phaseNumber taskId

variable {input : Input} {stopped whole : Disk}

theorem Agree.follows (h : Agree stopped whole) : Follows input stopped whole :=
  ⟨h.featureTasks, h.documents, fun phaseNumber taskId => .inl (h.statuses phaseNumber taskId)⟩

theorem Agree.write (h : Agree stopped whole) (write : Write) :
    Agree (stopped.write write) (whole.write write) := by
  cases write with
  | document path text =>
      exact ⟨h.featureTasks, by rw [Disk.write, Disk.write, h.documents], h.statuses⟩
  | featureTasks text => exact ⟨rfl, h.documents, h.statuses⟩
  | taskRun run =>
      refine ⟨h.featureTasks, h.documents, fun phaseNumber taskId => ?_⟩
      rw [taskStatus_write_taskRun, taskStatus_write_taskRun, h.statuses]

theorem Agree.foldl (h : Agree stopped whole) (writes : List Write) :
    Agree (writes.foldl Disk.write stopped) (writes.foldl Disk.write whole) := by
  induction writes generalizing stopped whole with
  | nil => exact h
  | cons write rest ih => exact ih (h.write write)

/-- Where no call promotes, nothing is left of a stopped promotion. -/
theorem Follows.agree (h : Follows input stopped whole)
    (hnot : ∀ phase tasks, ¬Promotes input whole phase tasks) : Agree stopped whole where
  featureTasks := h.featureTasks
  documents := h.documents
  statuses phaseNumber taskId := by
    rcases h.statuses phaseNumber taskId with heq | ⟨-, phase, tasks, hpromotes, -⟩
    · exact heq
    · exact absurd hpromotes (hnot phase tasks)

/-- The writes of the task runs leave all tasks of the phase completed. -/
theorem taskStatus_taskRunWrites (disk : Disk) {phase : PhaseDescriptor} {tasks : List PhaseTask}
    (hchecked : ∀ task ∈ tasks, task.checked = true) (timestamp : JsString) (phaseNumber : ℕ)
    (taskId : JsString) :
    taskStatus ((taskRunWrites disk phase.number tasks timestamp).foldl Disk.write disk)
        phaseNumber taskId =
      if phaseNumber = phase.number ∧ taskId ∈ tasks.map PhaseTask.id then some .completed
      else taskStatus disk phaseNumber taskId := by
  have hmem : .taskRun (completedRun phase.number taskId timestamp) ∈
      taskRunWrites disk phase.number tasks timestamp ↔
        taskId ∈ tasks.map PhaseTask.id ∧
          taskStatus disk phase.number taskId ≠ some .completed := by
    constructor
    · intro h
      obtain ⟨task, htask, heq⟩ := List.mem_map.mp h
      obtain ⟨hmem, hstatus⟩ := List.mem_filter.mp htask
      cases heq
      rw [Bool.and_eq_true, bne_iff_ne] at hstatus
      exact ⟨List.mem_map_of_mem hmem, hstatus.2⟩
    · rintro ⟨h, hstatus⟩
      obtain ⟨task, htask, rfl⟩ := List.mem_map.mp h
      refine List.mem_map_of_mem (List.mem_filter.mpr ⟨htask, ?_⟩)
      rw [hchecked task htask, Bool.true_and, bne_iff_ne]
      exact hstatus
  have hall : ∀ write ∈ taskRunWrites disk phase.number tasks timestamp,
      ∃ taskId, write = .taskRun (completedRun phase.number taskId timestamp) := fun _ hwrite =>
    let ⟨task, _, heq⟩ := mem_taskRunWrites hwrite
    ⟨task.id, heq⟩
  rw [taskStatus_completed hall]
  simp only [hmem]
  by_cases hcompleted : taskStatus disk phase.number taskId = some .completed
  · by_cases hnumber : phaseNumber = phase.number
    · subst hnumber
      simp [hcompleted]
    · simp [hnumber]
  · simp [hcompleted]

/-- An attempt that is not stopped after the document of a promotion and before
FeatureTasks. -/
def Harmless (input : Input) (disk : Disk) (attempt : Attempt) : Prop :=
  ∀ outcome count, reconcilePhaseStateOnDisk input disk attempt.time = some outcome →
    attempt.cut = some count → (∃ path text, .document path text ∈ outcome.writes.take count) →
      outcome.writes.length ≤ count

theorem made_eq {disk : Disk} {attempt : Attempt} {outcome : Outcome}
    (h : reconcilePhaseStateOnDisk input disk attempt.time = some outcome) :
    made input disk attempt = outcome.writes ∨
      ∃ count, attempt.cut = some count ∧ made input disk attempt = outcome.writes.take count := by
  rw [made, h]
  cases attempt.cut with
  | none => exact .inl rfl
  | some count => exact .inr ⟨count, rfl, rfl⟩

/-- A promotion that is not stopped makes up for what stopped ones have left. -/
theorem agree_promotion (h : Follows input stopped whole) {phase : PhaseDescriptor}
    {tasks : List PhaseTask} (hpromotes : Promotes input whole phase tasks) (timestamp : JsString) :
    Agree ((taskRunWrites stopped phase.number tasks timestamp ++
        fileWrites input stopped phase timestamp).foldl Disk.write stopped)
      ((taskRunWrites whole phase.number tasks timestamp ++
        fileWrites input whole phase timestamp).foldl Disk.write whole) := by
  have hfiles : fileWrites input stopped phase timestamp =
      fileWrites input whole phase timestamp := by
    rw [fileWrites, fileWrites, h.documents, featureTasksWrites, featureTasksWrites, h.featureTasks]
  have hchecked := hpromotes.phase.2.2.2.2
  rw [List.foldl_append, List.foldl_append, hfiles]
  refine Agree.foldl ⟨?_, ?_, fun phaseNumber taskId => ?_⟩ _
  · rw [(foldl_taskRunWrites _ _ _ _ _).2, (foldl_taskRunWrites _ _ _ _ _).2, h.featureTasks]
  · rw [(foldl_taskRunWrites _ _ _ _ _).1, (foldl_taskRunWrites _ _ _ _ _).1, h.documents]
  · rw [taskStatus_taskRunWrites stopped hchecked, taskStatus_taskRunWrites whole hchecked]
    split
    · rfl
    · rename_i hother
      rcases h.statuses phaseNumber taskId with heq | ⟨-, phase', tasks', hpromotes', hnumber, hid⟩
      · exact heq
      · obtain ⟨rfl, rfl⟩ := hpromotes.unique hpromotes'
        exact absurd ⟨hnumber.symm, hid⟩ hother

/-- A promotion that is stopped before the document leaves task runs completed. -/
theorem follows_stopped (h : Follows input stopped whole) {phase : PhaseDescriptor}
    {tasks : List PhaseTask} (hpromotes : Promotes input whole phase tasks) (timestamp : JsString)
    (count : ℕ) : Follows input
      (((taskRunWrites stopped phase.number tasks timestamp).take count).foldl Disk.write stopped)
      whole := by
  have hall : ∀ write ∈ (taskRunWrites stopped phase.number tasks timestamp).take count,
      ∃ taskId, write = .taskRun (completedRun phase.number taskId timestamp) := fun _ hwrite =>
    let ⟨task, _, heq⟩ := mem_taskRunWrites (List.mem_of_mem_take hwrite)
    ⟨task.id, heq⟩
  have hfiles := foldl_taskRuns (fun write hwrite =>
    let ⟨_, heq⟩ := hall write hwrite
    ⟨_, heq⟩) stopped
  refine ⟨hfiles.2.trans h.featureTasks, hfiles.1.trans h.documents, fun phaseNumber taskId => ?_⟩
  rw [taskStatus_completed hall]
  split
  · rename_i hcompleted
    obtain ⟨task, htask, heq⟩ := mem_taskRunWrites (List.mem_of_mem_take hcompleted.2)
    cases heq
    exact .inr ⟨rfl, phase, tasks, hpromotes, hcompleted.1.symm, List.mem_map_of_mem htask⟩
  · exact h.statuses phaseNumber taskId

/-- **An attempt** is one of the run without stops, or leaves no more than task
runs that the next promotion completes. -/
theorem follows_attempt (h : Follows input stopped whole) {attempt : Attempt}
    (hharmless : Harmless input stopped attempt) :
    Follows input (afterAttempt input stopped attempt) whole ∨
      Follows input (afterAttempt input stopped attempt)
        (afterAttempt input whole ⟨attempt.time, none⟩) := by
  by_cases hpromotes : ∃ phase tasks, Promotes input whole phase tasks
  · obtain ⟨phase, tasks, hwhole⟩ := hpromotes
    have hstopped := hwhole.follows h
    obtain ⟨taskIds, reason, houtcome⟩ := hstopped.reconcile attempt.time
    obtain ⟨taskIds', reason', houtcome'⟩ := hwhole.reconcile attempt.time
    have hafter : afterAttempt input whole ⟨attempt.time, none⟩ =
        (taskRunWrites whole phase.number tasks (toISOString attempt.time) ++
          fileWrites input whole phase (toISOString attempt.time)).foldl Disk.write whole := by
      rw [afterAttempt, made, houtcome']
      rfl
    have hcomplete (hmade : made input stopped attempt =
        taskRunWrites stopped phase.number tasks (toISOString attempt.time) ++
          fileWrites input stopped phase (toISOString attempt.time)) :
        Follows input (afterAttempt input stopped attempt)
          (afterAttempt input whole ⟨attempt.time, none⟩) := by
      rw [hafter, afterAttempt, hmade]
      exact (agree_promotion h hwhole _).follows
    rcases made_eq houtcome with hmade | ⟨count, hcut, hmade⟩
    · exact .inr (hcomplete hmade)
    · obtain ⟨markdown, -, -, hfiles⟩ := fileWrites_eq hstopped attempt.time
      by_cases hcount : count ≤
          (taskRunWrites stopped phase.number tasks (toISOString attempt.time)).length
      · refine .inl ?_
        rw [afterAttempt, hmade, promotion, List.take_append_of_le_length hcount]
        exact follows_stopped h hwhole _ count
      · -- the document is written, so the attempt was not stopped
        have hlength := hharmless _ count houtcome hcut ⟨phase.documentPath, _, by
          rw [promotion, hfiles, List.take_append, List.mem_append]
          refine .inr ?_
          obtain ⟨k, hk⟩ : ∃ k, count - (taskRunWrites stopped phase.number tasks
              (toISOString attempt.time)).length = k + 1 := Nat.exists_eq_add_one.mpr (by omega)
          rw [hk, List.take_succ_cons]
          exact List.mem_cons_self⟩
        rw [List.take_of_length_le hlength] at hmade
        exact .inr (hcomplete hmade)
  · have hnot : ∀ phase tasks, ¬Promotes input whole phase tasks := fun phase tasks hpromotes' =>
      hpromotes ⟨phase, tasks, hpromotes'⟩
    have hagree := h.agree hnot
    have hsame := reconcile_follows h hnot attempt.time
    cases houtcome : reconcilePhaseStateOnDisk input whole attempt.time with
    | none =>
        refine .inl ?_
        rw [afterAttempt, made, hsame, houtcome]
        exact h
    | some outcome =>
        have hafter : afterAttempt input whole ⟨attempt.time, none⟩ =
            outcome.writes.foldl Disk.write whole := by
          rw [afterAttempt, made, houtcome]
        have hcomplete (hmade : made input stopped attempt = outcome.writes) :
            Follows input (afterAttempt input stopped attempt)
              (afterAttempt input whole ⟨attempt.time, none⟩) := by
          rw [hafter, afterAttempt, hmade]
          exact (hagree.foldl _).follows
        rcases made_eq (hsame.trans houtcome) with hmade | ⟨count, -, hmade⟩
        · exact .inr (hcomplete hmade)
        · have hone : outcome.writes.length ≤ 1 := by
            cases reconcile_step houtcome with
            | settled decision => exact Nat.zero_le 1
            | migrated => exact Nat.le_refl 1
            | reset => exact Nat.le_refl 1
            | promoted phase tasks _ _ hwhole => exact absurd hwhole (hnot phase tasks)
          cases count with
          | zero =>
              refine .inl ?_
              rw [afterAttempt, hmade, List.take_zero]
              exact h
          | succ count =>
              rw [List.take_of_length_le (by omega)] at hmade
              exact .inr (hcomplete hmade)

end Attempts

/-! ## Rows of FeatureTasks -/

section Rows

variable {input : Input} {disk other : Disk}

/-- The rows of FeatureTasks. -/
def phaseRows (input : Input) (disk : Disk) : List InventoryRow :=
  (disk.featureTasks.map (readInventoryRows input.casing)).getD []

/-- FeatureTasks has one row for each phase. -/
def OneRowEach (input : Input) (disk : Disk) : Prop :=
  ∀ phase ∈ input.phases,
    ∃ row, (phaseRows input disk).filter (fun row => row.phaseNumber == phase.number) = [row]

/-- The row of a phase says COMPLETED. -/
def RowCompleted (input : Input) (disk : Disk) (phaseNumber : ℕ) : Prop :=
  ∃ row, (phaseRows input disk).filter (fun row => row.phaseNumber == phaseNumber) = [row] ∧
    row.status = js "COMPLETED"

/-- The rows stay those of the same phases, and a completed one stays completed. -/
def RowsForward (input : Input) (disk other : Disk) : Prop :=
  ∃ f : InventoryRow → InventoryRow, phaseRows input other = (phaseRows input disk).map f ∧
    ∀ row, (f row).phaseNumber = row.phaseNumber ∧
      (row.status = js "COMPLETED" → (f row).status = js "COMPLETED")

theorem filter_map_rows {f : InventoryRow → InventoryRow}
    (hf : ∀ row, (f row).phaseNumber = row.phaseNumber) (rows : List InventoryRow)
    (phaseNumber : ℕ) :
    (rows.map f).filter (fun row => row.phaseNumber == phaseNumber) =
      (rows.filter fun row => row.phaseNumber == phaseNumber).map f := by
  rw [List.filter_map]
  congr 2
  funext row
  rw [Function.comp_apply, hf]

theorem RowsForward.oneRowEach (h : RowsForward input disk other)
    (hrows : OneRowEach input disk) : OneRowEach input other := by
  obtain ⟨f, hmap, hf⟩ := h
  intro phase hphase
  obtain ⟨row, hrow⟩ := hrows phase hphase
  refine ⟨f row, ?_⟩
  rw [hmap, filter_map_rows fun row => (hf row).1, hrow, List.map_singleton]

theorem RowsForward.rowCompleted (h : RowsForward input disk other) {phaseNumber : ℕ}
    (hrow : RowCompleted input disk phaseNumber) : RowCompleted input other phaseNumber := by
  obtain ⟨f, hmap, hf⟩ := h
  obtain ⟨row, hrow, hstatus⟩ := hrow
  refine ⟨f row, ?_, (hf row).2 hstatus⟩
  rw [hmap, filter_map_rows fun row => (hf row).1, hrow, List.map_singleton]

theorem RowsForward.of_featureTasks (h : other.featureTasks = disk.featureTasks) :
    RowsForward input disk other :=
  ⟨id, by rw [phaseRows, phaseRows, h, List.map_id], fun _ => ⟨rfl, id⟩⟩

/-- The row of a phase with the status COMPLETED. -/
def completeRow (phaseNumber : ℕ) (row : InventoryRow) : InventoryRow :=
  if row.phaseNumber = phaseNumber then { row with status := js "COMPLETED" } else row

theorem completeRow_forward (phaseNumber : ℕ) (row : InventoryRow) :
    (completeRow phaseNumber row).phaseNumber = row.phaseNumber ∧
      (row.status = js "COMPLETED" → (completeRow phaseNumber row).status = js "COMPLETED") := by
  unfold completeRow
  split
  · exact ⟨rfl, fun _ => rfl⟩
  · exact ⟨rfl, id⟩

/-- The last of some writes to FeatureTasks is what it holds. -/
theorem featureTasks_foldl (writes : List Write) (disk : Disk) :
    (writes.foldl Disk.write disk).featureTasks = disk.featureTasks ∨
      ∃ text, .featureTasks text ∈ writes ∧
        (writes.foldl Disk.write disk).featureTasks = some text := by
  induction writes generalizing disk with
  | nil => exact .inl rfl
  | cons write rest ih =>
      rcases ih (disk.write write) with h | ⟨text, hmem, h⟩
      · cases write with
        | document path text => exact .inl h
        | taskRun run => exact .inl h
        | featureTasks text => exact .inr ⟨text, List.mem_cons_self, h⟩
      · exact .inr ⟨text, List.mem_cons_of_mem _ hmem, h⟩

theorem mem_featureTasksWrites {phaseNumber : ℕ} {text : JsString}
    (h : .featureTasks text ∈ featureTasksWrites input disk phaseNumber) :
    ∃ markdown, disk.featureTasks = some markdown ∧ replaceFeatureTasksPhaseStatus input.casing
      markdown phaseNumber (js "COMPLETED") = some text := by
  unfold featureTasksWrites at h
  split at h
  · cases h
  · rename_i markdown hmarkdown
    split at h
    · cases h
    · rename_i updated hupdated
      split at h
      · cases h
      · cases List.mem_singleton.mp h
        exact ⟨markdown, hmarkdown, hupdated⟩

theorem phaseRows_replace {markdown text : JsString} {phaseNumber : ℕ}
    (hmarkdown : disk.featureTasks = some markdown) (hother : other.featureTasks = some text)
    (h : replaceFeatureTasksPhaseStatus input.casing markdown phaseNumber (js "COMPLETED") =
      some text) :
    phaseRows input other = (phaseRows input disk).map (completeRow phaseNumber) := by
  rw [phaseRows, phaseRows, hmarkdown, hother, Option.map_some, Option.map_some, Option.getD_some,
    Option.getD_some, readInventoryRows_replace (statusWord_completed input.casing) h]
  rfl

/-- Every attempt, stopped or not, moves the rows forward. -/
theorem rowsForward_attempt (input : Input) (disk : Disk) (attempt : Attempt) :
    RowsForward input disk (afterAttempt input disk attempt) := by
  rcases featureTasks_foldl (made input disk attempt) disk with h | ⟨text, hmem, h⟩
  · exact .of_featureTasks h
  · cases houtcome : reconcilePhaseStateOnDisk input disk attempt.time with
    | none =>
        rw [made, houtcome] at hmem
        cases hmem
    | some outcome =>
        have hwrites : .featureTasks text ∈ outcome.writes := by
          rcases made_eq houtcome with hmade | ⟨count, -, hmade⟩
          · exact hmade ▸ hmem
          · rw [hmade] at hmem
            exact List.mem_of_mem_take hmem
        cases reconcile_step houtcome with
        | settled decision => cases hwrites
        | migrated => cases List.mem_singleton.mp hwrites
        | reset => cases List.mem_singleton.mp hwrites
        | promoted phase tasks taskIds reason hpromotes =>
            obtain ⟨markdown, -, -, hfiles⟩ := fileWrites_eq hpromotes attempt.time
            rw [hfiles, List.mem_append] at hwrites
            rcases hwrites with hwrites | hwrites
            · obtain ⟨task, -, heq⟩ := mem_taskRunWrites hwrites
              cases heq
            · rcases List.mem_cons.mp hwrites with heq | hwrites
              · cases heq
              · obtain ⟨markdown, hmarkdown, hreplace⟩ := mem_featureTasksWrites hwrites
                exact ⟨completeRow phase.number, phaseRows_replace hmarkdown h hreplace,
                  completeRow_forward phase.number⟩

theorem rowsForward_run (input : Input) (disk : Disk) (attempts : List Attempt) :
    RowsForward input disk (run input disk attempts) := by
  induction attempts generalizing disk with
  | nil => exact .of_featureTasks rfl
  | cons attempt rest ih =>
      obtain ⟨f, hf, hforward⟩ := rowsForward_attempt input disk attempt
      obtain ⟨g, hg, hforward'⟩ := ih (afterAttempt input disk attempt)
      refine ⟨g ∘ f, ?_, fun row => ⟨?_, ?_⟩⟩
      · rw [← List.map_map, ← hf]
        exact hg
      · rw [Function.comp_apply, (hforward' _).1, (hforward _).1]
      · exact fun hstatus => (hforward' _).2 ((hforward _).2 hstatus)

/-- After the writes to FeatureTasks the row of the phase is completed. -/
theorem rowCompleted_featureTasksWrites {phase : PhaseDescriptor} {markdown : JsString}
    (hmarkdown : disk.featureTasks = some markdown) {row : InventoryRow}
    (hrow : (phaseRows input disk).filter (fun row => row.phaseNumber == phase.number) = [row])
    (hother : other.featureTasks = disk.featureTasks) :
    RowCompleted input ((featureTasksWrites input disk phase.number).foldl Disk.write other)
      phase.number := by
  have hrows : phaseRows input disk = readInventoryRows input.casing markdown := by
    rw [phaseRows, hmarkdown]
    rfl
  have hnumber : row.phaseNumber = phase.number := by
    have hmem : row ∈ (phaseRows input disk).filter fun row => row.phaseNumber == phase.number :=
      hrow ▸ List.mem_singleton_self row
    simpa using (List.mem_filter.mp hmem).2
  obtain ⟨updated, hupdated⟩ : ∃ updated, replaceFeatureTasksPhaseStatus input.casing markdown
      phase.number (js "COMPLETED") = some updated := by
    rw [hrows] at hrow
    unfold replaceFeatureTasksPhaseStatus
    dsimp only
    rw [hrow]
    cases hheader : findInventoryHeader input.casing (splitLines markdown) with
    | some header => exact ⟨_, rfl⟩
    | none =>
        rw [readInventoryRows, hheader] at hrow
        cases hrow
  have hafter : phaseRows input ((featureTasksWrites input disk phase.number).foldl Disk.write
      other) = (phaseRows input disk).map (completeRow phase.number) := by
    refine phaseRows_replace hmarkdown ?_ hupdated
    rw [featureTasksWrites, hmarkdown]
    simp only [hupdated]
    split
    · rename_i hsame
      rw [List.foldl_nil, hother, hmarkdown, hsame]
    · rfl
  refine ⟨completeRow phase.number row, ?_, ?_⟩
  · rw [hafter, filter_map_rows fun row => (completeRow_forward phase.number row).1, hrow,
      List.map_singleton]
  · rw [completeRow, if_pos hnumber]

end Rows

/-! ## Runs -/

section Runs

/-- No attempt of the run is stopped between a phase document and FeatureTasks. -/
def HarmlessRun (input : Input) (disk : Disk) (attempts : List Attempt) : Prop :=
  ∀ before attempt after, attempts = before ++ attempt :: after →
    Harmless input (run input disk before) attempt

/-- Calls that are not stopped. -/
def uninterrupted (times : List ℤ) : List Attempt :=
  times.map fun time => ⟨time, none⟩

/-- What it means that the promotions of a run can be retried: calls that are not
stopped come to an end; once a call changes nothing, the disk agrees with that of
a run without stops; and a promoted phase is completed in FeatureTasks. -/
structure Retried (input : Input) (disk : Disk) (attempts : List Attempt) : Prop where
  finite : ∀ times : ℕ → ℤ, ∃ n,
    Settles input (calls input (run input disk attempts) times n) (times n)
  agrees : ∀ time, Settles input (run input disk attempts) time →
    ∃ times : List ℤ, times.Sublist (attempts.map Attempt.time) ∧
      Settles input (run input disk (uninterrupted times)) time ∧
        Agree (run input disk attempts) (run input disk (uninterrupted times))
  completed : ∀ time, Settles input (run input disk attempts) time →
    ∀ before attempt after phase tasks path text, attempts = before ++ attempt :: after →
      Promotes input (run input disk before) phase tasks →
        .document path text ∈ made input (run input disk before) attempt →
          RowCompleted input (run input disk attempts) phase.number

variable {input : Input} {disk : Disk} {attempts : List Attempt}

theorem HarmlessRun.head {attempt : Attempt} (h : HarmlessRun input disk (attempt :: attempts)) :
    Harmless input disk attempt ∧ HarmlessRun input (afterAttempt input disk attempt) attempts :=
  ⟨h [] attempt attempts rfl, fun before other after heq =>
    h (attempt :: before) other after (by rw [heq, List.cons_append])⟩

/-- The run lemma: the disk follows that of the attempts that were not stopped. -/
theorem run_follows {whole : Disk} (h : Follows input disk whole)
    (hharmless : HarmlessRun input disk attempts) :
    ∃ times : List ℤ, times.Sublist (attempts.map Attempt.time) ∧
      Follows input (run input disk attempts) (run input whole (uninterrupted times)) := by
  induction attempts generalizing disk whole with
  | nil => exact ⟨[], List.Sublist.refl _, h⟩
  | cons attempt rest ih =>
      obtain ⟨hfirst, hrest⟩ := hharmless.head
      rcases follows_attempt h hfirst with hnext | hnext
      · obtain ⟨times, hsublist, hfollows⟩ := ih hnext hrest
        exact ⟨times, hsublist.cons _, hfollows⟩
      · obtain ⟨times, hsublist, hfollows⟩ := ih hnext hrest
        exact ⟨attempt.time :: times, hsublist.cons_cons _, hfollows⟩

/-- Where a call changes nothing, nothing is left of a stopped promotion. -/
theorem Follows.settled {stopped whole : Disk} (h : Follows input stopped whole) {time : ℤ}
    (hsettles : Settles input stopped time) : Settles input whole time ∧ Agree stopped whole := by
  have hnot : ∀ phase tasks, ¬Promotes input whole phase tasks := by
    intro phase tasks hpromotes
    obtain ⟨taskIds, reason, houtcome⟩ := (hpromotes.follows h).reconcile time
    cases hsettles _ houtcome
  refine ⟨fun outcome houtcome => ?_, h.agree hnot⟩
  exact hsettles outcome ((reconcile_follows h hnot time).trans houtcome)

/-- A promotion whose document is written, and that is not stopped there, completes
the row of the phase. -/
theorem rowCompleted_attempt {attempt : Attempt} (hrows : OneRowEach input disk)
    (hharmless : Harmless input disk attempt) {phase : PhaseDescriptor} {tasks : List PhaseTask}
    (hpromotes : Promotes input disk phase tasks) {path text : JsString}
    (hmade : .document path text ∈ made input disk attempt) :
    RowCompleted input (afterAttempt input disk attempt) phase.number := by
  obtain ⟨taskIds, reason, houtcome⟩ := hpromotes.reconcile attempt.time
  obtain ⟨row, hrow⟩ := hrows phase hpromotes.phase.1
  obtain ⟨markdown, hmarkdown⟩ : ∃ markdown, disk.featureTasks = some markdown := by
    cases hfeatureTasks : disk.featureTasks with
    | some markdown => exact ⟨markdown, rfl⟩
    | none =>
        rw [phaseRows, hfeatureTasks] at hrow
        cases hrow
  have hwrites : made input disk attempt =
      taskRunWrites disk phase.number tasks (toISOString attempt.time) ++
        fileWrites input disk phase (toISOString attempt.time) := by
    rcases made_eq houtcome with h | ⟨count, hcut, h⟩
    · exact h
    · have hlength := hharmless _ count houtcome hcut ⟨path, text, h ▸ hmade⟩
      rwa [List.take_of_length_le hlength] at h
  obtain ⟨markdown', -, -, hfiles⟩ := fileWrites_eq hpromotes attempt.time
  rw [afterAttempt, hwrites, List.foldl_append, hfiles, List.foldl_cons]
  exact rowCompleted_featureTasksWrites hmarkdown hrow (foldl_taskRunWrites _ _ _ _ _).2

/-- A promotion that is stopped after its task runs has written the document. -/
theorem Promotes.document_mem_made {phase : PhaseDescriptor} {tasks : List PhaseTask}
    (hpromotes : Promotes input disk phase tasks) (time : ℤ) {count : ℕ}
    (hcount : tasks.length < count) :
    ∃ path text, .document path text ∈ made input disk ⟨time, some count⟩ := by
  obtain ⟨taskIds, reason, houtcome⟩ := hpromotes.reconcile time
  obtain ⟨markdown, -, -, hfiles⟩ := fileWrites_eq hpromotes time
  have hruns : (taskRunWrites disk phase.number tasks (toISOString time)).length < count := by
    refine lt_of_le_of_lt ?_ hcount
    rw [taskRunWrites, List.length_map]
    exact List.length_filter_le _ _
  refine ⟨phase.documentPath, promotedDocument markdown (toISOString time) phase.number, ?_⟩
  have hmade : made input disk ⟨time, some count⟩ =
      (taskRunWrites disk phase.number tasks (toISOString time) ++
        fileWrites input disk phase (toISOString time)).take count := by
    rw [made, houtcome]
    rfl
  obtain ⟨rest, rfl⟩ := Nat.exists_eq_add_of_lt hruns
  rw [hmade, hfiles, Nat.add_assoc, List.take_length_add_append]
  exact List.mem_append_right _ List.mem_cons_self

/-- **Retries.** Promotions can be retried in every run in which no call is stopped
between a phase document and FeatureTasks. -/
theorem run_retried (hrows : OneRowEach input disk) (hharmless : HarmlessRun input disk attempts) :
    Retried input disk attempts where
  finite times := exists_settles times
  agrees time hsettles := by
    have hself : Follows input disk disk := Agree.follows ⟨rfl, rfl, fun _ _ => rfl⟩
    obtain ⟨times, hsublist, hfollows⟩ := run_follows hself hharmless
    obtain ⟨hwhole, hagree⟩ := hfollows.settled hsettles
    exact ⟨times, hsublist, hwhole, hagree⟩
  completed time _ before attempt after phase tasks path text hsplit hpromotes hmade := by
    have hbefore := (rowsForward_run input disk before).oneRowEach hrows
    have hcompleted := rowCompleted_attempt hbefore (hharmless before attempt after hsplit)
      hpromotes hmade
    have hafter := (rowsForward_run input _ after).rowCompleted hcompleted
    rwa [hsplit, run, List.foldl_append, List.foldl_cons]

/-! ## A stop between two files -/

/-- The sample disk has one row for its phase. -/
theorem oneRowEach_sampleDisk : OneRowEach sampleInput (sampleDisk "passed") := by
  intro phase hphase
  obtain rfl := List.mem_singleton.mp hphase
  exact ⟨⟨1, 1, js "IN_PROGRESS"⟩, by decide⟩

/-- The writes of a first call, and the disk after two of them, evaluated. -/
theorem sampleDisk_stopped :
    ((reconcilePhaseStateOnDisk sampleInput (sampleDisk "passed") 0).map
        (fun outcome => outcome.writes.take 1) =
          some [.taskRun (completedRun 1 (js "phase-1.build") (toISOString 0))] ∧
      (reconcilePhaseStateOnDisk sampleInput (sampleDisk "passed") 0).map Outcome.promotedAt =
        some (some (toISOString 0))) ∧
    (reconcilePhaseStateOnDisk sampleInput
        (run sampleInput (sampleDisk "passed") [⟨0, some 2⟩]) 0).map Outcome.changed =
      some false ∧
    ∀ row ∈ phaseRows sampleInput (run sampleInput (sampleDisk "passed") [⟨0, some 2⟩]),
      row.status ≠ js "COMPLETED" := by
  unfold sampleDisk sampleDocument
  -- evaluated character by character
  simp only [js_append]
  repeat rw [js_ofList]
  decide +kernel

theorem run_retried_taskRuns :
    Retried sampleInput (sampleDisk "passed") [⟨0, some 1⟩, ⟨1, none⟩] := by
  refine run_retried oneRowEach_sampleDisk fun before attempt after hsplit => ?_
  rcases before with _ | ⟨first, _ | ⟨second, before⟩⟩
  · -- the first attempt is stopped after the task run
    obtain ⟨rfl, -⟩ := List.cons.inj hsplit
    rintro outcome count houtcome hcut ⟨path, text, hmem⟩
    cases hcut
    obtain ⟨⟨htaken, -⟩, -⟩ := sampleDisk_stopped
    rw [show reconcilePhaseStateOnDisk sampleInput (sampleDisk "passed") 0 = some outcome
      from houtcome] at htaken
    have hfirst : outcome.writes.take 1 =
        [.taskRun (completedRun 1 (js "phase-1.build") (toISOString 0))] :=
      Option.some.inj htaken
    rw [hfirst] at hmem
    cases List.mem_singleton.mp hmem
  · obtain ⟨rfl, -⟩ := List.cons.inj (List.cons.inj hsplit).2
    intro outcome count _ hcut
    cases hcut
  · have hlength := congrArg List.length hsplit
    simp at hlength

/-- **A promotion that is not made up for.** It is stopped after the document. -/
theorem stopped_promotion_not_retried :
    ¬∀ (input : Input) (disk : Disk) (attempts : List Attempt), OneRowEach input disk →
      Retried input disk attempts := by
  intro hclaim
  have hretried := hclaim sampleInput (sampleDisk "passed") [⟨0, some 2⟩] oneRowEach_sampleDisk
  obtain ⟨⟨-, hpromotion⟩, hchanged, hrows⟩ := sampleDisk_stopped
  obtain ⟨outcome, houtcome, hpromotedAt⟩ := Option.map_eq_some_iff.mp hpromotion
  obtain ⟨phase, tasks, hpromotes⟩ : ∃ phase tasks,
      Promotes sampleInput (sampleDisk "passed") phase tasks := by
    cases reconcile_step houtcome with
    | settled => cases hpromotedAt
    | migrated => cases hpromotedAt
    | reset => cases hpromotedAt
    | promoted phase tasks _ _ hpromotes => exact ⟨phase, tasks, hpromotes⟩
  -- one task run is written before the document
  have hlength : tasks.length < 2 := by
    obtain ⟨markdown, -, htasks⟩ := hpromotes.read
    obtain rfl := Option.some.inj htasks
    exact Nat.one_lt_two
  obtain ⟨path, text, hmade⟩ := hpromotes.document_mem_made 0 hlength
  have hsettles : Settles sampleInput (run sampleInput (sampleDisk "passed") [⟨0, some 2⟩]) 0 := by
    intro outcome houtcome
    rw [houtcome] at hchanged
    exact Option.some.inj hchanged
  have hcompleted := hretried.completed 0 hsettles [] _ [] phase tasks path text rfl
    hpromotes hmade
  obtain ⟨row, hrow, hstatus⟩ := hcompleted
  have hmem := List.mem_of_mem_filter (hrow ▸ List.mem_singleton_self row)
  exact hrows row hmem hstatus

end Runs

end Hepha.Reconcile
