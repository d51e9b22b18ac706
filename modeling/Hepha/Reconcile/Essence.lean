import Hepha.Reconcile.Policy

/-!
# What a decision depends on

The policy looks at the task runs of a phase only while a task is unchecked, and
at their number only while the phase has no task.  The *essence* of a phase's
facts leaves out what is not looked at; phases with the same essence are decided
in the same way.
-/

namespace Hepha.Reconcile

open JsString

/-- A task without its task run. -/
def Task.plain (task : Task) : Task := { task with persistedStatus := none }

/-- The facts of a phase that a decision depends on. -/
def PhaseFacts.essence (facts : PhaseFacts) : PhaseFacts :=
  { facts with
    tasks := if (facts.tasks.getD []).all Task.checked then facts.tasks.map (List.map Task.plain)
      else facts.tasks
    taskRunCount := if (facts.tasks.getD []).isEmpty then min facts.taskRunCount 1 else 0 }

variable {casing : Casing}

@[simp] theorem essence_number (facts : PhaseFacts) : facts.essence.number = facts.number := rfl

section Tasks

variable (facts : PhaseFacts)

/-- The tasks of the essence: all of them are checked, or they are left as they are. -/
theorem essence_tasks :
    ((facts.tasks.getD []).all Task.checked = true ∧
      facts.essence.tasks.getD [] = (facts.tasks.getD []).map Task.plain) ∨
    ((facts.tasks.getD []).all Task.checked = false ∧ facts.essence.tasks = facts.tasks) := by
  cases hall : (facts.tasks.getD []).all Task.checked with
  | false => exact .inr ⟨rfl, by rw [PhaseFacts.essence, hall]; rfl⟩
  | true =>
      refine .inl ⟨rfl, ?_⟩
      rw [PhaseFacts.essence, hall]
      cases facts.tasks <;> rfl

theorem isEmpty_essence :
    (facts.essence.tasks.getD []).isEmpty = (facts.tasks.getD []).isEmpty := by
  rcases essence_tasks facts with ⟨-, h⟩ | ⟨-, h⟩
  · rw [h, List.isEmpty_map]
  · rw [h]

end Tasks

/-- The tasks of a phase in the order of their indices. -/
def orderTasks (tasks : List Task) : List Task :=
  tasks.insertionSort fun left right => left.index ≤ right.index

theorem orderTasks_plain (tasks : List Task) :
    orderTasks (tasks.map Task.plain) = (orderTasks tasks).map Task.plain := by
  exact (List.map_insertionSort _ _ Task.plain tasks fun _ _ _ _ => Iff.rfl).symm

/-- Checked tasks are decided without their task runs. -/
theorem decideTasks_plain {facts facts' : PhaseFacts} (hnumber : facts'.number = facts.number)
    (hreview : facts'.autonomousCodeReviewRequired = facts.autonomousCodeReviewRequired)
    {tasks : List Task} (hchecked : ∀ task ∈ tasks, task.checked = true)
    (documentStatus featureTasksStatus : JsString) (gates : List Gate) :
    decideTasks facts' documentStatus featureTasksStatus (tasks.map Task.plain) gates =
      decideTasks facts documentStatus featureTasksStatus tasks gates := by
  have hfind {p : Task → Bool} : (tasks.find? fun task => !task.checked && p task) = none :=
    List.find?_eq_none.mpr fun task htask => by rw [hchecked task htask]; simp
  have hfindPlain {p : Task → Bool} :
      ((tasks.map Task.plain).find? fun task => !task.checked && p task) = none := by
    rw [List.find?_map, Option.map_eq_none_iff]
    exact List.find?_eq_none.mpr fun task htask => by
      rw [Function.comp_apply, Task.plain, hchecked task htask]; simp
  have hunchecked : (tasks.find? fun task => !task.checked) = none :=
    List.find?_eq_none.mpr fun task htask => by rw [hchecked task htask]; simp
  have huncheckedPlain : ((tasks.map Task.plain).find? fun task => !task.checked) = none := by
    rw [List.find?_map, Option.map_eq_none_iff]
    exact hunchecked
  have hall : (tasks.map Task.plain).all Task.checked = tasks.all Task.checked := by
    rw [List.all_map]
    rfl
  have hids : (tasks.map Task.plain).map Task.id = tasks.map Task.id := by
    rw [List.map_map]
    rfl
  have hlast : (tasks.map Task.plain).getLast?.map Task.id = tasks.getLast?.map Task.id := by
    rw [← List.getLast?_map, ← List.getLast?_map, hids]
  simp only [decideTasks, hfind, hfindPlain, hunchecked, huncheckedPlain, hall, decideChecked,
    hids, hlast, hnumber, hreview]

theorem decidePhase_essence (facts : PhaseFacts) :
    decidePhase casing facts.essence = decidePhase casing facts := by
  have hexists : facts.essence.documentExists = facts.documentExists := rfl
  have hdocument : facts.essence.documentStatus = facts.documentStatus := rfl
  have hfeatureTasks : facts.essence.featureTasksStatus = facts.featureTasksStatus := rfl
  have hgates : facts.essence.gates = facts.gates := rfl
  unfold decidePhase
  rw [hexists, essence_number, hdocument, hfeatureTasks, isEmpty_essence, hgates]
  split
  · rfl
  · split
    · rename_i documentStatus featureTasksStatus _ _
      cases hempty : (facts.tasks.getD []).isEmpty with
      | true =>
          have hmin : facts.essence.taskRunCount = min facts.taskRunCount 1 := by
            simp [PhaseFacts.essence, hempty]
          have hcount : (facts.essence.taskRunCount == 0) = (facts.taskRunCount == 0) := by
            rw [hmin, Bool.eq_iff_iff, beq_iff_eq, beq_iff_eq]
            omega
          simp only [if_true, decideUninitialized, hcount, essence_number]
      | false =>
          simp only [Bool.false_eq_true, if_false]
          split
          · rfl
          · rename_i gates _
            rcases essence_tasks facts with ⟨hchecked, h⟩ | ⟨-, h⟩
            · rw [h]
              have horder := orderTasks_plain (facts.tasks.getD [])
              unfold orderTasks at horder
              rw [horder]
              refine decideTasks_plain rfl rfl (fun task htask => ?_) _ _ _
              exact List.all_eq_true.mp hchecked task ((List.mem_insertionSort _).mp htask)
            · rw [h]
              rfl
    · rfl

theorem uncheckedCompleted_essence (casing : Casing) (facts : PhaseFacts) :
    (uncheckedCompleted casing facts.essence).map (fun found => (found.1.number, found.2.id)) =
      (uncheckedCompleted casing facts).map fun found => (found.1.number, found.2.id) := by
  have hdocument : facts.essence.documentStatus = facts.documentStatus := rfl
  unfold uncheckedCompleted
  rw [hdocument]
  dsimp only
  split
  · rfl
  · rcases essence_tasks facts with ⟨hchecked, h⟩ | ⟨-, h⟩
    · have hnone : ((facts.tasks.getD []).find? fun task => !task.checked) = none :=
        List.find?_eq_none.mpr fun task htask => by rw [List.all_eq_true.mp hchecked task htask]; simp
      rw [h, List.find?_map, hnone]
      have hplain : ((fun task : Task => !task.checked) ∘ Task.plain) = fun task => !task.checked :=
        rfl
      rw [hplain, hnone]
      rfl
    · rw [h]
      simp only [Option.map_map]
      rfl

theorem sortedPhases_essence (facts : List PhaseFacts) :
    sortedPhases (facts.map PhaseFacts.essence) = (sortedPhases facts).map PhaseFacts.essence := by
  exact (List.map_insertionSort _ _ PhaseFacts.essence facts fun _ _ _ _ => Iff.rfl).symm

theorem findDuplicate_essence (phases : List PhaseFacts) :
    findDuplicate (phases.map PhaseFacts.essence) =
      (findDuplicate phases).map PhaseFacts.essence := by
  rw [findDuplicate, findDuplicate, ← List.map_tail, List.zip_map, List.findSome?_map]
  induction phases.zip phases.tail with
  | nil => rfl
  | cons pair rest ih =>
      obtain ⟨previous, phase⟩ := pair
      rw [List.findSome?_cons, List.findSome?_cons, ih]
      by_cases h : phase.number = previous.number <;> simp [h]

/-- **The essence.** A decision depends on the essence of the facts alone. -/
theorem reconcilePhaseState_essence (facts : List PhaseFacts) :
    reconcilePhaseState casing (facts.map PhaseFacts.essence) =
      reconcilePhaseState casing facts := by
  unfold reconcilePhaseState
  rw [sortedPhases_essence]
  generalize sortedPhases facts = phases
  dsimp only
  rw [findDuplicate_essence]
  cases findDuplicate phases with
  | some duplicate => rfl
  | none =>
      have hunchecked : ((phases.map PhaseFacts.essence).findSome? (uncheckedCompleted casing)).map
          (fun found => (found.1.number, found.2.id)) =
          (phases.findSome? (uncheckedCompleted casing)).map
            fun found => (found.1.number, found.2.id) := by
        induction phases with
        | nil => rfl
        | cons phase rest ih =>
            have hphase := uncheckedCompleted_essence casing phase
            simp only [List.map_cons, List.findSome?_cons]
            cases h : uncheckedCompleted casing phase <;>
              cases h' : uncheckedCompleted casing phase.essence <;> rw [h, h'] at hphase
            · exact ih
            · cases hphase
            · cases hphase
            · exact hphase
      have hopen : (phases.map PhaseFacts.essence).find? (fun candidate => !isTerminal
          (normalizeReconciliationPhaseStatus casing candidate.documentStatus)) =
          (phases.find? fun candidate => !isTerminal
            (normalizeReconciliationPhaseStatus casing candidate.documentStatus)).map
              PhaseFacts.essence := by
        rw [List.find?_map]
        rfl
      rw [hopen]
      cases h : phases.findSome? (uncheckedCompleted casing) with
      | some found =>
          cases h' : (phases.map PhaseFacts.essence).findSome? (uncheckedCompleted casing) with
          | none =>
              rw [h, h'] at hunchecked
              cases hunchecked
          | some found' =>
              rw [h, h'] at hunchecked
              obtain ⟨hnumber, hid⟩ := Prod.mk.inj (Option.some.inj hunchecked)
              simp only [hnumber, hid, Option.map_none]
      | none =>
          cases h' : (phases.map PhaseFacts.essence).findSome? (uncheckedCompleted casing) with
          | some found' =>
              rw [h, h'] at hunchecked
              cases hunchecked
          | none =>
              cases phases.find? fun candidate => !isTerminal
                (normalizeReconciliationPhaseStatus casing candidate.documentStatus) with
              | none => rfl
              | some phase => exact decidePhase_essence phase

end Hepha.Reconcile
