import Hepha.Lib.Numbering
import Hepha.Phases.Ledger

/-!
# The ids of the tasks

The id of a task is made of the slugs of its heading and of its text; the second task
with the same slugs gets the number 2 behind it, the next one 3.  A text that ends in a
number by itself can have the slug that another task gets this way.
-/

namespace Hepha.Phases

open JsString Pattern

variable (casing : Casing) (phaseNumber : Option ℕ)

/-- The id of the task of a line, without its number. -/
def LedgerState.baseId (s : LedgerState) (line : JsString) : Option JsString :=
  match readLine line with
  | .checkbox _ text =>
      if s.insideExplicitLedger then
        some (createPhaseTaskId casing phaseNumber s.heading (taskText text))
      else none
  | _ => none

def ledgerBaseIds (hasExplicitLedger : Bool) : LedgerState → List JsString → List JsString
  | _, [] => []
  | s, line :: rest =>
      (s.baseId casing phaseNumber line).toList ++
        ledgerBaseIds hasExplicitLedger (s.step casing phaseNumber hasExplicitLedger line) rest

/-- The ids of the checkboxes of a ledger, without their numbers. -/
def checkboxBaseIds (markdown : JsString) : List JsString :=
  let hasExplicitLedger := (splitLines markdown).any startsExplicitLedger
  ledgerBaseIds casing phaseNumber hasExplicitLedger (initialLedgerState hasExplicitLedger)
    (splitLines markdown)

/-- An id with a number. -/
def numbered (baseId : JsString) (n : ℕ) : JsString :=
  baseId ++ js "-" ++ decimalText n

/-- No checkbox has the id that another one gets with its number. -/
def NumbersFree (baseIds : List JsString) : Prop :=
  ∀ baseId ∈ baseIds, ∀ n, 2 ≤ n → n ≤ baseIds.count baseId → numbered baseId n ∉ baseIds

/-- The number is behind the last dash. -/
theorem numbered_injective {baseId other : JsString} {m n : ℕ}
    (h : numbered baseId m = numbered other n) : baseId = other ∧ m = n := by
  have hdigits (baseId : JsString) (n : ℕ) :
      (numbered baseId n).rtakeWhile isDigit = decimalText n := by
    rw [numbered, show js "-" = [0x2D] by decide, List.append_assoc, List.rtakeWhile,
      List.reverse_append, List.reverse_append, List.append_assoc,
      List.takeWhile_append_of_pos fun u hu => isDigit_of_mem_decimalText (List.mem_reverse.mp hu),
      List.reverse_singleton, List.singleton_append,
      List.takeWhile_cons_of_neg (by decide), List.append_nil, List.reverse_reverse]
  have hnumber : decimalText m = decimalText n := by
    rw [← hdigits baseId m, h, hdigits]
  obtain rfl := decimalText_injective hnumber
  exact ⟨List.append_cancel_right (List.append_cancel_right h), rfl⟩

variable {casing phaseNumber} {hasExplicitLedger : Bool}

/-- The ids of the tasks are the base ids with their numbers. -/
theorem ledgerItems_ids (s : LedgerState) (index : ℕ) (lines : List JsString) :
    (ledgerItems casing phaseNumber hasExplicitLedger s index lines).map PhaseTaskLedgerItem.id =
      numberFrom numbered s.seenIds
        (ledgerBaseIds casing phaseNumber hasExplicitLedger s lines) := by
  induction lines generalizing s index with
  | nil => rfl
  | cons line rest ih =>
      rw [ledgerItems, ledgerBaseIds, List.map_append, ih, LedgerState.read, LedgerState.baseId,
        LedgerState.step]
      cases readLine line with
      | heading level text =>
          have hseen : (s.enter hasExplicitLedger level text).seenIds = s.seenIds := by
            unfold LedgerState.enter
            dsimp only
            split_ifs <;> rfl
          simp [hseen]
      | checkbox mark text =>
          by_cases hinside : s.insideExplicitLedger = true
          · simp only [hinside, if_true, Option.toList_some, List.map_singleton,
              List.singleton_append]
            rw [numberFrom]
            rfl
          · simp [hinside]
      | other => simp

theorem extractPhaseTaskLedger_ids (markdown : JsString) :
    (extractPhaseTaskLedger casing markdown phaseNumber).map PhaseTaskLedgerItem.id =
      numberAll numbered (checkboxBaseIds casing phaseNumber markdown) :=
  ledgerItems_ids _ 0 _

/-- **The ids of a ledger are different if and only if no checkbox has the id that another
one gets with its number.** -/
theorem extractPhaseTaskLedger_nodup_iff (casing : Casing) (markdown : JsString)
    (phaseNumber : Option ℕ) :
    ((extractPhaseTaskLedger casing markdown phaseNumber).map PhaseTaskLedgerItem.id).Nodup ↔
      NumbersFree (checkboxBaseIds casing phaseNumber markdown) := by
  rw [extractPhaseTaskLedger_ids, nodup_numberAll_iff fun _ _ _ _ => numbered_injective]
  constructor
  · intro h baseId _ n
    exact h baseId n
  · intro h baseId n htwo hcount
    refine h baseId (List.count_pos_iff.mp ?_) n htwo hcount
    omega

/-- Two tasks `a` and one `a 2`: the second and the third have the same id. -/
theorem repeated_task_ids_collide :
    ¬∀ (casing : Casing) (markdown : JsString) (phaseNumber : Option ℕ),
      ((extractPhaseTaskLedger casing markdown phaseNumber).map PhaseTaskLedgerItem.id).Nodup := by
  intro h
  have hids : ((extractPhaseTaskLedger Casing.ascii (js "- [ ] a\n- [ ] a\n- [ ] a 2")
      (some 1)).map PhaseTaskLedgerItem.id).Nodup ↔ False := by
    decide
  exact hids.mp (h _ _ _)

end Hepha.Phases
