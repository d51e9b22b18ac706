import Hepha.Js.Decimal
import Hepha.Js.Lines

/-!
# The task ledger of a phase document

The checkboxes of a phase document are its tasks.  Where the document has a
heading "Phase Task Ledger", only the checkboxes below such a heading count, up
to the next heading of its level or of a higher one; otherwise all of them do.
-/

namespace Hepha.Phases

open JsString Pattern

/-! ## Lines -/

/-- `cleanInlineMarkdown`. -/
def cleanInlineMarkdown (value : JsString) : JsString :=
  (replaceRuns (fun u => isWhiteSpace u && u != 0x0A && u != 0x0D) (js " ") false
    ((value.filter fun u => u != 0x60 && u != 0x2A).map fun u => if u = 0x5F then 0x20 else u)).trim

/-- The level and the text of a heading: `/^\s{0,3}(#{1,6})\s+(.+?)\s*$/`. -/
def readHeading (line : JsString) : Option (ℕ × JsString) :=
  let marks := (line.dropWhile isWhiteSpace).takeWhile (· == 0x23)
  match (line.dropWhile isWhiteSpace).dropWhile (· == 0x23) with
  | white :: rest =>
      if (line.takeWhile isWhiteSpace).length ≤ 3 && 1 ≤ marks.length && marks.length ≤ 6 &&
          isWhiteSpace white then
        (captureTrimmed rest).map (marks.length, ·)
      else none
  | [] => none

/-- A line that begins like a checkbox: `/^\s*[-*]\s+\[.\]\s/`, the unit in the
brackets and what follows the first white space behind them. -/
structure Checkbox where
  opening : JsString
  mark : CodeUnit
  white : CodeUnit
  rest : JsString

def splitCheckbox (line : JsString) : Option Checkbox :=
  match line.dropWhile isWhiteSpace with
  | [] => none
  | bullet :: tail =>
      match tail.dropWhile isWhiteSpace with
      | bracket :: mark :: close :: white :: rest =>
          if (bullet == 0x2D || bullet == 0x2A) && tail.head?.any isWhiteSpace &&
              bracket == 0x5B && close == 0x5D && isWhiteSpace white then
            some ⟨line.takeWhile isWhiteSpace ++ bullet :: tail.takeWhile isWhiteSpace ++ [bracket],
              mark, white, rest⟩
          else none
      | _ => none

/-- The mark and the text of a checkbox: `/^\s*[-*]\s+\[([ xX-])\]\s+(.+?)\s*$/`. -/
def readCheckbox (line : JsString) : Option (CodeUnit × JsString) :=
  (splitCheckbox line).bind fun box =>
    if anyOf " xX-" box.mark then (captureTrimmed box.rest).map (box.mark, ·) else none

/-- What the ledger sees of a line. -/
inductive Line
  | heading (level : ℕ) (text : JsString)
  | checkbox (mark : CodeUnit) (text : JsString)
  | other
deriving DecidableEq

def readLine (line : JsString) : Line :=
  match readHeading line, readCheckbox line with
  | some (level, text), _ => .heading level text
  | none, some (mark, text) => .checkbox mark text
  | none, none => .other

/-- A heading is white space, its marks, white space and its text. -/
theorem readHeading_eq_some {line text : JsString} {level : ℕ} :
    readHeading line = some (level, text) ↔ ∃ indent white rest,
      line = indent ++ (List.replicate level 0x23 ++ white :: rest) ∧
      (∀ u ∈ indent, isWhiteSpace u = true) ∧ indent.length ≤ 3 ∧ 1 ≤ level ∧ level ≤ 6 ∧
      isWhiteSpace white = true ∧ captureTrimmed rest = some text := by
  constructor
  · intro h
    unfold readHeading at h
    dsimp only at h
    split at h
    · rename_i white rest hrest
      split at h
      · rename_i hchecks
        simp only [Bool.and_eq_true, decide_eq_true_eq] at hchecks
        obtain ⟨⟨⟨hindent, hone⟩, hsix⟩, hwhite⟩ := hchecks
        obtain ⟨captured, hcapture, heq⟩ := Option.map_eq_some_iff.mp h
        cases heq
        have hmarks : (line.dropWhile isWhiteSpace).takeWhile (· == 0x23) =
            List.replicate ((line.dropWhile isWhiteSpace).takeWhile (· == 0x23)).length 0x23 :=
          List.eq_replicate_iff.mpr ⟨rfl, fun u hu => by simpa using List.mem_takeWhile_imp hu⟩
        refine ⟨line.takeWhile isWhiteSpace, white, rest, ?_, fun u hu => List.mem_takeWhile_imp hu,
          hindent, hone, hsix, hwhite, hcapture⟩
        rw [← hmarks, ← hrest, List.takeWhile_append_dropWhile, List.takeWhile_append_dropWhile]
      · cases h
    · cases h
  · rintro ⟨indent, white, rest, rfl, hindent, hthree, hone, hsix, hwhite, hcapture⟩
    have hmark : isWhiteSpace 0x23 = false := by decide
    have hwhiteMark : (white == 0x23) = false := by
      rw [beq_eq_false_iff_ne]
      rintro rfl
      rw [hmark] at hwhite
      cases hwhite
    obtain ⟨n, rfl⟩ : ∃ n, level = n + 1 := ⟨level - 1, by omega⟩
    have htake : (indent ++ (List.replicate (n + 1) 0x23 ++ white :: rest)).takeWhile
        isWhiteSpace = indent := by
      rw [List.takeWhile_append_of_pos hindent, List.replicate_succ, List.cons_append,
        List.takeWhile_cons_of_neg (by simp [hmark]), List.append_nil]
    have hdrop : (indent ++ (List.replicate (n + 1) 0x23 ++ white :: rest)).dropWhile
        isWhiteSpace = List.replicate (n + 1) 0x23 ++ white :: rest := by
      rw [List.dropWhile_append_of_pos hindent, List.replicate_succ, List.cons_append,
        List.dropWhile_cons_of_neg (by simp [hmark])]
    have hall : ∀ u ∈ List.replicate (n + 1) (0x23 : CodeUnit), (u == 0x23) = true := by
      intro u hu
      rw [List.eq_of_mem_replicate hu]
      rfl
    have hmarks : (List.replicate (n + 1) 0x23 ++ white :: rest).takeWhile (· == 0x23) =
        List.replicate (n + 1) 0x23 := by
      rw [List.takeWhile_append_of_pos hall, List.takeWhile_cons_of_neg (by simp [hwhiteMark]),
        List.append_nil]
    have hrest : (List.replicate (n + 1) 0x23 ++ white :: rest).dropWhile (· == 0x23) =
        white :: rest := by
      rw [List.dropWhile_append_of_pos hall, List.dropWhile_cons_of_neg (by simp [hwhiteMark])]
    have hchecks : (decide (indent.length ≤ 3) && decide (1 ≤ n + 1) && decide (n + 1 ≤ 6) &&
        isWhiteSpace white) = true := by
      simp [hthree, hwhite]
      omega
    rw [readHeading, htake, hdrop, hmarks, hrest, List.length_replicate]
    dsimp only
    rw [if_pos hchecks, hcapture]
    rfl

/-- A checkbox is white space, a bullet, white space and the brackets. -/
theorem splitCheckbox_eq_some {line : JsString} {box : Checkbox} :
    splitCheckbox line = some box ↔ ∃ indent bullet gap,
      box.opening = indent ++ bullet :: gap ++ [0x5B] ∧
      line = box.opening ++ box.mark :: 0x5D :: box.white :: box.rest ∧
      (∀ u ∈ indent, isWhiteSpace u = true) ∧ (bullet = 0x2D ∨ bullet = 0x2A) ∧ gap ≠ [] ∧
      (∀ u ∈ gap, isWhiteSpace u = true) ∧ isWhiteSpace box.white = true := by
  constructor
  · intro h
    unfold splitCheckbox at h
    split at h
    · cases h
    · rename_i bullet tail hline
      split at h
      · rename_i bracket mark close white rest htail
        split at h
        · rename_i hunits
          simp only [Bool.and_eq_true, Bool.or_eq_true, beq_iff_eq] at hunits
          obtain ⟨⟨⟨⟨hbullet, hgap⟩, rfl⟩, rfl⟩, hwhite⟩ := hunits
          cases h
          refine ⟨_, bullet, tail.takeWhile isWhiteSpace, rfl, ?_,
            fun u hu => List.mem_takeWhile_imp hu, hbullet, ?_,
            fun u hu => List.mem_takeWhile_imp hu, hwhite⟩
          · dsimp only
            rw [List.append_assoc, List.append_assoc, List.cons_append, List.singleton_append,
              ← htail, List.takeWhile_append_dropWhile, ← hline, List.takeWhile_append_dropWhile]
          · cases tail with
            | nil => simp at hgap
            | cons u tail =>
                have hu : isWhiteSpace u = true := by simpa using hgap
                rw [List.takeWhile_cons_of_pos hu]
                exact List.cons_ne_nil _ _
        · cases h
      · cases h
  · rintro ⟨indent, bullet, gap, hopening, hline, hindent, hbullet, hne, hgap, hwhite⟩
    have hbulletWhite : isWhiteSpace bullet = false := by
      rcases hbullet with rfl | rfl <;> decide
    have hbracket : isWhiteSpace 0x5B = false := by decide
    have hcheck : (bullet == 0x2D || bullet == 0x2A) = true := by simpa using hbullet
    obtain ⟨u, gap, rfl⟩ := List.exists_cons_of_ne_nil hne
    have hu := hgap u List.mem_cons_self
    rw [hopening] at hline
    simp only [List.append_assoc, List.cons_append, List.nil_append] at hline
    have hdrop : line.dropWhile isWhiteSpace =
        bullet :: u :: (gap ++ 0x5B :: box.mark :: 0x5D :: box.white :: box.rest) := by
      rw [hline, List.dropWhile_append_of_pos hindent,
        List.dropWhile_cons_of_neg (by simp [hbulletWhite])]
    have htake : line.takeWhile isWhiteSpace = indent := by
      rw [hline, List.takeWhile_append_of_pos hindent,
        List.takeWhile_cons_of_neg (by simp [hbulletWhite]), List.append_nil]
    have hgapDrop : (u :: (gap ++ 0x5B :: box.mark :: 0x5D :: box.white :: box.rest)).dropWhile
        isWhiteSpace = 0x5B :: box.mark :: 0x5D :: box.white :: box.rest := by
      rw [← List.cons_append, List.dropWhile_append_of_pos hgap,
        List.dropWhile_cons_of_neg (by simp [hbracket])]
    have hgapTake : (u :: (gap ++ 0x5B :: box.mark :: 0x5D :: box.white :: box.rest)).takeWhile
        isWhiteSpace = u :: gap := by
      rw [← List.cons_append, List.takeWhile_append_of_pos hgap,
        List.takeWhile_cons_of_neg (by simp [hbracket]), List.append_nil]
    rw [splitCheckbox, hdrop]
    dsimp only
    rw [hgapDrop]
    dsimp only
    rw [hcheck, hwhite, htake, hgapTake, ← hopening, List.head?_cons, Option.any_some, hu]
    rfl

/-- A checkbox is no heading. -/
theorem readHeading_of_splitCheckbox {line : JsString} {box : Checkbox}
    (h : splitCheckbox line = some box) : readHeading line = none := by
  unfold splitCheckbox at h
  split at h
  · cases h
  · rename_i bullet tail hline
    have hbullet : (bullet == 0x23) = false := by
      split at h
      · split at h
        · rename_i hunits
          simp only [Bool.and_eq_true, Bool.or_eq_true, beq_iff_eq] at hunits
          rcases hunits.1.1.1.1 with rfl | rfl <;> decide
        · cases h
      · cases h
    rw [readHeading, hline, List.takeWhile_cons_of_neg (by simp [hbullet]),
      List.dropWhile_cons_of_neg (by simp [hbullet])]
    simp

/-! ## Tasks -/

inductive ImplementationTaskRunStatus
  | notStarted
  | inProgress
  | completed
  | skipped
deriving DecidableEq, Repr

/-- The status of a mark. -/
def statusOf (mark : CodeUnit) : ImplementationTaskRunStatus :=
  if mark = 0x78 ∨ mark = 0x58 then .completed
  else if mark = 0x2D then .inProgress
  else .notStarted

/-- `PhaseTaskLedgerItem`; its section is the last heading above it. -/
structure PhaseTaskLedgerItem where
  checked : Bool
  id : JsString
  lineNumber : ℕ
  heading : JsString
  status : ImplementationTaskRunStatus
  taskIndex : ℕ
  text : JsString
deriving DecidableEq

/-- `truncate`. -/
def truncate (value : JsString) (limit : ℕ) : JsString :=
  if value.length ≤ limit then value else value.take (limit - 1) ++ js "..."

/-- The text of a task, as the ledger keeps it. -/
def taskText (text : JsString) : JsString :=
  truncate (cleanInlineMarkdown text).trim 240

variable (casing : Casing)

/-- `slug`; no backtick is left to its second replacement. -/
def slug (value : JsString) : JsString :=
  let dashed := replaceRuns (fun u => !(isLower u || isDigit u)) (js "-") false
    (casing.toLowerCase (cleanInlineMarkdown value))
  let slugged := ((dashed.dropWhile (· == 0x2D)).rdropWhile (· == 0x2D)).take 72
  if slugged.isEmpty then js "task" else slugged

def createPhaseTaskId (phaseNumber : Option ℕ) (heading text : JsString) : JsString :=
  (match phaseNumber with
    | none => js "phase-unknown"
    | some number => js "phase-" ++ decimalText number) ++
    js "." ++ slug casing heading ++ js "." ++ slug casing text

/-! ## The loop over the lines -/

/-- `/^phase task ledger$/i`. -/
def isLedgerHeading (heading : JsString) : Bool :=
  testWhole (litIgnoreCase "phase task ledger") heading

/-- Where the loop stands: the heading above, the explicit ledger, and the ids of
the tasks so far without their numbers. -/
structure LedgerState where
  heading : JsString
  insideExplicitLedger : Bool
  explicitLedgerLevel : ℕ
  seenIds : List JsString

/-- A heading. -/
def LedgerState.enter (hasExplicitLedger : Bool) (s : LedgerState) (level : ℕ) (text : JsString) :
    LedgerState :=
  let headingText := (cleanInlineMarkdown text).trim
  let heading := if headingText.isEmpty then s.heading else headingText
  if hasExplicitLedger && isLedgerHeading headingText then
    { s with heading, insideExplicitLedger := true, explicitLedgerLevel := level }
  else if hasExplicitLedger && s.insideExplicitLedger && level ≤ s.explicitLedgerLevel then
    { s with heading, insideExplicitLedger := false }
  else { s with heading }

/-- The id of the next task with a base id. -/
def numberedId (seenIds : List JsString) (baseId : JsString) : JsString :=
  let duplicateIndex := seenIds.count baseId
  if duplicateIndex = 0 then baseId else baseId ++ js "-" ++ decimalText (duplicateIndex + 1)

/-- The task of a checkbox. -/
def LedgerState.item (phaseNumber : Option ℕ) (s : LedgerState) (index : ℕ) (mark : CodeUnit)
    (text : JsString) : PhaseTaskLedgerItem :=
  { checked := statusOf mark == .completed
    id := numberedId s.seenIds (createPhaseTaskId casing phaseNumber s.heading (taskText text))
    lineNumber := index + 1
    heading := s.heading
    status := statusOf mark
    taskIndex := s.seenIds.length
    text := taskText text }

theorem LedgerState.text_item (phaseNumber : Option ℕ) (s : LedgerState) (index : ℕ)
    (mark : CodeUnit) (text : JsString) :
    (s.item casing phaseNumber index mark text).text = taskText text := by
  rw [item]

theorem LedgerState.checked_item (phaseNumber : Option ℕ) (s : LedgerState) (index : ℕ)
    (mark : CodeUnit) (text : JsString) :
    (s.item casing phaseNumber index mark text).checked = (statusOf mark == .completed) := by
  rw [item]

/-- The state after a line. -/
def LedgerState.step (phaseNumber : Option ℕ) (hasExplicitLedger : Bool) (s : LedgerState)
    (line : JsString) : LedgerState :=
  match readLine line with
  | .heading level text => s.enter hasExplicitLedger level text
  | .checkbox _ text =>
      if s.insideExplicitLedger then
        { s with seenIds := s.seenIds ++
            [createPhaseTaskId casing phaseNumber s.heading (taskText text)] }
      else s
  | .other => s

/-- The task that a line is. -/
def LedgerState.read (phaseNumber : Option ℕ) (s : LedgerState) (index : ℕ) (line : JsString) :
    Option PhaseTaskLedgerItem :=
  match readLine line with
  | .checkbox mark text =>
      if s.insideExplicitLedger then some (s.item casing phaseNumber index mark text) else none
  | _ => none

/-- The tasks of numbered lines. -/
def ledgerItems (phaseNumber : Option ℕ) (hasExplicitLedger : Bool) :
    LedgerState → ℕ → List JsString → List PhaseTaskLedgerItem
  | _, _, [] => []
  | s, index, line :: rest =>
      (s.read casing phaseNumber index line).toList ++
        ledgerItems phaseNumber hasExplicitLedger (s.step casing phaseNumber hasExplicitLedger line)
          (index + 1) rest

/-- A line is the heading of an explicit ledger. -/
def startsExplicitLedger (line : JsString) : Bool :=
  (readHeading line).any fun heading => isLedgerHeading (cleanInlineMarkdown heading.2)

/-- The state before the first line. -/
def initialLedgerState (hasExplicitLedger : Bool) : LedgerState :=
  ⟨js "Document", !hasExplicitLedger, 0, []⟩

/-- `extractPhaseTaskLedger`. -/
def extractPhaseTaskLedger (markdown : JsString) (phaseNumber : Option ℕ) :
    List PhaseTaskLedgerItem :=
  let hasExplicitLedger := (splitLines markdown).any startsExplicitLedger
  ledgerItems casing phaseNumber hasExplicitLedger (initialLedgerState hasExplicitLedger) 0
    (splitLines markdown)

example : (extractPhaseTaskLedger Casing.ascii
    (js "# Notes\n- [ ] no task\n## Phase Task Ledger\n- [x] Build\n* [-] Build\n## Next\n- [ ] late")
    (some 2)).map (fun item => (item.id, item.lineNumber, item.checked)) =
      [(js "phase-2.phase-task-ledger.build", 4, true),
        (js "phase-2.phase-task-ledger.build-2", 5, false)] := by
  decide +kernel

/-! ## The tasks and their lines -/

section Items

variable {casing} {phaseNumber : Option ℕ} {hasExplicitLedger : Bool}

/-- A task is read on one of the lines, in the state that the lines before it lead to. -/
theorem mem_ledgerItems {s : LedgerState} {index : ℕ} {lines : List JsString}
    {item : PhaseTaskLedgerItem} :
    item ∈ ledgerItems casing phaseNumber hasExplicitLedger s index lines ↔
      ∃ k line, lines[k]? = some line ∧
        ((lines.take k).foldl (LedgerState.step casing phaseNumber hasExplicitLedger) s).read casing
          phaseNumber (index + k) line = some item := by
  induction lines generalizing s index with
  | nil => simp [ledgerItems]
  | cons first rest ih =>
      rw [ledgerItems, List.mem_append, Option.mem_toList, ih]
      constructor
      · rintro (hread | ⟨k, line, hline, hread⟩)
        · exact ⟨0, first, rfl, hread⟩
        · refine ⟨k + 1, line, hline, ?_⟩
          rw [List.take_succ_cons, List.foldl_cons, Nat.add_comm k 1, ← Nat.add_assoc]
          exact hread
      · rintro ⟨k, line, hline, hread⟩
        cases k with
        | zero =>
            cases hline
            exact .inl hread
        | succ k =>
            refine .inr ⟨k, line, hline, ?_⟩
            rw [List.take_succ_cons, List.foldl_cons, Nat.add_comm k 1, ← Nat.add_assoc] at hread
            exact hread

theorem LedgerState.read_eq_some {s : LedgerState} {index : ℕ} {line : JsString}
    {item : PhaseTaskLedgerItem} :
    s.read casing phaseNumber index line = some item ↔ ∃ mark text,
      readLine line = .checkbox mark text ∧ s.insideExplicitLedger = true ∧
        s.item casing phaseNumber index mark text = item := by
  unfold LedgerState.read
  cases hline : readLine line with
  | heading level text => simp
  | other => simp
  | checkbox mark text => by_cases hinside : s.insideExplicitLedger = true <;> simp [hinside]

theorem lineNumber_of_mem {s : LedgerState} {index : ℕ} {lines : List JsString}
    {item : PhaseTaskLedgerItem}
    (h : item ∈ ledgerItems casing phaseNumber hasExplicitLedger s index lines) :
    index < item.lineNumber := by
  obtain ⟨k, line, -, hread⟩ := mem_ledgerItems.1 h
  obtain ⟨mark, text, -, -, rfl⟩ := LedgerState.read_eq_some.1 hread
  exact Nat.lt_succ_of_le (Nat.le_add_right index k)

/-- The tasks stand in the order of their lines. -/
theorem ledgerItems_pairwise (s : LedgerState) (index : ℕ) (lines : List JsString) :
    (ledgerItems casing phaseNumber hasExplicitLedger s index lines).Pairwise fun item later =>
      item.lineNumber < later.lineNumber := by
  induction lines generalizing s index with
  | nil => exact .nil
  | cons line rest ih =>
      rw [ledgerItems]
      cases hread : s.read casing phaseNumber index line with
      | none => exact ih _ _
      | some item =>
          obtain ⟨mark, text, -, -, rfl⟩ := LedgerState.read_eq_some.1 hread
          exact List.pairwise_cons.mpr ⟨fun later hlater => lineNumber_of_mem hlater, ih _ _⟩

end Items

end Hepha.Phases
