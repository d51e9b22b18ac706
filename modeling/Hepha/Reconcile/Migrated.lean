import Hepha.Phases.Checkpoint
import Hepha.Phases.Events
import Hepha.Phases.Projection
import Hepha.Phases.Table
import Hepha.Reconcile.Converge
import Hepha.Reconcile.Inventory

/-!
# The task table becomes a ledger

A phase document without a ledger may still have the table of its tasks.  The
reconciliation makes a ledger out of the table once, so that the work that was done
counts as done.

## Strategy

The writer of the table escapes a pipe, the reader splits a row at every pipe.

* A row without pipes in its text is read as the text and the state that were written
  (`legacyEntry_row`); white space around the table does not matter
  (`legacyEntries_of_trim`).
* Every entry is read back from the ledger (`ledger_of_entries`), as a task with the text
  of its cell.
* A cell has no pipe and is not empty.  So a task is lost or changed as soon as its text
  is empty or has one (`migration_iff`).
-/

namespace Hepha.Reconcile

open JsString Pattern Markdown Phases

/-! ## What the migration promises -/

/-- A document with the table of the tasks in its section, and without a ledger. -/
structure KeepsTable (markdown table : JsString) : Prop where
  unmigrated : (searchLines (sectionHeading "phase task ledger") true markdown).isSome = false
  unledgered : ∀ line ∈ splitLines markdown, startsExplicitLedger line = false
  kept : (extractSection markdown "hepha task state").map trim =
    (extractSection table "hepha task state").map trim

/-- A state that counts as done. -/
def isSettled : ImplementationTaskRunStatus → Bool
  | .completed | .skipped => true
  | .notStarted | .inProgress => false

/-- **The migration keeps the tasks**: the new ledger has the tasks of the table in their
order, checked where they are done, and it is not migrated again. -/
def MigratesTasks (casing : Casing) (phaseNumber : Option ℕ)
    (taskRuns : List StoredImplementationTaskRun) (items : List PhaseTaskLedgerItem)
    (markdown : JsString) : Prop :=
  ∃ migrated, initializeLegacyHephaTaskStateLedger markdown = some migrated ∧
    (extractPhaseTaskLedger casing migrated phaseNumber).map
        (fun item => (item.text, item.checked)) =
      items.map (fun item => (item.text, isSettled (tableState taskRuns item))) ∧
    initializeLegacyHephaTaskStateLedger migrated = none

/-- The tasks whose text the reader of the table gets back. -/
def Readable (items : List PhaseTaskLedgerItem) : Prop :=
  ∀ item ∈ items, item.text ≠ [] ∧ unitPipe ∉ item.text

/-! ## The entries of the table -/

/-- `/^(COMPLETED|SKIPPED)$/i`. -/
def isSettledText (state : JsString) : Bool :=
  testWhole (oneOf [litIgnoreCase "completed", litIgnoreCase "skipped"]) state

theorem isSettledText_text (status : ImplementationTaskRunStatus) :
    isSettledText status.text = isSettled status := by
  cases status <;> decide

/-- The line of an entry in the ledger. -/
def ledgerLine (entry : JsString × JsString) : JsString :=
  js "- [" ++ (if isSettledText entry.2 then js "x" else js " ") ++ js "] " ++ entry.1

theorem ledgerLines_eq (entries : List (JsString × JsString)) : ledgerLines entries =
    [js "## Phase Task Ledger", []] ++ entries.map ledgerLine ++ [[]] :=
  rfl

def migratedDocument (markdown : JsString) (entries : List (JsString × JsString)) : JsString :=
  markdown.trimEnd ++ js "\n\n" ++ joinLines (ledgerLines entries)

theorem initialize_eq {markdown body : JsString}
    (hnew : (searchLines (sectionHeading "phase task ledger") true markdown).isSome = false)
    (hsection : extractSection markdown "hepha task state" = some body) :
    initializeLegacyHephaTaskStateLedger markdown =
      if ((splitLines body).filterMap legacyEntry).isEmpty then none
      else some (migratedDocument markdown ((splitLines body).filterMap legacyEntry)) := by
  unfold initializeLegacyHephaTaskStateLedger
  rw [hnew, hsection]
  by_cases hbody : body = []
  · subst hbody
    rfl
  · rw [truthy_some hbody]
    rfl

theorem legacyEntry_of_head {line : JsString} (h : line.head? ≠ some unitPipe) :
    legacyEntry line = none := by
  rw [legacyEntry, if_pos (bne_iff_ne.mpr h)]

/-- White space behind a row goes to a piece that is no cell. -/
theorem legacyEntry_append_white {line white : JsString} (hline : line ≠ [])
    (hwhite : unitPipe ∉ white) : legacyEntry (line ++ white) = legacyEntry line := by
  have hcells : tableCells (line ++ white) = tableCells line := by
    obtain ⟨front, last, hfirst, hsecond⟩ := splitOn_append_white line hwhite
    rw [tableCells, tableCells, hfirst, hsecond]
    cases front with
    | nil => rfl
    | cons piece front =>
        rw [List.cons_append, List.cons_append, List.tail_cons, List.tail_cons,
          List.dropLast_concat, List.dropLast_concat]
  rw [legacyEntry, legacyEntry, hcells, List.head?_append_of_ne_nil _ hline]

/-- What an entry says is a cell: text without pipes. -/
theorem legacyEntry_spec {line task state : JsString} (hline : OneLine line)
    (h : legacyEntry line = some (task, state)) :
    task ≠ [] ∧ task.trim = task ∧ unitPipe ∉ task ∧ OneLine task := by
  have hmem : ∀ {cell : JsString}, cell ∈ tableCells line →
      cell.trim = cell ∧ unitPipe ∉ cell ∧ OneLine cell := by
    intro cell hcell
    obtain ⟨piece, hpiece, rfl⟩ := List.mem_map.mp hcell
    have hsplit := List.mem_of_mem_tail (List.mem_of_mem_dropLast hpiece)
    refine ⟨trim_trim piece, fun hpipe => ?_, fun u hu => ?_⟩
    · exact not_mem_of_mem_splitOn hsplit (mem_of_mem_trim hpipe)
    · rw [List.splitOn_eq_splitOnP] at hsplit
      exact hline u (mem_of_mem_splitOnP hsplit (mem_of_mem_trim hu))
  unfold legacyEntry at h
  split at h
  · cases h
  · split at h
    · rename_i id task' state' others hcells
      split at h
      · cases h
      · rename_i hkept
        cases h
        refine ⟨?_, hmem (by rw [hcells]; simp)⟩
        rintro rfl
        simp at hkept
    · cases h

/-- The id of a task is neither the word of the header nor a rule. -/
theorem id_kept {id : JsString} (h : id.head? = some 0x70) :
    testWhole (litIgnoreCase "task id") id = false ∧
      testWhole (atLeast 1 (anyOf "-:")) id = false := by
  obtain ⟨rest, rfl⟩ := List.head?_eq_some_iff.mp h
  constructor
  · rw [testWhole, List.any_eq_false]
    intro left hleft hempty
    obtain rfl := List.isEmpty_iff.mp hempty
    obtain ⟨front, hfront, hname⟩ := mem_litIgnoreCase.1 hleft
    rw [List.append_nil] at hfront
    rw [← hfront] at hname
    have hhead : some (lowerCase 0x70) = (js "task id").head? := congrArg List.head? hname
    exact absurd hhead (by decide)
  · rw [testWhole, List.any_eq_false]
    intro left hleft hempty
    obtain rfl := List.isEmpty_iff.mp hempty
    obtain ⟨front, hfront, -, hall⟩ := mem_atLeast_one.1 hleft
    rw [List.append_nil] at hfront
    exact absurd (hall 0x70 (by rw [← hfront]; exact List.mem_cons_self)) (by decide)

section Table

variable {parseDate : ParseDate} {taskRuns : List StoredImplementationTaskRun}

/-- **A row without pipes in its text is read as it was written.** -/
theorem legacyEntry_row {item : PhaseTaskLedgerItem} {row : JsString}
    (hrow : renderRow parseDate taskRuns item = some row) (hid : item.id.head? = some 0x70)
    (hunits : IsTaskIdText item.id) (htext : Tidy item.text) (hpipe : unitPipe ∉ item.text) :
    legacyEntry row = if item.text.isEmpty then none
      else some (item.text, (tableState taskRuns item).text) := by
  obtain ⟨tail, -, hform⟩ := renderRow_eq_some hrow
  have hidPipe : unitPipe ∉ item.id := fun hmem => (isTaskIdUnit_spec (hunits _ hmem)).2.2 rfl
  have hidTidy := tidy_of_isTaskIdUnit hunits
  rw [hidTidy.escapeTableCell_eq hidPipe, htext.escapeTableCell_eq hpipe] at hform
  have hstate : unitPipe ∉ (tableState taskRuns item).text ∧
      (tableState taskRuns item).text.trim = (tableState taskRuns item).text := by
    cases tableState taskRuns item <;> decide
  have hspaced {cell : JsString} (hcell : unitPipe ∉ cell) :
      unitPipe ∉ 0x20 :: (cell ++ [0x20]) := by
    have hspace : unitPipe ≠ 0x20 := by decide
    simp [hcell, hspace]
  have hlast := List.splitOn_ne_nil unitPipe (tail ++ [0x7C])
  have hcells : ∃ others, tableCells row =
      item.id :: item.text :: (tableState taskRuns item).text :: others := by
    have hsplit : row.splitOn unitPipe = [] :: (0x20 :: (item.id ++ [0x20])) ::
        (0x20 :: (item.text ++ [0x20])) ::
          (0x20 :: ((tableState taskRuns item).text ++ [0x20])) ::
            (tail ++ [0x7C]).splitOn unitPipe := by
      have hpieces : row = [] ++ unitPipe :: ((0x20 :: (item.id ++ [0x20])) ++ unitPipe ::
          ((0x20 :: (item.text ++ [0x20])) ++ unitPipe ::
            ((0x20 :: ((tableState taskRuns item).text ++ [0x20])) ++ unitPipe ::
              (tail ++ [0x7C])))) := hform
      rw [hpieces, List.splitOn_append_cons_self_of_not_mem List.not_mem_nil,
        List.splitOn_append_cons_self_of_not_mem (hspaced hidPipe),
        List.splitOn_append_cons_self_of_not_mem (hspaced hpipe),
        List.splitOn_append_cons_self_of_not_mem (hspaced hstate.1)]
    refine ⟨((tail ++ [0x7C]).splitOn unitPipe).dropLast.map trim, ?_⟩
    rw [tableCells, hsplit, List.tail_cons, List.dropLast_cons_of_ne_nil (by simp),
      List.dropLast_cons_of_ne_nil (by simp), List.dropLast_cons_of_ne_nil hlast,
      List.map_cons, List.map_cons, List.map_cons, trim_spaced hidTidy.trim,
      trim_spaced htext.trim, trim_spaced hstate.2]
  obtain ⟨others, hcells⟩ := hcells
  have hhead : row.head? = some unitPipe := by rw [hform]; rfl
  have hnot : ¬(row.head? != some unitPipe) = true := by simp [hhead]
  obtain ⟨hword, hrule⟩ := id_kept hid
  rw [legacyEntry, if_neg hnot, hcells]
  dsimp only
  rw [hword, hrule, Bool.false_or, Bool.false_or]

/-! ## The section of the table -/

def headerRow : JsString :=
  js "| Task ID | Task | State | Started | Completed | Duration |"

def ruleRow : JsString :=
  js "| --- | --- | --- | --- | --- | --- |"

/-- What the section has besides white space. -/
def tableText (rows : List JsString) : JsString :=
  joinLines (headerRow :: ruleRow :: rows)

/-- The heading takes the first line end with it. -/
theorem head?_taskStateHeading (rest : JsString) :
    (sectionHeading "hepha task state"
      (js "## Hepha Task State" ++ 0x0A :: 0x0A :: 0x7C :: rest)).head? =
        some (0x0A :: 0x7C :: rest) := by
  have hmark : js "##" = [0x23, 0x23] := by decide
  have hname : js "hepha task state" = [0x68, 0x65, 0x70, 0x68, 0x61, 0x20, 0x74, 0x61, 0x73, 0x6B,
    0x20, 0x73, 0x74, 0x61, 0x74, 0x65] := by decide
  have htext : js "## Hepha Task State" = [0x23, 0x23, 0x20, 0x48, 0x65, 0x70, 0x68, 0x61, 0x20,
    0x54, 0x61, 0x73, 0x6B, 0x20, 0x53, 0x74, 0x61, 0x74, 0x65] := by decide
  have hwhite : isWhiteSpace 0x20 = true ∧ isWhiteSpace 0x0A = true ∧
    isWhiteSpace 0x48 = false ∧ isWhiteSpace 0x7C = false := by decide
  have hend : isLineTerminator 0x0A = true ∧ isLineTerminator 0x7C = false := by decide
  simp [sectionHeading, lit, litIgnoreCase, concat, seq, atLeast, many, unit, done, endOfLine,
    hmark, hname, htext, hwhite, hend, List.replicate, lowerCase]

theorem tableText_eq (rows : List JsString) : ∃ rest, tableText rows = 0x7C :: rest := by
  have hhead : headerRow =
      0x7C :: js " Task ID | Task | State | Started | Completed | Duration |" := by decide
  rw [tableText, joinLines_cons (List.cons_ne_nil _ _), hhead]
  exact ⟨_, rfl⟩

theorem getLast?_joinLines {lines : List JsString} {u : CodeUnit} (hne : lines ≠ [])
    (h : ∀ line ∈ lines, line.getLast? = some u) : (joinLines lines).getLast? = some u := by
  induction lines with
  | nil => exact absurd rfl hne
  | cons line rest ih =>
      by_cases hrest : rest = []
      · subst hrest
        simpa [joinLines] using h
      · have htail := ih hrest fun l hl => h l (List.mem_cons_of_mem _ hl)
        rw [joinLines_cons hrest, List.getLast?_append_of_ne_nil _ (List.cons_ne_nil _ _),
          List.getLast?_cons_of_ne_nil, htail]
        intro hnil
        rw [hnil] at htail
        cases htail

theorem trim_tableText {rows : List JsString}
    (hrows : ∀ row ∈ rows, row.getLast? = some 0x7C) : (tableText rows).trim = tableText rows := by
  obtain ⟨rest, hrest⟩ := tableText_eq rows
  have hlast : (tableText rows).getLast? = some 0x7C := by
    refine getLast?_joinLines (List.cons_ne_nil _ _) ?_
    exact List.forall_mem_cons.mpr ⟨by decide,
      List.forall_mem_cons.mpr ⟨by decide, hrows⟩⟩
  refine trim_eq_self_iff.2 ⟨?_, ?_⟩
  · rw [hrest, List.map_cons, List.head?_cons]
    decide
  · rw [List.getLast?_map, hlast]
    decide

/-- The rows of the table stand in it one below another. -/
theorem extractSection_table {rows : List JsString} (hne : rows ≠ [])
    (hrows : ∀ row ∈ rows, OneLine row ∧ row.head? = some 0x7C ∧ row.getLast? = some 0x7C) :
    (extractSection (joinLines (tableHead ++ rows) ++ js "\n") "hepha task state").map trim =
      some (tableText rows) := by
  have hlines : OneLine headerRow ∧ OneLine ruleRow :=
    ⟨oneLine_of_all (by decide), oneLine_of_all (by decide)⟩
  have hwhite : ∀ u ∈ [(0x0A : CodeUnit)], isWhiteSpace u = true :=
    List.forall_mem_singleton.mpr (by decide)
  have hform : joinLines (tableHead ++ rows) ++ js "\n" =
      js "## Hepha Task State" ++ 0x0A :: (0x0A :: tableText rows ++ [0x0A]) := by
    have hhead : tableHead ++ rows =
      js "## Hepha Task State" :: [] :: headerRow :: ruleRow :: rows := rfl
    have hfeed : js "\n" = [0x0A] := by decide
    rw [hhead, joinLines_cons (List.cons_ne_nil _ _), joinLines_cons (List.cons_ne_nil _ _), hfeed]
    simp [tableText]
  have hunheaded : Unheaded (0x0A :: tableText rows) := by
    have hjoin : (0x0A : CodeUnit) :: tableText rows =
        joinLines ([] :: headerRow :: ruleRow :: rows) := by
      rw [joinLines_cons (List.cons_ne_nil _ _)]
      rfl
    rw [hjoin]
    refine unheaded_joinLines (List.cons_ne_nil _ _) ?_ ?_ ?_
    · refine List.forall_mem_cons.mpr ⟨by simp, List.forall_mem_cons.mpr ⟨hlines.1,
        List.forall_mem_cons.mpr ⟨hlines.2, fun row hrow => (hrows row hrow).1⟩⟩⟩
    · refine List.forall_mem_cons.mpr ⟨by simp, List.forall_mem_cons.mpr ⟨by decide,
        List.forall_mem_cons.mpr ⟨by decide, fun row hrow => ?_⟩⟩⟩
      rw [(hrows row hrow).2.1]
      decide
    · intro hlast
      rw [List.getLast?_cons_cons, List.getLast?_cons_cons,
          List.getLast?_cons_of_ne_nil hne] at hlast
      have hcell := (hrows _ (List.mem_of_getLast? hlast)).2.1
      cases hcell
  have hcut : cutAtHeading (0x0A :: tableText rows ++ [0x0A]) =
      (0x0A :: tableText rows ++ [0x0A], []) := by
    obtain ⟨front, after, hcut, hrest, hafter⟩ := cutAtHeading_append hunheaded [0x0A]
    have hnil : after = [] := by
      refine hafter.resolve_right fun hmarks => ?_
      have hlength := congrArg List.length hrest
      have htwo := hmarks.2.length_le
      rw [List.length_append, List.length_singleton] at hlength
      have hmark : (js "##").length = 2 := by decide
      omega
    subst hnil
    rw [List.append_nil] at hrest
    rw [hcut, ← hrest]
  obtain ⟨rest, hrest⟩ := tableText_eq rows
  have hfound : searchLines (sectionHeading "hepha task state") true
      ([] ++ (js "## Hepha Task State" ++ 0x0A :: (0x0A :: tableText rows ++ [0x0A]))) =
        some ([], 0x0A :: tableText rows ++ [0x0A]) := by
    refine searchLines_append ?_ ⟨rfl, fun _ => rfl⟩ fun x y heq hy _ => ?_
    · rw [hrest, List.cons_append, List.cons_append]
      exact head?_taskStateHeading (rest ++ [0x0A])
    · exact absurd (List.append_eq_nil_iff.mp heq.symm).2 hy
  have htrim : trim (0x0A :: tableText rows ++ [0x0A]) = tableText rows := by
    rw [trim_append_white hwhite, trim, List.dropWhile_cons_of_pos (by decide), ← trim]
    exact trim_tableText fun row hrow => (hrows row hrow).2.2
  rw [List.nil_append] at hfound
  rw [extractSection, findSection, hform, hfound]
  simp only [Option.map_some, hcut, htrim]

/-- **White space around the table does not matter**: the entries are those of its rows. -/
theorem legacyEntries_of_trim {rows : List JsString} {body : JsString} (hne : rows ≠ [])
    (hrows : ∀ row ∈ rows, OneLine row ∧ row.head? = some 0x7C ∧ row.getLast? = some 0x7C)
    (hbody : body.trim = tableText rows) :
    (splitLines body).filterMap legacyEntry = rows.filterMap legacyEntry := by
  have hpipe : isWhiteSpace unitPipe = false := by decide
  have hblank {line : JsString} (h : ∀ u ∈ line, isWhiteSpace u = true) : legacyEntry line = none := by
    refine legacyEntry_of_head fun hhead => ?_
    rw [h _ (List.mem_of_mem_head? hhead)] at hpipe
    cases hpipe
  have hreturn {line : JsString} (h : line.getLast? = some 0x7C) : line.getLast? ≠ some 0x0D := by
    rw [h]
    decide
  obtain ⟨behind, hstart, hbehind⟩ := exists_trimEnd_append (trimStart body)
  have hfront : ∀ u ∈ body.takeWhile isWhiteSpace, isWhiteSpace u = true :=
    fun u hu => List.mem_takeWhile_imp hu
  have hform : body = (body.takeWhile isWhiteSpace ++ headerRow) ++
      0x0A :: (ruleRow ++ 0x0A :: (joinLines rows ++ behind)) := by
    have hwhole : body = body.takeWhile isWhiteSpace ++ (tableText rows ++ behind) := by
      rw [← hbody, trim_eq, ← hstart]
      exact List.takeWhile_append_dropWhile.symm
    rw [tableText, joinLines_cons (List.cons_ne_nil _ _), joinLines_cons hne] at hwhole
    simpa only [List.append_assoc, List.cons_append] using hwhole
  generalize body.takeWhile isWhiteSpace = front at hform hfront
  have hheader : (splitLines (front ++ headerRow)).filterMap legacyEntry = [] := by
    obtain ⟨lines, last, hlines⟩ := exists_splitLines_concat front
    have hsplit : splitLines (front ++ headerRow) = lines ++ [last ++ headerRow] :=
      splitLines_append hlines (splitLines_eq_singleton (by decide)) (.inr (by decide))
    have hwhite : ∀ line ∈ splitLines front, ∀ u ∈ line, isWhiteSpace u = true :=
      fun line hline u hu => hfront u (mem_of_mem_splitLines hline hu)
    rw [hlines] at hwhite
    rw [hsplit, List.filterMap_append, List.append_eq_nil_iff]
    constructor
    · exact List.filterMap_eq_nil_iff.mpr fun line hline =>
        hblank (hwhite line (List.mem_append_left _ hline))
    · have hlast := hwhite last (by simp)
      refine List.filterMap_eq_nil_iff.mpr (List.forall_mem_singleton.mpr ?_)
      cases last with
      | nil => decide
      | cons u last =>
          refine legacyEntry_of_head fun hhead => ?_
          obtain rfl : u = unitPipe := Option.some.inj hhead
          rw [hlast _ List.mem_cons_self] at hpipe
          cases hpipe
  have hrule : (splitLines ruleRow).filterMap legacyEntry = [] := by
    rw [splitLines_eq_singleton (by decide)]
    decide
  have hlast : (splitLines (joinLines rows ++ behind)).filterMap legacyEntry =
      rows.filterMap legacyEntry := by
    have hjoin : splitLines (joinLines rows) = rows :=
      splitLines_joinLines hne fun row hrow =>
        ⟨fun hmem => absurd ((hrows row hrow).1 _ hmem) (by decide), hreturn (hrows row hrow).2.2⟩
    obtain ⟨lines, last, hlines⟩ := List.eq_nil_or_concat' rows |>.resolve_left hne
    obtain ⟨first, blanks, hblanks⟩ := exists_splitLines_cons behind
    have hend : (joinLines rows).getLast? = some 0x7C :=
      getLast?_joinLines hne fun row hrow => (hrows row hrow).2.2
    have hsplit : splitLines (joinLines rows ++ behind) = lines ++ (last ++ first) :: blanks :=
      splitLines_append (hjoin.trans hlines) hblanks (.inl (hreturn hend))
    have hwhite : ∀ line ∈ first :: blanks, ∀ u ∈ line, isWhiteSpace u = true :=
      fun line hline u hu => hbehind u (mem_of_mem_splitLines (hblanks ▸ hline) hu)
    have hlastRow : last ≠ [] := by
      rintro rfl
      have hcell := (hrows [] (by rw [hlines]; simp)).2.1
      cases hcell
    have hnone : blanks.filterMap legacyEntry = [] :=
      List.filterMap_eq_nil_iff.mpr fun line hline =>
        hblank (hwhite line (List.mem_cons_of_mem _ hline))
    have hfirst : unitPipe ∉ first := fun hmem => by
      rw [hwhite first List.mem_cons_self _ hmem] at hpipe
      cases hpipe
    have hentry := legacyEntry_append_white hlastRow hfirst
    rw [hsplit, hlines, List.filterMap_append, List.filterMap_append, List.filterMap_cons,
      List.filterMap_cons, hentry, hnone, List.filterMap_nil]
  have hheaderEnd : (front ++ headerRow).getLast? = some 0x7C := by
    rw [List.getLast?_append_of_ne_nil _ (by decide)]
    decide
  rw [hform, splitLines_append_lineFeed (hreturn hheaderEnd),
    splitLines_append_lineFeed (hreturn (by decide)), List.filterMap_append,
    List.filterMap_append, hheader, hrule, hlast, List.nil_append, List.nil_append]

end Table

/-! ## The ledger of the entries -/

section Ledger

variable {casing : Casing} {phaseNumber : Option ℕ}

/-- The mark of an entry. -/
def entryMark (entry : JsString × JsString) : CodeUnit :=
  if isSettledText entry.2 then 0x78 else 0x20

/-- An entry is read back as a checkbox with its text. -/
theorem eventOf_ledgerLine {entry : JsString × JsString} (hne : entry.1 ≠ [])
    (htrim : entry.1.trim = entry.1) (hline : OneLine entry.1) :
    eventOf (ledgerLine entry) = some (.checkbox (entryMark entry) entry.1) := by
  have hwhite : isWhiteSpace 0x20 = true := by decide
  have hopening : js "- [" = [] ++ 0x2D :: [0x20] ++ [0x5B] := by decide
  have hform : ledgerLine entry = js "- [" ++ entryMark entry :: 0x5D :: 0x20 :: entry.1 := by
    have hclose : js "] " = [0x5D, 0x20] := by decide
    have hmarks : js "x" = [0x78] ∧ js " " = [0x20] := by decide
    rw [ledgerLine, entryMark, hclose, hmarks.1, hmarks.2]
    split <;> simp
  have hbox : splitCheckbox (ledgerLine entry) = some ⟨js "- [", entryMark entry, 0x20, entry.1⟩ :=
    splitCheckbox_eq_some.2 ⟨[], 0x2D, [0x20], hopening, hform, by simp, .inl rfl, by simp,
      List.forall_mem_singleton.mpr hwhite, hwhite⟩
  have hmark : anyOf " xX-" (entryMark entry) = true := by
    unfold entryMark
    split <;> decide
  have hcapture : captureTrimmed entry.1 = some entry.1 := by
    have hempty : entry.1.isEmpty = false := by simpa using hne
    have hends : entry.1.any isLineTerminator = false := by
      rw [List.any_eq_false]
      exact fun u hu => by simp [hline u hu]
    rw [captureTrimmed, htrim, hempty, hends]
    rfl
  have hread : readCheckbox (ledgerLine entry) = some (entryMark entry, entry.1) := by
    rw [readCheckbox, hbox, Option.bind_some, if_pos hmark, hcapture]
    rfl
  rw [eventOf, readLine, readHeading_of_splitCheckbox hbox, hread]

/-- Outside of a ledger nothing is read. -/
theorem contentFrom_outside {s : LedgerState} {es rest : List Line}
    (hes : ∀ event ∈ es, isLedgerEvent event = false) (hs : s.insideExplicitLedger = false) :
    ∃ s' : LedgerState, s'.insideExplicitLedger = false ∧
      contentFrom casing phaseNumber true s (es ++ rest) =
        contentFrom casing phaseNumber true s' rest := by
  induction es generalizing s with
  | nil => exact ⟨s, hs, rfl⟩
  | cons event es ih =>
      have hlater := fun e he => hes e (List.mem_cons_of_mem event he)
      have hevent := hes event List.mem_cons_self
      cases event with
      | other => exact ih hlater hs
      | checkbox mark text =>
          obtain ⟨s', hs', heq⟩ := ih hlater hs
          refine ⟨s', hs', ?_⟩
          rw [List.cons_append, contentFrom, hs, ← heq]
          rfl
      | heading level text =>
          refine ih hlater ?_
          have hnot : isLedgerHeading (cleanInlineMarkdown text).trim = false := by
            rw [show (cleanInlineMarkdown text).trim = cleanInlineMarkdown text from trim_trim _]
            exact hevent
          unfold LedgerState.enter
          dsimp only
          rw [hnot, hs]
          rfl

/-- Inside of a ledger every checkbox is a task. -/
theorem contentFrom_checkboxes {s : LedgerState} (hs : s.insideExplicitLedger = true)
    (entries : List (JsString × JsString)) :
    (contentFrom casing phaseNumber true s (entries.map fun entry =>
        .checkbox (entryMark entry) entry.1)).map (fun item => (item.text, item.checked)) =
      entries.map fun entry => (taskText entry.1, isSettledText entry.2) := by
  induction entries generalizing s with
  | nil => rfl
  | cons entry rest ih =>
      have hchecked : (statusOf (entryMark entry) == ImplementationTaskRunStatus.completed) =
          isSettledText entry.2 := by
        unfold entryMark
        cases isSettledText entry.2 <;> decide
      have hsee : (s.see casing phaseNumber entry.1).insideExplicitLedger = true := hs
      have hitem : (((s.item casing phaseNumber 0 (entryMark entry) entry.1).content).text,
          ((s.item casing phaseNumber 0 (entryMark entry) entry.1).content).checked) =
            (taskText entry.1, statusOf (entryMark entry) == .completed) := by
        rw [PhaseTaskLedgerItem.content, LedgerState.text_item, LedgerState.checked_item]
      rw [List.map_cons, contentFrom, if_pos hs, List.map_cons, ih hsee, List.map_cons, hitem,
        hchecked]

/-- Cutting off white space makes no heading of a ledger. -/
theorem not_isLedgerEvent_trimEnd {markdown : JsString}
    (h : ∀ line ∈ splitLines markdown, startsExplicitLedger line = false) :
    ∀ event ∈ events markdown.trimEnd, isLedgerEvent event = false := by
  intro event hevent
  obtain ⟨line, hline, hread⟩ := List.mem_filterMap.mp hevent
  have hstarts : startsExplicitLedger line = false := by
    by_cases hne : markdown.trimEnd = []
    · rw [hne] at hline
      obtain rfl := List.mem_singleton.mp hline
      rfl
    · obtain ⟨front, last, u, white, blanks, htrim, hsplit, hu, hwhite, -⟩ := splitLines_trimEnd hne
      rw [htrim] at hline
      rcases List.mem_append.mp hline with hline | hline
      · exact h line (by rw [hsplit]; exact List.mem_append_left _ hline)
      · obtain rfl := List.mem_singleton.mp hline
        have hwhole := h (last ++ [u] ++ white) (by rw [hsplit]; simp)
        cases hheading : readHeading (last ++ [u]) with
        | none => rw [startsExplicitLedger, hheading, Option.any_none]
        | some heading =>
            have hmore : readHeading (last ++ [u] ++ white) = some (heading.1, heading.2) :=
              readHeading_append hheading fun rest hsuffix hcapture =>
                (captureTrimmed_append_white (trim_ne_nil_of_suffix hu hsuffix hcapture)
                  hwhite).mpr hcapture
            rw [startsExplicitLedger, hmore] at hwhole
            rw [startsExplicitLedger, hheading]
            exact hwhole
  rw [← isLedgerEvent_eventOf, hread] at hstarts
  exact hstarts

theorem events_ledgerLines {entries : List (JsString × JsString)}
    (h : ∀ entry ∈ entries, entry.1 ≠ [] ∧ entry.1.trim = entry.1 ∧ OneLine entry.1) :
    (ledgerLines entries).filterMap eventOf =
      .heading 2 (js "Phase Task Ledger") ::
        entries.map fun entry => .checkbox (entryMark entry) entry.1 := by
  have hhead : [js "## Phase Task Ledger", []].filterMap eventOf =
      [.heading 2 (js "Phase Task Ledger")] := by decide
  have hlast : [([] : JsString)].filterMap eventOf = [] := by decide
  have hentries : (entries.map ledgerLine).filterMap eventOf =
      entries.map fun entry => .checkbox (entryMark entry) entry.1 := by
    rw [List.filterMap_map, ← List.filterMap_eq_map]
    refine List.filterMap_congr fun entry hentry => ?_
    obtain ⟨hne, htrim, hline⟩ := h entry hentry
    exact eventOf_ledgerLine hne htrim hline
  rw [ledgerLines_eq, List.filterMap_append, List.filterMap_append, hhead, hentries, hlast,
    List.append_nil]
  rfl

/-- **The new ledger has one task for each entry**, in their order. -/
theorem ledger_of_entries {markdown : JsString} {entries : List (JsString × JsString)}
    (hmarkdown : ∀ line ∈ splitLines markdown, startsExplicitLedger line = false)
    (h : ∀ entry ∈ entries, entry.1 ≠ [] ∧ entry.1.trim = entry.1 ∧ OneLine entry.1) :
    (extractPhaseTaskLedger casing (migratedDocument markdown entries) phaseNumber).map
        (fun item => (item.text, item.checked)) =
      entries.map fun entry => (taskText entry.1, isSettledText entry.2) := by
  have hcontent : (extractPhaseTaskLedger casing (migratedDocument markdown entries)
      phaseNumber).map (fun item => (item.text, item.checked)) =
        (ledgerContent casing phaseNumber (migratedDocument markdown entries)).map
          (fun item => (item.text, item.checked)) := by
    rw [ledgerContent, List.map_map]
    rfl
  have hfeeds : ∀ line ∈ ledgerLines entries, 0x0A ∉ line := by
    have hfixed : ∀ line ∈ [js "## Phase Task Ledger", []], (0x0A : CodeUnit) ∉ line := by decide
    refine List.forall_mem_append.mpr ⟨List.forall_mem_append.mpr ⟨hfixed, fun line hline => ?_⟩,
      by simp⟩
    obtain ⟨entry, hentry, rfl⟩ := List.mem_map.mp hline
    have hparts : (0x0A : CodeUnit) ∉ js "- [" ∧ (0x0A : CodeUnit) ∉ js "x" ∧
        (0x0A : CodeUnit) ∉ js " " ∧ (0x0A : CodeUnit) ∉ js "] " := by decide
    have htask : 0x0A ∉ entry.1 := fun hmem =>
      absurd ((h entry hentry).2.2 _ hmem) (by decide)
    simp only [List.mem_append, not_or]
    refine ⟨⟨⟨hparts.1, ?_⟩, hparts.2.2.2⟩, htask⟩
    split
    · exact hparts.2.1
    · exact hparts.2.2.1
  have hevents : events (migratedDocument markdown entries) = events markdown.trimEnd ++
      .heading 2 (js "Phase Task Ledger") ::
        entries.map fun entry => .checkbox (entryMark entry) entry.1 := by
    have hfeed : js "\n\n" = [0x0A, 0x0A] := by decide
    have hempty : events (0x0A :: joinLines (ledgerLines entries)) =
        events (joinLines (ledgerLines entries)) := events_append_lineFeed [] _
    rw [migratedDocument, hfeed, List.append_assoc, List.cons_append, List.singleton_append,
      events_append_lineFeed, hempty, events_joinLines hfeeds, events_ledgerLines h]
  have hheading : isLedgerHeading (cleanInlineMarkdown (js "Phase Task Ledger")) = true := by
    decide
  have hexplicit : (events (migratedDocument markdown entries)).any isLedgerEvent = true := by
    rw [hevents, List.any_append, List.any_cons, isLedgerEvent, hheading]
    simp
  rw [hcontent, ledgerContent_eq, contentOf, hexplicit, hevents]
  obtain ⟨s, -, heq⟩ := @contentFrom_outside casing phaseNumber (initialLedgerState true)
    (events markdown.trimEnd) (.heading 2 (js "Phase Task Ledger") ::
      entries.map fun entry => .checkbox (entryMark entry) entry.1)
    (not_isLedgerEvent_trimEnd hmarkdown) rfl
  rw [heq, contentFrom]
  refine contentFrom_checkboxes ?_ entries
  have htrim : isLedgerHeading (cleanInlineMarkdown (js "Phase Task Ledger")).trim = true := by
    decide
  unfold LedgerState.enter
  dsimp only
  rw [htrim]
  rfl

end Ledger

/-! ## The migration -/

section Migration

variable {casing : Casing} {phaseNumber : Option ℕ} {parseDate : ParseDate}
  {taskRuns : List StoredImplementationTaskRun}

/-- A task as the ledger reads it: its id and its text stand in the table as they are. -/
structure IsRead (item : PhaseTaskLedgerItem) : Prop where
  start : item.id.head? = some 0x70
  units : IsTaskIdText item.id
  tidy : Tidy item.text
  stable : taskText item.text = item.text

theorem oneLine_of_captureTrimmed {s text : JsString} (h : captureTrimmed s = some text) :
    OneLine text := by
  unfold captureTrimmed at h
  split at h
  · obtain ⟨u, hu, rfl⟩ := Option.map_eq_some_iff.mp h
    have hkept := (List.mem_filter.mp (List.mem_of_getLast? hu)).2
    rw [Bool.not_eq_true'] at hkept
    exact List.forall_mem_singleton.mpr hkept
  · split at h
    · cases h
    · rename_i hends
      obtain rfl := Option.some.inj h
      rw [Bool.not_eq_true, List.any_eq_false] at hends
      exact fun u hu => Bool.eq_false_iff.mpr (hends u hu)

theorem isRead_item (s : LedgerState) (index : ℕ) (mark : CodeUnit) {text : JsString}
    (htext : OneLine text) : IsRead (s.item casing phaseNumber index mark text) := by
  obtain ⟨hstart, hunits⟩ := @isTaskIdText_item casing phaseNumber s index mark text
  refine ⟨hstart, hunits, ?_, ?_⟩
  · rw [LedgerState.text_item]
    exact tidy_taskText htext
  · rw [LedgerState.text_item]
    exact taskText_taskText htext

theorem isRead_of_mem {source : JsString} {item : PhaseTaskLedgerItem}
    (h : item ∈ extractPhaseTaskLedger casing source phaseNumber) : IsRead item := by
  unfold extractPhaseTaskLedger at h
  dsimp only at h
  obtain ⟨k, line, -, hread⟩ := mem_ledgerItems.1 h
  obtain ⟨mark, text, hline, -, rfl⟩ := LedgerState.read_eq_some.1 hread
  obtain ⟨box, -, -, -, hcapture⟩ := readCheckbox_eq_some.1 (readLine_eq_checkbox hline)
  exact isRead_item _ _ _ (oneLine_of_captureTrimmed hcapture)

/-- What the reader of the table takes from the row of a task. -/
def readBack (parseDate : ParseDate) (taskRuns : List StoredImplementationTaskRun)
    (item : PhaseTaskLedgerItem) : Option (JsString × JsString) :=
  (renderRow parseDate taskRuns item).bind legacyEntry

theorem readBack_spec {item : PhaseTaskLedgerItem} {entry : JsString × JsString}
    (h : readBack parseDate taskRuns item = some entry) :
    (entry.1 ≠ [] ∧ entry.1.trim = entry.1 ∧ OneLine entry.1) ∧ unitPipe ∉ entry.1 := by
  obtain ⟨row, hrow, hentry⟩ := Option.bind_eq_some_iff.mp h
  obtain ⟨hne, htrim, hpipe, hline⟩ := legacyEntry_spec (oneLine_renderRow hrow)
    (show legacyEntry row = some (entry.1, entry.2) from hentry)
  exact ⟨⟨hne, htrim, hline⟩, hpipe⟩

theorem isTableRow {item : PhaseTaskLedgerItem} {row : JsString}
    (h : renderRow parseDate taskRuns item = some row) :
    OneLine row ∧ row.head? = some 0x7C ∧ row.getLast? = some 0x7C := by
  refine ⟨oneLine_renderRow h, ?_⟩
  obtain ⟨tail, -, rfl⟩ := renderRow_eq_some h
  refine ⟨rfl, ?_⟩
  simp only [← List.append_assoc, ← List.cons_append, List.getLast?_append, List.getLast?_cons,
    Option.some_or]
  simp

/-- **What the migration makes of a document with the table of tasks.** -/
theorem initialize_table {items : List PhaseTaskLedgerItem} {markdown table : JsString}
    (hne : items ≠ []) (htable : renderPhaseTaskStateTable parseDate items taskRuns = some table)
    (hkeeps : KeepsTable markdown table) :
    initializeLegacyHephaTaskStateLedger markdown =
      if (items.filterMap (readBack parseDate taskRuns)).isEmpty then none
      else some (migratedDocument markdown (items.filterMap (readBack parseDate taskRuns))) := by
  obtain ⟨rows, hmap, rfl⟩ := Option.map_eq_some_iff.mp htable
  have hrows : ∀ row ∈ rows, OneLine row ∧ row.head? = some 0x7C ∧ row.getLast? = some 0x7C := by
    intro row hrow
    obtain ⟨item, -, hitem⟩ := exists_item_of_mapM hmap hrow
    exact isTableRow hitem
  have hrowsNe : rows ≠ [] := by
    obtain ⟨item, hitem⟩ := List.exists_mem_of_ne_nil _ hne
    obtain ⟨row, hrow, -⟩ := exists_value_of_mapM hmap hitem
    exact List.ne_nil_of_mem hrow
  have hkept := hkeeps.kept
  rw [extractSection_table hrowsNe hrows] at hkept
  obtain ⟨body, hbody, htrim⟩ := Option.map_eq_some_iff.mp hkept
  have hentries : rows.filterMap legacyEntry = items.filterMap (readBack parseDate taskRuns) := by
    rw [filterMap_of_mapM hmap, List.filterMap_filterMap]
    rfl
  rw [initialize_eq hkeeps.unmigrated hbody, legacyEntries_of_trim hrowsNe hrows htrim, hentries]

/-- Cleaning adds no pipe to a text. -/
theorem pipe_not_mem_taskText {text : JsString} (h : unitPipe ∉ text) :
    unitPipe ∉ taskText text := by
  have hfixed : unitPipe ∉ js " " ∧ unitPipe ∉ js "..." ∧ unitPipe ≠ 0x20 := by decide
  have hclean : unitPipe ∉ (cleanInlineMarkdown text).trim := by
    intro hmem
    rcases mem_replaceRuns (mem_of_mem_trim (mem_of_mem_trim hmem)) with hspace | ⟨hkept, -⟩
    · exact hfixed.1 hspace
    · obtain ⟨u, hu, heq⟩ := List.mem_map.mp hkept
      split at heq
      · exact hfixed.2.2 heq.symm
      · exact h (heq ▸ (List.mem_filter.mp hu).1)
  unfold taskText truncate
  split
  · exact hclean
  · intro hmem
    rcases List.mem_append.mp hmem with hmem | hmem
    · exact hclean (List.mem_of_mem_take hmem)
    · exact hfixed.2.1 hmem

/-- **The migration keeps the tasks of the table if and only if the text of each of them is
not empty and has no pipe.** -/
theorem migration_iff {source markdown table : JsString} {sourceNumber : Option ℕ}
    (hne : extractPhaseTaskLedger casing source sourceNumber ≠ [])
    (htable : renderPhaseTaskStateTable parseDate
      (extractPhaseTaskLedger casing source sourceNumber) taskRuns = some table)
    (hkeeps : KeepsTable markdown table) :
    MigratesTasks casing phaseNumber taskRuns (extractPhaseTaskLedger casing source sourceNumber)
        markdown ↔
      Readable (extractPhaseTaskLedger casing source sourceNumber) := by
  have hread (item) (hitem : item ∈ extractPhaseTaskLedger casing source sourceNumber) :
      IsRead item := isRead_of_mem hitem
  generalize extractPhaseTaskLedger casing source sourceNumber = items at hne htable hread
  have hinit := initialize_table hne htable hkeeps
  have hspec : ∀ entry ∈ items.filterMap (readBack parseDate taskRuns),
      (entry.1 ≠ [] ∧ entry.1.trim = entry.1 ∧ OneLine entry.1) ∧ unitPipe ∉ entry.1 := by
    intro entry hentry
    obtain ⟨item, -, hitem⟩ := List.mem_filterMap.mp hentry
    exact readBack_spec hitem
  have hledger := @ledger_of_entries casing phaseNumber markdown
    (items.filterMap (readBack parseDate taskRuns)) hkeeps.unledgered
      fun entry hentry => (hspec entry hentry).1
  have hback (item) (hitem : item ∈ items) (hpipe : unitPipe ∉ item.text) :
      readBack parseDate taskRuns item = if item.text.isEmpty then none
        else some (item.text, (tableState taskRuns item).text) := by
    obtain ⟨rows, hmap, -⟩ := Option.map_eq_some_iff.mp htable
    obtain ⟨row, -, hrow⟩ := exists_value_of_mapM hmap hitem
    have hitemRead := hread item hitem
    rw [readBack, hrow, Option.bind_some]
    exact legacyEntry_row hrow hitemRead.start hitemRead.units hitemRead.tidy hpipe
  constructor
  · rintro ⟨migrated, hmigrated, htasks, -⟩
    rw [hinit] at hmigrated
    split at hmigrated
    · cases hmigrated
    · obtain rfl := Option.some.inj hmigrated
      rw [hledger] at htasks
      have hpipe (item) (hitem : item ∈ items) : unitPipe ∉ item.text := by
        have hmem := List.mem_map_of_mem (f := fun item : PhaseTaskLedgerItem =>
          (item.text, isSettled (tableState taskRuns item))) hitem
        rw [← htasks] at hmem
        obtain ⟨entry, hentry, heq⟩ := List.mem_map.mp hmem
        have htext : taskText entry.1 = item.text := (Prod.mk.inj heq).1
        rw [← htext]
        exact pipe_not_mem_taskText (hspec entry hentry).2
      have hlength : (items.filterMap (readBack parseDate taskRuns)).length = items.length := by
        simpa using congrArg List.length htasks
      intro item hitem
      refine ⟨fun hempty => ?_, hpipe item hitem⟩
      have hsome := List.filterMap_length_eq_length.mp hlength item hitem
      rw [hback item hitem (hpipe item hitem), hempty] at hsome
      cases hsome
  · intro hreadable
    have hentries : items.filterMap (readBack parseDate taskRuns) =
        items.map fun item => (item.text, (tableState taskRuns item).text) := by
      rw [← List.filterMap_eq_map]
      refine List.filterMap_congr fun item hitem => ?_
      obtain ⟨htext, hpipe⟩ := hreadable item hitem
      have hempty : item.text.isEmpty = false := by simpa using htext
      rw [hback item hitem hpipe, hempty]
      rfl
    have hnot : (items.filterMap (readBack parseDate taskRuns)).isEmpty = false := by
      rw [hentries]
      simpa using hne
    rw [hnot] at hinit
    refine ⟨_, hinit, ?_, initializeLegacy_migrated hinit⟩
    rw [hledger, hentries, List.map_map]
    refine List.map_congr_left fun item hitem => ?_
    rw [Function.comp_apply, (hread item hitem).stable, isSettledText_text]

end Migration

/-! ## Two phases -/

/-- The state table of one finished task. -/
def finishedTable (id text : String) : JsString :=
  js "## Hepha Task State\n\n| Task ID | Task | State | Started | Completed | Duration |\n" ++
    js "| --- | --- | --- | --- | --- | --- |\n| " ++ js id ++ js " | " ++ js text ++
      js " | COMPLETED | - | - | - |\n"

def phaseWith (table : JsString) : JsString := js "# Phase 1\n\n" ++ table

/-- A document that keeps its table, as a condition that is evaluated. -/
theorem keepsTable_iff {markdown table : JsString} :
    KeepsTable markdown table ↔
      (searchLines (sectionHeading "phase task ledger") true markdown).isSome = false ∧
        (∀ line ∈ splitLines markdown, startsExplicitLedger line = false) ∧
        (extractSection markdown "hepha task state").map trim =
          (extractSection table "hepha task state").map trim := by
  constructor
  · intro h
    exact ⟨h.unmigrated, h.unledgered, h.kept⟩
  · rintro ⟨hunmigrated, hunledgered, hkept⟩
    exact ⟨hunmigrated, hunledgered, hkept⟩

/-- The table of the finished task and the document with it, evaluated. -/
theorem build_holds :
    renderPhaseTaskStateTable (fun _ => none)
        (extractPhaseTaskLedger Casing.ascii (js "- [x] Build") (some 1)) [] =
      some (finishedTable "phase-1.document.build" "Build") ∧
    KeepsTable (phaseWith (finishedTable "phase-1.document.build" "Build"))
      (finishedTable "phase-1.document.build" "Build") := by
  rw [keepsTable_iff]
  decide +kernel

theorem build_migrated : MigratesTasks Casing.ascii (some 1) []
    (extractPhaseTaskLedger Casing.ascii (js "- [x] Build") (some 1))
    (phaseWith (finishedTable "phase-1.document.build" "Build")) := by
  obtain ⟨htable, hkeeps⟩ := build_holds
  refine (migration_iff (by decide) htable hkeeps).mpr ?_
  unfold Readable
  decide

/-- A finished task is reopened, and its text is cut, where the text has a pipe. -/
theorem piped_not_migrated :
    (extractPhaseTaskLedger Casing.ascii (js "- [x] Map a|b") (some 1) ≠ [] ∧
      renderPhaseTaskStateTable (fun _ => none)
          (extractPhaseTaskLedger Casing.ascii (js "- [x] Map a|b") (some 1)) [] =
        some (finishedTable "phase-1.document.map-a-b" "Map a\\|b") ∧
      KeepsTable (phaseWith (finishedTable "phase-1.document.map-a-b" "Map a\\|b"))
        (finishedTable "phase-1.document.map-a-b" "Map a\\|b")) ∧
    ¬MigratesTasks Casing.ascii (some 1) []
      (extractPhaseTaskLedger Casing.ascii (js "- [x] Map a|b") (some 1))
      (phaseWith (finishedTable "phase-1.document.map-a-b" "Map a\\|b")) := by
  constructor
  · rw [keepsTable_iff]
    decide +kernel
  · rintro ⟨migrated, hmigrated, htasks, -⟩
    have hledger : (initializeLegacyHephaTaskStateLedger (phaseWith (finishedTable
        "phase-1.document.map-a-b" "Map a\\|b"))).map (fun markdown =>
          (extractPhaseTaskLedger Casing.ascii markdown (some 1)).map
            (fun item => (item.text, item.checked))) = some [(js "Map a\\", false)] := by
      decide +kernel
    rw [hmigrated, Option.map_some, htasks] at hledger
    revert hledger
    decide

end Hepha.Reconcile
