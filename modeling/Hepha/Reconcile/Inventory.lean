import Hepha.Lib.Cut
import Hepha.Reconcile.FeatureTasks

/-!
# What a status update leaves of the inventory

The inventory reads a line through its trimmed text alone, and blank lines at
the end of FeatureTasks do not count.  Setting the status of a row keeps the
header and every other row: the cells of the row are the same but for one.
-/

namespace Hepha.Reconcile

open JsString Pattern

/-! ## Cells -/

section Cells

variable {line rest white : JsString}

/-- White space after a text goes to its last piece. -/
theorem splitOn_append_white (s : JsString) (hwhite : unitPipe ∉ white) :
    ∃ front last, s.splitOn unitPipe = front ++ [last] ∧
      (s ++ white).splitOn unitPipe = front ++ [last ++ white] := by
  induction s with
  | nil => exact ⟨[], [], rfl, by rw [List.nil_append, List.splitOn_eq_singleton hwhite]; rfl⟩
  | cons u s ih =>
      obtain ⟨front, last, hs, hwhole⟩ := ih
      rw [List.cons_append, List.splitOn_cons_eq_if_modifyHead, List.splitOn_cons_eq_if_modifyHead,
        hs, hwhole]
      split
      · exact ⟨[] :: front, last, rfl, rfl⟩
      · cases front with
        | nil => exact ⟨[], u :: last, rfl, rfl⟩
        | cons first front => exact ⟨(u :: first) :: front, last, rfl, rfl⟩

theorem not_mem_of_mem_splitOn {s piece : JsString} (h : piece ∈ s.splitOn unitPipe) :
    unitPipe ∉ piece := by
  induction s generalizing piece with
  | nil =>
      rw [List.splitOn_nil, List.mem_singleton] at h
      rw [h]
      exact List.not_mem_nil
  | cons u s ih =>
      rw [List.splitOn_cons_eq_if_modifyHead] at h
      split at h
      · rcases List.mem_cons.mp h with rfl | h
        · exact List.not_mem_nil
        · exact ih h
      · rename_i hu
        obtain ⟨first, rest, hs⟩ := List.exists_cons_of_ne_nil (List.splitOn_ne_nil unitPipe s)
        rw [hs, List.modifyHead_cons] at h
        rcases List.mem_cons.mp h with rfl | h
        · have hfirst := ih (hs ▸ List.mem_cons_self)
          exact fun hmem => (List.mem_cons.mp hmem).elim (fun heq => hu (by simp [heq])) hfirst
        · exact ih (hs ▸ List.mem_cons_of_mem _ h)

/-- A row is white space, a border and the rest. -/
theorem isRowLine_iff : isRowLine line = true ↔
    ∃ white rest, line = white ++ unitPipe :: rest ∧ ∀ u ∈ white, isWhiteSpace u = true := by
  have hpipe : isWhiteSpace unitPipe = false := by decide
  constructor
  · intro h
    rw [isRowLine, beq_iff_eq] at h
    obtain ⟨tail, htail⟩ : line.trim <+: line.trimStart := List.rdropWhile_prefix _ _
    obtain ⟨rest, hrest⟩ := List.head?_eq_some_iff.mp h
    refine ⟨line.takeWhile isWhiteSpace, rest ++ tail, ?_, fun u hu => List.mem_takeWhile_imp hu⟩
    rw [← List.cons_append, ← hrest, htail]
    exact List.takeWhile_append_dropWhile.symm
  · rintro ⟨white, rest, rfl, hwhite⟩
    rw [isRowLine, trim, List.dropWhile_append_of_pos hwhite,
        List.dropWhile_cons_of_neg (by simp [hpipe]),
      List.reverse_cons, List.dropWhile_append, beq_iff_eq]
    split
    · rw [List.dropWhile_cons_of_neg (by simp [hpipe])]
      rfl
    · simp

/-- The cells of a row are the pieces after its border, without the last one. -/
theorem parseCells_row (hwhite : ∀ u ∈ white, isWhiteSpace u = true) :
    parseCells (white ++ unitPipe :: rest) =
      (rest.splitOn unitPipe).dropLast.map trim := by
  have hpipe : isWhiteSpace unitPipe = false := by decide
  have hnot {s : JsString} (h : ∀ u ∈ s, isWhiteSpace u = true) : unitPipe ∉ s := fun hmem => by
    rw [h _ hmem] at hpipe
    cases hpipe
  obtain ⟨after, hafter, hall⟩ := exists_trimEnd_append rest
  have htrim : (white ++ unitPipe :: rest).trim = unitPipe :: rest.trimEnd := by
    rw [hafter, ← List.cons_append, ← List.append_assoc, trim_append_white hall, trim,
      List.dropWhile_append_of_pos hwhite, List.dropWhile_cons_of_neg (by simp [hpipe])]
    cases hlast : rest.trimEnd.getLast? with
    | none =>
        rw [List.getLast?_eq_none_iff] at hlast
        rw [← hafter, hlast]
        rfl
    | some u =>
        have hu := getLast?_trimEnd hlast
        obtain ⟨front, hfront⟩ := List.getLast?_eq_some_iff.mp hlast
        rw [← hafter, hfront, List.reverse_eq_iff, dropWhile_eq_self_iff]
        simp [hu]
  obtain ⟨front, last, hsplit, hwhole⟩ := splitOn_append_white rest.trimEnd (hnot hall)
  rw [← hafter] at hwhole
  rw [parseCells, tableCells, htrim, List.splitOn_cons_eq_if_modifyHead, if_pos (by simp),
    List.tail_cons, hsplit, hwhole, List.dropLast_concat, List.dropLast_concat]

/-- Setting the status of a row sets one cell. -/
theorem parseCells_setStatusCell (hrow : isRowLine line = true) (statusColumn : ℕ)
    {status : JsString} (hstatus : unitPipe ∉ status) :
    isRowLine (setStatusCell statusColumn status line) = true ∧
      parseCells (setStatusCell statusColumn status line) =
        (parseCells line).set statusColumn (js " " ++ status ++ js " ").trim := by
  obtain ⟨white, rest, rfl, hwhite⟩ := isRowLine_iff.1 hrow
  have hnot : unitPipe ∉ white := fun hmem => absurd (hwhite _ hmem) (by decide)
  have hcell : unitPipe ∉ js " " ++ status ++ js " " := by
    have hblank : unitPipe ∉ js " " := by decide
    simp [hstatus, hblank]
  have hline : setStatusCell statusColumn status (white ++ unitPipe :: rest) =
      white ++ unitPipe :: [unitPipe].intercalate
        ((rest.splitOn unitPipe).set statusColumn (js " " ++ status ++ js " ")) := by
    rw [setStatusCell, List.splitOn_append_cons_self_of_not_mem hnot, List.set_cons_succ,
      List.intercalate_cons_of_ne_nil, List.append_assoc, List.singleton_append]
    simp
  have hpieces : ∀ piece ∈ (rest.splitOn unitPipe).set statusColumn (js " " ++ status ++ js " "),
      unitPipe ∉ piece := by
    intro piece hpiece
    rcases List.mem_or_eq_of_mem_set hpiece with hpiece | rfl
    · exact not_mem_of_mem_splitOn hpiece
    · exact hcell
  rw [hline]
  refine ⟨isRowLine_iff.2 ⟨white, _, rfl, hwhite⟩, ?_⟩
  rw [parseCells_row hwhite, parseCells_row hwhite, List.splitOn_intercalate _ hpieces,
    List.dropLast_eq_take, List.dropLast_eq_take, List.length_set, List.take_set, List.map_set]
  simp

theorem mem_setStatusCell {statusColumn : ℕ} {status : JsString} {u : CodeUnit}
    (h : u ∈ setStatusCell statusColumn status line) :
    u = unitPipe ∨ u ∈ line ∨ u ∈ js " " ++ status ++ js " " := by
  rcases mem_of_mem_intercalate h with h | ⟨piece, hpiece, hu⟩
  · exact .inl (List.mem_singleton.mp h)
  · rcases List.mem_or_eq_of_mem_set hpiece with hpiece | rfl
    · have hpart := @infix_intercalate _ [unitPipe] _ _ hpiece
      rw [List.intercalate_splitOn] at hpart
      exact .inr (.inl (hpart.mem hu))
    · exact .inr (.inr hu)

end Cells

/-! ## Lines -/

section Lines

variable {casing : Casing} {lines lines' : List JsString}

/-- The inventory of a text with the given lines. -/
def readLines (casing : Casing) (lines : List JsString) : List InventoryRow :=
  match findInventoryHeader casing lines with
  | some header => readRows header lines
  | none => []

theorem readInventoryRows_eq (markdown : JsString) :
    readInventoryRows casing markdown = readLines casing (splitLines markdown) :=
  rfl

theorem isRowLine_trim (line : JsString) : isRowLine line.trim = isRowLine line := by
  rw [isRowLine, isRowLine, trim_trim]

theorem readHeader_trim (headerLine : ℕ) (line : JsString) :
    readHeader casing headerLine line.trim = readHeader casing headerLine line := by
  rw [readHeader, readHeader, isRowLine_trim, parseCells, parseCells, trim_trim]

theorem readRow_trim (header : InventoryHeader) (lineIndex : ℕ) (line : JsString) :
    readRow header lineIndex line.trim = readRow header lineIndex line := by
  rw [readRow, readRow, parseCells, parseCells, trim_trim]

theorem readLines_map_trim : readLines casing (lines.map trim) = readLines casing lines := by
  have hheader : findInventoryHeader casing (lines.map trim) =
      findInventoryHeader casing lines := by
    simp only [findInventoryHeader, List.zipIdx_map, List.filterMap_map, Function.comp_def,
      Prod.map, id, readHeader_trim]
  rw [readLines, readLines, hheader]
  cases findInventoryHeader casing lines with
  | none => rfl
  | some header =>
      simp only [readRows, rowsFrom, List.zipIdx_map, ← List.map_drop, List.takeWhile_map,
        List.filterMap_map, Function.comp_def, Prod.map, id, isRowLine_trim, readRow_trim]

/-- Blank lines at the end do not count. -/
theorem readLines_append_blank (n : ℕ) :
    readLines casing (lines ++ List.replicate n []) = readLines casing lines := by
  have hblank : ∀ pair ∈ (List.replicate n ([] : JsString)).zipIdx (0 + lines.length),
      isRowLine pair.1 = false := by
    intro pair hpair
    rw [List.eq_of_mem_replicate (List.fst_mem_of_mem_zipIdx hpair)]
    rfl
  have hheader : findInventoryHeader casing (lines ++ List.replicate n []) =
      findInventoryHeader casing lines := by
    have hnone : ((List.replicate n ([] : JsString)).zipIdx (0 + lines.length)).filterMap
        (fun pair => readHeader casing pair.2 pair.1) = [] := by
      refine List.filterMap_eq_nil_iff.mpr fun pair hpair => ?_
      rw [readHeader, if_pos (by rw [hblank pair hpair]; rfl)]
    simp only [findInventoryHeader, List.zipIdx_append, List.filterMap_append, hnone,
      List.append_nil]
  rw [readLines, readLines, hheader]
  cases findInventoryHeader casing lines with
  | none => rfl
  | some header =>
      have hnil (k : ℕ) : (((List.replicate n ([] : JsString)).zipIdx (0 + lines.length)).drop
          k).takeWhile (fun pair => isRowLine pair.1) = [] := by
        rw [List.takeWhile_eq_nil_iff]
        intro hpos
        rw [hblank _ (List.mem_of_mem_drop (List.get_mem _ ⟨0, hpos⟩))]
        exact Bool.false_ne_true
      simp only [readRows, rowsFrom, List.zipIdx_append, List.drop_append, List.takeWhile_append,
          hnil,
        List.append_nil]
      split
      · rename_i hall
        rw [(List.takeWhile_prefix _).eq_of_length hall]
      · rfl

/-- Lines that agree up to white space and blank lines at the end. -/
theorem readLines_congr {n n' : ℕ} (h : lines.map trim ++ List.replicate n [] =
    lines'.map trim ++ List.replicate n' []) : readLines casing lines = readLines casing lines' := by
  rw [← readLines_map_trim, ← readLines_append_blank n, h, readLines_append_blank,
    readLines_map_trim]

/-- Lines that are joined and cut again keep their trimmed texts. -/
theorem map_trim_splitLines_joinLines (hne : lines ≠ []) (h : ∀ line ∈ lines, 0x0A ∉ line) :
    (splitLines (joinLines lines)).map trim = lines.map trim := by
  induction lines with
  | nil => exact absurd rfl hne
  | cons line rest ih =>
      cases rest with
      | nil =>
          rw [joinLines, List.intercalate_singleton,
            splitLines_eq_singleton (h line List.mem_cons_self)]
      | cons next rest =>
          obtain ⟨first, hsplit, hfirst⟩ :=
            splitLines_line (s := joinLines (next :: rest)) (h line List.mem_cons_self)
          have hrest := ih (List.cons_ne_nil _ _) fun line hline =>
            h line (List.mem_cons_of_mem _ hline)
          rw [joinLines, List.intercalate_cons_cons, List.append_assoc, List.singleton_append]
          change (splitLines (line ++ 0x0A :: joinLines (next :: rest))).map trim = _
          rw [hsplit, List.map_cons, hrest, List.map_cons]
          rcases hfirst with rfl | rfl
          · rfl
          · have hreturn : (first ++ [0x0D]).trim = first.trim :=
              trim_append_white (List.all_eq_true.mp (by decide))
            rw [List.map_cons, hreturn, List.map_cons]

/-- White space at the end of a text is blank lines and part of its last line. -/
theorem map_trim_splitLines_trimEnd (markdown : JsString) :
    ∃ n n', (splitLines (markdown.trimEnd ++ js "\n")).map trim ++ List.replicate n [] =
      (splitLines markdown).map trim ++ List.replicate n' [] := by
  obtain ⟨white, hmarkdown, hwhite⟩ := exists_trimEnd_append markdown
  have hreturn : markdown.trimEnd.getLast? ≠ some 0x0D := fun hlast =>
    absurd (getLast?_trimEnd hlast) (by decide)
  obtain ⟨front, last, hfront⟩ := exists_splitLines_concat markdown.trimEnd
  obtain ⟨first, rest, hrest⟩ := exists_splitLines_cons white
  have hblank : ∀ line ∈ splitLines white, ∀ u ∈ line, isWhiteSpace u = true :=
    fun line hline u hu => hwhite u (mem_of_mem_splitLines hline hu)
  have hwhole := splitLines_append hfront hrest (.inl hreturn)
  rw [← hmarkdown] at hwhole
  have htail : rest.map trim = List.replicate rest.length [] := by
    refine List.eq_replicate_iff.mpr ⟨List.length_map _, fun text htext => ?_⟩
    obtain ⟨line, hline, rfl⟩ := List.mem_map.mp htext
    exact trim_eq_nil_iff.2 (hblank line (hrest ▸ List.mem_cons_of_mem _ hline))
  refine ⟨rest.length, 1, ?_⟩
  rw [show js "\n" = [0x0A] from rfl, splitLines_append_lineFeed hreturn, hwhole, hfront]
  simp only [List.map_append, List.map_cons, List.map_nil, List.append_assoc, htail,
    trim_append_white (hblank first (hrest ▸ List.mem_cons_self))]
  have hcomm : [([] : JsString)] ++ List.replicate rest.length [] =
      List.replicate rest.length [] ++ List.replicate 1 [] := by
    rw [List.replicate_append_replicate, List.singleton_append, ← List.replicate_succ]
  exact congrArg (fun tail => front.map trim ++ last.trim :: tail) hcomm

end Lines

/-! ## Setting a status -/

/-- A status that is one word, and no word of a header. -/
structure StatusWord (casing : Casing) (status : JsString) : Prop where
  no_pipe : unitPipe ∉ status
  no_lineFeed : 0x0A ∉ js " " ++ status ++ js " "
  trimmed : (js " " ++ status ++ js " ").trim = status
  ne_nil : status ≠ []
  not_separator : isSeparatorCell status = false
  not_header : casing.toLowerCase status ∉
    ["status", "document", "contract id", "role", "phase"].map js

theorem statusWord_completed (casing : Casing) : StatusWord casing (js "COMPLETED") where
  no_pipe := by decide
  no_lineFeed := by decide
  trimmed := by decide
  ne_nil := by decide
  not_separator := by decide
  not_header := by
    rw [casing.toLowerCase_of_all (by decide)]
    decide

section SetStatus

variable {casing : Casing} {header : InventoryHeader} {row : InventoryRow} {lines : List JsString}
  {status : JsString}

/-- What a line tells when it is a row. -/
theorem readRow_eq_some {line : JsString} {lineIndex : ℕ}
    (h : readRow header lineIndex line = some row) :
    row.lineIndex = lineIndex ∧ readRowNumber header.phaseColumn (parseCells line) =
      some row.phaseNumber ∧ header.statusColumn < (parseCells line).length := by
  unfold readRow at h
  dsimp only at h
  split at h
  · cases h
  · split at h
    · rename_i number hnumber
      split at h
      · cases h
      · rename_i hstatus
        cases h
        refine ⟨rfl, hnumber, ?_⟩
        by_contra hle
        rw [List.getElem?_eq_none (not_lt.mp hle)] at hstatus
        exact hstatus rfl
    · cases h

/-- The columns of a header are different columns. -/
theorem readHeader_eq_some {headerLine : ℕ} {line : JsString}
    (h : readHeader casing headerLine line = some header) :
    header.headerLine = headerLine ∧ (∀ column, header.phaseColumn = .document column ∨
      header.phaseColumn = .phase column → column ≠ header.statusColumn) := by
  unfold readHeader at h
  dsimp only at h
  split at h
  · cases h
  · have hne {name : String} {column statusColumn : ℕ} (hname : js name ≠ js "status")
        (hcolumn : ((parseCells line).map casing.toLowerCase).idxOf? (js name) = some column)
        (hstatus : ((parseCells line).map casing.toLowerCase).idxOf? (js "status") =
          some statusColumn) : column ≠ statusColumn := by
      rintro rfl
      obtain ⟨_, hleft, -⟩ := List.idxOf?_eq_some_iff.mp hcolumn
      obtain ⟨_, hright, -⟩ := List.idxOf?_eq_some_iff.mp hstatus
      exact hname (hleft.symm.trans hright)
    split at h
    · rename_i statusColumn documentColumn idColumn roleColumn hstatus hdocument hid hrole
      cases h
      refine ⟨rfl, fun column hcolumn => ?_⟩
      rcases hcolumn with hcolumn | hcolumn
      · cases hcolumn
        exact hne (by decide) hdocument hstatus
      · cases hcolumn
    · rename_i statusColumn phaseColumn hstatus hphase _
      cases h
      refine ⟨rfl, fun column hcolumn => ?_⟩
      rcases hcolumn with hcolumn | hcolumn
      · cases hcolumn
      · cases hcolumn
        exact hne (by decide) hphase hstatus
    · cases h

/-- The words of a header of the contract schema. -/
def contractWords : List JsString :=
  ["status", "document", "contract id", "role"].map js

theorem readHeader_contract_iff {headerLine : ℕ} {line : JsString} :
    (∃ header, readHeader casing headerLine line = some header ∧
      header.phaseColumn.isContract = true) ↔ isRowLine line = true ∧
        ∀ word ∈ contractWords, word ∈ (parseCells line).map casing.toLowerCase := by
  have hwords : (∀ word ∈ contractWords, word ∈ (parseCells line).map casing.toLowerCase) ↔
      ∀ name ∈ ["status", "document", "contract id", "role"],
        (((parseCells line).map casing.toLowerCase).idxOf? (js name)).isSome = true := by
    simp only [contractWords, List.forall_mem_map, List.isSome_idxOf?]
  rw [hwords]
  constructor
  · rintro ⟨header, hheader, hcontract⟩
    unfold readHeader at hheader
    dsimp only at hheader
    split at hheader
    · cases hheader
    · rename_i hrow
      split at hheader
      · rename_i hstatus hdocument hid hrole
        refine ⟨by simpa using hrow, fun name hname => ?_⟩
        simp only [List.mem_cons, List.not_mem_nil, or_false] at hname
        rcases hname with rfl | rfl | rfl | rfl
        · rw [hstatus, Option.isSome_some]
        · rw [hdocument, Option.isSome_some]
        · rw [hid, Option.isSome_some]
        · rw [hrole, Option.isSome_some]
      · cases hheader
        cases hcontract
      · cases hheader
  · rintro ⟨hrow, hall⟩
    simp only [List.forall_mem_cons, Option.isSome_iff_exists] at hall
    obtain ⟨⟨status, hstatus⟩, ⟨document, hdocument⟩, ⟨id, hid⟩, ⟨role, hrole⟩, -⟩ := hall
    refine ⟨⟨headerLine, .document document, status⟩, ?_, rfl⟩
    simp only [readHeader, hrow, hstatus, hdocument, hid, hrole]
    rfl

/-- A row does not become a header of the contract schema. -/
theorem contract_of_setStatusCell (hstatus : StatusWord casing status) {line : JsString}
    (hrow : isRowLine line = true) {statusColumn headerLine : ℕ}
    (h : ∃ header, readHeader casing headerLine (setStatusCell statusColumn status line) =
      some header ∧ header.phaseColumn.isContract = true) :
    ∃ header, readHeader casing headerLine line = some header ∧
      header.phaseColumn.isContract = true := by
  rw [readHeader_contract_iff, (parseCells_setStatusCell hrow _ hstatus.no_pipe).2,
    hstatus.trimmed] at h
  refine readHeader_contract_iff.2 ⟨hrow, fun word hword => ?_⟩
  obtain ⟨cell, hcell, rfl⟩ := List.mem_map.mp (h.2 word hword)
  rcases List.mem_or_eq_of_mem_set hcell with hcell | rfl
  · exact List.mem_map_of_mem hcell
  · refine absurd ?_ hstatus.not_header
    have hsub : ∀ word ∈ contractWords,
        word ∈ ["status", "document", "contract id", "role", "phase"].map js := by
      decide
    exact hsub _ hword

/-- The row with its new status. -/
theorem readRow_setStatusCell (hstatus : StatusWord casing status) {line : JsString}
    {lineIndex : ℕ} (hline : isRowLine line = true)
    (hcolumns : ∀ column, header.phaseColumn = .document column ∨
      header.phaseColumn = .phase column → column ≠ header.statusColumn)
    (h : readRow header lineIndex line = some row) :
    readRow header lineIndex (setStatusCell header.statusColumn status line) =
      some { row with status := status } := by
  obtain ⟨hindex, hnumber, hlength⟩ := readRow_eq_some h
  have hcells := (parseCells_setStatusCell hline header.statusColumn hstatus.no_pipe).2
  rw [hstatus.trimmed] at hcells
  have hself : status.trim = status := by
    rw [← hstatus.trimmed, trim_trim]
  have hnumber' : readRowNumber header.phaseColumn
      ((parseCells line).set header.statusColumn status) = some row.phaseNumber := by
    rw [← hnumber]
    cases hcolumn : header.phaseColumn with
    | document column =>
        rw [readRowNumber, readRowNumber,
          List.getElem?_set_ne (hcolumns column (.inl hcolumn)).symm]
    | phase column =>
        rw [readRowNumber, readRowNumber,
          List.getElem?_set_ne (hcolumns column (.inr hcolumn)).symm]
  have hseparator : ((parseCells line).set header.statusColumn status).all isSeparatorCell =
      false := by
    rw [List.all_eq_false]
    exact ⟨status, List.mem_set hlength status, by rw [hstatus.not_separator]; simp⟩
  have hne : status.isEmpty = false := by
    cases hnil : status with
    | nil => exact absurd hnil hstatus.ne_nil
    | cons u s => rfl
  unfold readRow
  simp only [hcells, hseparator, hnumber', List.getElem?_set_self hlength, Option.getD_some, hself,
    hne, Bool.false_eq_true, if_false, hindex]

/-- The candidates of a list of lines that begins at an index. -/
def candidates (casing : Casing) (lines : List JsString) (index : ℕ) : List InventoryHeader :=
  (lines.zipIdx index).filterMap fun pair => readHeader casing pair.2 pair.1

theorem findInventoryHeader_eq : findInventoryHeader casing lines =
    ((candidates casing lines 0).find? fun candidate => candidate.phaseColumn.isContract).or
      (candidates casing lines 0).head? :=
  rfl

/-- The header is the reading of a line. -/
theorem exists_readHeader (h : findInventoryHeader casing lines = some header) :
    ∃ line ∈ lines, ∃ index, readHeader casing index line = some header := by
  have hmem : header ∈ candidates casing lines 0 := by
    rcases Option.or_eq_some_iff.mp h with h | ⟨-, h⟩
    · exact List.mem_of_find?_eq_some h
    · exact List.mem_of_mem_head? h
  obtain ⟨pair, hpair, hheader⟩ := List.mem_filterMap.mp hmem
  exact ⟨pair.1, List.fst_mem_of_mem_zipIdx hpair, pair.2, hheader⟩

theorem headerLine_of_mem_candidates {index : ℕ} (h : header ∈ candidates casing lines index) :
    index ≤ header.headerLine ∧ header.headerLine < index + lines.length := by
  obtain ⟨pair, hpair, hheader⟩ := List.mem_filterMap.mp h
  rw [(readHeader_eq_some hheader).1]
  exact ⟨List.le_snd_of_mem_zipIdx hpair, List.snd_lt_add_of_mem_zipIdx hpair⟩

/-- A header stays the header when a row below it gets another status. -/
theorem findInventoryHeader_setStatusCell (hstatus : StatusWord casing status)
    {before after : List JsString} {line : JsString} (hline : isRowLine line = true)
    (h : findInventoryHeader casing (before ++ line :: after) = some header)
    (hbelow : header.headerLine < before.length) :
    findInventoryHeader casing (before ++ setStatusCell header.statusColumn status line :: after) =
      some header := by
  have hsplit (line : JsString) : candidates casing (before ++ line :: after) 0 =
      candidates casing before 0 ++ ((readHeader casing (0 + before.length) line).toList ++
        candidates casing after (0 + before.length + 1)) := by
    rw [candidates, List.zipIdx_append, List.filterMap_append, List.zipIdx_cons]
    cases hread : readHeader casing (0 + before.length) line with
    | none => simp only [List.filterMap_cons, hread]; rfl
    | some other => simp only [List.filterMap_cons, hread]; rfl
  rw [findInventoryHeader_eq, hsplit, List.find?_append] at h ⊢
  have hmem : header ∈ candidates casing before 0 := by
    have hall : header ∈ candidates casing before 0 ++
        ((readHeader casing (0 + before.length) line).toList ++
          candidates casing after (0 + before.length + 1)) := by
      rcases Option.or_eq_some_iff.mp h with h | ⟨-, h⟩
      · rw [← List.find?_append] at h
        exact List.mem_of_find?_eq_some h
      · exact List.mem_of_mem_head? h
    rcases List.mem_append.mp hall with hall | hall
    · exact hall
    · rcases List.mem_append.mp hall with hall | hall
      · have := (readHeader_eq_some (Option.mem_toList.mp hall)).1
        omega
      · have := (headerLine_of_mem_candidates hall).1
        omega
  have hhead (tail : List InventoryHeader) : (candidates casing before 0 ++ tail).head? =
      (candidates casing before 0).head? :=
    List.head?_append_of_ne_nil _ (List.ne_nil_of_mem hmem)
  rw [hhead] at h ⊢
  cases hfind : (candidates casing before 0).find? fun candidate =>
      candidate.phaseColumn.isContract with
  | some first =>
      rw [hfind] at h
      exact h
  | none =>
      rw [hfind, Option.none_or, List.find?_append] at h
      rw [Option.none_or, List.find?_append]
      -- a header of the contract schema further down would have been taken
      have hnone : (((readHeader casing (0 + before.length) line).toList.find? fun candidate =>
          candidate.phaseColumn.isContract).or ((candidates casing after
            (0 + before.length + 1)).find? fun candidate => candidate.phaseColumn.isContract)) =
          none := by
        rw [← List.find?_append, List.find?_eq_none]
        intro other hother hcontract
        obtain ⟨found, hfound⟩ := Option.isSome_iff_exists.mp
          (List.find?_isSome (p := fun candidate : InventoryHeader =>
            candidate.phaseColumn.isContract) |>.mpr ⟨other, hother, hcontract⟩)
        rw [← List.find?_append, hfound] at h
        obtain rfl := Option.some.inj h
        exact List.find?_eq_none.mp hfind found hmem (List.find?_some
          (p := fun candidate : InventoryHeader => candidate.phaseColumn.isContract) hfound)
      rw [hnone, Option.none_or] at h
      obtain ⟨hrow, hafter⟩ := Option.or_eq_none_iff.mp hnone
      have hrow' : ((readHeader casing (0 + before.length)
          (setStatusCell header.statusColumn status line)).toList.find? fun candidate =>
            candidate.phaseColumn.isContract) = none := by
        rw [List.find?_eq_none]
        intro other hother hcontract
        obtain ⟨old, hold, holdContract⟩ := contract_of_setStatusCell hstatus hline
          ⟨other, Option.mem_toList.mp hother, hcontract⟩
        exact List.find?_eq_none.mp hrow old (Option.mem_toList.mpr hold) holdContract
      rw [hrow', hafter, Option.none_or, Option.none_or, h]

theorem rowsFrom_append {front back : List (JsString × ℕ)} {line : JsString} {index : ℕ}
    (hfront : ∀ pair ∈ front, isRowLine pair.1 = true) (hline : isRowLine line = true)
    (hread : readRow header index line = some row) :
    rowsFrom header (front ++ (line, index) :: back) =
      front.filterMap (fun pair => readRow header pair.2 pair.1) ++ row ::
        rowsFrom header back := by
  rw [rowsFrom, List.takeWhile_append_of_pos hfront, List.filterMap_append]
  simp only [List.takeWhile_cons, hline, if_true, List.filterMap_cons, hread, rowsFrom]

/-- A row of the inventory stands below the header, and rows lead up to it. -/
theorem exists_line_of_mem_readRows (h : row ∈ readRows header lines) :
    ∃ before line after, lines = before ++ line :: after ∧ before.length = row.lineIndex ∧
      header.headerLine < before.length ∧ isRowLine line = true ∧
      readRow header row.lineIndex line = some row ∧
      ∀ pair ∈ before.zipIdx.drop (header.headerLine + 1), isRowLine pair.1 = true := by
  obtain ⟨⟨line, index⟩, hpair, hread⟩ := List.mem_filterMap.mp h
  obtain ⟨rfl, -, -⟩ := readRow_eq_some hread
  obtain ⟨front, back, hsplit⟩ := List.append_of_mem hpair
  have hrows : ∀ other ∈ front ++ (line, row.lineIndex) :: back, isRowLine other.1 = true := by
    intro other hother
    rw [← hsplit] at hother
    exact List.mem_takeWhile_imp (p := fun pair : JsString × ℕ => isRowLine pair.1) hother
  obtain ⟨rest, hrest⟩ := List.takeWhile_prefix
    (l := lines.zipIdx.drop (header.headerLine + 1)) fun pair : JsString × ℕ => isRowLine pair.1
  rw [hsplit, List.append_assoc, List.cons_append] at hrest
  -- the numbered lines up to the row, cut below the header
  have hlength : header.headerLine + 1 ≤ lines.zipIdx.length := by
    have := congrArg List.length hrest
    simp only [List.length_append, List.length_cons, List.length_drop] at this
    omega
  have hwhole : lines.zipIdx = (lines.zipIdx.take (header.headerLine + 1) ++ front) ++
      (line, row.lineIndex) :: (back ++ rest) := by
    rw [List.append_assoc, hrest, List.take_append_drop]
  have htake : (lines.zipIdx.take (header.headerLine + 1)).length = header.headerLine + 1 :=
    List.length_take_of_le hlength
  generalize lines.zipIdx.take (header.headerLine + 1) = top at hwhole htake
  have hlines := congrArg (List.map Prod.fst) hwhole
  rw [List.map_append, List.map_cons, List.zipIdx_map_fst] at hlines
  have hindex : row.lineIndex = (top ++ front).length := by
    have hget := congrArg (fun pairs => pairs[(top ++ front).length]?) hwhole
    simp only [List.getElem?_zipIdx, List.getElem?_append_right (Nat.le_refl _), Nat.sub_self,
      List.getElem?_cons_zero, Option.map_eq_some_iff, Prod.mk.injEq] at hget
    obtain ⟨_, -, -, heq⟩ := hget
    omega
  have hzip : ((top ++ front).map Prod.fst).zipIdx = top ++ front := by
    rw [hlines, List.zipIdx_append] at hwhole
    exact (List.append_inj hwhole (by simp)).1
  refine ⟨_, line, _, hlines, by rw [List.length_map, hindex], ?_,
    hrows (line, row.lineIndex) (by simp), hread, ?_⟩
  · rw [List.length_map, List.length_append]
    omega
  · rw [hzip, List.drop_append_of_le_length (Nat.le_of_eq htake.symm), ← htake, List.drop_length]
    exact fun pair hpair => hrows pair (List.mem_append_left _ hpair)

/-- Setting the status of a row sets it in the rows and changes nothing else. -/
theorem readRows_setStatusCell (hstatus : StatusWord casing status)
    (hheader : findInventoryHeader casing lines = some header)
    (hrow : row ∈ readRows header lines) :
    ∃ before after, readRows header lines = before ++ row :: after ∧
      findInventoryHeader casing (lines.modify row.lineIndex
        (setStatusCell header.statusColumn status)) = some header ∧
      readRows header (lines.modify row.lineIndex (setStatusCell header.statusColumn status)) =
        before ++ { row with status := status } :: after := by
  obtain ⟨before, line, after, rfl, hindex, hbelow, hline, hread, hbefore⟩ :=
    exists_line_of_mem_readRows hrow
  obtain ⟨headerText, -, headerIndex, hheaderText⟩ := exists_readHeader hheader
  have hread' := readRow_setStatusCell hstatus hline (readHeader_eq_some hheaderText).2 hread
  have hline' := (parseCells_setStatusCell hline header.statusColumn hstatus.no_pipe).1
  have hzip (line : JsString) : readRows header (before ++ line :: after) = rowsFrom header
      (before.zipIdx.drop (header.headerLine + 1) ++ (line, row.lineIndex) ::
        after.zipIdx (row.lineIndex + 1)) := by
    rw [readRows, List.zipIdx_append, List.zipIdx_cons, List.drop_append_of_le_length
      (by rw [List.length_zipIdx]; exact hbelow), Nat.zero_add, hindex]
  have hmodify : (before ++ line :: after).modify row.lineIndex
      (setStatusCell header.statusColumn status) =
        before ++ setStatusCell header.statusColumn status line :: after := by
    rw [← hindex, List.modify_eq_take_cons_drop (by simp), List.take_left, List.drop_append,
      List.getElem_append_right (Nat.le_refl _)]
    simp
  rw [hmodify, hzip, hzip, rowsFrom_append hbefore hline hread,
    rowsFrom_append hbefore hline' hread']
  exact ⟨_, _, rfl, findInventoryHeader_setStatusCell hstatus hline hheader hbelow, rfl⟩

/-- The only row of a phase among the rows. -/
theorem map_setStatus {before after : List InventoryRow} {phaseNumber : ℕ}
    (h : (before ++ row :: after).filter (fun row => row.phaseNumber == phaseNumber) = [row]) :
    before ++ { row with status := status } :: after =
      (before ++ row :: after).map fun other =>
        if other.phaseNumber = phaseNumber then { other with status := status } else other := by
  have hself : row.phaseNumber = phaseNumber := by
    have hmem : row ∈ (before ++ row :: after).filter fun row => row.phaseNumber == phaseNumber :=
      h ▸ List.mem_singleton_self row
    simpa using (List.mem_filter.mp hmem).2
  rw [List.filter_append, List.filter_cons_of_pos (by simpa using hself)] at h
  have hbefore : before.filter (fun row => row.phaseNumber == phaseNumber) = [] := by
    have := congrArg List.length h
    simp only [List.length_append, List.length_cons, List.length_nil] at this
    exact List.eq_nil_of_length_eq_zero (by omega)
  have hafter : after.filter (fun row => row.phaseNumber == phaseNumber) = [] := by
    rw [hbefore] at h
    exact (List.cons.inj h).2
  have hother {rows : List InventoryRow}
      (hrows : rows.filter (fun row => row.phaseNumber == phaseNumber) = []) :
      rows.map (fun other => if other.phaseNumber = phaseNumber then
        { other with status := status } else other) = rows := by
    refine (List.map_congr_left fun other hmem => ?_).trans (List.map_id rows)
    rw [if_neg (by simpa using List.filter_eq_nil_iff.mp hrows other hmem), id]
  rw [List.map_append, List.map_cons, hother hbefore, hother hafter, if_pos hself]

/-- **A status update.** The inventory that is read back is the old one with the
new status in the row of the phase. -/
theorem readInventoryRows_replace (hstatus : StatusWord casing status) {markdown text : JsString}
    {phaseNumber : ℕ}
    (h : replaceFeatureTasksPhaseStatus casing markdown phaseNumber status = some text) :
    readInventoryRows casing text = (readInventoryRows casing markdown).map fun row =>
      if row.phaseNumber = phaseNumber then { row with status := status } else row := by
  unfold replaceFeatureTasksPhaseStatus at h
  dsimp only at h
  split at h
  · rename_i header row hheader hfilter
    cases h
    have hrows : readInventoryRows casing markdown = readRows header (splitLines markdown) := by
      rw [readInventoryRows, hheader]
    have hmem : row ∈ readRows header (splitLines markdown) := by
      have hfiltered : row ∈ [row] := List.mem_singleton_self row
      rw [← hfilter, hrows] at hfiltered
      exact (List.mem_filter.mp hfiltered).1
    obtain ⟨before, after, hsplit, hheader', hset⟩ := readRows_setStatusCell hstatus hheader hmem
    obtain ⟨n, n', hblank⟩ := map_trim_splitLines_trimEnd (joinLines ((splitLines markdown).modify
      row.lineIndex (setStatusCell header.statusColumn status)))
    rw [map_trim_splitLines_joinLines _ _] at hblank
    · rw [readInventoryRows_eq, readLines_congr hblank, readLines, hheader']
      rw [hrows, hsplit] at hfilter ⊢
      exact hset.trans (map_setStatus hfilter)
    · simpa using splitLines_ne_nil markdown
    · intro line hline
      obtain ⟨i, hi, rfl⟩ := List.mem_iff_getElem.mp hline
      rw [List.getElem_modify]
      rw [List.length_modify] at hi
      have hold := not_mem_of_mem_splitLines (List.getElem_mem hi)
      split
      · exact fun hu => (mem_setStatusCell hu).elim (by decide) fun hu =>
          hu.elim hold (hstatus.no_lineFeed)
      · exact hold
  · cases h

end SetStatus

end Hepha.Reconcile
