import Hepha.Delivery.Section
import Hepha.Js.Joined
import Hepha.Js.Value

/-!
# Updates of the delivery section

The section that is written begins with an empty line, and an update replaces
a section from its heading on.  The empty line above the heading stays, and a
second one is written below it: each update adds a line.

## Strategy

What stands below the section after an update is left as it is by the next
one: it begins with the next heading, or has neither such a heading nor a
row of a table (`settled_drop_bodyLength`).  The lines of an updated document
are therefore known (`Updated`), and so is what the next update makes of them
(`update_updated`).
-/

namespace Hepha.Delivery

open JsString

/-! ## The extent of a section -/

/-- Lines that no update takes into the section above them. -/
def Settled (lines : List JsString) : Prop :=
  (∃ line rest, lines = line :: rest ∧ isNextHeading line = true) ∨
    ∀ line ∈ lines, isNextHeading line = false ∧ isTableRow line = false

theorem bodyLength_cons (position : ℕ) (lastTableRow : Option ℕ) (line : JsString)
    (rest : List JsString) : bodyLength position lastTableRow (line :: rest) =
      if isNextHeading line then position
      else bodyLength (position + 1) (if isTableRow line then some position else lastTableRow)
        rest := by
  cases lastTableRow <;> rfl

theorem settled_drop {done rest : List JsString} {lastTableRow : Option ℕ}
    (hheadings : ∀ line ∈ done, isNextHeading line = false)
    (hnone : lastTableRow = none → ∀ line ∈ done, isTableRow line = false)
    (hsome : ∀ row, lastTableRow = some row → row < done.length ∧
      ∀ line ∈ done.drop (row + 1), isTableRow line = false) :
    Settled ((done ++ rest).drop (bodyLength done.length lastTableRow rest)) := by
  induction rest generalizing done lastTableRow with
  | nil =>
      rw [List.append_nil]
      cases lastTableRow with
      | none =>
          rw [bodyLength, List.drop_length]
          exact .inr fun line hline => absurd hline List.not_mem_nil
      | some row =>
          exact .inr fun line hline =>
            ⟨hheadings line (List.mem_of_mem_drop hline), (hsome row rfl).2 line hline⟩
  | cons line rest ih =>
      rw [bodyLength_cons]
      split
      · rename_i hnext
        rw [List.drop_left]
        exact .inl ⟨line, rest, rfl, hnext⟩
      · rename_i hnext
        have hnext : isNextHeading line = false := Bool.eq_false_iff.mpr hnext
        have hlength : done.length + 1 = (done ++ [line]).length := by simp
        rw [List.append_cons done line rest, hlength]
        apply ih
        · intro other hother
          rcases List.mem_append.mp hother with hother | hother
          · exact hheadings other hother
          · rwa [List.mem_singleton.mp hother]
        · intro hlast
          split at hlast
          · cases hlast
          · rename_i hrow
            intro other hother
            rcases List.mem_append.mp hother with hother | hother
            · exact hnone hlast other hother
            · rw [List.mem_singleton.mp hother]
              exact Bool.eq_false_iff.mpr hrow
        · intro row hlast
          split at hlast
          · obtain rfl := Option.some.inj hlast
            refine ⟨by simp, fun other hother => ?_⟩
            rw [hlength, List.drop_length] at hother
            cases hother
          · rename_i hrow
            obtain ⟨hlt, hrows⟩ := hsome row hlast
            refine ⟨by simp; omega, fun other hother => ?_⟩
            rw [List.drop_append_of_le_length hlt] at hother
            rcases List.mem_append.mp hother with hother | hother
            · exact hrows other hother
            · rw [List.mem_singleton.mp hother]
              exact Bool.eq_false_iff.mpr hrow

/-- What stands below a section. -/
theorem settled_drop_bodyLength (lines : List JsString) :
    Settled (lines.drop (bodyLength 0 none lines)) :=
  @settled_drop [] lines none (by simp) (by simp) (by simp)

theorem bodyLength_settled {after : List JsString} {row : ℕ} (h : Settled after) :
    bodyLength (row + 1) (some row) after = row + 1 := by
  rcases h with ⟨line, rest, rfl, hline⟩ | h
  · rw [bodyLength, if_pos hline]
  · have hstays : ∀ position, bodyLength position (some row) after = row + 1 := by
      induction after with
      | nil => exact fun _ => rfl
      | cons line rest ih =>
          intro position
          obtain ⟨hnext, hrow⟩ := h line List.mem_cons_self
          rw [bodyLength, if_neg (by simp [hnext]), if_neg (by simp [hrow])]
          exact ih (fun other hother => h other (List.mem_cons_of_mem _ hother)) _
    exact hstays _

theorem bodyLength_rows {rows after : List JsString} {position : ℕ} {lastTableRow : Option ℕ}
    (hrows : ∀ line ∈ rows, isNextHeading line = false ∧ isTableRow line = true)
    (hne : rows ≠ []) (h : Settled after) :
    bodyLength position lastTableRow (rows ++ after) = position + rows.length := by
  induction rows generalizing position lastTableRow with
  | nil => exact absurd rfl hne
  | cons line rest ih =>
      obtain ⟨hnext, hrow⟩ := hrows line List.mem_cons_self
      have hstep : bodyLength position lastTableRow (line :: rest ++ after) =
          bodyLength (position + 1) (some position) (rest ++ after) := by
        rw [List.cons_append, bodyLength_cons, if_neg (by simp [hnext]), if_pos hrow]
      rw [hstep]
      by_cases hrest : rest = []
      · rw [hrest, List.nil_append, bodyLength_settled h]
        rfl
      · rw [ih (fun other hother => hrows other (List.mem_cons_of_mem _ hother)) hrest,
          List.length_cons]
        omega

/-! ## The written rows -/

/-- What a configuration must be for its table to be read again. -/
structure ConfigValid (config : ParsedDeliveryConfig) : Prop where
  branch_ne_nil : config.targetBranch ≠ []
  branch_trim : config.targetBranch.trim = config.targetBranch
  branch_units : ∀ u ∈ config.targetBranch, u ≠ 0x7C ∧ u ≠ 0x0A ∧ u ≠ 0x0D
  githubIssue : ∀ n ∈ config.githubIssue, 0 < n ∧ n ≤ maxSafeInteger
  pullRequest : ∀ n ∈ config.pullRequest, 0 < n ∧ n ≤ maxSafeInteger

/-- A row of a table that ends in a pipe. -/
def IsRow (line : JsString) : Prop :=
  ∃ cells, line = 0x7C :: (cells ++ [0x7C]) ∧ 0x0A ∉ cells

theorem trim_row {line : JsString} (h : IsRow line) : line.trim = line := by
  obtain ⟨cells, rfl, -⟩ := h
  refine trim_eq_self_iff.2 ⟨?_, ?_⟩
  · rw [List.map_cons, List.head?_cons]
    decide
  · rw [← List.cons_append, List.map_append, List.map_singleton, List.getLast?_append,
      List.getLast?_singleton, Option.some_or]
    decide

theorem isTableRow_row {line : JsString} (h : IsRow line) :
    isNextHeading line = false ∧ isTableRow line = true ∧ isDeliveryHeading line = false := by
  have htrim := trim_row h
  obtain ⟨cells, rfl, -⟩ := h
  rw [isNextHeading, isTableRow, isDeliveryHeading, htrim]
  have hpipe : js "|" = [0x7C] := by decide
  have hsharps : js "## " = [0x23, 0x23, 0x20] := by decide
  have hheader : deliverySectionHeader = 0x23 :: deliverySectionHeader.tail := by decide
  refine ⟨?_, ?_, ?_⟩
  · simp [startsWith, hsharps, List.isPrefixOf]
  · simp [startsWith, hpipe, List.isPrefixOf]
  · rw [hheader, beq_eq_false_iff_ne]
    exact fun heq => absurd (List.cons.inj heq).1 (by decide)

theorem isRow_tableRow {field : String} {value : JsString} (hfield : 0x0A ∉ js field)
    (hvalue : 0x0A ∉ value) : IsRow (tableRow field value) := by
  have hopen : js "| " = [0x7C, 0x20] := by decide
  have hmiddle : js " | " = [0x20, 0x7C, 0x20] := by decide
  have hclose : js " |" = [0x20, 0x7C] := by decide
  refine ⟨0x20 :: (js field ++ ([0x20, 0x7C, 0x20] ++ (value ++ [0x20]))), ?_, ?_⟩
  · rw [tableRow, hopen, hmiddle, hclose]
    simp
  · simp [hfield, hvalue]

theorem lineFeed_issueText (number : Option ℕ) : 0x0A ∉ issueText number := by
  cases number with
  | none => exact List.not_mem_nil
  | some n =>
      cases n with
      | zero => exact List.not_mem_nil
      | succ n =>
          intro hmem
          rcases List.mem_cons.mp hmem with heq | hmem
          · cases heq
          · exact absurd (isDigit_of_mem_decimalText hmem) (by decide)

/-- The rows of a section below its heading and the empty line. -/
def tableRows (config : ParsedDeliveryConfig) : List JsString :=
  (sectionRows config).drop 2

theorem isRow_tableRows {config : ParsedDeliveryConfig} (hconfig : ConfigValid config)
    {line : JsString} (hline : line ∈ tableRows config) : IsRow line := by
  have hbranch : 0x0A ∉ config.targetBranch := fun hmem => (hconfig.branch_units _ hmem).2.1 rfl
  simp only [tableRows, sectionRows, List.drop_succ_cons, List.drop_zero, List.mem_cons,
    List.not_mem_nil, or_false] at hline
  rcases hline with rfl | rfl | rfl | rfl | rfl | rfl | rfl | rfl | rfl
  · exact ⟨js " Field | Value ", by decide, by decide⟩
  · exact ⟨js " --- | --- ", by decide, by decide⟩
  · exact isRow_tableRow (by decide) (by cases config.deliveryMode <;> decide)
  · exact isRow_tableRow (by decide) hbranch
  · exact isRow_tableRow (by decide) (lineFeed_issueText _)
  · exact isRow_tableRow (by decide) (by cases config.issueRole <;> decide)
  · exact isRow_tableRow (by decide) (by cases config.issueUpdateMode <;> decide)
  · exact isRow_tableRow (by decide) (lineFeed_issueText _)
  · exact isRow_tableRow (by decide) (by cases config.deliveryStatus <;> decide)

theorem sectionRows_eq (config : ParsedDeliveryConfig) :
    sectionRows config = deliverySectionHeader :: [] :: tableRows config :=
  rfl

/-! ## Updated documents -/

/-- The lines of a document with the section, between lines that are not its heading. -/
def updatedLines (before : List JsString) (config : ParsedDeliveryConfig)
    (after : List JsString) : List JsString :=
  before ++ [] :: sectionRows config ++ after

/-- Lines around a section. -/
structure Around (before after : List JsString) : Prop where
  before_heading : ∀ line ∈ before, isDeliveryHeading line = false
  after_heading : ∀ line ∈ after, isDeliveryHeading line = false
  settled : Settled after
  before_feed : ∀ line ∈ before, 0x0A ∉ line ∧ line.getLast? ≠ some 0x0D
  after_feed : ∀ line ∈ after, 0x0A ∉ line
  after_return : ∀ line ∈ after.dropLast, line.getLast? ≠ some 0x0D

section Updated

variable {before after : List JsString} {config : ParsedDeliveryConfig}

theorem getLast?_row {line : JsString} (h : IsRow line) : line.getLast? = some 0x7C := by
  obtain ⟨cells, rfl, -⟩ := h
  rw [← List.cons_append, List.getLast?_append, List.getLast?_singleton, Option.some_or]

theorem feed_sectionRows (hconfig : ConfigValid config) {line : JsString}
    (hline : line ∈ [] :: sectionRows config) : 0x0A ∉ line ∧ line.getLast? ≠ some 0x0D := by
  rw [sectionRows_eq] at hline
  rcases List.mem_cons.mp hline with rfl | hline
  · decide
  · rcases List.mem_cons.mp hline with rfl | hline
    · decide
    · rcases List.mem_cons.mp hline with rfl | hline
      · decide
      · have hrow := isRow_tableRows hconfig hline
        refine ⟨?_, by rw [getLast?_row hrow]; decide⟩
        obtain ⟨cells, rfl, hcells⟩ := hrow
        simp [hcells]

/-- The section without the line feed at its end. -/
theorem trimEnd_render (hconfig : ConfigValid config) :
    (renderDeliverySection config).trimEnd = joinLines ([] :: sectionRows config) ∧
      (joinLines ([] :: sectionRows config)).trimEnd = joinLines ([] :: sectionRows config) := by
  obtain ⟨front, row, hrow, hfront, hrows⟩ : ∃ front row, IsRow row ∧ front ≠ [] ∧
      [] :: sectionRows config = front ++ [row] :=
    ⟨[] :: (sectionRows config).dropLast,
      tableRow "Delivery Status" (js config.deliveryStatus.word),
      isRow_tableRows hconfig (by simp [tableRows, sectionRows]), List.cons_ne_nil _ _, rfl⟩
  have hlast : (joinLines ([] :: sectionRows config)).getLast? = some 0x7C := by
    have hsingle : joinLines [row] = row := by simp [joinLines]
    rw [hrows, joinLines_append hfront (List.cons_ne_nil _ _), hsingle, List.getLast?_append,
      List.getLast?_cons, getLast?_row hrow]
    rfl
  constructor
  · rw [renderDeliverySection, joinLines_append (List.cons_ne_nil _ _) (List.cons_ne_nil _ _)]
    exact trimEnd_append_white hlast (by decide) (by simp [joinLines]; decide)
  · have h := @trimEnd_append_white _ [] _ hlast (by decide) (by simp)
    rwa [List.append_nil] at h

theorem splitLines_updatedLines (hconfig : ConfigValid config) (h : Around before after) :
    splitLines (joinLines (updatedLines before config after)) =
      updatedLines before config after := by
  have hfront : ∀ line ∈ before ++ [] :: sectionRows config,
      0x0A ∉ line ∧ line.getLast? ≠ some 0x0D := by
    intro line hline
    rcases List.mem_append.mp hline with hline | hline
    · exact h.before_feed line hline
    · exact feed_sectionRows hconfig hline
  refine splitLines_joinLines_of_dropLast (by simp [updatedLines]) ?_ ?_
  · intro line hline
    rcases List.mem_append.mp hline with hline | hline
    · exact (hfront line hline).1
    · exact h.after_feed line hline
  · intro line hline
    rw [updatedLines, List.dropLast_append] at hline
    split at hline
    · exact (hfront line (List.mem_of_mem_dropLast hline)).2
    · rcases List.mem_append.mp hline with hline | hline
      · exact (hfront line hline).2
      · exact h.after_return line hline

theorem updateDeliverySection_some (hconfig : ConfigValid config) {document : JsString}
    {sectionStart : ℕ} (h : findSectionStart (splitLines document) = .ok (some sectionStart)) :
    updateDeliverySection document config = .ok (joinLines (updatedLines
      ((splitLines document).take sectionStart) config
        ((splitLines document).drop (findSectionEnd (splitLines document) sectionStart)))) := by
  obtain ⟨hrender, hself⟩ := trimEnd_render hconfig
  rw [updateDeliverySection, h]
  change Except.ok _ = _
  rw [hrender, hself, joinLines_nested (List.cons_ne_nil _ _)]
  rfl

theorem filter_heading_eq_nil {lines : List JsString}
    (h : ∀ line ∈ lines, isDeliveryHeading line = false) : lines.filter isDeliveryHeading = [] :=
  List.filter_eq_nil_iff.mpr fun line hline => by simp [h line hline]

/-- An update of an updated document adds an empty line. -/
theorem update_updated (hconfig : ConfigValid config) (h : Around before after) :
    updateDeliverySection (joinLines (updatedLines before config after)) config =
      .ok (joinLines (updatedLines (before ++ [[]]) config after)) := by
  have hsplit := splitLines_updatedLines hconfig h
  have hlines : updatedLines before config after =
      (before ++ [[]]) ++ deliverySectionHeader :: ([] :: (tableRows config ++ after)) := by
    simp [updatedLines, sectionRows_eq]
  have hempty : isDeliveryHeading [] = false := by decide
  have hheader : isDeliveryHeading deliverySectionHeader = true := by decide
  have hfront : ∀ line ∈ before ++ [[]], isDeliveryHeading line = false := by
    intro line hline
    rcases List.mem_append.mp hline with hline | hline
    · exact h.before_heading line hline
    · rwa [List.mem_singleton.mp hline]
  have hback : ∀ line ∈ [] :: (tableRows config ++ after), isDeliveryHeading line = false := by
    intro line hline
    rcases List.mem_cons.mp hline with rfl | hline
    · exact hempty
    · rcases List.mem_append.mp hline with hline | hline
      · exact (isTableRow_row (isRow_tableRows hconfig hline)).2.2
      · exact h.after_heading line hline
  have hstart : findSectionStart (updatedLines before config after) =
      .ok (some (before ++ [[]]).length) := by
    rw [findSectionStart, hlines, List.filter_append, filter_heading_eq_nil hfront,
      List.filter_cons_of_pos hheader, filter_heading_eq_nil hback, if_neg (by simp),
      List.findIdx?_append, List.findIdx?_eq_none_iff.mpr hfront, List.findIdx?_cons, hheader]
    simp
  have hend : findSectionEnd (updatedLines before config after) (before ++ [[]]).length =
      (before ++ [[]]).length + 2 + (tableRows config).length := by
    have hdrop : (updatedLines before config after).drop ((before ++ [[]]).length + 1) =
        [] :: (tableRows config ++ after) := by
      rw [hlines, List.drop_append]
      simp
    rw [findSectionEnd, hdrop, bodyLength_cons, if_neg (by decide), if_neg (by decide),
      bodyLength_rows (fun line hline => ?_) (by simp [tableRows, sectionRows]) h.settled]
    · omega
    · obtain ⟨hnext, hrow, -⟩ := isTableRow_row (isRow_tableRows hconfig hline)
      exact ⟨hnext, hrow⟩
  have hupdate := updateDeliverySection_some hconfig (hsplit.symm ▸ hstart)
  rw [hsplit, hend] at hupdate
  have htake : (updatedLines before config after).take (before ++ [[]]).length =
      before ++ [[]] := by
    rw [hlines, List.take_left]
  have hafter : (updatedLines before config after).drop
      ((before ++ [[]]).length + 2 + (tableRows config).length) = after := by
    have hlength : (before ++ [[]]).length + 2 + (tableRows config).length =
        (before ++ [] :: sectionRows config).length := by
      simp [sectionRows_eq]
      omega
    rw [hlength, updatedLines, List.drop_left]
  rw [hupdate, htake, hafter]

/-- What an update makes of a document. -/
theorem exists_around (hconfig : ConfigValid config) {document updated : JsString}
    (hfeeds : HasLineFeeds document) (h : updateDeliverySection document config = .ok updated) :
    ∃ before after, Around before after ∧
      updated = joinLines (updatedLines before config after) := by
  cases hstart : findSectionStart (splitLines document) with
  | error message =>
      rw [updateDeliverySection, hstart] at h
      cases h
  | ok sectionStart =>
      have hcount : ((splitLines document).filter isDeliveryHeading).length ≤ 1 ∧
          (splitLines document).findIdx? isDeliveryHeading = sectionStart := by
        rw [findSectionStart] at hstart
        split at hstart
        · cases hstart
        · rename_i hle
          exact ⟨Nat.le_of_not_lt hle, Except.ok.inj hstart⟩
      cases sectionStart with
      | none =>
          have hnone := List.findIdx?_eq_none_iff.mp hcount.2
          obtain ⟨white, hwhole, hwhite⟩ := exists_trimEnd_append document
          have hlast : (trimEnd document).getLast? ≠ some 0x0D := fun hlast =>
            absurd (getLast?_trimEnd hlast) (by decide)
          have htrimmed : HasLineFeeds (trimEnd document) := fun hinfix =>
            hfeeds ( hinfix.trans ⟨[], white, by simpa using hwhole.symm⟩)
          obtain ⟨front, last, hlines⟩ := exists_splitLines_concat (trimEnd document)
          obtain ⟨first, rest, hfirst⟩ := exists_splitLines_cons white
          have hdocument := splitLines_append hlines hfirst (.inl hlast)
          rw [← hwhole] at hdocument
          have hrender := (trimEnd_render hconfig).1
          refine ⟨splitLines (trimEnd document), [[]], ⟨?_, ?_, ?_, ?_, ?_, ?_⟩, ?_⟩
          · intro line hline
            rw [hlines] at hline
            rcases List.mem_append.mp hline with hline | hline
            · refine hnone line ?_
              rw [hdocument]
              exact List.mem_append_left _ hline
            · -- the line goes on in white space
              rw [List.mem_singleton.mp hline]
              have hend := hnone (last ++ first) (by rw [hdocument]; simp)
              rwa [isDeliveryHeading, trim_append_white] at hend
              intro u hu
              exact hwhite u (mem_of_mem_splitLines (hfirst ▸ List.mem_cons_self) hu)
          · intro line hline
            rw [List.mem_singleton.mp hline]
            decide
          · exact .inr fun line hline => by
              rw [List.mem_singleton.mp hline]
              decide
          · intro line hline
            refine ⟨not_mem_of_mem_splitLines hline, ?_⟩
            rw [hlines] at hline
            rcases List.mem_append.mp hline with hline | hline
            · refine getLast?_of_mem_dropLast_splitLines htrimmed ?_
              rwa [hlines, List.dropLast_concat]
            · rw [List.mem_singleton.mp hline]
              intro hreturn
              obtain ⟨start, hstart⟩ := List.getLast?_eq_some_iff.mp hreturn
              refine hlast ?_
              have hjoin := joinLines_splitLines htrimmed
              rw [hlines, hstart] at hjoin
              by_cases hempty : front = []
              · rw [← hjoin, hempty]
                simp [joinLines]
              · rw [← hjoin, joinLines_append hempty (List.cons_ne_nil _ _)]
                simp [joinLines, List.getLast?_append, List.getLast?_cons]
          · simp
          · simp
          · rw [updateDeliverySection, hstart] at h
            obtain rfl := Except.ok.inj h
            have hjoin : joinLines (updatedLines (splitLines (trimEnd document)) config [[]]) =
                trimEnd document ++ 0x0A :: (joinLines ([] :: sectionRows config) ++ 0x0A ::
                  joinLines [[]]) := by
              rw [updatedLines, List.append_assoc, joinLines_append (splitLines_ne_nil _) (by simp),
                joinLines_splitLines htrimmed,
                joinLines_append (List.cons_ne_nil _ _) (List.cons_ne_nil _ _)]
            rw [hjoin, hrender]
            simp [joinLines]
      | some sectionStart =>
          have hindex := List.findIdx?_eq_some_iff_getElem.mp hcount.2
          obtain ⟨hlt, hheading, hbefore⟩ := hindex
          rw [updateDeliverySection_some hconfig hstart] at h
          obtain rfl := Except.ok.inj h
          have hafter : ∃ n, findSectionEnd (splitLines document) sectionStart =
              sectionStart + 1 + n ∧
                Settled ((splitLines document).drop (sectionStart + 1 + n)) := by
            refine ⟨_, rfl, ?_⟩
            rw [← List.drop_drop]
            exact settled_drop_bodyLength _
          obtain ⟨n, hend, hsettled⟩ := hafter
          rw [hend]
          refine ⟨_, _, ⟨?_, ?_, hsettled, ?_, ?_, ?_⟩, rfl⟩
          · intro line hline
            obtain ⟨i, hi, rfl⟩ := List.mem_take_iff_getElem.mp hline
            exact Bool.eq_false_iff.mpr (hbefore i (by omega))
          · intro line hline
            -- the heading at the start is the only one
            by_contra hother
            have htwo : 2 ≤ ((splitLines document).filter isDeliveryHeading).length := by
              rw [← List.take_append_drop (sectionStart + 1) (splitLines document),
                List.filter_append, List.length_append]
              have hfirst : 0 < (((splitLines document).take (sectionStart + 1)).filter
                  isDeliveryHeading).length := by
                refine List.length_pos_of_mem (List.mem_filter.mpr ⟨?_, hheading⟩)
                exact List.mem_take_iff_getElem.mpr ⟨sectionStart, by omega, rfl⟩
              have hsecond : 0 < (((splitLines document).drop (sectionStart + 1)).filter
                  isDeliveryHeading).length := by
                rw [← List.drop_drop] at hline
                exact List.length_pos_of_mem (List.mem_filter.mpr
                  ⟨List.mem_of_mem_drop hline, by simpa using hother⟩)
              omega
            omega
          · intro line hline
            refine ⟨not_mem_of_mem_splitLines (List.mem_of_mem_take hline),
              getLast?_of_mem_dropLast_splitLines hfeeds ?_⟩
            rw [List.dropLast_eq_take]
            obtain ⟨i, hi, rfl⟩ := List.mem_take_iff_getElem.mp hline
            exact List.mem_take_iff_getElem.mpr ⟨i, by omega, rfl⟩
          · exact fun line hline => not_mem_of_mem_splitLines (List.mem_of_mem_drop hline)
          · intro line hline
            refine getLast?_of_mem_dropLast_splitLines hfeeds ?_
            rw [List.dropLast_drop_eq_drop_dropLast] at hline
            exact List.mem_of_mem_drop hline

end Updated

/-! ## The result -/

/-- A second update with the same configuration adds an empty line. -/
theorem update_twice {document updated : JsString} {config : ParsedDeliveryConfig}
    (hfeeds : HasLineFeeds document) (hconfig : ConfigValid config)
    (h : updateDeliverySection document config = .ok updated) :
    ∃ again, updateDeliverySection updated config = .ok again ∧
      again.length = updated.length + 1 := by
  obtain ⟨before, after, haround, rfl⟩ := exists_around hconfig hfeeds h
  refine ⟨_, update_updated hconfig haround, ?_⟩
  have hlength := @length_joinLines_nil before ([] :: sectionRows config ++ after) (by simp)
  simpa [updatedLines] using hlength

/-- The lines of a document other than the delivery heading, the rows of its table and blank
lines. -/
def otherLines (lines : List JsString) : List JsString :=
  let kept := match lines.findIdx? isDeliveryHeading with
    | none => lines
    | some sectionStart =>
        let below := lines.drop (sectionStart + 1)
        lines.take sectionStart ++
          (below.takeWhile fun line => !isNextHeading line).filter (fun line => !isTableRow line) ++
          below.dropWhile fun line => !isNextHeading line
  kept.filter fun line => !line.trim.isEmpty

/-- The configuration that is written into a document is read from it, all other lines stay,
and the same update once more changes nothing. -/
def UpdateSound (casing : Casing) (document : JsString) (config : ParsedDeliveryConfig) : Prop :=
  ∃ updated, updateDeliverySection document config = .ok updated ∧
    parseDeliverySection casing updated = .ok config ∧
    (otherLines (splitLines document)).Sublist (splitLines updated) ∧
    updateDeliverySection updated config = .ok updated

/-- **No update is stable.** The same update once more changes every document. -/
theorem not_updateSound (casing : Casing) (document : JsString) (config : ParsedDeliveryConfig)
    (hfeeds : HasLineFeeds document) (hconfig : ConfigValid config) :
    ¬UpdateSound casing document config := by
  rintro ⟨updated, hupdate, -, -, hstable⟩
  obtain ⟨again, hagain, hlength⟩ := update_twice hfeeds hconfig hupdate
  rw [hstable] at hagain
  obtain rfl := Except.ok.inj hagain
  omega

theorem hasLineFeeds_nil : HasLineFeeds [] :=
  fun h => absurd (List.infix_nil.mp h) (List.cons_ne_nil _ _)

theorem configValid_default : ConfigValid createDefaultConfig where
  branch_ne_nil := by decide
  branch_trim := by decide
  branch_units u hu := by
    have hall : createDefaultConfig.targetBranch.all
      (fun u => u != 0x7C && u != 0x0A && u != 0x0D) = true := by decide
    simpa [and_assoc] using List.all_eq_true.mp hall u hu
  githubIssue _ h := nomatch h
  pullRequest _ h := nomatch h

theorem not_updateSound_empty : ¬UpdateSound .ascii [] createDefaultConfig :=
  not_updateSound .ascii [] createDefaultConfig hasLineFeeds_nil configValid_default

/-- **A document that grows.** -/
theorem empty_document_grows :
    ¬∀ (casing : Casing) (document : JsString) (config : ParsedDeliveryConfig),
      HasLineFeeds document →
        ((splitLines document).filter isDeliveryHeading).length ≤ 1 →
          ConfigValid config → UpdateSound casing document config := by
  intro h
  obtain ⟨updated, hupdate, -, -, hstable⟩ :=
    h .ascii [] createDefaultConfig hasLineFeeds_nil (by decide) configValid_default
  obtain ⟨again, hagain, hlength⟩ := update_twice hasLineFeeds_nil configValid_default hupdate
  rw [hstable] at hagain
  obtain rfl := Except.ok.inj hagain
  omega

end Hepha.Delivery
