import Hepha.Phases.Parity

/-!
# The ledger that parity checks and the tasks that are executed

Where the validator finds nothing wrong, every declared task should be executed
with the checkbox that the validator matched to it.  The validator and the ledger
parser differ in three ways that break this:

* the validator's section goes up to the next `## `, while a heading of another
  level, or an indented one, changes the section of the ledger parser;
* the parser cuts the text of a task at 240 units, and with it a long marker;
* the parser also reads checkboxes that the validator does not, those in progress
  and those in other sections of the same name, and the last one with a marker is
  executed.

On documents with none of this the two agree, and only there.
-/

namespace Hepha.Phases

open JsString Pattern

/-! ## The property -/

/-- The entries that the validator matches to the tasks. -/
def matchedEntries (markdown : JsString) : List ParityEntry :=
  match (splitLines markdown).findIdx? isParityHeading with
  | none => []
  | some headingIndex => parityEntries (splitLines markdown) headingIndex

/-- The checkbox of a line is checked. -/
def isChecked (line : JsString) : Bool :=
  (splitCheckbox line).any fun box => statusOf box.mark == .completed

/-- The `[a-z0-9][a-z0-9-]*` of a marker, with the flag `i`. -/
def isContractTaskId (id : JsString) : Bool :=
  id.head?.any isIdStart && id.all isIdUnit

section Property

variable (casing : Casing) (phaseNumber : Option ℕ) (markdown : JsString)

/-- Exactly one item is executed for each declared task, in their order, and it is
the checkbox that the validator matched to the task. -/
def Bound (phase : PhaseExecutionContractPhase) : Prop :=
  List.Forall₂ (fun task item => ∃ entry ∈ matchedEntries markdown,
      entry.taskId = some task.id ∧ item.lineNumber = entry.line ∧
        ((splitLines markdown)[entry.line - 1]?).map isChecked = some item.checked)
    phase.tasks
    (selectDeclaredOrderedLedgerItems casing (extractPhaseTaskLedger casing markdown phaseNumber)
      (phase.tasks.map PhaseExecutionTaskContract.id))

/-- The state of the ledger parser before a line. -/
def stateAt (k : ℕ) : LedgerState :=
  ((splitLines markdown).take k).foldl
    (LedgerState.step casing phaseNumber ((splitLines markdown).any startsExplicitLedger))
    (initialLedgerState ((splitLines markdown).any startsExplicitLedger))

/-- A line stands in the ledger, in a section of its name. -/
def OnLedger (k : ℕ) : Prop :=
  (stateAt casing phaseNumber markdown k).insideExplicitLedger = true ∧
    inLedgerSection casing (stateAt casing phaseNumber markdown k).heading = true

/-- A line is a checkbox whose text, as the ledger keeps it, has the marker of a task. -/
def Carries (line id : JsString) : Prop :=
  ∃ mark text, readLine line = .checkbox mark text ∧
    readPhaseContractTaskId (taskText text) = some id

/-- The ledger parser and the validator agree on the matched entries. -/
structure Projected : Prop where
  standing :
    ∀ entry ∈ matchedEntries markdown, OnLedger casing phaseNumber markdown (entry.line - 1)
  fits : ∀ entry ∈ matchedEntries markdown, ∀ id, entry.taskId = some id → 228 < id.length →
    ∀ line mark text, (splitLines markdown)[entry.line - 1]? = some line →
      readLine line = .checkbox mark text → (cleanInlineMarkdown text).length ≤ 240
  last : ∀ entry ∈ matchedEntries markdown, ∀ id, entry.taskId = some id →
    ∀ k line, entry.line ≤ k → (splitLines markdown)[k]? = some line →
      OnLedger casing phaseNumber markdown k → ¬Carries line id

end Property

/-! ## Markers -/

theorem readMarker_eq_some {text id rest : JsString} :
    readMarker text = some (id, rest) ↔ ∃ word, text = word ++ (id ++ 0x5D :: rest) ∧
      word.map lowerCase = js "[contract:" ∧ isContractTaskId id = true := by
  have hclose : isIdUnit 0x5D = false := by decide
  constructor
  · intro h
    obtain ⟨tail, htail, hread⟩ := Option.bind_eq_some_iff.mp h
    obtain ⟨word, rfl, hword⟩ := head?_litIgnoreCase.1 htail
    split at hread
    · rename_i hid
      obtain ⟨hstart, hend⟩ := Bool.and_eq_true_iff.mp hid
      cases hread
      obtain ⟨rest, hrest⟩ : ∃ rest, tail.dropWhile isIdUnit = 0x5D :: rest := by
        cases hdrop : tail.dropWhile isIdUnit with
        | nil => simp [hdrop] at hend
        | cons u rest =>
            rw [hdrop, beq_iff_eq] at hend
            cases hend
            exact ⟨rest, rfl⟩
      refine ⟨word, ?_, hword, ?_⟩
      · rw [hrest, List.tail_cons, ← hrest, List.takeWhile_append_dropWhile]
      · rw [isContractTaskId, Bool.and_eq_true]
        refine ⟨?_, List.all_eq_true.mpr fun u hu => List.mem_takeWhile_imp hu⟩
        cases tail with
        | nil => simp at hstart
        | cons u tail =>
            have hu : isIdStart u = true := by simpa using hstart
            have hunit : isIdUnit u = true := by
              rw [isIdUnit, Bool.or_eq_true]
              exact .inl hu
            rw [List.takeWhile_cons_of_pos hunit]
            simpa using hu
    · cases hread
  · rintro ⟨word, rfl, hword, hid⟩
    obtain ⟨hstart, hall⟩ := Bool.and_eq_true_iff.mp hid
    have hunits : ∀ u ∈ id, isIdUnit u = true := List.all_eq_true.mp hall
    have htake : (id ++ 0x5D :: rest).takeWhile isIdUnit = id := by
      rw [List.takeWhile_append_of_pos hunits, List.takeWhile_cons_of_neg (by simp [hclose]),
        List.append_nil]
    have hdrop : (id ++ 0x5D :: rest).dropWhile isIdUnit = 0x5D :: rest := by
      rw [List.dropWhile_append_of_pos hunits, List.dropWhile_cons_of_neg (by simp [hclose])]
    have hhead : (id ++ 0x5D :: rest).head?.any isIdStart = true := by
      cases id with
      | nil => simp at hstart
      | cons u id => exact hstart
    have hlit : (litIgnoreCase "[contract:" (word ++ (id ++ 0x5D :: rest))).head? =
        some (id ++ 0x5D :: rest) := head?_litIgnoreCase.2 ⟨word, rfl, hword⟩
    rw [readMarker, hlit, Option.bind_some, htake, hdrop, hhead]
    rfl

/-- A text that begins with a marker carries the task. -/
theorem readPhaseContractTaskId_of_marker {text id rest : JsString}
    (h : readMarker text = some (id, rest)) : readPhaseContractTaskId text = some id := by
  cases text with
  | nil => simp [readPhaseContractTaskId, h]
  | cons u text => simp [readPhaseContractTaskId, h]

theorem close_mem_of_taskId {text id : JsString} (h : readPhaseContractTaskId text = some id) :
    0x5D ∈ text := by
  obtain ⟨tail, htail, hmarker⟩ := List.exists_of_findSome?_eq_some h
  obtain ⟨⟨_, rest⟩, hread, _⟩ := Option.map_eq_some_iff.mp hmarker
  obtain ⟨word, rfl, -, -⟩ := readMarker_eq_some.1 hread
  exact ((List.mem_tails _ _).mp htail).subset (by simp)

/-! ## The text of a marked task -/

/-- A unit that the ledger's cleaning leaves as it is. -/
def isPlain (u : CodeUnit) : Bool :=
  u != 0x60 && u != 0x2A && u != 0x5F && !isWhiteSpace u

theorem replaceRuns_append {p : CodeUnit → Bool} {replacement front tail : JsString}
    (hfront : ∀ u ∈ front, p u = false) :
    replaceRuns p replacement false (front ++ tail) =
      front ++ replaceRuns p replacement false tail := by
  induction front with
  | nil => rfl
  | cons u front ih =>
      rw [List.cons_append, replaceRuns, if_neg (by simp [hfront u List.mem_cons_self]),
        ih fun v hv => hfront v (List.mem_cons_of_mem _ hv), List.cons_append]

theorem trimEnd_append {front tail : JsString}
    (hfront : ∀ u ∈ front, isWhiteSpace u = false) :
    trimEnd (front ++ tail) = front ++ trimEnd tail := by
  have hlast : front.rdropWhile isWhiteSpace = front := by
    rw [List.rdropWhile_eq_self_iff]
    exact fun h => by simp [hfront _ (List.getLast_mem h)]
  have hdrop : front.reverse.dropWhile isWhiteSpace = front.reverse := by
    rw [List.rdropWhile, List.reverse_eq_iff] at hlast
    exact hlast
  rw [trimEnd, List.rdropWhile, List.reverse_append, List.dropWhile_append]
  split
  · rename_i hempty
    rw [hdrop, List.reverse_reverse, trimEnd, List.rdropWhile, List.isEmpty_iff.mp hempty]
    simp
  · rw [List.reverse_append, List.reverse_reverse]
    rfl

theorem trim_append {front tail : JsString} (hne : front ≠ [])
    (hfront : ∀ u ∈ front, isWhiteSpace u = false) :
    (front ++ tail).trim = front ++ trimEnd tail := by
  have hstart : trimStart (front ++ tail) = front ++ tail := by
    obtain ⟨u, rest, rfl⟩ := List.exists_cons_of_ne_nil hne
    exact List.dropWhile_cons_of_neg (by simp [hfront u List.mem_cons_self])
  rw [trim_eq, hstart, trimEnd_append hfront]

theorem trim_cleanInlineMarkdown (value : JsString) :
    (cleanInlineMarkdown value).trim = cleanInlineMarkdown value :=
  trim_trim _

/-- Cleaning leaves a beginning of plain units as it is. -/
theorem cleanInlineMarkdown_append {front tail : JsString} (hne : front ≠ [])
    (hfront : ∀ u ∈ front, isPlain u = true) :
    ∃ rest, cleanInlineMarkdown (front ++ tail) = front ++ rest := by
  have hplain (u : CodeUnit) (hu : u ∈ front) :
      u ≠ 0x60 ∧ u ≠ 0x2A ∧ u ≠ 0x5F ∧ isWhiteSpace u = false := by
    simpa [isPlain, and_assoc] using hfront u hu
  have hfilter : front.filter (fun u => u != 0x60 && u != 0x2A) = front :=
    List.filter_eq_self.mpr fun u hu => by simp [(hplain u hu).1, (hplain u hu).2.1]
  have hmap : front.map (fun u => if u = 0x5F then (0x20 : CodeUnit) else u) = front := by
    refine (List.map_congr_left fun u hu => ?_).trans (List.map_id _)
    rw [if_neg (hplain u hu).2.2.1, id]
  have hwhite (u : CodeUnit) (hu : u ∈ front) :
      (isWhiteSpace u && u != 0x0A && u != 0x0D) = false := by
    rw [(hplain u hu).2.2.2]
    rfl
  rw [cleanInlineMarkdown, List.filter_append, hfilter, List.map_append, hmap,
    replaceRuns_append hwhite, trim_append hne fun u hu => (hplain u hu).2.2.2]
  exact ⟨_, rfl⟩

/-- The printable ASCII units are plain, but for those that markdown uses. -/
theorem isPlain_of_ascii {u : CodeUnit} (hlow : 0x21 ≤ u) (hhigh : u ≤ 0x7E)
    (hmarks : u ≠ 0x60 ∧ u ≠ 0x2A ∧ u ≠ 0x5F) : isPlain u = true := by
  have hwhite : isWhiteSpace u = false := by
    rw [UInt16.le_iff_toNat_le] at hlow hhigh
    simp only [isWhiteSpace, Bool.or_eq_false_iff, Bool.and_eq_false_iff, decide_eq_false_iff_not,
      beq_eq_false_iff_ne, ne_eq, UInt16.le_iff_toNat_le, ← UInt16.toNat_inj]
    simp at hlow hhigh ⊢
    omega
  simp [isPlain, hwhite, hmarks.1, hmarks.2.1, hmarks.2.2]

theorem isPlain_of_isIdUnit {u : CodeUnit} (h : isIdUnit u = true) : isPlain u = true := by
  simp only [isIdUnit, isAlphanumeric, isDigit, isUpper, isLower, Bool.or_eq_true,
    Bool.and_eq_true, decide_eq_true_eq, beq_iff_eq, UInt16.le_iff_toNat_le,
    ← UInt16.toNat_inj] at h
  refine isPlain_of_ascii ?_ ?_ ?_ <;>
    simp only [UInt16.le_iff_toNat_le, ne_eq, ← UInt16.toNat_inj] <;> simp at h ⊢ <;> omega

theorem isPlain_of_lowerCase {u : CodeUnit} (h : lowerCase u ∈ js "[contract:") :
    isPlain u = true := by
  unfold lowerCase at h
  split at h
  · rename_i hupper
    refine isPlain_of_isIdUnit ?_
    simp only [isIdUnit, isAlphanumeric, isUpper, hupper, Bool.or_true, Bool.true_or]
  · exact List.all_eq_true.mp (by decide) u h

/-- The units of a marker are plain. -/
theorem isPlain_marker {word id : JsString} (hword : word.map lowerCase = js "[contract:")
    (hid : isContractTaskId id = true) : ∀ u ∈ word ++ (id ++ [0x5D]), isPlain u = true := by
  intro u hu
  rw [List.mem_append, List.mem_append, List.mem_singleton] at hu
  rcases hu with hu | hu | rfl
  · exact isPlain_of_lowerCase (hword ▸ List.mem_map_of_mem hu)
  · exact isPlain_of_isIdUnit (List.all_eq_true.mp (Bool.and_eq_true_iff.mp hid).2 u hu)
  · decide

/-- What the ledger keeps of a text that begins with a marker carries the task, if
the marker is not cut. -/
theorem taskId_taskText {text id rest : JsString} (h : readMarker text = some (id, rest)) :
    readPhaseContractTaskId (taskText text) = some id ↔
      (228 < id.length → (cleanInlineMarkdown text).length ≤ 240) := by
  obtain ⟨word, rfl, hword, hid⟩ := readMarker_eq_some.1 h
  have hlength : word.length = 10 := by
    have := congrArg List.length hword
    rw [List.length_map] at this
    rw [this]
    decide
  obtain ⟨kept, hkept⟩ := @cleanInlineMarkdown_append _ rest (by simp)
    (isPlain_marker hword hid)
  have hmarker (more : JsString) :
      readPhaseContractTaskId (word ++ (id ++ 0x5D :: more)) = some id :=
    readPhaseContractTaskId_of_marker (readMarker_eq_some.2 ⟨word, rfl, hword, hid⟩)
  simp only [List.append_assoc, List.singleton_append] at hkept
  rw [taskText, trim_cleanInlineMarkdown, hkept, truncate]
  split
  · rename_i hle
    exact ⟨fun _ _ => hle, fun _ => hmarker kept⟩
  · rename_i hle
    by_cases hlong : 228 < id.length
    · refine ⟨fun hread => absurd (close_mem_of_taskId hread) fun hmem => ?_,
        fun hfits => absurd (hfits hlong) hle⟩
      have htake : (word ++ (id ++ 0x5D :: kept)).take (240 - 1) = word ++ id.take 229 := by
        rw [List.take_append, hlength, List.take_of_length_le (by omega),
          List.take_append_of_le_length (by omega)]
      rw [htake, List.mem_append, List.mem_append] at hmem
      rcases hmem with (hmem | hmem) | hmem
      · have hlower : lowerCase 0x5D ∈ js "[contract:" := hword ▸ List.mem_map_of_mem hmem
        exact absurd hlower (by decide)
      · have hunit := List.all_eq_true.mp (Bool.and_eq_true_iff.mp hid).2 _
          (List.mem_of_mem_take hmem)
        exact absurd hunit (by decide)
      · exact absurd hmem (by decide)
    · refine ⟨fun _ h => absurd h hlong, fun _ => ?_⟩
      have htake : (word ++ (id ++ 0x5D :: kept)).take (240 - 1) =
          word ++ (id ++ 0x5D :: kept.take (228 - id.length)) := by
        rw [List.take_append, hlength, List.take_of_length_le (by omega), List.take_append,
          List.take_of_length_le (by omega),
          show 240 - 1 - 10 - id.length = 228 - id.length + 1 by omega, List.take_succ_cons]
      rw [htake, List.append_assoc, List.append_assoc, List.cons_append]
      exact hmarker _

/-! ## A matched line -/

/-- A checkbox that the validator reads with a marker is one that the ledger reads,
with a text that begins with the marker. -/
theorem readLine_of_parity {line text id rest : JsString} (h : readParityCheckbox line = some text)
    (hmarker : readMarker text = some (id, rest)) :
    ∃ mark kept, readLine line = .checkbox mark kept ∧
      ∃ rest', readMarker kept = some (id, rest') := by
  obtain ⟨box, hbox, hread⟩ := Option.bind_eq_some_iff.mp h
  obtain ⟨word, htext, hword, hid⟩ := readMarker_eq_some.1 hmarker
  have hplain : ∀ u ∈ word ++ (id ++ [0x5D]), isWhiteSpace u = false := fun u hu => by
    have := isPlain_marker hword hid u hu
    simp only [isPlain, Bool.and_eq_true, Bool.not_eq_true'] at this
    exact this.2
  split at hread
  · rename_i hmark
    -- the text begins where the white space ends, and has no line terminator
    have hrest : box.rest.dropWhile isWhiteSpace = text ∧ text.any isLineTerminator = false := by
      unfold captureRest at hread
      split at hread
      · obtain ⟨u, -, rfl⟩ := Option.map_eq_some_iff.mp hread
        have hlength := congrArg List.length htext
        have hten := congrArg List.length hword
        have hjs : (js "[contract:").length = 10 := by decide
        simp at hlength hten
        omega
      · split at hread
        · cases hread
        · rename_i hterminator
          cases hread
          exact ⟨rfl, by simpa using hterminator⟩
    have htrim : box.rest.trim = word ++ (id ++ 0x5D :: trimEnd rest) := by
      have hsplit : text = (word ++ (id ++ [0x5D])) ++ rest := by simp [htext]
      rw [trim_eq, trimStart, hrest.1, hsplit, trimEnd_append hplain]
      simp
    have hcapture : captureTrimmed box.rest = some box.rest.trim := by
      have hne : box.rest.trim.isEmpty = false := by rw [htrim]; simp
      have hany : box.rest.trim.any isLineTerminator = false := by
        rw [List.any_eq_false] at hrest ⊢
        intro u hu
        refine hrest.2 u ?_
        rw [trim_eq, trimStart, hrest.1] at hu
        exact (List.rdropWhile_prefix _ _).subset hu
      rw [captureTrimmed, hne, hany]
      rfl
    refine ⟨box.mark, box.rest.trim, ?_, trimEnd rest,
      readMarker_eq_some.2 ⟨word, htrim, hword, hid⟩⟩
    have hcheckbox : readCheckbox line = some (box.mark, box.rest.trim) := by
      have hmarks : anyOf " xX-" box.mark = true :=
        List.all_eq_true.mp (by decide) _ (List.contains_iff_mem.mp hmark)
      rw [readCheckbox, hbox, Option.bind_some, if_pos hmarks, hcapture]
      rfl
    rw [readLine, readHeading_of_splitCheckbox hbox, hcheckbox]
  · cases hread

theorem readLine_eq_checkbox {line : JsString} {mark : CodeUnit} {text : JsString}
    (h : readLine line = .checkbox mark text) : readCheckbox line = some (mark, text) := by
  unfold readLine at h
  split at h
  · cases h
  · rename_i hcheckbox
    cases h
    exact hcheckbox
  · cases h

theorem isChecked_of_readLine {line : JsString} {mark : CodeUnit} {text : JsString}
    (h : readLine line = .checkbox mark text) : isChecked line = (statusOf mark == .completed) := by
  obtain ⟨box, hbox, hread⟩ := Option.bind_eq_some_iff.mp (readLine_eq_checkbox h)
  split at hread
  · obtain ⟨kept, -, heq⟩ := Option.map_eq_some_iff.mp hread
    cases heq
    rw [isChecked, hbox, Option.any_some]
  · cases hread

section Select

variable {casing : Casing} {phaseNumber : Option ℕ} {markdown : JsString}

/-! ## What is executed -/

/-- The items that carry a task are those of the checkboxes in the ledger that carry it. -/
theorem mem_itemByTaskId {id : JsString} {item : PhaseTaskLedgerItem} :
    (id, item) ∈ itemByTaskId casing (extractPhaseTaskLedger casing markdown phaseNumber) ↔
      ∃ k line mark text, (splitLines markdown)[k]? = some line ∧
        readLine line = .checkbox mark text ∧ OnLedger casing phaseNumber markdown k ∧
        readPhaseContractTaskId (taskText text) = some id ∧
        (stateAt casing phaseNumber markdown k).item casing phaseNumber k mark text = item := by
  rw [itemByTaskId, List.mem_filterMap]
  constructor
  · rintro ⟨found, hfound, hid⟩
    obtain ⟨hmem, hsection⟩ := List.mem_filter.mp hfound
    obtain ⟨id', hread, heq⟩ := Option.map_eq_some_iff.mp hid
    cases heq
    obtain ⟨k, line, hline, hitem⟩ := mem_ledgerItems.1 hmem
    rw [Nat.zero_add] at hitem
    obtain ⟨mark, text, hcheckbox, hinside, rfl⟩ := LedgerState.read_eq_some.1 hitem
    rw [LedgerState.text_item] at hread
    exact ⟨k, line, mark, text, hline, hcheckbox, ⟨hinside, hsection⟩, hread, rfl⟩
  · rintro ⟨k, line, mark, text, hline, hcheckbox, ⟨hinside, hsection⟩, hread, rfl⟩
    have hmem : (stateAt casing phaseNumber markdown k).item casing phaseNumber k mark text ∈
        extractPhaseTaskLedger casing markdown phaseNumber := by
      refine mem_ledgerItems.2 ⟨k, line, hline, ?_⟩
      rw [Nat.zero_add]
      exact LedgerState.read_eq_some.2 ⟨mark, text, hcheckbox, hinside, rfl⟩
    refine ⟨_, List.mem_filter.mpr ⟨hmem, hsection⟩, Option.map_eq_some_iff.mpr ⟨id, ?_, rfl⟩⟩
    rw [LedgerState.text_item]
    exact hread

theorem itemByTaskId_pairwise (items : List PhaseTaskLedgerItem)
    (h : items.Pairwise fun item later => item.lineNumber < later.lineNumber) :
    (itemByTaskId casing items).Pairwise fun entry later =>
      entry.2.lineNumber < later.2.lineNumber := by
  rw [itemByTaskId, List.pairwise_filterMap]
  refine (h.filter _).imp fun hlt entry hentry later hlater => ?_
  obtain ⟨id, -, rfl⟩ := Option.map_eq_some_iff.mp hentry
  obtain ⟨id', -, rfl⟩ := Option.map_eq_some_iff.mp hlater
  exact hlt

/-- The checkbox of a line is executed for a task if it stands in the ledger, carries
the task and is the last one to do so. -/
theorem exists_get_iff {k : ℕ} {line id text : JsString} {mark : CodeUnit}
    (hline : (splitLines markdown)[k]? = some line) (hread : readLine line = .checkbox mark text) :
    (∃ item, JsMap.get (itemByTaskId casing (extractPhaseTaskLedger casing markdown phaseNumber)) id =
        some item ∧ item.lineNumber = k + 1) ↔
      OnLedger casing phaseNumber markdown k ∧ readPhaseContractTaskId (taskText text) = some id ∧
        ∀ k' line', k + 1 ≤ k' → (splitLines markdown)[k']? = some line' →
          OnLedger casing phaseNumber markdown k' → ¬Carries line' id := by
  have hpairwise := @itemByTaskId_pairwise casing
    (extractPhaseTaskLedger casing markdown phaseNumber) (ledgerItems_pairwise _ 0 _)
  simp only [JsMap.get_eq_some_iff_of_pairwise hpairwise]
  constructor
  · rintro ⟨item, ⟨hmem, hlast⟩, hnumber⟩
    obtain ⟨k₁, line₁, mark₁, text₁, hline₁, hread₁, hon, hid, rfl⟩ := mem_itemByTaskId.1 hmem
    obtain rfl : k₁ = k := Nat.succ.inj hnumber
    cases hline.symm.trans hline₁
    cases hread.symm.trans hread₁
    refine ⟨hon, hid, fun k' line' hle hline' hon' hcarries => ?_⟩
    obtain ⟨mark', text', hread', hid'⟩ := hcarries
    have := hlast _ (mem_itemByTaskId.2 ⟨k', line', mark', text', hline', hread', hon', hid', rfl⟩)
    simp only [LedgerState.item] at this
    omega
  · rintro ⟨hon, hid, hlast⟩
    refine ⟨_, ⟨mem_itemByTaskId.2 ⟨k, line, mark, text, hline, hread, hon, hid, rfl⟩,
      fun other hother => ?_⟩, rfl⟩
    obtain ⟨k₂, line₂, mark₂, text₂, hline₂, hread₂, hon₂, hid₂, rfl⟩ := mem_itemByTaskId.1 hother
    by_contra hlater
    simp only [LedgerState.item, not_le] at hlater
    exact hlast k₂ line₂ (by omega) hline₂ hon₂ ⟨mark₂, text₂, hread₂, hid₂⟩

/-! ## What the validator matches -/

/-- An entry is a checkbox below the heading. -/
theorem mem_parityEntriesFrom {index : ℕ} {lines : List JsString} {entry : ParityEntry}
    (h : entry ∈ parityEntriesFrom index lines) : ∃ k line text, lines[k]? = some line ∧
      readParityCheckbox line = some text ∧ entry = parityEntry (index + k + 1) text := by
  induction lines generalizing index with
  | nil => cases h
  | cons line rest ih =>
      rw [parityEntriesFrom] at h
      split at h
      · cases h
      · rcases List.mem_append.mp h with h | h
        · obtain ⟨text, htext, rfl⟩ := Option.map_eq_some_iff.mp (Option.mem_toList.mp h)
          exact ⟨0, line, text, rfl, htext, rfl⟩
        · obtain ⟨k, line', text, hline, htext, rfl⟩ := ih h
          refine ⟨k + 1, line', text, hline, htext, ?_⟩
          rw [show index + 1 + k = index + (k + 1) by omega]

theorem mem_matchedEntries {entry : ParityEntry} (h : entry ∈ matchedEntries markdown) :
    ∃ k line text, (splitLines markdown)[k]? = some line ∧ readParityCheckbox line = some text ∧
      entry = parityEntry (k + 1) text := by
  unfold matchedEntries at h
  split at h
  · cases h
  · rename_i headingIndex _
    obtain ⟨k, line, text, hline, htext, rfl⟩ := mem_parityEntriesFrom h
    rw [List.getElem?_drop] at hline
    exact ⟨headingIndex + 1 + k, line, text, hline, htext, rfl⟩

/-- A document without diagnostics has an entry for each task, in their order. -/
theorem taskIds_of_parity {phase : PhaseExecutionContractPhase}
    (h : validatePhaseTaskLedgerParity markdown phase = []) :
    (matchedEntries markdown).map ParityEntry.taskId =
      phase.tasks.map fun task => some task.id := by
  unfold validatePhaseTaskLedgerParity at h
  unfold matchedEntries
  cases hheading : (splitLines markdown).findIdx? isParityHeading with
  | none =>
      rw [hheading] at h
      cases h
  | some headingIndex =>
      rw [hheading] at h
      simp only [ledgerDiagnostics, List.append_eq_nil_iff, List.map_eq_nil_iff] at h
      obtain ⟨⟨hmissing, hids⟩, -⟩ := h
      split at hids
      · rename_i heq
        have hsome : ∀ entry ∈ parityEntries (splitLines markdown) headingIndex,
            entry.taskId = some (entry.taskId.getD (js "<missing-contract-id>")) := by
          intro entry hentry
          have := List.filter_eq_nil_iff.mp hmissing entry hentry
          cases hid : entry.taskId with
          | none => simp [hid] at this
          | some id => rfl
        calc (parityEntries (splitLines markdown) headingIndex).map ParityEntry.taskId
            = ((parityEntries (splitLines markdown) headingIndex).map fun entry =>
                entry.taskId.getD (js "<missing-contract-id>")).map some := by
              rw [List.map_map]
              exact List.map_congr_left hsome
          _ = phase.tasks.map fun task => some task.id := by
              rw [heq, List.map_map]
              rfl
      · cases hids

/-- A matched entry with its line, and what the ledger parser reads there. -/
theorem exists_line_of_entry {entry : ParityEntry} {id : JsString}
    (h : entry ∈ matchedEntries markdown) (hid : entry.taskId = some id) :
    ∃ k line mark text rest, entry.line = k + 1 ∧ (splitLines markdown)[k]? = some line ∧
      readLine line = .checkbox mark text ∧ readMarker text = some (id, rest) := by
  obtain ⟨k, line, text, hline, htext, rfl⟩ := mem_matchedEntries h
  obtain ⟨⟨_, rest⟩, hmarker, rfl⟩ := Option.map_eq_some_iff.mp hid
  obtain ⟨mark, kept, hread, rest', hkept⟩ := readLine_of_parity htext hmarker
  exact ⟨k, line, mark, kept, rest', rfl, hline, hread, hkept⟩

/-! ## When the two agree -/

theorem forall₂_flatMap_toList_iff {α β : Type*} {relation : α → β → Prop} {read : α → Option β}
    {values : List α} :
    List.Forall₂ relation values (values.flatMap fun x => (read x).toList) ↔
      ∀ x ∈ values, ∃ y, read x = some y ∧ relation x y := by
  have hfilter (values : List α) :
      (values.flatMap fun x => (read x).toList) = values.filterMap read := by
    induction values with
    | nil => rfl
    | cons x rest ih =>
        rw [List.flatMap_cons, ih]
        cases hx : read x with
        | none => rw [List.filterMap_cons_none hx]; rfl
        | some y => rw [List.filterMap_cons_some hx]; rfl
  rw [hfilter]
  constructor
  · intro h
    have hsome := List.filterMap_length_eq_length.mp h.length_eq.symm
    induction values with
    | nil => simp
    | cons x rest ih =>
        obtain ⟨y, hy⟩ := Option.isSome_iff_exists.mp (hsome x List.mem_cons_self)
        rw [List.filterMap_cons_some hy] at h
        obtain ⟨hxy, hrest⟩ := List.forall₂_cons.mp h
        rintro z hz
        rcases List.mem_cons.mp hz with rfl | hz
        · exact ⟨y, hy, hxy⟩
        · exact ih hrest (fun w hw => hsome w (List.mem_cons_of_mem _ hw)) z hz
  · intro h
    induction values with
    | nil => exact .nil
    | cons x rest ih =>
        obtain ⟨y, hy, hxy⟩ := h x List.mem_cons_self
        rw [List.filterMap_cons_some hy]
        exact .cons hxy (ih fun z hz => h z (List.mem_cons_of_mem _ hz))

variable {phase : PhaseExecutionContractPhase}

/-- **The matched checkboxes are executed exactly where the two readers agree.** -/
theorem bound_iff (hids : (phase.tasks.map PhaseExecutionTaskContract.id).Nodup)
    (hparity : validatePhaseTaskLedgerParity markdown phase = []) :
    Bound casing phaseNumber markdown phase ↔ Projected casing phaseNumber markdown := by
  have htaskIds := taskIds_of_parity hparity
  have hnodup : ((matchedEntries markdown).map ParityEntry.taskId).Nodup := by
    rw [htaskIds]
    have := hids.map (Option.some_injective JsString)
    rwa [List.map_map] at this
  have hbound : Bound casing phaseNumber markdown phase ↔ ∀ task ∈ phase.tasks, ∃ item,
      JsMap.get (itemByTaskId casing (extractPhaseTaskLedger casing markdown phaseNumber)) task.id =
        some item ∧ ∃ entry ∈ matchedEntries markdown, entry.taskId = some task.id ∧
          item.lineNumber = entry.line ∧
            ((splitLines markdown)[entry.line - 1]?).map isChecked = some item.checked := by
    rw [Bound, selectDeclaredOrderedLedgerItems, List.flatMap_map, forall₂_flatMap_toList_iff]
  rw [hbound]
  constructor
  · intro h
    -- every entry is matched to a task, so its line is the one that is executed
    have hentry {entry : ParityEntry} (hmem : entry ∈ matchedEntries markdown) :
        ∃ id, entry.taskId = some id ∧ ∃ item, JsMap.get (itemByTaskId casing
          (extractPhaseTaskLedger casing markdown phaseNumber)) id = some item ∧
            item.lineNumber = entry.line := by
      have hid : entry.taskId ∈ phase.tasks.map fun task => some task.id :=
        htaskIds ▸ List.mem_map_of_mem hmem
      obtain ⟨task, htask, hid⟩ := List.mem_map.mp hid
      obtain ⟨item, hget, entry', hmem', hid', hnumber, -⟩ := h task htask
      obtain rfl := List.inj_on_of_nodup_map hnodup hmem' hmem (hid'.trans hid)
      exact ⟨task.id, hid.symm, item, hget, hnumber⟩
    have hagree {entry : ParityEntry} (hmem : entry ∈ matchedEntries markdown) {id : JsString}
        (hid : entry.taskId = some id) {k : ℕ} {line text : JsString} {mark : CodeUnit}
        (hk : entry.line = k + 1) (hline : (splitLines markdown)[k]? = some line)
        (hread : readLine line = .checkbox mark text) :=
      (@exists_get_iff casing phaseNumber markdown _ _ id _ _ hline hread).mp (by
        obtain ⟨id', hid', item, hget, hnumber⟩ := hentry hmem
        cases hid.symm.trans hid'
        exact ⟨item, hget, hnumber.trans hk⟩)
    refine ⟨fun entry hmem => ?_, fun entry hmem id hid hlong line mark text hline hread => ?_,
      fun entry hmem id hid k line hle hline hon => ?_⟩
    · obtain ⟨id, hid, -⟩ := hentry hmem
      obtain ⟨k, line, mark, text, rest, hk, hline, hread, -⟩ := exists_line_of_entry hmem hid
      rw [hk, Nat.add_sub_cancel]
      exact (hagree hmem hid hk hline hread).1
    · obtain ⟨k, line', mark', text', rest, hk, hline', hread', hmarker⟩ :=
        exists_line_of_entry hmem hid
      rw [hk, Nat.add_sub_cancel] at hline
      cases hline.symm.trans hline'
      cases hread.symm.trans hread'
      exact (taskId_taskText hmarker).mp (hagree hmem hid hk hline hread).2.1 hlong
    · obtain ⟨k', line', mark', text', rest, hk, hline', hread', -⟩ := exists_line_of_entry hmem hid
      exact (hagree hmem hid hk hline' hread').2.2 k line (hk ▸ hle) hline hon
  · intro h task htask
    have hid : some task.id ∈ (matchedEntries markdown).map ParityEntry.taskId :=
      htaskIds ▸ List.mem_map_of_mem htask
    obtain ⟨entry, hmem, hid⟩ := List.mem_map.mp hid
    obtain ⟨k, line, mark, text, rest, hk, hline, hread, hmarker⟩ := exists_line_of_entry hmem hid
    have hon := h.standing entry hmem
    rw [hk, Nat.add_sub_cancel] at hon
    have hfits := (taskId_taskText hmarker).mpr fun hlong =>
      h.fits entry hmem task.id hid hlong line mark text (by rwa [hk, Nat.add_sub_cancel]) hread
    obtain ⟨item, hget, hnumber⟩ := (exists_get_iff hline hread).mpr ⟨hon, hfits,
      fun k' line' hle hline' hon' => h.last entry hmem task.id hid k' line' (hk ▸ hle) hline' hon'⟩
    refine ⟨item, hget, entry, hmem, hid, hnumber.trans hk.symm, ?_⟩
    obtain ⟨k', line', mark', text', hline', hread', -, -, rfl⟩ :=
      mem_itemByTaskId.1 (JsMap.mem_of_get hget)
    obtain rfl : k' = k := Nat.succ.inj hnumber
    rw [hk, Nat.add_sub_cancel, hline', Option.map_some, isChecked_of_readLine hread']
    rfl

end Select

/-! ## A document for a contract -/

/-- The checkbox that projects a task. -/
def taskLine (task : PhaseExecutionTaskContract) : JsString :=
  js "- [ ] [contract:" ++ (task.id ++ 0x5D :: (js " [executor:" ++
    js (mapTaskExecutor task.kind) ++ js "]"))

/-- A document that projects the tasks of a phase. -/
def projectedDocument (phase : PhaseExecutionContractPhase) : JsString :=
  joinLines (js "## Phase Task Ledger" :: phase.tasks.map taskLine)

theorem readExecutor_taskLine (kind : TaskKind) :
    readExecutor (js " [executor:" ++ js (mapTaskExecutor kind) ++ js "]") =
      some (js (mapTaskExecutor kind)) := by
  cases kind <;> decide

theorem readMarker_taskLine {task : PhaseExecutionTaskContract}
    (h : isContractTaskId task.id = true) {rest : JsString} :
    readMarker (js "[contract:" ++ (task.id ++ 0x5D :: rest)) = some (task.id, rest) :=
  readMarker_eq_some.2 ⟨js "[contract:", rfl, by decide, h⟩

theorem not_lineTerminator_of_isIdUnit {u : CodeUnit} (h : isIdUnit u = true) :
    isLineTerminator u = false := by
  have hplain := isPlain_of_isIdUnit h
  rw [← Bool.not_eq_true]
  intro hterminator
  simp only [isLineTerminator, Bool.or_eq_true, beq_iff_eq, or_assoc] at hterminator
  rcases hterminator with rfl | rfl | rfl | rfl <;> exact absurd hplain (by decide)

/-- The validator reads a projected task as its entry. -/
theorem readParityCheckbox_taskLine {task : PhaseExecutionTaskContract}
    (h : isContractTaskId task.id = true) : readParityCheckbox (taskLine task) =
      some (js "[contract:" ++ (task.id ++ 0x5D :: (js " [executor:" ++
        js (mapTaskExecutor task.kind) ++ js "]"))) := by
  have hunits := List.all_eq_true.mp (Bool.and_eq_true_iff.mp h).2
  generalize htext : js "[contract:" ++ (task.id ++ 0x5D :: (js " [executor:" ++
    js (mapTaskExecutor task.kind) ++ js "]")) = text
  have hbox : splitCheckbox (taskLine task) = some ⟨js "- [", 0x20, 0x20, text⟩ := by
    have hwhite : isWhiteSpace 0x20 = true := by decide
    refine splitCheckbox_eq_some.2 ⟨[], 0x2D, [0x20], rfl, ?_, by simp, .inl rfl, by simp,
      List.forall_mem_singleton.mpr hwhite, hwhite⟩
    rw [← htext]
    rfl
  have hhead : text.dropWhile isWhiteSpace = text := by
    rw [← htext]
    rfl
  have hnonempty : text.isEmpty = false := by
    rw [← htext]
    rfl
  have hterminator : text.any isLineTerminator = false := by
    have hexecutor : (js " [executor:" ++ js (mapTaskExecutor task.kind) ++ js "]").any
        isLineTerminator = false := by
      cases task.kind <;> decide
    have hword : (js "[contract:").any isLineTerminator = false := by decide
    have hid : task.id.any isLineTerminator = false := by
      rw [List.any_eq_false]
      exact fun u hu => by simp [not_lineTerminator_of_isIdUnit (hunits u hu)]
    have hclose : isLineTerminator 0x5D = false := by decide
    rw [← htext, List.any_append, List.any_append, List.any_cons, hword, hid, hclose, hexecutor]
    rfl
  have hspace : anyOf " xX" 0x20 = true := by decide
  rw [readParityCheckbox, hbox, Option.bind_some, if_pos hspace, captureRest, hhead, hnonempty,
    hterminator]
  rfl

theorem splitLines_projectedDocument {phase : PhaseExecutionContractPhase}
    (h : ∀ task ∈ phase.tasks, isContractTaskId task.id = true) :
    splitLines (projectedDocument phase) =
      js "## Phase Task Ledger" :: phase.tasks.map taskLine := by
  refine splitLines_joinLines (List.cons_ne_nil _ _) fun line hline => ?_
  rcases List.mem_cons.mp hline with rfl | hline
  · decide
  · obtain ⟨task, htask, rfl⟩ := List.mem_map.mp hline
    have hunits := List.all_eq_true.mp (Bool.and_eq_true_iff.mp (h task htask)).2
    have hexecutor : (0x0A : CodeUnit) ∉ js " [executor:" ++ js (mapTaskExecutor task.kind) ++
        js "]" := by
      cases task.kind <;> decide
    refine ⟨fun hmem => ?_, ?_⟩
    · rw [taskLine, List.mem_append, List.mem_append, List.mem_cons] at hmem
      rcases hmem with hmem | hmem | hmem | hmem
      · exact absurd hmem (by decide)
      · exact absurd (hunits _ hmem) (by decide)
      · cases hmem
      · exact hexecutor hmem
    · have hlast : (taskLine task).getLast? = some 0x5D := by
        have hclose : js "]" = [0x5D] := by decide
        rw [taskLine, hclose]
        simp [List.getLast?_append, List.getLast?_cons]
      rw [hlast]
      decide

/-- The entries of projected tasks. -/
theorem parityEntriesFrom_taskLines {tasks : List PhaseExecutionTaskContract}
    (h : ∀ task ∈ tasks, isContractTaskId task.id = true) (index : ℕ) :
    List.Forall₂ (fun task entry => entry.taskId = some task.id ∧
        entry.executor = some (js (mapTaskExecutor task.kind)))
      tasks (parityEntriesFrom index (tasks.map taskLine)) := by
  induction tasks generalizing index with
  | nil => exact .nil
  | cons task rest ih =>
      have hid := h task List.mem_cons_self
      have hend : endsParitySection (taskLine task) = false := rfl
      rw [List.map_cons, parityEntriesFrom, hend, readParityCheckbox_taskLine hid]
      refine .cons ⟨?_, ?_⟩ (ih (fun t ht => h t (List.mem_cons_of_mem _ ht)) _)
      · rw [parityEntry, readMarker_taskLine hid]
        rfl
      · rw [parityEntry, readMarker_taskLine hid]
        simp only [Option.bind_some]
        exact readExecutor_taskLine task.kind

theorem parity_projectedDocument {phase : PhaseExecutionContractPhase}
    (hids : (phase.tasks.map PhaseExecutionTaskContract.id).Nodup)
    (h : ∀ task ∈ phase.tasks, isContractTaskId task.id = true) :
    validatePhaseTaskLedgerParity (projectedDocument phase) phase = [] := by
  have hentries := parityEntriesFrom_taskLines h 1
  have hheading : isParityHeading (js "## Phase Task Ledger") = true := by decide
  rw [validatePhaseTaskLedgerParity, splitLines_projectedDocument h, List.findIdx?_cons, hheading]
  change ledgerDiagnostics 0 (parityEntriesFrom 1 (phase.tasks.map taskLine)) phase = []
  generalize parityEntriesFrom 1 (phase.tasks.map taskLine) = entries at hentries
  have htask {entry : ParityEntry} (hentry : entry ∈ entries) : ∃ task ∈ phase.tasks,
      entry.taskId = some task.id ∧ entry.executor = some (js (mapTaskExecutor task.kind)) := by
    obtain ⟨i, hi, rfl⟩ := List.mem_iff_getElem.mp hentry
    have hlt : i < phase.tasks.length := hentries.length_eq ▸ hi
    exact ⟨phase.tasks[i], List.getElem_mem _, hentries.get hlt hi⟩
  have hmissing : entries.filter (fun entry => entry.taskId.isNone) = [] := by
    refine List.filter_eq_nil_iff.mpr fun entry hentry => ?_
    obtain ⟨task, -, hid, -⟩ := htask hentry
    simp [hid]
  have hequal : entries.map (fun entry => entry.taskId.getD (js "<missing-contract-id>")) =
      phase.tasks.map PhaseExecutionTaskContract.id :=
    map_eq_of_forall₂ (hentries.imp fun _ _ hentry => by rw [hentry.1, Option.getD_some])
  have hexecutors : phase.tasks.filterMap (executorDiagnostic entries) = [] := by
    refine List.filterMap_eq_nil_iff.mpr fun task hmem => ?_
    rw [executorDiagnostic, Option.bind_eq_none_iff]
    intro entry hfind
    obtain ⟨task', hmem', hid, hexecutor⟩ := htask (List.mem_of_find?_eq_some hfind)
    have hfound : (fun entry : ParityEntry => entry.taskId == some task.id) entry = true :=
      List.find?_some (p := fun entry : ParityEntry => entry.taskId == some task.id) hfind
    obtain rfl := List.inj_on_of_nodup_map hids hmem' hmem
      (Option.some.inj (hid.symm.trans (beq_iff_eq.mp hfound)))
    rw [hexecutor]
    simp
  rw [ledgerDiagnostics, hmissing, hequal, hexecutors]
  simp

/-! ## The result -/

/-- **In an accepted contract the matched checkboxes are executed exactly where the
two readers agree, and a phase has a document exactly if its ids fit a marker.** -/
theorem projection_iff {platform : Platform} {toText : JsValue → JsString}
    {raw sourcePath : JsString} {contract : PhaseExecutionContract}
    (hparse : (parsePhaseExecutionContract platform toText raw sourcePath).contract = some contract)
    {phase : PhaseExecutionContractPhase} (hphase : phase ∈ contract.phases) (casing : Casing) :
    (∀ phaseNumber markdown, validatePhaseTaskLedgerParity markdown phase = [] →
      (Bound casing phaseNumber markdown phase ↔ Projected casing phaseNumber markdown)) ∧
    ((∃ markdown, validatePhaseTaskLedgerParity markdown phase = []) ↔
      ∀ task ∈ phase.tasks, isContractTaskId task.id = true) := by
  have hids := nodup_of_accepted hparse hphase
  refine ⟨fun phaseNumber markdown hparity => bound_iff hids hparity, ?_,
    fun h => ⟨projectedDocument phase, parity_projectedDocument hids h⟩⟩
  rintro ⟨markdown, hparity⟩ task htask
  have hid : some task.id ∈ (matchedEntries markdown).map ParityEntry.taskId :=
    taskIds_of_parity hparity ▸ List.mem_map_of_mem htask
  obtain ⟨entry, hmem, hid⟩ := List.mem_map.mp hid
  obtain ⟨_, _, _, text, rest, _, _, _, hmarker⟩ := exists_line_of_entry hmem hid
  obtain ⟨_, _, _, hcontract⟩ := readMarker_eq_some.1 hmarker
  exact hcontract

/-- The JSON text of a contract with one phase and one task. -/
def contractText (taskId : String) : JsString :=
  js "\x7b\"schemaVersion\":\"hepha-phase-execution/v3\",\"phases\":[\x7b\"id\":\"p\",\"order\":0," ++
  js "\"document\":\"Phases/phase-0.md\",\"role\":\"implementation\",\"tasks\":[\x7b\"id\":\"" ++
  js taskId ++ js "\",\"kind\":\"agent\",\"required\":true\x7d],\"developmentValidation\":\"none\"," ++
  js "\"codeReview\":\"never\",\"finalValidation\":\"none\",\"failurePolicy\":" ++
  js "\"repair_and_rerun\",\"gitCheckpoint\":\"commit_and_push\"\x7d]\x7d"

def contractValue (taskId : String) : JsValue :=
  .record [("schemaVersion", .text "hepha-phase-execution/v3"), ("phases", .arr [
    .record [("id", .text "p"), ("order", .num (.int 0)), ("document", .text "Phases/phase-0.md"),
      ("role", .text "implementation"),
      ("tasks", .arr [.record [("id", .text taskId), ("kind", .text "agent"),
        ("required", .bool true)]]),
      ("developmentValidation", .text "none"), ("codeReview", .text "never"),
      ("finalValidation", .text "none"), ("failurePolicy", .text "repair_and_rerun"),
      ("gitCheckpoint", .text "commit_and_push")]])]

/-- A platform that reads the two contracts. -/
def twoContracts : Platform where
  parseJson raw :=
    if raw = contractText "a" then some (contractValue "a")
    else if raw = contractText "task_1" then some (contractValue "task_1")
    else none
  numberText _ := js "0"
  sha256 text := text

/-- The phase of the contract. -/
def onePhase (taskId : String) : PhaseExecutionContractPhase :=
  { id := js "p", order := .int 0, document := js "Phases/phase-0.md", role := .implementation
    tasks := [⟨js taskId, .agent, true, none, none⟩], developmentValidation := .none
    codeReview := .never, finalValidation := .none, gitCheckpoint := true }

theorem parse_contractText :
    (parsePhaseExecutionContract twoContracts (fun _ => []) (contractText "a") (js "c")).contract =
        some ⟨.v3, [onePhase "a"]⟩ ∧
      (parsePhaseExecutionContract twoContracts (fun _ => []) (contractText "task_1")
        (js "c")).contract = some ⟨.v3, [onePhase "task_1"]⟩ := by
  decide +kernel

/-- The contract with task `a` has a document. -/
theorem projection_iff_single : (∀ phaseNumber markdown,
      validatePhaseTaskLedgerParity markdown (onePhase "a") = [] →
        (Bound Casing.ascii phaseNumber markdown (onePhase "a") ↔
          Projected Casing.ascii phaseNumber markdown)) ∧
    ∃ markdown, validatePhaseTaskLedgerParity markdown (onePhase "a") = [] := by
  have h := projection_iff parse_contractText.1 List.mem_cons_self Casing.ascii
  exact ⟨h.1, h.2.mpr (by decide)⟩

/-- The line in progress is not seen by the validator, and it is the one that is executed. -/
def doubledDocument : JsString :=
  js "## Phase Task Ledger\n- [ ] [contract:a] [executor:agent] Build\n- [-] [contract:a] Draft"

theorem doubled_not_bound : ¬Bound Casing.ascii (some 0) doubledDocument (onePhase "a") := by
  intro hbound
  have hexecuted : (selectDeclaredOrderedLedgerItems Casing.ascii
      (extractPhaseTaskLedger Casing.ascii doubledDocument (some 0))
      ((onePhase "a").tasks.map PhaseExecutionTaskContract.id)).map
        PhaseTaskLedgerItem.lineNumber = [3] := by
    decide
  have hmatched : (matchedEntries doubledDocument).map ParityEntry.line = [2] := by decide
  obtain ⟨item, hitem, heq⟩ := List.map_eq_singleton_iff.mp hexecuted
  rw [Bound, hitem] at hbound
  obtain ⟨⟨entry, hentry, -, hnumber, -⟩, -⟩ := List.forall₂_cons.mp hbound
  have hline := List.mem_map_of_mem (f := ParityEntry.line) hentry
  rw [hmatched, List.mem_singleton] at hline
  omega

/-- With the first contract another checkbox is executed; no marker can name the task
of the second one. -/
theorem projection_fails :
    ((parsePhaseExecutionContract twoContracts (fun _ => []) (contractText "a")
          (js "c")).contract = some ⟨.v3, [onePhase "a"]⟩ ∧
        validatePhaseTaskLedgerParity doubledDocument (onePhase "a") = [] ∧
        ¬Bound Casing.ascii (some 0) doubledDocument (onePhase "a")) ∧
      (parsePhaseExecutionContract twoContracts (fun _ => []) (contractText "task_1")
          (js "c")).contract = some ⟨.v3, [onePhase "task_1"]⟩ ∧
        ∀ markdown, validatePhaseTaskLedgerParity markdown (onePhase "task_1") ≠ [] := by
  refine ⟨⟨parse_contractText.1, by decide, fun hbound => ?_⟩, parse_contractText.2,
    fun markdown hparity => ?_⟩
  · exact doubled_not_bound hbound
  · have hid : some (js "task_1") ∈ (matchedEntries markdown).map ParityEntry.taskId := by
      rw [taskIds_of_parity hparity]
      exact List.mem_cons_self
    obtain ⟨entry, hmem, hid⟩ := List.mem_map.mp hid
    obtain ⟨_, _, _, text, rest, _, _, _, hmarker⟩ := exists_line_of_entry hmem hid
    obtain ⟨_, _, _, hcontract⟩ := readMarker_eq_some.1 hmarker
    exact absurd hcontract (by decide)

end Hepha.Phases
