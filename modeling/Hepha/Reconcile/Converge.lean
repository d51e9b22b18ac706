import Hepha.Reconcile.Promotion

/-!
# Repeated calls come to an end

A call that changes something either promotes a phase, or gives a document its
ledger, or resets a task run.  Three counts go down, the first one first:

* `openStatuses`, the status lines of the documents that do not say COMPLETED:
  a promotion sets the first one, and replacing a section adds none;
* the documents that still need a ledger;
* the task runs with a terminal status.
-/

namespace Hepha.Reconcile

open JsString Pattern Markdown Date

/-! ## Open status lines -/

/-- A status line that does not say COMPLETED. -/
def isOpenLine (line : JsString) : Bool :=
  (afterStatusLabel line).isSome && line.trim != js "**Status:** COMPLETED"

/-- The number of open status lines. -/
def openStatuses (markdown : JsString) : ℕ :=
  (splitLines markdown).countP isOpenLine

theorem lowerCase_eq_star {u : CodeUnit} (h : lowerCase u = 0x2A) : u = 0x2A := by
  unfold lowerCase at h
  split at h
  · rename_i hupper
    rw [Bool.and_eq_true, decide_eq_true_eq, decide_eq_true_eq, UInt16.le_iff_toNat_le,
      UInt16.le_iff_toNat_le] at hupper
    have hnat := congrArg UInt16.toNat h
    rw [UInt16.toNat_add] at hnat
    simp only [UInt16.reduceToNat] at hupper hnat
    omega
  · exact h

/-- A status line begins with an asterisk. -/
theorem head?_of_afterStatusLabel {line : JsString} (h : (afterStatusLabel line).isSome = true) :
    line.head? = some 0x2A := by
  obtain ⟨rest, hrest⟩ := Option.isSome_iff_exists.mp h
  obtain ⟨front, rfl, hfront⟩ := head?_litIgnoreCase.1 hrest
  cases front with
  | nil => exact absurd hfront (by decide)
  | cons u front =>
      have hlabel : js "**status:**" = 0x2A :: js "*status:**" := by decide
      rw [hlabel] at hfront
      rw [List.cons_append, List.head?_cons, lowerCase_eq_star (List.cons.inj hfront).1]

theorem isOpenLine_eq_false {line : JsString} (h : line.head? ≠ some 0x2A) :
    isOpenLine line = false := by
  cases hlabel : (afterStatusLabel line).isSome with
  | false => rw [isOpenLine, hlabel, Bool.false_and]
  | true => exact absurd (head?_of_afterStatusLabel hlabel) h

theorem afterStatusLabel_append {line rest : JsString} (h : afterStatusLabel line = some rest)
    (more : JsString) : afterStatusLabel (line ++ more) = some (rest ++ more) := by
  obtain ⟨front, rfl, hfront⟩ := head?_litIgnoreCase.1 h
  exact head?_litIgnoreCase.2 ⟨front, List.append_assoc _ _ _, hfront⟩

/-- White space, or a text with a `#` in it, leaves an open line open. -/
theorem isOpenLine_append {line more : JsString} (h : isOpenLine line = true)
    (hmore : (∀ u ∈ more, isWhiteSpace u = true) ∨ 0x23 ∈ more) :
    isOpenLine (line ++ more) = true := by
  rw [isOpenLine, Bool.and_eq_true, bne_iff_ne] at h ⊢
  obtain ⟨rest, hrest⟩ := Option.isSome_iff_exists.mp h.1
  refine ⟨by rw [afterStatusLabel_append hrest]; rfl, ?_⟩
  rcases hmore with hwhite | hhash
  · rw [trim_append_white hwhite]
    exact h.2
  · intro heq
    have hmem := mem_trim (List.mem_append_right line hhash) (by decide)
    rw [heq] at hmem
    exact absurd hmem (by decide)

/-! ## Parts of a text -/

/-- The open status lines of a text, its first line apart. -/
def laterOpen (markdown : JsString) : ℕ :=
  (splitLines markdown).tail.countP isOpenLine

theorem openStatuses_of_head {markdown : JsString} (h : markdown.head? = some 0x23) :
    openStatuses markdown = laterOpen markdown ∧
      0x23 ∈ ((splitLines markdown).head?).getD [] := by
  obtain ⟨tail, rfl⟩ := List.head?_eq_some_iff.mp h
  obtain ⟨first, rest, hs⟩ := exists_splitLines_cons tail
  have hlines : splitLines (0x23 :: tail) = (0x23 :: first) :: rest := by
    rw [splitLines_cons, if_neg (by decide), if_neg (by simp), hs, List.modifyHead_cons]
  rw [openStatuses, laterOpen, hlines]
  refine ⟨?_, by simp⟩
  rw [List.countP_cons_of_neg, List.tail_cons]
  rw [isOpenLine_eq_false (by simp)]
  exact Bool.false_ne_true

theorem laterOpen_append (a b : JsString) : laterOpen b ≤ laterOpen (a ++ b) := by
  obtain ⟨first, rest, hb⟩ := exists_splitLines_cons b
  obtain ⟨line, front, hwhole⟩ := exists_splitLines_append a hb
  rw [laterOpen, laterOpen, hb, hwhole, List.tail_cons, List.tail_cons, List.countP_append]
  exact Nat.le_add_left _ _

/-- The first line of white space and a heading is white or has the heading's `#`. -/
theorem firstLine_white {white b first : JsString} {rest : List JsString}
    (hwhite : ∀ u ∈ white, isWhiteSpace u = true) (hb : b = [] ∨ b.head? = some 0x23)
    (h : splitLines (white ++ b) = first :: rest) :
    (∀ u ∈ first, isWhiteSpace u = true) ∨ 0x23 ∈ first := by
  rcases hb with rfl | hb
  · rw [List.append_nil] at h
    exact .inl fun u hu => hwhite u (mem_of_mem_splitLines (h ▸ List.mem_cons_self) hu)
  · obtain ⟨front, last, hfront⟩ := exists_splitLines_concat white
    obtain ⟨bFirst, bRest, hrest⟩ := exists_splitLines_cons b
    have hwhole := splitLines_append hfront hrest (.inr (by rw [hb]; simp))
    rw [h] at hwhole
    cases front with
    | nil =>
        obtain ⟨rfl, -⟩ := List.cons.inj hwhole
        have hhash := (openStatuses_of_head hb).2
        rw [hrest] at hhash
        exact .inr (List.mem_append_right _ hhash)
    | cons line front =>
        obtain ⟨rfl, -⟩ := List.cons.inj hwhole
        refine .inl fun u hu => hwhite u (mem_of_mem_splitLines ?_ hu)
        rw [hfront]
        exact List.mem_append_left _ List.mem_cons_self

/-- What is cut off at the end of a text takes its open lines with it. -/
theorem openStatuses_trimEnd_append {a b : JsString} (hb : b = [] ∨ b.head? = some 0x23) :
    openStatuses a.trimEnd + laterOpen b ≤ openStatuses (a ++ b) := by
  obtain ⟨white, ha, hwhite⟩ := exists_trimEnd_append a
  have hreturn : a.trimEnd.getLast? ≠ some 0x0D := fun hlast =>
    absurd (getLast?_trimEnd hlast) (by decide)
  obtain ⟨front, last, hfront⟩ := exists_splitLines_concat a.trimEnd
  obtain ⟨first, rest, hrest⟩ := exists_splitLines_cons (white ++ b)
  have hlater : laterOpen b ≤ rest.countP isOpenLine := by
    have hle := laterOpen_append white b
    rwa [laterOpen, laterOpen, hrest, List.tail_cons] at hle
  have hfirst : (∀ u ∈ first, isWhiteSpace u = true) ∨ 0x23 ∈ first :=
    firstLine_white hwhite hb hrest
  have hwhole := splitLines_append hfront hrest (.inl hreturn)
  rw [← List.append_assoc, ← ha] at hwhole
  rw [openStatuses, openStatuses, hfront, hwhole, List.countP_append, List.countP_append,
    List.countP_singleton, List.countP_cons]
  by_cases hopen : isOpenLine last = true
  · rw [if_pos hopen, if_pos (isOpenLine_append hopen hfirst)]
    omega
  · rw [if_neg hopen]
    omega

/-- A line feed between two texts adds up their open lines. -/
theorem openStatuses_append_lineFeed {a b : JsString} (h : a.getLast? ≠ some 0x0D) :
    openStatuses (a ++ 0x0A :: b) = openStatuses a + openStatuses b := by
  rw [openStatuses, splitLines_append_lineFeed h, List.countP_append]
  rfl

theorem openStatuses_trimEnd_le (markdown : JsString) :
    openStatuses markdown.trimEnd ≤ openStatuses markdown := by
  have hle := openStatuses_trimEnd_append (a := markdown) (b := []) (.inl rfl)
  rw [List.append_nil] at hle
  omega

theorem trimEnd_getLast?_ne (markdown : JsString) : markdown.trimEnd.getLast? ≠ some 0x0D :=
  fun hlast => absurd (getLast?_trimEnd hlast) (by decide)

/-- Lines that do not begin with an asterisk are no status lines. -/
theorem openStatuses_joinLines_eq_zero {lines : List JsString}
    (h : ∀ line ∈ lines, line.head? ≠ some 0x2A ∧ 0x0A ∉ line) :
    openStatuses (joinLines lines) = 0 := by
  induction lines with
  | nil => rfl
  | cons line rest ih =>
      obtain ⟨hhead, hline⟩ := h line List.mem_cons_self
      have hrest := ih fun other hother => h other (List.mem_cons_of_mem _ hother)
      have hclosed (first : JsString) (hfirst : line = first ∨ line = first ++ [0x0D]) :
          isOpenLine first = false := by
        refine isOpenLine_eq_false fun hstar => hhead ?_
        rcases hfirst with rfl | rfl
        · exact hstar
        · rw [List.head?_append, hstar]
          rfl
      cases rest with
      | nil =>
          rw [openStatuses, joinLines, List.intercalate_singleton, splitLines_eq_singleton hline,
            List.countP_singleton, hclosed line (.inl rfl)]
          rfl
      | cons next rest =>
          obtain ⟨first, hsplit, hfirst⟩ := splitLines_line (s := joinLines (next :: rest)) hline
          rw [joinLines, List.intercalate_cons_cons, List.append_assoc, List.singleton_append]
          change openStatuses (line ++ 0x0A :: joinLines (next :: rest)) = 0
          rw [openStatuses, hsplit, List.countP_cons, hclosed first hfirst]
          exact hrest

/-- Joined lines have at most the open status lines they are joined of. -/
theorem openStatuses_joinLines_le {lines : List JsString} (h : ∀ line ∈ lines, 0x0A ∉ line) :
    openStatuses (joinLines lines) ≤ lines.countP isOpenLine := by
  induction lines with
  | nil => exact Nat.le_refl 0
  | cons line rest ih =>
      have hline := h line List.mem_cons_self
      have hrest := ih fun other hother => h other (List.mem_cons_of_mem _ hother)
      cases rest with
      | nil =>
          rw [openStatuses, joinLines, List.intercalate_singleton, splitLines_eq_singleton hline]
      | cons next rest =>
          obtain ⟨first, hsplit, hfirst⟩ := splitLines_line (s := joinLines (next :: rest)) hline
          have hopen : isOpenLine first = true → isOpenLine line = true := by
            intro hopen
            rcases hfirst with rfl | rfl
            · exact hopen
            · exact isOpenLine_append hopen (.inl (List.all_eq_true.mp (by decide)))
          rw [joinLines, List.intercalate_cons_cons, List.append_assoc, List.singleton_append]
          change openStatuses (line ++ 0x0A :: joinLines (next :: rest)) ≤ _
          rw [openStatuses, hsplit, List.countP_cons, List.countP_cons]
          unfold openStatuses at hrest
          by_cases hfirstOpen : isOpenLine first = true
          · rw [if_pos hfirstOpen, if_pos (hopen hfirstOpen)]
            omega
          · rw [if_neg hfirstOpen]
            omega

/-! ## The edits of a call -/

/-- Putting a section into a document adds no open status line. -/
theorem openStatuses_upsertMarkdownSection {markdown text : JsString} (heading : String)
    (htext : openStatuses text.trim = 0) :
    openStatuses (upsertMarkdownSection markdown heading text) ≤ openStatuses markdown := by
  have hparts (a c : JsString) :
      openStatuses (a.trimEnd ++ js "\n\n" ++ text.trim ++ js "\n" ++ c) =
      openStatuses a.trimEnd + openStatuses c := by
    have hshape : a.trimEnd ++ js "\n\n" ++ text.trim ++ js "\n" ++ c =
        a.trimEnd ++ 0x0A :: ([] ++ 0x0A :: (text.trim ++ 0x0A :: c)) := by
      have hfeeds : js "\n\n" = [0x0A, 0x0A] := by decide
      have hfeed : js "\n" = [0x0A] := by decide
      simp [hfeeds, hfeed]
    rw [hshape, openStatuses_append_lineFeed (trimEnd_getLast?_ne a),
      openStatuses_append_lineFeed (by simp),
      openStatuses_append_lineFeed (trim_eq text ▸ trimEnd_getLast?_ne _), htext]
    have hnil : openStatuses [] = 0 := rfl
    omega
  unfold upsertMarkdownSection
  split
  · have h := hparts markdown []
    rw [List.append_nil] at h
    rw [h]
    have := openStatuses_trimEnd_le markdown
    have hnil : openStatuses [] = 0 := rfl
    omega
  · rename_i parts hfound
    obtain ⟨body, hsplit, -, hafter⟩ := findSection_eq_some hfound
    rw [hparts]
    have hhash : (js "##" ++ body ++ parts.after).head? = some 0x23 := rfl
    have hbefore := openStatuses_trimEnd_append (a := parts.before) (.inr hhash)
    rw [← hsplit] at hbefore
    have hlater := laterOpen_append (js "##" ++ body) parts.after
    have hrest : openStatuses parts.after.trimStart ≤ laterOpen parts.after := by
      rcases hafter with hnil | ⟨tail, htail⟩
      · rw [hnil]
        exact Nat.le_refl 0
      · have hstart : parts.after.trimStart = parts.after := by
          rw [← htail]
          rfl
        rw [hstart, (openStatuses_of_head (by rw [← htail]; rfl)).1]
    omega

/-- A section whose lines are headings, list items and blank lines. -/
theorem openStatuses_section {heading : JsString} {lines : List JsString}
    (hheading : heading.head? = some 0x23)
    (h : ∀ line ∈ heading :: lines, line.head? ≠ some 0x2A ∧ 0x0A ∉ line) :
    openStatuses (joinLines (heading :: lines)).trim = 0 := by
  obtain ⟨tail, rfl⟩ := List.head?_eq_some_iff.mp hheading
  have hstart : trimStart (joinLines ((0x23 :: tail) :: lines)) =
      joinLines ((0x23 :: tail) :: lines) := by
    rw [joinLines, List.intercalate_cons_cons_left]
    exact List.dropWhile_cons_of_neg (by decide)
  have hle := openStatuses_trimEnd_le (joinLines ((0x23 :: tail) :: lines))
  rw [openStatuses_joinLines_eq_zero h] at hle
  rw [trim_eq, hstart]
  omega

/-- Setting the status to COMPLETED closes an open status line. -/
theorem openStatuses_replacePhaseStatus {markdown line : JsString} {before after : List JsString}
    (hsplit : splitLines markdown = before ++ line :: after)
    (hindex : (splitLines markdown).findIdx? (fun line => (afterStatusLabel line).isSome) =
      some before.length) (hopen : isOpenLine line = true) :
    openStatuses (replacePhaseStatus markdown (js "COMPLETED")) < openStatuses markdown := by
  have hlines : ∀ other ∈ splitLines markdown, 0x0A ∉ other :=
    fun other hother => not_mem_of_mem_splitLines hother
  have hset : (splitLines markdown).set before.length (js "**Status:** " ++ js "COMPLETED") =
      before ++ (js "**Status:** " ++ js "COMPLETED") :: after := by
    rw [hsplit, List.set_append_right _ _ (Nat.le_refl _), Nat.sub_self, List.set_cons_zero]
  have hfeed : js "\n" = [0x0A] := by decide
  unfold replacePhaseStatus
  simp only [hindex, hset]
  rw [hfeed, openStatuses_append_lineFeed (trimEnd_getLast?_ne _)]
  have hjoin : openStatuses (joinLines (before ++ (js "**Status:** " ++ js "COMPLETED") :: after)) ≤
      (before ++ (js "**Status:** " ++ js "COMPLETED") :: after).countP isOpenLine := by
    refine openStatuses_joinLines_le fun other hother => ?_
    rw [hsplit] at hlines
    rcases List.mem_append.mp hother with hother | hother
    · exact hlines other (List.mem_append_left _ hother)
    · rcases List.mem_cons.mp hother with rfl | hother
      · decide
      · exact hlines other (List.mem_append_right _ (List.mem_cons_of_mem _ hother))
  have hclosed : isOpenLine (js "**Status:** " ++ js "COMPLETED") = false := by decide
  have htrim := openStatuses_trimEnd_le
    (joinLines (before ++ (js "**Status:** " ++ js "COMPLETED") :: after))
  have hnil : openStatuses [] = 0 := rfl
  have hold : openStatuses markdown = (before ++ line :: after).countP isOpenLine := by
    rw [openStatuses, hsplit]
  rw [List.countP_append, List.countP_cons, hclosed] at hjoin
  rw [hold, List.countP_append, List.countP_cons, if_pos hopen]
  simp only [Bool.false_eq_true, if_false] at hjoin
  omega

/-- What the status line of a document with a status that is not terminal looks like. -/
theorem exists_openLine {casing : Casing} {markdown : JsString}
    (hsome : (normalizeReconciliationPhaseStatus casing (extractPhaseStatus markdown)).isSome = true)
    (hopen : isTerminal (normalizeReconciliationPhaseStatus casing (extractPhaseStatus markdown)) =
      false) :
    ∃ before line after, splitLines markdown = before ++ line :: after ∧
      (splitLines markdown).findIdx? (fun line => (afterStatusLabel line).isSome) =
        some before.length ∧ isOpenLine line = true := by
  cases hfound : (splitLines markdown).findSome? afterStatusLabel with
  | none =>
      rw [extractPhaseStatus, hfound] at hsome
      cases hsome
  | some rest =>
      obtain ⟨before, line, after, hsplit, hline, hbefore⟩ := List.findSome?_eq_some_iff.mp hfound
      refine ⟨before, line, after, hsplit, ?_, ?_⟩
      · rw [hsplit, List.findIdx?_append, List.findIdx?_eq_none_iff.mpr fun other hother => by
          rw [hbefore other hother]; rfl, List.findIdx?_cons, hline]
        simp
      rw [isOpenLine, hline, Option.isSome_some, Bool.true_and, bne_iff_ne]
      intro htrim
      -- a line that says COMPLETED has a terminal status
      have hstar : line.head? = some 0x2A := head?_of_afterStatusLabel (by rw [hline]; rfl)
      obtain ⟨tail, rfl⟩ := List.head?_eq_some_iff.mp hstar
      have hstart : trimStart (0x2A :: tail) = 0x2A :: tail :=
        List.dropWhile_cons_of_neg (by decide)
      obtain ⟨white, hwhole, hwhite⟩ := exists_trimEnd_append (0x2A :: tail)
      rw [trim_eq, hstart] at htrim
      rw [htrim] at hwhole
      have hlabel : afterStatusLabel (js "**Status:** COMPLETED") = some (js " COMPLETED") := by
        decide
      rw [hwhole, afterStatusLabel_append hlabel] at hline
      have hcapture : captureTrimmed (js " COMPLETED" ++ white) = some (js "COMPLETED") := by
        have hword : (js " COMPLETED").trim = js "COMPLETED" := by decide
        rw [captureTrimmed, trim_append_white hwhite, hword, if_neg (by decide),
          if_neg (by decide)]
      have hterminal : isTerminal (normalizeReconciliationPhaseStatus casing
          (some (js "COMPLETED"))) = true := by
        have htrimmed : (js "COMPLETED").trim = js "COMPLETED" := by decide
        have hupper : casing.toUpperCase (js "COMPLETED") = js "COMPLETED" := by
          rw [casing.toUpperCase_of_all (by decide)]
          decide
        rw [normalizeReconciliationPhaseStatus, Option.bind_some, htrimmed, hupper,
          if_neg (by decide)]
        decide
      rw [extractPhaseStatus, hfound, Option.bind_some, ← Option.some.inj hline, hcapture,
        hterminal] at hopen
      cases hopen

/-- The document of a promotion has fewer open status lines. -/
theorem openStatuses_promotedDocument {markdown timestamp line : JsString} {phaseNumber : ℕ}
    {before after : List JsString}
    (hsplit : splitLines markdown = before ++ line :: after)
    (hindex : (splitLines markdown).findIdx? (fun line => (afterStatusLabel line).isSome) =
      some before.length) (hopen : isOpenLine line = true) (htimestamp : 0x0A ∉ timestamp) :
    openStatuses (promotedDocument markdown timestamp phaseNumber) < openStatuses markdown := by
  have hreplace := openStatuses_replacePhaseStatus hsplit hindex hopen
  unfold promotedDocument
  refine Nat.lt_of_le_of_lt (openStatuses_upsertMarkdownSection _ ?_)
    (Nat.lt_of_le_of_lt (openStatuses_upsertMarkdownSection _ ?_) hreplace)
  · refine openStatuses_section (by decide) fun line hline => ?_
    simp only [List.mem_cons, List.not_mem_nil, or_false] at hline
    have hnumber : 0x0A ∉ decimalText phaseNumber := fun hmem =>
      absurd (isDigit_of_mem_decimalText hmem) (by decide)
    rcases hline with rfl | rfl | rfl | rfl
    · decide
    · decide
    · refine ⟨?_, ?_⟩
      · simp only [List.append_assoc]
        rw [List.head?_append_of_ne_nil _ (js_ne_nil (by decide))]
        decide
      simp only [phaseText, List.mem_append, not_or]
      exact ⟨⟨⟨⟨by decide, htimestamp⟩, by decide⟩, by decide, hnumber⟩,
        by decide⟩
    · decide
  · refine openStatuses_section (by decide) fun line hline => ?_
    simp only [List.mem_cons, List.not_mem_nil, or_false] at hline
    rcases hline with rfl | rfl | rfl | rfl | rfl | rfl
    · decide
    · decide
    · decide
    · have hhead : (js "- **Completed At:** " ++ timestamp).head? = some 0x2D := rfl
      refine ⟨by rw [hhead]; decide, ?_⟩
      rw [List.mem_append, not_or]
      exact ⟨by decide, htimestamp⟩
    · decide
    · decide

/-! ## The ledger of a document -/

theorem not_mem_of_legacyEntry {line task state : JsString} (hline : 0x0A ∉ line)
    (h : legacyEntry line = some (task, state)) : 0x0A ∉ task := by
  unfold legacyEntry at h
  split at h
  · cases h
  · split at h
    · rename_i id cell cell' rest hcells
      split at h
      · cases h
      · cases h
        have hmem : task ∈ tableCells line := by
          rw [hcells]
          exact List.mem_cons_of_mem _ List.mem_cons_self
        obtain ⟨piece, hpiece, rfl⟩ := List.mem_map.mp hmem
        have hpart := @infix_intercalate _ [unitPipe] _ _
          (List.mem_of_mem_tail (List.mem_of_mem_dropLast hpiece))
        rw [List.intercalate_splitOn] at hpart
        exact fun hfeed => hline (hpart.mem (mem_of_mem_trim hfeed))
    · cases h

/-- The lines of the ledger made from a legacy table. -/
def ledgerLines (entries : List (JsString × JsString)) : List JsString :=
  [js "## Phase Task Ledger", []] ++ entries.map (fun (task, state) =>
    js "- [" ++ (if testWhole (oneOf [litIgnoreCase "completed", litIgnoreCase "skipped"]) state
      then js "x" else js " ") ++ js "] " ++ task) ++ [[]]

theorem initializeLegacy_eq_some {markdown migrated : JsString}
    (h : initializeLegacyHephaTaskStateLedger markdown = some migrated) :
    ∃ entries, (∀ entry ∈ entries, 0x0A ∉ entry.1) ∧
      migrated = markdown.trimEnd ++ js "\n\n" ++ joinLines (ledgerLines entries) := by
  unfold initializeLegacyHephaTaskStateLedger at h
  split at h
  · cases h
  · obtain ⟨body, -, h⟩ := Option.bind_eq_some_iff.mp h
    dsimp only at h
    split at h
    · cases h
    · cases h
      refine ⟨_, fun entry hentry => ?_, rfl⟩
      obtain ⟨line, hline, hentry⟩ := List.mem_filterMap.mp hentry
      exact not_mem_of_legacyEntry (not_mem_of_mem_splitLines hline) hentry

/-- A document gets its ledger once. -/
theorem initializeLegacy_migrated {markdown migrated : JsString}
    (h : initializeLegacyHephaTaskStateLedger markdown = some migrated) :
    initializeLegacyHephaTaskStateLedger migrated = none := by
  obtain ⟨entries, -, rfl⟩ := initializeLegacy_eq_some h
  obtain ⟨rest, hrest⟩ : ∃ rest, ledgerLines entries = js "## Phase Task Ledger" :: [] :: rest :=
    ⟨_, rfl⟩
  have hshape : markdown.trimEnd ++ js "\n\n" ++ joinLines (ledgerLines entries) =
      (markdown.trimEnd ++ js "\n\n") ++ (js "## Phase Task Ledger" ++ 0x0A ::
        joinLines ([] :: rest)) := by
    rw [hrest, joinLines, List.intercalate_cons_cons, List.append_assoc _ [0x0A]]
    rfl
  have hlast : (markdown.trimEnd ++ js "\n\n").getLast?.all isLineTerminator = true := by
    rw [List.getLast?_append_of_ne_nil _ (js_ne_nil (by decide))]
    decide
  have hheading : [] ∈ headingText "phase task ledger" (js "## Phase Task Ledger") := by
    decide
  have hfound : (searchLines (sectionHeading "phase task ledger") true _).isSome = true :=
    searchLines_isSome hlast (fun _ => rfl) (sectionHeading_line hheading (joinLines ([] :: rest)))
  rw [initializeLegacyHephaTaskStateLedger, hshape, if_pos hfound]

theorem openStatuses_migrated {markdown migrated : JsString}
    (h : initializeLegacyHephaTaskStateLedger markdown = some migrated) :
    openStatuses migrated ≤ openStatuses markdown := by
  obtain ⟨entries, hentries, rfl⟩ := initializeLegacy_eq_some h
  have hledger : openStatuses (joinLines (ledgerLines entries)) = 0 := by
    refine openStatuses_joinLines_eq_zero fun line hline => ?_
    rw [ledgerLines, List.mem_append, List.mem_append] at hline
    rcases hline with (hline | hline) | hline
    · simp only [List.mem_cons, List.not_mem_nil, or_false] at hline
      rcases hline with rfl | rfl <;> decide
    · obtain ⟨⟨task, state⟩, hentry, rfl⟩ := List.mem_map.mp hline
      dsimp only
      refine ⟨?_, ?_⟩
      · simp only [List.append_assoc]
        rw [List.head?_append_of_ne_nil _ (js_ne_nil (by decide))]
        decide
      · simp only [List.mem_append, not_or]
        refine ⟨⟨⟨by decide, ?_⟩, by decide⟩, hentries _ hentry⟩
        split <;> decide
    · rw [List.mem_singleton.mp hline]
      decide
  have hfeeds : js "\n\n" = [0x0A, 0x0A] := by decide
  have hshape : markdown.trimEnd ++ js "\n\n" ++ joinLines (ledgerLines entries) =
      markdown.trimEnd ++ 0x0A :: ([] ++ 0x0A :: joinLines (ledgerLines entries)) := by
    simp [hfeeds]
  have hnil : openStatuses [] = 0 := rfl
  have htrim := openStatuses_trimEnd_le markdown
  rw [hshape, openStatuses_append_lineFeed (trimEnd_getLast?_ne _),
    openStatuses_append_lineFeed (by simp), hledger]
  omega

end Hepha.Reconcile
