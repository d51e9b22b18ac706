import Hepha.Phases.Ledger

/-!
# What the ledger takes from a document

The ledger is read from the headings and the checkboxes of a document alone.  A
document therefore keeps its ledger under an edit that keeps these events: lines
that are neither may come and go, and a carriage return at the end of a line and
white space at the end of the text mostly do not matter.
-/

namespace Hepha.Phases

open JsString Pattern

/-! ## Events -/

/-- A heading or a checkbox. -/
def eventOf (line : JsString) : Option Line :=
  match readLine line with
  | .other => none
  | event => some event

/-- The headings and checkboxes of a document. -/
def events (markdown : JsString) : List Line := (splitLines markdown).filterMap eventOf

/-- A task without the number of its line. -/
def PhaseTaskLedgerItem.content (item : PhaseTaskLedgerItem) : PhaseTaskLedgerItem :=
  { item with lineNumber := 0 }

/-- The tasks of a document, without the numbers of their lines. -/
def ledgerContent (casing : Casing) (phaseNumber : Option ℕ) (markdown : JsString) :
    List PhaseTaskLedgerItem :=
  (extractPhaseTaskLedger casing markdown phaseNumber).map PhaseTaskLedgerItem.content

section Content

variable (casing : Casing) (phaseNumber : Option ℕ) (hasExplicitLedger : Bool)

/-- A checkbox that counts has been read. -/
def LedgerState.see (s : LedgerState) (text : JsString) : LedgerState :=
  { s with seenIds :=
    s.seenIds ++ [createPhaseTaskId casing phaseNumber s.heading (taskText text)] }

/-- The tasks of a sequence of events. -/
def contentFrom : LedgerState → List Line → List PhaseTaskLedgerItem
  | _, [] => []
  | s, .heading level text :: rest => contentFrom (s.enter hasExplicitLedger level text) rest
  | s, .checkbox mark text :: rest =>
      if s.insideExplicitLedger then
        (s.item casing phaseNumber 0 mark text).content ::
          contentFrom (s.see casing phaseNumber text) rest
      else contentFrom s rest
  | s, .other :: rest => contentFrom s rest

/-- An event is the heading of an explicit ledger. -/
def isLedgerEvent : Line → Bool
  | .heading _ text => isLedgerHeading (cleanInlineMarkdown text)
  | _ => false

/-- The tasks of a document with the given events. -/
def contentOf (events : List Line) : List PhaseTaskLedgerItem :=
  contentFrom casing phaseNumber (events.any isLedgerEvent)
    (initialLedgerState (events.any isLedgerEvent)) events

end Content

variable {casing : Casing} {phaseNumber : Option ℕ} {hasExplicitLedger : Bool}

theorem content_ledgerItems (s : LedgerState) (index : ℕ) (lines : List JsString) :
    (ledgerItems casing phaseNumber hasExplicitLedger s index lines).map
        PhaseTaskLedgerItem.content =
      contentFrom casing phaseNumber hasExplicitLedger s (lines.filterMap eventOf) := by
  induction lines generalizing s index with
  | nil => rfl
  | cons line rest ih =>
      rw [ledgerItems, List.map_append, ih]
      unfold LedgerState.read LedgerState.step
      cases hline : readLine line with
      | heading level text =>
          have hevent : eventOf line = some (.heading level text) := by rw [eventOf, hline]
          rw [List.filterMap_cons_some hevent]
          rfl
      | other =>
          have hevent : eventOf line = none := by rw [eventOf, hline]
          rw [List.filterMap_cons_none hevent]
          rfl
      | checkbox mark text =>
          have hevent : eventOf line = some (.checkbox mark text) := by rw [eventOf, hline]
          rw [List.filterMap_cons_some hevent, contentFrom]
          by_cases hinside : s.insideExplicitLedger = true
          · simp only [if_pos hinside]
            rfl
          · simp only [if_neg hinside]
            rfl

theorem isLedgerEvent_eventOf (line : JsString) :
    (eventOf line).any isLedgerEvent = startsExplicitLedger line := by
  unfold eventOf startsExplicitLedger readLine
  cases readHeading line with
  | some heading => rfl
  | none =>
      cases readCheckbox line with
      | none => rfl
      | some checkbox => rfl

/-- **The ledger of a document is that of its events.** -/
theorem ledgerContent_eq (markdown : JsString) :
    ledgerContent casing phaseNumber markdown = contentOf casing phaseNumber (events markdown) := by
  have hexplicit (lines : List JsString) :
      (lines.filterMap eventOf).any isLedgerEvent = lines.any startsExplicitLedger := by
    induction lines with
    | nil => rfl
    | cons line rest ih =>
        rw [List.any_cons, ← ih, ← isLedgerEvent_eventOf]
        cases hevent : eventOf line with
        | none => rw [List.filterMap_cons_none hevent]; rfl
        | some event => rw [List.filterMap_cons_some hevent]; rfl
  rw [ledgerContent, extractPhaseTaskLedger, content_ledgerItems, contentOf, events, hexplicit]

/-! ## Lines that are no events -/

theorem captureTrimmed_eq_none {s : JsString} (h : ∀ u ∈ s, isLineTerminator u = true) :
    captureTrimmed s = none := by
  have hwhite (u : CodeUnit) (hu : u ∈ s) : isWhiteSpace u = true := by
    have := h u hu
    simp only [isLineTerminator, Bool.or_eq_true, beq_iff_eq, or_assoc] at this
    rcases this with rfl | rfl | rfl | rfl <;> decide
  have htrim : s.trim = [] := by
    rw [trim_eq, trimStart, List.dropWhile_eq_nil_iff.mpr hwhite]
    rfl
  have hfilter : s.filter (fun u => !isLineTerminator u) = [] :=
    List.filter_eq_nil_iff.mpr fun u hu => by simp [h u hu]
  rw [captureTrimmed, htrim, hfilter]
  rfl

/-- A line terminator at the end of a line is not captured. -/
theorem captureTrimmed_append_return (s : JsString) :
    captureTrimmed (s ++ [0x0D]) = captureTrimmed s := by
  have htrim : (s ++ [0x0D]).trim = s.trim :=
    trim_append_white (List.forall_mem_singleton.mpr rfl)
  have hreturn : ([0x0D] : JsString).filter (fun u => !isLineTerminator u) = [] := by decide
  rw [captureTrimmed, captureTrimmed, htrim, List.filter_append, hreturn, List.append_nil]

theorem readCheckbox_eq_some {line text : JsString} {mark : CodeUnit} :
    readCheckbox line = some (mark, text) ↔ ∃ box, splitCheckbox line = some box ∧
      box.mark = mark ∧ anyOf " xX-" mark = true ∧ captureTrimmed box.rest = some text := by
  rw [readCheckbox, Option.bind_eq_some_iff]
  refine exists_congr fun box => and_congr_right fun _ => ?_
  constructor
  · intro h
    split at h
    · rename_i hmark
      obtain ⟨captured, hcapture, heq⟩ := Option.map_eq_some_iff.mp h
      cases heq
      exact ⟨rfl, hmark, hcapture⟩
    · cases h
  · rintro ⟨rfl, hmark, hcapture⟩
    rw [if_pos hmark, hcapture]
    rfl

theorem splitCheckbox_append {line : JsString} {box : Checkbox} (h : splitCheckbox line = some box)
    (more : JsString) :
    splitCheckbox (line ++ more) = some { box with rest := box.rest ++ more } := by
  obtain ⟨indent, bullet, gap, hopening, hline, hrest⟩ := splitCheckbox_eq_some.1 h
  refine splitCheckbox_eq_some.2 ⟨indent, bullet, gap, hopening, ?_, hrest⟩
  rw [hline]
  simp

/-- More text that the capture does not see changes no heading. -/
theorem readHeading_append {line more text : JsString} {level : ℕ}
    (h : readHeading line = some (level, text))
    (hmore : ∀ rest, rest <:+ line → captureTrimmed rest = some text →
      captureTrimmed (rest ++ more) = some text) :
    readHeading (line ++ more) = some (level, text) := by
  obtain ⟨indent, white, rest, rfl, hindent, hthree, hone, hsix, hwhite, hcapture⟩ :=
    readHeading_eq_some.1 h
  refine readHeading_eq_some.2 ⟨indent, white, rest ++ more, by simp, hindent, hthree, hone, hsix,
    hwhite, hmore rest ?_ hcapture⟩
  exact ⟨indent ++ (List.replicate level 0x23 ++ [white]), by simp⟩

theorem readCheckbox_append {line more text : JsString} {mark : CodeUnit}
    (h : readCheckbox line = some (mark, text))
    (hmore : ∀ rest, rest <:+ line → captureTrimmed rest = some text →
      captureTrimmed (rest ++ more) = some text) :
    readCheckbox (line ++ more) = some (mark, text) := by
  obtain ⟨box, hbox, hmark, hallowed, hcapture⟩ := readCheckbox_eq_some.1 h
  refine readCheckbox_eq_some.2 ⟨_, splitCheckbox_append hbox more, hmark, hallowed,
    hmore box.rest ?_ hcapture⟩
  obtain ⟨indent, bullet, gap, -, hline, -⟩ := splitCheckbox_eq_some.1 hbox
  exact ⟨box.opening ++ [box.mark, 0x5D, box.white], by rw [hline]; simp⟩

/-! ## A carriage return at the end of a line -/

theorem readHeading_append_return (line : JsString) :
    readHeading (line ++ [0x0D]) = readHeading line := by
  refine Option.ext fun heading => ?_
  obtain ⟨level, text⟩ := heading
  constructor
  · intro h
    obtain ⟨indent, white, rest, hline, hindent, hthree, hone, hsix, hwhite, hcapture⟩ :=
      readHeading_eq_some.1 h
    rcases List.eq_nil_or_concat' rest with rfl | ⟨kept, last, rfl⟩
    · rw [captureTrimmed_eq_none (by simp)] at hcapture
      cases hcapture
    · have hsplit : line ++ [0x0D] =
          (indent ++ (List.replicate level 0x23 ++ white :: kept)) ++ [last] := by
        rw [hline]
        simp
      obtain ⟨rfl, hlast⟩ := List.append_inj' hsplit rfl
      cases hlast
      rw [captureTrimmed_append_return] at hcapture
      exact readHeading_eq_some.2
        ⟨indent, white, kept, rfl, hindent, hthree, hone, hsix, hwhite, hcapture⟩
  · intro h
    refine readHeading_append h fun rest _ hcapture => ?_
    rwa [captureTrimmed_append_return]

theorem readCheckbox_append_return (line : JsString) :
    readCheckbox (line ++ [0x0D]) = readCheckbox line := by
  refine Option.ext fun checkbox => ?_
  obtain ⟨mark, text⟩ := checkbox
  constructor
  · intro h
    obtain ⟨box, hbox, hmark, hallowed, hcapture⟩ := readCheckbox_eq_some.1 h
    obtain ⟨indent, bullet, gap, hopening, hline, hunits⟩ := splitCheckbox_eq_some.1 hbox
    rcases List.eq_nil_or_concat' box.rest with hrest | ⟨kept, last, hrest⟩
    · rw [hrest, captureTrimmed_eq_none (by simp)] at hcapture
      cases hcapture
    · have hsplit : line ++ [0x0D] =
          (box.opening ++ box.mark :: 0x5D :: box.white :: kept) ++ [last] := by
        rw [hline, hrest]
        simp
      obtain ⟨hkept, hlast⟩ := List.append_inj' hsplit rfl
      cases hlast
      rw [hrest, captureTrimmed_append_return] at hcapture
      exact readCheckbox_eq_some.2 ⟨{ box with rest := kept },
        splitCheckbox_eq_some.2 ⟨indent, bullet, gap, hopening, hkept, hunits⟩, hmark, hallowed,
        hcapture⟩
  · intro h
    refine readCheckbox_append h fun rest _ hcapture => ?_
    rwa [captureTrimmed_append_return]

theorem eventOf_append_return (line : JsString) : eventOf (line ++ [0x0D]) = eventOf line := by
  rw [eventOf, eventOf, readLine, readLine, readHeading_append_return, readCheckbox_append_return]

/-! ## The events of a text in parts -/

/-- A line feed parts the events of a text. -/
theorem events_append_lineFeed (a b : JsString) :
    events (a ++ 0x0A :: b) = events a ++ events b := by
  by_cases hreturn : a.getLast? = some 0x0D
  · obtain ⟨front, rfl⟩ := List.getLast?_eq_some_iff.mp hreturn
    obtain ⟨lines, last, hfront⟩ := exists_splitLines_concat front
    have hend : splitLines (0x0D :: 0x0A :: b) = [] :: splitLines b := by
      rw [splitLines_cons, if_neg (by decide), if_pos ⟨rfl, rfl⟩, splitLines_cons, if_pos rfl]
    have hone : splitLines [0x0D] = [[0x0D]] := rfl
    have hb : splitLines (front ++ [0x0D] ++ 0x0A :: b) =
        lines ++ (last ++ []) :: splitLines b := by
      rw [List.append_assoc, List.singleton_append]
      exact splitLines_append hfront hend (.inr (by simp))
    have ha : splitLines (front ++ [0x0D]) = lines ++ [last ++ [0x0D]] :=
      splitLines_append hfront hone (.inr (by simp))
    rw [events, events, events, hb, ha, List.filterMap_append, List.filterMap_append,
      List.filterMap_cons, List.filterMap_cons, eventOf_append_return, List.append_nil]
    cases eventOf last <;> simp
  · rw [events, events, events, splitLines_append_lineFeed hreturn, List.filterMap_append]

theorem events_of_no_lineFeed {line : JsString} (h : 0x0A ∉ line) :
    events line = (eventOf line).toList := by
  rw [events, splitLines_eq_singleton h]
  cases hevent : eventOf line <;> simp [hevent]

/-- The events of lines that are joined are those of the lines. -/
theorem events_joinLines {lines : List JsString} (h : ∀ line ∈ lines, 0x0A ∉ line) :
    events (joinLines lines) = lines.filterMap eventOf := by
  induction lines with
  | nil => rfl
  | cons line rest ih =>
      have hline := events_of_no_lineFeed (h line List.mem_cons_self)
      have hrest := ih fun l hl => h l (List.mem_cons_of_mem _ hl)
      have hcons : (line :: rest).filterMap eventOf =
          (eventOf line).toList ++ rest.filterMap eventOf := by
        cases hevent : eventOf line <;> simp [hevent]
      rw [hcons, ← hline, ← hrest]
      cases rest with
      | nil =>
          have hnil : events (joinLines []) = [] := rfl
          rw [hnil, List.append_nil]
          simp [joinLines]
      | cons next rest =>
          have hjoin : joinLines (line :: next :: rest) =
              line ++ 0x0A :: joinLines (next :: rest) := by
            simp [joinLines, List.intercalate_cons_cons]
          rw [hjoin, events_append_lineFeed]

/-! ## White space at the end of a text -/

/-- A line of white space is no event. -/
theorem eventOf_of_white {line : JsString} (h : ∀ u ∈ line, isWhiteSpace u = true) :
    eventOf line = none := by
  have hheading : readHeading line = none := by
    refine Option.eq_none_iff_forall_ne_some.mpr fun heading hread => ?_
    obtain ⟨indent, white, rest, rfl, -, -, hone, -, -, -⟩ :=
      readHeading_eq_some.1 (show readHeading line = some (heading.1, heading.2) from hread)
    have hmark : (0x23 : CodeUnit) ∈ List.replicate heading.1 0x23 :=
      List.mem_replicate.mpr ⟨by omega, rfl⟩
    have := h 0x23 (List.mem_append_right _ (List.mem_append_left _ hmark))
    exact absurd this (by decide)
  have hcheckbox : readCheckbox line = none := by
    refine Option.eq_none_iff_forall_ne_some.mpr fun checkbox hread => ?_
    obtain ⟨box, hbox, -⟩ :=
      readCheckbox_eq_some.1 (show readCheckbox line = some (checkbox.1, checkbox.2) from hread)
    obtain ⟨indent, bullet, gap, hopening, rfl, -⟩ := splitCheckbox_eq_some.1 hbox
    have := h 0x5B (List.mem_append_left _ (by rw [hopening]; simp))
    exact absurd this (by decide)
  rw [eventOf, readLine, hheading, hcheckbox]

/-- The last line of a text that is not blank. -/
def lastText (lines : List JsString) : Option JsString :=
  (lines.filter fun line => !line.all isWhiteSpace).getLast?

theorem trimEnd_append_white {s white : JsString} (h : ∀ u ∈ white, isWhiteSpace u = true) :
    trimEnd (s ++ white) = trimEnd s := by
  rw [trimEnd, trimEnd, List.rdropWhile, List.rdropWhile, List.reverse_append,
    List.dropWhile_append_of_pos fun u hu => h u (List.mem_reverse.mp hu)]

/-- The lines of a text around the end of its last line with text. -/
theorem splitLines_trimEnd {text : JsString} (hne : trimEnd text ≠ []) :
    ∃ front last u white blanks, splitLines (trimEnd text) = front ++ [last ++ [u]] ∧
      splitLines text = front ++ (last ++ [u] ++ white) :: blanks ∧ isWhiteSpace u = false ∧
      (∀ v ∈ white, isWhiteSpace v = true) ∧
        ∀ line ∈ blanks, ∀ v ∈ line, isWhiteSpace v = true := by
  obtain ⟨white, htext, hwhite⟩ := exists_trimEnd_append text
  obtain ⟨body, u, hbody⟩ := List.eq_nil_or_concat' (trimEnd text) |>.resolve_left hne
  have hu : isWhiteSpace u = false := getLast?_trimEnd (by rw [hbody, List.getLast?_concat])
  have hnot {v : CodeUnit} (hv : isWhiteSpace v = true) : u ≠ v := by
    rintro rfl
    rw [hu] at hv
    cases hv
  obtain ⟨front, last, hfront⟩ := exists_splitLines_concat body
  obtain ⟨first, blanks, hblanks⟩ := exists_splitLines_cons white
  have hunit : splitLines [u] = [[u]] := splitLines_eq_singleton (by
    rw [List.mem_singleton]
    exact fun h => hnot (by decide) h.symm)
  have htrim : splitLines (trimEnd text) = front ++ [last ++ [u]] := by
    rw [hbody]
    exact splitLines_append hfront hunit (.inr (by simpa using hnot (by decide)))
  have hsplit : splitLines text = front ++ (last ++ [u] ++ first) :: blanks := by
    rw [htext]
    refine splitLines_append htrim hblanks (.inl ?_)
    rw [hbody, List.getLast?_concat]
    simpa using hnot (by decide)
  refine ⟨front, last, u, first, blanks, htrim, hsplit, hu, fun v hv => ?_,
    fun line hline v hv => ?_⟩
  · exact hwhite v (mem_of_mem_splitLines (hblanks ▸ List.mem_cons_self) hv)
  · exact hwhite v (mem_of_mem_splitLines (hblanks ▸ List.mem_cons_of_mem _ hline) hv)

theorem lastText_splitLines {front blanks : List JsString} {last white : JsString} {u : CodeUnit}
    (hu : isWhiteSpace u = false) (hblanks : ∀ line ∈ blanks, ∀ v ∈ line, isWhiteSpace v = true) :
    lastText (front ++ (last ++ [u] ++ white) :: blanks) = some (last ++ [u] ++ white) := by
  have hline : (!(last ++ [u] ++ white).all isWhiteSpace) = true := by simp [hu]
  have hnone : blanks.filter (fun line => !line.all isWhiteSpace) = [] :=
    List.filter_eq_nil_iff.mpr fun line hmem => by
      simpa using fun v hv => hblanks line hmem v hv
  rw [lastText, List.filter_append, List.filter_cons, if_pos hline, hnone, List.getLast?_concat]

theorem filterMap_eventOf_blanks {blanks : List JsString}
    (h : ∀ line ∈ blanks, ∀ v ∈ line, isWhiteSpace v = true) : blanks.filterMap eventOf = [] :=
  List.filterMap_eq_nil_iff.mpr fun line hline => eventOf_of_white (h line hline)

/-- White space is cut off without an effect where the last line keeps its event. -/
theorem events_trimEnd_of_eq {text : JsString}
    (h : ∀ line, lastText (splitLines text) = some line → eventOf (trimEnd line) = eventOf line) :
    events (trimEnd text) = events text := by
  by_cases hne : trimEnd text = []
  · obtain ⟨white, htext, hwhite⟩ := exists_trimEnd_append text
    rw [hne, List.nil_append] at htext
    have hblank : events text = [] :=
      filterMap_eventOf_blanks fun line hline v hv =>
        hwhite v (htext ▸ mem_of_mem_splitLines hline hv)
    rw [hne, hblank]
    rfl
  · obtain ⟨front, last, u, white, blanks, htrim, hsplit, hu, hwhite, hblanks⟩ :=
      splitLines_trimEnd hne
    have hevent := h _ (by rw [hsplit]; exact lastText_splitLines hu hblanks)
    have hlast : trimEnd (last ++ [u] ++ white) = last ++ [u] := by
      rw [trimEnd_append_white hwhite, trimEnd, List.rdropWhile_concat_neg _ _ _ (by simp [hu])]
    rw [hlast] at hevent
    rw [events, events, htrim, hsplit, List.filterMap_append, List.filterMap_append,
      List.filterMap_cons, List.filterMap_cons, hevent, filterMap_eventOf_blanks hblanks,
      List.filterMap_nil]

/-- A checkbox with nothing but white space behind its brackets: it is none without
that white space. -/
def Bare (line : JsString) : Prop :=
  (readCheckbox line).isSome = true ∧ readCheckbox (trimEnd line) = none

/-- White space does not change what is captured of a text that ends before it. -/
theorem captureTrimmed_append_white {s white text : JsString} (hne : s.trim ≠ [])
    (hwhite : ∀ v ∈ white, isWhiteSpace v = true) :
    captureTrimmed (s ++ white) = some text ↔ captureTrimmed s = some text := by
  have htrim : (s ++ white).trim = s.trim := trim_append_white hwhite
  have hempty : s.trim.isEmpty = false := by simpa using hne
  simp only [captureTrimmed, htrim, hempty, Bool.false_eq_true, if_false]

/-- A part of a line that ends with text, if something is captured of it, has text. -/
theorem trim_ne_nil_of_suffix {last rest text : JsString} {u : CodeUnit}
    (hu : isWhiteSpace u = false) (hsuffix : rest <:+ last ++ [u])
    (hcapture : captureTrimmed rest = some text) : rest.trim ≠ [] := by
  rcases List.eq_nil_or_concat' rest with rfl | ⟨front, v, rfl⟩
  · cases hcapture
  · have hv : v = u := by
      obtain ⟨before, heq⟩ := hsuffix
      rw [← List.append_assoc] at heq
      exact List.singleton_inj.mp (List.append_inj' heq rfl).2
    intro htrim
    have := mem_trim (s := front ++ [v]) (u := v) (by simp) (hv ▸ hu)
    rw [htrim] at this
    cases this

theorem cleanInlineMarkdown_white {v : CodeUnit} (hv : isWhiteSpace v = true) :
    cleanInlineMarkdown [v] = [] := by
  have hplain : (v != 0x60 && v != 0x2A) = true ∧ v ≠ 0x5F := by
    refine ⟨?_, ?_⟩
    · rw [Bool.and_eq_true, bne_iff_ne, bne_iff_ne]
      constructor <;> rintro rfl <;> exact absurd hv (by decide)
    · rintro rfl
      exact absurd hv (by decide)
  rw [cleanInlineMarkdown, List.filter_cons, if_pos hplain.1, List.filter_nil, List.map_singleton,
    if_neg hplain.2, replaceRuns]
  split
  · rfl
  · rw [trim_eq, trimStart]
    simp [hv, replaceRuns, trimEnd]

/-- White space behind a line with text adds at most a heading without a text, where
the line is no bare checkbox. -/
theorem eventOf_append_white {last white : JsString} {u : CodeUnit} (hu : isWhiteSpace u = false)
    (hwhite : ∀ v ∈ white, isWhiteSpace v = true)
    (hbare : readCheckbox (last ++ [u]) = none → readCheckbox (last ++ [u] ++ white) = none) :
    eventOf (last ++ [u] ++ white) = eventOf (last ++ [u]) ∨
      eventOf (last ++ [u]) = none ∧ ∃ level text, cleanInlineMarkdown text = [] ∧
        eventOf (last ++ [u] ++ white) = some (.heading level text) := by
  have hkeep {text : JsString} (rest : JsString) (hsuffix : rest <:+ last ++ [u])
      (hcapture : captureTrimmed rest = some text) :
      captureTrimmed (rest ++ white) = some text :=
    (captureTrimmed_append_white (trim_ne_nil_of_suffix hu hsuffix hcapture) hwhite).mpr hcapture
  have hcheckbox : readCheckbox (last ++ [u] ++ white) = readCheckbox (last ++ [u]) := by
    cases hread : readCheckbox (last ++ [u]) with
    | none => exact hbare hread
    | some checkbox => exact readCheckbox_append hread hkeep
  cases hheading : readHeading (last ++ [u]) with
  | some heading =>
      have happend : readHeading (last ++ [u] ++ white) = some heading :=
        @readHeading_append _ _ heading.2 heading.1 hheading hkeep
      left
      rw [eventOf, eventOf, readLine, readLine, happend, hheading]
  | none =>
      cases hmore : readHeading (last ++ [u] ++ white) with
      | none =>
          left
          rw [eventOf, eventOf, readLine, readLine, hmore, hheading, hcheckbox]
      | some heading =>
          obtain ⟨level, text⟩ := heading
          -- the text of the heading is white space, else the line without it were a heading
          have hblank : cleanInlineMarkdown text = [] := by
            obtain ⟨indent, mark, rest, hline, hindent, hthree, hone, hsix, hmark, hcapture⟩ :=
              readHeading_eq_some.1 hmore
            by_cases htrim : trim rest = []
            · rw [captureTrimmed, htrim] at hcapture
              obtain ⟨v, hv, rfl⟩ := Option.map_eq_some_iff.mp hcapture
              have hmem : v ∈ rest := (List.mem_filter.mp (List.mem_of_getLast? hv)).1
              refine cleanInlineMarkdown_white ?_
              by_contra hnot
              have := mem_trim hmem (by simpa using hnot)
              rw [htrim] at this
              cases this
            · have hparts : (last ++ [u]) ++ white =
                  (indent ++ (List.replicate level 0x23 ++ [mark])) ++ rest := by
                rw [hline]
                simp
              rcases List.append_eq_append_iff.mp hparts with ⟨cut, -, hcut⟩ | ⟨cut, hcut, rfl⟩
              · refine absurd ?_ htrim
                have hall : ∀ v ∈ rest, isWhiteSpace v = true := fun v hv =>
                  hwhite v (hcut ▸ List.mem_append_right _ hv)
                rw [trim_eq, trimStart, List.dropWhile_eq_nil_iff.mpr hall]
                rfl
              · rw [trim_append_white hwhite] at htrim
                rw [captureTrimmed_append_white htrim hwhite] at hcapture
                have hread : readHeading (last ++ [u]) = some (level, text) :=
                  readHeading_eq_some.2 ⟨indent, mark, cut, by rw [hcut]; simp, hindent, hthree,
                    hone, hsix, hmark, hcapture⟩
                rw [hheading] at hread
                cases hread
          refine .inr ⟨?_, level, text, hblank, by rw [eventOf, readLine, hmore]⟩
          cases hread : readCheckbox (last ++ [u]) with
          | none => rw [eventOf, readLine, hheading, hread]
          | some checkbox =>
              obtain ⟨box, hbox, -⟩ :=
                readCheckbox_eq_some.1 (show _ = some (checkbox.1, checkbox.2) from hread)
              have := readHeading_of_splitCheckbox (splitCheckbox_append hbox white)
              rw [hmore] at this
              cases this

/-- **White space at the end of a text adds at most a heading without a text, where the
last line is no bare checkbox.** -/
theorem events_trimEnd {text : JsString}
    (h : ∀ line, lastText (splitLines text) = some line → ¬Bare line) :
    events text = events (trimEnd text) ∨ ∃ level heading, cleanInlineMarkdown heading = [] ∧
      events text = events (trimEnd text) ++ [.heading level heading] := by
  by_cases hne : trimEnd text = []
  · exact .inl (events_trimEnd_of_eq fun line hline => by
      obtain ⟨white, htext, hwhite⟩ := exists_trimEnd_append text
      rw [hne, List.nil_append] at htext
      have hmem := List.mem_of_getLast? hline
      have hblank (v : CodeUnit) (hv : v ∈ line) : isWhiteSpace v = true :=
        hwhite v (htext ▸ mem_of_mem_splitLines (List.mem_filter.mp hmem).1 hv)
      have := (List.mem_filter.mp hmem).2
      simp only [Bool.not_eq_true', List.all_eq_false] at this
      obtain ⟨v, hv, hnot⟩ := this
      exact absurd (hblank v hv) hnot).symm
  · obtain ⟨front, last, u, white, blanks, htrim, hsplit, hu, hwhite, hblanks⟩ :=
      splitLines_trimEnd hne
    have hbare := h _ (by rw [hsplit]; exact lastText_splitLines hu hblanks)
    have hlast : trimEnd (last ++ [u] ++ white) = last ++ [u] := by
      rw [trimEnd_append_white hwhite, trimEnd, List.rdropWhile_concat_neg _ _ _ (by simp [hu])]
    rw [Bare, hlast, not_and] at hbare
    have hevent := @eventOf_append_white last white u hu hwhite fun hnone => by
      by_contra hsome
      exact hbare (Option.isSome_iff_ne_none.mpr hsome) hnone
    rw [events, events, htrim, hsplit, List.filterMap_append, List.filterMap_append,
      List.filterMap_cons, List.filterMap_cons, filterMap_eventOf_blanks hblanks,
      List.filterMap_nil]
    rcases hevent with hevent | ⟨hnone, level, heading, hclean, hevent⟩
    · left
      rw [hevent]
    · refine .inr ⟨level, heading, hclean, ?_⟩
      rw [hevent, hnone, List.append_nil]

/-! ## Events that do not matter -/

theorem contentFrom_append_heading (s : LedgerState) (es : List Line) (level : ℕ)
    (text : JsString) : contentFrom casing phaseNumber hasExplicitLedger s
        (es ++ [.heading level text]) =
      contentFrom casing phaseNumber hasExplicitLedger s es := by
  induction es generalizing s with
  | nil => rfl
  | cons event rest ih =>
      cases event with
      | heading level' text' => exact ih _
      | other => exact ih _
      | checkbox mark text' =>
          rw [List.cons_append, contentFrom, contentFrom, ih, ih]

/-- A heading at the end of the document that starts no ledger does not matter. -/
theorem contentOf_append_heading (es : List Line) {level : ℕ} {text : JsString}
    (h : isLedgerHeading (cleanInlineMarkdown text) = false) :
    contentOf casing phaseNumber (es ++ [.heading level text]) =
      contentOf casing phaseNumber es := by
  have hany : (es ++ [Line.heading level text]).any isLedgerEvent = es.any isLedgerEvent := by
    simp [isLedgerEvent, h]
  rw [contentOf, contentOf, hany, contentFrom_append_heading]

/-- **A document keeps its ledger when white space is cut off at its end, where its last
line is no bare checkbox.** -/
theorem ledgerContent_trimEnd {text : JsString}
    (h : ∀ line, lastText (splitLines text) = some line → ¬Bare line) :
    ledgerContent casing phaseNumber (trimEnd text) = ledgerContent casing phaseNumber text := by
  rw [ledgerContent_eq, ledgerContent_eq]
  rcases events_trimEnd h with heq | ⟨level, heading, hclean, heq⟩
  · rw [heq]
  · rw [heq, contentOf_append_heading _ (by rw [hclean]; decide)]


/-! ## Lines that are joined again -/

/-- A line, less a carriage return at its end. -/
def SameLine (line line' : JsString) : Prop := line = line' ∨ line = line' ++ [0x0D]

theorem SameLine.readLine_eq {line line' : JsString} (h : SameLine line line') :
    readLine line = readLine line' := by
  rcases h with rfl | rfl
  · rfl
  · rw [readLine, readLine, readHeading_append_return, readCheckbox_append_return]

/-- Lines that are joined are the lines of the text. -/
theorem splitLines_joinLines_same {lines : List JsString} (hne : lines ≠ [])
    (h : ∀ line ∈ lines, 0x0A ∉ line) :
    List.Forall₂ SameLine lines (splitLines (joinLines lines)) := by
  induction lines with
  | nil => exact absurd rfl hne
  | cons line rest ih =>
      have hline := h line List.mem_cons_self
      cases rest with
      | nil =>
          have hjoin : joinLines [line] = line := by simp [joinLines]
          rw [hjoin, splitLines_eq_singleton hline]
          exact .cons (.inl rfl) .nil
      | cons next rest =>
          have hjoin : joinLines (line :: next :: rest) =
              line ++ 0x0A :: joinLines (next :: rest) := by
            simp [joinLines, List.intercalate_cons_cons]
          obtain ⟨first, hsplit, hfirst⟩ := splitLines_line (s := joinLines (next :: rest)) hline
          rw [hjoin, hsplit]
          exact .cons hfirst (ih (List.cons_ne_nil _ _) fun l hl => h l (List.mem_cons_of_mem _ hl))

/-- The ledger depends on what it reads of the lines. -/
theorem ledgerItems_congr {lines lines' : List JsString}
    (h : List.Forall₂ (fun line line' => readLine line = readLine line') lines lines')
    (s : LedgerState) (index : ℕ) :
    ledgerItems casing phaseNumber hasExplicitLedger s index lines =
      ledgerItems casing phaseNumber hasExplicitLedger s index lines' := by
  induction h generalizing s index with
  | nil => rfl
  | cons hline _ ih =>
      rw [ledgerItems, ledgerItems, ih, LedgerState.read, LedgerState.read, LedgerState.step,
        LedgerState.step, hline]

theorem any_startsExplicitLedger_congr {lines lines' : List JsString}
    (h : List.Forall₂ (fun line line' => readLine line = readLine line') lines lines') :
    lines.any startsExplicitLedger = lines'.any startsExplicitLedger := by
  induction h with
  | nil => rfl
  | cons hline _ ih =>
      rw [List.any_cons, List.any_cons, ih, ← isLedgerEvent_eventOf, ← isLedgerEvent_eventOf,
        eventOf, eventOf, hline]

/-- The ledger of lines that are joined. -/
theorem extractPhaseTaskLedger_joinLines {lines : List JsString} (hne : lines ≠ [])
    (h : ∀ line ∈ lines, 0x0A ∉ line) :
    extractPhaseTaskLedger casing (joinLines lines) phaseNumber =
      ledgerItems casing phaseNumber (lines.any startsExplicitLedger)
        (initialLedgerState (lines.any startsExplicitLedger)) 0 lines := by
  have hsame := (splitLines_joinLines_same hne h).imp fun _ _ hline => hline.readLine_eq
  rw [extractPhaseTaskLedger, ← any_startsExplicitLedger_congr hsame, ← ledgerItems_congr hsame]

/-- A document is that of its lines to the ledger. -/
theorem extractPhaseTaskLedger_joinLines_splitLines (markdown : JsString) :
    extractPhaseTaskLedger casing (joinLines (splitLines markdown)) phaseNumber =
      extractPhaseTaskLedger casing markdown phaseNumber :=
  extractPhaseTaskLedger_joinLines (splitLines_ne_nil markdown) fun _ hline =>
    not_mem_of_mem_splitLines hline

theorem SameLine.bare_iff {line line' : JsString} (h : SameLine line line') :
    Bare line ↔ Bare line' := by
  rcases h with rfl | rfl
  · rfl
  · rw [Bare, Bare, readCheckbox_append_return,
      trimEnd_append_white (List.forall_mem_singleton.mpr rfl)]

/-- The last line with text of lines that are joined. -/
theorem lastText_joinLines {lines : List JsString} (hne : lines ≠ [])
    (h : ∀ line ∈ lines, 0x0A ∉ line) {line : JsString}
    (hlast : lastText (splitLines (joinLines lines)) = some line) :
    ∃ line', lastText lines = some line' ∧ SameLine line' line := by
  have hsame := splitLines_joinLines_same hne h
  have hfilter := List.rel_filter (p := fun l : JsString => !l.all isWhiteSpace)
    (q := fun l : JsString => !l.all isWhiteSpace) (R := SameLine) (fun l l' hl => by
      rcases hl with rfl | rfl
      · rfl
      · have hreturn : isWhiteSpace 0x0D = true := by decide
        simp [hreturn]) hsame
  rw [lastText, List.getLast?_eq_head?_reverse] at hlast
  obtain ⟨rest, hrest⟩ := List.head?_eq_some_iff.mp hlast
  have hreverse := List.forall₂_reverse_iff.mpr hfilter
  rw [hrest] at hreverse
  obtain ⟨line', rest', hline, -, heq⟩ := List.forall₂_cons_right_iff.mp hreverse
  exact ⟨line', by rw [lastText, List.getLast?_eq_head?_reverse, heq]; rfl, hline⟩

/-- **Lines that are joined, with white space cut off at their end, keep their ledger
where the last one with text is no bare checkbox.** -/
theorem ledgerContent_written {lines : List JsString} (hne : lines ≠ [])
    (h : ∀ line ∈ lines, 0x0A ∉ line)
    (hbare : ∀ line, lastText lines = some line → ¬Bare line) :
    ledgerContent casing phaseNumber (trimEnd (joinLines lines) ++ js "\n") =
      (ledgerItems casing phaseNumber (lines.any startsExplicitLedger)
        (initialLedgerState (lines.any startsExplicitLedger)) 0 lines).map
          PhaseTaskLedgerItem.content := by
  have hfeed : js "\n" = [0x0A] := by decide
  have hnil : events [] = [] := rfl
  rw [ledgerContent_eq, hfeed, events_append_lineFeed, hnil, List.append_nil, ← ledgerContent_eq,
    ledgerContent_trimEnd, ledgerContent, extractPhaseTaskLedger_joinLines hne h]
  intro line hline hbad
  obtain ⟨line', hlast, hsame⟩ := lastText_joinLines hne h hline
  exact hbare line' hlast (hsame.bare_iff.2 hbad)

/-- The last line with text where one line with text is written anew. -/
theorem lastText_set {front back : List JsString} {old new line : JsString}
    (hold : old.all isWhiteSpace = false) (hnew : new.all isWhiteSpace = false)
    (h : lastText (front ++ new :: back) = some line) :
    (line = new ∧ lastText (front ++ old :: back) = some old) ∨
      lastText (front ++ old :: back) = some line := by
  simp only [lastText, List.filter_append, List.filter_cons, hnew, hold, Bool.not_false, if_true]
    at h ⊢
  rcases List.eq_nil_or_concat' (back.filter fun l => !l.all isWhiteSpace) with
    hnil | ⟨_, last, hlast⟩
  · rw [hnil] at h ⊢
    rw [List.getLast?_concat] at h ⊢
    exact .inl ⟨(Option.some.inj h).symm, rfl⟩
  · right
    rw [hlast, ← List.cons_append, ← List.append_assoc, List.getLast?_concat] at h ⊢
    exact h

end Hepha.Phases
