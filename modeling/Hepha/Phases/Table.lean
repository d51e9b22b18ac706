import Hepha.Js.Joined
import Hepha.Phases.Document
import Mathlib.Data.List.Chain

/-!
# The table of task states, as its readers see it

The ledger cleans the text of a task before it keeps it, and the table cleans the text
once more and escapes its pipes.  A text without pipes therefore stands in the table as
it is, between spaces, and so does the id of a task.
-/

namespace Hepha.Phases

open JsString Pattern

/-! ## Tidy texts -/

/-- A text that cleaning leaves as it is. -/
structure Tidy (text : JsString) : Prop where
  marks : ∀ u ∈ text, u ≠ 0x60 ∧ u ≠ 0x2A ∧ u ≠ 0x5F
  white : ∀ u ∈ text, isWhiteSpace u = true → u = 0x20
  single : text.IsChain fun u v => ¬(u = 0x20 ∧ v = 0x20)
  trim : text.trim = text

/-- Runs of one space each are replaced by themselves. -/
theorem replaceRuns_self {p : CodeUnit → Bool} {text : JsString} {inRun : Bool}
    (hwhite : ∀ u ∈ text, p u = true → u = 0x20)
    (hsingle : text.IsChain fun u v => ¬(u = 0x20 ∧ v = 0x20))
    (hrun : inRun = true → text.head? ≠ some 0x20) :
    replaceRuns p [0x20] inRun text = text := by
  induction text generalizing inRun with
  | nil => rfl
  | cons u rest ih =>
      have hrest := fun v hv => hwhite v (List.mem_cons_of_mem u hv)
      have htail := List.IsChain.tail hsingle
      rw [replaceRuns]
      by_cases hu : p u = true
      · obtain rfl := hwhite u List.mem_cons_self hu
        have hout : inRun = false := Bool.eq_false_iff.mpr fun hin => hrun hin rfl
        have hnext : rest.head? ≠ some 0x20 := by
          intro hhead
          cases rest with
          | nil => cases hhead
          | cons v rest =>
              obtain rfl := Option.some.inj hhead
              exact (List.isChain_cons_cons.mp hsingle).1 ⟨rfl, rfl⟩
        rw [if_pos hu, hout, ih hrest htail fun _ => hnext]
        rfl
      · rw [if_neg hu, ih hrest htail fun h => by cases h]

theorem mem_replaceRuns {p : CodeUnit → Bool} {replacement text : JsString} {inRun : Bool}
    {u : CodeUnit} (h : u ∈ replaceRuns p replacement inRun text) :
    u ∈ replacement ∨ u ∈ text ∧ p u = false := by
  induction text generalizing inRun with
  | nil => cases h
  | cons v rest ih =>
      rw [replaceRuns] at h
      split at h
      · rcases List.mem_append.mp h with h | h
        · split at h
          · cases h
          · exact .inl h
        · exact (ih h).imp_right (And.imp_left (List.mem_cons_of_mem v))
      · rename_i hv
        rcases List.mem_cons.mp h with rfl | h
        · exact .inr ⟨List.mem_cons_self, by simpa using hv⟩
        · exact (ih h).imp_right (And.imp_left (List.mem_cons_of_mem v))

/-- No two spaces are left side by side. -/
theorem isChain_replaceRuns {p : CodeUnit → Bool} (hp : p 0x20 = true) (text : JsString)
    (inRun : Bool) :
    (replaceRuns p [0x20] inRun text).IsChain (fun u v => ¬(u = 0x20 ∧ v = 0x20)) ∧
      (inRun = true → (replaceRuns p [0x20] inRun text).head? ≠ some 0x20) := by
  induction text generalizing inRun with
  | nil => exact ⟨.nil, fun _ => by simp [replaceRuns]⟩
  | cons u rest ih =>
      rw [replaceRuns]
      by_cases hu : p u = true
      · obtain ⟨hchain, hhead⟩ := ih true
        rw [if_pos hu]
        cases inRun with
        | true => exact ⟨hchain, hhead⟩
        | false =>
            refine ⟨List.isChain_append.mpr ⟨.singleton _, hchain, ?_⟩, fun h => by cases h⟩
            rintro x - y hy ⟨-, rfl⟩
            exact hhead rfl hy
      · have hne : u ≠ 0x20 := by
          rintro rfl
          exact hu hp
        rw [if_neg hu]
        refine ⟨List.isChain_cons.mpr ⟨fun v _ h => hne h.1, (ih false).1⟩, fun _ => ?_⟩
        rw [List.head?_cons]
        exact fun h => hne (Option.some.inj h)

theorem trim_isInfix (text : JsString) : text.trim <:+: text := by
  rw [trim_eq]
  exact (List.rdropWhile_prefix _ _).isInfix.trans (List.dropWhile_suffix _).isInfix

/-- What is cleaned of one line is tidy. -/
theorem tidy_cleanInlineMarkdown {text : JsString}
    (h : ∀ u ∈ text, isLineTerminator u = false) : Tidy (cleanInlineMarkdown text) := by
  have hspace : js " " = [0x20] := by decide
  unfold cleanInlineMarkdown
  rw [hspace]
  generalize hplain : (text.filter fun u => u != 0x60 && u != 0x2A).map
    (fun u => if u = 0x5F then (0x20 : CodeUnit) else u) = plain
  have hunits : ∀ u ∈ plain, (u ≠ 0x60 ∧ u ≠ 0x2A ∧ u ≠ 0x5F) ∧ u ≠ 0x0A ∧ u ≠ 0x0D := by
    intro u hu
    rw [← hplain] at hu
    obtain ⟨v, hv, rfl⟩ := List.mem_map.mp hu
    obtain ⟨hmem, hmarks⟩ := List.mem_filter.mp hv
    rw [Bool.and_eq_true, bne_iff_ne, bne_iff_ne] at hmarks
    split
    · decide
    · rename_i hscore
      refine ⟨⟨hmarks.1, hmarks.2, hscore⟩, ?_, ?_⟩
      · rintro rfl
        exact absurd (h _ hmem) (by decide)
      · rintro rfl
        exact absurd (h _ hmem) (by decide)
  have hmem {u : CodeUnit} (hu : u ∈ trim (replaceRuns
      (fun u => isWhiteSpace u && u != 0x0A && u != 0x0D) [0x20] false plain)) :
      u = 0x20 ∨ u ∈ plain ∧ isWhiteSpace u = false := by
    refine (mem_replaceRuns (mem_of_mem_trim hu)).imp List.mem_singleton.mp fun hkept => ?_
    refine ⟨hkept.1, ?_⟩
    have hends := (hunits u hkept.1).2
    simpa [hends.1, hends.2] using hkept.2
  refine ⟨fun u hu => ?_, fun u hu hwhite => ?_, ?_, trim_trim _⟩
  · rcases hmem hu with rfl | hkept
    · decide
    · exact (hunits u hkept.1).1
  · rcases hmem hu with rfl | hkept
    · rfl
    · rw [hkept.2] at hwhite
      cases hwhite
  · obtain ⟨before, after, heq⟩ := trim_isInfix (replaceRuns
      (fun u => isWhiteSpace u && u != 0x0A && u != 0x0D) [0x20] false plain)
    have hchain := (@isChain_replaceRuns (fun u => isWhiteSpace u && u != 0x0A && u != 0x0D)
      (by decide) plain false).1
    rw [← heq] at hchain
    exact hchain.left_of_append.right_of_append

/-- Tidy texts are cleaned already. -/
theorem Tidy.cleanInlineMarkdown_eq {text : JsString} (h : Tidy text) :
    cleanInlineMarkdown text = text := by
  have hspace : js " " = [0x20] := by decide
  have hfilter : text.filter (fun u => u != 0x60 && u != 0x2A) = text :=
    List.filter_eq_self.mpr fun u hu => by simp [(h.marks u hu).1, (h.marks u hu).2.1]
  have hmap : text.map (fun u => if u = 0x5F then (0x20 : CodeUnit) else u) = text := by
    refine (List.map_congr_left fun u hu => ?_).trans (List.map_id _)
    rw [if_neg (h.marks u hu).2.2, id]
  rw [cleanInlineMarkdown, hfilter, hmap, hspace, replaceRuns_self ?_ h.single (by simp), h.trim]
  intro u hu hwhite
  simp only [Bool.and_eq_true] at hwhite
  exact h.white u hu hwhite.1.1

theorem Tidy.truncate {text : JsString} (h : Tidy text) : Tidy (truncate text 240) := by
  unfold Phases.truncate
  split
  · exact h
  · rename_i hlong
    have hdots : js "..." = [0x2E, 0x2E, 0x2E] := by decide
    have hmem : ∀ u ∈ text.take (240 - 1), u ∈ text := fun u => List.mem_of_mem_take
    rw [hdots]
    refine ⟨?_, ?_, ?_, trim_eq_self_iff.2 ⟨?_, ?_⟩⟩
    · exact List.forall_mem_append.mpr ⟨fun u hu => h.marks u (hmem u hu), by simp⟩
    · have hdot : isWhiteSpace 0x2E = false := by decide
      exact List.forall_mem_append.mpr ⟨fun u hu => h.white u (hmem u hu), by simp [hdot]⟩
    · refine List.isChain_append.mpr ⟨h.single.take _, by decide, ?_⟩
      rintro u - v hv ⟨-, rfl⟩
      cases hv
    · obtain ⟨hhead, -⟩ := trim_eq_self_iff.1 h.trim
      cases text with
      | nil => exact absurd (Nat.zero_le _) hlong
      | cons u text => exact hhead
    · simp only [List.map_append, List.map_cons, List.map_nil]
      rw [List.getLast?_append_of_ne_nil _ (List.cons_ne_nil _ _)]
      decide

theorem tidy_taskText {text : JsString} (h : ∀ u ∈ text, isLineTerminator u = false) :
    Tidy (taskText text) := by
  have hclean := tidy_cleanInlineMarkdown h
  rw [taskText, hclean.trim]
  exact hclean.truncate

/-- **The text of a task is kept as it is when it is read again.** -/
theorem taskText_taskText {text : JsString} (h : ∀ u ∈ text, isLineTerminator u = false) :
    taskText (taskText text) = taskText text := by
  have htidy := tidy_taskText h
  rw [taskText, htidy.cleanInlineMarkdown_eq, htidy.trim, taskText]
  generalize (cleanInlineMarkdown text).trim = kept
  by_cases hshort : kept.length ≤ 240
  · have hkept : truncate kept 240 = kept := if_pos hshort
    rw [hkept, hkept]
  · have hdots : (js "...").length = 3 := by decide
    have htake : (kept.take (240 - 1)).length = 240 - 1 := by
      rw [List.length_take]
      omega
    have hlong : ¬(kept.take (240 - 1) ++ js "...").length ≤ 240 := by
      rw [List.length_append, htake, hdots]
      omega
    have hcut : truncate kept 240 = kept.take (240 - 1) ++ js "..." := if_neg hshort
    rw [hcut, truncate, if_neg hlong, List.take_append_of_le_length htake.ge,
      List.take_take, Nat.min_self]

/-! ## Cells -/

theorem mem_escapeTableCell {value : JsString} {u : CodeUnit} (h : u ∈ escapeTableCell value) :
    u = 0x20 ∨ isWhiteSpace u = false := by
  have hspace : js " " = [0x20] := by decide
  rcases mem_replaceRuns (mem_of_mem_trim h) with hu | hu
  · rw [hspace] at hu
    exact .inl (List.mem_singleton.mp hu)
  · exact .inr hu.2

/-- A tidy text without pipes stands in the table as it is. -/
theorem Tidy.escapeTableCell_eq {text : JsString} (h : Tidy text) (hpipe : 0x7C ∉ text) :
    escapeTableCell text = text := by
  have hspace : js " " = [0x20] := by decide
  have hflat : text.flatMap (fun u => if u = 0x7C then js "\\|" else [u]) = text := by
    refine (List.flatMap_congr fun u hu => ?_).trans (List.flatMap_singleton' text)
    rw [if_neg]
    rintro rfl
    exact hpipe hu
  rw [escapeTableCell, h.cleanInlineMarkdown_eq, hflat, hspace,
    replaceRuns_self h.white h.single (by simp), h.trim]

/-- The units of the id of a task. -/
def isTaskIdUnit (u : CodeUnit) : Bool :=
  isLower u || isDigit u || u == 0x2D || u == 0x2E

theorem isTaskIdUnit_spec {u : CodeUnit} (h : isTaskIdUnit u = true) :
    (u ≠ 0x60 ∧ u ≠ 0x2A ∧ u ≠ 0x5F) ∧ isWhiteSpace u = false ∧ u ≠ 0x7C := by
  simp only [isTaskIdUnit, isLower, isDigit, Bool.or_eq_true, Bool.and_eq_true, decide_eq_true_eq,
    beq_iff_eq, UInt16.le_iff_toNat_le, ← UInt16.toNat_inj] at h
  simp only [isWhiteSpace, Bool.or_eq_false_iff, Bool.and_eq_false_iff, decide_eq_false_iff_not,
    beq_eq_false_iff_ne, ne_eq, UInt16.le_iff_toNat_le, ← UInt16.toNat_inj]
  simp at h ⊢
  omega

theorem tidy_of_isTaskIdUnit {id : JsString} (h : ∀ u ∈ id, isTaskIdUnit u = true) : Tidy id := by
  have hnot : ∀ u ∈ id, isWhiteSpace u = false := fun u hu => (isTaskIdUnit_spec (h u hu)).2.1
  refine ⟨fun u hu => (isTaskIdUnit_spec (h u hu)).1, fun u hu hwhite => ?_, ?_, ?_⟩
  · rw [hnot u hu] at hwhite
    cases hwhite
  · refine (List.pairwise_of_forall_mem_list fun u hu v _ hspaces => ?_).isChain
    have hspace := hnot u hu
    rw [hspaces.1] at hspace
    exact absurd hspace (by decide)
  · refine trim_eq_self_iff.2 ⟨fun hhead => ?_, fun hlast => ?_⟩
    · obtain ⟨u, hu, hwhite⟩ := List.mem_map.mp (List.mem_of_mem_head? hhead)
      rw [hnot u hu] at hwhite
      cases hwhite
    · obtain ⟨u, hu, hwhite⟩ := List.mem_map.mp (List.mem_of_getLast? hlast)
      rw [hnot u hu] at hwhite
      cases hwhite

/-- The texts whose units may all stand in the id of a task. -/
def IsTaskIdText (text : JsString) : Prop := ∀ u ∈ text, isTaskIdUnit u = true

theorem isTaskIdText_of_all {text : JsString} (h : text.all isTaskIdUnit = true) :
    IsTaskIdText text :=
  List.all_eq_true.mp h

theorem IsTaskIdText.append {a b : JsString} (ha : IsTaskIdText a) (hb : IsTaskIdText b) :
    IsTaskIdText (a ++ b) :=
  List.forall_mem_append.mpr ⟨ha, hb⟩

theorem isTaskIdText_decimalText (n : ℕ) : IsTaskIdText (decimalText n) := fun u hu => by
  simp [isTaskIdUnit, isDigit_of_mem_decimalText hu]

theorem isTaskIdText_slug (casing : Casing) (value : JsString) :
    IsTaskIdText (slug casing value) := by
  have hword : IsTaskIdText (js "task") := isTaskIdText_of_all (by decide)
  unfold slug
  dsimp only
  split
  · exact hword
  · intro u hu
    have hkept := (List.dropWhile_suffix _).subset ((List.rdropWhile_prefix _ _).subset
      (List.mem_of_mem_take hu))
    rcases mem_replaceRuns hkept with hdash | ⟨-, hunit⟩
    · exact isTaskIdText_of_all (by decide) u hdash
    · rw [Bool.not_eq_false'] at hunit
      rw [isTaskIdUnit, hunit]
      rfl

theorem isTaskIdText_createPhaseTaskId (casing : Casing) (phaseNumber : Option ℕ)
    (heading text : JsString) :
    (createPhaseTaskId casing phaseNumber heading text).head? = some 0x70 ∧
      IsTaskIdText (createPhaseTaskId casing phaseNumber heading text) := by
  have hunknown : IsTaskIdText (js "phase-unknown") := isTaskIdText_of_all (by decide)
  have hphase : IsTaskIdText (js "phase-") := isTaskIdText_of_all (by decide)
  have hdot : IsTaskIdText (js ".") := isTaskIdText_of_all (by decide)
  have hslugs := (hdot.append (isTaskIdText_slug casing heading)).append
    (hdot.append (isTaskIdText_slug casing text))
  unfold createPhaseTaskId
  simp only [List.append_assoc] at hslugs ⊢
  cases phaseNumber with
  | none => exact ⟨rfl, hunknown.append hslugs⟩
  | some number =>
      refine ⟨rfl, ?_⟩
      rw [List.append_assoc]
      exact hphase.append ((isTaskIdText_decimalText number).append hslugs)

/-- **The id of a task consists of units that the table does not escape.** -/
theorem isTaskIdText_item {casing : Casing} {phaseNumber : Option ℕ} {s : LedgerState}
    {index : ℕ} {mark : CodeUnit} {text : JsString} :
    (s.item casing phaseNumber index mark text).id.head? = some 0x70 ∧
      IsTaskIdText (s.item casing phaseNumber index mark text).id := by
  obtain ⟨hhead, hunits⟩ :=
    isTaskIdText_createPhaseTaskId casing phaseNumber s.heading (taskText text)
  have hdash : IsTaskIdText (js "-") := isTaskIdText_of_all (by decide)
  have hid : (s.item casing phaseNumber index mark text).id = numberedId s.seenIds
    (createPhaseTaskId casing phaseNumber s.heading (taskText text)) := rfl
  rw [hid, numberedId]
  split
  · exact ⟨hhead, hunits⟩
  · refine ⟨?_, (hunits.append hdash).append (isTaskIdText_decimalText _)⟩
    rw [List.append_assoc, List.head?_append, hhead]
    rfl

/-! ## Rows -/

section Rows

variable {parseDate : ParseDate} {taskRuns : List StoredImplementationTaskRun}

/-- The state of a task in the table. -/
def tableState (taskRuns : List StoredImplementationTaskRun) (item : PhaseTaskLedgerItem) :
    ImplementationTaskRunStatus :=
  ((JsMap.get (taskRuns.map fun run => (run.taskId, run)) item.id).map
    StoredImplementationTaskRun.status).getD item.status

/-- No unit of a text ends a line. -/
def OneLine (text : JsString) : Prop := ∀ u ∈ text, isLineTerminator u = false

theorem oneLine_of_all {text : JsString} (h : text.all (fun u => !isLineTerminator u) = true) :
    OneLine text :=
  not_lineTerminator_of_all h

theorem OneLine.append {a b : JsString} (ha : OneLine a) (hb : OneLine b) : OneLine (a ++ b) :=
  List.forall_mem_append.mpr ⟨ha, hb⟩

theorem isWhiteSpace_of_isLineTerminator {u : CodeUnit} (h : isLineTerminator u = true) :
    isWhiteSpace u = true := by
  simp only [isLineTerminator, Bool.or_eq_true, beq_iff_eq] at h
  rcases h with ((rfl | rfl) | rfl) | rfl <;> decide

theorem oneLine_escapeTableCell (value : JsString) : OneLine (escapeTableCell value) := by
  intro u hu
  rcases mem_escapeTableCell hu with rfl | hwhite
  · decide
  · rw [Bool.eq_false_iff]
    intro hend
    rw [isWhiteSpace_of_isLineTerminator hend] at hwhite
    cases hwhite

theorem oneLine_of_ascii {text : JsString} (h : ∀ u ∈ text, 0x20 ≤ u.toNat ∧ u.toNat < 0x80) :
    OneLine text := by
  intro u hu
  rw [Bool.eq_false_iff]
  intro hend
  simp only [isLineTerminator, Bool.or_eq_true, beq_iff_eq] at hend
  rcases hend with ((rfl | rfl) | rfl) | rfl <;> exact absurd (h _ hu) (by decide)

theorem oneLine_decimalText (n : ℕ) : OneLine (decimalText n) := by
  refine oneLine_of_ascii fun u hu => ?_
  have hdigit := isDigit_of_mem_decimalText hu
  simp only [isDigit, Bool.and_eq_true, decide_eq_true_eq, UInt16.le_iff_toNat_le] at hdigit
  simp at hdigit
  omega

theorem oneLine_formatTimestamp {value : Option JsString} {text : JsString}
    (h : formatTimestamp parseDate value = some text) : OneLine text := by
  unfold formatTimestamp at h
  split at h
  · obtain ⟨time, -, rfl⟩ := Option.map_eq_some_iff.mp h
    refine oneLine_of_ascii fun u hu => ?_
    have hunit := Date.isTimeUnit_toISOString time u hu
    exact ⟨Nat.le_trans (by decide) hunit.1, hunit.2⟩
  · obtain rfl := Option.some.inj h
    exact oneLine_of_all (by decide)

theorem oneLine_formatDuration (startedAt completedAt : Option JsString) :
    OneLine (formatDuration parseDate startedAt completedAt) := by
  have hdash : OneLine (js "-") := oneLine_of_all (by decide)
  have hunits : OneLine (js "s") ∧ OneLine (js "m ") :=
    ⟨oneLine_of_all (by decide), oneLine_of_all (by decide)⟩
  unfold formatDuration
  split
  · split
    · exact hdash
    · dsimp only
      have hseconds (n : ℕ) : OneLine (decimalText n ++ js "s") :=
        (oneLine_decimalText n).append hunits.1
      split
      · exact ((oneLine_decimalText _).append hunits.2).append (hseconds _)
      · exact hseconds _
  · exact hdash

theorem oneLine_status (status : ImplementationTaskRunStatus) : OneLine status.text := by
  cases status <;> exact oneLine_of_all (by decide)

/-- A row is one line between pipes; its first three cells are the id, the text and the state. -/
theorem renderRow_eq_some {item : PhaseTaskLedgerItem} {row : JsString}
    (h : renderRow parseDate taskRuns item = some row) : ∃ tail, OneLine tail ∧
      row = 0x7C :: ((0x20 :: (escapeTableCell item.id ++ [0x20])) ++ 0x7C ::
        ((0x20 :: (escapeTableCell item.text ++ [0x20])) ++ 0x7C ::
          ((0x20 :: ((tableState taskRuns item).text ++ [0x20])) ++ 0x7C ::
            (tail ++ [0x7C])))) := by
  unfold renderRow at h
  dsimp only at h
  obtain ⟨started, hstarted, h⟩ := Option.bind_eq_some_iff.mp h
  obtain ⟨completed, hcompleted, h⟩ := Option.bind_eq_some_iff.mp h
  obtain rfl := Option.some.inj h
  have hopen : js "| " = [0x7C, 0x20] := by decide
  have hbar : js " | " = [0x20, 0x7C, 0x20] := by decide
  have hclose : js " |" = [0x20, 0x7C] := by decide
  have hline : OneLine [0x20] ∧ OneLine [0x20, 0x7C, 0x20] :=
    ⟨oneLine_of_all (by decide), oneLine_of_all (by decide)⟩
  refine ⟨[0x20] ++ started ++ [0x20, 0x7C, 0x20] ++ completed ++ [0x20, 0x7C, 0x20] ++
    formatDuration parseDate ((JsMap.get (taskRuns.map fun run => (run.taskId, run)) item.id).bind
      StoredImplementationTaskRun.startedAt) ((JsMap.get (taskRuns.map fun run =>
        (run.taskId, run)) item.id).bind StoredImplementationTaskRun.completedAt) ++ [0x20], ?_, ?_⟩
  · exact (((((hline.1.append (oneLine_formatTimestamp hstarted)).append hline.2).append
      (oneLine_formatTimestamp hcompleted)).append hline.2).append
        (oneLine_formatDuration _ _)).append hline.1
  · rw [hopen, hbar, hclose]
    simp only [List.append_assoc, List.cons_append, List.nil_append]
    rfl

theorem oneLine_renderRow {item : PhaseTaskLedgerItem} {row : JsString}
    (h : renderRow parseDate taskRuns item = some row) : OneLine row := by
  obtain ⟨tail, htail, rfl⟩ := renderRow_eq_some h
  have hcell {cell rest : JsString} (hcell : OneLine cell) (hrest : OneLine rest) :
      OneLine ((0x20 :: (cell ++ [0x20])) ++ 0x7C :: rest) := by
    have hspace : OneLine [0x20] ∧ OneLine [0x20, 0x7C] :=
      ⟨oneLine_of_all (by decide), oneLine_of_all (by decide)⟩
    have hall := (hspace.1.append hcell).append (hspace.2.append hrest)
    simpa only [List.append_assoc, List.cons_append, List.nil_append] using hall
  have hpipe : OneLine [0x7C] := oneLine_of_all (by decide)
  exact hpipe.append (hcell (oneLine_escapeTableCell _) (hcell (oneLine_escapeTableCell _)
    (hcell (oneLine_status _) (htail.append hpipe))))

end Rows

end Hepha.Phases
