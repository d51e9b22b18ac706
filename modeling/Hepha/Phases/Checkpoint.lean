import Hepha.Js.Joined
import Hepha.Markdown.Sections

/-!
# The Git checkpoint of a phase

When a phase is sealed, its document gets a section that lists the commits of the
repositories, in place of an earlier one or at the end.  The commits are read back from
the section before the checkpoint is published again.

## Strategy

The section is put in with `replace`, whose second argument is no plain text, and without
a line feed at its end.  So two things go wrong: a `$` in a label may stand for something
else, and a heading that follows the section ends up in its last line.

* For labels without such a `$` the replacement is the section itself
  (`substitute_of_isPlainText`).
* The section has no line that begins like a heading (`Unheaded`), so after one
  application it is found again where it was put, with all of its rows.
* Where a heading follows, it is no heading any more, and the next application removes
  what belonged to it: the document gets shorter.
-/

namespace Hepha.Phases

open JsString Pattern Markdown

/-! ## The audit -/

/-- `PhaseGitCheckpointEntry`, less the root of the repository, which the section leaves out. -/
structure PhaseGitCheckpointEntry where
  repository : JsString
  branchName : JsString
  phaseCommit : JsString
  deriving DecidableEq, Repr

/-- What a replacement text stands for: `$$`, `$&`, `` $` `` and `$'` are patterns, for an
expression without groups. -/
def substitute (before matched after : JsString) : JsString → JsString
  | [] => []
  | [u] => [u]
  | u :: v :: rest =>
      if u = 0x24 then
        if v = 0x24 then 0x24 :: substitute before matched after rest
        else if v = 0x26 then matched ++ substitute before matched after rest
        else if v = 0x60 then before ++ substitute before matched after rest
        else if v = 0x27 then after ++ substitute before matched after rest
        else u :: substitute before matched after (v :: rest)
      else u :: substitute before matched after (v :: rest)

def entryRow (entry : PhaseGitCheckpointEntry) : JsString :=
  js "| " ++ entry.repository ++ js " | `" ++ entry.branchName ++ js "` | `" ++
    entry.phaseCommit ++ js "` |"

def closingLine : JsString :=
  js ("The phase commit is immutable implementation evidence. The following documentation " ++
    "commit records this table.")

/-- The lines of the section below its heading. -/
def sectionBody (entries : List PhaseGitCheckpointEntry) : List JsString :=
  [[], js "| Repository | Branch | Phase Commit |", js "| --- | --- | --- |"] ++
    entries.map entryRow ++ [[], closingLine]

def checkpointSection (entries : List PhaseGitCheckpointEntry) : JsString :=
  joinLines (js "## Git Checkpoint" :: sectionBody entries)

/-- `/^##\s+Git Checkpoint\s*$[\s\S]*?(?=^##\s+|(?![\s\S]))/im`. -/
def findCheckpoint (markdown : JsString) : Option SectionParts :=
  findSection markdown "git checkpoint"

def applyPhaseGitCheckpointAudit (markdown : JsString) (entries : List PhaseGitCheckpointEntry) :
    JsString :=
  match findCheckpoint markdown with
  | some parts =>
      let matched := (markdown.drop parts.before.length).take
        (markdown.length - parts.before.length - parts.after.length)
      (parts.before ++ substitute parts.before matched parts.after (checkpointSection entries) ++
        parts.after).trimEnd ++ js "\n"
  | none => markdown.trimEnd ++ js "\n\n" ++ checkpointSection entries ++ js "\n"

/-- `/^[0-9a-f]{40,64}$/i`. -/
def isCommitId (text : JsString) : Bool :=
  40 ≤ text.length && text.length ≤ 64 &&
    text.all fun u => isDigit u || (0x61 ≤ lowerCase u && lowerCase u ≤ 0x66)

/-- `line.split("|").slice(1, -1).map((cell) => cell.replaceAll("`", "").trim())`. -/
def checkpointCells (line : JsString) : List JsString :=
  (line.splitOnP (· == 0x7C)).tail.dropLast.map fun cell => trim (cell.filter (· != 0x60))

def readCheckpointRow (line : JsString) : Option PhaseGitCheckpointEntry :=
  match checkpointCells line with
  | [repository, branchName, phaseCommit] =>
      if isCommitId phaseCommit then some { repository, branchName, phaseCommit } else none
  | _ => none

/-- `readPhaseGitCheckpointEntries`, of the text of the document. -/
def readPhaseGitCheckpointEntries (markdown : JsString) : List PhaseGitCheckpointEntry :=
  match findCheckpoint markdown with
  | some parts => (splitLines parts.body).filterMap readCheckpointRow
  | none => []

/-! ## What the audit promises -/

/-- A text without pipes, backticks and line ends. -/
def IsLabel (text : JsString) : Prop :=
  text ≠ [] ∧ text.trim = text ∧
    ∀ u ∈ text, u ≠ 0x7C ∧ u ≠ 0x60 ∧ isLineTerminator u = false

/-- An entry of a repository with its branch and its commit. -/
structure PhaseGitCheckpointEntry.WellFormed (entry : PhaseGitCheckpointEntry) : Prop where
  repository : IsLabel entry.repository
  branchName : IsLabel entry.branchName
  phaseCommit : isCommitId entry.phaseCommit = true

/-- The lines of a text; the white space at its end is no line. -/
def textLines (text : JsString) : List JsString :=
  text.trimEnd.splitOnP isLineTerminator

/-- The lines of a document outside its checkpoint section. -/
def outsideLines (markdown : JsString) : List JsString :=
  match findCheckpoint markdown with
  | some parts => (parts.before.splitOnP isLineTerminator).dropLast ++
      if parts.after = [] then [] else textLines parts.after
  | none => textLines markdown

/-- **The audit records the entries and nothing else**: they are read back, the other lines
stay, and a second application changes nothing. -/
structure AuditRecords (markdown : JsString) (entries : List PhaseGitCheckpointEntry) : Prop where
  read : readPhaseGitCheckpointEntries (applyPhaseGitCheckpointAudit markdown entries) = entries
  kept : (outsideLines markdown).Sublist
    ((applyPhaseGitCheckpointAudit markdown entries).splitOnP isLineTerminator)
  stable : applyPhaseGitCheckpointAudit (applyPhaseGitCheckpointAudit markdown entries) entries =
    applyPhaseGitCheckpointAudit markdown entries

/-- A replacement text without patterns. -/
def isPlainText : JsString → Bool
  | [] | [_] => true
  | u :: v :: rest => !(u == 0x24 && [0x24, 0x26, 0x60, 0x27].contains v) && isPlainText (v :: rest)

/-- No section follows the checkpoint section of a document. -/
def EndsWithCheckpoint (markdown : JsString) : Prop :=
  ∀ parts, findCheckpoint markdown = some parts → parts.after = []

/-! ## Replacement texts -/

theorem substitute_of_isPlainText {before matched after text : JsString}
    (h : isPlainText text = true) :
    substitute before matched after text = text := by
  induction text using isPlainText.induct with
  | case1 => rfl
  | case2 u => rfl
  | case3 u v rest ih =>
      rw [isPlainText, Bool.and_eq_true] at h
      rw [substitute, ih h.2]
      have hpattern := h.1
      by_cases hu : u = 0x24
      · subst hu
        simp only [beq_self_eq_true, Bool.true_and, Bool.not_eq_true', List.contains_eq_mem,
          List.mem_cons, List.not_mem_nil, or_false, decide_eq_false_iff_not, not_or] at hpattern
        obtain ⟨h1, h2, h3, h4⟩ := hpattern
        rw [if_pos rfl, if_neg h1, if_neg h2, if_neg h3, if_neg h4]
      · rw [if_neg hu]

/-- A line feed is in no pattern. -/
theorem isPlainText_append_lineFeed (s t : JsString) :
    isPlainText (s ++ 0x0A :: t) = (isPlainText s && isPlainText t) := by
  induction s using isPlainText.induct with
  | case1 =>
      cases t with
      | nil => rfl
      | cons u t => simp [isPlainText]
  | case2 u =>
      cases t with
      | nil => simp [isPlainText]
      | cons v t => simp [isPlainText]
  | case3 u v rest ih =>
      rw [List.cons_append, List.cons_append, isPlainText, isPlainText, ← List.cons_append, ih,
        Bool.and_assoc]

theorem isPlainText_joinLines {lines : List JsString}
    (h : ∀ line ∈ lines, isPlainText line = true) :
    isPlainText (joinLines lines) = true := by
  induction lines with
  | nil => rfl
  | cons line rest ih =>
      by_cases hrest : rest = []
      · subst hrest
        simpa [joinLines] using h
      · rw [joinLines_cons hrest, isPlainText_append_lineFeed, h line List.mem_cons_self,
          ih fun l hl => h l (List.mem_cons_of_mem _ hl)]
        rfl

/-! ## The lines of the section -/

theorem forall_mem_sectionBody {p : JsString → Prop} {entries : List PhaseGitCheckpointEntry} :
    (∀ line ∈ sectionBody entries, p line) ↔
      (p [] ∧ p (js "| Repository | Branch | Phase Commit |") ∧ p (js "| --- | --- | --- |")) ∧
        (∀ entry ∈ entries, p (entryRow entry)) ∧ p closingLine := by
  simp only [sectionBody, List.forall_mem_append, List.forall_mem_cons, List.forall_mem_map]
  constructor
  · rintro ⟨⟨⟨hnil, hhead, hrule, -⟩, hrows⟩, -, hclosing, -⟩
    exact ⟨⟨hnil, hhead, hrule⟩, hrows, hclosing⟩
  · rintro ⟨⟨hnil, hhead, hrule⟩, hrows, hclosing⟩
    exact ⟨⟨⟨hnil, hhead, hrule, by simp⟩, hrows⟩, hnil, hclosing, by simp⟩

theorem isPlainText_checkpointSection {entries : List PhaseGitCheckpointEntry}
    (h : ∀ entry ∈ entries, isPlainText (entryRow entry) = true) :
    isPlainText (checkpointSection entries) = true := by
  refine isPlainText_joinLines (List.forall_mem_cons.mpr ⟨by decide, ?_⟩)
  exact forall_mem_sectionBody.2 ⟨⟨rfl, by decide, by decide⟩, h,
    by decide⟩

theorem isLineTerminator_of_isCommitId {text : JsString} (h : isCommitId text = true) :
    ∀ u ∈ text, u ≠ 0x7C ∧ u ≠ 0x60 ∧ isLineTerminator u = false := by
  intro u hu
  rw [isCommitId, Bool.and_eq_true] at h
  have hhex := List.all_eq_true.mp h.2 u hu
  refine ⟨?_, ?_, ?_⟩
  · rintro rfl
    exact absurd hhex (by decide)
  · rintro rfl
    exact absurd hhex (by decide)
  · rw [Bool.eq_false_iff]
    intro hend
    simp only [isLineTerminator, Bool.or_eq_true, beq_iff_eq] at hend
    rcases hend with ((rfl | rfl) | rfl) | rfl <;> exact absurd hhex (by decide)

theorem entryRow_line {entry : PhaseGitCheckpointEntry} (h : entry.WellFormed) :
    ∀ u ∈ entryRow entry, isLineTerminator u = false := by
  have hall : [js "| ", js " | `", js "` | `", js "` |"].all
      (fun text => text.all fun u => !isLineTerminator u) = true := by decide
  have hfixed (text) (htext : text ∈ [js "| ", js " | `", js "` | `", js "` |"]) :
      ∀ u ∈ text, isLineTerminator u = false :=
    not_lineTerminator_of_all (List.all_eq_true.mp hall text htext)
  intro u hu
  simp only [entryRow, List.mem_append] at hu
  rcases hu with ((((((hu | hu) | hu) | hu) | hu) | hu) | hu)
  · exact hfixed _ (by simp) u hu
  · exact (h.repository.2.2 u hu).2.2
  · exact hfixed _ (by simp) u hu
  · exact (h.branchName.2.2 u hu).2.2
  · exact hfixed _ (by simp) u hu
  · exact (isLineTerminator_of_isCommitId h.phaseCommit u hu).2.2
  · exact hfixed _ (by simp) u hu

/-- No line of a text begins like a heading, and the text does not end with a line end. -/
def Unheaded (text : JsString) : Prop :=
  ∀ x y, text = x ++ y → x.getLast?.all isLineTerminator = true → ∃ u rest, y = u :: rest ∧ u ≠ 0x23

theorem unheaded_joinLines {lines : List JsString} (hne : lines ≠ [])
    (hline : ∀ line ∈ lines, ∀ u ∈ line, isLineTerminator u = false)
    (hhead : ∀ line ∈ lines, line.head? ≠ some 0x23) (hlast : lines.getLast? ≠ some []) :
    Unheaded (joinLines lines) := by
  have hstart {x line : JsString} (hx : x <+: line) (hline : ∀ u ∈ line, isLineTerminator u = false)
      (hend : x.getLast?.all isLineTerminator = true) : x = [] := by
    by_contra hne
    rw [List.getLast?_eq_some_getLast hne, Option.all_some,
      hline _ (hx.subset (List.getLast_mem hne))] at hend
    cases hend
  induction lines with
  | nil => exact absurd rfl hne
  | cons line rest ih =>
      have hown := hline line List.mem_cons_self
      have hmark := hhead line List.mem_cons_self
      intro x y heq hend
      by_cases hrest : rest = []
      · subst hrest
        have heq : line = x ++ y := by simpa [joinLines] using heq
        obtain rfl := hstart ⟨y, heq.symm⟩ hown hend
        obtain rfl : line = y := heq
        cases line with
        | nil => exact absurd rfl hlast
        | cons u line => exact ⟨u, line, rfl, fun hu => hmark (by rw [hu]; rfl)⟩
      · rw [joinLines_cons hrest] at heq
        have hlater := ih hrest (fun l hl => hline l (List.mem_cons_of_mem _ hl))
          (fun l hl => hhead l (List.mem_cons_of_mem _ hl))
          (by rwa [List.getLast?_cons_of_ne_nil hrest] at hlast)
        have hhere : ∃ u tail, line ++ 0x0A :: joinLines rest = u :: tail ∧ u ≠ 0x23 := by
          cases line with
          | nil => exact ⟨0x0A, _, rfl, by decide⟩
          | cons u line => exact ⟨u, _, rfl, fun hu => hmark (by rw [hu]; rfl)⟩
        rcases List.append_eq_append_iff.mp heq with ⟨c, rfl, hc⟩ | ⟨c, rfl, rfl⟩
        · cases c with
          | nil =>
              exact ⟨0x0A, joinLines rest, hc.symm, by decide⟩
          | cons u c =>
              obtain ⟨rfl, htail⟩ := List.cons.inj hc
              refine hlater c y htail ?_
              cases c with
              | nil => rfl
              | cons v c =>
                  rw [List.getLast?_append_of_ne_nil _ (List.cons_ne_nil _ _),
                    List.getLast?_cons_cons] at hend
                  exact hend
        · obtain rfl := hstart (List.prefix_append x c) hown hend
          simpa using hhere

/-! ## Finding the section again -/

/-- The text of the section below its heading. -/
def sectionText (entries : List PhaseGitCheckpointEntry) : JsString :=
  joinLines (sectionBody entries)

theorem checkpointSection_eq (entries : List PhaseGitCheckpointEntry) :
    checkpointSection entries = js "## Git Checkpoint" ++ 0x0A :: sectionText entries :=
  joinLines_cons (by simp [sectionBody])

theorem sectionText_eq (entries : List PhaseGitCheckpointEntry) :
    ∃ rest, sectionText entries = 0x0A :: 0x7C :: rest := by
  have htail : (sectionBody entries).tail ≠ [] := by simp [sectionBody]
  have hform : sectionBody entries = [] :: (sectionBody entries).tail := rfl
  rw [sectionText, hform, joinLines_cons htail]
  have hhead : (js "| Repository | Branch | Phase Commit |") =
      0x7C :: js " Repository | Branch | Phase Commit |" := by decide
  have hnext : (sectionBody entries).tail = js "| Repository | Branch | Phase Commit |" ::
      (sectionBody entries).tail.tail := rfl
  rw [hnext, joinLines_cons (by simp [sectionBody]), hhead]
  exact ⟨_, rfl⟩

theorem oneLine_sectionBody {entries : List PhaseGitCheckpointEntry}
    (h : ∀ entry ∈ entries, entry.WellFormed) :
    ∀ line ∈ sectionBody entries, ∀ u ∈ line, isLineTerminator u = false :=
  forall_mem_sectionBody.2 ⟨⟨by simp, not_lineTerminator_of_all (by decide),
    not_lineTerminator_of_all (by decide)⟩,
    fun entry hentry => entryRow_line (h entry hentry),
    not_lineTerminator_of_all (by decide)⟩

theorem unheaded_sectionText {entries : List PhaseGitCheckpointEntry}
    (h : ∀ entry ∈ entries, entry.WellFormed) : Unheaded (sectionText entries) := by
  refine unheaded_joinLines (by simp [sectionBody]) ?_ ?_ ?_
  · exact oneLine_sectionBody h
  · refine forall_mem_sectionBody.2 ⟨⟨by simp, by decide, by decide⟩,
      fun entry _ => ?_, by decide⟩
    simp [entryRow, show js "| " = [0x7C, 0x20] by decide]
  · have hlast : (sectionBody entries).getLast? = some closingLine := by
      rw [sectionBody, List.getLast?_append_of_ne_nil _ (List.cons_ne_nil _ _)]
      rfl
    rw [hlast]
    decide

/-- The heading takes the first line end with it. -/
theorem head?_sectionHeading (rest : JsString) :
    (sectionHeading "git checkpoint"
      (js "## Git Checkpoint" ++ 0x0A :: 0x0A :: 0x7C :: rest)).head? =
        some (0x0A :: 0x7C :: rest) := by
  have hmark : js "##" = [0x23, 0x23] := by decide
  have hname : js "git checkpoint" =
    [0x67, 0x69, 0x74, 0x20, 0x63, 0x68, 0x65, 0x63, 0x6B, 0x70, 0x6F, 0x69, 0x6E, 0x74] := by
      decide
  have htext : js "## Git Checkpoint" = [0x23, 0x23, 0x20, 0x47, 0x69, 0x74, 0x20, 0x43, 0x68,
    0x65, 0x63, 0x6B, 0x70, 0x6F, 0x69, 0x6E, 0x74] := by decide
  have hwhite : isWhiteSpace 0x20 = true ∧ isWhiteSpace 0x0A = true ∧
    isWhiteSpace 0x47 = false ∧ isWhiteSpace 0x7C = false := by decide
  have hend : isLineTerminator 0x0A = true ∧ isLineTerminator 0x7C = false := by decide
  simp [sectionHeading, lit, litIgnoreCase, concat, seq, atLeast, many, unit, done, endOfLine,
    hmark, hname, htext, hwhite, hend, List.replicate, lowerCase]

theorem cutAtHeading_append {text : JsString} (htext : Unheaded text) (rest : JsString) :
    ∃ front after, cutAtHeading (text ++ rest) = (text ++ front, after) ∧ rest = front ++ after ∧
      (after = [] ∨ front ≠ [] ∧ js "##" <+: after) := by
  unfold cutAtHeading
  split
  · rename_i body found hfound
    obtain ⟨after, heq, hmatch, hend, -⟩ := searchLines_eq_some hfound
    have hne : anyHeading after ≠ [] := by
      intro hnil
      rw [hnil] at hmatch
      cases hmatch
    obtain ⟨u, tail, rfl, -⟩ := anyHeading_ne_nil.1 hne
    -- A heading within the text would begin one of its lines.
    have hlonger : ∃ front, front ≠ [] ∧ body = text ++ front := by
      rcases List.append_eq_append_iff.mp heq with ⟨front, rfl, hrest⟩ | ⟨c, rfl, hc⟩
      · refine ⟨front, ?_, rfl⟩
        rintro rfl
        rw [List.append_nil] at hend
        obtain ⟨v, rest', hnil, -⟩ := htext text [] (List.append_nil _).symm hend
        cases hnil
      · obtain ⟨v, c, rfl, hv⟩ := htext body c rfl hend
        exact absurd (List.cons.inj hc).1.symm hv
    obtain ⟨front, hfront, rfl⟩ := hlonger
    rw [List.append_assoc] at heq
    refine ⟨front, js "##" ++ u :: tail, ?_, List.append_cancel_left heq,
      .inr ⟨hfront, List.prefix_append _ _⟩⟩
    rw [heq, ← List.append_assoc, List.drop_left]
  · exact ⟨rest, [], rfl, (List.append_nil _).symm, .inl rfl⟩

/-- No heading of the section begins within a text, whatever follows. -/
def Unsectioned (text : JsString) : Prop :=
  text.getLast?.all isLineTerminator = true ∧
    ∀ x y, text = x ++ y → y ≠ [] → x.getLast?.all isLineTerminator = true →
      ∀ rest, sectionHeading "git checkpoint" (y ++ js "##" ++ rest) = []

theorem findCheckpoint_append {before : JsString} {entries : List PhaseGitCheckpointEntry}
    (h : ∀ entry ∈ entries, entry.WellFormed) (hbefore : Unsectioned before) (rest : JsString) :
    ∃ front after, findCheckpoint (before ++ checkpointSection entries ++ rest) =
        some ⟨before, sectionText entries ++ front, after⟩ ∧ rest = front ++ after ∧
      (after = [] ∨ front ≠ [] ∧ js "##" <+: after) := by
  obtain ⟨front, after, hcut, hrest, hafter⟩ :=
    cutAtHeading_append (unheaded_sectionText h) rest
  refine ⟨front, after, ?_, hrest, hafter⟩
  obtain ⟨tail, htail⟩ := sectionText_eq entries
  have hfound : searchLines (sectionHeading "git checkpoint") true
      (before ++ (checkpointSection entries ++ rest)) =
        some (before, sectionText entries ++ rest) := by
    refine searchLines_append ?_ ⟨hbefore.1, fun _ => rfl⟩ fun x y heq hne hx => ?_
    · rw [checkpointSection_eq, htail]
      simp only [List.append_assoc, List.cons_append]
      exact head?_sectionHeading _
    · have hnone := hbefore.2 x y heq hne hx.1
        (js " Git Checkpoint" ++ 0x0A :: sectionText entries ++ rest)
      rw [checkpointSection_eq, show js "## Git Checkpoint" = js "##" ++ js " Git Checkpoint" by
        decide]
      simpa only [List.append_assoc, List.cons_append] using hnone
  rw [findCheckpoint, findSection, List.append_assoc, hfound]
  simp only [Option.map_some, hcut]

/-! ## The document around the section -/

theorem getLast?_checkpointSection (entries : List PhaseGitCheckpointEntry) :
    ∃ u, (checkpointSection entries).getLast? = some u ∧ isWhiteSpace u = false := by
  have hform : js "## Git Checkpoint" :: sectionBody entries =
      (js "## Git Checkpoint" :: [[], js "| Repository | Branch | Phase Commit |",
        js "| --- | --- | --- |"] ++ entries.map entryRow ++ [[]]) ++ [closingLine] := by
    simp [sectionBody]
  have hclosing : closingLine.getLast? = some 0x2E := by decide
  refine ⟨0x2E, ?_, by decide⟩
  rw [checkpointSection, hform, joinLines_append (by simp) (by simp),
    List.getLast?_append_of_ne_nil _ (List.cons_ne_nil _ _)]
  rw [show joinLines [closingLine] = closingLine by simp [joinLines]]
  rw [List.getLast?_cons_of_ne_nil (by rw [Ne, ← List.getLast?_eq_none_iff, hclosing]; simp)]
  exact hclosing

/-- What is left of a document that ends in its checkpoint section. -/
theorem trimEnd_section (before : JsString) (entries : List PhaseGitCheckpointEntry)
    {white : JsString} (hwhite : ∀ u ∈ white, isWhiteSpace u = true) :
    trimEnd (before ++ checkpointSection entries ++ white) =
      before ++ checkpointSection entries := by
  obtain ⟨u, hlast, hu⟩ := getLast?_checkpointSection entries
  refine JsString.trimEnd_append_white (u := u) ?_ hu hwhite
  rw [List.getLast?_append_of_ne_nil _ (by rintro hnil; rw [hnil] at hlast; cases hlast), hlast]

theorem not_mem_name {name : JsString} (h : name.map lowerCase = js "git checkpoint") {u : CodeUnit}
    (hu : u ∈ name) : u ≠ 0x23 ∧ isLineTerminator u = false := by
  have hmem : lowerCase u ∈ js "git checkpoint" := h ▸ List.mem_map_of_mem hu
  constructor
  · rintro rfl
    exact absurd hmem (by decide)
  · rw [Bool.eq_false_iff]
    intro hend
    simp only [isLineTerminator, Bool.or_eq_true, beq_iff_eq] at hend
    rcases hend with ((rfl | rfl) | rfl) | rfl <;> exact absurd hmem (by decide)

theorem getLast?_name {name : JsString} (h : name.map lowerCase = js "git checkpoint") :
    ∃ u, name.getLast? = some u ∧ isWhiteSpace u = false := by
  have hlast : (name.map lowerCase).getLast? = some 0x74 := by rw [h]; decide
  rw [List.getLast?_map, Option.map_eq_some_iff] at hlast
  obtain ⟨u, hu, hlower⟩ := hlast
  refine ⟨u, hu, ?_⟩
  unfold lowerCase at hlower
  split at hlower
  · have hu : u = 0x54 := by
      have := congrArg (· - 0x20) hlower
      simpa using this
    rw [hu]
    decide
  · rw [hlower]
    decide

/-- A heading within a text that ends a line is found there whatever follows. -/
theorem sectionHeading_append {y rest : JsString} {t : CodeUnit} (hlast : y.getLast? = some t)
    (ht : isLineTerminator t = true)
    (h : sectionHeading "git checkpoint" (y ++ js "##" ++ rest) ≠ []) (more : JsString) :
    sectionHeading "git checkpoint" (y ++ more) ≠ [] := by
  obtain ⟨white, name, tail, heq, hne, hwhite, hname, hline⟩ := sectionHeading_ne_nil.1 h
  have hmarks : js "##" = [0x23, 0x23] := by decide
  have hform : y ++ (js "##" ++ rest) = (js "##" ++ (white ++ name)) ++ tail := by
    rw [← List.append_assoc, heq]
    simp only [List.append_assoc]
  have hy : ∃ z, y = js "##" ++ (white ++ name) ++ z ∧ tail = z ++ (js "##" ++ rest) := by
    rcases List.append_eq_append_iff.mp hform with ⟨c, hc, htail⟩ | ⟨z, hz, htail⟩
    · -- The heading would go on behind the text, with a `#`.
      exfalso
      have hmem (u : CodeUnit) (hu : u ∈ white ++ name) : u ≠ 0x23 := by
        rcases List.mem_append.mp hu with hu | hu
        · rintro rfl
          exact absurd (hwhite _ hu) (by decide)
        · exact (not_mem_name hname hu).1
      cases c with
      | nil =>
          obtain ⟨u, hu, -⟩ := getLast?_name hname
          have hy : y = js "##" ++ (white ++ name) := by rw [hc, List.append_nil]
          have hnameNe : name ≠ [] := by rintro rfl; cases hu
          rw [hy, ← List.append_assoc, List.getLast?_append_of_ne_nil _ hnameNe, hu] at hlast
          obtain rfl := Option.some.inj hlast
          rw [(not_mem_name hname (List.mem_of_getLast? hu)).2] at ht
          cases ht
      | cons u c =>
          rw [hmarks] at hc htail
          obtain rfl : 0x23 = u := (List.cons.inj htail).1
          match y, hc with
          | [], _ => cases hlast
          | [a], hc =>
              obtain rfl : 0x23 = a := (List.cons.inj hc).1
              obtain rfl := Option.some.inj hlast
              cases ht
          | a :: b :: y', hc =>
              have htail : white ++ name = y' ++ 0x23 :: c := (List.cons.inj (List.cons.inj hc).2).2
              exact hmem 0x23 (by rw [htail]; simp) rfl
    · exact ⟨z, hz, htail⟩
  obtain ⟨z, rfl, rfl⟩ := hy
  obtain ⟨white', rest', htail, hwhite', hend⟩ := hline
  have hz : ∃ u z', z = white' ++ u :: z' ∧ isLineTerminator u = true := by
    rcases List.append_eq_append_iff.mp htail with ⟨c, rfl, hc⟩ | ⟨z', rfl, rfl⟩
    · exfalso
      cases c with
      | nil =>
          rw [← show js "##" ++ rest = rest' from hc, hmarks] at hend
          cases hend
      | cons u c =>
          rw [hmarks] at hc
          obtain rfl : 0x23 = u := (List.cons.inj hc).1
          exact absurd (hwhite' 0x23 (by simp)) (by decide)
    · cases z' with
      | nil =>
          rw [hmarks] at hend
          cases hend
      | cons u z' => exact ⟨u, z', rfl, by simpa using hend⟩
  obtain ⟨u, z', rfl, hu⟩ := hz
  refine sectionHeading_ne_nil.2 ⟨white, name, white' ++ (u :: z' ++ more), ?_, hne, hwhite,
    hname, white', u :: z' ++ more, rfl, hwhite', by simpa using hu⟩
  simp only [List.append_assoc]

/-- A heading at the end of a text is found there whatever white space follows. -/
theorem sectionHeading_white {y white : JsString}
    (hy : ∀ u, y.getLast? = some u → isWhiteSpace u = false)
    (hwhite : ∀ u ∈ white, isWhiteSpace u = true)
    (h : sectionHeading "git checkpoint" (y ++ js "\n\n") ≠ []) :
    sectionHeading "git checkpoint" (y ++ white) ≠ [] := by
  obtain ⟨space, name, tail, heq, hne, hspace, hname, hline⟩ := sectionHeading_ne_nil.1 h
  obtain ⟨v, hv, hvwhite⟩ := getLast?_name hname
  have hnameNe : name ≠ [] := by rintro rfl; cases hv
  have hfeeds : ∀ u ∈ js "\n\n", isWhiteSpace u = true := List.all_eq_true.mp (by decide)
  have hform : y ++ js "\n\n" = (js "##" ++ (space ++ name)) ++ tail := by
    rw [heq]
    simp only [List.append_assoc]
  have hprefix : ∃ z, y = js "##" ++ (space ++ name) ++ z ∧ tail = z ++ js "\n\n" := by
    rcases List.append_eq_append_iff.mp hform with ⟨c, hc, htail⟩ | ⟨z, hz, htail⟩
    · by_cases hcne : c = []
      · subst hcne
        exact ⟨[], by rw [hc, List.append_nil, List.append_nil], by simpa using htail.symm⟩
      · exfalso
        have hlast : (y ++ c).getLast? = some v := by
          rw [← hc, ← List.append_assoc, List.getLast?_append_of_ne_nil _ hnameNe, hv]
        rw [List.getLast?_append_of_ne_nil _ hcne] at hlast
        rw [hfeeds v (by rw [htail]; exact List.mem_append_left _ (List.mem_of_getLast? hlast))]
          at hvwhite
        cases hvwhite
    · exact ⟨z, hz, htail⟩
  obtain ⟨z, rfl, rfl⟩ := hprefix
  have hends : EndsLine (z ++ white) := by
    by_cases hz : z = []
    · exact ⟨white, [], by rw [hz, List.nil_append, List.append_nil], hwhite, rfl⟩
    · obtain ⟨w, hw⟩ := Option.isSome_iff_exists.mp (List.getLast?_isSome.mpr hz)
      have hwnot := hy w (by rw [List.getLast?_append_of_ne_nil _ hz, hw])
      obtain ⟨white', rest', htail, hwhite', hend⟩ := hline
      rcases List.append_eq_append_iff.mp htail with ⟨c, rfl, hc⟩ | ⟨z', rfl, rfl⟩
      · rw [hwhite' w (List.mem_append_left _ (List.mem_of_getLast? hw))] at hwnot
        cases hwnot
      · cases z' with
        | nil =>
            rw [List.append_nil] at hw
            rw [hwhite' w (List.mem_of_getLast? hw)] at hwnot
            cases hwnot
        | cons u z' =>
            exact ⟨white', u :: z' ++ white, by simp, hwhite', by simpa using hend⟩
  refine sectionHeading_ne_nil.2 ⟨space, name, z ++ white, ?_, hne, hspace, hname, hends⟩
  simp only [List.append_assoc]

/-- What stands before a section is not the beginning of one. -/
theorem unsectioned_before {markdown : JsString} {parts : SectionParts}
    (h : findCheckpoint markdown = some parts) : Unsectioned parts.before := by
  obtain ⟨⟨before, remaining⟩, hfound, rfl⟩ := Option.map_eq_some_iff.mp h
  obtain ⟨found, rfl, hmatch, hlast, -⟩ := searchLines_eq_some hfound
  refine ⟨hlast, fun x y (heq : before = x ++ y) hne hx rest => ?_⟩
  have hfirst := searchLines_first hfound heq hne ⟨hx, fun _ => rfl⟩
  by_contra hsection
  obtain ⟨t, ht⟩ := Option.isSome_iff_exists.mp (List.getLast?_isSome.mpr hne)
  rw [show before.getLast? = some t by rw [heq, List.getLast?_append_of_ne_nil _ hne, ht]] at hlast
  exact sectionHeading_append ht (by simpa using hlast) hsection found hfirst

/-- A document without the section is not the beginning of one either. -/
theorem unsectioned_trimEnd {markdown : JsString} (h : findCheckpoint markdown = none) :
    Unsectioned (markdown.trimEnd ++ js "\n\n") := by
  have hfeeds : js "\n\n" = [0x0A, 0x0A] := by decide
  have hend : (markdown.trimEnd ++ js "\n\n").getLast? = some 0x0A := by
    rw [List.getLast?_append_of_ne_nil _ (by decide)]
    decide
  refine ⟨by rw [hend]; decide, fun x y heq hne hx rest => ?_⟩
  by_contra hsection
  have hy : y.getLast? = some 0x0A := by
    rw [heq, List.getLast?_append_of_ne_nil _ hne] at hend
    exact hend
  have hfound := sectionHeading_append hy (by decide) hsection []
  rw [List.append_nil] at hfound
  obtain ⟨white, hwhite, hall⟩ := exists_trimEnd_append markdown
  have hnone (z : JsString) (hz : markdown = x ++ z) :
      sectionHeading "git checkpoint" z = [] := by
    by_contra hsome
    have hsearch := searchLines_isSome hx (fun _ => rfl) hsome
    rw [← hz] at hsearch
    rw [findCheckpoint, findSection, Option.map_eq_none_iff] at h
    rw [h] at hsearch
    cases hsearch
  rcases List.append_eq_append_iff.mp heq with ⟨c, rfl, hc⟩ | ⟨y₀, hy₀, rfl⟩
  · -- The rest is white space only.
    obtain ⟨space, name, tail, hform, -⟩ := sectionHeading_ne_nil.1 hfound
    have hmem : (0x23 : CodeUnit) ∈ js "\n\n" := by
      rw [hc, hform]
      exact List.mem_append_right _ (List.mem_append_left _ (by decide))
    exact absurd hmem (by decide)
  · refine sectionHeading_white (fun u hu => ?_) hall hfound (hnone (y₀ ++ white) ?_)
    · have hne₀ : y₀ ≠ [] := by rintro rfl; cases hu
      refine getLast?_trimEnd (s := markdown) ?_
      rw [hy₀, List.getLast?_append_of_ne_nil _ hne₀, hu]
    · rw [← List.append_assoc, ← hy₀]
      exact hwhite

/-- The parts of a document with the section. -/
theorem findCheckpoint_parts {markdown : JsString} {parts : SectionParts}
    (h : findCheckpoint markdown = some parts) :
    ∃ matched, markdown = parts.before ++ matched ++ parts.after ∧
      (parts.after = [] ∨ js "##" <+: parts.after) := by
  obtain ⟨text, heq, -, hafter⟩ := findSection_eq_some h
  exact ⟨js "##" ++ text, by rw [heq]; simp only [List.append_assoc], hafter⟩

/-- Lines that end before a place are lines whatever stands there. -/
theorem lines_before_sublist {text : JsString} (h : text.getLast?.all isLineTerminator = true)
    (rest : JsString) : (text.splitOnP isLineTerminator).dropLast.Sublist
      ((text ++ rest).splitOnP isLineTerminator) := by
  cases hlast : text.getLast? with
  | none =>
      rw [List.getLast?_eq_none_iff.mp hlast]
      exact List.nil_sublist _
  | some t =>
      obtain ⟨front, rfl⟩ := List.getLast?_eq_some_iff.mp hlast
      rw [hlast, Option.all_some] at h
      rw [List.splitOnP_append_cons _ _ h, List.append_assoc, List.singleton_append,
        List.splitOnP_append_cons _ _ h, List.splitOnP_nil, List.dropLast_concat]
      exact List.sublist_append_left _ _

/-- **The audit puts the section in place of an earlier one, or at the end.** -/
theorem audit_eq (markdown : JsString) {entries : List PhaseGitCheckpointEntry}
    (hplain : ∀ entry ∈ entries, isPlainText (entryRow entry) = true) :
    ∃ before after, Unsectioned before ∧
      applyPhaseGitCheckpointAudit markdown entries =
        trimEnd (before ++ checkpointSection entries ++ after) ++ js "\n" ∧
      (after = [] ∨ js "##" <+: after) ∧ (EndsWithCheckpoint markdown ↔ after = []) ∧
      (after = [] → ∀ rest, (outsideLines markdown).Sublist
        ((before ++ rest).splitOnP isLineTerminator)) := by
  unfold applyPhaseGitCheckpointAudit outsideLines EndsWithCheckpoint
  cases hfound : findCheckpoint markdown with
  | some parts =>
      have hbefore := unsectioned_before hfound
      obtain ⟨-, -, hafter⟩ := findCheckpoint_parts hfound
      refine ⟨parts.before, parts.after, hbefore, ?_, hafter, ?_, fun hnil rest => ?_⟩
      · simp only [substitute_of_isPlainText (isPlainText_checkpointSection hplain)]
      · exact ⟨fun h => h parts rfl, fun h parts' heq => by rw [← Option.some.inj heq]; exact h⟩
      · simp only [if_pos hnil, List.append_nil]
        exact lines_before_sublist hbefore.1 rest
  | none =>
      refine ⟨markdown.trimEnd ++ js "\n\n", [], unsectioned_trimEnd hfound, ?_, .inl rfl,
        iff_of_true (fun parts heq => by cases heq) rfl, fun _ rest => ?_⟩
      · rw [trimEnd_section _ _ (by simp : ∀ u ∈ ([] : JsString), isWhiteSpace u = true)]
      · have hform : markdown.trimEnd ++ js "\n\n" ++ rest =
            markdown.trimEnd ++ 0x0A :: (0x0A :: rest) := by
          rw [show js "\n\n" = [0x0A, 0x0A] by decide, List.append_assoc]
          rfl
        rw [hform, List.splitOnP_append_cons _ _ (by decide)]
        exact List.sublist_append_left _ _

/-! ## Reading the entries -/

theorem trim_spaced {text : JsString} (h : text.trim = text) :
    trim (0x20 :: (text ++ [0x20])) = text := by
  have hspace : trim (0x20 :: (text ++ [0x20])) = trim (text ++ [0x20]) := by
    rw [trim, trim, List.dropWhile_cons_of_pos (by decide)]
  rw [hspace, trim_append_white (List.forall_mem_singleton.mpr (by decide)), h]

theorem isWhiteSpace_of_isHex {u : CodeUnit}
    (h : (isDigit u || (0x61 ≤ lowerCase u && lowerCase u ≤ 0x66)) = true) :
    isWhiteSpace u = false := by
  have hrange : 0x30 ≤ u ∧ u ≤ 0x66 := by
    unfold isDigit lowerCase at h
    split at h
    · rename_i hupper
      simp only [Bool.and_eq_true, decide_eq_true_eq, UInt16.le_iff_toNat_le] at hupper ⊢
      simp at hupper ⊢
      omega
    · simp only [Bool.or_eq_true, Bool.and_eq_true, decide_eq_true_eq,
        UInt16.le_iff_toNat_le] at h ⊢
      simp at h ⊢
      omega
  rw [Bool.eq_false_iff]
  intro hwhite
  simp only [isWhiteSpace, Bool.or_eq_true, Bool.and_eq_true, decide_eq_true_eq, beq_iff_eq,
    UInt16.le_iff_toNat_le, ← UInt16.toNat_inj] at hwhite hrange
  simp at hwhite hrange
  omega

theorem trim_of_isCommitId {text : JsString} (h : isCommitId text = true) : text.trim = text := by
  have hhex (u : CodeUnit) (hu : u ∈ text) : isWhiteSpace u = false := by
    rw [isCommitId, Bool.and_eq_true] at h
    exact isWhiteSpace_of_isHex (List.all_eq_true.mp h.2 u hu)
  have hdrop (l : JsString) (hl : ∀ u ∈ l, u ∈ text) : l.dropWhile isWhiteSpace = l := by
    cases l with
    | nil => rfl
    | cons u l =>
        rw [List.dropWhile_cons_of_neg]
        rw [hhex u (hl u List.mem_cons_self)]
        decide
  rw [trim, hdrop text fun _ => id, hdrop _ fun u hu => List.mem_reverse.mp hu,
    List.reverse_reverse]

theorem readCheckpointRow_entryRow {entry : PhaseGitCheckpointEntry} (h : entry.WellFormed) :
    readCheckpointRow (entryRow entry) = some entry := by
  have hcell {text back : JsString} (hpipe : ∀ u ∈ text, u ≠ 0x7C)
      (hback : ∀ u ∈ back, (u == 0x7C) = false) :
      ∀ u ∈ text ++ back, (u == 0x7C) = false := by
    intro u hu
    rcases List.mem_append.mp hu with hu | hu
    · exact beq_false_of_ne (hpipe u hu)
    · exact hback u hu
  have hkeep {text : JsString} (htick : ∀ u ∈ text, u ≠ 0x60) :
      text.filter (· != 0x60) = text :=
    List.filter_eq_self.mpr fun u hu => bne_iff_ne.mpr (htick u hu)
  have hcommit := isLineTerminator_of_isCommitId h.phaseCommit
  have hform : entryRow entry = [] ++ 0x7C :: ((0x20 :: (entry.repository ++ [0x20])) ++ 0x7C ::
      ((0x20 :: 0x60 :: (entry.branchName ++ [0x60, 0x20])) ++ 0x7C ::
        ((0x20 :: 0x60 :: (entry.phaseCommit ++ [0x60, 0x20])) ++ 0x7C :: []))) := by
    rw [entryRow, show js "| " = [0x7C, 0x20] by decide,
      show js " | `" = [0x20, 0x7C, 0x20, 0x60] by decide,
      show js "` | `" = [0x60, 0x20, 0x7C, 0x20, 0x60] by decide,
      show js "` |" = [0x60, 0x20, 0x7C] by decide]
    simp only [List.append_assoc, List.cons_append, List.nil_append]
  have hquoted {text : JsString} (htrim : text.trim = text) (htick : ∀ u ∈ text, u ≠ 0x60) :
      trim ((0x20 :: 0x60 :: (text ++ [0x60, 0x20])).filter (· != 0x60)) = text := by
    have hfilter : (0x20 :: 0x60 :: (text ++ [0x60, 0x20])).filter (· != 0x60) =
        0x20 :: (text ++ [0x20]) := by
      simp [List.filter_append, hkeep htick]
    rw [hfilter, trim_spaced htrim]
  have hplain {text : JsString} (htrim : text.trim = text) (htick : ∀ u ∈ text, u ≠ 0x60) :
      trim ((0x20 :: (text ++ [0x20])).filter (· != 0x60)) = text := by
    have hfilter : (0x20 :: (text ++ [0x20])).filter (· != 0x60) = 0x20 :: (text ++ [0x20]) := by
      simp [List.filter_append, hkeep htick]
    rw [hfilter, trim_spaced htrim]
  have hcells : checkpointCells (entryRow entry) =
      [entry.repository, entry.branchName, entry.phaseCommit] := by
    rw [checkpointCells, hform, List.splitOnP_append_cons_of_forall_mem (by simp) _ rfl,
      List.splitOnP_append_cons_of_forall_mem (List.forall_mem_cons.mpr ⟨rfl,
        hcell (fun u hu => (h.repository.2.2 u hu).1) (by simp)⟩) _ rfl,
      List.splitOnP_append_cons_of_forall_mem (List.forall_mem_cons.mpr ⟨rfl,
        List.forall_mem_cons.mpr ⟨rfl, hcell (fun u hu => (h.branchName.2.2 u hu).1)
          (by simp)⟩⟩) _ rfl,
      List.splitOnP_append_cons_of_forall_mem (List.forall_mem_cons.mpr ⟨rfl,
        List.forall_mem_cons.mpr ⟨rfl, hcell (fun u hu => (hcommit u hu).1) (by simp)⟩⟩) _ rfl,
      List.splitOnP_nil]
    show [trim _, trim _, trim _] = _
    rw [hplain h.repository.2.1 fun u hu => (h.repository.2.2 u hu).2.1,
      hquoted h.branchName.2.1 fun u hu => (h.branchName.2.2 u hu).2.1,
      hquoted (trim_of_isCommitId h.phaseCommit) fun u hu => (hcommit u hu).2.1]
  rw [readCheckpointRow, hcells]
  exact if_pos h.phaseCommit

/-- The section is read back. -/
theorem read_sectionText {entries : List PhaseGitCheckpointEntry}
    (h : ∀ entry ∈ entries, entry.WellFormed) :
    (splitLines (sectionText entries ++ js "\n")).filterMap readCheckpointRow = entries := by
  have hform : sectionText entries ++ js "\n" = joinLines (sectionBody entries ++ [[]]) := by
    rw [joinLines_append (by simp [sectionBody]) (by simp), sectionText]
    rfl
  have hlines : ∀ line ∈ sectionBody entries ++ [[]], ∀ u ∈ line, isLineTerminator u = false := by
    exact List.forall_mem_append.mpr ⟨oneLine_sectionBody h, by simp⟩
  have hrows : (entries.map entryRow).filterMap readCheckpointRow = entries := by
    rw [List.filterMap_map]
    refine (List.filterMap_congr fun entry hentry => ?_).trans List.filterMap_some
    exact readCheckpointRow_entryRow (h entry hentry)
  have hfirst : [[], js "| Repository | Branch | Phase Commit |",
      js "| --- | --- | --- |"].filterMap readCheckpointRow = [] := by decide
  have hlast : [[], closingLine, []].filterMap readCheckpointRow = [] := by decide
  rw [hform, splitLines_joinLines_of_dropLast (by simp) ?_ ?_]
  · rw [sectionBody, List.append_assoc, List.append_assoc, List.filterMap_append,
      List.filterMap_append, hfirst, hrows]
    rw [show [[], closingLine] ++ [[]] = [[], closingLine, []] from rfl, hlast, List.append_nil,
      List.nil_append]
  · intro line hline hmem
    exact absurd (hlines line hline 0x0A hmem) (by decide)
  · intro line hline hreturn
    exact absurd (hlines line ((List.dropLast_sublist _).subset hline) 0x0D
      (List.mem_of_getLast? hreturn)) (by decide)

/-! ## The audit, applied again -/

/-- Behind the section, nothing follows its last line end. -/
theorem findCheckpoint_last {before : JsString} {entries : List PhaseGitCheckpointEntry}
    (h : ∀ entry ∈ entries, entry.WellFormed) (hbefore : Unsectioned before) :
    findCheckpoint (before ++ checkpointSection entries ++ js "\n") =
      some ⟨before, sectionText entries ++ js "\n", []⟩ := by
  obtain ⟨front, after, hfound, hrest, hafter⟩ :=
    findCheckpoint_append h hbefore (js "\n")
  have hnil : after = [] := by
    rcases hafter with hnil | ⟨hfront, hmarks⟩
    · exact hnil
    · have hlength := congrArg List.length hrest
      have hmarks := hmarks.length_le
      have hone : (js "\n").length = 1 ∧ (js "##").length = 2 := by decide
      rw [List.length_append] at hlength
      omega
  subst hnil
  rw [List.append_nil] at hrest
  rw [hfound, hrest]

theorem audit_of_parts {markdown : JsString} {parts : SectionParts}
    {entries : List PhaseGitCheckpointEntry}
    (hplain : ∀ entry ∈ entries, isPlainText (entryRow entry) = true)
    (h : findCheckpoint markdown = some parts) :
    applyPhaseGitCheckpointAudit markdown entries =
      trimEnd (parts.before ++ checkpointSection entries ++ parts.after) ++ js "\n" := by
  unfold applyPhaseGitCheckpointAudit
  rw [h]
  simp only [substitute_of_isPlainText (isPlainText_checkpointSection hplain)]

/-- A heading that follows the section is lost with the next application. -/
theorem audit_shrinks {before after : JsString} {entries : List PhaseGitCheckpointEntry}
    (h : ∀ entry ∈ entries, entry.WellFormed)
    (hplain : ∀ entry ∈ entries, isPlainText (entryRow entry) = true)
    (hbefore : Unsectioned before)
    (hafter : js "##" <+: after) :
    (applyPhaseGitCheckpointAudit
        (trimEnd (before ++ checkpointSection entries ++ after) ++ js "\n") entries).length <
      (trimEnd (before ++ checkpointSection entries ++ after) ++ js "\n").length := by
  obtain ⟨white, hwhite, hall⟩ := exists_trimEnd_append after
  have hne : after.trimEnd ≠ [] := by
    intro hnil
    obtain ⟨rest, rfl⟩ := hafter
    rw [hnil, List.nil_append] at hwhite
    have hmark : (0x23 : CodeUnit) ∈ white := by
      rw [← hwhite]
      exact List.mem_append_left _ (by decide)
    exact absurd (hall 0x23 hmark) (by decide)
  obtain ⟨u, hu⟩ := Option.isSome_iff_exists.mp (List.getLast?_isSome.mpr hne)
  have hfirst : trimEnd (before ++ checkpointSection entries ++ after) =
      before ++ checkpointSection entries ++ after.trimEnd := by
    conv_lhs => rw [hwhite, ← List.append_assoc]
    refine JsString.trimEnd_append_white (u := u) ?_ (getLast?_trimEnd hu) hall
    rw [List.getLast?_append_of_ne_nil _ hne, hu]
  obtain ⟨front, last, hfound, hrest, hlast⟩ :=
    findCheckpoint_append h hbefore (after.trimEnd ++ js "\n")
  rw [hfirst, List.append_assoc _ after.trimEnd, audit_of_parts hplain hfound]
  have hone : (js "\n").length = 1 := by decide
  have hlength := congrArg List.length hrest
  have hpositive := List.length_pos_iff.mpr hne
  rcases hlast with rfl | ⟨hfront, hmarks⟩
  · rw [trimEnd_section _ _ (by simp : ∀ u ∈ ([] : JsString), isWhiteSpace u = true)]
    simp only [List.length_append, hone] at hlength ⊢
    omega
  · -- What is kept of the rest still ends in a line feed, which is trimmed.
    have hlastNe : last ≠ [] := by
      rintro rfl
      exact absurd hmarks.length_le (by decide)
    have hend : last.getLast? = some 0x0A := by
      have hboth := congrArg List.getLast? hrest
      rw [List.getLast?_append_of_ne_nil _ hlastNe, List.getLast?_append_of_ne_nil _ (by decide)]
        at hboth
      exact hboth.symm
    obtain ⟨kept, rfl⟩ := List.getLast?_eq_some_iff.mp hend
    have htrim : (trimEnd (before ++ checkpointSection entries ++ (kept ++ [0x0A]))).length ≤
        (before ++ checkpointSection entries ++ kept).length := by
      rw [← List.append_assoc, trimEnd, List.rdropWhile_concat_pos _ _ _ (by decide)]
      exact (List.rdropWhile_prefix _ _).length_le
    have hfrontLength := List.length_pos_iff.mpr hfront
    simp only [List.length_append, List.length_singleton, hone] at htrim hlength ⊢
    omega

/-- **For labels without replacement patterns the audit records the entries and nothing else
if and only if no section follows the checkpoint section.** -/
theorem audit_records_iff {markdown : JsString} {entries : List PhaseGitCheckpointEntry}
    (h : ∀ entry ∈ entries, entry.WellFormed)
    (hplain : ∀ entry ∈ entries, isPlainText (entryRow entry) = true) :
    AuditRecords markdown entries ↔ EndsWithCheckpoint markdown := by
  obtain ⟨before, after, hbefore, haudit, hafter, hends, hkept⟩ := audit_eq markdown hplain
  rw [hends]
  constructor
  · intro hrecords
    by_contra hne
    have hstable := hrecords.stable
    rw [haudit] at hstable
    have hshrinks := audit_shrinks h hplain hbefore (hafter.resolve_left hne)
    rw [hstable] at hshrinks
    exact Nat.lt_irrefl _ hshrinks
  · rintro rfl
    rw [trimEnd_section _ _ (by simp : ∀ u ∈ ([] : JsString), isWhiteSpace u = true)] at haudit
    have hfound := findCheckpoint_last h hbefore
    refine ⟨?_, ?_, ?_⟩
    · rw [haudit, readPhaseGitCheckpointEntries, hfound]
      exact read_sectionText h
    · rw [haudit, List.append_assoc]
      exact hkept rfl _
    · rw [haudit, audit_of_parts hplain hfound,
        trimEnd_section _ _ (by simp : ∀ u ∈ ([] : JsString), isWhiteSpace u = true)]

/-- One commit of a repository. -/
def sampleEntry : PhaseGitCheckpointEntry where
  repository := js "app"
  branchName := js "feature/one"
  phaseCommit := List.replicate 40 0x61

theorem isLabel_of_all {text : JsString} (hne : text ≠ []) (htrim : text.trim = text)
    (h : text.all (fun u => u != 0x7C && u != 0x60 && !isLineTerminator u) = true) :
    IsLabel text :=
  ⟨hne, htrim, fun u hu => by simpa [and_assoc] using List.all_eq_true.mp h u hu⟩

theorem sampleEntry_wellFormed : ∀ entry ∈ [sampleEntry], entry.WellFormed := by
  intro entry hentry
  rw [List.mem_singleton.mp hentry]
  exact ⟨isLabel_of_all (by decide) (by decide) (by decide),
    isLabel_of_all (by decide) (by decide) (by decide), by decide⟩

theorem audit_records_new : AuditRecords (js "# Phase 1\n") [sampleEntry] :=
  (audit_records_iff sampleEntry_wellFormed (by decide)).mpr fun parts hparts =>
    absurd (show (findCheckpoint (js "# Phase 1\n")).isSome = true by rw [hparts]; rfl)
      (by decide)

/-- The ledger of a phase behind its checkpoint section. -/
def ledgerBehind : JsString :=
  js "## Git Checkpoint\n\n## Phase Task Ledger\n\n- [x] a\n"

/-- The ledger is lost when the audit is applied again. -/
theorem ledger_lost : ¬AuditRecords ledgerBehind [sampleEntry] := by
  intro h
  have hstable := h.stable
  revert hstable
  decide +kernel

end Hepha.Phases
