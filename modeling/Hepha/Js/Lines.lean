import Hepha.Js.Pattern
import Mathlib.Data.List.DropRight

/-!
# Lines of a text

A text is cut into lines at `/\r?\n/`.  The flag `m` of a regular expression
knows more line ends than that: under it `^` and `$` also match next to a lone
carriage return and next to U+2028 and U+2029, so the two notions of a line are
kept apart here.

The code's `toLowerCase` and `toUpperCase` are those of the platform.
-/

namespace Hepha

/-- The upper case of an ASCII unit. -/
def Pattern.upperCase (u : CodeUnit) : CodeUnit :=
  if Pattern.isLower u then u - 0x20 else u

/-- The case mappings of the platform, which are known on ASCII texts. -/
structure Casing where
  toLowerCase : JsString → JsString
  toUpperCase : JsString → JsString
  toLowerCase_ascii : ∀ s : JsString, (∀ u ∈ s, u < 0x80) → toLowerCase s = s.map Pattern.lowerCase
  toUpperCase_ascii : ∀ s : JsString, (∀ u ∈ s, u < 0x80) → toUpperCase s = s.map Pattern.upperCase

/-- The case mappings that leave every unit outside ASCII as it is. -/
def Casing.ascii : Casing where
  toLowerCase s := s.map Pattern.lowerCase
  toUpperCase s := s.map Pattern.upperCase
  toLowerCase_ascii _ _ := rfl
  toUpperCase_ascii _ _ := rfl

/-- On an ASCII text the case mappings are known. -/
theorem Casing.toLowerCase_of_all (casing : Casing) {s : JsString}
    (h : (s.all fun u => u < 0x80) = true) : casing.toLowerCase s = s.map Pattern.lowerCase :=
  casing.toLowerCase_ascii s fun u hu => by simpa using List.all_eq_true.mp h u hu

theorem Casing.toUpperCase_of_all (casing : Casing) {s : JsString}
    (h : (s.all fun u => u < 0x80) = true) : casing.toUpperCase s = s.map Pattern.upperCase :=
  casing.toUpperCase_ascii s fun u hu => by simpa using List.all_eq_true.mp h u hu

namespace JsString

def trimStart (s : JsString) : JsString :=
  s.dropWhile isWhiteSpace

def trimEnd (s : JsString) : JsString :=
  s.rdropWhile isWhiteSpace

theorem mem_trim {s : JsString} {u : CodeUnit} (hu : u ∈ s) (hwhite : isWhiteSpace u = false) :
    u ∈ s.trim := by
  have hdrop {l : JsString} (h : u ∈ l) : u ∈ l.dropWhile isWhiteSpace := by
    rw [← List.takeWhile_append_dropWhile (p := isWhiteSpace) (l := l), List.mem_append] at h
    rcases h with h | h
    · rw [List.mem_takeWhile_imp h] at hwhite
      cases hwhite
    · exact h
  rw [trim, List.mem_reverse]
  exact hdrop (List.mem_reverse.mpr (hdrop hu))

theorem mem_of_mem_trim {s : JsString} {u : CodeUnit} (h : u ∈ s.trim) : u ∈ s :=
  (List.dropWhile_sublist _).subset ((List.rdropWhile_prefix _ _).subset h)

theorem trim_append_white {s white : JsString} (h : ∀ u ∈ white, isWhiteSpace u = true) :
    (s ++ white).trim = s.trim := by
  rw [trim, trim, List.dropWhile_append]
  split
  · rename_i hempty
    rw [List.isEmpty_iff.mp hempty, List.dropWhile_eq_nil_iff.mpr h]
  · rw [List.reverse_append, List.dropWhile_append_of_pos
      (fun u hu => h u (List.mem_reverse.mp hu))]

theorem exists_trimEnd_append (s : JsString) :
    ∃ white, s = trimEnd s ++ white ∧ ∀ u ∈ white, isWhiteSpace u = true := by
  refine ⟨s.rtakeWhile isWhiteSpace, (List.rdropWhile_append_rtakeWhile).symm, fun u hu => ?_⟩
  exact List.mem_rtakeWhile_imp hu

/-- What `trimEnd` leaves does not end in white space. -/
theorem getLast?_trimEnd {s : JsString} {u : CodeUnit} (h : (trimEnd s).getLast? = some u) :
    isWhiteSpace u = false := by
  obtain ⟨front, hfront⟩ := List.getLast?_eq_some_iff.mp h
  have hne : s.rdropWhile isWhiteSpace ≠ [] := by
    rw [show s.rdropWhile isWhiteSpace = front ++ [u] from hfront]
    simp
  have hlast := List.rdropWhile_last_not isWhiteSpace s hne
  have hu : (s.rdropWhile isWhiteSpace).getLast hne = u :=
    Option.some.inj ((List.getLast?_eq_some_getLast hne).symm.trans h)
  rw [hu] at hlast
  simpa using hlast

theorem trim_eq (s : JsString) : s.trim = trimEnd (trimStart s) :=
  rfl

/-- What `trim` leaves begins with a unit that is not white space. -/
theorem exists_of_trim_ne_nil {s : JsString} (h : s.trim ≠ []) :
    ∃ u ∈ s.trim, isWhiteSpace u = false := by
  rw [trim, ne_eq, List.reverse_eq_nil_iff] at h
  refine ⟨((s.dropWhile isWhiteSpace).reverse.dropWhile isWhiteSpace).head h, ?_, ?_⟩
  · exact List.mem_reverse.mpr (List.head_mem h)
  · exact List.head_dropWhile_not isWhiteSpace h

theorem trim_trim (s : JsString) : s.trim.trim = s.trim := by
  by_cases h : s.trim = []
  · rw [h]
    rfl
  refine trim_eq_self_iff.2 ⟨?_, ?_⟩
  · obtain ⟨tail, htail⟩ : s.trim <+: s.trimStart := List.rdropWhile_prefix _ _
    have hhead : ((s.trimStart.map isWhiteSpace).head?) ≠ some true :=
      dropWhile_eq_self_iff.1 (List.dropWhile_idempotent isWhiteSpace s)
    rwa [← htail, List.map_append, List.head?_append_of_ne_nil _ (by simpa using h)] at hhead
  · have hlast := List.rdropWhile_last_not isWhiteSpace s.trimStart h
    rw [List.getLast?_map, List.getLast?_eq_some_getLast h, Option.map_some]
    exact fun heq => hlast (Option.some.inj heq)

/-- `text.split(/\r?\n/)`. -/
def splitLines : JsString → List JsString
  | [] => [[]]
  | u :: s =>
      if u = 0x0A then [] :: splitLines s
      else if u = 0x0D ∧ s.head? = some 0x0A then splitLines s
      else (splitLines s).modifyHead (u :: ·)

theorem splitLines_nil : splitLines [] = [[]] := rfl

theorem splitLines_cons (u : CodeUnit) (s : JsString) :
    splitLines (u :: s) =
      if u = 0x0A then [] :: splitLines s
      else if u = 0x0D ∧ s.head? = some 0x0A then splitLines s
      else (splitLines s).modifyHead (u :: ·) :=
  rfl

theorem splitLines_ne_nil (s : JsString) : splitLines s ≠ [] := by
  induction s with
  | nil => exact List.cons_ne_nil _ _
  | cons u s ih =>
      rw [splitLines_cons]
      split
      · exact List.cons_ne_nil _ _
      · split
        · exact ih
        · cases hs : splitLines s with
          | nil => exact absurd hs ih
          | cons first rest => exact List.cons_ne_nil _ _

/-- A text has a first line. -/
theorem exists_splitLines_cons (s : JsString) : ∃ first rest, splitLines s = first :: rest :=
  List.exists_cons_of_ne_nil (splitLines_ne_nil s)

/-- A text has a last line. -/
theorem exists_splitLines_concat (s : JsString) : ∃ front last, splitLines s = front ++ [last] :=
  (List.eq_nil_or_concat' (splitLines s)).resolve_left (splitLines_ne_nil s)

/-- A text in two parts, not cut inside a line end: the last line of the first
part and the first line of the second part are one line. -/
theorem splitLines_append {a b last first : JsString} {front rest : List JsString}
    (ha : splitLines a = front ++ [last]) (hb : splitLines b = first :: rest)
    (h : a.getLast? ≠ some 0x0D ∨ b.head? ≠ some 0x0A) :
    splitLines (a ++ b) = front ++ (last ++ first) :: rest := by
  induction a generalizing front last with
  | nil =>
      have hnil : [] ++ [[]] = front ++ [last] := ha
      obtain ⟨rfl, hlast⟩ := List.append_inj' hnil rfl
      rw [List.singleton_inj] at hlast
      subst hlast
      exact hb
  | cons u s ih =>
      have hs : s.getLast? ≠ some 0x0D ∨ b.head? ≠ some 0x0A := by
        cases s with
        | nil => exact .inl (by simp)
        | cons v rest => rwa [List.getLast?_cons_cons] at h
      rw [splitLines_cons] at ha
      rw [List.cons_append, splitLines_cons]
      by_cases hline : u = 0x0A
      · rw [if_pos hline] at ha ⊢
        cases front with
        | nil => exact absurd (List.cons.inj ha).2 (splitLines_ne_nil s)
        | cons line front =>
            obtain ⟨rfl, hlines⟩ := List.cons.inj ha
            rw [ih hlines hs, List.cons_append]
      rw [if_neg hline] at ha ⊢
      by_cases hreturn : u = 0x0D ∧ s.head? = some 0x0A
      · rw [if_pos hreturn] at ha
        rw [if_pos ⟨hreturn.1, by rw [List.head?_append, hreturn.2]; rfl⟩, ih ha hs]
      · have hreturn' : ¬(u = 0x0D ∧ (s ++ b).head? = some 0x0A) := by
          rintro ⟨rfl, hhead⟩
          cases s with
          | nil => exact h.elim (fun h => h rfl) fun h => h hhead
          | cons v rest => exact hreturn ⟨rfl, hhead⟩
        rw [if_neg hreturn] at ha
        rw [if_neg hreturn']
        obtain ⟨before, line, hlines⟩ := exists_splitLines_concat s
        rw [ih hlines hs]
        rw [hlines] at ha
        cases before with
        | nil =>
            have hnil : [] ++ [u :: line] = front ++ [last] := ha
            obtain ⟨rfl, hlast⟩ := List.append_inj' hnil rfl
            rw [List.singleton_inj] at hlast
            subst hlast
            rfl
        | cons line' before =>
            rw [List.cons_append, List.modifyHead_cons, ← List.cons_append] at ha
            obtain ⟨rfl, hlast⟩ := List.append_inj' ha rfl
            rw [List.singleton_inj] at hlast
            subst hlast
            rfl

/-- A line feed ends the line before it. -/
theorem splitLines_append_lineFeed {a b : JsString} (h : a.getLast? ≠ some 0x0D) :
    splitLines (a ++ 0x0A :: b) = splitLines a ++ splitLines b := by
  obtain ⟨front, last, ha⟩ := exists_splitLines_concat a
  have hb : splitLines (0x0A :: b) = [] :: splitLines b := by
    rw [splitLines_cons, if_pos rfl]
  rw [splitLines_append ha hb (.inl h), ha, List.append_nil, List.append_assoc,
    List.singleton_append]

/-- All lines of a part but the first are lines of the text that the part ends. -/
theorem exists_splitLines_append (a : JsString) {b first : JsString} {rest : List JsString}
    (hb : splitLines b = first :: rest) :
    ∃ line front, splitLines (a ++ b) = line :: (front ++ rest) := by
  induction a with
  | nil => exact ⟨first, [], hb⟩
  | cons u s ih =>
      obtain ⟨line, front, hs⟩ := ih
      rw [List.cons_append, splitLines_cons, hs]
      split
      · exact ⟨[], line :: front, rfl⟩
      · split
        · exact ⟨line, front, rfl⟩
        · exact ⟨u :: line, front, rfl⟩

theorem mem_of_mem_splitLines {s line : JsString} (h : line ∈ splitLines s) {u : CodeUnit}
    (hu : u ∈ line) : u ∈ s := by
  induction s generalizing line with
  | nil =>
      rw [splitLines_nil, List.mem_singleton] at h
      rwa [h] at hu
  | cons v s ih =>
      rw [splitLines_cons] at h
      split at h
      · rcases List.mem_cons.mp h with rfl | h
        · cases hu
        · exact List.mem_cons_of_mem _ (ih h hu)
      · split at h
        · exact List.mem_cons_of_mem _ (ih h hu)
        · obtain ⟨first, rest, hs⟩ := exists_splitLines_cons s
          rw [hs, List.modifyHead_cons] at h
          rcases List.mem_cons.mp h with rfl | h
          · rcases List.mem_cons.mp hu with rfl | hu
            · exact List.mem_cons_self
            · exact List.mem_cons_of_mem _ (ih (hs ▸ List.mem_cons_self) hu)
          · exact List.mem_cons_of_mem _ (ih (hs ▸ List.mem_cons_of_mem _ h) hu)

theorem not_mem_of_mem_splitLines {s line : JsString} (h : line ∈ splitLines s) : 0x0A ∉ line := by
  induction s generalizing line with
  | nil =>
      rw [splitLines_nil, List.mem_singleton] at h
      rw [h]
      exact List.not_mem_nil
  | cons u s ih =>
      rw [splitLines_cons] at h
      split at h
      · rcases List.mem_cons.mp h with rfl | h
        · exact List.not_mem_nil
        · exact ih h
      · rename_i hline
        split at h
        · exact ih h
        · obtain ⟨first, rest, hs⟩ := exists_splitLines_cons s
          rw [hs, List.modifyHead_cons] at h
          rcases List.mem_cons.mp h with rfl | h
          · have hfirst := ih (hs ▸ List.mem_cons_self)
            exact fun hmem => (List.mem_cons.mp hmem).elim (fun heq => hline heq.symm) hfirst
          · exact ih (hs ▸ List.mem_cons_of_mem _ h)

theorem splitLines_eq_singleton {s : JsString} (h : 0x0A ∉ s) : splitLines s = [s] := by
  induction s with
  | nil => rfl
  | cons u s ih =>
      obtain ⟨hu, hs⟩ := not_or.mp (List.mem_cons.not.mp h)
      have hreturn : ¬(u = 0x0D ∧ s.head? = some 0x0A) := fun hcut =>
        hs (List.mem_of_mem_head? hcut.2)
      rw [splitLines_cons, if_neg (Ne.symm hu), if_neg hreturn, ih hs, List.modifyHead_cons]

/-- A line that is joined to others comes back, less a carriage return at its end. -/
theorem splitLines_line {line s : JsString} (h : 0x0A ∉ line) :
    ∃ first, splitLines (line ++ 0x0A :: s) = first :: splitLines s ∧
      (line = first ∨ line = first ++ [0x0D]) := by
  by_cases hreturn : line.getLast? = some 0x0D
  · obtain ⟨first, rfl⟩ := List.getLast?_eq_some_iff.mp hreturn
    have hfirst : 0x0A ∉ first := fun hmem => h (List.mem_append_left _ hmem)
    have hend : splitLines (0x0D :: 0x0A :: s) = [] :: splitLines s := by
      rw [splitLines_cons, if_neg (by decide), if_pos ⟨rfl, rfl⟩, splitLines_cons, if_pos rfl]
    refine ⟨first, ?_, .inr rfl⟩
    have hsingleton : splitLines first = [] ++ [first] := splitLines_eq_singleton hfirst
    rw [List.append_assoc, List.singleton_append,
      splitLines_append hsingleton hend (.inr (by simp)), List.append_nil, List.nil_append]
  · exact ⟨line, by rw [splitLines_append_lineFeed hreturn, splitLines_eq_singleton h,
      List.singleton_append], .inl rfl⟩

/-- `lines.join("\n")`. -/
def joinLines (lines : List JsString) : JsString :=
  [0x0A].intercalate lines

/-- Lines without line ends come back from their text. -/
theorem splitLines_joinLines {lines : List JsString} (hne : lines ≠ [])
    (h : ∀ line ∈ lines, 0x0A ∉ line ∧ line.getLast? ≠ some 0x0D) :
    splitLines (joinLines lines) = lines := by
  induction lines with
  | nil => exact absurd rfl hne
  | cons line rest ih =>
      obtain ⟨hfeed, hreturn⟩ := h line List.mem_cons_self
      cases rest with
      | nil => simpa [joinLines] using splitLines_eq_singleton hfeed
      | cons next rest =>
          have hrest := ih (List.cons_ne_nil _ _) fun l hl => h l (List.mem_cons_of_mem _ hl)
          have hjoin : joinLines (line :: next :: rest) =
              line ++ 0x0A :: joinLines (next :: rest) := by
            simp [joinLines, List.intercalate_cons_cons]
          rw [hjoin, splitLines_append_lineFeed hreturn, splitLines_eq_singleton hfeed, hrest,
            List.singleton_append]

/-- `text.replace(/[class]+/g, replacement)`, inside a run of the class or not. -/
def replaceRuns (p : CodeUnit → Bool) (replacement : JsString) : Bool → JsString → JsString
  | _, [] => []
  | inRun, u :: s =>
      if p u then (if inRun then [] else replacement) ++ replaceRuns p replacement true s
      else u :: replaceRuns p replacement false s

/-- `text.includes(word)`. -/
def includes (text : JsString) (word : String) : Bool :=
  text.tails.any fun s => (js word).isPrefixOf s

end JsString

namespace Pattern

/-- The units that end a line for `^`, `$` and `.`. -/
def isLineTerminator (u : CodeUnit) : Bool :=
  u == 0x0A || u == 0x0D || u == 0x2028 || u == 0x2029

/-- `$` under the flag `m`. -/
def endOfLine : Pattern := fun s => if s.head?.all isLineTerminator then [s] else []

/-- What stands before and after the first match of a pattern that `^` begins,
under the flag `m`; the search is at the start of a line or not. -/
def searchLines (pattern : Pattern) : Bool → JsString → Option (JsString × JsString)
  | atStart, [] => if atStart then (pattern []).head?.map ([], ·) else none
  | atStart, u :: s =>
      match if atStart then (pattern (u :: s)).head? else none with
      | some rest => some ([], rest)
      | none =>
          (searchLines pattern (isLineTerminator u) s).map fun found => (u :: found.1, found.2)

theorem searchLines_nil (pattern : Pattern) (atStart : Bool) :
    searchLines pattern atStart [] = if atStart then (pattern []).head?.map ([], ·) else none :=
  rfl

theorem searchLines_cons (pattern : Pattern) (atStart : Bool) (u : CodeUnit) (s : JsString) :
    searchLines pattern atStart (u :: s) =
      match if atStart then (pattern (u :: s)).head? else none with
      | some rest => some ([], rest)
      | none =>
          (searchLines pattern (isLineTerminator u) s).map fun found => (u :: found.1, found.2) :=
  rfl

/-- The first match stands at the start of a line. -/
theorem searchLines_eq_some {pattern : Pattern} {atStart : Bool} {s before rest : JsString}
    (h : searchLines pattern atStart s = some (before, rest)) :
    ∃ found, s = before ++ found ∧ (pattern found).head? = some rest ∧
      before.getLast?.all isLineTerminator = true ∧ (before = [] → atStart = true) := by
  induction s generalizing atStart before with
  | nil =>
      rw [searchLines_nil] at h
      split at h
      · obtain ⟨after, hafter, heq⟩ := Option.map_eq_some_iff.mp h
        cases heq
        exact ⟨[], rfl, hafter, rfl, fun _ => ‹_›⟩
      · cases h
  | cons u s ih =>
      rw [searchLines_cons] at h
      split at h
      · rename_i after hafter
        cases h
        split at hafter
        · exact ⟨u :: s, rfl, hafter, rfl, fun _ => ‹_›⟩
        · cases hafter
      · obtain ⟨⟨front, after⟩, hfound, heq⟩ := Option.map_eq_some_iff.mp h
        cases heq
        obtain ⟨found, rfl, hmatch, hfront, hstart⟩ := ih hfound
        refine ⟨found, rfl, hmatch, ?_, fun hnil => absurd hnil (List.cons_ne_nil _ _)⟩
        cases front with
        | nil => simpa using hstart rfl
        | cons v front => rwa [List.getLast?_cons_cons]

/-- A pattern that matches at the start of a line is found. -/
theorem searchLines_isSome {pattern : Pattern} {atStart : Bool} {before found : JsString}
    (hlast : before.getLast?.all isLineTerminator = true) (hnil : before = [] → atStart = true)
    (hfound : pattern found ≠ []) : (searchLines pattern atStart (before ++ found)).isSome := by
  induction before generalizing atStart with
  | nil =>
      obtain ⟨rest, rests, hrest⟩ := List.exists_cons_of_ne_nil hfound
      rw [hnil rfl, List.nil_append]
      cases found with
      | nil => simp [searchLines_nil, hrest]
      | cons u s => simp [searchLines_cons, hrest]
  | cons u before ih =>
      rw [List.cons_append, searchLines_cons]
      split
      · rfl
      · rw [Option.isSome_map]
        cases before with
        | nil => exact ih rfl fun _ => by simpa using hlast
        | cons v before =>
            rw [List.getLast?_cons_cons] at hlast
            exact ih hlast fun hnil => absurd hnil (List.cons_ne_nil _ _)

/-- Where a line begins in a text. -/
def AtStart (atStart : Bool) (before : JsString) : Prop :=
  before.getLast?.all isLineTerminator = true ∧ (before = [] → atStart = true)

theorem atStart_cons {atStart : Bool} {u : CodeUnit} {before : JsString} :
    AtStart atStart (u :: before) ↔ AtStart (isLineTerminator u) before := by
  cases before with
  | nil => simp [AtStart]
  | cons v before => simp [AtStart, List.getLast?_cons_cons]

/-- A match is found where no line before it begins with one. -/
theorem searchLines_append {pattern : Pattern} {atStart : Bool} {before found rest : JsString}
    (hfound : (pattern found).head? = some rest) (hstart : AtStart atStart before)
    (hfirst : ∀ x y, before = x ++ y → y ≠ [] → AtStart atStart x → pattern (y ++ found) = []) :
    searchLines pattern atStart (before ++ found) = some (before, rest) := by
  induction before generalizing atStart with
  | nil =>
      rw [hstart.2 rfl, List.nil_append]
      cases found with
      | nil => simp [searchLines_nil, hfound]
      | cons u s => simp [searchLines_cons, hfound]
  | cons u before ih =>
      have hhead : (if atStart then (pattern (u :: (before ++ found))).head? else none) = none := by
        split
        · rename_i hatStart
          have hnone := hfirst [] (u :: before) rfl (List.cons_ne_nil _ _) ⟨rfl, fun _ => hatStart⟩
          rw [List.cons_append] at hnone
          rw [hnone]
          rfl
        · rfl
      have hrest := ih (atStart_cons.1 hstart) fun x y heq hne hx =>
        hfirst (u :: x) y (by rw [heq, List.cons_append]) hne (atStart_cons.2 hx)
      rw [List.cons_append, searchLines_cons, hhead, hrest]
      rfl

/-- No line before the match that is found begins with one. -/
theorem searchLines_first {pattern : Pattern} {atStart : Bool} {before found : JsString}
    {rest : JsString} (h : searchLines pattern atStart (before ++ found) = some (before, rest))
    {x y : JsString} (heq : before = x ++ y) (hne : y ≠ []) (hx : AtStart atStart x) :
    pattern (y ++ found) = [] := by
  induction before generalizing atStart x with
  | nil => exact absurd (List.append_eq_nil_iff.mp heq.symm).2 hne
  | cons u before ih =>
      rw [List.cons_append, searchLines_cons] at h
      split at h
      · cases h
      · rename_i hhead
        obtain ⟨⟨front, after⟩, hfound, heq'⟩ := Option.map_eq_some_iff.mp h
        cases heq'
        cases x with
        | nil =>
            rw [List.nil_append] at heq
            rw [if_pos (hx.2 rfl), List.head?_eq_none_iff] at hhead
            rw [← heq]
            exact hhead
        | cons v x =>
            obtain ⟨hu, htail⟩ := List.cons.inj heq
            subst hu
            exact ih hfound htail (atStart_cons.1 hx)

theorem mem_many {p : CodeUnit → Bool} {s t : JsString} :
    t ∈ many p s ↔ ∃ front, s = front ++ t ∧ ∀ u ∈ front, p u = true := by
  induction s with
  | nil =>
      rw [many, List.mem_singleton]
      constructor
      · rintro rfl
        exact ⟨[], rfl, by simp⟩
      · rintro ⟨front, h, -⟩
        exact (List.append_eq_nil_iff.mp h.symm).2
  | cons v s ih =>
      rw [many]
      split
      · rename_i hv
        rw [List.mem_append, ih, List.mem_singleton]
        constructor
        · rintro (⟨front, rfl, hfront⟩ | rfl)
          · exact ⟨v :: front, rfl, by simpa [hv] using hfront⟩
          · exact ⟨[], rfl, by simp⟩
        · rintro ⟨front, heq, hfront⟩
          cases front with
          | nil => exact .inr heq.symm
          | cons u front =>
              obtain ⟨rfl, rfl⟩ := List.cons.inj heq
              exact .inl ⟨front, rfl, fun w hw => hfront w (List.mem_cons_of_mem _ hw)⟩
      · rename_i hv
        rw [List.mem_singleton]
        constructor
        · rintro rfl
          exact ⟨[], rfl, by simp⟩
        · rintro ⟨front, heq, hfront⟩
          cases front with
          | nil => exact heq.symm
          | cons u front =>
              obtain ⟨rfl, -⟩ := List.cons.inj heq
              exact absurd (hfront v List.mem_cons_self) hv

theorem mem_lit {text : String} {s t : JsString} : t ∈ lit text s ↔ s = js text ++ t := by
  unfold lit
  generalize js text = units
  induction units generalizing s with
  | nil => simp [concat, done, eq_comm]
  | cons u units ih =>
      rw [List.map_cons]
      change t ∈ seq (unit (· == u)) (concat (units.map fun u => unit (· == u))) s ↔ _
      cases s with
      | nil => simp [seq, unit]
      | cons v s =>
          by_cases h : v = u
          · simp [seq, unit, h, ih]
          · simp [seq, unit, h]

/-- What `\s*(.+?)\s*$` captures of a text that ends where the line ends. -/
def captureTrimmed (s : JsString) : Option JsString :=
  if s.trim.isEmpty then (s.filter fun u => !isLineTerminator u).getLast?.map ([·])
  else if s.trim.any isLineTerminator then none
  else some s.trim

theorem mem_litIgnoreCase {text : String} {s t : JsString} :
    t ∈ litIgnoreCase text s ↔ ∃ front, s = front ++ t ∧ front.map lowerCase = js text := by
  unfold litIgnoreCase
  generalize js text = units
  induction units generalizing s with
  | nil =>
      simp only [List.map_nil, concat, List.foldr_nil, done, List.mem_singleton,
        List.map_eq_nil_iff]
      exact ⟨fun h => ⟨[], h.symm, rfl⟩, fun ⟨front, h, hfront⟩ => by rw [h, hfront]; rfl⟩
  | cons u units ih =>
      rw [List.map_cons]
      change t ∈ seq (unit fun v => lowerCase v == u)
        (concat (units.map fun u => unit fun v => lowerCase v == u)) s ↔ _
      cases s with
      | nil => simp [seq, unit]
      | cons v s =>
          have hcons : (∃ front, v :: s = front ++ t ∧ front.map lowerCase = u :: units) ↔
              lowerCase v = u ∧ ∃ front, s = front ++ t ∧ front.map lowerCase = units := by
            constructor
            · rintro ⟨front, hfront, hmap⟩
              cases front with
              | nil => cases hmap
              | cons v' front =>
                  obtain ⟨rfl, rfl⟩ := List.cons.inj hfront
                  exact ⟨(List.cons.inj hmap).1, front, rfl, (List.cons.inj hmap).2⟩
            · rintro ⟨rfl, front, rfl, rfl⟩
              exact ⟨v :: front, rfl, rfl⟩
          rw [hcons]
          by_cases h : lowerCase v = u
          · simp [seq, unit, h, ih]
          · simp [seq, unit, h]

theorem head?_litIgnoreCase {text : String} {s rest : JsString} :
    (litIgnoreCase text s).head? = some rest ↔
      ∃ front, s = front ++ rest ∧ front.map lowerCase = js text := by
  unfold litIgnoreCase
  generalize js text = units
  induction units generalizing s with
  | nil =>
      simp only [List.map_nil, concat, List.foldr_nil, done, List.head?_cons, Option.some.injEq,
        List.map_eq_nil_iff]
      exact ⟨fun h => ⟨[], h, rfl⟩, fun ⟨front, h, hfront⟩ => by rw [h, hfront]; rfl⟩
  | cons u units ih =>
      rw [List.map_cons]
      change (seq (unit fun v => lowerCase v == u)
        (concat (units.map fun u => unit fun v => lowerCase v == u)) s).head? = some rest ↔ _
      cases s with
      | nil => simp [seq, unit]
      | cons v s =>
          by_cases h : lowerCase v = u
          · have hunit : seq (unit fun v => lowerCase v == u)
                (concat (units.map fun u => unit fun v => lowerCase v == u)) (v :: s) =
                concat (units.map fun u => unit fun v => lowerCase v == u) s := by
              simp [seq, unit, h]
            rw [hunit, ih]
            constructor
            · rintro ⟨front, rfl, hfront⟩
              exact ⟨v :: front, rfl, by rw [List.map_cons, h, hfront]⟩
            · rintro ⟨front, hfront, hmap⟩
              cases front with
              | nil => cases hmap
              | cons v' front =>
                  obtain ⟨rfl, rfl⟩ := List.cons.inj hfront
                  exact ⟨front, rfl, (List.cons.inj hmap).2⟩
          · simp only [seq, unit, beq_iff_eq, h, if_false, List.flatMap_nil, List.head?_nil,
              reduceCtorEq, false_iff, not_exists, not_and]
            intro front hfront hmap
            cases front with
            | nil => cases hmap
            | cons v' front =>
                obtain ⟨rfl, -⟩ := List.cons.inj hfront
                exact h (List.cons.inj hmap).1

end Pattern

end Hepha
