import Hepha.Js.Joined
import Hepha.Markdown.Sections
import Hepha.Verification.Reports

/-!
# The lines of a Cargo run

Cargo prints one line for each test, `test NAME ... OUTCOME`.  The reader looks for the
lines with the outcome `ok`, with an expression whose last part may run over the white
space of the lines that follow.

## Strategy

A match at the start of a line ends in that line or in white space behind it
(`mem_testLinePattern`), so the search goes on at a line that no match has touched, and the
matches of a text are the names in its lines that end in `ok` (`names_eq`).
-/

namespace Hepha.Verification

open JsString Pattern Markdown

/-- A test of a report: what the report calls it, and whether it passed. -/
structure TestRecord where
  label : JsString
  passed : Bool
  deriving DecidableEq, Repr

/-- What stands before and after the last occurrence of a text. -/
def splitLast (separator : JsString) : JsString → Option (JsString × JsString)
  | [] => none
  | u :: s =>
      match splitLast separator s with
      | some (before, behind) => some (u :: before, behind)
      | none =>
          if separator.isPrefixOf (u :: s) then some ([], (u :: s).drop separator.length) else none

/-- The test that a line is about. -/
def cargoRecord (line : JsString) : Option TestRecord :=
  if (js "test ").isPrefixOf line then
    match splitLast (js " ... ") (line.drop 5) with
    | some (name, outcome) =>
        if name.isEmpty then none
        else some { label := name, passed := outcome.trimEnd == js "ok" }
    | none => none
  else none

/-- The tests that the lines of a text are about. -/
def cargoRecords (content : JsString) : List TestRecord :=
  (content.splitOnP isLineTerminator).filterMap cargoRecord

/-! ## Lines that pass -/

/-- A line about a test that passed. -/
def PassingLine (line name : JsString) : Prop :=
  ∃ white : JsString, line = js "test " ++ name ++ js " ... ok" ++ white ∧ name ≠ [] ∧
    ∀ u ∈ white, isWhiteSpace u = true

theorem splitLast_eq_some {separator s before behind : JsString}
    (h : splitLast separator s = some (before, behind)) :
    s = before ++ separator ++ behind := by
  induction s generalizing before with
  | nil => cases h
  | cons u s ih =>
      rw [splitLast] at h
      split at h
      · rename_i front rest hfound
        cases h
        rw [ih hfound]
        rfl
      · split at h
        · rename_i hstart
          cases h
          obtain ⟨rest, hrest⟩ := List.isPrefixOf_iff_prefix.mp hstart
          rw [← hrest]
          simp
        · cases h

/-- Behind the last separator of a line that passes, only `ok` and white space stand. -/
theorem splitLast_outcome {white : JsString} (hwhite : ∀ u ∈ white, isWhiteSpace u = true) :
    splitLast (js " ... ") (js "... ok" ++ white) = none := by
  have hdots : js " ... " = [0x20, 0x2E, 0x2E, 0x2E, 0x20] := by decide
  have hnone : splitLast (js " ... ") white = none := by
    induction white with
    | nil => rfl
    | cons u white ih =>
        rw [splitLast, ih fun v hv => hwhite v (List.mem_cons_of_mem _ hv), hdots]
        cases white with
        | nil => simp [List.isPrefixOf]
        | cons v white =>
            have hv : v ≠ 0x2E := by
              rintro rfl
              exact absurd (hwhite 0x2E (by simp)) (by decide)
            simp [List.isPrefixOf, hv.symm]
  rw [show js "... ok" = [0x2E, 0x2E, 0x2E, 0x20, 0x6F, 0x6B] by decide]
  rw [hdots] at hnone ⊢
  simp [splitLast, hnone, List.isPrefixOf]

theorem splitLast_name {name white : JsString} (hwhite : ∀ u ∈ white, isWhiteSpace u = true) :
    splitLast (js " ... ") (name ++ js " ... ok" ++ white) = some (name, js "ok" ++ white) := by
  induction name with
  | nil =>
      have hform : js " ... ok" ++ white = 0x20 :: (js "... ok" ++ white) := by
        rw [show js " ... ok" = 0x20 :: js "... ok" by decide]
        rfl
      rw [List.nil_append, hform, splitLast, splitLast_outcome hwhite]
      have hstart : (js " ... ").isPrefixOf (0x20 :: (js "... ok" ++ white)) = true :=
        List.isPrefixOf_iff_prefix.mpr ⟨js "ok" ++ white, by
          rw [← List.append_assoc, ← hform, show js " ... " ++ js "ok" = js " ... ok" by decide]⟩
      rw [hstart, if_pos rfl, ← hform, show js " ... ok" = js " ... " ++ js "ok" by decide,
        List.append_assoc, List.drop_left]
  | cons u name ih => rw [List.cons_append, List.cons_append, splitLast, ih]

theorem drop_test (rest : JsString) : (js "test " ++ rest).drop 5 = rest := by
  rw [show js "test " = [0x74, 0x65, 0x73, 0x74, 0x20] by decide]
  rfl

theorem passingLine_iff {line name : JsString} :
    cargoRecord line = some ⟨name, true⟩ ↔ PassingLine line name := by
  constructor
  · intro h
    unfold cargoRecord at h
    split at h
    · rename_i hstart
      obtain ⟨rest, rfl⟩ := List.isPrefixOf_iff_prefix.mp hstart
      split at h
      · rename_i before outcome hfound
        split at h
        · cases h
        · rename_i hne
          simp only [Option.some.injEq, TestRecord.mk.injEq, beq_iff_eq] at h
          obtain ⟨rfl, hok⟩ := h
          have hrest := splitLast_eq_some hfound
          obtain ⟨white, hwhite, hall⟩ := exists_trimEnd_append outcome
          rw [drop_test] at hrest
          refine ⟨white, ?_, by simpa using hne, hall⟩
          rw [hrest, hwhite, hok, show js " ... ok" = js " ... " ++ js "ok" by decide]
          simp only [List.append_assoc]
      · cases h
    · cases h
  · rintro ⟨white, rfl, hne, hwhite⟩
    have hstart : (js "test ").isPrefixOf (js "test " ++ name ++ js " ... ok" ++ white) = true :=
      List.isPrefixOf_iff_prefix.mpr ⟨name ++ js " ... ok" ++ white, by
        simp only [List.append_assoc]⟩
    have hdrop : (js "test " ++ name ++ js " ... ok" ++ white).drop 5 =
        name ++ js " ... ok" ++ white := by
      rw [List.append_assoc, List.append_assoc, drop_test, List.append_assoc]
    have hok : trimEnd (js "ok" ++ white) = js "ok" :=
      trimEnd_append_white (u := 0x6B) (by decide) (by decide) hwhite
    rw [cargoRecord, hstart, if_pos rfl, hdrop, splitLast_name hwhite]
    simp [hne, hok]

/-- The name in a line about a test that passed. -/
def passingName (line : JsString) : Option JsString :=
  (cargoRecord line).bind fun record => if record.passed then some record.label else none

theorem passingName_eq_some {line name : JsString} :
    passingName line = some name ↔ PassingLine line name := by
  rw [← passingLine_iff, passingName, Option.bind_eq_some_iff]
  constructor
  · rintro ⟨⟨label, passed⟩, hrecord, hname⟩
    cases passed with
    | true =>
        obtain rfl := Option.some.inj hname
        exact hrecord
    | false => cases hname
  · intro h
    exact ⟨_, h, rfl⟩

/-- The names in the lines that pass, in their order. -/
def passingNames (content : JsString) : List JsString :=
  (content.splitOnP isLineTerminator).filterMap passingName

theorem passingNames_eq (content : JsString) :
    passingNames content = ((cargoRecords content).filter (·.passed)).map (·.label) := by
  rw [passingNames, cargoRecords, ← List.filterMap_eq_filter, List.map_filterMap,
    List.filterMap_filterMap]
  refine List.filterMap_congr fun line _ => ?_
  rw [passingName]
  refine Option.bind_congr fun record _ => ?_
  cases hpassed : record.passed <;> simp [Option.guard, hpassed]

theorem passingName_of_head {line : JsString} (h : line.head? ≠ some 0x74) :
    passingName line = none := by
  rw [Option.eq_none_iff_forall_ne_some]
  intro name hname
  obtain ⟨white, rfl, -⟩ := passingName_eq_some.1 hname
  exact h rfl

/-- Lines of white space name nothing. -/
theorem passingNames_white {white : JsString} (hwhite : ∀ u ∈ white, isWhiteSpace u = true) :
    passingNames white = [] := by
  refine List.filterMap_eq_nil_iff.mpr fun line hline => passingName_of_head ?_
  intro hhead
  exact absurd (hwhite _ (mem_of_mem_splitOnP hline (List.mem_of_mem_head? hhead))) (by decide)

theorem passingNames_append (s rest : JsString) {u : CodeUnit} (hu : isLineTerminator u = true) :
    passingNames (s ++ u :: rest) = passingNames s ++ passingNames rest := by
  rw [passingNames, List.splitOnP_append_cons _ _ hu, List.filterMap_append]
  rfl

theorem passingNames_line {line : JsString} (h : ∀ u ∈ line, isLineTerminator u = false) :
    passingNames line = (passingName line).toList := by
  rw [passingNames, List.splitOnP_eq_singleton h]
  cases hname : passingName line <;> simp [hname]

/-! ## What the search finds -/

theorem mem_testLinePattern {s rest : JsString} :
    rest ∈ testLinePattern s ↔ ∃ name white,
      s = js "test " ++ name ++ js " ... ok" ++ white ++ rest ∧ name ≠ [] ∧
      (∀ u ∈ name, isLineTerminator u = false) ∧ (∀ u ∈ white, isWhiteSpace u = true) ∧
      rest.head?.all isLineTerminator = true := by
  constructor
  · intro h
    obtain ⟨s₁, h₁, h⟩ := mem_concat_cons.1 h
    obtain ⟨s₂, h₂, h⟩ := mem_concat_cons.1 h
    obtain ⟨s₃, h₃, h⟩ := mem_concat_cons.1 h
    obtain ⟨s₄, h₄, h⟩ := mem_concat_cons.1 h
    obtain ⟨s₅, h₅, h⟩ := mem_concat_cons.1 h
    obtain rfl := List.mem_singleton.mp h
    obtain ⟨name, rfl, hne, hname⟩ := mem_atLeast_one.1 h₂
    obtain rfl := mem_lit.1 h₃
    obtain ⟨white, rfl, hwhite⟩ := mem_many.1 h₄
    rw [endOfLine] at h₅
    split at h₅
    · rename_i hend
      obtain rfl := List.mem_singleton.mp h₅
      refine ⟨name, white, ?_, hne, fun u hu => by simpa [isDot] using hname u hu, hwhite, hend⟩
      rw [mem_lit.1 h₁]
      simp only [List.append_assoc]
    · cases h₅
  · rintro ⟨name, white, rfl, hne, hname, hwhite, hend⟩
    simp only [List.append_assoc]
    refine mem_concat_cons.2 ⟨_, mem_lit.2 rfl, mem_concat_cons.2 ⟨_, mem_atLeast_one.2
      ⟨name, rfl, hne, fun u hu => by simpa [isDot] using hname u hu⟩, mem_concat_cons.2
      ⟨_, mem_lit.2 rfl, mem_concat_cons.2 ⟨rest, mem_many.2 ⟨white, rfl, hwhite⟩,
        mem_concat_cons.2 ⟨rest, ?_, List.mem_singleton_self _⟩⟩⟩⟩⟩
    rw [endOfLine, if_pos hend]
    exact List.mem_singleton_self _

/-- The group of a match. -/
theorem testLineName_match {name white : JsString} (hwhite : ∀ u ∈ white, isWhiteSpace u = true) :
    testLineName (js "test " ++ name ++ js " ... ok" ++ white) = name := by
  have hlast : (js "test " ++ name ++ js " ... ok").getLast? = some 0x6B := by
    rw [List.getLast?_append_of_ne_nil _ (by decide)]
    decide
  have htrim := trimEnd_append_white hlast (by decide) hwhite
  have htest : (js "test ").length = 5 := by decide
  have hok : (js " ... ok").length = 7 := by decide
  rw [testLineName, htrim, List.append_assoc, List.drop_append_of_le_length (by rw [htest])]
  rw [List.drop_of_length_le (by rw [htest]), List.nil_append]
  have hlength : (js "test " ++ (name ++ js " ... ok")).length - 12 = name.length := by
    simp only [List.length_append, htest, hok]
    omega
  rw [hlength, List.take_left]

/-- The lines that a match touches name what it names. -/
theorem passingNames_match {name white : JsString} (hne : name ≠ [])
    (hname : ∀ u ∈ name, isLineTerminator u = false)
    (hwhite : ∀ u ∈ white, isWhiteSpace u = true) :
    passingNames (js "test " ++ name ++ js " ... ok" ++ white) = [name] := by
  have hstart : ∀ u ∈ js "test " ++ name ++ js " ... ok", isLineTerminator u = false := by
    intro u hu
    rcases List.mem_append.mp hu with hu | hu
    · rcases List.mem_append.mp hu with hu | hu
      · exact not_lineTerminator_of_all (by decide) u hu
      · exact hname u hu
    · exact not_lineTerminator_of_all (by decide) u hu
  have hline (front : JsString) (hfront : ∀ u ∈ front, isWhiteSpace u = true)
      (hsame : ∀ u ∈ front, isLineTerminator u = false) :
      passingNames (js "test " ++ name ++ js " ... ok" ++ front) = [name] := by
    rw [passingNames_line fun u hu => (List.mem_append.mp hu).elim (hstart u) (hsame u),
      passingName_eq_some.2 ⟨front, rfl, hne, hfront⟩]
    rfl
  -- The white space may run over the end of the line.
  cases hrest : white.dropWhile fun u => !isLineTerminator u with
  | nil =>
      refine hline white hwhite fun u hu => ?_
      simpa using List.dropWhile_eq_nil_iff.mp hrest u hu
  | cons u rest =>
      have hu : isLineTerminator u = true := by
        have hhead := List.head?_dropWhile_not (fun u => !isLineTerminator u) white
        rw [hrest] at hhead
        simpa using hhead
      have hform := List.takeWhile_append_dropWhile (p := fun u => !isLineTerminator u) (l := white)
      rw [hrest] at hform
      rw [← hform] at hwhite ⊢
      have hbehind : passingNames rest = [] := passingNames_white fun v hv =>
        hwhite v (List.mem_append_right _ (List.mem_cons_of_mem u hv))
      rw [← List.append_assoc, passingNames_append _ _ hu, hbehind, List.append_nil]
      refine hline _ (fun v hv => hwhite v (List.mem_append_left _ hv)) fun v hv => ?_
      simpa using List.mem_takeWhile_imp hv

/-! ## The whole search -/

/-- The names that the search finds from a place on. -/
def foundNames (atStart : Bool) (skip : ℕ) (s : JsString) : List JsString :=
  (matchLines testLinePattern atStart skip 0 s).map fun found => testLineName found.2

theorem foundNames_offset (atStart : Bool) (skip offset : ℕ) (s : JsString) :
    (matchLines testLinePattern atStart skip offset s).map (fun found => testLineName found.2) =
      foundNames atStart skip s := by
  rw [← Nat.zero_add offset, matchLines_offset, List.map_map]
  rfl

/-- No match begins away from the start of a line. -/
theorem foundNames_cons {atStart : Bool} {u : CodeUnit} {s : JsString}
    (h : atStart = false ∨ testLinePattern (u :: s) = []) :
    foundNames atStart 0 (u :: s) = foundNames (isLineTerminator u) 0 s := by
  have hnone : (if atStart then (testLinePattern (u :: s)).head? else none) = none := by
    rcases h with rfl | h
    · rfl
    · rw [h]
      exact ite_self _
  rw [foundNames, matchLines_zero, hnone]
  exact foundNames_offset _ _ _ _

theorem testLinePattern_of_head {u : CodeUnit} {s : JsString} (h : u ≠ 0x74) :
    testLinePattern (u :: s) = [] := by
  refine List.eq_nil_iff_forall_not_mem.mpr fun rest hrest => h ?_
  obtain ⟨name, white, heq, -⟩ := mem_testLinePattern.1 hrest
  exact (List.cons.inj heq).1

theorem ne_of_isLineTerminator {u : CodeUnit} (h : isLineTerminator u = true) : u ≠ 0x74 := by
  rintro rfl
  cases h

/-- The rest of a line is passed over. -/
theorem foundNames_pass {line rest : JsString} {u : CodeUnit}
    (hline : ∀ v ∈ line, isLineTerminator v = false) (hu : isLineTerminator u = true) :
    foundNames false 0 (line ++ u :: rest) = foundNames true 0 rest := by
  induction line with
  | nil => rw [List.nil_append, foundNames_cons (.inl rfl), hu]
  | cons v line ih =>
      rw [List.cons_append, foundNames_cons (.inl rfl), hline v List.mem_cons_self]
      exact ih fun w hw => hline w (List.mem_cons_of_mem v hw)

theorem foundNames_last {line : JsString} (hline : ∀ v ∈ line, isLineTerminator v = false) :
    foundNames false 0 line = [] := by
  induction line with
  | nil => rfl
  | cons v line ih =>
      rw [foundNames_cons (.inl rfl), hline v List.mem_cons_self]
      exact ih fun w hw => hline w (List.mem_cons_of_mem v hw)

/-- The units of a match are passed over. -/
theorem foundNames_skip (units s : JsString) (atStart : Bool) :
    ∃ next, foundNames atStart units.length (units ++ s) = foundNames next 0 s := by
  induction units generalizing atStart with
  | nil => exact ⟨atStart, rfl⟩
  | cons u units ih =>
      obtain ⟨next, hnext⟩ := ih (isLineTerminator u)
      refine ⟨next, ?_⟩
      rw [← hnext, List.cons_append, List.length_cons, foundNames, matchLines_succ]
      exact foundNames_offset _ _ _ _

theorem foundNames_match {front rest : JsString} {u : CodeUnit}
    (h : (testLinePattern (u :: (front ++ rest))).head? = some rest) :
    ∃ next, foundNames true 0 (u :: (front ++ rest)) =
      testLineName (u :: front) :: foundNames next 0 rest := by
  have hlength : (u :: (front ++ rest)).length - rest.length = front.length + 1 := by
    simp only [List.length_cons, List.length_append]
    omega
  have htake : (u :: (front ++ rest)).take (front.length + 1) = u :: front := by
    rw [List.take_succ_cons, List.take_left]
  obtain ⟨next, hnext⟩ := foundNames_skip front rest (isLineTerminator u)
  refine ⟨next, ?_⟩
  rw [foundNames, matchLines_zero, if_pos rfl, h]
  simp only [hlength, htake, List.map_cons, Nat.add_sub_cancel]
  rw [foundNames_offset, hnext]

/-- A line at which no match begins names nothing. -/
theorem passingNames_first {s : JsString} (line tail : JsString) (h : testLinePattern s = [])
    (hs : s = line ++ tail) (hline : ∀ u ∈ line, isLineTerminator u = false)
    (htail : tail.head?.all isLineTerminator = true) : passingNames line = [] := by
  rw [passingNames_line hline, Option.toList_eq_nil_iff, Option.eq_none_iff_forall_ne_some]
  intro name hname
  obtain ⟨white, rfl, hne, hwhite⟩ := passingName_eq_some.1 hname
  have hmem : tail ∈ testLinePattern s := mem_testLinePattern.2 ⟨name, white, hs, hne,
    fun u hu => hline u (by simp [hu]), hwhite, htail⟩
  rw [h] at hmem
  cases hmem

/-- **The search finds the names of the lines that pass.** -/
theorem names_eq (s : JsString) : foundNames true 0 s = passingNames s := by
  induction hlength : s.length using Nat.strong_induction_on generalizing s with
  | _ n ih =>
      subst hlength
      -- What stands behind a match is empty or begins with the end of a line.
      have hbehind (front rest : JsString) (next : Bool) (hrest : rest.length < s.length)
          (hend : rest.head?.all isLineTerminator = true) :
          passingNames front ++ foundNames next 0 rest = passingNames (front ++ rest) := by
        cases rest with
        | nil => rw [List.append_nil]; exact List.append_nil _
        | cons u rest =>
            have hu : isLineTerminator u = true := by simpa using hend
            rw [passingNames_append _ _ hu, foundNames_cons
              (.inr (testLinePattern_of_head (ne_of_isLineTerminator hu))), hu,
              ih rest.length (by simp only [List.length_cons] at hrest; omega) rest rfl]
      cases s with
      | nil => rfl
      | cons u s =>
          cases hfound : (testLinePattern (u :: s)).head? with
          | some rest =>
              obtain ⟨name, white, heq, hne, hname, hwhite, hend⟩ :=
                mem_testLinePattern.1 (List.mem_of_mem_head? hfound)
              obtain ⟨front, hfront⟩ : ∃ front, js "test " ++ name ++ js " ... ok" ++ white =
                  u :: front := by
                refine ⟨(js "test " ++ name ++ js " ... ok" ++ white).tail, ?_⟩
                rw [(List.cons.inj heq).1]
                rfl
              obtain rfl : s = front ++ rest := by
                rw [hfront] at heq
                exact (List.cons.inj heq).2
              obtain ⟨next, hnext⟩ := foundNames_match hfound
              rw [hnext, ← hfront, testLineName_match hwhite, ← List.cons_append, ← hfront,
                ← hbehind _ rest next (by simp) hend, passingNames_match hne hname hwhite]
              rfl
          | none =>
              rw [List.head?_eq_none_iff] at hfound
              rw [foundNames_cons (.inr hfound)]
              cases hu : isLineTerminator u with
              | true =>
                  rw [ih s.length (Nat.lt_succ_self _) s rfl]
                  exact (passingNames_append [] s hu).symm
              | false =>
                  have hform := List.takeWhile_append_dropWhile
                    (p := fun v => !isLineTerminator v) (l := s)
                  have hline : ∀ v ∈ s.takeWhile fun v => !isLineTerminator v,
                      isLineTerminator v = false :=
                    fun v hv => by simpa using List.mem_takeWhile_imp hv
                  cases htail : s.dropWhile fun v => !isLineTerminator v with
                  | nil =>
                      rw [htail, List.append_nil] at hform
                      rw [hform] at hline
                      rw [foundNames_last hline, passingNames_first _ [] hfound
                        (List.append_nil _).symm (List.forall_mem_cons.mpr ⟨hu, hline⟩) rfl]
                  | cons v rest =>
                      have hv : isLineTerminator v = true := by
                        have hhead := List.head?_dropWhile_not (fun v => !isLineTerminator v) s
                        rw [htail] at hhead
                        simpa using hhead
                      rw [htail] at hform
                      have hfirst := passingNames_first
                        (u :: s.takeWhile fun v => !isLineTerminator v) (v :: rest) hfound
                        (by rw [List.cons_append, hform]) (List.forall_mem_cons.mpr ⟨hu, hline⟩)
                        (by simpa using hv)
                      have hshort : rest.length < (u :: s).length := by
                        rw [← hform]
                        simp only [List.length_cons, List.length_append]
                        omega
                      rw [← hform, foundNames_pass hline hv, ih rest.length hshort rest rfl,
                        ← List.cons_append, passingNames_append _ _ hv, hfirst, List.nil_append]

end Hepha.Verification
