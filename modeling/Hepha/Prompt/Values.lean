import Hepha.Prompt.Codec

/-!
# The values of a prompt

A value that is replaced in a prompt is one of its lines or one of its quoted
strings: a part of the prompt, of eighty units at least.
-/

namespace Hepha.Prompt

/-- A line is a part of the text, and the first one is in front. -/
theorem infix_splitLines (s : JsString) :
    (∀ line ∈ splitLines s, line <:+: s) ∧ ∀ line ∈ (splitLines s).head?, line <+: s := by
  have hcons : ∀ {u : CodeUnit} {rest : JsString} {lines : List JsString},
      ((∀ line ∈ lines, line <:+: rest) ∧ ∀ line ∈ lines.head?, line <+: rest) →
        (∀ line ∈ lines.modifyHead (u :: ·), line <:+: u :: rest) ∧
          ∀ line ∈ (lines.modifyHead (u :: ·)).head?, line <+: u :: rest := by
    intro u rest lines h
    cases lines with
    | nil => simp
    | cons first lines =>
        have hfirst : u :: first <+: u :: rest :=
          List.cons_prefix_cons.mpr ⟨rfl, h.2 first rfl⟩
        refine ⟨fun line hline => ?_, by simpa using hfirst⟩
        rcases List.mem_cons.mp hline with rfl | hline
        · exact hfirst.isInfix
        · exact (h.1 line (List.mem_cons_of_mem _ hline)).trans (List.suffix_cons u rest).isInfix
  have hempty : ∀ {rest text : JsString}, rest <:+ text →
      ((∀ line ∈ splitLines rest, line <:+: rest) ∧
        ∀ line ∈ (splitLines rest).head?, line <+: rest) →
        (∀ line ∈ [] :: splitLines rest, line <:+: text) ∧
          ∀ line ∈ ([] :: splitLines rest).head?, line <+: text := by
    intro rest text hsuffix h
    refine ⟨fun line hline => ?_, by simp⟩
    rcases List.mem_cons.mp hline with rfl | hline
    · exact List.nil_infix
    · exact (h.1 line hline).trans hsuffix.isInfix
  induction s using splitLines.induct with
  | case1 => simp [splitLines]
  | case2 => simp [splitLines]
  | case3 u hu => simp [splitLines, hu]
  | case4 v rest ih =>
      rw [splitLines, if_pos rfl]
      exact hempty (List.suffix_cons _ _) ih
  | case5 u v rest hu hwritten ih =>
      rw [splitLines, if_neg hu, if_pos hwritten]
      exact hempty ((List.suffix_cons _ _).trans (List.suffix_cons _ _)) ih
  | case6 u v rest hu hwritten ih =>
      rw [splitLines, if_neg hu, if_neg hwritten]
      exact hcons ih

theorem prefix_quotedRest {count : ℕ} {s text : JsString} (h : quotedRest count s = some text) :
    text <+: s := by
  induction count, s using quotedRest.induct generalizing text with
  | case1 => cases h
  | case2 count u hclosed =>
      rw [quotedRest, if_pos hclosed] at h
      cases h
      exact List.prefix_rfl
  | case3 count u hopen =>
      rw [quotedRest, if_neg hopen] at h
      cases h
  | case4 count v rest hcount =>
      rw [quotedRest, if_pos rfl, if_pos hcount] at h
      cases h
      exact ⟨v :: rest, rfl⟩
  | case5 count v rest hcount =>
      rw [quotedRest, if_pos rfl, if_neg hcount] at h
      cases h
  | case6 count v rest hterminator hquote =>
      rw [quotedRest, if_neg hquote, if_pos rfl, if_pos hterminator] at h
      cases h
  | case7 count v rest hterminator hquote ih =>
      rw [quotedRest, if_neg hquote, if_pos rfl, if_neg hterminator] at h
      obtain ⟨tail, htail, rfl⟩ := Option.map_eq_some_iff.mp h
      exact List.cons_prefix_cons.mpr ⟨rfl, List.cons_prefix_cons.mpr ⟨rfl, ih htail⟩⟩
  | case8 count u v rest hquote hescape ih =>
      rw [quotedRest, if_neg hquote, if_neg hescape] at h
      obtain ⟨tail, htail, rfl⟩ := Option.map_eq_some_iff.mp h
      exact List.cons_prefix_cons.mpr ⟨rfl, ih htail⟩

theorem infix_quotedMatchesFrom {skip : ℕ} {s value : JsString}
    (h : value ∈ quotedMatchesFrom skip s) : value <:+: s := by
  induction skip, s using quotedMatchesFrom.induct with
  | case1 skip => simp [quotedMatchesFrom] at h
  | case2 skip u rest ih =>
      rw [quotedMatchesFrom] at h
      exact (ih h).trans (List.suffix_cons u rest).isInfix
  | case3 rest text hquoted ih =>
      simp only [quotedMatchesFrom, if_true, hquoted, List.mem_cons] at h
      rcases h with rfl | h
      · exact (List.cons_prefix_cons.mpr ⟨rfl, prefix_quotedRest hquoted⟩).isInfix
      · exact (ih h).trans (List.suffix_cons _ rest).isInfix
  | case4 rest hquoted ih =>
      simp only [quotedMatchesFrom, if_true, hquoted] at h
      exact (ih h).trans (List.suffix_cons _ rest).isInfix
  | case5 u rest hquote ih =>
      rw [quotedMatchesFrom, if_neg hquote] at h
      exact (ih h).trans (List.suffix_cons u rest).isInfix

theorem countCandidates_keys {values : List JsString} {candidate : JsString × ℕ}
    (h : candidate ∈ countCandidates values) :
    80 ≤ candidate.1.length ∧ candidate.1 ∈ values := by
  unfold countCandidates at h
  refine List.foldlRecOn (motive := fun candidates : List (JsString × ℕ) =>
    ∀ c ∈ candidates, 80 ≤ c.1.length ∧ c.1 ∈ values) _ _ ?_ ?_ candidate h
  · exact fun c hc => absurd hc List.not_mem_nil
  · intro candidates ih value hvalue c hc
    split at hc
    · rename_i hlength
      rcases JsMap.mem_set.1 hc with rfl | ⟨hmem, -⟩
      · exact ⟨hlength.1, hvalue⟩
      · exact ih c hmem
    · exact ih c hc

theorem repeatedValues_spec {prompt value : JsString} (h : value ∈ repeatedValues prompt) :
    80 ≤ value.length ∧ value <:+: prompt := by
  unfold repeatedValues at h
  obtain ⟨candidate, hcandidate, rfl⟩ := List.mem_map.mp h
  have hsorted := List.mem_of_mem_take hcandidate
  rw [List.mem_insertionSort] at hsorted
  obtain ⟨hlength, hmem⟩ := countCandidates_keys (List.mem_of_mem_filter hsorted)
  refine ⟨hlength, ?_⟩
  rcases List.mem_append.mp hmem with hline | hquoted
  · exact (infix_splitLines prompt).1 _ hline
  · exact infix_quotedMatchesFrom hquoted

/-! ## Texts that are known -/

theorem splitLines_line {line rest : JsString} (hline : ∀ u ∈ line, u ≠ 0x0A ∧ u ≠ 0x5C) :
    splitLines (line ++ 0x0A :: rest) = line :: splitLines rest := by
  induction line with
  | nil =>
      cases rest with
      | nil => rfl
      | cons v rest => rw [List.nil_append, splitLines, if_pos rfl]
  | cons u line ih =>
      rw [List.forall_mem_cons] at hline
      have htail := ih hline.2
      cases hrest : line ++ 0x0A :: rest with
      | nil => simp at hrest
      | cons v tail =>
          rw [hrest] at htail
          rw [List.cons_append, hrest, splitLines, if_neg hline.1.1,
            if_neg fun h => hline.1.2 h.1, htail]
          rfl

theorem splitLines_last {line : JsString} (hline : ∀ u ∈ line, u ≠ 0x0A ∧ u ≠ 0x5C) :
    splitLines line = [line] := by
  induction line with
  | nil => rfl
  | cons u line ih =>
      rw [List.forall_mem_cons] at hline
      cases line with
      | nil => rw [splitLines, if_neg hline.1.1]
      | cons v line =>
          rw [splitLines, if_neg hline.1.1, if_neg fun h => hline.1.2 h.1, ih hline.2]
          rfl

theorem quotedMatchesFrom_eq_nil {s : JsString} (h : 0x22 ∉ s) : quotedMatchesFrom 0 s = [] := by
  induction s with
  | nil => rfl
  | cons u rest ih =>
      rw [List.mem_cons, not_or] at h
      rw [quotedMatchesFrom, if_neg (Ne.symm h.1)]
      exact ih h.2

end Hepha.Prompt
