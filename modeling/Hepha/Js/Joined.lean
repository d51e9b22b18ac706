import Hepha.Js.Lines

/-!
# Lines that are joined again

Documents are taken apart into lines, and the lines are joined by line feeds.
Where no line but the last ends in a carriage return, the text and its lines
determine each other.
-/

namespace Hepha

namespace JsString

/-- A text whose lines end in line feeds alone. -/
def HasLineFeeds (text : JsString) : Prop :=
  ¬[0x0D, 0x0A] <:+: text

theorem splitLines_of_mem {a b : JsString} (ha : 0x0A ∉ a) (h : HasLineFeeds (a ++ 0x0A :: b)) :
    splitLines (a ++ 0x0A :: b) = a :: splitLines b ∧ a.getLast? ≠ some 0x0D := by
  have hlast : a.getLast? ≠ some 0x0D := by
    intro hlast
    obtain ⟨front, rfl⟩ := List.getLast?_eq_some_iff.mp hlast
    exact h ⟨front, b, by simp⟩
  refine ⟨?_, hlast⟩
  rw [splitLines_append_lineFeed hlast, splitLines_eq_singleton ha, List.singleton_append]

/-- Only the last line may end in a carriage return. -/
theorem getLast?_of_mem_dropLast_splitLines {text line : JsString} (h : HasLineFeeds text)
    (hline : line ∈ (splitLines text).dropLast) : line.getLast? ≠ some 0x0D := by
  by_cases hfeed : 0x0A ∈ text
  · obtain ⟨a, b, rfl, ha⟩ := List.eq_append_cons_of_mem hfeed
    obtain ⟨hsplit, hlast⟩ := splitLines_of_mem ha h
    rw [hsplit, List.dropLast_cons_of_ne_nil (splitLines_ne_nil b)] at hline
    rcases List.mem_cons.mp hline with rfl | hline
    · exact hlast
    · have hb : HasLineFeeds b := fun hpart => h (hpart.trans ⟨a ++ [0x0A], [], by simp⟩)
      exact getLast?_of_mem_dropLast_splitLines hb hline
  · rw [splitLines_eq_singleton hfeed] at hline
    cases hline
termination_by text.length
decreasing_by
  rw [‹text = _›]
  simp
  omega

theorem not_lineTerminator_of_all {text : JsString}
    (h : text.all (fun u => !Pattern.isLineTerminator u) = true) :
    ∀ u ∈ text, Pattern.isLineTerminator u = false := fun u hu => by
  simpa using List.all_eq_true.mp h u hu

/-- The pieces of a text consist of its units. -/
theorem mem_of_mem_splitOnP {p : CodeUnit → Bool} {s line : JsString} {u : CodeUnit}
    (hline : line ∈ s.splitOnP p) (hu : u ∈ line) : u ∈ s := by
  induction s generalizing line with
  | nil =>
      obtain rfl := List.mem_singleton.mp hline
      cases hu
  | cons v s ih =>
      rw [List.splitOnP_cons_eq_if_modifyHead] at hline
      split at hline
      · rcases List.mem_cons.mp hline with rfl | hline
        · cases hu
        · exact List.mem_cons_of_mem v (ih hline hu)
      · cases hlines : s.splitOnP p with
        | nil => exact absurd hlines (List.splitOnP_ne_nil p s)
        | cons first rest =>
            rw [hlines] at ih hline
            rcases List.mem_cons.mp hline with rfl | hline
            · rcases List.mem_cons.mp hu with rfl | hu
              · exact List.mem_cons_self
              · exact List.mem_cons_of_mem v (ih List.mem_cons_self hu)
            · exact List.mem_cons_of_mem v (ih (List.mem_cons_of_mem first hline) hu)

theorem trimEnd_append_white {text white : JsString} {u : CodeUnit}
    (htext : text.getLast? = some u) (hu : isWhiteSpace u = false)
    (hwhite : ∀ v ∈ white, isWhiteSpace v = true) : trimEnd (text ++ white) = text := by
  obtain ⟨front, rfl⟩ := List.getLast?_eq_some_iff.mp htext
  rw [trimEnd, List.rdropWhile, List.reverse_append,
    List.dropWhile_append_of_pos fun v hv => hwhite v (List.mem_reverse.mp hv),
    List.reverse_append, List.reverse_singleton, List.singleton_append,
    List.dropWhile_cons_of_neg (by simp [hu])]
  simp

theorem joinLines_cons {line : JsString} {rest : List JsString} (h : rest ≠ []) :
    joinLines (line :: rest) = line ++ 0x0A :: joinLines rest := by
  obtain ⟨next, rest, rfl⟩ := List.exists_cons_of_ne_nil h
  simp [joinLines, List.intercalate_cons_cons]

/-- Lines come back from their text if no line before another one ends in a carriage return. -/
theorem splitLines_joinLines_of_dropLast {lines : List JsString} (hne : lines ≠ [])
    (hfeed : ∀ line ∈ lines, 0x0A ∉ line)
    (hreturn : ∀ line ∈ lines.dropLast, line.getLast? ≠ some 0x0D) :
    splitLines (joinLines lines) = lines := by
  induction lines with
  | nil => exact absurd rfl hne
  | cons line rest ih =>
      by_cases hrest : rest = []
      · subst hrest
        simpa [joinLines] using splitLines_eq_singleton (hfeed line List.mem_cons_self)
      · rw [List.dropLast_cons_of_ne_nil hrest] at hreturn
        rw [joinLines_cons hrest, splitLines_append_lineFeed (hreturn line List.mem_cons_self),
          splitLines_eq_singleton (hfeed line List.mem_cons_self),
          ih hrest (fun l hl => hfeed l (List.mem_cons_of_mem _ hl))
            fun l hl => hreturn l (List.mem_cons_of_mem _ hl)]
        rfl

theorem joinLines_append {front back : List JsString} (hfront : front ≠ []) (hback : back ≠ []) :
    joinLines (front ++ back) = joinLines front ++ 0x0A :: joinLines back := by
  induction front with
  | nil => exact absurd rfl hfront
  | cons line rest ih =>
      by_cases hrest : rest = []
      · subst hrest
        rw [List.singleton_append, joinLines_cons hback]
        simp [joinLines]
      · rw [List.cons_append, joinLines_cons (by simp [hrest]), ih hrest, joinLines_cons hrest,
          List.append_assoc, List.cons_append]

/-- A text is made up of its lines. -/
theorem joinLines_splitLines {text : JsString} (h : HasLineFeeds text) :
    joinLines (splitLines text) = text := by
  by_cases hfeed : 0x0A ∈ text
  · obtain ⟨a, b, rfl, ha⟩ := List.eq_append_cons_of_mem hfeed
    have hb : HasLineFeeds b := fun hpart => h (hpart.trans ⟨a ++ [0x0A], [], by simp⟩)
    rw [(splitLines_of_mem ha h).1, joinLines_cons (splitLines_ne_nil b), joinLines_splitLines hb]
  · rw [splitLines_eq_singleton hfeed]
    simp [joinLines]
termination_by text.length
decreasing_by
  rw [‹text = _›]
  simp
  omega

/-- A piece of several lines is joined like its lines. -/
theorem joinLines_nested {front piece back : List JsString} (hpiece : piece ≠ []) :
    joinLines (front ++ [joinLines piece] ++ back) = joinLines (front ++ piece ++ back) := by
  have hsingle : joinLines [joinLines piece] = joinLines piece := by simp [joinLines]
  have hback : joinLines ([joinLines piece] ++ back) = joinLines (piece ++ back) := by
    by_cases h : back = []
    · rw [h, List.append_nil, List.append_nil, hsingle]
    · rw [joinLines_append (List.cons_ne_nil _ _) h, joinLines_append hpiece h, hsingle]
  by_cases h : front = []
  · rw [h, List.nil_append, List.nil_append, hback]
  · rw [List.append_assoc, List.append_assoc, joinLines_append h (by simp), hback,
      ← joinLines_append h (by simp [hpiece])]

/-- An empty line before others takes one unit. -/
theorem length_joinLines_nil {front back : List JsString} (hback : back ≠ []) :
    (joinLines (front ++ [] :: back)).length = (joinLines (front ++ back)).length + 1 := by
  have hempty : joinLines ([] :: back) = 0x0A :: joinLines back := by
    rw [joinLines_cons hback, List.nil_append]
  by_cases h : front = []
  · rw [h, List.nil_append, List.nil_append, hempty, List.length_cons]
  · rw [joinLines_append h (by simp), joinLines_append h hback, hempty]
    simp
    omega

end JsString

end Hepha
