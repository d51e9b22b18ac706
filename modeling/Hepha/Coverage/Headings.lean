import Hepha.Js.MatchAll
import Hepha.Lib.Outline

/-!
# Headings of a source text

A source text is a sequence of documents; each begins with a line that is its path.  A
heading is such a path line or a Markdown heading: a match of
`/^(?:#{1,6} .+|[^\n]+\.md(?::\d+)?)$/gm`.  Its level is the number of `#` it begins
with, so a path line has the level `0`, unless it begins with `#` itself.

A heading closes the open headings of its level or a deeper one.
-/

namespace Hepha.Coverage

open JsString Pattern

/-- A heading, as the source reports it. -/
structure SourceHeading where
  offset : ℕ
  text : JsString
  deriving DecidableEq, Repr

/-- `#{1,6} .+`. -/
def markdownHeading : Pattern :=
  concat [unit (· == 0x23), atMost 5 (· == 0x23), unit (· == 0x20), atLeast 1 isDot]

/-- `[^\n]+\.md(?::\d+)?`. -/
def pathLine : Pattern :=
  concat [atLeast 1 (· != 0x0A), lit ".md",
    optional (concat [unit (· == 0x3A), atLeast 1 isDigit])]

/-- `^(?:#{1,6} .+|[^\n]+\.md(?::\d+)?)$` with the flag `m`. -/
def headingPattern : Pattern :=
  concat [oneOf [markdownHeading, pathLine], endOfLine]

/-- `source.matchAll(…)`. -/
def headings (source : JsString) : List SourceHeading :=
  (matchLines headingPattern true 0 0 source).map fun found => ⟨found.1, found.2⟩

/-- `text.match(/^#+/)?.[0].length ?? 0`. -/
def level (text : JsString) : ℕ :=
  (text.takeWhile (· == 0x23)).length

/-- `heading.text.match(/^#+/)?.[0].length ?? 0`. -/
def SourceHeading.level (heading : SourceHeading) : ℕ :=
  Coverage.level heading.text

/-- The headings come in the order of their offsets. -/
theorem headings_pairwise (source : JsString) :
    (headings source).Pairwise fun a b => a.offset < b.offset :=
  List.pairwise_map.mpr matchLines_pairwise

/-! ## Lines -/

theorem leaves_pathLine : Leaves pathLine := by
  refine leaves_concat fun a ha => ?_
  simp only [List.mem_cons, List.not_mem_nil, or_false] at ha
  rcases ha with rfl | rfl | rfl
  · exact leaves_atLeast _ _
  · exact leaves_lit _
  · exact leaves_optional (leaves_seq (leaves_unit _) (leaves_seq (leaves_atLeast _ _) leaves_done))

theorem leaves_markdownHeading : Leaves markdownHeading := by
  refine leaves_concat fun a ha => ?_
  simp only [List.mem_cons, List.not_mem_nil, or_false] at ha
  rcases ha with rfl | rfl | rfl | rfl
  · exact leaves_unit _
  · exact leaves_atMost _ _
  · exact leaves_unit _
  · exact leaves_atLeast _ _

theorem lineLocal_markdownHeading : LineLocal markdownHeading := by
  refine lineLocal_concat fun a ha => ?_
  simp only [List.mem_cons, List.not_mem_nil, or_false] at ha
  rcases ha with rfl | rfl | rfl | rfl
  · exact ⟨lineLocal_unit rfl, leaves_unit _⟩
  · exact ⟨lineLocal_atMost rfl, leaves_atMost _ _⟩
  · exact ⟨lineLocal_unit rfl, leaves_unit _⟩
  · exact ⟨lineLocal_atLeast rfl, leaves_atLeast _ _⟩

theorem lineLocal_pathLine : LineLocal pathLine := by
  have hline : LineLocal (concat [unit (· == 0x3A), atLeast 1 isDigit]) :=
    lineLocal_seq (lineLocal_unit rfl) (leaves_unit _)
      (lineLocal_seq (lineLocal_atLeast rfl) (leaves_atLeast _ _) lineLocal_done)
  refine lineLocal_concat fun a ha => ?_
  simp only [List.mem_cons, List.not_mem_nil, or_false] at ha
  rcases ha with rfl | rfl | rfl
  · exact ⟨lineLocal_atLeast rfl, leaves_atLeast _ _⟩
  · exact ⟨lineLocal_lit (by decide), leaves_lit _⟩
  · exact ⟨lineLocal_optional hline,
      leaves_optional (leaves_seq (leaves_unit _) (leaves_seq (leaves_atLeast _ _) leaves_done))⟩

theorem lineLocal_headingPattern : LineLocal headingPattern := by
  have hheading : LineLocal (oneOf [markdownHeading, pathLine]) := by
    refine lineLocal_oneOf fun a ha => ?_
    simp only [List.mem_cons, List.not_mem_nil, or_false] at ha
    rcases ha with rfl | rfl
    · exact lineLocal_markdownHeading
    · exact lineLocal_pathLine
  have hleaves : Leaves (oneOf [markdownHeading, pathLine]) := by
    refine leaves_oneOf fun a ha => ?_
    simp only [List.mem_cons, List.not_mem_nil, or_false] at ha
    rcases ha with rfl | rfl
    · exact leaves_markdownHeading
    · exact leaves_pathLine
  exact lineLocal_seq hheading hleaves
    (lineLocal_seq lineLocal_endOfLine leaves_endOfLine lineLocal_done)

/-- A heading, counted from an offset. -/
def SourceHeading.shift (d : ℕ) (heading : SourceHeading) : SourceHeading :=
  ⟨heading.offset + d, heading.text⟩

/-- **The headings of a text are those of its first line and those of the rest.** -/
theorem headings_append_lineFeed {line : JsString} (hline : 0x0A ∉ line) (rest : JsString) :
    headings (line ++ 0x0A :: rest) =
      headings line ++ (headings rest).map (SourceHeading.shift (line.length + 1)) := by
  have hnil : headingPattern [] = [] := by decide
  rw [headings, matchLines_append_lineFeed lineLocal_headingPattern hnil hline (Nat.zero_le _),
    List.map_append, Nat.add_assoc, matchLines_offset, List.map_map, headings, headings,
    List.map_map]
  rfl

end Hepha.Coverage
