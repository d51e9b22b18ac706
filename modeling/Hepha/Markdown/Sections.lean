import Hepha.Js.Lines

/-!
# Sections of a Markdown document

A section is found by its heading `## …` and goes up to the next heading of the
second level.  Both are regular expressions with the flag `m`: a heading begins
where a line of `^` begins, and its white space may go over several lines.
-/

namespace Hepha.Markdown

open JsString Pattern

/-- `^##\s+heading\s*$` with the flags `i` and `m`, for a heading in lower case. -/
def sectionHeading (heading : String) : Pattern :=
  concat [lit "##", atLeast 1 isWhiteSpace, litIgnoreCase heading, many isWhiteSpace, endOfLine]

/-- `^##\s+` with the flag `m`. -/
def anyHeading : Pattern :=
  concat [lit "##", atLeast 1 isWhiteSpace]

/-- A document around one of its sections: what stands before the heading, the
section without its heading, and what follows from the next heading on. -/
structure SectionParts where
  before : JsString
  body : JsString
  after : JsString

/-- The text up to the next heading, and from it on. -/
def cutAtHeading (text : JsString) : JsString × JsString :=
  match searchLines anyHeading true text with
  | some (body, _) => (body, text.drop body.length)
  | none => (text, [])

/-- The first section with the heading. -/
def findSection (markdown : JsString) (heading : String) : Option SectionParts :=
  (searchLines (sectionHeading heading) true markdown).map fun (before, remaining) =>
    ⟨before, (cutAtHeading remaining).1, (cutAtHeading remaining).2⟩

/-- `extractSection`. -/
def extractSection (markdown : JsString) (heading : String) : Option JsString :=
  (findSection markdown heading).map SectionParts.body

/-! ## A heading -/

/-- A pattern that still matches when the text goes on. -/
def Extends (pattern : Pattern) : Prop :=
  ∀ s rest more, rest ∈ pattern s → rest ++ more ∈ pattern (s ++ more)

theorem extends_unit (p : CodeUnit → Bool) : Extends (unit p) := by
  intro s rest more h
  cases s with
  | nil => cases h
  | cons u s =>
      rw [List.cons_append, unit]
      rw [unit] at h
      split at h
      · rename_i hu
        rw [if_pos hu, List.mem_singleton.mp h]
        exact List.mem_singleton_self _
      · cases h

theorem extends_many (p : CodeUnit → Bool) : Extends (many p) := by
  intro s rest more h
  induction s with
  | nil =>
      rw [many, List.mem_singleton] at h
      rw [h, List.nil_append]
      cases more with
      | nil => exact List.mem_singleton_self _
      | cons u more =>
          rw [many]
          split <;> simp
  | cons u s ih =>
      rw [many] at h
      rw [List.cons_append, many]
      split at h
      · rename_i hu
        rw [if_pos hu, List.mem_append]
        rcases List.mem_append.mp h with h | h
        · exact .inl (ih h)
        · exact .inr (by rw [List.mem_singleton.mp h]; exact List.mem_singleton_self _)
      · rename_i hu
        rw [if_neg hu, List.mem_singleton.mp h]
        exact List.mem_singleton_self _

theorem extends_concat {patterns : List Pattern} (h : ∀ a ∈ patterns, Extends a) :
    Extends (concat patterns) := by
  intro s rest more hrest
  induction patterns generalizing s with
  | nil =>
      obtain rfl := List.mem_singleton.mp hrest
      exact List.mem_singleton_self _
  | cons a patterns ih =>
      obtain ⟨tail, htail, hrest⟩ := List.mem_flatMap.mp hrest
      exact List.mem_flatMap.mpr ⟨tail ++ more, h a List.mem_cons_self s tail more htail,
        ih (fun b hb => h b (List.mem_cons_of_mem _ hb)) tail hrest⟩

theorem mem_concat_append {front back : List Pattern} {s tail rest : JsString}
    (hfront : tail ∈ concat front s) (hback : rest ∈ concat back tail) :
    rest ∈ concat (front ++ back) s := by
  induction front generalizing s with
  | nil =>
      obtain rfl := List.mem_singleton.mp hfront
      exact hback
  | cons a front ih =>
      obtain ⟨next, hnext, hfront⟩ := List.mem_flatMap.mp hfront
      exact List.mem_flatMap.mpr ⟨next, hnext, ih hfront⟩

/-- The heading pattern up to the end of the line. -/
def headingText (heading : String) : Pattern :=
  concat [lit "##", atLeast 1 isWhiteSpace, litIgnoreCase heading, many isWhiteSpace]

theorem extends_headingText (heading : String) : Extends (headingText heading) := by
  have hlit {p : CodeUnit → CodeUnit → Bool} (text : String) :
      Extends (concat ((js text).map fun u => unit (p u))) := by
    refine extends_concat fun a ha => ?_
    obtain ⟨u, -, rfl⟩ := List.mem_map.mp ha
    exact extends_unit _
  refine extends_concat fun a ha => ?_
  simp only [List.mem_cons, List.not_mem_nil, or_false] at ha
  rcases ha with rfl | rfl | rfl | rfl
  · exact hlit _
  · refine extends_concat fun a ha => ?_
    rcases List.mem_append.mp ha with ha | ha
    · rw [List.eq_of_mem_replicate ha]
      exact extends_unit _
    · rw [List.mem_singleton.mp ha]
      exact extends_many _
  · exact hlit _
  · exact extends_many _

/-- A line that is a heading is found. -/
theorem sectionHeading_line {heading : String} {line : JsString} (h : [] ∈ headingText heading line)
    (more : JsString) : sectionHeading heading (line ++ 0x0A :: more) ≠ [] := by
  have hline := extends_headingText heading line [] (0x0A :: more) h
  rw [List.nil_append] at hline
  have hend : 0x0A :: more ∈ concat [endOfLine] (0x0A :: more) :=
    List.mem_flatMap.mpr ⟨0x0A :: more, List.mem_singleton_self _, List.mem_singleton_self _⟩
  exact List.ne_nil_of_mem (mem_concat_append hline hend)

theorem mem_concat_cons {first : Pattern} {rest : List Pattern} {s t : JsString} :
    t ∈ concat (first :: rest) s ↔ ∃ middle ∈ first s, t ∈ concat rest middle :=
  List.mem_flatMap

theorem mem_atLeast_one {p : CodeUnit → Bool} {s t : JsString} :
    t ∈ atLeast 1 p s ↔ ∃ front, s = front ++ t ∧ front ≠ [] ∧ ∀ u ∈ front, p u = true := by
  have hform : atLeast 1 p = concat [unit p, many p] := rfl
  rw [hform, mem_concat_cons]
  constructor
  · rintro ⟨middle, hmiddle, ht⟩
    obtain ⟨tail, htail, ht⟩ := mem_concat_cons.1 ht
    obtain rfl := List.mem_singleton.mp ht
    obtain ⟨front, rfl, hfront⟩ := mem_many.1 htail
    cases s with
    | nil => cases hmiddle
    | cons u s =>
        rw [unit] at hmiddle
        split at hmiddle
        · rename_i hu
          obtain rfl := List.mem_singleton.mp hmiddle
          exact ⟨u :: front, rfl, List.cons_ne_nil _ _, by simpa [hu] using hfront⟩
        · cases hmiddle
  · rintro ⟨front, rfl, hne, hfront⟩
    obtain ⟨u, front, rfl⟩ := List.exists_cons_of_ne_nil hne
    refine ⟨front ++ t, ?_, mem_concat_cons.2 ⟨t, mem_many.2 ⟨front, rfl, ?_⟩,
      List.mem_singleton_self _⟩⟩
    · rw [List.cons_append, unit, if_pos (hfront u List.mem_cons_self)]
      exact List.mem_singleton_self _
    · exact fun v hv => hfront v (List.mem_cons_of_mem _ hv)

/-- White space that reaches the end of a line. -/
def EndsLine (s : JsString) : Prop :=
  ∃ white rest, s = white ++ rest ∧ (∀ u ∈ white, isWhiteSpace u = true) ∧
    rest.head?.all isLineTerminator = true

/-- A heading is `##`, white space and the text, up to the end of its line. -/
theorem sectionHeading_ne_nil {heading : String} {s : JsString} :
    sectionHeading heading s ≠ [] ↔ ∃ white name rest, s = js "##" ++ (white ++ (name ++ rest)) ∧
      white ≠ [] ∧ (∀ u ∈ white, isWhiteSpace u = true) ∧ name.map lowerCase = js heading ∧
        EndsLine rest := by
  constructor
  · intro h
    obtain ⟨t, ht⟩ := List.exists_mem_of_ne_nil _ h
    obtain ⟨s₁, h₁, ht⟩ := mem_concat_cons.1 ht
    obtain ⟨s₂, h₂, ht⟩ := mem_concat_cons.1 ht
    obtain ⟨s₃, h₃, ht⟩ := mem_concat_cons.1 ht
    obtain ⟨s₄, h₄, ht⟩ := mem_concat_cons.1 ht
    obtain ⟨s₅, h₅, ht⟩ := mem_concat_cons.1 ht
    obtain ⟨white, rfl, hne, hwhite⟩ := mem_atLeast_one.1 h₂
    obtain ⟨name, rfl, hname⟩ := mem_litIgnoreCase.1 h₃
    obtain ⟨more, rfl, hmore⟩ := mem_many.1 h₄
    refine ⟨white, name, more ++ s₄, mem_lit.1 h₁, hne, hwhite, hname, more, s₄, rfl, hmore, ?_⟩
    rw [endOfLine] at h₅
    split at h₅
    · assumption
    · cases h₅
  · rintro ⟨white, name, _, rfl, hne, hwhite, hname, more, rest, rfl, hmore, hend⟩
    refine List.ne_nil_of_mem (a := rest) (mem_concat_cons.2 ⟨_, mem_lit.2 rfl,
      mem_concat_cons.2 ⟨_, mem_atLeast_one.2 ⟨white, rfl, hne, hwhite⟩,
      mem_concat_cons.2 ⟨_, mem_litIgnoreCase.2 ⟨name, rfl, hname⟩,
      mem_concat_cons.2 ⟨_, mem_many.2 ⟨more, rfl, hmore⟩,
      mem_concat_cons.2 ⟨rest, ?_, List.mem_singleton_self _⟩⟩⟩⟩⟩)
    rw [endOfLine, if_pos hend]
    exact List.mem_singleton_self _

theorem anyHeading_ne_nil {s : JsString} :
    anyHeading s ≠ [] ↔ ∃ u rest, s = js "##" ++ u :: rest ∧ isWhiteSpace u = true := by
  constructor
  · intro h
    obtain ⟨t, ht⟩ := List.exists_mem_of_ne_nil _ h
    obtain ⟨s₁, h₁, ht⟩ := mem_concat_cons.1 ht
    obtain ⟨s₂, h₂, -⟩ := mem_concat_cons.1 ht
    obtain ⟨white, rfl, hne, hwhite⟩ := mem_atLeast_one.1 h₂
    obtain ⟨u, white, rfl⟩ := List.exists_cons_of_ne_nil hne
    exact ⟨u, white ++ s₂, mem_lit.1 h₁, hwhite u List.mem_cons_self⟩
  · rintro ⟨u, rest, rfl, hu⟩
    exact List.ne_nil_of_mem (a := rest) (mem_concat_cons.2 ⟨_, mem_lit.2 rfl,
      mem_concat_cons.2 ⟨rest, mem_atLeast_one.2 ⟨[u], rfl, by simp, by simpa using hu⟩,
        List.mem_singleton_self _⟩⟩)

/-! ## The parts of a document -/

theorem within_atLeast (n : ℕ) (p : CodeUnit → Bool) : Within (fun _ => true) (atLeast n p) := by
  refine within_concat fun a ha => ?_
  rcases List.mem_append.mp ha with ha | ha
  · rw [List.eq_of_mem_replicate ha]
    exact within_unit fun _ _ => rfl
  · rw [List.mem_singleton.mp ha]
    exact within_many fun _ _ => rfl

theorem within_sectionHeading (heading : String) : Within (fun _ => true)
    (concat [atLeast 1 isWhiteSpace, litIgnoreCase heading, many isWhiteSpace, endOfLine]) := by
  refine within_concat fun a ha => ?_
  simp only [List.mem_cons, List.not_mem_nil, or_false] at ha
  rcases ha with rfl | rfl | rfl | rfl
  · exact within_atLeast _ _
  · refine within_concat fun a ha => ?_
    obtain ⟨u, -, rfl⟩ := List.mem_map.mp ha
    exact within_unit fun _ _ => rfl
  · exact within_many fun _ _ => rfl
  · intro s t ht
    rw [endOfLine] at ht
    split at ht
    · exact ⟨[], by rw [List.mem_singleton.mp ht, List.nil_append], by simp⟩
    · cases ht

/-- A document is what stands before a section, the section and what follows; the
section and what follows begin with `##`, where a line begins. -/
theorem findSection_eq_some {markdown : JsString} {heading : String} {parts : SectionParts}
    (h : findSection markdown heading = some parts) :
    ∃ text, markdown = parts.before ++ (js "##" ++ text ++ parts.after) ∧
      parts.before.getLast?.all isLineTerminator = true ∧
        (parts.after = [] ∨ js "##" <+: parts.after) := by
  obtain ⟨⟨before, remaining⟩, hfound, rfl⟩ := Option.map_eq_some_iff.mp h
  obtain ⟨found, rfl, hmatch, hlast, -⟩ := searchLines_eq_some hfound
  obtain ⟨tail, htail, hremaining⟩ := List.mem_flatMap.mp (List.mem_of_mem_head? hmatch)
  obtain ⟨matched, rfl, -⟩ := within_sectionHeading heading tail remaining hremaining
  rw [mem_lit] at htail
  obtain ⟨body, after, hcut, hsplit, hafter⟩ : ∃ body after, cutAtHeading remaining =
      (body, after) ∧ remaining = body ++ after ∧ (after = [] ∨ js "##" <+: after) := by
    unfold cutAtHeading
    split
    · rename_i body rest hheading
      obtain ⟨after, rfl, hmatch, -, -⟩ := searchLines_eq_some hheading
      obtain ⟨tail, htail, -⟩ := List.mem_flatMap.mp (List.mem_of_mem_head? hmatch)
      rw [mem_lit] at htail
      refine ⟨body, after, by rw [List.drop_left], rfl, .inr ?_⟩
      rw [htail]
      exact List.prefix_append _ _
    · exact ⟨remaining, [], rfl, by rw [List.append_nil], .inl rfl⟩
  refine ⟨matched ++ body, ?_, hlast, ?_⟩
  · simp only [hcut]
    rw [htail, hsplit]
    simp only [List.append_assoc]
  · simpa only [hcut] using hafter

end Hepha.Markdown
