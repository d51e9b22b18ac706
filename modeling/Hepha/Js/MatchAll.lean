import Hepha.Js.Lines

/-!
# All matches at line starts

`text.matchAll(/^…$/gm)`: the matches of a pattern that `^` begins under the flag `m`,
from the left, each with its offset.  The search goes on behind a match, which is not
empty for the patterns of the source.

A pattern whose classes leave out the line feed sees one line at a time
(`LineLocal`): what it matches in a line does not depend on the lines around it, so the
matches of a text are those of its lines (`matchLines_append_lineFeed`).
-/

namespace Hepha.Pattern

/-- `p{0,n}`, on a class of units. -/
def atMost (n : ℕ) (p : CodeUnit → Bool) : Pattern :=
  match n with
  | 0 => done
  | n + 1 => optional (seq (unit p) (atMost n p))

/-- The units that `.` matches. -/
def isDot (u : CodeUnit) : Bool :=
  !isLineTerminator u

/-- The matches in a text, with their offsets.  The search stands at the start of a line
or not, has some units of the last match still to pass, and is at an offset. -/
def matchLines (pattern : Pattern) : Bool → ℕ → ℕ → JsString → List (ℕ × JsString)
  | _, _, _, [] => []
  | _, skip + 1, offset, u :: s =>
      matchLines pattern (isLineTerminator u) skip (offset + 1) s
  | atStart, 0, offset, u :: s =>
      match if atStart then (pattern (u :: s)).head? else none with
      | some rest =>
          let length := (u :: s).length - rest.length
          (offset, (u :: s).take length) ::
            matchLines pattern (isLineTerminator u) (length - 1) (offset + 1) s
      | none => matchLines pattern (isLineTerminator u) 0 (offset + 1) s

section Offsets

variable {pattern : Pattern} {atStart : Bool} {skip offset : ℕ} {u : CodeUnit} {s : JsString}

theorem matchLines_succ :
    matchLines pattern atStart (skip + 1) offset (u :: s) =
      matchLines pattern (isLineTerminator u) skip (offset + 1) s :=
  rfl

theorem matchLines_zero :
    matchLines pattern atStart 0 offset (u :: s) =
      match if atStart then (pattern (u :: s)).head? else none with
      | some rest =>
          let length := (u :: s).length - rest.length
          (offset, (u :: s).take length) ::
            matchLines pattern (isLineTerminator u) (length - 1) (offset + 1) s
      | none => matchLines pattern (isLineTerminator u) 0 (offset + 1) s :=
  rfl

/-- No match begins here. -/
theorem matchLines_cons_of_nil (h : pattern (u :: s) = []) :
    matchLines pattern atStart 0 offset (u :: s) =
      matchLines pattern (isLineTerminator u) 0 (offset + 1) s := by
  have hnone : (if atStart then (pattern (u :: s)).head? else none) = none := by
    rw [h]
    exact ite_self _
  rw [matchLines_zero, hnone]

/-! ## Offsets -/

theorem le_of_mem_matchLines {found : ℕ × JsString}
    (h : found ∈ matchLines pattern atStart skip offset s) : offset ≤ found.1 := by
  induction s generalizing atStart skip offset with
  | nil => cases h
  | cons u s ih =>
      cases skip with
      | succ skip => exact Nat.le_of_succ_le (ih h)
      | zero =>
          rw [matchLines_zero] at h
          split at h
          · rcases List.mem_cons.mp h with rfl | h
            · exact Nat.le_refl _
            · exact Nat.le_of_succ_le (ih h)
          · exact Nat.le_of_succ_le (ih h)

theorem lt_of_mem_matchLines {found : ℕ × JsString}
    (h : found ∈ matchLines pattern atStart skip offset s) : found.1 < offset + s.length := by
  induction s generalizing atStart skip offset with
  | nil => cases h
  | cons u s ih =>
      have hnext {b : Bool} {k : ℕ} (h : found ∈ matchLines pattern b k (offset + 1) s) :
          found.1 < offset + (u :: s).length := by
        have := ih h
        rw [List.length_cons]
        omega
      cases skip with
      | succ skip => exact hnext h
      | zero =>
          rw [matchLines_zero] at h
          split at h
          · rcases List.mem_cons.mp h with rfl | h
            · exact Nat.lt_add_of_pos_right (Nat.succ_pos _)
            · exact hnext h
          · exact hnext h

/-- The matches come in the order of their offsets. -/
theorem matchLines_pairwise :
    (matchLines pattern atStart skip offset s).Pairwise fun a b => a.1 < b.1 := by
  induction s generalizing atStart skip offset with
  | nil => exact List.Pairwise.nil
  | cons u s ih =>
      cases skip with
      | succ skip => exact ih
      | zero =>
          rw [matchLines_zero]
          split
          · exact List.pairwise_cons.mpr ⟨fun _ hfound => le_of_mem_matchLines hfound, ih⟩
          · exact ih

/-- The offsets are counted from where the search begins. -/
theorem matchLines_offset (d : ℕ) :
    matchLines pattern atStart skip (offset + d) s =
      (matchLines pattern atStart skip offset s).map fun found => (found.1 + d, found.2) := by
  induction s generalizing atStart skip offset with
  | nil => rfl
  | cons u s ih =>
      have hnext (b : Bool) (k : ℕ) : matchLines pattern b k (offset + d + 1) s =
          (matchLines pattern b k (offset + 1) s).map fun found => (found.1 + d, found.2) := by
        rw [Nat.add_right_comm]
        exact ih
      cases skip with
      | succ skip => exact hnext _ _
      | zero =>
          rw [matchLines_zero, matchLines_zero]
          split
          · simp only [List.map_cons, hnext]
          · exact hnext _ _

end Offsets

/-! ## Lines -/

/-- What a pattern matches in a line does not depend on what follows the line. -/
def LineLocal (pattern : Pattern) : Prop :=
  ∀ line rest, 0x0A ∉ line →
    pattern (line ++ 0x0A :: rest) = (pattern line).map fun tail => tail ++ 0x0A :: rest

theorem lineLocal_unit {p : CodeUnit → Bool} (h : p 0x0A = false) : LineLocal (unit p) := by
  intro line rest _
  cases line with
  | nil => simp [unit, h]
  | cons u line =>
      rw [List.cons_append, unit, unit]
      split <;> rfl

theorem lineLocal_done : LineLocal done :=
  fun _ _ _ => rfl

/-- A pattern leaves suffixes. -/
def Leaves (pattern : Pattern) : Prop :=
  ∀ s, ∀ tail ∈ pattern s, tail <:+ s

theorem leaves_unit (p : CodeUnit → Bool) : Leaves (unit p) := by
  intro s tail h
  cases s with
  | nil => cases h
  | cons u s =>
      rw [unit] at h
      split at h
      · rw [List.mem_singleton.mp h]
        exact List.suffix_cons u s
      · cases h

theorem leaves_done : Leaves done :=
  fun _ _ h => List.mem_singleton.mp h ▸ List.suffix_refl _

theorem leaves_seq {a b : Pattern} (ha : Leaves a) (hb : Leaves b) : Leaves (seq a b) := by
  intro s tail h
  obtain ⟨middle, hmiddle, htail⟩ := List.mem_flatMap.mp h
  exact (hb middle tail htail).trans (ha s middle hmiddle)

theorem leaves_concat {patterns : List Pattern} (h : ∀ a ∈ patterns, Leaves a) :
    Leaves (concat patterns) := by
  induction patterns with
  | nil => exact leaves_done
  | cons a rest ih =>
      exact leaves_seq (h a List.mem_cons_self) (ih fun b hb => h b (List.mem_cons_of_mem _ hb))

theorem leaves_oneOf {patterns : List Pattern} (h : ∀ a ∈ patterns, Leaves a) :
    Leaves (oneOf patterns) := by
  intro s tail htail
  obtain ⟨a, ha, htail⟩ := List.mem_flatMap.mp htail
  exact h a ha s tail htail

theorem leaves_optional {a : Pattern} (h : Leaves a) : Leaves (optional a) := by
  intro s tail htail
  rcases List.mem_append.mp htail with htail | htail
  · exact h s tail htail
  · exact leaves_done s tail htail

theorem leaves_many (p : CodeUnit → Bool) : Leaves (many p) := by
  intro s tail h
  obtain ⟨front, rfl, -⟩ := mem_many.1 h
  exact List.suffix_append front tail

theorem leaves_atMost (n : ℕ) (p : CodeUnit → Bool) : Leaves (atMost n p) := by
  induction n with
  | zero => exact leaves_done
  | succ n ih => exact leaves_optional (leaves_seq (leaves_unit p) ih)

theorem leaves_atLeast (n : ℕ) (p : CodeUnit → Bool) : Leaves (atLeast n p) := by
  refine leaves_concat fun a ha => ?_
  rcases List.mem_append.mp ha with ha | ha
  · rw [List.eq_of_mem_replicate ha]
    exact leaves_unit p
  · rw [List.mem_singleton.mp ha]
    exact leaves_many p

theorem leaves_endOfLine : Leaves endOfLine := by
  intro s tail h
  rw [endOfLine] at h
  split at h
  · exact leaves_done s tail h
  · cases h

theorem leaves_lit (text : String) : Leaves (lit text) := by
  intro s tail h
  rw [mem_lit.1 h]
  exact List.suffix_append _ _

theorem lineLocal_seq {a b : Pattern} (ha : LineLocal a) (hleaves : Leaves a) (hb : LineLocal b) :
    LineLocal (seq a b) := by
  intro line rest hline
  rw [seq, seq, ha line rest hline, List.flatMap_map, List.map_flatMap]
  refine List.flatMap_congr fun tail htail => ?_
  exact hb tail rest fun hmem => hline ((hleaves line tail htail).subset hmem)

theorem lineLocal_concat {patterns : List Pattern}
    (h : ∀ a ∈ patterns, LineLocal a ∧ Leaves a) : LineLocal (concat patterns) := by
  induction patterns with
  | nil => exact lineLocal_done
  | cons a rest ih =>
      obtain ⟨ha, hleaves⟩ := h a List.mem_cons_self
      exact lineLocal_seq ha hleaves (ih fun b hb => h b (List.mem_cons_of_mem _ hb))

theorem lineLocal_oneOf {patterns : List Pattern} (h : ∀ a ∈ patterns, LineLocal a) :
    LineLocal (oneOf patterns) := by
  intro line rest hline
  rw [oneOf, oneOf, List.map_flatMap]
  exact List.flatMap_congr fun a ha => h a ha line rest hline

theorem lineLocal_optional {a : Pattern} (h : LineLocal a) : LineLocal (optional a) := by
  intro line rest hline
  rw [optional, optional, h line rest hline, List.map_append]
  rfl

theorem lineLocal_many {p : CodeUnit → Bool} (h : p 0x0A = false) : LineLocal (many p) := by
  intro line rest hline
  induction line with
  | nil => simp [many, h]
  | cons u line ih =>
      have hrest := ih fun hmem => hline (List.mem_cons_of_mem _ hmem)
      rw [List.cons_append, many, many]
      split
      · rw [hrest, List.map_append]
        rfl
      · rfl

theorem lineLocal_atMost {n : ℕ} {p : CodeUnit → Bool} (h : p 0x0A = false) :
    LineLocal (atMost n p) := by
  induction n with
  | zero => exact lineLocal_done
  | succ n ih => exact lineLocal_optional (lineLocal_seq (lineLocal_unit h) (leaves_unit p) ih)

theorem lineLocal_atLeast {n : ℕ} {p : CodeUnit → Bool} (h : p 0x0A = false) :
    LineLocal (atLeast n p) := by
  refine lineLocal_concat fun a ha => ?_
  rcases List.mem_append.mp ha with ha | ha
  · rw [List.eq_of_mem_replicate ha]
    exact ⟨lineLocal_unit h, leaves_unit p⟩
  · rw [List.mem_singleton.mp ha]
    exact ⟨lineLocal_many h, leaves_many p⟩

theorem lineLocal_lit {text : String} (h : 0x0A ∉ js text) : LineLocal (lit text) := by
  refine lineLocal_concat fun a ha => ?_
  obtain ⟨u, hu, rfl⟩ := List.mem_map.mp ha
  refine ⟨lineLocal_unit ?_, leaves_unit _⟩
  rw [beq_eq_false_iff_ne]
  rintro rfl
  exact h hu

theorem lineLocal_endOfLine : LineLocal endOfLine := by
  intro line rest _
  cases line with
  | nil => rfl
  | cons u line =>
      by_cases hu : isLineTerminator u = true <;> simp [endOfLine, hu]

/-- **The matches of a text are those of its lines.** -/
theorem matchLines_append_lineFeed {pattern : Pattern} (hlocal : LineLocal pattern)
    (hnil : pattern [] = []) {line : JsString} (hline : 0x0A ∉ line) {atStart : Bool}
    {skip : ℕ} (hskip : skip ≤ line.length) (offset : ℕ) (rest : JsString) :
    matchLines pattern atStart skip offset (line ++ 0x0A :: rest) =
      matchLines pattern atStart skip offset line ++
        matchLines pattern true 0 (offset + line.length + 1) rest := by
  induction line generalizing atStart skip offset with
  | nil =>
      obtain rfl : skip = 0 := Nat.le_zero.mp hskip
      have hfeed : pattern (0x0A :: rest) = [] := by
        simpa [hnil] using hlocal [] rest hline
      rw [List.nil_append, matchLines_cons_of_nil hfeed]
      rfl
  | cons u line ih =>
      have htail : 0x0A ∉ line := fun hmem => hline (List.mem_cons_of_mem _ hmem)
      have hplace : offset + 1 + line.length + 1 = offset + (u :: line).length + 1 := by
        rw [List.length_cons]
        omega
      cases skip with
      | succ skip =>
          rw [List.cons_append, matchLines_succ, matchLines_succ,
            ih htail (Nat.le_of_succ_le_succ hskip), hplace]
      | zero =>
          have hhead : (pattern (u :: line ++ 0x0A :: rest)).head? =
              (pattern (u :: line)).head?.map fun tail => tail ++ 0x0A :: rest := by
            rw [hlocal (u :: line) rest hline, List.head?_map]
          rw [List.cons_append] at hhead ⊢
          rw [matchLines_zero, matchLines_zero, hhead]
          cases hmatch : (if atStart then (pattern (u :: line)).head? else none) with
          | none =>
              have hnone : (if atStart then
                  (pattern (u :: line)).head?.map fun tail => tail ++ 0x0A :: rest
                  else none) = none := by
                split at hmatch
                · rw [if_pos ‹_›, hmatch]
                  rfl
                · rw [if_neg ‹_›]
              rw [hnone]
              exact (ih htail (Nat.zero_le _) _).trans (by rw [hplace])
          | some tail =>
              have hsome : (if atStart then
                  (pattern (u :: line)).head?.map fun tail => tail ++ 0x0A :: rest
                  else none) = some (tail ++ 0x0A :: rest) := by
                split at hmatch
                · rw [if_pos ‹_›, hmatch]
                  rfl
                · cases hmatch
              have hlength : (u :: (line ++ 0x0A :: rest)).length - (tail ++ 0x0A :: rest).length =
                  (u :: line).length - tail.length := by
                simp only [List.length_cons, List.length_append]
                omega
              have htake : (u :: (line ++ 0x0A :: rest)).take ((u :: line).length - tail.length) =
                  (u :: line).take ((u :: line).length - tail.length) := by
                rw [← List.cons_append, List.take_append_of_le_length (Nat.sub_le _ _)]
              have hle : (u :: line).length - tail.length - 1 ≤ line.length := by
                simp only [List.length_cons]
                omega
              rw [hsome]
              simp only [hlength, htake]
              rw [ih htail hle, hplace, List.cons_append]

end Hepha.Pattern
