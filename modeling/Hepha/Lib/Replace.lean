import Hepha.Lib.Cut
import Hepha.Lib.Scan

/-!
# Replacing a text by a token

A text in which some occurrences of a word are replaced by a token that stands
for the word.  The text is given as the pieces between these occurrences; it
may hold other tokens, which are left alone unless an occurrence begins or ends
inside one.

Where none does, the text expands to the same as before (`expand_replace`).
Where one does, a token is lost, and the text expands to less than before
(`length_expand_replace`).
-/

namespace Hepha.Tokens

variable {α β : Type*} (T : Tokens α β) (word : List α)

/-- A token crosses an edge of an occurrence of the word between two pieces. -/
def Crosses (pieces : List (List α)) : Prop :=
  ∃ i, 0 < i ∧ i < pieces.length ∧
    (T.Straddles (word.intercalate (pieces.take i))
        (word ++ word.intercalate (pieces.drop i)) ∨
      T.Straddles (word.intercalate (pieces.take i) ++ word)
        (word.intercalate (pieces.drop i)))

section Crosses

variable {T word} {pieces rest : List (List α)} {piece : List α}

theorem intercalate_take_drop {i : ℕ} (hpositive : 0 < i) (hi : i < pieces.length) :
    word.intercalate (pieces.take i) ++ (word ++ word.intercalate (pieces.drop i)) =
      word.intercalate pieces := by
  induction i generalizing pieces with
  | zero => exact absurd hpositive (Nat.lt_irrefl 0)
  | succ i ih =>
      cases pieces with
      | nil => cases hi
      | cons piece rest =>
          have hrest : rest ≠ [] := by
            rintro rfl
            simp at hi
          rw [List.take_succ_cons, List.drop_succ_cons, List.intercalate_cons_of_ne_nil hrest]
          by_cases hzero : i = 0
          · subst hzero
            simp
          · have hlt : i < rest.length := by simpa using hi
            have htake : rest.take i ≠ [] := by simp [hzero, hrest]
            rw [List.intercalate_cons_of_ne_nil htake, ← ih (Nat.pos_of_ne_zero hzero) hlt]
            simp

/-- The edges of the first occurrence, and those of the others. -/
theorem crosses_cons_iff (hrest : rest ≠ []) :
    T.Crosses word (piece :: rest) ↔ T.Straddles piece (word ++ word.intercalate rest) ∨
      T.Straddles (piece ++ word) (word.intercalate rest) ∨ T.Crosses word rest := by
  constructor
  · rintro ⟨i, hpositive, hi, h⟩
    obtain ⟨i, rfl⟩ := Nat.exists_eq_add_of_lt hpositive
    rw [Nat.zero_add, List.take_succ_cons, List.drop_succ_cons] at h
    rw [Nat.zero_add, List.length_cons, Nat.succ_lt_succ_iff] at hi
    by_cases hzero : i = 0
    · subst hzero
      simp only [List.take_zero, List.drop_zero, List.intercalate_singleton] at h
      exact h.elim .inl fun h => .inr (.inl h)
    · have htake : rest.take i ≠ [] := by simp [hzero, hrest]
      have hjoin : word.intercalate (rest.take i) ++ (word ++ word.intercalate (rest.drop i)) =
          word.intercalate rest := intercalate_take_drop (Nat.pos_of_ne_zero hzero) hi
      rw [List.intercalate_cons_of_ne_nil htake] at h
      right
      rcases h with h | h
      · rcases h.append_left with h | h
        · exact .inr ⟨i, Nat.pos_of_ne_zero hzero, hi, .inl h⟩
        · exact .inl (hjoin ▸ h)
      · rw [List.append_assoc] at h
        rcases h.append_left with h | h
        · exact .inr ⟨i, Nat.pos_of_ne_zero hzero, hi, .inr h⟩
        · rw [List.append_assoc] at h
          exact .inl (hjoin ▸ h)
  · have hlength : 1 < (piece :: rest).length := by
      simpa using List.length_pos_iff.mpr hrest
    rintro (h | h | ⟨i, hpositive, hi, h⟩)
    · exact ⟨1, Nat.one_pos, hlength, .inl (by simpa using h)⟩
    · exact ⟨1, Nat.one_pos, hlength, .inr (by simpa using h)⟩
    · have htake : rest.take i ≠ [] := by simp [hpositive.ne', hrest]
      refine ⟨i + 1, Nat.succ_pos i, Nat.succ_lt_succ hi, ?_⟩
      rw [List.take_succ_cons, List.drop_succ_cons, List.intercalate_cons_of_ne_nil htake]
      refine h.imp Straddles.of_append_left fun h => ?_
      rw [List.append_assoc]
      exact h.of_append_left

theorem not_crosses_singleton : ¬T.Crosses word [piece] := by
  rintro ⟨i, hpositive, hi, -⟩
  rw [List.length_singleton] at hi
  omega

end Crosses

section Replace

variable {T word} {token : β} {value : β → List α} {pieces : List (List α)}

/-- The text after the replacement expands piece by piece. -/
theorem expand_intercalate_text (hvalue : value token = word) :
    expand value (T.scan ((T.text token).intercalate pieces)) =
      word.intercalate (pieces.map fun piece => expand value (T.scan piece)) := by
  induction pieces with
  | nil => simp [scan_nil, expand]
  | cons piece rest ih =>
      cases rest with
      | nil => simp
      | cons next rest =>
          have hmap : (next :: rest).map (fun piece => expand value (T.scan piece)) ≠ [] := by
            simp
          rw [List.intercalate_cons_cons, List.append_assoc, scan_append_text, expand_append,
            List.map_cons, List.intercalate_cons_of_ne_nil hmap, ← ih]
          simp [expand, hvalue]

/-- So does the text before it, if no token crosses an edge. -/
theorem expand_intercalate (hword : ∀ token, ¬T.text token <:+: word)
    (h : ¬T.Crosses word pieces) :
    expand value (T.scan (word.intercalate pieces)) =
      word.intercalate (pieces.map fun piece => expand value (T.scan piece)) := by
  induction pieces with
  | nil => simp [scan_nil, expand]
  | cons piece rest ih =>
      cases rest with
      | nil => simp
      | cons next rest =>
          rw [crosses_cons_iff (List.cons_ne_nil _ _), not_or, not_or] at h
          obtain ⟨hpiece, hboth, hrest⟩ := h
          rw [List.intercalate_cons_cons, scan_append hboth, expand_append, ih hrest,
            scan_append fun hstraddles => hpiece ?_, scan_eq_map_inl hword, expand_append,
            expand_map_inl]
          · simp [List.intercalate_cons_cons]
          · obtain ⟨x, p, s, y, token, hx, hy, hp, hs, ht⟩ := hstraddles
            exact ⟨x, p, s, y ++ word.intercalate (next :: rest), token, hx, by simp [hy], hp, hs,
              ht⟩

/-- **Where no token crosses an edge, the replacement does not change the expansion.** -/
theorem expand_replace (hword : ∀ token, ¬T.text token <:+: word) (hvalue : value token = word)
    (h : ¬T.Crosses word pieces) :
    expand value (T.scan ((T.text token).intercalate pieces)) =
      expand value (T.scan (word.intercalate pieces)) := by
  rw [expand_intercalate_text hvalue, expand_intercalate hword h]

/-- The pieces expand to no more than the text, and to less if a token crosses an edge. -/
theorem length_expand_intercalate (hword : ∀ token, ¬T.text token <:+: word)
    (hgain : ∀ token, T.text token <:+: word.intercalate pieces →
      (T.text token).length < (value token).length) :
    (word.intercalate (pieces.map fun piece => expand value (T.scan piece))).length ≤
        (expand value (T.scan (word.intercalate pieces))).length ∧
      (T.Crosses word pieces →
        (word.intercalate (pieces.map fun piece => expand value (T.scan piece))).length <
          (expand value (T.scan (word.intercalate pieces))).length) := by
  induction pieces with
  | nil => exact ⟨by simp, fun ⟨i, _, hi, _⟩ => absurd hi (Nat.not_lt_zero i)⟩
  | cons piece rest ih =>
      cases rest with
      | nil => exact ⟨by simp, fun h => absurd h not_crosses_singleton⟩
      | cons next rest =>
          have hjoin : word.intercalate (piece :: next :: rest) =
              piece ++ (word ++ word.intercalate (next :: rest)) := by
            rw [List.intercalate_cons_cons, List.append_assoc]
          rw [hjoin] at hgain ⊢
          obtain ⟨hle, hlt⟩ := ih fun token h => hgain token
            (h.trans ⟨piece ++ word, [], by simp⟩)
          obtain ⟨hfirst, hfirstLt⟩ := length_expand_append hgain
          obtain ⟨hsecond, hsecondLt⟩ := length_expand_append
            fun token h => hgain token (h.trans (List.suffix_append _ _).isInfix)
          rw [scan_eq_map_inl hword, expand_map_inl] at hsecond hsecondLt
          have hmap : (next :: rest).map (fun piece => expand value (T.scan piece)) ≠ [] := by
            simp
          rw [List.map_cons, List.intercalate_cons_of_ne_nil hmap, List.length_append,
            List.length_append]
          refine ⟨by omega, fun h => ?_⟩
          rw [crosses_cons_iff (List.cons_ne_nil _ _)] at h
          rcases h with h | h | h
          · have := hfirstLt h
            omega
          · rcases h.append_left with h | h
            · have := hsecondLt h
              omega
            · have := hfirstLt h
              omega
          · have := hlt h
            omega

/-- **The replacement never makes the expansion longer, and makes it shorter if
a token crosses an edge.** -/
theorem length_expand_replace (hword : ∀ token, ¬T.text token <:+: word)
    (hvalue : value token = word)
    (hgain : ∀ token, T.text token <:+: word.intercalate pieces →
      (T.text token).length < (value token).length) :
    (expand value (T.scan ((T.text token).intercalate pieces))).length ≤
        (expand value (T.scan (word.intercalate pieces))).length ∧
      (T.Crosses word pieces →
        (expand value (T.scan ((T.text token).intercalate pieces))).length <
          (expand value (T.scan (word.intercalate pieces))).length) := by
  rw [expand_intercalate_text hvalue]
  exact length_expand_intercalate hword hgain

/-- The tokens of the text after the replacement are the new one and tokens that were there. -/
theorem infix_intercalate_text {other : β}
    (h : T.text other <:+: (T.text token).intercalate pieces) :
    other = token ∨ T.text other <:+: word.intercalate pieces := by
  suffices hmem : other = token ∨ ∃ piece ∈ pieces, T.text other <:+: piece by
    exact hmem.imp_right fun ⟨piece, hpiece, h⟩ => h.trans (infix_intercalate hpiece)
  rw [← inr_mem_scan_iff] at h
  induction pieces with
  | nil => simp [scan_nil] at h
  | cons piece rest ih =>
      cases rest with
      | nil =>
          rw [List.intercalate_singleton, inr_mem_scan_iff] at h
          exact .inr ⟨piece, List.mem_singleton_self piece, h⟩
      | cons next rest =>
          rw [List.intercalate_cons_cons, List.append_assoc, scan_append_text, List.mem_append,
            List.mem_cons] at h
          rcases h with h | h | h
          · exact .inr ⟨piece, List.mem_cons_self, inr_mem_scan_iff.1 h⟩
          · exact .inl (Sum.inr.inj h)
          · obtain h | ⟨other, hother, h⟩ := ih h
            · exact .inl h
            · exact .inr ⟨other, List.mem_cons_of_mem _ hother, h⟩

end Replace

end Hepha.Tokens
