import Mathlib.Data.List.Basic
import Mathlib.Data.List.Infix

/-!
# Cutting a list at a separator

The pieces of a list between the occurrences of a separator, which are found
from the left and do not overlap.  The pieces joined with the separator are
the list; joined with something else they are the list with every one of these
occurrences replaced.
-/

namespace Hepha

variable {α : Type*} [DecidableEq α]

/-- The pieces of the text between the occurrences of a separator that is not empty. -/
def cut (sep text : List α) : List (List α) :=
  if _h : sep ≠ [] ∧ sep <+: text then [] :: cut sep (text.drop sep.length)
  else
    match text with
    | [] => [[]]
    | u :: rest => (cut sep rest).modifyHead (u :: ·)
termination_by text.length
decreasing_by
  · rw [List.length_drop]
    have hpositive := List.length_pos_iff.mpr _h.1
    have hle := _h.2.length_le
    omega
  · exact Nat.lt_succ_self _

section Cut

variable {sep text : List α}

theorem cut_sep_append (hsep : sep ≠ []) : cut sep (sep ++ text) = [] :: cut sep text := by
  rw [cut, dif_pos ⟨hsep, List.prefix_append sep text⟩, List.drop_left]

theorem cut_nil (hsep : sep ≠ []) : cut sep [] = [[]] := by
  rw [cut, dif_neg]
  simp [hsep]

theorem cut_cons {u : α} (h : ¬sep <+: u :: text) :
    cut sep (u :: text) = (cut sep text).modifyHead (u :: ·) := by
  rw [cut, dif_neg fun hstarts => h hstarts.2]

/-- The cases of a cut: an occurrence in front, the end, or one more unit. -/
theorem cut_induction {P : List α → Prop} (hsep : sep ≠ [])
    (hoccurrence : ∀ rest, P rest → P (sep ++ rest)) (hnil : P [])
    (hcons : ∀ u rest, ¬sep <+: u :: rest → P rest → P (u :: rest)) (text : List α) : P text := by
  induction hlength : text.length using Nat.strong_induction_on generalizing text with
  | _ n ih =>
      by_cases hstarts : sep <+: text
      · obtain ⟨rest, rfl⟩ := hstarts
        refine hoccurrence rest (ih rest.length ?_ rest rfl)
        have hpositive := List.length_pos_iff.mpr hsep
        rw [← hlength, List.length_append]
        omega
      · cases text with
        | nil => exact hnil
        | cons u rest =>
            exact hcons u rest hstarts (ih rest.length (hlength ▸ Nat.lt_succ_self _) rest rfl)

theorem cut_ne_nil (hsep : sep ≠ []) : cut sep text ≠ [] := by
  induction text using cut_induction hsep with
  | hoccurrence rest _ => simp [cut_sep_append hsep]
  | hnil => simp [cut_nil hsep]
  | hcons u rest hstarts ih =>
      rw [cut_cons hstarts]
      simpa using ih

omit [DecidableEq α] in
theorem modifyHead_append_intercalate (front : List α) {pieces : List (List α)}
    (h : pieces ≠ []) :
    sep.intercalate (pieces.modifyHead (front ++ ·)) = front ++ sep.intercalate pieces := by
  cases pieces with
  | nil => exact absurd rfl h
  | cons piece rest =>
      cases rest with
      | nil => simp
      | cons next rest => simp [List.intercalate_cons_cons]

/-- **The pieces joined with the separator are the text.** -/
theorem intercalate_cut (hsep : sep ≠ []) : sep.intercalate (cut sep text) = text := by
  induction text using cut_induction hsep with
  | hoccurrence rest ih =>
      rw [cut_sep_append hsep, List.intercalate_cons_of_ne_nil (cut_ne_nil hsep), ih,
        List.nil_append]
  | hnil => simp [cut_nil hsep]
  | hcons u rest hstarts ih =>
      rw [cut_cons hstarts]
      exact (modifyHead_append_intercalate [u] (cut_ne_nil hsep)).trans (by rw [ih]; rfl)

/-! ## Texts that are known -/

/-- Units that the separator does not begin with are in the first piece. -/
theorem cut_append {first : α} {tail front : List α} (hfront : first ∉ front) :
    cut (first :: tail) (front ++ text) = (cut (first :: tail) text).modifyHead (front ++ ·) := by
  induction front with
  | nil =>
      rw [List.nil_append]
      cases h : cut (first :: tail) text <;> rfl
  | cons u rest ih =>
      rw [List.mem_cons, not_or] at hfront
      have hstarts : ¬first :: tail <+: u :: (rest ++ text) := fun h =>
        hfront.1 (List.cons_prefix_cons.mp h).1
      rw [List.cons_append, cut_cons hstarts, ih hfront.2, List.modifyHead_modifyHead]
      rfl

theorem cut_eq_singleton {first : α} {tail : List α} (htext : first ∉ text) :
    cut (first :: tail) text = [text] := by
  have h : cut (first :: tail) (text ++ []) = _ := cut_append htext
  rwa [List.append_nil, cut_nil (List.cons_ne_nil _ _), List.modifyHead_cons,
    List.append_nil] at h

/-- The piece before an occurrence. -/
theorem cut_append_sep {first : α} {tail front : List α} (hfront : first ∉ front) :
    cut (first :: tail) (front ++ (first :: tail ++ text)) = front :: cut (first :: tail) text := by
  rw [cut_append hfront, cut_sep_append (List.cons_ne_nil _ _), List.modifyHead_cons,
    List.append_nil]

/-- A unit that begins the separator and no occurrence of it is in the first piece. -/
theorem cut_append_cons {first : α} {tail front : List α} (hfront : first ∉ front)
    (htail : ¬tail <+: text) :
    cut (first :: tail) (front ++ first :: text) =
      (cut (first :: tail) text).modifyHead fun piece => front ++ first :: piece := by
  have hstarts : ¬first :: tail <+: first :: text := fun h =>
    htail (List.cons_prefix_cons.mp h).2
  rw [cut_append hfront, cut_cons hstarts, List.modifyHead_modifyHead]
  rfl

end Cut

/-- A piece is a part of what the pieces are joined to. -/
theorem infix_intercalate {α : Type*} {sep piece : List α} {pieces : List (List α)}
    (h : piece ∈ pieces) : piece <:+: sep.intercalate pieces := by
  induction pieces with
  | nil => cases h
  | cons first rest ih =>
      cases rest with
      | nil =>
          rw [List.mem_singleton] at h
          simp [h]
      | cons next rest =>
          rw [List.intercalate_cons_cons, List.append_assoc]
          rcases List.mem_cons.mp h with rfl | h
          · exact (List.prefix_append _ _).isInfix
          · exact (ih h).trans ((List.suffix_append _ _).trans (List.suffix_append _ _)).isInfix

theorem mem_of_mem_intercalate {α : Type*} {sep : List α} {pieces : List (List α)} {u : α}
    (h : u ∈ sep.intercalate pieces) : u ∈ sep ∨ ∃ piece ∈ pieces, u ∈ piece := by
  induction pieces with
  | nil => cases h
  | cons first rest ih =>
      cases rest with
      | nil => exact .inr ⟨first, List.mem_cons_self, by simpa using h⟩
      | cons next rest =>
          rw [List.intercalate_cons_cons, List.append_assoc, List.mem_append, List.mem_append] at h
          rcases h with h | h | h
          · exact .inr ⟨first, List.mem_cons_self, h⟩
          · exact .inl h
          · exact (ih h).imp_right fun ⟨piece, hpiece, hu⟩ =>
              ⟨piece, List.mem_cons_of_mem _ hpiece, hu⟩

end Hepha
