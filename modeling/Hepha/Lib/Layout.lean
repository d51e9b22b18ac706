import Mathlib.Data.List.Basic

/-!
# Records in one text

Texts that are written one after the other run together: the whole says no
more where one ends and the next begins.  It says it again once the lengths
are known, and then the records can be read back one by one.  The layout of
a record is whatever fixes the length of its text and, with the text, the
record.
-/

namespace Hepha.Layout

variable {ρ α κ ε : Type*} {text : ρ → List α} {layout : ρ → κ} {essence : ρ → ε}

/-- Records of the same layouts are read back from what their texts make up. -/
theorem map_eq_of_flatMap_eq
    (hlength : ∀ r s, layout r = layout s → (text r).length = (text s).length)
    (hread : ∀ r s, layout r = layout s → text r = text s → essence r = essence s)
    {rs ss : List ρ} (hlayout : rs.map layout = ss.map layout)
    (htext : rs.flatMap text = ss.flatMap text) : rs.map essence = ss.map essence := by
  induction rs generalizing ss with
  | nil =>
      have hnil : ss = [] := List.map_eq_nil_iff.mp hlayout.symm
      rw [hnil]
  | cons r rs ih =>
      cases ss with
      | nil => cases hlayout
      | cons s ss =>
          obtain ⟨hhead, htail⟩ := List.cons.inj hlayout
          rw [List.flatMap_cons, List.flatMap_cons] at htext
          obtain ⟨hfirst, hrest⟩ := List.append_inj htext (hlength r s hhead)
          rw [List.map_cons, List.map_cons, hread r s hhead hfirst, ih htail hrest]

/-- A joined list is read back when the lengths of its items are known. -/
theorem eq_of_intercalate_eq {sep : List α} {xs ys : List (List α)}
    (hlength : xs.map List.length = ys.map List.length)
    (h : sep.intercalate xs = sep.intercalate ys) : xs = ys := by
  induction xs generalizing ys with
  | nil => exact (List.map_eq_nil_iff.mp hlength.symm).symm
  | cons x xs ih =>
      cases ys with
      | nil => cases hlength
      | cons y ys =>
          obtain ⟨hhead, htail⟩ := List.cons.inj hlength
          cases xs with
          | nil =>
              have hnil : ys = [] := List.map_eq_nil_iff.mp htail.symm
              subst hnil
              rw [List.intercalate_singleton, List.intercalate_singleton] at h
              rw [h]
          | cons x' xs =>
              cases ys with
              | nil => cases htail
              | cons y' ys =>
                  rw [List.intercalate_cons_cons, List.intercalate_cons_cons,
                    List.append_assoc, List.append_assoc] at h
                  obtain ⟨hfirst, hrest⟩ := List.append_inj h hhead
                  rw [hfirst, ih htail (List.append_cancel_left hrest)]

/-- Records that are known from text and layout are read back themselves. -/
theorem eq_of_flatMap_eq
    (hlength : ∀ r s, layout r = layout s → (text r).length = (text s).length)
    (hread : ∀ r s, layout r = layout s → text r = text s → r = s)
    {rs ss : List ρ} (hlayout : rs.map layout = ss.map layout)
    (htext : rs.flatMap text = ss.flatMap text) : rs = ss := by
  have h := @map_eq_of_flatMap_eq _ _ _ _ text layout id hlength hread rs ss hlayout htext
  rwa [List.map_id, List.map_id] at h

end Hepha.Layout
