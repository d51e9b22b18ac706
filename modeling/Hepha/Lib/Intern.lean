import Mathlib.Data.List.Basic
import Mathlib.Data.List.Infix
import Mathlib.Data.List.Nodup

/-!
# Interning

A list is written as references into a catalog of its different items.  A catalog only
grows at its end, so references stay valid; and a catalog in another order has the same
items, so references are carried over.
-/

namespace Hepha

variable {α : Type} [DecidableEq α]

/-- The place of an item in the catalog, which gets the item if it is new. -/
def intern (catalog : List α) (item : α) : List α × ℕ :=
  if item ∈ catalog then (catalog, catalog.idxOf item) else (catalog ++ [item], catalog.length)

/-- The items of a list, one after the other. -/
def internAll : List α → List α → List α × List ℕ
  | catalog, [] => (catalog, [])
  | catalog, item :: rest =>
      let next := intern catalog item
      let last := internAll next.1 rest
      (last.1, next.2 :: last.2)

omit [DecidableEq α] in
/-- The items at the given places; nothing where a place is not in the catalog. -/
def select (catalog : List α) (references : List ℕ) : Option (List α) :=
  references.mapM (catalog[·]?)

section Select

omit [DecidableEq α]

variable {catalog later : List α} {references : List ℕ} {items : List α}

@[simp] theorem select_nil : select catalog [] = some [] := rfl

theorem select_cons {reference : ℕ} :
    select catalog (reference :: references) = some items ↔
      ∃ item rest, catalog[reference]? = some item ∧ select catalog references = some rest ∧
        items = item :: rest := by
  simp only [select, List.mapM_cons, Option.bind_eq_bind, Option.bind_eq_some_iff, Option.pure_def,
    Option.some.injEq]
  constructor
  · rintro ⟨item, hitem, rest, hrest, rfl⟩
    exact ⟨item, rest, hitem, hrest, rfl⟩
  · rintro ⟨item, rest, hitem, hrest, rfl⟩
    exact ⟨item, hitem, rest, hrest, rfl⟩

theorem length_select (h : select catalog references = some items) :
    items.length = references.length := by
  induction references generalizing items with
  | nil =>
      obtain rfl := Option.some.inj h
      rfl
  | cons reference rest ih =>
      obtain ⟨item, others, -, hothers, rfl⟩ := select_cons.1 h
      rw [List.length_cons, List.length_cons, ih hothers]

/-- References that are carried over to another catalog. -/
theorem select_map {f : ℕ → ℕ} (h : select catalog references = some items)
    (hf : ∀ i item, catalog[i]? = some item → later[f i]? = some item) :
    select later (references.map f) = some items := by
  induction references generalizing items with
  | nil =>
      obtain rfl := Option.some.inj h
      rfl
  | cons reference rest ih =>
      obtain ⟨item, others, hitem, hothers, rfl⟩ := select_cons.1 h
      exact select_cons.2 ⟨item, others, hf _ _ hitem, ih hothers, rfl⟩

/-- References stay valid while the catalog grows at its end. -/
theorem select_of_prefix (h : select catalog references = some items)
    (hlater : catalog <+: later) : select later references = some items := by
  have hkeep (i : ℕ) (item : α) (hitem : catalog[i]? = some item) :
      later[id i]? = some item := by
    obtain ⟨added, rfl⟩ := hlater
    obtain ⟨hlt, -⟩ := List.getElem?_eq_some_iff.mp hitem
    rw [id_eq, List.getElem?_append_left hlt, hitem]
  have hsame := select_map h hkeep
  rwa [List.map_id] at hsame

end Select

section Intern

variable {catalog later : List α} {item : α} {items : List α} {references : List ℕ}

theorem prefix_intern : catalog <+: (intern catalog item).1 := by
  unfold intern
  split
  · exact List.prefix_refl _
  · exact List.prefix_append _ _

theorem getElem?_intern : (intern catalog item).1[(intern catalog item).2]? = some item := by
  unfold intern
  split
  · rename_i hmem
    exact List.getElem?_idxOf hmem
  · exact List.getElem?_concat_length

theorem nodup_intern (h : catalog.Nodup) : (intern catalog item).1.Nodup := by
  unfold intern
  split
  · exact h
  · rename_i hnew
    exact List.nodup_append_comm.mp (List.nodup_cons.mpr ⟨hnew, h⟩)

theorem prefix_internAll : catalog <+: (internAll catalog items).1 := by
  induction items generalizing catalog with
  | nil => exact List.prefix_refl _
  | cons item rest ih => exact prefix_intern.trans ih

theorem nodup_internAll (h : catalog.Nodup) : (internAll catalog items).1.Nodup := by
  induction items generalizing catalog with
  | nil => exact h
  | cons item rest ih => exact ih (nodup_intern h)

/-- **The references of a list select the list.** -/
theorem select_internAll :
    select (internAll catalog items).1 (internAll catalog items).2 = some items := by
  induction items generalizing catalog with
  | nil => rfl
  | cons item rest ih =>
      refine select_cons.2 ⟨item, rest, ?_, ih, rfl⟩
      -- the first reference is valid in the catalog that has grown
      obtain ⟨added, hadded⟩ := @prefix_internAll _ _ (intern catalog item).1 rest
      have hfirst := @getElem?_intern _ _ catalog item
      obtain ⟨hlt, -⟩ := List.getElem?_eq_some_iff.mp hfirst
      show (internAll (intern catalog item).1 rest).1[(intern catalog item).2]? = some item
      rw [← hadded, List.getElem?_append_left hlt, hfirst]

end Intern

end Hepha
