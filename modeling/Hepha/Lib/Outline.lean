import Mathlib.Order.Lattice
import Mathlib.Data.List.Induction

/-!
# Outlines

Items come one after the other, each with a rank, and an item closes the open items of
its rank or a higher one: the headings of a document, or nested scopes by their depth.
The outline of a list is what is open after it.

An item is open when every item after it has a higher rank (`outline_cons`).  A list in
two parts is therefore read part by part: what the first part leaves open is cut down
by the second part as a whole (`outline_append`).
-/

namespace Hepha

variable {α β ρ : Type*} [LinearOrder ρ] (rank : α → ρ)

/-- One more item, after the open items of its rank or a higher one are closed. -/
def openItem (stack : List α) (item : α) : List α :=
  (stack.filter fun other => rank other < rank item) ++ [item]

/-- The items that are open after a list of items. -/
def outline (items : List α) : List α :=
  items.foldl (openItem rank) []

variable {rank} {items front back stack : List α} {item : α}

/-- Items that are open before a list stay open when all its items have a higher rank. -/
theorem foldl_openItem :
    items.foldl (openItem rank) stack =
      (stack.filter fun other => items.all fun item => rank other < rank item) ++
        outline rank items := by
  induction items using List.reverseRecOn with
  | nil => exact (List.append_nil _).symm ▸ (List.filter_eq_self.mpr fun _ _ => rfl).symm
  | append_singleton items item ih =>
      have hfilter :
          ((stack.filter fun other => items.all fun item => rank other < rank item).filter
          fun other => rank other < rank item) =
          stack.filter fun other => (items ++ [item]).all fun item => rank other < rank item := by
        rw [List.filter_filter]
        refine List.filter_congr fun other _ => ?_
        rw [List.all_append, Bool.and_comm]
        simp
      rw [outline, List.foldl_append, List.foldl_append, List.foldl_cons, List.foldl_cons,
        List.foldl_nil, List.foldl_nil, ih, openItem, openItem, List.filter_append, hfilter,
        List.append_assoc]
      rfl

/-- **The outline of a list in two parts.** -/
theorem outline_append :
    outline rank (front ++ back) =
      ((outline rank front).filter fun other => back.all fun item => rank other < rank item) ++
        outline rank back := by
  rw [outline, List.foldl_append]
  exact foldl_openItem

/-- An item is open when every item after it has a higher rank. -/
theorem outline_cons :
    outline rank (item :: items) =
      if items.all fun other => rank item < rank other then item :: outline rank items
      else outline rank items := by
  have hsingle : outline rank [item] = [item] := rfl
  rw [← List.singleton_append, outline_append, hsingle]
  split <;> simp_all

theorem outline_sublist : (outline rank items).Sublist items := by
  induction items with
  | nil => exact List.Sublist.refl _
  | cons item items ih =>
      rw [outline_cons]
      split
      · exact ih.cons_cons item
      · exact ih.cons item

/-- The ranks of the open items increase. -/
theorem outline_pairwise : (outline rank items).Pairwise fun a b => rank a < rank b := by
  induction items with
  | nil => exact List.Pairwise.nil
  | cons item items ih =>
      rw [outline_cons]
      split
      · rename_i hall
        refine List.pairwise_cons.mpr ⟨fun other hother => ?_, ih⟩
        simpa using List.all_eq_true.mp hall other (outline_sublist.subset hother)
      · exact ih

/-- Items of increasing ranks are all open. -/
theorem outline_of_pairwise (h : items.Pairwise fun a b => rank a < rank b) :
    outline rank items = items := by
  induction items with
  | nil => rfl
  | cons item items ih =>
      obtain ⟨hitem, hitems⟩ := List.pairwise_cons.mp h
      rw [outline_cons, ih hitems, if_pos]
      exact List.all_eq_true.mpr fun other hother => decide_eq_true (hitem other hother)

/-- What a first part leaves open is all that the second part sees of it. -/
theorem outline_outline_append :
    outline rank (outline rank front ++ back) = outline rank (front ++ back) := by
  rw [outline_append, outline_append, outline_of_pairwise outline_pairwise]

/-- Items that are read as others of the same rank. -/
theorem outline_map {rank' : β → ρ} {f : α → β} (h : ∀ item ∈ items, rank' (f item) = rank item) :
    outline rank' (items.map f) = (outline rank items).map f := by
  induction items with
  | nil => rfl
  | cons item items ih =>
      have hitem := h item List.mem_cons_self
      have hrest (other : α) (hother : other ∈ items) : rank' (f other) = rank other :=
        h other (List.mem_cons_of_mem _ hother)
      have hall : ((items.map f).all fun other => rank' (f item) < rank' other) =
          items.all fun other => rank item < rank other := by
        rw [List.all_map, hitem, Bool.eq_iff_iff, List.all_eq_true, List.all_eq_true]
        refine forall₂_congr fun other hother => ?_
        rw [Function.comp_apply, hrest other hother]
      rw [List.map_cons, outline_cons, outline_cons, ih hrest, hall]
      split <;> rfl

/-- **The open items of a list in order** are those after which all items have a
higher rank. -/
theorem outline_eq_filter {place : α → ℕ} (h : items.Pairwise fun a b => place a < place b) :
    outline rank items =
      items.filter fun a => items.all fun b => place a < place b → rank a < rank b := by
  induction items with
  | nil => rfl
  | cons item items ih =>
      obtain ⟨hitem, hitems⟩ := List.pairwise_cons.mp h
      -- the first item is before all others, so the others do not see it
      have hrest : (items.filter fun a => (item :: items).all fun b =>
          place a < place b → rank a < rank b) =
          items.filter fun a => items.all fun b => place a < place b → rank a < rank b := by
        refine List.filter_congr fun a ha => ?_
        have hlt : ¬place a < place item := Nat.lt_asymm (hitem a ha)
        simp [hlt]
      have hfirst : ((item :: items).all fun b => place item < place b → rank item < rank b) =
          items.all fun b => rank item < rank b := by
        rw [Bool.eq_iff_iff, List.all_eq_true, List.all_eq_true, List.forall_mem_cons]
        simp only [decide_eq_true_eq]
        constructor
        · exact fun hopen b hb => hopen.2 b hb (hitem b hb)
        · exact fun hlt => ⟨fun hself => absurd hself (Nat.lt_irrefl _), fun b hb _ => hlt b hb⟩
      rw [outline_cons, List.filter_cons, hfirst, hrest, ih hitems]

end Hepha
