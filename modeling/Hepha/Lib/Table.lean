import Mathlib.Data.List.Basic
import Mathlib.Data.List.Nodup

/-!
# Tables

A table is the list of its rows in the order of insertion, and a key column is
a function of the row.  `find` selects by key and `update` rewrites the rows
of a key.  The rules below are those of a column with a uniqueness constraint:
appending a row with a new key, or rewriting a row without touching its key,
keeps the keys distinct and moves no other row.
-/

namespace Hepha.Table

variable {ρ κ : Type*} [DecidableEq κ] {key : ρ → κ} {rows : List ρ}

/-- The row of a key. -/
def find (key : ρ → κ) (rows : List ρ) (k : κ) : Option ρ :=
  rows.find? fun r => key r = k

/-- The table with the rows of a key rewritten. -/
def update (key : ρ → κ) (rows : List ρ) (k : κ) (f : ρ → ρ) : List ρ :=
  rows.map fun r => if key r = k then f r else r

theorem mem_of_find {k : κ} {r : ρ} (h : find key rows k = some r) : r ∈ rows ∧ key r = k := by
  have hkey := List.find?_some h
  exact ⟨List.mem_of_find?_eq_some h, by simpa using hkey⟩

theorem find_eq_none_iff {k : κ} : find key rows k = none ↔ ∀ r ∈ rows, key r ≠ k := by
  simp [find]

theorem find_of_mem (hnodup : (rows.map key).Nodup) {r : ρ} (h : r ∈ rows) :
    find key rows (key r) = some r := by
  cases hfind : find key rows (key r) with
  | none => exact absurd rfl (find_eq_none_iff.1 hfind r h)
  | some other =>
      obtain ⟨hmem, hkey⟩ := mem_of_find hfind
      rw [List.inj_on_of_nodup_map hnodup hmem h hkey]

omit [DecidableEq κ] in
theorem nodup_append (hnodup : (rows.map key).Nodup) {r : ρ} (hnew : ∀ s ∈ rows, key s ≠ key r) :
    ((rows ++ [r]).map key).Nodup := by
  rw [List.map_append, List.map_singleton, List.nodup_append]
  refine ⟨hnodup, List.nodup_singleton _, ?_⟩
  intro a ha b hb
  obtain ⟨s, hs, rfl⟩ := List.mem_map.mp ha
  rw [List.mem_singleton] at hb
  exact hb ▸ hnew s hs

section Update

variable {k : κ} {f : ρ → ρ}

theorem map_update {α : Type*} {g : ρ → α} (hg : ∀ r ∈ rows, key r = k → g (f r) = g r) :
    (update key rows k f).map g = rows.map g := by
  rw [update, List.map_map]
  refine List.map_congr_left fun r hr => ?_
  by_cases h : key r = k
  · simp [h, hg r hr h]
  · simp [h]

theorem mem_update {r : ρ} :
    r ∈ update key rows k f ↔
      (r ∈ rows ∧ key r ≠ k) ∨ ∃ old ∈ rows, key old = k ∧ f old = r := by
  simp only [update, List.mem_map]
  constructor
  · rintro ⟨old, hold, rfl⟩
    by_cases h : key old = k
    · exact Or.inr ⟨old, hold, h, by simp [h]⟩
    · exact Or.inl ⟨by simpa [h] using hold, by simp [h]⟩
  · rintro (⟨hmem, hne⟩ | ⟨old, hold, hk, rfl⟩)
    · exact ⟨r, hmem, by simp [hne]⟩
    · exact ⟨old, hold, by simp [hk]⟩

/-- Filtering after an update that does not change what the filter sees. -/
theorem filter_update {p : ρ → Bool} (hp : ∀ r ∈ rows, key r = k → p (f r) = p r) :
    (update key rows k f).filter p = update key (rows.filter p) k f := by
  induction rows with
  | nil => rfl
  | cons r rest ih =>
      have hrest := ih fun s hs => hp s (List.mem_cons_of_mem _ hs)
      simp only [update, List.map_cons, List.filter_cons] at hrest ⊢
      by_cases h : key r = k
      · simp only [h, if_true, hp r List.mem_cons_self h]
        by_cases hpr : p r = true <;> simp [hpr, h, hrest]
      · simp only [h, if_false]
        by_cases hpr : p r = true <;> simp [hpr, h, hrest]

/-- An update leaves alone a list without the key. -/
theorem update_eq_self (h : ∀ r ∈ rows, key r ≠ k) : update key rows k f = rows := by
  rw [update]
  conv_rhs => rw [← List.map_id rows]
  refine List.map_congr_left fun r hr => ?_
  simp [h r hr]

/-- Selecting from an updated table, where the update keeps the key. -/
theorem find_update (hf : ∀ r, key (f r) = key r) (k' : κ) :
    find key (update key rows k f) k' =
      if k' = k then (find key rows k').map f else find key rows k' := by
  induction rows with
  | nil => simp [find, update]
  | cons r rest ih =>
      simp only [find, update, List.map_cons, List.find?_cons] at ih ⊢
      by_cases hr : key r = k
      · simp only [hr, if_true, hf]
        by_cases hk : k' = k
        · simp [hk]
        · simpa [hk, Ne.symm hk] using ih
      · simp only [hr, if_false]
        by_cases hk : key r = k'
        · have hne : k' ≠ k := fun h => hr (hk.trans h)
          simp [hk, hne]
        · simpa [hk] using ih

end Update

/-! ## Inserting and deleting -/

/-- Selecting from a table with one more row. -/
theorem find_append {r : ρ} (k : κ) :
    find key (rows ++ [r]) k = (find key rows k).or (if key r = k then some r else none) := by
  by_cases h : key r = k <;> simp [find, List.find?_append, h]

/-- The table with one more row, whose key must be new. -/
def insert (key : ρ → κ) (rows : List ρ) (r : ρ) : Option (List ρ) :=
  if rows.all fun s => key s ≠ key r then some (rows ++ [r]) else none

/-- The rows inserted one after the other. -/
def insertAll (key : ρ → κ) (rows new : List ρ) : Option (List ρ) :=
  new.foldlM (insert key) rows

theorem insert_eq_some {r : ρ} {after : List ρ} :
    insert key rows r = some after ↔ (∀ s ∈ rows, key s ≠ key r) ∧ after = rows ++ [r] := by
  have hall : (rows.all fun s => key s ≠ key r) = true ↔ ∀ s ∈ rows, key s ≠ key r := by simp
  by_cases hnew : ∀ s ∈ rows, key s ≠ key r
  · rw [insert, if_pos (hall.mpr hnew), Option.some.injEq]
    exact ⟨fun h => ⟨hnew, h.symm⟩, fun h => h.2.symm⟩
  · rw [insert, if_neg fun h => hnew (hall.mp h)]
    exact ⟨fun h => (nomatch h), fun h => absurd h.1 hnew⟩

/-- Rows that can be inserted are appended, and their keys are new and distinct. -/
theorem insertAll_eq_some {new after : List ρ} :
    insertAll key rows new = some after ↔
      (∀ s ∈ rows, ∀ r ∈ new, key s ≠ key r) ∧ (new.map key).Nodup ∧ after = rows ++ new := by
  induction new generalizing rows with
  | nil => simp [insertAll, eq_comm]
  | cons r new ih =>
      rw [insertAll, List.foldlM_cons, Option.bind_eq_bind, Option.bind_eq_some_iff]
      simp only [insert_eq_some]
      constructor
      · rintro ⟨_, ⟨hfirst, rfl⟩, hrest⟩
        obtain ⟨hnew, hnodup, rfl⟩ := ih.mp hrest
        refine ⟨?_, ?_, by simp⟩
        · intro s hs r' hr'
          rcases List.mem_cons.mp hr' with rfl | hr'
          · exact hfirst s hs
          · exact hnew s (List.mem_append_left _ hs) r' hr'
        · rw [List.map_cons, List.nodup_cons]
          refine ⟨fun hmem => ?_, hnodup⟩
          obtain ⟨r', hr', hkey⟩ := List.mem_map.mp hmem
          exact hnew r (by simp) r' hr' hkey.symm
      · rintro ⟨hnew, hnodup, rfl⟩
        rw [List.map_cons, List.nodup_cons] at hnodup
        refine ⟨_, ⟨fun s hs => hnew s hs r List.mem_cons_self, rfl⟩,
            ih.mpr ⟨?_, hnodup.2, by simp⟩⟩
        intro s hs r' hr'
        rcases List.mem_append.mp hs with hs | hs
        · exact hnew s hs r' (List.mem_cons_of_mem _ hr')
        · obtain rfl := List.mem_singleton.mp hs
          exact fun hkey => hnodup.1 (List.mem_map.mpr ⟨r', hr', hkey.symm⟩)

/-- Rows can be inserted in a table with distinct keys exactly if the keys stay distinct. -/
theorem insertAll_of_nodup (hnodup : (rows.map key).Nodup) {new after : List ρ} :
    insertAll key rows new = some after ↔
      ((rows ++ new).map key).Nodup ∧ rows ++ new = after := by
  rw [insertAll_eq_some, List.map_append, List.nodup_append, and_iff_right hnodup]
  simp only [List.forall_mem_map, eq_comm (a := after)]
  constructor
  · rintro ⟨hnew, hdistinct, hafter⟩
    exact ⟨⟨hdistinct, hnew⟩, hafter⟩
  · rintro ⟨⟨hdistinct, hnew⟩, hafter⟩
    exact ⟨hnew, hdistinct, hafter⟩

/-- The table without the rows of a key. -/
def delete (key : ρ → κ) (rows : List ρ) (k : κ) : List ρ :=
  rows.filter fun r => key r ≠ k

/-- Selecting from a table without the rows of a key. -/
theorem find_delete (k k' : κ) :
    find key (delete key rows k) k' = if k' = k then none else find key rows k' := by
  induction rows with
  | nil => simp [find, delete]
  | cons r rest ih =>
      simp only [find, delete, List.filter_cons, List.find?_cons] at ih ⊢
      by_cases hr : key r = k
      · rw [if_neg (by simp [hr]), ih]
        by_cases hk : k' = k
        · simp [hk]
        · simp [hk, hr, Ne.symm hk]
      · rw [if_pos (by simp [hr]), List.find?_cons]
        by_cases hk : key r = k'
        · have hne : k' ≠ k := fun h => hr (hk.trans h)
          simp [hk, hne]
        · simpa [hk] using ih

/-- The table with the row of a key replaced, or with one row more. -/
def upsert (key : ρ → κ) : List ρ → ρ → List ρ
  | [], r => [r]
  | s :: rest, r => if key s = key r then r :: rest else s :: upsert key rest r

theorem upsert_nil (r : ρ) : upsert key [] r = [r] := rfl

theorem upsert_cons (s : ρ) (rest : List ρ) (r : ρ) : upsert key (s :: rest) r =
    if key s = key r then r :: rest else s :: upsert key rest r :=
  rfl

theorem map_upsert (r : ρ) : (upsert key rows r).map key =
    if key r ∈ rows.map key then rows.map key else rows.map key ++ [key r] := by
  induction rows with
  | nil => simp [upsert_nil]
  | cons s rest ih =>
      by_cases hs : key s = key r
      · simp [upsert_cons, hs]
      · rw [upsert_cons, if_neg hs, List.map_cons, ih]
        by_cases hr : key r ∈ rest.map key
        · rw [if_pos hr, if_pos (by simp [List.mem_map.mp hr])]
          rfl
        · rw [if_neg hr, if_neg (by simpa [Ne.symm hs] using hr)]
          rfl

theorem nodup_upsert (hnodup : (rows.map key).Nodup) (r : ρ) :
    ((upsert key rows r).map key).Nodup := by
  rw [map_upsert]
  split
  · exact hnodup
  · rename_i hr
    exact List.nodup_append.mpr ⟨hnodup, List.nodup_singleton _, fun a ha b hb => by
      rw [List.mem_singleton] at hb
      exact fun hab => hr (hb ▸ hab ▸ ha)⟩

theorem upsert_of_new {r : ρ} (hnew : ∀ s ∈ rows, key s ≠ key r) :
    upsert key rows r = rows ++ [r] := by
  induction rows with
  | nil => rfl
  | cons s rest ih =>
      rw [upsert_cons, if_neg (hnew s List.mem_cons_self),
        ih fun t ht => hnew t (List.mem_cons_of_mem _ ht)]
      rfl

theorem mem_of_mem_upsert {r s : ρ} (h : s ∈ upsert key rows r) : s = r ∨ s ∈ rows := by
  induction rows with
  | nil => exact .inl (List.mem_singleton.mp h)
  | cons t rest ih =>
      rw [upsert_cons] at h
      split at h
      · exact (List.mem_cons.mp h).imp_right (List.mem_cons_of_mem _)
      · rcases List.mem_cons.mp h with rfl | h
        · exact .inr List.mem_cons_self
        · exact (ih h).imp_right (List.mem_cons_of_mem _)

/-- Selecting from a table after a row was inserted or replaced. -/
theorem find_upsert (r : ρ) (k : κ) :
    find key (upsert key rows r) k = if k = key r then some r else find key rows k := by
  induction rows with
  | nil =>
      by_cases hk : k = key r
      · simp [find, upsert_nil, hk]
      · simp [find, upsert_nil, hk, Ne.symm hk]
  | cons s rest ih =>
      by_cases hs : key s = key r
      · rw [upsert_cons, if_pos hs]
        by_cases hk : k = key r
        · simp [find, hk]
        · simp [find, hk, hs, Ne.symm hk]
      · rw [upsert_cons, if_neg hs]
        by_cases hk : key s = k
        · simp [find, hk, hk ▸ hs]
        · simpa [find, hk] using ih

end Hepha.Table
