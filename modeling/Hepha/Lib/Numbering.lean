import Mathlib.Data.List.Basic
import Mathlib.Data.List.Count
import Mathlib.Data.List.Nodup
import Mathlib.Data.List.Induction

/-!
# Numbered names

The first item with a name keeps it, and every later one gets the name with its number.
The names that result are different if and only if no name is a numbered one by itself
(`nodup_numberAll_iff`).
-/

namespace Hepha

variable {α : Type} [BEq α] (number : α → ℕ → α)

/-- The name of the next item, behind the names of the items before it. -/
def numberNext (seen : List α) (name : α) : α :=
  if seen.count name = 0 then name else number name (seen.count name + 1)

/-- The names of the items, behind others. -/
def numberFrom : List α → List α → List α
  | _, [] => []
  | seen, name :: rest => numberNext number seen name :: numberFrom (seen ++ [name]) rest

def numberAll (names : List α) : List α :=
  numberFrom number [] names

variable {number}

theorem numberFrom_append (seen names others : List α) :
    numberFrom number seen (names ++ others) =
      numberFrom number seen names ++ numberFrom number (seen ++ names) others := by
  induction names generalizing seen with
  | nil => rw [List.nil_append, List.append_nil, numberFrom, List.nil_append]
  | cons name rest ih =>
      rw [List.cons_append, numberFrom, numberFrom, ih, List.append_assoc, List.singleton_append,
        List.cons_append]

theorem numberAll_append_singleton (names : List α) (name : α) :
    numberAll number (names ++ [name]) =
      numberAll number names ++ [numberNext number names name] := by
  rw [numberAll, numberFrom_append]
  rfl

theorem count_append_singleton (names : List α) (last name : α) :
    (names ++ [last]).count name = names.count name + if last == name then 1 else 0 := by
  rw [List.count_append, List.count_singleton]

/-- A name that is given so often is also given so often with one more behind it. -/
theorem le_count_append {names : List α} {name : α} {k : ℕ} (hk : k ≤ names.count name)
    (last : α) : k ≤ (names ++ [last]).count name :=
  Nat.le_trans hk ((List.sublist_append_left names [last]).count_le name)

variable [LawfulBEq α]

/-- A name is one of those given, or one of those with its number. -/
theorem mem_numberAll {names : List α} {x : α} :
    x ∈ numberAll number names ↔
      x ∈ names ∨ ∃ name k, 2 ≤ k ∧ k ≤ names.count name ∧ x = number name k := by
  induction names using List.reverseRecOn with
  | nil => simp [numberAll, numberFrom]
  | append_singleton names last ih =>
      rw [numberAll_append_singleton, List.mem_append, ih, List.mem_append, List.mem_singleton,
        List.mem_singleton]
      constructor
      · rintro ((hx | ⟨name, k, htwo, hk, rfl⟩) | rfl)
        · exact .inl (.inl hx)
        · exact .inr ⟨name, k, htwo, le_count_append hk last, rfl⟩
        · unfold numberNext
          split
          · exact .inl (.inr rfl)
          · refine .inr ⟨last, names.count last + 1, by omega, ?_, rfl⟩
            exact Nat.le_of_eq (by rw [count_append_singleton, if_pos BEq.rfl])
      · rintro ((hx | rfl) | ⟨name, k, htwo, hk, rfl⟩)
        · exact .inl (.inl hx)
        · by_cases hmem : x ∈ names
          · exact .inl (.inl hmem)
          · right
            rw [numberNext, if_pos (List.count_eq_zero.mpr hmem)]
        · rw [count_append_singleton] at hk
          by_cases hle : k ≤ names.count name
          · exact .inl (.inr ⟨name, k, htwo, hle, rfl⟩)
          · right
            split at hk
            · rename_i hlast
              obtain rfl := eq_of_beq hlast
              have hk : k = names.count last + 1 := by omega
              rw [numberNext, if_neg (by omega), hk]
            · omega

/-- **The names are different if and only if no name is by itself another one with a number
that is given.** -/
theorem nodup_numberAll_iff
    (hnumber : ∀ a b i j, number a i = number b j → a = b ∧ i = j) (names : List α) :
    (numberAll number names).Nodup ↔
      ∀ name k, 2 ≤ k → k ≤ names.count name → number name k ∉ names := by
  induction names using List.reverseRecOn with
  | nil => simp [numberAll, numberFrom]
  | append_singleton names last ih =>
      rw [numberAll_append_singleton, ← List.concat_eq_append, List.nodup_concat, ih, mem_numberAll]
      constructor
      · rintro ⟨hlast, hnames⟩ name k htwo hk hmem
        rw [count_append_singleton] at hk
        rcases List.mem_append.mp hmem with hmem | hmem
        · by_cases hle : k ≤ names.count name
          · exact hnames name k htwo hle hmem
          · -- the number is the one that the last item gets
            split at hk
            · rename_i heq
              obtain rfl := eq_of_beq heq
              refine hlast (.inl ?_)
              have hk : k = names.count last + 1 := by omega
              rwa [numberNext, if_neg (by omega), ← hk]
            · omega
        · -- the last name is a numbered one, and so it is not given before
          have hnew : last ∉ names := by
            intro hold
            by_cases hle : k ≤ names.count name
            · exact hnames name k htwo hle (List.mem_singleton.mp hmem ▸ hold)
            · split at hk
              · rename_i heq
                obtain rfl := eq_of_beq heq
                refine hlast (.inl ?_)
                have hk : k = names.count last + 1 := by omega
                rw [numberNext, if_neg (by omega), ← hk, List.mem_singleton.mp hmem]
                exact hold
              · omega
          have hzero : names.count last = 0 := List.count_eq_zero.mpr hnew
          refine hlast (.inr ⟨name, k, htwo, ?_, ?_⟩)
          · split at hk
            · rename_i heq
              obtain rfl := eq_of_beq heq
              omega
            · exact hk
          · rw [numberNext, if_pos hzero, ← List.mem_singleton.mp hmem]
      · intro h
        refine ⟨?_, fun name k htwo hk hmem => ?_⟩
        · rintro (hmem | ⟨name, k, htwo, hk, heq⟩)
          · unfold numberNext at hmem
            split at hmem
            · rename_i hzero
              exact List.count_eq_zero.mp hzero hmem
            · refine h last (names.count last + 1) (by omega) ?_ (List.mem_append_left _ hmem)
              exact Nat.le_of_eq (by rw [count_append_singleton, if_pos BEq.rfl])
          · unfold numberNext at heq
            split at heq
            · refine h name k htwo (le_count_append hk last) ?_
              rw [← heq]
              exact List.mem_append_right _ List.mem_cons_self
            · obtain ⟨rfl, rfl⟩ := hnumber _ _ _ _ heq
              omega
        · exact h name k htwo (le_count_append hk last) (List.mem_append_left _ hmem)

end Hepha
