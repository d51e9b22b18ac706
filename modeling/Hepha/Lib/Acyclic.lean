import Mathlib.Data.List.Basic
import Mathlib.Logic.Relation

/-!
# Acyclic relations

A relation is acyclic when no element can be reached from itself.  The relations
here grow with a list of keys: a new key comes last, and it brings edges from
itself to keys that are already there.  Then every edge leads backwards in the
list, whatever is appended later.

* `Backward.append`: one new key with its edges;
* `Backward.acyclic`: edges that lead backwards make no cycle.

An edge between old keys makes no cycle if and only if its end does not lead
back to its start already (`Acyclic.add_iff`).
-/

namespace Hepha

variable {κ : Type*}

/-- No element is reached from itself. -/
def Acyclic (edge : κ → κ → Prop) : Prop :=
  ∀ a, ¬ Relation.TransGen edge a a

/-- A rank that falls along every edge excludes cycles. -/
theorem acyclic_of_rank {edge : κ → κ → Prop} (rank : κ → ℕ)
    (hrank : ∀ a b, edge a b → rank b < rank a) : Acyclic edge := by
  have hpath : ∀ a b, Relation.TransGen edge a b → rank b < rank a := by
    intro a b hab
    induction hab with
    | single h => exact hrank _ _ h
    | tail _ h ih => exact Nat.lt_trans (hrank _ _ h) ih
  intro a ha
  exact Nat.lt_irrefl _ (hpath a a ha)

theorem Acyclic.mono {edge edge' : κ → κ → Prop} (h : Acyclic edge)
    (hedge : ∀ a b, edge' a b → edge a b) : Acyclic edge' :=
  fun a ha => h a (Relation.TransGen.mono hedge _ _ ha)

/-- **One more edge makes a cycle exactly if its end leads back to its start.** -/
theorem Acyclic.add_iff {edge edge' : κ → κ → Prop} (h : Acyclic edge) {a b : κ}
    (hedge : ∀ x y, edge' x y ↔ edge x y ∨ x = a ∧ y = b) :
    Acyclic edge' ↔ ¬ Relation.ReflTransGen edge b a := by
  constructor
  · intro hacyclic hback
    have hedges : Relation.ReflTransGen edge' b a :=
      Relation.ReflTransGen.mono (fun x y hxy => (hedge x y).mpr (.inl hxy)) _ _ hback
    exact hacyclic a (.head' ((hedge a b).mpr (.inr ⟨rfl, rfl⟩)) hedges)
  · intro hback
    -- a path uses old edges only, or comes to `a` and leaves from `b` by old edges
    have hpath : ∀ x y, Relation.TransGen edge' x y → Relation.TransGen edge x y ∨
        Relation.ReflTransGen edge x a ∧ Relation.ReflTransGen edge b y := by
      intro x y hxy
      induction hxy with
      | single hlast =>
          rcases (hedge _ _).mp hlast with hold | ⟨rfl, rfl⟩
          · exact .inl (.single hold)
          · exact .inr ⟨.refl, .refl⟩
      | tail _ hlast ih =>
          rcases (hedge _ _).mp hlast with hold | ⟨rfl, rfl⟩
          · rcases ih with hpath | ⟨hto, hfrom⟩
            · exact .inl (hpath.tail hold)
            · exact .inr ⟨hto, hfrom.tail hold⟩
          · rcases ih with hpath | ⟨-, hfrom⟩
            · exact .inr ⟨hpath.to_reflTransGen, .refl⟩
            · exact absurd hfrom hback
    intro x hx
    rcases hpath x x hx with hold | ⟨hto, hfrom⟩
    · exact h x hold
    · exact hback (hfrom.trans hto)

variable [DecidableEq κ] {keys : List κ} {edge : κ → κ → Prop}

/-- Every edge leads from a key to one before it. -/
def Backward (keys : List κ) (edge : κ → κ → Prop) : Prop :=
  ∀ a b, edge a b → a ∈ keys ∧ keys.idxOf b < keys.idxOf a

theorem Backward.mem_target (h : Backward keys edge) {a b : κ} (hedge : edge a b) : b ∈ keys := by
  obtain ⟨ha, hlt⟩ := h a b hedge
  exact List.idxOf_lt_length_iff.mp (Nat.lt_trans hlt (List.idxOf_lt_length_iff.mpr ha))

theorem Backward.acyclic (h : Backward keys edge) : Acyclic edge :=
  acyclic_of_rank keys.idxOf fun a b hedge => (h a b hedge).2

/-- **A new key with edges to old keys leaves every edge backward.** -/
theorem Backward.append (h : Backward keys edge) {key : κ} (hnew : key ∉ keys)
    {edge' : κ → κ → Prop}
    (hedge : ∀ a b, edge' a b → edge a b ∨ a = key ∧ b ∈ keys) :
    Backward (keys ++ [key]) edge' := by
  intro a b hab
  rcases hedge a b hab with hold | ⟨rfl, hb⟩
  · obtain ⟨ha, hlt⟩ := h a b hold
    refine ⟨List.mem_append_left _ ha, ?_⟩
    rwa [List.idxOf_append_of_mem ha, List.idxOf_append_of_mem (h.mem_target hold)]
  · refine ⟨by simp, ?_⟩
    rw [List.idxOf_append_of_mem hb, List.idxOf_append_of_notMem hnew]
    exact Nat.lt_of_lt_of_le (List.idxOf_lt_length_iff.mpr hb) (Nat.le_add_right _ _)

/-- The same when no key is new. -/
theorem Backward.mono (h : Backward keys edge) {edge' : κ → κ → Prop}
    (hedge : ∀ a b, edge' a b → edge a b) : Backward keys edge' :=
  fun a b hab => h a b (hedge a b hab)

end Hepha
