import Mathlib.Data.List.Basic
import Mathlib.Data.List.Nodup
import Mathlib.Data.List.Sort

/-!
# Histories

A history is a list of steps.  Each step goes from one state to another, and
names the version it expects and the one that results.  A history is chained
from an initial state when its versions are those of a counter and each step
starts where the one before it ended.

* `Chained.append`: a step that expects the current version and starts from the
  current state extends a chained history;
* `Chained.insertionSort_eq`: a chained history is in the order of its versions.
-/

namespace Hepha.History

/-- The versions and the states of a step. -/
structure Labels (τ σ : Type*) where
  expected : τ → ℕ
  resulting : τ → ℕ
  source : τ → σ
  target : τ → σ

variable {τ σ : Type*} (L : Labels τ σ) (init : σ)

/-- The state after a history. -/
def current (steps : List τ) : σ :=
  (steps.getLast?.map L.target).getD init

/-- Versions that count, and states that meet. -/
structure Chained (steps : List τ) : Prop where
  expected : steps.map L.expected = List.range' 0 steps.length
  resulting : steps.map L.resulting = List.range' 1 steps.length
  states : init :: steps.map L.target = steps.map L.source ++ [current L init steps]

variable {L init} {steps : List τ}

@[simp]
theorem current_nil : current L init [] = init := rfl

@[simp]
theorem current_append {t : τ} : current L init (steps ++ [t]) = L.target t := by
  simp [current]

theorem Chained.nil : Chained L init [] := ⟨rfl, rfl, rfl⟩

/-- **A step from the current version and state extends a chained history.** -/
theorem Chained.append (h : Chained L init steps) {t : τ} (hexpected : L.expected t = steps.length)
    (hresulting : L.resulting t = L.expected t + 1)
    (hsource : L.source t = current L init steps) : Chained L init (steps ++ [t]) where
  expected := by
    rw [List.map_append, h.expected, List.length_append, List.map_singleton, hexpected,
      List.length_singleton, List.range'_concat]
    simp
  resulting := by
    rw [List.map_append, h.resulting, List.length_append, List.map_singleton, hresulting,
      hexpected, List.length_singleton, List.range'_concat]
    simp [Nat.add_comm]
  states := by
    rw [List.map_append, ← List.cons_append, h.states, List.map_append, List.map_singleton,
      List.map_singleton, hsource, current_append]

theorem Chained.pairwise (h : Chained L init steps) :
    steps.Pairwise fun a b => L.resulting a < L.resulting b := by
  have hrange : (steps.map L.resulting).Pairwise (· < ·) := by
    rw [h.resulting]
    exact List.pairwise_lt_range'
  exact List.pairwise_map.mp hrange

/-- **A chained history is in the order of its versions.** -/
theorem Chained.insertionSort_eq (h : Chained L init steps) :
    (steps.insertionSort fun a b => L.resulting a ≤ L.resulting b) = steps :=
  List.Pairwise.insertionSort_eq (h.pairwise.imp Nat.le_of_lt)

/-- The last version of a chained history is its length. -/
theorem Chained.getLast (h : Chained L init steps) :
    (steps.getLast?.map L.resulting).getD 0 = steps.length := by
  rw [← List.getLast?_map, h.resulting]
  cases steps with
  | nil => rfl
  | cons t rest => simp [List.getLast?_range']

/-- The greatest version of a chained history is its length. -/
theorem Chained.foldl_max (h : Chained L init steps) :
    (steps.map L.resulting).foldl max 0 = steps.length := by
  rw [h.resulting]
  induction steps.length with
  | zero => rfl
  | succ n ih =>
      rw [List.range'_concat, List.foldl_append, ih]
      simp [Nat.add_comm]

/-- The steps count from a version and go on from a state. -/
def ChainedFrom (L : Labels τ σ) : ℕ → σ → List τ → Prop
  | _, _, [] => True
  | version, state, t :: rest =>
      L.expected t = version ∧ L.resulting t = version + 1 ∧ L.source t = state ∧
        ChainedFrom L (version + 1) (L.target t) rest

theorem chainedFrom_of_maps {version : ℕ} {state last : σ}
    (hexpected : steps.map L.expected = List.range' version steps.length)
    (hresulting : steps.map L.resulting = List.range' (version + 1) steps.length)
    (hstates : state :: steps.map L.target = steps.map L.source ++ [last]) :
    ChainedFrom L version state steps := by
  induction steps generalizing version state with
  | nil => trivial
  | cons t rest ih =>
      rw [List.map_cons, List.length_cons, List.range'_succ, List.cons.injEq] at hexpected
      rw [List.map_cons, List.length_cons, List.range'_succ, List.cons.injEq] at hresulting
      rw [List.map_cons, List.map_cons, List.cons_append, List.cons.injEq] at hstates
      exact ⟨hexpected.1, hresulting.1, hstates.1.symm, ih hexpected.2 hresulting.2 hstates.2⟩

/-- A chained history, step by step. -/
theorem Chained.chainedFrom (h : Chained L init steps) : ChainedFrom L 0 init steps :=
  chainedFrom_of_maps h.expected h.resulting h.states

end Hepha.History
