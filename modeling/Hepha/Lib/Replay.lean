import Mathlib.Data.List.Induction
import Mathlib.Data.List.Sort

/-!
# Replaying a log

A log is a list of events, and a state is rebuilt from it by applying one event
after the other, each with its index; an event that does not fit makes the
replay fail.  Facts about a replay are proved by induction from the right: what
the empty log has and one more event keeps (`replay_induction`).

A log that is read in the order of a key needs no sorting again when the new
event comes last in that order (`insertionSort_concat`).
-/

namespace Hepha

variable {σ ε : Type*} {step : σ → ε × ℕ → Option σ} {init : σ} {events : List ε}

/-- The state after the events, each given with its index. -/
def replay (step : σ → ε × ℕ → Option σ) (init : σ) (events : List ε) : Option σ :=
  events.zipIdx.foldlM step init

@[simp]
theorem replay_nil : replay step init [] = some init := rfl

theorem replay_concat {e : ε} {b : σ} :
    replay step init (events ++ [e]) = some b ↔
      ∃ a, replay step init events = some a ∧ step a (e, events.length) = some b := by
  rw [replay, List.zipIdx_append, List.foldlM_append]
  simp only [replay, List.zipIdx_singleton, List.foldlM_cons, List.foldlM_nil,
    Nat.zero_add, Option.bind_eq_bind, Option.bind_eq_some_iff, Option.pure_def]
  constructor
  · rintro ⟨a, ha, c, hc, hb⟩
    cases hb
    exact ⟨a, ha, hc⟩
  · rintro ⟨a, ha, hb⟩
    exact ⟨a, ha, b, hb, rfl⟩

/-- **What one event keeps, a replay keeps.** -/
theorem replay_induction {P : List ε → σ → Prop} (hnil : P [] init)
    (hstep : ∀ events e a b, P events a → step a (e, events.length) = some b →
      P (events ++ [e]) b) {b : σ} (h : replay step init events = some b) : P events b := by
  induction events using List.reverseRecOn generalizing b with
  | nil =>
      cases h
      exact hnil
  | append_singleton events e ih =>
      obtain ⟨a, ha, hb⟩ := replay_concat.1 h
      exact hstep events e a b (ih ha) hb

/-- An event that comes last stays last. -/
theorem insertionSort_concat {r : ε → ε → Prop} [DecidableRel r] {e : ε}
    (h : ∀ a ∈ events, r a e) :
    (events ++ [e]).insertionSort r = events.insertionSort r ++ [e] := by
  have hinsert : ∀ (a : ε) (sorted : List ε), r a e →
      (sorted ++ [e]).orderedInsert r a = sorted.orderedInsert r a ++ [e] := by
    intro a sorted hae
    induction sorted with
    | nil => simp [hae]
    | cons b rest ih =>
        by_cases hab : r a b
        · simp [hab]
        · simp [hab, ih]
  induction events with
  | nil => rfl
  | cons a rest ih =>
      rw [List.cons_append, List.insertionSort_cons, List.insertionSort_cons,
        ih fun b hb => h b (List.mem_cons_of_mem _ hb)]
      exact hinsert a _ (h a List.mem_cons_self)

end Hepha
