import Hepha.Lib.Interaction

/-!
# Recorded runs of programs that may throw

`Throwing` is a program whose result may be an error; what follows an error is left out.

The surroundings here give any answer and record it.  What a program asks for is then a
property of the record: a request is made where the record so far allows it.
-/

namespace Hepha.Interaction

open Program

variable {ω : Type} {ρ : ω → Type} {α : Type}

/-! ## Programs that may throw -/

/-- A program that throws an error or has a result. -/
def Throwing (ω : Type) (ρ : ω → Type) (ε α : Type) : Type := Program ω ρ (Except ε α)

namespace Throwing

variable {ε β : Type}

def bind (p : Throwing ω ρ ε α) (f : α → Throwing ω ρ ε β) : Throwing ω ρ ε β :=
  Program.bind p fun
    | .ok a => f a
    | .error e => .done (.error e)

instance : Monad (Throwing ω ρ ε) where
  pure a := .done (.ok a)
  bind := bind

end Throwing

/-! ## Records -/

/-- A request and its answer. -/
structure Event (ω : Type) (ρ : ω → Type) where
  request : ω
  answer : ρ request

/-- Any answer may be given, and nothing happens besides. -/
def recording : Surroundings ω ρ (List (Event ω ρ)) where
  answers t r answer u := u = t ++ [⟨r, answer⟩]
  moves _ _ := False

variable {safe : List (Event ω ρ) → Prop} {post : α → List (Event ω ρ) → Prop}
  {t : List (Event ω ρ)}

theorem not_recorded_move {u : List (Event ω ρ)}
    (h : Relation.ReflTransGen (recording (ω := ω) (ρ := ρ)).moves t u) : u = t := by
  induction h with
  | refl => rfl
  | tail _ hmove => exact absurd hmove id

theorem Ensures.recorded_done {a : α} (hsafe : safe t) (hpost : post a t) :
    Ensures recording safe post (.done a) t := by
  intro u hu
  obtain rfl := not_recorded_move hu
  exact ⟨hsafe, hpost⟩

/-- A request of which every answer is recorded. -/
theorem Ensures.recorded_ask {r : ω} {next : ρ r → Program ω ρ α} (hsafe : safe t)
    (hnext : ∀ answer, Ensures recording safe post (next answer) (t ++ [⟨r, answer⟩])) :
    Ensures recording safe post (.ask r next) t := by
  intro u hu
  obtain rfl := not_recorded_move hu
  refine ⟨hsafe, fun answer v hv => ?_⟩
  obtain rfl : v = u ++ [Event.mk r answer] := hv
  exact hnext answer

/-- The requests answered by a function. -/
def recorded (answer : (r : ω) → ρ r) (t : List (Event ω ρ)) (r : ω) :
    ρ r × List (Event ω ρ) :=
  (answer r, t ++ [⟨r, answer r⟩])

theorem reaches_recorded (answer : (r : ω) → ρ r) (n : ℕ) (p : Program ω ρ α) :
    Reaches recording ([], p)
      ((play (recorded answer) n ([], p)).1, (play (recorded answer) n ([], p)).2) :=
  reaches_play (fun _ _ => rfl) n _

theorem answers_play (answer : (r : ω) → ρ r) (n : ℕ) :
    ∀ c : List (Event ω ρ) × Program ω ρ α, (∀ e ∈ c.1, e.answer = answer e.request) →
      ∀ e ∈ (play (recorded answer) n c).1, e.answer = answer e.request := by
  induction n with
  | zero => exact fun c h => by simpa [play] using h
  | succ n ih =>
      rintro ⟨t, _ | ⟨r, next⟩⟩ h
      · simpa [play] using h
      · refine ih _ fun e he => ?_
        obtain he | he := List.mem_append.mp he
        · exact h e he
        · obtain rfl := List.mem_singleton.mp he
          rfl

/-- What is recorded of a function is what the function answers. -/
theorem answer_recorded (answer : (r : ω) → ρ r) (n : ℕ) (p : Program ω ρ α) {e : Event ω ρ}
    (h : e ∈ (play (recorded answer) n ([], p)).1) : e.answer = answer e.request :=
  answers_play answer n _ (by simp) e h

end Hepha.Interaction
