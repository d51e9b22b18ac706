import Mathlib.Data.Nat.Notation
import Mathlib.Logic.Relation

/-!
# Programs and their surroundings

A program makes requests and goes on with what is answered.  The surroundings have a
state.  They answer a request in one step; between two requests other parties may move
the state.

`Ensures` says that one property holds of every state that is reached, whatever is
answered and whoever moves, and another one of the result and the state in the end.

* `Ensures.of_reaches` connects it with the steps;
* `Ensures.request`, `Ensures.bind` and `Yields.ensures` are the rules: an assertion is
  carried along when the moves uphold it, and through all requests that do not matter.
-/

namespace Hepha.Interaction

open Relation

/-! ## Programs -/

/-- A program: its result, or a request and what it does with each answer. -/
inductive Program (ω : Type) (ρ : ω → Type) (α : Type)
  | done (result : α)
  | ask (request : ω) (next : ρ request → Program ω ρ α)

variable {ω : Type} {ρ : ω → Type} {α β σ : Type}

namespace Program

def bind : Program ω ρ α → (α → Program ω ρ β) → Program ω ρ β
  | done a, f => f a
  | ask r next, f => ask r fun b => (next b).bind f

instance : Monad (Program ω ρ) where
  pure := done
  bind := bind

/-- The program that makes one request. -/
def request (r : ω) : Program ω ρ (ρ r) := ask r done

@[simp] theorem pure_eq (a : α) : (pure a : Program ω ρ α) = done a := rfl

@[simp] theorem bind_eq (p : Program ω ρ α) (f : α → Program ω ρ β) : p >>= f = p.bind f := rfl

@[simp] theorem done_bind (a : α) (f : α → Program ω ρ β) : (done a).bind f = f a := rfl

@[simp] theorem request_bind (r : ω) (f : ρ r → Program ω ρ β) :
    (request r : Program ω ρ (ρ r)).bind f = ask r f := rfl

end Program

open Program

/-! ## Runs -/

/-- What answers a program, and what happens besides. -/
structure Surroundings (ω : Type) (ρ : ω → Type) (σ : Type) where
  answers : σ → (r : ω) → ρ r → σ → Prop
  moves : σ → σ → Prop

inductive Step (S : Surroundings ω ρ σ) : σ × Program ω ρ α → σ × Program ω ρ α → Prop
  | answer {s t : σ} {r : ω} {next : ρ r → Program ω ρ α} {b : ρ r} (h : S.answers s r b t) :
      Step S (s, .ask r next) (t, next b)
  | move {s t : σ} {p : Program ω ρ α} (h : S.moves s t) : Step S (s, p) (t, p)

abbrev Reaches (S : Surroundings ω ρ σ) :
    σ × Program ω ρ α → σ × Program ω ρ α → Prop :=
  ReflTransGen (Step S)

/-- The first requests of a program, answered by a function of the state. -/
def play (answer : σ → (r : ω) → ρ r × σ) : ℕ → σ × Program ω ρ α → σ × Program ω ρ α
  | n + 1, (s, .ask r next) => play answer n ((answer s r).2, next (answer s r).1)
  | _, c => c

theorem reaches_play {S : Surroundings ω ρ σ} {answer : σ → (r : ω) → ρ r × σ}
    (h : ∀ s r, S.answers s r (answer s r).1 (answer s r).2) :
    ∀ (n : ℕ) (c : σ × Program ω ρ α), Reaches S c (play answer n c)
  | 0, (_, .done _) | 0, (_, .ask _ _) | _ + 1, (_, .done _) => .refl
  | n + 1, (s, .ask r _) => .head (.answer (h s r)) (reaches_play h n _)

/-! ## What is ensured -/

/-- From `s` on, every state is safe, and `post` holds in the end. -/
def Ensures (S : Surroundings ω ρ σ) (safe : σ → Prop) (post : α → σ → Prop) :
    Program ω ρ α → σ → Prop
  | .done a, s => ∀ t, ReflTransGen S.moves s t → safe t ∧ post a t
  | .ask r next, s => ∀ t, ReflTransGen S.moves s t →
      safe t ∧ ∀ b u, S.answers t r b u → Ensures S safe post (next b) u

variable {S : Surroundings ω ρ σ} {safe : σ → Prop} {post : α → σ → Prop}

theorem Ensures.step {s t : σ} {p q : Program ω ρ α} (h : Ensures S safe post p s)
    (hstep : Step S (s, p) (t, q)) : Ensures S safe post q t := by
  cases hstep with
  | answer hanswer => exact (h s .refl).2 _ _ hanswer
  | move hmove =>
      cases p with
      | done a => exact fun u hu => h u (.head hmove hu)
      | ask r next => exact fun u hu => h u (.head hmove hu)

theorem Ensures.safe_now {s : σ} {p : Program ω ρ α} (h : Ensures S safe post p s) : safe s := by
  cases p with
  | done a => exact (h s .refl).1
  | ask r next => exact (h s .refl).1

/-- **Every state that is reached is safe, and a result meets the postcondition.** -/
theorem Ensures.of_reaches {s t : σ} {p q : Program ω ρ α} (h : Ensures S safe post p s)
    (hreach : Reaches S (s, p) (t, q)) : safe t ∧ ∀ a, q = .done a → post a t := by
  have hall : ∀ c, Reaches S (s, p) c → Ensures S safe post c.2 c.1 := by
    intro c hc
    induction hc with
    | refl => exact h
    | tail _ hstep ih => exact ih.step hstep
  have hend := hall (t, q) hreach
  refine ⟨hend.safe_now, ?_⟩
  rintro a rfl
  exact (hend t .refl).2

theorem Ensures.mono {post' : α → σ → Prop} (hpost : ∀ a t, post a t → post' a t) :
    ∀ {p : Program ω ρ α} {s : σ}, Ensures S safe post p s → Ensures S safe post' p s
  | .done a, _, h => fun t ht => ⟨(h t ht).1, hpost a t (h t ht).2⟩
  | .ask _ _, _, h => fun t ht => ⟨(h t ht).1, fun b u hu => ((h t ht).2 b u hu).mono hpost⟩

/-- The end of the first program is a state from which the second one ensures the rest. -/
theorem Ensures.bind {post : β → σ → Prop} {f : α → Program ω ρ β} :
    ∀ {p : Program ω ρ α} {s : σ},
      Ensures S safe (fun a t => Ensures S safe post (f a) t) p s → Ensures S safe post (p.bind f) s
  | .done _, s, h => (h s .refl).2
  | .ask _ _, _, h => fun t ht => ⟨(h t ht).1, fun b u hu => ((h t ht).2 b u hu).bind⟩

/-- A program that is run where the precondition holds. -/
def Triple (S : Surroundings ω ρ σ) (safe : σ → Prop) (P : σ → Prop) (p : Program ω ρ α)
    (post : α → σ → Prop) : Prop :=
  ∀ s, P s → Ensures S safe post p s

theorem Triple.bind {P : σ → Prop} {mid : α → σ → Prop} {post : β → σ → Prop}
    {p : Program ω ρ α} {f : α → Program ω ρ β} (hp : Triple S safe P p mid)
    (hf : ∀ a, Triple S safe (mid a) (f a) post) : Triple S safe P (p.bind f) post :=
  fun s hs => .bind ((hp s hs).mono fun a t ht => hf a t ht)

/-! ## Assertions -/

/-- An assertion that the moves uphold, about safe states only. -/
structure Upheld (S : Surroundings ω ρ σ) (safe : σ → Prop) (P : σ → Prop) : Prop where
  moves : ∀ s t, P s → S.moves s t → P t
  safe : ∀ s, P s → safe s

variable {P : σ → Prop}

theorem Upheld.moved (h : Upheld S safe P) {s t : σ} (hs : P s)
    (hmoves : ReflTransGen S.moves s t) : P t := by
  induction hmoves with
  | refl => exact hs
  | tail _ hmove ih => exact h.moves _ _ ih hmove

theorem Ensures.done {a : α} {s : σ} (h : Upheld S safe (post a)) (hs : post a s) :
    Ensures S safe post (.done a) s :=
  fun _ ht => ⟨h.safe _ (h.moved hs ht), h.moved hs ht⟩

/-- A request that is made where the assertion holds. -/
theorem Ensures.ask {r : ω} {next : ρ r → Program ω ρ α} {s : σ} (h : Upheld S safe P) (hs : P s)
    (hnext : ∀ t b u, P t → S.answers t r b u → Ensures S safe post (next b) u) :
    Ensures S safe post (.ask r next) s :=
  fun t ht => ⟨h.safe t (h.moved hs ht), fun b u hu => hnext t b u (h.moved hs ht) hu⟩

/-! ## Requests that do not matter -/

/-- All requests of a program are of a kind, and all results. -/
def Yields (quiet : ω → Prop) (R : α → Prop) : Program ω ρ α → Prop
  | .done a => R a
  | .ask r next => quiet r ∧ ∀ b, Yields quiet R (next b)

variable {quiet : ω → Prop} {R : α → Prop}

@[simp] theorem yields_done {a : α} : Yields quiet R (.done a : Program ω ρ α) ↔ R a := .rfl

@[simp] theorem yields_ask {r : ω} {next : ρ r → Program ω ρ α} :
    Yields quiet R (.ask r next) ↔ quiet r ∧ ∀ b, Yields quiet R (next b) := .rfl

theorem Yields.bind {R' : β → Prop} {f : α → Program ω ρ β} :
    ∀ {p : Program ω ρ α}, Yields quiet R p → (∀ a, R a → Yields quiet R' (f a)) →
      Yields quiet R' (p.bind f)
  | .done a, h, hf => hf a h
  | .ask _ _, h, hf => ⟨h.1, fun b => (h.2 b).bind hf⟩

theorem Yields.ite {c : Prop} [Decidable c] {p q : Program ω ρ α}
    (hp : c → Yields quiet R p) (hq : ¬c → Yields quiet R q) :
    Yields quiet R (if c then p else q) := by
  by_cases hc : c
  · rw [if_pos hc]
    exact hp hc
  · rw [if_neg hc]
    exact hq hc

theorem Yields.imp {R' : α → Prop} (himp : ∀ a, R a → R' a) :
    ∀ {p : Program ω ρ α}, Yields quiet R p → Yields quiet R' p
  | .done a, h => himp a h
  | .ask _ _, h => ⟨h.1, fun b => (h.2 b).imp himp⟩

/-- An assertion that the quiet requests keep is carried through a program that makes no
others. -/
theorem Yields.ensures (h : Upheld S safe P)
    (hquiet : ∀ s r b t, quiet r → P s → S.answers s r b t → P t) :
    ∀ {p : Program ω ρ α} {s : σ}, Yields quiet R p → P s →
      Ensures S safe (fun a t => R a ∧ P t) p s
  | .done _, _, hp, hs => fun _ ht => ⟨h.safe _ (h.moved hs ht), hp, h.moved hs ht⟩
  | .ask _ _, _, hp, hs => .ask h hs fun t b u ht hu =>
      (hp.2 b).ensures h hquiet (hquiet t _ b u hp.1 ht hu)

end Hepha.Interaction
