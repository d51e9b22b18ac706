import Mathlib.Tactic.Common

/-!
# Transactions

A body of a transaction reads and writes a state and may throw.  What it wrote
before it throws stays written, until the transaction around it rolls back:
`atomically` keeps the state of a body that succeeds and restores the one
before a body that throws.

`Runs body s a t` says that the body, from `s`, succeeds with `a` and leaves
`t`.  The rules take a body apart along its binds.
-/

namespace Hepha

/-- A computation over a state that keeps what was written when it throws. -/
abbrev Tx (σ ε α : Type) := ExceptT ε (StateM σ) α

namespace Tx

variable {σ ε α β : Type}

/-- Throws unless the condition holds. -/
def require (error : ε) (condition : Bool) : Tx σ ε Unit :=
  if condition then pure () else throw error

/-- The value, or an error where there is none. -/
def ofOption (error : ε) : Option α → Tx σ ε α
  | some a => pure a
  | none => throw error

/-- The body as one transaction, with its result and the state after it. -/
def atomically (body : Tx σ ε α) (s : σ) : Except ε α × σ :=
  match body.run.run s with
  | (.ok a, t) => (.ok a, t)
  | (.error e, _) => (.error e, s)

/-- From `s` the body succeeds with `a` and leaves `t`. -/
def Runs (body : Tx σ ε α) (s : σ) (a : α) (t : σ) : Prop :=
  body.run.run s = (.ok a, t)

/-! ### Taking a body apart -/

theorem runs_pure {a b : α} {s t : σ} : Runs (pure a : Tx σ ε α) s b t ↔ b = a ∧ t = s := by
  change ((Except.ok a, s) : Except ε α × σ) = (.ok b, t) ↔ _
  rw [Prod.mk.injEq, Except.ok.injEq]
  exact and_congr eq_comm eq_comm

theorem runs_throw {e : ε} {a : α} {s t : σ} : ¬ Runs (throw e : Tx σ ε α) s a t := by
  intro h
  exact absurd (congrArg Prod.fst h) (by simp)

theorem runs_bind {body : Tx σ ε α} {next : α → Tx σ ε β} {s t : σ} {b : β} :
    Runs (body >>= next) s b t ↔ ∃ a u, Runs body s a u ∧ Runs (next a) u b t := by
  have hrun : (body >>= next).run.run s =
      match body.run.run s with
      | (.ok a, u) => (next a).run.run u
      | (.error e, u) => (.error e, u) := by
    rw [ExceptT.run_bind, StateT.run_bind]
    rcases body.run.run s with ⟨result, u⟩
    cases result <;> rfl
  rw [Runs, hrun]
  constructor
  · intro h
    rcases hbody : body.run.run s with ⟨result, u⟩
    rw [hbody] at h
    cases result with
    | ok a => exact ⟨a, u, hbody, h⟩
    | error e => cases h
  · rintro ⟨a, u, hbody, hnext⟩
    rw [Runs] at hbody
    rw [hbody]
    exact hnext

theorem runs_get {a s t : σ} : Runs (get : Tx σ ε σ) s a t ↔ a = s ∧ t = s := by
  change ((Except.ok s, s) : Except ε σ × σ) = (.ok a, t) ↔ _
  rw [Prod.mk.injEq, Except.ok.injEq]
  exact and_congr eq_comm eq_comm

theorem runs_modify {f : σ → σ} {a : PUnit} {s t : σ} :
    Runs (modify f : Tx σ ε PUnit) s a t ↔ t = f s := by
  change ((Except.ok a, f s) : Except ε PUnit × σ) = (.ok a, t) ↔ _
  rw [Prod.mk.injEq]
  exact ⟨fun h => h.2.symm, fun h => ⟨rfl, h.symm⟩⟩

theorem runs_require {error : ε} {condition : Bool} {a : Unit} {s t : σ} :
    Runs (require error condition) s a t ↔ condition = true ∧ t = s := by
  cases condition with
  | true => simp [require, runs_pure]
  | false => simp [require, runs_throw]

theorem runs_ofOption {error : ε} {value : Option α} {a : α} {s t : σ} :
    Runs (ofOption error value) s a t ↔ value = some a ∧ t = s := by
  cases value with
  | some b => simp [ofOption, runs_pure, eq_comm]
  | none => simp [ofOption, runs_throw]

/-! ### Loops -/

theorem runs_forM_nil {body : α → Tx σ ε PUnit} {u : PUnit} {s t : σ} :
    Runs ([].forM body) s u t ↔ t = s := by
  rw [List.forM_eq_forM, List.forM_nil, runs_pure]
  exact ⟨fun h => h.2, fun h => ⟨rfl, h⟩⟩

theorem runs_forM_cons {body : α → Tx σ ε PUnit} {a : α} {as : List α} {u : PUnit} {s t : σ} :
    Runs ((a :: as).forM body) s u t ↔
      ∃ middle, Runs (body a) s ⟨⟩ middle ∧ Runs (as.forM body) middle u t := by
  rw [List.forM_eq_forM, List.forM_cons, runs_bind]
  exact ⟨fun ⟨_, middle, h⟩ => ⟨middle, h⟩, fun ⟨middle, h⟩ => ⟨⟨⟩, middle, h⟩⟩

/-- **A loop whose body adds one element adds all of them.** -/
theorem runs_forM {body : α → Tx σ ε PUnit} (add : List α → σ → σ) (hnil : ∀ s, add [] s = s)
    (hcons : ∀ a as s, add (a :: as) s = add as (add [a] s))
    (hbody : ∀ a s u t, Runs (body a) s u t → t = add [a] s) {as : List α} {s t : σ} {u : PUnit}
    (h : Runs (as.forM body) s u t) : t = add as s := by
  induction as generalizing s with
  | nil => rw [runs_forM_nil.1 h, hnil]
  | cons a as ih =>
      obtain ⟨middle, hfirst, hrest⟩ := runs_forM_cons.1 h
      rw [ih hrest, hcons, hbody a s _ middle hfirst]

theorem runs_option_forM {body : α → Tx σ ε PUnit} {value : Option α} {u : PUnit} {s t : σ} :
    Runs (value.forM body) s u t ↔
      match value with
      | none => t = s
      | some a => Runs (body a) s u t := by
  cases value with
  | none =>
      change Runs (pure ⟨⟩) s u t ↔ _
      rw [runs_pure]
      exact ⟨fun h => h.2, fun h => ⟨rfl, h⟩⟩
  | some a => exact Iff.rfl

/-! ### Transactions -/

theorem atomically_ok_iff {body : Tx σ ε α} {s t : σ} {a : α} :
    atomically body s = (.ok a, t) ↔ Runs body s a t := by
  rw [atomically, Runs]
  rcases body.run.run s with ⟨result, u⟩
  cases result with
  | ok b => rfl
  | error e =>
      constructor
      · intro h
        cases h
      · intro h
        cases h

/-- **A transaction that fails leaves the state as it was.** -/
theorem atomically_error {body : Tx σ ε α} {s : σ} {e : ε} (h : (atomically body s).1 = .error e) :
    (atomically body s).2 = s := by
  revert h
  unfold atomically
  rcases body.run.run s with ⟨result, u⟩
  cases result with
  | ok b =>
      intro h
      cases h
  | error e => exact fun _ => rfl

end Tx

end Hepha
