import Hepha.Lib.Acyclic
import Mathlib.Data.List.Count
import Mathlib.Data.List.Nodup
import Mathlib.Data.List.Sort
import Mathlib.Order.WellFounded
import Mathlib.Data.Set.Finite.List
import Mathlib.Tactic.Common

/-!
# Ordering by dependencies

The vertices without an open dependency wait in a queue.  The one with the smallest rank
is taken, and each of its dependents has one open dependency less; a dependent is put
into the queue when it has none left.  Dependencies may be listed more than once.

* `relax_foldl`: what taking one vertex does to the numbers and to the queue;
* `Inv.step`: the queue holds the vertices that are ready, and the numbers count the
  open dependencies;
* `run_queue`: the queue is empty after one step for each vertex;
* `complete_iff`: all vertices are ordered if and only if there is no cycle.
-/

namespace Hepha.Kahn

open Relation (TransGen)

variable {α κ : Type} [DecidableEq α] [LinearOrder κ]

/-- The numbers of open dependencies, the vertices that are ready, and those in order. -/
structure State (α : Type) where
  degree : α → ℤ
  queue : List α
  sorted : List α

/-- A vertex has one open dependency less. -/
def relax (s : (α → ℤ) × List α) (v : α) : (α → ℤ) × List α :=
  (Function.update s.1 v (s.1 v - 1), if s.1 v - 1 = 0 then s.2 ++ [v] else s.2)

/-- The vertex with the smallest rank is taken. -/
def step (next : α → List α) (rank : α → κ) (s : State α) : State α :=
  match s.queue.insertionSort fun a b => rank a ≤ rank b with
  | [] => s
  | v :: rest =>
      let relaxed := (next v).foldl relax (s.degree, rest)
      ⟨relaxed.1, relaxed.2, s.sorted ++ [v]⟩

/-- So many vertices are taken. -/
def run (next : α → List α) (rank : α → κ) : ℕ → State α → State α
  | 0, s => s
  | fuel + 1, s => run next rank fuel (step next rank s)

/-! ## One vertex -/

/-- **The dependents of a vertex** lose one open dependency for each time they are listed,
and those that have none left are put behind the queue. -/
theorem relax_foldl (vs : List α) (degree : α → ℤ) (queue : List α)
    (hcount : ∀ v ∈ vs, (vs.count v : ℤ) ≤ degree v) :
    (∀ v, (vs.foldl relax (degree, queue)).1 v = degree v - vs.count v) ∧
      ∃ ready : List α, (vs.foldl relax (degree, queue)).2 = queue ++ ready ∧ ready.Nodup ∧
        ∀ v, v ∈ ready ↔ v ∈ vs ∧ degree v = vs.count v := by
  induction vs generalizing degree queue with
  | nil => exact ⟨fun v => by simp, [], by simp, .nil, by simp⟩
  | cons first rest ih =>
      have hself (v : α) : ((first :: rest).count v : ℤ) =
          rest.count v + if first = v then 1 else 0 := by
        rw [List.count_cons]
        simp only [beq_iff_eq]
        split <;> simp
      have hupdate (v : α) : Function.update degree first (degree first - 1) v =
          degree v - if first = v then 1 else 0 := by
        by_cases h : first = v
        · subst h
          simp
        · rw [Function.update_of_ne (Ne.symm h), if_neg h, Int.sub_zero]
      have hrest : ∀ v ∈ rest, (rest.count v : ℤ) ≤
          Function.update degree first (degree first - 1) v := by
        intro v hv
        have := hcount v (List.mem_cons_of_mem _ hv)
        rw [hself] at this
        rw [hupdate]
        omega
      obtain ⟨hdegree, ready, hqueue, hnodup, hready⟩ := ih
        (Function.update degree first (degree first - 1))
        (if degree first - 1 = 0 then queue ++ [first] else queue) hrest
      have hfirst := hcount first List.mem_cons_self
      rw [hself, if_pos rfl] at hfirst
      refine ⟨fun v => ?_, ?_⟩
      · rw [List.foldl_cons, relax, hdegree, hupdate, hself]
        omega
      · have hmem (v : α) : v ∈ ready ↔
            v ∈ rest ∧ degree v - (if first = v then 1 else 0) = rest.count v := by
          rw [hready, hupdate]
        by_cases hlast : degree first - 1 = 0
        · -- the first one is ready now, and it is not listed again
          have hnot : first ∉ rest := by
            intro hin
            have := List.count_pos_iff.mpr hin
            omega
          refine ⟨first :: ready, ?_, List.nodup_cons.mpr ⟨fun hin => hnot ((hmem _).mp hin).1,
            hnodup⟩, fun v => ?_⟩
          · rw [List.foldl_cons, relax]
            dsimp only
            rw [hqueue, if_pos hlast, List.append_assoc, List.singleton_append]
          · rw [List.mem_cons, List.mem_cons, hmem, hself]
            by_cases hv : first = v
            · subst hv
              have hzero : rest.count first = 0 := List.count_eq_zero.mpr hnot
              simp only [true_or, true_and, true_iff, if_true, hzero]
              omega
            · simp [hv, Ne.symm hv]
        · refine ⟨ready, ?_, hnodup, fun v => ?_⟩
          · rw [List.foldl_cons, relax]
            dsimp only
            rw [hqueue, if_neg hlast]
          · rw [List.mem_cons, hmem, hself]
            by_cases hv : first = v
            · subst hv
              simp only [if_true, true_or, true_and]
              constructor
              · rintro ⟨-, h⟩
                omega
              · intro h
                exact ⟨List.count_pos_iff.mp (by omega), by omega⟩
            · simp [hv, Ne.symm hv]

/-! ## The order -/

variable (vertices : List α) (deps : α → List α) (rank : α → κ)

/-- All dependencies stand in the list. -/
def Ready (sorted : List α) (v : α) : Prop :=
  ∀ d ∈ deps v, d ∈ sorted

/-- Each vertex stands behind its dependencies, and none with a smaller rank was ready. -/
inductive Ordered : List α → Prop
  | nil : Ordered []
  | snoc {sorted : List α} {v : α} (h : Ordered sorted) (ready : Ready deps sorted v)
      (least : ∀ w ∈ vertices, w ∉ sorted → Ready deps sorted w → rank v ≤ rank w) :
      Ordered (sorted ++ [v])

variable {vertices deps rank}

omit [DecidableEq α] in
theorem Ordered.split {sorted before after : List α} {v : α}
    (h : Ordered vertices deps rank sorted) (hsplit : sorted = before ++ v :: after) :
    Ready deps before v ∧
      ∀ w ∈ vertices, w ∉ before → Ready deps before w → rank v ≤ rank w := by
  induction h generalizing after with
  | nil => simp at hsplit
  | @snoc sorted last _ hready hleast ih =>
      rcases List.eq_nil_or_concat after with rfl | ⟨init, other, rfl⟩
      · obtain ⟨rfl, hlast⟩ := List.append_inj' hsplit rfl
        cases hlast
        exact ⟨hready, hleast⟩
      · rw [List.concat_eq_append, ← List.cons_append, ← List.append_assoc] at hsplit
        exact ih (List.append_inj' hsplit rfl).1

omit [DecidableEq α] in
theorem Ordered.closed {sorted : List α} (h : Ordered vertices deps rank sorted) {v : α}
    (hv : v ∈ sorted) : Ready deps sorted v := by
  obtain ⟨before, after, rfl⟩ := List.append_of_mem hv
  exact fun d hd => List.mem_append_left _ ((h.split rfl).1 d hd)

/-- There is an edge from a vertex to each of its dependencies. -/
def Edge (deps : α → List α) (a b : α) : Prop :=
  b ∈ deps a

omit [DecidableEq α] in
/-- Dependencies that stand before lead to no cycle. -/
theorem Ordered.no_cycle {sorted : List α} (h : Ordered vertices deps rank sorted)
    (hnodup : sorted.Nodup) : ∀ v ∈ sorted, ¬TransGen (Edge deps) v v := by
  induction h with
  | nil => simp
  | @snoc sorted last h hready _ ih =>
      have hnot : last ∉ sorted := (List.nodup_concat _ _).mp (List.concat_eq_append ▸ hnodup) |>.1
      have hrest : sorted.Nodup := hnodup.sublist (List.sublist_append_left _ _)
      -- what is reached stands in the list without the last vertex
      have hreach : ∀ {a b : α}, a ∈ sorted ++ [last] → TransGen (Edge deps) a b → b ∈ sorted := by
        intro a b ha hab
        induction hab with
        | single hedge =>
            rcases List.mem_append.mp ha with ha | ha
            · exact h.closed ha _ hedge
            · obtain rfl := List.mem_singleton.mp ha
              exact hready _ hedge
        | tail _ hedge ihpath => exact h.closed ihpath _ hedge
      intro v hv hcycle
      exact ih hrest v (hreach hv hcycle) hcycle

/-! ## The invariant -/

/-- The lists of dependents and of dependencies belong to one graph. -/
structure Graph (vertices : List α) (deps next : α → List α) : Prop where
  count : ∀ v ∈ vertices, ∀ w ∈ vertices, (next v).count w = (deps w).count v
  next_sub : ∀ v ∈ vertices, next v ⊆ vertices
  deps_sub : ∀ v ∈ vertices, deps v ⊆ vertices

structure Inv (vertices : List α) (deps : α → List α) (rank : α → κ) (s : State α) : Prop where
  degree : ∀ v ∈ vertices, s.degree v = ((deps v).filter (· ∉ s.sorted)).length
  queue_nodup : s.queue.Nodup
  mem_queue : ∀ v, v ∈ s.queue ↔ v ∈ vertices ∧ v ∉ s.sorted ∧ Ready deps s.sorted v
  nodup : s.sorted.Nodup
  sub : s.sorted ⊆ vertices
  ordered : Ordered vertices deps rank s.sorted

/-- What is left open once a vertex stands in the list. -/
theorem length_filter_snoc (l : List α) {sorted : List α} {v : α} (hv : v ∉ sorted) :
    (l.filter (· ∉ sorted)).length = (l.filter (· ∉ sorted ++ [v])).length + l.count v := by
  induction l with
  | nil => rfl
  | cons first rest ih =>
      rw [List.count_cons, List.filter_cons, List.filter_cons]
      by_cases hfirst : first = v
      · subst hfirst
        simp only [hv, List.mem_append, List.mem_singleton, or_true, not_true_eq_false,
          not_false_eq_true, decide_true, decide_false, if_true, Bool.false_eq_true, if_false,
          BEq.rfl, List.length_cons, ih]
        rfl
      · have hbeq : (first == v) = false := beq_eq_false_iff_ne.mpr hfirst
        by_cases hmem : first ∈ sorted
        · simpa [hmem, hbeq] using ih
        · simp only [hmem, hfirst, hbeq, List.mem_append, List.mem_singleton, or_self,
            not_false_eq_true, decide_true, if_true, List.length_cons, Bool.false_eq_true, if_false,
            ih]
          omega

omit [LinearOrder κ] in
theorem ready_iff {sorted : List α} {v : α} :
    Ready deps sorted v ↔ (deps v).filter (· ∉ sorted) = [] := by
  simp [Ready, List.filter_eq_nil_iff]

/-- **Taking a vertex** keeps the invariant. -/
theorem Inv.step {next : α → List α} {s : State α} (h : Inv vertices deps rank s)
    (hgraph : Graph vertices deps next) : Inv vertices deps rank (step next rank s) := by
  have hperm := List.perm_insertionSort (fun a b => rank a ≤ rank b) s.queue
  have hsorted := List.pairwise_insertionSort (fun a b => rank a ≤ rank b) s.queue
  unfold Kahn.step
  split
  · exact h
  · rename_i v rest hqueue
    rw [hqueue] at hperm hsorted
    have hv : v ∈ s.queue := hperm.subset List.mem_cons_self
    obtain ⟨hvertex, hnew, hready⟩ := (h.mem_queue v).mp hv
    have hnodup : (v :: rest).Nodup := hperm.nodup_iff.mpr h.queue_nodup
    -- the vertex is counted among the open dependencies as often as it is listed
    have hopen (w : α) (hw : w ∈ vertices) : s.degree w =
        ((deps w).filter (· ∉ s.sorted ++ [v])).length + (next v).count w := by
      rw [h.degree w hw, length_filter_snoc _ hnew, hgraph.count v hvertex w hw]
      push_cast
      rfl
    obtain ⟨hdegree, ready, hrelaxed, hreadyNodup, hmem⟩ := relax_foldl (next v) s.degree rest
      fun w hw => by
        rw [hopen w (hgraph.next_sub v hvertex hw)]
        omega
    -- the new ones are those whose last open dependency was the vertex
    have hnewly (w : α) : w ∈ ready ↔
        w ∈ vertices ∧ v ∈ deps w ∧ Ready deps (s.sorted ++ [v]) w := by
      rw [hmem, ready_iff, ← List.length_eq_zero_iff]
      constructor
      · rintro ⟨hw, hlast⟩
        have hvertex' := hgraph.next_sub v hvertex hw
        refine ⟨hvertex', ?_, ?_⟩
        · rw [← List.count_pos_iff, ← hgraph.count v hvertex w hvertex']
          exact List.count_pos_iff.mpr hw
        · have := hopen w hvertex'
          omega
      · rintro ⟨hw, hdep, hzero⟩
        refine ⟨?_, ?_⟩
        · rw [← List.count_pos_iff, hgraph.count v hvertex w hw]
          exact List.count_pos_iff.mpr hdep
        · have := hopen w hw
          omega
    have hself : v ∉ deps v := fun hdep => hnew (hready v hdep)
    refine ⟨fun w hw => ?_, ?_, fun w => ?_, ?_, ?_, ?_⟩
    · dsimp only
      rw [hdegree, hopen w hw]
      omega
    · dsimp only
      rw [hrelaxed]
      refine List.nodup_append.mpr ⟨(List.nodup_cons.mp hnodup).2, hreadyNodup, ?_⟩
      rintro w hw _ hw' rfl
      obtain ⟨-, hdep, -⟩ := (hnewly w).mp hw'
      obtain ⟨-, -, hold⟩ := (h.mem_queue w).mp (hperm.subset (List.mem_cons_of_mem _ hw))
      exact hnew (hold v hdep)
    · dsimp only
      rw [hrelaxed, List.mem_append, hnewly]
      have hrest : w ∈ rest ↔ w ∈ s.queue ∧ w ≠ v := by
        rw [← hperm.mem_iff, List.mem_cons]
        constructor
        · intro hw
          exact ⟨.inr hw, fun heq => (List.nodup_cons.mp hnodup).1 (heq ▸ hw)⟩
        · rintro ⟨rfl | hw, hne⟩
          · exact absurd rfl hne
          · exact hw
      rw [hrest, h.mem_queue, List.mem_append, List.mem_singleton, not_or]
      constructor
      · rintro (⟨⟨hw, hold, hr⟩, hne⟩ | ⟨hw, hdep, hr⟩)
        · exact ⟨hw, ⟨hold, hne⟩, fun d hd => List.mem_append_left _ (hr d hd)⟩
        · refine ⟨hw, ⟨fun hold => hnew (h.ordered.closed hold v hdep), ?_⟩, hr⟩
          rintro rfl
          exact hself hdep
      · rintro ⟨hw, ⟨hold, hne⟩, hr⟩
        by_cases hdep : v ∈ deps w
        · exact .inr ⟨hw, hdep, hr⟩
        · refine .inl ⟨⟨hw, hold, fun d hd => ?_⟩, hne⟩
          rcases List.mem_append.mp (hr d hd) with hd' | hd'
          · exact hd'
          · exact absurd (List.mem_singleton.mp hd' ▸ hd) hdep
    · exact (List.concat_eq_append ▸ (List.nodup_concat _ _).mpr ⟨hnew, h.nodup⟩)
    · exact List.append_subset.mpr ⟨h.sub, List.cons_subset.mpr ⟨hvertex, List.nil_subset _⟩⟩
    · refine h.ordered.snoc hready fun w hw hold hr => ?_
      rcases List.mem_cons.mp (hperm.mem_iff.mpr ((h.mem_queue w).mpr ⟨hw, hold, hr⟩)) with
        rfl | hin
      · exact le_rfl
      · exact List.rel_of_pairwise_cons hsorted hin

/-! ## Runs -/

theorem Inv.run {next : α → List α} {s : State α} (h : Inv vertices deps rank s)
    (hgraph : Graph vertices deps next) (fuel : ℕ) :
    Inv vertices deps rank (run next rank fuel s) := by
  induction fuel generalizing s with
  | zero => exact h
  | succ fuel ih => exact ih (h.step hgraph)

/-- A step takes a vertex as long as one is ready. -/
theorem length_step {next : α → List α} {s : State α} (h : s.queue ≠ []) :
    (step next rank s).sorted.length = s.sorted.length + 1 := by
  unfold step
  split
  · rename_i hqueue
    exact absurd (List.perm_nil.mp (hqueue ▸ List.perm_insertionSort _ s.queue).symm) h
  · rw [List.length_append, List.length_singleton]

theorem step_of_nil {next : α → List α} {s : State α} (h : s.queue = []) :
    step next rank s = s := by
  rw [step, h]
  rfl

/-- **The queue is empty** after one step for each vertex. -/
theorem run_queue {next : α → List α} {s : State α} (h : Inv vertices deps rank s)
    (hgraph : Graph vertices deps next) (fuel : ℕ)
    (hfuel : vertices.length ≤ s.sorted.length + fuel) :
    (run next rank fuel s).queue = [] := by
  by_cases hqueue : s.queue = []
  · clear hfuel
    induction fuel with
    | zero => exact hqueue
    | succ fuel ih => rwa [Kahn.run, step_of_nil hqueue]
  · induction fuel generalizing s with
    | zero =>
        obtain ⟨v, rest, hv⟩ := List.exists_cons_of_ne_nil hqueue
        obtain ⟨hvertex, hnew, -⟩ := (h.mem_queue v).mp (hv ▸ List.mem_cons_self)
        have hlt := ((List.nodup_cons.mpr ⟨hnew, h.nodup⟩).subperm
          (List.cons_subset.mpr ⟨hvertex, h.sub⟩)).length_le
        rw [List.length_cons] at hlt
        omega
    | succ fuel ih =>
        rw [Kahn.run]
        by_cases hnext : (step next rank s).queue = []
        · clear ih hfuel
          induction fuel with
          | zero => exact hnext
          | succ fuel ih => rwa [Kahn.run, step_of_nil hnext]
        · refine ih (h.step hgraph) ?_ hnext
          rw [length_step hqueue]
          omega

/-- **All vertices are in order if and only if there is no cycle.** -/
theorem complete_iff {s : State α} (h : Inv vertices deps rank s) (hqueue : s.queue = [])
    (hsub : ∀ v ∈ vertices, deps v ⊆ vertices) (hleaf : ∀ v, v ∉ vertices → deps v = []) :
    vertices ⊆ s.sorted ↔ Acyclic (Edge deps) := by
  constructor
  · intro hall v hcycle
    refine h.ordered.no_cycle h.nodup v (hall ?_) hcycle
    by_contra hv
    obtain ⟨w, hedge, -⟩ := Relation.TransGen.head'_iff.mp hcycle
    rw [Edge, hleaf v hv] at hedge
    cases hedge
  · intro hacyclic v hv
    by_contra hopen
    -- among the vertices that are left there is one that leads to none of them
    let Left := {w : α // w ∈ vertices ∧ w ∉ s.sorted}
    have hfinite : Finite Left :=
      Set.Finite.to_subtype ((List.finite_toSet vertices).subset fun w hw => hw.1)
    let leads (b a : Left) : Prop := TransGen (Edge deps) a.1 b.1
    have htrans : IsTrans Left leads := ⟨fun a b c hab hbc => TransGen.trans hbc hab⟩
    have hirrefl : Std.Irrefl leads := ⟨fun a ha => hacyclic a.1 ha⟩
    have hwf : WellFounded leads := Finite.wellFounded_of_trans_of_irrefl _
    obtain ⟨m, -, hmin⟩ := hwf.has_min Set.univ ⟨⟨v, hv, hopen⟩, trivial⟩
    have hready : Ready deps s.sorted m.1 := by
      intro d hd
      by_contra hleft
      exact hmin ⟨d, hsub m.1 m.2.1 hd, hleft⟩ trivial (.single hd)
    have := (h.mem_queue m.1).mpr ⟨m.2.1, m.2.2, hready⟩
    rw [hqueue] at this
    cases this

end Hepha.Kahn
