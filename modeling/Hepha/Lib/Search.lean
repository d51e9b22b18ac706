import Hepha.Lib.Acyclic
import Mathlib.Data.List.Perm.Subperm
import Mathlib.Data.Nat.Notation
import Mathlib.Tactic.Common

/-!
# Searching a graph for a cycle

A depth-first search through a finite graph, from each of its vertices in turn.
The vertices of the path the search is on are being visited; those it has left
for good are visited.  To meet a vertex of the path again is to have found a
cycle, and the search stops there.

* `visit_ok`: a vertex is left after all it leads to, so the visited vertices
  are in an order in which no edge leads back;
* `visit_cycle`: every vertex of the path leads to the one that is visited, so
  what stops the search is a cycle;
* `visit_ne_fuel`: the path has no repetition, so the depth of the search is
  bounded by the number of vertices.

Together they say that the search succeeds on the graphs without a cycle and on
no others (`search_ok_iff`).
-/

namespace Hepha.Search

open Relation (TransGen ReflTransGen)

/-- Why a search stops early. -/
inductive Stop
  | cycle
  | fuel
deriving DecidableEq

variable {α : Type} [DecidableEq α] (next : α → List α)

/-- Visits a vertex: the visited vertices afterwards. -/
def visit : ℕ → List α → List α → α → Except Stop (List α)
  | 0, _, _, _ => .error .fuel
  | fuel + 1, visiting, visited, v =>
      if v ∈ visiting then .error .cycle
      else if v ∈ visited then .ok visited
      else ((next v).foldlM (visit fuel (v :: visiting)) visited).map (v :: ·)

/-- Visits every vertex. -/
def search (vertices : List α) : Except Stop (List α) :=
  vertices.foldlM (visit next (vertices.length + 1) []) []

/-- There is an edge from `a` to `b`. -/
def Edge (a b : α) : Prop :=
  b ∈ next a

variable {next}

/-! ## Loops that may stop -/

section Loops

variable {β : Type} {f : List β → α → Except Stop (List β)} {vs : List α} {visited after : List β}

omit [DecidableEq α] in
/-- What each turn keeps and adds, the loop keeps and adds for all its elements. -/
theorem foldlM_ok (good : List β → Prop) (left : α → List β → Prop)
    (hleft : ∀ {v s t}, left v s → s ⊆ t → left v t)
    (hturn : ∀ {s v t}, good s → f s v = .ok t → good t ∧ s ⊆ t ∧ left v t)
    (hgood : good visited) (h : vs.foldlM f visited = .ok after) :
    good after ∧ visited ⊆ after ∧ ∀ v ∈ vs, left v after := by
  induction vs generalizing visited with
  | nil =>
      obtain rfl : visited = after := Except.ok.inj h
      exact ⟨hgood, List.Subset.refl _, by simp⟩
  | cons v vs ih =>
      rw [List.foldlM_cons] at h
      cases hfirst : f visited v with
      | error stop =>
          rw [hfirst] at h
          cases h
      | ok middle =>
          rw [hfirst] at h
          obtain ⟨hmiddle, hsub, hv⟩ := hturn hgood hfirst
          obtain ⟨hafter, hsub', hvs⟩ := ih hmiddle h
          refine ⟨hafter, fun _ hx => hsub' (hsub hx), ?_⟩
          intro w hw
          rcases List.mem_cons.mp hw with rfl | hw
          · exact hleft hv hsub'
          · exact hvs w hw

omit [DecidableEq α] in
/-- A loop that stops has stopped in one of its turns. -/
theorem foldlM_error {stop : Stop} (h : vs.foldlM f visited = .error stop) :
    ∃ v ∈ vs, ∃ before, f before v = .error stop := by
  induction vs generalizing visited with
  | nil => cases h
  | cons v vs ih =>
      rw [List.foldlM_cons] at h
      cases hfirst : f visited v with
      | error other =>
          rw [hfirst] at h
          obtain rfl : other = stop := Except.error.inj h
          exact ⟨v, List.mem_cons_self, visited, hfirst⟩
      | ok middle =>
          rw [hfirst] at h
          obtain ⟨w, hw, before, herror⟩ := ih h
          exact ⟨w, List.mem_cons_of_mem _ hw, before, herror⟩

end Loops

variable {fuel : ℕ} {visiting visited after vertices : List α} {v : α}

/-- The three ways in which a visit goes on. -/
theorem visit_succ_ok (h : visit next (fuel + 1) visiting visited v = .ok after) :
    v ∈ visited ∧ after = visited ∨ ∃ middle,
      (next v).foldlM (visit next fuel (v :: visiting)) visited = .ok middle ∧
        after = v :: middle := by
  rw [visit] at h
  split at h
  · cases h
  · split at h
    · rename_i hvisited
      exact .inl ⟨hvisited, (Except.ok.inj h).symm⟩
    · cases hloop : (next v).foldlM (visit next fuel (v :: visiting)) visited with
      | error stop =>
          rw [hloop] at h
          cases h
      | ok middle =>
          rw [hloop] at h
          exact .inr ⟨middle, rfl, (Except.ok.inj h).symm⟩

theorem visit_succ_error {stop : Stop}
    (h : visit next (fuel + 1) visiting visited v = .error stop) :
    v ∈ visiting ∧ stop = .cycle ∨ v ∉ visiting ∧
      (next v).foldlM (visit next fuel (v :: visiting)) visited = .error stop := by
  rw [visit] at h
  split at h
  · rename_i hvisiting
    exact .inl ⟨hvisiting, (Except.error.inj h).symm⟩
  · rename_i hvisiting
    refine .inr ⟨hvisiting, ?_⟩
    split at h
    · cases h
    · cases hloop : (next v).foldlM (visit next fuel (v :: visiting)) visited with
      | error other =>
          rw [hloop] at h
          rw [Except.error.inj h]
      | ok middle =>
          rw [hloop] at h
          cases h

/-! ## What a search that ends has found -/

variable (next) in
/-- Every vertex of the list leads to vertices after it only. -/
def Finished : List α → Prop
  | [] => True
  | v :: rest => (∀ w ∈ next v, w ∈ rest) ∧ Finished rest

/-- **A visit leaves the vertex after all it leads to.** -/
theorem visit_ok (hvisited : Finished next visited)
    (h : visit next fuel visiting visited v = .ok after) :
    Finished next after ∧ visited ⊆ after ∧ v ∈ after := by
  induction fuel generalizing visiting visited v after with
  | zero => cases h
  | succ fuel ih =>
      rcases visit_succ_ok h with ⟨hmem, rfl⟩ | ⟨middle, hloop, rfl⟩
      · exact ⟨hvisited, List.Subset.refl _, hmem⟩
      · obtain ⟨hmiddle, hsub, hnext⟩ := foldlM_ok (Finished next)
          (fun w s => w ∈ s) (fun hw hsub => hsub hw) ih hvisited hloop
        exact ⟨⟨hnext, hmiddle⟩, List.subset_cons_of_subset _ hsub, List.mem_cons_self⟩

theorem subset_of_visit (h : visit next fuel visiting visited v = .ok after) : visited ⊆ after := by
  induction fuel generalizing visiting visited v after with
  | zero => cases h
  | succ fuel ih =>
      rcases visit_succ_ok h with ⟨-, rfl⟩ | ⟨middle, hloop, rfl⟩
      · exact List.Subset.refl _
      · have hsub := (foldlM_ok (fun _ => True) (fun _ _ => True) (fun _ _ => trivial)
          (fun _ ht => ⟨trivial, ih ht, trivial⟩) trivial hloop).2.1
        exact List.subset_cons_of_subset _ hsub

/-- **A vertex is visited once**, and none of the path is left. -/
theorem visit_fresh (hnodup : visited.Nodup) (hfresh : ∀ u ∈ visiting, u ∉ visited)
    (h : visit next fuel visiting visited v = .ok after) :
    after.Nodup ∧ ∀ u ∈ visiting, u ∉ after := by
  induction fuel generalizing visiting visited v after with
  | zero => cases h
  | succ fuel ih =>
      have hpath : v ∉ visiting := by
        intro hv
        rw [visit, if_pos hv] at h
        cases h
      rcases visit_succ_ok h with ⟨-, rfl⟩ | ⟨middle, hloop, rfl⟩
      · exact ⟨hnodup, hfresh⟩
      · by_cases hv : v ∈ visited
        · rw [visit, if_neg hpath, if_pos hv, Except.ok.injEq] at h
          exact h ▸ ⟨hnodup, hfresh⟩
        · obtain ⟨⟨hmiddle, hmiddle'⟩, -, -⟩ := foldlM_ok
            (fun s => s.Nodup ∧ ∀ u ∈ v :: visiting, u ∉ s) (fun _ _ => True)
            (fun _ _ => trivial) (fun {s w t} hs ht =>
              ⟨ih hs.1 hs.2 ht, subset_of_visit ht, trivial⟩)
            ⟨hnodup, List.forall_mem_cons.mpr ⟨hv, hfresh⟩⟩ hloop
          obtain ⟨hvmiddle, hrest⟩ := List.forall_mem_cons.mp hmiddle'
          refine ⟨List.nodup_cons.mpr ⟨hvmiddle, hmiddle⟩, fun u hu => ?_⟩
          exact List.not_mem_cons_of_ne_of_not_mem (fun heq => hpath (heq ▸ hu)) (hrest u hu)

omit [DecidableEq α] in
theorem Finished.of_append {before : List α} (h : Finished next (before ++ visited)) :
    Finished next visited := by
  induction before with
  | nil => exact h
  | cons v rest ih => exact ih h.2

omit [DecidableEq α] in
theorem Finished.edge (h : Finished next visited) {a b : α} (ha : a ∈ visited)
    (hab : Edge next a b) : b ∈ visited := by
  induction visited with
  | nil => cases ha
  | cons v rest ih =>
      apply List.mem_cons_of_mem
      rcases List.mem_cons.mp ha with rfl | ha
      · exact h.1 b hab
      · exact ih h.2 ha

omit [DecidableEq α] in
/-- What is finished leads to nothing else. -/
theorem Finished.closed (h : Finished next visited) {a b : α} (ha : a ∈ visited)
    (hpath : ReflTransGen (Edge next) a b) : b ∈ visited := by
  induction hpath with
  | refl => exact ha
  | tail _ hlast ih => exact h.edge ih hlast

omit [DecidableEq α] in
theorem Finished.no_cycle (h : Finished next visited) :
    ∀ a ∈ visited, ¬ TransGen (Edge next) a a := by
  induction visited with
  | nil => simp
  | cons v rest ih =>
      intro a ha hcycle
      have hrest : a ∈ rest := by
        rcases List.mem_cons.mp ha with rfl | hrest
        · obtain ⟨b, hab, hback⟩ := TransGen.head'_iff.mp hcycle
          exact h.2.closed (h.1 b hab) hback
        · exact hrest
      exact ih h.2 a hrest hcycle

/-! ## What a search that stops has found -/

/-- **A visit stops at a cycle.**  All of the path leads to the vertex. -/
theorem visit_cycle (hpath : ∀ u ∈ visiting, TransGen (Edge next) u v)
    (h : visit next fuel visiting visited v = .error .cycle) :
    ∃ w, TransGen (Edge next) w w := by
  induction fuel generalizing visiting visited v with
  | zero => cases h
  | succ fuel ih =>
      rcases visit_succ_error h with ⟨hmem, -⟩ | ⟨-, hloop⟩
      · exact ⟨v, hpath v hmem⟩
      · obtain ⟨w, hw, before, herror⟩ := foldlM_error hloop
        refine ih ?_ herror
        intro u hu
        rcases List.mem_cons.mp hu with rfl | hu
        · exact .single hw
        · exact (hpath u hu).tail hw

/-- **The fuel lasts** while the path and what is left of it outnumber the vertices. -/
theorem visit_ne_fuel (hleaf : ∀ v, v ∉ vertices → next v = []) (hnodup : visiting.Nodup)
    (hsub : visiting ⊆ vertices) (hfuel : vertices.length < fuel + visiting.length) :
    visit next fuel visiting visited v ≠ .error .fuel := by
  induction fuel generalizing visiting visited v with
  | zero =>
      have := (hnodup.subperm hsub).length_le
      omega
  | succ fuel ih =>
      intro h
      rcases visit_succ_error h with ⟨-, hstop⟩ | ⟨hfresh, hloop⟩
      · cases hstop
      · by_cases hv : v ∈ vertices
        · obtain ⟨w, -, before, herror⟩ := foldlM_error hloop
          refine ih (List.nodup_cons.mpr ⟨hfresh, hnodup⟩) ?_ ?_ herror
          · exact List.cons_subset.mpr ⟨hv, hsub⟩
          · rw [List.length_cons]
            omega
        · rw [hleaf v hv] at hloop
          cases hloop

/-- **The search succeeds exactly on a graph without a cycle**, with enough fuel. -/
theorem search_ok_iff (hleaf : ∀ v, v ∉ vertices → next v = []) (hfuel : vertices.length < fuel) :
    (∃ after, vertices.foldlM (visit next fuel []) [] = .ok after) ↔ Acyclic (Edge next) := by
  constructor
  · rintro ⟨after, hsearch⟩
    obtain ⟨hfinished, -, hall⟩ := foldlM_ok (Finished next)
      (fun w s => w ∈ s) (fun hw hsub => hsub hw) visit_ok
      (show Finished next [] from trivial) hsearch
    intro a hcycle
    -- A vertex of a cycle has an edge, so it is one of those the search starts from.
    obtain ⟨b, hab, -⟩ := TransGen.head'_iff.mp hcycle
    have ha : a ∈ vertices := by
      by_contra ha
      rw [Edge, hleaf a ha] at hab
      cases hab
    exact hfinished.no_cycle a (hall a ha) hcycle
  · intro hacyclic
    cases hsearch : vertices.foldlM (visit next fuel []) [] with
    | ok after => exact ⟨after, rfl⟩
    | error stop =>
        obtain ⟨v, -, before, herror⟩ := foldlM_error hsearch
        cases stop with
        | cycle =>
            obtain ⟨w, hcycle⟩ := visit_cycle (by simp) herror
            exact absurd hcycle (hacyclic w)
        | fuel =>
            have hlasts : vertices.length < fuel + ([] : List α).length := hfuel
            exact absurd herror
              (visit_ne_fuel hleaf List.nodup_nil (List.nil_subset _) hlasts)

end Hepha.Search
