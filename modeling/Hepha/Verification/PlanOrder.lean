import Hepha.Lib.Search
import Hepha.Verification.FreshPlan

/-!
# The order of the checks

The checks of an admitted plan have different ids and depend on each other only.  The
recursive `visit` of the code is then the depth-first search of `Search`, over the ids
(`visitCheck_refines`), so that its order is that of a search which leaves a vertex after
all it leads to, and a search that stops has found a cycle.
-/

namespace Hepha.Verification

open Search (Stop Edge)
open Relation (TransGen)

/-- Checks with different ids that depend on each other. -/
structure Selected (checks : List JsValue) : Prop where
  named : ∀ check ∈ checks, (checkId check).isSome = true
  distinct : (checks.map idOf).Nodup
  closed : ∀ check ∈ checks, ∀ id ∈ dependsOn check, id ∈ checks.map idOf

/-- A check depends on another one. -/
def DependsOn (checks : List JsValue) (id other : JsString) : Prop :=
  ∃ check ∈ checks, idOf check = id ∧ other ∈ dependsOn check

/-- What the check of an id depends on. -/
def prerequisites (checks : List JsValue) (id : JsString) : List JsString :=
  ((checks.find? fun check => checkId check == some id).map dependsOn).getD []

section Selected

variable {checks : List JsValue} (hselected : Selected checks)

include hselected

theorem checkId_idOf {check : JsValue} (hcheck : check ∈ checks) :
    checkId check = some (idOf check) := by
  obtain ⟨id, hid⟩ := Option.isSome_iff_exists.mp (hselected.named check hcheck)
  rw [idOf, hid, Option.getD_some]

theorem find_idOf {check : JsValue} (hcheck : check ∈ checks) :
    checks.find? (fun other => checkId other == some (idOf check)) = some check := by
  cases hfind : checks.find? fun other => checkId other == some (idOf check) with
  | none =>
      have hnot := List.find?_eq_none.mp hfind check hcheck
      rw [checkId_idOf hselected hcheck, beq_self_eq_true] at hnot
      exact absurd rfl hnot
  | some other =>
      have hother := List.mem_of_find?_eq_some hfind
      have hid : checkId other = some (idOf check) := by
        simpa using List.find?_some hfind
      rw [checkId_idOf hselected hother, Option.some.injEq] at hid
      rw [List.inj_on_of_nodup_map hselected.distinct hother hcheck hid]

theorem prerequisites_idOf {check : JsValue} (hcheck : check ∈ checks) :
    prerequisites checks (idOf check) = dependsOn check := by
  rw [prerequisites, find_idOf hselected hcheck]
  rfl

theorem edge_iff {id other : JsString} :
    Edge (prerequisites checks) id other ↔ DependsOn checks id other := by
  constructor
  · intro h
    rw [Edge, prerequisites] at h
    cases hfind : checks.find? fun check => checkId check == some id with
    | none =>
        rw [hfind] at h
        cases h
    | some check =>
        rw [hfind] at h
        have hid : checkId check = some id := by
          simpa using List.find?_some hfind
        exact ⟨check, List.mem_of_find?_eq_some hfind, by rw [idOf, hid, Option.getD_some], h⟩
  · rintro ⟨check, hcheck, rfl, hother⟩
    rwa [Edge, prerequisites_idOf hselected hcheck]

omit hselected in
theorem prerequisites_eq_nil {id : JsString} (h : id ∉ checks.map idOf) :
    prerequisites checks id = [] := by
  have hfind : (checks.find? fun check => checkId check == some id) = none := by
    refine List.find?_eq_none.mpr fun check hcheck hid => h ?_
    exact List.mem_map.mpr ⟨check, hcheck, by rw [idOf, eq_of_beq hid, Option.getD_some]⟩
  rw [prerequisites, hfind]
  rfl

/-! ## The code is the search -/

/-- The ids that are done are those of the checks that are in order. -/
structure Tracks (checks : List JsValue) (s : CheckOrder) : Prop where
  ids : s.ordered.map idOf = s.done.reverse
  mem : ∀ check ∈ s.ordered, check ∈ checks

/-- The code ends as the search does. -/
def Refines (checks : List JsValue) (result : Except PlanFailure CheckOrder) :
    Except Stop (List JsString) → Prop
  | .ok after => ∃ s, result = .ok s ∧ s.done = after ∧ Tracks checks s
  | .error .cycle => result = .error cyclicPrerequisites
  | .error .fuel => result = .error .typeError

omit hselected in
theorem refines_cycle {result : Except PlanFailure CheckOrder} :
    Refines checks result (.error .cycle) ↔ result = .error cyclicPrerequisites :=
  Iff.rfl

omit hselected in
theorem refines_fuel {result : Except PlanFailure CheckOrder} :
    Refines checks result (.error .fuel) ↔ result = .error .typeError :=
  Iff.rfl

omit hselected in
/-- A loop of turns that refine is refined. -/
theorem foldlM_refines {β : Type} {f : CheckOrder → β → Except PlanFailure CheckOrder}
    {key : β → JsString} {items : List β} {fuel : ℕ} {visiting : List JsString} {s : CheckOrder}
    (hstep : ∀ item ∈ items, ∀ s, Tracks checks s → s.done.Nodup →
      (∀ u ∈ visiting, u ∉ s.done) → Refines checks (f s item)
        (Search.visit (prerequisites checks) fuel visiting s.done (key item)))
    (hs : Tracks checks s) (hnodup : s.done.Nodup) (hfresh : ∀ u ∈ visiting, u ∉ s.done) :
    Refines checks (items.foldlM f s)
      ((items.map key).foldlM (Search.visit (prerequisites checks) fuel visiting) s.done) := by
  induction items generalizing s with
  | nil => exact ⟨s, rfl, rfl, hs⟩
  | cons item rest ih =>
      have hfirst := hstep item List.mem_cons_self s hs hnodup hfresh
      rw [List.foldlM_cons, List.map_cons, List.foldlM_cons]
      cases hvisit : Search.visit (prerequisites checks) fuel visiting s.done (key item) with
      | error stop =>
          rw [hvisit] at hfirst
          cases stop with
          | cycle =>
              rw [refines_cycle.1 hfirst]
              rfl
          | fuel =>
              rw [refines_fuel.1 hfirst]
              rfl
      | ok after =>
          rw [hvisit] at hfirst
          obtain ⟨s', hs', rfl, htracks⟩ := hfirst
          -- the next turn starts from where this one left off
          obtain ⟨hnodup', hfresh'⟩ := Search.visit_fresh hnodup hfresh hvisit
          rw [hs']
          exact ih (fun other hother => hstep other (List.mem_cons_of_mem _ hother)) htracks
            hnodup' hfresh'

/-- **The visit of a check is that of its id.** -/
theorem visitCheck_refines {fuel : ℕ} {visiting : List JsString} {s : CheckOrder}
    {check : JsValue} (hcheck : check ∈ checks) (hs : Tracks checks s) (hnodup : s.done.Nodup)
    (hfresh : ∀ u ∈ visiting, u ∉ s.done) :
    Refines checks (visitCheck checks fuel visiting s check)
      (Search.visit (prerequisites checks) fuel visiting s.done (idOf check)) := by
  induction fuel generalizing visiting s check with
  | zero => rfl
  | succ fuel ih =>
      rw [visitCheck, Search.visit]
      by_cases hdone : idOf check ∈ s.done
      · rw [if_pos hdone, if_neg fun hvisiting => hfresh _ hvisiting hdone, if_pos hdone]
        exact ⟨s, rfl, rfl, hs⟩
      · rw [if_neg hdone]
        by_cases hvisiting : idOf check ∈ visiting
        · rw [if_pos hvisiting, if_pos hvisiting]
          rfl
        · rw [if_neg hvisiting, if_neg hvisiting, if_neg hdone,
            prerequisites_idOf hselected hcheck]
          -- the source visits the checks of the ids, the search the ids themselves
          have hstep : ∀ other ∈ dependsOn check, ∀ s, Tracks checks s → s.done.Nodup →
              (∀ u ∈ idOf check :: visiting, u ∉ s.done) →
              Refines checks (visitById checks (visitCheck checks fuel (idOf check :: visiting)) s
                other) (Search.visit (prerequisites checks) fuel (idOf check :: visiting) s.done
                  (id other)) := by
            intro other hother s hs hnodup hfresh
            obtain ⟨found, hfound, rfl⟩ :=
              List.mem_map.mp (hselected.closed check hcheck other hother)
            rw [visitById, find_idOf hselected hfound]
            exact ih hfound hs hnodup hfresh
          have hloop := foldlM_refines hstep hs hnodup (List.forall_mem_cons.mpr ⟨hdone, hfresh⟩)
          rw [List.map_id] at hloop
          cases hsearch : (dependsOn check).foldlM
              (Search.visit (prerequisites checks) fuel (idOf check :: visiting)) s.done with
          | error stop =>
              rw [hsearch] at hloop
              cases stop with
              | cycle =>
                  rw [refines_cycle.1 hloop]
                  rfl
              | fuel =>
                  rw [refines_fuel.1 hloop]
                  rfl
          | ok after =>
              rw [hsearch] at hloop
              obtain ⟨s', hs', rfl, htracks⟩ := hloop
              rw [hs']
              refine ⟨⟨idOf check :: s'.done, s'.ordered ++ [check]⟩, rfl, rfl, ?_, ?_⟩
              · rw [List.map_append, htracks.ids, List.reverse_cons]
                rfl
              · intro other hother
                rcases List.mem_append.mp hother with hother | hother
                · exact htracks.mem other hother
                · exact List.mem_singleton.mp hother ▸ hcheck

/-- The loop over all checks is the search. -/
theorem orderChecks_refines :
    Refines checks (checks.foldlM (visitCheck checks (checks.length + 1) []) ⟨[], []⟩)
      (Search.search (prerequisites checks) (checks.map idOf)) := by
  rw [Search.search, List.length_map]
  exact foldlM_refines (s := ⟨[], []⟩)
    (fun check hcheck s hs hnodup hfresh => visitCheck_refines hselected hcheck hs hnodup hfresh)
    ⟨rfl, nofun⟩ List.nodup_nil nofun

/-- **The order of the checks** holds each once, after all it depends on. -/
theorem orderChecks_ok {ordered : List JsValue} (h : orderChecks checks = .ok ordered) :
    ordered.Perm checks ∧ ∀ before check after, ordered = before ++ check :: after →
      ∀ id ∈ dependsOn check, id ∈ before.map idOf := by
  have hrefines := orderChecks_refines hselected
  rw [orderChecks] at h
  cases hsearch : Search.search (prerequisites checks) (checks.map idOf) with
  | error stop =>
      rw [hsearch] at hrefines
      cases stop with
      | cycle =>
          rw [refines_cycle.1 hrefines] at h
          cases h
      | fuel =>
          rw [refines_fuel.1 hrefines] at h
          cases h
  | ok after =>
      rw [hsearch] at hrefines
      obtain ⟨s, hs, rfl, htracks⟩ := hrefines
      rw [hs] at h
      obtain rfl : s.ordered = ordered := Except.ok.inj h
      obtain ⟨⟨hfinished, hnodup⟩, -, hall⟩ := Search.foldlM_ok
        (fun visited => Search.Finished (prerequisites checks) visited ∧ visited.Nodup)
        (fun id visited => id ∈ visited) (fun hid hsub => hsub hid)
        (fun {visited id after} hvisited hvisit =>
          have hok := Search.visit_ok hvisited.1 hvisit
          ⟨⟨hok.1, (Search.visit_fresh hvisited.2 (by simp) hvisit).1⟩, hok.2⟩)
        (show Search.Finished (prerequisites checks) [] ∧ _ from ⟨trivial, List.nodup_nil⟩) hsearch
      refine ⟨?_, fun before check after hcut id hid => ?_⟩
      -- both lists hold each check once, so it is enough that they have the same members
      · have hids : (s.ordered.map idOf).Nodup := by
          rw [htracks.ids]
          exact List.nodup_reverse.mpr hnodup
        refine (List.perm_ext_iff_of_nodup hids.of_map hselected.distinct.of_map).mpr
          fun check => ⟨htracks.mem check, fun hcheck => ?_⟩
        have hdone := hall _ (List.mem_map_of_mem hcheck)
        rw [← List.mem_reverse, ← htracks.ids] at hdone
        obtain ⟨other, hother, hid⟩ := List.mem_map.mp hdone
        have := List.inj_on_of_nodup_map hselected.distinct (htracks.mem other hother) hcheck hid
        exact this ▸ hother
      · have hdone : s.done =
            (after.map idOf).reverse ++ (idOf check :: (before.map idOf).reverse) := by
          rw [← List.reverse_reverse s.done, ← htracks.ids, hcut]
          simp
        rw [hdone] at hfinished
        have hcheck : check ∈ checks := htracks.mem check (hcut ▸ by simp)
        -- what is visited later is in front, so all it depends on is behind it
        have hbefore := hfinished.of_append.1 id (by rwa [prerequisites_idOf hselected hcheck])
        exact List.mem_reverse.mp hbefore

/-- **A failure of the order** is a cycle. -/
theorem orderChecks_error {failure : PlanFailure} (h : orderChecks checks = .error failure) :
    failure = cyclicPrerequisites ∧ ∃ id, TransGen (DependsOn checks) id id := by
  have hrefines := orderChecks_refines hselected
  rw [orderChecks] at h
  have hleaf : ∀ id, id ∉ checks.map idOf → prerequisites checks id = [] :=
    fun id => prerequisites_eq_nil
  cases hsearch : Search.search (prerequisites checks) (checks.map idOf) with
  | ok after =>
      rw [hsearch] at hrefines
      obtain ⟨s, hs, -⟩ := hrefines
      rw [hs] at h
      cases h
  | error stop =>
      obtain ⟨id, -, before, herror⟩ := Search.foldlM_error hsearch
      cases stop with
      | fuel =>
          exact absurd herror (Search.visit_ne_fuel hleaf List.nodup_nil (by simp) (by simp))
      | cycle =>
          rw [hsearch] at hrefines
          rw [refines_cycle.1 hrefines] at h
          obtain ⟨other, hcycle⟩ := Search.visit_cycle (by simp) herror
          refine ⟨(Except.error.inj h).symm, other, ?_⟩
          exact TransGen.mono (fun _ _ => (edge_iff hselected).mp) _ _ hcycle

end Selected

end Hepha.Verification
