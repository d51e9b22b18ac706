import Hepha.Routing.History

/-!
# Fallback cycles over runs

A selector sends a run on from its route to a fallback route.  The routing matrix
refuses a row that would close a cycle, and a reset only leaves selectors out, so a
policy without a cycle stays without one as long as it is changed through the
matrix, by resets and by acknowledgements (`run_acyclic`).

What a selector goes on to depends on the global selector, so the relation of a
part of a policy is a part of its relation only if the global selector is in the
part (`FallsBack.mono`).
-/

namespace Hepha.Routing.Store

open Hepha.Runtime (RouteIdentity)
open JsString (toWellFormed)

variable {digest : JsString → JsString} {collate : JsString → JsString → Bool} {s t : Store}
  {revision current : PolicyRevision} {identity : PolicyIdentity}
  {selectors others : List PolicySelector}

/-! ## The global selector -/

/-- Part of a policy that keeps its global selector has the same one. -/
theorem find?_global_eq (hsub : ∀ selector ∈ selectors, selector ∈ others)
    (hglobal : ∀ selector ∈ others, selector.scope = .global → selector ∈ selectors)
    (hnodup : (others.map PolicySelector.scope).Nodup) :
    (selectors.find? fun selector => selector.scope = .global) =
      others.find? fun selector => selector.scope = .global := by
  have hunique := List.inj_on_of_nodup_map hnodup
  cases hfind : others.find? fun selector => selector.scope = .global with
  | none =>
      rw [List.find?_eq_none] at hfind ⊢
      exact fun selector hselector => hfind selector (hsub selector hselector)
  | some selector =>
      have hmem := List.mem_of_find?_eq_some hfind
      have hscope : selector.scope = .global := by simpa using List.find?_some hfind
      cases hfind' : selectors.find? fun selector => selector.scope = .global with
      | none =>
          rw [List.find?_eq_none] at hfind'
          exact absurd (decide_eq_true hscope) (hfind' selector (hglobal selector hmem hscope))
      | some selector' =>
          have hscope' : selector'.scope = .global := by simpa using List.find?_some hfind'
          exact congrArg some (hunique (hsub _ (List.mem_of_find?_eq_some hfind')) hmem
            (hscope'.trans hscope.symm))

/-- **Part of a policy that keeps its global selector** falls back at most where the whole
does. -/
theorem FallsBack.mono (hsub : ∀ selector ∈ selectors, selector ∈ others)
    (hglobal : ∀ selector ∈ others, selector.scope = .global → selector ∈ selectors)
    (hnodup : (others.map PolicySelector.scope).Nodup) {source target : JsString}
    (h : FallsBack selectors source target) : FallsBack others source target := by
  obtain ⟨selector, hselector, hscope, route, fallbackRoute, hedge, hends⟩ := h
  refine ⟨selector, hsub selector hselector, hscope, route, fallbackRoute, ?_, hends⟩
  rw [← hedge, fallbackEdge, fallbackEdge, find?_global_eq hsub hglobal hnodup]

theorem acyclic_of_perm (hperm : selectors.Perm others)
    (hnodup : (others.map PolicySelector.scope).Nodup) (h : Acyclic (FallsBack others)) :
    Acyclic (FallsBack selectors) :=
  h.mono fun _ _ => FallsBack.mono (fun _ hselector => hperm.mem_iff.mp hselector)
    (fun _ hselector _ => hperm.mem_iff.mpr hselector) hnodup

/-! ## One call -/

/-- A call that does not set the whole policy. -/
def Call.isPartial : Call → Bool
  | .applyMutation _ _ => false
  | _ => true

/-- The policy that is read, if any, has no fallback cycle. -/
def CycleFree (s : Store) : Prop :=
  ∀ current, s.getCurrentPolicy = some (some current) → Acyclic (FallsBack current.selectors)

theorem nodup_scopes (h : (selectors.map fun selector =>
    toWellFormed (selectorScopeKey selector.scope)).Nodup) :
    (selectors.map PolicySelector.scope).Nodup := by
  refine List.Nodup.of_map (fun scope => toWellFormed (selectorScopeKey scope)) ?_
  rw [List.map_map]
  exact h

/-- A revision without a cycle is read without one. -/
theorem cycleFree_withRevision (hs : Sound s) (hprepared : Prepared s revision identity)
    (hnodup : (revision.selectors.map fun selector =>
      toWellFormed (selectorScopeKey selector.scope)).Nodup)
    (h : Acyclic (FallsBack revision.selectors)) (attention : List Attention) :
    CycleFree { withRevision s revision identity with attention } := by
  intro policy hpolicy
  have hstate : some (toWellFormed revision.revisionId, toWellFormed revision.registryVersion) =
      some (policy.revisionId, policy.registryVersion) := (state_of_getCurrentPolicy hpolicy).1
  obtain ⟨hid, -⟩ := Prod.mk.inj (Option.some.inj hstate)
  have hperm := (getCurrentPolicy_spec hpolicy).2.2
  rw [← hid] at hperm
  have hrows := filter_selectors hs hprepared (toWellFormed revision.revisionId)
  rw [if_pos rfl] at hrows
  rw [show (({ withRevision s revision identity with attention } : Store).selectors.filter
    fun row => row.revisionId = toWellFormed revision.revisionId) = _ from hrows, List.map_map]
    at hperm
  have hsame : revision.selectors.map (SelectorRow.selector ∘ selectorRow revision.revisionId) =
      revision.selectors := List.map_id _
  rw [hsame] at hperm
  exact acyclic_of_perm hperm (nodup_scopes hnodup) h

/-- **A call that does not set the whole policy makes no fallback cycle.** -/
theorem cycleFree_perform (hs : Sound s) (h : CycleFree s) {call : Call}
    (hrows : call.isPartial = true) : CycleFree (s.perform digest collate call) := by
  cases call with
  | applyMutation input context => cases hrows
  | acknowledgeAttention attentionId acknowledgedAt =>
      change CycleFree (s.acknowledgeAttention attentionId acknowledgedAt)
      unfold acknowledgeAttention
      split
      · exact h
      · exact h
  | acknowledgeMatrixAttention input =>
      change CycleFree (s.acknowledgeMatrixAttention input)
      unfold acknowledgeMatrixAttention
      split
      · exact h
      · split
        · split
          · exact h
          · split
            · exact h
            · split
              · exact h
              · exact h
        · exact h
  | applyRowMutation input context settleCandidate =>
      change CycleFree (s.applyRowMutation digest collate input context settleCandidate).2
      unfold applyRowMutation
      split
      · exact h
      · split
        · split
          · exact h
          · rename_i hmutation
            split
            · exact h
            · rename_i candidate hprepare
              split
              · split
                · exact h
                · rename_i hinsert
                  obtain ⟨hprepared, hperm, -⟩ := prepareRevision_eq_some hprepare
                  obtain ⟨hnodup, -, rfl⟩ :=
                    (insertPreparedRevision_eq_some_iff hs hprepared).mp hinsert
                  have hscopes := (hperm.map _).nodup_iff.mp (nodup_scopes hnodup)
                  exact cycleFree_withRevision hs hprepared hnodup (acyclic_of_perm hperm hscopes
                    (prepareRowMutation_acyclic hmutation)) s.attention
              · exact h
        · exact h
  | resetUnavailableRoutes registryVersion routes reasonCode occurredAt actor correlationId =>
      change CycleFree (s.resetUnavailableRoutes digest collate registryVersion routes reasonCode
        occurredAt actor correlationId).2
      unfold resetUnavailableRoutes
      split
      · exact h
      · split
        · exact h
        · exact h
        · rename_i current hcurrent
          split
          · exact h
          · dsimp only
            split
            · exact h
            · split
              · exact h
              · rename_i hinsert
                obtain ⟨identity, hprepare, hinsert⟩ := insertRevision_eq_some hinsert
                obtain ⟨hprepared, hperm, -⟩ := prepareRevision_eq_some hprepare
                obtain ⟨hnodup, -, rfl⟩ :=
                  (insertPreparedRevision_eq_some_iff hs hprepared).mp hinsert
                split
                · exact h
                · -- the selectors that are left are a part of the policy, with its global one
                  have hscopes := (hperm.map _).nodup_iff.mp (nodup_scopes hnodup)
                  refine cycleFree_withRevision hs hprepared hnodup
                    (acyclic_of_perm hperm hscopes ?_) _
                  refine (h current hcurrent).mono fun _ _ => FallsBack.mono
                    (fun selector hselector => (List.mem_filter.mp hselector).1) ?_
                    (nodup_scopes (current_scopes_nodup hs hcurrent))
                  intro selector hselector hscope
                  refine List.mem_filter.mpr ⟨hselector, decide_eq_true fun haffected => ?_⟩
                  have := (List.mem_filter.mp haffected).2
                  rw [hscope] at this
                  simp at this

theorem cycleFree_run (hs : Sound s) (h : CycleFree s) {calls : List Call}
    (hrows : ∀ call ∈ calls, call.isPartial = true) :
    CycleFree (s.run digest collate calls) := by
  induction calls generalizing s with
  | nil => exact h
  | cons call rest ih =>
      obtain ⟨hcall, hrest⟩ := List.forall_mem_cons.mp hrows
      exact ih (hs.written (written_perform call)) (cycleFree_perform hs h hcall) hrest

/-- **A policy without a fallback cycle stays without one**: if the policy that some calls
lead to has none, no policy that row changes, resets and acknowledgements lead to from
there has one. -/
theorem run_acyclic {calls more : List Call} {later : PolicyRevision}
    (h : (Store.empty.run digest collate calls).getCurrentPolicy = some (some current))
    (hacyclic : Acyclic (FallsBack current.selectors))
    (hrows : ∀ call ∈ more, call.isPartial = true)
    (hlater : (Store.empty.run digest collate (calls ++ more)).getCurrentPolicy =
      some (some later)) :
    Acyclic (FallsBack later.selectors) := by
  obtain ⟨hs, -⟩ := @history_run digest collate _ Sound.empty Numbered.empty calls
  have hfree : CycleFree (Store.empty.run digest collate calls) := by
    intro policy hpolicy
    obtain rfl : current = policy := by
      rw [h] at hpolicy
      exact Option.some.inj (Option.some.inj hpolicy)
    exact hacyclic
  rw [run_append] at hlater
  exact cycleFree_run hs hfree hrows later hlater

/-- The reset of the route of the sample. -/
def sampleReset : Call :=
  .resetUnavailableRoutes (js "r/v1") [⟨js "c", js "m"⟩] (js "ROUTE_UNAVAILABLE")
    (js "2026-01-02T00:00:00.000Z") none none

theorem run_acyclic_sample : ∃ later : PolicyRevision,
    (sampleStore.run (fun _ => js "g") (fun a b => a ≤ b) [sampleReset]).getCurrentPolicy =
      some (some later) ∧ Acyclic (FallsBack later.selectors) := by
  obtain ⟨calls, hcalls⟩ := exists_calls_sampleStore
  have hlater : ∃ later, (sampleStore.run (fun _ => js "g") (fun a b => a ≤ b)
      [sampleReset]).getCurrentPolicy = some (some later) := ⟨_, rfl⟩
  obtain ⟨later, hlater⟩ := hlater
  refine ⟨later, hlater, @run_acyclic _ _ samplePolicy calls [sampleReset] later
    (by rw [hcalls]; rfl) (hasFallbackCycle_eq_false_iff.1 (by decide))
    (List.forall_mem_singleton.mpr rfl) ?_⟩
  rw [run_append, hcalls]
  exact hlater

end Hepha.Routing.Store
