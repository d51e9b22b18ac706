import Hepha.Routing.Projector

/-!
# The matrix agrees with the resolver

The projector and the resolver read the same selectors, the one through a map of
their scopes and the other by searching them, and judge the same facts, the one
with a list of reasons and the other with the first refusal.  This module proves
that they agree about every registered action (`project_agrees_resolve`).

## Strategy

Different scopes have different keys, so on a policy without two selectors of one
scope the map finds what the search finds (`get_selectorMap`).  Then the row of an
action has the route that the resolver tries first (`resolvePolicy_eq`), and there
are no reasons against it exactly if it is not refused (`validateRoute_eq_none_iff`).
What is left is where the rows of a matrix come from (`project_eq_some`,
`mem_registryByType`).
-/

namespace Hepha.Routing

open Hepha.Runtime (RouteIdentity AgentActionType RoutingPolicySource)

/-! ## Selectors -/

theorem actionTypeText_injective {left right : AgentActionType}
    (h : js (actionTypeText left) = js (actionTypeText right)) : left = right := by
  cases left <;> cases right <;> first | rfl | exact absurd h (by decide)

/-- Different scopes have different keys. -/
theorem selectorScopeKey_injective {left right : SelectorScope}
    (h : selectorScopeKey left = selectorScopeKey right) : left = right := by
  have htype : ∀ actionType, (selectorScopeKey (.actionType actionType)).take 7 =
      js "action_" := fun actionType => by
    cases actionType <;> decide
  have haction : ∀ actionId, (selectorScopeKey (.action actionId)).take 7 = js "action:" := by
    intro actionId
    rw [selectorScopeKey, List.take_append_of_le_length (by decide)]
    decide
  have hglobal : (selectorScopeKey .global).take 7 = js "global" := by decide
  have h7 := congrArg (List.take 7) h
  cases left with
  | global =>
      cases right with
      | global => rfl
      | actionType _ =>
          rw [hglobal, htype] at h7
          exact absurd h7 (by decide)
      | action _ =>
          rw [hglobal, haction] at h7
          exact absurd h7 (by decide)
  | actionType _ =>
      cases right with
      | global =>
          rw [hglobal, htype] at h7
          exact absurd h7 (by decide)
      | actionType _ =>
          rw [selectorScopeKey, selectorScopeKey, List.append_cancel_left_eq] at h
          rw [actionTypeText_injective h]
      | action _ =>
          rw [htype, haction] at h7
          exact absurd h7 (by decide)
  | action _ =>
      cases right with
      | global =>
          rw [hglobal, haction] at h7
          exact absurd h7 (by decide)
      | actionType _ =>
          rw [htype, haction] at h7
          exact absurd h7 (by decide)
      | action _ =>
          rw [selectorScopeKey, selectorScopeKey, List.append_cancel_left_eq] at h
          rw [h]

/-- The map of the selectors finds the selector of a scope. -/
theorem get_selectorMap {policy : PolicyRevision}
    (hnodup : (policy.selectors.map fun selector => selectorScopeKey selector.scope).Nodup)
    (scope : SelectorScope) :
    JsMap.get (selectorMap policy.selectors) (selectorScopeKey scope) =
      selectorOf policy scope := by
  have hkeys : (selectorMap policy.selectors).map Prod.fst =
      policy.selectors.map fun selector => selectorScopeKey selector.scope := by
    rw [selectorMap, List.map_map]
    rfl
  cases hfound : selectorOf policy scope with
  | none =>
      rw [JsMap.get_eq_none_iff, hkeys, List.mem_map]
      rintro ⟨selector, hmem, hkey⟩
      rw [selectorOf, List.find?_eq_none] at hfound
      exact hfound selector hmem (decide_eq_true (selectorScopeKey_injective hkey))
  | some selector =>
      rw [selectorOf] at hfound
      have hscope : selector.scope = scope := by
        simpa using List.find?_some hfound
      refine JsMap.get_of_mem (hkeys ▸ hnodup) ?_
      rw [← hscope]
      exact List.mem_map_of_mem (List.mem_of_find?_eq_some hfound)

/-! ## Reasons -/

theorem capabilityReasons_eq_nil_iff {isRequired : Bool} {capability : RouteFact → Option Bool}
    {unknown needed : ReasonCode} {fact : Option RouteFact} :
    capabilityReasons isRequired capability unknown needed fact = [] ↔
      (isRequired = true → ∃ f ∈ fact, capability f = some true) := by
  cases isRequired with
  | false => simp [capabilityReasons]
  | true =>
      cases fact with
      | none => simp [capabilityReasons]
      | some fact =>
          rcases h : capability fact with _ | _ | _ <;> simp [capabilityReasons, h]

/-- There are no reasons against a route exactly if it is not refused. -/
theorem validateRoute_eq_none_iff {route : RouteIdentity} {action : RegistryEntry}
    {facts : List RouteFact} {isGlobal : Bool}
    (hentry : isCapabilityRequirements action.capabilityRequirements = true) :
    validateRoute route action facts isGlobal = none ↔
      routeReasons (factOf facts route) action.capabilityRequirements = [] := by
  -- a route of unknown size counts as smaller than any requirement
  have hminimum : JsNumber.lt (.int (-1))
      action.capabilityRequirements.minimumContextWindowTokens = true := by
    rw [isCapabilityRequirements] at hentry
    cases hvalue : action.capabilityRequirements.minimumContextWindowTokens with
    | int value =>
        rw [hvalue, isPositiveInteger, Bool.and_eq_true, decide_eq_true_eq] at hentry
        exact decide_eq_true (by omega)
    | fraction _ _ => simp [hvalue, isPositiveInteger] at hentry
    | infinite _ => simp [hvalue, isPositiveInteger] at hentry
    | nan => simp [hvalue, isPositiveInteger] at hentry
  rw [validateRoute]
  cases factOf facts route with
  | none => simp [routeReasons]
  | some fact =>
      rw [routeReasons, List.append_eq_nil_iff, List.append_eq_nil_iff, List.append_eq_nil_iff,
        List.append_eq_nil_iff, List.append_eq_nil_iff, capabilityReasons_eq_nil_iff,
        capabilityReasons_eq_nil_iff, capabilityReasons_eq_nil_iff]
      cases hactive : fact.connectionActive with
      | false => simp [hactive]
      | true =>
          cases havailable : fact.available with
          | false => simp [hactive, havailable]
          | true =>
              cases htokens : fact.contextWindowTokens with
              | none => simp [hactive, havailable, htokens, hminimum]
              | some tokens => simp [hactive, havailable, htokens, and_assoc]

/-! ## The row of an action -/

section Row

variable {policy : PolicyRevision} {action : RegistryEntry} {facts : List RouteFact}
  {globalRoute : RouteIdentity × FailurePolicy} {catalog : MatrixCatalogFacts}

/-- The row of an action, with the selectors that a search of the policy finds. -/
def rowOf (policy : PolicyRevision) (action : RegistryEntry)
    (globalRoute : RouteIdentity × FailurePolicy) (catalog : MatrixCatalogFacts) : ActionRow :=
  actionRow action (selectorOf policy (.action action.actionId))
    (selectorOf policy (.actionType action.actionType)) globalRoute catalog

/-- The resolver makes its plan from the assignment of the row. -/
theorem resolvePolicy_eq (hglobal : explicitRoute (selectorOf policy .global) = some globalRoute)
    (catalog : MatrixCatalogFacts) :
    resolvePolicy policy action facts = planFor policy action facts globalRoute.1
      (rowOf policy action globalRoute catalog).effectiveRoute.route
      (rowOf policy action globalRoute catalog).effectiveFailurePolicy
      (rowOf policy action globalRoute catalog).policySource := by
  obtain ⟨globalRoute, globalFailure⟩ := globalRoute
  simp only [resolvePolicy, hglobal, rowOf, actionRow, matrixRoute]
  cases explicitRoute (selectorOf policy (.action action.actionId)) with
  | some selected => rfl
  | none =>
      cases explicitRoute (selectorOf policy (.actionType action.actionType)) with
      | some selected => rfl
      | none => rfl

theorem planFor_ok {primary fallback : RouteIdentity} {failurePolicy : FailurePolicy}
    {source : RoutingPolicySource} {plan : HandoffPlan}
    (h : planFor policy action facts fallback primary failurePolicy source = .ok plan) :
    validateRoute primary action facts (source == .global) = none ∧
      plan.steps.head? = some ⟨.primary, primary⟩ ∧ plan.resolvedRoute.route = primary ∧
      plan.resolvedRoute.policySource = source := by
  rw [planFor] at h
  split at h
  · cases h
  · rename_i hvalid
    cases hsteps : (if source == .global then Except.ok []
        else recoverySteps primary fallback failurePolicy action facts) with
    | error code =>
        rw [hsteps] at h
        cases h
    | ok recovery =>
        rw [hsteps] at h
        cases h
        exact ⟨hvalid, rfl, rfl, rfl⟩

theorem planFor_failImmediately {primary fallback : RouteIdentity} {source : RoutingPolicySource}
    (h : validateRoute primary action facts (source == .global) = none) :
    ∃ plan, planFor policy action facts fallback primary .failImmediately source = .ok plan := by
  rw [planFor, h, recoverySteps, ite_self]
  exact ⟨_, rfl⟩

theorem eligible_rowOf : (rowOf policy action globalRoute catalog).eligibility.eligible = true ↔
    routeReasons (factOf catalog.routes
      (rowOf policy action globalRoute catalog).effectiveRoute.route)
      action.capabilityRequirements = [] := by
  rw [← List.length_eq_zero_iff]
  exact beq_iff_eq

/-- A row agrees with a resolution: it has the route that is tried first and where
it comes from, it is ineligible only if there is no plan, and it is eligible
without a plan only if the failure policy names another route. -/
def Agrees (row : MatrixRow) (resolution : Except ResolutionErrorCode HandoffPlan) : Prop :=
  (∀ plan, resolution = .ok plan →
    plan.steps.head? = some ⟨.primary, row.effectiveRoute.route⟩ ∧
      plan.resolvedRoute.route = row.effectiveRoute.route ∧
      plan.resolvedRoute.policySource = row.policySource) ∧
    (row.eligibility.eligible = false → ∃ code, resolution = .error code) ∧
    (row.eligibility.eligible = true → row.effectiveFailurePolicy = .failImmediately →
      ∃ plan, resolution = .ok plan)

/-- The row of an action agrees with its resolution. -/
theorem rowOf_agrees (hglobal : explicitRoute (selectorOf policy .global) = some globalRoute)
    (hentry : isCapabilityRequirements action.capabilityRequirements = true) :
    Agrees (rowOf policy action globalRoute catalog).toMatrixRow
      (resolvePolicy policy action catalog.routes) := by
  rw [resolvePolicy_eq hglobal catalog]
  refine ⟨fun plan hplan => (planFor_ok hplan).2, fun hineligible => ?_, fun heligible hfail => ?_⟩
  · cases hplan : planFor policy action catalog.routes globalRoute.1
        (rowOf policy action globalRoute catalog).effectiveRoute.route
        (rowOf policy action globalRoute catalog).effectiveFailurePolicy
        (rowOf policy action globalRoute catalog).policySource with
    | error code => exact ⟨code, rfl⟩
    | ok plan =>
        -- a plan begins with a route that was validated, so there are no reasons
        have hreasons := (validateRoute_eq_none_iff hentry).mp (planFor_ok hplan).1
        rw [eligible_rowOf.2 hreasons] at hineligible
        cases hineligible
  · rw [hfail]
    exact planFor_failImmediately
      ((validateRoute_eq_none_iff hentry).mpr (eligible_rowOf.1 heligible))

end Row

/-! ## The rows of a matrix -/

/-- The entries of each type, in their order. -/
theorem registryByType_spec (registry : List RegistryEntry) :
    ((registryByType registry).map Prod.fst).Nodup ∧
      ∀ actionType, (JsMap.get (registryByType registry) actionType).getD [] =
        registry.filter fun entry => entry.actionType = actionType := by
  have hfold : ∀ (byType : List (AgentActionType × List RegistryEntry)),
      (byType.map Prod.fst).Nodup →
      ((registry.foldl (fun byType entry => JsMap.set byType entry.actionType
        ((JsMap.get byType entry.actionType).getD [] ++ [entry])) byType).map Prod.fst).Nodup ∧
      ∀ actionType, (JsMap.get (registry.foldl (fun byType entry =>
        JsMap.set byType entry.actionType
          ((JsMap.get byType entry.actionType).getD [] ++ [entry])) byType) actionType).getD [] =
        (JsMap.get byType actionType).getD [] ++
          registry.filter fun entry => entry.actionType = actionType := by
    induction registry with
    | nil => exact fun byType hnodup => ⟨hnodup, fun _ => (List.append_nil _).symm⟩
    | cons entry rest ih =>
        intro byType hnodup
        -- each entry is appended to the group of its type, which may be new
        obtain ⟨hkeys, hrest⟩ := ih (JsMap.set byType entry.actionType
          ((JsMap.get byType entry.actionType).getD [] ++ [entry])) (JsMap.nodup_keys_set hnodup)
        refine ⟨hkeys, fun actionType => ?_⟩
        rw [List.foldl_cons, hrest, JsMap.get_set, List.filter_cons]
        by_cases htype : entry.actionType = actionType
        · subst htype
          rw [if_pos rfl, if_pos (decide_eq_true rfl), Option.getD_some, List.append_assoc]
          rfl
        · rw [if_neg (Ne.symm htype), if_neg (by simpa using htype)]
  obtain ⟨hkeys, hget⟩ := hfold [] List.nodup_nil
  exact ⟨hkeys, hget⟩

/-- The groups of the map hold the entries of their types, and no others. -/
theorem mem_registryByType {registry entries : List RegistryEntry} {actionType : AgentActionType}
    (h : (actionType, entries) ∈ registryByType registry) :
    entries = registry.filter fun entry => entry.actionType = actionType := by
  obtain ⟨hkeys, hget⟩ := registryByType_spec registry
  rw [← hget actionType, JsMap.get_of_mem hkeys h]
  rfl

/-- Every type of an entry has its group. -/
theorem exists_mem_registryByType {registry : List RegistryEntry} {entry : RegistryEntry}
    (h : entry ∈ registry) :
    ∃ entries, (entry.actionType, entries) ∈ registryByType registry ∧ entry ∈ entries := by
  obtain ⟨-, hget⟩ := registryByType_spec registry
  have hmem : entry ∈ (JsMap.get (registryByType registry) entry.actionType).getD [] := by
    rw [hget, List.mem_filter]
    exact ⟨h, decide_eq_true rfl⟩
  cases hfound : JsMap.get (registryByType registry) entry.actionType with
  | none =>
      rw [hfound] at hmem
      exact absurd hmem List.not_mem_nil
  | some entries =>
      rw [hfound] at hmem
      exact ⟨entries, JsMap.mem_of_get hfound, hmem⟩

section Project

variable {collate : JsString → JsString → Ordering} {input : ProjectionInput}
  {snapshot : MatrixSnapshot}

/-- What a projected matrix is made from. -/
theorem project_eq_some (h : project collate input = some snapshot) :
    isProjectionInput input = true ∧ authoritiesBound input = true ∧ ∃ globalRoute groups,
      explicitRoute (JsMap.get (selectorMap input.policy.selectors) (js "global")) =
        some (globalRoute, .failImmediately) ∧
      ((registryByType input.registry).mapM fun group =>
        actionTypeGroup (selectorMap input.policy.selectors) (globalRoute, .failImmediately)
          input.catalog group.2) = some groups ∧
      snapshot.groups.Perm groups := by
  rw [project] at h
  split at h
  swap
  · cases h
  rename_i hinput
  rw [Bool.and_eq_true] at hinput
  refine ⟨hinput.1, hinput.2, ?_⟩
  simp only [Option.bind_eq_bind, Option.bind_eq_some_iff] at h
  obtain ⟨⟨globalRoute, globalFailure⟩, hglobal, h⟩ := h
  split at h
  · cases h
  · rename_i hfailure
    obtain rfl := not_not.mp hfailure
    obtain ⟨groups, hgroups, h⟩ := Option.bind_eq_some_iff.mp h
    refine ⟨globalRoute, groups, hglobal, hgroups, ?_⟩
    split at h
    · cases h
      exact List.perm_insertionSort _ _
    · cases h

/-- The selectors of a projected policy have different scopes. -/
theorem nodup_scopes (h : authoritiesBound input = true) :
    (input.policy.selectors.map fun selector => selectorScopeKey selector.scope).Nodup := by
  simp only [authoritiesBound, Bool.and_eq_true, hasUniqueValues_iff] at h
  exact h.1.1.2

/-- The rows of the actions are those of the registered actions. -/
theorem mem_actions (h : project collate input = some snapshot) :
    ∃ globalRoute, explicitRoute (selectorOf input.policy .global) =
        some (globalRoute, .failImmediately) ∧
      ∀ row, (∃ group ∈ snapshot.groups, row ∈ group.actions) ↔ ∃ entry ∈ input.registry,
        row = rowOf input.policy entry (globalRoute, .failImmediately) input.catalog := by
  obtain ⟨-, hbound, globalRoute, groups, hglobal, hgroups, hperm⟩ := project_eq_some h
  have hget := get_selectorMap (nodup_scopes hbound)
  have hrows : ∀ {actionType entries group},
      (actionType, entries) ∈ registryByType input.registry →
      actionTypeGroup (selectorMap input.policy.selectors) (globalRoute, .failImmediately)
        input.catalog entries = some group →
      ∀ row, row ∈ group.actions ↔ ∃ entry ∈ entries,
        row = rowOf input.policy entry (globalRoute, .failImmediately) input.catalog := by
    intro actionType entries group hmem hgroup row
    -- the group looks its selector up by the type of its first entry
    have htypes : ∀ entry ∈ entries, entry.actionType = actionType := by
      intro entry hentry
      rw [mem_registryByType hmem, List.mem_filter] at hentry
      exact of_decide_eq_true hentry.2
    cases entries with
    | nil => cases hgroup
    | cons first rest =>
        cases hgroup
        rw [List.mem_map]
        simp only [List.mem_insertionSort, hget]
        refine exists_congr fun entry => and_congr_right fun hentry => ?_
        rw [htypes first List.mem_cons_self, ← htypes entry hentry, rowOf]
        exact eq_comm
  refine ⟨globalRoute, ?_, fun row => ⟨?_, ?_⟩⟩
  · rw [← hget .global]
    exact hglobal
  · rintro ⟨group, hgroup, hrow⟩
    obtain ⟨⟨actionType, entries⟩, hmem, hgroup⟩ :=
      exists_item_of_mapM hgroups (hperm.mem_iff.mp hgroup)
    obtain ⟨entry, hentry, rfl⟩ := (hrows hmem hgroup row).mp hrow
    rw [mem_registryByType hmem] at hentry
    exact ⟨entry, List.mem_of_mem_filter hentry, rfl⟩
  · rintro ⟨entry, hentry, rfl⟩
    obtain ⟨entries, hmem, hin⟩ := exists_mem_registryByType hentry
    obtain ⟨group, hgroup, hactions⟩ := exists_value_of_mapM hgroups hmem
    exact ⟨group, hperm.mem_iff.mpr hgroup, (hrows hmem hactions _).mpr ⟨entry, hin, rfl⟩⟩

end Project

/-! ## Resolving on the same inputs -/

/-- With a policy in the store, a registered action is resolved by it. -/
theorem resolve_of_policy {σ : Type} {port : StorePort σ} {store : σ} {registry : AgentRegistry}
    {facts : List RouteFact} {request : ResolutionInput} {policy : PolicyRevision}
    {entry : RegistryEntry} (hfacts : isRouteFactCollection facts = true)
    (hpolicy : port.getCurrentPolicy store = some (some policy))
    (hversion : policy.registryVersion = registry.version) (hentry : entry ∈ registry.entries)
    (haction : request.actionId = entry.actionId)
    (hbootstrap : request.bootstrap.all isBootstrap = true) :
    (resolve port registry facts store request).1 = resolvePolicy policy entry facts := by
  have hcollection := registry.isCollection
  simp only [isRegistryCollection, Bool.and_eq_true, List.all_eq_true, hasUniqueValues_iff]
    at hcollection
  obtain ⟨⟨⟨⟨⟨-, hentries⟩, hids⟩, -⟩, -⟩, -⟩ := hcollection
  have hvalid := hentries entry hentry
  simp only [isRegistryEntry, isActionId, Bool.and_eq_true] at hvalid
  have hinput : isResolutionInput request = true := by
    rw [isResolutionInput, Bool.and_eq_true, haction]
    exact ⟨hvalid.1.1.1.1.1.1.2, hbootstrap⟩
  -- the registry is a map by identifiers, which are unique
  have hget : registry.get request.actionId = some entry := by
    refine JsMap.get_of_mem ?_ ?_
    · rw [List.map_map]
      exact hids
    · rw [haction]
      exact List.mem_map_of_mem hentry
  rw [resolve, hinput, Bool.not_true, if_neg Bool.false_ne_true, hget]
  dsimp only
  rw [hfacts, Bool.not_true, if_neg Bool.false_ne_true, policyFor, hpolicy]
  dsimp only
  rw [if_neg (not_not.mpr hversion)]

/-- **The matrix agrees with the resolver** about every registered action. -/
theorem project_agrees_resolve {σ : Type} {port : StorePort σ} {store : σ}
    {registry : AgentRegistry} {collate : JsString → JsString → Ordering}
    {input : ProjectionInput} {snapshot : MatrixSnapshot}
    (hproject : project collate input = some snapshot)
    (hregistry : registry.entries = input.registry)
    (hversion : registry.version = input.registryVersion)
    (hpolicy : port.getCurrentPolicy store = some (some input.policy)) :
    ∀ entry ∈ input.registry,
      (∃ group ∈ snapshot.groups, ∃ row ∈ group.actions, row.scope = .action entry.actionId) ∧
      ∀ group ∈ snapshot.groups, ∀ row ∈ group.actions, row.scope = .action entry.actionId →
        ∀ bootstrap : Option Bootstrap, bootstrap.all isBootstrap = true →
          Agrees row.toMatrixRow
            (resolve port registry input.catalog.routes store ⟨entry.actionId, bootstrap⟩).1 := by
  obtain ⟨hinput, hbound, -⟩ := project_eq_some hproject
  obtain ⟨globalRoute, hglobal, hrows⟩ := mem_actions hproject
  simp only [isProjectionInput, isMatrixCatalogFacts, Bool.and_eq_true] at hinput
  have hfacts := hinput.1.1.2.1.1.1.1.1.1.1
  have hcollection := hinput.1.1.1.1.1.2
  simp only [isRegistryCollection, Bool.and_eq_true, List.all_eq_true, hasUniqueValues_iff]
    at hcollection
  have hpolicyVersion : input.policy.registryVersion = registry.version := by
    simp only [authoritiesBound, Bool.and_eq_true, beq_iff_eq] at hbound
    rw [hbound.1.1.1.1.1, hversion]
  intro entry hentry
  have hrequirements : isCapabilityRequirements entry.capabilityRequirements = true := by
    have hvalid := hcollection.1.1.1.1.2 entry hentry
    simp only [isRegistryEntry, Bool.and_eq_true] at hvalid
    exact hvalid.2
  refine ⟨?_, ?_⟩
  · obtain ⟨group, hgroup, hrow⟩ := (hrows _).mpr ⟨entry, hentry, rfl⟩
    exact ⟨group, hgroup, _, hrow, rfl⟩
  · intro group hgroup row hrow hscope bootstrap hbootstrap
    obtain ⟨other, hother, rfl⟩ := (hrows row).mp ⟨group, hgroup, hrow⟩
    -- the identifiers of the actions are unique, so the row is that of the entry
    have hsame : other = entry :=
      List.inj_on_of_nodup_map hcollection.1.1.1.2 hother hentry (SelectorScope.action.inj hscope)
    subst hsame
    rw [resolve_of_policy hfacts hpolicy hpolicyVersion (hregistry ▸ hother) rfl hbootstrap]
    exact rowOf_agrees hglobal hrequirements

/-- A registry of one action. -/
def sampleRegistry : AgentRegistry where
  version := js "r/v1"
  entries := [⟨js "a", .review, js "Review", .int 1, js "Act", .int 1, .codeReviewAgent, js "a/v1",
    ⟨.int 1, true, false, false⟩⟩]
  isVersion := by decide
  isCollection := by decide

/-- A policy that sends the action to a route of its own. -/
def sampleProjection : ProjectionInput where
  registryVersion := js "r/v1"
  registry := sampleRegistry.entries
  policy := ⟨js "v", js "r/v1", .bootstrap, js "2026-01-01T00:00:00.000Z", none, none,
    [⟨.global, .route ⟨js "c", js "m"⟩, .failImmediately⟩,
      ⟨.action (js "a"), .route ⟨js "c", js "n"⟩, .rerouteGlobalOnce⟩]⟩
  policyIdentity := ⟨js "v", 1, js "r/v1", js "g"⟩
  catalog := ⟨[⟨⟨js "c", js "m"⟩, true, true, some (.int 5), some true, none, none⟩,
    ⟨⟨js "c", js "n"⟩, true, false, some (.int 5), none, none, none⟩], [], []⟩
  attention := []

/-- The action of the example. -/
theorem project_agrees_resolve_one :
    ∃ snapshot, project (fun a b => compareOfLessAndEq a b) sampleProjection = some snapshot ∧
      ∀ entry ∈ sampleProjection.registry,
        (∃ group ∈ snapshot.groups, ∃ row ∈ group.actions, row.scope = .action entry.actionId) ∧
        ∀ group ∈ snapshot.groups, ∀ row ∈ group.actions, row.scope = .action entry.actionId →
          ∀ bootstrap : Option Bootstrap, bootstrap.all isBootstrap = true →
            Agrees row.toMatrixRow
              (resolve ⟨fun policy => some (some policy),
                fun policy _ _ => (.error .policyConflict, policy)⟩ sampleRegistry
                sampleProjection.catalog.routes sampleProjection.policy
                ⟨entry.actionId, bootstrap⟩).1 := by
  have hsome : (project (fun a b => compareOfLessAndEq a b) sampleProjection).isSome = true := by
    decide
  obtain ⟨snapshot, hproject⟩ := Option.isSome_iff_exists.mp hsome
  exact ⟨snapshot, hproject, project_agrees_resolve hproject rfl rfl rfl⟩

end Hepha.Routing
