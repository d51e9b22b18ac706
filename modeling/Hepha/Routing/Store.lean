import Hepha.Js.Decimal
import Hepha.Js.Unicode
import Hepha.Lib.Search
import Hepha.Lib.Table
import Hepha.Routing.Matrix
import Mathlib.Data.List.Lex
import Mathlib.Data.Prod.Lex

/-!
# The routing store

`AgentRoutingStore` keeps the routing policy as a list of revisions that are never
changed.  A revision has its selectors and the routes that they refer to; one row
says which revision is the current one.  When routes become unavailable, the
selectors of the current revision that refer to them are left out of a new one,
and a row of attention is written for each.

A text column keeps a string as UTF-8 (`toWellFormed`), and a column that holds
JSON keeps its text as it is, so a selector is read as it was written.  The foreign
keys hold at once: a revision is inserted before the rows that refer to it.

A mutation of one row of the routing matrix is refused when selectors would go on
from a route back to it.  The search for such a cycle finds one exactly if there is
one (`hasFallbackCycle_eq_false_iff`).
-/

namespace Hepha.Routing

open Hepha.Runtime (RouteIdentity AgentActionType)
open JsString (toWellFormed)

/-! ## Tables -/

structure RevisionRow where
  sequence : ℕ
  revisionId : JsString
  registryVersion : JsString
  reason : RevisionReason
  createdAt : JsString
  actor : Option JsString
  correlationId : Option JsString
  revisionGuard : JsString

structure SelectorRow where
  revisionId : JsString
  scopeKey : JsString
  selector : PolicySelector

structure DependencyRow where
  revisionId : JsString
  connectionId : JsString
  modelId : JsString
  selectorScope : SelectorScope
deriving DecidableEq

/-- The tables of the store; the state is the revision that is current and its
registry version. -/
structure Store where
  state : Option (JsString × JsString)
  revisions : List RevisionRow
  selectors : List SelectorRow
  dependencies : List DependencyRow
  attention : List Attention

def Store.empty : Store :=
  ⟨none, [], [], [], []⟩

def SelectorRow.key (row : SelectorRow) : JsString × JsString :=
  (row.revisionId, row.scopeKey)

/-- `occurred_at, attention_id`, in the order of text columns. -/
def attentionKey (row : Attention) : List ℕ ×ₗ List ℕ :=
  toLex (row.occurredAt.codePoints, row.attentionId.codePoints)

/-! ## Selectors and routes -/

/-- `referencedRoutes`. -/
def referencedRoutes (selector : PolicySelector) : List RouteIdentity :=
  (match selector.selector with
    | .route route => [route]
    | .inherit => []) ++
    match selector.failurePolicy with
    | .rerouteRouteOnce fallbackRoute => [fallbackRoute]
    | _ => []

/-- A route is one of these routes: its key is. -/
def isListed (routes : List RouteIdentity) (route : RouteIdentity) : Bool :=
  (routes.map routeIdentityKey).contains (routeIdentityKey route)

/-- `selectorReferences`. -/
def selectorReferences (routes : List RouteIdentity) (selector : PolicySelector) : Bool :=
  (referencedRoutes selector).any (isListed routes)

/-- `entriesForScope`. -/
def entriesForScope (scope : SelectorScope) (entries : List RegistryEntry) : List RegistryEntry :=
  match scope with
  | .action actionId => entries.filter fun entry => entry.actionId = actionId
  | .actionType actionType => entries.filter fun entry => entry.actionType = actionType
  | .global => entries

/-- `meetsRequirements`. -/
def meetsRequirements (fact : RouteFact) (requirements : CapabilityRequirements) : Bool :=
  JsNumber.le requirements.minimumContextWindowTokens
      (fact.contextWindowTokens.getD (.int (-1))) &&
    (!requirements.requiresTools || fact.tools == some true) &&
    (!requirements.requiresApi || fact.api == some true) &&
    (!requirements.requiresReasoning || fact.reasoning == some true)

namespace Store

/-- `validateRoute` of the store. -/
def validateRoute (route : RouteIdentity) (entries : List RegistryEntry) (facts : List RouteFact) :
    Option ResolutionErrorCode :=
  match factOf facts route with
  | none => some .routeUnavailable
  | some fact =>
      if !fact.connectionActive || !fact.available then some .routeUnavailable
      else if entries.any fun entry => !meetsRequirements fact entry.capabilityRequirements then
        some .capabilityMismatch
      else none

/-- The checks of one selector in `validateMutation`. -/
def checkSelector (context : ValidationContext) (selector : PolicySelector) :
    Option ResolutionErrorCode :=
  let isRegistered := match selector.scope with
    | .action actionId => (context.registry.map (·.actionId)).contains actionId
    | _ => true
  let isShaped := match selector.scope, selector.selector with
    | .global, .route _ => selector.failurePolicy == .failImmediately
    | .global, .inherit => false
    | _, .inherit => selector.failurePolicy == .failImmediately
    | _, .route _ => true
  if !isRegistered || !isShaped then some .invalidPolicy
  else
    match selector.selector with
    | .inherit => none
    | .route primary =>
        let entries := entriesForScope selector.scope context.registry
        match validateRoute primary entries context.routes with
        | some code => some code
        | none =>
            match selector.failurePolicy with
            | .rerouteRouteOnce fallbackRoute =>
                if routeIdentityKey primary = routeIdentityKey fallbackRoute then
                  some .invalidHandoffChain
                else validateRoute fallbackRoute entries context.routes
            | _ => none

/-- The loop of `validateMutation`, with the scopes that came before. -/
def checkSelectors (context : ValidationContext) :
    List JsString → List PolicySelector → Option ResolutionErrorCode
  | _, [] => none
  | scopes, selector :: rest =>
      if selectorScopeKey selector.scope ∈ scopes then some .invalidPolicy
      else
        match checkSelector context selector with
        | some code => some code
        | none => checkSelectors context (selectorScopeKey selector.scope :: scopes) rest

/-- `validateMutation`. -/
def validateMutation (input : PolicyMutation) (context : ValidationContext)
    (current : Option PolicyRevision) : Option ResolutionErrorCode :=
  if !isPolicyMutation input || !isValidationContext context then some .invalidRequest
  else if current.map PolicyRevision.revisionId ≠ input.expectedRevisionId then
    some .policyConflict
  else if current.any fun current => current.registryVersion != input.registryVersion then
    some .invalidPolicy
  else if current.isNone && input.reason != .bootstrap then some .invalidPolicy
  else
    match checkSelectors context [] input.selectors with
    | some code => some code
    | none =>
        if (input.selectors.filter fun entry => entry.scope == .global).length = 1 then none
        else some .invalidPolicy

/-! ## Reading -/

/-- The rows of the selectors of a revision, by the keys of their scopes. -/
def selectorRows (s : Store) (revisionId : JsString) : List SelectorRow :=
  (s.selectors.filter fun row => row.revisionId = revisionId).insertionSort
    fun left right => left.scopeKey.codePoints ≤ right.scopeKey.codePoints

/-- `readRevision`: `none` if it throws. -/
def readRevision (s : Store) (revisionId : JsString) : Option PolicyRevision :=
  (s.revisions.find? fun row => row.revisionId = revisionId).bind fun row =>
    let selectors := (s.selectorRows revisionId).map SelectorRow.selector
    let revision : PolicyRevision := ⟨row.revisionId, row.registryVersion, row.reason,
      row.createdAt, row.actor, row.correlationId, selectors⟩
    if selectors.all isPolicySelector && isBoundedString 512 row.revisionId &&
        isBoundedString 512 row.registryVersion && isCanonicalIso row.createdAt &&
        row.actor.all (isBoundedString 512) && row.correlationId.all (isBoundedString 512) &&
        isPolicyRevision revision then some revision
    else none

/-- `getCurrentPolicy`: `none` if it throws. -/
def getCurrentPolicy (s : Store) : Option (Option PolicyRevision) :=
  match s.state with
  | none => some none
  | some (revisionId, registryVersion) =>
      if isBoundedString 256 revisionId && isBoundedString 256 registryVersion then
        (s.readRevision revisionId).bind fun revision =>
          if revision.registryVersion = registryVersion then some (some revision) else none
      else none

/-- `getCurrentRevisionGuard`: `none` if it throws. -/
def getCurrentRevisionGuard (s : Store) : Option (Option PolicyIdentity) :=
  match s.state with
  | none => some none
  | some (revisionId, registryVersion) =>
      (s.revisions.find? fun row => row.revisionId = revisionId).bind fun row =>
        if isBoundedString 256 revisionId && 0 < row.sequence &&
            row.sequence ≤ JsValue.maxSafeInteger && isBoundedString 256 row.registryVersion &&
            registryVersion == row.registryVersion && isBoundedString 512 row.revisionGuard then
          some (some ⟨revisionId, row.sequence, row.registryVersion, row.revisionGuard⟩)
        else none

/-- `rowToAttention`: `none` if it throws. -/
def rowToAttention (row : Attention) : Option Attention :=
  if isBoundedString 512 row.attentionId && isBoundedString 512 row.connectionId &&
      isBoundedString 512 row.modelId && isBoundedString 512 row.reasonCode &&
      isBoundedString 512 row.revisionId && isCanonicalIso row.occurredAt &&
      row.acknowledgedAt.all isCanonicalIso && isAttention row then some row
  else none

/-- The rows of attention of a revision, by `occurred_at, attention_id`. -/
def attentionRows (s : Store) (revisionId : JsString) : List Attention :=
  (s.attention.filter fun row => row.revisionId = revisionId).insertionSort
    fun left right => attentionKey left ≤ attentionKey right

/-- `listCurrentAttention`: `none` if it throws. -/
def listCurrentAttention (s : Store) : Option (List Attention) :=
  s.getCurrentPolicy.bind fun current =>
    match current with
    | none => some []
    | some current => (s.attentionRows current.revisionId).mapM rowToAttention

/-! ## Writing a revision -/

/-- `routing-revision-${sequence}`. -/
def revisionIdText (sequence : ℕ) : JsString :=
  js "routing-revision-" ++ decimalText sequence

/-- `coalesce(max(sequence), 0)`. -/
def lastSequence (s : Store) : ℕ :=
  (s.revisions.map RevisionRow.sequence).foldr max 0

/-- The next sequence number, which is read as a safe integer: `none` if it throws. -/
def nextSequence (s : Store) : Option ℕ :=
  if s.lastSequence < JsValue.maxSafeInteger then some (s.lastSequence + 1) else none

/-- `createRevisionGuard`; `digest` is the SHA-256 digest in base64url. -/
def createRevisionGuard (digest : JsString → JsString) (revisionId : JsString)
    (revisionNumber : ℕ) (registryVersion : JsString) : JsString :=
  digest (js "installation-global" ++ 0 :: revisionId ++ 0 :: decimalText revisionNumber ++
    0 :: registryVersion)

/-- `prepareRevision`: `none` if it throws.  `collate` is `localeCompare`, as an order. -/
def prepareRevision (digest : JsString → JsString) (collate : JsString → JsString → Bool)
    (s : Store) (input : PolicyMutation) (reason : RevisionReason)
    (selectors : List PolicySelector) : Option (PolicyRevision × PolicyIdentity) :=
  s.nextSequence.map fun sequence =>
    let revisionId := revisionIdText sequence
    let orderedSelectors := selectors.insertionSort fun left right =>
      collate (selectorScopeKey left.scope) (selectorScopeKey right.scope)
    (⟨revisionId, input.registryVersion, reason, input.occurredAt, input.actor,
        input.correlationId, orderedSelectors⟩,
      ⟨revisionId, sequence, input.registryVersion,
        createRevisionGuard digest revisionId sequence input.registryVersion⟩)

/-- The rows of the routes that a selector of a revision refers to. -/
def dependencyRows (revisionId : JsString) (selector : PolicySelector) : List DependencyRow :=
  (referencedRoutes selector).map fun route =>
    ⟨toWellFormed revisionId, toWellFormed route.connectionId, toWellFormed route.modelId,
      selector.scope⟩

def selectorRow (revisionId : JsString) (selector : PolicySelector) : SelectorRow :=
  ⟨toWellFormed revisionId, toWellFormed (selectorScopeKey selector.scope), selector⟩

/-- The row of a revision. -/
def revisionRow (revision : PolicyRevision) (identity : PolicyIdentity) : RevisionRow where
  sequence := identity.revisionNumber
  revisionId := toWellFormed revision.revisionId
  registryVersion := toWellFormed revision.registryVersion
  reason := revision.reason
  createdAt := toWellFormed revision.createdAt
  actor := revision.actor.map toWellFormed
  correlationId := revision.correlationId.map toWellFormed
  revisionGuard := toWellFormed identity.revisionGuard

/-- `insertPreparedRevision`: `none` if it throws.  The source inserts the selectors
and their dependencies in turns. -/
def insertPreparedRevision (s : Store) (revision : PolicyRevision) (identity : PolicyIdentity) :
    Option Store :=
  let row := revisionRow revision identity
  if s.revisions.any fun other => other.sequence == row.sequence ||
      other.revisionId == row.revisionId then none
  else
    (Table.insertAll SelectorRow.key s.selectors
      (revision.selectors.map (selectorRow revision.revisionId))).bind fun selectors =>
    (Table.insertAll id s.dependencies
      (revision.selectors.flatMap (dependencyRows revision.revisionId))).map fun dependencies =>
      { s with
        state := some (toWellFormed revision.revisionId, toWellFormed revision.registryVersion)
        revisions := s.revisions ++ [row]
        selectors
        dependencies }

/-- `insertRevision`: `none` if it throws. -/
def insertRevision (digest : JsString → JsString) (collate : JsString → JsString → Bool)
    (s : Store) (input : PolicyMutation) (reason : RevisionReason)
    (selectors : List PolicySelector) : Option (PolicyRevision × Store) :=
  (prepareRevision digest collate s input reason selectors).bind fun (revision, identity) =>
    (s.insertPreparedRevision revision identity).map fun next => (revision, next)

/-! ## Mutations -/

/-- What a method of the store answers. -/
inductive Outcome
  | threw
  | nothing
  | rejected (code : ResolutionErrorCode)
  | readFailed
  | revised (revision : PolicyRevision)

/-- `applyMutation`, with the store it leaves. -/
def applyMutation (digest : JsString → JsString) (collate : JsString → JsString → Bool)
    (s : Store) (input : PolicyMutation) (context : ValidationContext) : Outcome × Store :=
  match s.getCurrentPolicy with
  | none => (.threw, s)
  | some current =>
      match validateMutation input context current with
      | some code => (.rejected code, s)
      | none =>
          match s.insertRevision digest collate input input.reason input.selectors with
          | none => (.threw, s)
          | some (revision, next) => (.revised revision, next)

/-- The route a selector goes on to, and the one it comes from. -/
def fallbackEdge (selectors : List PolicySelector) (selector : PolicySelector) :
    Option (RouteIdentity × RouteIdentity) :=
  match selector.selector, selector.failurePolicy with
  | .route route, .rerouteRouteOnce fallbackRoute => some (route, fallbackRoute)
  | .route route, .rerouteGlobalOnce =>
      match (selectors.find? fun selector => selector.scope = .global).map
          PolicySelector.selector with
      | some (.route globalRoute) => some (route, globalRoute)
      | _ => none
  | _, _ => none

/-- `createsFallbackCycle`. -/
def createsFallbackCycle (primary fallback : RouteIdentity) (selectors : List PolicySelector)
    (changedScope : SelectorScope) : Bool :=
  selectors.any fun selector =>
    selectorScopeKey selector.scope != selectorScopeKey changedScope &&
      (fallbackEdge selectors selector).any fun (route, target) =>
        routeIdentityKey route == routeIdentityKey fallback &&
          routeIdentityKey target == routeIdentityKey primary

/-- `hasFallbackCycle`. -/
def hasFallbackCycle (selectors : List PolicySelector) : Bool :=
  let edges := (selectors.filter fun selector => selector.scope != .global).filterMap
    (fallbackEdge selectors)
  let next := fun source => ((edges.filter fun edge => routeIdentityKey edge.1 = source).map
    fun edge => routeIdentityKey edge.2).dedup
  let sources := (edges.map fun edge => routeIdentityKey edge.1).dedup
  match sources.foldlM (Search.visit next (2 * selectors.length + 1) []) [] with
  | .error _ => true
  | .ok _ => false

/-- `validateRowMutationDraft`. -/
def validateRowMutationDraft (input : RowDraft) (context : MutationContext)
    (current : Option PolicyRevision) (identity : Option PolicyIdentity) :
    Option ResolutionErrorCode :=
  match current, identity with
  | some current, some identity =>
      if input.expectedRevisionId ≠ identity.revisionId ∨
          input.expectedRevisionNumber ≠ .int identity.revisionNumber ∨
          input.revisionGuard ≠ identity.revisionGuard ∨
          current.registryVersion ≠ identity.registryVersion ∨
          context.registryVersion ≠ identity.registryVersion then some .policyConflict
      else
        let entries := entriesForScope input.scope context.registry
        if entries = [] then some .unknownScope
        else
          match input.selection with
          | .inherit => if input.scope = .global then some .invalidPolicy else none
          | .route route failurePolicy =>
              if input.scope = .global ∧ failurePolicy ≠ .failImmediately then some .invalidPolicy
              else
                match validateRoute route entries context.routes with
                | some code => some code
                | none =>
                    match failurePolicy with
                    | .failImmediately => none
                    | .rerouteGlobalOnce =>
                        match (current.selectors.find? fun selector =>
                            selector.scope = .global).map PolicySelector.selector with
                        | some (.route globalRoute) =>
                            if routeIdentityKey globalRoute = routeIdentityKey route then
                              some .invalidHandoffChain
                            else validateRoute globalRoute entries context.routes
                        | _ => some .invalidPolicy
                    | .rerouteRouteOnce fallbackRoute =>
                        if routeIdentityKey fallbackRoute = routeIdentityKey route then
                          some .invalidHandoffChain
                        else
                          match validateRoute fallbackRoute entries context.routes with
                          | some code => some code
                          | none =>
                              if createsFallbackCycle route fallbackRoute current.selectors
                                  input.scope then some .invalidHandoffChain
                              else none
  | _, _ => some .policyConflict

/-- The mutation that `applyRowMutation` makes of a draft. -/
def rowMutation (input : RowDraft) (context : MutationContext) (current : PolicyRevision) :
    PolicyMutation where
  registryVersion := context.registryVersion
  expectedRevisionId := some current.revisionId
  reason := .operatorMutation
  occurredAt := context.occurredAt
  actor := context.actor
  correlationId := context.correlationId
  selectors := (current.selectors.filter fun selector =>
    selectorScopeKey selector.scope ≠ selectorScopeKey input.scope) ++
      match input.selection with
      | .inherit => []
      | .route route failurePolicy => [⟨input.scope, .route route, failurePolicy⟩]

/-- `prepareRowMutation`, of a policy that is there. -/
def prepareRowMutation (input : RowDraft) (context : MutationContext)
    (current : Option PolicyRevision) (identity : Option PolicyIdentity) :
    Except ResolutionErrorCode PolicyMutation :=
  match validateRowMutationDraft input context current identity, current with
  | some code, _ => .error code
  | none, none => .error .policyConflict
  | none, some current =>
      let mutation := rowMutation input context current
      match validateMutation mutation ⟨context.registry, context.routes⟩ (some current) with
      | some code => .error code
      | none =>
          if hasFallbackCycle mutation.selectors then .error .invalidHandoffChain else .ok mutation

/-- `applyRowMutation`, with the store it leaves; `settleCandidate` says whether the
callback settles the candidate. -/
def applyRowMutation (digest : JsString → JsString) (collate : JsString → JsString → Bool)
    (s : Store) (input : RowDraft) (context : MutationContext)
    (settleCandidate : PolicyRevision × PolicyIdentity → Bool) : Outcome × Store :=
  if !isRowDraft input || !isMutationContext context then (.rejected .invalidRequest, s)
  else
    match s.getCurrentPolicy, s.getCurrentRevisionGuard with
    | some current, some identity =>
        match prepareRowMutation input context current identity with
        | .error code => (.rejected code, s)
        | .ok mutation =>
            match prepareRevision digest collate s mutation .operatorMutation
                mutation.selectors with
            | none => (.threw, s)
            | some candidate =>
                if settleCandidate candidate then
                  match s.insertPreparedRevision candidate.1 candidate.2 with
                  | none => (.threw, s)
                  | some next => (.revised candidate.1, next)
                else (.readFailed, s)
    | _, _ => (.threw, s)

/-! ## Fallback cycles -/

/-- A selector other than the global one goes on from one route to the other. -/
def FallsBack (selectors : List PolicySelector) (source target : JsString) : Prop :=
  ∃ selector ∈ selectors, selector.scope ≠ .global ∧
    ∃ route fallbackRoute, fallbackEdge selectors selector = some (route, fallbackRoute) ∧
      routeIdentityKey route = source ∧ routeIdentityKey fallbackRoute = target

/-- **The search for a fallback cycle** finds one exactly if there is one. -/
theorem hasFallbackCycle_eq_false_iff {selectors : List PolicySelector} :
    hasFallbackCycle selectors = false ↔ Acyclic (FallsBack selectors) := by
  unfold hasFallbackCycle
  extract_lets edges next sources
  have hedge : ∀ {edge}, edge ∈ edges ↔ ∃ selector ∈ selectors, selector.scope ≠ .global ∧
      fallbackEdge selectors selector = some edge := by
    intro edge
    simp [edges, and_assoc]
  have hnext : Search.Edge next = FallsBack selectors := by
    funext source target
    apply propext
    simp only [Search.Edge, next, List.mem_dedup, List.mem_map, List.mem_filter, hedge,
      decide_eq_true_eq, FallsBack]
    constructor
    · rintro ⟨⟨route, fallbackRoute⟩, ⟨⟨selector, hselector, hscope, heq⟩, hsource⟩, htarget⟩
      exact ⟨selector, hselector, hscope, route, fallbackRoute, heq, hsource, htarget⟩
    · rintro ⟨selector, hselector, hscope, route, fallbackRoute, heq, hsource, htarget⟩
      exact ⟨(route, fallbackRoute), ⟨⟨selector, hselector, hscope, heq⟩, hsource⟩, htarget⟩
  -- A route that no selector goes on from leads nowhere.
  have hleaf : ∀ source, source ∉ sources → next source = [] := by
    intro source hsource
    have hnone : (edges.filter fun edge => routeIdentityKey edge.1 = source) = [] := by
      rw [List.filter_eq_nil_iff]
      intro edge hedge heq
      apply hsource
      rw [List.mem_dedup]
      exact List.mem_map.mpr ⟨edge, hedge, of_decide_eq_true heq⟩
    simp only [next, hnone, List.map_nil, List.dedup_nil]
  -- The depth that the model allows is more than there are routes to start from.
  have hfuel : sources.length < 2 * selectors.length + 1 := by
    have hsources : sources.length ≤ edges.length := by
      have hkeys : (edges.map fun edge => routeIdentityKey edge.1).length = edges.length :=
        List.length_map _
      rw [← hkeys]
      exact (List.dedup_sublist _).length_le
    have hedges : edges.length ≤ selectors.length :=
      (List.length_filterMap_le _ _).trans (List.length_filter_le _ _)
    omega
  rw [← hnext, ← Search.search_ok_iff hleaf hfuel]
  cases sources.foldlM (Search.visit next (2 * selectors.length + 1) []) [] with
  | error stop => simp
  | ok after => simp

/-- The mutation of a draft leaves no fallback cycle. -/
theorem prepareRowMutation_acyclic {input : RowDraft} {context : MutationContext}
    {current : Option PolicyRevision} {identity : Option PolicyIdentity}
    {mutation : PolicyMutation}
    (h : prepareRowMutation input context current identity = .ok mutation) :
    Acyclic (FallsBack mutation.selectors) := by
  unfold prepareRowMutation at h
  split at h
  · cases h
  · cases h
  · dsimp only at h
    split at h
    · cases h
    · split at h
      · cases h
      · rename_i hcycle
        cases h
        rw [Bool.not_eq_true] at hcycle
        exact hasFallbackCycle_eq_false_iff.1 hcycle

/-! ## Resetting -/

/-- `routing-attention-${revisionId}-${index}-${modelId}`. -/
def attentionIdText (revisionId : JsString) (index : ℕ) (modelId : JsString) : JsString :=
  js "routing-attention-" ++ revisionId ++ 0x2D :: (decimalText index ++ 0x2D :: modelId)

/-- The routes of a selector that are among these. -/
def listedRoutes (routes : List RouteIdentity) (selector : PolicySelector) :
    List RouteIdentity :=
  (referencedRoutes selector).filter (isListed routes)

/-- The selectors that a reset leaves out. -/
def affectedSelectors (routes : List RouteIdentity) (current : PolicyRevision) :
    List PolicySelector :=
  current.selectors.filter fun entry => entry.scope != .global && selectorReferences routes entry

/-- The row of attention for a route of the selector at an index. -/
def attentionRow (revisionId reasonCode occurredAt : JsString) (entry : RouteIdentity × ℕ) :
    Attention :=
  ⟨toWellFormed (attentionIdText revisionId entry.2 entry.1.modelId),
    toWellFormed entry.1.connectionId, toWellFormed entry.1.modelId, toWellFormed reasonCode,
    toWellFormed revisionId, toWellFormed occurredAt, none⟩

/-- The routes that attention is written for, with the indices of their selectors. -/
def attentionEntries (routes : List RouteIdentity) (affected : List PolicySelector) :
    List (RouteIdentity × ℕ) :=
  affected.zipIdx.flatMap fun (selector, index) =>
    (listedRoutes routes selector).map fun route => (route, index)

/-- `resetUnavailableRoutes`, with the store it leaves. -/
def resetUnavailableRoutes (digest : JsString → JsString)
    (collate : JsString → JsString → Bool) (s : Store) (registryVersion : JsString)
    (unavailableRoutes : List RouteIdentity) (reasonCode occurredAt : JsString)
    (actor correlationId : Option JsString) : Outcome × Store :=
  if !(isBoundedString 256 registryVersion && isCanonicalIso occurredAt &&
      actor.all (isBoundedString 512) && correlationId.all (isBoundedString 512) &&
      isBoundedString 256 reasonCode && unavailableRoutes.all isRouteIdentity) then
    (.rejected .invalidRequest, s)
  else
    match s.getCurrentPolicy with
    | none => (.threw, s)
    | some none => (.nothing, s)
    | some (some current) =>
        if current.registryVersion ≠ registryVersion then (.rejected .invalidPolicy, s)
        else
          let affected := affectedSelectors unavailableRoutes current
          if affected.length = 0 then (.nothing, s)
          else
            let selectors := current.selectors.filter fun entry => entry ∉ affected
            let input : PolicyMutation := ⟨registryVersion, some current.revisionId,
              .operatorMutation, occurredAt, actor, correlationId, selectors⟩
            match s.insertRevision digest collate input .catalogReset selectors with
            | none => (.threw, s)
            | some (revision, next) =>
                match Table.insertAll Attention.attentionId next.attention
                    ((attentionEntries unavailableRoutes affected).map
                      (attentionRow revision.revisionId reasonCode occurredAt)) with
                | none => (.threw, s)
                | some attention => (.revised revision, { next with attention })

/-! ## Acknowledging -/

/-- The rows after the first `acknowledged_at` of one of them. -/
def setAcknowledged (rows : List Attention) (attentionId acknowledgedAt : JsString) :
    List Attention :=
  rows.map fun row =>
    if row.attentionId = toWellFormed attentionId ∧ row.acknowledgedAt = none then
      { row with acknowledgedAt := some (toWellFormed acknowledgedAt) }
    else row

/-- The store that `acknowledgeAttention` leaves. -/
def acknowledgeAttention (s : Store) (attentionId acknowledgedAt : JsString) : Store :=
  if !(isBoundedString 512 attentionId && isCanonicalIso acknowledgedAt) then s
  else { s with attention := setAcknowledged s.attention attentionId acknowledgedAt }

/-- `RoutingMatrixAttentionAcknowledgeV1`, with the members of what it names. -/
structure AttentionAcknowledge where
  attentionId : JsString
  attentionRevisionId : JsString
  affectedRoute : RouteIdentity
  expectedRevisionId : JsString
  expectedRevisionNumber : JsNumber
  revisionGuard : JsString
  acknowledgedAt : JsString

/-- `isRoutingMatrixAttentionAcknowledgeV1`. -/
def isAttentionAcknowledge (value : AttentionAcknowledge) : Bool :=
  isBoundedString 512 value.attentionId && isBoundedString 256 value.attentionRevisionId &&
    isRouteIdentity value.affectedRoute && isBoundedString 256 value.expectedRevisionId &&
    isPositiveSafeInteger value.expectedRevisionNumber &&
    isBoundedString 512 value.revisionGuard && isCanonicalIso value.acknowledgedAt

/-- The store that `acknowledgeMatrixAttention` leaves: nothing changes when it
refuses or throws, or when the attention is acknowledged already. -/
def acknowledgeMatrixAttention (s : Store) (input : AttentionAcknowledge) : Store :=
  if !isAttentionAcknowledge input then s
  else
    match s.getCurrentRevisionGuard with
    | some (some identity) =>
        if input.expectedRevisionId ≠ identity.revisionId ∨
            input.expectedRevisionNumber ≠ .int identity.revisionNumber ∨
            input.revisionGuard ≠ identity.revisionGuard then s
        else
          match (s.attention.find? fun row =>
              row.attentionId = toWellFormed input.attentionId).bind rowToAttention with
          | none => s
          | some attention =>
              if attention.revisionId ≠ input.attentionRevisionId ∨
                  attention.connectionId ≠ input.affectedRoute.connectionId ∨
                  attention.modelId ≠ input.affectedRoute.modelId ∨
                  !notBefore input.acknowledgedAt attention.occurredAt ∨
                  attention.revisionId ≠ identity.revisionId ∨ attention.acknowledgedAt.isSome then
                s
              else
                { s with attention :=
                    setAcknowledged s.attention attention.attentionId input.acknowledgedAt }
    | _ => s

/-! ## Runs -/

/-- The stores that the methods of a store lead to, from an empty database. -/
inductive Reachable (digest : JsString → JsString) (collate : JsString → JsString → Bool) :
    Store → Prop
  | empty : Reachable digest collate Store.empty
  | mutate {s : Store} (input : PolicyMutation) (context : ValidationContext) :
      Reachable digest collate s →
      Reachable digest collate (s.applyMutation digest collate input context).2
  | mutateRow {s : Store} (input : RowDraft) (context : MutationContext)
      (settleCandidate : PolicyRevision × PolicyIdentity → Bool) : Reachable digest collate s →
      Reachable digest collate (s.applyRowMutation digest collate input context settleCandidate).2
  | reset {s : Store} (registryVersion : JsString) (unavailableRoutes : List RouteIdentity)
      (reasonCode occurredAt : JsString) (actor correlationId : Option JsString) :
      Reachable digest collate s →
      Reachable digest collate (s.resetUnavailableRoutes digest collate registryVersion
        unavailableRoutes reasonCode occurredAt actor correlationId).2
  | acknowledge {s : Store} (attentionId acknowledgedAt : JsString) :
      Reachable digest collate s →
      Reachable digest collate (s.acknowledgeAttention attentionId acknowledgedAt)
  | acknowledgeMatrix {s : Store} (input : AttentionAcknowledge) : Reachable digest collate s →
      Reachable digest collate (s.acknowledgeMatrixAttention input)

end Store

end Hepha.Routing
