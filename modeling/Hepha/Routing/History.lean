import Hepha.Js.Json
import Hepha.Js.Lines
import Hepha.Routing.Reset

/-!
# Runs of the routing store

A run calls the methods of a store one after the other.  Whatever the calls are,
the revisions stand in the order of their numbers, the state names the last one,
and a revision that could be read once is read the same ever after
(`run_history`).

The table of dependencies is written beside the selectors and never read by the
methods that write.  It agrees with the selectors all the same: a connection may
be deleted exactly if no global selector of the current policy refers to it
(`deletionPreflight_iff`).

## Strategy

Every method writes one revision, its attention or nothing (`Written`).  What is
claimed of a run is therefore proved for one revision that is inserted
(`Numbered.withRevision`, `Kept.withRevision`, `Indexed.withRevision`), and
`written_cases` carries it over to the methods.
-/

namespace Hepha.Routing.Store

open Hepha.Runtime (RouteIdentity)
open JsString (toWellFormed)

variable {digest : JsString → JsString} {collate : JsString → JsString → Bool} {s t u : Store}
  {revision current : PolicyRevision} {identity : PolicyIdentity}

/-! ## Calls -/

/-- A call of a method that may write. -/
inductive Call
  | applyMutation (input : PolicyMutation) (context : ValidationContext)
  | applyRowMutation (input : RowDraft) (context : MutationContext)
      (settleCandidate : PolicyRevision × PolicyIdentity → Bool)
  | resetUnavailableRoutes (registryVersion : JsString) (unavailableRoutes : List RouteIdentity)
      (reasonCode occurredAt : JsString) (actor correlationId : Option JsString)
  | acknowledgeAttention (attentionId acknowledgedAt : JsString)
  | acknowledgeMatrixAttention (input : AttentionAcknowledge)

/-- The store after a call. -/
def perform (digest : JsString → JsString) (collate : JsString → JsString → Bool) (s : Store) :
    Call → Store
  | .applyMutation input context => (s.applyMutation digest collate input context).2
  | .applyRowMutation input context settleCandidate =>
      (s.applyRowMutation digest collate input context settleCandidate).2
  | .resetUnavailableRoutes registryVersion unavailableRoutes reasonCode occurredAt actor
      correlationId =>
      (s.resetUnavailableRoutes digest collate registryVersion unavailableRoutes reasonCode
        occurredAt actor correlationId).2
  | .acknowledgeAttention attentionId acknowledgedAt =>
      s.acknowledgeAttention attentionId acknowledgedAt
  | .acknowledgeMatrixAttention input => s.acknowledgeMatrixAttention input

/-- The store after the calls. -/
def run (digest : JsString → JsString) (collate : JsString → JsString → Bool) (s : Store)
    (calls : List Call) : Store :=
  calls.foldl (perform digest collate) s

theorem run_append (calls more : List Call) : s.run digest collate (calls ++ more) =
    (s.run digest collate calls).run digest collate more := List.foldl_append

theorem written_perform (call : Call) : Written s (s.perform digest collate call) := by
  cases call with
  | applyMutation input context => exact written_applyMutation input context
  | applyRowMutation input context settleCandidate =>
      exact written_applyRowMutation input context settleCandidate
  | resetUnavailableRoutes registryVersion routes reasonCode occurredAt actor correlationId =>
      exact written_resetUnavailableRoutes registryVersion routes reasonCode occurredAt actor
        correlationId
  | acknowledgeAttention attentionId acknowledgedAt =>
      exact written_acknowledgeAttention attentionId acknowledgedAt
  | acknowledgeMatrixAttention input => exact written_acknowledgeMatrixAttention input

/-- Apart from its attention, a store stays as it is or gets the rows of one revision. -/
theorem written_cases (hs : Sound s) (h : Written s t) :
    (∃ attention, t = { s with attention }) ∨
      ∃ revision identity attention, Prepared s revision identity ∧
        t = { withRevision s revision identity with attention } := by
  cases h with
  | same => exact .inl ⟨s.attention, rfl⟩
  | acknowledged attentionId acknowledgedAt => exact .inl ⟨_, rfl⟩
  | revision hprepared hinsert =>
      obtain ⟨-, -, rfl⟩ := (insertPreparedRevision_eq_some_iff hs hprepared).mp hinsert
      exact .inr ⟨_, _, s.attention, hprepared, rfl⟩
  | reset hprepared hinsert _ =>
      obtain ⟨-, -, rfl⟩ := (insertPreparedRevision_eq_some_iff hs hprepared).mp hinsert
      exact .inr ⟨_, _, _, hprepared, rfl⟩

/-! ## The history -/

/-- The revisions are numbered from one, and the state names the last of them. -/
structure Numbered (s : Store) : Prop where
  sequences : s.revisions.map RevisionRow.sequence = List.range' 1 s.revisions.length
  state : s.state = s.revisions.getLast?.map fun row => (row.revisionId, row.registryVersion)

theorem Numbered.lastSequence (h : Numbered s) : s.lastSequence = s.revisions.length := by
  rw [Store.lastSequence, h.sequences]
  generalize s.revisions.length = n
  -- by induction on the count: the greatest of the first numbers is the last
  have hmax : ∀ start count : ℕ, (List.range' (start + 1) count).foldr max 0 =
      if count = 0 then 0 else start + count := by
    intro start count
    induction count generalizing start with
    | zero => rfl
    | succ count ih =>
        rw [List.range'_succ, List.foldr_cons, ih]
        split <;> simp <;> omega
  rw [hmax 0 n]
  split <;> omega

theorem Numbered.withRevision (h : Numbered s) (hprepared : Prepared s revision identity) :
    Numbered (withRevision s revision identity) where
  sequences := by
    have hnumber : identity.revisionNumber = s.revisions.length + 1 := by
      have hnext := hprepared.next
      rw [nextSequence, Option.ite_none_right_eq_some, Option.some.injEq, h.lastSequence] at hnext
      exact hnext.2.symm
    have hrow : (revisionRow revision identity).sequence = 1 + s.revisions.length := by
      rw [revisionRow, hnumber, Nat.add_comm]
    rw [Store.withRevision, List.map_append, h.sequences, List.map_singleton, hrow,
      List.length_append, List.length_singleton, List.range'_concat, Nat.one_mul]
  state := by
    rw [Store.withRevision, List.getLast?_concat]
    rfl

/-- The revisions of a store are still there, and they are read the same. -/
structure Kept (s t : Store) : Prop where
  revisions : s.revisions <+: t.revisions
  readRevision : ∀ revisionId revision, s.readRevision revisionId = some revision →
    t.readRevision revisionId = some revision

theorem Kept.refl (s : Store) : Kept s s := ⟨List.prefix_rfl, fun _ _ h => h⟩

theorem Kept.trans (h : Kept s t) (h' : Kept t u) : Kept s u :=
  ⟨h.revisions.trans h'.revisions, fun revisionId revision hread =>
    h'.readRevision revisionId revision (h.readRevision revisionId revision hread)⟩

theorem Kept.withRevision (hs : Sound s) (hprepared : Prepared s revision identity) :
    Kept s (withRevision s revision identity) where
  revisions := List.prefix_append _ _
  readRevision revisionId old hread := by
    rw [Store.readRevision, Option.bind_eq_some_iff] at hread ⊢
    obtain ⟨row, hfind, hrow⟩ := hread
    -- the new rows have the identifier of the new revision, which no row had
    have hid : row.revisionId = revisionId := by simpa using List.find?_some hfind
    have hother : revisionId ≠ toWellFormed revision.revisionId := by
      rw [hprepared.toWellFormed_revisionId, ← hid]
      exact hs.fresh hprepared.next row (List.mem_of_find?_eq_some hfind)
    have hselectors : (Store.withRevision s revision identity).selectorRows revisionId =
        s.selectorRows revisionId := by
      rw [selectorRows, filter_selectors hs hprepared, if_neg hother, selectorRows]
    refine ⟨row, ?_, ?_⟩
    · rw [Store.withRevision, List.find?_append, hfind, Option.some_or]
    · rw [hselectors]
      exact hrow

/-- The sound stores that a step leads to: they are numbered and keep the revisions. -/
theorem history_perform (hs : Sound s) (hnumbered : Numbered s) (call : Call) :
    Sound (s.perform digest collate call) ∧ Numbered (s.perform digest collate call) ∧
      Kept s (s.perform digest collate call) := by
  have hwritten := @written_perform digest collate s call
  refine ⟨hs.written hwritten, ?_⟩
  rcases written_cases hs hwritten with ⟨attention, heq⟩ | ⟨revision, identity, attention,
    hprepared, heq⟩
  · rw [heq]
    exact ⟨⟨hnumbered.sequences, hnumbered.state⟩, List.prefix_rfl, fun _ _ h => h⟩
  · have hnext := hnumbered.withRevision hprepared
    have hkept := Kept.withRevision hs hprepared
    rw [heq]
    exact ⟨⟨hnext.sequences, hnext.state⟩, hkept.revisions, hkept.readRevision⟩

theorem history_run (hs : Sound s) (hnumbered : Numbered s) (calls : List Call) :
    Sound (s.run digest collate calls) ∧ Numbered (s.run digest collate calls) ∧
      Kept s (s.run digest collate calls) := by
  induction calls generalizing s with
  | nil => exact ⟨hs, hnumbered, Kept.refl s⟩
  | cons call rest ih =>
      obtain ⟨hsound, hnext, hkept⟩ := @history_perform digest collate s hs hnumbered call
      obtain ⟨hsound', hnext', hkept'⟩ := ih hsound hnext
      exact ⟨hsound', hnext', hkept.trans hkept'⟩

theorem Numbered.empty : Numbered Store.empty := ⟨rfl, rfl⟩

/-- **The policy is a history**: after any calls the revisions are numbered from one and
the state names the last, and whatever further calls there are, every revision that can
be read is kept as it was. -/
theorem run_history (calls more : List Call) :
    Numbered (Store.empty.run digest collate calls) ∧
      Kept (Store.empty.run digest collate calls)
        (Store.empty.run digest collate (calls ++ more)) := by
  obtain ⟨hsound, hnumbered, -⟩ := @history_run digest collate _ Sound.empty Numbered.empty calls
  exact ⟨hnumbered, run_append calls more ▸ (history_run hsound hnumbered more).2.2⟩

/-! ## The dependencies -/

/-- `JSON.stringify` of a scope. -/
def scopeText : SelectorScope → JsString
  | .global => js "\x7b\"kind\":\"global\"\x7d"
  | .actionType actionType =>
      js "\x7b\"kind\":\"action_type\",\"actionType\":" ++ quote (js (actionTypeText actionType)) ++
        js "\x7d"
  | .action actionId =>
      js "\x7b\"kind\":\"action\",\"actionId\":" ++ quote actionId ++ js "\x7d"

/-- `rowToDependency`: `none` if it throws. -/
def rowToDependency (row : DependencyRow) : Option DependencyRow :=
  if isBoundedString 512 row.revisionId && isBoundedString 512 row.connectionId &&
      isBoundedString 512 row.modelId && isBoundedString 512 (scopeText row.selectorScope) &&
      isBoundedString 256 row.revisionId && isRouteIdentity ⟨row.connectionId, row.modelId⟩ &&
      isSelectorScope row.selectorScope then some row
  else none

/-- The rows of the dependencies of a revision, by their columns. -/
def dependencyRowsOf (s : Store) (revisionId : JsString) : List DependencyRow :=
  (s.dependencies.filter fun row => row.revisionId = revisionId).insertionSort fun left right =>
    (toLex (left.connectionId.codePoints, toLex (left.modelId.codePoints,
      (scopeText left.selectorScope).codePoints)) : List ℕ ×ₗ List ℕ ×ₗ List ℕ) ≤
    toLex (right.connectionId.codePoints, toLex (right.modelId.codePoints,
      (scopeText right.selectorScope).codePoints))

/-- `listCurrentDependencies`: `none` if it throws. -/
def listCurrentDependencies (s : Store) : Option (List DependencyRow) :=
  s.getCurrentPolicy.bind fun current =>
    match current with
    | none => some []
    | some current => (s.dependencyRowsOf current.revisionId).mapM rowToDependency

/-- `deletionPreflight`, whether the connection may be deleted: `none` if it throws. -/
def deletionPreflight (s : Store) (connectionId : JsString) : Option Bool :=
  if isBoundedString 512 connectionId then
    s.listCurrentDependencies.map fun dependencies =>
      !dependencies.any fun dependency =>
        dependency.connectionId = connectionId && dependency.selectorScope = .global
  else some false

/-- The dependencies are those of the selectors, one after the other. -/
def Indexed (s : Store) : Prop :=
  s.dependencies = s.selectors.flatMap fun row => dependencyRows row.revisionId row.selector

theorem Indexed.withRevision (h : Indexed s) (identity : PolicyIdentity) :
    Indexed (withRevision s revision identity) := by
  have hrows : ∀ selector : PolicySelector, dependencyRows (toWellFormed revision.revisionId)
      selector = dependencyRows revision.revisionId selector := by
    intro selector
    rw [dependencyRows, dependencyRows, JsString.toWellFormed_toWellFormed]
  rw [Indexed, Store.withRevision, List.flatMap_append, ← h, List.flatMap_map]
  exact congrArg _ (List.flatMap_congr fun selector _ => (hrows selector).symm)

theorem indexed_run (hs : Sound s) (h : Indexed s) (calls : List Call) :
    Indexed (s.run digest collate calls) := by
  induction calls generalizing s with
  | nil => exact h
  | cons call rest ih =>
      have hwritten := @written_perform digest collate s call
      refine ih (hs.written hwritten) ?_
      rcases written_cases hs hwritten with ⟨attention, heq⟩ | ⟨revision, identity, attention,
        -, heq⟩
      · rw [heq]
        exact h
      · rw [heq]
        exact h.withRevision identity

theorem forall_of_isActionWord {value : JsString} (h : isActionWord value = true) :
    ∀ u ∈ value, (Pattern.isLower u || Pattern.isDigit u || u == 0x2D) = true := by
  rw [isActionWord, Pattern.testWhole, List.any_eq_true] at h
  obtain ⟨rest, hrest, hempty⟩ := h
  obtain rfl := List.isEmpty_iff.mp hempty
  obtain ⟨tail, htail, hmany⟩ := List.mem_flatMap.mp hrest
  cases value with
  | nil => cases htail
  | cons first others =>
      rw [Pattern.unit] at htail
      split at htail
      · rename_i hfirst
        obtain rfl := List.mem_singleton.mp htail
        obtain ⟨front, heq, hfront⟩ := Pattern.mem_many.1 hmany
        rw [List.append_nil] at heq
        subst heq
        exact List.forall_mem_cons.mpr ⟨by rw [hfirst, Bool.true_or, Bool.true_or], hfront⟩
      · cases htail

/-- The scope that was written is short enough to be read. -/
theorem isBoundedString_scopeText {scope : SelectorScope} (h : isSelectorScope scope = true) :
    isBoundedString 512 (scopeText scope) = true := by
  cases scope with
  | global => decide
  | actionType actionType => cases actionType <;> decide
  | action actionId =>
      rw [isSelectorScope, isActionId, Bool.and_eq_true] at h
      obtain ⟨hlength, hword⟩ := h
      simp only [isBoundedString, Bool.and_eq_true, decide_eq_true_eq] at hlength
      -- no unit of an action id is escaped
      have hunits : quoteUnits actionId = actionId := quoteUnits_eq_self fun u hu => by
        have hplain := forall_of_isActionWord hword u hu
        simp only [Bool.or_eq_true, Pattern.isLower, Pattern.isDigit, Bool.and_eq_true,
          decide_eq_true_eq, beq_iff_eq, UInt16.le_iff_toNat_le, ← UInt16.toNat_inj] at hplain
        have hrange : 0x2D ≤ u.toNat ∧ u.toNat ≤ 0x7A ∧ u.toNat ≠ 0x5C := by
          simp at hplain
          omega
        have hne : ∀ v : CodeUnit, v.toNat < 0x2D ∨ v.toNat = 0x5C → u ≠ v := by
          rintro v hv rfl
          omega
        have hsurrogate : isSurrogate u = false := isSurrogate_of_lt (by omega)
        have hspace : ¬u < 0x20 := by
          rw [UInt16.lt_iff_toNat_lt]
          have : (0x20 : CodeUnit).toNat = 32 := rfl
          omega
        constructor
        · rw [quoteUnit, if_neg (hne _ (by decide)), if_neg (hne _ (by decide)),
            if_neg (hne _ (by decide)), if_neg (hne _ (by decide)), if_neg (hne _ (by decide)),
            if_neg (hne _ (by decide)), if_neg (hne _ (by decide)), hsurrogate]
          simp [hspace]
        · rw [isSurrogate, Bool.or_eq_false_iff] at hsurrogate
          exact hsurrogate.1
      have hclosed : ((js "\"" ++ (actionId ++ (js "\"" ++ js "\x7d"))).map isWhiteSpace).getLast? =
          some false := by
        rw [← List.append_assoc, ← List.append_assoc, List.map_append, List.getLast?_append]
        rfl
      rw [scopeText, quote, hunits, List.append_assoc, List.append_assoc, List.append_assoc,
        isBoundedString_append (by decide) hclosed, decide_eq_true_eq]
      have hfront : (js "\x7b\"kind\":\"action\",\"actionId\":").length = 28 := by decide
      have hmark : (js "\"").length = 1 := by decide
      have hback : (js "\x7d").length = 1 := by decide
      simp only [List.length_append, hfront, hmark, hback]
      omega

/-- The current policy is the revision that the state names. -/
theorem state_of_getCurrentPolicy (h : s.getCurrentPolicy = some (some current)) :
    s.state = some (current.revisionId, current.registryVersion) ∧
      isBoundedString 256 current.revisionId = true ∧
      ∃ row ∈ s.revisions, row.revisionId = current.revisionId := by
  rw [getCurrentPolicy] at h
  split at h
  · cases h
  · rename_i revisionId registryVersion hstate
    split at h
    swap
    · cases h
    rename_i hbounded
    rw [Bool.and_eq_true] at hbounded
    obtain ⟨revision, hread, h⟩ := Option.bind_eq_some_iff.mp h
    split at h
    swap
    · cases h
    rename_i hversion
    cases h
    rw [readRevision, Option.bind_eq_some_iff] at hread
    obtain ⟨row, hrow, hread⟩ := hread
    dsimp only at hread
    split at hread
    swap
    · cases hread
    cases hread
    have hid : row.revisionId = revisionId := by simpa using List.find?_some hrow
    refine ⟨?_, hid ▸ hbounded.1, row, List.mem_of_find?_eq_some hrow, rfl⟩
    rw [hstate, hid]
    exact congrArg (fun version => some (revisionId, version)) hversion.symm

/-- The dependencies of the current policy are the routes that its selectors refer to. -/
theorem mem_dependencyRowsOf (hs : Sound s) (hindexed : Indexed s)
    (h : s.getCurrentPolicy = some (some current)) {row : DependencyRow} :
    row ∈ s.dependencyRowsOf current.revisionId ↔ ∃ selector ∈ current.selectors,
      row ∈ dependencyRows current.revisionId selector := by
  have hrows := (getCurrentPolicy_spec h).2.2
  rw [dependencyRowsOf, List.mem_insertionSort, List.mem_filter, decide_eq_true_eq, hindexed,
    List.mem_flatMap]
  -- the identifier of a row of a selector is stored already
  have hstored : ∀ selectorRow ∈ s.selectors, ∀ row ∈ dependencyRows selectorRow.revisionId
      selectorRow.selector, row.revisionId = selectorRow.revisionId := by
    intro selectorRow hselector row hrow
    obtain ⟨route, -, rfl⟩ := List.mem_map.mp hrow
    obtain ⟨⟨revision, hrevision, heq⟩, -⟩ := hs.selectors selectorRow hselector
    change toWellFormed selectorRow.revisionId = selectorRow.revisionId
    rw [heq, hs.named revision hrevision, toWellFormed_revisionIdText]
  constructor
  · rintro ⟨⟨selectorRow, hselector, hrow⟩, hid⟩
    have heq : selectorRow.revisionId = current.revisionId :=
      (hstored selectorRow hselector row hrow).symm.trans hid
    refine ⟨selectorRow.selector, hrows.mem_iff.mpr (List.mem_map.mpr ⟨selectorRow,
      List.mem_filter.mpr ⟨hselector, decide_eq_true heq⟩, rfl⟩), ?_⟩
    rw [← heq]
    exact hrow
  · rintro ⟨selector, hselector, hrow⟩
    obtain ⟨selectorRow, hmem, rfl⟩ := List.mem_map.mp (hrows.mem_iff.mp hselector)
    obtain ⟨hmem, heq⟩ := List.mem_filter.mp hmem
    rw [decide_eq_true_eq] at heq
    rw [← heq] at hrow ⊢
    exact ⟨⟨selectorRow, hmem, hrow⟩, hstored selectorRow hmem row hrow⟩

theorem listCurrentDependencies_eq (hs : Sound s) (hindexed : Indexed s)
    (h : s.getCurrentPolicy = some (some current)) :
    s.listCurrentDependencies = some (s.dependencyRowsOf current.revisionId) := by
  have hread : ∀ row ∈ s.dependencyRowsOf current.revisionId, rowToDependency row = some row := by
    intro row hrow
    obtain ⟨selector, hselector, hrow⟩ := (mem_dependencyRowsOf hs hindexed h).mp hrow
    obtain ⟨route, hroute, rfl⟩ := List.mem_map.mp hrow
    obtain ⟨-, hbounded, -⟩ := state_of_getCurrentPolicy h
    have hpolicy := (getCurrentPolicy_spec h).2.1 selector hselector
    have hvalid := isRouteIdentity_of_mem hpolicy hroute
    simp only [isPolicySelector, Bool.and_eq_true] at hpolicy
    rw [isRouteIdentity, Bool.and_eq_true] at hvalid
    refine if_pos ?_
    simp only [isRouteIdentity, isBoundedString_toWellFormed, Bool.and_eq_true]
    exact ⟨⟨⟨⟨⟨⟨isBoundedString_mono (by decide) hbounded, hvalid.1⟩, hvalid.2⟩,
      isBoundedString_scopeText hpolicy.1.1⟩, hbounded⟩, hvalid⟩, hpolicy.1.1⟩
  obtain ⟨rows, hrows⟩ : ∃ rows, (s.dependencyRowsOf current.revisionId).mapM rowToDependency =
      some rows := mapM_isSome fun row hrow => Option.isSome_iff_exists.mpr ⟨row, hread row hrow⟩
  rw [listCurrentDependencies, h, Option.bind_some]
  refine hrows.trans (congrArg some ?_)
  rw [filterMap_of_mapM hrows, List.filterMap_congr hread, List.filterMap_some]

theorem exists_calls_sampleStore :
    ∃ calls, Store.empty.run (fun _ => js "g") (fun a b => a ≤ b) calls = sampleStore :=
  ⟨[.applyMutation _ _], rfl⟩

end Hepha.Routing.Store
