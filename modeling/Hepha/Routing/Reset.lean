import Hepha.Routing.Sound

/-!
# Resetting unavailable routes

`resetUnavailableRoutes` writes a revision without the selectors that refer to an
unavailable route, and a row of attention for every route of such a selector.  The
identifier of this row is made from the revision, the index of the selector and
the model of the route.  It does not name the connection, so a selector with two
routes of one model makes the same identifier twice; and it can be longer than
what is read back.  This module proves that the reset does what it is for exactly
if neither happens (`resetUnavailableRoutes_iff`).

## Strategy

The selectors of the new revision are some of those of the current one, whose rows
were inserted before (`Sound`), so the rows of the new revision always go in
(`current_scopes_nodup`, `current_dependencies_nodup`).  The attention goes in
exactly if its identifiers differ (`nodup_attentionIds_iff`), and it is read back
exactly if they are short enough (`rowToAttention_attentionRow`).
-/

namespace Hepha.Routing.Store

open Hepha.Runtime (RouteIdentity)
open JsString (toWellFormed)

variable {digest : JsString → JsString} {collate : JsString → JsString → Bool} {s t : Store}
  {current revision : PolicyRevision} {identity : PolicyIdentity} {routes : List RouteIdentity}

/-! ## The current policy -/

/-- What is read as the current policy. -/
theorem getCurrentPolicy_spec (h : s.getCurrentPolicy = some (some current)) :
    isBoundedString 256 current.registryVersion = true ∧
      (∀ selector ∈ current.selectors, isPolicySelector selector = true) ∧
      current.selectors.Perm ((s.selectors.filter fun row =>
        row.revisionId = current.revisionId).map SelectorRow.selector) := by
  rw [getCurrentPolicy] at h
  split at h
  · cases h
  · split at h
    swap
    · cases h
    rename_i revisionId registryVersion _ hbounded
    rw [Bool.and_eq_true] at hbounded
    obtain ⟨revision, hread, h⟩ := Option.bind_eq_some_iff.mp h
    split at h
    swap
    · cases h
    rename_i hversion
    cases h
    rw [readRevision, Option.bind_eq_some_iff] at hread
    obtain ⟨row, hrow, hread⟩ := hread
    dsimp only at hread
    split at hread
    swap
    · cases hread
    rename_i hvalid
    cases hread
    simp only [Bool.and_eq_true, List.all_eq_true] at hvalid
    have hid : row.revisionId = revisionId := by
      simpa using List.find?_some hrow
    refine ⟨?_, hvalid.1.1.1.1.1.1, ?_⟩
    · rw [hversion]
      exact hbounded.2
    · rw [hid]
      exact (List.perm_insertionSort _ _).map _

theorem current_scopes_nodup (hs : Sound s) (h : s.getCurrentPolicy = some (some current)) :
    (current.selectors.map fun selector =>
      toWellFormed (selectorScopeKey selector.scope)).Nodup := by
  rw [((getCurrentPolicy_spec h).2.2.map _).nodup_iff, List.map_map]
  have hkeys := hs.selectorsNodup.sublist ((List.filter_sublist
    (p := fun row => row.revisionId = current.revisionId) (l := s.selectors)).map SelectorRow.key)
  -- of one revision the scope alone is the key
  refine List.Nodup.of_map (fun scopeKey => (current.revisionId, scopeKey)) ?_
  rw [List.map_map]
  refine (List.map_congr_left fun row hrow => ?_) ▸ hkeys
  rw [List.mem_filter, decide_eq_true_eq] at hrow
  rw [SelectorRow.key, hrow.2, (hs.selectors row hrow.1).2]
  rfl

theorem current_dependencies_nodup (hs : Sound s) (h : s.getCurrentPolicy = some (some current)) :
    (current.selectors.flatMap dependencyKeys).Nodup := by
  rw [((getCurrentPolicy_spec h).2.2.flatMap_right _).nodup_iff, List.flatMap_map]
  exact hs.apart current.revisionId

/-! ## Reading a revision back -/

/-- A text that begins and ends with visible characters is only too long. -/
theorem isBoundedString_append {max : ℕ} {u v : JsString}
    (hu : (u.map isWhiteSpace).head? = some false)
    (hv : (v.map isWhiteSpace).getLast? = some false) :
    isBoundedString max (u ++ v) = decide ((u ++ v).length ≤ max) := by
  have hne : u ≠ [] := by
    rintro rfl
    cases hu
  have hpos : 0 < (u ++ v).length := by
    rw [List.length_append]
    exact Nat.add_pos_left (List.length_pos_iff.mpr hne) _
  have htrim : (u ++ v).trim = u ++ v := by
    rw [JsString.trim_eq_self_iff, List.map_append, List.head?_append, hu, List.getLast?_append, hv]
    exact ⟨nofun, nofun⟩
  rw [isBoundedString, htrim, decide_eq_true hpos, beq_self_eq_true, Bool.true_and, Bool.and_true]

theorem getLast?_decimalText (n : ℕ) :
    ((decimalText n).map isWhiteSpace).getLast? = some false := by
  rw [List.getLast?_map, List.getLast?_eq_some_getLast (decimalText_ne_nil n), Option.map_some]
  have hdigit := isDigit_of_mem_decimalText (List.getLast_mem (decimalText_ne_nil n))
  generalize (decimalText n).getLast (decimalText_ne_nil n) = u at hdigit
  simp only [Pattern.isDigit, Bool.and_eq_true, decide_eq_true_eq, UInt16.le_iff_toNat_le]
    at hdigit
  simp [isWhiteSpace, UInt16.le_iff_toNat_le, ← UInt16.toNat_inj] at hdigit ⊢
  omega

theorem length_revisionIdText (n : ℕ) :
    (revisionIdText n).length = (decimalText n).length + 17 := by
  have hprefix : (js "routing-revision-").length = 17 := by decide
  rw [revisionIdText, List.length_append, hprefix, Nat.add_comm]

theorem isBoundedString_revisionIdText {n max : ℕ} (hn : n ≤ JsValue.maxSafeInteger)
    (hmax : 33 ≤ max) : isBoundedString max (revisionIdText n) = true := by
  have hdigits : (decimalText n).length ≤ 16 :=
    length_decimalText_le (by decide) (Nat.lt_of_le_of_lt hn (by decide))
  have hlength := length_revisionIdText n
  rw [revisionIdText, isBoundedString_append (by decide) (getLast?_decimalText n), ← revisionIdText,
    decide_eq_true_eq]
  omega

theorem le_of_nextSequence {n : ℕ} (h : s.nextSequence = some n) : n ≤ JsValue.maxSafeInteger := by
  rw [nextSequence, Option.ite_none_right_eq_some, Option.some.injEq] at h
  omega

/-- What a revision has to be like to be read back. -/
structure Readable (revision : PolicyRevision) : Prop where
  registryVersion : isBoundedString 256 revision.registryVersion = true
  createdAt : isCanonicalIso revision.createdAt = true
  actor : revision.actor.all (isBoundedString 512) = true
  correlationId : revision.correlationId.all (isBoundedString 512) = true
  selectors : ∀ selector ∈ revision.selectors, isPolicySelector selector = true

/-- A revision that was written is the current policy. -/
theorem getCurrentPolicy_withRevision (hs : Sound s) (hprepared : Prepared s revision identity)
    (hreadable : Readable revision) :
    ∃ policy, (withRevision s revision identity).getCurrentPolicy = some (some policy) ∧
      policy.revisionId = revision.revisionId ∧ policy.selectors.Perm revision.selectors := by
  have hid := hprepared.toWellFormed_revisionId
  have hbounded : ∀ max, 33 ≤ max →
      isBoundedString max (toWellFormed revision.revisionId) = true := fun max hmax => by
    rw [hid]
    exact isBoundedString_revisionIdText (le_of_nextSequence hprepared.next) hmax
  have hcreated : toWellFormed revision.createdAt = revision.createdAt :=
    Date.toWellFormed_of_canonicalTime hreadable.createdAt
  have hfind : ((withRevision s revision identity).revisions.find? fun row =>
      row.revisionId = toWellFormed revision.revisionId) =
        some (revisionRow revision identity) := by
    -- no earlier row has the identifier of the new revision
    have hold : (s.revisions.find? fun row =>
        row.revisionId = toWellFormed revision.revisionId) = none := by
      rw [List.find?_eq_none]
      intro row hrow heq
      refine hs.fresh hprepared.next row hrow ?_
      rw [← hid]
      exact of_decide_eq_true heq
    rw [withRevision, List.find?_append, hold, Option.none_or]
    exact List.find?_cons_of_pos (decide_eq_true rfl)
  have hperm : (((withRevision s revision identity).selectorRows
      (toWellFormed revision.revisionId)).map SelectorRow.selector).Perm revision.selectors := by
    refine ((List.perm_insertionSort _ _).map _).trans ?_
    rw [filter_selectors hs hprepared, if_pos rfl, List.map_map]
    exact List.Perm.of_eq (List.map_id _)
  have hselectors : ∀ selector ∈ ((withRevision s revision identity).selectorRows
      (toWellFormed revision.revisionId)).map SelectorRow.selector,
      isPolicySelector selector = true :=
    fun selector hselector => hreadable.selectors selector (hperm.mem_iff.mp hselector)
  have hactor : ∀ value : Option JsString, value.all (isBoundedString 512) = true →
      (value.map toWellFormed).all (isBoundedString 512) = true := by
    intro value hvalue
    cases value with
    | none => rfl
    | some value => simpa using hvalue
  obtain ⟨policy, hread, hpolicy, hversion, hsame⟩ : ∃ policy,
      (withRevision s revision identity).readRevision (toWellFormed revision.revisionId) =
        some policy ∧ policy.revisionId = toWellFormed revision.revisionId ∧
      policy.registryVersion = toWellFormed revision.registryVersion ∧
      policy.selectors = ((withRevision s revision identity).selectorRows
        (toWellFormed revision.revisionId)).map SelectorRow.selector := by
    rw [readRevision, hfind, Option.bind_some]
    refine ⟨_, if_pos ?_, rfl, rfl, rfl⟩
    simp only [isPolicyRevision, revisionRow, Bool.and_eq_true, isBoundedString_toWellFormed,
      hcreated]
    have hregistry := hreadable.registryVersion
    have hregistry' : isBoundedString 512 revision.registryVersion = true :=
      isBoundedString_mono (by decide) hregistry
    simp only [isBoundedString_toWellFormed] at hbounded
    exact ⟨⟨⟨⟨⟨⟨List.all_eq_true.mpr hselectors, hbounded 512 (by decide)⟩, hregistry'⟩,
      hreadable.createdAt⟩, hactor _ hreadable.actor⟩, hactor _ hreadable.correlationId⟩,
      ⟨⟨⟨⟨hbounded 256 (by decide), hregistry⟩, hreadable.createdAt⟩, hactor _ hreadable.actor⟩,
        hactor _ hreadable.correlationId⟩, List.all_eq_true.mpr hselectors⟩
  refine ⟨policy, ?_, ?_, hsame ▸ hperm⟩
  · have hstate : (withRevision s revision identity).state =
        some (toWellFormed revision.revisionId, toWellFormed revision.registryVersion) := rfl
    rw [getCurrentPolicy, hstate]
    dsimp only
    rw [if_pos, hread, Option.bind_some, if_pos hversion]
    rw [hbounded 256 (by decide), isBoundedString_toWellFormed, hreadable.registryVersion]
    rfl
  · rw [hpolicy, hid, hprepared.named]

/-! ## Attention -/

theorem length_attentionIdText (n index : ℕ) (modelId : JsString) :
    (attentionIdText (revisionIdText n) index modelId).length =
      modelId.length + (decimalText index).length + (decimalText n).length + 37 := by
  have hprefix : (js "routing-attention-").length = 18 := by decide
  simp only [attentionIdText, List.length_append, List.length_cons, length_revisionIdText, hprefix]
  omega

/-- A row of attention is read back exactly if its identifier is short enough. -/
theorem rowToAttention_attentionRow {n : ℕ} (hn : n ≤ JsValue.maxSafeInteger)
    {reasonCode occurredAt : JsString} (hreason : isBoundedString 256 reasonCode = true)
    (htime : isCanonicalIso occurredAt = true) {entry : RouteIdentity × ℕ}
    (hroute : isRouteIdentity entry.1 = true) :
    rowToAttention (attentionRow (revisionIdText n) reasonCode occurredAt entry) =
      if entry.1.modelId.length + (decimalText entry.2).length + (decimalText n).length ≤ 475 then
        some (attentionRow (revisionIdText n) reasonCode occurredAt entry)
      else none := by
  rw [isRouteIdentity, Bool.and_eq_true] at hroute
  have hvisible : (entry.1.modelId.map isWhiteSpace).getLast? = some false := by
    have hbounded := hroute.2
    simp only [isBoundedString, Bool.and_eq_true, decide_eq_true_eq, beq_iff_eq,
      JsString.trim_eq_self_iff] at hbounded
    obtain ⟨⟨hpos, -⟩, -, hlast⟩ := hbounded
    have hne : entry.1.modelId.map isWhiteSpace ≠ [] := by
      rw [ne_eq, List.map_eq_nil_iff]
      exact List.length_pos_iff.mp hpos
    rw [List.getLast?_eq_some_getLast hne] at hlast ⊢
    cases hvalue : (entry.1.modelId.map isWhiteSpace).getLast hne with
    | false => rfl
    | true =>
        rw [hvalue] at hlast
        exact absurd rfl hlast
  have hid : isBoundedString 512
      (attentionIdText (revisionIdText n) entry.2 entry.1.modelId) =
      decide (entry.1.modelId.length + (decimalText entry.2).length +
        (decimalText n).length ≤ 475) := by
    have hsplit : attentionIdText (revisionIdText n) entry.2 entry.1.modelId =
        (js "routing-attention-" ++ (revisionIdText n ++
          0x2D :: (decimalText entry.2 ++ [0x2D]))) ++ entry.1.modelId := by
      simp [attentionIdText]
    rw [hsplit, isBoundedString_append ?_ hvisible, ← hsplit, length_attentionIdText,
      decide_eq_decide]
    · omega
    · have hhead : ((js "routing-attention-").map isWhiteSpace).head? = some false := by decide
      rw [List.map_append, List.head?_append, hhead, Option.some_or]
  have hcreated : toWellFormed occurredAt = occurredAt :=
    Date.toWellFormed_of_canonicalTime htime
  have hreason' : isBoundedString 512 reasonCode = true := isBoundedString_mono (by decide) hreason
  have hrevision : isBoundedString 256 (revisionIdText n) = true :=
    isBoundedString_revisionIdText hn (by decide)
  have hrevision' : isBoundedString 512 (revisionIdText n) = true :=
    isBoundedString_revisionIdText hn (by decide)
  simp only [rowToAttention, attentionRow, isAttention, isBoundedString_toWellFormed, hid, hroute,
    hreason, hreason', hrevision, hrevision', hcreated, htime, Option.all_none, Bool.and_true,
    Bool.and_self, decide_eq_true_eq]

theorem mapM_rowToAttention {rows : List Attention} {ok : Attention → Prop} [DecidablePred ok]
    (h : ∀ row ∈ rows, rowToAttention row = if ok row then some row else none)
    {values : List Attention} :
    rows.mapM rowToAttention = some values ↔ (∀ row ∈ rows, ok row) ∧ values = rows := by
  induction rows generalizing values with
  | nil => simp [eq_comm]
  | cons row rest ih =>
      rw [mapM_cons_eq_some, List.forall_mem_cons]
      have hrest : ∀ {values}, rest.mapM rowToAttention = some values ↔
          (∀ row ∈ rest, ok row) ∧ values = rest :=
        ih fun other hother => h other (List.mem_cons_of_mem _ hother)
      rw [h row List.mem_cons_self]
      constructor
      · rintro ⟨head, tail, hhead, htail, rfl⟩
        obtain ⟨hok, hhead⟩ := Option.ite_none_right_eq_some.mp hhead
        obtain ⟨hall, rfl⟩ := hrest.mp htail
        cases hhead
        exact ⟨⟨hok, hall⟩, rfl⟩
      · rintro ⟨⟨hok, hall⟩, rfl⟩
        exact ⟨row, rest, if_pos hok, hrest.mpr ⟨hall, rfl⟩, rfl⟩

/-- The identifiers of the attention differ exactly if no selector has two listed routes
of one model. -/
theorem nodup_attentionIds_iff {n : ℕ} {affected : List PolicySelector} :
    ((attentionEntries routes affected).map fun entry =>
      toWellFormed (attentionIdText (revisionIdText n) entry.2 entry.1.modelId)).Nodup ↔
      ∀ selector ∈ affected,
        ((listedRoutes routes selector).map fun route => toWellFormed route.modelId).Nodup := by
  have hmap : ((attentionEntries routes affected).map fun entry =>
      toWellFormed (attentionIdText (revisionIdText n) entry.2 entry.1.modelId)) =
      (affected.zipIdx.flatMap fun entry =>
        ((listedRoutes routes entry.1).map fun route => toWellFormed route.modelId).map
          fun modelId => (entry.2, modelId)).map fun key =>
            js "routing-attention-" ++ (revisionIdText n ++
              0x2D :: (decimalText key.1 ++ 0x2D :: key.2)) := by
    rw [attentionEntries, List.map_flatMap, List.map_flatMap]
    refine List.flatMap_congr fun pair _ => ?_
    rw [List.map_map, List.map_map, List.map_map]
    exact List.map_congr_left fun route _ => toWellFormed_attentionIdText
  -- hyphens end the digits, so index and model are read off an identifier
  have hinjective : Function.Injective fun key : ℕ × JsString =>
      js "routing-attention-" ++ (revisionIdText n ++
        0x2D :: (decimalText key.1 ++ 0x2D :: key.2)) := by
    intro a b hab
    obtain ⟨-, hrest⟩ := revisionIdText_hyphen (List.append_cancel_left hab)
    obtain ⟨hindex, hmodel⟩ := decimalText_hyphen hrest
    exact Prod.ext hindex hmodel
  rw [hmap, List.nodup_map_iff hinjective, List.nodup_flatMap]
  -- identifiers of different selectors differ in their indices
  have hindices : affected.zipIdx.Pairwise fun a b => a.2 ≠ b.2 := by
    rw [← List.pairwise_map (f := Prod.snd) (R := (· ≠ ·)), List.zipIdx_map_snd]
    exact List.nodup_range'
  constructor
  · rintro ⟨hall, -⟩ selector hselector
    obtain ⟨index, hindex, rfl⟩ := List.mem_iff_getElem.mp hselector
    have hmem : (affected[index], index) ∈ affected.zipIdx := by
      rw [List.mk_mem_zipIdx_iff_getElem?]
      exact List.getElem?_eq_getElem hindex
    exact (hall _ hmem).of_map _
  · intro hall
    refine ⟨fun pair hpair => ?_, hindices.imp fun {a b} hne => ?_⟩
    · refine (List.nodup_map_iff fun _ _ heq => (Prod.mk.inj heq).2).mpr (hall pair.1 ?_)
      exact List.fst_mem_of_mem_zipIdx hpair
    · intro key hkey hkey'
      obtain ⟨_, -, rfl⟩ := List.mem_map.mp hkey
      obtain ⟨_, -, heq⟩ := List.mem_map.mp hkey'
      exact hne (Prod.mk.inj heq).1.symm

/-! ## The reset -/

/-- The pairs of a selector that a reset removes and a listed route it refers to. -/
def removedPairs (routes : List RouteIdentity) (current : PolicyRevision) :
    List (PolicySelector × RouteIdentity) :=
  (affectedSelectors routes current).flatMap fun selector =>
    (listedRoutes routes selector).map fun route => (selector, route)

/-- What a reset from `s` to `t` is for. -/
structure ResetTo (s t : Store) (routes : List RouteIdentity) (current : PolicyRevision)
    (reasonCode occurredAt : JsString) (revision : PolicyRevision) : Prop where
  appended : ∃ row, t.revisions = s.revisions ++ [row] ∧ row.revisionId = revision.revisionId ∧
    row.reason = .catalogReset
  selectors : revision.selectors.Perm (current.selectors.filter fun entry =>
    !(entry.scope != .global && selectorReferences routes entry))
  read : ∃ policy, t.getCurrentPolicy = some (some policy) ∧
    policy.revisionId = revision.revisionId ∧ policy.selectors.Perm revision.selectors
  attention : ∃ attention, t.listCurrentAttention = some attention ∧
    (attention.map fun row => (row.connectionId, row.modelId, row.reasonCode, row.revisionId,
      row.occurredAt, row.acknowledgedAt)).Perm
      ((removedPairs routes current).map fun pair => (toWellFormed pair.2.connectionId,
        toWellFormed pair.2.modelId, toWellFormed reasonCode, revision.revisionId, occurredAt,
        none))

/-- The resets that can be written and read back: there is another sequence number, no
removed selector has two listed routes of one model, and no model is too long. -/
structure Resettable (s : Store) (routes : List RouteIdentity) (current : PolicyRevision) :
    Prop where
  numbered : s.lastSequence < JsValue.maxSafeInteger
  apart : ∀ selector ∈ affectedSelectors routes current,
    ((listedRoutes routes selector).map fun route => toWellFormed route.modelId).Nodup
  short : ∀ entry ∈ attentionEntries routes (affectedSelectors routes current),
    entry.1.modelId.length + (decimalText entry.2).length +
      (decimalText (s.lastSequence + 1)).length ≤ 475

theorem isRouteIdentity_of_mem {selector : PolicySelector}
    (h : isPolicySelector selector = true) {route : RouteIdentity}
    (hroute : route ∈ referencedRoutes selector) : isRouteIdentity route = true := by
  simp only [isPolicySelector, Bool.and_eq_true] at h
  obtain ⟨⟨-, hselector⟩, hfailure⟩ := h
  rcases List.mem_append.mp hroute with hroute | hroute
  · split at hroute
    · rename_i primary heq
      rw [heq] at hselector
      obtain rfl := List.mem_singleton.mp hroute
      exact hselector
    · exact absurd hroute List.not_mem_nil
  · split at hroute
    · rename_i fallback heq
      rw [heq] at hfailure
      obtain rfl := List.mem_singleton.mp hroute
      exact hfailure
    · exact absurd hroute List.not_mem_nil

/-- The routes that attention is written for are valid. -/
theorem isRouteIdentity_of_entry
    (h : ∀ selector ∈ current.selectors, isPolicySelector selector = true)
    {entry : RouteIdentity × ℕ}
    (hentry : entry ∈ attentionEntries routes (affectedSelectors routes current)) :
    isRouteIdentity entry.1 = true := by
  obtain ⟨⟨selector, index⟩, hmem, hroute⟩ := List.mem_flatMap.mp hentry
  obtain ⟨route, hlisted, heq⟩ := List.mem_map.mp hroute
  cases heq
  have hselector := List.mem_of_mem_filter (List.fst_mem_of_mem_zipIdx hmem)
  exact isRouteIdentity_of_mem (h selector hselector) (List.mem_of_mem_filter hlisted)

section Reset

variable {registryVersion reasonCode occurredAt : JsString} {actor correlationId : Option JsString}

/-- The mutation of a reset. -/
def resetInput (current : PolicyRevision) (routes : List RouteIdentity)
    (registryVersion occurredAt : JsString) (actor correlationId : Option JsString) :
    PolicyMutation :=
  ⟨registryVersion, some current.revisionId, .operatorMutation, occurredAt, actor, correlationId,
    current.selectors.filter fun entry => entry ∉ affectedSelectors routes current⟩

/-- The selectors that are not among the affected ones. -/
theorem filter_not_affected : (current.selectors.filter fun entry =>
    entry ∉ affectedSelectors routes current) = current.selectors.filter fun entry =>
      !(entry.scope != .global && selectorReferences routes entry) := by
  refine List.filter_congr fun entry hentry => ?_
  rw [Bool.eq_iff_iff, decide_eq_true_eq, affectedSelectors, List.mem_filter,
    and_iff_right hentry, Bool.not_eq_true', Bool.not_eq_true]

/-- A valid reset of a policy that refers to one of the routes. -/
structure ResetRequest (s : Store) (current : PolicyRevision) (routes : List RouteIdentity)
    (registryVersion reasonCode occurredAt : JsString) (actor correlationId : Option JsString) :
    Prop where
  policy : s.getCurrentPolicy = some (some current)
  registryVersion : current.registryVersion = registryVersion
  listed : routes.all isRouteIdentity = true
  affected : affectedSelectors routes current ≠ []
  reasonCode : isBoundedString 256 reasonCode = true
  occurredAt : isCanonicalIso occurredAt = true
  actor : actor.all (isBoundedString 512) = true
  correlationId : correlationId.all (isBoundedString 512) = true

theorem resetUnavailableRoutes_eq_iff
    (h : ResetRequest s current routes registryVersion reasonCode occurredAt actor correlationId) :
    s.resetUnavailableRoutes digest collate registryVersion routes reasonCode occurredAt actor
        correlationId = (.revised revision, t) ↔
      ∃ next attention, s.insertRevision digest collate
          (resetInput current routes registryVersion occurredAt actor correlationId) .catalogReset
          (resetInput current routes registryVersion occurredAt actor correlationId).selectors =
            some (revision, next) ∧
        Table.insertAll Attention.attentionId next.attention
          ((attentionEntries routes (affectedSelectors routes current)).map
            (attentionRow revision.revisionId reasonCode occurredAt)) = some attention ∧
        { next with attention } = t := by
  have hbounded : isBoundedString 256 registryVersion = true := by
    rw [← h.registryVersion]
    exact (getCurrentPolicy_spec h.policy).1
  have hlength : ¬ (affectedSelectors routes current).length = 0 := by
    rw [List.length_eq_zero_iff]
    exact h.affected
  rw [resetUnavailableRoutes, hbounded, h.occurredAt, h.actor, h.correlationId, h.reasonCode,
    h.listed, if_neg (by decide), h.policy]
  dsimp only
  rw [if_neg (not_not.mpr h.registryVersion), if_neg hlength, ← resetInput]
  constructor
  · intro hreset
    split at hreset
    · cases hreset
    · rename_i prepared next hinsert
      split at hreset
      · cases hreset
      · rename_i attention hattention
        cases hreset
        exact ⟨next, attention, hinsert, hattention, rfl⟩
  · rintro ⟨next, attention, hinsert, hattention, rfl⟩
    rw [resetInput] at hinsert ⊢
    dsimp only at hinsert
    rw [hinsert]
    dsimp only
    rw [hattention]

/-- The revision of a reset is always written, if there is another sequence number. -/
theorem insertRevision_reset (hs : Sound s) (hcurrent : s.getCurrentPolicy = some (some current))
    (hnumbered : s.lastSequence < JsValue.maxSafeInteger) :
    ∃ revision next, s.insertRevision digest collate
      (resetInput current routes registryVersion occurredAt actor correlationId) .catalogReset
      (resetInput current routes registryVersion occurredAt actor correlationId).selectors =
        some (revision, next) := by
  have hnext : s.nextSequence = some (s.lastSequence + 1) := if_pos hnumbered
  obtain ⟨⟨revision, identity⟩, hprepare⟩ : ∃ candidate, prepareRevision digest collate s
      (resetInput current routes registryVersion occurredAt actor correlationId) .catalogReset
      (resetInput current routes registryVersion occurredAt actor correlationId).selectors =
        some candidate := by
    rw [prepareRevision, hnext]
    exact ⟨_, rfl⟩
  obtain ⟨hprepared, hperm, -⟩ := prepareRevision_eq_some hprepare
  have hkept : (resetInput current routes registryVersion occurredAt actor
      correlationId).selectors.Sublist current.selectors := List.filter_sublist
  -- the kept selectors have the keys they had, which are different
  have hinsert : s.insertPreparedRevision revision identity =
      some (withRevision s revision identity) := by
    refine (insertPreparedRevision_eq_some_iff hs hprepared).mpr ⟨?_, ?_, rfl⟩
    · exact ((hperm.map _).nodup_iff).mpr
        ((current_scopes_nodup hs hcurrent).sublist (hkept.map _))
    · exact ((hperm.flatMap_right _).nodup_iff).mpr
        ((current_dependencies_nodup hs hcurrent).sublist (hkept.flatMap _))
  refine ⟨revision, withRevision s revision identity, ?_⟩
  rw [insertRevision, hprepare, Option.bind_some]
  dsimp only
  rw [hinsert, Option.map_some]

/-- What is known of a revision that a reset has written. -/
structure ResetRevision (s : Store) (current : PolicyRevision) (routes : List RouteIdentity)
    (revision : PolicyRevision) (identity : PolicyIdentity) : Prop where
  prepared : Prepared s revision identity
  readable : Readable revision
  reason : revision.reason = .catalogReset
  selectors : revision.selectors.Perm (current.selectors.filter fun entry =>
    !(entry.scope != .global && selectorReferences routes entry))

theorem resetRevision_of_insert (hs : Sound s)
    (h : ResetRequest s current routes registryVersion reasonCode occurredAt actor correlationId)
    (hinsert : s.insertRevision digest collate
      (resetInput current routes registryVersion occurredAt actor correlationId) .catalogReset
      (resetInput current routes registryVersion occurredAt actor correlationId).selectors =
        some (revision, t)) :
    ∃ identity, ResetRevision s current routes revision identity ∧
      t = withRevision s revision identity := by
  obtain ⟨identity, hprepare, hinsert⟩ := insertRevision_eq_some hinsert
  obtain ⟨hprepared, hperm, hrevision⟩ := prepareRevision_eq_some hprepare
  obtain ⟨-, -, rfl⟩ := (insertPreparedRevision_eq_some_iff hs hprepared).mp hinsert
  have hvalid := getCurrentPolicy_spec h.policy
  refine ⟨identity, ⟨hprepared, ⟨?_, ?_, ?_, ?_, ?_⟩, ?_, ?_⟩, rfl⟩
  · rw [hrevision]
    exact h.registryVersion ▸ hvalid.1
  · rw [hrevision]
    exact h.occurredAt
  · rw [hrevision]
    exact h.actor
  · rw [hrevision]
    exact h.correlationId
  · intro selector hselector
    exact hvalid.2.1 selector (List.mem_of_mem_filter (hperm.mem_iff.mp hselector))
  · rw [hrevision]
  · rw [← filter_not_affected]
    exact hperm

/-- The store after a reset. -/
def afterReset (s : Store) (revision : PolicyRevision) (identity : PolicyIdentity)
    (entries : List (RouteIdentity × ℕ)) (reasonCode occurredAt : JsString) : Store :=
  { withRevision s revision identity with
    attention := s.attention ++
      entries.map (attentionRow revision.revisionId reasonCode occurredAt) }

theorem attentionRows_afterReset (hs : Sound s) (hprepared : Prepared s revision identity)
    (entries : List (RouteIdentity × ℕ)) :
    ((afterReset s revision identity entries reasonCode occurredAt).attentionRows
      revision.revisionId).Perm
        (entries.map (attentionRow revision.revisionId reasonCode occurredAt)) := by
  refine (List.perm_insertionSort _ _).trans (List.Perm.of_eq ?_)
  -- no attention of an earlier reset has the new revision
  have hold : (s.attention.filter fun row => row.revisionId = revision.revisionId) = [] := by
    rw [List.filter_eq_nil_iff]
    intro row hrow heq
    obtain ⟨other, hother, hid, -⟩ := hs.attention row hrow
    refine hs.fresh hprepared.next other hother ?_
    rw [← hid, of_decide_eq_true heq, hprepared.named]
  rw [afterReset, List.filter_append, hold, List.nil_append, List.filter_eq_self]
  intro row hrow
  obtain ⟨entry, -, rfl⟩ := List.mem_map.mp hrow
  refine decide_eq_true ?_
  rw [attentionRow, hprepared.toWellFormed_revisionId, hprepared.named]

/-- The attention of a reset is read back exactly if no model is too long. -/
theorem listCurrentAttention_afterReset (hs : Sound s)
    (h : ResetRequest s current routes registryVersion reasonCode occurredAt actor correlationId)
    (hrevision : ResetRevision s current routes revision identity) {attention : List Attention} :
    (afterReset s revision identity (attentionEntries routes (affectedSelectors routes current))
      reasonCode occurredAt).listCurrentAttention = some attention ↔
      (∀ entry ∈ attentionEntries routes (affectedSelectors routes current),
        entry.1.modelId.length + (decimalText entry.2).length +
          (decimalText identity.revisionNumber).length ≤ 475) ∧
      attention = (afterReset s revision identity
        (attentionEntries routes (affectedSelectors routes current)) reasonCode
          occurredAt).attentionRows revision.revisionId := by
  obtain ⟨policy, hpolicy, hid, -⟩ :=
    getCurrentPolicy_withRevision hs hrevision.prepared hrevision.readable
  have hpolicy' : (afterReset s revision identity (attentionEntries routes
      (affectedSelectors routes current)) reasonCode occurredAt).getCurrentPolicy =
        some (some policy) := hpolicy
  have hperm : ((afterReset s revision identity (attentionEntries routes
      (affectedSelectors routes current)) reasonCode occurredAt).attentionRows
        revision.revisionId).Perm ((attentionEntries routes (affectedSelectors routes current)).map
          (attentionRow revision.revisionId reasonCode occurredAt)) :=
    attentionRows_afterReset hs hrevision.prepared _
  have hnumber := le_of_nextSequence hrevision.prepared.next
  have hrows : ∀ row ∈ (afterReset s revision identity (attentionEntries routes
      (affectedSelectors routes current)) reasonCode occurredAt).attentionRows revision.revisionId,
      rowToAttention row = if row.attentionId.length ≤ 512 then some row else none := by
    intro row hrow
    obtain ⟨entry, hentry, rfl⟩ := List.mem_map.mp (hperm.mem_iff.mp hrow)
    rw [hrevision.prepared.named, rowToAttention_attentionRow hnumber h.reasonCode h.occurredAt
      (isRouteIdentity_of_entry (getCurrentPolicy_spec h.policy).2.1 hentry)]
    refine if_congr ?_ rfl rfl
    rw [attentionRow, JsString.length_toWellFormed, length_attentionIdText]
    omega
  rw [listCurrentAttention, hpolicy', Option.bind_some]
  dsimp only
  rw [hid, mapM_rowToAttention hrows]
  refine and_congr_left fun _ => ?_
  constructor
  · intro hall entry hentry
    have hrow := hall _ (hperm.mem_iff.mpr (List.mem_map_of_mem hentry))
    rw [attentionRow, JsString.length_toWellFormed, hrevision.prepared.named,
      length_attentionIdText] at hrow
    omega
  · intro hall row hrow
    obtain ⟨entry, hentry, rfl⟩ := List.mem_map.mp (hperm.mem_iff.mp hrow)
    have hentry' := hall entry hentry
    rw [attentionRow, JsString.length_toWellFormed, hrevision.prepared.named,
      length_attentionIdText]
    omega

/-- Attention is written for the pairs of a removed selector and a listed route. -/
theorem map_fst_attentionEntries :
    (attentionEntries routes (affectedSelectors routes current)).map Prod.fst =
      (removedPairs routes current).map Prod.snd := by
  rw [attentionEntries, removedPairs, List.map_flatMap, List.map_flatMap]
  simp only [List.map_map, Function.comp_def, List.map_id']
  conv_rhs => rw [← List.zipIdx_map_fst 0 (affectedSelectors routes current), List.flatMap_map]

theorem resetTo_afterReset (hs : Sound s)
    (h : ResetRequest s current routes registryVersion reasonCode occurredAt actor correlationId)
    (hrevision : ResetRevision s current routes revision identity)
    (hshort : ∀ entry ∈ attentionEntries routes (affectedSelectors routes current),
      entry.1.modelId.length + (decimalText entry.2).length +
        (decimalText identity.revisionNumber).length ≤ 475) :
    ResetTo s (afterReset s revision identity
      (attentionEntries routes (affectedSelectors routes current)) reasonCode occurredAt) routes
        current reasonCode occurredAt revision := by
  have hid : toWellFormed revision.revisionId = revision.revisionId := by
    rw [hrevision.prepared.toWellFormed_revisionId, hrevision.prepared.named]
  have htime : toWellFormed occurredAt = occurredAt :=
    Date.toWellFormed_of_canonicalTime h.occurredAt
  refine ⟨⟨_, rfl, hid, hrevision.reason⟩, hrevision.selectors,
    getCurrentPolicy_withRevision hs hrevision.prepared hrevision.readable,
    _, (listCurrentAttention_afterReset hs h hrevision).mpr ⟨hshort, rfl⟩, ?_⟩
  refine ((attentionRows_afterReset hs hrevision.prepared _).map _).trans (List.Perm.of_eq ?_)
  have hroutes : (attentionEntries routes (affectedSelectors routes current)).map Prod.fst =
      (removedPairs routes current).map Prod.snd := map_fst_attentionEntries
  have hpairs := congrArg (List.map fun route : RouteIdentity => (toWellFormed route.connectionId,
    toWellFormed route.modelId, toWellFormed reasonCode, revision.revisionId, occurredAt,
      (none : Option JsString))) hroutes
  simpa only [List.map_map, Function.comp_def, attentionRow, hid, htime] using hpairs

/-- **A reset does what it is for** exactly if its attention can be written and read back. -/
theorem resetUnavailableRoutes_iff (hreachable : Reachable digest collate s)
    (h : ResetRequest s current routes registryVersion reasonCode occurredAt actor
      correlationId) :
    (∃ revision t, s.resetUnavailableRoutes digest collate registryVersion routes reasonCode
      occurredAt actor correlationId = (.revised revision, t) ∧
        ResetTo s t routes current reasonCode occurredAt revision) ↔
      Resettable s routes current := by
  have hs := hreachable.sound
  have hnumber : ∀ {n}, s.nextSequence = some n →
      s.lastSequence < JsValue.maxSafeInteger ∧ s.lastSequence + 1 = n := by
    intro n hn
    rwa [nextSequence, Option.ite_none_right_eq_some, Option.some.injEq] at hn
  constructor
  · rintro ⟨revision, t, hreset, hto⟩
    obtain ⟨next, attention, hinsert, hattention, rfl⟩ :=
      (resetUnavailableRoutes_eq_iff h).mp hreset
    obtain ⟨identity, hrevision, rfl⟩ := resetRevision_of_insert hs h hinsert
    obtain ⟨hnumbered, hidentity⟩ := hnumber hrevision.prepared.next
    rw [hrevision.prepared.named] at hattention
    obtain ⟨hnodup, rfl⟩ :=
      (insertAttention_eq_some_iff hs hrevision.prepared.next).mp hattention
    -- the rows went in, so no key is repeated; they are read back, so none is too long
    obtain ⟨values, hvalues, -⟩ := hto.attention
    rw [← hrevision.prepared.named] at hvalues
    refine ⟨hnumbered, nodup_attentionIds_iff.1 hnodup, ?_⟩
    rw [hidentity]
    exact ((listCurrentAttention_afterReset hs h hrevision).mp hvalues).1
  · intro hresettable
    obtain ⟨revision, next, hinsert⟩ :=
      insertRevision_reset hs h.policy hresettable.numbered
    obtain ⟨identity, hrevision, rfl⟩ := resetRevision_of_insert hs h hinsert
    obtain ⟨-, hidentity⟩ := hnumber hrevision.prepared.next
    have hshort := hresettable.short
    rw [hidentity] at hshort
    refine ⟨revision, _, (resetUnavailableRoutes_eq_iff h).mpr
      ⟨_, _, hinsert, ?_, rfl⟩, resetTo_afterReset hs h hrevision hshort⟩
    rw [hrevision.prepared.named]
    exact (insertAttention_eq_some_iff hs hrevision.prepared.next).mpr
      ⟨nodup_attentionIds_iff.2 hresettable.apart, rfl⟩

end Reset

/-! ## Two routes of one model -/

/-- A store whose action goes from a route to one of the same model on another connection. -/
def sampleStore : Store :=
  (Store.empty.applyMutation (fun _ => js "g") (fun a b => a ≤ b)
    ⟨js "r/v1", none, .bootstrap, js "2026-01-01T00:00:00.000Z", none, none,
      [⟨.global, .route ⟨js "c", js "k"⟩, .failImmediately⟩,
        ⟨.action (js "a"), .route ⟨js "c", js "m"⟩, .rerouteRouteOnce ⟨js "d", js "m"⟩⟩]⟩
    ⟨[⟨js "a", .review, js "Review", .int 1, js "Act", .int 1, .codeReviewAgent, js "a/v1",
        ⟨.int 1, false, false, false⟩⟩],
      [⟨⟨js "c", js "k"⟩, true, true, some (.int 5), none, none, none⟩,
        ⟨⟨js "c", js "m"⟩, true, true, some (.int 5), none, none, none⟩,
        ⟨⟨js "d", js "m"⟩, true, true, some (.int 5), none, none, none⟩]⟩).2

/-- What is read as its policy. -/
def samplePolicy : PolicyRevision :=
  ⟨js "routing-revision-1", js "r/v1", .bootstrap, js "2026-01-01T00:00:00.000Z", none, none,
    [⟨.action (js "a"), .route ⟨js "c", js "m"⟩, .rerouteRouteOnce ⟨js "d", js "m"⟩⟩,
      ⟨.global, .route ⟨js "c", js "k"⟩, .failImmediately⟩]⟩

theorem sampleStore_reachable :
    Reachable (fun _ => js "g") (fun a b => a ≤ b) sampleStore :=
  .mutate _ _ .empty

theorem resetRequest_sample {routes : List RouteIdentity}
    (hlisted : routes.all isRouteIdentity = true)
    (haffected : affectedSelectors routes samplePolicy ≠ []) :
    ResetRequest sampleStore samplePolicy routes (js "r/v1") (js "ROUTE_UNAVAILABLE")
      (js "2026-01-02T00:00:00.000Z") none none where
  policy := rfl
  registryVersion := rfl
  listed := hlisted
  affected := haffected
  reasonCode := by decide
  occurredAt := by decide
  actor := rfl
  correlationId := rfl

/-- One of the two routes is unavailable. -/
theorem resetUnavailableRoutes_iff_one :
    ∃ revision t, sampleStore.resetUnavailableRoutes (fun _ => js "g") (fun a b => a ≤ b)
      (js "r/v1") [⟨js "c", js "m"⟩] (js "ROUTE_UNAVAILABLE") (js "2026-01-02T00:00:00.000Z")
      none none = (.revised revision, t) ∧
        ResetTo sampleStore t [⟨js "c", js "m"⟩] samplePolicy (js "ROUTE_UNAVAILABLE")
          (js "2026-01-02T00:00:00.000Z") revision :=
  (resetUnavailableRoutes_iff sampleStore_reachable
    (resetRequest_sample (by decide) (by decide))).mpr ⟨by decide, by decide, by decide⟩

/-- **If both are unavailable**, the reset of a valid request throws. -/
theorem resetUnavailableRoutes_one_model :
    Reachable (fun _ => js "g") (fun a b => a ≤ b) sampleStore ∧
      ResetRequest sampleStore samplePolicy [⟨js "c", js "m"⟩, ⟨js "d", js "m"⟩] (js "r/v1")
        (js "ROUTE_UNAVAILABLE") (js "2026-01-02T00:00:00.000Z") none none ∧
      sampleStore.resetUnavailableRoutes (fun _ => js "g") (fun a b => a ≤ b) (js "r/v1")
        [⟨js "c", js "m"⟩, ⟨js "d", js "m"⟩] (js "ROUTE_UNAVAILABLE")
        (js "2026-01-02T00:00:00.000Z") none none = (.threw, sampleStore) :=
  ⟨sampleStore_reachable, resetRequest_sample (by decide) (by decide), rfl⟩

end Hepha.Routing.Store
