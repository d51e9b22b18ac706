import Hepha.Routing.Store

/-!
# What holds of every routing store

The rows of a revision are written once, when the revision is, and they have its
identifier, which no earlier revision has.  So what the primary keys have ensured
for the rows of a revision stays true (`Sound`), in every store that the methods
lead to (`Reachable.sound`).

Every method leaves the store as it is, writes one revision with the attention of
a reset, or acknowledges attention (`Store.Written`).
-/

namespace Hepha.Routing

open Hepha.Runtime (RouteIdentity)
open JsString (toWellFormed)

variable {digest : JsString → JsString} {collate : JsString → JsString → Bool} {s t : Store}

/-! ## Identifiers -/

/-- A text without surrogates is kept as it is in front of any text. -/
theorem toWellFormed_append {u v : JsString} (h : ∀ c ∈ u, isSurrogate c = false) :
    toWellFormed (u ++ v) = u ++ toWellFormed v := by
  induction u with
  | nil => rfl
  | cons c rest ih =>
      rw [List.cons_append, JsString.toWellFormed_cons (h c List.mem_cons_self),
        ih fun d hd => h d (List.mem_cons_of_mem _ hd), List.cons_append]

theorem isSurrogate_decimalText {n : ℕ} : ∀ c ∈ decimalText n, isSurrogate c = false := by
  intro c hc
  have hdigit := isDigit_of_mem_decimalText hc
  simp only [Pattern.isDigit, Bool.and_eq_true, decide_eq_true_eq, UInt16.le_iff_toNat_le]
    at hdigit
  exact isSurrogate_of_lt (by
    have : (0x39 : CodeUnit).toNat = 57 := rfl
    omega)

namespace Store

theorem isSurrogate_revisionIdText {n : ℕ} :
    ∀ c ∈ revisionIdText n, isSurrogate c = false := by
  intro c hc
  rcases List.mem_append.mp hc with hc | hc
  · have hall : ((js "routing-revision-").all fun c => !isSurrogate c) = true := by decide
    simpa using List.all_eq_true.mp hall c hc
  · exact isSurrogate_decimalText c hc

@[simp] theorem toWellFormed_revisionIdText (n : ℕ) :
    toWellFormed (revisionIdText n) = revisionIdText n :=
  JsString.toWellFormed_eq_self isSurrogate_revisionIdText

theorem revisionIdText_injective : Function.Injective revisionIdText := fun _ _ h =>
  decimalText_injective (List.append_cancel_left h)

/-- A number ends before a hyphen that follows it. -/
theorem decimalText_hyphen {m n : ℕ} {u v : JsString}
    (h : decimalText m ++ 0x2D :: u = decimalText n ++ 0x2D :: v) : m = n ∧ u = v := by
  have hhyphen : ∀ k, ∀ c ∈ decimalText k, c ≠ 0x2D := by
    rintro k c hc rfl
    exact absurd (isDigit_of_mem_decimalText hc) (by decide)
  have htake : ∀ k w, (decimalText k ++ 0x2D :: w).takeWhile (· != 0x2D) = decimalText k := by
    intro k w
    rw [List.takeWhile_append_of_pos fun c hc => bne_iff_ne.mpr (hhyphen k c hc)]
    simp
  have hsame := congrArg (List.takeWhile (· != 0x2D)) h
  rw [htake, htake] at hsame
  obtain rfl := decimalText_injective hsame
  exact ⟨rfl, List.cons_injective (List.append_cancel_left h)⟩

/-- The identifier of a revision ends before a hyphen that follows it. -/
theorem revisionIdText_hyphen {m n : ℕ} {u v : JsString}
    (h : revisionIdText m ++ 0x2D :: u = revisionIdText n ++ 0x2D :: v) : m = n ∧ u = v := by
  rw [revisionIdText, revisionIdText, List.append_assoc, List.append_assoc,
    List.append_cancel_left_eq] at h
  exact decimalText_hyphen h

/-- What tells the dependencies of a revision apart. -/
def dependencyKeys (selector : PolicySelector) : List (JsString × JsString × SelectorScope) :=
  (referencedRoutes selector).map fun route =>
    (toWellFormed route.connectionId, toWellFormed route.modelId, selector.scope)

theorem nodup_dependencyRows {revisionId : JsString} {selectors : List PolicySelector} :
    (selectors.flatMap (dependencyRows revisionId)).Nodup ↔
      (selectors.flatMap dependencyKeys).Nodup := by
  have hmap : selectors.flatMap (dependencyRows revisionId) =
      (selectors.flatMap dependencyKeys).map fun key =>
        ⟨toWellFormed revisionId, key.1, key.2.1, key.2.2⟩ := by
    rw [List.map_flatMap]
    refine List.flatMap_congr fun selector _ => ?_
    rw [dependencyKeys, List.map_map]
    rfl
  rw [hmap, List.nodup_map_iff]
  intro a b hab
  obtain ⟨-, hconnection, hmodel, hscope⟩ := DependencyRow.mk.inj hab
  exact Prod.ext hconnection (Prod.ext hmodel hscope)

/-! ## The invariant -/

structure Sound (s : Store) : Prop where
  named : ∀ row ∈ s.revisions, row.revisionId = revisionIdText row.sequence
  selectors : ∀ row ∈ s.selectors, (∃ revision ∈ s.revisions,
    row.revisionId = revision.revisionId) ∧
      row.scopeKey = toWellFormed (selectorScopeKey row.selector.scope)
  selectorsNodup : (s.selectors.map SelectorRow.key).Nodup
  dependencies : ∀ row ∈ s.dependencies, ∃ revision ∈ s.revisions,
    row.revisionId = revision.revisionId
  dependenciesNodup : s.dependencies.Nodup
  apart : ∀ revisionId, ((s.selectors.filter fun row => row.revisionId = revisionId).flatMap
    fun row => dependencyKeys row.selector).Nodup
  attention : ∀ row ∈ s.attention, ∃ revision ∈ s.revisions,
    row.revisionId = revision.revisionId ∧
      ∃ rest, row.attentionId = js "routing-attention-" ++ (revision.revisionId ++ 0x2D :: rest)
  attentionNodup : (s.attention.map Attention.attentionId).Nodup

theorem Sound.empty : Sound Store.empty where
  named := nofun
  selectors := nofun
  selectorsNodup := List.nodup_nil
  dependencies := nofun
  dependenciesNodup := List.nodup_nil
  apart := fun _ => List.nodup_nil
  attention := nofun
  attentionNodup := List.nodup_nil

/-- The next sequence number is above all others. -/
theorem lt_of_nextSequence {n : ℕ} (h : s.nextSequence = some n) {row : RevisionRow}
    (hrow : row ∈ s.revisions) : row.sequence < n := by
  rw [nextSequence, Option.ite_none_right_eq_some, Option.some.injEq] at h
  -- by induction on the rows: each is at most the greatest
  have hmax : ∀ (rows : List RevisionRow), row ∈ rows →
      row.sequence ≤ (rows.map RevisionRow.sequence).foldr max 0 := by
    intro rows hmem
    induction rows with
    | nil => exact absurd hmem List.not_mem_nil
    | cons first rest ih =>
        rw [List.map_cons, List.foldr_cons]
        rcases List.mem_cons.mp hmem with rfl | hmem
        · exact le_max_left _ _
        · exact (ih hmem).trans (le_max_right _ _)
  have hle := hmax s.revisions hrow
  rw [← h.2, lastSequence]
  omega

/-- No row has the identifier of the next revision. -/
theorem Sound.fresh (h : Sound s) {n : ℕ} (hn : s.nextSequence = some n) :
    ∀ row ∈ s.revisions, row.revisionId ≠ revisionIdText n := by
  intro row hrow heq
  rw [h.named row hrow] at heq
  exact Nat.ne_of_lt (lt_of_nextSequence hn hrow) (revisionIdText_injective heq)

/-- What was prepared for the next revision. -/
structure Prepared (s : Store) (revision : PolicyRevision) (identity : PolicyIdentity) : Prop where
  next : s.nextSequence = some identity.revisionNumber
  named : revision.revisionId = revisionIdText identity.revisionNumber

theorem prepareRevision_eq_some {input : PolicyMutation} {reason : RevisionReason}
    {selectors : List PolicySelector} {revision : PolicyRevision} {identity : PolicyIdentity}
    (h : prepareRevision digest collate s input reason selectors = some (revision, identity)) :
    Prepared s revision identity ∧ revision.selectors.Perm selectors ∧
      revision = ⟨revisionIdText identity.revisionNumber, input.registryVersion, reason,
        input.occurredAt, input.actor, input.correlationId, revision.selectors⟩ := by
  rw [prepareRevision, Option.map_eq_some_iff] at h
  obtain ⟨n, hn, heq⟩ := h
  cases heq
  exact ⟨⟨hn, rfl⟩, List.perm_insertionSort _ _, rfl⟩

/-- The store with the rows of a revision. -/
def withRevision (s : Store) (revision : PolicyRevision) (identity : PolicyIdentity) : Store where
  state := some (toWellFormed revision.revisionId, toWellFormed revision.registryVersion)
  revisions := s.revisions ++ [revisionRow revision identity]
  selectors := s.selectors ++ revision.selectors.map (selectorRow revision.revisionId)
  dependencies := s.dependencies ++ revision.selectors.flatMap (dependencyRows revision.revisionId)
  attention := s.attention

theorem Prepared.toWellFormed_revisionId {revision : PolicyRevision} {identity : PolicyIdentity}
    (h : Prepared s revision identity) :
    toWellFormed revision.revisionId = revisionIdText identity.revisionNumber := by
  rw [h.named, toWellFormed_revisionIdText]

section Insert

variable {revision : PolicyRevision} {identity : PolicyIdentity}

theorem nodup_selectorKeys_iff (h : Sound s) (hprepared : Prepared s revision identity) :
    ((s.selectors ++ revision.selectors.map
      (selectorRow revision.revisionId)).map SelectorRow.key).Nodup ↔
      (revision.selectors.map fun selector =>
        toWellFormed (selectorScopeKey selector.scope)).Nodup := by
  rw [List.map_append, List.nodup_append', and_iff_right h.selectorsNodup, and_iff_left]
  · have hkeys : (revision.selectors.map (selectorRow revision.revisionId)).map SelectorRow.key =
        (revision.selectors.map fun selector =>
          toWellFormed (selectorScopeKey selector.scope)).map fun scopeKey =>
            (toWellFormed revision.revisionId, scopeKey) := by
      rw [List.map_map, List.map_map]
      rfl
    rw [hkeys, List.nodup_map_iff fun _ _ hpair => (Prod.mk.inj hpair).2]
  · intro key hold hnew
    obtain ⟨row, hrow, rfl⟩ := List.mem_map.mp hold
    obtain ⟨new, hmem, hkey⟩ := List.mem_map.mp hnew
    obtain ⟨selector, -, rfl⟩ := List.mem_map.mp hmem
    -- an old row with the same key would belong to the new revision
    obtain ⟨⟨other, hother, hid⟩, -⟩ := h.selectors row hrow
    have hsame : toWellFormed revision.revisionId = row.revisionId := (Prod.mk.inj hkey).1
    rw [hprepared.toWellFormed_revisionId, hid] at hsame
    exact h.fresh hprepared.next other hother hsame.symm

theorem nodup_dependencies_iff (h : Sound s) (hprepared : Prepared s revision identity) :
    (s.dependencies ++ revision.selectors.flatMap (dependencyRows revision.revisionId)).Nodup ↔
      (revision.selectors.flatMap dependencyKeys).Nodup := by
  rw [List.nodup_append', and_iff_right h.dependenciesNodup, and_iff_left, nodup_dependencyRows]
  intro row hold hnew
  obtain ⟨selector, -, hmem⟩ := List.mem_flatMap.mp hnew
  obtain ⟨route, -, rfl⟩ := List.mem_map.mp hmem
  obtain ⟨other, hother, hid⟩ := h.dependencies _ hold
  dsimp only at hid
  rw [hprepared.toWellFormed_revisionId] at hid
  exact h.fresh hprepared.next other hother hid.symm

/-- **A prepared revision is inserted** exactly if the keys of its rows are different. -/
theorem insertPreparedRevision_eq_some_iff (h : Sound s)
    (hprepared : Prepared s revision identity) :
    s.insertPreparedRevision revision identity = some t ↔
      (revision.selectors.map fun selector =>
        toWellFormed (selectorScopeKey selector.scope)).Nodup ∧
      (revision.selectors.flatMap dependencyKeys).Nodup ∧
      withRevision s revision identity = t := by
  have hnew : ¬ ((s.revisions.any fun other =>
      other.sequence == (revisionRow revision identity).sequence ||
        other.revisionId == (revisionRow revision identity).revisionId) = true) := by
    rw [List.any_eq_true]
    rintro ⟨row, hrow, hsame⟩
    rw [Bool.or_eq_true, beq_iff_eq, beq_iff_eq] at hsame
    rcases hsame with hsame | hsame
    · exact Nat.ne_of_lt (lt_of_nextSequence hprepared.next hrow) hsame
    · rw [revisionRow, hprepared.toWellFormed_revisionId] at hsame
      exact h.fresh hprepared.next row hrow hsame
  have hdependencies : (s.dependencies.map id).Nodup := by
    rw [List.map_id]
    exact h.dependenciesNodup
  rw [insertPreparedRevision, if_neg hnew]
  simp only [Option.bind_eq_some_iff, Option.map_eq_some_iff,
    Table.insertAll_of_nodup h.selectorsNodup, Table.insertAll_of_nodup hdependencies,
    List.map_id, nodup_selectorKeys_iff h hprepared, nodup_dependencies_iff h hprepared]
  constructor
  · rintro ⟨_, ⟨hscopes, rfl⟩, _, ⟨hkeys, rfl⟩, rfl⟩
    exact ⟨hscopes, hkeys, rfl⟩
  · rintro ⟨hscopes, hkeys, rfl⟩
    exact ⟨_, ⟨hscopes, rfl⟩, _, ⟨hkeys, rfl⟩, rfl⟩

/-- The rows of earlier revisions are the old ones, and those of this one the new ones. -/
theorem filter_selectors (h : Sound s) (hprepared : Prepared s revision identity)
    (revisionId : JsString) :
    ((withRevision s revision identity).selectors.filter fun row => row.revisionId = revisionId) =
      if revisionId = toWellFormed revision.revisionId then
        revision.selectors.map (selectorRow revision.revisionId)
      else s.selectors.filter fun row => row.revisionId = revisionId := by
  rw [withRevision, List.filter_append]
  split
  · rename_i hsame
    have hold : (s.selectors.filter fun row => row.revisionId = revisionId) = [] := by
      rw [List.filter_eq_nil_iff]
      intro row hrow heq
      obtain ⟨⟨other, hother, hid⟩, -⟩ := h.selectors row hrow
      refine h.fresh hprepared.next other hother ?_
      rw [← hid, of_decide_eq_true heq, hsame, hprepared.toWellFormed_revisionId]
    rw [hold, List.nil_append, List.filter_eq_self]
    intro row hrow
    obtain ⟨selector, -, rfl⟩ := List.mem_map.mp hrow
    exact decide_eq_true hsame.symm
  · rename_i hother
    have hnew : ((revision.selectors.map (selectorRow revision.revisionId)).filter fun row =>
        row.revisionId = revisionId) = [] := by
      rw [List.filter_eq_nil_iff]
      intro row hrow heq
      obtain ⟨selector, -, rfl⟩ := List.mem_map.mp hrow
      exact hother (of_decide_eq_true heq).symm
    rw [hnew, List.append_nil]

/-- The rows of a revision keep the invariant. -/
theorem Sound.insertPreparedRevision (h : Sound s) (hprepared : Prepared s revision identity)
    (hinsert : s.insertPreparedRevision revision identity = some t) : Sound t := by
  obtain ⟨hscopes, hkeys, rfl⟩ := (insertPreparedRevision_eq_some_iff h hprepared).mp hinsert
  have hkept : ∀ {revisionId}, (∃ row ∈ s.revisions, revisionId = row.revisionId) →
      ∃ row ∈ (withRevision s revision identity).revisions, revisionId = row.revisionId :=
    fun ⟨row, hrow, heq⟩ => ⟨row, List.mem_append_left _ hrow, heq⟩
  have hown : ∃ row ∈ (withRevision s revision identity).revisions,
      toWellFormed revision.revisionId = row.revisionId :=
    ⟨_, List.mem_append_right _ (List.mem_singleton_self _), rfl⟩
  refine ⟨?_, ?_, (nodup_selectorKeys_iff h hprepared).mpr hscopes, ?_,
    (nodup_dependencies_iff h hprepared).mpr hkeys, ?_, ?_, h.attentionNodup⟩
  · intro row hrow
    rcases List.mem_append.mp hrow with hrow | hrow
    · exact h.named row hrow
    · obtain rfl := List.mem_singleton.mp hrow
      exact hprepared.toWellFormed_revisionId
  · intro row hrow
    rcases List.mem_append.mp hrow with hrow | hrow
    · exact ⟨hkept (h.selectors row hrow).1, (h.selectors row hrow).2⟩
    · obtain ⟨selector, -, rfl⟩ := List.mem_map.mp hrow
      exact ⟨hown, rfl⟩
  · intro row hrow
    rcases List.mem_append.mp hrow with hrow | hrow
    · exact hkept (h.dependencies row hrow)
    · obtain ⟨selector, -, hmem⟩ := List.mem_flatMap.mp hrow
      obtain ⟨route, -, rfl⟩ := List.mem_map.mp hmem
      exact hown
  -- rows of other revisions are as before, those of this one were just inserted
  · intro revisionId
    rw [filter_selectors h hprepared]
    split
    · rw [List.flatMap_map]
      exact hkeys
    · exact h.apart revisionId
  · intro row hrow
    obtain ⟨other, hother, hid⟩ := h.attention row hrow
    exact ⟨other, List.mem_append_left _ hother, hid⟩

end Insert

/-! ## Attention -/

theorem toWellFormed_attentionIdText {n index : ℕ} {modelId : JsString} :
    toWellFormed (attentionIdText (revisionIdText n) index modelId) =
      js "routing-attention-" ++ (revisionIdText n ++
        0x2D :: (decimalText index ++ 0x2D :: toWellFormed modelId)) := by
  have hprefix : ∀ c ∈ js "routing-attention-", isSurrogate c = false := by
    have hall : ((js "routing-attention-").all fun c => !isSurrogate c) = true := by decide
    intro c hc
    simpa using List.all_eq_true.mp hall c hc
  rw [attentionIdText, List.append_assoc, toWellFormed_append hprefix,
    toWellFormed_append isSurrogate_revisionIdText, JsString.toWellFormed_cons (by decide),
    toWellFormed_append isSurrogate_decimalText, JsString.toWellFormed_cons (by decide)]

/-- The attention of a reset is inserted exactly if its identifiers are different. -/
theorem insertAttention_eq_some_iff (h : Sound s) {n : ℕ} (hn : s.nextSequence = some n)
    {reasonCode occurredAt : JsString} {entries : List (RouteIdentity × ℕ)}
    {after : List Attention} :
    Table.insertAll Attention.attentionId s.attention
        (entries.map (attentionRow (revisionIdText n) reasonCode occurredAt)) = some after ↔
      (entries.map fun entry =>
        toWellFormed (attentionIdText (revisionIdText n) entry.2 entry.1.modelId)).Nodup ∧
      s.attention ++ entries.map (attentionRow (revisionIdText n) reasonCode occurredAt) =
        after := by
  rw [Table.insertAll_of_nodup h.attentionNodup, List.map_append, List.map_map,
    List.nodup_append', and_iff_right h.attentionNodup, and_assoc]
  refine and_congr_right fun _ => and_iff_right ?_
  intro attentionId hold hnew
  obtain ⟨row, hrow, rfl⟩ := List.mem_map.mp hold
  obtain ⟨entry, -, hid⟩ := List.mem_map.mp hnew
  -- an old identifier has an older sequence number before the second hyphen
  obtain ⟨revision, hrevision, -, rest, hrest⟩ := h.attention row hrow
  rw [hrest, h.named revision hrevision] at hid
  have hsame := (toWellFormed_attentionIdText).symm.trans hid
  exact Nat.ne_of_gt (lt_of_nextSequence hn hrevision)
    (revisionIdText_hyphen (List.append_cancel_left hsame)).1

theorem Sound.withAttention {n : ℕ} {reasonCode occurredAt : JsString}
    {entries : List (RouteIdentity × ℕ)} {after : List Attention} (h : Sound s) (ht : Sound t)
    (hn : s.nextSequence = some n) (hattention : t.attention = s.attention)
    (hrevision : ∃ revision ∈ t.revisions, revision.revisionId = revisionIdText n)
    (hinsert : Table.insertAll Attention.attentionId t.attention
      (entries.map (attentionRow (revisionIdText n) reasonCode occurredAt)) = some after) :
    Sound { t with attention := after } := by
  rw [hattention] at hinsert
  have hnodup : ((s.attention ++ entries.map
      (attentionRow (revisionIdText n) reasonCode occurredAt)).map Attention.attentionId).Nodup :=
    ((Table.insertAll_of_nodup h.attentionNodup).mp hinsert).1
  obtain ⟨-, rfl⟩ := (insertAttention_eq_some_iff h hn).mp hinsert
  refine { ht with attention := ?_, attentionNodup := hnodup }
  intro row hrow
  rcases List.mem_append.mp hrow with hrow | hrow
  · exact ht.attention row (hattention ▸ hrow)
  · obtain ⟨entry, -, rfl⟩ := List.mem_map.mp hrow
    obtain ⟨revision, hmem, hid⟩ := hrevision
    refine ⟨revision, hmem, ?_, decimalText entry.2 ++ 0x2D :: toWellFormed entry.1.modelId, ?_⟩
    · rw [hid]
      exact toWellFormed_revisionIdText n
    · rw [hid]
      exact toWellFormed_attentionIdText

/-- Acknowledging attention keeps what identifies it. -/
theorem Sound.setAcknowledged (h : Sound s) (attentionId acknowledgedAt : JsString) :
    Sound { s with attention := setAcknowledged s.attention attentionId acknowledgedAt } := by
  have hids : (Store.setAcknowledged s.attention attentionId acknowledgedAt).map
      Attention.attentionId = s.attention.map Attention.attentionId := by
    rw [Store.setAcknowledged, List.map_map]
    refine List.map_congr_left fun row _ => ?_
    rw [Function.comp_apply]
    split
    · rfl
    · rfl
  refine { h with attention := ?_, attentionNodup := hids ▸ h.attentionNodup }
  intro row hrow
  obtain ⟨other, hother, rfl⟩ := List.mem_map.mp hrow
  obtain ⟨revision, hrevision, hid, hrest⟩ := h.attention other hother
  refine ⟨revision, hrevision, ?_⟩
  split
  · exact ⟨hid, hrest⟩
  · exact ⟨hid, hrest⟩

/-! ## Runs -/

/-- What a method of the store does to it. -/
inductive Written (s : Store) : Store → Prop
  | same : Written s s
  | revision {t : Store} {revision : PolicyRevision} {identity : PolicyIdentity} :
      Prepared s revision identity → s.insertPreparedRevision revision identity = some t →
      Written s t
  | reset {t : Store} {revision : PolicyRevision} {identity : PolicyIdentity}
      {reasonCode occurredAt : JsString} {entries : List (RouteIdentity × ℕ)}
      {attention : List Attention} : Prepared s revision identity →
      s.insertPreparedRevision revision identity = some t →
      Table.insertAll Attention.attentionId t.attention
        (entries.map (attentionRow revision.revisionId reasonCode occurredAt)) = some attention →
      Written s { t with attention }
  | acknowledged (attentionId acknowledgedAt : JsString) :
      Written s { s with attention := setAcknowledged s.attention attentionId acknowledgedAt }

theorem Sound.written (h : Sound s) (hwritten : Written s t) : Sound t := by
  cases hwritten with
  | same => exact h
  | revision hprepared hinsert => exact h.insertPreparedRevision hprepared hinsert
  | @reset next revision identity _ _ _ _ hprepared hinsert hattention =>
      have hnext := h.insertPreparedRevision hprepared hinsert
      -- the attention is written after the revision, in the same transaction
      obtain ⟨-, -, rfl⟩ := (insertPreparedRevision_eq_some_iff h hprepared).mp hinsert
      rw [hprepared.named] at hattention
      exact h.withAttention hnext hprepared.next rfl
        ⟨_, List.mem_append_right _ (List.mem_singleton_self _),
          hprepared.toWellFormed_revisionId⟩ hattention
  | acknowledged attentionId acknowledgedAt => exact h.setAcknowledged attentionId acknowledgedAt

theorem insertRevision_eq_some {input : PolicyMutation} {reason : RevisionReason}
    {selectors : List PolicySelector} {revision : PolicyRevision}
    (h : s.insertRevision digest collate input reason selectors = some (revision, t)) :
    ∃ identity, prepareRevision digest collate s input reason selectors =
        some (revision, identity) ∧ s.insertPreparedRevision revision identity = some t := by
  rw [insertRevision, Option.bind_eq_some_iff] at h
  obtain ⟨⟨prepared, identity⟩, hprepare, hinsert⟩ := h
  obtain ⟨next, hnext, heq⟩ := Option.map_eq_some_iff.mp hinsert
  cases heq
  exact ⟨identity, hprepare, hnext⟩

theorem written_applyMutation (input : PolicyMutation) (context : ValidationContext) :
    Written s (s.applyMutation digest collate input context).2 := by
  unfold applyMutation
  split
  · exact .same
  · split
    · exact .same
    · split
      · exact .same
      · rename_i hinsert
        obtain ⟨identity, hprepare, hinsert⟩ := insertRevision_eq_some hinsert
        exact .revision (prepareRevision_eq_some hprepare).1 hinsert

theorem written_applyRowMutation (input : RowDraft) (context : MutationContext)
    (settleCandidate : PolicyRevision × PolicyIdentity → Bool) :
    Written s (s.applyRowMutation digest collate input context settleCandidate).2 := by
  unfold applyRowMutation
  split
  · exact .same
  · split
    · split
      · exact .same
      · split
        · exact .same
        · rename_i hprepare
          split
          · split
            · exact .same
            · rename_i hinsert
              exact .revision (prepareRevision_eq_some hprepare).1 hinsert
          · exact .same
    · exact .same

theorem written_resetUnavailableRoutes (registryVersion : JsString)
    (unavailableRoutes : List RouteIdentity) (reasonCode occurredAt : JsString)
    (actor correlationId : Option JsString) :
    Written s (s.resetUnavailableRoutes digest collate registryVersion unavailableRoutes reasonCode
      occurredAt actor correlationId).2 := by
  unfold resetUnavailableRoutes
  split
  · exact .same
  · split
    · exact .same
    · exact .same
    · split
      · exact .same
      · dsimp only
        split
        · exact .same
        · split
          · exact .same
          · rename_i hinsert
            obtain ⟨identity, hprepare, hinsert⟩ := insertRevision_eq_some hinsert
            split
            · exact .same
            · rename_i hattention
              exact .reset (prepareRevision_eq_some hprepare).1 hinsert hattention

theorem written_acknowledgeAttention (attentionId acknowledgedAt : JsString) :
    Written s (s.acknowledgeAttention attentionId acknowledgedAt) := by
  unfold acknowledgeAttention
  split
  · exact .same
  · exact .acknowledged attentionId acknowledgedAt

theorem written_acknowledgeMatrixAttention (input : AttentionAcknowledge) :
    Written s (s.acknowledgeMatrixAttention input) := by
  unfold acknowledgeMatrixAttention
  split
  · exact .same
  · split
    · split
      · exact .same
      · split
        · exact .same
        · split
          · exact .same
          · exact .acknowledged _ _
    · exact .same

/-- **The invariant holds of every reachable store.** -/
theorem Reachable.sound (h : Reachable digest collate s) : Sound s := by
  induction h with
  | empty => exact Sound.empty
  | mutate input context _ ih => exact ih.written (written_applyMutation input context)
  | mutateRow input context settleCandidate _ ih =>
      exact ih.written (written_applyRowMutation input context settleCandidate)
  | reset registryVersion routes reasonCode occurredAt actor correlationId _ ih =>
      exact ih.written (written_resetUnavailableRoutes registryVersion routes reasonCode occurredAt
        actor correlationId)
  | acknowledge attentionId acknowledgedAt _ ih =>
      exact ih.written (written_acknowledgeAttention attentionId acknowledgedAt)
  | acknowledgeMatrix input _ ih =>
      exact ih.written (written_acknowledgeMatrixAttention input)

end Store

end Hepha.Routing
