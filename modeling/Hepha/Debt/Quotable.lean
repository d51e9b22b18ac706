import Hepha.Debt.Link
import Hepha.Debt.Decisions
import Mathlib.Data.Set.Card

/-!
# Records that a decision can answer

`evaluateFutureTouch` asks for a decision about every open record that a plan
overlaps, and the decision has to quote the selectors of the record.  The
selectors are made from the names in the record, and they have to pass as texts
themselves: this module proves that the evaluation can be satisfied exactly if
the selectors of every open record do (`Quotable`).

## Strategy

`SelectorName` says which selectors there are, and `mem_selectorsFor` that
`selectorsFor` lists them.  The names in a valid record are texts, so a selector
fails only by its length or by what it looks like (`text_selector_iff`), and a
list of selectors by the number of them (`stringList_selectorsFor_iff`).

If all selectors can be quoted then one decision for each overlapped record
answers it (`answer`).  Conversely each record in the accepted matches has a
decision that quoted its selectors (`quotable_of_ok`).
-/

namespace Hepha.Debt

variable {plan : TouchPlan} {a : Aggregate} {touchPlanHash actorId : JsString}
  {collate : JsString → JsString → Bool} {aggregates : List Aggregate}

/-! ## Selectors -/

/-- A plan overlaps a record: a path, a symbol or a rule tag of one of its
locations, or one of its trigger. -/
def Overlaps (plan : TouchPlan) (a : Aggregate) : Prop :=
  (∃ l ∈ a.locations, (∃ candidate ∈ plan.paths, pathsOverlap l.relativePath candidate) ∨
    (∃ candidate ∈ plan.symbols, l.symbol = some candidate.2 ∧
      pathsOverlap l.relativePath candidate.1) ∨ ∃ tag ∈ l.ruleTags, tag ∈ plan.ruleTags) ∨
    (∃ value ∈ a.futureTouchTrigger.paths, ∃ candidate ∈ plan.paths,
      pathsOverlap value candidate) ∨
    (∃ value ∈ a.futureTouchTrigger.symbols, ∃ candidate ∈ plan.symbols, candidate.2 = value) ∨
    ∃ value ∈ a.futureTouchTrigger.ruleTags, value ∈ plan.ruleTags

/-- The selectors by which a plan overlaps a record. -/
inductive SelectorName (plan : TouchPlan) (a : Aggregate) : JsString → Prop
  | locationPath {l : Location} {candidate : JsString} : l ∈ a.locations →
      candidate ∈ plan.paths → pathsOverlap l.relativePath candidate →
      SelectorName plan a (js "location:" ++ l.locationId ++ js ":path")
  | locationSymbol {l : Location} {candidate : JsString × JsString} : l ∈ a.locations →
      candidate ∈ plan.symbols → l.symbol = some candidate.2 →
      pathsOverlap l.relativePath candidate.1 →
      SelectorName plan a (js "location:" ++ l.locationId ++ js ":symbol")
  | locationRule {l : Location} {tag : JsString} : l ∈ a.locations → tag ∈ l.ruleTags →
      tag ∈ plan.ruleTags →
      SelectorName plan a (js "location:" ++ l.locationId ++ js ":rule:" ++ tag)
  | triggerPath {value candidate : JsString} : value ∈ a.futureTouchTrigger.paths →
      candidate ∈ plan.paths → pathsOverlap value candidate →
      SelectorName plan a
        (js "trigger:" ++ a.futureTouchTrigger.triggerId ++ js ":path:" ++ value)
  | triggerSymbol {value : JsString} {candidate : JsString × JsString} :
      value ∈ a.futureTouchTrigger.symbols → candidate ∈ plan.symbols → candidate.2 = value →
      SelectorName plan a
        (js "trigger:" ++ a.futureTouchTrigger.triggerId ++ js ":symbol:" ++ value)
  | triggerRule {value : JsString} : value ∈ a.futureTouchTrigger.ruleTags →
      value ∈ plan.ruleTags →
      SelectorName plan a
        (js "trigger:" ++ a.futureTouchTrigger.triggerId ++ js ":rule:" ++ value)

/-- The selectors of a record can be quoted: there are not too many, none is too
long, and none looks like a secret. -/
def Quotable (plan : TouchPlan) (a : Aggregate) : Prop :=
  {name | SelectorName plan a name}.ncard ≤ 128 ∧
    ∀ name, SelectorName plan a name → name.length ≤ 4096 ∧
      ¬ ∃ pattern ∈ Review.secretPatterns, Pattern.test pattern name = true

theorem overlaps_iff : Overlaps plan a ↔ ∃ name, SelectorName plan a name := by
  constructor
  · rintro (⟨l, hl, ⟨_, hc, ho⟩ | ⟨_, hc, hs, ho⟩ | ⟨_, ht, hp⟩⟩ | ⟨_, hv, _, hc, ho⟩ |
      ⟨_, hv, _, hc, hs⟩ | ⟨_, hv, hp⟩)
    · exact ⟨_, .locationPath hl hc ho⟩
    · exact ⟨_, .locationSymbol hl hc hs ho⟩
    · exact ⟨_, .locationRule hl ht hp⟩
    · exact ⟨_, .triggerPath hv hc ho⟩
    · exact ⟨_, .triggerSymbol hv hc hs⟩
    · exact ⟨_, .triggerRule hv hp⟩
  · rintro ⟨name, hname⟩
    cases hname with
    | locationPath hl hc ho => exact .inl ⟨_, hl, .inl ⟨_, hc, ho⟩⟩
    | locationSymbol hl hc hs ho => exact .inl ⟨_, hl, .inr (.inl ⟨_, hc, hs, ho⟩)⟩
    | locationRule hl ht hp => exact .inl ⟨_, hl, .inr (.inr ⟨_, ht, hp⟩)⟩
    | triggerPath hv hc ho => exact .inr (.inl ⟨_, hv, _, hc, ho⟩)
    | triggerSymbol hv hc hs => exact .inr (.inr (.inl ⟨_, hv, _, hc, hs⟩))
    | triggerRule hv hp => exact .inr (.inr (.inr ⟨_, hv, hp⟩))

theorem mem_locationSelectors {l : Location} {name : JsString} :
    name ∈ locationSelectors plan l ↔
      ((∃ candidate ∈ plan.paths, pathsOverlap l.relativePath candidate) ∧
        name = js "location:" ++ l.locationId ++ js ":path") ∨
      ((∃ candidate ∈ plan.symbols, l.symbol = some candidate.2 ∧
        pathsOverlap l.relativePath candidate.1) ∧
        name = js "location:" ++ l.locationId ++ js ":symbol") ∨
      ∃ tag ∈ l.ruleTags, tag ∈ plan.ruleTags ∧
        js "location:" ++ l.locationId ++ js ":rule:" ++ tag = name := by
  have hsymbol : (l.symbol.any fun symbol => plan.symbols.any fun candidate =>
      candidate.2 == symbol && pathsOverlap l.relativePath candidate.1) = true ↔
      ∃ candidate ∈ plan.symbols, l.symbol = some candidate.2 ∧
        pathsOverlap l.relativePath candidate.1 = true := by
    cases l.symbol with
    | none => simp
    | some symbol =>
        simp only [Option.any_some, List.any_eq_true, Bool.and_eq_true, beq_iff_eq,
          Option.some.injEq, @eq_comm _ symbol]
  rw [locationSelectors, List.mem_append, List.mem_append, List.mem_ite_nil_right,
    List.mem_ite_nil_right, List.mem_singleton, List.mem_singleton, List.any_eq_true, hsymbol,
    List.mem_map, or_assoc]
  simp only [List.mem_filter, List.contains_iff_mem, and_assoc]

theorem mem_triggerSelectors {t : Trigger} {name : JsString} :
    name ∈ triggerSelectors plan t ↔
      (∃ value ∈ t.paths, (∃ candidate ∈ plan.paths, pathsOverlap value candidate) ∧
        js "trigger:" ++ t.triggerId ++ js ":path:" ++ value = name) ∨
      (∃ value ∈ t.symbols, (∃ candidate ∈ plan.symbols, candidate.2 = value) ∧
        js "trigger:" ++ t.triggerId ++ js ":symbol:" ++ value = name) ∨
      ∃ value ∈ t.ruleTags, value ∈ plan.ruleTags ∧
        js "trigger:" ++ t.triggerId ++ js ":rule:" ++ value = name := by
  rw [triggerSelectors, List.mem_append, List.mem_append, List.mem_map, List.mem_map,
    List.mem_map, or_assoc]
  simp only [List.mem_filter, List.contains_iff_mem, List.any_eq_true, beq_iff_eq, and_assoc]

/-- `selectorsFor` lists the selectors. -/
theorem mem_selectorsFor {name : JsString} :
    name ∈ selectorsFor a plan ↔ SelectorName plan a name := by
  rw [selectorsFor, List.mem_insertionSort, List.mem_dedup, List.mem_append, List.mem_flatMap]
  constructor
  · rintro (⟨l, hl, hname⟩ | hname)
    · rcases mem_locationSelectors.1 hname with ⟨⟨_, hc, ho⟩, rfl⟩ | ⟨⟨_, hc, hs, ho⟩, rfl⟩ |
        ⟨_, ht, hp, rfl⟩
      · exact .locationPath hl hc ho
      · exact .locationSymbol hl hc hs ho
      · exact .locationRule hl ht hp
    · rcases mem_triggerSelectors.1 hname with ⟨_, hv, ⟨_, hc, ho⟩, rfl⟩ |
        ⟨_, hv, ⟨_, hc, hs⟩, rfl⟩ | ⟨_, hv, hp, rfl⟩
      · exact .triggerPath hv hc ho
      · exact .triggerSymbol hv hc hs
      · exact .triggerRule hv hp
  · intro hname
    cases hname with
    | locationPath hl hc ho =>
        exact .inl ⟨_, hl, mem_locationSelectors.2 (.inl ⟨⟨_, hc, ho⟩, rfl⟩)⟩
    | locationSymbol hl hc hs ho =>
        exact .inl ⟨_, hl, mem_locationSelectors.2 (.inr (.inl ⟨⟨_, hc, hs, ho⟩, rfl⟩))⟩
    | locationRule hl ht hp =>
        exact .inl ⟨_, hl, mem_locationSelectors.2 (.inr (.inr ⟨_, ht, hp, rfl⟩))⟩
    | triggerPath hv hc ho =>
        exact .inr (mem_triggerSelectors.2 (.inl ⟨_, hv, ⟨_, hc, ho⟩, rfl⟩))
    | triggerSymbol hv hc hs =>
        exact .inr (mem_triggerSelectors.2 (.inr (.inl ⟨_, hv, ⟨_, hc, hs⟩, rfl⟩)))
    | triggerRule hv hp =>
        exact .inr (mem_triggerSelectors.2 (.inr (.inr ⟨_, hv, hp, rfl⟩)))

theorem selectorsFor_ne_nil : selectorsFor a plan ≠ [] ↔ Overlaps plan a := by
  rw [overlaps_iff, ne_eq, List.eq_nil_iff_forall_not_mem, not_forall_not]
  exact exists_congr fun _ => mem_selectorsFor

/-! ## Quoting -/

/-- The characters that a text may have. -/
def IsClean (value : JsString) : Prop :=
  ∀ u ∈ value, ((0x20 ≤ u || u == 0x09 || u == 0x0A || u == 0x0D) && u != 0x7F) = true

theorem isText_iff {maximum : ℕ} {value : JsString} :
    isText maximum value = true ↔ 0 < value.length ∧ value.length ≤ maximum ∧ IsClean value ∧
      ¬ ∃ pattern ∈ Review.secretPatterns, Pattern.test pattern value = true := by
  rw [isText, Bool.and_eq_true, Bool.and_eq_true, Bool.and_eq_true, decide_eq_true_eq,
    decide_eq_true_eq, List.all_eq_true, Bool.not_eq_true', List.any_eq_false, IsClean, not_exists,
    and_assoc, and_assoc]
  simp only [not_and, Bool.not_eq_true]

theorem IsClean.append {u v : JsString} (hu : IsClean u) (hv : IsClean v) : IsClean (u ++ v) := by
  intro c hc
  rcases List.mem_append.mp hc with hc | hc
  · exact hu c hc
  · exact hv c hc

theorem isClean_of_isText {maximum : ℕ} {value : JsString} (h : isText maximum value = true) :
    IsClean value :=
  (isText_iff.1 h).2.2.1

/-- The members of a list of strings. -/
theorem of_stringList {item : JsString → Bool} {values : List JsString}
    (h : stringList item values = true) : ∀ value ∈ values, item value = true := by
  rw [stringList, Bool.and_eq_true, Bool.and_eq_true, List.all_eq_true] at h
  exact h.1.2

/-- The selectors of a valid record have no other characters than texts. -/
theorem SelectorName.isClean (ha : a.valid = true) {name : JsString}
    (h : SelectorName plan a name) : IsClean name := by
  -- a valid record has valid parts, and every part of a selector is a text
  have hlocation : ∀ l ∈ a.locations, l.valid = true := by
    simp only [Aggregate.valid, Bool.and_eq_true, List.all_eq_true] at ha
    exact ha.1.1.1.1.1.1.2
  have htrigger : a.futureTouchTrigger.valid = true := by
    simp only [Aggregate.valid, Bool.and_eq_true] at ha
    exact ha.1.1.1.1.1.1.1.1.1.1.1.2
  have hl : ∀ l ∈ a.locations, IsClean (js "location:" ++ l.locationId) := by
    intro l hl
    have h := hlocation l hl
    simp only [Location.valid, Bool.and_eq_true] at h
    exact .append (List.all_eq_true.mp (by decide)) (isClean_of_isText h.1.1.1.1)
  have htags : ∀ l ∈ a.locations, ∀ tag ∈ l.ruleTags, IsClean tag := by
    intro l hl tag htag
    have h := hlocation l hl
    simp only [Location.valid, Bool.and_eq_true] at h
    exact isClean_of_isText (of_stringList h.2 tag htag)
  simp only [Trigger.valid, Bool.and_eq_true] at htrigger
  have ht : IsClean (js "trigger:" ++ a.futureTouchTrigger.triggerId) :=
    .append (List.all_eq_true.mp (by decide)) (isClean_of_isText htrigger.1.1.1.1.1)
  cases h with
  | locationPath hmem _ _ => exact .append (hl _ hmem) (List.all_eq_true.mp (by decide))
  | locationSymbol hmem _ _ _ => exact .append (hl _ hmem) (List.all_eq_true.mp (by decide))
  | locationRule hmem htag _ =>
      exact .append (.append (hl _ hmem) (List.all_eq_true.mp (by decide))) (htags _ hmem _ htag)
  | @triggerPath value _ hmem _ _ =>
      have hpath := of_stringList htrigger.1.1.1.2 value hmem
      simp only [path, Bool.and_eq_true] at hpath
      exact .append (.append ht (List.all_eq_true.mp (by decide)))
        (isClean_of_isText hpath.1.1.1.1)
  | triggerSymbol hmem _ _ =>
      exact .append (.append ht (List.all_eq_true.mp (by decide)))
        (isClean_of_isText (of_stringList htrigger.1.1.2 _ hmem))
  | triggerRule hmem _ =>
      exact .append (.append ht (List.all_eq_true.mp (by decide)))
        (isClean_of_isText (of_stringList htrigger.1.2 _ hmem))

theorem SelectorName.length_pos {name : JsString} (h : SelectorName plan a name) :
    0 < name.length := by
  have hlocation : 0 < (js "location:").length := by decide
  have htrigger : 0 < (js "trigger:").length := by decide
  cases h <;> simp only [List.length_append] <;> omega

/-- The selectors of a valid record pass as a list of texts exactly if they can
be quoted. -/
theorem stringList_selectorsFor_iff (ha : a.valid = true) :
    stringList text (selectorsFor a plan) = true ↔ Quotable plan a := by
  have hnodup : (selectorsFor a plan).Nodup := by
    rw [selectorsFor]
    exact (List.perm_insertionSort _ _).nodup_iff.mpr (List.nodup_dedup _)
  have hsorted : sortedUnique (selectorsFor a plan) = true := by
    rw [selectorsFor, sortedUnique_insertionSort_iff]
    exact List.nodup_dedup _
  -- the list has no repetition, so it is as long as the set is large
  have hcard : {name | SelectorName plan a name}.ncard = (selectorsFor a plan).length := by
    have hset : {name | SelectorName plan a name} = ↑(selectorsFor a plan).toFinset := by
      ext name
      rw [Set.mem_ofPred_eq, Finset.mem_coe, List.mem_toFinset, mem_selectorsFor]
    rw [hset, Set.ncard_coe_finset, List.toFinset_card_of_nodup hnodup]
  rw [stringList, Bool.and_eq_true, Bool.and_eq_true, and_iff_left hsorted, decide_eq_true_eq,
    List.all_eq_true, Quotable, hcard]
  refine and_congr_right fun _ => forall_congr' fun name => ?_
  rw [mem_selectorsFor]
  refine forall_congr' fun hname => ?_
  rw [text, isText_iff, and_iff_right hname.length_pos, and_iff_right (hname.isClean ha)]

/-! ## Answering -/

/-- A decision about a record that the plan overlaps. -/
def answer (plan : TouchPlan) (touchPlanHash actorId : JsString) (a : Aggregate) :
    FutureTouchDecision where
  decisionId := js "decision"
  projectId := plan.projectId
  featureId := plan.featureId
  touchPlanHash := touchPlanHash
  recordId := a.recordId
  recordVersion := a.eventVersion
  selectorIds := selectorsFor a plan
  actorId := actorId
  reason := js "reason"
  occurredAt := js "2026-01-01T00:00:00Z"
  detail := .nonInteraction (js "boundary") (js "explanation")

theorem answer_valid (hplan : plan.valid = true) (hhash : hash touchPlanHash = true)
    (hactor : identifier actorId = true) (ha : a.valid = true) (hoverlaps : Overlaps plan a)
    (hquotable : Quotable plan a) : (answer plan touchPlanHash actorId a).valid = true := by
  have hrecord : isRecordId a.recordId = true := by
    simp only [Aggregate.valid, Bool.and_eq_true] at ha
    exact ha.1.1.1.1.1.1.1.1.1.1.1.1.1.1.1.1.1
  simp only [TouchPlan.valid, Bool.and_eq_true] at hplan
  have hselectors := List.length_pos_iff.mpr (selectorsFor_ne_nil.2 hoverlaps)
  simp only [FutureTouchDecision.valid, answer, Bool.and_eq_true]
  exact ⟨⟨⟨⟨⟨⟨⟨⟨⟨⟨by decide, hplan.1.1.1.1.1.1.1⟩, hplan.1.1.1.1.1.1.2⟩, hhash⟩, hrecord⟩,
    (stringList_selectorsFor_iff ha).mpr hquotable⟩, decide_eq_true hselectors⟩,
    hactor⟩, by decide⟩, by decide⟩, by decide⟩

/-- The answer to a record is the only one about it. -/
theorem filter_answer {touched : List Aggregate} (hnodup : (touched.map Aggregate.recordId).Nodup)
    (ha : a ∈ touched) :
    ((touched.map (answer plan touchPlanHash actorId)).filter fun d =>
      d.projectId = plan.projectId ∧ d.featureId = plan.featureId ∧
        d.touchPlanHash = touchPlanHash ∧ d.recordId = a.recordId ∧
        d.recordVersion = a.eventVersion) = [answer plan touchPlanHash actorId a] := by
  -- the records differ in their identifiers, so one answer is about this one
  have hone : touched.filter (fun b => b.recordId = a.recordId ∧
      b.eventVersion = a.eventVersion) = [a] := by
    have hsame : touched.filter (fun b => b.recordId = a.recordId ∧
        b.eventVersion = a.eventVersion) = touched.filter fun b => b = a := by
      refine List.filter_congr fun b hb => ?_
      rw [decide_eq_decide]
      constructor
      · rintro ⟨hid, -⟩
        exact List.inj_on_of_nodup_map hnodup hb ha hid
      · rintro rfl
        exact ⟨rfl, rfl⟩
    rw [hsame]
    rw [List.filter_eq, List.count_eq_one_of_mem (List.Nodup.of_map _ hnodup) ha,
      List.replicate_one]
  rw [List.filter_map]
  simp only [Function.comp_def, answer, true_and]
  rw [hone]
  rfl

/-- The records that `evaluateFutureTouch` asks about. -/
def touchedBy (collate : JsString → JsString → Bool) (plan : TouchPlan)
    (aggregates : List Aggregate) : List Aggregate :=
  ((aggregates.filter fun a => a.state.isOpen).insertionSort fun a b =>
    collate a.recordId b.recordId).filter fun a => selectorsFor a plan != []

theorem mem_touchedBy : a ∈ touchedBy collate plan aggregates ↔
    a ∈ aggregates ∧ a.state.isOpen = true ∧ Overlaps plan a := by
  rw [touchedBy, List.mem_filter, List.mem_insertionSort, List.mem_filter, bne_iff_ne,
    selectorsFor_ne_nil, and_assoc]

theorem nodup_touchedBy (h : (aggregates.map Aggregate.recordId).Nodup) :
    ((touchedBy collate plan aggregates).map Aggregate.recordId).Nodup := by
  have hopen := h.sublist ((List.filter_sublist (p := fun a => a.state.isOpen)).map _)
  exact (((List.perm_insertionSort _ _).map _).nodup_iff.mpr hopen).sublist
    (List.filter_sublist.map _)

/-- The matches are for the records that were asked about. -/
theorem matches_of_ok {decisions : List FutureTouchDecision} {found : List FutureTouchMatch}
    (h : evaluateFutureTouch collate plan touchPlanHash aggregates decisions actorId =
      .ok found) :
    found.map FutureTouchMatch.recordId =
      (touchedBy collate plan aggregates).map Aggregate.recordId := by
  refine map_of_mapM (evaluateFutureTouch_ok h).2.2 ?_
  intro a found hmatch
  obtain ⟨d, -, -, -, rfl⟩ := matchDecision_eq_some.1 hmatch
  rfl

/-- An accepted decision has quoted the selectors of its record. -/
theorem quotable_of_ok {decisions : List FutureTouchDecision} {found : List FutureTouchMatch}
    (h : evaluateFutureTouch collate plan touchPlanHash aggregates decisions actorId = .ok found)
    (ha : a.valid = true) (hmem : a ∈ touchedBy collate plan aggregates) : Quotable plan a := by
  obtain ⟨hdecisions, -, hfound⟩ := evaluateFutureTouch_ok h
  obtain ⟨entry, -, hmatch⟩ := exists_value_of_mapM hfound hmem
  obtain ⟨d, hd, -, hselectors, -⟩ := matchDecision_eq_some.1 hmatch
  have hmem : d ∈ decisions :=
    List.mem_of_mem_filter (hd ▸ List.mem_singleton_self d)
  have hvalid := List.all_eq_true.mp hdecisions d hmem
  simp only [FutureTouchDecision.valid, Bool.and_eq_true] at hvalid
  rw [← stringList_selectorsFor_iff ha, ← hselectors]
  exact hvalid.1.1.1.1.1.2

theorem quotable_of_not_overlaps (h : ¬ Overlaps plan a) : Quotable plan a := by
  rw [overlaps_iff, not_exists] at h
  refine ⟨?_, fun name hname => absurd hname (h name)⟩
  rw [Set.eq_empty_of_forall_notMem (s := {name | SelectorName plan a name}) h, Set.ncard_empty]
  exact Nat.zero_le _

/-- The matches are for exactly the open records that the plan overlaps, one for
each. -/
def MatchesOverlapped (plan : TouchPlan) (aggregates : List Aggregate)
    (found : List FutureTouchMatch) : Prop :=
  (found.map FutureTouchMatch.recordId).Nodup ∧
    ∀ recordId, recordId ∈ found.map FutureTouchMatch.recordId ↔
      ∃ a ∈ aggregates, a.state.isOpen = true ∧ Overlaps plan a ∧ a.recordId = recordId

theorem matchesOverlapped_of_ok (hnodup : (aggregates.map Aggregate.recordId).Nodup)
    {decisions : List FutureTouchDecision} {found : List FutureTouchMatch}
    (h : evaluateFutureTouch collate plan touchPlanHash aggregates decisions actorId =
      .ok found) : MatchesOverlapped plan aggregates found := by
  rw [MatchesOverlapped, matches_of_ok h]
  refine ⟨nodup_touchedBy hnodup, fun recordId => ?_⟩
  simp only [List.mem_map, mem_touchedBy, and_assoc]

/-- The decisions that answer all records are accepted. -/
theorem evaluateFutureTouch_answers (hplan : plan.valid = true) (hhash : hash touchPlanHash = true)
    (hactor : identifier actorId = true) (hvalid : ∀ a ∈ aggregates, a.valid = true)
    (hproject : ∀ a ∈ aggregates, a.projectId = plan.projectId)
    (hnodup : (aggregates.map Aggregate.recordId).Nodup)
    (hquotable : ∀ a ∈ aggregates, a.state.isOpen = true → Quotable plan a) :
    (∀ d ∈ (touchedBy collate plan aggregates).map (answer plan touchPlanHash actorId),
      d.valid = true) ∧
      ∃ found, evaluateFutureTouch collate plan touchPlanHash aggregates
        ((touchedBy collate plan aggregates).map (answer plan touchPlanHash actorId)) actorId =
          .ok found := by
  have hanswers : ∀ d ∈ (touchedBy collate plan aggregates).map (answer plan touchPlanHash actorId),
      d.valid = true := by
    intro d hd
    obtain ⟨a, ha, rfl⟩ := List.mem_map.mp hd
    obtain ⟨hmem, hopen, hoverlaps⟩ := mem_touchedBy.1 ha
    exact answer_valid hplan hhash hactor (hvalid a hmem) hoverlaps (hquotable a hmem hopen)
  refine ⟨hanswers, ?_⟩
  have hchecks : (plan.valid && hash touchPlanHash && aggregates.all Aggregate.valid &&
      ((touchedBy collate plan aggregates).map (answer plan touchPlanHash actorId)).all
        FutureTouchDecision.valid && identifier actorId) = true := by
    rw [hplan, hhash, hactor, List.all_eq_true.mpr hvalid, List.all_eq_true.mpr hanswers]
    rfl
  -- no open record is of another project, and none is there twice
  have hforeign : ¬ ((((aggregates.filter fun a => a.state.isOpen).any fun a =>
      a.projectId != plan.projectId) || !hasUniqueValues
        ((aggregates.filter fun a => a.state.isOpen).map Aggregate.recordId)) = true) := by
    rw [Bool.or_eq_true, not_or, List.any_eq_true, Bool.not_eq_true', Bool.not_eq_false,
      hasUniqueValues_iff]
    constructor
    · rintro ⟨a, ha, hne⟩
      exact bne_iff_ne.mp hne (hproject a (List.mem_of_mem_filter ha))
    · exact hnodup.sublist (List.filter_sublist.map _)
  -- each record that is asked about finds its answer
  have hsome : ∀ a ∈ touchedBy collate plan aggregates,
      (matchDecision plan touchPlanHash ((touchedBy collate plan aggregates).map
        (answer plan touchPlanHash actorId)) actorId a).isSome = true := by
    intro a ha
    have hmatch : matchDecision plan touchPlanHash ((touchedBy collate plan aggregates).map
        (answer plan touchPlanHash actorId)) actorId a = some _ :=
      matchDecision_eq_some.2 ⟨answer plan touchPlanHash actorId a,
        filter_answer (nodup_touchedBy hnodup) ha, rfl, rfl, rfl⟩
    rw [hmatch]
    rfl
  obtain ⟨found, hfound⟩ := mapM_isSome hsome
  refine ⟨found, ?_⟩
  unfold evaluateFutureTouch
  rw [if_pos hchecks]
  dsimp only
  rw [if_neg hforeign]
  rw [touchedBy] at hfound ⊢
  rw [hfound]

/-- **The evaluation can be satisfied exactly if the selectors of every open
record can be quoted.** -/
theorem evaluateFutureTouch_satisfiable_iff (collate : JsString → JsString → Bool)
    {plan : TouchPlan} {touchPlanHash actorId : JsString} {aggregates : List Aggregate}
    (hplan : plan.valid = true) (hhash : hash touchPlanHash = true)
    (hactor : identifier actorId = true) (hvalid : ∀ a ∈ aggregates, a.valid = true)
    (hproject : ∀ a ∈ aggregates, a.projectId = plan.projectId)
    (hnodup : (aggregates.map Aggregate.recordId).Nodup) :
    ((∃ decisions found, (∀ d ∈ decisions, d.valid = true) ∧
        evaluateFutureTouch collate plan touchPlanHash aggregates decisions actorId = .ok found ∧
        MatchesOverlapped plan aggregates found) ∧
      ∀ decisions found,
        evaluateFutureTouch collate plan touchPlanHash aggregates decisions actorId = .ok found →
        ∀ a ∈ aggregates, a.state.isOpen = true → Overlaps plan a →
          ∃ entry ∈ found, entry.recordId = a.recordId) ↔
      ∀ a ∈ aggregates, a.state.isOpen = true → Quotable plan a := by
  constructor
  · rintro ⟨⟨decisions, found, -, hok, -⟩, -⟩ a ha hopen
    by_cases hoverlaps : Overlaps plan a
    · exact quotable_of_ok hok (hvalid a ha) (mem_touchedBy.2 ⟨ha, hopen, hoverlaps⟩)
    · exact quotable_of_not_overlaps hoverlaps
  · intro hquotable
    obtain ⟨hanswers, found, hfound⟩ :=
      evaluateFutureTouch_answers hplan hhash hactor hvalid hproject hnodup hquotable
    refine ⟨⟨_, found, hanswers, hfound, matchesOverlapped_of_ok hnodup hfound⟩, ?_⟩
    intro decisions found hok a ha hopen hoverlaps
    have hmem := ((matchesOverlapped_of_ok hnodup hok).2 a.recordId).mpr
      ⟨a, ha, hopen, hoverlaps, rfl⟩
    exact List.mem_map.mp hmem

/-- A record with a location that is called as given. -/
def namedRecord (locationId : JsString) : Aggregate :=
  { sampleRecord (js "core") with locations := [⟨locationId, js "a.ts", none, none, []⟩] }

/-- The records of the two examples. -/
theorem namedRecord_valid :
    (namedRecord (js "password")).valid = true ∧ (namedRecord (js "l")).valid = true := by
  decide +kernel

/-- A plan that touches the records above. -/
def filePlan : TouchPlan :=
  ⟨js "p", js "F", [js "a.ts"], [], []⟩

/-- The selector of a location that is called `password` looks like a secret, and
no decision can quote it. -/
theorem secret_selector_unanswerable :
    filePlan.valid = true ∧ hash (List.replicate 64 0x61) = true ∧
      identifier (js "s") = true ∧ (namedRecord (js "password")).valid = true ∧
      (namedRecord (js "password")).projectId = filePlan.projectId ∧
      ¬ ∃ decisions found, (∀ d ∈ decisions, d.valid = true) ∧
        evaluateFutureTouch (fun a b => a ≤ b) filePlan (List.replicate 64 0x61)
          [namedRecord (js "password")] decisions (js "s") = .ok found ∧
        MatchesOverlapped filePlan [namedRecord (js "password")] found := by
  refine ⟨by decide, by decide, by decide, namedRecord_valid.1, by decide, ?_⟩
  rintro ⟨decisions, found, -, hok, -⟩
  have hselector : SelectorName filePlan (namedRecord (js "password"))
      (js "location:" ++ js "password" ++ js ":path") :=
    .locationPath (l := ⟨js "password", js "a.ts", none, none, []⟩) List.mem_cons_self
      List.mem_cons_self (by decide)
  have hquotable := quotable_of_ok hok namedRecord_valid.1 (mem_touchedBy.2
    ⟨List.mem_cons_self, by decide, overlaps_iff.2 ⟨_, hselector⟩⟩)
  refine (hquotable.2 _ hselector).2 ?_
  rw [← List.any_eq_true]
  decide

/-- The record of the example, under an ordinary name. -/
theorem evaluateFutureTouch_satisfiable_one :
    (((∃ decisions found, (∀ d ∈ decisions, d.valid = true) ∧
        evaluateFutureTouch (fun a b => a ≤ b) filePlan (List.replicate 64 0x61)
          [namedRecord (js "l")] decisions (js "s") = .ok found ∧
        MatchesOverlapped filePlan [namedRecord (js "l")] found) ∧
      ∀ decisions found,
        evaluateFutureTouch (fun a b => a ≤ b) filePlan (List.replicate 64 0x61)
          [namedRecord (js "l")] decisions (js "s") = .ok found →
        ∀ a ∈ [namedRecord (js "l")], a.state.isOpen = true → Overlaps filePlan a →
          ∃ entry ∈ found, entry.recordId = a.recordId) ↔
      ∀ a ∈ [namedRecord (js "l")], a.state.isOpen = true → Quotable filePlan a) ∧
      Overlaps filePlan (namedRecord (js "l")) :=
  ⟨evaluateFutureTouch_satisfiable_iff (fun a b => a ≤ b) (by decide) (by decide) (by decide)
      (List.forall_mem_singleton.mpr namedRecord_valid.2)
      (List.forall_mem_singleton.mpr (by decide)) (List.nodup_singleton _),
    .inl ⟨⟨js "l", js "a.ts", none, none, []⟩, List.mem_cons_self,
      .inl ⟨js "a.ts", List.mem_cons_self, by decide⟩⟩⟩

end Hepha.Debt
