import Hepha.Debt.Chain

/-!
# Future touches

A touch plan says what a feature is going to touch: paths, symbols and rule
tags.  The store looks for the open records that a plan may touch (`matches`),
and the policy says by which selectors it does (`selectorsFor`).  The two are
written independently of each other; the store is the coarser one
(`touches_of_selectorsFor`).

A steward decides about each touched record.  `evaluateFutureTouch` asks for
exactly one decision for the plan and the version of the record, and
`recordFutureTouchDecision` records one that answers a single record.
-/

namespace Hepha.Debt

open JsString (toWellFormed)

/-! ## Plans -/

/-- `${relativePath}\0${symbol}`. -/
def symbolPair (entry : JsString × JsString) : JsString :=
  entry.1 ++ 0 :: entry.2

/-- `validPlan`, which the policy repeats as `validTouchPlan`. -/
def TouchPlan.valid (plan : TouchPlan) : Bool :=
  identifier plan.projectId && identifier plan.featureId && stringList path plan.paths &&
    stringList text plan.ruleTags && plan.symbols.length ≤ 128 &&
    (plan.symbols.all fun entry => path entry.1 && identifier entry.2) &&
    0 < plan.paths.length + plan.symbols.length + plan.ruleTags.length &&
    sortedUnique (plan.symbols.map symbolPair)

/-- The canonical text of a list of strings. -/
def canonicalList (values : List JsString) : JsString :=
  js "[" ++ [0x2C].intercalate (values.map quote) ++ js "]"

/-- `canonicalJson` of a plan: the keys of every object are sorted. -/
def TouchPlan.canonicalJson (plan : TouchPlan) : JsString :=
  js "\x7b\"featureId\":" ++ quote plan.featureId ++ js ",\"paths\":" ++ canonicalList plan.paths ++
    js ",\"projectId\":" ++ quote plan.projectId ++ js ",\"ruleTags\":" ++
    canonicalList plan.ruleTags ++
    js ",\"schemaVersion\":\"hepha-architecture-debt-touch-plan/v1\",\"symbols\":[" ++
    [0x2C].intercalate (plan.symbols.map fun entry =>
      js "\x7b\"relativePath\":" ++ quote entry.1 ++ js ",\"symbol\":" ++ quote entry.2 ++
        js "\x7d") ++ js "]\x7d"

/-- `touchPlanHash` of a valid plan. -/
def TouchPlan.digest (sha256 : JsString → HexDigest) (plan : TouchPlan) : JsString :=
  (sha256 plan.canonicalJson).1

/-! ## Matching -/

/-- `overlaps` and `pathsOverlap`: one path is the other, or is under it. -/
def pathsOverlap (left right : JsString) : Bool :=
  left == right || (right ++ [0x2F]).isPrefixOf left || (left ++ [0x2F]).isPrefixOf right

/-- `matches`, of the store. -/
def touches (record : Aggregate) (paths symbols ruleTags : List JsString) : Bool :=
  (record.locations.any fun entry =>
    (paths.any fun candidate => pathsOverlap entry.relativePath candidate) ||
      entry.symbol.any symbols.contains || entry.ruleTags.any ruleTags.contains) ||
    (record.futureTouchTrigger.paths.any fun entry =>
      paths.any fun candidate => pathsOverlap entry candidate) ||
    record.futureTouchTrigger.symbols.any symbols.contains ||
    record.futureTouchTrigger.ruleTags.any ruleTags.contains

/-- The selectors of one location. -/
def locationSelectors (plan : TouchPlan) (l : Location) : List JsString :=
  (if plan.paths.any fun candidate => pathsOverlap l.relativePath candidate then
      [js "location:" ++ l.locationId ++ js ":path"] else []) ++
    (if l.symbol.any fun symbol => plan.symbols.any fun candidate =>
        candidate.2 == symbol && pathsOverlap l.relativePath candidate.1 then
      [js "location:" ++ l.locationId ++ js ":symbol"] else []) ++
    (l.ruleTags.filter plan.ruleTags.contains).map fun tag =>
      js "location:" ++ l.locationId ++ js ":rule:" ++ tag

/-- The selectors of the trigger. -/
def triggerSelectors (plan : TouchPlan) (t : Trigger) : List JsString :=
  ((t.paths.filter fun value => plan.paths.any fun candidate => pathsOverlap value candidate).map
    fun value => js "trigger:" ++ t.triggerId ++ js ":path:" ++ value) ++
    ((t.symbols.filter fun value => plan.symbols.any fun candidate => candidate.2 == value).map
      fun value => js "trigger:" ++ t.triggerId ++ js ":symbol:" ++ value) ++
    ((t.ruleTags.filter plan.ruleTags.contains).map
      fun value => js "trigger:" ++ t.triggerId ++ js ":rule:" ++ value)

/-- `selectorsFor`: sorted, each one once. -/
def selectorsFor (record : Aggregate) (plan : TouchPlan) : List JsString :=
  (record.locations.flatMap (locationSelectors plan) ++
    triggerSelectors plan record.futureTouchTrigger).dedup.insertionSort (· ≤ ·)

theorem selectorsFor_eq_nil {record : Aggregate} {plan : TouchPlan} :
    selectorsFor record plan = [] ↔ (∀ l ∈ record.locations, locationSelectors plan l = []) ∧
      triggerSelectors plan record.futureTouchTrigger = [] := by
  rw [selectorsFor, ← List.length_eq_zero_iff, List.length_insertionSort,
    List.length_eq_zero_iff, List.dedup_eq_nil, List.append_eq_nil_iff, List.flatMap_eq_nil_iff]

/-- A location with a selector is touched. -/
theorem touches_location {plan : TouchPlan} {l : Location} (h : locationSelectors plan l ≠ []) :
    ((plan.paths.any fun candidate => pathsOverlap l.relativePath candidate) ||
      l.symbol.any (plan.symbols.map Prod.snd).contains ||
      l.ruleTags.any plan.ruleTags.contains) = true := by
  by_contra hnone
  simp only [Bool.or_eq_true, not_or] at hnone
  obtain ⟨⟨hpath, hsymbol⟩, htag⟩ := hnone
  have hpair : ¬ (l.symbol.any fun symbol => plan.symbols.any fun candidate =>
      candidate.2 == symbol && pathsOverlap l.relativePath candidate.1) = true := by
    intro hany
    cases hl : l.symbol with
    | none =>
        rw [hl] at hany
        exact absurd hany Bool.false_ne_true
    | some symbol =>
        rw [hl, Option.any_some, List.any_eq_true] at hany
        obtain ⟨candidate, hcandidate, hmatch⟩ := hany
        rw [Bool.and_eq_true, beq_iff_eq] at hmatch
        rw [hl, Option.any_some, List.contains_iff_mem, ← hmatch.1] at hsymbol
        exact hsymbol (List.mem_map_of_mem hcandidate)
  apply h
  rw [locationSelectors, if_neg hpath, if_neg hpair, List.nil_append, List.nil_append,
    List.map_eq_nil_iff, List.filter_eq_nil_iff]
  intro tag hmem hcontains
  exact htag (List.any_eq_true.mpr ⟨tag, hmem, hcontains⟩)

/-- **The store never misses what the policy matches.** -/
theorem touches_of_selectorsFor {record : Aggregate} {plan : TouchPlan}
    (h : selectorsFor record plan ≠ []) :
    touches record plan.paths (plan.symbols.map Prod.snd) plan.ruleTags = true := by
  by_contra hnone
  simp only [touches, Bool.or_eq_true, not_or, List.any_eq_true, not_exists, not_and] at hnone
  obtain ⟨⟨⟨hlocations, hpaths⟩, hsymbols⟩, htags⟩ := hnone
  refine h (selectorsFor_eq_nil.2 ⟨?_, ?_⟩)
  · intro l hl
    by_contra hselectors
    have htouched := touches_location hselectors
    simp only [Bool.or_eq_true, List.any_eq_true] at htouched
    obtain ⟨⟨hpath, hsymbol⟩, htag⟩ := hlocations l hl
    rcases htouched with (⟨candidate, hcandidate, hoverlap⟩ | htouched) | ⟨tag, hmem, hcontains⟩
    · exact hpath candidate hcandidate hoverlap
    · exact hsymbol htouched
    · exact htag tag hmem hcontains
  · rw [triggerSelectors, List.append_eq_nil_iff, List.append_eq_nil_iff, List.map_eq_nil_iff,
      List.map_eq_nil_iff, List.map_eq_nil_iff, List.filter_eq_nil_iff, List.filter_eq_nil_iff,
      List.filter_eq_nil_iff]
    refine ⟨⟨?_, ?_⟩, htags⟩
    · intro value hvalue hany
      obtain ⟨candidate, hcandidate, hoverlap⟩ := List.any_eq_true.mp hany
      exact hpaths value hvalue candidate hcandidate hoverlap
    · intro value hvalue hany
      obtain ⟨candidate, hcandidate, hmatch⟩ := List.any_eq_true.mp hany
      refine hsymbols value hvalue ?_
      rw [List.contains_iff_mem, ← beq_iff_eq.mp hmatch]
      exact List.mem_map_of_mem hcandidate

/-! ## Reading the store -/

namespace Store

/-- The rows of a project, by record. -/
def projectRows (s : Store) (projectId : JsString) : List DebtRow :=
  (s.debts.filter fun row => row.projectId = toWellFormed projectId).insertionSort
    fun a b => a.recordId.codePoints ≤ b.recordId.codePoints

/-- `queryOpenArchitectureDebt`: `none` for a refusal. -/
def queryOpenArchitectureDebt (sha256 : JsString → HexDigest) (s : Store) (projectId : JsString)
    (paths symbols ruleTags : List JsString) : Option (List Aggregate) :=
  if identifier projectId && stringList path paths && stringList text symbols &&
      stringList text ruleTags then
    ((s.projectRows projectId).mapM fun row =>
      if isRecordId row.recordId then s.getAggregate sha256 projectId row.recordId
      else none).map fun aggregates =>
        aggregates.filter fun a => a.state.isOpen && touches a paths symbols ruleTags
  else none

/-- `getFutureTouchDecisions`: `none` for a refusal. -/
def getFutureTouchDecisions (s : Store) (projectId featureId touchPlanHash : JsString) :
    Option (List FutureTouchDecision) :=
  if identifier projectId && identifier featureId && hash touchPlanHash then
    match s.touchPlans.find? fun row => row.touchPlanHash = touchPlanHash with
    | none => some []
    | some plan =>
        if plan.projectId = projectId ∧ plan.featureId = featureId then
          let rows := s.decisions.insertionSort fun a b =>
            a.decisionId.codePoints ≤ b.decisionId.codePoints
          if rows.all fun row => identifier row.decisionId && row.decision.valid then
            some ((rows.map DecisionRow.decision).filter fun d => d.projectId = projectId ∧
              d.featureId = featureId ∧ d.touchPlanHash = touchPlanHash)
          else none
        else none
  else none

end Store

/-! ## The records that a plan touches -/

/-- What a valid plan has been checked for, as far as the store asks. -/
theorem TouchPlan.valid_query {plan : TouchPlan} (h : plan.valid = true) :
    identifier plan.projectId = true ∧ stringList path (plan.paths.insertionSort (· ≤ ·)) = true ∧
      stringList text (plan.ruleTags.insertionSort (· ≤ ·)) = true ∧
      (stringList text ((plan.symbols.map Prod.snd).insertionSort (· ≤ ·)) = true ↔
        (plan.symbols.map Prod.snd).Nodup) := by
  simp only [TouchPlan.valid, Bool.and_eq_true, decide_eq_true_eq, List.all_eq_true] at h
  obtain ⟨⟨⟨⟨⟨⟨⟨hproject, -⟩, hpaths⟩, htags⟩, hlength⟩, hsymbols⟩, -⟩, -⟩ := h
  have hsorted : ∀ {item : JsString → Bool} {values : List JsString},
      stringList item values = true → stringList item (values.insertionSort (· ≤ ·)) = true := by
    intro item values hvalues
    rw [insertionSort_of_sortedUnique]
    · exact hvalues
    · rw [stringList, Bool.and_eq_true] at hvalues
      exact hvalues.2
  refine ⟨hproject, hsorted hpaths, hsorted htags, ?_⟩
  rw [stringList, Bool.and_eq_true, Bool.and_eq_true, sortedUnique_insertionSort_iff]
  refine and_iff_right ⟨?_, ?_⟩
  · rw [List.length_insertionSort, List.length_map]
    exact decide_eq_true hlength
  · rw [List.all_eq_true]
    intro symbol hsymbol
    obtain ⟨entry, hentry, rfl⟩ := List.mem_map.mp ((List.mem_insertionSort _).mp hsymbol)
    exact isText_mono (by omega) (hsymbols entry hentry).2

/-- Sorting what is looked for changes nothing. -/
theorem touches_insertionSort {a : Aggregate} {paths symbols ruleTags : List JsString} :
    touches a (paths.insertionSort (· ≤ ·)) (symbols.insertionSort (· ≤ ·))
      (ruleTags.insertionSort (· ≤ ·)) = touches a paths symbols ruleTags := by
  have hany : ∀ (values : List JsString) (p : JsString → Bool),
      (values.insertionSort (· ≤ ·)).any p = values.any p := fun values p =>
    (List.perm_insertionSort _ values).any_eq
  have hcontains : ∀ values : List JsString,
      (values.insertionSort (· ≤ ·)).contains = values.contains := by
    intro values
    funext value
    rw [Bool.eq_iff_iff, List.contains_iff_mem, List.contains_iff_mem, List.mem_insertionSort]
  simp only [touches, hany, hcontains]

section Query

variable {sha256 : JsString → HexDigest} {s : Store} {plan : TouchPlan}

namespace Store

/-- The open records of a plan's project that the plan may touch. -/
def touchedRecords (sha256 : JsString → HexDigest) (s : Store) (plan : TouchPlan) :
    List Aggregate :=
  ((s.projectRows plan.projectId).filterMap fun row =>
    s.getAggregate sha256 plan.projectId row.recordId).filter fun a =>
      a.state.isOpen && touches a plan.paths (plan.symbols.map Prod.snd) plan.ruleTags

theorem mem_projectRows {projectId : JsString} {row : DebtRow} :
    row ∈ s.projectRows projectId ↔ row ∈ s.debts ∧ row.projectId = toWellFormed projectId := by
  simp [projectRows]

theorem mem_touchedRecords {a : Aggregate} :
    a ∈ s.touchedRecords sha256 plan ↔
      s.getAggregate sha256 plan.projectId a.recordId = some a ∧ a.state.isOpen = true ∧
        touches a plan.paths (plan.symbols.map Prod.snd) plan.ruleTags = true := by
  rw [touchedRecords, List.mem_filter, Bool.and_eq_true]
  refine and_congr_left fun _ => ?_
  rw [List.mem_filterMap]
  constructor
  · rintro ⟨row, -, hread⟩
    rw [(getAggregate_spec hread).1]
    exact hread
  · intro hread
    obtain ⟨root, _, _, hreading, _⟩ := getAggregate_eq_some.1 hread
    obtain ⟨hroot, hproject, hrecord⟩ := debtRow_some hreading.found
    exact ⟨root, mem_projectRows.2 ⟨hroot, hproject⟩, by rw [hrecord]; exact hread⟩

/-- The records of a project are read one by one. -/
theorem getAggregate_projectRows (h : Legible sha256 s) {projectId : JsString}
    (hproject : identifier projectId = true) {row : DebtRow}
    (hrow : row ∈ s.projectRows projectId) :
    ∃ a, s.getAggregate sha256 projectId row.recordId = some a := by
  obtain ⟨hrow, hwell⟩ := mem_projectRows.1 hrow
  obtain ⟨a, ha⟩ := h.read row hrow
  obtain ⟨root, locations, observations, hreading, hreconstruct⟩ := getAggregate_eq_some.1 ha
  refine ⟨a, getAggregate_eq_some.2 ⟨root, locations, observations,
    ⟨⟨hproject, hreading.input.2⟩, ?_, hreading.valid, hreading.readLocations,
      hreading.readObservations, hreading.members, hreading.first, hreading.identified⟩,
    hreconstruct⟩⟩
  rw [debtRow, ← hreading.found, debtRow, hwell, JsString.toWellFormed_toWellFormed]

theorem nodup_touchedRecords (h : Legible sha256 s) :
    ((s.touchedRecords sha256 plan).map Aggregate.recordId).Nodup := by
  have hrows : ((s.projectRows plan.projectId).map DebtRow.recordId).Nodup := by
    have hperm : (s.projectRows plan.projectId).Perm
        (s.debts.filter fun row => row.projectId = toWellFormed plan.projectId) :=
      List.perm_insertionSort _ _
    exact (hperm.map _).nodup_iff.mpr (h.nodup.sublist (List.filter_sublist.map _))
  rw [touchedRecords]
  refine List.Nodup.sublist (List.filter_sublist.map _) ?_
  rw [List.map_filterMap]
  refine List.Nodup.sublist ?_ hrows
  induction s.projectRows plan.projectId with
  | nil => exact List.Sublist.refl _
  | cons row rest ih =>
      rw [List.filterMap_cons, List.map_cons]
      cases hread : s.getAggregate sha256 plan.projectId row.recordId with
      | none => exact ih.cons _
      | some a =>
          dsimp only [Option.map_some]
          rw [(getAggregate_spec hread).1]
          exact ih.cons_cons _

/-- A valid plan is refused by the store exactly if it has two entries of one
symbol. -/
theorem queryOpenArchitectureDebt_plan (h : Legible sha256 s) (hplan : plan.valid = true) :
    s.queryOpenArchitectureDebt sha256 plan.projectId (plan.paths.insertionSort (· ≤ ·))
        ((plan.symbols.map Prod.snd).insertionSort (· ≤ ·))
        (plan.ruleTags.insertionSort (· ≤ ·)) =
      if (plan.symbols.map Prod.snd).Nodup then some (s.touchedRecords sha256 plan) else none := by
  obtain ⟨hproject, hpaths, htags, hsymbols⟩ := TouchPlan.valid_query hplan
  simp only [queryOpenArchitectureDebt, hproject, hpaths, htags, Bool.and_true, Bool.true_and,
    hsymbols, touches_insertionSort]
  by_cases hnodup : (plan.symbols.map Prod.snd).Nodup
  · rw [if_pos hnodup, if_pos hnodup]
    have hread : ∀ row ∈ s.projectRows plan.projectId,
        (if isRecordId row.recordId = true then s.getAggregate sha256 plan.projectId row.recordId
          else none) = s.getAggregate sha256 plan.projectId row.recordId := by
      intro row hrow
      obtain ⟨a, ha⟩ := getAggregate_projectRows h hproject hrow
      obtain ⟨_, _, _, hreading, _⟩ := getAggregate_eq_some.1 ha
      rw [if_pos hreading.input.2]
    have hsome : ∀ row ∈ s.projectRows plan.projectId,
        (if isRecordId row.recordId = true then s.getAggregate sha256 plan.projectId row.recordId
          else none).isSome = true := by
      intro row hrow
      obtain ⟨a, ha⟩ := getAggregate_projectRows h hproject hrow
      rw [hread row hrow, ha]
      rfl
    obtain ⟨values, hvalues⟩ := mapM_isSome hsome
    have hfilterMap : values = (s.projectRows plan.projectId).filterMap fun row =>
        s.getAggregate sha256 plan.projectId row.recordId := by
      rw [← List.filterMap_congr hread]
      exact filterMap_of_mapM hvalues
    rw [hvalues, Option.map_some, touchedRecords, hfilterMap]
  · rw [if_neg hnodup, if_neg hnodup]

end Store

end Query

/-! ## The policy -/

/-- `FutureTouchMatch`. -/
structure FutureTouchMatch where
  recordId : JsString
  recordVersion : ℕ
  selectorIds : List JsString
  decision : FutureTouchDecision

/-- The one decision that answers a record. -/
def matchDecision (plan : TouchPlan) (touchPlanHash : JsString)
    (decisions : List FutureTouchDecision) (actorId : JsString) (aggregate : Aggregate) :
    Option FutureTouchMatch :=
  let selectorIds := selectorsFor aggregate plan
  match decisions.filter fun d => d.projectId = plan.projectId ∧ d.featureId = plan.featureId ∧
      d.touchPlanHash = touchPlanHash ∧ d.recordId = aggregate.recordId ∧
      d.recordVersion = aggregate.eventVersion with
  | [decision] =>
      if decision.actorId = actorId ∧ decision.selectorIds = selectorIds then
        some ⟨aggregate.recordId, aggregate.eventVersion, selectorIds, decision⟩
      else none
  | _ => none

/-- `evaluateFutureTouch`; `collate` is `localeCompare`, as an order. -/
def evaluateFutureTouch (collate : JsString → JsString → Bool) (plan : TouchPlan)
    (touchPlanHash : JsString) (aggregates : List Aggregate)
    (decisions : List FutureTouchDecision) (actorId : JsString) :
    Except PolicyRefusalCode (List FutureTouchMatch) :=
  if plan.valid && hash touchPlanHash && aggregates.all Aggregate.valid &&
      decisions.all FutureTouchDecision.valid && identifier actorId then
    let openRecords := aggregates.filter fun a => a.state.isOpen
    if (openRecords.any fun a => a.projectId != plan.projectId) ||
        !hasUniqueValues (openRecords.map Aggregate.recordId) then .error .foreignIdentity
    else
      let touched := (openRecords.insertionSort fun a b => collate a.recordId b.recordId).filter
        fun a => selectorsFor a plan != []
      match touched.mapM (matchDecision plan touchPlanHash decisions actorId) with
      | some found => .ok found
      | none => .error .invalidDecision
  else .error .invalidInput

/-- `validDecision` of the integration, which leaves the detail to the policy. -/
def FutureTouchDecision.validCommon (d : FutureTouchDecision) : Bool :=
  identifier d.decisionId && identifier d.projectId && identifier d.featureId &&
    hash d.touchPlanHash && isRecordId d.recordId && stringList text d.selectorIds &&
    0 < d.selectorIds.length && identifier d.actorId && text d.reason && utc d.occurredAt

/-- `recordFutureTouchDecision`, with the store it leaves. -/
def recordFutureTouchDecision (sha256 : JsString → HexDigest)
    (collate : JsString → JsString → Bool) (store : Store) (plan : TouchPlan)
    (decision : FutureTouchDecision) (actorId : JsString) :
    Except IntegrationRefusalCode Unit × Store :=
  if !(identifier actorId && decision.validCommon) then (.error .invalidInput, store)
  else if plan.valid = false then (.error .touchPlanInvalid, store)
  else if decision.projectId ≠ plan.projectId ∨ decision.featureId ≠ plan.featureId ∨
      decision.touchPlanHash ≠ plan.digest sha256 then (.error .invalidInput, store)
  else
    match store.getAggregate sha256 plan.projectId decision.recordId with
    | none => (.error .storeUnavailable, store)
    | some aggregate =>
        match evaluateFutureTouch collate plan (plan.digest sha256) [aggregate] [decision]
            actorId with
        | .error _ => (.error .policyRefusal, store)
        | .ok found =>
            if found.length ≠ 1 then (.error .policyRefusal, store)
            else
              match store.commitOperation sha256 (fun _ => true) (.recordTouchDecision
                  ⟨plan.projectId, plan.featureId, plan.digest sha256, plan, decision⟩) with
              | (.decisionCommitted, next) => (.ok (), next)
              | (.refusal .persistenceFailed, next) => (.error .persistenceFailed, next)
              | (_, next) => (.error .invalidInput, next)

end Hepha.Debt
