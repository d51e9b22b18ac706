import Hepha.Debt.Decisions

/-!
# When a feature is ready

A feature that is ready has a decision about every record it has to answer for.
The other direction needs more than that: the plan must not name one symbol
twice, two decisions about one record block the feature for good, and so does
a record that the store finds and that cannot be shown (`Unblocked`).
-/

namespace Hepha.Debt

open JsString (toWellFormed)
open Presentation (Projection projectArchitectureDebtRegister projectionRecord)

variable {sha256 : JsString → HexDigest} {collate : JsString → JsString → Bool}
  {actorId : JsString} {s : Store} {plan : TouchPlan} {input : ReadinessInput}

/-! ## What a feature has to answer for -/

namespace Store

/-- An open record of the project that the plan overlaps. -/
structure Required (sha256 : JsString → HexDigest) (s : Store) (plan : TouchPlan)
    (a : Aggregate) : Prop where
  read : s.getAggregate sha256 plan.projectId a.recordId = some a
  projectId : a.projectId = plan.projectId
  isOpen : a.state.isOpen = true
  overlaps : selectorsFor a plan ≠ []

/-- The decisions about a record at its version, for a plan. -/
def answers (sha256 : JsString → HexDigest) (s : Store) (plan : TouchPlan) (a : Aggregate) :
    List FutureTouchDecision :=
  (s.decisions.map DecisionRow.decision).filter fun d => d.projectId = plan.projectId ∧
    d.featureId = plan.featureId ∧ d.touchPlanHash = plan.digest sha256 ∧
    d.recordId = a.recordId ∧ d.recordVersion = a.eventVersion

end Store

/-- The waiver of a decision has not expired, its prerequisite is completed, and
its task exists. -/
def ReadinessInput.Effective (input : ReadinessInput) (d : FutureTouchDecision) : Prop :=
  match d.detail with
  | .remediate owningPhaseTask _ => owningPhaseTask ∈ input.taskIds
  | .prerequisite prerequisiteFeatureId _ _ =>
      (prerequisiteFeatureId, LifecycleState.completed) ∈ input.prerequisiteStates
  | .waiver (some waiverExpiry) _ => ∀ expiry ∈ Date.parseUtc waiverExpiry,
      ∀ now ∈ Date.parseUtc input.clockNow, now < expiry
  | _ => True

/-- **When nothing but a missing decision blocks a feature.** -/
structure Unblocked (sha256 : JsString → HexDigest) (s : Store) (plan : TouchPlan) : Prop where
  /-- No two entries of the plan have one symbol. -/
  symbols : (plan.symbols.map Prod.snd).Nodup
  /-- The columns of the store can keep the names of the plan. -/
  projectId : s.touchedRecords sha256 plan ≠ [] → toWellFormed plan.projectId = plan.projectId
  featureId : s.touchedRecords sha256 plan ≠ [] →
    (∃ row ∈ s.touchPlans, row.touchPlanHash = plan.digest sha256) →
    toWellFormed plan.featureId = plan.featureId
  /-- No record has been decided about twice at its version. -/
  single : ∀ a, s.Required sha256 plan a → (s.answers sha256 plan a).length ≤ 1
  /-- Every record that the store finds can be shown. -/
  shown : (s.touchedRecords sha256 plan).length ≤ 512 ∧
    ∀ a ∈ s.touchedRecords sha256 plan, Presentation.aggregate a = true

/-- The context has exactly the records that the feature has to answer for. -/
structure Covers (sha256 : JsString → HexDigest) (s : Store) (plan : TouchPlan)
    (context : DebtContext) : Prop where
  nodup : (context.matchedDebt.map ContextEntry.recordId).Nodup
  records : ∀ recordId recordVersion,
    (∃ entry ∈ context.matchedDebt, entry.recordId = recordId ∧
      entry.recordVersion = recordVersion) ↔
    ∃ a, s.Required sha256 plan a ∧ a.recordId = recordId ∧ a.eventVersion = recordVersion

/-! ## The decisions of a plan -/

namespace Store

theorem Required.mem_touchedRecords {a : Aggregate} (h : s.Required sha256 plan a) :
    a ∈ s.touchedRecords sha256 plan :=
  Store.mem_touchedRecords.2 ⟨h.read, h.isOpen, touches_of_selectorsFor h.overlaps⟩

theorem mem_answers {a : Aggregate} {d : FutureTouchDecision} :
    d ∈ s.answers sha256 plan a ↔ (∃ row ∈ s.decisions, row.decision = d) ∧
      d.projectId = plan.projectId ∧ d.featureId = plan.featureId ∧
      d.touchPlanHash = plan.digest sha256 ∧ d.recordId = a.recordId ∧
      d.recordVersion = a.eventVersion := by
  simp [answers]

/-- A decision about a record at its version has the selectors of the record. -/
theorem Kept.answers_spec (h : s.Kept sha256 actorId)
    (hsha : ∀ row ∈ s.touchPlans, row.touchPlan.digest sha256 = plan.digest sha256 →
      row.touchPlan = plan) {a : Aggregate} (ha : s.Required sha256 plan a)
    {d : FutureTouchDecision} (hd : d ∈ s.answers sha256 plan a) :
    d.valid = true ∧ d.actorId = actorId ∧ d.selectorIds = selectorsFor a plan := by
  obtain ⟨⟨row, hrow, rfl⟩, hproject, -, hhash, hrecord, hversion⟩ := mem_answers.1 hd
  obtain ⟨-, hvalid, hactor, plan', a', -, hdigest, -, -, hstored, hsnapshot, hproject',
    hrecord', hversion', hselectors⟩ := h.decisions row hrow
  have hplan : plan' = plan :=
    hsha _ (List.mem_of_find?_eq_some hstored) (hdigest.trans hhash)
  obtain ⟨current, hcurrent, -, hcases⟩ := hsnapshot
  rw [hrecord', hrecord] at hcurrent
  have heq : a = current := h.rooted.legible.unique ha.read hcurrent
  have hsame : a' = a := by
    rcases hcases with rfl | hlater
    · exact heq.symm
    · rw [← heq] at hlater
      omega
  rw [hselectors, hsame, hplan]
  exact ⟨hvalid, hactor, rfl⟩

/-- The decisions that are read for a plan are those that were recorded for it. -/
theorem Kept.getFutureTouchDecisions (h : s.Kept sha256 actorId) (hplan : plan.valid = true) :
    (∀ ds, s.getFutureTouchDecisions plan.projectId plan.featureId (plan.digest sha256) = some ds →
      ds.Perm ((s.decisions.map DecisionRow.decision).filter fun d =>
        d.projectId = plan.projectId ∧ d.featureId = plan.featureId ∧
        d.touchPlanHash = plan.digest sha256)) ∧
    ((s.getFutureTouchDecisions plan.projectId plan.featureId (plan.digest sha256)).isSome = true ↔
      ∀ row, (s.touchPlans.find? fun row => row.touchPlanHash = plan.digest sha256) = some row →
        row.projectId = plan.projectId ∧ row.featureId = plan.featureId) := by
  have hnames : identifier plan.projectId = true ∧ identifier plan.featureId = true := by
    simp only [TouchPlan.valid, Bool.and_eq_true] at hplan
    exact hplan.1.1.1.1.1.1
  have hhash : hash (plan.digest sha256) = true := (sha256 plan.canonicalJson).2
  simp only [Store.getFutureTouchDecisions, hnames.1, hnames.2, hhash, Bool.and_self, if_true]
  cases hfind : s.touchPlans.find? fun row => row.touchPlanHash = plan.digest sha256 with
  | none =>
      refine ⟨?_, by simp⟩
      intro ds hds
      cases hds
      have hnone : ((s.decisions.map DecisionRow.decision).filter fun d =>
          d.projectId = plan.projectId ∧ d.featureId = plan.featureId ∧
          d.touchPlanHash = plan.digest sha256) = [] := by
        rw [List.filter_eq_nil_iff]
        intro d hd hmatch
        obtain ⟨row, hrow, rfl⟩ := List.mem_map.mp hd
        obtain ⟨_, _, _, _, -, -, hstored, -⟩ := (h.decisions row hrow).answers
        rw [(of_decide_eq_true hmatch).2.2, hfind] at hstored
        cases hstored
      rw [hnone]
  | some stored =>
      dsimp only
      have hall : ((s.decisions.insertionSort fun a b =>
          a.decisionId.codePoints ≤ b.decisionId.codePoints).all fun row =>
          identifier row.decisionId && row.decision.valid) = true := by
        rw [List.all_eq_true]
        intro row hrow
        have hrecorded := h.decisions row ((List.mem_insertionSort _).mp hrow)
        have hid : identifier row.decisionId = true := by
          have hvalid := hrecorded.valid
          simp only [FutureTouchDecision.valid, Bool.and_eq_true] at hvalid
          rw [hrecorded.identified, identifier, isText_toWellFormed]
          exact hvalid.1.1.1.1.1.1.1.1.1.1
        rw [hid, hrecorded.valid]
        rfl
      by_cases hstored : stored.projectId = plan.projectId ∧ stored.featureId = plan.featureId
      · rw [if_pos hstored, if_pos hall]
        refine ⟨?_, ?_⟩
        · intro ds hds
          cases hds
          exact ((List.perm_insertionSort _ s.decisions).map _).filter _
        · simpa using hstored
      · rw [if_neg hstored]
        refine ⟨?_, ?_⟩
        · intro ds hds
          cases hds
        · simpa using hstored

end Store

/-! ## The policy about the records that the store finds -/

/-- The records that the policy looks at. -/
def overlapped (collate : JsString → JsString → Bool) (plan : TouchPlan)
    (aggregates : List Aggregate) : List Aggregate :=
  ((aggregates.filter fun a => a.state.isOpen).insertionSort fun a b =>
    collate a.recordId b.recordId).filter fun a => selectorsFor a plan != []

theorem mem_overlapped {aggregates : List Aggregate} {a : Aggregate} :
    a ∈ overlapped collate plan aggregates ↔
      a ∈ aggregates ∧ a.state.isOpen = true ∧ selectorsFor a plan ≠ [] := by
  simp [overlapped, and_assoc]

namespace Store

/-- The policy looks at the records that the feature has to answer for. -/
theorem mem_overlapped_touchedRecords
    (hproject : s.touchedRecords sha256 plan ≠ [] → toWellFormed plan.projectId = plan.projectId)
    {a : Aggregate} : a ∈ overlapped collate plan (s.touchedRecords sha256 plan) ↔
      s.Required sha256 plan a := by
  rw [mem_overlapped]
  constructor
  · rintro ⟨hmem, hopen, hselectors⟩
    obtain ⟨hread, -, -⟩ := mem_touchedRecords.1 hmem
    refine ⟨hread, ?_, hopen, hselectors⟩
    rw [(getAggregate_spec hread).2.1, hproject (List.ne_nil_of_mem hmem)]
  · intro h
    exact ⟨h.mem_touchedRecords, h.isOpen, h.overlaps⟩

/-- The policy refuses the records that the store finds only for what it is
asked about them. -/
theorem evaluateFutureTouch_touchedRecords (h : Legible sha256 s) (hplan : plan.valid = true)
    (hactor : identifier actorId = true) {decisions : List FutureTouchDecision}
    (hdecisions : ∀ d ∈ decisions, d.valid = true) {found : List FutureTouchMatch} :
    evaluateFutureTouch collate plan (plan.digest sha256) (s.touchedRecords sha256 plan) decisions
        actorId = .ok found ↔
      (s.touchedRecords sha256 plan ≠ [] → toWellFormed plan.projectId = plan.projectId) ∧
      (overlapped collate plan (s.touchedRecords sha256 plan)).mapM
        (matchDecision plan (plan.digest sha256) decisions actorId) = some found := by
  have hopen : ((s.touchedRecords sha256 plan).filter fun a => a.state.isOpen) =
      s.touchedRecords sha256 plan :=
    List.filter_eq_self.mpr fun a ha => (mem_touchedRecords.1 ha).2.1
  have hprojects : (∀ a ∈ s.touchedRecords sha256 plan, a.projectId = plan.projectId) ↔
      (s.touchedRecords sha256 plan ≠ [] → toWellFormed plan.projectId = plan.projectId) := by
    have hread : ∀ a ∈ s.touchedRecords sha256 plan, a.projectId = toWellFormed plan.projectId :=
      fun a ha => (getAggregate_spec (mem_touchedRecords.1 ha).1).2.1
    constructor
    · intro hall hne
      obtain ⟨a, ha⟩ := List.exists_mem_of_ne_nil _ hne
      exact (hread a ha).symm.trans (hall a ha)
    · intro hwell a ha
      rw [hread a ha, hwell (List.ne_nil_of_mem ha)]
  constructor
  · intro hok
    obtain ⟨-, hforeign, hfound⟩ := evaluateFutureTouch_ok hok
    exact ⟨hprojects.mp fun a ha => hforeign a ha (mem_touchedRecords.1 ha).2.1, hfound⟩
  · rintro ⟨hwell, hfound⟩
    have hall := hprojects.mpr hwell
    have hvalid : (plan.valid && hash (plan.digest sha256) &&
        (s.touchedRecords sha256 plan).all Aggregate.valid &&
        decisions.all FutureTouchDecision.valid && identifier actorId) = true := by
      have haggregates : (s.touchedRecords sha256 plan).all Aggregate.valid = true :=
        List.all_eq_true.mpr fun a ha => (getAggregate_spec (mem_touchedRecords.1 ha).1).2.2.1
      have hhash : hash (plan.digest sha256) = true := (sha256 plan.canonicalJson).2
      rw [hplan, hhash, haggregates, List.all_eq_true.mpr hdecisions, hactor]
      rfl
    have hforeign : ¬ (((s.touchedRecords sha256 plan).any fun a =>
        a.projectId != plan.projectId) || !hasUniqueValues
          ((s.touchedRecords sha256 plan).map Aggregate.recordId)) = true := by
      rw [hasUniqueValues_iff.2 (nodup_touchedRecords h)]
      simpa using hall
    unfold evaluateFutureTouch
    rw [if_pos hvalid]
    dsimp only
    rw [hopen, if_neg hforeign]
    rw [overlapped, hopen] at hfound
    rw [hfound]

end Store

/-! ## The context -/

/-- The projection of a register with different records. -/
theorem projectArchitectureDebtRegister_eq_some {records : List Aggregate}
    (hnodup : (records.map Aggregate.recordId).Nodup) {projections : List Projection} :
    projectArchitectureDebtRegister records = some projections ↔
      (records.length ≤ 512 ∧ ∀ a ∈ records, Presentation.aggregate a = true) ∧
      projections = (records.map projectionRecord).insertionSort
        fun l r => l.recordId ≤ r.recordId := by
  unfold projectArchitectureDebtRegister
  rw [hasUniqueValues_iff.2 hnodup, Bool.and_true]
  constructor
  · intro h
    split at h
    · rename_i hchecks
      simp only [Bool.and_eq_true, decide_eq_true_eq, List.all_eq_true] at hchecks
      exact ⟨hchecks, (Option.some.inj h).symm⟩
    · cases h
  · rintro ⟨⟨hlength, hall⟩, rfl⟩
    rw [if_pos]
    simp only [Bool.and_eq_true, decide_eq_true_eq, List.all_eq_true]
    exact ⟨hlength, hall⟩

/-- A record of the store can be shown in a context once it is projected. -/
theorem validProjection_projectionRecord {a : Aggregate} (h : a.valid = true) :
    validProjection (projectionRecord a) = true := by
  simp only [Aggregate.valid, Trigger.valid, Rule.valid, Bool.and_eq_true] at h
  simp only [validProjection, projectionRecord, Bool.and_eq_true]
  obtain ⟨⟨⟨⟨⟨⟨⟨⟨⟨⟨⟨⟨⟨⟨⟨⟨⟨hrecord, -⟩, howner⟩, hrationale⟩, hrisk⟩, hboundary⟩, htrigger⟩, -⟩,
    hrule⟩, -⟩, -⟩, -⟩, -⟩, -⟩, -⟩, -⟩, -⟩, -⟩ := h
  exact ⟨⟨⟨⟨⟨⟨⟨⟨⟨⟨hrecord, howner⟩, hboundary⟩, hrationale⟩, hrisk⟩, hrule.1.1.1.1.1⟩,
    hrule.1.1.1.1.2⟩, isText_mono (by omega) hrule.1.2⟩, hrule.2⟩, htrigger.1.1.1.1.1⟩,
    htrigger.1.1.1.1.2⟩

/-- The entry of a match whose record was projected. -/
theorem contextEntry_projected {records : List Aggregate}
    (hnodup : (records.map Aggregate.recordId).Nodup) {a : Aggregate} (ha : a ∈ records)
    {found : FutureTouchMatch} (hrecord : found.recordId = a.recordId)
    (hversion : found.recordVersion = a.eventVersion) :
    ∃ entry, contextEntry ((records.map projectionRecord).insertionSort
        fun l r => l.recordId ≤ r.recordId) found = some entry ∧
      entry.recordId = found.recordId ∧ entry.recordVersion = found.recordVersion := by
  have hperm : ((records.map projectionRecord).insertionSort
      fun l r => l.recordId ≤ r.recordId).Perm (records.map projectionRecord) :=
    List.perm_insertionSort _ _
  generalize ((records.map projectionRecord).insertionSort
    fun l r => l.recordId ≤ r.recordId) = projections at hperm ⊢
  have hget : JsMap.get (projections.map fun p => (p.recordId, p)) a.recordId =
      some (projectionRecord a) := by
    refine JsMap.get_of_mem ?_ ?_
    · rw [List.map_map]
      have hmap : (projections.map (Prod.fst ∘ fun p : Projection => (p.recordId, p))).Perm
          (records.map Aggregate.recordId) := by
        refine (hperm.map _).trans ?_
        rw [List.map_map]
        exact List.Perm.refl _
      exact hmap.nodup_iff.mpr hnodup
    · exact List.mem_map.mpr ⟨projectionRecord a,
        hperm.mem_iff.mpr (List.mem_map_of_mem ha), rfl⟩
  have hcurrent : (projectionRecord a).eventVersion = a.eventVersion := rfl
  simp only [contextEntry, hrecord, hget, hversion]
  rw [if_pos hcurrent]
  exact ⟨_, rfl, rfl, rfl⟩

/-- The context of matches about different records of the store. -/
theorem buildArchitectureDebtContext_eq_some {records : List Aggregate}
    (hnodup : (records.map Aggregate.recordId).Nodup) (hvalid : ∀ a ∈ records, a.valid = true)
    {featureId touchPlanHash : JsString} (hfeature : identifier featureId = true)
    (hhash : hash touchPlanHash = true) {matched : List Aggregate}
    (hmatched : ∀ a ∈ matched, a ∈ records) {find : Aggregate → Option FutureTouchMatch}
    (hfind : ∀ a found, find a = some found → found.recordId = a.recordId ∧
      found.recordVersion = a.eventVersion ∧ found.decision.valid = true)
    {found : List FutureTouchMatch} (hfound : matched.mapM find = some found)
    (hshown : records.length ≤ 512 ∧ ∀ a ∈ records, Presentation.aggregate a = true) :
    ∃ entries : List ContextEntry,
      buildArchitectureDebtContext (projectArchitectureDebtRegister records) featureId
        touchPlanHash found = some ⟨featureId, touchPlanHash,
          entries.insertionSort fun l r => l.recordId ≤ r.recordId⟩ ∧
      entries.map (fun e => (e.recordId, e.recordVersion)) =
        matched.map fun a => (a.recordId, a.eventVersion) := by
  have hproject := (projectArchitectureDebtRegister_eq_some hnodup).mpr ⟨hshown, rfl⟩
  have hentries : ∀ entry ∈ found, ∃ a ∈ records, entry.recordId = a.recordId ∧
      entry.recordVersion = a.eventVersion ∧ entry.decision.valid = true := by
    intro entry hentry
    obtain ⟨a, ha, hmatch⟩ := exists_item_of_mapM hfound hentry
    exact ⟨a, hmatched a ha, hfind a entry hmatch⟩
  have hchecks : (identifier featureId && hash touchPlanHash &&
      ((records.map projectionRecord).insertionSort
        fun l r => l.recordId ≤ r.recordId).all validProjection &&
      found.all fun entry => entry.decision.validCommon) = true := by
    have hprojections : ((records.map projectionRecord).insertionSort
        fun l r => l.recordId ≤ r.recordId).all validProjection = true := by
      rw [List.all_eq_true]
      intro p hp
      obtain ⟨a, ha, rfl⟩ := List.mem_map.mp ((List.mem_insertionSort _).mp hp)
      exact validProjection_projectionRecord (hvalid a ha)
    have hdecisions : (found.all fun entry => entry.decision.validCommon) = true := by
      rw [List.all_eq_true]
      intro entry hentry
      obtain ⟨_, _, _, _, hdecision⟩ := hentries entry hentry
      rw [FutureTouchDecision.valid, Bool.and_eq_true] at hdecision
      exact hdecision.1
    rw [hfeature, hhash, hprojections, hdecisions]
    rfl
  have hsome : ∀ entry ∈ found, (contextEntry ((records.map projectionRecord).insertionSort
      fun l r => l.recordId ≤ r.recordId) entry).isSome = true := by
    intro entry hentry
    obtain ⟨a, ha, hrecord, hversion, -⟩ := hentries entry hentry
    obtain ⟨e, he, -⟩ := contextEntry_projected hnodup ha hrecord hversion
    rw [he]
    rfl
  obtain ⟨entries, hmapM⟩ := mapM_isSome hsome
  refine ⟨entries, ?_, ?_⟩
  · rw [hproject]
    simp only [buildArchitectureDebtContext]
    rw [if_pos hchecks, hmapM]
    rfl
  · have hkeys : found.map (fun f => (f.recordId, f.recordVersion)) =
        matched.map fun a => (a.recordId, a.eventVersion) :=
      map_of_mapM hfound fun a entry hmatch => by
        rw [(hfind a entry hmatch).1, (hfind a entry hmatch).2.1]
    rw [← hkeys]
    refine map_of_mapM hmapM fun entry e he => ?_
    simp only [contextEntry] at he
    split at he
    · cases he
    · rename_i item hitem
      split at he
      · rename_i hversion
        obtain ⟨p, -, hp⟩ := List.mem_map.mp (JsMap.mem_of_get hitem)
        have hitem' : p = item := congrArg Prod.snd hp
        have hid : p.recordId = entry.recordId := congrArg Prod.fst hp
        rw [← Option.some.inj he, ← hversion, ← hid, hitem']
      · cases he

/-! ## Readiness -/

theorem blocked_ne_ready {code : IntegrationRefusalCode} {message : JsString}
    {context : DebtContext} : Readiness.blocked code message ≠ .ready context :=
  fun h => Readiness.noConfusion h

theorem readinessOfDecisions_eq_ready {touchPlanHash : JsString} {aggregates : List Aggregate}
    {decisions : List FutureTouchDecision} {context : DebtContext} :
    readinessOfDecisions collate input plan touchPlanHash aggregates decisions actorId =
        .ready context ↔
      ∃ found, evaluateFutureTouch collate plan touchPlanHash aggregates decisions actorId =
          .ok found ∧ found.findSome? (decisionProblem input) = none ∧
        buildArchitectureDebtContext (projectArchitectureDebtRegister aggregates) input.featureId
          touchPlanHash found = some context := by
  unfold readinessOfDecisions
  cases hfound : evaluateFutureTouch collate plan touchPlanHash aggregates decisions actorId with
  | error code =>
      refine ⟨fun h => absurd h blocked_ne_ready, ?_⟩
      rintro ⟨found, hok, -⟩
      cases hok
  | ok found =>
      dsimp only
      cases hproblem : found.findSome? (decisionProblem input) with
      | some message =>
          refine ⟨fun h => absurd h blocked_ne_ready, ?_⟩
          rintro ⟨found', hok, hnone, -⟩
          cases hok
          rw [hproblem] at hnone
          cases hnone
      | none =>
          dsimp only
          cases hbuilt : buildArchitectureDebtContext (projectArchitectureDebtRegister aggregates)
              input.featureId touchPlanHash found with
          | none =>
              refine ⟨fun h => absurd h blocked_ne_ready, ?_⟩
              rintro ⟨found', hok, -, hsome⟩
              cases hok
              rw [hbuilt] at hsome
              cases hsome
          | some built =>
              constructor
              · intro h
                obtain rfl := Readiness.ready.inj h
                exact ⟨found, rfl, hproblem, hbuilt⟩
              · rintro ⟨found', hok, -, hsome⟩
                cases hok
                rw [hbuilt] at hsome
                rw [Option.some.inj hsome]

theorem evaluateFeatureDebtReadiness_eq_ready (h : Store.Legible sha256 s)
    (hfile : input.planFile = .plan plan) {context : DebtContext} :
    evaluateFeatureDebtReadiness sha256 collate s input = .ready context ↔
      (input.valid = true ∧ plan.valid = true ∧ plan.projectId = input.projectId ∧
        plan.featureId = input.featureId ∧ (plan.symbols.map Prod.snd).Nodup) ∧
      (s.touchedRecords sha256 plan = [] ∧
          context = ⟨input.featureId, plan.digest sha256, []⟩ ∨
        s.touchedRecords sha256 plan ≠ [] ∧ ∃ actorId decisions,
          input.authority = some actorId ∧
          s.getFutureTouchDecisions plan.projectId plan.featureId (plan.digest sha256) =
            some decisions ∧
          readinessOfDecisions collate input plan (plan.digest sha256)
            (s.touchedRecords sha256 plan) decisions actorId = .ready context) := by
  unfold evaluateFeatureDebtReadiness
  rw [hfile]
  by_cases hinput : input.valid = true
  swap
  · rw [if_pos (eq_false_of_ne_true hinput)]
    simp [hinput]
  rw [if_neg (by rw [hinput]; exact Bool.true_eq_false.mp)]
  by_cases hplan : plan.valid = true
  swap
  · simp [loadArchitectureDebtTouchPlan, hplan]
  simp only [loadArchitectureDebtTouchPlan, hplan, if_true]
  by_cases hnames : plan.projectId = input.projectId ∧ plan.featureId = input.featureId
  swap
  · rw [if_pos (by tauto)]
    simp only [reduceCtorEq, false_iff, not_and]
    intro hall
    exact absurd ⟨hall.2.2.1, hall.2.2.2.1⟩ hnames
  rw [if_neg (by tauto), ← hnames.1, ← hnames.2, Store.queryOpenArchitectureDebt_plan h hplan]
  by_cases hsymbols : (plan.symbols.map Prod.snd).Nodup
  swap
  · simp [hsymbols]
  rw [if_pos hsymbols]
  cases htouched : s.touchedRecords sha256 plan with
  | nil => simp [hinput, hsymbols, eq_comm]
  | cons first rest =>
      simp only [hinput, hsymbols, reduceCtorEq, false_and, ne_eq, not_false_eq_true, true_and,
        and_self, false_or]
      cases hauthority : input.authority with
      | none => simp
      | some actorId =>
          cases hdecisions : s.getFutureTouchDecisions plan.projectId plan.featureId
              (plan.digest sha256) with
          | none => simp
          | some decisions => simp

/-! ## The decisions of a record -/

/-- The decisions that the policy looks at are those about the record. -/
theorem perm_answers {decisions : List FutureTouchDecision}
    (h : decisions.Perm ((s.decisions.map DecisionRow.decision).filter fun d =>
      d.projectId = plan.projectId ∧ d.featureId = plan.featureId ∧
      d.touchPlanHash = plan.digest sha256)) (a : Aggregate) :
    (decisions.filter fun d => d.projectId = plan.projectId ∧ d.featureId = plan.featureId ∧
      d.touchPlanHash = plan.digest sha256 ∧ d.recordId = a.recordId ∧
      d.recordVersion = a.eventVersion).Perm (s.answers sha256 plan a) := by
  refine (h.filter _).trans ?_
  rw [List.filter_filter, Store.answers]
  refine List.Perm.of_eq (List.filter_congr fun d _ => ?_)
  rw [Bool.eq_iff_iff, Bool.and_eq_true, decide_eq_true_eq, decide_eq_true_eq]
  tauto

/-- A record with a single decision is matched. -/
theorem matchDecision_answers {decisions : List FutureTouchDecision}
    (h : decisions.Perm ((s.decisions.map DecisionRow.decision).filter fun d =>
      d.projectId = plan.projectId ∧ d.featureId = plan.featureId ∧
      d.touchPlanHash = plan.digest sha256)) {a : Aggregate} {found : FutureTouchMatch} :
    matchDecision plan (plan.digest sha256) decisions actorId a = some found ↔
      ∃ d, s.answers sha256 plan a = [d] ∧ d.actorId = actorId ∧
        d.selectorIds = selectorsFor a plan ∧
        found = ⟨a.recordId, a.eventVersion, selectorsFor a plan, d⟩ := by
  rw [matchDecision_eq_some]
  refine exists_congr fun d => and_congr_left fun _ => ?_
  constructor
  · intro hd
    have hperm := perm_answers h a
    rw [hd] at hperm
    exact (List.singleton_perm.mp hperm).symm
  · intro hd
    have hperm := perm_answers h a
    rw [hd] at hperm
    exact List.perm_singleton.mp hperm

/-- A decision in effect raises no problem. -/
theorem decisionProblem_eq_none (hinput : input.valid = true) {found : FutureTouchMatch}
    (hvalid : found.decision.valid = true) (h : input.Effective found.decision) :
    decisionProblem input found = none := by
  simp only [ReadinessInput.valid, Bool.and_eq_true, hasUniqueValues_iff] at hinput
  unfold ReadinessInput.Effective at h
  unfold decisionProblem
  cases hdetail : found.decision.detail with
  | remediate owningPhaseTask acceptanceObligation =>
      simp only [hdetail] at h ⊢
      rw [if_pos (List.contains_iff_mem.mpr h)]
  | prerequisite prerequisiteFeatureId orderingEvidence completionCondition =>
      simp only [hdetail] at h ⊢
      rw [if_pos (JsMap.get_of_mem hinput.1.2 h)]
  | waiver waiverExpiry reconsiderationTrigger =>
      cases waiverExpiry with
      | none => rfl
      | some waiverExpiry =>
          have hexpiry : utc waiverExpiry = true := by
            simp only [FutureTouchDecision.valid, hdetail, DecisionDetail.valid, Bool.and_eq_true,
              Option.all_some] at hvalid
            exact hvalid.2.1.1
          obtain ⟨expiry, hexpiry⟩ := Option.isSome_iff_exists.mp hexpiry
          obtain ⟨now, hnow⟩ := Option.isSome_iff_exists.mp hinput.2
          simp only [hdetail, hexpiry, hnow] at h ⊢
          rw [if_neg (Int.not_le.mpr (h expiry rfl now rfl))]
  | nonInteraction inspectedBoundary explanation => rfl

/-- A context with the records that the policy looked at covers them. -/
theorem covers_of_keys
    (hproject : s.touchedRecords sha256 plan ≠ [] → toWellFormed plan.projectId = plan.projectId)
    (hnodup : ((s.touchedRecords sha256 plan).map Aggregate.recordId).Nodup)
    {entries : List ContextEntry}
    (hkeys : entries.map (fun e => (e.recordId, e.recordVersion)) =
      (overlapped collate plan (s.touchedRecords sha256 plan)).map
        fun a => (a.recordId, a.eventVersion)) {featureId touchPlanHash : JsString} :
    Covers sha256 s plan ⟨featureId, touchPlanHash,
      entries.insertionSort fun l r => l.recordId ≤ r.recordId⟩ := by
  refine ⟨?_, ?_⟩
  · have hids : entries.map ContextEntry.recordId =
        (overlapped collate plan (s.touchedRecords sha256 plan)).map Aggregate.recordId := by
      have hfirst := congrArg (List.map Prod.fst) hkeys
      rwa [List.map_map, List.map_map] at hfirst
    have hsorted : ((entries.insertionSort fun l r => l.recordId ≤ r.recordId).map
        ContextEntry.recordId).Perm (entries.map ContextEntry.recordId) :=
      (List.perm_insertionSort _ _).map _
    rw [hsorted.nodup_iff, hids, overlapped]
    refine List.Nodup.sublist (List.filter_sublist.map _) ?_
    rw [((List.perm_insertionSort _ _).map _).nodup_iff]
    exact hnodup.sublist (List.filter_sublist.map _)
  · intro recordId recordVersion
    constructor
    · rintro ⟨entry, hentry, rfl, rfl⟩
      have hkey : (entry.recordId, entry.recordVersion) ∈
          entries.map fun e => (e.recordId, e.recordVersion) :=
        List.mem_map_of_mem ((List.mem_insertionSort _).mp hentry)
      rw [hkeys] at hkey
      obtain ⟨a, ha, heq⟩ := List.mem_map.mp hkey
      exact ⟨a, (Store.mem_overlapped_touchedRecords hproject).mp ha, congrArg Prod.fst heq,
        congrArg Prod.snd heq⟩
    · rintro ⟨a, ha, rfl, rfl⟩
      have hkey : (a.recordId, a.eventVersion) ∈
          (overlapped collate plan (s.touchedRecords sha256 plan)).map
            fun a => (a.recordId, a.eventVersion) :=
        List.mem_map_of_mem ((Store.mem_overlapped_touchedRecords hproject).mpr ha)
      rw [← hkeys] at hkey
      obtain ⟨entry, hentry, heq⟩ := List.mem_map.mp hkey
      exact ⟨entry, (List.mem_insertionSort _).mpr hentry, congrArg Prod.fst heq,
        congrArg Prod.snd heq⟩

/-! ## The two directions -/

/-- A ready feature has a decision about every record. -/
theorem answered_of_ready (h : s.Kept sha256 actorId) (hfile : input.planFile = .plan plan)
    {context : DebtContext}
    (hready : evaluateFeatureDebtReadiness sha256 collate s input = .ready context)
    {a : Aggregate} (ha : s.Required sha256 plan a) : s.answers sha256 plan a ≠ [] := by
  obtain ⟨⟨-, hplan, -⟩, hcases⟩ :=
    (evaluateFeatureDebtReadiness_eq_ready h.rooted.legible hfile).mp hready
  rcases hcases with ⟨hnone, -⟩ | ⟨-, actorId', decisions, -, hdecisions, hdecided⟩
  · exact absurd ha.mem_touchedRecords (hnone ▸ List.not_mem_nil)
  · obtain ⟨found, hpolicy, -⟩ := readinessOfDecisions_eq_ready.1 hdecided
    obtain ⟨-, -, hfound⟩ := evaluateFutureTouch_ok hpolicy
    have hmem : a ∈ overlapped collate plan (s.touchedRecords sha256 plan) :=
      mem_overlapped.2 ⟨ha.mem_touchedRecords, ha.isOpen, ha.overlaps⟩
    obtain ⟨entry, -, hentry⟩ := exists_value_of_mapM hfound hmem
    obtain ⟨d, hd, -⟩ := (matchDecision_answers
      ((h.getFutureTouchDecisions hplan).1 decisions hdecisions)).mp hentry
    rw [hd]
    exact List.cons_ne_nil _ _

/-- A ready feature is not blocked by anything. -/
theorem unblocked_of_ready (h : s.Kept sha256 actorId) (hfile : input.planFile = .plan plan)
    (hsha : ∀ row ∈ s.touchPlans, row.touchPlan.digest sha256 = plan.digest sha256 →
      row.touchPlan = plan) {context : DebtContext}
    (hready : evaluateFeatureDebtReadiness sha256 collate s input = .ready context) :
    Unblocked sha256 s plan := by
  obtain ⟨⟨-, hplan, -, -, hsymbols⟩, hcases⟩ :=
    (evaluateFeatureDebtReadiness_eq_ready h.rooted.legible hfile).mp hready
  rcases hcases with ⟨hnone, -⟩ | ⟨hsome, actorId', decisions, -, hdecisions, hdecided⟩
  · have hnotRequired : ∀ a, ¬ s.Required sha256 plan a := fun a ha =>
      absurd ha.mem_touchedRecords (hnone ▸ List.not_mem_nil)
    refine ⟨hsymbols, fun hne => absurd hnone hne, fun hne => absurd hnone hne,
      fun a ha => absurd ha (hnotRequired a), ?_⟩
    rw [hnone]
    exact ⟨Nat.zero_le _, fun a ha => absurd ha List.not_mem_nil⟩
  · obtain ⟨found, hpolicy, -, hbuilt⟩ := readinessOfDecisions_eq_ready.1 hdecided
    obtain ⟨hperm, hnames⟩ := h.getFutureTouchDecisions hplan
    have hknown := hnames.mp (by rw [hdecisions]; rfl)
    obtain ⟨-, hforeign, hfound⟩ := evaluateFutureTouch_ok hpolicy
    refine ⟨hsymbols, ?_, ?_, ?_, ?_⟩
    · intro hne
      obtain ⟨a, ha⟩ := List.exists_mem_of_ne_nil _ hne
      obtain ⟨hread, hopen, -⟩ := Store.mem_touchedRecords.1 ha
      exact (Store.getAggregate_spec hread).2.1.symm.trans (hforeign a ha hopen)
    · rintro - ⟨row, hrow, hhash⟩
      obtain ⟨stored, hstored⟩ := Option.isSome_iff_exists.mp
        (List.find?_isSome.mpr ⟨row, hrow, decide_eq_true hhash⟩ :
          (s.touchPlans.find? fun row => row.touchPlanHash = plan.digest sha256).isSome = true)
      have hmem := List.mem_of_find?_eq_some hstored
      have hstoredHash := List.find?_some hstored
      have hplanned := h.plans stored hmem
      have heq : stored.touchPlan = plan :=
        hsha stored hmem (hplanned.digest.trans (of_decide_eq_true hstoredHash))
      rw [← heq, ← hplanned.featureId, heq]
      exact (hknown stored hstored).2
    · intro a ha
      have hmem : a ∈ overlapped collate plan (s.touchedRecords sha256 plan) :=
        mem_overlapped.2 ⟨ha.mem_touchedRecords, ha.isOpen, ha.overlaps⟩
      obtain ⟨entry, -, hentry⟩ := exists_value_of_mapM hfound hmem
      obtain ⟨d, hd, -⟩ := (matchDecision_answers (hperm decisions hdecisions)).mp hentry
      rw [hd]
      exact Nat.le_refl 1
    · cases hproject : projectArchitectureDebtRegister (s.touchedRecords sha256 plan) with
      | none =>
          rw [hproject] at hbuilt
          cases hbuilt
      | some projections =>
          exact ((projectArchitectureDebtRegister_eq_some
            (Store.nodup_touchedRecords h.rooted.legible)).mp hproject).1

/-- An unblocked feature whose records have decisions in effect is ready, with
exactly these records in its context. -/
theorem ready_of_unblocked (h : s.Kept sha256 actorId) (hfile : input.planFile = .plan plan)
    (hsha : ∀ row ∈ s.touchPlans, row.touchPlan.digest sha256 = plan.digest sha256 →
      row.touchPlan = plan) (hinput : input.valid = true) (hplan : plan.valid = true)
    (hnames : plan.projectId = input.projectId ∧ plan.featureId = input.featureId)
    (hactor : input.authority = some actorId)
    (hanswered : ∀ a, s.Required sha256 plan a → s.answers sha256 plan a ≠ [])
    (heffective : ∀ a, s.Required sha256 plan a → ∀ d ∈ s.answers sha256 plan a,
      input.Effective d)
    (hunblocked : Unblocked sha256 s plan) :
    ∃ context, evaluateFeatureDebtReadiness sha256 collate s input = .ready context ∧
      Covers sha256 s plan context := by
  by_cases hnone : s.touchedRecords sha256 plan = []
  · refine ⟨⟨input.featureId, plan.digest sha256, []⟩,
      (evaluateFeatureDebtReadiness_eq_ready h.rooted.legible hfile).mpr
        ⟨⟨hinput, hplan, hnames.1, hnames.2, hunblocked.symbols⟩, .inl ⟨hnone, rfl⟩⟩,
      List.nodup_nil, ?_⟩
    intro recordId recordVersion
    constructor
    · rintro ⟨entry, hentry, -⟩
      exact absurd hentry List.not_mem_nil
    · rintro ⟨a, ha, -⟩
      exact absurd ha.mem_touchedRecords (hnone ▸ List.not_mem_nil)
  obtain ⟨hperm, hread⟩ := h.getFutureTouchDecisions hplan
  -- the decisions can be read
  have hstored : ∀ row, (s.touchPlans.find? fun row => row.touchPlanHash = plan.digest sha256) =
      some row → row.projectId = plan.projectId ∧ row.featureId = plan.featureId := by
    intro row hrow
    have hmem := List.mem_of_find?_eq_some hrow
    have hhash := List.find?_some hrow
    have hplanned := h.plans row hmem
    have heq : row.touchPlan = plan :=
      hsha row hmem (hplanned.digest.trans (of_decide_eq_true hhash))
    rw [hplanned.projectId, hplanned.featureId, heq]
    exact ⟨hunblocked.projectId hnone, hunblocked.featureId hnone
      ⟨row, hmem, of_decide_eq_true hhash⟩⟩
  obtain ⟨decisions, hdecisions⟩ := Option.isSome_iff_exists.mp (hread.mpr hstored)
  have hdecided := hperm decisions hdecisions
  -- every record is matched
  have hmatched : ∀ a ∈ overlapped collate plan (s.touchedRecords sha256 plan),
      ∃ d, s.answers sha256 plan a = [d] ∧
        matchDecision plan (plan.digest sha256) decisions actorId a =
          some ⟨a.recordId, a.eventVersion, selectorsFor a plan, d⟩ := by
    intro a ha
    have hrequired := (Store.mem_overlapped_touchedRecords hunblocked.projectId).mp ha
    have hone : (s.answers sha256 plan a).length = 1 := by
      have hle := hunblocked.single a hrequired
      have hpos := List.length_pos_iff.mpr (hanswered a hrequired)
      omega
    obtain ⟨d, hd⟩ := List.length_eq_one_iff.mp hone
    obtain ⟨-, hactor', hselectors⟩ :=
      h.answers_spec hsha hrequired (by rw [hd]; exact List.mem_singleton_self d)
    exact ⟨d, hd, (matchDecision_answers hdecided).mpr ⟨d, hd, hactor', hselectors, rfl⟩⟩
  obtain ⟨found, hfound⟩ := mapM_isSome fun a ha => by
    obtain ⟨d, -, hmatch⟩ := hmatched a ha
    exact Option.isSome_iff_exists.mpr ⟨_, hmatch⟩
  have hvalid : ∀ d ∈ decisions, d.valid = true := by
    intro d hd
    obtain ⟨row, hrow, rfl⟩ := List.mem_map.mp
      (List.mem_filter.mp (hdecided.mem_iff.mp hd)).1
    exact (h.decisions row hrow).valid
  have hidentifier : identifier actorId = true := by
    simp only [ReadinessInput.valid, hactor, Option.all_some, Bool.and_eq_true] at hinput
    exact hinput.1.1.1.1.2
  have hpolicy : evaluateFutureTouch collate plan (plan.digest sha256)
      (s.touchedRecords sha256 plan) decisions actorId = .ok found :=
    (Store.evaluateFutureTouch_touchedRecords h.rooted.legible hplan hidentifier hvalid).mpr
      ⟨hunblocked.projectId, hfound⟩
  have hentries : ∀ a entry, a ∈ overlapped collate plan (s.touchedRecords sha256 plan) →
      matchDecision plan (plan.digest sha256) decisions actorId a = some entry →
      entry.decision ∈ s.answers sha256 plan a := by
    intro a entry ha hmatch
    obtain ⟨d, hd, hmatch'⟩ := hmatched a ha
    rw [hmatch] at hmatch'
    rw [Option.some.inj hmatch', hd]
    exact List.mem_singleton_self d
  have hproblems : found.findSome? (decisionProblem input) = none := by
    rw [List.findSome?_eq_none_iff]
    intro entry hentry
    obtain ⟨a, ha, hmatch⟩ := exists_item_of_mapM hfound hentry
    have hrequired := (Store.mem_overlapped_touchedRecords hunblocked.projectId).mp ha
    have hmem := hentries a entry ha hmatch
    exact decisionProblem_eq_none hinput (h.answers_spec hsha hrequired hmem).1
      (heffective a hrequired _ hmem)
  -- the context
  have hfind : ∀ a entry, matchDecision plan (plan.digest sha256) decisions actorId a =
      some entry → entry.recordId = a.recordId ∧ entry.recordVersion = a.eventVersion ∧
        entry.decision.valid = true := by
    intro a entry hmatch
    obtain ⟨d, hd, -, -, rfl⟩ := matchDecision_eq_some.1 hmatch
    have hmem : d ∈ [d] := List.mem_singleton_self d
    rw [← hd] at hmem
    exact ⟨rfl, rfl, hvalid d (List.mem_filter.mp hmem).1⟩
  have hfeature : identifier input.featureId = true := by
    simp only [ReadinessInput.valid, Bool.and_eq_true] at hinput
    exact hinput.1.1.1.1.1.2
  have hnodup : ((s.touchedRecords sha256 plan).map Aggregate.recordId).Nodup :=
    Store.nodup_touchedRecords h.rooted.legible
  have hmem : ∀ a ∈ overlapped collate plan (s.touchedRecords sha256 plan),
      a ∈ s.touchedRecords sha256 plan := fun a ha => (mem_overlapped.1 ha).1
  obtain ⟨entries, hbuilt, hkeys⟩ := buildArchitectureDebtContext_eq_some hnodup
    (fun a ha => (Store.getAggregate_spec (Store.mem_touchedRecords.1 ha).1).2.2.1) hfeature
    (sha256 plan.canonicalJson).2 hmem hfind hfound hunblocked.shown
  refine ⟨_, (evaluateFeatureDebtReadiness_eq_ready h.rooted.legible hfile).mpr
    ⟨⟨hinput, hplan, hnames.1, hnames.2, hunblocked.symbols⟩, .inr ⟨hnone, actorId, decisions,
      hactor, hdecisions, readinessOfDecisions_eq_ready.2 ⟨found, hpolicy, hproblems, hbuilt⟩⟩⟩,
    covers_of_keys hunblocked.projectId hnodup hkeys⟩

/-- **A ready feature has a decision about every record that it has to answer
for, and a feature with such decisions in effect is ready, with exactly these
records, if and only if it is not blocked.** -/
theorem evaluateFeatureDebtReadiness_iff (h : StewardRun sha256 collate actorId s)
    (hfile : input.planFile = .plan plan) :
    (∀ context, evaluateFeatureDebtReadiness sha256 collate s input = .ready context →
      ∀ a, s.Required sha256 plan a → s.answers sha256 plan a ≠ []) ∧
    (input.valid = true → plan.valid = true →
      plan.projectId = input.projectId ∧ plan.featureId = input.featureId →
      input.authority = some actorId →
      (∀ row ∈ s.touchPlans, row.touchPlan.digest sha256 = plan.digest sha256 →
        row.touchPlan = plan) →
      (∀ a, s.Required sha256 plan a → s.answers sha256 plan a ≠ []) →
      (∀ a, s.Required sha256 plan a → ∀ d ∈ s.answers sha256 plan a, input.Effective d) →
      ((∃ context, evaluateFeatureDebtReadiness sha256 collate s input = .ready context ∧
        Covers sha256 s plan context) ↔ Unblocked sha256 s plan)) := by
  refine ⟨fun context hready a ha => answered_of_ready h.kept hfile hready ha, ?_⟩
  intro hinput hplan hnames hactor hsha hanswered heffective
  constructor
  · rintro ⟨context, hready, -⟩
    exact unblocked_of_ready h.kept hfile hsha hready
  · exact ready_of_unblocked h.kept hfile hsha hinput hplan hnames hactor hanswered heffective

/-! ## One decision, and two -/

def samplePlan : TouchPlan := ⟨js "p", js "F", [js "a.ts"], [], []⟩

/-- The SHA-256 digests of the samples, with that of the plan. -/
def samplePlanSha256 (input : JsString) : HexDigest :=
  if input = samplePlan.canonicalJson then
    ⟨js "2992df98d9a9d1e62cfdadca00cbd641f63e3e0cbf52ca8e7f0c5d45dcc20925", by decide +kernel⟩
  else sampleSha256 input

/-- The order of record identifiers, for which `localeCompare` is that of the
code units. -/
def sampleCollate (l r : JsString) : Bool := decide (l ≤ r)

def sampleDecision (decisionId : JsString) : FutureTouchDecision where
  decisionId := decisionId
  projectId := js "p"
  featureId := js "F"
  touchPlanHash := samplePlan.digest samplePlanSha256
  recordId := sampleId (js "core")
  recordVersion := 0
  selectorIds := [js "location:l:path", js "trigger:t:path:a.ts"]
  actorId := js "s"
  reason := js "why"
  occurredAt := js "2026-01-02T00:00:00.000Z"
  detail := .nonInteraction (js "core") (js "why")

/-- The store with one record and one decision about it. -/
def sampleDecided : Store :=
  (recordFutureTouchDecision samplePlanSha256 sampleCollate
    (Store.empty.commitOperation samplePlanSha256 (fun _ => true)
      (.createPending (sampleCreate (js "core")))).2 samplePlan (sampleDecision (js "d1"))
    (js "s")).2

/-- The same decision once more, under another identifier. -/
def sampleDecidedTwice : Store :=
  (recordFutureTouchDecision samplePlanSha256 sampleCollate sampleDecided samplePlan
    (sampleDecision (js "d2")) (js "s")).2

def sampleReadiness : ReadinessInput where
  planFile := .plan samplePlan
  taskIds := []
  projectId := js "p"
  featureId := js "F"
  authority := some (js "s")
  prerequisiteStates := []
  clockNow := js "2026-01-03T00:00:00.000Z"

theorem sampleDecided_run :
    StewardRun samplePlanSha256 sampleCollate (js "s") sampleDecided := by
  unfold sampleDecided
  exact .decide _ _ (.commit _ _ (fun _ => Operation.noConfusion) .empty)

/-- The stores with one decision and with two, evaluated. -/
theorem sampleDecided_holds :
    (sampleDecided.touchPlans.map TouchPlanRow.touchPlan = [samplePlan] ∧
      sampleDecided.touchedRecords samplePlanSha256 samplePlan = [sampleRecord (js "core")] ∧
      sampleDecided.answers samplePlanSha256 samplePlan (sampleRecord (js "core")) =
        [sampleDecision (js "d1")] ∧
      Presentation.aggregate (sampleRecord (js "core")) = true) ∧
    (recordFutureTouchDecision samplePlanSha256 sampleCollate sampleDecided samplePlan
        (sampleDecision (js "d2")) (js "s")).1 = .ok () ∧
      sampleDecidedTwice.touchedRecords samplePlanSha256 samplePlan =
        [sampleRecord (js "core")] ∧
      sampleDecidedTwice.answers samplePlanSha256 samplePlan (sampleRecord (js "core")) =
        [sampleDecision (js "d1"), sampleDecision (js "d2")] ∧
      evaluateFeatureDebtReadiness samplePlanSha256 sampleCollate sampleDecidedTwice
        sampleReadiness = .blocked .readinessBlocked decisionsMissingMessage := by
  decide +kernel

/-- The sample record is the only one that the plan touches. -/
theorem required_sampleDecided {a : Aggregate}
    (ha : sampleDecided.Required samplePlanSha256 samplePlan a ∨
      sampleDecidedTwice.Required samplePlanSha256 samplePlan a) :
    a = sampleRecord (js "core") := by
  obtain ⟨⟨-, honce, -⟩, -, htwice, -⟩ := sampleDecided_holds
  rcases ha with ha | ha
  · exact List.mem_singleton.mp (honce ▸ ha.mem_touchedRecords)
  · exact List.mem_singleton.mp (htwice ▸ ha.mem_touchedRecords)

theorem evaluateFeatureDebtReadiness_decided :
    ∃ context, evaluateFeatureDebtReadiness samplePlanSha256 sampleCollate sampleDecided
        sampleReadiness = .ready context ∧
          Covers samplePlanSha256 sampleDecided samplePlan context := by
  obtain ⟨⟨hplans, hrecords, hanswers, hpresented⟩, -⟩ := sampleDecided_holds
  refine ((evaluateFeatureDebtReadiness_iff sampleDecided_run rfl).2 (by decide)
    (by decide) ⟨rfl, rfl⟩ rfl ?_ ?_ ?_).mpr ⟨?_, ?_, ?_, ?_, ?_⟩
  · intro row hrow _
    exact List.mem_singleton.mp (hplans ▸ List.mem_map_of_mem hrow)
  · intro a ha
    rw [required_sampleDecided (.inl ha), hanswers]
    exact List.cons_ne_nil _ _
  · intro a ha d hd
    rw [required_sampleDecided (.inl ha), hanswers, List.mem_singleton] at hd
    rw [hd]
    trivial
  · decide
  · intro _
    decide
  · intro _ _
    decide
  · intro a ha
    rw [required_sampleDecided (.inl ha), hanswers]
    exact Nat.le_refl 1
  · rw [hrecords]
    refine ⟨by decide, ?_⟩
    intro a ha
    rw [List.mem_singleton.mp ha]
    exact hpresented

/-- A second decision that is accepted blocks the feature. -/
theorem evaluateFeatureDebtReadiness_decidedTwice :
    StewardRun samplePlanSha256 sampleCollate (js "s") sampleDecidedTwice ∧
    (recordFutureTouchDecision samplePlanSha256 sampleCollate sampleDecided samplePlan
      (sampleDecision (js "d2")) (js "s")).1 = .ok () ∧
    sampleReadiness.valid = true ∧ samplePlan.valid = true ∧
    (∀ a, sampleDecidedTwice.Required samplePlanSha256 samplePlan a →
      sampleDecidedTwice.answers samplePlanSha256 samplePlan a ≠ [] ∧
      ∀ d ∈ sampleDecidedTwice.answers samplePlanSha256 samplePlan a,
        sampleReadiness.Effective d) ∧
    evaluateFeatureDebtReadiness samplePlanSha256 sampleCollate sampleDecidedTwice
      sampleReadiness = .blocked .readinessBlocked decisionsMissingMessage := by
  obtain ⟨-, haccepted, -, hanswers, hblocked⟩ := sampleDecided_holds
  refine ⟨.decide _ _ sampleDecided_run, haccepted, by decide, by decide, ?_, hblocked⟩
  intro a ha
  rw [required_sampleDecided (.inr ha), hanswers]
  refine ⟨List.cons_ne_nil _ _, ?_⟩
  intro d hd
  rcases List.mem_cons.mp hd with rfl | hd
  · trivial
  · rw [List.mem_singleton.mp hd]
    trivial

end Hepha.Debt
