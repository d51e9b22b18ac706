import Hepha.Debt.Readiness

/-!
# Recorded decisions

Decisions are recorded by `recordFutureTouchDecision` only.  So what it checks
holds of every row: the decision answers its record at the version it names,
with the selectors of the plan that is stored under its hash (`Recorded`).  A
record never comes back to an earlier version, so this stays true of a decision
for as long as its record stays at that version.
-/

namespace Hepha.Debt

open JsString (toWellFormed)

variable {sha256 : JsString → HexDigest} {collate : JsString → JsString → Bool}
  {actorId : JsString} {s t : Store}

/-! ## Runs -/

/-- The stores that runs lead to whose decisions one steward records. -/
inductive StewardRun (sha256 : JsString → HexDigest) (collate : JsString → JsString → Bool)
    (actorId : JsString) : Store → Prop
  | empty : StewardRun sha256 collate actorId Store.empty
  | commit {s : Store} (verifyReadBack : Aggregate → Bool) (op : Operation) :
      (∀ c, op ≠ .recordTouchDecision c) → StewardRun sha256 collate actorId s →
      StewardRun sha256 collate actorId (s.commitOperation sha256 verifyReadBack op).2
  | decide {s : Store} (plan : TouchPlan) (decision : FutureTouchDecision) :
      StewardRun sha256 collate actorId s →
      StewardRun sha256 collate actorId
        (recordFutureTouchDecision sha256 collate s plan decision actorId).2

/-! ## One decision -/

/-- What `evaluateFutureTouch` answers about open records of a project with
different identifiers. -/
theorem evaluateFutureTouch_ok {plan : TouchPlan} {touchPlanHash : JsString}
    {aggregates : List Aggregate} {decisions : List FutureTouchDecision}
    {found : List FutureTouchMatch}
    (h : evaluateFutureTouch collate plan touchPlanHash aggregates decisions actorId = .ok found) :
    decisions.all FutureTouchDecision.valid = true ∧
      (∀ a ∈ aggregates, a.state.isOpen = true → a.projectId = plan.projectId) ∧
      (((aggregates.filter fun a => a.state.isOpen).insertionSort fun a b =>
        collate a.recordId b.recordId).filter fun a => selectorsFor a plan != []).mapM
          (matchDecision plan touchPlanHash decisions actorId) = some found := by
  unfold evaluateFutureTouch at h
  split at h
  · rename_i hvalid
    simp only [Bool.and_eq_true] at hvalid
    dsimp only at h
    split at h
    · cases h
    · rename_i hforeign
      simp only [Bool.or_eq_true, not_or, List.any_eq_true, not_exists, not_and, bne_iff_ne,
        ne_eq, not_not, List.mem_filter] at hforeign
      split at h
      · rename_i values hvalues
        cases h
        exact ⟨hvalid.1.2, fun a ha hopen => hforeign.1 a ⟨ha, hopen⟩, hvalues⟩
      · cases h
  · cases h

/-- What a matched decision has been checked for. -/
theorem matchDecision_eq_some {plan : TouchPlan} {touchPlanHash : JsString}
    {decisions : List FutureTouchDecision} {a : Aggregate} {found : FutureTouchMatch} :
    matchDecision plan touchPlanHash decisions actorId a = some found ↔
      ∃ d, (decisions.filter fun d => d.projectId = plan.projectId ∧
          d.featureId = plan.featureId ∧ d.touchPlanHash = touchPlanHash ∧
          d.recordId = a.recordId ∧ d.recordVersion = a.eventVersion) = [d] ∧
        d.actorId = actorId ∧ d.selectorIds = selectorsFor a plan ∧
        found = ⟨a.recordId, a.eventVersion, selectorsFor a plan, d⟩ := by
  simp only [matchDecision]
  constructor
  · intro h
    split at h
    · rename_i d hd
      split at h
      · rename_i hchecks
        exact ⟨d, hd, hchecks.1, hchecks.2, (Option.some.inj h).symm⟩
      · cases h
    · cases h
  · rintro ⟨d, hd, hactor, hselectors, rfl⟩
    rw [hd]
    dsimp only
    rw [if_pos ⟨hactor, hselectors⟩]

/-- What a recorded decision has been checked for. -/
structure Answered (sha256 : JsString → HexDigest) (s : Store) (actorId : JsString)
    (plan : TouchPlan) (d : FutureTouchDecision) (a : Aggregate) : Prop where
  planned : plan.valid = true ∧ plan.digest sha256 = d.touchPlanHash
  names : d.projectId = plan.projectId ∧ d.featureId = plan.featureId
  read : s.getAggregate sha256 d.projectId d.recordId = some a
  record : a.projectId = d.projectId ∧ a.recordId = d.recordId ∧
    a.eventVersion = d.recordVersion
  actor : d.actorId = actorId
  selectors : d.selectorIds = selectorsFor a plan

/-- A decision that the policy accepts for a record answers it. -/
theorem answered_of_policy {plan : TouchPlan} {d : FutureTouchDecision} {a : Aggregate}
    {found : List FutureTouchMatch} (hplan : plan.valid = true)
    (hproject : d.projectId = plan.projectId) (hfeature : d.featureId = plan.featureId)
    (hhash : d.touchPlanHash = plan.digest sha256)
    (hread : s.getAggregate sha256 plan.projectId d.recordId = some a)
    (hpolicy : evaluateFutureTouch collate plan (plan.digest sha256) [a] [d] actorId = .ok found)
    (hone : found.length = 1) : Answered sha256 s actorId plan d a := by
  obtain ⟨-, hprojects, hfound⟩ := evaluateFutureTouch_ok hpolicy
  obtain ⟨entry, rfl⟩ := List.length_eq_one_iff.mp hone
  obtain ⟨b, hb, hmatch⟩ := exists_item_of_mapM hfound List.mem_cons_self
  rw [List.mem_filter, List.mem_insertionSort, List.mem_filter, List.mem_singleton] at hb
  obtain ⟨⟨rfl, hopen⟩, -⟩ := hb
  obtain ⟨d', hd', hactor, hselectors, -⟩ := matchDecision_eq_some.1 hmatch
  have hmem : d' ∈ [d] ∧ _ := List.mem_filter.mp (hd' ▸ List.mem_singleton_self d')
  obtain ⟨hmem, hmatches⟩ := hmem
  rw [List.mem_singleton] at hmem
  subst hmem
  simp only [decide_eq_true_eq] at hmatches
  exact ⟨⟨hplan, hhash.symm⟩, ⟨hproject, hfeature⟩, by rw [hproject]; exact hread,
    ⟨(hprojects b (by simp) hopen).trans hproject.symm, hmatches.2.2.2.1.symm,
      hmatches.2.2.2.2.symm⟩, hactor, hselectors⟩

/-- `recordFutureTouchDecision` leaves the store as it is, or records a decision
that answers a record. -/
theorem recordFutureTouchDecision_store (plan : TouchPlan) (d : FutureTouchDecision) :
    (recordFutureTouchDecision sha256 collate s plan d actorId).2 = s ∨
      ∃ a, Answered sha256 s actorId plan d a ∧
        Store.Effect sha256 s
          (.recordTouchDecision ⟨plan.projectId, plan.featureId, plan.digest sha256, plan, d⟩)
          .decisionCommitted (recordFutureTouchDecision sha256 collate s plan d actorId).2 := by
  unfold recordFutureTouchDecision
  split
  · exact .inl rfl
  · split
    · exact .inl rfl
    · rename_i hplan
      split
      · exact .inl rfl
      · rename_i hnames
        simp only [not_or, ne_eq, not_not] at hnames
        split
        · exact .inl rfl
        · rename_i a hread
          split
          · exact .inl rfl
          · rename_i found hpolicy
            split
            · exact .inl rfl
            · rename_i hone
              have hdecided : ∀ result next, s.commitOperation sha256 (fun _ => true)
                  (.recordTouchDecision ⟨plan.projectId, plan.featureId, plan.digest sha256, plan,
                    d⟩) = (result, next) → next = s ∨
                  (result = .decisionCommitted ∧ ∃ a, Answered sha256 s actorId plan d a ∧
                    Store.Effect sha256 s (.recordTouchDecision ⟨plan.projectId, plan.featureId,
                      plan.digest sha256, plan, d⟩) .decisionCommitted next) := by
                intro result next hcommit
                have heffect : Store.Effect sha256 s (.recordTouchDecision ⟨plan.projectId,
                    plan.featureId, plan.digest sha256, plan, d⟩)
                    (s.commitOperation sha256 (fun _ => true) (.recordTouchDecision
                      ⟨plan.projectId, plan.featureId, plan.digest sha256, plan, d⟩)).1
                    (s.commitOperation sha256 (fun _ => true) (.recordTouchDecision
                      ⟨plan.projectId, plan.featureId, plan.digest sha256, plan, d⟩)).2 :=
                  Store.commit_effect _
                rw [hcommit] at heffect
                cases heffect with
                | refused code => exact .inl rfl
                | decided hvalid hdecision =>
                    exact .inr ⟨rfl, a, answered_of_policy (eq_true_of_ne_false hplan) hnames.1
                      hnames.2.1 hnames.2.2 hread hpolicy (not_not.mp hone),
                      .decided hvalid hdecision⟩
              split
              · rename_i next hcommit
                rcases hdecided _ _ hcommit with hsame | ⟨-, hanswered⟩
                · exact .inl hsame
                · exact .inr hanswered
              · rename_i next hcommit
                rcases hdecided _ _ hcommit with hsame | ⟨hresult, -⟩
                · exact .inl hsame
                · cases hresult
              · rename_i result next hother _ hcommit
                rcases hdecided _ _ hcommit with hsame | ⟨hresult, -⟩
                · exact .inl hsame
                · exact absurd hresult hother

/-! ## What is kept of a decision -/

/-- A row of a decision that answered a record when it was recorded. -/
structure Recorded (sha256 : JsString → HexDigest) (s : Store) (actorId : JsString)
    (row : DecisionRow) : Prop where
  identified : row.decisionId = toWellFormed row.decision.decisionId
  valid : row.decision.valid = true
  actor : row.decision.actorId = actorId
  answers : ∃ plan a, plan.valid = true ∧ plan.digest sha256 = row.decision.touchPlanHash ∧
    plan.projectId = row.decision.projectId ∧ plan.featureId = row.decision.featureId ∧
    (s.touchPlans.find? fun r => r.touchPlanHash = row.decision.touchPlanHash) =
      some ⟨row.decision.touchPlanHash, toWellFormed plan.projectId, toWellFormed plan.featureId,
        plan⟩ ∧
    s.Snapshot sha256 a ∧ a.projectId = row.decision.projectId ∧
    a.recordId = row.decision.recordId ∧ a.eventVersion = row.decision.recordVersion ∧
    row.decision.selectorIds = selectorsFor a plan

/-- A stored plan is stored under its hash, and with the names that a column can
keep. -/
structure Planned (sha256 : JsString → HexDigest) (row : TouchPlanRow) : Prop where
  digest : row.touchPlan.digest sha256 = row.touchPlanHash
  projectId : row.projectId = toWellFormed row.touchPlan.projectId
  featureId : row.featureId = toWellFormed row.touchPlan.featureId

/-- The invariant of the decisions. -/
structure Store.Kept (sha256 : JsString → HexDigest) (s : Store) (actorId : JsString) : Prop where
  rooted : Store.Rooted sha256 s
  plans : ∀ row ∈ s.touchPlans, Planned sha256 row
  decisions : ∀ row ∈ s.decisions, Recorded sha256 s actorId row

namespace Store

theorem insertCreate_plans {op : CreateOperation} (h : s.insertCreate op = some t) :
    t.touchPlans = s.touchPlans ∧ t.decisions = s.decisions := by
  simp only [insertCreate, Option.bind_eq_bind, Option.bind_eq_some_iff] at h
  obtain ⟨_, _, locations, _, u, hobservation, hevent⟩ := h
  obtain ⟨-, rfl⟩ := insertObservation_eq_some.1 hobservation
  obtain ⟨-, rfl⟩ := insertEvent_eq_some.1 hevent
  exact ⟨rfl, rfl⟩

/-- Only a decision touches the plans and the decisions. -/
theorem Effect.plans {op : Operation} {result : CommitResult} (h : Effect sha256 s op result t)
    (hop : ∀ c, op ≠ .recordTouchDecision c) :
    t.touchPlans = s.touchPlans ∧ t.decisions = s.decisions := by
  cases h with
  | refused code => exact ⟨rfl, rfl⟩
  | decided _ _ => exact absurd rfl (hop _)
  | relinked _ _ => exact ⟨rfl, rfl⟩
  | created _ _ hinsert _ => exact insertCreate_plans hinsert
  | linked _ _ _ _ hinsert _ =>
      obtain ⟨-, -, rfl⟩ := insertLink_eq_some.1 hinsert
      exact ⟨rfl, rfl⟩
  | triaged _ _ _ _ hinsert _ =>
      obtain ⟨-, rfl⟩ := insertEvent_eq_some.1 hinsert
      exact ⟨rfl, rfl⟩

/-- The plan of a decision is stored under its hash afterwards, and what was
stored stays. -/
theorem insertTouchPlan_spec {op : DecisionCommit} (h : s.insertTouchPlan op = some t) :
    (∀ planHash row, (s.touchPlans.find? fun r => r.touchPlanHash = planHash) = some row →
      (t.touchPlans.find? fun r => r.touchPlanHash = planHash) = some row) ∧
    (∃ row, (t.touchPlans.find? fun r => r.touchPlanHash = op.touchPlanHash) = some row ∧
      row.touchPlanHash = op.touchPlanHash ∧ row.touchPlan = op.touchPlan ∧
      (row ∈ s.touchPlans ∨
        row = ⟨op.touchPlanHash, toWellFormed op.projectId, toWellFormed op.featureId,
          op.touchPlan⟩)) ∧
    ∀ row ∈ t.touchPlans, row ∈ s.touchPlans ∨
      row = ⟨op.touchPlanHash, toWellFormed op.projectId, toWellFormed op.featureId,
        op.touchPlan⟩ := by
  unfold insertTouchPlan at h
  split at h
  · rename_i known hknown
    split at h
    · rename_i hsame
      cases h
      have hhash := List.find?_some hknown
      exact ⟨fun _ _ h => h, ⟨known, hknown, of_decide_eq_true hhash, hsame.2.2,
        .inl (List.mem_of_find?_eq_some hknown)⟩, fun row hrow => .inl hrow⟩
    · cases h
  · rename_i hnone
    cases h
    refine ⟨?_, ⟨_, ?_, rfl, rfl, .inr rfl⟩, ?_⟩
    · intro planHash row hrow
      rw [List.find?_append, hrow]
      rfl
    · rw [List.find?_append, hnone]
      simp
    · intro row hrow
      rcases List.mem_append.mp hrow with hrow | hrow
      · exact .inl hrow
      · exact .inr (List.mem_singleton.mp hrow)

end Store

/-- What was recorded stays recorded. -/
theorem Recorded.advance {row : DecisionRow} (h : Recorded sha256 s actorId row)
    (hsnapshot : ∀ a, s.Snapshot sha256 a → t.Snapshot sha256 a)
    (hplans : ∀ planHash row, (s.touchPlans.find? fun r => r.touchPlanHash = planHash) =
      some row → (t.touchPlans.find? fun r => r.touchPlanHash = planHash) = some row) :
    Recorded sha256 t actorId row := by
  obtain ⟨plan, a, hvalid, hdigest, hproject, hfeature, hstored, ha, hrest⟩ := h.answers
  exact ⟨h.identified, h.valid, h.actor, plan, a, hvalid, hdigest, hproject, hfeature,
    hplans _ _ hstored, hsnapshot a ha, hrest⟩

/-- A decision that answers a record is kept as such. -/
theorem Store.Kept.decide (h : s.Kept sha256 actorId) {plan : TouchPlan} {d : FutureTouchDecision}
    {a : Aggregate} (hanswered : Answered sha256 s actorId plan d a)
    (heffect : Store.Effect sha256 s
      (.recordTouchDecision ⟨plan.projectId, plan.featureId, plan.digest sha256, plan, d⟩)
      .decisionCommitted t) : t.Kept sha256 actorId := by
  have hrooted : Store.Rooted sha256 t := heffect.rooted h.rooted
  have hchange := Store.commit_change h.rooted heffect
  cases heffect with
  | decided hvalid hdecided =>
      simp only [DecisionCommit.valid, Bool.and_eq_true] at hvalid
      obtain ⟨hkept, ⟨stored, hstored, hhash, hplan, hold⟩, hplans⟩ :=
        Store.insertTouchPlan_spec hdecided.plan
      have hplanned : ∀ row ∈ t.touchPlans, Planned sha256 row := by
        intro row hrow
        rcases hplans row hrow with hrow | rfl
        · exact h.plans row hrow
        · exact ⟨rfl, rfl, rfl⟩
      refine ⟨hrooted, hplanned, ?_⟩
      intro row hrow
      rw [hdecided.decisions] at hrow
      rcases List.mem_append.mp hrow with hrow | hrow
      · exact (h.decisions row hrow).advance (fun b hb => hb.advance h.rooted hchange) hkept
      · obtain rfl := List.mem_singleton.mp hrow
        have hrow' := hplanned stored (List.mem_of_find?_eq_some hstored)
        refine ⟨rfl, hvalid.2, hanswered.actor, plan, a, hanswered.planned.1, hanswered.planned.2,
          hanswered.names.1.symm, hanswered.names.2.symm, ?_, ?_, hanswered.record.1,
          hanswered.record.2.1, hanswered.record.2.2, hanswered.selectors⟩
        · have heq : stored = ⟨d.touchPlanHash, toWellFormed plan.projectId,
              toWellFormed plan.featureId, plan⟩ := by
            obtain ⟨hash, projectId, featureId, touchPlan⟩ := stored
            obtain ⟨-, hproject, hfeature⟩ := hrow'
            dsimp only at hhash hplan hproject hfeature
            subst hplan
            rw [hhash, hproject, hfeature, hanswered.planned.2]
          rw [← heq, ← hanswered.planned.2]
          exact hstored
        · exact (Store.snapshot_getAggregate hanswered.read).advance h.rooted hchange

/-- **Every recorded decision answers its record, or did.** -/
theorem StewardRun.kept (h : StewardRun sha256 collate actorId s) : s.Kept sha256 actorId := by
  induction h with
  | empty =>
      exact ⟨Store.Rooted.empty, fun _ h => absurd h List.not_mem_nil,
        fun _ h => absurd h List.not_mem_nil⟩
  | @commit s verifyReadBack op hop _ ih =>
      have heffect : Store.Effect sha256 s op (s.commitOperation sha256 verifyReadBack op).1
          (s.commitOperation sha256 verifyReadBack op).2 := Store.commit_effect op
      obtain ⟨hplans, hdecisions⟩ := heffect.plans hop
      refine ⟨heffect.rooted ih.rooted, ?_, ?_⟩
      · rw [hplans]
        exact ih.plans
      · intro row hrow
        rw [hdecisions] at hrow
        refine (ih.decisions row hrow).advance (fun a ha => ha.advance ih.rooted
          (Store.commit_change ih.rooted heffect)) ?_
        rw [hplans]
        exact fun _ _ h => h
  | @decide s plan d _ ih =>
      generalize ht : (recordFutureTouchDecision sha256 collate s plan d actorId).2 = t
      rcases ht ▸ recordFutureTouchDecision_store plan d with rfl | ⟨a, hanswered, heffect⟩
      · exact ih
      · exact ih.decide hanswered heffect

end Hepha.Debt
