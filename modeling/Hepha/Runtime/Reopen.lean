import Hepha.Runtime.Preservation

/-!
# Reopening the store

Opening a store over an existing database reads the evidence of every chain,
and fails if one of them does not pass the store's own guard.  Between opening
a chain and starting its first attempt the chain lists an attempt that has no
row; the writing operations allow for this, the reading ones do not.  A stop
of the process in this window leaves a database that cannot be opened again.

The other ways to be unreadable come from lone surrogates, which a text column
replaces and a JSON column keeps: an id of the chain's lists is then not the
id of its row, or two different routes become one.

* `readEvidence_isSome_iff`: when the evidence of one chain can be read;
* `reopens_iff`: when a reachable database can be opened and queried.
-/

namespace Hepha.Runtime

open Database JsValue

variable {db : Database}

/-- Chain `c` has its primary attempt, and nothing of it was lost in storage. -/
structure ChainComplete (db : Database) (c : RuntimeInvocationReceipt) : Prop where
  started : ∃ a ∈ db.attempts, a.invocationId = c.invocationId
  attemptIds : ∀ id ∈ c.attemptIds, id.toWellFormed = id
  eventIds : ∀ id ∈ c.routeChangeEventIds, id.toWellFormed = id
  routes : routesDistinct c = true

/-! ## The guard on the rows of a chain -/

theorem attemptKind_primary {p : RuntimeAttempt} (hvalid : attemptValid p = true)
    (hindex : p.attemptIndex = 0) : p.attemptKind = .primary := by
  simp only [attemptValid, Bool.and_eq_true] at hvalid
  have := hvalid.1.1.1.1.1.2
  simpa [hindex] using this

/-- Rows of a shape that the receipt lists exactly are valid evidence. -/
theorem evidenceValid_of_shape {c : RuntimeInvocationReceipt} {attempts : List RuntimeAttempt}
    {events : List RuntimeRouteChangeEvent} (hshape : ChainShape c attempts events)
    (hreceipt : receiptValid c = true) (hne : attempts ≠ [])
    (hattempts : ∀ a ∈ attempts, attemptValid a = true ∧ a.invocationId = c.invocationId)
    (hevents : ∀ e ∈ events, eventValid e = true ∧ e.invocationId = c.invocationId)
    (hattemptIds : c.attemptIds = attempts.map (·.attemptId))
    (heventIds : c.routeChangeEventIds = events.map (·.eventId)) :
    evidenceValid ⟨c, attempts, events⟩ = true := by
  cases hshape with
  | pending => exact absurd rfl hne
  | single p id primary ids key noEvent status =>
      obtain ⟨hvalid, hchain⟩ := hattempts p (by simp)
      have hstatus : c.status = .running ∨ settledCoherent c [p] [] = true :=
        status.imp_right fun hsettled => hsettled.2.2
      have hlisted : attemptsListed c [p] = true := by
        simp [attemptsListed, hattemptIds, hchain, primary.index]
      have hlistedEvents : eventsListed c [] = true := by
        simp [eventsListed, heventIds]
      have hprimary : sameRoute p.approvedRoute c.approvedPrimaryRoute = true :=
        sameRoute_iff.2 primary.route
      unfold evidenceValid
      simp only [Bool.and_eq_true, Bool.or_eq_true, beq_iff_eq]
      refine ⟨⟨⟨⟨⟨⟨⟨⟨hreceipt, ?_⟩, rfl⟩, hlisted⟩, hlistedEvents⟩, ?_⟩, ?_⟩, rfl⟩, hstatus⟩
      · simp [hvalid]
      · simp [attemptKind_primary hvalid primary.index, hprimary]
      · simp [atOrAfter, primary.after]
  | double p s e id eventId primary second ids key eventIds eventKey status =>
      obtain ⟨hvalid, hchain⟩ := hattempts p (by simp)
      obtain ⟨hsecondValid, hsecondChain⟩ := hattempts s (by simp)
      obtain ⟨heventValid, heventChain⟩ := hevents e (by simp)
      have hlisted : attemptsListed c [p, s] = true := by
        simp [attemptsListed, hattemptIds, hchain, hsecondChain, primary.index, second.index]
      have hlistedEvents : eventsListed c [e] = true := by
        simp [eventsListed, heventIds, heventChain]
      have hstatus : c.status = .running ∨ settledCoherent c [p, s] [e] = true :=
        status.imp_right fun hsettled => hsettled.2.2
      have hprimary : sameRoute p.approvedRoute c.approvedPrimaryRoute = true :=
        sameRoute_iff.2 primary.route
      unfold evidenceValid
      simp only [Bool.and_eq_true, Bool.or_eq_true, beq_iff_eq]
      refine ⟨⟨⟨⟨⟨⟨⟨⟨hreceipt, ?_⟩, ?_⟩, hlisted⟩, hlistedEvents⟩, ?_⟩, ?_⟩, second.handover⟩,
        hstatus⟩
      · simp [hvalid, hsecondValid]
      · simp [heventValid]
      · simp [attemptKind_primary hvalid primary.index, hprimary]
      · simp [atOrAfter, primary.after, second.after]

/-- The lists of a started chain are those of its rows exactly when storing
them changed no id. -/
theorem ids_eq_iff {c : RuntimeInvocationReceipt} {attempts : List RuntimeAttempt}
    {events : List RuntimeRouteChangeEvent} (hshape : ChainShape c attempts events)
    (hattempts : ∀ a ∈ attempts, a.attemptId.toWellFormed = a.attemptId) (hne : attempts ≠ []) :
    (c.attemptIds = attempts.map (·.attemptId) ∧ c.routeChangeEventIds = events.map (·.eventId)) ↔
      (∀ id ∈ c.attemptIds, id.toWellFormed = id) ∧
        ∀ id ∈ c.routeChangeEventIds, id.toWellFormed = id := by
  cases hshape with
  | pending => exact absurd rfl hne
  | single p id primary ids key noEvent =>
      simp [ids, noEvent, ← key, eq_comm]
  | double p s e id eventId primary second ids key eventIds eventKey =>
      have hp := hattempts p (by simp)
      simp [ids, eventIds, ← key, ← eventKey, hp, eq_comm]

namespace Consistent

variable (h : Consistent db)
include h

theorem find_chain {c : RuntimeInvocationReceipt} (hc : c ∈ db.chains) :
    Table.find RuntimeInvocationReceipt.invocationId db.chains c.invocationId.toWellFormed =
      some c := by
  rw [h.chain_key hc]
  exact Table.find_of_mem h.chainKeys hc

omit h in
theorem started_iff {c : RuntimeInvocationReceipt} :
    (∃ a ∈ db.attempts, a.invocationId = c.invocationId) ↔ db.attemptsOf c.invocationId ≠ [] := by
  simp [attemptsOf, List.filter_eq_nil_iff]

theorem readReceipt_chain_iff {c : RuntimeInvocationReceipt} (hc : c ∈ db.chains) :
    db.readReceipt c.invocationId false = some (some c) ↔ ChainComplete db c := by
  have hshape := h.shape c hc
  have hkeys : ∀ a ∈ db.attemptsOf c.invocationId, a.attemptId.toWellFormed = a.attemptId :=
    fun a ha => h.attempt_key (mem_attemptsOf.1 ha).1
  have hvalid : receiptValid c = true ↔ routesDistinct c = true :=
    receiptValid_iff.trans (and_iff_right (h.chainStored c hc).2)
  constructor
  · intro hread
    have hr := readReceipt_some hread
    have hids := hr.attempts.resolve_right fun hpending => by simp at hpending
    have hevents := hr.events
    rw [h.attemptRows_chain hc] at hids
    rw [h.eventRows_chain hc] at hevents
    have hne : db.attemptsOf c.invocationId ≠ [] := by
      intro hnil
      rw [hnil] at hids hshape
      generalize db.eventsOf c.invocationId = events at hshape
      cases hshape with
      | pending _ hlength => simp [hids] at hlength
    obtain ⟨hwfAttempts, hwfEvents⟩ := (ids_eq_iff hshape hkeys hne).mp ⟨hids, hevents⟩
    exact ⟨started_iff.2 hne, hwfAttempts, hwfEvents, hvalid.mp hr.valid⟩
  · intro hcomplete
    have hne := started_iff.1 hcomplete.started
    obtain ⟨hids, hevents⟩ :=
      (ids_eq_iff hshape hkeys hne).mpr ⟨hcomplete.attemptIds, hcomplete.eventIds⟩
    simp [readReceipt, h.find_chain hc, h.attemptRows_chain hc, h.eventRows_chain hc, ← hids,
      ← hevents, hvalid.mpr hcomplete.routes]

/-- The evidence of a complete chain. -/
theorem readEvidence_chain {c : RuntimeInvocationReceipt} (hc : c ∈ db.chains)
    (hcomplete : ChainComplete db c) :
    db.readEvidence c.invocationId =
      some (some ⟨c, db.attemptsOf c.invocationId, db.eventsOf c.invocationId⟩) := by
  have hread := (h.readReceipt_chain_iff hc).mpr hcomplete
  have hattempts : ∀ a ∈ db.attemptsOf c.invocationId,
      attemptValid a = true ∧ a.invocationId = c.invocationId :=
    fun a ha => ⟨(h.attemptStored a (mem_attemptsOf.1 ha).1).2, (mem_attemptsOf.1 ha).2⟩
  have hevents : ∀ e ∈ db.eventsOf c.invocationId,
      eventValid e = true ∧ e.invocationId = c.invocationId :=
    fun e he => ⟨(h.eventStored e (mem_eventsOf.1 he).1).2, (mem_eventsOf.1 he).2⟩
  have hr := readReceipt_some hread
  have hids := hr.attempts.resolve_right fun hpending => by simp at hpending
  have heventIds := hr.events
  rw [h.attemptRows_chain hc] at hids
  rw [h.eventRows_chain hc] at heventIds
  have hvalid := evidenceValid_of_shape (h.shape c hc) hr.valid
    (started_iff.1 hcomplete.started) hattempts hevents hids heventIds
  have hreadAttempts : db.readAttempts c.invocationId = some (db.attemptsOf c.invocationId) := by
    rw [readAttempts, h.attemptRows_chain hc, if_pos]
    exact List.all_eq_true.mpr fun a ha => (hattempts a ha).1
  have hreadEvents : db.readEvents c.invocationId = some (db.eventsOf c.invocationId) := by
    rw [readEvents, h.eventRows_chain hc, if_pos]
    exact List.all_eq_true.mpr fun e he => (hevents e he).1
  simp [readEvidence, hread, hreadAttempts, hreadEvents, hvalid]

/-- **When a chain can be read.** -/
theorem readEvidence_isSome_iff {c : RuntimeInvocationReceipt} (hc : c ∈ db.chains) :
    (db.readEvidence c.invocationId).isSome = true ↔ ChainComplete db c := by
  constructor
  · intro hsome
    obtain ⟨evidence, hevidence⟩ := Option.isSome_iff_exists.mp hsome
    simp only [readEvidence, Option.bind_eq_bind, Option.bind_eq_some_iff] at hevidence
    obtain ⟨receipt, hreceipt, -⟩ := hevidence
    cases receipt with
    | none => exact absurd (h.chain_key hc).symm (readReceipt_none hreceipt c hc)
    | some d =>
        have hr := readReceipt_some hreceipt
        obtain rfl : d = c := h.chain_unique hr.mem hc (hr.key.trans (h.chain_key hc))
        exact (h.readReceipt_chain_iff hc).mp hreceipt
  · intro hcomplete
    rw [h.readEvidence_chain hc hcomplete]
    rfl

theorem validateInstalledEvidence_iff :
    db.validateInstalledEvidence = true ↔ ∀ c ∈ db.chains, ChainComplete db c := by
  rw [validateInstalledEvidence, List.all_eq_true]
  exact forall₂_congr fun c hc => h.readEvidence_isSome_iff hc

end Consistent

/-! ## Reopening -/

/-- A filter is accepted only with a limit that is not over the maximum. -/
theorem not_historyLimitExceeded {raw : JsValue} {filter : RuntimeFeatureInvocationFilter}
    (h : isRuntimeFeatureInvocationFilter raw = some filter) :
    runtimeHistoryLimitExceeded raw = false := by
  simp only [isRuntimeFeatureInvocationFilter, Option.bind_eq_bind, Option.bind_eq_some_iff,
    Option.guard_eq_some'] at h
  obtain ⟨_, _, _, _, _, _, _, _, limit, hlimit, _, hmax, _⟩ := h
  obtain ⟨hlimit, -⟩ := Option.filter_eq_some_iff.mp hlimit
  obtain ⟨hlimit, -⟩ := Option.filter_eq_some_iff.mp hlimit
  unfold JsValue.isNatural at hlimit
  unfold runtimeHistoryLimitExceeded
  split at hlimit
  · rename_i value heq
    rw [heq]
    split_ifs at hlimit with hpos
    simp only [Option.some_inj] at hlimit
    simp only [JsNumber.exceeds, decide_eq_false_iff_not, not_lt]
    omega
  · simp at hlimit

/-- No project and card has more chains than a list may return. -/
def HistoryBounded (db : Database) : Prop :=
  ∀ projectId cardKey,
    (db.chains.filter fun c => c.projectId = projectId ∧ c.cardKey = cardKey).length ≤ 256

theorem length_featureRows (filter : RuntimeFeatureInvocationFilter) :
    (featureRows db filter).length =
      (db.chains.filter fun c => c.projectId = filter.projectId.toWellFormed ∧
        c.cardKey = filter.cardKey.map (·.toWellFormed)).length :=
  List.length_insertionSort _ _

/-- The filter of a project and card with the largest limit. -/
def wholeHistory (projectId : JsString) (cardKey : Option JsString) : JsValue :=
  record [("schemaVersion", text "runtime-execution/v1"), ("projectId", str projectId),
    ("cardKey", cardKey.elim null str), ("limit", .num (.int 256))]

theorem isRuntimeFeatureInvocationFilter_wholeHistory {projectId : JsString}
    {cardKey : Option JsString} (hproject : isText 512 projectId = true)
    (hcard : isNullableText 512 cardKey = true) :
    isRuntimeFeatureInvocationFilter (wholeHistory projectId cardKey) =
      some ⟨projectId, cardKey, 256⟩ := by
  have hproject' : (wholeHistory projectId cardKey).get (js "projectId") = str projectId := rfl
  have hcard' : (wholeHistory projectId cardKey).get (js "cardKey") = cardKey.elim null str := rfl
  have hlimit : (wholeHistory projectId cardKey).get (js "limit") = .num (.int 256) := rfl
  have hkeys : (wholeHistory projectId cardKey).exactKeys
      ["schemaVersion", "projectId", "cardKey", "limit"] = true := rfl
  have hversion : hasSchemaVersion "runtime-execution/v1" (wholeHistory projectId cardKey) = true :=
    rfl
  have hnullable : isNullable (fun v => v.isString.filter (isText 512)) (cardKey.elim null str) =
      some cardKey := by
    cases cardKey with
    | none => rfl
    | some key =>
        have hkey : isText 512 key = true := hcard
        simp [isNullable, isString, hkey]
  have htext : (str projectId).isString.filter (isText 512) = some projectId := by
    simp [isString, hproject]
  have hnumber : ((JsValue.num (.int 256)).isSafeNatural).filter (0 < ·) = some 256 := rfl
  simp only [isRuntimeFeatureInvocationFilter, hkeys, hversion, hproject', hcard', hlimit,
    hnullable, htext, hnumber]
  rfl

/-- The store can be opened over the database, and its queries answer: each
chain can be read, and the chains of each project and card can be listed. -/
structure Reopens (db : Database) : Prop where
  installed : db.validateInstalledEvidence = true
  get : ∀ c ∈ db.chains, ∃ evidence,
    getInvocation db (.str c.invocationId) = .ok (some evidence)
  list : ∀ raw filter, isRuntimeFeatureInvocationFilter raw = some filter → filter.limit = 256 →
    ∃ values, listFeatureInvocations db raw = .ok values

/-- A list that answers has found no more rows than its limit. -/
theorem listFeatureInvocations_length {raw : JsValue} {filter : RuntimeFeatureInvocationFilter}
    {values : List RuntimeInvocationEvidence}
    (hfilter : isRuntimeFeatureInvocationFilter raw = some filter)
    (h : listFeatureInvocations db raw = .ok values) :
    (featureRows db filter).length ≤ filter.limit := by
  simp only [listFeatureInvocations, hfilter] at h
  split_ifs at h with _ _ hlength
  · exact Nat.not_lt.mp hlength

theorem listFeatureInvocations_ok (h : Consistent db)
    (hcomplete : ∀ c ∈ db.chains, ChainComplete db c) {raw : JsValue}
    {filter : RuntimeFeatureInvocationFilter}
    (hfilter : isRuntimeFeatureInvocationFilter raw = some filter)
    (hlength : (featureRows db filter).length ≤ filter.limit) :
    ∃ values, listFeatureInvocations db raw = .ok values := by
  have hrows : ∀ c ∈ featureRows db filter, (db.readEvidence c.invocationId).isSome = true := by
    intro c hc
    rw [featureRows, List.mem_insertionSort, List.mem_filter] at hc
    exact (h.readEvidence_isSome_iff hc.1).mpr (hcomplete c hc.1)
  obtain ⟨values, hvalues⟩ := mapM_isSome hrows
  refine ⟨values.filterMap id, ?_⟩
  simp [listFeatureInvocations, not_historyLimitExceeded hfilter, hfilter,
    h.validateInstalledEvidence_iff.2 hcomplete, Nat.not_lt.mpr hlength, hvalues]

theorem getInvocation_ok (h : Consistent db) {c : RuntimeInvocationReceipt} (hc : c ∈ db.chains)
    (hcomplete : ChainComplete db c) :
    ∃ evidence, getInvocation db (.str c.invocationId) = .ok (some evidence) := by
  have htext : isText 512 c.invocationId = true := by
    have := (h.chainStored c hc).2.fields
    simp only [receiptFieldsValid, Bool.and_eq_true] at this
    tauto
  simp only [isText, Bool.and_eq_true] at htext
  refine ⟨⟨c, db.attemptsOf c.invocationId, db.eventsOf c.invocationId⟩, ?_⟩
  have hlength : (0 < c.invocationId.length && decide (c.invocationId.length ≤ 512)) = true := by
    simp only [Bool.and_eq_true]
    exact ⟨htext.1.1.1, htext.1.1.2⟩
  simp only [getInvocation, JsValue.isString, Option.filter_some, hlength, if_true,
    h.readEvidence_chain hc hcomplete]

/-- Every project and card that has a chain can be asked for. -/
theorem Consistent.historyBounded (h : Consistent db)
    (hlist : ∀ raw filter, isRuntimeFeatureInvocationFilter raw = some filter →
      filter.limit = 256 → ∃ values, listFeatureInvocations db raw = .ok values) :
    HistoryBounded db := by
  intro projectId cardKey
  cases hrows : db.chains.filter fun c => c.projectId = projectId ∧ c.cardKey = cardKey with
  | nil => simp
  | cons c rest =>
      have hc : c ∈ db.chains ∧ c.projectId = projectId ∧ c.cardKey = cardKey := by
        have : c ∈ db.chains.filter fun c => c.projectId = projectId ∧ c.cardKey = cardKey := by
          rw [hrows]
          exact List.mem_cons_self
        simpa using this
      obtain ⟨hc, rfl, rfl⟩ := hc
      obtain ⟨hstored, hvalid⟩ := h.chainStored c hc
      have hfields := hvalid.fields
      simp only [receiptFieldsValid, Bool.and_eq_true] at hfields
      have hprojectText : isText 512 c.projectId = true := by tauto
      have hcardText : isNullableText 512 c.cardKey = true := by tauto
      have hfilter := isRuntimeFeatureInvocationFilter_wholeHistory hprojectText hcardText
      obtain ⟨values, hvalues⟩ := hlist _ _ hfilter rfl
      have hproject : c.projectId.toWellFormed = c.projectId :=
        congrArg RuntimeInvocationReceipt.projectId hstored
      have hcard : c.cardKey.map (·.toWellFormed) = c.cardKey :=
        congrArg RuntimeInvocationReceipt.cardKey hstored
      have hlength := listFeatureInvocations_length hfilter hvalues
      rwa [length_featureRows, hproject, hcard, hrows] at hlength

/-- **When a reachable database can be reopened.** -/
theorem reopens_iff (planHash : JsValue → JsString) (calls : List Call) :
    Reopens (run planHash calls) ↔
      (∀ c ∈ (run planHash calls).chains, ChainComplete (run planHash calls) c) ∧
        HistoryBounded (run planHash calls) := by
  have h := run_consistent planHash calls
  generalize run planHash calls = db at h
  constructor
  · intro hreopens
    exact ⟨h.validateInstalledEvidence_iff.1 hreopens.installed, h.historyBounded hreopens.list⟩
  · rintro ⟨hcomplete, hbounded⟩
    refine ⟨h.validateInstalledEvidence_iff.2 hcomplete,
      fun c hc => getInvocation_ok h hc (hcomplete c hc), fun raw filter hfilter hlimit => ?_⟩
    refine listFeatureInvocations_ok h hcomplete hfilter ?_
    rw [hlimit, length_featureRows]
    exact hbounded _ _

/-! ## A chain that was only opened -/

section OpenedOnly

def openedRoute : JsValue :=
  record [("connectionId", text "connection-primary"), ("modelId", text "model-primary")]

def openedPlan : JsValue :=
  record [("schemaVersion", text "agent-routing/v1"),
    ("resolvedRoute", record [("schemaVersion", text "agent-routing/v1"),
      ("action", record [("schemaVersion", text "agent-routing/v1"),
        ("actionId", text "continue-implementing"), ("actionType", text "implementation"),
        ("actionTypeLabel", text "Implementation"), ("actionTypeDisplayOrder", .num (.int 2)),
        ("label", text "Continue Implementing"), ("displayOrder", .num (.int 2)),
        ("roleId", text "implementation-agent"), ("promptVersion", text "implementation/v1"),
        ("capabilityRequirements", record [("minimumContextWindowTokens", .num (.int 64000)),
          ("requiresTools", .bool true), ("requiresApi", .bool true),
          ("requiresReasoning", .bool true)])]),
      ("route", openedRoute), ("policySource", text "action"), ("revisionId", text "revision-1")]),
    ("steps", .arr [record [("kind", text "primary"), ("route", openedRoute)]])]

/-- The digest of `openedPlan`. -/
def openedPlanHash : String :=
  "140f7b68f4f194730af7f7ac74c6bcffd6504b26ad606563f53c07693cab0773"

def openedReceipt : JsValue :=
  record [("schemaVersion", text "runtime-execution/v1"), ("invocationId", text "invocation-root"),
    ("rootInvocationId", text "invocation-root"), ("parentInvocationId", .null),
    ("invocationKind", text "root"), ("planHash", text openedPlanHash),
    ("actionId", text "continue-implementing"), ("actionType", text "implementation"),
    ("roleId", text "implementation-agent"), ("promptVersion", text "implementation/v1"),
    ("policySource", text "action"), ("revisionId", text "revision-1"),
    ("approvedPrimaryRoute", openedRoute), ("approvedSecondRoute", .null),
    ("projectId", text "project-a"), ("cardKey", text "FEAT-example"),
    ("workflowRunId", text "workflow-a"), ("workflowNodeId", text "node-a"),
    ("phaseExecutionContractId", text "implementation-contract"), ("phaseNumber", .num (.int 3)),
    ("taskId", text "task-a"), ("correlationId", text "correlation-a"),
    ("selectedLessonIds", .arr [text "lesson-a", text "lesson-b"]),
    ("attemptIds", .arr [text "attempt-primary"]), ("routeChangeEventIds", .arr []),
    ("status", text "running"), ("openedAt", text "2026-07-23T10:00:00.000Z"),
    ("settledAt", .null), ("durationMs", .null), ("failureCode", .null)]

def openedOnly : Call :=
  .openInvocation (record [("schemaVersion", text "runtime-execution/v1"), ("plan", openedPlan),
    ("receipt", openedReceipt)])

/-- A process that stops after opening a chain leaves a store that does not open. -/
theorem openedOnly_not_reopens : ¬ Reopens (run (fun _ => js openedPlanHash) [openedOnly]) := by
  intro hreopens
  have hinstalled := hreopens.installed
  revert hinstalled
  decide +kernel

end OpenedOnly

end Hepha.Runtime
