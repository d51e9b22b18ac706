import Hepha.Replan.Readers
import Hepha.Replan.Versions

/-!
# What the readers can read

The store's rules for texts are not those of the readers, and a record that it
accepts may be one that a reader refuses; since no record is ever removed, the
aggregate is then refused for good.  A record is readable when its texts follow
the reader's rules, a transition also when the reader's table has it.  These
are the only obstacles: in a reachable state a reader accepts an aggregate of
at most `maxRecords` records exactly when its scope and its records are
readable, because the store has checked the rest, and has kept the versions and
states of the transitions chained.
-/

namespace Hepha.Replan

open JsValue History Review

/-! ## Reading what was written -/

section Fields

@[simp] theorem isString_str (s : JsString) : (str s).isString = some s := rfl

@[simp] theorem isString_text (s : String) : (text s).isString = some (js s) := rfl

@[simp] theorem isNatural_natural (n : ℕ) : (natural n).isNatural = some n := by
  simp [natural, isNatural]

@[simp] theorem isArray_arr (items : List JsValue) : (arr items).isArray = some items := rfl

@[simp] theorem isRecord_record (properties : List (String × JsValue)) :
    (record properties).isRecord = true := rfl

@[simp] theorem isArrayOf_map_str (ids : List JsString) :
    (arr (ids.map str)).isArrayOf isString = some ids := by
  rw [isArrayOf, isArray_arr, Option.bind_some]
  induction ids with
  | nil => rfl
  | cons id rest ih =>
      rw [List.map_cons, List.mapM_cons, ih]
      rfl

@[simp] theorem isOptional_optionalText (value : Option JsString) :
    isOptional isString (optionalText value) = some value := by
  cases value <;> rfl

@[simp] theorem isOneOf_observationKind (kind : ReplanObservationKind) :
    (wordOf replanObservationKinds kind).isOneOf replanObservationKinds = some kind := by
  cases kind <;> simp [wordOf, replanObservationKinds, isOneOf_text, List.lookup_cons]

@[simp] theorem isOneOf_state (state : ReplanGovernanceState) :
    (wordOf replanGovernanceStates state).isOneOf replanGovernanceStates = some state := by
  cases state <;> simp [wordOf, replanGovernanceStates, isOneOf_text, List.lookup_cons]

@[simp] theorem isArrayOf_text (s : String) :
    (arr [text s]).isArrayOf isString = some [js s] := rfl

/-- The word of a constant is one of the words of the table. -/
theorem any_wordOf {α : Type} [DecidableEq α] {table : List (String × α)} {a : α}
    (ha : a ∈ table.map Prod.snd) :
    (wordOf table a).isString.any
      (fun text => ((table.map Prod.fst).map js).contains text) = true := by
  obtain ⟨entry, hentry, rfl⟩ := List.mem_map.mp ha
  cases hfind : table.find? fun other => other.2 = entry.2 with
  | none => exact absurd (List.find?_eq_none.mp hfind _ hentry) (by simp)
  | some other =>
      have hmem := List.mem_of_find?_eq_some hfind
      simp only [wordOf, hfind, Option.map_some, Option.getD_some, isString_text,
        Option.any_some, List.contains_iff_mem]
      exact List.mem_map_of_mem (List.mem_map_of_mem hmem)

theorem any_observationKind (kind : ReplanObservationKind) :
    (wordOf replanObservationKinds kind).isString.any (fun text => (["POST_FIX_MANIFESTATION",
      "SCOPE_EXPANSION_ACCEPTED", "FINDING_EXHAUSTIVENESS"].map js).contains text) = true :=
  any_wordOf (by cases kind <;> simp [replanObservationKinds])

theorem any_scopeExpansionOutcome (outcome : ScopeExpansionOutcome) :
    (wordOf scopeExpansionOutcomes outcome).isString.any
      (fun text => (["ACCEPT", "REJECT"].map js).contains text) = true :=
  any_wordOf (by cases outcome <;> simp [scopeExpansionOutcomes])

theorem any_replanDecisionOutcome (outcome : ReplanDecisionOutcome) :
    (wordOf replanDecisionOutcomes outcome).isString.any
      (fun text => (["APPROVE", "REJECT"].map js).contains text) = true :=
  any_wordOf (by cases outcome <;> simp [replanDecisionOutcomes])

theorem any_replanDispatchOutcome (outcome : ReplanDispatchOutcome) :
    (wordOf replanDispatchOutcomes outcome).isString.any
      (fun text => (["STARTED", "START_FAILED"].map js).contains text) = true :=
  any_wordOf (by cases outcome <;> simp [replanDispatchOutcomes])

theorem lookup_cons_ite {α : Type} {key other : String} {value : α}
    {rest : List (String × α)} :
    ((other, value) :: rest).lookup key = if key = other then some value else rest.lookup key := by
  rw [List.lookup_cons]
  by_cases h : key = other
  · simp [h]
  · rw [beq_false_of_ne h, if_neg h]

/-- The guards on the fields of a record that was written from a key and other fields. -/
theorem scopedRecord_record {key other : AggregateKey} {properties : List (String × JsValue)}
    {keys : List String} (hkeys : ∀ property ∈ properties, property.1 ∈ keys) :
    scopedRecord (record (other.fields ++ properties)) keys key = true ↔ other = key := by
  have hall : (other.fields ++ properties).all
      (fun property => (keyFields ++ keys).contains property.1) = true := by
    rw [List.all_append, Bool.and_eq_true]
    constructor
    · simp [AggregateKey.fields, ReplanGovernanceScope.fields, keyFields]
    · rw [List.all_eq_true]
      intro property hproperty
      simp [hkeys property hproperty]
  rcases key with ⟨⟨⟨projectId, featureId, phaseNumber, reviewGateId⟩, defectClass⟩, aggregateId⟩
  rcases other with ⟨⟨⟨_, _, _, _⟩, _⟩, _⟩
  rw [scopedRecord, hasOnlyKeys_record, hall]
  simp only [hasText, get_record, AggregateKey.fields, ReplanGovernanceScope.fields,
    List.cons_append, List.nil_append, lookup_cons_ite]
  simp [and_assoc]

end Fields

/-! ## Readable records -/

/-- What the rules of a reader accept of what the store has checked. -/
structure ReaderRules.Sound (rules : ReaderRules) : Prop where
  identifier : ∀ id, isKebabIdentifier id = true → rules.identifier id = true
  approved : rules.text (js "APPROVED") = true

section Records

variable (rules : ReaderRules)

def ReplanGovernanceScope.readable (scope : ReplanGovernanceScope) : Bool :=
  rules.identity scope.projectId && rules.identity scope.featureId &&
    rules.identity scope.reviewGateId

def DefectClassObservation.readable (o : DefectClassObservation) : Bool :=
  rules.timestamp o.createdAt

def ReplanRequest.readable (r : ReplanRequest) : Bool :=
  rules.identity r.proposalAuthorActor && rules.identity r.producerInvocationId &&
    rules.timestamp r.requestedAt

def ScopeExpansionDecision.readable (d : ScopeExpansionDecision) : Bool :=
  rules.identity d.actorId && rules.text d.reason && rules.timestamp d.decidedAt

def ReplanDecision.readable (d : ReplanDecision) : Bool :=
  rules.identity d.actorId && rules.text d.reason && rules.timestamp d.decidedAt

def ReplanTransition.readable (t : ReplanTransition) : Bool :=
  rules.reasonCode t.reasonCode && rules.timestamp t.transitionedAt

def ReplanDispatchAttempt.readable (d : ReplanDispatchAttempt) : Bool :=
  d.reasonCode.all rules.reasonCode && rules.runId d.workflowRunId &&
    rules.timestamp d.attemptedAt

def ReplanReviewAssessment.readable (a : ReplanReviewAssessment) : Bool :=
  rules.runId a.reviewRunId && rules.timestamp a.createdAt

end Records

section Sound

variable {rules : ReaderRules} {key : AggregateKey}

theorem ids_of_isAssessmentIds (h : rules.Sound) {maximum : ℕ} {ids : List JsString}
    (hids : isAssessmentIds maximum ids = true) :
    (decide (0 < ids.length) && decide (ids.length ≤ maximum) && ids.all rules.identifier &&
      (!rules.distinctIds || hasUniqueValues ids)) = true := by
  simp only [isAssessmentIds, Bool.and_eq_true, List.all_eq_true] at hids
  obtain ⟨⟨⟨hpositive, hbounded⟩, hkebab⟩, hdistinct⟩ := hids
  simp only [hpositive, hbounded, hdistinct, Bool.or_true, Bool.and_true, Bool.true_and,
    List.all_eq_true]
  exact fun id hid => h.identifier id (hkebab id hid)

theorem observationRecord_toValue (h : rules.Sound) {o : DefectClassObservation}
    (hvalid : ObservationValid o) :
    observationRecord rules o.toValue key = true ↔
      o.toAggregateKey = key ∧ o.readable rules = true := by
  simp only [observationRecord, DefectClassObservation.toValue, Bool.and_eq_true]
  rw [scopedRecord_record (by simp)]
  simp only [hasText, hasWord, get_record, AggregateKey.fields, ReplanGovernanceScope.fields,
    List.cons_append, List.nil_append, lookup_cons_ite, String.reduceEq, if_true, if_false,
    Option.getD_some, any_observationKind]
  simp [DefectClassObservation.readable, h.identifier, hvalid.observationEventId,
    hvalid.triggerManifestHash, hvalid.basisManifestHash]

theorem requestRecord_toValue (h : rules.Sound) {r : ReplanRequest}
    (hvalid : RequestValid r) :
    requestRecord rules r.toValue key = true ↔
      r.toAggregateKey = key ∧ r.readable rules = true := by
  simp only [requestRecord, ReplanRequest.toValue, policyFields, List.append_assoc,
    Bool.and_eq_true]
  rw [scopedRecord_record (by simp)]
  simp only [hasText, hasNatural, hasPolicy, get_record, AggregateKey.fields,
    ReplanGovernanceScope.fields, List.cons_append, List.nil_append, lookup_cons_ite]
  simp [ReplanRequest.readable, h.identifier, hvalid.requestId, hvalid.triggerEventId,
    hvalid.planHash, hvalid.planVersion, isOneOf_text, and_assoc]

theorem scopeDecisionRecord_toValue (h : rules.Sound) {d : ScopeExpansionDecision}
    (hvalid : ScopeDecisionValid d) :
    scopeDecisionRecord rules d.toValue key = true ↔
      d.toAggregateKey = key ∧ d.readable rules = true := by
  simp only [scopeDecisionRecord, ScopeExpansionDecision.toValue, policyFields,
    List.append_assoc, Bool.and_eq_true]
  rw [scopedRecord_record (by simp)]
  simp only [hasText, hasWord, hasPolicy, countedVersions, get_record, AggregateKey.fields,
    ReplanGovernanceScope.fields, List.cons_append, List.nil_append, lookup_cons_ite,
    String.reduceEq, if_true, if_false, Option.getD_some, any_scopeExpansionOutcome]
  simp [ScopeExpansionDecision.readable, h.identifier, hvalid.decisionId,
    hvalid.findingObservationId, hvalid.versions, isOneOf_text, and_assoc]

theorem decisionRecord_toValue (h : rules.Sound) {d : ReplanDecision}
    (hvalid : DecisionValid d) :
    decisionRecord rules d.toValue key = true ↔
      d.toAggregateKey = key ∧ d.readable rules = true := by
  simp only [decisionRecord, ReplanDecision.toValue, policyFields, List.append_assoc,
    Bool.and_eq_true]
  rw [scopedRecord_record (by simp)]
  simp only [hasText, hasNatural, hasWord, hasPolicy, countedVersions, get_record,
    AggregateKey.fields, ReplanGovernanceScope.fields, List.cons_append, List.nil_append,
    lookup_cons_ite, String.reduceEq, if_true, if_false, Option.getD_some,
    any_replanDecisionOutcome]
  simp [ReplanDecision.readable, h.identifier, hvalid.decisionId, hvalid.requestId,
    hvalid.planHash, hvalid.planVersion, hvalid.versions, isOneOf_text, and_assoc]

theorem transitionRecord_toValue (h : rules.Sound) {t : ReplanTransition}
    (hvalid : TransitionValid t) :
    transitionRecord rules t.toValue key = true ↔
      t.toAggregateKey = key ∧ t.readable rules = true := by
  simp only [transitionRecord, ReplanTransition.toValue, Bool.and_eq_true]
  rw [scopedRecord_record (by simp)]
  simp only [hasText, hasOptionalText, countedVersions, get_record, AggregateKey.fields,
    ReplanGovernanceScope.fields, List.cons_append, List.nil_append, lookup_cons_ite]
  simp [ReplanTransition.readable, h.identifier, hvalid.transitionId, hvalid.triggerRecordId,
    hvalid.triggerHash, hvalid.versions, and_assoc]

theorem dispatchRecord_toValue (h : rules.Sound) {d : ReplanDispatchAttempt}
    (hvalid : DispatchValid d) :
    dispatchRecord rules d.toValue key = true ↔
      d.toAggregateKey = key ∧ d.readable rules = true := by
  simp only [dispatchRecord, ReplanDispatchAttempt.toValue, Bool.and_eq_true]
  rw [scopedRecord_record (by simp)]
  simp only [hasText, hasNatural, hasOptionalText, hasWord, get_record, AggregateKey.fields,
    ReplanGovernanceScope.fields, List.cons_append, List.nil_append, lookup_cons_ite,
    String.reduceEq, if_true, if_false, Option.getD_some, any_replanDispatchOutcome]
  simp [ReplanDispatchAttempt.readable, h.identifier, hvalid.attemptEventId, hvalid.dispatchId,
    hvalid.requestId, hvalid.planHash, hvalid.planVersion, hvalid.approvalDecisionId, and_assoc]

theorem assessmentRecord_toValue (h : rules.Sound) {a : ReplanReviewAssessment}
    (hvalid : AssessmentValid a) :
    assessmentRecord rules a.toValue key = true ↔
      a.toAggregateKey = key ∧ a.readable rules = true := by
  simp only [assessmentRecord, ReplanReviewAssessment.toValue, Bool.and_eq_true]
  rw [scopedRecord_record (by simp)]
  simp only [hasText, hasNatural, hasIds, get_record, AggregateKey.fields,
    ReplanGovernanceScope.fields, List.cons_append, List.nil_append, lookup_cons_ite,
    String.reduceEq, if_true, if_false, Option.getD_some, isArrayOf_map_str, Option.any_some,
    ids_of_isAssessmentIds h hvalid.assessedSurfaceIds, ids_of_isAssessmentIds h
    hvalid.assessedRemediationItemIds, ids_of_isAssessmentIds h hvalid.assessedTestIds]
  simp [ReplanReviewAssessment.readable, h.identifier, hvalid.assessmentId, hvalid.dispatchId,
    hvalid.reviewManifestHash, hvalid.planHash, hvalid.planVersion, h.approved, and_assoc]

end Sound

/-! ## Readable aggregates -/

/-- The checks of a reader are what the readable records pass. -/
structure Reader.Reads (reader : Reader) : Prop where
  rules : reader.rules.Sound
  observation : ∀ (o : DefectClassObservation) key, ObservationValid o →
    observationReferences o = true →
    (reader.observation o.toValue key = true ↔
      o.toAggregateKey = key ∧ o.readable reader.rules = true)
  request : reader.request = requestRecord reader.rules
  scopeExpansionDecision : reader.scopeExpansionDecision = scopeDecisionRecord reader.rules
  decision : reader.decision = decisionRecord reader.rules
  transition : reader.transition = transitionRecord reader.rules
  dispatchAttempt : reader.dispatchAttempt = dispatchRecord reader.rules
  reviewAssessment : reader.reviewAssessment = assessmentRecord reader.rules

/-- The transition is in the table of a reader. -/
def ReplanTransition.allowed (table : TransitionTable) (t : ReplanTransition) : Bool :=
  (table t.fromState).contains t.toState

section Chain

variable {table : TransitionTable}

@[simp] theorem get_expectedVersion (t : ReplanTransition) :
    t.toValue.get (js "expectedVersion") = natural t.expectedVersion := by
  simp [ReplanTransition.toValue, get_record, AggregateKey.fields, ReplanGovernanceScope.fields,
    lookup_cons_ite]

@[simp] theorem get_resultingVersion (t : ReplanTransition) :
    t.toValue.get (js "resultingVersion") = natural t.resultingVersion := by
  simp [ReplanTransition.toValue, get_record, AggregateKey.fields, ReplanGovernanceScope.fields,
    lookup_cons_ite]

@[simp] theorem get_fromState (t : ReplanTransition) :
    t.toValue.get (js "fromState") = wordOf replanGovernanceStates t.fromState := by
  simp [ReplanTransition.toValue, get_record, AggregateKey.fields, ReplanGovernanceScope.fields,
    lookup_cons_ite]

@[simp] theorem get_toState (t : ReplanTransition) :
    t.toValue.get (js "toState") = wordOf replanGovernanceStates t.toState := by
  simp [ReplanTransition.toValue, get_record, AggregateKey.fields, ReplanGovernanceScope.fields,
    lookup_cons_ite]

/-- Of transitions that are chained, a reader only finds out whether its table has them. -/
theorem coherentFrom_toValue {version : ℕ} {state : ReplanGovernanceState}
    {transitions : List ReplanTransition}
    (h : ChainedFrom transitionLabels version state transitions) :
    coherentFrom table version state (transitions.map (·.toValue)) =
      transitions.all (·.allowed table) := by
  induction transitions generalizing version state with
  | nil => rfl
  | cons t rest ih =>
      obtain ⟨rfl, hresulting, rfl, hrest⟩ := h
      change t.resultingVersion = t.expectedVersion + 1 at hresulting
      rw [List.map_cons, coherentFrom, List.all_cons, ← ih hrest]
      simp [transitionLabels, hresulting, ReplanTransition.allowed]

theorem coherentTransitionChain_toValue {transitions : List ReplanTransition}
    (h : Chained transitionLabels .normalRemediation transitions) :
    coherentTransitionChain table ((transitions.getLast?.map (·.resultingVersion)).getD 0)
      (current transitionLabels .normalRemediation transitions)
      (transitions.map (·.toValue)) = transitions.all (·.allowed table) := by
  rw [coherentTransitionChain, List.getLast?_map, coherentFrom_toValue h.chainedFrom]
  cases hlast : transitions.getLast? with
  | none =>
      rw [List.getLast?_eq_none_iff] at hlast
      subst hlast
      simp
  | some last => simp [current, hlast, transitionLabels]

end Chain

/-- What is true of the rows of every table. -/
structure RowsValid (db : Database) : Prop where
  observation : ∀ o ∈ db.observations, ObservationValid o ∧ observationReferences o = true
  request : ∀ r ∈ db.requests, RequestValid r
  scopeExpansionDecision : ∀ d ∈ db.scopeExpansionDecisions, ScopeDecisionValid d
  decision : ∀ d ∈ db.decisions, DecisionValid d
  transition : ∀ t ∈ db.transitions, TransitionValid t
  dispatch : ∀ d ∈ db.dispatchAttempts, DispatchValid d
  assessment : ∀ a ∈ db.reviewAssessments, AssessmentValid a

theorem forall_mem_append_toList {ρ : Type} {valid : ρ → Prop} {rows : List ρ} {row : Option ρ}
    (hrows : ∀ x ∈ rows, valid x) (hrow : ∀ x ∈ row, valid x) :
    ∀ x ∈ rows ++ row.toList, valid x := by
  intro x hx
  rcases List.mem_append.mp hx with hx | hx
  · exact hrows x hx
  · exact hrow x (Option.mem_toList.mp hx)

theorem run_rowsValid (calls : List Commit) : RowsValid (run calls) := by
  refine run_induction ?_ (fun db key r hchecked _ h => ?_) calls
  · constructor <;> exact fun _ hmem => absurd hmem List.not_mem_nil
  · exact
      { observation := forall_mem_append_toList h.observation fun o ho =>
          (hchecked.observation o ho).2
        request := forall_mem_append_toList h.request fun q hq => (hchecked.request q hq).2
        scopeExpansionDecision := forall_mem_append_toList h.scopeExpansionDecision fun d hd =>
          (hchecked.scopeExpansionDecision d hd).2.1
        decision := forall_mem_append_toList h.decision fun d hd => (hchecked.decision d hd).2.1
        transition := forall_mem_append_toList h.transition fun t ht =>
          (hchecked.transition t ht).2.1
        dispatch := forall_mem_append_toList h.dispatch fun d hd => (hchecked.dispatch d hd).2
        assessment := forall_mem_append_toList h.assessment fun a ha =>
          (hchecked.assessment a ha).2 }

/-- The texts of an aggregate follow the rules of a reader, and its transitions the table. -/
def ReplanGovernanceAggregate.readable (reader : Reader) (aggregate : ReplanGovernanceAggregate) :
    Bool :=
  aggregate.scope.readable reader.rules &&
    aggregate.observations.all (·.readable reader.rules) &&
    aggregate.requests.all (·.readable reader.rules) &&
    aggregate.scopeExpansionDecisions.all (·.readable reader.rules) &&
    aggregate.decisions.all (·.readable reader.rules) &&
    aggregate.transitions.all (·.readable reader.rules) &&
    aggregate.dispatchAttempts.all (·.readable reader.rules) &&
    aggregate.reviewAssessments.all (·.readable reader.rules) &&
    aggregate.transitions.all (·.allowed reader.allowedTransitions)

section Aggregate

variable {reader : Reader} {db : Database} {key : AggregateKey}

theorem scope_fields {scope : ReplanGovernanceScope}
    (hdefect : reader.rules.identifier scope.defectClass = true) :
    reader.scope (record scope.fields) =
      if scope.readable reader.rules then some scope else none := by
  simp only [Reader.scope, hasOnlyKeys_record, get_record, ReplanGovernanceScope.fields,
    lookup_cons_ite, String.reduceEq, if_true, if_false, Option.getD_some, isString_str,
    isNatural_natural, Option.filter_some, hdefect, ReplanGovernanceScope.readable]
  by_cases hproject : reader.rules.identity scope.projectId = true
  · by_cases hfeature : reader.rules.identity scope.featureId = true
    · by_cases hgate : reader.rules.identity scope.reviewGateId = true <;>
        simp [hproject, hfeature, hgate]
    · simp [hproject, hfeature]
  · simp [hproject]

/-- A reader's checks of an aggregate, once it has read the scope. -/
theorem validAggregate_of_scope {aggregate : ReplanGovernanceAggregate}
    (hid : reader.rules.identifier aggregate.aggregateId = true)
    (hscope : reader.scope (record aggregate.scope.fields) = some aggregate.scope) :
    reader.validAggregate aggregate.toValue =
      (decide (aggregate.size ≤ Reader.maxRecords) &&
        ((aggregate.observations.map (·.toValue)).all
            (reader.observation · aggregate.toAggregateKey) &&
          (aggregate.requests.map (·.toValue)).all (reader.request · aggregate.toAggregateKey) &&
          (aggregate.scopeExpansionDecisions.map (·.toValue)).all
            (reader.scopeExpansionDecision · aggregate.toAggregateKey) &&
          (aggregate.decisions.map (·.toValue)).all
            (reader.decision · aggregate.toAggregateKey) &&
          (aggregate.transitions.map (·.toValue)).all
            (reader.transition · aggregate.toAggregateKey) &&
          (aggregate.dispatchAttempts.map (·.toValue)).all
            (reader.dispatchAttempt · aggregate.toAggregateKey) &&
          (aggregate.reviewAssessments.map (·.toValue)).all
            (reader.reviewAssessment · aggregate.toAggregateKey)) &&
        coherentTransitionChain reader.allowedTransitions aggregate.eventVersion aggregate.state
          (aggregate.transitions.map (·.toValue))) := by
  simp only [Reader.validAggregate, ReplanGovernanceAggregate.toValue, hasOnlyKeys_record,
    get_record, lookup_cons_ite, String.reduceEq, if_true, if_false, Option.getD_some,
    isString_str, isNatural_natural, isOneOf_state, isArray_arr, Option.filter_some, hscope, hid,
    isRecord_record, Option.bind_eq_bind, Option.bind_some, List.length_map]
  rw [Bool.eq_iff_iff, Option.isSome_iff_exists, ReplanGovernanceAggregate.size]
  simp [Option.bind_eq_some_iff, Option.guard_eq_some', and_assoc]

theorem validAggregate_of_no_scope {aggregate : ReplanGovernanceAggregate}
    (hscope : reader.scope (record aggregate.scope.fields) = none) :
    reader.validAggregate aggregate.toValue = false := by
  simp [Reader.validAggregate, ReplanGovernanceAggregate.toValue, get_record, lookup_cons_ite,
    hscope]

/-- The rows of an aggregate pass a check when they are readable. -/
theorem all_toValue {ρ : Type} {toValue : ρ → JsValue} {readable : ρ → Bool}
    {keyOf : ρ → AggregateKey} {check : JsValue → AggregateKey → Bool} {table : List ρ}
    (rows : List ρ) (hrows : ∀ x ∈ rows, x ∈ table ∧ keyOf x = key)
    (hcheck : ∀ x ∈ table, check (toValue x) key = true ↔ keyOf x = key ∧ readable x = true) :
    (rows.map toValue).all (check · key) = rows.all readable := by
  rw [List.all_map, Bool.eq_iff_iff, List.all_eq_true, List.all_eq_true]
  refine forall₂_congr fun x hx => ?_
  obtain ⟨htable, hkey⟩ := hrows x hx
  rw [Function.comp_apply, hcheck x htable]
  exact and_iff_right hkey

theorem VersionsChained.chain_getAggregate (h : VersionsChained db) {table : TransitionTable} :
    coherentTransitionChain table (db.getAggregate key).eventVersion (db.getAggregate key).state
      ((db.getAggregate key).transitions.map (·.toValue)) =
        (db.getAggregate key).transitions.all (·.allowed table) := by
  have hchained := h key
  rw [← h.transitionsOf] at hchained
  exact coherentTransitionChain_toValue hchained

/-- **What a reader makes of an aggregate.** -/
theorem validAggregate_toValue (h : reader.Reads) (hrows : RowsValid db)
    (hchained : VersionsChained db) (hkey : KeyValid key) :
    reader.validAggregate (db.getAggregate key).toValue =
      (decide ((db.getAggregate key).size ≤ Reader.maxRecords) &&
        (db.getAggregate key).readable reader) := by
  have hread : reader.scope (record (db.getAggregate key).scope.fields) =
      if key.scope.readable reader.rules then some key.scope else none :=
    scope_fields (h.rules.identifier _ hkey.defectClass)
  by_cases hreadable : key.scope.readable reader.rules = true
  · rw [if_pos hreadable] at hread
    have hobservations := all_toValue (db.getAggregate key).observations
      (fun o ho => by simpa [Database.getAggregate] using ho) fun o ho =>
        h.observation o key (hrows.observation o ho).1 (hrows.observation o ho).2
    have hrequests := all_toValue (db.getAggregate key).requests
      (fun r hr => by simpa [Database.getAggregate] using hr) fun r hr =>
        requestRecord_toValue h.rules (hrows.request r hr)
    have hscopeExpansionDecisions := all_toValue (db.getAggregate key).scopeExpansionDecisions
      (fun d hd => by simpa [Database.getAggregate] using hd) fun d hd =>
        scopeDecisionRecord_toValue h.rules (hrows.scopeExpansionDecision d hd)
    have hdecisions := all_toValue (db.getAggregate key).decisions
      (fun d hd => by simpa [Database.getAggregate] using hd) fun d hd =>
        decisionRecord_toValue h.rules (hrows.decision d hd)
    have htransitions := all_toValue (db.getAggregate key).transitions
      (fun t ht => by simpa [Database.getAggregate, Database.transitionsOf] using ht) fun t ht =>
        transitionRecord_toValue h.rules (hrows.transition t ht)
    have hdispatchAttempts := all_toValue (db.getAggregate key).dispatchAttempts
      (fun d hd => by simpa [Database.getAggregate] using hd) fun d hd =>
        dispatchRecord_toValue h.rules (hrows.dispatch d hd)
    have hreviewAssessments := all_toValue (db.getAggregate key).reviewAssessments
      (fun a ha => by simpa [Database.getAggregate] using ha) fun a ha =>
        assessmentRecord_toValue h.rules (hrows.assessment a ha)
    have hscope : (db.getAggregate key).scope.readable reader.rules = true := hreadable
    rw [validAggregate_of_scope (h.rules.identifier _ hkey.aggregateId) hread, h.request,
      h.scopeExpansionDecision, h.decision, h.transition, h.dispatchAttempt, h.reviewAssessment,
      show (db.getAggregate key).toAggregateKey = key from rfl, hobservations, hrequests,
      hscopeExpansionDecisions, hdecisions, htransitions, hdispatchAttempts, hreviewAssessments,
      hchained.chain_getAggregate, ReplanGovernanceAggregate.readable, hscope]
    simp only [Bool.true_and, Bool.and_assoc]
  · rw [if_neg hreadable] at hread
    rw [validAggregate_of_no_scope hread]
    simp [ReplanGovernanceAggregate.readable, Database.getAggregate, hreadable]

end Aggregate

/-! ## The two readers -/

theorem Policy.safeText_approved : Policy.safeText (js "APPROVED") = true := by
  decide

theorem Presentation.safeText_approved : Presentation.safeText 4096 (js "APPROVED") = true := by
  decide

theorem Policy.rules_sound : Policy.rules.Sound where
  identifier := by
    intro id hid
    simp only [isKebabIdentifier, isKebabText, Bool.and_eq_true, decide_eq_true_eq] at hid
    simp [Policy.rules, Policy.identifier, hid]
  approved := by rw [show Policy.rules.text = Policy.safeText from rfl, Policy.safeText_approved]

theorem Presentation.rules_sound : Presentation.rules.Sound where
  identifier := by
    intro id hid
    simp only [isKebabIdentifier, isKebabText, Bool.and_eq_true] at hid
    exact hid.2
  approved := by
    rw [show Presentation.rules.text = Presentation.safeText 4096 from rfl,
      Presentation.safeText_approved]

/-- The policy also checks what an observation of each kind refers to. -/
theorem Policy.isObservationRecord_toValue {key : AggregateKey} {o : DefectClassObservation}
    (hvalid : ObservationValid o) (hreferences : observationReferences o = true) :
    Policy.isObservationRecord o.toValue key = true ↔
      o.toAggregateKey = key ∧ o.readable Policy.rules = true := by
  have hids : ∀ {id : Option JsString}, id.all isKebabIdentifier = true →
      id.all Policy.identifier = true := by
    intro id hid
    cases id with
    | none => rfl
    | some id => exact Policy.rules_sound.identifier id hid
  rw [Policy.isObservationRecord, ← observationRecord_toValue Policy.rules_sound hvalid]
  simp [hasOptionalText, DefectClassObservation.toValue, get_record, AggregateKey.fields,
    ReplanGovernanceScope.fields, lookup_cons_ite, hids hvalid.findingObservationId,
    hids hvalid.remediationCycleId, hids hvalid.decisionId]
  intro _
  cases hkind : o.observationKind <;> simp_all [observationReferences]

theorem Policy.reader_reads : Policy.reader.Reads where
  rules := Policy.rules_sound
  observation _ _ := Policy.isObservationRecord_toValue
  request := rfl
  scopeExpansionDecision := rfl
  decision := rfl
  transition := rfl
  dispatchAttempt := rfl
  reviewAssessment := rfl

theorem Presentation.reader_reads : Presentation.reader.Reads where
  rules := Presentation.rules_sound
  observation _ _ hvalid _ := by
    rw [show Presentation.reader.observation = observationRecord Presentation.reader.rules from rfl]
    exact observationRecord_toValue Presentation.rules_sound hvalid
  request := rfl
  scopeExpansionDecision := rfl
  decision := rfl
  transition := rfl
  dispatchAttempt := rfl
  reviewAssessment := rfl

/-! ## Reachable aggregates -/

theorem getAggregate_some {db : Database} {rawScope rawAggregateId : JsValue}
    {aggregate : ReplanGovernanceAggregate}
    (h : getAggregate db rawScope rawAggregateId = some aggregate) :
    ∃ key, KeyValid key ∧ aggregate = db.getAggregate key := by
  simp only [getAggregate, readScope, decodeScope, Option.bind_eq_bind,
    Option.bind_eq_some_iff] at h
  obtain ⟨scope, ⟨_, -, projectId, hproject, featureId, hfeature, gateId, hgate, phase, -, defect,
    hdefect, hscope⟩, aggregateId, haggregate, heq⟩ := h
  cases hscope
  cases heq
  exact ⟨_, ⟨safeIdentifier_some hproject, safeIdentifier_some hfeature, safeIdentifier_some hgate,
    kebabIdentifier_some hdefect, kebabIdentifier_some haggregate⟩, rfl⟩

/-- The texts of the records of an operation follow the rules of a reader, and
its transition the table. -/
def OperationRecords.readable (reader : Reader) (r : OperationRecords) : Bool :=
  r.observation.all (·.readable reader.rules) && r.request.all (·.readable reader.rules) &&
    r.scopeExpansionDecision.all (·.readable reader.rules) &&
    r.decision.all (·.readable reader.rules) && r.transition.all (·.readable reader.rules) &&
    r.dispatch.all (·.readable reader.rules) && r.assessment.all (·.readable reader.rules) &&
    r.transition.all (·.allowed reader.allowedTransitions)

/-- The rows of an aggregate are what the accepted commits to it have written. -/
theorem all_rows_iff {ρ : Type} (table : Database → List ρ) (record : OperationRecords → Option ρ)
    (hempty : table .empty = [])
    (happend : ∀ db r, table (Database.append db r) = table db ++ (record r).toList)
    {keyOf : ρ → AggregateKey}
    (hkeyOf : ∀ db key r, Appended db key r → ∀ x, record r = some x → keyOf x = key)
    {order : ρ → ρ → Prop} [DecidableRel order] (readable : ρ → Bool) (calls : List Commit)
    (key : AggregateKey) :
    (((table (run calls)).filter fun x => keyOf x = key).insertionSort order).all readable = true ↔
      ∀ earlier call operation r, earlier ++ [call] <+: calls →
        Accepted earlier call operation r → operation.key = key →
          (record r).all readable = true := by
  simp only [List.all_eq_true, List.mem_insertionSort, List.mem_filter, decide_eq_true_eq,
    and_imp, mem_run_iff table record hempty happend]
  constructor
  · intro h earlier call operation r hearlier haccepted hkey
    cases hrecord : record r with
    | none => rfl
    | some x =>
        exact h x ⟨earlier, call, operation, r, hearlier, haccepted, hrecord⟩
          ((hkeyOf _ _ r haccepted.appended x hrecord).trans hkey)
  · rintro h x ⟨earlier, call, operation, r, hearlier, haccepted, hrecord⟩ hkey
    have hsame := hkeyOf _ _ r haccepted.appended x hrecord
    have hread := h earlier call operation r hearlier haccepted (hsame.symm.trans hkey)
    rwa [hrecord] at hread

theorem readable_getAggregate_iff (reader : Reader) (calls : List Commit) (key : AggregateKey) :
    ((run calls).getAggregate key).readable reader = true ↔
      key.scope.readable reader.rules = true ∧ ∀ earlier call operation r,
        earlier ++ [call] <+: calls → Accepted earlier call operation r → operation.key = key →
          r.readable reader = true := by
  simp only [ReplanGovernanceAggregate.readable, Database.getAggregate, Database.transitionsOf,
    OperationRecords.readable, Bool.and_eq_true, imp_and, forall_and]
  rw [all_rows_iff (·.observations) (·.observation) rfl (fun _ _ => rfl)
      fun _ _ _ h o ho => (h.observation o ho).1,
    all_rows_iff (·.requests) (·.request) rfl (fun _ _ => rfl) fun _ _ _ h r hr =>
      (h.request r hr).1,
    all_rows_iff (·.scopeExpansionDecisions) (·.scopeExpansionDecision) rfl (fun _ _ => rfl)
      fun _ _ _ h d hd => (h.scopeExpansionDecision d hd).1,
    all_rows_iff (·.decisions) (·.decision) rfl (fun _ _ => rfl) fun _ _ _ h d hd =>
      (h.decision d hd).1,
    all_rows_iff (·.transitions) (·.transition) rfl (fun _ _ => rfl) fun _ _ _ h t ht =>
      (h.transition t ht).1,
    all_rows_iff (·.dispatchAttempts) (·.dispatch) rfl (fun _ _ => rfl) fun _ _ _ h d hd =>
      (h.dispatch d hd).1,
    all_rows_iff (·.reviewAssessments) (·.assessment) rfl (fun _ _ => rfl) fun _ _ _ h a ha =>
      (h.assessment a ha).1,
    all_rows_iff (·.transitions) (·.transition) rfl (fun _ _ => rfl) fun _ _ _ h t ht =>
      (h.transition t ht).1]
  simp only [and_assoc]

/-- **When the readers can read what the store has accepted.**  In every
reachable state both readers accept an aggregate of at most `maxRecords`
records if and only if its scope and all the accepted operations on it are
readable. -/
theorem validAggregate_iff_readable (calls : List Commit) {rawScope rawAggregateId : JsValue}
    {aggregate : ReplanGovernanceAggregate}
    (haggregate : getAggregate (run calls) rawScope rawAggregateId = some aggregate)
    (hsize : aggregate.size ≤ Reader.maxRecords) :
    (Policy.validateAggregate aggregate.toValue = true ∧
        Presentation.validAggregate aggregate.toValue = true) ↔
      ∀ reader ∈ [Policy.reader, Presentation.reader],
        aggregate.scope.readable reader.rules = true ∧ ∀ earlier call operation r,
          earlier ++ [call] <+: calls → Accepted earlier call operation r →
            operation.key = aggregate.toAggregateKey → r.readable reader = true := by
  obtain ⟨key, hkey, rfl⟩ := getAggregate_some haggregate
  have hreader : ∀ {reader : Reader}, reader.Reads →
      (reader.validAggregate ((run calls).getAggregate key).toValue = true ↔
        key.scope.readable reader.rules = true ∧ ∀ earlier call operation r,
          earlier ++ [call] <+: calls → Accepted earlier call operation r → operation.key = key →
            r.readable reader = true) := by
    intro reader hreads
    rw [validAggregate_toValue hreads (run_rowsValid calls) (run_chained calls) hkey,
      decide_eq_true hsize, Bool.true_and, readable_getAggregate_iff]
  rw [Policy.validateAggregate, Presentation.validAggregate, hreader Policy.reader_reads,
    hreader Presentation.reader_reads, List.forall_mem_cons, List.forall_mem_singleton]
  rfl

/-! ### One observation -/

def exampleScope : ReplanGovernanceScope where
  projectId := js "project"
  featureId := js "feature"
  phaseNumber := 1
  reviewGateId := js "gate"
  defectClass := js "defect"

def exampleKey : AggregateKey where
  scope := exampleScope
  aggregateId := js "aggregate"

/-- A client that appends one observation, made at the given time. -/
def observationAt (createdAt : String) : Commit where
  review :=
    { artifact := fun _ => some (.reviewManifest, exampleScope.toReviewScope)
      cycle := fun _ => some exampleScope.toReviewScope
      findingObservation := fun _ => none
      runOfManifest := fun _ => none }
  verifyReadBack := none
  begins := true
  ends := true
  rawInput := record [("kind", text "OBSERVATION"), ("records", record [("observation",
    record (exampleKey.fields ++ [("observationEventId", text "event"),
      ("observationKind", text "POST_FIX_MANIFESTATION"),
      ("triggerManifestHash", str (List.replicate 64 0x61)),
      ("basisManifestHash", str (List.replicate 64 0x61)), ("remediationCycleId", text "cycle"),
      ("createdAt", text createdAt)]))])]

/-- The aggregate after the observation. -/
def observedAt (createdAt : String) : ReplanGovernanceAggregate :=
  (run [observationAt createdAt]).getAggregate exampleKey

/-- An observation made at a time with milliseconds is readable. -/
theorem validAggregate_iff_readable_observedAt :
    (Policy.validateAggregate (observedAt "2026-01-01T00:00:00.000Z").toValue = true ∧
        Presentation.validAggregate (observedAt "2026-01-01T00:00:00.000Z").toValue = true) ∧
      ∀ reader ∈ [Policy.reader, Presentation.reader],
        exampleScope.readable reader.rules = true ∧ ∀ earlier call operation r,
          earlier ++ [call] <+: [observationAt "2026-01-01T00:00:00.000Z"] →
            Accepted earlier call operation r → operation.key = exampleKey →
              r.readable reader = true := by
  have haccepted :
      Policy.validateAggregate (observedAt "2026-01-01T00:00:00.000Z").toValue = true ∧
        Presentation.validAggregate (observedAt "2026-01-01T00:00:00.000Z").toValue = true :=
    ⟨by decide, by decide⟩
  exact ⟨haccepted, (@validAggregate_iff_readable [observationAt "2026-01-01T00:00:00.000Z"]
    (record exampleScope.fields) (text "aggregate") (observedAt "2026-01-01T00:00:00.000Z")
    (by decide) (by decide)).mp haccepted⟩

/-- The store accepts an observation made at a whole second, which the
presentation does not read. -/
theorem observation_unreadable :
    ¬ ∀ calls : List Commit, (∀ call ∈ calls, call.verifyReadBack = none) →
      ∀ rawScope rawAggregateId aggregate,
        getAggregate (run calls) rawScope rawAggregateId = some aggregate →
          aggregate.size ≤ Reader.maxRecords →
            Policy.validateAggregate aggregate.toValue = true ∧
              Presentation.validAggregate aggregate.toValue = true := by
  intro h
  have hboth := h [observationAt "2026-01-01T00:00:00Z"] (by simp [observationAt])
    (record exampleScope.fields) (text "aggregate") (observedAt "2026-01-01T00:00:00Z")
    (by decide) (by decide)
  have hrefused : Presentation.validAggregate (observedAt "2026-01-01T00:00:00Z").toValue =
      false := by
    decide
  rw [hrefused] at hboth
  exact absurd hboth.2 (by decide)

end Hepha.Replan
