import Hepha.Runtime.Store

/-!
# What a call can do

Every operation of the store either leaves the database as it is or makes one
of six changes.  `Effect` lists them with everything the operation has checked
when it makes the change; `Call.effect` says that no call does anything else.
What holds of the store's runs is proved from `Effect` alone.
-/

namespace Hepha.Runtime

open Database

variable {db : Database}

/-! ## Successful reads -/

theorem sameRoute_iff {left right : RouteIdentity} :
    sameRoute left right = true ↔ left = right := by
  cases left
  cases right
  simp [sameRoute]

/-- What reading a receipt has established. -/
structure ReceiptRead (db : Database) (id : JsString) (allowPendingPrimary : Bool)
    (c : RuntimeInvocationReceipt) : Prop where
  mem : c ∈ db.chains
  key : c.invocationId = id.toWellFormed
  valid : receiptValid c = true
  attempts : c.attemptIds = (db.attemptRows id).map (·.attemptId) ∨
    allowPendingPrimary = true ∧ c.attemptIds.length = 1 ∧ db.attemptRows id = []
  events : c.routeChangeEventIds = (db.eventRows id).map (·.eventId)

theorem readReceipt_some {id : JsString} {allow : Bool} {c : RuntimeInvocationReceipt}
    (h : db.readReceipt id allow = some (some c)) : ReceiptRead db id allow c := by
  unfold readReceipt at h
  cases hfind : Table.find RuntimeInvocationReceipt.invocationId db.chains id.toWellFormed with
  | none => simp [hfind] at h
  | some row =>
      simp only [hfind] at h
      split_ifs at h with hids hvalid
      obtain rfl : row = c := by simpa using h
      obtain ⟨hmem, hkey⟩ := Table.mem_of_find hfind
      simp only [Bool.or_eq_true, Bool.and_eq_true, Bool.not_eq_true', bne_iff_ne, ne_eq, not_or,
        not_and, not_not] at hids
      refine ⟨hmem, hkey, hvalid, ?_, hids.2⟩
      by_cases hpending : (allow && row.attemptIds.length == 1 &&
          ((db.attemptRows id).map (·.attemptId)).length == 0) = true
      · simp only [Bool.and_eq_true, beq_iff_eq, List.length_map, List.length_eq_zero_iff]
          at hpending
        exact Or.inr ⟨hpending.1.1, hpending.1.2, hpending.2⟩
      · exact Or.inl (hids.1 (by simpa using hpending))

theorem readReceipt_none {id : JsString} {allow : Bool}
    (h : db.readReceipt id allow = some none) :
    ∀ c ∈ db.chains, c.invocationId ≠ id.toWellFormed := by
  unfold readReceipt at h
  cases hfind : Table.find RuntimeInvocationReceipt.invocationId db.chains id.toWellFormed with
  | none => exact Table.find_eq_none_iff.1 hfind
  | some row =>
      simp only [hfind] at h
      split_ifs at h
      simp at h

theorem readAttempt_some {id : JsString} {a : RuntimeAttempt}
    (h : db.readAttempt id = some (some a)) :
    a ∈ db.attempts ∧ a.attemptId = id.toWellFormed ∧ attemptValid a = true := by
  unfold readAttempt at h
  cases hfind : Table.find RuntimeAttempt.attemptId db.attempts id.toWellFormed with
  | none => simp [hfind] at h
  | some row =>
      simp only [hfind] at h
      split_ifs at h with hvalid
      obtain rfl : row = a := by simpa using h
      exact ⟨(Table.mem_of_find hfind).1, (Table.mem_of_find hfind).2, hvalid⟩

theorem readEvent_some {id : JsString} {e : RuntimeRouteChangeEvent}
    (h : db.readEvent id = some (some e)) :
    e ∈ db.events ∧ e.eventId = id.toWellFormed ∧ eventValid e = true := by
  unfold readEvent at h
  cases hfind : Table.find RuntimeRouteChangeEvent.eventId db.events id.toWellFormed with
  | none => simp [hfind] at h
  | some row =>
      simp only [hfind] at h
      split_ifs at h with hvalid
      obtain rfl : row = e := by simpa using h
      exact ⟨(Table.mem_of_find hfind).1, (Table.mem_of_find hfind).2, hvalid⟩

theorem readAttempts_some {id : JsString} {attempts : List RuntimeAttempt}
    (h : db.readAttempts id = some attempts) : attempts = db.attemptRows id := by
  unfold readAttempts at h
  split_ifs at h
  exact (Option.some.inj h).symm

theorem readEvents_some {id : JsString} {events : List RuntimeRouteChangeEvent}
    (h : db.readEvents id = some events) : events = db.eventRows id := by
  unfold readEvents at h
  split_ifs at h
  exact (Option.some.inj h).symm

/-! ## Guards on requests -/

theorem isRuntimeAttempt_valid {raw : JsValue} {a : RuntimeAttempt}
    (h : isRuntimeAttempt raw = some a) : attemptValid a = true :=
  (Option.filter_eq_some_iff.mp h).2

theorem isRuntimeRouteChangeEvent_valid {raw : JsValue} {e : RuntimeRouteChangeEvent}
    (h : isRuntimeRouteChangeEvent raw = some e) : eventValid e = true :=
  (Option.filter_eq_some_iff.mp h).2

theorem isRuntimeInvocationReceipt_valid {raw : JsValue} {r : RuntimeInvocationReceipt}
    (h : isRuntimeInvocationReceipt raw = some r) : receiptValid r = true :=
  (Option.filter_eq_some_iff.mp h).2

/-- What the guard of an opening request establishes of its receipt. -/
structure OpenReceipt (r : RuntimeInvocationReceipt) : Prop where
  valid : receiptValid r = true
  running : r.status = .running
  oneAttempt : r.attemptIds.length = 1
  noEvent : r.routeChangeEventIds = []

theorem isRuntimeInvocationOpen_receipt {raw : JsValue} {input : RuntimeInvocationOpen}
    (h : isRuntimeInvocationOpen raw = some input) : OpenReceipt input.receipt := by
  simp only [isRuntimeInvocationOpen, Option.bind_eq_bind, Option.bind_eq_some_iff] at h
  obtain ⟨_, _, _, _, plan, _, receipt, hreceipt, _, hopen, heq⟩ := h
  simp only [Option.guard_eq_some', Bool.and_eq_true, beq_iff_eq, List.length_eq_zero_iff] at hopen
  cases heq
  exact ⟨isRuntimeInvocationReceipt_valid hreceipt, hopen.1.1.2, hopen.1.2, hopen.2⟩

theorem isNullable_some {α : Type*} {guard : JsValue → Option α} {value : JsValue} {x : α}
    (h : JsValue.isNullable guard value = some (some x)) : guard value = some x := by
  unfold JsValue.isNullable at h
  split at h
  · simp at h
  · simpa using h

theorem isRuntimeAttemptStart_valid {raw : JsValue} {input : RuntimeAttemptStart}
    (h : isRuntimeAttemptStart raw = some input) :
    attemptValid input.attempt = true ∧ attemptStartValid input = true ∧
      ∀ e, input.routeChangeEvent = some e → eventValid e = true := by
  simp only [isRuntimeAttemptStart, Option.bind_eq_bind, Option.bind_eq_some_iff] at h
  obtain ⟨_, _, _, _, attempt, hattempt, event, hevent, _, hstart, heq⟩ := h
  cases heq
  refine ⟨isRuntimeAttempt_valid hattempt, by simpa [Option.guard_eq_some'] using hstart, ?_⟩
  rintro e rfl
  exact isRuntimeRouteChangeEvent_valid (isNullable_some hevent)

/-! ## Effects -/

/-- A chain has been opened. -/
structure Opened (db : Database) (r : RuntimeInvocationReceipt) : Prop extends OpenReceipt r where
  fresh : ∀ c ∈ db.chains, c.invocationId ≠ r.stored.invocationId
  kind : kindCoherent r.stored = true

/-- The row of a new attempt meets the constraints of its table. -/
structure NewAttempt (db : Database) (a : RuntimeAttempt) : Prop where
  valid : attemptValid a = true
  preparing : a.status = .preparing
  fresh : ∀ b ∈ db.attempts, b.attemptId ≠ a.stored.attemptId
  free : ∀ b ∈ db.attempts, b.invocationId = a.stored.invocationId →
    b.attemptIndex ≠ a.stored.attemptIndex

/-- The first attempt of chain `c` has been started. -/
structure PrimaryStarted (db : Database) (c : RuntimeInvocationReceipt) (a : RuntimeAttempt) :
    Prop extends NewAttempt db a where
  read : ReceiptRead db a.invocationId true c
  index : a.attemptIndex = 0
  listed : c.attemptIds.head? = some a.attemptId
  route : a.approvedRoute = c.approvedPrimaryRoute
  after : c.openedAt ≤ a.preparationStartedAt

/-- The second attempt of chain `c` has been started, after its attempt `p`. -/
structure SecondStarted (db : Database) (c : RuntimeInvocationReceipt) (p a : RuntimeAttempt)
    (e : RuntimeRouteChangeEvent) : Prop extends NewAttempt db a where
  read : ReceiptRead db a.invocationId true c
  index : a.attemptIndex ≠ 0
  after : c.openedAt ≤ a.preparationStartedAt
  primary : p ∈ db.attempts
  primaryListed : ∃ id, c.attemptIds.head? = some id ∧ p.attemptId = id.toWellFormed
  handover : validSameChainAttemptStart c p a e = true
  eventValid : eventValid e = true
  eventFresh : ∀ f ∈ db.events,
    f.eventId ≠ e.stored.eventId ∧ f.invocationId ≠ e.stored.invocationId

/-- An attempt's row has been replaced by a later state of the attempt. -/
structure Advanced (db : Database) (before after : RuntimeAttempt) : Prop where
  mem : before ∈ db.attempts
  key : before.attemptId = after.attemptId.toWellFormed
  valid : attemptValid after = true
  step : spawnTransition before after = true ∨ workTransition before after = true ∨
    checkpointTransition before after = true ∨ settleTransition before after = true

/-- An event's result has been set to the outcome of its target. -/
structure Resolved (db : Database) (e : RuntimeRouteChangeEvent)
    (result : RuntimeRouteChangeResult) : Prop where
  mem : e ∈ db.events
  started : e.result = .started
  done : result ≠ .started
  target : ∃ a ∈ db.attempts, a.attemptId = e.targetAttemptId.toWellFormed ∧
    resultMatchesTarget result (some a) = true

/-- A chain has been settled. -/
structure Settled (db : Database) (c r : RuntimeInvocationReceipt) : Prop where
  read : ReceiptRead db r.invocationId false c
  valid : receiptValid r = true
  running : c.status = .running
  done : r.status ≠ .running
  facts : sameOpenFacts c r = true
  attemptIds : c.attemptIds = r.attemptIds
  eventIds : c.routeChangeEventIds = r.routeChangeEventIds
  settlement : settlementMatches r (db.attemptRows r.invocationId)
    (db.eventRows r.invocationId) = true

inductive Effect (db : Database) : Database → Prop
  | unchanged : Effect db db
  | opened (r : RuntimeInvocationReceipt) (h : Opened db r) :
      Effect db { db with chains := db.chains ++ [r.stored] }
  | primaryStarted (c : RuntimeInvocationReceipt) (a : RuntimeAttempt)
      (h : PrimaryStarted db c a) :
      Effect db { db with attempts := db.attempts ++ [a.stored] }
  | secondStarted (c : RuntimeInvocationReceipt) (p a : RuntimeAttempt)
      (e : RuntimeRouteChangeEvent) (h : SecondStarted db c p a e) :
      Effect db (({ db with
        attempts := db.attempts ++ [a.stored]
        events := db.events ++ [e.stored] } : Database).updateChainIds c.invocationId
          (c.attemptIds ++ [a.attemptId]) [e.eventId])
  | advanced (before after : RuntimeAttempt) (h : Advanced db before after) :
      Effect db { db with
        attempts := Table.update RuntimeAttempt.attemptId db.attempts before.attemptId
          fun _ => after.stored }
  | resolved (e : RuntimeRouteChangeEvent) (result : RuntimeRouteChangeResult)
      (h : Resolved db e result) :
      Effect db { db with
        events := Table.update RuntimeRouteChangeEvent.eventId db.events e.eventId
          fun e => { e with result } }
  | settled (c r : RuntimeInvocationReceipt) (h : Settled db c r) :
      Effect db (db.updateChainSettlement r)

theorem catchConflict_effect {α : Type} {body : Option (Outcome α)}
    (h : ∀ outcome, body = some outcome → Effect db outcome.1) :
    Effect db (catchConflict db body).1 := by
  cases hbody : body with
  | none => exact .unchanged
  | some outcome => exact h outcome hbody

theorem hasChain_eq_false {id : JsString} :
    db.hasChain id = false ↔ ∀ c ∈ db.chains, c.invocationId ≠ id := by
  simp [hasChain]

theorem hasAttempt_eq_false {id : JsString} :
    db.hasAttempt id = false ↔ ∀ a ∈ db.attempts, a.attemptId ≠ id := by
  simp [hasAttempt]

theorem insertChain_some {r : RuntimeInvocationReceipt} {after : Database}
    (h : db.insertChain r = some after) :
    (∀ c ∈ db.chains, c.invocationId ≠ r.stored.invocationId) ∧ kindCoherent r.stored = true ∧
      after = { db with chains := db.chains ++ [r.stored] } := by
  simp only [insertChain, Option.bind_eq_bind, Option.bind_eq_some_iff, Option.guard_eq_some',
    Bool.not_eq_true', hasChain_eq_false] at h
  obtain ⟨_, hfresh, _, _, _, _, _, hkind, _, _, heq⟩ := h
  exact ⟨hfresh, hkind, (Option.some.inj heq).symm⟩

theorem insertAttempt_some {a : RuntimeAttempt} {after : Database}
    (h : db.insertAttempt a = some after) :
    (∀ b ∈ db.attempts, b.attemptId ≠ a.stored.attemptId) ∧
      (∀ b ∈ db.attempts, b.invocationId = a.stored.invocationId →
        b.attemptIndex ≠ a.stored.attemptIndex) ∧
      after = { db with attempts := db.attempts ++ [a.stored] } := by
  simp only [insertAttempt, Option.bind_eq_bind, Option.bind_eq_some_iff, Option.guard_eq_some',
    Bool.not_eq_true', hasAttempt_eq_false, List.any_eq_false, decide_eq_true_eq, not_and] at h
  obtain ⟨_, hfresh, _, _, _, hfree, _, _, heq⟩ := h
  exact ⟨hfresh, hfree, (Option.some.inj heq).symm⟩

theorem insertEvent_some {e : RuntimeRouteChangeEvent} {after : Database}
    (h : db.insertEvent e = some after) :
    (∀ f ∈ db.events, f.eventId ≠ e.stored.eventId ∧ f.invocationId ≠ e.stored.invocationId) ∧
      after = { db with events := db.events ++ [e.stored] } := by
  simp only [insertEvent, Option.bind_eq_bind, Option.bind_eq_some_iff, Option.guard_eq_some',
    Bool.not_eq_true', List.any_eq_false, decide_eq_true_eq, not_or] at h
  obtain ⟨_, hfresh, _, _, _, _, heq⟩ := h
  exact ⟨hfresh, (Option.some.inj heq).symm⟩

theorem updateAttemptRow_some {a : RuntimeAttempt} {after : Database}
    (h : db.updateAttemptRow a = some after) :
    after = { db with
      attempts := Table.update RuntimeAttempt.attemptId db.attempts a.stored.attemptId
        fun _ => a.stored } := by
  simp only [updateAttemptRow, Option.bind_eq_bind, Option.bind_eq_some_iff] at h
  obtain ⟨_, _, _, _, _, _, heq⟩ := h
  exact (Option.some.inj heq).symm

/-! ## The effect of each operation -/

theorem openInvocation_effect (planHash : JsValue → JsString) (raw : JsValue) :
    Effect db (openInvocation planHash db raw).1 := by
  unfold openInvocation
  cases hinput : isRuntimeInvocationOpen raw with
  | none => exact .unchanged
  | some input =>
      simp only
      split_ifs
      · exact .unchanged
      refine catchConflict_effect fun outcome h => ?_
      simp only [Option.bind_eq_bind, Option.bind_eq_some_iff] at h
      obtain ⟨current, hread, h⟩ := h
      cases current with
      | some current =>
          simp only at h
          split_ifs at h <;> cases h <;> exact .unchanged
      | none =>
          simp only [Option.bind_eq_some_iff] at h
          obtain ⟨accepts, -, h⟩ := h
          split_ifs at h
          · simp only [Option.bind_eq_some_iff] at h
            obtain ⟨after, hinsert, h⟩ := h
            cases h
            obtain ⟨hfresh, hkind, rfl⟩ := insertChain_some hinsert
            exact .opened input.receipt ⟨isRuntimeInvocationOpen_receipt hinput, hfresh, hkind⟩
          · cases h
            exact .unchanged

theorem updateAttempt_effect {raw : JsValue} {post : RuntimeAttempt → Bool}
    {transition : RuntimeAttempt → RuntimeAttempt → Bool}
    (hstep : ∀ before after, transition before after = true →
      spawnTransition before after = true ∨ workTransition before after = true ∨
        checkpointTransition before after = true ∨ settleTransition before after = true) :
    Effect db (updateAttempt db raw post transition).1 := by
  unfold updateAttempt
  cases hraw : isRuntimeAttempt raw with
  | none => exact .unchanged
  | some attempt =>
      refine catchConflict_effect fun outcome h => ?_
      simp only [Option.bind_eq_bind, Option.bind_eq_some_iff] at h
      obtain ⟨current, hread, h⟩ := h
      cases current with
      | none =>
          cases h
          exact .unchanged
      | some current =>
          simp only at h
          split_ifs at h with hsame hpost htransition
          · cases h
            exact .unchanged
          · cases h
            exact .unchanged
          · simp only [Option.bind_eq_some_iff] at h
            obtain ⟨after, hupdate, h⟩ := h
            cases h
            obtain ⟨hmem, hkey, -⟩ := readAttempt_some hread
            rw [updateAttemptRow_some hupdate]
            have hadvanced : Advanced db current attempt :=
              ⟨hmem, hkey, isRuntimeAttempt_valid hraw, hstep current attempt htransition⟩
            have := Effect.advanced current attempt hadvanced
            rwa [hkey] at this
          · cases h
            exact .unchanged

theorem appendRouteChange_effect (raw : JsValue) : Effect db (appendRouteChange db raw).1 := by
  unfold appendRouteChange
  cases hraw : isRuntimeRouteChangeEvent raw with
  | none => exact .unchanged
  | some event =>
      refine catchConflict_effect fun outcome h => ?_
      simp only [Option.bind_eq_bind, Option.bind_eq_some_iff] at h
      obtain ⟨existing, hread, h⟩ := h
      cases existing with
      | none =>
          cases h
          exact .unchanged
      | some existing =>
          simp only at h
          split_ifs at h with hsame hresult
          · simp only [Option.bind_eq_some_iff] at h
            obtain ⟨_, -, h⟩ := h
            split_ifs at h <;> cases h <;> exact .unchanged
          · simp only [Option.bind_eq_some_iff] at h
            obtain ⟨target, htarget, h⟩ := h
            split_ifs at h with hmatches
            · cases h
              obtain ⟨hmem, hkey, -⟩ := readEvent_some hread
              have hresolved : Resolved db existing event.result := by
                refine ⟨hmem, hresult.1, hresult.2.1, ?_⟩
                cases target with
                | none =>
                    unfold resultMatchesTarget at hmatches
                    split_ifs at hmatches <;> simp at hmatches
                | some a =>
                    obtain ⟨ha, haid, -⟩ := readAttempt_some htarget
                    refine ⟨a, ha, ?_, hmatches⟩
                    rw [haid, ← hresult.2.2]
              have := Effect.resolved existing event.result hresolved
              rwa [hkey] at this
            · cases h
              exact .unchanged
          · cases h
            exact .unchanged

theorem startPrimary_effect {c : RuntimeInvocationReceipt} {a : RuntimeAttempt}
    {outcome : Outcome RuntimeAttempt} (h : startPrimary db c a = some outcome)
    (hread : ReceiptRead db a.invocationId true c) (hvalid : attemptValid a = true)
    (hpreparing : a.status = .preparing) (hindex : a.attemptIndex = 0)
    (hafter : c.openedAt ≤ a.preparationStartedAt) : Effect db outcome.1 := by
  unfold startPrimary at h
  split_ifs at h with hlisted
  · cases h
    exact .unchanged
  · simp only [Option.bind_eq_bind, Option.bind_eq_some_iff] at h
    obtain ⟨after, hinsert, h⟩ := h
    cases h
    obtain ⟨hfresh, hfree, rfl⟩ := insertAttempt_some hinsert
    simp only [not_or, not_not, Bool.not_eq_false, sameRoute_iff] at hlisted
    exact .primaryStarted c a
      { valid := hvalid, preparing := hpreparing, fresh := hfresh, free := hfree, read := hread
        index := hindex, listed := hlisted.1, route := hlisted.2, after := hafter }

theorem startSecond_effect {c : RuntimeInvocationReceipt} {a : RuntimeAttempt}
    {e : RuntimeRouteChangeEvent} {outcome : Outcome RuntimeAttempt}
    (h : startSecond db c a e = some outcome) (hread : ReceiptRead db a.invocationId true c)
    (hvalid : attemptValid a = true) (hpreparing : a.status = .preparing)
    (hindex : a.attemptIndex ≠ 0) (hafter : c.openedAt ≤ a.preparationStartedAt)
    (hevent : eventValid e = true) : Effect db outcome.1 := by
  simp only [startSecond, Option.bind_eq_bind, Option.bind_eq_some_iff] at h
  obtain ⟨primaryId, hprimaryId, primary, hprimary, h⟩ := h
  cases primary with
  | none =>
      cases h
      exact .unchanged
  | some p =>
      simp only at h
      split_ifs at h with hhandover
      · simp only [Option.bind_eq_some_iff] at h
        obtain ⟨withAttempt, hattempt, withEvent, hinsertEvent, h⟩ := h
        cases h
        obtain ⟨hfresh, hfree, rfl⟩ := insertAttempt_some hattempt
        obtain ⟨heventFresh, rfl⟩ := insertEvent_some hinsertEvent
        obtain ⟨hmem, hkey, -⟩ := readAttempt_some hprimary
        exact .secondStarted c p a e
          { valid := hvalid, preparing := hpreparing, fresh := hfresh, free := hfree
            read := hread, index := hindex, after := hafter, primary := hmem
            primaryListed := ⟨primaryId, hprimaryId, hkey⟩, handover := hhandover
            eventValid := hevent, eventFresh := heventFresh }
      · cases h
        exact .unchanged

theorem startAttempt_effect (raw : JsValue) : Effect db (startAttempt db raw).1 := by
  unfold startAttempt
  cases hraw : isRuntimeAttemptStart raw with
  | none => exact .unchanged
  | some input =>
      obtain ⟨hvalid, hstart, hevent⟩ := isRuntimeAttemptStart_valid hraw
      have hpreparing : input.attempt.status = .preparing := by
        simp only [attemptStartValid, Bool.and_eq_true, beq_iff_eq] at hstart
        exact hstart.1
      refine catchConflict_effect fun outcome h => ?_
      simp only [Option.bind_eq_bind, Option.bind_eq_some_iff] at h
      obtain ⟨receipt, hreceipt, h⟩ := h
      cases receipt with
      | none =>
          cases h
          exact .unchanged
      | some c =>
          simp only at h
          split_ifs at h with hafter
          · cases h
            exact .unchanged
          simp only [Option.bind_eq_some_iff] at h
          obtain ⟨existing, -, h⟩ := h
          have hafter : c.openedAt ≤ input.attempt.preparationStartedAt := by
            simpa [atOrAfter] using hafter
          cases existing with
          | some existing =>
              simp only [replayAttemptStart, Option.bind_eq_bind, Option.bind_eq_some_iff] at h
              obtain ⟨_, -, h⟩ := h
              split_ifs at h <;> cases h <;> exact .unchanged
          | none =>
              simp only [startNewAttempt] at h
              split_ifs at h with hindex
              · exact startPrimary_effect h (readReceipt_some hreceipt) hvalid hpreparing hindex
                  hafter
              · obtain ⟨event, hsome, h⟩ := Option.bind_eq_some_iff.mp h
                exact startSecond_effect h (readReceipt_some hreceipt) hvalid hpreparing hindex
                  hafter (hevent event hsome)

theorem settleInvocation_effect (raw : JsValue) : Effect db (settleInvocation db raw).1 := by
  unfold settleInvocation
  cases hraw : (isRuntimeInvocationReceipt raw).filter (·.status != .running) with
  | none => exact .unchanged
  | some receipt =>
      obtain ⟨hreceipt, hdone⟩ := Option.filter_eq_some_iff.mp hraw
      refine catchConflict_effect fun outcome h => ?_
      simp only [Option.bind_eq_bind, Option.bind_eq_some_iff] at h
      obtain ⟨current, hread, h⟩ := h
      cases current with
      | none =>
          cases h
          exact .unchanged
      | some c =>
          simp only at h
          split_ifs at h with hsame hopen
          · simp only [Option.bind_eq_some_iff] at h
            obtain ⟨_, -, h⟩ := h
            split_ifs at h <;> cases h <;> exact .unchanged
          · simp only [Option.bind_eq_some_iff] at h
            obtain ⟨attempts, hattempts, events, hevents, h⟩ := h
            split_ifs at h with hsettlement
            · cases h
              rw [readAttempts_some hattempts, readEvents_some hevents] at hsettlement
              obtain ⟨hrunning, hfacts, hattemptIds, heventIds⟩ := hopen
              exact .settled c receipt
                { read := readReceipt_some hread, valid := isRuntimeInvocationReceipt_valid hreceipt
                  running := hrunning, done := by simpa using hdone, facts := hfacts
                  attemptIds := hattemptIds, eventIds := heventIds, settlement := hsettlement }
            · cases h
              exact .unchanged
          · cases h
            exact .unchanged

/-- **Every call has one of the listed effects.** -/
theorem Call.effect (planHash : JsValue → JsString) (db : Database) (call : Call) :
    Effect db (call.apply planHash db) := by
  cases call with
  | openInvocation raw => exact openInvocation_effect planHash raw
  | startAttempt raw => exact startAttempt_effect raw
  | markAttemptSpawned raw => exact updateAttempt_effect fun _ _ h => Or.inl h
  | markSubstantiveWorkStarted raw => exact updateAttempt_effect fun _ _ h => Or.inr (Or.inl h)
  | recordCheckpoint raw => exact updateAttempt_effect fun _ _ h => Or.inr (Or.inr (Or.inl h))
  | appendRouteChange raw => exact appendRouteChange_effect raw
  | settleAttempt raw => exact updateAttempt_effect fun _ _ h => Or.inr (Or.inr (Or.inr h))
  | settleInvocation raw => exact settleInvocation_effect raw

end Hepha.Runtime
