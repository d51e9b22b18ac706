import Hepha.Runtime.Effect

/-!
# The invariant of the store

A chain passes through at most three shapes: it is opened with one attempt id
and no row, then has its primary attempt, and at last a second attempt with
the event that hands over to it.  `ChainShape` says what the rows of a chain
have in common in each shape, and `Consistent` that every chain of the database
has a shape and every row is a stored, valid record.

Two things a row cannot promise, since replacing lone surrogates can identify
texts that were different: that the ids a receipt lists are those of its rows,
and that its two routes are still different.  The invariant says what remains
of them, the ids up to the replacement and validity up to `routesDistinct`.
-/

namespace Hepha.Runtime

open Database

/-! ## Stored records keep their guards -/

@[simp] theorem isText_toWellFormed (max : ℕ) (s : JsString) :
    isText max s.toWellFormed = isText max s := by
  have htrim : (s.toWellFormed.trim == s.toWellFormed) = (s.trim == s) := by
    rw [Bool.eq_iff_iff, beq_iff_eq, beq_iff_eq, JsString.trim_toWellFormed]
  simp [isText, htrim, JsString.any_isControl_toWellFormed]

@[simp] theorem isNullableText_map (max : ℕ) (s : Option JsString) :
    isNullableText max (s.map fun t => t.toWellFormed) = isNullableText max s := by
  cases s <;> simp [isNullableText]

@[simp] theorem routeValid_stored (route : RouteIdentity) :
    routeValid route.stored = routeValid route := by
  simp [routeValid, RouteIdentity.stored]

theorem all_routeValid_stored (route : Option RouteIdentity) :
    (route.map fun r => r.stored).all routeValid = route.all routeValid := by
  cases route <;> simp

theorem attemptFieldsValid_stored (a : RuntimeAttempt) :
    attemptFieldsValid a.stored = attemptFieldsValid a := by
  simp only [attemptFieldsValid, RuntimeAttempt.stored, isText_toWellFormed, isNullableText_map,
    routeValid_stored, all_routeValid_stored]
  rfl

theorem authCoherent_stored (a : RuntimeAttempt) : authCoherent a.stored = authCoherent a := by
  simp [authCoherent, authAbsent, RuntimeAttempt.stored]

theorem statusCoherent_stored (a : RuntimeAttempt) :
    statusCoherent a.stored = statusCoherent a := by
  simp [statusCoherent, preparingCoherent, runningCoherent, terminalCoherent, openEnded,
    spawnCoherent, RuntimeAttempt.stored]

theorem attemptValid_stored {a : RuntimeAttempt} (h : attemptValid a = true) :
    attemptValid a.stored = true := by
  simp only [attemptValid, Bool.and_eq_true] at h ⊢
  obtain ⟨⟨⟨⟨⟨⟨hfields, hkind⟩, hroute⟩, hauth⟩, hpresent⟩, hcheckpoint⟩, hstatus⟩ := h
  refine ⟨⟨⟨⟨⟨⟨?_, hkind⟩, ?_⟩, ?_⟩, ?_⟩, ?_⟩, ?_⟩
  · rw [attemptFieldsValid_stored, hfields]
  · cases hactual : a.actualRoute with
    | none => simp [RuntimeAttempt.stored, hactual]
    | some route =>
        rw [hactual, Option.all_some, sameRoute_iff] at hroute
        simp [RuntimeAttempt.stored, hactual, hroute, sameRoute_iff]
  · rw [authCoherent_stored, hauth]
  · simpa [authAbsent, RuntimeAttempt.stored] using hpresent
  · simpa [checkpointCoherent, RuntimeAttempt.stored] using hcheckpoint
  · rw [statusCoherent_stored, hstatus]

theorem receiptFieldsValid_stored (r : RuntimeInvocationReceipt) :
    receiptFieldsValid r.stored = receiptFieldsValid r := by
  simp only [receiptFieldsValid, RuntimeInvocationReceipt.stored, isText_toWellFormed,
    isNullableText_map, routeValid_stored, all_routeValid_stored]

/-- The guard of a receipt apart from `routesDistinct`. -/
structure RowValid (r : RuntimeInvocationReceipt) : Prop where
  fields : receiptFieldsValid r = true
  kind : kindCoherent r = true
  phase : r.phaseExecutionContractId.isNone = r.phaseNumber.isNone
  two : r.attemptIds.length = 2 →
    r.approvedSecondRoute.isSome = true ∧ r.routeChangeEventIds.length = 1
  one : r.attemptIds.length = 1 → r.routeChangeEventIds.length ≤ 1
  settlement : settlementCoherent r = true

theorem receiptValid_iff {r : RuntimeInvocationReceipt} :
    receiptValid r = true ↔ RowValid r ∧ routesDistinct r = true := by
  simp only [receiptValid, Bool.and_eq_true, Bool.not_eq_true', Bool.and_eq_false_iff, beq_iff_eq,
    beq_eq_false_iff_ne, Bool.or_eq_false_iff, bne_eq_false_iff_eq, Option.isNone_eq_false_iff,
    decide_eq_false_iff_not, not_lt]
  constructor
  · rintro ⟨⟨⟨⟨⟨⟨hfields, hkind⟩, hphase⟩, hroutes⟩, htwo⟩, hone⟩, hsettlement⟩
    exact ⟨⟨hfields, hkind, hphase, fun h => htwo.resolve_left (not_not.mpr h),
      fun h => hone.resolve_left (not_not.mpr h), hsettlement⟩, hroutes⟩
  · rintro ⟨h, hroutes⟩
    refine ⟨⟨⟨⟨⟨⟨h.fields, h.kind⟩, h.phase⟩, hroutes⟩, ?_⟩, ?_⟩, h.settlement⟩
    · by_cases hlength : r.attemptIds.length = 2
      · exact Or.inr (h.two hlength)
      · exact Or.inl hlength
    · by_cases hlength : r.attemptIds.length = 1
      · exact Or.inr (h.one hlength)
      · exact Or.inl hlength

theorem RowValid.stored {r : RuntimeInvocationReceipt} (h : RowValid r)
    (hkind : kindCoherent r.stored = true) : RowValid r.stored where
  fields := by rw [receiptFieldsValid_stored, h.fields]
  kind := hkind
  phase := by simpa [RuntimeInvocationReceipt.stored] using h.phase
  two hlength := by simpa [RuntimeInvocationReceipt.stored] using h.two hlength
  one := h.one
  settlement := by simpa [settlementCoherent, RuntimeInvocationReceipt.stored] using h.settlement

/-! ## The shapes of a chain -/

namespace Database

/-- The attempts of a chain, in the order of their insertion. -/
def attemptsOf (db : Database) (id : JsString) : List RuntimeAttempt :=
  db.attempts.filter fun a => a.invocationId = id

def eventsOf (db : Database) (id : JsString) : List RuntimeRouteChangeEvent :=
  db.events.filter fun e => e.invocationId = id

end Database

/-- `p` is the first attempt of chain `c`. -/
structure PrimaryOf (c : RuntimeInvocationReceipt) (p : RuntimeAttempt) : Prop where
  index : p.attemptIndex = 0
  route : p.approvedRoute = c.approvedPrimaryRoute
  after : c.openedAt ≤ p.preparationStartedAt

/-- `s` takes over from `p` by the event `e`. -/
structure SecondOf (c : RuntimeInvocationReceipt) (p s : RuntimeAttempt)
    (e : RuntimeRouteChangeEvent) : Prop where
  index : s.attemptIndex = 1
  after : c.openedAt ≤ s.preparationStartedAt
  handover : handoverCoherent c p s e = true

/-- A chain is running, or lists its rows and agrees with them on its settlement. -/
def OpenOrSettled (c : RuntimeInvocationReceipt) (attempts : List RuntimeAttempt)
    (events : List RuntimeRouteChangeEvent) : Prop :=
  c.status = .running ∨ c.attemptIds = attempts.map (·.attemptId) ∧
    c.routeChangeEventIds = events.map (·.eventId) ∧ settledCoherent c attempts events = true

inductive ChainShape (c : RuntimeInvocationReceipt) :
    List RuntimeAttempt → List RuntimeRouteChangeEvent → Prop
  | pending (running : c.status = .running) (ids : c.attemptIds.length = 1)
      (noEvent : c.routeChangeEventIds = []) : ChainShape c [] []
  | single (p : RuntimeAttempt) (id : JsString) (primary : PrimaryOf c p)
      (ids : c.attemptIds = [id]) (key : id.toWellFormed = p.attemptId)
      (noEvent : c.routeChangeEventIds = []) (status : OpenOrSettled c [p] []) :
      ChainShape c [p] []
  | double (p s : RuntimeAttempt) (e : RuntimeRouteChangeEvent) (id eventId : JsString)
      (primary : PrimaryOf c p) (second : SecondOf c p s e)
      (ids : c.attemptIds = [p.attemptId, id]) (key : id.toWellFormed = s.attemptId)
      (eventIds : c.routeChangeEventIds = [eventId]) (eventKey : eventId.toWellFormed = e.eventId)
      (status : OpenOrSettled c [p, s] [e]) :
      ChainShape c [p, s] [e]

/-- **The invariant of the store.** -/
structure Consistent (db : Database) : Prop where
  chainKeys : (db.chains.map (·.invocationId)).Nodup
  attemptKeys : (db.attempts.map (·.attemptId)).Nodup
  eventKeys : (db.events.map (·.eventId)).Nodup
  chainStored : ∀ c ∈ db.chains, c.stored = c ∧ RowValid c
  attemptStored : ∀ a ∈ db.attempts, a.stored = a ∧ attemptValid a = true
  eventStored : ∀ e ∈ db.events, e.stored = e ∧ eventValid e = true
  attemptChain : ∀ a ∈ db.attempts, ∃ c ∈ db.chains, c.invocationId = a.invocationId
  eventChain : ∀ e ∈ db.events, ∃ c ∈ db.chains, c.invocationId = e.invocationId
  shape : ∀ c ∈ db.chains,
    ChainShape c (db.attemptsOf c.invocationId) (db.eventsOf c.invocationId)

theorem consistent_empty : Consistent Database.empty := by
  constructor <;> simp [Database.empty]

end Hepha.Runtime
