import Hepha.Runtime.Invariant

/-!
# Every effect keeps the invariant

One lemma per effect.  An effect touches the rows of one chain, so the work is
to find the shape that chain was in, from what the operation has read, and the
shape it is in afterwards; the other chains keep their rows.
-/

namespace Hepha.Runtime

open Database

variable {db : Database}

/-! ## The rows of a chain -/

theorem mem_attemptsOf {id : JsString} {a : RuntimeAttempt} :
    a ∈ db.attemptsOf id ↔ a ∈ db.attempts ∧ a.invocationId = id := by
  simp [attemptsOf]

theorem mem_eventsOf {id : JsString} {e : RuntimeRouteChangeEvent} :
    e ∈ db.eventsOf id ↔ e ∈ db.events ∧ e.invocationId = id := by
  simp [eventsOf]

theorem attemptRows_eq (id : JsString) :
    db.attemptRows id = (db.attemptsOf id.toWellFormed).insertionSort
      fun a b => a.attemptIndex < b.attemptIndex ∨
        a.attemptIndex = b.attemptIndex ∧ JsString.textLe a.attemptId b.attemptId :=
  rfl

theorem eventRows_eq (id : JsString) :
    db.eventRows id = (db.eventsOf id.toWellFormed).insertionSort
      fun a b => JsString.textLe a.eventId b.eventId :=
  rfl

namespace Consistent

variable (h : Consistent db)
include h

theorem chain_key {c : RuntimeInvocationReceipt} (hc : c ∈ db.chains) :
    c.invocationId.toWellFormed = c.invocationId :=
  congrArg RuntimeInvocationReceipt.invocationId (h.chainStored c hc).1

theorem attempt_key {a : RuntimeAttempt} (ha : a ∈ db.attempts) :
    a.attemptId.toWellFormed = a.attemptId :=
  congrArg RuntimeAttempt.attemptId (h.attemptStored a ha).1

theorem chain_unique {c d : RuntimeInvocationReceipt} (hc : c ∈ db.chains) (hd : d ∈ db.chains)
    (hkey : c.invocationId = d.invocationId) : c = d :=
  List.inj_on_of_nodup_map h.chainKeys hc hd hkey

theorem attempt_unique {a b : RuntimeAttempt} (ha : a ∈ db.attempts) (hb : b ∈ db.attempts)
    (hkey : a.attemptId = b.attemptId) : a = b :=
  List.inj_on_of_nodup_map h.attemptKeys ha hb hkey

/-- The rows of a chain are read in the order of their insertion. -/
theorem attemptRows_chain {c : RuntimeInvocationReceipt} (hc : c ∈ db.chains) :
    db.attemptRows c.invocationId = db.attemptsOf c.invocationId := by
  rw [attemptRows_eq, h.chain_key hc]
  have hshape := h.shape c hc
  generalize db.attemptsOf c.invocationId = attempts at hshape ⊢
  generalize db.eventsOf c.invocationId = events at hshape
  cases hshape with
  | pending => rfl
  | single => rfl
  | double p s e id eventId primary second =>
      simp [List.insertionSort, primary.index, second.index]

theorem eventRows_chain {c : RuntimeInvocationReceipt} (hc : c ∈ db.chains) :
    db.eventRows c.invocationId = db.eventsOf c.invocationId := by
  rw [eventRows_eq, h.chain_key hc]
  have hshape := h.shape c hc
  generalize db.attemptsOf c.invocationId = attempts at hshape
  generalize db.eventsOf c.invocationId = events at hshape ⊢
  cases hshape <;> rfl

/-- A chain read by an id that is stored as its key. -/
theorem rows_of_key {c : RuntimeInvocationReceipt} {id : JsString} (hc : c ∈ db.chains)
    (hkey : c.invocationId = id.toWellFormed) :
    db.attemptRows id = db.attemptsOf c.invocationId ∧
      db.eventRows id = db.eventsOf c.invocationId := by
  rw [← h.attemptRows_chain hc, ← h.eventRows_chain hc, attemptRows_eq, attemptRows_eq,
    eventRows_eq, eventRows_eq, h.chain_key hc, hkey]
  exact ⟨rfl, rfl⟩

/-! ## Opening a chain -/

theorem opened {r : RuntimeInvocationReceipt} (ho : Opened db r) :
    Consistent { db with chains := db.chains ++ [r.stored] } where
  chainKeys := Table.nodup_append h.chainKeys ho.fresh
  attemptKeys := h.attemptKeys
  eventKeys := h.eventKeys
  chainStored := by
    intro c hc
    rcases List.mem_append.mp hc with hc | hc
    · exact h.chainStored c hc
    · rw [List.mem_singleton] at hc
      subst hc
      exact ⟨r.stored_stored, (receiptValid_iff.1 ho.valid).1.stored ho.kind⟩
  attemptStored := h.attemptStored
  eventStored := h.eventStored
  attemptChain a ha := by
    obtain ⟨c, hc, hkey⟩ := h.attemptChain a ha
    exact ⟨c, List.mem_append_left _ hc, hkey⟩
  eventChain e he := by
    obtain ⟨c, hc, hkey⟩ := h.eventChain e he
    exact ⟨c, List.mem_append_left _ hc, hkey⟩
  shape := by
    intro c hc
    rcases List.mem_append.mp hc with hc | hc
    · exact h.shape c hc
    · rw [List.mem_singleton] at hc
      subst hc
      -- no row refers to the new key, since its chain would have been there before
      have hattempts : db.attemptsOf r.stored.invocationId = [] := by
        refine List.filter_eq_nil_iff.mpr fun a ha hkey => ?_
        obtain ⟨c, hc, hchain⟩ := h.attemptChain a ha
        exact ho.fresh c hc (hchain.trans (of_decide_eq_true hkey))
      have hevents : db.eventsOf r.stored.invocationId = [] := by
        refine List.filter_eq_nil_iff.mpr fun e he hkey => ?_
        obtain ⟨c, hc, hchain⟩ := h.eventChain e he
        exact ho.fresh c hc (hchain.trans (of_decide_eq_true hkey))
      change ChainShape r.stored (db.attemptsOf r.stored.invocationId)
        (db.eventsOf r.stored.invocationId)
      rw [hattempts, hevents]
      exact .pending ho.running ho.oneAttempt ho.noEvent

end Consistent

/-! ## Starting an attempt -/

/-- What is checked of a second attempt `a` and its event `e`, before it starts
after the attempt `p` of chain `c`. -/
structure HandoverStart (c : RuntimeInvocationReceipt) (p a : RuntimeAttempt)
    (e : RuntimeRouteChangeEvent) : Prop where
  running : c.status = .running
  secondRoute : c.approvedSecondRoute = some a.approvedRoute
  oneAttempt : c.attemptIds.length = 1
  noEvent : c.routeChangeEventIds = []
  terminal : isTerminalAttempt p = true
  notCompleted : p.status ≠ .completed
  chain : p.invocationId = c.invocationId
  started : e.result = .started
  eventChain : e.invocationId = c.invocationId
  sourceChain : e.sourceInvocationId = c.invocationId
  targetChain : e.targetInvocationId = c.invocationId
  source : e.sourceAttemptId = p.attemptId
  target : e.targetAttemptId = a.attemptId
  kind : e.kind.toAttemptKind = a.attemptKind
  reason : p.failureCode = some e.reasonCode
  ended : p.terminalAt.any (atOrAfter e.occurredAt) = true
  prepared : atOrAfter a.preparationStartedAt e.occurredAt = true
  fallback : e.kind = .fallback → p.workState = .none
  recovery : e.kind = .recovery → p.workState = .checkpointed
  sourceRoute : e.sourceApprovedRoute = p.approvedRoute
  targetRoute : e.targetApprovedRoute = a.approvedRoute

theorem attemptsOf_append (db : Database) (a : RuntimeAttempt) (id : JsString) :
    ({ db with attempts := db.attempts ++ [a] } : Database).attemptsOf id =
      db.attemptsOf id ++ if a.invocationId = id then [a] else [] := by
  simp only [attemptsOf, List.filter_append, List.filter_cons, List.filter_nil]
  split_ifs <;> simp_all

theorem eventsOf_append (db : Database) (e : RuntimeRouteChangeEvent) (id : JsString) :
    ({ db with events := db.events ++ [e] } : Database).eventsOf id =
      db.eventsOf id ++ if e.invocationId = id then [e] else [] := by
  simp only [eventsOf, List.filter_append, List.filter_cons, List.filter_nil]
  split_ifs <;> simp_all

namespace Consistent

variable (h : Consistent db)
include h

/-- A chain with a free index 0 has no attempt yet. -/
theorem pending_of_free {c : RuntimeInvocationReceipt} (hc : c ∈ db.chains)
    (hfree : ∀ b ∈ db.attempts, b.invocationId = c.invocationId → b.attemptIndex ≠ 0) :
    db.attemptsOf c.invocationId = [] ∧ db.eventsOf c.invocationId = [] ∧
      c.status = .running ∧ c.attemptIds.length = 1 ∧ c.routeChangeEventIds = [] := by
  have hshape := h.shape c hc
  have hmem : ∀ b ∈ db.attemptsOf c.invocationId, b.attemptIndex ≠ 0 := by
    intro b hb
    obtain ⟨hb, hkey⟩ := mem_attemptsOf.1 hb
    exact hfree b hb hkey
  generalize db.attemptsOf c.invocationId = attempts at hshape hmem
  generalize db.eventsOf c.invocationId = events at hshape
  cases hshape with
  | pending running ids noEvent => exact ⟨rfl, rfl, running, ids, noEvent⟩
  | single p id primary => exact absurd primary.index (hmem p (by simp))
  | double p s e id eventId primary => exact absurd primary.index (hmem p (by simp))

theorem primaryStarted {c : RuntimeInvocationReceipt} {a : RuntimeAttempt}
    (hs : PrimaryStarted db c a) :
    Consistent { db with attempts := db.attempts ++ [a.stored] } where
  chainKeys := h.chainKeys
  attemptKeys := Table.nodup_append h.attemptKeys hs.fresh
  eventKeys := h.eventKeys
  chainStored := h.chainStored
  attemptStored := by
    intro b hb
    rcases List.mem_append.mp hb with hb | hb
    · exact h.attemptStored b hb
    · rw [List.mem_singleton] at hb
      subst hb
      exact ⟨a.stored_stored, attemptValid_stored hs.valid⟩
  eventStored := h.eventStored
  attemptChain := by
    intro b hb
    rcases List.mem_append.mp hb with hb | hb
    · exact h.attemptChain b hb
    · rw [List.mem_singleton] at hb
      subst hb
      exact ⟨c, hs.read.mem, hs.read.key⟩
  eventChain := h.eventChain
  shape := by
    intro d hd
    have hshape := h.shape d hd
    rw [attemptsOf_append]
    change ChainShape d _ (db.eventsOf d.invocationId)
    by_cases hkey : a.stored.invocationId = d.invocationId
    · obtain rfl : c = d := h.chain_unique hs.read.mem hd (hs.read.key.trans hkey)
      have hfree : ∀ b ∈ db.attempts, b.invocationId = c.invocationId → b.attemptIndex ≠ 0 :=
        fun b hb hbc => hs.index ▸ hs.free b hb (hbc.trans hkey.symm)
      obtain ⟨hattempts, hevents, hrunning, hids, hnoEvent⟩ := h.pending_of_free hd hfree
      obtain ⟨id, hid⟩ := List.length_eq_one_iff.mp hids
      have hlisted := hs.listed
      rw [hid, List.head?_cons, Option.some_inj] at hlisted
      rw [if_pos hkey, hattempts, hevents]
      refine .single a.stored id ⟨hs.index, ?_, hs.after⟩ hid ?_ hnoEvent (Or.inl hrunning)
      · change a.approvedRoute.stored = c.approvedPrimaryRoute
        rw [hs.route]
        exact congrArg RuntimeInvocationReceipt.approvedPrimaryRoute (h.chainStored c hd).1
      · rw [hlisted]
        rfl
    · rw [if_neg hkey, List.append_nil]
      exact hshape

/-- What has been read of a chain that lists one attempt, besides an attempt of it. -/
theorem single_of_read {c : RuntimeInvocationReceipt} {p : RuntimeAttempt} {id : JsString}
    (hread : ReceiptRead db id true c) (hp : p ∈ db.attempts)
    (hchain : p.invocationId = c.invocationId) (hlength : c.attemptIds.length = 1) :
    db.attemptsOf c.invocationId = [p] ∧ db.eventsOf c.invocationId = [] ∧ PrimaryOf c p ∧
      c.attemptIds = [p.attemptId] := by
  have hshape := h.shape c hread.mem
  have hmem := mem_attemptsOf.2 ⟨hp, hchain⟩
  obtain ⟨hrows, -⟩ := h.rows_of_key hread.mem hread.key
  have hids := hread.attempts
  rw [hrows] at hids
  generalize db.attemptsOf c.invocationId = attempts at hshape hmem hids
  generalize db.eventsOf c.invocationId = events at hshape
  cases hshape with
  | pending => simp at hmem
  | single q id primary =>
      obtain rfl : p = q := by simpa using hmem
      refine ⟨rfl, rfl, primary, ?_⟩
      rcases hids with hids | ⟨-, -, hnil⟩
      · simpa using hids
      · simp at hnil
  | double q s e id eventId primary second ids => simp [ids] at hlength

omit h in
/-- What `validSameChainAttemptStart` has checked. -/
theorem handoverStart {c : RuntimeInvocationReceipt} {p a : RuntimeAttempt}
    {e : RuntimeRouteChangeEvent} (hvalid : validSameChainAttemptStart c p a e = true) :
    HandoverStart c p a e := by
  simp only [validSameChainAttemptStart, Bool.and_eq_true, beq_iff_eq, bne_iff_ne,
    List.length_eq_zero_iff, sameRoute_iff] at hvalid
  obtain ⟨⟨⟨⟨⟨⟨⟨⟨⟨⟨⟨⟨⟨⟨⟨⟨⟨⟨⟨⟨⟨hrunning, -⟩, hids⟩, hevents⟩, hterminal⟩, hcompleted⟩, -⟩, hchain⟩,
    hresult⟩, hevent⟩, hsource⟩, htarget⟩, hsourceId⟩, htargetId⟩, hkind⟩, hreason⟩, hended⟩,
    hprepared⟩, hwork⟩, hsecond⟩, hsourceRoute⟩, htargetRoute⟩ := hvalid
  refine ⟨hrunning, ?_, hids, hevents, hterminal, hcompleted, hchain, hresult, hevent, hsource,
    htarget, hsourceId, htargetId, hkind, hreason.symm, hended, hprepared, ?_, ?_, hsourceRoute,
    htargetRoute⟩
  · obtain ⟨route, hroute, hsame⟩ := Option.any_eq_true _ _ |>.mp hsecond
    rw [hroute, sameRoute_iff.1 hsame]
  · intro hfallback
    simpa [hfallback] using hwork
  · intro hrecovery
    simpa [hrecovery] using hwork

/-- The row of a chain that has been given its second attempt. -/
theorem secondStarted_row {c : RuntimeInvocationReceipt} {p a : RuntimeAttempt}
    {e : RuntimeRouteChangeEvent} (hs : SecondStarted db c p a e) (hc : RowValid c)
    (hids : c.attemptIds = [p.attemptId]) :
    RowValid { c with
      attemptIds := [p.attemptId, a.attemptId], routeChangeEventIds := [e.eventId] } := by
  have hstart := handoverStart hs.handover
  have hne : p.attemptId ≠ a.attemptId := by
    intro heq
    refine hs.fresh p hs.primary ?_
    change p.attemptId = a.attemptId.toWellFormed
    rw [← heq, h.attempt_key hs.primary]
  have hattempt : isText 512 a.attemptId = true := by
    have := hs.valid
    simp only [attemptValid, attemptFieldsValid, Bool.and_eq_true] at this
    tauto
  have hevent : isText 512 e.eventId = true := by
    have := hs.eventValid
    simp only [eventValid, Bool.and_eq_true] at this
    tauto
  have hsettlement := hc.settlement
  simp only [settlementCoherent, hstart.running] at hsettlement
  refine ⟨?_, hc.kind, hc.phase, ?_, ?_, ?_⟩
  · have hfields := hc.fields
    simp only [receiptFieldsValid, hids, isOrderedIds, Bool.and_eq_true, List.all_cons,
      List.all_nil, Bool.and_true] at hfields ⊢
    simp_all
  · simp [hstart.secondRoute]
  · simp
  · simpa [settlementCoherent, hstart.running] using hsettlement

/-- The handover of a started second attempt, between the rows of the chain. -/
theorem secondStarted_second {c : RuntimeInvocationReceipt} {p a : RuntimeAttempt}
    {e : RuntimeRouteChangeEvent} (hs : SecondStarted db c p a e) {ids events : List JsString} :
    SecondOf { c with attemptIds := ids, routeChangeEventIds := events } p a.stored e.stored := by
  have hstart := handoverStart hs.handover
  obtain ⟨hstored, -⟩ := h.attemptStored p hs.primary
  obtain ⟨hchain, -⟩ := h.chainStored c hs.read.mem
  have hindex : a.attemptIndex = 1 := by
    have hvalid := hs.valid
    have hne := hs.index
    simp only [attemptValid, attemptFieldsValid, Bool.and_eq_true, decide_eq_true_eq] at hvalid
    omega
  have hchainId : c.invocationId.toWellFormed = c.invocationId := h.chain_key hs.read.mem
  have hprimaryRoute : p.approvedRoute.stored = p.approvedRoute :=
    congrArg RuntimeAttempt.approvedRoute hstored
  have hsecondRoute : c.approvedSecondRoute.map (·.stored) = c.approvedSecondRoute :=
    congrArg RuntimeInvocationReceipt.approvedSecondRoute hchain
  rw [hstart.secondRoute, Option.map_some, Option.some_inj] at hsecondRoute
  refine ⟨hindex, hs.after, ?_⟩
  simpa [handoverCoherent, RuntimeAttempt.stored, RuntimeRouteChangeEvent.stored,
    hstart.secondRoute, hsecondRoute, sameRoute_iff, hstart.kind, hstart.terminal,
    hstart.notCompleted, hstart.reason, hstart.sourceChain, hstart.targetChain, hchainId,
    hstart.source, h.attempt_key hs.primary, hstart.target, hstart.sourceRoute, hprimaryRoute,
    hstart.targetRoute, hstart.ended, hstart.prepared, hstart.started, eventResultMatchesAttempt]
    using And.intro (imp_iff_not_or.mp hstart.fallback) (imp_iff_not_or.mp hstart.recovery)

/-- The event's row is valid: its routes are those of the two attempts, as stored. -/
theorem secondStarted_event {c : RuntimeInvocationReceipt} {p a : RuntimeAttempt}
    {e : RuntimeRouteChangeEvent} (hs : SecondStarted db c p a e) :
    eventValid e.stored = true := by
  have hstart := handoverStart hs.handover
  have hsource : e.sourceApprovedRoute.stored = e.sourceApprovedRoute := by
    rw [hstart.sourceRoute]
    exact congrArg RuntimeAttempt.approvedRoute (h.attemptStored p hs.primary).1
  have htarget : e.targetApprovedRoute.stored = e.targetApprovedRoute := by
    have := congrArg RuntimeInvocationReceipt.approvedSecondRoute (h.chainStored c hs.read.mem).1
    change c.approvedSecondRoute.map (·.stored) = c.approvedSecondRoute at this
    rw [hstart.secondRoute, Option.map_some, Option.some_inj] at this
    rw [hstart.targetRoute, this]
  have hvalid := hs.eventValid
  simp only [eventValid] at hvalid ⊢
  simpa [RuntimeRouteChangeEvent.stored, hsource, htarget] using hvalid

theorem secondStarted {c : RuntimeInvocationReceipt} {p a : RuntimeAttempt}
    {e : RuntimeRouteChangeEvent} (hs : SecondStarted db c p a e) :
    Consistent (({ db with
      attempts := db.attempts ++ [a.stored]
      events := db.events ++ [e.stored] } : Database).updateChainIds c.invocationId
        (c.attemptIds ++ [a.attemptId]) [e.eventId]) := by
  have hstart := handoverStart hs.handover
  have hkey : c.invocationId.toWellFormed = c.invocationId := h.chain_key hs.read.mem
  obtain ⟨hattempts, hevents, hprimary, hids⟩ :=
    h.single_of_read hs.read hs.primary hstart.chain hstart.oneAttempt
  have hattemptChain : a.stored.invocationId = c.invocationId := hs.read.key.symm
  have heventChain : e.stored.invocationId = c.invocationId := by
    change e.invocationId.toWellFormed = c.invocationId
    rw [hstart.eventChain, hkey]
  have hchains (d : RuntimeInvocationReceipt) :
      d ∈ Table.update RuntimeInvocationReceipt.invocationId db.chains
        c.invocationId.toWellFormed
        (fun d => { d with
          attemptIds := c.attemptIds ++ [a.attemptId], routeChangeEventIds := [e.eventId] }) ↔
      (d ∈ db.chains ∧ d.invocationId ≠ c.invocationId) ∨
        d = { c with
          attemptIds := [p.attemptId, a.attemptId], routeChangeEventIds := [e.eventId] } := by
    rw [hkey, Table.mem_update, hids]
    refine or_congr_right ⟨?_, ?_⟩
    · rintro ⟨old, hold, hsame, rfl⟩
      rw [h.chain_unique hold hs.read.mem hsame]
      rfl
    · rintro rfl
      exact ⟨c, hs.read.mem, rfl, rfl⟩
  have hkeys : (Table.update RuntimeInvocationReceipt.invocationId db.chains
      c.invocationId.toWellFormed (fun d => { d with
        attemptIds := c.attemptIds ++ [a.attemptId], routeChangeEventIds := [e.eventId] })).map
      (·.invocationId) = db.chains.map (·.invocationId) :=
    Table.map_update fun _ _ _ => rfl
  have hchainOf : ∀ id, (∃ d ∈ db.chains, d.invocationId = id) →
      ∃ d ∈ Table.update RuntimeInvocationReceipt.invocationId db.chains
        c.invocationId.toWellFormed (fun d => { d with
          attemptIds := c.attemptIds ++ [a.attemptId], routeChangeEventIds := [e.eventId] }),
        d.invocationId = id := by
    intro id hid
    have : id ∈ db.chains.map (·.invocationId) := List.mem_map.mpr hid
    rw [← hkeys] at this
    exact List.mem_map.mp this
  refine ⟨?_, ?_, ?_, ?_, ?_, ?_, ?_, ?_, ?_⟩
  · exact hkeys ▸ h.chainKeys
  · exact Table.nodup_append h.attemptKeys hs.fresh
  · exact Table.nodup_append h.eventKeys fun f hf => (hs.eventFresh f hf).1
  · intro d hd
    rcases (hchains d).mp hd with ⟨hd, -⟩ | rfl
    · exact h.chainStored d hd
    · obtain ⟨hstored, hrow⟩ := h.chainStored c hs.read.mem
      exact ⟨congrArg (fun d : RuntimeInvocationReceipt => { d with
        attemptIds := [p.attemptId, a.attemptId], routeChangeEventIds := [e.eventId] }) hstored,
        h.secondStarted_row hs hrow hids⟩
  · intro b hb
    rcases List.mem_append.mp hb with hb | hb
    · exact h.attemptStored b hb
    · rw [List.mem_singleton.mp hb]
      exact ⟨a.stored_stored, attemptValid_stored hs.valid⟩
  · intro f hf
    rcases List.mem_append.mp hf with hf | hf
    · exact h.eventStored f hf
    · rw [List.mem_singleton.mp hf]
      exact ⟨e.stored_stored, h.secondStarted_event hs⟩
  · intro b hb
    refine hchainOf _ ?_
    rcases List.mem_append.mp hb with hb | hb
    · exact h.attemptChain b hb
    · exact ⟨c, hs.read.mem, List.mem_singleton.mp hb ▸ hattemptChain.symm⟩
  · intro f hf
    refine hchainOf _ ?_
    rcases List.mem_append.mp hf with hf | hf
    · exact h.eventChain f hf
    · exact ⟨c, hs.read.mem, List.mem_singleton.mp hf ▸ heventChain.symm⟩
  · intro d hd
    have hattemptsOf := attemptsOf_append db a.stored d.invocationId
    have heventsOf := eventsOf_append db e.stored d.invocationId
    rcases (hchains d).mp hd with ⟨hd, hne⟩ | rfl
    · rw [if_neg fun heq => hne (heq.symm.trans hattemptChain), List.append_nil] at hattemptsOf
      rw [if_neg fun heq => hne (heq.symm.trans heventChain), List.append_nil] at heventsOf
      have := h.shape d hd
      rwa [← hattemptsOf, ← heventsOf] at this
    · rw [if_pos hattemptChain, hattempts] at hattemptsOf
      rw [if_pos heventChain, hevents] at heventsOf
      have := ChainShape.double (c := { c with
          attemptIds := [p.attemptId, a.attemptId], routeChangeEventIds := [e.eventId] })
        p a.stored e.stored a.attemptId e.eventId ⟨hprimary.index, hprimary.route, hprimary.after⟩
        (h.secondStarted_second hs) rfl rfl rfl rfl (Or.inl hstart.running)
      exact hattemptsOf ▸ heventsOf ▸ this

end Consistent

/-! ## Advancing an attempt -/

/-- Two states of an attempt with the same identity, approved route and preparation time. -/
structure SameIdentity (before after : RuntimeAttempt) : Prop where
  attemptId : after.attemptId = before.attemptId
  invocationId : after.invocationId = before.invocationId
  index : after.attemptIndex = before.attemptIndex
  kind : after.attemptKind = before.attemptKind
  route : after.approvedRoute = before.approvedRoute
  prepared : after.preparationStartedAt = before.preparationStartedAt

theorem sameAttemptIdentity_iff {before after : RuntimeAttempt} :
    sameAttemptIdentity before after = true ↔ SameIdentity before after := by
  simp only [sameAttemptIdentity, Bool.and_eq_true, beq_iff_eq, sameRoute_iff]
  constructor
  · rintro ⟨⟨⟨⟨⟨hid, hchain⟩, hindex⟩, hkind⟩, hroute⟩, hprepared⟩
    exact ⟨hid.symm, hchain.symm, hindex.symm, hkind.symm, hroute.symm, hprepared.symm⟩
  · rintro ⟨hid, hchain, hindex, hkind, hroute, hprepared⟩
    exact ⟨⟨⟨⟨⟨hid.symm, hchain.symm⟩, hindex.symm⟩, hkind.symm⟩, hroute.symm⟩, hprepared.symm⟩

theorem sameAttemptExceptWork_eq {before after : RuntimeAttempt}
    (h : sameAttemptExceptWork before after = true) :
    after = { before with
      workState := after.workState
      checkpointId := after.checkpointId
      checkpointCursor := after.checkpointCursor } :=
  (beq_iff_eq.mp h).symm

theorem sameIdentity_of_sameAttemptExceptWork {before after : RuntimeAttempt}
    (h : sameAttemptExceptWork before after = true) : SameIdentity before after := by
  rw [sameAttemptExceptWork_eq h]
  exact ⟨rfl, rfl, rfl, rfl, rfl, rfl⟩

/-- No update touches the identity of an attempt. -/
theorem Advanced.identity {before after : RuntimeAttempt} (h : Advanced db before after) :
    SameIdentity before after := by
  rcases h.step with hstep | hstep | hstep | hstep
  · simp only [spawnTransition, Bool.and_eq_true] at hstep
    exact sameAttemptIdentity_iff.1 hstep.1.2
  · simp only [workTransition, Bool.and_eq_true] at hstep
    exact sameIdentity_of_sameAttemptExceptWork hstep.2
  · simp only [checkpointTransition, Bool.and_eq_true] at hstep
    exact sameIdentity_of_sameAttemptExceptWork hstep.2
  · simp only [settleTransition, Bool.and_eq_true] at hstep
    exact sameAttemptIdentity_iff.1 hstep.1.1.1.2

/-- Every update starts from an attempt that is not terminal. -/
theorem Advanced.not_terminal {before after : RuntimeAttempt} (h : Advanced db before after) :
    isTerminalAttempt before = false := by
  have hstatus : before.status = .preparing ∨ before.status = .running := by
    rcases h.step with hstep | hstep | hstep | hstep
    · simp only [spawnTransition, Bool.and_eq_true, beq_iff_eq] at hstep
      exact Or.inl hstep.1.1.1.1
    · simp only [workTransition, Bool.and_eq_true, beq_iff_eq] at hstep
      exact Or.inr hstep.1.1.1
    · simp only [checkpointTransition, Bool.and_eq_true, beq_iff_eq] at hstep
      exact Or.inr hstep.1.1.1
    · simp only [settleTransition, Bool.and_eq_true, Bool.or_eq_true, beq_iff_eq] at hstep
      exact hstep.1.1.1.1.2
  rcases hstatus with hstatus | hstatus <;> simp [isTerminalAttempt, hstatus]

/-- A handover is not touched by an update of its second attempt. -/
theorem SecondOf.advance {c : RuntimeInvocationReceipt} {p s after : RuntimeAttempt}
    {e : RuntimeRouteChangeEvent} (h : SecondOf c p s e) (hopen : isTerminalAttempt s = false)
    (hidentity : SameIdentity s after) : SecondOf c p after e := by
  have hresult : e.result = .started := by
    have hmatch := h.handover
    simp only [handoverCoherent, Bool.and_eq_true] at hmatch
    have hmatch := hmatch.2
    simp only [isTerminalAttempt, Bool.or_eq_false_iff, beq_eq_false_iff_ne] at hopen
    cases hr : e.result <;> simp_all [eventResultMatchesAttempt]
  refine ⟨hidentity.index.trans h.index, hidentity.prepared ▸ h.after, ?_⟩
  have hmatch := h.handover
  simpa only [handoverCoherent, hresult, eventResultMatchesAttempt, hidentity.route,
    hidentity.kind, hidentity.attemptId, hidentity.prepared] using hmatch

theorem not_settledCoherent {c : RuntimeInvocationReceipt} {attempts : List RuntimeAttempt}
    {events : List RuntimeRouteChangeEvent} {a : RuntimeAttempt} (ha : a ∈ attempts)
    (hopen : isTerminalAttempt a = false) : settledCoherent c attempts events ≠ true := by
  intro h
  unfold settledCoherent at h
  split at h
  · simp only [Bool.and_eq_true, List.all_eq_true] at h
    have := h.1.1.1.1 a ha
    simp [hopen] at this
  · simp at h

/-- A chain whose event is still open is running. -/
theorem OpenOrSettled.running_of_started {c : RuntimeInvocationReceipt} {p s : RuntimeAttempt}
    {e : RuntimeRouteChangeEvent} (h : OpenOrSettled c [p, s] [e])
    (hstarted : e.result = .started) :
    c.status = .running := by
  refine h.resolve_right fun hsettled => ?_
  have := hsettled.2.2
  simp only [settledCoherent] at this
  split at this
  · simp only [List.length_cons, List.length_nil, List.head?_cons, Option.any_some,
      Bool.and_eq_true, Bool.or_eq_true, bne_self_eq_false, Bool.false_eq_true, false_or,
      eventResultMatchesTerminalAttempt, hstarted] at this
    have := this.2
    split_ifs at this <;> simp at this
  · simp at this

namespace Consistent

variable (h : Consistent db)
include h

/-- The identity of an attempt as it is stored. -/
theorem advanced_identity {before after : RuntimeAttempt} (ha : Advanced db before after) :
    SameIdentity before after.stored := by
  obtain ⟨hstored, -⟩ := h.attemptStored before ha.mem
  have hid := ha.identity
  refine ⟨?_, ?_, hid.index, hid.kind, ?_, hid.prepared⟩
  · exact ha.key.symm
  · change after.invocationId.toWellFormed = before.invocationId
    rw [hid.invocationId]
    exact congrArg RuntimeAttempt.invocationId hstored
  · change after.approvedRoute.stored = before.approvedRoute
    rw [hid.route]
    exact congrArg RuntimeAttempt.approvedRoute hstored

theorem advanced {before after : RuntimeAttempt} (ha : Advanced db before after) :
    Consistent { db with
      attempts := Table.update RuntimeAttempt.attemptId db.attempts before.attemptId
        fun _ => after.stored } := by
  have hidentity := h.advanced_identity ha
  have hbefore : ∀ b ∈ db.attempts, b.attemptId = before.attemptId → b = before :=
    fun b hb hkey => h.attempt_unique hb ha.mem hkey
  have hmem (b : RuntimeAttempt) : b ∈ Table.update RuntimeAttempt.attemptId db.attempts
      before.attemptId (fun _ => after.stored) → b ∈ db.attempts ∨ b = after.stored := by
    intro hb
    rcases Table.mem_update.1 hb with ⟨hb, -⟩ | ⟨-, -, -, rfl⟩
    · exact Or.inl hb
    · exact Or.inr rfl
  refine ⟨h.chainKeys, ?_, h.eventKeys, h.chainStored, ?_, h.eventStored, ?_, h.eventChain, ?_⟩
  · have hkeys : (Table.update RuntimeAttempt.attemptId db.attempts before.attemptId
        fun _ => after.stored).map (·.attemptId) = db.attempts.map (·.attemptId) :=
      Table.map_update fun b _ hkey => hidentity.attemptId.trans hkey.symm
    exact hkeys ▸ h.attemptKeys
  · intro b hb
    rcases hmem b hb with hb | rfl
    · exact h.attemptStored b hb
    · exact ⟨after.stored_stored, attemptValid_stored ha.valid⟩
  · intro b hb
    rcases hmem b hb with hb | rfl
    · exact h.attemptChain b hb
    · rw [hidentity.invocationId]
      exact h.attemptChain before ha.mem
  · intro c hc
    have hrows : ({ db with
        attempts := Table.update RuntimeAttempt.attemptId db.attempts before.attemptId
          fun _ => after.stored } : Database).attemptsOf c.invocationId =
        Table.update RuntimeAttempt.attemptId (db.attemptsOf c.invocationId) before.attemptId
          fun _ => after.stored := by
      refine Table.filter_update fun b hb hkey => ?_
      rw [hbefore b hb hkey, hidentity.invocationId]
    change ChainShape c _ (db.eventsOf c.invocationId)
    rw [hrows]
    have hsub : ∀ b ∈ db.attemptsOf c.invocationId, b.attemptId = before.attemptId → b = before :=
      fun b hb => hbefore b (mem_attemptsOf.1 hb).1
    have hshape := h.shape c hc
    generalize db.attemptsOf c.invocationId = attempts at hshape hsub
    generalize db.eventsOf c.invocationId = events at hshape
    cases hshape with
    | pending running ids noEvent => exact .pending running ids noEvent
    | single p id primary ids key noEvent status =>
        by_cases hkey : p.attemptId = before.attemptId
        · obtain rfl : p = before := hsub p (by simp) hkey
          -- an open attempt leaves only the running status
          have hrunning := status.resolve_right fun hsettled =>
            not_settledCoherent (by simp) ha.not_terminal hsettled.2.2
          rw [Table.update, List.map_singleton, if_pos rfl]
          exact .single _ id ⟨hidentity.index.trans primary.index,
            hidentity.route.trans primary.route, hidentity.prepared ▸ primary.after⟩ ids
            (key.trans hidentity.attemptId.symm) noEvent (Or.inl hrunning)
        · rw [Table.update_eq_self (by simpa using hkey)]
          exact .single p id primary ids key noEvent status
    | double p s e id eventId primary second ids key eventIds eventKey status =>
        have hp : p.attemptId ≠ before.attemptId := by
          intro hkey
          have hterminal := second.handover
          simp only [handoverCoherent, Bool.and_eq_true] at hterminal
          rw [hsub p (by simp) hkey, ha.not_terminal] at hterminal
          simp at hterminal
        by_cases hkey : s.attemptId = before.attemptId
        · obtain rfl : s = before := hsub s (by simp) hkey
          have hrunning := status.resolve_right fun hsettled =>
            not_settledCoherent (by simp) ha.not_terminal hsettled.2.2
          rw [Table.update, List.map_cons, List.map_singleton, if_neg hp, if_pos rfl]
          exact .double p _ e id eventId primary (second.advance ha.not_terminal hidentity) ids
            (key.trans hidentity.attemptId.symm) eventIds eventKey (Or.inl hrunning)
        · rw [Table.update_eq_self (by simp [hp, hkey])]
          exact .double p s e id eventId primary second ids key eventIds eventKey status

/-! ## Resolving an event -/

omit h in
theorem eventResultMatches_of_target {result : RuntimeRouteChangeResult} {a : RuntimeAttempt}
    (hdone : result ≠ .started) (hresult : resultMatchesTarget result (some a) = true) :
    eventResultMatchesAttempt result a.status = true := by
  cases result with
  | started => exact absurd rfl hdone
  | completed => simpa [resultMatchesTarget, eventResultMatchesAttempt] using hresult
  | failed => simpa [resultMatchesTarget, eventResultMatchesAttempt] using hresult

theorem resolved {e : RuntimeRouteChangeEvent} {result : RuntimeRouteChangeResult}
    (hr : Resolved db e result) :
    Consistent { db with
      events := Table.update RuntimeRouteChangeEvent.eventId db.events e.eventId
        fun f => { f with result } } := by
  have hunique : ∀ f ∈ db.events, f.eventId = e.eventId → f = e :=
    fun f hf hkey => List.inj_on_of_nodup_map h.eventKeys hf hr.mem hkey
  have hmem (f : RuntimeRouteChangeEvent) : f ∈ Table.update RuntimeRouteChangeEvent.eventId
      db.events e.eventId (fun f => { f with result }) →
      ∃ old ∈ db.events, f = old ∨ f = { old with result } := by
    intro hf
    rcases Table.mem_update.1 hf with ⟨hf, -⟩ | ⟨old, hold, -, rfl⟩
    · exact ⟨f, hf, Or.inl rfl⟩
    · exact ⟨old, hold, Or.inr rfl⟩
  refine ⟨h.chainKeys, h.attemptKeys, ?_, h.chainStored, h.attemptStored, ?_, h.attemptChain, ?_,
    ?_⟩
  · have hkeys : (Table.update RuntimeRouteChangeEvent.eventId db.events e.eventId
        fun f => { f with result }).map (·.eventId) = db.events.map (·.eventId) :=
      Table.map_update fun _ _ _ => rfl
    exact hkeys ▸ h.eventKeys
  · intro f hf
    obtain ⟨old, hold, rfl | rfl⟩ := hmem f hf
    · exact h.eventStored f hold
    · obtain ⟨hstored, hvalid⟩ := h.eventStored old hold
      exact ⟨congrArg (fun f : RuntimeRouteChangeEvent => { f with result }) hstored, hvalid⟩
  · intro f hf
    obtain ⟨old, hold, rfl | rfl⟩ := hmem f hf
    · exact h.eventChain f hold
    · exact h.eventChain old hold
  · intro c hc
    have hrows : ({ db with
        events := Table.update RuntimeRouteChangeEvent.eventId db.events e.eventId
          fun f => { f with result } } : Database).eventsOf c.invocationId =
        Table.update RuntimeRouteChangeEvent.eventId (db.eventsOf c.invocationId) e.eventId
          fun f => { f with result } :=
      Table.filter_update fun _ _ _ => rfl
    change ChainShape c (db.attemptsOf c.invocationId) _
    rw [hrows]
    have hsub : ∀ f ∈ db.eventsOf c.invocationId, f.eventId = e.eventId → f = e :=
      fun f hf => hunique f (mem_eventsOf.1 hf).1
    have hattempts : ∀ a ∈ db.attemptsOf c.invocationId, a ∈ db.attempts :=
      fun a ha => (mem_attemptsOf.1 ha).1
    have hevents : ∀ f ∈ db.eventsOf c.invocationId, f ∈ db.events :=
      fun f hf => (mem_eventsOf.1 hf).1
    have hshape := h.shape c hc
    generalize db.attemptsOf c.invocationId = attempts at hshape hattempts
    generalize db.eventsOf c.invocationId = events at hshape hsub hevents
    cases hshape with
    | pending running ids noEvent => exact .pending running ids noEvent
    | single p id primary ids key noEvent status =>
        exact .single p id primary ids key noEvent status
    | double p s f id eventId primary second ids key eventIds eventKey status =>
        by_cases hkey : f.eventId = e.eventId
        · obtain rfl : f = e := hsub f (by simp) hkey
          have hhandover := second.handover
          simp only [handoverCoherent, Bool.and_eq_true, beq_iff_eq] at hhandover
          -- the target that was looked up is the second attempt
          obtain ⟨a, ha, haid, hresult⟩ := hr.target
          obtain rfl : a = s := by
            refine h.attempt_unique ha (hattempts s (by simp)) ?_
            rw [haid, congrArg RuntimeRouteChangeEvent.targetAttemptId
              (h.eventStored f hr.mem).1 |> (fun heq : f.targetAttemptId.toWellFormed = _ => heq)]
            tauto
          have hmatches := eventResultMatches_of_target hr.done hresult
          have hrunning := status.running_of_started hr.started
          rw [Table.update, List.map_singleton, if_pos rfl]
          refine .double p a _ id eventId primary ⟨second.index, second.after, ?_⟩ ids key eventIds
            eventKey (Or.inl hrunning)
          simp only [handoverCoherent, Bool.and_eq_true, beq_iff_eq]
          exact ⟨hhandover.1, hmatches⟩
        · rw [Table.update_eq_self (by simpa using hkey)]
          exact .double p s f id eventId primary second ids key eventIds eventKey status

/-! ## Settling a chain -/

omit h in
/-- The settled row is the receipt that was given. -/
theorem settled_row {c r : RuntimeInvocationReceipt} (hs : Settled db c r) :
    { c with
      status := r.status
      settledAt := r.settledAt
      durationMs := r.durationMs
      failureCode := r.failureCode } = r := by
  have hfacts := beq_iff_eq.mp hs.facts
  rw [← hs.attemptIds, ← hs.eventIds] at hfacts
  exact hfacts

omit h in
/-- The checks of `settleInvocation` are those of the settled evidence. -/
theorem settledCoherent_of_settlementMatches {r : RuntimeInvocationReceipt}
    {attempts : List RuntimeAttempt} {events : List RuntimeRouteChangeEvent}
    (hs : settlementMatches r attempts events = true) :
    attempts ≠ [] ∧ attempts.length = r.attemptIds.length ∧
      settledCoherent r attempts events = true := by
  simp only [settlementMatches, Bool.and_eq_true, beq_iff_eq] at hs
  obtain ⟨⟨hlength, hterminal⟩, hs⟩ := hs
  refine ⟨?_, hlength, ?_⟩
  · rintro rfl
    simp at hs
  · unfold settledCoherent
    cases hlast : attempts.getLast? with
    | none => simp [hlast] at hs
    | some finalAttempt =>
        cases hsettledAt : r.settledAt with
        | none => simp [hlast, hsettledAt] at hs
        | some settledAt =>
            simp only [hlast, hsettledAt, Bool.and_eq_true, Bool.or_eq_true,
              eventMatchesFinalAttempt] at hs ⊢
            exact ⟨⟨⟨⟨hterminal, hs.1.1.1⟩, hs.1.1.2⟩, hs.1.2⟩, hs.2.imp_right And.right⟩

theorem settled {c r : RuntimeInvocationReceipt} (hs : Settled db c r) :
    Consistent (db.updateChainSettlement r) := by
  have hrow := settled_row hs
  have hkey : r.invocationId.toWellFormed = c.invocationId := hs.read.key.symm
  have hid : c.invocationId = r.invocationId := by
    have := congrArg RuntimeInvocationReceipt.invocationId hrow
    exact this
  have hchains (d : RuntimeInvocationReceipt) :
      d ∈ (db.updateChainSettlement r).chains ↔
        (d ∈ db.chains ∧ d.invocationId ≠ c.invocationId) ∨ d = r := by
    rw [updateChainSettlement, hkey, Table.mem_update]
    refine or_congr_right ⟨?_, ?_⟩
    · rintro ⟨old, hold, hsame, rfl⟩
      rw [h.chain_unique hold hs.read.mem hsame, hrow]
    · rintro rfl
      exact ⟨c, hs.read.mem, rfl, hrow⟩
  have hkeys : (db.updateChainSettlement r).chains.map (·.invocationId) =
      db.chains.map (·.invocationId) :=
    Table.map_update fun _ _ _ => rfl
  have hchainOf : ∀ id, (∃ d ∈ db.chains, d.invocationId = id) →
      ∃ d ∈ (db.updateChainSettlement r).chains, d.invocationId = id := by
    intro id hid
    have : id ∈ db.chains.map (·.invocationId) := List.mem_map.mpr hid
    rw [← hkeys] at this
    exact List.mem_map.mp this
  refine ⟨hkeys ▸ h.chainKeys, h.attemptKeys, h.eventKeys, ?_, h.attemptStored, h.eventStored,
    fun a ha => hchainOf _ (h.attemptChain a ha), fun e he => hchainOf _ (h.eventChain e he), ?_⟩
  · intro d hd
    rcases (hchains d).mp hd with ⟨hd, -⟩ | heq
    · exact h.chainStored d hd
    · rw [heq]
      refine ⟨?_, (receiptValid_iff.1 hs.valid).1⟩
      rw [← hrow]
      exact congrArg (fun x : RuntimeInvocationReceipt => { x with
        status := r.status, settledAt := r.settledAt, durationMs := r.durationMs,
        failureCode := r.failureCode }) (h.chainStored c hs.read.mem).1
  · intro d hd
    change ChainShape d (db.attemptsOf d.invocationId) (db.eventsOf d.invocationId)
    rcases (hchains d).mp hd with ⟨hd, -⟩ | heq
    · exact h.shape d hd
    · rw [heq, ← hid]
      obtain ⟨hattemptRows, heventRows⟩ := h.rows_of_key hs.read.mem hs.read.key
      obtain ⟨hne, hlength, hsettled⟩ := settledCoherent_of_settlementMatches hs.settlement
      have hids : r.attemptIds = (db.attemptRows r.invocationId).map (·.attemptId) := by
        rw [← hs.attemptIds]
        exact hs.read.attempts.resolve_right fun hpending => by simp at hpending
      have hevents := hs.read.events
      rw [hs.eventIds] at hevents
      rw [hattemptRows] at hne hids hsettled
      rw [heventRows] at hevents hsettled
      have hshape := h.shape c hs.read.mem
      generalize db.attemptsOf c.invocationId = attempts at hshape hne hids hsettled
      generalize db.eventsOf c.invocationId = events at hshape hevents hsettled
      have hprimary : ∀ p, PrimaryOf c p → PrimaryOf r p := by
        intro p hp
        rw [← hrow]
        exact ⟨hp.index, hp.route, hp.after⟩
      cases hshape with
      | pending => exact absurd rfl hne
      | single p id primary ids key noEvent =>
          exact .single p id (hprimary p primary) (hs.attemptIds ▸ ids) key (hs.eventIds ▸ noEvent)
            (Or.inr ⟨hids, hevents, hsettled⟩)
      | double p s e id eventId primary second ids key eventIds eventKey =>
          refine .double p s e id eventId (hprimary p primary) ?_ (hs.attemptIds ▸ ids) key
            (hs.eventIds ▸ eventIds) eventKey (Or.inr ⟨hids, hevents, hsettled⟩)
          rw [← hrow]
          exact ⟨second.index, second.after, second.handover⟩

/-- **Every effect keeps the invariant.** -/
theorem effect {after : Database} (heffect : Effect db after) : Consistent after := by
  cases heffect with
  | unchanged => exact h
  | opened r ho => exact h.opened ho
  | primaryStarted c a hs => exact h.primaryStarted hs
  | secondStarted c p a e hs => exact h.secondStarted hs
  | advanced before after ha => exact h.advanced ha
  | resolved e result hr => exact h.resolved hr
  | settled c r hs => exact h.settled hs

end Consistent

/-- **Every reachable database is consistent.** -/
theorem run_consistent (planHash : JsValue → JsString) (calls : List Call) :
    Consistent (run planHash calls) :=
  List.foldlRecOn calls _ consistent_empty fun db hdb call _ => hdb.effect (call.effect planHash db)

end Hepha.Runtime
