import Hepha.Runtime.Preservation
import Mathlib.Logic.Relation

/-!
# Evidence only moves forward

The rows of the store along a run.  An effect moves at most one attempt, and
by one of the four moves of `AttemptMove`; a chain that is settled is out of
reach of every effect, because each of them has found its chain running or an
attempt or event of it still open.

* `Consistent.attempts_effect` and `Consistent.settled_effect`: one step;
* `run_movesForward`: any two states of a run.
-/

namespace Hepha.Runtime

open Database

variable {db : Database}

/-! ## Moves of an attempt -/

/-- The changes of status and work state an attempt can make. -/
inductive AttemptMove (before after : RuntimeAttempt) : Prop
  | spawned (status : before.status = .preparing ∧ after.status = .running)
      (work : before.workState = .none ∧ after.workState = .none)
  | workStarted (status : before.status = .running ∧ after.status = .running)
      (work : before.workState = .none ∧ after.workState = .started)
  | checkpointed (status : before.status = .running ∧ after.status = .running)
      (work : before.workState = .started ∧ after.workState = .checkpointed)
  | settled (status : isTerminalAttempt before = false ∧ isTerminalAttempt after = true)
      (work : after.workState = before.workState)

/-- One move of an attempt, with what it leaves alone. -/
structure AttemptStep (before after : RuntimeAttempt) : Prop where
  identity : SameIdentity before after
  auth : stablePreparedAuth before after = true
  route : before.status ≠ .preparing → after.actualRoute = before.actualRoute
  move : AttemptMove before after

theorem SameIdentity.refl (a : RuntimeAttempt) : SameIdentity a a :=
  ⟨rfl, rfl, rfl, rfl, rfl, rfl⟩

theorem SameIdentity.trans {a b c : RuntimeAttempt} (hab : SameIdentity a b)
    (hbc : SameIdentity b c) : SameIdentity a c where
  attemptId := hbc.attemptId.trans hab.attemptId
  invocationId := hbc.invocationId.trans hab.invocationId
  index := hbc.index.trans hab.index
  kind := hbc.kind.trans hab.kind
  route := hbc.route.trans hab.route
  prepared := hbc.prepared.trans hab.prepared

/-- How far a status is from the start. -/
def RuntimeAttemptStatus.stage : RuntimeAttemptStatus → ℕ
  | .preparing => 0
  | .running => 1
  | _ => 2

def RuntimeWorkState.stage : RuntimeWorkState → ℕ
  | .none => 0
  | .started => 1
  | .checkpointed => 2

theorem stage_of_terminal {a : RuntimeAttempt} (h : isTerminalAttempt a = true) :
    a.status.stage = 2 := by
  cases hstatus : a.status <;> simp_all [isTerminalAttempt, RuntimeAttemptStatus.stage]

theorem stage_of_open {a : RuntimeAttempt} (h : isTerminalAttempt a = false) :
    a.status.stage < 2 := by
  cases hstatus : a.status <;> simp_all [isTerminalAttempt, RuntimeAttemptStatus.stage]

theorem AttemptMove.status {a b : RuntimeAttempt} (h : AttemptMove a b) :
    b.status = a.status ∨ a.status.stage < b.status.stage := by
  cases h with
  | spawned status => simp [status.1, status.2, RuntimeAttemptStatus.stage]
  | workStarted status => exact Or.inl (status.2.trans status.1.symm)
  | checkpointed status => exact Or.inl (status.2.trans status.1.symm)
  | settled status =>
      have hbefore := stage_of_open status.1
      have hafter := stage_of_terminal status.2
      omega

theorem AttemptMove.work {a b : RuntimeAttempt} (h : AttemptMove a b) :
    b.workState = a.workState ∨ a.workState.stage < b.workState.stage := by
  cases h with
  | spawned _ work => exact Or.inl (work.2.trans work.1.symm)
  | workStarted _ work => simp [work.1, work.2, RuntimeWorkState.stage]
  | checkpointed _ work => simp [work.1, work.2, RuntimeWorkState.stage]
  | settled _ work => exact Or.inl work

theorem AttemptMove.not_terminal {a b : RuntimeAttempt} (h : AttemptMove a b) :
    isTerminalAttempt a = false := by
  cases h with
  | spawned status => simp [isTerminalAttempt, status.1]
  | workStarted status => simp [isTerminalAttempt, status.1]
  | checkpointed status => simp [isTerminalAttempt, status.1]
  | settled status => exact status.1

/-- An attempt that has left the preparation does not return to it. -/
theorem AttemptMove.not_preparing {a b : RuntimeAttempt} (h : AttemptMove a b)
    (hspawned : a.status ≠ .preparing) : b.status ≠ .preparing := by
  intro hb
  rcases h.status with hstatus | hstage
  · exact hspawned (hstatus ▸ hb)
  · simp [hb, RuntimeAttemptStatus.stage] at hstage

/-! ## Paths of an attempt -/

/-- An attempt becomes another of its states by moves. -/
abbrev AttemptPath := Relation.ReflTransGen AttemptStep

section Path

variable {a b c : RuntimeAttempt}

theorem AttemptPath.identity (h : AttemptPath a b) : SameIdentity a b := by
  induction h with
  | refl => exact .refl a
  | tail _ hstep ih => exact ih.trans hstep.identity

theorem AttemptPath.status (h : AttemptPath a b) :
    b.status = a.status ∨ a.status.stage < b.status.stage := by
  induction h with
  | refl => exact Or.inl rfl
  | tail _ hstep ih =>
      rcases hstep.move.status with hstatus | hstage
      · rwa [hstatus]
      · rcases ih with heq | hlt
        · exact Or.inr (heq ▸ hstage)
        · exact Or.inr (hlt.trans hstage)

theorem AttemptPath.work (h : AttemptPath a b) :
    b.workState = a.workState ∨ a.workState.stage < b.workState.stage := by
  induction h with
  | refl => exact Or.inl rfl
  | tail _ hstep ih =>
      rcases hstep.move.work with hwork | hstage
      · rwa [hwork]
      · rcases ih with heq | hlt
        · exact Or.inr (heq ▸ hstage)
        · exact Or.inr (hlt.trans hstage)

/-- A status that has been left is not entered again. -/
theorem AttemptPath.status_left (hab : AttemptPath a b) (hbc : AttemptPath b c)
    (hleft : b.status ≠ a.status) : c.status ≠ a.status := by
  intro hback
  have hab := hab.status.resolve_left hleft
  rcases hbc.status with heq | hlt
  · exact hleft (heq.symm.trans hback)
  · rw [hback] at hlt
    omega

/-- A work state that has been left is not entered again. -/
theorem AttemptPath.work_left (hab : AttemptPath a b) (hbc : AttemptPath b c)
    (hleft : b.workState ≠ a.workState) : c.workState ≠ a.workState := by
  intro hback
  have hab := hab.work.resolve_left hleft
  rcases hbc.work with heq | hlt
  · exact hleft (heq.symm.trans hback)
  · rw [hback] at hlt
    omega

theorem AttemptPath.eq_of_terminal (h : AttemptPath a b) (hterminal : isTerminalAttempt a = true) :
    b = a := by
  induction h with
  | refl => rfl
  | tail _ hstep ih =>
      have := hstep.move.not_terminal
      rw [ih, hterminal] at this
      simp at this

/-- From its spawning on, an attempt keeps its route and authentication facts. -/
theorem AttemptPath.spawned (h : AttemptPath a b) (hspawned : a.status ≠ .preparing) :
    b.status ≠ .preparing ∧ stableRouteAndAuth a b = true := by
  induction h with
  | refl => exact ⟨hspawned, by simp [stableRouteAndAuth, stablePreparedAuth]⟩
  | tail _ hstep ih =>
      obtain ⟨hopen, hstable⟩ := ih
      have hroute := hstep.route hopen
      have hauth := hstep.auth
      simp only [stableRouteAndAuth, stablePreparedAuth, Bool.and_eq_true, beq_iff_eq]
        at hstable hauth ⊢
      refine ⟨hstep.move.not_preparing hopen, hstable.1.trans hroute.symm, ?_⟩
      obtain ⟨-, ⟨⟨hprovider, hconnection⟩, hkind⟩, hversion⟩ := hstable
      obtain ⟨⟨⟨hprovider', hconnection'⟩, hkind'⟩, hversion'⟩ := hauth
      exact ⟨⟨⟨hprovider.trans hprovider', hconnection.trans hconnection'⟩, hkind.trans hkind'⟩,
        hversion.trans hversion'⟩

end Path

/-! ## One effect -/

theorem work_of_preparing {a : RuntimeAttempt} (hvalid : attemptValid a = true)
    (hpreparing : a.status = .preparing) : a.workState = .none := by
  simp only [attemptValid, statusCoherent, hpreparing, preparingCoherent, Bool.and_eq_true,
    beq_iff_eq] at hvalid
  tauto

theorem Advanced.move {before after : RuntimeAttempt} (h : Advanced db before after)
    (hvalid : attemptValid before = true) : AttemptMove before after := by
  rcases h.step with hstep | hstep | hstep | hstep
  · simp only [spawnTransition, isSpawnedPostState, Bool.and_eq_true, beq_iff_eq] at hstep
    obtain ⟨⟨⟨⟨hpreparing, ⟨⟨hrunning, -⟩, hwork⟩⟩, -⟩, -⟩, -⟩ := hstep
    exact .spawned ⟨hpreparing, hrunning⟩ ⟨work_of_preparing hvalid hpreparing, hwork⟩
  · simp only [workTransition, isWorkStartedPostState, Bool.and_eq_true, beq_iff_eq] at hstep
    exact .workStarted ⟨hstep.1.1.1, hstep.1.2.1⟩ ⟨hstep.1.1.2, hstep.1.2.2⟩
  · simp only [checkpointTransition, isCheckpointedPostState, Bool.and_eq_true, beq_iff_eq] at hstep
    exact .checkpointed ⟨hstep.1.1.1, hstep.1.2.1⟩ ⟨hstep.1.1.2, hstep.1.2.2⟩
  · have hwork := hstep
    simp only [settleTransition, sameWorkFacts, Bool.and_eq_true, beq_iff_eq] at hwork
    exact .settled ⟨h.not_terminal, hwork.1.1.1.1.1⟩ hwork.2.1.1.symm

/-- The updates that record a route or authentication facts do it before the spawning. -/
theorem Advanced.stable {before after : RuntimeAttempt} (h : Advanced db before after) :
    stablePreparedAuth before after = true ∧
      (before.status ≠ .preparing → after.actualRoute = before.actualRoute) := by
  rcases h.step with hstep | hstep | hstep | hstep
  · simp only [spawnTransition, Bool.and_eq_true, beq_iff_eq] at hstep
    exact ⟨hstep.2, fun hspawned => absurd hstep.1.1.1.1 hspawned⟩
  · simp only [workTransition, Bool.and_eq_true] at hstep
    rw [sameAttemptExceptWork_eq hstep.2]
    simp [stablePreparedAuth]
  · simp only [checkpointTransition, Bool.and_eq_true] at hstep
    rw [sameAttemptExceptWork_eq hstep.2]
    simp [stablePreparedAuth]
  · simp only [settleTransition, stableRouteAndAuth, Bool.and_eq_true, beq_iff_eq] at hstep
    exact ⟨hstep.1.1.2.2, fun _ => hstep.1.1.2.1.symm⟩

namespace Consistent

variable (h : Consistent db)
include h

/-- An update of an attempt is one move of its row. -/
theorem advanced_step {before after : RuntimeAttempt} (ha : Advanced db before after) :
    AttemptStep before after.stored := by
  obtain ⟨hstored, hvalid⟩ := h.attemptStored before ha.mem
  obtain ⟨hauth, hroute⟩ := ha.stable
  refine ⟨h.advanced_identity ha, ?_, fun hspawned => ?_, ?_⟩
  · have hprovider := congrArg RuntimeAttempt.providerId hstored
    have hconnection := congrArg RuntimeAttempt.authenticationConnectionId hstored
    simp only [stablePreparedAuth, RuntimeAttempt.stored, Bool.and_eq_true, beq_iff_eq]
      at hauth hprovider hconnection ⊢
    obtain ⟨⟨⟨heq, heq'⟩, hkind⟩, hversion⟩ := hauth
    rw [← heq, ← heq']
    exact ⟨⟨⟨hprovider.symm, hconnection.symm⟩, hkind⟩, hversion⟩
  · change after.actualRoute.map (·.stored) = before.actualRoute
    rw [hroute hspawned]
    exact congrArg RuntimeAttempt.actualRoute hstored
  · cases ha.move hvalid with
    | spawned status work => exact .spawned status work
    | workStarted status work => exact .workStarted status work
    | checkpointed status work => exact .checkpointed status work
    | settled status work => exact .settled status work

/-- An attempt's row stays, and changes by at most one move. -/
theorem attempts_effect {after : Database} (heffect : Effect db after) :
    ∀ a ∈ db.attempts, ∃ b ∈ after.attempts, b = a ∨ AttemptStep a b := by
  intro a ha
  cases heffect with
  | unchanged => exact ⟨a, ha, Or.inl rfl⟩
  | opened => exact ⟨a, ha, Or.inl rfl⟩
  | primaryStarted => exact ⟨a, List.mem_append_left _ ha, Or.inl rfl⟩
  | secondStarted => exact ⟨a, List.mem_append_left _ ha, Or.inl rfl⟩
  | advanced before after hadvanced =>
      by_cases hkey : a.attemptId = before.attemptId
      · obtain rfl : a = before := h.attempt_unique ha hadvanced.mem hkey
        exact ⟨after.stored, Table.mem_update.2 (Or.inr ⟨a, ha, rfl, rfl⟩),
          Or.inr (h.advanced_step hadvanced)⟩
      · exact ⟨a, Table.mem_update.2 (Or.inl ⟨ha, hkey⟩), Or.inl rfl⟩
  | resolved => exact ⟨a, ha, Or.inl rfl⟩
  | settled => exact ⟨a, ha, Or.inl rfl⟩

/-- A row that was not there before is that of an attempt in preparation. -/
theorem new_effect {after : Database} (heffect : Effect db after) :
    ∀ b ∈ after.attempts, (∃ a ∈ db.attempts, a.attemptId = b.attemptId) ∨
      b.status = .preparing ∧ b.workState = .none := by
  intro b hb
  cases heffect with
  | unchanged => exact Or.inl ⟨b, hb, rfl⟩
  | opened => exact Or.inl ⟨b, hb, rfl⟩
  | primaryStarted c a hstart =>
      rcases List.mem_append.mp hb with hb | hb
      · exact Or.inl ⟨b, hb, rfl⟩
      · rw [List.mem_singleton.mp hb]
        have hwork := work_of_preparing hstart.valid hstart.preparing
        exact Or.inr ⟨hstart.preparing, hwork⟩
  | secondStarted c p a e hstart =>
      rcases List.mem_append.mp hb with hb | hb
      · exact Or.inl ⟨b, hb, rfl⟩
      · rw [List.mem_singleton.mp hb]
        have hwork := work_of_preparing hstart.valid hstart.preparing
        exact Or.inr ⟨hstart.preparing, hwork⟩
  | advanced before after hadvanced =>
      rcases Table.mem_update.1 hb with ⟨hb, -⟩ | ⟨old, hold, hkey, rfl⟩
      · exact Or.inl ⟨b, hb, rfl⟩
      · exact Or.inl ⟨before, hadvanced.mem, (h.advanced_identity hadvanced).attemptId.symm⟩
  | resolved => exact Or.inl ⟨b, hb, rfl⟩
  | settled => exact Or.inl ⟨b, hb, rfl⟩

/-- The attempts of a settled chain are terminal, and its event is resolved. -/
theorem settled_closed {c : RuntimeInvocationReceipt} (hc : c ∈ db.chains)
    (hsettled : c.status ≠ .running) :
    db.attemptsOf c.invocationId ≠ [] ∧
      (∀ a ∈ db.attemptsOf c.invocationId, isTerminalAttempt a = true) ∧
      ∀ e ∈ db.eventsOf c.invocationId, e.result ≠ .started := by
  have hshape := h.shape c hc
  generalize db.attemptsOf c.invocationId = attempts at hshape ⊢
  generalize db.eventsOf c.invocationId = events at hshape ⊢
  have hterminal : ∀ a ∈ attempts, OpenOrSettled c attempts events →
      isTerminalAttempt a = true := by
    intro a ha hstatus
    by_contra hopen
    exact not_settledCoherent ha (by simpa using hopen) (hstatus.resolve_left hsettled).2.2
  cases hshape with
  | pending running => exact absurd running hsettled
  | single p id primary ids key noEvent status =>
      exact ⟨by simp, fun a ha => hterminal a ha status, by simp⟩
  | double p s e id eventId primary second ids key eventIds eventKey status =>
      refine ⟨by simp, fun a ha => hterminal a ha status, fun f hf hstarted => ?_⟩
      obtain rfl : f = e := by simpa using hf
      exact hsettled (status.running_of_started hstarted)

/-- No effect reaches a settled chain. -/
theorem settled_effect {after : Database} (heffect : Effect db after)
    {c : RuntimeInvocationReceipt} (hc : c ∈ db.chains) (hsettled : c.status ≠ .running) :
    c ∈ after.chains ∧ after.attemptsOf c.invocationId = db.attemptsOf c.invocationId ∧
      after.eventsOf c.invocationId = db.eventsOf c.invocationId := by
  obtain ⟨hne, hterminal, hresolved⟩ := h.settled_closed hc hsettled
  cases heffect with
  | unchanged => exact ⟨hc, rfl, rfl⟩
  | opened => exact ⟨List.mem_append_left _ hc, rfl, rfl⟩
  | primaryStarted d a hstart =>
      refine ⟨hc, ?_, rfl⟩
      rw [attemptsOf_append, if_neg, List.append_nil]
      intro hkey
      have hfree : ∀ b ∈ db.attempts, b.invocationId = c.invocationId → b.attemptIndex ≠ 0 :=
        fun b hb hbc => hstart.index ▸ hstart.free b hb (hbc.trans hkey.symm)
      exact hne (h.pending_of_free hc hfree).1
  | secondStarted d p a e hstart =>
      have hhandover := handoverStart hstart.handover
      have hother : c.invocationId ≠ d.invocationId := by
        intro hkey
        obtain rfl : c = d := h.chain_unique hc hstart.read.mem hkey
        exact hsettled hhandover.running
      have hattempt : a.stored.invocationId = d.invocationId := hstart.read.key.symm
      have hevent : e.stored.invocationId = d.invocationId := by
        change e.invocationId.toWellFormed = d.invocationId
        rw [hhandover.eventChain, h.chain_key hstart.read.mem]
      have hattempts := attemptsOf_append db a.stored c.invocationId
      have hevents := eventsOf_append db e.stored c.invocationId
      rw [hattempt, if_neg (Ne.symm hother), List.append_nil] at hattempts
      rw [hevent, if_neg (Ne.symm hother), List.append_nil] at hevents
      refine ⟨Table.mem_update.2 (Or.inl ⟨hc, ?_⟩), hattempts, hevents⟩
      rwa [h.chain_key hstart.read.mem]
  | advanced before after hadvanced =>
      refine ⟨hc, ?_, rfl⟩
      have hfilter : (Table.update RuntimeAttempt.attemptId db.attempts before.attemptId
          fun _ => after.stored).filter (fun a => decide (a.invocationId = c.invocationId)) =
          Table.update RuntimeAttempt.attemptId (db.attemptsOf c.invocationId) before.attemptId
            fun _ => after.stored :=
        Table.filter_update fun a ha hkey => by
          obtain rfl : a = before := h.attempt_unique ha hadvanced.mem hkey
          rw [(h.advanced_identity hadvanced).invocationId]
      refine hfilter.trans (Table.update_eq_self fun a ha hkey => ?_)
      have hopen := hterminal a ha
      rw [h.attempt_unique (mem_attemptsOf.1 ha).1 hadvanced.mem hkey, hadvanced.not_terminal]
        at hopen
      simp at hopen
  | resolved e result hr =>
      refine ⟨hc, rfl, ?_⟩
      have hfilter : (Table.update RuntimeRouteChangeEvent.eventId db.events e.eventId
          fun e => { e with result }).filter (fun e => decide (e.invocationId = c.invocationId)) =
          Table.update RuntimeRouteChangeEvent.eventId (db.eventsOf c.invocationId) e.eventId
            fun e => { e with result } :=
        Table.filter_update fun _ _ _ => rfl
      refine hfilter.trans (Table.update_eq_self fun f hf hkey => ?_)
      obtain rfl : f = e :=
        List.inj_on_of_nodup_map h.eventKeys (mem_eventsOf.1 hf).1 hr.mem hkey
      exact hresolved f hf hr.started
  | settled d r hs =>
      refine ⟨Table.mem_update.2 (Or.inl ⟨hc, fun hkey => ?_⟩), rfl, rfl⟩
      obtain rfl : c = d := h.chain_unique hc hs.read.mem (hkey.trans hs.read.key.symm)
      exact hsettled hs.running

/-- A chain has at most two attempts, the second after a first that may be taken over. -/
theorem attemptsOf_cases (id : JsString) :
    db.attemptsOf id = [] ∨ (∃ p, db.attemptsOf id = [p]) ∨
      ∃ p s, db.attemptsOf id = [p, s] ∧ isTerminalAttempt p = true ∧ p.status ≠ .completed ∧
        (s.attemptKind = .fallback ∧ p.workState = .none ∨
          s.attemptKind = .recovery ∧ p.workState = .checkpointed) := by
  cases hrows : db.attemptsOf id with
  | nil => exact Or.inl rfl
  | cons p rest =>
      have hp := mem_attemptsOf.1 (hrows ▸ List.mem_cons_self : p ∈ db.attemptsOf id)
      obtain ⟨c, hc, hkey⟩ := h.attemptChain p hp.1
      obtain rfl : c.invocationId = id := hkey.trans hp.2
      have hshape := h.shape c hc
      rw [hrows] at hshape
      generalize db.eventsOf c.invocationId = events at hshape
      cases hshape with
      | single => exact Or.inr (Or.inl ⟨p, rfl⟩)
      | double _ s e _ _ _ second =>
          have hhandover := second.handover
          simp only [handoverCoherent, Bool.and_eq_true, Bool.not_eq_true', Bool.and_eq_false_iff,
            beq_iff_eq, bne_iff_ne, beq_eq_false_iff_ne, bne_eq_false_iff_eq] at hhandover
          refine Or.inr (Or.inr ⟨p, s, rfl, by tauto, by tauto, ?_⟩)
          have hkind : s.attemptKind = e.kind.toAttemptKind := by tauto
          cases hk : e.kind with
          | fallback =>
              rw [hk] at hkind
              exact Or.inl ⟨hkind, by tauto⟩
          | recovery =>
              rw [hk] at hkind
              exact Or.inr ⟨hkind, by tauto⟩

end Consistent

/-! ## Runs -/

/-- What it means for a sequence of databases that its evidence moves forward. -/
structure MovesForward (history : ℕ → Database) : Prop where
  /-- An attempt starts in preparation, without work. -/
  started : ∀ n, ∀ a ∈ (history (n + 1)).attempts,
    (∀ b ∈ (history n).attempts, b.attemptId ≠ a.attemptId) →
      a.status = .preparing ∧ a.workState = .none
  /-- Between two calls an attempt makes at most one of the moves. -/
  moves : ∀ n, ∀ a ∈ (history n).attempts, ∀ b ∈ (history (n + 1)).attempts,
    b.attemptId = a.attemptId → b = a ∨ AttemptMove a b
  /-- No attempt is lost. -/
  kept : ∀ m n, m ≤ n → ∀ a ∈ (history m).attempts,
    ∃ b ∈ (history n).attempts, b.attemptId = a.attemptId
  /-- A status or a work state that has been left is not entered again. -/
  once : ∀ l m n, l ≤ m → m ≤ n → ∀ a ∈ (history l).attempts, ∀ b ∈ (history m).attempts,
    ∀ c ∈ (history n).attempts, b.attemptId = a.attemptId → c.attemptId = a.attemptId →
      (b.status ≠ a.status → c.status ≠ a.status) ∧
        (b.workState ≠ a.workState → c.workState ≠ a.workState)
  /-- A terminal attempt never changes. -/
  terminal : ∀ m n, m ≤ n → ∀ a ∈ (history m).attempts, ∀ b ∈ (history n).attempts,
    b.attemptId = a.attemptId → isTerminalAttempt a = true → b = a
  /-- Identity, approved route and preparation time never change. -/
  identity : ∀ m n, m ≤ n → ∀ a ∈ (history m).attempts, ∀ b ∈ (history n).attempts,
    b.attemptId = a.attemptId → SameIdentity a b
  /-- From the spawning on, the actual route and the authentication facts never change. -/
  spawned : ∀ m n, m ≤ n → ∀ a ∈ (history m).attempts, ∀ b ∈ (history n).attempts,
    b.attemptId = a.attemptId → a.status ≠ .preparing → stableRouteAndAuth a b = true
  /-- A settled chain keeps its receipt, its attempts and its events. -/
  settled : ∀ m n, m ≤ n → ∀ c ∈ (history m).chains, c.status ≠ .running →
    c ∈ (history n).chains ∧ (∀ d ∈ (history n).chains, d.invocationId = c.invocationId → d = c) ∧
      (history n).attemptsOf c.invocationId = (history m).attemptsOf c.invocationId ∧
      (history n).eventsOf c.invocationId = (history m).eventsOf c.invocationId
  /-- A chain has at most two attempts, the second after a first that may be taken over. -/
  attempts : ∀ n id, (history n).attemptsOf id = [] ∨ (∃ p, (history n).attemptsOf id = [p]) ∨
    ∃ p s, (history n).attemptsOf id = [p, s] ∧ isTerminalAttempt p = true ∧
      p.status ≠ .completed ∧ (s.attemptKind = .fallback ∧ p.workState = .none ∨
        s.attemptKind = .recovery ∧ p.workState = .checkpointed)

section History

variable {history : ℕ → Database} (hconsistent : ∀ n, Consistent (history n))
  (heffect : ∀ n, Effect (history n) (history (n + 1)))
include hconsistent heffect

theorem attempts_path {m n : ℕ} (hmn : m ≤ n) :
    ∀ a ∈ (history m).attempts, ∃ b ∈ (history n).attempts, AttemptPath a b := by
  intro a ha
  induction n, hmn using Nat.le_induction with
  | base => exact ⟨a, ha, .refl⟩
  | succ n _ ih =>
      obtain ⟨b, hb, hpath⟩ := ih
      obtain ⟨c, hc, rfl | hstep⟩ := (hconsistent n).attempts_effect (heffect n) b hb
      · exact ⟨c, hc, hpath⟩
      · exact ⟨c, hc, hpath.tail hstep⟩

/-- Two states of one attempt are joined by moves. -/
theorem attempt_path {m n : ℕ} (hmn : m ≤ n) {a b : RuntimeAttempt}
    (ha : a ∈ (history m).attempts) (hb : b ∈ (history n).attempts)
    (hkey : b.attemptId = a.attemptId) : AttemptPath a b := by
  obtain ⟨c, hc, hpath⟩ := attempts_path hconsistent heffect hmn a ha
  obtain rfl : b = c :=
    (hconsistent n).attempt_unique hb hc (hkey.trans hpath.identity.attemptId.symm)
  exact hpath

theorem settled_kept {m n : ℕ} (hmn : m ≤ n) {c : RuntimeInvocationReceipt}
    (hc : c ∈ (history m).chains) (hsettled : c.status ≠ .running) :
    c ∈ (history n).chains ∧
      (history n).attemptsOf c.invocationId = (history m).attemptsOf c.invocationId ∧
      (history n).eventsOf c.invocationId = (history m).eventsOf c.invocationId := by
  induction n, hmn using Nat.le_induction with
  | base => exact ⟨hc, rfl, rfl⟩
  | succ n _ ih =>
      obtain ⟨hmem, hattempts, hevents⟩ := ih
      obtain ⟨hmem', hattempts', hevents'⟩ :=
        (hconsistent n).settled_effect (heffect n) hmem hsettled
      exact ⟨hmem', hattempts'.trans hattempts, hevents'.trans hevents⟩

/-- A history of consistent databases that changes by effects moves forward. -/
theorem movesForward_of_effects : MovesForward history where
  started n a ha hnew := by
    rcases (hconsistent n).new_effect (heffect n) a ha with ⟨b, hb, hkey⟩ | hstart
    · exact absurd hkey (hnew b hb)
    · exact hstart
  moves n a ha b hb hkey := by
    obtain ⟨c, hc, hstep⟩ := (hconsistent n).attempts_effect (heffect n) a ha
    have hid : c.attemptId = a.attemptId := by
      rcases hstep with rfl | hstep
      · rfl
      · exact hstep.identity.attemptId
    obtain rfl : b = c := (hconsistent (n + 1)).attempt_unique hb hc (hkey.trans hid.symm)
    exact hstep.imp_right AttemptStep.move
  kept m n hmn a ha := by
    obtain ⟨b, hb, hpath⟩ := attempts_path hconsistent heffect hmn a ha
    exact ⟨b, hb, hpath.identity.attemptId⟩
  once l m n hlm hmn a ha b hb c hc hab hac := by
    have hpath := attempt_path hconsistent heffect hlm ha hb hab
    have hpath' := attempt_path hconsistent heffect hmn hb hc (hac.trans hab.symm)
    exact ⟨hpath.status_left hpath', hpath.work_left hpath'⟩
  terminal m n hmn a ha b hb hkey hterminal :=
    (attempt_path hconsistent heffect hmn ha hb hkey).eq_of_terminal hterminal
  identity m n hmn a ha b hb hkey := (attempt_path hconsistent heffect hmn ha hb hkey).identity
  spawned m n hmn a ha b hb hkey hspawned :=
    ((attempt_path hconsistent heffect hmn ha hb hkey).spawned hspawned).2
  settled m n hmn c hc hsettled := by
    obtain ⟨hmem, hrows⟩ := settled_kept hconsistent heffect hmn hc hsettled
    exact ⟨hmem, fun d hd hkey => (hconsistent n).chain_unique hd hmem hkey, hrows⟩
  attempts n id := (hconsistent n).attemptsOf_cases id

end History

/-- **The evidence of every run moves forward**, from call to call. -/
theorem run_movesForward (planHash : JsValue → JsString) (calls : List Call) :
    MovesForward fun n => run planHash (calls.take n) := by
  refine movesForward_of_effects (fun n => run_consistent planHash (calls.take n)) fun n => ?_
  by_cases hn : n < calls.length
  · rw [List.take_succ_eq_append_getElem hn, run, run, List.foldl_append]
    exact Call.effect planHash _ _
  · rw [List.take_of_length_le (by omega), List.take_of_length_le (by omega)]
    exact .unchanged

end Hepha.Runtime
