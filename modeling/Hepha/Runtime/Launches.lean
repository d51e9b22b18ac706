import Hepha.Runtime.Coordinator
import Hepha.Runtime.Forward

/-!
# The processes of an execution

An execution runs beside other parties that write to the same store: workers that
report what they have done, and other executions.  They may make any call of the store
between any two requests.

`Launched` is what holds of the processes of an execution at every time: they are of
different steps of the plan and in the order of the plan, each has a row in the store
that was past its preparation before the process began, and the second step has only
been executed after a primary attempt that has ended without a completion, whose work
had not begun or has the checkpoint that was handed over.

## Strategy

What is said of the store is said of rows that later calls leave as they are or move
forward, so it lasts (`Lasting`).  An assertion is such a fact, with the consistency of
the store and the list of the processes so far (`At`); it is carried through every
request but that for a process (`At.quiet`).
-/

namespace Hepha.Runtime

open Interaction Interaction.Program

/-! ## The surroundings of an execution -/

/-- The store, and the processes that were executed. -/
structure World where
  db : Database
  launches : List ProcessRequest

/-- A value that a guard reads as a record, if it accepts it. -/
def Carries {α : Type} (guard : JsValue → Option α) (raw : JsValue) (record : α) : Prop :=
  ∀ x, guard raw = some x → x = record

/-- A write of the store, and whether it was accepted. -/
def World.Writes {α : Type} (w : World) (outcome : Outcome α) (accepted : Bool) (after : World) :
    Prop :=
  after = { w with db := outcome.1 } ∧ accepted = outcome.2.isOk

section

variable (planHash : JsValue → JsString)

def World.Answers (w : World) : (r : Request) → r.Answer → World → Prop
  | .execute process, _, after => after = { w with launches := w.launches ++ [process] }
  | .openInvocation plan receipt, accepted, after =>
      ∃ raw, Carries isRuntimeInvocationOpen raw ⟨plan, receipt⟩ ∧
        w.Writes (openInvocation planHash w.db raw) accepted after
  | .startAttempt start, accepted, after =>
      ∃ raw, Carries isRuntimeAttemptStart raw start ∧
        w.Writes (startAttempt w.db raw) accepted after
  | .markAttemptSpawned attempt, accepted, after =>
      ∃ raw, Carries isRuntimeAttempt raw attempt ∧
        w.Writes (markAttemptSpawned w.db raw) accepted after
  | .settleAttempt attempt, accepted, after =>
      ∃ raw, Carries isRuntimeAttempt raw attempt ∧
        w.Writes (settleAttempt w.db raw) accepted after
  | .appendRouteChange event, accepted, after =>
      ∃ raw, Carries isRuntimeRouteChangeEvent raw event ∧
        w.Writes (appendRouteChange w.db raw) accepted after
  | .settleInvocation receipt, accepted, after =>
      ∃ raw, Carries isRuntimeInvocationReceipt raw receipt ∧
        w.Writes (settleInvocation w.db raw) accepted after
  | .getInvocation id, evidence, after => evidence = getInvocation w.db (.str id) ∧ after = w
  | .now, _, after => after = w
  | .createId, _, after => after = w
  | .getConnection _, _, after => after = w
  | .providerIdForConnection _, _, after => after = w
  | .beforeProcess _, _, after => after = w
  | .prepareContext .., _, after => after = w
  | .readSecret _, _, after => after = w
  | .buildEnvironment _, _, after => after = w
  | .cleanup, _, after => after = w
  | .readWorkState .., _, after => after = w

/-- Another party makes a call of the store. -/
def World.Moves (w after : World) : Prop :=
  ∃ call : Call, after = { w with db := call.apply planHash w.db }

def surroundings : Surroundings Request Request.Answer World where
  answers := World.Answers planHash
  moves := World.Moves planHash

end

/-- Every request but that for a process. -/
def Request.IsQuiet : Request → Prop
  | .execute _ => False
  | _ => True

/-! ## What holds of the processes -/

/-- The attempt of a step has a row that is past its preparation. -/
def Spawned (input : CoordinatorInput) (stepIndex : ℕ) (process : ProcessRequest)
    (db : Database) : Prop :=
  ∃ a ∈ db.attempts, a.invocationId = input.invocationId.toWellFormed ∧
    a.attemptIndex = stepIndex ∧ a.approvedRoute = process.approvedRoute.stored ∧
    a.providerId = some process.providerId.toWellFormed ∧ a.status ≠ .preparing

/-- No work of the primary attempt was begun, or it has the checkpoint that is handed over. -/
def Resumes (input : CoordinatorInput) (p : RuntimeAttempt) : Option RecoveryContext → Prop
  | none => p.workState = .none
  | some r => p.workState = .checkpointed ∧ p.checkpointId = some r.checkpointId ∧
      p.checkpointCursor = some r.checkpointCursor ∧ r.priorInvocationId = input.invocationId

/-- The primary attempt has ended without a completion, and may be resumed. -/
def HandedOver (input : CoordinatorInput) (recoveryContext : Option RecoveryContext)
    (db : Database) : Prop :=
  ∃ p ∈ db.attempts, p.invocationId = input.invocationId.toWellFormed ∧ p.attemptIndex = 0 ∧
    isTerminalAttempt p = true ∧ p.status ≠ .completed ∧ Resumes input p recoveryContext

/-- What holds of the process of a step. -/
structure OfStep (input : CoordinatorInput) (db : Database) (stepIndex : ℕ)
    (process : ProcessRequest) : Prop where
  step : ∃ plan step, isHandoffPlan input.plan = some plan ∧ plan.steps[stepIndex]? = some step ∧
    process.approvedRoute = step.route
  inputRef : process.inputRef = input.inputRef
  spawned : Spawned input stepIndex process db
  first : stepIndex = 0 → process.recoveryContext = none
  second : stepIndex ≠ 0 → HandedOver input process.recoveryContext db

/-- The processes are of different steps, in the order of the plan. -/
def Launched (input : CoordinatorInput) (w : World) : Prop :=
  ∃ steps : List ℕ, steps.Pairwise (· < ·) ∧ List.Forall₂ (OfStep input w.db) steps w.launches

/-! ## Facts that last -/

/-- What the store's effects keep. -/
def Lasting (D : Database → Prop) : Prop :=
  ∀ db after, Consistent db → Effect db after → D db → D after

theorem Lasting.and {D E : Database → Prop} (hD : Lasting D) (hE : Lasting E) :
    Lasting fun db => D db ∧ E db :=
  fun db after hconsistent heffect h =>
    ⟨hD db after hconsistent heffect h.1, hE db after hconsistent heffect h.2⟩

theorem Lasting.imp {p : Prop} {D : Database → Prop} (hD : Lasting D) :
    Lasting fun db => p → D db :=
  fun db after hconsistent heffect h hp => hD db after hconsistent heffect (h hp)

theorem lasting_spawned {input : CoordinatorInput} {stepIndex : ℕ} {process : ProcessRequest} :
    Lasting (Spawned input stepIndex process) := by
  rintro db after hconsistent heffect ⟨a, ha, hinvocation, hindex, hroute, hprovider, hstatus⟩
  obtain ⟨b, hb, rfl | hstep⟩ := hconsistent.attempts_effect heffect a ha
  · exact ⟨b, hb, hinvocation, hindex, hroute, hprovider, hstatus⟩
  · have hpath : AttemptPath a b := .single hstep
    have hauth := hstep.auth
    simp only [stablePreparedAuth, Bool.and_eq_true, beq_iff_eq] at hauth
    have hidentity := hstep.identity
    exact ⟨b, hb, hidentity.invocationId.trans hinvocation, hidentity.index.trans hindex,
      hidentity.route.trans hroute, hauth.1.1.1.symm.trans hprovider, (hpath.spawned hstatus).1⟩

theorem lasting_handedOver {input : CoordinatorInput} {recoveryContext : Option RecoveryContext} :
    Lasting (HandedOver input recoveryContext) := by
  rintro db after hconsistent heffect ⟨p, hp, hinvocation, hindex, hterminal, hrest⟩
  obtain ⟨q, hq, rfl | hstep⟩ := hconsistent.attempts_effect heffect p hp
  · exact ⟨q, hq, hinvocation, hindex, hterminal, hrest⟩
  · rw [hstep.move.not_terminal] at hterminal
    exact absurd hterminal Bool.false_ne_true

theorem lasting_ofStep {input : CoordinatorInput} {stepIndex : ℕ} {process : ProcessRequest} :
    Lasting fun db => OfStep input db stepIndex process := by
  intro db after hconsistent heffect h
  exact { h with
    spawned := lasting_spawned db after hconsistent heffect h.spawned
    second := fun hindex => lasting_handedOver db after hconsistent heffect (h.second hindex) }

theorem lasting_forall₂ {input : CoordinatorInput} {steps : List ℕ}
    {launches : List ProcessRequest} :
    Lasting fun db => List.Forall₂ (OfStep input db) steps launches :=
  fun db after hconsistent heffect h =>
    h.imp fun _ _ => lasting_ofStep db after hconsistent heffect

/-! ## What the store answers -/

theorem isOk_error {α : Type} {code : RuntimePersistenceErrorCode} :
    (Except.error code : RuntimePersistenceResult α).isOk = false := rfl

theorem catchConflict_ok {α : Type} {db : Database} {body : Option (Outcome α)}
    (hok : (catchConflict db body).2.isOk = true) :
    ∃ outcome, body = some outcome ∧ outcome.2.isOk = true ∧ catchConflict db body = outcome := by
  cases body with
  | none =>
      rw [catchConflict, Option.getD_none, isOk_error] at hok
      exact absurd hok Bool.false_ne_true
  | some outcome => exact ⟨outcome, rfl, hok, rfl⟩

/-- An update of an attempt that is accepted leaves the attempt as its row. -/
theorem updateAttempt_ok {db : Database} (hconsistent : Consistent db) {raw : JsValue}
    {a : RuntimeAttempt} {post : RuntimeAttempt → Bool}
    {transition : RuntimeAttempt → RuntimeAttempt → Bool}
    (hpost : ∀ before after, transition before after = true → post after = true)
    (hraw : Carries isRuntimeAttempt raw a)
    (hok : (updateAttempt db raw post transition).2.isOk = true) :
    post a = true ∧ a.stored ∈ (updateAttempt db raw post transition).1.attempts := by
  unfold updateAttempt at hok ⊢
  cases hguard : isRuntimeAttempt raw with
  | none =>
      rw [hguard] at hok
      exact absurd hok Bool.false_ne_true
  | some x =>
      obtain rfl := hraw x hguard
      rw [hguard] at hok
      obtain ⟨outcome, hbody, hok, heq⟩ := catchConflict_ok hok
      change _ ∧ _ ∈ (catchConflict db _).1.attempts
      rw [heq]
      simp only [Option.bind_eq_bind, Option.bind_eq_some_iff] at hbody
      obtain ⟨found, hread, hbody⟩ := hbody
      cases found with
      | none =>
          cases hbody
          exact absurd hok Bool.false_ne_true
      | some current =>
          obtain ⟨hmem, hkey, -⟩ := readAttempt_some hread
          simp only at hbody
          split_ifs at hbody with hsame hcurrent htransition
          · cases hbody
            rw [← hsame, (hconsistent.attemptStored current hmem).1]
            exact ⟨hcurrent, hmem⟩
          · cases hbody
            exact absurd hok Bool.false_ne_true
          · simp only [Option.bind_eq_some_iff] at hbody
            obtain ⟨after, hupdate, hbody⟩ := hbody
            cases hbody
            rw [updateAttemptRow_some hupdate]
            exact ⟨hpost current x htransition,
              Table.mem_update.2 (.inr ⟨current, hmem, hkey, rfl⟩)⟩
          · cases hbody
            exact absurd hok Bool.false_ne_true

/-- Where an attempt is marked as spawned, it has its row. -/
theorem markAttemptSpawned_ok {db : Database} (hconsistent : Consistent db) {raw : JsValue}
    {a : RuntimeAttempt} (hraw : Carries isRuntimeAttempt raw a)
    (hok : (markAttemptSpawned db raw).2.isOk = true) :
    a.status = .running ∧ a.stored ∈ (markAttemptSpawned db raw).1.attempts := by
  have hpost : ∀ before after, spawnTransition before after = true →
      isSpawnedPostState after = true := by
    intro before after htransition
    simp only [spawnTransition, Bool.and_eq_true] at htransition
    exact htransition.1.1.1.2
  obtain ⟨hspawned, hrow⟩ := updateAttempt_ok hconsistent hpost hraw hok
  simp only [isSpawnedPostState, Bool.and_eq_true, beq_iff_eq] at hspawned
  exact ⟨hspawned.1.1, hrow⟩

/-- Where an attempt is settled, it has its row. -/
theorem settleAttempt_ok {db : Database} (hconsistent : Consistent db) {raw : JsValue}
    {a : RuntimeAttempt} (hraw : Carries isRuntimeAttempt raw a)
    (hok : (settleAttempt db raw).2.isOk = true) :
    isTerminalAttempt a = true ∧ a.stored ∈ (settleAttempt db raw).1.attempts := by
  have hpost : ∀ before after, settleTransition before after = true →
      isTerminalAttempt after = true := by
    intro before after htransition
    simp only [settleTransition, Bool.and_eq_true] at htransition
    exact htransition.1.1.1.1.1
  exact updateAttempt_ok hconsistent hpost hraw hok

/-- Where an invocation is settled, its row is the receipt. -/
theorem settleInvocation_ok {db : Database} {raw : JsValue} {r : RuntimeInvocationReceipt}
    (hraw : Carries isRuntimeInvocationReceipt raw r)
    (hok : (settleInvocation db raw).2.isOk = true) :
    r.status ≠ .running ∧ r ∈ (settleInvocation db raw).1.chains := by
  unfold settleInvocation at hok ⊢
  cases hguard : (isRuntimeInvocationReceipt raw).filter (·.status != .running) with
  | none =>
      rw [hguard] at hok
      exact absurd hok Bool.false_ne_true
  | some x =>
      obtain ⟨hx, hdone⟩ := Option.filter_eq_some_iff.mp hguard
      obtain rfl := hraw x hx
      rw [hguard] at hok
      obtain ⟨outcome, hbody, hok, heq⟩ := catchConflict_ok hok
      change _ ∧ _ ∈ (catchConflict db _).1.chains
      rw [heq]
      refine ⟨by simpa using hdone, ?_⟩
      simp only [Option.bind_eq_bind, Option.bind_eq_some_iff] at hbody
      obtain ⟨found, hread, hbody⟩ := hbody
      cases found with
      | none =>
          cases hbody
          exact absurd hok Bool.false_ne_true
      | some current =>
          have hcurrent := readReceipt_some hread
          simp only at hbody
          split_ifs at hbody with hsame hopen
          · simp only [Option.bind_eq_some_iff] at hbody
            obtain ⟨evidence, -, hbody⟩ := hbody
            split_ifs at hbody
            · cases hbody
              exact hsame ▸ hcurrent.mem
            · cases hbody
              exact absurd hok Bool.false_ne_true
          · simp only [Option.bind_eq_some_iff] at hbody
            obtain ⟨attempts, hattempts, events, hevents, hbody⟩ := hbody
            split_ifs at hbody with hsettlement
            · cases hbody
              rw [readAttempts_some hattempts, readEvents_some hevents] at hsettlement
              obtain ⟨hrunning, hfacts, hattemptIds, heventIds⟩ := hopen
              have hsettled : Settled db current x :=
                { read := hcurrent, valid := isRuntimeInvocationReceipt_valid hx
                  running := hrunning, done := by simpa using hdone, facts := hfacts
                  attemptIds := hattemptIds, eventIds := heventIds, settlement := hsettlement }
              exact Table.mem_update.2
                (.inr ⟨current, hcurrent.mem, hcurrent.key, Consistent.settled_row hsettled⟩)
            · cases hbody
              exact absurd hok Bool.false_ne_true
          · cases hbody
            exact absurd hok Bool.false_ne_true

/-- The evidence of an invocation is what its rows hold. -/
theorem getInvocation_some {db : Database} {id : JsString}
    {evidence : RuntimeInvocationEvidence}
    (h : getInvocation db (.str id) = .ok (some evidence)) :
    evidence.attempts = db.attemptRows id ∧ ReceiptRead db id false evidence.receipt ∧
      evidenceValid evidence = true := by
  unfold getInvocation at h
  split at h
  · exact absurd h (by simp)
  · rename_i key hkey
    obtain rfl : id = key := Option.some.inj (Option.filter_eq_some_iff.mp hkey).1
    cases hread : db.readEvidence id with
    | none => simp [hread] at h
    | some found =>
        rw [hread] at h
        obtain rfl : found = some evidence := by simpa using h
        simp only [Database.readEvidence, Option.bind_eq_bind, Option.bind_eq_some_iff] at hread
        obtain ⟨receipt, hreceipt, hread⟩ := hread
        cases receipt with
        | none => simp at hread
        | some receipt =>
            simp only [Option.bind_eq_some_iff, Option.guard_eq_some'] at hread
            obtain ⟨attempts, hattempts, events, hevents, _, hvalid, heq⟩ := hread
            obtain rfl := Option.some.inj (Option.some.inj heq)
            exact ⟨readAttempts_some hattempts, readReceipt_some hreceipt, hvalid⟩

theorem index_of_single {evidence : RuntimeInvocationEvidence} {p : RuntimeAttempt}
    (hvalid : evidenceValid evidence = true) (hp : evidence.attempts = [p]) :
    p.attemptIndex = 0 := by
  have hlisted : attemptsListed evidence.receipt evidence.attempts = true := by
    unfold evidenceValid at hvalid
    simp only [Bool.and_eq_true] at hvalid
    exact hvalid.1.1.1.1.1.2
  rw [hp] at hlisted
  simp only [attemptsListed, List.zipIdx_cons, List.zipIdx_nil, List.all_cons, List.all_nil,
    Bool.and_eq_true, beq_iff_eq] at hlisted
  exact hlisted.2.1.1.2

/-- What is handed over to a second step that the executor selects. -/
theorem resumes_of_workAllows {input : CoordinatorInput} {kind : RuntimeAttemptKind}
    {recoveryContext : Option RecoveryContext} {p : RuntimeAttempt}
    (hselection : isRecoveryContextForSelection (input.step 1 kind recoveryContext) = true)
    (hwork : workAllows (input.step 1 kind recoveryContext) p = true) :
    Resumes input p recoveryContext := by
  cases kind with
  | primary => exact absurd hwork Bool.false_ne_true
  | fallback =>
      obtain rfl : recoveryContext = none := by
        simpa [isRecoveryContextForSelection, CoordinatorInput.step] using hselection
      simpa [workAllows, CoordinatorInput.step, Resumes] using hwork
  | recovery =>
      cases recoveryContext with
      | none => simp [isRecoveryContextForSelection, CoordinatorInput.step] at hselection
      | some r =>
          simp only [isRecoveryContextForSelection, CoordinatorInput.step, if_true, Option.any_some,
            Bool.and_eq_true, beq_iff_eq] at hselection
          simp only [workAllows, CoordinatorInput.step, Bool.and_eq_true, beq_iff_eq,
            Option.map_some] at hwork
          exact ⟨hwork.1.1, hwork.1.2, hwork.2, hselection.2⟩

/-- The evidence that a second attempt is started from. -/
theorem legalSecondAttemptState_some {input : CoordinatorInput} {db : Database}
    {evidence : RuntimeInvocationEvidence} {kind : RuntimeAttemptKind}
    {recoveryContext : Option RecoveryContext} {primary : RuntimeAttempt}
    {code : RuntimeSafeFailureCode}
    (hread : getInvocation db (.str input.invocationId) = .ok (some evidence))
    (hselection : isRecoveryContextForSelection (input.step 1 kind recoveryContext) = true)
    (h : legalSecondAttemptState evidence (input.step 1 kind recoveryContext) =
      some (primary, code)) : HandedOver input recoveryContext db := by
  obtain ⟨hattempts, -, hvalid⟩ := getInvocation_some hread
  unfold legalSecondAttemptState at h
  split at h
  · rename_i p hp
    split_ifs at h with hlegal
    have hmem : p ∈ db.attemptRows input.invocationId := by
      rw [← hattempts, hp]
      exact List.mem_singleton_self p
    rw [attemptRows_eq, List.mem_insertionSort, mem_attemptsOf] at hmem
    obtain ⟨-, -, -, -, -, hcompleted, hrunning, hpreparing, -, hwork⟩ := hlegal
    refine ⟨p, hmem.1, hmem.2, index_of_single hvalid hp, ?_, hcompleted,
      resumes_of_workAllows hselection hwork⟩
    cases hstatus : p.status <;> simp_all [isTerminalAttempt]
  · simp at h

end Hepha.Runtime
