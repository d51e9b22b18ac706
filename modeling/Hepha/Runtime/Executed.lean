import Hepha.Runtime.Launches
import Hepha.Runtime.Reopen

/-!
# What an execution executes

The assertions of `Launches` are carried through the executor and the coordinator.
Most of what they do is quiet: it makes no request for a process, and what the store
has of the invocation lasts.  Two requests add a fact, the one that reads the evidence of
the primary attempt and the one that marks an attempt as spawned; one adds a process.

* `executeAttempt_ensures`: one step adds at most its own process;
* `execute_launches`: what holds of an execution at every time.
-/

namespace Hepha.Runtime

open Interaction Interaction.Program

variable {planHash : JsValue → JsString} {input : CoordinatorInput} {D E : Database → Prop}
  {launches : List ProcessRequest} {w : World}

/-! ## Assertions -/

/-- A fact about the store, which is consistent, and the processes so far. -/
structure At (D : Database → Prop) (launches : List ProcessRequest) (w : World) : Prop where
  consistent : Consistent w.db
  fact : D w.db
  launches : w.launches = launches

theorem At.effect (hw : At D launches w) (hD : Lasting D) {after : World}
    (heffect : Effect w.db after.db) (hlaunches : after.launches = w.launches) :
    At D launches after :=
  ⟨hw.consistent.effect heffect, hD _ _ hw.consistent heffect hw.fact,
    hlaunches.trans hw.launches⟩

theorem World.Moves.effect {after : World} (h : w.Moves planHash after) :
    Effect w.db after.db ∧ after.launches = w.launches := by
  obtain ⟨call, rfl⟩ := h
  exact ⟨call.effect planHash w.db, rfl⟩

theorem World.Writes.effect {α : Type} {outcome : Outcome α} {accepted : Bool} {after : World}
    (h : w.Writes outcome accepted after) (heffect : Effect w.db outcome.1) :
    Effect w.db after.db ∧ after.launches = w.launches := by
  obtain ⟨rfl, -⟩ := h
  exact ⟨heffect, rfl⟩

/-- A quiet request changes the store as its calls do, and executes nothing. -/
theorem World.Answers.effect {after : World} {r : Request} {b : r.Answer} (hr : r.IsQuiet)
    (h : w.Answers planHash r b after) :
    Effect w.db after.db ∧ after.launches = w.launches := by
  cases r with
  | execute => exact absurd hr id
  | openInvocation =>
      obtain ⟨raw, -, hwrites⟩ := h
      exact hwrites.effect ((Call.openInvocation raw).effect planHash w.db)
  | startAttempt =>
      obtain ⟨raw, -, hwrites⟩ := h
      exact hwrites.effect ((Call.startAttempt raw).effect planHash w.db)
  | markAttemptSpawned =>
      obtain ⟨raw, -, hwrites⟩ := h
      exact hwrites.effect ((Call.markAttemptSpawned raw).effect planHash w.db)
  | settleAttempt =>
      obtain ⟨raw, -, hwrites⟩ := h
      exact hwrites.effect ((Call.settleAttempt raw).effect planHash w.db)
  | appendRouteChange =>
      obtain ⟨raw, -, hwrites⟩ := h
      exact hwrites.effect ((Call.appendRouteChange raw).effect planHash w.db)
  | settleInvocation =>
      obtain ⟨raw, -, hwrites⟩ := h
      exact hwrites.effect ((Call.settleInvocation raw).effect planHash w.db)
  | getInvocation =>
      obtain ⟨-, rfl⟩ := h
      exact ⟨.unchanged, rfl⟩
  | _ =>
      obtain rfl := h
      exact ⟨.unchanged, rfl⟩

/-- A lasting fact with which the processes are as they should be. -/
structure Keeps (input : CoordinatorInput) (D : Database → Prop)
    (launches : List ProcessRequest) : Prop where
  lasting : Lasting D
  launched : ∀ db, D db → Launched input ⟨db, launches⟩

namespace Keeps

variable (h : Keeps input D launches)
include h

theorem and (hE : Lasting E) : Keeps input (fun db => D db ∧ E db) launches :=
  ⟨h.lasting.and hE, fun db hdb => h.launched db hdb.1⟩

theorem safe (hw : At D launches w) : Launched input w := by
  obtain ⟨db, launched⟩ := w
  obtain rfl : launched = launches := hw.launches
  exact h.launched db hw.fact

theorem upheld : Upheld (surroundings planHash) (Launched input) (At D launches) where
  moves _ _ hs hmove := hs.effect h.lasting hmove.effect.1 hmove.effect.2
  safe _ hs := h.safe hs

theorem upheld_and (p : Prop) :
    Upheld (surroundings planHash) (Launched input) fun t => p ∧ At D launches t where
  moves s t hs hmove := ⟨hs.1, h.upheld.moves s t hs.2 hmove⟩
  safe _ hs := h.safe hs.2

theorem answer (r : Request) {b : r.Answer} {after : World} (hr : r.IsQuiet)
    (hw : At D launches w) (hanswer : w.Answers planHash r b after) : At D launches after :=
  hw.effect h.lasting (hanswer.effect hr).1 (hanswer.effect hr).2

theorem finish {α : Type} {post : α → World → Prop} (a : α) (hw : At D launches w)
    (hpost : ∀ t, At D launches t → post a t) :
    Ensures (surroundings planHash) (Launched input) post (.done a) w :=
  fun _ ht => ⟨h.safe (h.upheld.moved hw ht), hpost _ (h.upheld.moved hw ht)⟩

/-- A quiet program keeps the assertion. -/
theorem yields {α : Type} {p : Handoff α} {R : α → Prop} (hp : Yields Request.IsQuiet R p)
    (hw : At D launches w) :
    Ensures (surroundings planHash) (Launched input) (fun a t => R a ∧ At D launches t) p w :=
  hp.ensures h.upheld (fun _ _ _ _ hr hs hanswer => h.answer _ hr hs hanswer) hw

variable {α : Type} {post : α → World → Prop}

/-- A quiet request keeps the assertion. -/
theorem ask {r : Request} {next : r.Answer → Handoff α} (hr : r.IsQuiet) (hw : At D launches w)
    (hnext : ∀ b t, At D launches t →
      Ensures (surroundings planHash) (Launched input) post (next b) t) :
    Ensures (surroundings planHash) (Launched input) post (.ask r next) w :=
  .ask h.upheld hw fun _ b u ht hu => hnext b u (h.answer _ hr ht hu)

/-- The evidence of an invocation is what the store holds. -/
theorem getInvocation {id : JsString}
    {next : RuntimePersistenceResult (Option RuntimeInvocationEvidence) → Handoff α}
    (hw : At D launches w)
    (hnext : ∀ t, At D launches t → Ensures (surroundings planHash) (Launched input) post
      (next (Runtime.getInvocation t.db (.str id))) t) :
    Ensures (surroundings planHash) (Launched input) post (.ask (.getInvocation id) next) w := by
  refine .ask h.upheld hw fun t b u ht hu => ?_
  obtain ⟨rfl, rfl⟩ := hu
  exact hnext u ht

/-- Where an attempt is marked as spawned, the store has its row. -/
theorem markAttemptSpawned {a : RuntimeAttempt} {next : Bool → Handoff α}
    (hw : At D launches w)
    (hrefused : ∀ t, At D launches t →
      Ensures (surroundings planHash) (Launched input) post (next false) t)
    (haccepted : ∀ t, At D launches t → a.status = .running → a.stored ∈ t.db.attempts →
      Ensures (surroundings planHash) (Launched input) post (next true) t) :
    Ensures (surroundings planHash) (Launched input) post (.ask (.markAttemptSpawned a) next)
      w := by
  refine .ask h.upheld hw fun t b u ht hu => ?_
  have hanswer : t.Answers planHash (.markAttemptSpawned a) b u := hu
  have hafter := h.answer (.markAttemptSpawned a) trivial ht hanswer
  obtain ⟨raw, hraw, rfl, rfl⟩ := hu
  cases hok : (Runtime.markAttemptSpawned t.db raw).2.isOk with
  | false => exact hrefused _ hafter
  | true =>
      obtain ⟨hrunning, hmem⟩ := markAttemptSpawned_ok ht.consistent hraw hok
      exact haccepted _ hafter hrunning hmem

end Keeps

/-! ## Quiet programs -/

theorem yields_currentReceipt (id : JsString) :
    Yields Request.IsQuiet (fun _ => True) (currentReceipt id) := by
  refine ⟨trivial, fun b => ?_⟩
  rcases b with _ | _ | _ <;> trivial

variable {executorInput : ExecutorInput} {plan : HandoffPlan} {receipt : RuntimeInvocationReceipt}
  {a : RuntimeAttempt} {event : Option RuntimeRouteChangeEvent} {code : ExecutorErrorCode}
  {failureCode : RuntimeSafeFailureCode} {output : JsString} {opened : Initialization}

theorem yields_closeInvocation :
    Yields Request.IsQuiet (fun result => result.isOk = true → a.status = .completed)
      (closeInvocation executorInput plan receipt a code output) := by
  unfold closeInvocation
  refine .ite (fun _ => ?_) fun _ => ⟨trivial, fun settledAt => ⟨trivial, fun accepted => ?_⟩⟩
  · exact fun hok => absurd hok Bool.false_ne_true
  · cases accepted with
    | false => exact fun hok => absurd hok Bool.false_ne_true
    | true =>
        refine .ite (fun hcompleted => ?_) fun _ => ?_
        · exact fun _ => hcompleted
        · exact fun hok => absurd hok Bool.false_ne_true

theorem yields_finishAttempt :
    Yields Request.IsQuiet (fun result => result.isOk = true → a.status = .completed)
      (finishAttempt executorInput plan receipt a event code output) := by
  unfold finishAttempt
  refine .ite (fun _ => ?_) fun _ => ⟨trivial, fun accepted => ?_⟩
  · exact fun hok => absurd hok Bool.false_ne_true
  · cases accepted with
    | false => exact fun hok => absurd hok Bool.false_ne_true
    | true =>
        refine (yields_currentReceipt _).bind fun persisted _ => ?_
        cases persisted with
        | none => exact fun hok => absurd hok Bool.false_ne_true
        | some persisted =>
            cases event with
            | none => exact yields_closeInvocation
            | some event =>
                refine ⟨trivial, fun appended => ?_⟩
                cases appended with
                | false => exact fun hok => absurd hok Bool.false_ne_true
                | true =>
                    refine (yields_currentReceipt _).bind fun updated _ => ?_
                    cases updated with
                    | none => exact fun hok => absurd hok Bool.false_ne_true
                    | some updated => exact yields_closeInvocation

theorem yields_settleStartedPreparation :
    Yields Request.IsQuiet (fun result => result.isOk = false)
      (settleStartedPreparation executorInput plan receipt a event failureCode code) := by
  refine ⟨trivial, fun terminalAt => ?_⟩
  refine yields_finishAttempt.imp fun result hresult => ?_
  exact Bool.eq_false_iff.mpr fun hok => absurd (hresult hok) (by simp)

theorem yields_failPreparation :
    Yields Request.IsQuiet (fun result => result.isOk = false)
      (failPreparation executorInput plan opened failureCode code) := by
  refine ⟨trivial, fun started => ?_⟩
  cases started with
  | false => rfl
  | true => exact yields_settleStartedPreparation

theorem yields_abandonPreparation :
    Yields Request.IsQuiet (fun result => result.isOk = false)
      (abandonPreparation executorInput plan receipt a event failureCode code) := by
  refine ⟨trivial, fun cleaned => ?_⟩
  cases cleaned with
  | false => exact yields_settleStartedPreparation
  | true => exact yields_settleStartedPreparation

theorem yields_secretFor (auth : Authentication) :
    Yields Request.IsQuiet (fun _ => True) (secretFor auth) := by
  cases auth with
  | piSession => trivial
  | injectedConnectionSecret secretRef version =>
      refine ⟨trivial, fun secret => ?_⟩
      rcases secret with _ | _ | value
      · trivial
      · trivial
      · exact .ite (fun _ => trivial) fun _ => trivial

theorem yields_readCurrentAttempt (invocationId attemptId : JsString) :
    Yields Request.IsQuiet (fun _ => True) (readCurrentAttempt invocationId attemptId) := by
  refine ⟨trivial, fun evidence => ?_⟩
  rcases evidence with _ | _ | _ <;> trivial

theorem yields_settleProcess (answer : ProcessAnswer) :
    Yields Request.IsQuiet (fun _ => True)
      (settleProcess executorInput plan opened a answer) := by
  refine ⟨trivial, fun cleaned => ⟨trivial, fun terminalAt => ?_⟩⟩
  refine (yields_readCurrentAttempt _ _).bind fun latest _ => ?_
  exact yields_finishAttempt.imp fun _ _ => trivial

/-- The results of an execution that was not successful. -/
def ExecutionResult.isFailed : ExecutionResult → Bool
  | ok .. => false
  | failed .. => true

theorem yields_settleTerminal {coordinatorCode : CoordinatorErrorCode} :
    Yields Request.IsQuiet (fun result => result.isFailed = true)
      (settleTerminal code a receipt coordinatorCode) := by
  refine ⟨trivial, fun evidence => ?_⟩
  rcases evidence with _ | _ | evidence
  · rfl
  · rfl
  cases hfind : evidence.attempts.find? (·.attemptId == a.attemptId) with
  | none =>
      simp only [done_bind, hfind]
      rfl
  | some found =>
      simp only [done_bind, hfind]
      refine .ite (fun _ => rfl) fun _ => .ite (fun _ => rfl) fun _ => ?_
      refine ⟨trivial, fun settledAt => .ite (fun _ => rfl) fun _ => ⟨trivial, fun settled => ?_⟩⟩
      cases settled <;> rfl

theorem yields_terminal {attempt : Option RuntimeAttempt}
    {receipt : Option RuntimeInvocationReceipt} {coordinatorCode : CoordinatorErrorCode} :
    Yields Request.IsQuiet (fun result => result.isFailed = true)
      (terminal code attempt receipt coordinatorCode) := by
  unfold terminal
  rcases attempt with _ | attempt
  · rfl
  rcases receipt with _ | receipt
  · rfl
  exact .ite (fun _ => yields_settleTerminal) fun _ => rfl

/-! ## The beginning of an attempt -/

theorem At.mono (h : At D launches w) (himp : D w.db → E w.db) : At E launches w :=
  ⟨h.consistent, himp h.fact, h.launches⟩

variable {stepIndex : ℕ} {kind : RuntimeAttemptKind} {recoveryContext : Option RecoveryContext}
  {step : HandoffPlanStep} {attemptId : JsString} {openedAt : ℤ}

/-- What an attempt in preparation is for. -/
structure AttemptFor (input : CoordinatorInput) (stepIndex : ℕ) (route : RouteIdentity)
    (a : RuntimeAttempt) : Prop where
  invocation : a.invocationId = input.invocationId
  index : a.attemptIndex = stepIndex
  route : a.approvedRoute = route

/-- Where an attempt was opened for the second step, the primary one may be resumed. -/
def Initialized (input : CoordinatorInput) (D : Database → Prop) (launches : List ProcessRequest)
    (stepIndex : ℕ) (recoveryContext : Option RecoveryContext) (route : RouteIdentity) :
    Except ExecutorErrorCode Initialization → World → Prop
  | .error _, t => At D launches t
  | .ok opened, t => AttemptFor input stepIndex route opened.preparing ∧
      At (fun db => D db ∧ (stepIndex ≠ 0 → HandedOver input recoveryContext db)) launches t

theorem yields_openPrimary :
    Yields Request.IsQuiet
      (fun result => ∀ opened, result = .ok opened →
        AttemptFor input 0 step.route opened.preparing)
      (openPrimary planHash (input.step 0 kind recoveryContext) plan step attemptId openedAt) := by
  unfold openPrimary
  cases hreceipt : createRunningReceipt planHash (input.step 0 kind recoveryContext) plan
      step.route attemptId openedAt with
  | none => exact fun opened hopened => nomatch hopened
  | some receipt =>
      refine ⟨trivial, fun accepted => ?_⟩
      cases accepted with
      | false => exact fun opened hopened => nomatch hopened
      | true =>
          rintro opened ⟨⟩
          unfold createRunningReceipt at hreceipt
          dsimp only at hreceipt
          split_ifs at hreceipt
          obtain rfl := Option.some.inj hreceipt
          exact ⟨rfl, rfl, rfl⟩

theorem openPrimary_ensures (h : Keeps input D launches) (hw : At D launches w) :
    Ensures (surroundings planHash) (Launched input)
      (Initialized input D launches 0 recoveryContext step.route)
      (openPrimary planHash (input.step 0 kind recoveryContext) plan step attemptId openedAt)
      w := by
  refine (h.yields yields_openPrimary hw).mono fun result t ht => ?_
  cases result with
  | error => exact ht.2
  | ok opened =>
      exact ⟨ht.1 opened rfl, ht.2.mono fun hfact => ⟨hfact, fun hne => absurd rfl hne⟩⟩

theorem openSecond_ensures (h : Keeps input D launches) (hw : At D launches w)
    (hselection : isRecoveryContextForSelection (input.step 1 kind recoveryContext) = true) :
    Ensures (surroundings planHash) (Launched input)
      (Initialized input D launches 1 recoveryContext step.route)
      (openSecond (input.step 1 kind recoveryContext) step attemptId openedAt) w := by
  have herror : ∀ (code : ExecutorErrorCode) (t : World), At D launches t →
      Ensures (surroundings planHash) (Launched input)
        (Initialized input D launches 1 recoveryContext step.route) (.done (.error code)) t :=
    fun code t ht => .done h.upheld ht
  refine h.getInvocation hw fun t ht => ?_
  rcases hread : getInvocation t.db (.str (input.step 1 kind recoveryContext).invocationId) with
    code | _ | evidence
  · exact herror _ t ht
  · exact herror _ t ht
  · cases hlegal : legalSecondAttemptState evidence (input.step 1 kind recoveryContext) with
    | none =>
        simp only [done_bind, hlegal]
        exact herror _ t ht
    | some legal =>
        obtain ⟨primary, reasonCode⟩ := legal
        have hover := legalSecondAttemptState_some hread hselection hlegal
        have hkeeps : Keeps input
            (fun db => D db ∧ (1 ≠ 0 → HandedOver input recoveryContext db)) launches :=
          h.and lasting_handedOver.imp
        simp only [done_bind, hlegal]
        refine hkeeps.ask trivial (ht.mono fun hfact => ⟨hfact, fun _ => hover⟩)
          fun eventId u hu => ?_
        exact .done (hkeeps.upheld_and _) ⟨⟨rfl, rfl, rfl⟩, hu⟩

/-- The first step is selected as the primary one, and any other is the second one. -/
theorem step_of_legal (hlegal : isLegalStepSelection (input.step stepIndex kind recoveryContext)
    plan = true) : stepIndex = 0 ∧ kind = .primary ∨ stepIndex = 1 := by
  unfold isLegalStepSelection at hlegal
  split_ifs at hlegal with hindex
  · simp only [Bool.and_eq_true, beq_iff_eq] at hlegal
    exact .inl ⟨hindex, hlegal.1⟩
  · simp only [Bool.and_eq_true, beq_iff_eq] at hlegal
    exact .inr hlegal.1.1

theorem initializeAttempt_ensures (h : Keeps input D launches) (hw : At D launches w)
    (hlegal : isLegalStepSelection (input.step stepIndex kind recoveryContext) plan = true)
    (hselection :
      isRecoveryContextForSelection (input.step stepIndex kind recoveryContext) = true) :
    Ensures (surroundings planHash) (Launched input)
      (Initialized input D launches stepIndex recoveryContext step.route)
      (initializeAttempt planHash (input.step stepIndex kind recoveryContext) plan step attemptId
        openedAt) w := by
  rcases step_of_legal hlegal with ⟨rfl, -⟩ | rfl
  · exact openPrimary_ensures h hw
  · exact openSecond_ensures h hw hselection

/-! ## The preparation of a process -/

/-- A preparation has a fact about the store to show, or has failed. -/
def Prepared {β : Type} (D : Database → Prop) (launches : List ProcessRequest)
    (F : β → Database → Prop) : Except AttemptResult β → World → Prop
  | .error result, t => result.isOk = false ∧ At D launches t
  | .ok x, t => At (fun db => D db ∧ F x db) launches t

theorem Keeps.failed {β : Type} {F : β → Database → Prop} {p : Handoff AttemptResult}
    (h : Keeps input D launches) (hp : Yields Request.IsQuiet (fun result => result.isOk = false) p)
    (hw : At D launches w) :
    Ensures (surroundings planHash) (Launched input) (Prepared D launches F)
      (p.bind fun result => done (.error result)) w := by
  have hyields : Yields Request.IsQuiet
      (fun outcome : Except AttemptResult β => ∃ result, outcome = .error result ∧
        result.isOk = false) (p.bind fun result => done (.error result)) :=
    hp.bind fun result hresult => ⟨result, rfl, hresult⟩
  refine (h.yields hyields hw).mono ?_
  rintro _ t ⟨⟨result, rfl, hresult⟩, ht⟩
  exact ⟨hresult, ht⟩

variable {auth : Authentication} {preparing : RuntimeAttempt}

/-- The row that an attempt has when it is spawned. -/
theorem spawned_of_row {process : ProcessRequest} {db : Database} {a : RuntimeAttempt}
    (hmem : a.stored ∈ db.attempts) (hattempt : AttemptFor input stepIndex process.approvedRoute a)
    (hprovider : a.providerId = some process.providerId) (hrunning : a.status = .running) :
    Spawned input stepIndex process db := by
  refine ⟨a.stored, hmem, ?_, hattempt.index, ?_, ?_, ?_⟩
  · exact congrArg JsString.toWellFormed hattempt.invocation
  · exact congrArg RouteIdentity.stored hattempt.route
  · exact congrArg (Option.map fun s => s.toWellFormed) hprovider
  · exact hrunning.trans_ne (by decide)

theorem spawnAttempt_ensures (process : ProcessRequest) (h : Keeps input D launches)
    (hw : At D launches w)
    (hattempt : AttemptFor input stepIndex process.approvedRoute preparing)
    (hprovider : preparing.providerId = some process.providerId) :
    Ensures (surroundings planHash) (Launched input)
      (Prepared D launches fun _ => Spawned input stepIndex process)
      (spawnAttempt executorInput plan step opened preparing auth) w := by
  refine .bind ((h.yields (yields_secretFor auth) hw).mono fun secret t ht => ?_)
  cases secret with
  | none => exact h.failed yields_abandonPreparation ht.2
  | some secret =>
      refine h.ask trivial ht.2 fun environment t ht => ?_
      cases environment with
      | false => exact h.failed yields_abandonPreparation ht
      | true =>
          refine h.ask trivial ht fun spawnedAt t ht => ?_
          refine h.markAttemptSpawned ht (fun t ht => ?_) fun t ht hrunning hmem => ?_
          · refine h.ask trivial ht fun cleaned t ht => ?_
            cases cleaned with
            | false => exact h.failed yields_settleStartedPreparation ht
            | true => exact .done (h.upheld_and _) ⟨rfl, ht⟩
          · have hspawned : Spawned input stepIndex process t.db :=
              spawned_of_row hmem ⟨hattempt.invocation, hattempt.index, hattempt.route⟩ hprovider
                hrunning
            exact .done (h.and lasting_spawned).upheld (ht.mono fun hfact => ⟨hfact, hspawned⟩)

theorem prepareStarted_ensures (process : ProcessRequest) (h : Keeps input D launches)
    (hw : At D launches w)
    {connection : Connections.ConnectionRecord} {providerId : JsString}
    (hattempt : AttemptFor input stepIndex process.approvedRoute preparing)
    (hprovider : preparing.providerId = some process.providerId) :
    Ensures (surroundings planHash) (Launched input)
      (Prepared D launches fun _ => Spawned input stepIndex process)
      (prepareStarted executorInput plan step opened connection providerId preparing auth) w := by
  refine h.ask trivial hw fun hook t ht => ?_
  cases hook with
  | stopped => exact h.failed yields_settleStartedPreparation ht
  | thrown => exact h.failed yields_settleStartedPreparation ht
  | proceed =>
      refine h.ask trivial ht fun context t ht => ?_
      rcases context with _ | _ | _
      · exact spawnAttempt_ensures process h ht hattempt hprovider
      · exact h.failed yields_settleStartedPreparation ht
      · exact h.failed yields_settleStartedPreparation ht

theorem prepareProcess_ensures (h : Keeps input D launches) (hw : At D launches w)
    (hattempt : AttemptFor input stepIndex step.route opened.preparing) :
    Ensures (surroundings planHash) (Launched input)
      (Prepared D launches fun spawned =>
        Spawned input stepIndex (processRequest executorInput step spawned.2))
      (prepareProcess executorInput plan step opened) w := by
  refine h.ask trivial hw fun connection t ht => ?_
  cases connection with
  | none => exact h.failed yields_failPreparation ht
  | some connection =>
      by_cases husable : isUsableConnection connection step.route.connectionId = false
      · simp only [done_bind, husable, if_true]
        exact h.failed yields_failPreparation ht
      · simp only [done_bind, husable]
        refine h.ask trivial ht fun providerId t ht => ?_
        cases hprovider : providerId.filter (isText 256) with
        | none =>
            simp only [done_bind, hprovider]
            exact h.failed yields_failPreparation ht
        | some providerId =>
            simp only [done_bind, hprovider]
            cases hauth : authenticationFor connection with
            | none => exact h.failed yields_failPreparation ht
            | some auth =>
                refine h.ask trivial ht fun started t ht => ?_
                cases started with
                | false => exact .done (h.upheld_and _) ⟨rfl, ht⟩
                | true =>
                    simp only [done_bind, bind_eq, pure_eq]
                    refine .bind (.mono (fun outcome t ht => ?_)
                      (prepareStarted_ensures (processRequest executorInput step providerId) h ht
                        ⟨hattempt.invocation, hattempt.index, hattempt.route⟩ rfl))
                    cases outcome with
                    | error result => exact .done (h.upheld_and _) ht
                    | ok running => exact .done (h.and lasting_spawned).upheld ht

/-! ## One attempt -/

theorem keeps_launched {steps : List ℕ} (hsorted : steps.Pairwise (· < ·)) :
    Keeps input (fun db => List.Forall₂ (OfStep input db) steps launches) launches :=
  ⟨lasting_forall₂, fun _ hdb => ⟨steps, hsorted, hdb⟩⟩

/-- What the executor has checked before it makes any request. -/
theorem readInput_ok {executorInput : ExecutorInput}
    (h : readInput executorInput = .ok (plan, step)) :
    isHandoffPlan executorInput.plan = some plan ∧
      isLegalStepSelection executorInput plan = true ∧
      isRecoveryContextForSelection executorInput = true ∧
      plan.steps[executorInput.stepIndex]? = some step := by
  unfold readInput at h
  cases hplan : isHandoffPlan executorInput.plan with
  | none => simp [hplan] at h
  | some found =>
      simp only [hplan] at h
      split_ifs at h with hcontext hselection hroot
      cases hstep : found.steps[executorInput.stepIndex]? with
      | none => simp [hstep] at h
      | some foundStep =>
          simp only [hstep, Except.ok.injEq, Prod.mk.injEq] at h
          obtain ⟨rfl, rfl⟩ := h
          simp only [Bool.not_eq_false, Bool.and_eq_true] at hselection
          exact ⟨rfl, hselection.1, hselection.2, hstep⟩

/-- The attempt has failed without a process, or has added the process of its step. -/
def Attempted (input : CoordinatorInput) (steps : List ℕ) (launches : List ProcessRequest)
    (stepIndex : ℕ) (recoveryContext : Option RecoveryContext) (result : AttemptResult)
    (t : World) : Prop :=
  (result.isOk = false ∧ At (fun db => List.Forall₂ (OfStep input db) steps launches) launches t) ∨
    ∃ process : ProcessRequest, process.recoveryContext = recoveryContext ∧
      At (fun db => List.Forall₂ (OfStep input db) (steps ++ [stepIndex]) (launches ++ [process]) ∧
        OfStep input db stepIndex process) (launches ++ [process]) t

theorem sorted_append {steps : List ℕ} (hsorted : steps.Pairwise (· < ·))
    (hbefore : ∀ i ∈ steps, i < stepIndex) : (steps ++ [stepIndex]).Pairwise (· < ·) := by
  refine List.pairwise_append.mpr ⟨hsorted, List.pairwise_singleton _ _, fun i hi j hj => ?_⟩
  rw [List.mem_singleton.mp hj]
  exact hbefore i hi

theorem keeps_executed {steps : List ℕ} {process : ProcessRequest}
    (hsorted : steps.Pairwise (· < ·)) (hbefore : ∀ i ∈ steps, i < stepIndex) :
    Keeps input
      (fun db => List.Forall₂ (OfStep input db) (steps ++ [stepIndex]) (launches ++ [process]) ∧
        OfStep input db stepIndex process) (launches ++ [process]) :=
  (keeps_launched (sorted_append hsorted hbefore)).and lasting_ofStep

/-- The first step recovers from nothing. -/
theorem context_of_first
    (hlegal : isLegalStepSelection (input.step stepIndex kind recoveryContext) plan = true)
    (hselection :
      isRecoveryContextForSelection (input.step stepIndex kind recoveryContext) = true)
    (hindex : stepIndex = 0) : recoveryContext = none := by
  rcases step_of_legal hlegal with ⟨-, rfl⟩ | hone
  · simpa [isRecoveryContextForSelection, CoordinatorInput.step] using hselection
  · exact absurd (hone.symm.trans hindex) Nat.one_ne_zero

theorem executeAttempt_ensures {steps : List ℕ} (hsorted : steps.Pairwise (· < ·))
    (hbefore : ∀ i ∈ steps, i < stepIndex)
    (hw : At (fun db => List.Forall₂ (OfStep input db) steps launches) launches w) :
    Ensures (surroundings planHash) (Launched input)
      (Attempted input steps launches stepIndex recoveryContext)
      (executeAttempt planHash (input.step stepIndex kind recoveryContext)) w := by
  have h : Keeps input (fun db => List.Forall₂ (OfStep input db) steps launches) launches :=
    keeps_launched hsorted
  have hfailed : ∀ (result : AttemptResult) (t : World), result.isOk = false →
      At (fun db => List.Forall₂ (OfStep input db) steps launches) launches t →
      Ensures (surroundings planHash) (Launched input)
        (Attempted input steps launches stepIndex recoveryContext) (.done result) t :=
    fun result t hresult ht => h.finish result ht fun _ ht => .inl ⟨hresult, ht⟩
  unfold executeAttempt
  cases hread : readInput (input.step stepIndex kind recoveryContext) with
  | error code => exact hfailed _ w rfl hw
  | ok found =>
      obtain ⟨plan, step⟩ := found
      obtain ⟨hplan, hlegal, hselection, hstep⟩ := readInput_ok hread
      refine h.ask trivial hw fun openedAt t ht => h.ask trivial ht fun attemptId t ht => ?_
      simp only [done_bind, bind_eq, pure_eq]
      refine .bind (.mono (fun initialized t ht => ?_)
        (initializeAttempt_ensures h ht hlegal hselection))
      cases initialized with
      | error code => exact hfailed _ t rfl ht
      | ok opened =>
          have hkeeps : Keeps input (fun db => List.Forall₂ (OfStep input db) steps launches ∧
              (stepIndex ≠ 0 → HandedOver input recoveryContext db)) launches :=
            h.and lasting_handedOver.imp
          refine .bind (.mono (fun prepared t ht => ?_)
            (prepareProcess_ensures hkeeps ht.2 ht.1))
          rcases prepared with result | ⟨running, providerId⟩
          · exact hfailed _ t ht.1 (ht.2.mono And.left)
          · have hprocess : Keeps input (fun db => (List.Forall₂ (OfStep input db) steps launches ∧
                (stepIndex ≠ 0 → HandedOver input recoveryContext db)) ∧ Spawned input stepIndex
                  (processRequest (input.step stepIndex kind recoveryContext) step providerId) db)
                launches := hkeeps.and lasting_spawned
            refine .ask hprocess.upheld ht fun t answer u ht hu => ?_
            obtain rfl := hu
            have hofStep : OfStep input t.db stepIndex
                (processRequest (input.step stepIndex kind recoveryContext) step providerId) :=
              { step := ⟨plan, step, hplan, hstep, rfl⟩
                inputRef := rfl
                spawned := ht.fact.2
                first := fun hindex => context_of_first hlegal hselection hindex
                second := ht.fact.1.2 }
            refine .mono (fun result t ht => .inr ⟨_, rfl, ht.2⟩)
              ((keeps_executed hsorted hbefore).yields (yields_settleProcess answer)
                ⟨ht.consistent, ⟨List.rel_append ht.fact.1.1 (.cons hofStep .nil), hofStep⟩, ?_⟩)
            rw [ht.launches]

/-! ## A whole execution -/

/-- A successful execution is classified by its last process. -/
def Classified (input : CoordinatorInput) : ExecutionResult → World → Prop
  | .failed .., _ => True
  | .ok classification _, t => ∃ earlier process, t.launches = earlier ++ [process] ∧
      OfStep input t.db (if classification = .primary then 0 else 1) process ∧
      process.recoveryContext.isSome = (classification == .recovery)

theorem Keeps.notOk (h : Keeps input D launches) {p : Handoff ExecutionResult}
    (hp : Yields Request.IsQuiet (fun result => result.isFailed = true) p)
    (hw : At D launches w) :
    Ensures (surroundings planHash) (Launched input) (Classified input) p w := by
  refine (h.yields hp hw).mono fun result t ht => ?_
  cases result with
  | ok => exact absurd ht.1 Bool.false_ne_true
  | failed => trivial

section

variable {steps : List ℕ} (hsorted : steps.Pairwise (· < ·)) (hbefore : ∀ i ∈ steps, i < 1)
  (hw : At (fun db => List.Forall₂ (OfStep input db) steps launches) launches w)
include hsorted hbefore hw

theorem executeSecond_ensures (hkind : kind ≠ .primary)
    (hcontext : recoveryContext.isSome = (kind == .recovery)) :
    Ensures (surroundings planHash) (Launched input) (Classified input)
      (executeSecond planHash input kind recoveryContext) w := by
  refine .bind (.mono (fun second t ht => ?_) (executeAttempt_ensures hsorted hbefore hw))
  rcases ht with ⟨hfailed, ht⟩ | ⟨process, hprocess, ht⟩
  · rw [hfailed]
    exact (keeps_launched hsorted).notOk rfl ht
  · cases hok : second.isOk with
    | false => exact (keeps_executed hsorted hbefore).notOk rfl ht
    | true =>
        refine (keeps_executed hsorted hbefore).finish _ ht fun t ht => ?_
        refine ⟨launches, process, ht.launches, ?_, hprocess ▸ hcontext⟩
        rw [if_neg hkind]
        exact ht.fact.2

theorem continueFrom_ensures {a : RuntimeAttempt} {receipt : RuntimeInvocationReceipt}
    {snapshot : Option WorkStateSnapshot} :
    Ensures (surroundings planHash) (Launched input) (Classified input)
      (continueFrom planHash input code a receipt snapshot) w := by
  have hterminal : ∀ coordinatorCode, Ensures (surroundings planHash) (Launched input)
      (Classified input) (terminal code a receipt coordinatorCode) w :=
    fun coordinatorCode => (keeps_launched hsorted).notOk yields_terminal hw
  unfold continueFrom
  cases snapshot.filter isWorkStateSnapshot with
  | none => exact hterminal _
  | some s =>
      dsimp only
      split_ifs with hother
      · exact hterminal _
      · cases s.workState with
        | started => exact hterminal _
        | none => exact executeSecond_ensures hsorted hbefore hw (by decide) rfl
        | checkpointed =>
            cases toRecoveryContext s with
            | none => exact hterminal _
            | some recoveryContext =>
                exact executeSecond_ensures hsorted hbefore hw (by decide) rfl

theorem afterFailure_ensures {attempt : Option RuntimeAttempt}
    {receipt : Option RuntimeInvocationReceipt} :
    Ensures (surroundings planHash) (Launched input) (Classified input)
      (afterFailure planHash input plan code attempt receipt) w := by
  have h : Keeps input (fun db => List.Forall₂ (OfStep input db) steps launches) launches :=
    keeps_launched hsorted
  unfold afterFailure
  rcases attempt with _ | attempt
  · exact h.notOk rfl hw
  rcases receipt with _ | receipt
  · exact h.notOk rfl hw
  dsimp only
  split_ifs
  · exact h.notOk rfl hw
  · refine h.ask trivial hw fun snapshot t ht => ?_
    rw [done_bind]
    cases snapshot with
    | none => exact h.notOk yields_terminal ht
    | some snapshot => exact continueFrom_ensures hsorted hbefore ht

theorem afterRejection_ensures {attempt : Option RuntimeAttempt}
    {receipt : Option RuntimeInvocationReceipt} :
    Ensures (surroundings planHash) (Launched input) (Classified input)
      (afterRejection planHash input plan code attempt receipt) w := by
  have hterminal : ∀ coordinatorCode, Ensures (surroundings planHash) (Launched input)
      (Classified input) (terminal code attempt receipt coordinatorCode) w :=
    fun coordinatorCode => (keeps_launched hsorted).notOk yields_terminal hw
  unfold afterRejection
  split_ifs
  · exact hterminal _
  · exact hterminal _
  · exact hterminal _
  · exact (keeps_launched hsorted).notOk rfl hw
  · exact afterFailure_ensures hsorted hbefore hw

end

theorem execute_ensures (hconsistent : Consistent w.db) (hnone : w.launches = []) :
    Ensures (surroundings planHash) (Launched input) (Classified input)
      (execute planHash input) w := by
  have hw : At (fun db => List.Forall₂ (OfStep input db) [] []) [] w :=
    ⟨hconsistent, .nil, hnone⟩
  have h : Keeps input (fun db => List.Forall₂ (OfStep input db) [] []) [] :=
    keeps_launched .nil
  unfold execute
  cases isHandoffPlan input.plan with
  | none => exact h.notOk rfl hw
  | some plan =>
      dsimp only
      split_ifs with hcontext
      · exact h.notOk rfl hw
      · refine .bind (.mono (fun result t ht => ?_)
          (executeAttempt_ensures .nil (fun _ hi => absurd hi List.not_mem_nil) hw))
        rcases ht with ⟨hfailed, ht⟩ | ⟨process, hprocess, ht⟩
        · cases result with
          | ok => exact absurd hfailed Bool.true_eq_false.mp
          | rejected code attempt receipt =>
              exact afterRejection_ensures .nil (fun _ hi => absurd hi List.not_mem_nil) ht
        · cases result with
          | ok attempt receipt output =>
              refine Keeps.finish (keeps_executed .nil fun _ hi => absurd hi List.not_mem_nil) _ ht
                fun t ht => ?_
              exact ⟨[], process, ht.launches, ht.fact.2, by rw [hprocess]; rfl⟩
          | rejected code attempt receipt =>
              exact afterRejection_ensures (List.pairwise_singleton _ 0)
                (fun i hi => by simp_all) (ht.mono And.left)

/-! ## Every time of an execution -/

theorem length_steps_le {raw : JsValue} (hplan : isHandoffPlan raw = some plan) :
    plan.steps.length ≤ 2 := by
  simp only [isHandoffPlan, Option.bind_eq_bind, Option.bind_eq_some_iff,
    Option.guard_eq_some'] at hplan
  obtain ⟨_, _, _, _, _, _, _, _, _, _, _, _, _, _, _, _, steps, _, _, hvalid, heq⟩ := hplan
  obtain rfl := Option.some.inj heq
  rcases steps with _ | ⟨_, _ | ⟨_, _ | ⟨_, _⟩⟩⟩
  · exact Nat.zero_le 2
  · exact Nat.le_succ 1
  · exact le_rfl
  · exact absurd hvalid Bool.false_ne_true

/-- A plan has at most two steps. -/
theorem Launched.length_le (h : Launched input w) : w.launches.length ≤ 2 := by
  obtain ⟨steps, hsorted, hsteps⟩ := h
  have hbound : ∀ i ∈ steps, i ∈ List.range 2 := by
    intro i hi
    obtain ⟨⟨j, hj⟩, rfl⟩ := List.get_of_mem hi
    have hprocess := (List.forall₂_iff_get.mp hsteps).2 j hj (hsteps.length_eq ▸ hj)
    obtain ⟨plan, step, hplan, hstep, -⟩ := hprocess.step
    have hlength := length_steps_le hplan
    have hindex := (List.getElem?_eq_some_iff.mp hstep).1
    rw [List.mem_range]
    omega
  have hnodup : steps.Nodup := hsorted.imp Nat.ne_of_lt
  calc w.launches.length = steps.length := hsteps.length_eq.symm
    _ ≤ (List.range 2).length := (hnodup.subperm hbound).length_le
    _ = 2 := List.length_range

section Sample

open JsValue

def sampleInput : CoordinatorInput where
  plan := openedPlan
  invocationId := js "invocation-root"
  context := {
    projectId := js "project-a"
    cardKey := some (js "FEAT-example")
    workflowRunId := some (js "workflow-a")
    workflowNodeId := some (js "node-a")
    phaseExecutionContractId := some (js "implementation-contract")
    phaseNumber := some 3
    taskId := some (js "task-a")
    correlationId := js "correlation-a"
    selectedLessonIds := [js "lesson-a", js "lesson-b"]
    invocationKind := .root
    rootInvocationId := js "invocation-root"
    parentInvocationId := none }
  inputRef := js "input-a"

def sampleConnection : Connections.ConnectionRecord where
  connectionId := js "connection-primary"
  kind := .piSession
  label := js "Primary"
  provider := .piSession
  endpointUrl := []
  endpointLocal := true
  lifecycleState := .active
  secretRef := none
  secretVersion := none
  createdAt := js "2026-07-23T09:00:00.000Z"
  updatedAt := js "2026-07-23T09:00:00.000Z"

/-- A record with other values in some of its fields. -/
def withFields (value : JsValue) (fields : List (String × JsValue)) : JsValue :=
  match value with
  | .obj properties => .obj (properties.map fun (key, value) =>
      (key, ((fields.find? fun field => js field.1 == key).map (·.2)).getD value))
  | value => value

def sampleTime : JsValue :=
  text "2026-07-23T10:00:00.000Z"

def samplePreparing : JsValue :=
  record [("schemaVersion", text "runtime-execution/v1"), ("attemptId", text "attempt-primary"),
    ("invocationId", text "invocation-root"), ("attemptIndex", .num (.int 0)),
    ("attemptKind", text "primary"), ("approvedRoute", openedRoute), ("actualRoute", .null),
    ("providerId", text "provider-a"), ("authenticationConnectionId", text "connection-primary"),
    ("authenticationKind", text "pi_session"), ("credentialVersion", .null),
    ("workState", text "none"), ("checkpointId", .null), ("checkpointCursor", .null),
    ("status", text "preparing"), ("preparationStartedAt", sampleTime), ("startedAt", .null),
    ("spawnedAt", .null), ("terminalAt", .null), ("durationMs", .null), ("exitCode", .null),
    ("timeoutMarker", .bool false), ("failureCode", .null)]

def sampleRunning : JsValue :=
  withFields samplePreparing [("actualRoute", openedRoute), ("status", text "running"),
    ("startedAt", sampleTime), ("spawnedAt", sampleTime)]

def sampleFailed : JsValue :=
  withFields sampleRunning [("status", text "failed"), ("terminalAt", sampleTime),
    ("durationMs", .num (.int 0)), ("failureCode", text "invalid_output")]

def sampleSettled : JsValue :=
  withFields openedReceipt [("status", text "failed"), ("settledAt", sampleTime),
    ("durationMs", .num (.int 0)), ("failureCode", text "invalid_output")]

def sampleStart : JsValue :=
  record [("schemaVersion", text "runtime-execution/v1"), ("attempt", samplePreparing),
    ("routeChangeEvent", .null)]

def sampleOpen (plan : JsValue) : JsValue :=
  record [("schemaVersion", text "runtime-execution/v1"), ("plan", plan),
    ("receipt", openedReceipt)]

/-- A write of what a value holds, or of nothing. -/
def World.write {α : Type} (w : World) (holds : Bool) (raw : JsValue)
    (call : Database → JsValue → Outcome α) : Bool × World :=
  let outcome := call w.db (if holds then raw else .null)
  (outcome.2.isOk, { w with db := outcome.1 })

def samplePlanHash (_ : JsValue) : JsString :=
  js openedPlanHash

/-- All goes well but the answer of the worker; what else may come is refused. -/
def sampleAnswer (w : World) : (r : Request) → r.Answer × World
  | .now => (1784800800000, w)
  | .createId => (js "attempt-primary", w)
  | .getConnection _ => (some sampleConnection, w)
  | .providerIdForConnection _ => (some (js "provider-a"), w)
  | .beforeProcess _ => (.proceed, w)
  | .prepareContext .. => (.prepared, w)
  | .readSecret _ => (none, w)
  | .buildEnvironment _ => (true, w)
  | .cleanup => (true, w)
  | .execute process => (.refused, { w with launches := w.launches ++ [process] })
  | .openInvocation plan receipt =>
      w.write (isRuntimeInvocationReceipt openedReceipt == some receipt) (sampleOpen plan)
        (openInvocation samplePlanHash)
  | .startAttempt start =>
      w.write (isRuntimeAttemptStart sampleStart == some start) sampleStart startAttempt
  | .markAttemptSpawned attempt =>
      w.write (isRuntimeAttempt sampleRunning == some attempt) sampleRunning markAttemptSpawned
  | .settleAttempt attempt =>
      w.write (isRuntimeAttempt sampleFailed == some attempt) sampleFailed settleAttempt
  | .appendRouteChange _ => w.write false .null appendRouteChange
  | .settleInvocation receipt =>
      w.write (isRuntimeInvocationReceipt sampleSettled == some receipt) sampleSettled
        settleInvocation
  | .getInvocation id => (getInvocation w.db (.str id), w)
  | .readWorkState .. => (none, w)

theorem World.writes_write {α β : Type} {guard : JsValue → Option β} {record : β} {w : World}
    {holds : Bool} {raw : JsValue} (call : Database → JsValue → Outcome α)
    (hraw : holds = true → Carries guard raw record) (hnull : guard .null = none) :
    ∃ sent, Carries guard sent record ∧
      w.Writes (call w.db sent) (w.write holds raw call).1 (w.write holds raw call).2 := by
  refine ⟨if holds then raw else .null, ?_, rfl, rfl⟩
  cases holds with
  | true => exact hraw rfl
  | false => exact fun x hx => by simp [hnull] at hx

theorem carries_of_eq {β : Type} [DecidableEq β] {guard : JsValue → Option β} {raw : JsValue}
    {record : β} (h : (guard raw == some record) = true) : Carries guard raw record := by
  intro x hx
  rw [hx, beq_iff_eq] at h
  exact Option.some.inj h

theorem carries_sampleOpen {plan : JsValue} {receipt : RuntimeInvocationReceipt}
    (h : (isRuntimeInvocationReceipt openedReceipt == some receipt) = true) :
    Carries isRuntimeInvocationOpen (sampleOpen plan) ⟨plan, receipt⟩ := by
  intro x hx
  simp only [isRuntimeInvocationOpen, Option.bind_eq_bind, Option.bind_eq_some_iff] at hx
  obtain ⟨_, -, _, -, _, -, read, hread, _, -, heq⟩ := hx
  obtain rfl := Option.some.inj heq
  rw [carries_of_eq h read hread]
  rfl

theorem answers_sampleAnswer (w : World) (r : Request) :
    (surroundings samplePlanHash).answers w r (sampleAnswer w r).1 (sampleAnswer w r).2 := by
  cases r with
  | openInvocation => exact World.writes_write _ carries_sampleOpen rfl
  | startAttempt => exact World.writes_write _ carries_of_eq rfl
  | markAttemptSpawned => exact World.writes_write _ carries_of_eq rfl
  | settleAttempt => exact World.writes_write _ carries_of_eq rfl
  | appendRouteChange => exact World.writes_write _ (absurd · Bool.false_ne_true) rfl
  | settleInvocation => exact World.writes_write _ carries_of_eq rfl
  | getInvocation => exact ⟨rfl, rfl⟩
  | _ => rfl

/-- What an execution has come to after some requests. -/
def sampleAfter (requests : ℕ) : World × Handoff ExecutionResult :=
  play sampleAnswer requests (⟨run samplePlanHash [], []⟩, execute samplePlanHash sampleInput)

end Sample

end Hepha.Runtime
