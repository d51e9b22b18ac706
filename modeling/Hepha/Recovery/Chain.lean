import Hepha.Autonomous.Workflow
import Hepha.Recovery.Attempt

/-!
# Chains of retries

The record of an attempt says which failure is answered at any time: the first one, or the
one of the last retry.

* `Legal`: a record that grows by what its failure allows;
* `attempt_legal`: every attempt has a legal record, and its outcome says how it ends;
* `Legal.not_circuit`: nothing is asked for about a run that the circuit has stopped.
-/

namespace Hepha.Recovery

open Interaction Interaction.Program

variable {F : Type} (policy : Policy F)

abbrev Record (F : Type) := List (Event (Request F) Request.Answer)

/-- A failure, and the input that it is a failure of. -/
structure Failure (F : Type) where
  errorMessage : JsString
  input : WorkflowInput F

def retryMessage (thrown : Thrown) : JsString :=
  thrown.getD (js "Unknown workflow recovery retry error.")

/-- The failure after one event more. -/
def Failure.after (failure : Failure F) : Event (Request F) Request.Answer → Failure F
  | ⟨.runAutonomous input, .error thrown⟩ => ⟨retryMessage thrown, input⟩
  | _ => failure

/-- The attempt goes on after a request that has not thrown, and after a retry that has. -/
def goesOn : Event (Request F) Request.Answer → Bool
  | ⟨.runAutonomous _, .ok _⟩ => false
  | ⟨.runAutonomous _, .error _⟩ => true
  | ⟨_, .error _⟩ => false
  | _ => true

def isRetry : Event (Request F) Request.Answer → Bool
  | ⟨.runAutonomous _, _⟩ => true
  | _ => false

def isWorker : Event (Request F) Request.Answer → Bool
  | ⟨.runRecoveryWorker .., _⟩ => true
  | _ => false

namespace Record

def failure (first : Failure F) (t : Record F) : Failure F := t.foldl Failure.after first

def retries (t : Record F) : ℕ := t.countP isRetry

def workers (t : Record F) : ℕ := t.countP isWorker

end Record

/-- What may be asked for: the failure is not refused.  A retry carries the failure brief of
the last one, and only the first retry answers anything but a failed code review.  A recovery
worker stands before the first retry, and only once. -/
def Allowed (first : Failure F) (t : Record F) (r : Request F) : Prop :=
  policy.refuses (t.failure first).errorMessage (t.failure first).input = false ∧
    match r with
    | .runAutonomous input =>
        input.recoveryAttempt = first.input.recoveryAttempt + t.retries + 1 ∧
          input.autonomous = true ∧ input.previousFailureBrief.isSome = true ∧
          (policy.isCodeReviewFailure (t.failure first).errorMessage = true ∨
            first.input.recoveryAttempt + t.retries = 0) ∧
          ∃ before fallback,
            t.getLast? = some ⟨.findCurrentFeature before fallback, .ok input.feature⟩
    | .runRecoveryWorker errorMessage .. =>
        errorMessage = (t.failure first).errorMessage ∧
          policy.isCodeReviewFailure errorMessage = false ∧
          first.input.recoveryAttempt = 0 ∧ t.retries = 0 ∧ t.workers = 0
    | _ => True

/-- A record that grows by what it allows, for as long as the attempt goes on. -/
inductive Legal (first : Failure F) : Record F → Prop
  | nil : Legal first []
  | snoc {t : Record F} (h : Legal first t) (running : ∀ e ∈ t, goesOn e = true)
      (r : Request F) (answer : r.Answer) (allowed : Allowed policy first t r) :
      Legal first (t ++ [⟨r, answer⟩])

/-- How an attempt at a failure ends: with the retry that has succeeded, with the failure of
the last retry, or with what a request has thrown. -/
def Ends (first : Failure F) (errorMessage : JsString) :
    Except Thrown (Option Outcome) → Record F → Prop
  | .ok none, _ => True
  | .ok (some outcome), t =>
      if outcome.recovered then
        outcome.errorMessage = errorMessage ∧ outcome.failureBrief = none ∧
          ∃ input output, t.getLast? = some ⟨.runAutonomous input, .ok output⟩ ∧
            output <:+ outcome.output
      else (t.failure first).errorMessage <+: outcome.errorMessage ∧ ∀ e ∈ t, goesOn e = true
  | .error thrown, t =>
      ∃ e : Event (Request F) Request.Answer, t.getLast? = some e ∧ isRetry e = false ∧
        e.answer = .error thrown

/-! ## One event more -/

variable {policy} {first : Failure F} {t : Record F} {e : Event (Request F) Request.Answer}

namespace Record

@[simp] theorem failure_snoc : failure first (t ++ [e]) = (t.failure first).after e := by
  simp [failure]

@[simp] theorem retries_snoc : retries (t ++ [e]) = t.retries + if isRetry e then 1 else 0 := by
  simp [retries, List.countP_append, List.countP_singleton]

@[simp] theorem workers_snoc : workers (t ++ [e]) = t.workers + if isWorker e then 1 else 0 := by
  simp [workers, List.countP_append, List.countP_singleton]

end Record

/-- The attempt at a failure is under way. -/
structure At (policy : Policy F) (first failure : Failure F) (t : Record F) : Prop where
  legal : Legal policy first t
  running : ∀ e ∈ t, goesOn e = true
  answering : t.failure first = failure
  attempts : failure.input.recoveryAttempt = first.input.recoveryAttempt + t.retries

variable {failure : Failure F} {α β : Type}

theorem At.snoc {r : Request F} {b : r.Answer} (h : At policy first failure t)
    (hallowed : Allowed policy first t r) (hgoesOn : goesOn ⟨r, b⟩ = true)
    (hattempts : (failure.after ⟨r, b⟩).input.recoveryAttempt =
      failure.input.recoveryAttempt + if isRetry ⟨r, b⟩ then 1 else 0) :
    At policy first (failure.after ⟨r, b⟩) (t ++ [⟨r, b⟩]) where
  legal := h.legal.snoc h.running r b hallowed
  running e he := by
    rcases List.mem_append.mp he with he | he
    · exact h.running e he
    · exact List.mem_singleton.mp he ▸ hgoesOn
  answering := by rw [Record.failure_snoc, h.answering]
  attempts := by
    rw [hattempts, h.attempts, Record.retries_snoc, Nat.add_assoc]

/-- A request that leaves the failure as it is. -/
def Request.IsQuiet : Request F → Prop
  | .runAutonomous _ => False
  | _ => True

theorem At.quiet {r : Request F} (h : At policy first failure t) (hr : r.IsQuiet)
    (hallowed : Allowed policy first t r) (reply : r.Reply) :
    At policy first failure (t ++ [⟨r, .ok reply⟩]) := by
  cases r <;> first | exact absurd hr id | exact h.snoc hallowed rfl rfl

/-- What a part of an attempt ensures. -/
abbrev Works (policy : Policy F) (first : Failure F) (t : Record F) (p : Attempt F α)
    (post : Except Thrown α → Record F → Prop) : Prop :=
  Ensures recording (Legal policy first) (fun result u => Legal policy first u ∧ post result u) p t

/-- A request is made where it is allowed; what it throws is what the part ends with. -/
theorem At.ask {r : Request F} {f : r.Reply → Attempt F (Option Outcome)}
    {errorMessage : JsString} (h : At policy first failure t) (hr : r.IsQuiet)
    (hallowed : Allowed policy first t r)
    (hnext : ∀ reply, At policy first failure (t ++ [⟨r, .ok reply⟩]) →
      Works policy first (t ++ [⟨r, .ok reply⟩]) (f reply) (Ends first errorMessage)) :
    Works policy first t (Attempt.ask r >>= f) (Ends first errorMessage) := by
  refine .recorded_ask h.legal fun answer => ?_
  cases answer with
  | ok reply => exact hnext reply (h.quiet hr hallowed reply)
  | error thrown =>
      have hlegal := h.legal.snoc h.running r (.error thrown) hallowed
      refine .recorded_done hlegal ⟨hlegal, ?_⟩
      refine ⟨⟨r, .error thrown⟩, List.getLast?_concat .., ?_, rfl⟩
      cases r <;> first | exact absurd hr id | rfl

theorem Works.done {post : Except Thrown α → Record F → Prop} {result : Except Thrown α}
    (h : Legal policy first t) (hpost : post result t) :
    Works policy first t (Program.done result) post :=
  .recorded_done h ⟨h, hpost⟩

/-- An attempt that gives up keeps the message of the failure at the start of its own. -/
theorem At.giveUp {errorMessage message : JsString} {brief : Option JsString} {output : JsString}
    {input : WorkflowInput F} (h : At policy first ⟨errorMessage, input⟩ t)
    (hmessage : errorMessage <+: message) :
    Works policy first t
      (pure (some ⟨message, brief, output, false⟩) : Attempt F (Option Outcome))
      (Ends first errorMessage) := by
  refine .done h.legal ⟨?_, h.running⟩
  rw [h.answering]
  exact hmessage

theorem Policy.not_refused {errorMessage : JsString} {input : WorkflowInput F}
    (h : policy.refuses errorMessage input = false) :
    input.autonomous = true ∧
      (policy.isCodeReviewFailure errorMessage = true ∨ input.recoveryAttempt = 0) := by
  simp only [Policy.refuses, Bool.or_eq_false_iff, Bool.and_eq_false_iff, Bool.not_eq_false',
    decide_eq_false_iff_not] at h
  obtain ⟨⟨⟨-, hautonomous⟩, hattempt⟩, -⟩ := h
  exact ⟨hautonomous, hattempt.imp_right fun hnot => by omega⟩

/-! ## Retries -/

/-- What is done about a failure keeps to what is allowed. -/
def Recovers (policy : Policy F) (first : Failure F) (recover : Recover F) : Prop :=
  ∀ {errorMessage feature input t}, At policy first ⟨errorMessage, input⟩ t →
    t.workers = 0 ∨ 0 < input.recoveryAttempt →
    Works policy first t (recover errorMessage feature input) (Ends first errorMessage)

variable {recover : Recover F} {errorMessage : JsString} {input : WorkflowInput F}

theorem suffix_joinLines (outputPrefix output : JsString) :
    output <:+ JsString.joinLines [outputPrefix, output] :=
  ⟨outputPrefix ++ [0x0A], by simp [JsString.joinLines, List.intercalate]⟩

theorem Ends.of_nested {message outputPrefix : JsString} {outcome : Option Outcome}
    (h : Ends first message (.ok outcome) t) :
    Ends first errorMessage
      (.ok (outcome.map fun n => n.nested errorMessage outputPrefix)) t := by
  cases outcome with
  | none => exact trivial
  | some n =>
      simp only [Option.map_some, Ends, Outcome.nested] at h ⊢
      by_cases hrecovered : n.recovered = true
      · rw [if_pos hrecovered] at h
        obtain ⟨-, -, input, output, hlast, hsuffix⟩ := h
        rw [if_pos hrecovered, if_pos rfl]
        exact ⟨rfl, rfl, input, output, hlast, hsuffix.trans (suffix_joinLines ..)⟩
      · rw [if_neg hrecovered] at h
        rw [if_neg hrecovered, if_neg (by simp)]
        exact h

theorem retry_works (hrecover : Recovers policy first recover) {retryFeature : F}
    {outputPrefix : JsString} (h : At policy first failure t)
    (hattempt : input.recoveryAttempt = failure.input.recoveryAttempt + 1)
    (hallowed : Allowed policy first t (.runAutonomous input)) :
    Works policy first t (retry recover errorMessage outputPrefix retryFeature input)
      (Ends first errorMessage) := by
  refine .recorded_ask h.legal fun answer => ?_
  cases answer with
  | ok output =>
      exact Works.done (h.legal.snoc h.running _ _ hallowed) ⟨rfl, rfl, input, output,
        List.getLast?_concat .., suffix_joinLines ..⟩
  | error thrown =>
      have hfailed : At policy first ⟨retryMessage thrown, input⟩ _ :=
        h.snoc (r := .runAutonomous input) (b := .error thrown) hallowed rfl hattempt
      have hrecovers : Works policy first _ (recover (retryMessage thrown) retryFeature input) _ :=
        hrecover hfailed (.inr (by omega))
      refine Ensures.bind (Ensures.mono (fun result u hu => ?_) hrecovers)
      cases result with
      | ok outcome => exact Works.done hu.1 (Ends.of_nested hu.2)
      | error thrown => exact Works.done hu.1 hu.2

/-- The request that reads the feature, and the retry. -/
theorem retryWithBrief_works (hrecover : Recovers policy first recover) {feature : F}
    {failureBrief outputPrefix previousFailureBrief : JsString}
    (h : At policy first failure t)
    (hrefused : policy.refuses failure.errorMessage failure.input = false)
    (hautonomous : input.autonomous = failure.input.autonomous)
    (hattempt : input.recoveryAttempt = failure.input.recoveryAttempt) :
    Works policy first t (retryWithBrief policy recover input feature failureBrief errorMessage
      outputPrefix previousFailureBrief) (Ends first errorMessage) := by
  obtain ⟨hauto, hkind⟩ := policy.not_refused hrefused
  have hrefused' : policy.refuses (t.failure first).errorMessage (t.failure first).input = false :=
    h.answering.symm ▸ hrefused
  refine h.ask trivial ⟨hrefused', trivial⟩ fun retryFeature hfound => ?_
  refine retry_works hrecover hfound (congrArg (· + 1) hattempt) ⟨?_, ?_, ?_, rfl, ?_, input,
    feature, List.getLast?_concat ..⟩
  · rw [hfound.answering]
    exact hrefused
  · rw [← hfound.attempts, ← hattempt]
  · exact hautonomous.trans hauto
  · rw [hfound.answering, ← hfound.attempts]
    exact hkind

theorem retryDirectly_works (hrecover : Recovers policy first recover) {feature : F}
    {failureBrief : JsString} {route : RetryRoute} (h : At policy first failure t)
    (hrefused : policy.refuses failure.errorMessage failure.input = false)
    (hautonomous : input.autonomous = failure.input.autonomous)
    (hattempt : input.recoveryAttempt = failure.input.recoveryAttempt) :
    Works policy first t
      (retryDirectly policy recover input feature failureBrief errorMessage route)
      (Ends first errorMessage) := by
  have hrefused' : policy.refuses (t.failure first).errorMessage (t.failure first).input = false :=
    h.answering.symm ▸ hrefused
  refine h.ask trivial ⟨hrefused', trivial⟩ fun _ hrecorded => ?_
  exact retryWithBrief_works hrecover hrecorded hrefused hautonomous hattempt

/-! ## An attempt -/

theorem recoverByWorker_works (hrecover : Recovers policy first recover) {feature : F}
    {failureBrief : JsString} {prepared : PreparedRecovery}
    (h : At policy first ⟨errorMessage, input⟩ t)
    (hfresh : t.workers = 0 ∨ 0 < input.recoveryAttempt)
    (hrefused : policy.refuses errorMessage input = false)
    (hcodeReview : policy.isCodeReviewFailure errorMessage = false) :
    Works policy first t
      (recoverByWorker policy recover errorMessage input feature failureBrief prepared)
      (Ends first errorMessage) := by
  have hrefusedAt {u : Record F} (hu : At policy first ⟨errorMessage, input⟩ u) :
      policy.refuses (u.failure first).errorMessage (u.failure first).input = false :=
    hu.answering.symm ▸ hrefused
  have hzero : input.recoveryAttempt = 0 :=
    (policy.not_refused hrefused).2.resolve_left (by simp [hcodeReview])
  refine h.ask trivial ⟨hrefusedAt h, trivial⟩ fun _ hrecorded => ?_
  have hattempts : input.recoveryAttempt = first.input.recoveryAttempt + _ := hrecorded.attempts
  refine hrecorded.ask trivial ⟨hrefusedAt hrecorded, ?_, hcodeReview, by omega, by omega, ?_⟩
    fun worker hworker => ?_
  · rw [hrecorded.answering]
  · simpa [isWorker, hzero] using hfresh
  · by_cases hstops : (!policy.parsesAsRetry (guardedOutput worker.1 worker.2) &&
        !prepared.canRetry) = true
    · rw [if_pos hstops]
      exact hworker.giveUp (by simp only [List.append_assoc, List.prefix_append])
    · rw [if_neg hstops]
      refine At.ask hworker trivial ⟨hrefusedAt hworker, trivial⟩ fun _ hprogress => ?_
      exact retryWithBrief_works hrecover hprogress hrefused rfl rfl

theorem recoverPrepared_works (hrecover : Recovers policy first recover) {feature : F}
    {failureBrief : JsString} {prepared : PreparedRecovery}
    (h : At policy first ⟨errorMessage, input⟩ t)
    (hfresh : t.workers = 0 ∨ 0 < input.recoveryAttempt)
    (hrefused : policy.refuses errorMessage input = false) :
    Works policy first t
      (recoverPrepared policy recover errorMessage input feature failureBrief prepared)
      (Ends first errorMessage) := by
  unfold recoverPrepared
  split
  · exact h.giveUp (by simp only [List.append_assoc, List.prefix_append])
  split
  · exact retryDirectly_works hrecover h hrefused rfl rfl
  split
  · exact retryDirectly_works hrecover h hrefused rfl rfl
  rename_i hcodeReview
  split
  · split
    · have hallowed : Allowed policy first t (.recordFeatureProgress input feature
          (js "Retrying implementation after host-side recovery") prepared.summary) :=
        ⟨h.answering.symm ▸ hrefused, trivial⟩
      refine h.ask trivial hallowed fun _ hprogress => ?_
      exact retryWithBrief_works hrecover hprogress hrefused rfl rfl
    · exact h.giveUp (by simp only [List.append_assoc, List.prefix_append])
  · exact recoverByWorker_works hrecover h hfresh hrefused (by simpa using hcodeReview)

theorem attemptWith_works (hrecover : Recovers policy first recover) :
    Recovers policy first (attemptWith policy recover) := by
  intro errorMessage feature input t h hfresh
  unfold attemptWith
  by_cases hrefuses : policy.refuses errorMessage input = true
  · rw [if_pos hrefuses]
    exact h.giveUp (List.prefix_refl _)
  · rw [if_neg hrefuses]
    have hrefused : policy.refuses errorMessage input = false := by simpa using hrefuses
    have hallowed : Allowed policy first t (.findCurrentFeature input feature) :=
      ⟨h.answering.symm ▸ hrefused, trivial⟩
    refine h.ask trivial hallowed fun currentFeature hfound => ?_
    by_cases hrefusal : policy.isProviderPromptRefusalFailure errorMessage = true
    · rw [if_pos hrefusal]
      exact retryDirectly_works hrecover hfound hrefused rfl rfl
    · rw [if_neg hrefusal]
      refine At.ask hfound trivial ⟨hfound.answering.symm ▸ hrefused, trivial⟩
        fun prepared hprepared => ?_
      refine recoverPrepared_works hrecover hprepared ?_ hrefused
      rw [Record.workers_snoc, Record.workers_snoc]
      exact hfresh

theorem attempt_works (n : ℕ) : Recovers policy first (attempt policy n) := by
  induction n with
  | zero => exact fun h _ => Works.done h.legal trivial
  | succ n ih => exact attemptWith_works ih

/-- The message of the circuit is refused. -/
theorem Policy.refuses_circuit (policy : Policy F) (o : Autonomous.PhaseNoProgressObservation)
    (input : WorkflowInput F) : policy.refuses o.message input = true := by
  have hmarker : JsString.includes o.message "WORKFLOW_AWAITING_USER_DECISION" = true := by
    rfl
  simp [Policy.refuses, hmarker]

/-- A run that the no-progress circuit has stopped is not retried, nor anything else done
about it. -/
theorem Legal.not_circuit {r : Request F} {answer : r.Answer}
    (h : Legal policy first (t ++ [⟨r, answer⟩])) (o : Autonomous.PhaseNoProgressObservation) :
    (t.failure first).errorMessage ≠ o.message := by
  intro hmessage
  generalize hrecord : t ++ [(⟨r, answer⟩ : Event (Request F) Request.Answer)] = record at h
  cases h with
  | nil => simp at hrecord
  | snoc _ _ r' answer' allowed =>
      obtain ⟨rfl, -⟩ := List.append_inj' hrecord rfl
      have hrefused := allowed.1
      rw [hmessage, policy.refuses_circuit] at hrefused
      exact absurd hrefused (by simp)

/-- Every failure is recoverable, and none is a failed code review. -/
def samplePolicy : Policy Unit where
  appendAnalysis brief output := brief ++ output
  appendHostRecovery brief summary := brief ++ summary
  createFailureBrief errorMessage _ _ := errorMessage
  extractFailurePhase _ := none
  isCodeReviewFailure _ := false
  isFatalFailure _ := false
  isProviderPromptRefusalFailure _ := false
  isRecoverableFailure _ := true
  isReviewFindingResolutionFailure _ _ := false
  parsesAsRetry _ := true
  summarizeOutput output _ := output

def sampleInput : WorkflowInput Unit := ⟨true, .startImplementing, (), none, none, 0⟩

/-- The retry fails as the run has. -/
def sampleReply : (r : Request Unit) → r.Answer
  | .findCurrentFeature .. => .ok ()
  | .prepareRecovery _ => .ok ⟨false, false, []⟩
  | .recordFeatureProgress .. => .ok ()
  | .recordRecoveryProgress .. => .ok ()
  | .runRecoveryWorker .. => .ok (js "Retry.", [])
  | .runAutonomous _ => .error (some (js "Timed out."))

def sampleAfter (n : ℕ) : Record Unit × Attempt Unit (Option Outcome) :=
  play (recorded sampleReply) n ([], attempt samplePolicy 2 (js "Timed out.") () sampleInput)

end Hepha.Recovery
