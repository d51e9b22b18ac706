import Hepha.Continuation.Run
import Hepha.Lib.Recording

/-!
# What a chain of runs announces

A run ends with one announcement, and what is announced has been recorded right before.
Another run is started only by one that has announced it, where the durable state has
changed since the run before the loop.

* `Legal`: a record that grows by what it allows;
* `executeRuns_announced`: every chain of runs has a legal record, and all runs that have
  started are announced in the end.
-/

namespace Hepha.Continuation

open Interaction Recovery

variable {F : Type}

abbrev Event (F : Type) := Interaction.Event (Request F) Request.Answer

abbrev Record (F : Type) := List (Event F)

namespace Event

def announcement : Event F → Option Announcement
  | ⟨.notifyChanged announcement, .ok _⟩ => some announcement
  | _ => none

def starts : Event F → Bool
  | ⟨.createRunner _, .ok _⟩ => true
  | _ => false

def fingerprint : Event F → Option JsString
  | ⟨.captureDurableProgress _, .ok fingerprint⟩ => some fingerprint
  | _ => none

end Event

namespace Record

def announcements (t : Record F) : List Announcement := t.filterMap Event.announcement

def starts (t : Record F) : ℕ := t.countP Event.starts

def fingerprints (t : Record F) : List JsString := t.filterMap Event.fingerprint

/-- A run is under way: it is the only one that is not announced. -/
structure Open (t : Record F) : Prop where
  starts : t.starts = t.announcements.length + 1
  last : ∀ e, t.getLast? = some e → e.announcement = none

/-- The durable state has changed between the last two times that it was captured. -/
def Changed (t : Record F) : Prop :=
  ∃ fingerprints before after, t.fingerprints = fingerprints ++ [before, after] ∧ before ≠ after

/-- What is right before an announcement. -/
def Announces (t : Record F) : Announcement → Prop
  | .completed =>
      ∃ before runId command summary,
        t = before ++ [⟨.recordCompletion runId command summary, .ok ()⟩] ∨
          ∃ feature, t = before ++ [⟨.recordCompletion runId command summary, .ok ()⟩,
            ⟨.hasRemainingWork feature, .ok false⟩]
  | .blocked =>
      ∃ runId command error summary answer,
        t.getLast? = some ⟨.recordRun runId command .blocked (some error) summary, answer⟩
  | .failed =>
      ∃ runId command error summary answer,
        t.getLast? = some ⟨.recordRun runId command .failed (some error) summary, answer⟩
  | .cancelled => ∃ runId, t.getLast? = some ⟨.clearCancellation runId, .ok ()⟩
  | .continuationScheduled =>
      t.Changed ∧ ∃ runId summary, t.getLast? =
        some ⟨.recordRun runId .continueImplementing .running none summary, .ok ()⟩

/-- What is right before a completion is recorded. -/
def Completes (t : Record F) (runId : JsString) : Prop :=
  (∃ input feature reconciled, t.getLast? =
    some ⟨.reconcile input feature, .ok (reconciled, true)⟩) ∨
  (∃ errorMessage feature input, ∃ outcome : Outcome, outcome.recovered = true ∧
    t.getLast? = some ⟨.attemptRecovery errorMessage feature input, .ok outcome⟩) ∨
  (⟨.assertRunActive runId, .ok ()⟩ : Event F) ∈ t ∧ ∃ input feature resolution,
    t.getLast? = some ⟨.recordProgress input feature resolution, .ok ()⟩

/-- A run that the one before has scheduled. -/
def Scheduled (t : Record F) (next : RunInput F) : Prop :=
  t.getLast? = some ⟨.notifyChanged .continuationScheduled, .ok ()⟩ ∧ t.Changed ∧
    (⟨.hasRemainingWork next.feature, .ok true⟩ : Event F) ∈ t ∧
    ∃ feature id, next = nextRun feature id

end Record

/-- What may be asked for after a record. -/
def Allowed (t : Record F) : Request F → Prop
  | .createRunner input => t = [] ∨ t.Scheduled input
  | .notifyChanged announcement => t.Open ∧ t.Announces announcement
  | .recordCompletion runId .. => t.Open ∧ t.Completes runId
  | .attemptRecovery errorMessage .. =>
      t.Open ∧ ∃ (e : Event F) (thrown : Thrown), t.getLast? = some e ∧
        e.answer = .error thrown ∧ thrown.isCancelled = false ∧
        errorMessage = thrown.message.getD (js "Unknown implementation continuation error.")
  | .runAutonomous input => t.Open ∧ input.autonomous = true
  | .runInteractive input => t.Open ∧ input.autonomous = false
  | _ => t.Open

/-- A record that grows by what it allows. -/
inductive Legal : Record F → Prop
  | nil : Legal []
  | snoc {t : Record F} (h : Legal t) (r : Request F) (answer : r.Answer)
      (allowed : Allowed t r) : Legal (t ++ [⟨r, answer⟩])

/-- How a chain ends: every run is announced, or the last one has thrown. -/
def Ends : Except (Failure F) Unit → Record F → Prop
  | .ok _, t => t.starts = t.announcements.length
  | .error failure, t =>
      (t.starts = t.announcements.length ∨ t.starts = t.announcements.length + 1) ∧
        ∃ e : Event F, t.getLast? = some e ∧ e.answer = .error failure.thrown

/-! ## One event more -/

variable {t : Record F} {e : Event F}

namespace Record

@[simp] theorem announcements_snoc :
    announcements (t ++ [e]) = t.announcements ++ e.announcement.toList := by
  cases h : e.announcement <;> simp [announcements, List.filterMap_append, h]

@[simp] theorem starts_snoc : starts (t ++ [e]) = t.starts + if e.starts then 1 else 0 := by
  simp [starts, List.countP_append, List.countP_singleton]

@[simp] theorem fingerprints_snoc :
    fingerprints (t ++ [e]) = t.fingerprints ++ e.fingerprint.toList := by
  cases h : e.fingerprint <;> simp [fingerprints, List.filterMap_append, h]

theorem Open.snoc (h : t.Open) (hstarts : e.starts = false) (hannounced : e.announcement = none) :
    Open (t ++ [e]) where
  starts := by simpa [hstarts, hannounced] using h.starts
  last d hd := by
    rw [List.getLast?_concat] at hd
    exact Option.some.inj hd ▸ hannounced

end Record

/-- A request that neither starts nor ends a run. -/
def Request.IsQuiet : Request F → Prop
  | .createRunner _ | .notifyChanged _ => False
  | _ => True

theorem Request.IsQuiet.event {r : Request F} (h : r.IsQuiet) (answer : r.Answer) :
    Event.starts ⟨r, answer⟩ = false ∧ Event.announcement ⟨r, answer⟩ = none := by
  cases r <;> first | exact absurd h id | exact ⟨rfl, rfl⟩

/-! ## Works -/

variable {α β : Type}

/-- A run has failed, and the last answer is what it was. -/
def Failed (failure : Failure F) (t : Record F) : Prop :=
  t.Open ∧ ∃ e : Event F, t.getLast? = some e ∧ e.answer = .error failure.thrown

def Settled (Q : α → Record F → Prop) : Except (Failure F) α → Record F → Prop
  | .ok a, t => Legal t ∧ Q a t
  | .error failure, t => Legal t ∧ Failed failure t

def Works (t : Record F) (p : Work F α) (Q : α → Record F → Prop) : Prop :=
  Ensures recording Legal (Settled Q) p t

/-- A run is under way, and the fingerprint that was captured last. -/
structure Under (captured : Option JsString) (t : Record F) : Prop where
  legal : Legal t
  isOpen : t.Open
  captured : t.fingerprints.getLast? = captured

variable {captured : Option JsString} {Q : α → Record F → Prop} {R : β → Record F → Prop}

namespace Works

theorem done {a : α} (h : Legal t) (hQ : Q a t) : Works t (pure a) Q :=
  .recorded_done h ⟨h, hQ⟩

theorem bind {p : Work F α} {f : α → Work F β} (hp : Works t p Q)
    (hf : ∀ a u, Legal u → Q a u → Works u (f a) R) : Works t (p >>= f) R := by
  refine Ensures.bind (Ensures.mono (fun result u hu => ?_) hp)
  cases result with
  | ok a => exact hf a u hu.1 hu.2
  | error failure => exact .recorded_done hu.1 hu

end Works

/-- A quiet request of a run.  Where it throws, the run has failed. -/
theorem Under.ask {r : Request F} {feature : F} {f : r.Reply → Work F β}
    (h : Under captured t) (hr : r.IsQuiet) (hallowed : Allowed t r)
    (hnext : ∀ reply, Under (Event.fingerprint ⟨r, .ok reply⟩ |>.or captured)
      (t ++ [⟨r, .ok reply⟩]) → Works (t ++ [⟨r, .ok reply⟩]) (f reply) R) :
    Works t (Work.ask feature r >>= f) R := by
  refine .recorded_ask h.legal fun answer => ?_
  obtain ⟨hstarts, hannounced⟩ := hr.event answer
  have hlegal := h.legal.snoc r answer hallowed
  have hopen := h.isOpen.snoc hstarts hannounced
  cases answer with
  | ok reply =>
      refine hnext reply ⟨hlegal, hopen, ?_⟩
      rw [Record.fingerprints_snoc]
      cases hf : Event.fingerprint ⟨r, .ok reply⟩
      · simpa using h.captured
      · simp
  | error thrown =>
      exact .recorded_done hlegal ⟨hlegal, hopen, _, List.getLast?_concat .., rfl⟩

/-- An announcement ends the run. -/
theorem Under.notify {feature : F} {announcement : Announcement} {f : Unit → Work F β}
    (h : Under captured t) (hannounces : t.Announces announcement)
    (hnext : Legal (t ++ [⟨.notifyChanged announcement, .ok ()⟩]) →
      Record.starts (t ++ [⟨.notifyChanged announcement, .ok ()⟩]) =
        (Record.announcements (t ++ [⟨.notifyChanged announcement, .ok ()⟩])).length →
      Works (t ++ [⟨.notifyChanged announcement, .ok ()⟩]) (f ()) R) :
    Works t (Work.ask feature (.notifyChanged announcement) >>= f) R := by
  refine .recorded_ask h.legal fun answer => ?_
  have hlegal := h.legal.snoc (.notifyChanged announcement) answer ⟨h.isOpen, hannounces⟩
  cases answer with
  | ok _ => exact hnext hlegal (by simpa [Event.starts, Event.announcement] using h.isOpen.starts)
  | error thrown =>
      exact .recorded_done hlegal ⟨hlegal, h.isOpen.snoc rfl rfl, _, List.getLast?_concat .., rfl⟩

/-- How a run ends that returns. -/
def Finished (next : Option (RunInput F)) (t : Record F) : Prop :=
  t.starts = t.announcements.length ∧ ∀ input, next = some input → t.Scheduled input

theorem announce_works {feature : F} {announcement : Announcement} (h : Under captured t)
    (hannounces : t.Announces announcement) :
    Works t (announce feature announcement) Finished := by
  refine h.notify hannounces fun hlegal hstarts => ?_
  exact .done hlegal ⟨hstarts, fun _ hnext => absurd hnext (by simp)⟩

/-! ## The next run -/

variable {input : RunInput F} {feature : F}

/-- What a schedule leaves to its run. -/
def Continues : ContinuationOutcome F → Record F → Prop
  | .notScheduled, t => t.Announces .completed ∧ ∃ captured, Under captured t
  | .blocked, t => Finished none t
  | .scheduled next, t => Finished (some next) t

theorem scheduleRemaining_works {before : JsString} (h : Under (some before) t)
    (hremaining : (⟨.hasRemainingWork feature, .ok true⟩ : Event F) ∈ t) :
    Works t (scheduleRemaining input feature before) Continues := by
  have hcaptures := h.captured
  refine h.ask trivial h.isOpen fun after hcaptured => ?_
  by_cases hsame : before = after
  · rw [if_pos hsame]
    refine Under.ask hcaptured trivial hcaptured.isOpen fun _ hrecorded => ?_
    refine Under.notify hrecorded ⟨_, _, _, _, _, List.getLast?_concat ..⟩ fun hlegal hstarts => ?_
    exact Works.done hlegal ⟨hstarts, fun _ hnext => absurd hnext (by simp)⟩
  · rw [if_neg hsame]
    refine Under.ask hcaptured trivial hcaptured.isOpen fun id hid => ?_
    refine Under.ask hid trivial hid.isOpen fun _ hrecorded => ?_
    obtain ⟨fingerprints, hfingerprints⟩ := List.getLast?_eq_some_iff.mp hcaptures
    have hchanged (u : Record F) (hu : u.fingerprints = t.fingerprints ++ [after]) : u.Changed :=
      ⟨fingerprints, before, after, by rw [hu, hfingerprints]; simp, hsame⟩
    refine Under.notify hrecorded ⟨hchanged _ ?_, _, _, List.getLast?_concat ..⟩
      fun hlegal hstarts => ?_
    · simp only [Record.fingerprints_snoc, Event.fingerprint, Option.toList, List.append_nil]
    · refine Works.done hlegal ⟨hstarts, ?_⟩
      rintro _ ⟨rfl⟩
      refine ⟨List.getLast?_concat .., hchanged _ ?_, ?_, feature, id, rfl⟩
      · simp only [Record.fingerprints_snoc, Event.fingerprint, Option.toList, List.append_nil]
      · simp [nextRun, hremaining]

theorem schedule_works {before : JsString} {recorded : Record F} {command : Command}
    {summary : JsString} (h : Under (some before) t)
    (hrecorded : t = recorded ++ [⟨.recordCompletion input.runId command summary, .ok ()⟩]) :
    Works t (schedule input feature before) Continues := by
  unfold schedule
  by_cases hautonomous : input.autonomous = true
  · rw [if_pos hautonomous]
    refine h.ask trivial h.isOpen fun remaining hasked => ?_
    cases remaining with
    | true => exact scheduleRemaining_works hasked (by simp)
    | false =>
        refine Works.done hasked.legal
          ⟨⟨recorded, input.runId, command, summary, .inr ⟨feature, ?_⟩⟩, _, hasked⟩
        rw [hrecorded, List.append_assoc]
        rfl
  · rw [if_neg hautonomous]
    exact .done h.legal ⟨⟨recorded, input.runId, command, summary, .inl hrecorded⟩, _, h⟩

/-! ## A run -/

variable {policy : Policy F}

theorem completeTerminal_works {summary : String} (h : Under captured t)
    (hcompletes : t.Completes input.runId) :
    Works t (completeTerminal input feature summary) Finished := by
  refine h.ask trivial ⟨h.isOpen, hcompletes⟩ fun _ hrecorded => ?_
  exact announce_works hrecorded ⟨t, _, _, _, .inl rfl⟩

theorem finishRun_works {before output : JsString} (h : Under (some before) t)
    (hactive : (⟨.assertRunActive input.runId, .ok ()⟩ : Event F) ∈ t) :
    Works t (finishRun policy input feature before output) Finished := by
  refine h.ask trivial h.isOpen fun resolution hresolved => ?_
  refine hresolved.ask trivial hresolved.isOpen fun _ hprogress => ?_
  refine hprogress.ask trivial ⟨hprogress.isOpen, .inr (.inr ⟨by simp [hactive], _, _, _,
    List.getLast?_concat ..⟩)⟩ fun _ hrecorded => ?_
  refine (schedule_works hrecorded rfl).bind fun outcome u hlegal hcontinues => ?_
  cases outcome with
  | notScheduled =>
      obtain ⟨hannounces, captured, hunder⟩ := hcontinues
      exact announce_works hunder hannounces
  | blocked => exact .done hlegal hcontinues
  | scheduled next => exact .done hlegal hcontinues

theorem afterLoop_works {before output : JsString} (h : Under (some before) t) :
    Works t (afterLoop policy input feature before output) Finished := by
  refine h.ask trivial h.isOpen fun _ hactive => ?_
  refine hactive.ask trivial hactive.isOpen fun current hcurrent => ?_
  refine hcurrent.ask trivial hcurrent.isOpen fun handed hhanded => ?_
  refine hhanded.ask trivial hhanded.isOpen fun reconciled hreconciled => ?_
  by_cases hterminal : reconciled.2 = true
  · rw [if_pos hterminal]
    have hpair : reconciled = (reconciled.1, true) := Prod.ext rfl hterminal
    exact completeTerminal_works hreconciled
      (.inl ⟨input, handed, reconciled.1, hpair ▸ List.getLast?_concat ..⟩)
  · rw [if_neg hterminal]
    exact finishRun_works hreconciled (by simp)

theorem implementRun_works {before : JsString} (h : Under (some before) t) :
    Works t (implementRun policy input feature before) Finished := by
  refine h.ask trivial h.isOpen fun _ hentered => ?_
  refine hentered.ask trivial hentered.isOpen fun resolution hresolved => ?_
  refine hresolved.ask trivial hresolved.isOpen fun _ hprogress => ?_
  refine hprogress.ask trivial hprogress.isOpen fun _ hloop => ?_
  by_cases hautonomous : input.autonomous = true
  · rw [if_pos hautonomous]
    exact hloop.ask trivial ⟨hloop.isOpen, hautonomous⟩ fun output hrun => afterLoop_works hrun
  · rw [if_neg hautonomous]
    exact hloop.ask trivial ⟨hloop.isOpen, by simpa using hautonomous⟩ fun output hrun =>
      afterLoop_works hrun

theorem tryRun_works (h : Under captured t) : Works t (tryRun policy input) Finished := by
  refine h.ask trivial h.isOpen fun _ hentered => ?_
  refine hentered.ask trivial hentered.isOpen fun current hcurrent => ?_
  refine hcurrent.ask trivial hcurrent.isOpen fun recovered hrecovered => ?_
  refine hrecovered.ask trivial hrecovered.isOpen fun recorded hrecorded => ?_
  refine hrecorded.ask trivial hrecorded.isOpen fun handed hhanded => ?_
  refine hhanded.ask trivial hhanded.isOpen fun before hcaptured => ?_
  refine hcaptured.ask trivial hcaptured.isOpen fun reconciled hreconciled => ?_
  by_cases hterminal : reconciled.2 = true
  · rw [if_pos hterminal]
    have hpair : reconciled = (reconciled.1, true) := Prod.ext rfl hterminal
    exact completeTerminal_works hreconciled
      (.inl ⟨input, handed, reconciled.1, hpair ▸ List.getLast?_concat ..⟩)
  · rw [if_neg hterminal]
    exact implementRun_works hreconciled

/-! ## Failures -/

theorem recordFailure_works {recovery : Outcome} (h : Under captured t) :
    Works t (recordFailure policy input feature recovery) Finished := by
  refine .recorded_ask h.legal fun answer => ?_
  have hrecorded : Under captured _ := ⟨h.legal.snoc _ answer h.isOpen, h.isOpen.snoc rfl rfl, by
    simpa [Event.fingerprint] using h.captured⟩
  refine announce_works hrecorded ?_
  cases policy.classifyBlocked recovery.errorMessage with
  | true => exact ⟨_, _, _, _, _, List.getLast?_concat ..⟩
  | false => exact ⟨_, _, _, _, _, List.getLast?_concat ..⟩

theorem settleFailure_works {recovery : Outcome} (h : Under captured t)
    (hrecovery : recovery.recovered = true → ∃ errorMessage feature input,
      t.getLast? = some ⟨.attemptRecovery errorMessage feature input, .ok recovery⟩) :
    Works t (settleFailure policy input feature recovery) Finished := by
  unfold settleFailure
  by_cases hrecovered : recovery.recovered = true
  · rw [if_pos hrecovered]
    obtain ⟨errorMessage, failed, failedInput, hlast⟩ := hrecovery hrecovered
    refine h.ask trivial ⟨h.isOpen, .inr (.inl ⟨errorMessage, failed, failedInput, recovery,
      hrecovered, hlast⟩)⟩ fun _ hrecorded => ?_
    exact announce_works hrecorded ⟨t, _, _, _, .inl rfl⟩
  · rw [if_neg hrecovered]
    exact recordFailure_works h

theorem handleFailure_works {failure : Failure F} (hlegal : Legal t) (h : Failed failure t) :
    Works t (handleFailure policy input failure) Finished := by
  obtain ⟨hopen, e, hlast, hthrown⟩ := h
  have hunder : Under t.fingerprints.getLast? t := ⟨hlegal, hopen, rfl⟩
  unfold handleFailure
  by_cases hcancelled : failure.thrown.isCancelled = true
  · rw [if_pos hcancelled]
    refine hunder.ask trivial hopen fun _ hcleared => ?_
    exact announce_works hcleared ⟨input.runId, List.getLast?_concat ..⟩
  · rw [if_neg hcancelled]
    refine .recorded_ask hlegal fun answer => ?_
    have hattempted := hlegal.snoc (.attemptRecovery _ failure.feature input) answer
      ⟨hopen, e, failure.thrown, hlast, hthrown, by simpa using hcancelled, rfl⟩
    have hafter : Under t.fingerprints.getLast? _ := ⟨hattempted, hopen.snoc rfl rfl, by
      simp [Event.fingerprint]⟩
    cases answer with
    | ok recovery =>
        exact settleFailure_works hafter fun _ => ⟨_, _, _, List.getLast?_concat ..⟩
    | error thrown => exact settleFailure_works hafter fun hrecovered => absurd hrecovered (by simp)

theorem catchRun_works (h : Under captured t) : Works t (catchRun policy input) Finished := by
  refine Ensures.bind (Ensures.mono (fun result u hu => ?_) (tryRun_works h))
  cases result with
  | ok next => exact Works.done hu.1 hu.2
  | error failure => exact handleFailure_works hu.1 hu.2

/-! ## The chain -/

/-- How a part of a chain ends. -/
def Settles (Q : α → Record F → Prop) : Except (Failure F) α → Record F → Prop
  | .ok a, t => Legal t ∧ Q a t
  | .error failure, t => Legal t ∧
      (t.starts = t.announcements.length ∨ t.starts = t.announcements.length + 1) ∧
        ∃ e : Event F, t.getLast? = some e ∧ e.answer = .error failure.thrown

theorem executeRun_settles (h : Legal t) (hannounced : t.starts = t.announcements.length)
    (hallowed : t = [] ∨ t.Scheduled input) :
    Ensures recording Legal (Settles Finished) (executeRun policy input) t := by
  refine .recorded_ask h fun answer => ?_
  have hlegal := h.snoc (.createRunner input) answer hallowed
  cases answer with
  | ok _ =>
      have hopen : Record.Open (t ++ [⟨.createRunner input, .ok ()⟩]) := by
        refine ⟨by simp [Event.starts, Event.announcement, hannounced], fun e he => ?_⟩
        rw [List.getLast?_concat] at he
        exact Option.some.inj he ▸ rfl
      refine Ensures.mono (fun result u hu => ?_) (catchRun_works ⟨hlegal, hopen, rfl⟩)
      cases result with
      | ok next => exact hu
      | error failure => exact ⟨hu.1, .inr hu.2.1.starts, hu.2.2⟩
  | error thrown =>
      refine .recorded_done hlegal ⟨hlegal, .inl ?_, _, List.getLast?_concat .., rfl⟩
      simpa [Event.starts, Event.announcement] using hannounced

theorem executeRuns_settles (n : ℕ) {input : RunInput F} {t : Record F} (h : Legal t)
    (hannounced : t.starts = t.announcements.length) (hallowed : t = [] ∨ t.Scheduled input) :
    Ensures recording Legal (Settles fun _ u => u.starts = u.announcements.length)
      (executeRuns policy n input) t := by
  induction n generalizing input t with
  | zero => exact .recorded_done h ⟨h, hannounced⟩
  | succ n ih =>
      refine Ensures.bind (Ensures.mono (fun result u hu => ?_)
        (executeRun_settles h hannounced hallowed))
      cases result with
      | error failure => exact .recorded_done hu.1 hu
      | ok next =>
          obtain ⟨hlegal, hstarts, hscheduled⟩ := hu
          cases next with
          | none => exact .recorded_done hlegal ⟨hlegal, hstarts⟩
          | some next => exact ih hlegal hstarts (.inr (hscheduled next rfl))

def samplePolicy : Policy ℕ where
  externalId _ := js "FEAT-001"
  classifyBlocked _ := false
  createFailureBrief _ _ errorMessage := errorMessage
  summarizeOutput output _ := output

def sampleReply : (r : Request ℕ) → r.Reply
  | .findCurrentFeature _ fallback => fallback + 1
  | .recoverPersistedWorkerEvidence _ feature => feature
  | .reconcileRecordedGherkin _ feature => feature
  | .reviewHandoff _ feature => feature
  | .captureDurableProgress feature => if feature = 1 then js "before" else js "after"
  | .reconcile _ feature => (feature, feature == 3)
  | .resolveTask .. => ⟨js "Task 1", js "The first task."⟩
  | .runAutonomous _ | .runInteractive _ => js "Done."
  | .hasRemainingWork _ => true
  | .createId => js "2"
  | .attemptRecovery errorMessage .. => unrecovered errorMessage
  | .createRunner _ | .enterNode .. | .recordProgress .. | .assertRunActive _
  | .recordCompletion .. | .recordRun .. | .notifyChanged _ | .clearCancellation _ => ()

def sampleInput : RunInput ℕ where
  autonomous := true
  command := .continueImplementing
  feature := 0
  forcedRecoveryPhaseNumber := none
  previousFailureBrief := none
  recoveryAttempt := 0
  runId := js "workflow-1"

def sampleAfter (n : ℕ) : Record ℕ × Work ℕ Unit :=
  play (recorded fun r => .ok (sampleReply r)) n ([], executeRuns samplePolicy 2 sampleInput)

end Hepha.Continuation
