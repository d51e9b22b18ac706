import Hepha.Autonomous.Trace

/-!
# What the passes of the workflow ask for

Every pass that goes on has left a phase behind or given the circuit a signature that it
has not seen right before.  `At` says what the trace has to do with the progress of the
loop between two passes, `Inside` with an open phase; the parts of a pass carry it along.

## Strategy

1. `At.snoc` is the step: one answered request more, and the standing after it.
2. `Works.ask` and `Inside.ask` are the rules for a request; a failure stops the run.
3. A lemma for each part of a pass, from its end to its start, and `passes_works` by
   induction on the number of passes.
-/

namespace Hepha.Autonomous

open Interaction Interaction.Program Phases

variable {K : Carried}

/-! ## Works -/

variable {queue : List NumberedPhase} {t : Trace K} {α β : Type}

/-- What holds of the trace where a part of the workflow ends. -/
def Settled (queue : List NumberedPhase) (Q : α → Trace K → Prop) :
    Except (Failure K) α → Trace K → Prop
  | .ok a, t => Legal queue t ∧ t.Running ∧ Q a t
  | .error failure, t => Legal queue t ∧ t.Stopped failure.error

/-- From a trace on, a part of the workflow keeps to what is allowed. -/
def Works (queue : List NumberedPhase) (t : Trace K) (p : Work K α) (Q : α → Trace K → Prop) :
    Prop :=
  Ensures recording (Legal queue) (Settled queue Q) p t

namespace Works

variable {Q : α → Trace K → Prop} {R : β → Trace K → Prop}

theorem done {a : α} (h : Legal queue t) (hrunning : t.Running) (hQ : Q a t) :
    Works queue t (pure a) Q :=
  .recorded_done h ⟨h, hrunning, hQ⟩

theorem stop {failure : Failure K} (h : Legal queue t) (hstopped : t.Stopped failure.error) :
    Works queue t (Program.done (.error failure) : Work K α) Q :=
  .recorded_done h ⟨h, hstopped⟩

theorem bind {p : Work K α} {f : α → Work K β} (hp : Works queue t p Q)
    (hf : ∀ a u, Legal queue u → u.Running → Q a u → Works queue u (f a) R) :
    Works queue t (p >>= f) R := by
  refine Ensures.bind (Ensures.mono (fun result u hu => ?_) hp)
  cases result with
  | ok a => exact hf a u hu.1 hu.2.1 hu.2.2
  | error failure => exact stop hu.1 hu.2

/-- A request is made where it is allowed; a failure of it stops the run. -/
theorem ask {r : Request K} {activePhase : Option NumberedPhase}
    {activeTask : Option PhaseTaskLedgerItem} {feature : K.Feature} {f : r.Reply → Work K β}
    (h : Legal queue t) (hrunning : t.Running) (hallowed : Allowed queue t r)
    (hnext : ∀ reply, Legal queue (t ++ [⟨r, .ok reply⟩]) →
      Works queue (t ++ [⟨r, .ok reply⟩]) (f reply) R) :
    Works queue t (Work.ask activePhase activeTask feature r >>= f) R := by
  refine .recorded_ask h fun answer => ?_
  have hlegal := h.snoc hrunning r answer hallowed
  cases answer with
  | ok reply => exact hnext reply hlegal
  | error error => exact stop hlegal ⟨t, _, rfl, hrunning, .inl rfl⟩

end Works

/-! ## Where the loop stands -/

/-- What the trace says of the progress. -/
structure Standing where
  phaseIndex : ℕ
  completedPhaseInThisRun : Bool
  previousSignature : Option JsString

def Progress.standing (progress : Progress K) : Standing :=
  ⟨progress.phaseIndex, progress.completedPhaseInThisRun, progress.previousSignature⟩

/-- The trace agrees with the progress.  All passes but the `unsettled` ones have left a
phase behind or given the circuit a new signature. -/
structure At (queue : List NumberedPhase) (unsettled : ℕ) (standing : Standing)
    (t : Trace K) : Prop where
  legal : Legal queue t
  running : t.Running
  position : t.position = standing.phaseIndex
  captured : standing.completedPhaseInThisRun = true ↔ 0 < t.captures
  signature : t.signatures.getLast? = standing.previousSignature
  passes : t.passes = t.position + t.signatures.length + unsettled

/-- Between a request of the pass and its end: a phase is open. -/
structure Inside (queue : List NumberedPhase) (standing : Standing) (t : Trace K) : Prop
    extends At queue 1 standing t where
  isOpen : standing.phaseIndex < queue.length

variable {standing : Standing}

theorem Inside.position_lt (h : Inside queue standing t) : t.position < queue.length :=
  h.position ▸ h.isOpen

/-- The standing after one event more. -/
def Standing.after (standing : Standing) (e : Event K) : Standing where
  phaseIndex := standing.phaseIndex + if e.settles then 1 else 0
  completedPhaseInThisRun := e.captures || standing.completedPhaseInThisRun
  previousSignature := e.signature.or standing.previousSignature

theorem At.snoc {unsettled unsettled' : ℕ} {e : Event K} (h : At queue unsettled standing t)
    (hlegal : Legal queue (t ++ [e])) (hok : e.isOk = true)
    (hfresh : ∀ signature, e.signature = some signature →
      standing.previousSignature ≠ some signature)
    (hpasses : unsettled + (if e.starts then 1 else 0) =
      unsettled' + (if e.settles then 1 else 0) + e.signature.toList.length) :
    At queue unsettled' (standing.after e) (t ++ [e]) := by
  refine ⟨hlegal, h.running.snoc hok (h.signature.symm ▸ hfresh), ?_, ?_, ?_, ?_⟩
  · rw [Trace.position_snoc, h.position]
    rfl
  · rw [Trace.captures_snoc]
    cases hcaptures : e.captures
    · simpa [Standing.after, hcaptures] using h.captured
    · simp [Standing.after, hcaptures]
  · rw [Trace.signatures_snoc]
    cases hs : e.signature
    · simpa [Standing.after, hs] using h.signature
    · simp [Standing.after, hs]
  · rw [Trace.passes_snoc, Trace.position_snoc, Trace.signatures_snoc, List.length_append, h.passes]
    omega

theorem At.quiet {unsettled : ℕ} {r : Request K} (h : At queue unsettled standing t)
    (hr : r.IsQuiet) (reply : r.Reply) (hlegal : Legal queue (t ++ [⟨r, .ok reply⟩])) :
    At queue unsettled standing (t ++ [⟨r, .ok reply⟩]) := by
  obtain ⟨hstarts, hcaptures, hsettles, hsignature⟩ := hr.event (.ok reply)
  have hstanding : standing.after ⟨r, .ok reply⟩ = standing := by
    simp [Standing.after, hcaptures, hsettles, hsignature]
  rw [← hstanding]
  exact h.snoc hlegal rfl (by simp [hsignature]) (by simp [hstarts, hsettles, hsignature])

/-- A quiet request inside a pass. -/
theorem Inside.ask {r : Request K} {activePhase : Option NumberedPhase}
    {activeTask : Option PhaseTaskLedgerItem} {feature : K.Feature} {f : r.Reply → Work K β}
    {R : β → Trace K → Prop} (h : Inside queue standing t) (hr : r.IsQuiet)
    (hallowed : Allowed queue t r)
    (hnext : ∀ reply, Inside queue standing (t ++ [⟨r, .ok reply⟩]) →
      Works queue (t ++ [⟨r, .ok reply⟩]) (f reply) R) :
    Works queue t (Work.ask activePhase activeTask feature r >>= f) R :=
  .ask h.legal h.running hallowed fun reply hlegal =>
    hnext reply ⟨h.toAt.quiet hr reply hlegal, h.isOpen⟩

/-- How a pass ends: the loop stands between two passes. -/
def Passed (queue : List NumberedPhase) : Pass K → Trace K → Prop
  | .next progress, t => At queue 0 progress.standing t ∧ progress.phaseIndex ≤ queue.length
  | .returned _, _ => True

theorem Inside.returned {text : JsString} (h : Inside queue standing t) :
    Works queue t (pure (.returned text) : Work K (Pass K)) (Passed queue) :=
  .done h.legal h.running trivial

theorem repeatPhase_works {progress : Progress K} {active : NumberedPhase}
    {activeTask : Option PhaseTaskLedgerItem} {route : String} {phase : NumberedPhase}
    {detail : JsString} (h : Inside queue progress.standing t) :
    Works queue t (repeatPhase progress active activeTask route phase detail) (Passed queue) := by
  refine .ask h.legal h.running h.position_lt fun durableFingerprint hlegal => ?_
  generalize ho : (⟨detail, durableFingerprint, phase.number, js route⟩ :
    PhaseNoProgressObservation) = o
  have hsignature : Event.signature ⟨.captureDurableProgress progress.feature phase.number
      (js route) detail, .ok durableFingerprint⟩ = some o.signature := ho ▸ rfl
  unfold PhaseNoProgressObservation.observe
  by_cases hfresh : some o.signature ≠ progress.previousSignature
  · rw [if_pos hfresh]
    have hafter : At queue 0 _ _ := h.toAt.snoc hlegal rfl
      (fun _ hs hprevious => hfresh ((hsignature.symm.trans hs).trans hprevious.symm))
      (by simp [hsignature, Event.starts, Event.settles, Event.captures])
    subst ho
    exact .done hlegal hafter.running ⟨hafter, h.isOpen.le⟩
  · rw [if_neg hfresh]
    -- the circuit has seen the signature right before
    refine .stop hlegal ⟨t, _, rfl, h.running, .inr ⟨rfl, o.signature, hsignature, ?_⟩⟩
    exact h.signature.trans (not_not.mp hfresh).symm

/-! ## The parts of a pass -/

variable {progress : Progress K} {active phase : NumberedPhase} {planning : Planning K}

theorem exitPhase_works {route : PreReviewRoute K} {dispatch : ReviewDispatch K}
    (h : Inside queue progress.standing t) (hdispatch : dispatch.repeatsPhase = false)
    (hlast : t.getLast? = some ⟨.dispatchReview progress.feature phase planning
      route.awaitsBaseline route.awaitsRerun planning.approvedHash, .ok dispatch⟩) :
    Works queue t (exitPhase progress active phase planning route dispatch.receipt)
      (Passed queue) := by
  refine h.ask trivial ⟨h.position_lt, _, _, dispatch, hdispatch, rfl, rfl, hlast⟩ ?_
  intro exit hexit
  cases hkind : exit.kind with
  | repeatPhase => exact repeatPhase_works hexit
  | checkpointPending => exact hexit.returned
  | completed =>
      -- the one request that moves the queue on after an exit
      refine .ask hexit.legal hexit.running ⟨hexit.position_lt, exit, hkind, rfl, rfl, _, _, _,
        _, _, _, rfl, List.getLast?_concat ..⟩ fun _ hlegal => ?_
      have hafter : At queue 0 _ _ := hexit.toAt.snoc hlegal rfl
        (fun _ hs => absurd hs (by simp [Event.signature])) rfl
      exact .done hlegal hafter.running ⟨hafter, hexit.isOpen⟩

theorem reviewPhase_works {reviewRequired : Bool} (h : Inside queue progress.standing t)
    (hallowed : Allowed queue t (.routePreReview progress.feature phase planning reviewRequired)) :
    Works queue t (reviewPhase progress active phase planning reviewRequired)
      (Passed queue) := by
  refine h.ask trivial hallowed fun route hroute => ?_
  by_cases hrepeats : route.repeatsPhase = true
  · rw [if_pos hrepeats]
    exact repeatPhase_works hroute
  · rw [if_neg hrepeats]
    have hgoesOn : route.repeatsPhase = false := by simpa using hrepeats
    refine Inside.ask hroute trivial ⟨hroute.position_lt, route, hgoesOn, rfl, rfl, rfl, rfl, _,
      _, _, List.getLast?_concat ..⟩ fun dispatch hdispatched => ?_
    by_cases hdispatch : dispatch.repeatsPhase = true
    · rw [if_pos hdispatch]
      exact repeatPhase_works hdispatched
    · rw [if_neg hdispatch]
      exact exitPhase_works hdispatched (by simpa using hdispatch) (List.getLast?_concat ..)

theorem settleWorker_works {activeTask : Option PhaseTaskLedgerItem} {output : K.Output}
    {result : WorkerResult} (h : Inside queue progress.standing t) (hresult : result.brief = none)
    (hlast : t.getLast? = some ⟨.processResult progress.feature phase planning activeTask output,
      .ok result⟩) :
    Works queue t (settleWorker progress active phase planning activeTask output)
      (Passed queue) := by
  refine h.ask trivial ⟨h.position_lt, result, hresult, hlast⟩ fun settled hsettled => ?_
  refine hsettled.ask trivial hsettled.position_lt fun review hreview => ?_
  refine hreview.ask trivial hreview.position_lt fun validation hvalidation => ?_
  cases hrecovered : validation.recovered with
  | some summary => exact hvalidation.returned
  | none =>
      have hnone : validation = ⟨none⟩ := congrArg PostWorkerValidation.mk hrecovered
      exact reviewPhase_works hvalidation
        ⟨hvalidation.position_lt, .inl (hnone ▸ List.getLast?_concat ..)⟩

theorem executeWorker_works {brief : Option JsString} {activeTask : Option PhaseTaskLedgerItem}
    (h : Inside queue progress.standing t)
    (hlast : t.getLast? = some ⟨.enterWorker progress.feature phase planning,
      .ok (.worker activeTask)⟩) :
    Works queue t (executeWorker brief progress active phase planning activeTask)
      (Passed queue) := by
  refine h.ask trivial ⟨h.position_lt, hlast⟩ fun execution hexecution => ?_
  refine hexecution.ask trivial hexecution.position_lt fun result hresult => ?_
  cases hbrief : result.brief with
  | some brief => exact repeatPhase_works hresult
  | none => exact settleWorker_works hresult hbrief (List.getLast?_concat ..)

theorem enterWorker_works {brief : Option JsString} (h : Inside queue progress.standing t) :
    Works queue t (enterWorker brief progress active phase planning) (Passed queue) := by
  refine h.ask trivial h.position_lt fun workerEntry hentry => ?_
  cases workerEntry with
  | reviewRoute summary =>
      exact reviewPhase_works hentry
        ⟨hentry.position_lt, .inr ⟨rfl, summary, List.getLast?_concat ..⟩⟩
  | repeatPhase summary => exact repeatPhase_works hentry
  | worker activeTask => exact executeWorker_works hentry (List.getLast?_concat ..)

theorem planPhase_works {brief : Option JsString} {missingQualityGates : List JsString}
    (h : Inside queue progress.standing t) :
    Works queue t (planPhase brief progress active phase missingQualityGates)
      (Passed queue) := by
  refine h.ask trivial h.position_lt fun planned hplanned => ?_
  cases planned.planning with
  | none => exact repeatPhase_works hplanned
  | some planning => exact enterWorker_works hplanned

theorem passPhase_works {brief : Option JsString} (h : At queue 0 progress.standing t)
    (hactive : queue[progress.phaseIndex]? = some active) :
    Works queue t (passPhase brief progress active) (Passed queue) := by
  have hopen : progress.phaseIndex < queue.length := (List.getElem?_eq_some_iff.mp hactive).1
  have hposition : t.position = progress.phaseIndex := h.position
  refine .ask h.legal h.running ⟨hposition ▸ hopen, h.passes⟩ fun _ hlegal => ?_
  have hstarted : At queue 1 progress.standing _ := h.snoc hlegal rfl
    (fun _ hs => absurd hs (by simp [Event.signature])) rfl
  have hinside : Inside queue progress.standing _ := ⟨hstarted, hopen⟩
  refine hinside.ask trivial hinside.position_lt fun _ hasserted => ?_
  have hqueue : queue[progress.standing.phaseIndex]? = some active := hactive
  refine .ask hasserted.legal hasserted.running
    (by rwa [Allowed, hasserted.position]) fun entry hlegal => ?_
  have hcount (p : Option JsString) (hp : entry.skipped = p) :
      Event.settles ⟨.prepareEntry progress.feature active, .ok entry⟩ = p.isSome := hp ▸ rfl
  cases hskipped : entry.skipped with
  | some summary =>
      have hafter : At queue 0 _ _ := hasserted.toAt.snoc hlegal rfl
        (fun _ hs => absurd hs (by simp [Event.signature]))
        (by simp [hcount _ hskipped, Event.signature, Event.starts])
      have hstanding : progress.standing.after ⟨.prepareEntry progress.feature active, .ok entry⟩ =
          ⟨progress.phaseIndex + 1, progress.completedPhaseInThisRun,
            progress.previousSignature⟩ := by
        simp [Standing.after, hcount _ hskipped, Event.captures, Event.signature,
          Progress.standing]
      rw [hstanding] at hafter
      exact .done hlegal hafter.running ⟨hafter, hopen⟩
  | none =>
      have hafter : At queue 1 _ _ := hasserted.toAt.snoc hlegal rfl
        (fun _ hs => absurd hs (by simp [Event.signature]))
        (by simp [hcount _ hskipped, Event.signature, Event.starts])
      have hstanding : progress.standing.after ⟨.prepareEntry progress.feature active, .ok entry⟩ =
          progress.standing := by
        simp [Standing.after, hcount _ hskipped, Event.captures, Event.signature]
      rw [hstanding] at hafter
      exact planPhase_works ⟨hafter, hopen⟩

/-! ## The loop -/

/-- A quiet request is the last one of a part. -/
theorem At.request {unsettled : ℕ} {r : Request K} {activePhase : Option NumberedPhase}
    {activeTask : Option PhaseTaskLedgerItem} {feature : K.Feature}
    (h : At queue unsettled standing t) (hr : r.IsQuiet) (hallowed : Allowed queue t r) :
    Works queue t (Work.ask activePhase activeTask feature r) fun _ _ => True := by
  refine .recorded_ask h.legal fun answer => ?_
  have hlegal := h.legal.snoc h.running r answer hallowed
  cases answer with
  | ok reply => exact Works.done hlegal (h.quiet hr reply hlegal).running trivial
  | error error => exact Works.stop hlegal ⟨t, _, rfl, h.running, .inl rfl⟩

/-- The end of the loop. -/
theorem completeRun_works (h : At queue 0 progress.standing t)
    (hlast : progress.phaseIndex = queue.length) :
    Works queue t (completeRun progress) fun _ _ => True := by
  have hposition : t.position = queue.length := h.position.trans hlast
  unfold completeRun
  by_cases hcompleted : progress.completedPhaseInThisRun = true
  · rw [if_pos hcompleted]
    refine .ask h.legal h.running ⟨hposition, h.captured.mp hcompleted⟩ fun _ hlegal => ?_
    have hwritten := At.quiet (r := .writeFeatureLessons progress.feature) h trivial () hlegal
    exact hwritten.request trivial ⟨hwritten.position.trans hlast, .inr (List.getLast?_concat ..)⟩
  · rw [if_neg hcompleted]
    have hnone : t.captures = 0 := by
      have hcaptured : ¬0 < t.captures := fun hpos => hcompleted (h.captured.mpr hpos)
      omega
    exact h.request trivial ⟨hposition, .inl hnone⟩

theorem passes_works {brief : Option JsString} (n : ℕ) {progress : Progress K} {t : Trace K}
    (h : At queue 0 progress.standing t) (hle : progress.phaseIndex ≤ queue.length) :
    Works queue t (passes brief queue n progress) fun _ _ => True := by
  induction n generalizing progress t with
  | zero => exact .done h.legal h.running trivial
  | succ n ih =>
      unfold passes
      cases hactive : queue[progress.phaseIndex]? with
      | none =>
          -- every phase is left behind
          have hlast : progress.phaseIndex = queue.length :=
            hle.antisymm (List.getElem?_eq_none_iff.mp hactive)
          exact (completeRun_works h hlast).bind fun _ _ hlegal hrunning _ =>
            .done hlegal hrunning trivial
      | some active =>
          refine (passPhase_works h hactive).bind fun pass u hlegal hrunning hpassed => ?_
          cases pass with
          | next progress => exact ih hpassed.1 hpassed.2
          | returned text => exact .done hlegal hrunning trivial

/-! ## The run -/

theorem executePhases_ensures (n : ℕ) (brief : Option JsString) (feature : K.Feature) :
    Ensures recording (Legal queue) (fun result t => Ends result t)
      (executePhases n brief feature queue) [] := by
  have hstart : At queue 0 (startProgress feature).standing ([] : Trace K) :=
    ⟨.nil, ⟨by simp, .nil⟩, rfl, by simp [startProgress, Progress.standing, Trace.captures],
      rfl, rfl⟩
  refine Ensures.bind (Ensures.mono (fun result t ht => ?_) (passes_works n hstart (Nat.zero_le _)))
  cases result with
  | ok text => exact Ensures.recorded_done ht.1 ht.2.1
  | error failure =>
      obtain ⟨hlegal, hstopped⟩ := ht
      by_cases hcancelled : failure.error.isCancelled = true
      · simp only [if_pos hcancelled]
        exact .recorded_done hlegal (.inl ⟨hstopped, hcancelled⟩)
      · simp only [if_neg hcancelled]
        have hnot : failure.error.isCancelled = false := by simpa using hcancelled
        refine .recorded_ask hlegal fun answer => ?_
        -- a record that fails itself takes the place of the error
        have hrecorded := hlegal.recorded failure hstopped hnot answer
        cases answer with
        | ok _ =>
            exact .recorded_done hrecorded (.inr ⟨t, failure, hstopped, hnot, .inl ⟨rfl, rfl⟩⟩)
        | error error =>
            exact .recorded_done hrecorded (.inr ⟨t, failure, hstopped, hnot, .inr rfl⟩)

/-- **Whatever is answered, the workflow asks only for what its trace allows, and ends as
its trace says.** -/
theorem executePhases_legal (n : ℕ) (previousFailureBrief : Option JsString) (feature : K.Feature)
    (queue : List NumberedPhase) {t : Trace K}
    {p : Program (Request K) Request.Answer (Except WorkflowError (Option JsString))}
    (h : Reaches recording ([], executePhases n previousFailureBrief feature queue) (t, p)) :
    Legal queue t ∧ ∀ result, p = .done result → Ends result t :=
  (executePhases_ensures n previousFailureBrief feature).of_reaches h

/-- Nothing of the carried types is looked into. -/
def sampleCarried : Carried := ⟨Unit, Unit, Unit, Unit, Unit⟩

def samplePhase : NumberedPhase := ⟨1, js "Plan", js "READY", js "phase-1.md"⟩

/-- A phase that goes through at once. -/
def sampleReply : (r : Request sampleCarried) → r.Reply
  | .yieldControl | .assertBranches | .capturePhase .. | .writeFeatureLessons _
  | .recordFailure _ => ()
  | .prepareEntry _ phase => ⟨(), phase, [], [], none⟩
  | .preparePlanning _ phase _ =>
      ⟨(), phase, [], some ⟨js "Phase 1", none, true, false, false, none, ()⟩⟩
  | .enterWorker .. => .worker none
  | .executeWorker .. => ⟨none, ()⟩
  | .processResult .. => ⟨[], none⟩
  | .settleTask _ phase .. => ⟨(), phase, js "Settled."⟩
  | .prepareReview _ phase _ => ⟨(), phase, true, []⟩
  | .validateWorker .. => ⟨none⟩
  | .routePreReview _ phase .. => ⟨(), phase, [], false, true, false⟩
  | .dispatchReview .. => ⟨false, some (), []⟩
  | .executeExit _ phase .. => ⟨.completed, (), phase, []⟩
  | .complete .. => js "Completed."
  | .captureDurableProgress .. => js "fingerprint"

def sampleAfter (n : ℕ) : Trace sampleCarried ×
    Program (Request sampleCarried) Request.Answer (Except WorkflowError (Option JsString)) :=
  play (recorded fun r => .ok (sampleReply r)) n ([], executePhases 2 none () [samplePhase])

theorem executePhases_legal_sample :
    (sampleAfter 16).2 = .done (.ok (some (js "Completed."))) ∧
      (sampleAfter 16).1.captures = 1 ∧ Legal [samplePhase] (sampleAfter 16).1 ∧
        Ends (.ok (some (js "Completed."))) (sampleAfter 16).1 := by
  have hreach : Reaches recording ([], executePhases (K := sampleCarried) 2 none ()
      [samplePhase]) ((sampleAfter 16).1, (sampleAfter 16).2) :=
    reaches_recorded _ 16 _
  obtain ⟨hlegal, hends⟩ := executePhases_legal 2 none _ [samplePhase] hreach
  exact ⟨rfl, rfl, hlegal, hends _ rfl⟩

end Hepha.Autonomous
