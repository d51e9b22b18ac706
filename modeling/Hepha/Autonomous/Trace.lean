import Hepha.Autonomous.Workflow
import Mathlib.Data.List.Chain

/-!
# Traces of the autonomous workflow

The trace of a run has every request with its answer.  What a run may ask for next is a
matter of the trace alone: the phases that are left behind say where the queue stands, and
the signatures that the circuit has seen say whether the run goes on.

* `Allowed`: what may be asked for after a trace;
* `Legal`: a trace that grows by what it allows only;
* `Ends`: what the result of a run says of its trace.
-/

namespace Hepha.Autonomous

open Interaction Phases

variable {K : Carried}

/-! ## Traces -/

/-- A request of the workflow and its answer. -/
abbrev Event (K : Carried) := Interaction.Event (Request K) Request.Answer

abbrev Trace (K : Carried) := List (Event K)

namespace Event

def isOk (e : Event K) : Bool :=
  match e.answer with
  | .ok _ => true
  | .error _ => false

/-- A pass of the loop starts. -/
def starts : Event K → Bool
  | ⟨.yieldControl, _⟩ => true
  | _ => false

/-- A phase is completed, and its lessons are captured. -/
def captures : Event K → Bool
  | ⟨.capturePhase .., .ok _⟩ => true
  | _ => false

/-- A phase is left behind. -/
def settles : Event K → Bool
  | ⟨.prepareEntry .., .ok entry⟩ => entry.skipped.isSome
  | e => e.captures

/-- What the circuit is given. -/
def signature : Event K → Option JsString
  | ⟨.captureDurableProgress _ phaseNumber route detail, .ok durableFingerprint⟩ =>
      some (PhaseNoProgressObservation.signature ⟨detail, durableFingerprint, phaseNumber, route⟩)
  | _ => none

end Event

namespace Trace

def passes (t : Trace K) : ℕ := t.countP Event.starts

def captures (t : Trace K) : ℕ := t.countP Event.captures

/-- Where the queue stands. -/
def position (t : Trace K) : ℕ := t.countP Event.settles

def signatures (t : Trace K) : List JsString := t.filterMap Event.signature

/-- Nothing has failed, and no signature was seen twice in a row. -/
structure Running (t : Trace K) : Prop where
  isOk : ∀ e ∈ t, e.isOk = true
  changes : t.signatures.IsChain (· ≠ ·)

/-- The last event is a failure, or the circuit has seen its signature right before. -/
def Stopped (t : Trace K) (error : WorkflowError) : Prop :=
  ∃ (before : Trace K) (e : Event K), t = before ++ [e] ∧ before.Running ∧
    (e.answer = .error error ∨ error.isCancelled = false ∧
      ∃ signature, e.signature = some signature ∧ before.signatures.getLast? = some signature)

end Trace

/-! ## What is allowed -/

/-- What may be asked for after a trace, where nothing has failed. -/
def Allowed (queue : List NumberedPhase) (t : Trace K) : Request K → Prop
  | .yieldControl =>
      t.position < queue.length ∧ t.passes = t.position + t.signatures.length
  | .prepareEntry _ phase => queue[t.position]? = some phase
  | .executeWorker feature phase planning activeTask .. =>
      t.position < queue.length ∧
        t.getLast? = some ⟨.enterWorker feature phase planning, .ok (.worker activeTask)⟩
  | .settleTask feature phase planning activeTask output =>
      t.position < queue.length ∧ ∃ result : WorkerResult, result.brief = none ∧
        t.getLast? = some ⟨.processResult feature phase planning activeTask output, .ok result⟩
  | .routePreReview feature phase planning reviewRequired =>
      t.position < queue.length ∧
        (t.getLast? = some ⟨.validateWorker feature phase planning, .ok ⟨none⟩⟩ ∨
          reviewRequired = planning.reviewRequiredNow ∧ ∃ summary,
            t.getLast? = some ⟨.enterWorker feature phase planning, .ok (.reviewRoute summary)⟩)
  | .dispatchReview feature phase planning baselineReviewRequired rerunRequired _ =>
      t.position < queue.length ∧ ∃ route : PreReviewRoute K, route.repeatsPhase = false ∧
        route.feature = feature ∧ route.phase = phase ∧
        route.awaitsBaseline = baselineReviewRequired ∧ route.awaitsRerun = rerunRequired ∧
        ∃ feature' phase' reviewRequired, t.getLast? =
          some ⟨.routePreReview feature' phase' planning reviewRequired, .ok route⟩
  | .executeExit feature phase planning reviewReceipt _ v1ReviewRequired =>
      t.position < queue.length ∧
        ∃ baseline rerun, ∃ dispatch : ReviewDispatch K, dispatch.repeatsPhase = false ∧
          dispatch.receipt = reviewReceipt ∧
          v1ReviewRequired = (baseline || rerun || planning.phaseHasTerminalReviewDecision ||
            planning.orderedReviewRequired) ∧
          t.getLast? = some ⟨.dispatchReview feature phase planning baseline rerun
            planning.approvedHash, .ok dispatch⟩
  | .capturePhase feature phase contractId =>
      t.position < queue.length ∧
        ∃ exit : ExitLifecycle K, exit.kind = .completed ∧
          exit.feature = feature ∧ exit.phase = phase ∧
          ∃ feature' phase' planning receipt fallback v1ReviewRequired,
            planning.contractId = contractId ∧
            t.getLast? = some ⟨.executeExit feature' phase' planning receipt fallback
              v1ReviewRequired, .ok exit⟩
  | .writeFeatureLessons _ => t.position = queue.length ∧ 0 < t.captures
  | .complete feature _ =>
      t.position = queue.length ∧
        (t.captures = 0 ∨ t.getLast? = some ⟨.writeFeatureLessons feature, .ok ()⟩)
  | .recordFailure _ => False
  | _ => t.position < queue.length

/-- A trace that grows by what it allows.  Where it has stopped, the failure is recorded
unless it is a cancellation, and nothing else is asked for. -/
inductive Legal (queue : List NumberedPhase) : Trace K → Prop
  | nil : Legal queue []
  | snoc {t : Trace K} (h : Legal queue t) (running : t.Running) (r : Request K)
      (answer : r.Answer) (allowed : Allowed queue t r) : Legal queue (t ++ [⟨r, answer⟩])
  | recorded {t : Trace K} (h : Legal queue t) (failure : Failure K)
      (stopped : t.Stopped failure.error) (notCancelled : failure.error.isCancelled = false)
      (answer : Except WorkflowError Unit) :
      Legal queue (t ++ [⟨.recordFailure failure, answer⟩])

/-- How a run ends. -/
def Ends : Except WorkflowError (Option JsString) → Trace K → Prop
  | .ok _, t => t.Running
  | .error error, t =>
      (t.Stopped error ∧ error.isCancelled = true) ∨
        ∃ (before : Trace K) (failure : Failure K), before.Stopped failure.error ∧
          failure.error.isCancelled = false ∧
          (t = before ++ [⟨.recordFailure failure, .ok ()⟩] ∧ error = failure.error ∨
            t = before ++ [⟨.recordFailure failure, .error error⟩])

/-! ## One event more -/

namespace Trace

variable {t : Trace K} {e : Event K}

@[simp] theorem passes_snoc :
    passes (t ++ [e]) = t.passes + if e.starts then 1 else 0 := by
  simp [passes, List.countP_append, List.countP_singleton]

@[simp] theorem captures_snoc :
    captures (t ++ [e]) = t.captures + if e.captures then 1 else 0 := by
  simp [captures, List.countP_append, List.countP_singleton]

@[simp] theorem position_snoc :
    position (t ++ [e]) = t.position + if e.settles then 1 else 0 := by
  simp [position, List.countP_append, List.countP_singleton]

@[simp] theorem signatures_snoc :
    signatures (t ++ [e]) = t.signatures ++ e.signature.toList := by
  cases h : e.signature <;> simp [signatures, List.filterMap_append, h]

theorem Running.snoc (h : t.Running) (hok : e.isOk = true)
    (hfresh : ∀ signature, e.signature = some signature →
      t.signatures.getLast? ≠ some signature) : Running (t ++ [e]) := by
  refine ⟨fun d hd => ?_, ?_⟩
  · rcases List.mem_append.mp hd with hd | hd
    · exact h.isOk d hd
    · exact List.mem_singleton.mp hd ▸ hok
  · rw [signatures_snoc]
    refine h.changes.append (by cases e.signature <;> simp) fun x hx y hy => ?_
    cases hs : e.signature with
    | none => simp [hs] at hy
    | some signature =>
        rintro rfl
        refine hfresh signature hs (hx.trans ?_)
        simpa [hs] using hy.symm

end Trace

/-- A request that leaves the queue, the lessons and the circuit as they are. -/
def Request.IsQuiet : Request K → Prop
  | .yieldControl | .prepareEntry .. | .capturePhase .. | .captureDurableProgress .. => False
  | _ => True

theorem Request.IsQuiet.event {r : Request K} (h : r.IsQuiet) (answer : r.Answer) :
    Event.starts ⟨r, answer⟩ = false ∧ Event.captures ⟨r, answer⟩ = false ∧
      Event.settles ⟨r, answer⟩ = false ∧ Event.signature ⟨r, answer⟩ = none := by
  cases r <;> first | exact absurd h id | exact ⟨rfl, rfl, rfl, rfl⟩

end Hepha.Autonomous
