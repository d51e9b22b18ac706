import Hepha.PhaseExit.Lifecycle

/-!
# What the exit of a phase is authorized by

A phase is marked as completed only by an exit that is authorized: its checkpoint is allowed,
or all its declared tasks are resolved where only the review is missing.  No document changes
while the review store is open.

* `Standing`: what the record of an exit has come to;
* `execute_authorized`: every exit has a legal record, and its result says how it ends.
-/

namespace Hepha.PhaseExit

open Interaction Autonomous Phases

variable {F : Type}

abbrev Event (F : Type) := Interaction.Event (Request F) Request.Answer

abbrev Record (F : Type) := List (Event F)

/-- What a record has come to. -/
structure Standing where
  storeOpen : Bool
  tasksResolved : Bool
  allowed : Bool
  marked : Bool
  pushed : Bool
  completed : Bool

namespace Standing

def start : Standing := ⟨false, false, false, false, false, false⟩

/-- A store that could not be closed is not used any more. -/
def after (s : Standing) : Event F → Standing
  | ⟨.openReviewStore _, .ok opened⟩ => { s with storeOpen := opened }
  | ⟨.closeReviewStore, _⟩ => { s with storeOpen := false }
  | ⟨.hasUnresolvedContractTask _, .ok unresolved⟩ => { s with tasksResolved := !unresolved }
  | ⟨.assessCheckpoint _, .ok decision⟩ => { s with allowed := decision.allowed }
  | ⟨.markCompleted .., .ok _⟩ => { s with marked := true }
  | ⟨.attemptGitCheckpoint .., .ok (.completed _)⟩ => { s with pushed := true }
  | ⟨.recordProgress .completed .., .ok _⟩ => { s with completed := true }
  | _ => s

end Standing

def Record.standing (t : Record F) : Standing := t.foldl Standing.after .start

@[simp] theorem Record.standing_snoc {t : Record F} {e : Event F} :
    Record.standing (t ++ [e]) = t.standing.after e := by
  simp [Record.standing]

section

variable (features : Features F) (input : LifecycleInput F)

/-- The checkpoint is allowed, or the tasks stand in for a required review. -/
def Standing.Authorized (s : Standing) : Prop :=
  s.allowed = true ∨ input.v1ReviewRequired = true ∧ s.tasksResolved = true

/-- Where there is anything to mark the phase by, it is marked. -/
def Standing.Settled (s : Standing) : Prop :=
  s.marked = (s.tasksResolved || input.v1ReviewRequired)

/-- The receipt is that of the code review of the phase. -/
def HasExactReceipt (feature : F) (phase : NumberedPhase) : Prop :=
  ∃ receipt featureId, input.reviewReceipt = some receipt ∧
    features.deriveFeatureId feature = some featureId ∧
    receipt.scope = ⟨features.projectId, featureId, phase.number, js "code-review"⟩

/-- What may be asked for, by the standing and the last event. -/
def Allowed (s : Standing) (last : Option (Event F)) : Request F → Prop
  | .openReviewStore databasePath =>
      s = { Standing.start with tasksResolved := s.tasksResolved } ∧
        input.reviewReceipt.map (·.databasePath) = some databasePath
  | .closeReviewStore => s.storeOpen = true
  | .hasCheckedTaskLedger _ | .hasCompletionEvidence _ | .getQualityGates .. => s.marked = false
  | .assessCheckpoint checkpoint =>
      s.marked = false ∧
        (s.tasksResolved = false →
          checkpoint.authoritativeReview.isSome = input.v1ReviewRequired) ∧
        ∀ scope contentHash, checkpoint.authoritativeReview = some (some (scope, contentHash)) →
          s.storeOpen = true ∧ ∃ receipt, input.reviewReceipt = some receipt ∧
            receipt.scope = scope ∧ receipt.contentHash = contentHash
  | .persistDocumentationApplicability _ phase =>
      s.storeOpen = false ∧ s.Authorized input ∧ s.tasksResolved = true ∧
        last = some ⟨.hasCheckedTaskLedger phase, .ok true⟩
  | .markCompleted feature phase =>
      s.storeOpen = false ∧ s.Authorized input ∧ s.marked = false ∧
        (s.tasksResolved = true ∧
            last = some ⟨.persistDocumentationApplicability feature phase, .ok ()⟩ ∨
          s.tasksResolved = false ∧ input.v1ReviewRequired = true ∧
            HasExactReceipt features input feature phase)
  | .attemptGitCheckpoint .. =>
      s.storeOpen = false ∧ s.Authorized input ∧ s.Settled input ∧
        phaseRequiresGitCheckpoint input.contract = true
  | .recordProgress .completed .. =>
      s.storeOpen = false ∧ s.Authorized input ∧ s.Settled input ∧
        s.pushed = phaseRequiresGitCheckpoint input.contract
  | .recordProgress .checkpoint .. => s.storeOpen = false ∧ s.Authorized input
  | .recordProgress .blocked .. => s.storeOpen = false ∧ s.allowed = false
  | .hasUnresolvedContractTask _ => s = .start
  | .refreshFeature _ | .completeRecoveredReviewTask .. => s.storeOpen = false

/-- A record that grows by what it allows, until the completion is recorded. -/
inductive Legal : Record F → Prop
  | nil : Legal []
  | snoc {t : Record F} (h : Legal t) (running : t.standing.completed = false) (r : Request F)
      (answer : r.Answer) (allowed : Allowed features input t.standing t.getLast? r) :
      Legal (t ++ [⟨r, answer⟩])

/-- An exit fails.  Once the phase is marked, only a request that throws makes it fail. -/
def Fails (message : Thrown) (t : Record F) : Prop :=
  t.standing.storeOpen = false ∧ t.standing.completed = false ∧
    (t.standing.marked = true → ∃ e : Event F, t.getLast? = some e ∧ e.answer = .error message)

/-- How an exit ends. -/
def Ends : Except Thrown (LifecycleResult F) → Record F → Prop
  | .ok ⟨.repeatPhase, _, phase, _⟩, t =>
      t.standing = .start ∧ ∃ summary,
        t.getLast? = some ⟨.completeRecoveredReviewTask phase summary, .ok true⟩
  | .ok ⟨.checkpointPending, feature, phase, summaries⟩, t =>
      t.standing.storeOpen = false ∧ t.standing.Authorized input ∧ t.standing.Settled input ∧
        t.standing.pushed = false ∧ ∃ summary, summaries = [summary] ∧
          t.getLast? = some ⟨.recordProgress .checkpoint feature phase none summary, .ok ()⟩
  | .ok ⟨.completed, feature, phase, _⟩, t =>
      t.standing.storeOpen = false ∧ t.standing.Authorized input ∧ t.standing.Settled input ∧
        t.standing.pushed = phaseRequiresGitCheckpoint input.contract ∧ ∃ summary,
          t.getLast? = some ⟨.recordProgress .completed feature phase none summary, .ok ()⟩
  | .error message, t => Fails message t

end

/-! ## Works -/

variable {features : Features F} {input : LifecycleInput F} {t : Record F} {s : Standing}
  {α β : Type}

/-- A legal record and its standing. -/
structure At (features : Features F) (input : LifecycleInput F) (s : Standing) (t : Record F) :
    Prop where
  legal : Legal features input t
  standing : t.standing = s

theorem At.snoc {r : Request F} (h : At features input s t) (hrunning : s.completed = false)
    (hallowed : Allowed features input s t.getLast? r) (answer : r.Answer) :
    At features input (s.after ⟨r, answer⟩) (t ++ [⟨r, answer⟩]) := by
  obtain ⟨hlegal, rfl⟩ := h
  exact ⟨hlegal.snoc hrunning r answer hallowed, Record.standing_snoc⟩

def Ending (features : Features F) (input : LifecycleInput F) (E : Thrown → Record F → Prop)
    (Q : α → Record F → Prop) : Except Thrown α → Record F → Prop
  | .ok a, t => Q a t
  | .error message, t => Legal features input t ∧ E message t

def Works (features : Features F) (input : LifecycleInput F) (E : Thrown → Record F → Prop)
    (t : Record F) (p : Work F α) (Q : α → Record F → Prop) : Prop :=
  Ensures recording (Legal features input) (Ending features input E Q) p t

variable {E : Thrown → Record F → Prop} {Q : α → Record F → Prop} {R : β → Record F → Prop}

namespace Works

theorem done {a : α} (h : Legal features input t) (hQ : Q a t) :
    Works features input E t (pure a) Q :=
  .recorded_done h hQ

theorem throw {message : JsString} (h : Legal features input t) (hE : E message t) :
    Works features input E t (Work.throw message : Work F α) Q :=
  .recorded_done h ⟨h, hE⟩

theorem bind {p : Work F α} {f : α → Work F β} (hp : Works features input E t p Q)
    (hf : ∀ a u, Q a u → Works features input E u (f a) R) :
    Works features input E t (p >>= f) R := by
  refine Ensures.bind (Ensures.mono (fun result u hu => ?_) hp)
  cases result with
  | ok a => exact hf a u hu
  | error message => exact .recorded_done hu.1 hu

end Works

/-- A request of which every answer is accounted for. -/
theorem At.request {r : Request F} {Q : r.Reply → Record F → Prop} (h : At features input s t)
    (hrunning : s.completed = false) (hallowed : Allowed features input s t.getLast? r)
    (hnext : ∀ reply, At features input (s.after ⟨r, .ok reply⟩) (t ++ [⟨r, .ok reply⟩]) →
      Q reply (t ++ [⟨r, .ok reply⟩]))
    (hthrown : ∀ thrown, At features input (s.after ⟨r, .error thrown⟩)
      (t ++ [⟨r, .error thrown⟩]) → E thrown (t ++ [⟨r, .error thrown⟩])) :
    Works features input E t (Work.ask r) Q := by
  refine .recorded_ask h.legal fun answer => ?_
  have hsnoc := h.snoc hrunning hallowed answer
  cases answer with
  | ok reply => exact .recorded_done hsnoc.legal (hnext reply hsnoc)
  | error thrown => exact .recorded_done hsnoc.legal ⟨hsnoc.legal, hthrown thrown hsnoc⟩

theorem Standing.after_error {r : Request F} {thrown : Thrown} (h : s.storeOpen = false) :
    s.after ⟨r, .error thrown⟩ = s := by
  cases r with
  | closeReviewStore =>
      obtain ⟨storeOpen, tasksResolved, allowed, marked, pushed, completed⟩ := s
      obtain rfl : storeOpen = false := h
      rfl
  | recordProgress status feature phase error summary => cases status <;> rfl
  | _ => rfl

/-- What a request throws while the store is closed is what the exit fails with. -/
theorem At.fails {r : Request F} {thrown : Thrown} (hstore : s.storeOpen = false)
    (hrunning : s.completed = false)
    (h : At features input (s.after ⟨r, .error thrown⟩) (t ++ [⟨r, .error thrown⟩])) :
    Fails thrown (t ++ [⟨r, .error thrown⟩]) := by
  have hstanding := h.standing.trans (Standing.after_error hstore)
  exact ⟨by rw [hstanding]; exact hstore, by rw [hstanding]; exact hrunning,
    fun _ => ⟨_, List.getLast?_concat .., rfl⟩⟩

theorem At.ask {r : Request F} {f : r.Reply → Work F β} (h : At features input s t)
    (hstore : s.storeOpen = false) (hrunning : s.completed = false)
    (hallowed : Allowed features input s t.getLast? r)
    (hnext : ∀ reply, At features input (s.after ⟨r, .ok reply⟩) (t ++ [⟨r, .ok reply⟩]) →
      Works features input Fails (t ++ [⟨r, .ok reply⟩]) (f reply) R) :
    Works features input Fails t (Work.ask r >>= f) R := by
  have hrequest : Works features input Fails t (Work.ask r) fun reply u =>
      u = t ++ [⟨r, .ok reply⟩] ∧ At features input (s.after ⟨r, .ok reply⟩) u :=
    h.request hrunning hallowed (fun _ hreply => ⟨rfl, hreply⟩) fun _ => At.fails hstore hrunning
  refine hrequest.bind fun reply u hu => ?_
  obtain ⟨rfl, hreply⟩ := hu
  exact hnext reply hreply

/-- An exit may fail by itself only before the phase is marked. -/
theorem At.throw {message : JsString} (h : At features input s t) (hstore : s.storeOpen = false)
    (hrunning : s.completed = false) (hmarked : s.marked = false) :
    Works features input Fails t (Work.throw message : Work F α) Q := by
  obtain ⟨hlegal, rfl⟩ := h
  exact .throw hlegal ⟨hstore, hrunning, fun hmark => absurd hmark (by simp [hmarked])⟩

/-! ## The assessment -/

variable {exit : ExitInput F} {storeOpen tasksResolved : Bool}

/-- The exit is given what the lifecycle is. -/
structure Matches (input : LifecycleInput F) (exit : ExitInput F) : Prop where
  reviewReceipt : exit.reviewReceipt = input.reviewReceipt
  v1ReviewRequired : exit.v1ReviewRequired = input.v1ReviewRequired

theorem reviewAuthority_eq_some {required opened : Bool} {receipt : Option ReviewReceipt}
    {scope : Scope} {contentHash : JsString}
    (h : reviewAuthority required receipt opened = some (some (scope, contentHash))) :
    opened = true ∧ ∃ r, receipt = some r ∧ r.scope = scope ∧ r.contentHash = contentHash := by
  cases required <;> cases opened <;> cases receipt <;> simp_all [reviewAuthority]

/-- An assessment leaves the store as it is. -/
abbrev Assesses (features : Features F) (input : LifecycleInput F) (storeOpen tasksResolved : Bool)
    (t : Record F) (p : Work F Decision) : Prop :=
  Works features input
    (fun _ => At features input ⟨storeOpen, tasksResolved, false, false, false, false⟩) t p
    fun decision =>
      At features input ⟨storeOpen, tasksResolved, decision.allowed, false, false, false⟩

theorem reviewAuthority_isSome {required opened : Bool} {receipt : Option ReviewReceipt} :
    (reviewAuthority required receipt opened).isSome = required := by
  cases required <;> rfl

theorem assess_request (hreceipt : exit.reviewReceipt = input.reviewReceipt)
    {required evidence : Bool} {qualityGates : List Gate}
    (hrequired : tasksResolved = false → required = input.v1ReviewRequired)
    (h : At features input ⟨storeOpen, tasksResolved, false, false, false, false⟩ t) :
    Assesses features input storeOpen tasksResolved t (Work.ask (.assessCheckpoint {
      completionEvidencePresent := evidence
      phaseNumber := exit.phase.number
      phaseStatus := exit.phase.status
      qualityGates := qualityGates
      authoritativeReview := reviewAuthority required exit.reviewReceipt storeOpen })) := by
  refine h.request rfl ⟨rfl, fun htasks => reviewAuthority_isSome.trans (hrequired htasks),
    fun scope contentHash hreview => ?_⟩ (fun _ hreply => hreply) fun _ hthrown => hthrown
  obtain ⟨hopened, receipt, hsome, hscope, hhash⟩ := reviewAuthority_eq_some hreview
  exact ⟨hopened, receipt, hreceipt ▸ hsome, hscope, hhash⟩

theorem completionEvidence_works
    (h : At features input ⟨storeOpen, tasksResolved, false, false, false, false⟩ t) :
    Works features input
      (fun _ => At features input ⟨storeOpen, tasksResolved, false, false, false, false⟩) t
      (completionEvidence exit)
      fun _ => At features input ⟨storeOpen, tasksResolved, false, false, false, false⟩ := by
  unfold completionEvidence
  split
  · exact h.request rfl rfl (fun _ hreply => hreply) fun _ hthrown => hthrown
  · exact h.request rfl rfl (fun _ hreply => hreply) fun _ hthrown => hthrown

theorem assess_works (hexit : Matches input exit)
    (h : At features input ⟨storeOpen, exit.orderedTasksComplete, false, false, false, false⟩ t) :
    Assesses features input storeOpen exit.orderedTasksComplete t (assess exit storeOpen) := by
  unfold assess assessOrdered assessGeneric
  split
  · split
    · rename_i hcomplete
      refine assess_request hexit.reviewReceipt (fun hincomplete => ?_) h
      exact absurd hcomplete (by simp [hincomplete])
    · exact .done h.legal h
  · refine (completionEvidence_works h).bind fun evidence u hevidence => ?_
    have hgates : Works features input
        (fun _ => At features input ⟨storeOpen, exit.orderedTasksComplete, false, false, false,
          false⟩) u
        (Work.ask (.getQualityGates exit.feature exit.phase.number))
        fun _ => At features input ⟨storeOpen, exit.orderedTasksComplete, false, false, false,
          false⟩ :=
      hevidence.request rfl rfl (fun _ hreply => hreply) fun _ hthrown => hthrown
    exact hgates.bind fun qualityGates v hv =>
      assess_request hexit.reviewReceipt (fun _ => hexit.v1ReviewRequired) hv

/-- The store is closed in the end, whatever the assessment throws. -/
theorem ensure_works {p : Work F Decision}
    (hp : Assesses features input true tasksResolved t p) :
    Works features input Fails t (p.ensure (Work.ask .closeReviewStore)) fun decision =>
      At features input ⟨false, tasksResolved, decision.allowed, false, false, false⟩ := by
  refine Ensures.bind (Ensures.mono (fun result u hu => ?_) hp)
  have hopen : ∃ allowed, At features input ⟨true, tasksResolved, allowed, false, false, false⟩ u
      ∧ ∀ decision, result = .ok decision → decision.allowed = allowed := by
    cases result with
    | ok decision => exact ⟨decision.allowed, hu, fun _ h => Except.ok.inj h ▸ rfl⟩
    | error thrown => exact ⟨false, hu.2, fun _ h => absurd h (by simp)⟩
  obtain ⟨allowed, hat, hallowed⟩ := hopen
  refine .recorded_ask hat.legal fun answer => ?_
  have hclosed : At features input ⟨false, tasksResolved, allowed, false, false, false⟩ _ :=
    hat.snoc (r := .closeReviewStore) rfl rfl answer
  have hfails (message : Thrown) : Fails message _ :=
    ⟨congrArg Standing.storeOpen hclosed.standing, congrArg Standing.completed hclosed.standing,
      fun hmarked => absurd hmarked (by rw [hclosed.standing]; simp)⟩
  cases answer with
  | error thrown => exact .recorded_done hclosed.legal ⟨hclosed.legal, hfails thrown⟩
  | ok _ =>
      cases result with
      | ok decision =>
          refine .recorded_done hclosed.legal ?_
          change At features input ⟨false, tasksResolved, decision.allowed, false, false, false⟩ _
          rw [hallowed decision rfl]
          exact hclosed
      | error thrown => exact .recorded_done hclosed.legal ⟨hclosed.legal, hfails thrown⟩

/-- Without a store, what is thrown is what the exit fails with. -/
theorem Works.of_assesses {p : Work F Decision}
    (hp : Assesses features input false tasksResolved t p) :
    Works features input Fails t p fun decision =>
      At features input ⟨false, tasksResolved, decision.allowed, false, false, false⟩ := by
  refine Ensures.mono (fun result u hu => ?_) hp
  cases result with
  | ok decision => exact hu
  | error thrown =>
      exact ⟨hu.1, congrArg Standing.storeOpen hu.2.standing,
        congrArg Standing.completed hu.2.standing,
        fun hmarked => absurd hmarked (by rw [hu.2.standing]; simp)⟩

theorem assessWithStore_works (hexit : Matches input exit)
    (h : At features input ⟨false, exit.orderedTasksComplete, false, false, false, false⟩ t) :
    Works features input Fails t (assessWithStore exit) fun decision =>
      At features input ⟨false, exit.orderedTasksComplete, decision.allowed, false, false,
        false⟩ := by
  unfold assessWithStore
  split
  · exact .of_assesses (assess_works hexit h)
  · rename_i receipt hsome
    refine h.ask rfl rfl ⟨rfl, by rw [← hexit.reviewReceipt, hsome]; rfl⟩ fun opened hopened => ?_
    cases opened with
    | true => exact ensure_works (assess_works hexit hopened)
    | false => exact .of_assesses (assess_works hexit hopened)

/-! ## The authorization -/

variable {allowed : Bool} {feature : F} {phase : NumberedPhase}

/-- What an authorization comes to. -/
abbrev Standing.authorized (input : LifecycleInput F) (tasksResolved allowed : Bool) : Standing :=
  ⟨false, tasksResolved, allowed, tasksResolved || input.v1ReviewRequired, false, false⟩

abbrev Authorizes (features : Features F) (input : LifecycleInput F) (tasksResolved allowed : Bool)
    (t : Record F) (p : Work F α) : Prop :=
  Works features input Fails t p fun _ =>
    At features input (.authorized input tasksResolved allowed)

theorem refresh_works (hstore : s.storeOpen = false) (hrunning : s.completed = false)
    (h : At features input s t) :
    Works features input Fails t (refresh features feature phase) fun _ =>
      At features input s := by
  refine h.ask hstore hrunning hstore fun refreshed hrefreshed => ?_
  exact .done hrefreshed.legal hrefreshed

theorem completeFromTasks_works
    (hauthorized : (Standing.authorized input true allowed).Authorized input)
    (h : At features input ⟨false, true, allowed, false, false, false⟩ t) :
    Authorizes features input true allowed t (completeFromTasks features feature phase) := by
  refine h.ask rfl rfl rfl fun checked hchecked => ?_
  cases checked with
  | false => exact hchecked.throw rfl rfl rfl
  | true =>
      refine At.ask hchecked rfl rfl ⟨rfl, hauthorized, rfl, List.getLast?_concat ..⟩
        fun _ hpersisted => ?_
      exact hpersisted.request rfl ⟨rfl, hauthorized, rfl, .inl ⟨rfl, List.getLast?_concat ..⟩⟩
        (fun _ hmarked => hmarked) fun _ => At.fails rfl rfl

theorem hasExactReceipt
    (h : (input.reviewReceipt.map (·.scope)).any (isExactScope features feature phase) = true) :
    HasExactReceipt features input feature phase := by
  cases hreceipt : input.reviewReceipt with
  | none => simp [hreceipt] at h
  | some receipt =>
      simp only [hreceipt, Option.map_some, Option.any_some, isExactScope, Bool.and_eq_true,
        decide_eq_true_eq] at h
      obtain ⟨⟨⟨hproject, hfeature⟩, hphase⟩, hgate⟩ := h
      refine ⟨receipt, receipt.scope.featureId, hreceipt, hfeature.symm, ?_⟩
      rw [← hproject, ← hphase, ← hgate]

theorem completeAfterReview_works (hv1 : input.v1ReviewRequired = true)
    (hauthorized : (Standing.authorized input false allowed).Authorized input)
    (h : At features input ⟨false, false, allowed, false, false, false⟩ t) :
    Authorizes features input false allowed t
      (completeAfterReview features feature phase (input.reviewReceipt.map (·.scope))) := by
  unfold completeAfterReview
  split
  · rename_i hscope
    refine h.request rfl ⟨rfl, hauthorized, rfl, .inr ⟨rfl, hv1, hasExactReceipt hscope⟩⟩
      (fun _ hmarked => ?_) fun _ => At.fails rfl rfl
    rw [Standing.authorized, hv1]
    exact hmarked
  · exact h.throw rfl rfl rfl

/-- The authorization has come to what it is authorized by. -/
def Exited (features : Features F) (input : LifecycleInput F) (t : Record F) : Prop :=
  ∃ tasksResolved allowed, (Standing.authorized input tasksResolved allowed).Authorized input ∧
    At features input (.authorized input tasksResolved allowed) t

theorem complete_works (hexit : Matches input exit) {checkpoint : Decision}
    (h : At features input ⟨false, exit.orderedTasksComplete, checkpoint.allowed, false, false,
      false⟩ t) :
    Works features input Fails t (complete features exit checkpoint) fun _ =>
      Exited features input := by
  obtain ⟨hreceipt, hv1⟩ := hexit
  unfold complete
  by_cases hdenied : (!checkpoint.allowed &&
      !(exit.v1ReviewRequired && exit.orderedTasksComplete)) = true
  · rw [if_pos hdenied]
    exact h.throw rfl rfl rfl
  rw [if_neg hdenied]
  have hauthorized : (Standing.authorized input exit.orderedTasksComplete
      checkpoint.allowed).Authorized input := by
    simp only [Bool.and_eq_true, Bool.not_eq_true', not_and, Bool.not_eq_false, hv1] at hdenied
    by_cases hallowed : checkpoint.allowed = true
    · exact .inl hallowed
    · exact .inr (hdenied (by simpa using hallowed))
  have hrefresh (u : Record F) (hu : At features input
      (.authorized input exit.orderedTasksComplete checkpoint.allowed) u) :
      Works features input Fails u (refresh features exit.feature exit.phase) fun _ =>
        Exited features input :=
    Ensures.mono (fun result v hv => by
      cases result with
      | ok _ => exact ⟨_, _, hauthorized, hv⟩
      | error _ => exact hv) (refresh_works rfl rfl hu)
  by_cases htasks : exit.orderedTasksComplete = true
  · rw [if_pos htasks]
    rw [htasks] at h hauthorized hrefresh
    exact (completeFromTasks_works hauthorized h).bind fun _ u hu => hrefresh u hu
  rw [if_neg htasks]
  rw [Bool.not_eq_true] at htasks
  rw [htasks] at h hauthorized hrefresh
  by_cases hrequired : exit.v1ReviewRequired = true
  · rw [if_pos hrequired, hreceipt]
    exact (completeAfterReview_works (hv1 ▸ hrequired) hauthorized h).bind
      fun _ u hu => hrefresh u hu
  · rw [if_neg hrequired]
    have hnotRequired : input.v1ReviewRequired = false := by simpa [hv1] using hrequired
    refine .done h.legal ⟨_, _, hauthorized, ?_⟩
    rw [Standing.authorized, hnotRequired]
    exact h

theorem authorize_works (hexit : Matches input exit)
    (h : At features input ⟨false, exit.orderedTasksComplete, false, false, false, false⟩ t) :
    Works features input Fails t (authorize features exit) fun _ => Exited features input := by
  refine (assessWithStore_works hexit h).bind fun checkpoint u hu => ?_
  have hrecorded (status : ProgressStatus) (error : Option JsString)
      (hstatus : checkpoint.allowed = true ∧ status = .checkpoint ∨
        checkpoint.allowed = false ∧ status = .blocked) :
      Works features input Fails u (Work.ask (.recordProgress status exit.feature exit.phase error
        checkpoint.reason) >>= fun _ => complete features exit checkpoint) fun _ =>
          Exited features input := by
    obtain ⟨hallowed, rfl⟩ | ⟨hallowed, rfl⟩ := hstatus
    · exact hu.ask rfl rfl ⟨rfl, .inl hallowed⟩ fun _ hnext => complete_works hexit hnext
    · exact hu.ask rfl rfl ⟨rfl, hallowed⟩ fun _ hnext => complete_works hexit hnext
  refine hrecorded _ _ ?_
  cases hallowed : checkpoint.allowed with
  | true => exact .inl ⟨rfl, rfl⟩
  | false => exact .inr ⟨rfl, rfl⟩

/-! ## The git checkpoint -/

/-- What a git checkpoint leaves behind, completed or pending. -/
def Checkpointed (features : Features F) (input : LifecycleInput F) (tasksResolved allowed : Bool)
    (feature : F) (phase : NumberedPhase) (checkpoint : GitCheckpoint) (t : Record F) : Prop :=
  if checkpoint.completed = true then
    At features input { Standing.authorized input tasksResolved allowed with pushed := true } t
  else At features input (.authorized input tasksResolved allowed) t ∧
    t.getLast? = some ⟨.recordProgress .checkpoint feature phase none checkpoint.summary, .ok ()⟩

theorem recordPending_works {reason : JsString}
    (hauthorized : (Standing.authorized input tasksResolved allowed).Authorized input)
    (h : At features input (.authorized input tasksResolved allowed) t) :
    Works features input Fails t (recordPending feature phase reason)
      (Checkpointed features input tasksResolved allowed feature phase) := by
  refine h.ask rfl rfl ⟨rfl, hauthorized⟩ fun _ hrecorded => ?_
  exact .done hrecorded.legal ⟨hrecorded, List.getLast?_concat ..⟩

/-- A failed attempt is no failure of the exit. -/
theorem executeGitCheckpoint_works
    (hauthorized : (Standing.authorized input tasksResolved allowed).Authorized input)
    (hrequired : phaseRequiresGitCheckpoint input.contract = true)
    (h : At features input (.authorized input tasksResolved allowed) t) :
    Works features input Fails t (executeGitCheckpoint feature phase)
      (Checkpointed features input tasksResolved allowed feature phase) := by
  refine .recorded_ask h.legal fun answer => ?_
  have hattempted := h.snoc (r := .attemptGitCheckpoint feature phase) rfl
    ⟨rfl, hauthorized, rfl, hrequired⟩ answer
  cases answer with
  | ok attempt =>
      cases attempt with
      | completed summary => exact .recorded_done hattempted.legal hattempted
      | pending reason => exact recordPending_works hauthorized hattempted
  | error thrown => exact recordPending_works hauthorized hattempted

/-- The result of a lifecycle, and what it ends with. -/
def Results (features : Features F) (input : LifecycleInput F) (result : LifecycleResult F)
    (t : Record F) : Prop :=
  Legal features input t ∧ Ends input (.ok result) t

theorem recordCompleted_works {summaries : List JsString}
    (hauthorized : (Standing.authorized input tasksResolved allowed).Authorized input)
    (h : At features input { Standing.authorized input tasksResolved allowed with
      pushed := phaseRequiresGitCheckpoint input.contract } t) :
    Works features input Fails t (recordCompleted input feature phase summaries)
      (Results features input) := by
  refine h.ask rfl rfl ⟨rfl, hauthorized, rfl, rfl⟩ fun _ hrecorded => ?_
  refine .done hrecorded.legal ⟨hrecorded.legal, ?_⟩
  refine ⟨?_, ?_, ?_, ?_, _, List.getLast?_concat ..⟩
  · rw [hrecorded.standing]
    rfl
  · rw [hrecorded.standing]
    exact hauthorized
  · rw [hrecorded.standing]
    rfl
  · rw [hrecorded.standing]
    rfl

theorem Results.pending {summary : JsString}
    (hauthorized : (Standing.authorized input tasksResolved allowed).Authorized input)
    (h : At features input (.authorized input tasksResolved allowed) t)
    (hlast : t.getLast? =
      some ⟨.recordProgress .checkpoint feature phase none summary, .ok ()⟩) :
    Results features input ⟨.checkpointPending, feature, phase, [summary]⟩ t := by
  obtain ⟨hlegal, hstanding⟩ := h
  refine ⟨hlegal, ?_⟩
  rw [Ends, hstanding]
  exact ⟨rfl, hauthorized, rfl, rfl, summary, rfl, hlast⟩

theorem checkpointPhase_works (h : Exited features input t) :
    Works features input Fails t (checkpointPhase input feature phase)
      (Results features input) := by
  obtain ⟨tasksResolved, allowed, hauthorized, hat⟩ := h
  unfold checkpointPhase
  by_cases hrequired : phaseRequiresGitCheckpoint input.contract = true
  · rw [if_pos hrequired]
    refine (executeGitCheckpoint_works hauthorized hrequired hat).bind fun checkpoint u hu => ?_
    unfold Checkpointed at hu
    by_cases hcompleted : checkpoint.completed = true
    · rw [if_pos hcompleted] at hu ⊢
      exact recordCompleted_works hauthorized (hrequired ▸ hu)
    · rw [if_neg hcompleted] at hu ⊢
      exact .done hu.1.legal (.pending hauthorized hu.1 hu.2)
  · rw [if_neg hrequired]
    rw [Bool.not_eq_true] at hrequired
    refine recordCompleted_works hauthorized ?_
    rw [hrequired]
    exact hat

/-! ## The lifecycle -/

theorem exitPhase_works
    (h : At features input { Standing.start with tasksResolved := tasksResolved } t) :
    Works features input Fails t (exitPhase features input feature phase tasksResolved)
      (Results features input) :=
  (authorize_works ⟨rfl, rfl⟩ h).bind fun _ _ hexited => checkpointPhase_works hexited

theorem resolveTasks_works (h : At features input .start t) :
    Works features input Fails t (resolveTasks features input feature phase)
      (Results features input) := by
  unfold resolveTasks
  split
  · exact h.ask rfl rfl rfl fun unresolved hresolved => exitPhase_works hresolved
  · exact exitPhase_works h

theorem execute_works (h : At features input .start t) :
    Works features input Fails t (execute features input) (Results features input) := by
  refine (refresh_works rfl rfl h).bind fun current u hu => ?_
  by_cases hresuming : (input.resumingAtPhaseExit &&
      phaseUsesOrderedTaskExecutors input.contract) = true
  · rw [if_pos hresuming]
    refine At.ask hu rfl rfl rfl fun completedReviewTask hcompleted => ?_
    cases completedReviewTask with
    | true =>
        exact .done hcompleted.legal ⟨hcompleted.legal, hcompleted.standing, _,
          List.getLast?_concat ..⟩
    | false => exact resolveTasks_works hcompleted
  · rw [if_neg hresuming]
    exact resolveTasks_works hu

def sampleFeatures : Features Unit where
  projectId := js "project-1"
  deriveFeatureId _ := some (js "FEAT-001")
  numberedPhases _ := []
  formatPhase phase := phaseRef phase

def sampleContract : PhaseExecutionContractPhase where
  id := js "phase-1"
  order := .int 1
  document := js "Phase1.md"
  role := .implementation
  tasks := [⟨js "task-1", .agent, true, none, none⟩]
  developmentValidation := .none
  codeReview := .never
  finalValidation := .none
  gitCheckpoint := true

def sampleInput : LifecycleInput Unit where
  contract := some sampleContract
  feature := ()
  orderedReviewRequired := true
  phase := ⟨1, js "First", js "IN_PROGRESS", js "Phase1.md"⟩
  phaseRef := js "Phase 1"
  resumingAtPhaseExit := false
  reviewReceipt := none
  summaryFallback := none
  v1ReviewRequired := true

def sampleReply : (r : Request Unit) → r.Answer
  | .refreshFeature _ => .ok ()
  | .completeRecoveredReviewTask .. | .hasUnresolvedContractTask _ => .ok false
  | .openReviewStore _ | .hasCheckedTaskLedger _ | .hasCompletionEvidence _ => .ok true
  | .getQualityGates .. => .ok []
  | .assessCheckpoint _ => .ok ⟨false, js "No receipt.", []⟩
  | .attemptGitCheckpoint .. => .error (js "No remote.")
  | .closeReviewStore | .recordProgress .. | .persistDocumentationApplicability ..
  | .markCompleted .. => .ok ()

def sampleAfter (n : ℕ) : Record Unit × Work Unit (LifecycleResult Unit) :=
  play (recorded sampleReply) n ([], execute sampleFeatures sampleInput)

end Hepha.PhaseExit
