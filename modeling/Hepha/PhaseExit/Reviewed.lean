import Hepha.PhaseExit.Checkpoint

/-!
# What a marked phase was reviewed by

Where the assessments of an exit are those of the checkpoint, a phase that is not marked by its
tasks has a durable approval in the store of the reviews, of exactly that phase.

* `Approved`: what the store holds of an approved review;
* `execute_reviewed`: every phase that is marked has its tasks resolved, or is approved.
-/

namespace Hepha.PhaseExit

open Interaction Autonomous

variable {F : Type}

/-- The store holds an approved gate of the scope, with the approved manifest of the hash and
a remediation that is terminal. -/
structure Approved (store : ReviewStore) (scope : Scope) (contentHash : JsString) : Prop where
  gate : ∃ gate, store.getCurrentAuthoritativeReviewGate scope = .ok (some gate) ∧
    gate.scope = scope ∧ gate.gateState = .approved ∧ gate.triggerArtifactHash = contentHash ∧
    gate.basisManifestHash = contentHash ∧
    ∃ cycles, store.listRemediationCyclesByScope scope = .ok cycles ∧ ∃ cycle ∈ cycles,
      some cycle.cycleId = gate.cycleId ∧ cycle.scope = scope ∧
        cycle.basisManifestHash = contentHash ∧
        (cycle.cycleState = .noRemediationRequired ∨ cycle.cycleState = .remediationVerified)
  manifest : ∃ manifest, store.getArtifactByHash contentHash = .ok (some manifest) ∧
    manifest.scope = scope ∧ manifest.contentHash = contentHash ∧
    manifest.artifactKind = js "review_manifest"
  run : ∃ run, store.getReviewRunByManifestHash contentHash = .ok (some run) ∧
    run.scope = scope ∧ run.manifestHash = contentHash ∧ run.manifestResult = js "APPROVED"

/-! ## The checkpoint -/

section

variable {store : ReviewStore} {scope : Scope} {contentHash : JsString} {α β : Type}

theorem bind_eq_ok {x : Except JsString α} {f : α → Except JsString β} {b : β}
    (h : (x >>= f) = .ok b) : ∃ a, x = .ok a ∧ f a = .ok b := by
  cases x with
  | ok a => exact ⟨a, rfl, h⟩
  | error message => exact absurd h (by simp [bind, Except.bind])

theorem unlessDenied_eq_ok {condition : Bool} {reason : JsString} {u : Unit}
    (h : unlessDenied condition reason = .ok u) : condition = true := by
  unfold unlessDenied at h
  split at h
  · assumption
  · exact absurd h (by simp)

theorem readStore_eq_ok {read : Except Thrown α} {a : α} (h : readStore read = .ok a) :
    read = .ok a := by
  cases read with
  | ok b => exact h
  | error thrown => exact absurd h (by simp [readStore, Except.mapError])

theorem orDenied_eq_ok {value : Option α} {reason : String} {a : α}
    (h : orDenied value reason = .ok a) : value = some a := by
  cases value with
  | some b => exact congrArg some (Except.ok.inj h)
  | none => exact absurd h (by simp [orDenied])

theorem readApprovedGate_eq_ok {gate : ReviewGate}
    (h : readApprovedGate store scope contentHash = .ok gate) :
    store.getCurrentAuthoritativeReviewGate scope = .ok (some gate) ∧ gate.scope = scope ∧
      gate.gateState = .approved ∧ gate.triggerArtifactHash = contentHash ∧
      gate.basisManifestHash = contentHash := by
  obtain ⟨current, hread, h⟩ := bind_eq_ok h
  obtain ⟨found, hfound, h⟩ := bind_eq_ok h
  obtain ⟨_, hstate, h⟩ := bind_eq_ok h
  obtain ⟨_, htrigger, h⟩ := bind_eq_ok h
  obtain ⟨_, hbasis, h⟩ := bind_eq_ok h
  obtain rfl := Except.ok.inj h
  have hcurrent := Option.filter_eq_some_iff.mp (orDenied_eq_ok hfound)
  have htrigger := of_decide_eq_true (unlessDenied_eq_ok htrigger)
  have hbasis := of_decide_eq_true (unlessDenied_eq_ok hbasis)
  simp only [Bool.and_eq_true, decide_eq_true_eq] at hcurrent
  exact ⟨(readStore_eq_ok hread).trans (congrArg Except.ok hcurrent.1), hcurrent.2.2,
    of_decide_eq_true (unlessDenied_eq_ok hstate), htrigger, hbasis.trans htrigger⟩

/-- A review that is not denied is approved. -/
theorem assessAuthoritativeReviewPhaseExit_eq_ok {genericCheckpoint : Decision} {u : Unit}
    (h : assessAuthoritativeReviewPhaseExit store scope contentHash genericCheckpoint = .ok u) :
    Approved store scope contentHash := by
  obtain ⟨_, -, h⟩ := bind_eq_ok h
  obtain ⟨_, -, h⟩ := bind_eq_ok h
  obtain ⟨gate, hgate, h⟩ := bind_eq_ok h
  obtain ⟨⟨manifest, run, cycles⟩, hbasis, h⟩ := bind_eq_ok h
  dsimp only at h
  obtain ⟨_, hmanifest, h⟩ := bind_eq_ok h
  obtain ⟨_, hrun, hcycle⟩ := bind_eq_ok h
  obtain ⟨hcurrent, hscope, hstate, htrigger, hhash⟩ := readApprovedGate_eq_ok hgate
  obtain ⟨_, hreadManifest, hbasis⟩ := bind_eq_ok hbasis
  obtain ⟨_, hreadRun, hbasis⟩ := bind_eq_ok hbasis
  obtain ⟨_, hreadCycles, hbasis⟩ := bind_eq_ok hbasis
  obtain ⟨rfl, rfl, rfl⟩ := Prod.mk.inj (Except.ok.inj hbasis) |>.imp_right Prod.mk.inj
  obtain ⟨m, rfl, hm⟩ := (Option.any_eq_true _ _).mp (unlessDenied_eq_ok hmanifest)
  obtain ⟨r, rfl, hr⟩ := (Option.any_eq_true _ _).mp (unlessDenied_eq_ok hrun)
  obtain ⟨c, hmem, hc⟩ := List.any_eq_true.mp (unlessDenied_eq_ok hcycle)
  simp only [isExactManifest, ReviewManifest.isCurrentManifest, Bool.and_eq_true,
    decide_eq_true_eq] at hm
  simp only [isExactRun, ReviewRun.isApprovedManifestRun, Bool.and_eq_true,
    decide_eq_true_eq] at hr
  simp only [isExactCycle, ReviewCycle.isTerminalCycle, Bool.and_eq_true, Bool.or_eq_true,
    decide_eq_true_eq] at hc
  rw [hhash] at hm hr hc hreadManifest hreadRun
  exact {
    gate := ⟨gate, hcurrent, hscope, hstate, htrigger, hhash, _, readStore_eq_ok hreadCycles, c,
      hmem, hc.1.1.2, hc.1.2, hc.2, hc.1.1.1.2⟩
    manifest := ⟨m, readStore_eq_ok hreadManifest, hm.1.2, hm.2, hm.1.1.1.1.2⟩
    run := ⟨r, readStore_eq_ok hreadRun, hr.1.2, hr.2, hr.1.1.2⟩ }

/-- Quality gates do not stand in for a review that is required. -/
theorem assessPhaseExitCheckpoint_allowed {casing : Casing} {checkpoint : CheckpointInput}
    (hallowed : (assessPhaseExitCheckpoint casing store checkpoint).allowed = true)
    (hrequired : checkpoint.authoritativeReview.isSome = true) :
    ∃ scope contentHash, checkpoint.authoritativeReview = some (some (scope, contentHash)) ∧
      Approved store scope contentHash := by
  obtain ⟨review, hreview⟩ := Option.isSome_iff_exists.mp hrequired
  simp only [assessPhaseExitCheckpoint, hreview] at hallowed
  split at hallowed
  · rename_i hdenied
    simp [hallowed] at hdenied
  · split at hallowed
    · rename_i hassessed
      cases review with
      | none => exact absurd hassessed (by simp [assessReview])
      | some review =>
          exact ⟨review.1, review.2, hreview, assessAuthoritativeReviewPhaseExit_eq_ok hassessed⟩
    · exact absurd hallowed (by simp)

end

/-! ## The record -/

variable {features : Features F} {input : LifecycleInput F} {t : Record F}

theorem Legal.left {u : Record F} (h : Legal features input (t ++ u)) :
    Legal features input t := by
  induction u using List.reverseRecOn with
  | nil => simpa using h
  | append_singleton u e ih =>
      rw [← List.append_assoc] at h
      generalize hrecord : t ++ u ++ [e] = record at h
      cases h with
      | nil => simp at hrecord
      | snoc h =>
          obtain ⟨rfl, -⟩ := List.append_inj' hrecord rfl
          exact ih h

theorem Legal.allowed {r : Request F} {answer : r.Answer}
    (h : Legal features input (t ++ [⟨r, answer⟩])) :
    Allowed features input t.standing t.getLast? r := by
  generalize hrecord : t ++ [(⟨r, answer⟩ : Event F)] = record at h
  cases h with
  | nil => simp at hrecord
  | snoc _ _ r' answer' allowed =>
      obtain ⟨rfl, hevent⟩ := List.append_inj' hrecord rfl
      obtain ⟨rfl, -⟩ := Event.mk.inj (List.singleton_inj.mp hevent)
      exact allowed

/-- An assessment that has allowed the exit, with the review it was given. -/
def Assessed (input : LifecycleInput F) (t : Record F) : Prop :=
  ∃ checkpoint decision, (⟨.assessCheckpoint checkpoint, .ok decision⟩ : Event F) ∈ t ∧
    decision.allowed = true ∧
    (t.standing.tasksResolved = false →
      checkpoint.authoritativeReview.isSome = input.v1ReviewRequired) ∧
    ∀ scope contentHash, checkpoint.authoritativeReview = some (some (scope, contentHash)) →
      ∃ receipt, input.reviewReceipt = some receipt ∧ receipt.scope = scope ∧
        receipt.contentHash = contentHash

theorem Assessed.snoc {e : Event F} (h : Assessed input t)
    (htasks : (t.standing.after e).tasksResolved = t.standing.tasksResolved) :
    Assessed input (t ++ [e]) := by
  obtain ⟨checkpoint, decision, hmem, hallowed, hsome, hreceipt⟩ := h
  refine ⟨checkpoint, decision, List.mem_append_left _ hmem, hallowed, ?_, hreceipt⟩
  rw [Record.standing_snoc, htasks]
  exact hsome

/-- A standing is allowed by an assessment. -/
theorem Legal.assessed (h : Legal features input t) (hallowed : t.standing.allowed = true) :
    Assessed input t := by
  induction h with
  | nil => exact absurd hallowed (by simp [Record.standing, Standing.start])
  | @snoc t _ _ r answer allowed ih =>
      rw [Record.standing_snoc] at hallowed
      cases r with
      | assessCheckpoint checkpoint =>
          cases answer with
          | ok decision =>
              refine ⟨checkpoint, decision, by simp, hallowed, ?_,
                fun scope contentHash hreview => (allowed.2.2 scope contentHash hreview).2⟩
              rw [Record.standing_snoc]
              exact allowed.2.1
          | error thrown => exact (ih hallowed).snoc rfl
      | hasUnresolvedContractTask phase =>
          have hstart : t.standing = .start := allowed
          rw [hstart] at hallowed
          cases answer <;> exact absurd hallowed (by simp [Standing.after, Standing.start])
      | openReviewStore databasePath => cases answer <;> exact (ih hallowed).snoc rfl
      | markCompleted feature phase => cases answer <;> exact (ih hallowed).snoc rfl
      | recordProgress status feature phase error summary =>
          cases status <;> cases answer <;> exact (ih hallowed).snoc rfl
      | attemptGitCheckpoint feature phase =>
          cases answer with
          | ok attempt => cases attempt <;> exact (ih hallowed).snoc rfl
          | error thrown => exact (ih hallowed).snoc rfl
      | _ => exact (ih hallowed).snoc rfl

/-- **Where the assessments are those of the checkpoint, a phase that is marked has its tasks
resolved and its ledger checked, or a review of exactly that phase is approved in the store.** -/
theorem execute_reviewed (features : Features F) (input : LifecycleInput F) (casing : Casing)
    (store : ReviewStore) {t before after : Record F} {p : Work F (LifecycleResult F)}
    {feature : F} {phase : NumberedPhase} {answer : Except Thrown Unit}
    (h : Reaches recording ([], execute features input) (t, p))
    (hassessed : ∀ checkpoint decision,
      (⟨.assessCheckpoint checkpoint, .ok decision⟩ : Event F) ∈ t →
        decision = assessPhaseExitCheckpoint casing store checkpoint)
    (hmarked : t = before ++ ⟨.markCompleted feature phase, answer⟩ :: after) :
    before.standing.tasksResolved = true ∧
        (⟨.hasCheckedTaskLedger phase, .ok true⟩ : Event F) ∈ before ∨
      ∃ receipt featureId, input.reviewReceipt = some receipt ∧
        features.deriveFeatureId feature = some featureId ∧
        Approved store ⟨features.projectId, featureId, phase.number, js "code-review"⟩
          receipt.contentHash := by
  have hlegal : Legal features input t := (Ensures.of_reaches (execute_works ⟨.nil, rfl⟩) h).1
  have hmarking : Legal features input (before ++ [⟨.markCompleted feature phase, answer⟩]) :=
    Legal.left (u := after) (by rwa [List.append_assoc, List.singleton_append, ← hmarked])
  have hbefore := hmarking.left
  obtain ⟨-, hauthorized, -, ⟨htasks, hlast⟩ | ⟨htasks, hv1, receipt, featureId, hreceipt,
    hfeature, hscope⟩⟩ := hmarking.allowed
  · left
    obtain ⟨earlier, rfl⟩ := List.getLast?_eq_some_iff.mp hlast
    obtain ⟨-, -, -, hchecked⟩ := hbefore.allowed
    exact ⟨htasks, List.mem_append_left _ (List.mem_of_getLast? hchecked)⟩
  · right
    have hallowed : before.standing.allowed = true :=
      hauthorized.resolve_right fun hnet => by simp [htasks] at hnet
    obtain ⟨checkpoint, decision, hmem, hdecision, hsome, hgiven⟩ := hbefore.assessed hallowed
    have heq := hassessed checkpoint decision (hmarked ▸ List.mem_append_left _ hmem)
    obtain ⟨scope, contentHash, hreview, happroved⟩ :=
      assessPhaseExitCheckpoint_allowed (heq ▸ hdecision) ((hsome htasks).trans hv1)
    obtain ⟨given, hgivenReceipt, rfl, rfl⟩ := hgiven scope contentHash hreview
    obtain rfl := Option.some.inj (hreceipt.symm.trans hgivenReceipt)
    exact ⟨receipt, featureId, hreceipt, hfeature, hscope ▸ happroved⟩

/-! A workflow without ordered tasks, whose code review is approved. -/

def sampleHash : JsString := List.replicate 64 0x61

def reviewedScope : Scope := ⟨js "project-1", js "FEAT-001", 1, js "code-review"⟩

def reviewedStore : ReviewStore where
  getCurrentAuthoritativeReviewGate _ := .ok (some ⟨reviewedScope, sampleHash, sampleHash,
    .approved, js "approved_terminal_review", some (js "cycle-1")⟩)
  getArtifactByHash _ := .ok (some ⟨sampleHash, js "review_manifest", 1, reviewedScope,
    js "v1_validated_ingress"⟩)
  getReviewRunByManifestHash _ := .ok (some ⟨sampleHash, js "APPROVED", reviewedScope⟩)
  listRemediationCyclesByScope _ :=
    .ok [⟨js "cycle-1", reviewedScope, sampleHash, .noRemediationRequired⟩]

def reviewedInput : LifecycleInput Unit :=
  { sampleInput with
    contract := none
    reviewReceipt := some ⟨sampleHash, js "reviews.sqlite", reviewedScope⟩ }

def reviewedReply : (r : Request Unit) → r.Answer
  | .assessCheckpoint checkpoint =>
      .ok (assessPhaseExitCheckpoint Casing.ascii reviewedStore checkpoint)
  | r => sampleReply r

def reviewedAfter (n : ℕ) : Record Unit × Work Unit (LifecycleResult Unit) :=
  play (recorded reviewedReply) n ([], execute sampleFeatures reviewedInput)

theorem execute_reviewed_sample :
    (reviewedAfter 7).1.standing = ⟨false, false, true, false, false, false⟩ ∧
      Approved reviewedStore reviewedScope sampleHash := by
  have hreach : Reaches recording ([], execute sampleFeatures reviewedInput)
      ((reviewedAfter 8).1, (reviewedAfter 8).2) := reaches_recorded _ 8 _
  have hassessed (checkpoint : CheckpointInput) (decision : Decision)
      (h : (⟨.assessCheckpoint checkpoint, .ok decision⟩ : Event Unit) ∈ (reviewedAfter 8).1) :
      decision = assessPhaseExitCheckpoint Casing.ascii reviewedStore checkpoint :=
    Except.ok.inj (answer_recorded reviewedReply 8 _ h)
  have hmarked : (reviewedAfter 8).1 =
      (reviewedAfter 7).1 ++ ⟨.markCompleted () reviewedInput.phase, .ok ()⟩ :: [] := rfl
  obtain ⟨htasks, -⟩ | ⟨receipt, featureId, hreceipt, hfeature, happroved⟩ :=
    execute_reviewed sampleFeatures reviewedInput Casing.ascii reviewedStore hreach hassessed
      hmarked
  · exact absurd htasks (by decide)
  · obtain rfl := Option.some.inj hreceipt
    obtain rfl := Option.some.inj hfeature
    exact ⟨rfl, happroved⟩

end Hepha.PhaseExit
