import Hepha.Catalog.Claims
import Hepha.Catalog.Coordinator
import Mathlib.Data.List.Induction
import Mathlib.Data.List.Pairwise

/-!
# The ledger agrees with the model store

The ledger and the models of a scan are written one after the other, by scans of
several connections that interleave, and a process may stop between the two
writes.  Still, whenever the ledger has a scan settled as available, the models
it counts are the ones that are stored, and where it says empty or failed there
are none (`run_truthful`).

## Strategy

Only who holds the claim of a connection writes its models, and the row of a
claim says nothing about models (`Truthful.of_open`).  A scan in flight holds the
claim that its connection's row shows, and what it has written so far is what it
is about to settle (`Task.Holds`).  Every turn of a scan changes the row, the
models and the task of one connection (`Inv.changed`).
-/

namespace Hepha.Catalog

open Ledger (Sound row written)

variable {δ : Type} {columns : Details δ} {sha256 : JsString → JsString} {ledger : Ledger}
  {store : ModelStore δ} {connectionId other : JsString} {record : ReconciliationRecord} {n : ℕ}

/-! ## What a record says -/

/-- How many models of a connection are stored. -/
def ModelStore.countOf (store : ModelStore δ) (connectionId : JsString) : ℕ :=
  (store.modelsOf connectionId).length

/-- What a record says of the models stored is true. -/
structure Truthful (record : ReconciliationRecord) (n : ℕ) : Prop where
  available : record.scanState = .available → record.modelCount = some n ∧ 0 < n
  empty : record.scanState = .empty → n = 0
  failed : record.scanState = .failed → n = 0

theorem Truthful.of_open (h : record.isSettled = false) : Truthful record n := by
  rw [ReconciliationRecord.isSettled] at h
  constructor <;> intro hstate <;> rw [hstate] at h <;> exact absurd h (by decide)

theorem isSettled_of_scanning (h : record.scanState = .scanning) : record.isSettled = false := by
  rw [ReconciliationRecord.isSettled, h]
  rfl

theorem isSettled_of_neverScanned (h : record.scanState = .neverScanned) :
    record.isSettled = false := by
  rw [ReconciliationRecord.isSettled, h]
  rfl

/-- A record with an outcome that its count matches. -/
theorem truthful_outcome {outcome : SettledOutcome} {modelCount : ℕ} {outcomeCode : OutcomeCode}
    (hstate : record.scanState = outcome.scanState) (hcount : record.modelCount = some modelCount)
    (hmatches : outcomeMatchesState outcome modelCount outcomeCode = true)
    (h : modelCount = n) : Truthful record n := by
  subst h
  cases outcome with
  | available =>
      simp only [outcomeMatchesState, Bool.and_eq_true, decide_eq_true_eq] at hmatches
      refine ⟨fun _ => ⟨hcount, hmatches.1⟩, ?_, ?_⟩ <;> intro hother <;>
        exact absurd (hstate.symm.trans hother) (by decide)
  | empty =>
      simp only [outcomeMatchesState, Bool.and_eq_true, beq_iff_eq] at hmatches
      exact ⟨fun hother => absurd (hstate.symm.trans hother) (by decide), fun _ => hmatches.1,
        fun _ => hmatches.1⟩
  | failed =>
      simp only [outcomeMatchesState, Bool.and_eq_true, beq_iff_eq] at hmatches
      exact ⟨fun hother => absurd (hstate.symm.trans hother) (by decide), fun _ => hmatches.1,
        fun _ => hmatches.1⟩

theorem countOf_congr (h : other.toWellFormed = connectionId.toWellFormed) :
    store.countOf other = store.countOf connectionId := by
  rw [ModelStore.countOf, ModelStore.countOf, ModelStore.modelsOf, ModelStore.modelsOf, h]

theorem row_congr (h : other.toWellFormed = connectionId.toWellFormed) :
    row ledger other = row ledger connectionId := by
  rw [row, row, h]

/-! ## The writes -/

/-- A settlement changes one row, an open one, to what its input says. -/
theorem settleAttempt_effect {input : SettleInput} {settled : ReconciliationRecord × Ledger}
    (h : Sound ledger) (hsettle : ledger.settleAttempt input = some settled)
    (hcount : input.modelCount = n) :
    Sound settled.2 ∧
      (∀ other : JsString, other.toWellFormed ≠ input.connectionId.toWellFormed →
        row settled.2 other = row ledger other) ∧
      ∃ record, row settled.2 input.connectionId = some record ∧ Truthful record n := by
  obtain ⟨hinput, existing, hrow, hholds, -, hafter⟩ :=
    (Ledger.settleAttempt_eq_some_iff h).mp hsettle
  obtain ⟨hvalid, -, hconnection⟩ := h.row hrow
  have hwell : (Ledger.settledRecord existing input).connectionId.toWellFormed =
      input.connectionId.toWellFormed := by
    rw [Ledger.settledRecord, hconnection, JsString.toWellFormed_toWellFormed]
  rw [hafter]
  refine ⟨h.written (Ledger.isReconciliationRecord_settledRecord hvalid hinput hholds), ?_, ?_⟩
  · intro other hother
    rw [Ledger.row_written, hwell, if_neg hother]
  · refine ⟨(Ledger.settledRecord existing input).stored, by
      rw [Ledger.row_written, hwell, if_pos rfl], ?_⟩
    simp only [isSettleInput, Bool.and_eq_true] at hinput
    exact truthful_outcome rfl rfl hinput.2 hcount

theorem adoptLegacyEvidence_effect {input : AdoptInput} {adopted : ReconciliationRecord × Ledger}
    (h : Sound ledger) (hadopt : ledger.adoptLegacyEvidence input = some adopted)
    (hcount : input.modelCount = n) :
    Sound adopted.2 ∧
      (∀ other : JsString, other.toWellFormed ≠ input.connectionId.toWellFormed →
        row adopted.2 other = row ledger other) ∧
      ∃ record, row adopted.2 input.connectionId = some record ∧ Truthful record n := by
  obtain ⟨hinput, -, -, hafter⟩ := (Ledger.adoptLegacyEvidence_eq_some_iff h).mp hadopt
  simp only [isAdoptInput, Bool.and_eq_true] at hinput
  have hvalid := hinput.2
  have hmatches : outcomeMatchesState input.settledOutcome input.modelCount
      .legacyEvidenceAdopted = true := by
    simp only [isReconciliationRecord, Bool.and_eq_true] at hvalid
    have hstate := hvalid.2
    unfold ReconciliationRecord.stateCoherent at hstate
    cases houtcome : input.settledOutcome <;>
      simp [adoptionRecord, houtcome, SettledOutcome.scanState,
        ReconciliationRecord.settledCoherent] at hstate <;> simp [hstate]
  rw [hafter]
  refine ⟨h.written hvalid, ?_, (adoptionRecord input).stored, Ledger.row_written_self,
    truthful_outcome rfl rfl hmatches hcount⟩
  intro other hother
  rw [Ledger.row_written]
  exact if_neg hother

/-- A claim changes one row, which was no open claim. -/
theorem claimAttempt_effect {input : ClaimInput} {after : Ledger} (h : Sound ledger)
    (hclaim : ledger.claimAttempt input = some (.claimed record, after)) :
    Sound after ∧
      (∀ other : JsString, other.toWellFormed ≠ input.connectionId.toWellFormed →
        row after other = row ledger other) ∧
      row after input.connectionId = some record ∧ record.scanState = .scanning ∧
      ∀ existing, row ledger input.connectionId = some existing →
        existing.scanState ≠ .scanning := by
  obtain ⟨hinput, hfree, rfl, rfl⟩ := (Ledger.claimAttempt_claimed_iff h).mp hclaim
  refine ⟨h.written (Ledger.isReconciliationRecord_claimedRecord hinput), ?_,
    Ledger.row_written_self, rfl, ?_⟩
  · intro other hother
    rw [Ledger.row_written]
    exact if_neg hother
  · intro existing hrow hscan
    have hrefuses := (hfree existing hrow).1
    rw [Ledger.refuses, if_pos hscan] at hrefuses
    nomatch hrefuses

/-- A row is initialized only where there is none. -/
theorem initialized_effect {after : Ledger} (h : Sound ledger)
    (hinitialized : World.initialized ledger connectionId = some (record, after)) :
    row ledger connectionId = some record ∧ after = ledger ∨
      row ledger connectionId = none ∧ record.scanState = .neverScanned ∧ Sound after ∧
        (∀ other : JsString, other.toWellFormed ≠ connectionId.toWellFormed →
          row after other = row ledger other) ∧ row after connectionId = some record := by
  by_cases hconnection : isBoundedString connectionId = true
  · rw [World.initialized, Ledger.read_eq h hconnection] at hinitialized
    cases hrow : row ledger connectionId with
    | some existing =>
        rw [hrow] at hinitialized
        obtain ⟨rfl, rfl⟩ := Prod.mk.inj (Option.some.inj hinitialized)
        exact .inl ⟨rfl, rfl⟩
    | none =>
        have hinput : isInitializeInput
            { connectionId, reconciliationVersion := targetVersion } = true := by
          rw [isInitializeInput, hconnection]
          rfl
        have hvalid := Ledger.isReconciliationRecord_neverScannedRow hinput
        have hinitialize := Ledger.initializeNeverScanned_eq h hinput
        rw [hrow] at hinitialize hinitialized
        rw [Option.bind_eq_bind, Option.bind_some, hinitialize] at hinitialized
        obtain ⟨rfl, rfl⟩ := Prod.mk.inj (Option.some.inj hinitialized)
        refine .inr ⟨rfl, rfl, h.written hvalid, ?_, ?_⟩
        · intro other hother
          rw [Ledger.row_written, Ledger.neverScannedRow, JsString.toWellFormed_toWellFormed,
            if_neg hother]
        · rw [Ledger.row_written, Ledger.neverScannedRow, JsString.toWellFormed_toWellFormed,
            if_pos rfl]
          simp [ReconciliationRecord.stored]
  · rw [World.initialized, Ledger.read, if_neg hconnection] at hinitialized
    exact absurd hinitialized (by simp)

theorem countOf_failClosed {attemptId diagnosticId occurredAt message : JsString}
    {callbackThrows : Bool} {cleared : ModelStore δ × Option ScanDiagnostic}
    (h : store.failClosed columns connectionId attemptId diagnosticId occurredAt message
      callbackThrows = cleared) :
    (∀ other : JsString, other.toWellFormed ≠ connectionId.toWellFormed →
      cleared.1.countOf other = store.countOf other) ∧
    (cleared.2.isSome → cleared.1.countOf connectionId = 0) := by
  subst h
  rw [ModelStore.failClosed]
  split
  · next removedRoutes after hlist happly =>
      have hmodels := ModelStore.modelsOf_applyIdempotentFailureOutcome happly
      refine ⟨fun other hother => ?_, fun _ => ?_⟩
      · rw [ModelStore.countOf, hmodels, if_neg hother, ModelStore.countOf]
      · rw [ModelStore.countOf, hmodels, if_pos rfl, List.length_nil]
  · exact ⟨fun _ _ => rfl, fun hsome => absurd hsome Bool.false_ne_true⟩

theorem countOf_persistResult {attemptId occurredAt diagnosticId : JsString} {scanned : Scanned δ}
    {callbackThrows : Bool} {persisted : ModelStore δ × Option ScanResult}
    (h : store.persistResult columns connectionId attemptId occurredAt diagnosticId scanned
      callbackThrows = persisted) :
    (∀ other : JsString, other.toWellFormed ≠ connectionId.toWellFormed →
      persisted.1.countOf other = store.countOf other) ∧
    (∀ result ∈ persisted.2, persisted.1.countOf connectionId = result.modelCount) := by
  subst h
  rw [ModelStore.persistResult]
  split
  · next removedRoutes after hlist happly =>
      have hmodels := ModelStore.modelsOf_applyScanOutcome happly
      refine ⟨fun other hother => ?_, fun result hresult => ?_⟩
      · rw [ModelStore.countOf, hmodels, if_neg hother, ModelStore.countOf]
      · rw [ModelStore.countOf, hmodels, if_pos rfl, List.length_map]
        rw [Option.mem_def] at hresult
        split at hresult
        · nomatch hresult
        · obtain rfl := Option.some.inj hresult
          rfl
  · exact ⟨fun _ _ => rfl, fun result hresult => absurd hresult (Option.not_mem_none result)⟩

/-! ## The invariant -/

/-- What a scan in flight is about to settle is true. -/
def Task.Holds (task : Task) (n : ℕ) : Prop :=
  match task.state with
  | .discovered result => n = result.modelCount
  | .cleared _ => n = 0
  | .discovering => True
  | .failing => True

/-- Scans of different connections. -/
def Task.Apart (task other : Task) : Prop :=
  task.connectionId.toWellFormed ≠ other.connectionId.toWellFormed

instance : Std.Symm Task.Apart := ⟨fun _ _ h => h.symm⟩

/-- The claims that a stopped process has left, while they are settled. -/
structure Starting (w : World δ) (interrupted : List ReconciliationRecord)
    (cleared : Option ScanDiagnostic) : Prop where
  idle : w.tasks = []
  claims : ∀ record ∈ interrupted, row w.ledger record.connectionId = some record ∧
    record.scanState = .scanning
  apart : interrupted.Pairwise fun record other =>
    record.connectionId.toWellFormed ≠ other.connectionId.toWellFormed
  cleared : ∀ record ∈ interrupted.head?, cleared.isSome → w.store.countOf record.connectionId = 0

structure Inv (w : World δ) : Prop where
  sound : Sound w.ledger
  truthful : ∀ connectionId record, row w.ledger connectionId = some record →
    Truthful record (w.store.countOf connectionId)
  claimed : ∀ task ∈ w.tasks, row w.ledger task.connectionId = some task.claim ∧
    task.claim.scanState = .scanning
  holds : ∀ task ∈ w.tasks, task.Holds (w.store.countOf task.connectionId)
  apart : w.tasks.Pairwise Task.Apart
  starting : ∀ interrupted cleared, w.phase = .starting interrupted cleared →
    Starting w interrupted cleared

namespace Inv

variable {w : World δ} {task : Task}

theorem initial (store : ModelStore δ) : Inv (World.initial store) where
  sound := Sound.empty
  truthful _ record h := absurd h (Option.some_ne_none record).symm
  claimed _ h := absurd h List.not_mem_nil
  holds _ h := absurd h List.not_mem_nil
  apart := .nil
  starting _ _ h := nomatch h

theorem stop (h : Inv w) : Inv w.stop where
  sound := h.sound
  truthful := h.truthful
  claimed _ h := absurd h List.not_mem_nil
  holds _ h := absurd h List.not_mem_nil
  apart := .nil
  starting _ _ h := nomatch h

/-- Another scan in flight is one of another connection. -/
theorem other_of_ne (h : Inv w) {t u : Task} (ht : t ∈ w.tasks) (hu : u ∈ w.tasks)
    (hne : u.connectionId ≠ t.connectionId) :
    u.connectionId.toWellFormed ≠ t.connectionId.toWellFormed :=
  h.apart.forall hu ht fun heq => hne (heq ▸ rfl)

/-- **A turn that changes the row, the models and the scan of one connection.** -/
theorem changed (h : Inv w) (htask : task ∈ w.tasks) {ledger : Ledger} {store : ModelStore δ}
    {tasks : List Task} (hsound : Sound ledger)
    (hrows : ∀ other : JsString, other.toWellFormed ≠ task.connectionId.toWellFormed →
      row ledger other = row w.ledger other)
    (hcounts : ∀ other : JsString, other.toWellFormed ≠ task.connectionId.toWellFormed →
      store.countOf other = w.store.countOf other)
    (htruthful : ∀ record, row ledger task.connectionId = some record →
      Truthful record (store.countOf task.connectionId))
    (hpairs : tasks.Pairwise Task.Apart)
    (htasks : ∀ t ∈ tasks, (t ∈ w.tasks ∧ t.connectionId ≠ task.connectionId) ∨
      (t.connectionId = task.connectionId ∧ row ledger task.connectionId = some t.claim ∧
        t.claim.scanState = .scanning ∧ t.Holds (store.countOf task.connectionId))) :
    Inv { w with ledger, store, tasks } where
  sound := hsound
  truthful connectionId record hrow := by
    by_cases hconnection : connectionId.toWellFormed = task.connectionId.toWellFormed
    · rw [countOf_congr hconnection]
      exact htruthful record ((row_congr hconnection).symm.trans hrow)
    · rw [hcounts connectionId hconnection]
      exact h.truthful connectionId record ((hrows connectionId hconnection).symm.trans hrow)
  claimed t ht := by
    rcases htasks t ht with ⟨hmem, hne⟩ | ⟨heq, hrow, hscan, -⟩
    · rw [hrows _ (h.other_of_ne htask hmem hne)]
      exact h.claimed t hmem
    · exact ⟨heq ▸ hrow, hscan⟩
  holds t ht := by
    rcases htasks t ht with ⟨hmem, hne⟩ | ⟨heq, -, -, hholds⟩
    · rw [hcounts _ (h.other_of_ne htask hmem hne)]
      exact h.holds t hmem
    · exact heq ▸ hholds
  apart := hpairs
  starting interrupted cleared hphase :=
    absurd ((h.starting interrupted cleared hphase).idle ▸ htask) List.not_mem_nil

/-- The scan goes on with its claim, after a write to the models. -/
theorem become (h : Inv w) (htask : task ∈ w.tasks) {store : ModelStore δ} {state : TaskState}
    (hcounts : ∀ other : JsString, other.toWellFormed ≠ task.connectionId.toWellFormed →
      store.countOf other = w.store.countOf other)
    (hholds : { task with state }.Holds (store.countOf task.connectionId)) :
    Inv ({ w with store }.become task.connectionId state) := by
  obtain ⟨hrow, hscan⟩ := h.claimed task htask
  refine h.changed htask h.sound (fun _ _ => rfl) hcounts ?_ ?_ ?_
  · intro record hrecord
    obtain rfl := Option.some.inj (hrow.symm.trans hrecord)
    exact .of_open (isSettled_of_scanning hscan)
  · refine List.pairwise_map.mpr (h.apart.imp fun {t u} hapart => ?_)
    unfold Task.Apart
    split <;> split <;> exact hapart
  · intro t ht
    rcases Table.mem_update.1 ht with ht | ⟨old, hold, heq, rfl⟩
    · exact .inl ht
    · -- the scan of the connection is the one that goes on
      obtain rfl : old = task := by
        by_contra hne
        exact (h.apart.forall hold htask hne) (by rw [heq])
      exact .inr ⟨rfl, hrow, hscan, hholds⟩

/-- The scan ends, after a write. -/
theorem finish (h : Inv w) (htask : task ∈ w.tasks) {ledger : Ledger} {store : ModelStore δ}
    (hsound : Sound ledger)
    (hrows : ∀ other : JsString, other.toWellFormed ≠ task.connectionId.toWellFormed →
      row ledger other = row w.ledger other)
    (hcounts : ∀ other : JsString, other.toWellFormed ≠ task.connectionId.toWellFormed →
      store.countOf other = w.store.countOf other)
    (htruthful : ∀ record, row ledger task.connectionId = some record →
      Truthful record (store.countOf task.connectionId)) :
    Inv ({ w with ledger, store }.finish task.connectionId) := by
  refine h.changed htask hsound hrows hcounts htruthful (h.apart.filter _) ?_
  intro t ht
  obtain ⟨hmem, hne⟩ := List.mem_filter.mp ht
  exact .inl ⟨hmem, of_decide_eq_true hne⟩

/-- The row of a scan in flight is the claim, which says nothing of the models. -/
theorem truthful_claim (h : Inv w) (htask : task ∈ w.tasks) {m : ℕ} :
    ∀ record, row w.ledger task.connectionId = some record → Truthful record m := by
  obtain ⟨hrow, hscan⟩ := h.claimed task htask
  intro record hrecord
  obtain rfl := Option.some.inj (hrow.symm.trans hrecord)
  exact .of_open (isSettled_of_scanning hscan)

/-! ## The turns of a scan -/

theorem discover (h : Inv w) (htask : task ∈ w.tasks) {occurredAt diagnosticId : JsString}
    {scanned : Scanned δ} {callbackThrows : Bool} :
    Inv (w.discover columns task occurredAt diagnosticId scanned callbackThrows) := by
  obtain ⟨hcounts, hcount⟩ := countOf_persistResult
    (rfl : w.store.persistResult columns task.connectionId.toWellFormed task.attemptId occurredAt
      diagnosticId scanned callbackThrows = _)
  rw [JsString.toWellFormed_toWellFormed] at hcounts
  refine h.become htask hcounts ?_
  cases hresult : (w.store.persistResult columns task.connectionId.toWellFormed task.attemptId
      occurredAt diagnosticId scanned callbackThrows).2 with
  | none => trivial
  | some result =>
      have h' := hcount result hresult
      rwa [countOf_congr (JsString.toWellFormed_toWellFormed task.connectionId)] at h'

/-- A settlement by the scan that holds the claim. -/
theorem settled (h : Inv w) (htask : task ∈ w.tasks) {input : SettleInput}
    {settled : ReconciliationRecord × Ledger}
    (hsettle : w.ledger.settleAttempt input = some settled)
    (hconnection : input.connectionId.toWellFormed = task.connectionId.toWellFormed)
    (hcount : input.modelCount = w.store.countOf task.connectionId) :
    Inv ({ w with ledger := settled.2 }.finish task.connectionId) := by
  obtain ⟨hsound, hrows, record, hrow, htruthful⟩ := settleAttempt_effect h.sound hsettle hcount
  refine h.finish htask hsound (fun other hother => hrows other ?_) (fun _ _ => rfl) ?_
  · rwa [hconnection]
  · intro record' hrecord'
    rw [← row_congr hconnection] at hrecord'
    obtain rfl := Option.some.inj (hrow.symm.trans hrecord')
    exact htruthful

theorem settleDiscovery (h : Inv w) (htask : task ∈ w.tasks) {result : ScanResult}
    (hstate : task.state = .discovered result) (now : JsString) :
    Inv (w.settleDiscovery task result now) := by
  rw [World.settleDiscovery]
  split
  · next settled hsettle =>
      obtain ⟨input, hinput, hsettle⟩ := Option.bind_eq_some_iff.mp hsettle
      have hholds := h.holds task htask
      rw [Task.Holds, hstate] at hholds
      have hfields : input.connectionId = task.claim.connectionId ∧
          input.modelCount = result.modelCount := by
        simp only [settleDiscoveryInput, Option.bind_eq_bind, Option.bind_eq_some_iff,
          Option.guard_eq_some', exists_and_left, exists_const, Option.pure_def,
          Option.some.injEq] at hinput
        obtain ⟨_, -, _, -, -, -, rfl⟩ := hinput
        exact ⟨rfl, rfl⟩
      refine h.settled htask hsettle ?_ (hfields.2.trans hholds.symm)
      rw [hfields.1, (h.sound.row (h.claimed task htask).1).2.2,
        JsString.toWellFormed_toWellFormed]
  · exact h.become htask (fun _ _ => rfl) trivial

theorem clear (h : Inv w) (htask : task ∈ w.tasks) (callbackThrows : Bool) :
    Inv (w.clear columns sha256 task callbackThrows) := by
  rw [World.clear]
  obtain ⟨hcounts, hcount⟩ := countOf_failClosed
    (rfl : w.store.failClosed columns task.connectionId task.attemptId
      (deterministicDiagnosticId sha256 .coordinator task.connectionId task.attemptId)
      task.claimedAt coordinatorFailureMessage callbackThrows = _)
  split
  · next diagnostic hdiagnostic =>
      exact h.become htask hcounts (hcount (Option.isSome_iff_exists.mpr ⟨_, hdiagnostic⟩))
  · exact h.finish htask h.sound (fun _ _ => rfl) hcounts (h.truthful_claim htask)

theorem settleFailure (h : Inv w) (htask : task ∈ w.tasks) {diagnostic : ScanDiagnostic}
    (hstate : task.state = .cleared diagnostic) (now : JsString) :
    Inv (w.settleFailure task diagnostic now) := by
  rw [World.settleFailure]
  split
  · next settled hsettle =>
      obtain ⟨input, hinput, hsettle⟩ := Option.bind_eq_some_iff.mp hsettle
      have hholds := h.holds task htask
      rw [Task.Holds, hstate] at hholds
      simp only [settleFailureInput, Option.bind_eq_bind, Option.bind_eq_some_iff,
        Option.guard_eq_some', exists_and_left, exists_const, Option.pure_def,
        Option.some.injEq] at hinput
      obtain ⟨-, rfl⟩ := hinput
      exact h.settled htask hsettle rfl hholds.symm
  · exact h.finish htask h.sound (fun _ _ => rfl) (fun _ _ => rfl) (h.truthful_claim htask)

theorem turn (h : Inv w) (connectionId : JsString) (t : World.Turn δ) :
    Inv (w.turn columns sha256 connectionId t) := by
  rw [World.turn]
  split
  · exact h
  · next task hfind =>
      have htask := (Table.mem_of_find hfind).1
      split
      · exact h.discover htask
      · exact h.become htask (fun _ _ => rfl) trivial
      · next result now hstate => exact h.settleDiscovery htask hstate now
      · exact h.clear htask _
      · next diagnostic now hstate => exact h.settleFailure htask hstate now
      · exact h

/-! ## The start of a process -/

theorem restart (h : Inv w) : Inv w.restart := by
  rw [World.restart]
  split
  · next interrupted hinterrupted =>
      rw [Ledger.listInterruptedClaims, Ledger.list_eq h.sound, Option.map_some,
        Option.some.injEq] at hinterrupted
      have hmem : ∀ record ∈ interrupted, record ∈ w.ledger ∧ record.scanState = .scanning := by
        intro record hrecord
        rw [← hinterrupted, List.mem_filter, List.mem_insertionSort, decide_eq_true_eq] at hrecord
        exact hrecord
      have hwell : ∀ record ∈ w.ledger, record.connectionId.toWellFormed = record.connectionId :=
        fun record hrecord => congrArg ReconciliationRecord.connectionId (h.sound.stored record hrecord)
      have hnodup : (interrupted.map ReconciliationRecord.connectionId).Nodup := by
        rw [← hinterrupted]
        refine List.Nodup.sublist (List.filter_sublist.map _) ?_
        exact (List.Perm.map _ (List.perm_insertionSort _ _)).nodup_iff.mpr h.sound.nodup
      exact
        { sound := h.sound
          truthful := h.truthful
          claimed := fun _ ht => absurd ht List.not_mem_nil
          holds := fun _ ht => absurd ht List.not_mem_nil
          apart := .nil
          starting := by
            intro interrupted' cleared hphase
            cases hphase
            refine ⟨rfl, ?_, ?_, fun _ _ hnone => nomatch hnone⟩
            · intro record hrecord
              obtain ⟨hledger, hscan⟩ := hmem record hrecord
              refine ⟨?_, hscan⟩
              rw [row, hwell record hledger]
              exact Table.find_of_mem h.sound.nodup hledger
            · refine (List.pairwise_map.mp hnodup).imp_of_mem fun ha hb hne => ?_
              rwa [hwell _ (hmem _ ha).1, hwell _ (hmem _ hb).1] }
  · exact h.stop

/-- A write for one connection, of which no scan is in flight. -/
theorem wrote (h : Inv w) (connectionId : JsString) (phase : Phase) {ledger : Ledger}
    {store : ModelStore δ}
    (hsound : Sound ledger)
    (hrows : ∀ other : JsString, other.toWellFormed ≠ connectionId.toWellFormed →
      row ledger other = row w.ledger other)
    (hcounts : ∀ other : JsString, other.toWellFormed ≠ connectionId.toWellFormed →
      store.countOf other = w.store.countOf other)
    (htruthful : ∀ record, row ledger connectionId = some record →
      Truthful record (store.countOf connectionId))
    (hfree : ∀ task ∈ w.tasks, task.connectionId.toWellFormed ≠ connectionId.toWellFormed)
    (hphase : ∀ interrupted cleared, phase = .starting interrupted cleared →
      Starting { w with ledger, store, phase } interrupted cleared) :
    Inv { w with ledger, store, phase } where
  sound := hsound
  truthful other record hrow := by
    by_cases hother : other.toWellFormed = connectionId.toWellFormed
    · rw [countOf_congr hother]
      exact htruthful record ((row_congr hother).symm.trans hrow)
    · rw [hcounts other hother]
      exact h.truthful other record ((hrows other hother).symm.trans hrow)
  claimed task ht := by
    rw [hrows _ (hfree task ht)]
    exact h.claimed task ht
  holds task ht := by
    rw [hcounts _ (hfree task ht)]
    exact h.holds task ht
  apart := h.apart
  starting := hphase

theorem clearInterrupted (h : Inv w) (callbackThrows : Bool) :
    Inv (w.clearInterrupted columns sha256 callbackThrows) := by
  rw [World.clearInterrupted]
  split
  · next record rest hphase =>
      have hstarting := h.starting _ _ hphase
      obtain ⟨hrow, hscan⟩ := hstarting.claims record List.mem_cons_self
      split
      · next attemptId claimedAt hattempt hclaimed =>
          obtain ⟨hcounts, hcount⟩ := countOf_failClosed
            (rfl : w.store.failClosed columns record.connectionId attemptId
              (deterministicDiagnosticId sha256 .interrupted record.connectionId attemptId) claimedAt
              interruptedScanMessage callbackThrows = _)
          have htruthful : ∀ m record', row w.ledger record.connectionId = some record' →
              Truthful record' m := by
            intro m record' hrecord'
            obtain rfl := Option.some.inj (hrow.symm.trans hrecord')
            exact .of_open (isSettled_of_scanning hscan)
          have hfree : ∀ task ∈ w.tasks, task.connectionId.toWellFormed ≠
              record.connectionId.toWellFormed := fun task ht =>
            absurd (hstarting.idle ▸ ht) List.not_mem_nil
          dsimp only
          split
          · next diagnostic hdiagnostic =>
              refine h.wrote record.connectionId _ h.sound (fun _ _ => rfl) hcounts (htruthful _) hfree ?_
              intro interrupted cleared hphase'
              cases hphase'
              refine ⟨hstarting.idle, hstarting.claims, hstarting.apart, ?_⟩
              intro record' hrecord' _
              obtain rfl := Option.some.inj hrecord'
              exact hcount (Option.isSome_iff_exists.mpr ⟨_, hdiagnostic⟩)
          · exact (h.wrote record.connectionId .stopped h.sound (fun _ _ => rfl) hcounts (htruthful _)
              hfree (fun _ _ hstopped => nomatch hstopped)).stop
      · -- a claim has an attempt and a time
        next hnone =>
          have hvalid := (h.sound.row hrow).1
          simp only [isReconciliationRecord, Bool.and_eq_true, ReconciliationRecord.stateCoherent,
            hscan] at hvalid
          obtain ⟨attemptId, hattempt⟩ := Option.isSome_iff_exists.mp hvalid.2.1.1.2
          obtain ⟨claimedAt, hclaimed⟩ := Option.isSome_iff_exists.mp hvalid.2.1.2
          exact absurd hclaimed (hnone attemptId claimedAt hattempt)
  · exact h

theorem settleInterrupted (h : Inv w) (now : JsString) : Inv (w.settleInterrupted now) := by
  rw [World.settleInterrupted]
  split
  · next record rest diagnostic hphase =>
      have hstarting := h.starting _ _ hphase
      split
      · split
        · next settled hsettle =>
            have hcount := hstarting.cleared record rfl rfl
            obtain ⟨hsound, hrows, record', hrow, htruthful⟩ :=
              settleAttempt_effect h.sound hsettle hcount.symm
            refine h.wrote record.connectionId _ hsound hrows (fun _ _ => rfl) ?_
              (fun task ht => absurd (hstarting.idle ▸ ht) List.not_mem_nil) ?_
            · intro record'' hrecord
              obtain rfl := Option.some.inj (hrow.symm.trans hrecord)
              exact htruthful
            · intro interrupted cleared hphase'
              cases hphase'
              obtain ⟨hfirst, hrest⟩ := List.pairwise_cons.mp hstarting.apart
              refine ⟨hstarting.idle, fun other hother => ?_, hrest, fun _ _ hnone => nomatch hnone⟩
              obtain ⟨hclaim, hscan⟩ := hstarting.claims other (List.mem_cons_of_mem _ hother)
              exact ⟨(hrows _ (hfirst other hother).symm).trans hclaim, hscan⟩
        · exact h.stop
      · exact h
  · exact h

theorem serve (h : Inv w) : Inv w.serve := by
  rw [World.serve]
  split
  · exact h.wrote [] .running h.sound (fun _ _ => rfl) (fun _ _ => rfl)
      (h.truthful []) (fun task ht => absurd ((h.starting _ _ ‹_›).idle ▸ ht) List.not_mem_nil)
      (fun _ _ hrunning => nomatch hrunning)
  · exact h

/-! ## Requests -/

/-- No scan is in flight of a connection whose row is no open claim. -/
theorem free (h : Inv w) (hopen : ∀ record, row w.ledger connectionId = some record →
    record.scanState ≠ .scanning) :
    ∀ task ∈ w.tasks, task.connectionId.toWellFormed ≠ connectionId.toWellFormed := by
  intro task ht hconnection
  obtain ⟨hrow, hscan⟩ := h.claimed task ht
  exact hopen task.claim ((row_congr hconnection).symm.trans hrow) hscan

theorem not_starting (hrunning : w.isRunning = true) {interrupted : List ReconciliationRecord}
    {cleared : Option ScanDiagnostic} : w.phase ≠ .starting interrupted cleared := by
  intro hphase
  rw [World.isRunning, hphase] at hrunning
  exact absurd hrunning Bool.false_ne_true

theorem request (h : Inv w) (hrunning : w.isRunning = true) {trigger : ScanTrigger}
    {attemptId claimedAt : JsString} {active : Bool} :
    Inv (w.request connectionId trigger attemptId claimedAt active) := by
  rw [World.request]
  split
  · split
    · next claim ledger hclaim =>
        obtain ⟨hsound, hrows, hown, hscan, hopen⟩ := claimAttempt_effect h.sound hclaim
        have htasks := h.free hopen
        have hledger : Inv { w with ledger } := h.wrote connectionId w.phase hsound hrows
          (fun _ _ => rfl) (by
            intro record hrecord
            obtain rfl := Option.some.inj (hown.symm.trans hrecord)
            exact .of_open (isSettled_of_scanning hscan)) htasks
          fun _ _ hphase => absurd hphase (not_starting hrunning)
        exact
          { sound := hledger.sound
            truthful := hledger.truthful
            claimed := by
              intro task ht
              rcases List.mem_append.mp ht with ht | ht
              · exact hledger.claimed task ht
              · obtain rfl := List.mem_singleton.mp ht
                exact ⟨hown, hscan⟩
            holds := by
              intro task ht
              rcases List.mem_append.mp ht with ht | ht
              · exact hledger.holds task ht
              · obtain rfl := List.mem_singleton.mp ht
                trivial
            apart := by
              refine List.pairwise_append.mpr ⟨h.apart, List.pairwise_singleton _ _, ?_⟩
              intro task ht new hnew
              obtain rfl := List.mem_singleton.mp hnew
              exact htasks task ht
            starting := fun _ _ hphase => absurd hphase (not_starting hrunning) }
    · exact h
  · exact h

/-! ## The connections at startup -/

theorem initialized (h : Inv w) (hrunning : w.isRunning = true) {ledger : Ledger}
    (hinitialized : World.initialized w.ledger connectionId = some (record, ledger)) :
    Inv { w with ledger } ∧ row ledger connectionId = some record := by
  rcases initialized_effect h.sound hinitialized with ⟨hrow, rfl⟩ |
    ⟨hnone, hnever, hsound, hrows, hrow⟩
  · exact ⟨h, hrow⟩
  · refine ⟨h.wrote connectionId w.phase hsound hrows (fun _ _ => rfl) ?_ (h.free ?_)
      fun _ _ hphase => absurd hphase (not_starting hrunning), hrow⟩
    · intro record' hrecord'
      obtain rfl := Option.some.inj (hrow.symm.trans hrecord')
      exact .of_open (isSettled_of_neverScanned hnever)
    · exact fun record' hrecord' => absurd (hnone.symm.trans hrecord') (Option.some_ne_none _).symm

/-- An adoption that counts the models stored. -/
theorem adopt (h : Inv w) (hrunning : w.isRunning = true) {input : AdoptInput}
    (hopen : ∀ record, row w.ledger input.connectionId = some record →
      record.scanState ≠ .scanning)
    (hcount : input.modelCount = w.store.countOf input.connectionId) :
    Inv (w.adopt input).1 ∧ (w.adopt input).1.phase = w.phase := by
  rw [World.adopt]
  cases hadopt : w.ledger.adoptLegacyEvidence input with
  | none => exact ⟨h, rfl⟩
  | some adopted =>
      obtain ⟨hsound, hrows, record, hrow, htruthful⟩ :=
        adoptLegacyEvidence_effect h.sound hadopt hcount
      refine ⟨h.wrote input.connectionId w.phase hsound hrows (fun _ _ => rfl) ?_ (h.free hopen)
        fun _ _ hphase => absurd hphase (not_starting hrunning), rfl⟩
      intro record' hrecord'
      obtain rfl := Option.some.inj (hrow.symm.trans hrecord')
      exact htruthful

theorem adoptLegacyEvidence (h : Inv w) (hrunning : w.isRunning = true)
    (hrow : row w.ledger connectionId = some record) (hnever : record.scanState = .neverScanned)
    (callbackThrows : Bool) :
    let adopted := w.adoptLegacyEvidence columns sha256 connectionId record callbackThrows
    Inv adopted.1 ∧ adopted.1.phase = w.phase := by
  have hnever' : ∀ record', row w.ledger connectionId = some record' →
      record'.scanState = .neverScanned := by
    intro record' hrecord'
    obtain rfl := Option.some.inj (hrow.symm.trans hrecord')
    exact hnever
  have hopen : ∀ record', row w.ledger connectionId = some record' →
      record'.scanState ≠ .scanning := by
    intro record' hrecord' hscan
    exact absurd ((hnever' record' hrecord').symm.trans hscan) (by decide)
  dsimp only
  rw [World.adoptLegacyEvidence]
  split
  · exact ⟨h, rfl⟩
  · next model models hmodels _ =>
      exact h.adopt hrunning hopen (ModelStore.length_listModelsForConnection hmodels)
  · next models diagnostic rest hmodels _ =>
      have hlength := ModelStore.length_listModelsForConnection hmodels
      split
      · -- the models contradict the diagnostic, and are cleared first
        obtain ⟨hcounts, hcount⟩ := countOf_failClosed
          (rfl : w.store.failClosed columns connectionId
            (World.legacyAttemptId sha256 connectionId diagnostic)
            (deterministicDiagnosticId sha256 .legacyContradiction connectionId
              (World.legacyAttemptId sha256 connectionId diagnostic))
            diagnostic.occurredAt legacyContradictionMessage callbackThrows = _)
        have hcleared := h.wrote connectionId w.phase h.sound
          (fun _ _ => rfl) hcounts
          (fun record' hrecord' => .of_open (isSettled_of_neverScanned (hnever' record' hrecord')))
          (h.free hopen) fun _ _ hphase => absurd hphase (not_starting hrunning)
        dsimp only
        split
        · next cleared hdiagnostic =>
            exact hcleared.adopt hrunning hopen
              (hcount (Option.isSome_iff_exists.mpr ⟨_, hdiagnostic⟩)).symm
        · exact ⟨hcleared, rfl⟩
      · next hagree =>
          refine h.adopt hrunning hopen ?_
          show (if World.legacyOutcome diagnostic.outcome models = .available then models.length
            else 0) = w.store.countOf connectionId
          rw [ModelStore.countOf, ← hlength, World.legacyOutcome]
          cases models with
          | nil => simp
          | cons model models => simpa using hagree
  · exact ⟨h, rfl⟩

theorem startConnection (h : Inv w) (hrunning : w.isRunning = true) {attemptId claimedAt : JsString}
    {active stops callbackThrows : Bool} :
    Inv (w.startConnection columns sha256 connectionId attemptId claimedAt active stops
      callbackThrows) := by
  rw [World.startConnection]
  split
  · exact h.stop
  · next record ledger hinitialized =>
      obtain ⟨hinv, hrow⟩ := h.initialized hrunning hinitialized
      split
      · exact hinv.stop
      · have hadopted : ∀ adopted, (if record.reconciliationVersion = targetVersion ∧
            record.scanState = .neverScanned then
            { w with ledger }.adoptLegacyEvidence columns sha256 connectionId record callbackThrows
            else ({ w with ledger }, some record)) = adopted →
            Inv adopted.1 ∧ adopted.1.phase = w.phase := by
          rintro adopted rfl
          split
          · next hnever => exact hinv.adoptLegacyEvidence hrunning hrow hnever.2 callbackThrows
          · exact ⟨hinv, rfl⟩
        dsimp only
        generalize hresult : (if record.reconciliationVersion = targetVersion ∧
            record.scanState = .neverScanned then
            { w with ledger }.adoptLegacyEvidence columns sha256 connectionId record callbackThrows
            else ({ w with ledger }, some record)) = adopted
        obtain ⟨hinv', hphase⟩ := hadopted adopted hresult
        split
        · exact hinv'.stop
        · split
          · refine hinv'.request ?_
            rwa [World.isRunning, hphase, ← World.isRunning]
          · exact hinv'

/-! ## Whole runs -/

theorem step (h : Inv w) (s : World.Step δ) : Inv (w.step columns sha256 s) := by
  cases s with
  | restart => exact h.restart
  | clearInterrupted callbackThrows => exact h.clearInterrupted callbackThrows
  | settleInterrupted now => exact h.settleInterrupted now
  | serve => exact h.serve
  | startConnection connectionId attemptId claimedAt active stops callbackThrows =>
      rw [World.step]
      split
      · next hrunning => exact h.startConnection hrunning
      · exact h
  | request connectionId trigger attemptId claimedAt active =>
      rw [World.step]
      split
      · next hrunning => exact h.request hrunning
      · exact h
  | turn connectionId t => exact h.turn connectionId t

theorem run (store : ModelStore δ) (steps : List (World.Step δ)) :
    Inv (World.run columns sha256 store steps) := by
  induction steps using List.reverseRecOn with
  | nil => exact .initial store
  | append_singleton steps s ih =>
      rw [World.run, List.foldl_concat]
      exact ih.step s

end Inv

/-- **The ledger agrees with the model store.** -/
theorem World.run_truthful (store : ModelStore δ) (steps : List (World.Step δ))
    {connectionId : JsString} {record : ReconciliationRecord}
    (h : row (World.run columns sha256 store steps).ledger connectionId = some record) :
    Truthful record ((World.run columns sha256 store steps).store.countOf connectionId) :=
  (Inv.run store steps).truthful connectionId record h

/-! ## A scan -/

def sampleColumns : Details Unit :=
  { valid := fun _ => true, stored := id, localeCompare := compare }

def sampleTime : JsString := js "2026-01-02T03:04:05.678Z"

/-- A process starts, scans a connection and finds one model. -/
def sampleSteps : List (World.Step Unit) :=
  [.restart, .serve, .request (js "c") .individualRetry (js "a") sampleTime true,
    .turn (js "c") (.discover sampleTime (js "d")
      (.models [⟨js "c", js "m", sampleTime, ()⟩]) false),
    .turn (js "c") (.settle sampleTime)]

def sampleRecord : ReconciliationRecord :=
  { connectionId := js "c", reconciliationVersion := targetVersion, scanState := .available
    trigger := some .individualRetry, attemptId := some (js "a"), claimedAt := some sampleTime
    settledAt := some sampleTime, settledOutcome := some .available, modelCount := some 1
    outcomeCode := some (.scan .success)
    safeOutcomeMessage := some (js "Model catalog scan completed."), diagnosticId := some (js "d") }

theorem World.run_truthful_sample : Truthful sampleRecord
    ((World.run sampleColumns id ⟨[], []⟩ sampleSteps).store.countOf (js "c")) :=
  World.run_truthful ⟨[], []⟩ sampleSteps (by decide +kernel)

end Hepha.Catalog
