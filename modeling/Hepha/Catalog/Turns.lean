import Hepha.Catalog.Claims
import Mathlib.Data.List.Induction

/-!
# Claims and settlements take turns

In every run of the ledger's operations, whatever their inputs are, the claims
and the settlements of a connection take turns: a claim is settled once and by
its own attempt, or it is still open, and there is no second claim beside it
(`run_ordered`).

## Strategy

A call changes one row at most.  The row of a connection is the record of the
last change of its history (`Shows`), and the specification of each operation
says which rows it accepts; so the next change follows on that record
(`Agrees.snoc`).  The rows of other connections and their histories stay as they
are (`Agrees.other`).
-/

namespace Hepha.Catalog.Ledger

/-! ## Runs -/

inductive Call
  | initializeNeverScanned (input : InitializeInput)
  | adoptLegacyEvidence (input : AdoptInput)
  | claimAttempt (input : ClaimInput)
  | settleAttempt (input : SettleInput)

/-- A change of a connection's row, with the record that the call returns. -/
inductive Entry
  | adopted (record : ReconciliationRecord)
  | claimed (record : ReconciliationRecord)
  | settled (record : ReconciliationRecord)

def Entry.record : Entry → ReconciliationRecord
  | adopted record | claimed record | settled record => record

/-- The ledger after an operation that changes a row if it does not throw. -/
def changedBy (ledger : Ledger) (entry : ReconciliationRecord → Entry) :
    Option (ReconciliationRecord × Ledger) → Ledger × Option Entry
  | some (record, after) => (after, some (entry record))
  | none => (ledger, none)

/-- The ledger after an attempt to claim a row. -/
def claimedBy (ledger : Ledger) : Option (ClaimResult × Ledger) → Ledger × Option Entry
  | some (.claimed record, after) => (after, some (.claimed record))
  | some (.alreadyScanning _, after) => (after, none)
  | some (.settledForVersion _, after) => (after, none)
  | none => (ledger, none)

/-- The ledger after a call, and the change that the call has made. -/
def perform (ledger : Ledger) : Call → Ledger × Option Entry
  | .initializeNeverScanned input =>
      ((ledger.initializeNeverScanned input).elim ledger Prod.snd, none)
  | .adoptLegacyEvidence input => changedBy ledger .adopted (ledger.adoptLegacyEvidence input)
  | .claimAttempt input => claimedBy ledger (ledger.claimAttempt input)
  | .settleAttempt input => changedBy ledger .settled (ledger.settleAttempt input)

/-- One more call, after which the changes so far are these. -/
def next (state : Ledger × List Entry) (call : Call) : Ledger × List Entry :=
  ((state.1.perform call).1, state.2 ++ (state.1.perform call).2.toList)

/-- The ledger after the calls, and the changes they have made. -/
def run (calls : List Call) : Ledger × List Entry :=
  calls.foldl next ([], [])

/-- The changes of one connection's row. -/
def historyOf (connectionId : JsString) (entries : List Entry) : List Entry :=
  entries.filter fun entry => entry.record.connectionId = connectionId.toWellFormed

theorem historyOf_concat {connectionId : JsString} {entries : List Entry} {entry : Entry} :
    historyOf connectionId (entries ++ [entry]) = historyOf connectionId entries ++
      if entry.record.connectionId = connectionId.toWellFormed then [entry] else [] := by
  rw [historyOf, List.filter_append, ← historyOf]
  by_cases h : entry.record.connectionId = connectionId.toWellFormed <;> simp [h]

/-! ## Histories -/

/-- The record is the claim, settled. -/
structure Settles (claim record : ReconciliationRecord) : Prop where
  open' : claim.scanState = .scanning
  reconciliationVersion : record.reconciliationVersion = claim.reconciliationVersion
  trigger : record.trigger = claim.trigger
  attemptId : record.attemptId = claim.attemptId
  claimedAt : record.claimedAt = claim.claimedAt
  notBefore : ∀ settledAt ∈ record.settledAt, ∀ claimedAt ∈ claim.claimedAt,
    isBefore settledAt claimedAt = false
  settled : record.isSettled = true

/-- What a change may come after. -/
inductive Follows : Option Entry → Entry → Prop
  | adopted {record : ReconciliationRecord} (h : record.isSettled = true) :
      Follows none (.adopted record)
  | claimed {previous : Option Entry} {record : ReconciliationRecord}
      (h : record.scanState = .scanning)
      (hprevious : ∀ entry ∈ previous, entry.record.isSettled = true ∧
        entry.record.reconciliationVersion ≤ record.reconciliationVersion) :
      Follows previous (.claimed record)
  | settled {claim record : ReconciliationRecord} (h : Settles claim record) :
      Follows (some (.claimed claim)) (.settled record)

/-- Each change follows on the one before it. -/
inductive Ordered : List Entry → Prop
  | nil : Ordered []
  | snoc {entries : List Entry} {entry : Entry} (h : Ordered entries)
      (hfollows : Follows entries.getLast? entry) : Ordered (entries ++ [entry])

/-- The row of a connection says what its last change has made of it. -/
def Shows (existing : Option ReconciliationRecord) (last : Option Entry) : Prop :=
  match last with
  | none => ∀ record, existing = some record → record.scanState = .neverScanned
  | some entry => existing = some entry.record ∧ entry.record.scanState ≠ .neverScanned ∧
      (entry.record.scanState = .scanning → entry = .claimed entry.record)

/-- What a call has found in the row that it changes. -/
def Found (existing : Option ReconciliationRecord) : Entry → Prop
  | .adopted record => record.isSettled = true ∧
      ∀ before, existing = some before → before.scanState = .neverScanned
  | .claimed record => record.scanState = .scanning ∧
      ∀ before, existing = some before → before.scanState ≠ .scanning ∧
        before.reconciliationVersion ≤ record.reconciliationVersion
  | .settled record => ∃ claim, existing = some claim ∧ Settles claim record

theorem isSettled_iff {record : ReconciliationRecord} :
    record.isSettled = true ↔ record.scanState ≠ .neverScanned ∧ record.scanState ≠ .scanning := by
  rw [ReconciliationRecord.isSettled]
  cases record.scanState <;> decide

/-- What a call has found is what its change may come after. -/
theorem Found.follows {existing : Option ReconciliationRecord} {last : Option Entry} {entry : Entry}
    (h : Found existing entry) (hshows : Shows existing last) : Follows last entry := by
  cases last with
  | none =>
      cases entry with
      | adopted record => exact .adopted h.1
      | claimed record => exact .claimed h.1 fun entry hentry => absurd hentry (Option.not_mem_none entry)
      | settled record =>
          obtain ⟨claim, rfl, hsettles⟩ := h
          exact absurd (hsettles.open'.symm.trans (hshows claim rfl)) (by decide)
  | some entry' =>
      obtain ⟨rfl, hscanned, hopen⟩ := hshows
      cases entry with
      | adopted record => exact absurd (h.2 _ rfl) hscanned
      | claimed record =>
          refine .claimed h.1 fun entry'' hentry => ?_
          obtain rfl := Option.some.inj hentry
          exact ⟨isSettled_iff.2 ⟨hscanned, (h.2 _ rfl).1⟩, (h.2 _ rfl).2⟩
      | settled record =>
          obtain ⟨claim, hclaim, hsettles⟩ := h
          obtain rfl := Option.some.inj hclaim
          rw [hopen hsettles.open']
          exact .settled hsettles

/-- After a change the row says what the change has made of it. -/
theorem Found.shows {existing : Option ReconciliationRecord} {entry : Entry}
    (h : Found existing entry) : Shows (some entry.record) (some entry) := by
  refine ⟨rfl, ?_⟩
  cases entry with
  | adopted record => exact ⟨(isSettled_iff.1 h.1).1, fun hscan => absurd hscan (isSettled_iff.1 h.1).2⟩
  | claimed record => exact ⟨fun hnever => absurd (h.1.symm.trans hnever) (by decide), fun _ => rfl⟩
  | settled record =>
      obtain ⟨claim, -, hsettles⟩ := h
      have hsettled := isSettled_iff.1 hsettles.settled
      exact ⟨hsettled.1, fun hscan => absurd hscan hsettled.2⟩

/-! ## One call -/

/-- What a call does to a valid ledger. -/
inductive Performed (ledger : Ledger) : Ledger × Option Entry → Prop
  | same : Performed ledger (ledger, none)
  | initialized {record : ReconciliationRecord} (hvalid : isReconciliationRecord record = true)
      (hnever : record.scanState = .neverScanned) (hnew : row ledger record.connectionId = none) :
      Performed ledger (written ledger record, none)
  | changed {record : ReconciliationRecord} {entry : Entry}
      (hvalid : isReconciliationRecord record = true) (hentry : entry.record = record.stored)
      (hfound : Found (row ledger record.connectionId) entry) :
      Performed ledger (written ledger record, some entry)

theorem isSettled_scanState {record : ReconciliationRecord} (outcome : SettledOutcome)
    (h : record.scanState = outcome.scanState) : record.isSettled = true := by
  rw [ReconciliationRecord.isSettled, h]
  cases outcome <;> rfl

theorem settles_settledRecord {existing : ReconciliationRecord} {input : SettleInput}
    (hstored : existing.stored = existing) (hinput : isSettleInput input = true)
    (hholds : holds existing input = true) :
    Settles existing (settledRecord existing input).stored := by
  simp only [isSettleInput, Bool.and_eq_true] at hinput
  simp only [holds, Bool.and_eq_true, beq_iff_eq, Option.any_eq_true] at hholds
  obtain ⟨⟨⟨hopen, -⟩, -⟩, claimedAt, hclaimed, hbefore⟩ := hholds
  have hsettledAt : input.settledAt.toWellFormed = input.settledAt :=
    Date.toWellFormed_of_canonicalTime hinput.1.1.1.1.1.2
  have hattempt : existing.stored.attemptId = existing.attemptId := by rw [hstored]
  have htime : existing.stored.claimedAt = existing.claimedAt := by rw [hstored]
  exact
    { open' := hopen
      reconciliationVersion := rfl
      trigger := rfl
      attemptId := hattempt
      claimedAt := htime
      notBefore := by
        intro settledAt hsettled claimed hmem
        obtain rfl : input.settledAt.toWellFormed = settledAt := Option.some.inj hsettled
        obtain rfl : claimedAt = claimed := Option.some.inj (hclaimed.symm.trans hmem)
        simpa [hsettledAt] using hbefore
      settled := isSettled_scanState input.settledOutcome rfl }

theorem performed (h : Sound ledger) (call : Call) : Performed ledger (ledger.perform call) := by
  cases call with
  | initializeNeverScanned input =>
      show Performed ledger ((ledger.initializeNeverScanned input).elim ledger Prod.snd, none)
      by_cases hinput : isInitializeInput input = true
      · rw [initializeNeverScanned_eq h hinput]
        split
        · exact .same
        · next hnew =>
            refine .initialized (isReconciliationRecord_neverScannedRow hinput) rfl ?_
            rw [← hnew, row, row, neverScannedRow, JsString.toWellFormed_toWellFormed]
      · simp only [initializeNeverScanned, guard, hinput]
        exact .same
  | adoptLegacyEvidence input =>
      show Performed ledger (changedBy ledger .adopted (ledger.adoptLegacyEvidence input))
      cases hcall : ledger.adoptLegacyEvidence input with
      | none => exact .same
      | some result =>
          obtain ⟨hinput, hnever, hrecord, hafter⟩ := (adoptLegacyEvidence_eq_some_iff h).mp hcall
          have hvalid : isReconciliationRecord (adoptionRecord input) = true := by
            simp only [isAdoptInput, Bool.and_eq_true] at hinput
            exact hinput.2
          rw [changedBy, hrecord, hafter]
          exact .changed hvalid rfl ⟨isSettled_scanState input.settledOutcome rfl,
            fun before hbefore => (hnever before hbefore).2⟩
  | claimAttempt input =>
      show Performed ledger (claimedBy ledger (ledger.claimAttempt input))
      cases hcall : ledger.claimAttempt input with
      | none => exact .same
      | some result =>
          obtain ⟨result, after⟩ := result
          cases result with
          | claimed record =>
              obtain ⟨hinput, hfree, rfl, rfl⟩ := (claimAttempt_claimed_iff h).mp hcall
              refine .changed (isReconciliationRecord_claimedRecord hinput) rfl ⟨rfl, ?_⟩
              intro before hbefore
              obtain ⟨hrefuses, hversion⟩ := hfree before hbefore
              exact ⟨fun hscan => by simp [refuses, hscan] at hrefuses, hversion⟩
          | alreadyScanning record =>
              obtain rfl := claimAttempt_refused h hcall fun _ hrecord => ClaimResult.noConfusion hrecord
              exact .same
          | settledForVersion record =>
              obtain rfl := claimAttempt_refused h hcall fun _ hrecord => ClaimResult.noConfusion hrecord
              exact .same
  | settleAttempt input =>
      show Performed ledger (changedBy ledger .settled (ledger.settleAttempt input))
      cases hcall : ledger.settleAttempt input with
      | none => exact .same
      | some result =>
          obtain ⟨hinput, existing, hrow, hholds, hrecord, hafter⟩ :=
            (settleAttempt_eq_some_iff h).mp hcall
          obtain ⟨hvalid, hstored, hconnection⟩ := h.row hrow
          rw [changedBy, hrecord, hafter]
          refine .changed (isReconciliationRecord_settledRecord hvalid hinput hholds) rfl
            ⟨existing, ?_, settles_settledRecord hstored hinput hholds⟩
          rw [← hrow, row, row, settledRecord, hconnection, JsString.toWellFormed_toWellFormed]

/-! ## Whole runs -/

/-- What holds of a run, for one connection. -/
structure Agrees (state : Ledger × List Entry) (connectionId : JsString) : Prop where
  ordered : Ordered (historyOf connectionId state.2)
  shows : Shows (row state.1 connectionId) (historyOf connectionId state.2).getLast?

theorem row_congr {other : JsString} (h : connectionId.toWellFormed = other.toWellFormed) :
    row ledger connectionId = row ledger other := by
  rw [row, row, h]

theorem Agrees.performed {state : Ledger × List Entry} {result : Ledger × Option Entry}
    (h : Agrees state connectionId) (hperformed : Performed state.1 result) :
    Agrees (result.1, state.2 ++ result.2.toList) connectionId := by
  cases hperformed with
  | same => simpa using h
  | @initialized record hvalid hnever hnew =>
      rw [Option.toList_none, List.append_nil]
      refine ⟨h.ordered, ?_⟩
      by_cases hconnection : connectionId.toWellFormed = record.connectionId.toWellFormed
      · have hshows := h.shows
        rw [row_congr hconnection, hnew] at hshows
        rw [row_written, if_pos hconnection]
        cases hlast : (historyOf connectionId state.2).getLast? with
        | none =>
            intro after hafter
            obtain rfl := Option.some.inj hafter
            exact hnever
        | some entry =>
            rw [hlast] at hshows
            exact absurd hshows.1 (Option.some_ne_none _).symm
      · rw [row_written, if_neg hconnection]
        exact h.shows
  | @changed record entry hvalid hentry hfound =>
      by_cases hconnection : connectionId.toWellFormed = record.connectionId.toWellFormed
      · -- the change is one of this connection
        have hhistory : historyOf connectionId (state.2 ++ [entry]) =
            historyOf connectionId state.2 ++ [entry] := by
          rw [historyOf_concat, if_pos]
          rw [hentry, hconnection]
          rfl
        rw [← row_congr hconnection] at hfound
        refine ⟨?_, ?_⟩
        · rw [Option.toList_some, hhistory]
          exact h.ordered.snoc (hfound.follows h.shows)
        · rw [Option.toList_some, hhistory, List.getLast?_concat, row_written, if_pos hconnection,
            ← hentry]
          exact hfound.shows
      · have hhistory : historyOf connectionId (state.2 ++ [entry]) =
            historyOf connectionId state.2 := by
          rw [historyOf_concat, if_neg, List.append_nil]
          rw [hentry]
          exact Ne.symm hconnection
        refine ⟨?_, ?_⟩
        · rw [Option.toList_some, hhistory]
          exact h.ordered
        · rw [Option.toList_some, hhistory, row_written, if_neg hconnection]
          exact h.shows

theorem Performed.sound {result : Ledger × Option Entry} (h : Sound ledger)
    (hperformed : Performed ledger result) : Sound result.1 := by
  cases hperformed with
  | same => exact h
  | initialized hvalid _ _ => exact h.written hvalid
  | changed hvalid _ _ => exact h.written hvalid

theorem run_agrees (calls : List Call) :
    Sound (run calls).1 ∧ ∀ connectionId, Agrees (run calls) connectionId := by
  induction calls using List.reverseRecOn with
  | nil =>
      refine ⟨Sound.empty, fun connectionId => ⟨.nil, ?_⟩⟩
      exact fun record hrecord => absurd hrecord (Option.some_ne_none record).symm
  | append_singleton calls call ih =>
      obtain ⟨hsound, hagrees⟩ := ih
      have hperformed := performed hsound call
      rw [run, List.foldl_concat, ← run]
      exact ⟨hperformed.sound hsound, fun connectionId =>
        (hagrees connectionId).performed hperformed⟩

/-- **Claims and settlements take turns.** -/
theorem run_ordered (calls : List Call) (connectionId : JsString) :
    Ordered (historyOf connectionId (run calls).2) ∧
      Shows (row (run calls).1 connectionId) (historyOf connectionId (run calls).2).getLast? ∧
      (run calls).1.list.isSome := by
  obtain ⟨hsound, hagrees⟩ := run_agrees calls
  exact ⟨(hagrees connectionId).ordered, (hagrees connectionId).shows, by rw [list_eq hsound]; rfl⟩

end Hepha.Catalog.Ledger
