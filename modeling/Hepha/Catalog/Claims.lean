import Hepha.Catalog.Ledger
import Mathlib.Data.Option.Basic

/-!
# What the operations of the ledger do

A valid row is read back as it was written, and every row of the ledger is valid
(`Sound`).  So an operation that succeeds returns the record it writes, and
succeeds exactly if its input is valid and the connection's row lets it; there is
one lemma for each operation.
-/

namespace Hepha.Catalog.Ledger

open ReconciliationRecord (stored)

variable {ledger after : Ledger} {record existing : ReconciliationRecord} {connectionId : JsString}

/-! ## Valid ledgers -/

structure Sound (ledger : Ledger) : Prop where
  nodup : (ledger.map ReconciliationRecord.connectionId).Nodup
  valid : ∀ row ∈ ledger, isReconciliationRecord row = true
  stored : ∀ row ∈ ledger, row.stored = row

theorem Sound.empty : Sound [] where
  nodup := List.nodup_nil
  valid _ h := absurd h List.not_mem_nil
  stored _ h := absurd h List.not_mem_nil

/-- The row of a connection. -/
def row (ledger : Ledger) (connectionId : JsString) : Option ReconciliationRecord :=
  Table.find ReconciliationRecord.connectionId ledger connectionId.toWellFormed

/-- The ledger with the row of a record. -/
def written (ledger : Ledger) (record : ReconciliationRecord) : Ledger :=
  Table.upsert ReconciliationRecord.connectionId ledger record.stored

theorem row_written : row (written ledger record) connectionId =
    if connectionId.toWellFormed = record.connectionId.toWellFormed then some record.stored
    else row ledger connectionId :=
  Table.find_upsert _ _

@[simp] theorem row_written_self : row (written ledger record) record.connectionId =
    some record.stored := by
  rw [row_written, if_pos rfl]

theorem Sound.written (h : Sound ledger) (hrecord : isReconciliationRecord record = true) :
    Sound (written ledger record) where
  nodup := Table.nodup_upsert h.nodup _
  valid row hrow := by
    rcases Table.mem_of_mem_upsert hrow with rfl | hrow
    · exact isReconciliationRecord_stored hrecord
    · exact h.valid row hrow
  stored row hrow := by
    rcases Table.mem_of_mem_upsert hrow with rfl | hrow
    · exact stored_stored record
    · exact h.stored row hrow

theorem Sound.row (h : Sound ledger) (hrow : row ledger connectionId = some record) :
    isReconciliationRecord record = true ∧ record.stored = record ∧
      record.connectionId = connectionId.toWellFormed := by
  obtain ⟨hmem, hkey⟩ := Table.mem_of_find hrow
  exact ⟨h.valid record hmem, h.stored record hmem, hkey⟩

theorem readWithinTransaction_eq (h : Sound ledger) (connectionId : JsString) :
    ledger.readWithinTransaction connectionId = some (row ledger connectionId) := by
  rw [readWithinTransaction]
  split
  · next hrow => exact congrArg some (id hrow).symm
  · next record hrow =>
      have hrow' : row ledger connectionId = some record := hrow
      obtain ⟨hvalid, -⟩ := h.row hrow'
      rw [rowToRecord, if_pos hvalid, Option.map_some]
      exact congrArg some (id hrow).symm

theorem read_eq (h : Sound ledger) (hconnection : isBoundedString connectionId = true) :
    ledger.read connectionId = some (row ledger connectionId) := by
  rw [read, if_pos hconnection, readWithinTransaction_eq h]

theorem requireRecord_written (h : Sound ledger) (hrecord : isReconciliationRecord record = true) :
    requireRecord (written ledger record) record.connectionId = some record.stored := by
  rw [requireRecord, readWithinTransaction_eq (h.written hrecord), row_written_self]
  rfl

/-- Every row of a valid ledger can be read. -/
theorem mapM_rowToRecord (h : Sound ledger) : ledger.mapM rowToRecord = some ledger := by
  have hvalid := h.valid
  clear h
  induction ledger with
  | nil => rfl
  | cons row rest ih =>
      rw [List.mapM_cons, rowToRecord, if_pos (hvalid row List.mem_cons_self),
        ih fun other hother => hvalid other (List.mem_cons_of_mem _ hother)]
      rfl

theorem list_eq (h : Sound ledger) : ledger.list = some (ledger.insertionSort
    fun left right => left.connectionId ≤ right.connectionId) := by
  rw [list, mapM_rowToRecord h, Option.map_some]

/-! ## What the operations write -/

theorem isReconciliationRecord_neverScannedRow {input : InitializeInput}
    (hinput : isInitializeInput input = true) :
    isReconciliationRecord (neverScannedRow input.connectionId input.reconciliationVersion) = true := by
  simp only [isInitializeInput, Bool.and_eq_true, beq_iff_eq] at hinput
  simp only [isReconciliationRecord, neverScannedRow, isBoundedString_toWellFormed, hinput]
  rfl

theorem initializeNeverScanned_eq (h : Sound ledger) {input : InitializeInput}
    (hinput : isInitializeInput input = true) :
    ledger.initializeNeverScanned input =
      match row ledger input.connectionId with
      | some existing => some (existing, ledger)
      | none => some (neverScannedRow input.connectionId input.reconciliationVersion,
          written ledger (neverScannedRow input.connectionId input.reconciliationVersion)) := by
  simp only [initializeNeverScanned, guard, hinput, if_true, pure_bind,
    readWithinTransaction_eq h, Option.bind_eq_bind, Option.bind_some]
  cases hrow : row ledger input.connectionId with
  | some existing => rfl
  | none =>
      have hvalid := isReconciliationRecord_neverScannedRow hinput
      have hstored : (neverScannedRow input.connectionId input.reconciliationVersion).stored =
          neverScannedRow input.connectionId input.reconciliationVersion := by
        simp [neverScannedRow, ReconciliationRecord.stored]
      have hinsert : Table.insert ReconciliationRecord.connectionId ledger
          (neverScannedRow input.connectionId input.reconciliationVersion) =
          some (written ledger
            (neverScannedRow input.connectionId input.reconciliationVersion)) := by
        have hnew := Table.find_eq_none_iff.1 hrow
        exact Table.insert_eq_some.2 ⟨hnew, by rw [written, hstored, Table.upsert_of_new hnew]⟩
      have hread : requireRecord (written ledger
          (neverScannedRow input.connectionId input.reconciliationVersion)) input.connectionId =
          some (neverScannedRow input.connectionId input.reconciliationVersion) := by
        rw [requireRecord, readWithinTransaction_eq (h.written hvalid), row_written, if_pos, hstored]
        · rfl
        · exact (JsString.toWellFormed_toWellFormed _).symm
      simp only [hinsert, Option.bind_some, hread]
      rfl

theorem replace_eq (hrecord : isReconciliationRecord record = true) :
    ledger.replace record = some (written ledger record) := by
  rw [replace, if_pos hrecord]
  rfl

theorem adoptLegacyEvidence_eq_some_iff (h : Sound ledger) {input : AdoptInput} :
    ledger.adoptLegacyEvidence input = some (record, after) ↔
      isAdoptInput input = true ∧
        (∀ existing, row ledger input.connectionId = some existing →
          existing.reconciliationVersion = input.reconciliationVersion ∧
            existing.scanState = .neverScanned) ∧
        record = (adoptionRecord input).stored ∧ after = written ledger (adoptionRecord input) := by
  have hrecord (hinput : isAdoptInput input = true) :
      isReconciliationRecord (adoptionRecord input) = true := by
    simp only [isAdoptInput, Bool.and_eq_true] at hinput
    exact hinput.2
  rw [adoptLegacyEvidence, Option.bind_eq_bind, Option.bind_eq_some_iff]
  simp only [Option.guard_eq_some', exists_and_left, exists_const]
  refine and_congr_right fun hinput => ?_
  rw [readWithinTransaction_eq h, Option.bind_eq_bind, Option.bind_some, Option.bind_eq_bind,
    Option.bind_eq_some_iff]
  simp only [Option.guard_eq_some', exists_and_left, exists_const]
  refine and_congr ?_ ?_
  · cases row ledger input.connectionId <;> simp
  · rw [replace_eq (hrecord hinput), Option.bind_some,
      show input.connectionId = (adoptionRecord input).connectionId from rfl,
      requireRecord_written h (hrecord hinput)]
    simp [eq_comm]

/-- A claim may take the row: there is none, or it is not being scanned, is not of a
later version, and is not settled for the version already. -/
def Free (existing : Option ReconciliationRecord) (input : ClaimInput) : Prop :=
  ∀ record, existing = some record →
    refuses record input = none ∧ record.reconciliationVersion ≤ input.reconciliationVersion

theorem isReconciliationRecord_claimedRecord {input : ClaimInput} (h : isClaimInput input = true) :
    isReconciliationRecord (claimedRecord input) = true := by
  simp only [isClaimInput, Bool.and_eq_true] at h
  obtain ⟨⟨⟨hconnection, hversion⟩, hattempt⟩, hclaimed⟩ := h
  simp only [isReconciliationRecord, claimedRecord, hconnection, hversion, Option.all_some, hattempt,
    hclaimed]
  rfl

theorem claimAttempt_eq (h : Sound ledger) {input : ClaimInput}
    (hinput : isClaimInput input = true) : ledger.claimAttempt input =
      match (row ledger input.connectionId).bind fun record => refuses record input with
      | some result => some (result, ledger)
      | none =>
          if (row ledger input.connectionId).all fun record =>
              record.reconciliationVersion ≤ input.reconciliationVersion then
            some (.claimed (claimedRecord input).stored, written ledger (claimedRecord input))
          else none := by
  simp only [claimAttempt, guard, hinput, if_true, pure_bind, readWithinTransaction_eq h,
    Option.bind_eq_bind, Option.bind_some]
  cases (row ledger input.connectionId).bind fun record => refuses record input with
  | some result => rfl
  | none =>
      have hvalid := isReconciliationRecord_claimedRecord hinput
      simp only [replace_eq hvalid]
      split
      · simp only [Option.bind_some, show input.connectionId =
          (claimedRecord input).connectionId from rfl, requireRecord_written h hvalid]
        rfl
      · rfl

theorem refuses_ne_claimed {input : ClaimInput} {result : ClaimResult}
    (h : refuses existing input = some result) (record : ReconciliationRecord) :
    result ≠ .claimed record := by
  unfold refuses at h
  split at h
  · exact Option.some.inj h ▸ nofun
  · split at h
    · exact Option.some.inj h ▸ nofun
    · nomatch h

theorem claimAttempt_claimed_iff (h : Sound ledger) {input : ClaimInput} :
    ledger.claimAttempt input = some (.claimed record, after) ↔
      isClaimInput input = true ∧ Free (row ledger input.connectionId) input ∧
        record = (claimedRecord input).stored ∧ after = written ledger (claimedRecord input) := by
  by_cases hinput : isClaimInput input = true
  · rw [claimAttempt_eq h hinput, and_iff_right hinput]
    cases hrow : row ledger input.connectionId with
    | none => simp [Free, eq_comm]
    | some existing =>
        cases hrefuses : refuses existing input with
        | some result => simp [Free, hrefuses, refuses_ne_claimed hrefuses]
        | none => simp [Free, hrefuses, eq_comm]
  · simp [claimAttempt, guard, hinput]

theorem claimAttempt_refused (h : Sound ledger) {input : ClaimInput} {result : ClaimResult}
    (hclaim : ledger.claimAttempt input = some (result, after))
    (hrefused : ∀ record, result ≠ .claimed record) : after = ledger := by
  by_cases hinput : isClaimInput input = true
  · rw [claimAttempt_eq h hinput] at hclaim
    split at hclaim
    · cases hclaim
      rfl
    · split at hclaim
      · cases hclaim
        exact absurd rfl (hrefused _)
      · nomatch hclaim
  · simp [claimAttempt, guard, hinput] at hclaim

theorem isReconciliationRecord_settledRecord {input : SettleInput}
    (hvalid : isReconciliationRecord existing = true) (hinput : isSettleInput input = true)
    (hholds : holds existing input = true) :
    isReconciliationRecord (settledRecord existing input) = true := by
  simp only [isSettleInput, Bool.and_eq_true, bne_iff_ne] at hinput
  simp only [holds, Bool.and_eq_true, beq_iff_eq, Option.any_eq_true] at hholds
  obtain ⟨⟨⟨hstate, hversion⟩, hattempt⟩, claimedAt, hclaimed, hbefore⟩ := hholds
  simp only [isReconciliationRecord, Bool.and_eq_true, ReconciliationRecord.stateCoherent, hstate]
    at hvalid
  obtain ⟨trigger, htrigger⟩ := Option.isSome_iff_exists.mp hvalid.2.1.1.1
  have hcoherent : (settledRecord existing input).settledCoherent input.settledOutcome = true := by
    simp only [ReconciliationRecord.settledCoherent, settledRecord, htrigger, hclaimed, hattempt,
      Bool.and_eq_true, Bool.or_eq_true, bne_iff_ne, beq_iff_eq]
    tauto
  have hstateCoherent : (settledRecord existing input).stateCoherent = true := by
    unfold ReconciliationRecord.stateCoherent
    cases houtcome : input.settledOutcome <;> rw [houtcome] at hcoherent <;>
      simpa [settledRecord, houtcome, SettledOutcome.scanState] using hcoherent
  simp only [isReconciliationRecord, hstateCoherent, Bool.and_eq_true, and_true]
  simp only [settledRecord, Option.all_some]
  tauto

theorem settleAttempt_eq_some_iff (h : Sound ledger) {input : SettleInput} :
    ledger.settleAttempt input = some (record, after) ↔
      isSettleInput input = true ∧ ∃ existing, row ledger input.connectionId = some existing ∧
        holds existing input = true ∧ record = (settledRecord existing input).stored ∧
          after = written ledger (settledRecord existing input) := by
  simp only [settleAttempt, Option.bind_eq_bind, Option.bind_eq_some_iff, Option.guard_eq_some',
    exists_and_left, exists_const, readWithinTransaction_eq h, Option.some.injEq,
    exists_eq_left']
  refine and_congr_right fun hinput => exists_congr fun existing =>
    and_congr_right fun hrow => and_congr_right fun hholds => ?_
  have hvalid := isReconciliationRecord_settledRecord (h.row hrow).1 hinput hholds
  -- the row is found by the connection of its record
  have hread : requireRecord (written ledger (settledRecord existing input)) input.connectionId =
      some (settledRecord existing input).stored := by
    rw [requireRecord, readWithinTransaction_eq (h.written hvalid), row_written, if_pos]
    · rfl
    · rw [settledRecord, (h.row hrow).2.2, JsString.toWellFormed_toWellFormed]
  simp only [replace_eq hvalid, Option.some.injEq, exists_eq_left', hread]
  simp [eq_comm]

end Hepha.Catalog.Ledger
