import Hepha.Rollout.Events
import Mathlib.Logic.Function.Basic
import Mathlib.Logic.Relation

/-!
# A stopped pilot stays stopped

Any number of clients of one database open stores for one project, append
receipts and events directly, and call the policy; the reading part and the
appending part of a policy call are steps of their own.  A refused call is not a
step.

The store checks the version of an event and the payload of an admission.  It
does not compare the pilot of any other event with the admitted one, it takes
over the state that an event carries, and it keeps receipts of any project.
`Permitted` excludes the events and receipts for which this matters, and in every
run of permitted steps the pilot is under control (`run_controlled`).

## Strategy

* `Sound` is the invariant of the tables: every row reads back, every row is the
  project's own, and the events replay.
* What the policy calls append is decided from a status that may be old, but an
  event is accepted only at the version its call has read, so the events are
  still those the call has decided from (`CallSound`).
-/

namespace Hepha.Rollout

open JsValue (maxSafeInteger)
open Relation (ReflTransGen)

/-! ## Runs -/

/-- The database, the policy calls that have read the status, and the number of
calls that have returned `admitted`. -/
structure World (ι : Type*) where
  tables : Tables
  calls : ι → Option PolicyCall
  admitted : ℕ

inductive Step (ι : Type*)
  | openStore (recordCurrentAudit : Bool) (auditId startedAt completedAt : JsString)
  | appendParityReceipt (raw : ParityReceipt)
  | appendPilotEvent (raw : PilotEventInput)
  | readForAdmission (client : ι) (raw : AdmissionRequest) (uuid : JsString)
  | readForDisablement (client : ι) (raw : DisablementRequest)
  /-- The rest of the client's policy call. -/
  | finishCall (client : ι)

/-- The tables of a store that has been opened. -/
def opened : Bool × Database → Option Tables
  | (true, some t) => some t
  | _ => none

/-- What an accepted operation returns, and the tables after it. -/
def accepted {α : Type} : Except RefusalCode α × Tables → Option (α × Tables)
  | (.ok a, t) => some (a, t)
  | (.error _, _) => none

theorem opened_eq_some {result : Bool × Database} {t : Tables} :
    opened result = some t ↔ result = (true, some t) := by
  rcases result with ⟨_ | _, _ | t'⟩ <;> simp [opened]

theorem accepted_eq_some {α : Type} {result : Except RefusalCode α × Tables} {a : α}
    {t : Tables} : accepted result = some (a, t) ↔ result = (.ok a, t) := by
  rcases result with ⟨_ | b, t'⟩ <;> simp [accepted]

theorem toOption_eq_some {ε α : Type} {result : Except ε α} {a : α} :
    result.toOption = some a ↔ result = .ok a := by
  cases result <;> simp [Except.toOption]

section Runs

variable (sha256 : JsString → HexDigest) (p : JsString) {ι : Type*}

/-- The database has just been created for the project. -/
def World.Created (w : World ι) : Prop :=
  ∃ recordCurrentAudit auditId startedAt completedAt,
    openStore sha256 p recordCurrentAudit auditId startedAt completedAt none =
      (true, some w.tables) ∧ (∀ client, w.calls client = none) ∧ w.admitted = 0

variable [DecidableEq ι]

/-- What an accepted call does, `none` where it is refused. -/
def World.perform (w : World ι) : Step ι → Option (World ι)
  | .openStore recordCurrentAudit auditId startedAt completedAt =>
      (opened (openStore sha256 p recordCurrentAudit auditId startedAt completedAt
        (some w.tables))).map fun t => { w with tables := t }
  | .appendParityReceipt raw =>
      (accepted (appendParityReceipt w.tables raw)).map fun (_, t) => { w with tables := t }
  | .appendPilotEvent raw =>
      (accepted (appendPilotEvent p w.tables raw)).map fun (_, t) => { w with tables := t }
  | .readForAdmission client raw uuid =>
      (evaluateGovernancePilotAdmission p w.tables raw uuid).toOption.map fun event =>
        { w with calls := Function.update w.calls client (some (.admission event)) }
  | .readForDisablement client raw =>
      (disableGovernancePilot p w.tables raw).toOption.map fun event =>
        { w with calls := Function.update w.calls client (some (.disablement event)) }
  | .finishCall client =>
      (w.calls client).bind fun call =>
        (accepted (appendPilotEvent p w.tables call.event)).map fun (saved, t) =>
          { tables := t
            calls := Function.update w.calls client none
            admitted := w.admitted + (call.admits saved).toNat }

variable {p} in
/-- A receipt is one of the project's own.  An event other than an admission
names the admitted pilot, and it carries `ACTIVE` only if it is no stop and there
has been none since the admission. -/
def World.Permitted (w : World ι) : Step ι → Prop
  | .appendParityReceipt raw => raw.projectId = p
  | .appendPilotEvent raw =>
      raw.eventKind ≠ .pilotAdmitted →
        admittedPilot (w.tables.eventsOf p) = some raw.pilotId ∧
          (raw.state = .active → raw.eventKind.isStop = false ∧ ¬Stopped (w.tables.eventsOf p))
  | _ => True

/-- An accepted call that is permitted. -/
def World.Takes (w w' : World ι) : Prop :=
  ∃ step, w.Permitted (p := p) step ∧ w.perform sha256 p step = some w'

/-- The pilot is under control, and the store can be read and opened again. -/
structure World.Controlled (w : World ι) : Prop where
  stopped : ∀ status, w.tables.readStatus p p = .ok status → Stopped (w.tables.eventsOf p) →
    status.mode ≠ .active
  named : NamesPilot (w.tables.eventsOf p)
  admittedOnce : w.admitted ≤ 1
  readable : ∃ status, w.tables.readStatus p p = .ok status
  reopens : ∀ recordCurrentAudit auditId startedAt completedAt, identifier auditId = true →
    (∀ audit ∈ w.tables.migrationAudit, audit.auditId ≠ auditId) → utc startedAt = true →
    utc completedAt = true →
    (openStore sha256 p recordCurrentAudit auditId startedAt completedAt
      (some w.tables)).1 = true

end Runs

/-! ## Sound tables -/

/-- Every row reads back and is the project's own, and the events replay. -/
structure Sound (sha256 : JsString → HexDigest) (p : JsString) (t : Tables) : Prop where
  project : identifier p = true
  migrations : t.migrations = [1]
  audits : ∀ audit ∈ t.migrationAudit, validAudit audit = true ∧ audit.projectId = p ∧
    audit.readBackHash = some (sha256 (readBackText audit.auditId)).1
  auditIds : (t.migrationAudit.map MigrationAudit.auditId).Nodup
  receipts : ∀ receipt ∈ t.parityReceipts, validParity receipt = true ∧ receipt.projectId = p
  receiptIds : (t.parityReceipts.map ParityReceipt.receiptId).Nodup
  events : ∀ e ∈ t.pilotEvents, e.projectId = p
  replays : ∃ s, replay t.pilotEvents = some s

variable {sha256 : JsString → HexDigest} {p : JsString} {t t' : Tables} {ι : Type*}

theorem eventsOf_eq (hproject : ∀ e ∈ t.pilotEvents, e.projectId = p)
    (hnumbered : Numbered t.pilotEvents) : t.eventsOf p = t.pilotEvents := by
  rw [Tables.eventsOf, List.filter_eq_self.mpr (by simpa using hproject)]
  exact hnumbered.sorted.insertionSort_eq

namespace Sound

theorem eventsOf (h : Sound sha256 p t) : t.eventsOf p = t.pilotEvents := by
  obtain ⟨s, hs⟩ := h.replays
  exact eventsOf_eq h.events (replay_eq_some hs).2.1

theorem readParity (h : Sound sha256 p t) {receipt : ParityReceipt}
    (hmem : receipt ∈ t.parityReceipts) : t.readParity receipt.receiptId = some receipt := by
  rw [Tables.readParity, Table.find_of_mem h.receiptIds hmem]
  simp [Option.filter, (h.receipts receipt hmem).1]

theorem readAudit (h : Sound sha256 p t) {audit : MigrationAudit}
    (hmem : audit ∈ t.migrationAudit) : t.readAudit audit.auditId = some audit := by
  rw [Tables.readAudit, Table.find_of_mem h.auditIds hmem]
  simp [Option.filter, (h.audits audit hmem).1]

theorem latestParity (h : Sound sha256 p t) : ∃ parity, t.latestParity p = some parity := by
  unfold Tables.latestParity
  split
  · exact ⟨none, rfl⟩
  · rename_i row hrow
    have hmem : row ∈ t.parityReceipts.filter (·.projectId = p) :=
      mem_newestFirst.1 (List.mem_of_head? hrow)
    obtain ⟨hmem, hproject⟩ := List.mem_filter.mp hmem
    refine ⟨some row, ?_⟩
    rw [h.readParity hmem]
    simp [Option.filter, of_decide_eq_true hproject]

theorem latestMigration (h : Sound sha256 p t) :
    ∃ migration, t.latestMigration p = some migration := by
  unfold Tables.latestMigration
  split
  · exact ⟨none, rfl⟩
  · rename_i row hrow
    have hmem : row ∈ t.migrationAudit.filter (·.projectId = p) :=
      mem_newestFirst.1 (List.mem_of_head? hrow)
    obtain ⟨hmem, hproject⟩ := List.mem_filter.mp hmem
    refine ⟨some row, ?_⟩
    rw [h.readAudit hmem]
    simp [Option.filter, of_decide_eq_true hproject]

/-- **Sound tables have a status**, and it is the replayed one. -/
theorem readStatus (h : Sound sha256 p t) :
    ∃ status, t.readStatus p p = .ok status ∧
      replay t.pilotEvents = some status.toPilotState := by
  obtain ⟨parity, hparity⟩ := h.latestParity
  obtain ⟨migration, hmigration⟩ := h.latestMigration
  obtain ⟨s, hs⟩ := h.replays
  let status : Status :=
    { s with parity := parity.map ParityReceipt.view
             migration := migration.map MigrationAudit.view }
  have hstatus : t.status p = some status := by
    simp [Tables.status, hparity, hmigration, h.eventsOf, hs, status]
  refine ⟨status, ?_, hs⟩
  rw [Tables.readStatus, if_neg (by simp [h.project]), hstatus, Option.elim_some]

theorem readStatus_ok (h : Sound sha256 p t) {status : Status}
    (hstatus : t.readStatus p p = .ok status) :
    replay t.pilotEvents = some status.toPilotState := by
  obtain ⟨status', hstatus', hreplay⟩ := h.readStatus
  rw [hstatus'] at hstatus
  obtain rfl := Except.ok.inj hstatus
  exact hreplay

/-! ### Opening -/

theorem verifies (h : Sound sha256 p t) {audit : MigrationAudit}
    (hmem : audit ∈ t.migrationAudit) : t.verifies sha256 audit.auditId = true := by
  obtain ⟨hvalid, -, hhash⟩ := h.audits audit hmem
  have hidentifier : identifier audit.auditId = true := by
    simp only [validAudit, Bool.and_eq_true] at hvalid
    exact hvalid.1.1.1.1.1.1.1
  simp [Tables.verifies, migrationReadBackHash, validateInstalledSchema, h.migrations,
    hidentifier, h.readAudit hmem, hhash]

theorem evidence (h : Sound sha256 p t) : ∀ row ∈ t.evidence, row.projectId = p ∧
    identifier row.projectId = true ∧ utc row.occurredAt = true ∧
    identifier row.evidenceId = true := by
  intro row hmem
  rcases List.mem_append.mp (mem_newestFirst.1 hmem) with hmem | hmem
  · obtain ⟨receipt, hreceipt, rfl⟩ := List.mem_map.mp hmem
    obtain ⟨hvalid, hproject⟩ := h.receipts receipt hreceipt
    simp only [validParity, Bool.and_eq_true] at hvalid
    exact ⟨hproject, hvalid.1.1.1.1.1.1.1.1.1.2, hvalid.1.1.2, hvalid.1.1.1.1.1.1.1.1.1.1⟩
  · obtain ⟨audit, haudit, rfl⟩ := List.mem_map.mp hmem
    obtain ⟨hvalid, hproject, -⟩ := h.audits audit haudit
    simp only [validAudit, Bool.and_eq_true] at hvalid
    exact ⟨hproject, hvalid.1.1.1.1.1.1.2, hvalid.1.1.2, hvalid.1.1.1.1.1.1.1⟩

/-- No evidence is another project's. -/
theorem not_hasNewerForeignEvidence (h : Sound sha256 p t) :
    hasNewerForeignEvidence t p = some false := by
  have hall : (t.evidence.all fun row => identifier row.projectId && utc row.occurredAt &&
      identifier row.evidenceId) = true := by
    rw [List.all_eq_true]
    intro row hmem
    obtain ⟨-, hid, htime, hevidence⟩ := h.evidence row hmem
    simp [hid, htime, hevidence]
  have hforeign : t.evidence.find? (fun row => decide (row.projectId ≠ p)) = none := by
    rw [List.find?_eq_none]
    intro row hmem
    simp [(h.evidence row hmem).1]
  rw [hasNewerForeignEvidence, if_pos hall, hforeign]

theorem verifyExisting (h : Sound sha256 p t) : verifyExisting sha256 p t = true := by
  have haudits : (t.migrationAudit.all fun row =>
      identifier row.auditId && t.verifies sha256 row.auditId) = true := by
    rw [List.all_eq_true]
    intro audit hmem
    have hvalid := (h.audits audit hmem).1
    simp only [validAudit, Bool.and_eq_true] at hvalid
    simp [h.verifies hmem, hvalid.1.1.1.1.1.1.1]
  simp [Rollout.verifyExisting, validateInstalledSchema, h.migrations, haudits,
    h.not_hasNewerForeignEvidence]

/-- **Sound tables can be opened again.** -/
theorem openStore (h : Sound sha256 p t) (recordCurrentAudit : Bool)
    {auditId startedAt completedAt : JsString} (hid : identifier auditId = true)
    (hfresh : ∀ audit ∈ t.migrationAudit, audit.auditId ≠ auditId)
    (hstarted : utc startedAt = true) (hcompleted : utc completedAt = true) :
    ∃ t', openStore sha256 p recordCurrentAudit auditId startedAt completedAt (some t) =
      (true, some t') := by
  cases recordCurrentAudit with
  | false => exact ⟨t, by simp [Rollout.openStore, h.verifyExisting]⟩
  | true =>
      have hhash : migrationReadBackHash sha256 t auditId =
          some (sha256 (readBackText auditId)).1 := by
        simp [migrationReadBackHash, validateInstalledSchema, h.migrations, hid]
      let audit : MigrationAudit :=
        { auditId, projectId := p, fromVersion := 1, toVersion := 1, outcome := .alreadyCurrent
          startedAt, completedAt, readBackHash := some (sha256 (readBackText auditId)).1
          safeCode := none }
      have hinsert : Table.insert MigrationAudit.auditId t.migrationAudit audit =
          some (t.migrationAudit ++ [audit]) := Table.insert_eq_some.2 ⟨hfresh, rfl⟩
      let t' : Tables := { t with migrationAudit := t.migrationAudit ++ [audit] }
      have hvalid : validAudit audit = true := by
        simp [validAudit, audit, hid, h.project, hstarted, hcompleted, integer, maxSafeInteger,
          hash, (sha256 (readBackText auditId)).2]
      have hread : t'.readAudit auditId = some audit := by
        have hnone : Table.find MigrationAudit.auditId t.migrationAudit auditId = none :=
          Table.find_eq_none_iff.2 hfresh
        simp [Tables.readAudit, t', Table.find_append, hnone, audit, Option.filter, hvalid]
      have hverifies : t'.verifies sha256 auditId = true := by
        have hhash' : migrationReadBackHash sha256 t' auditId =
            some (sha256 (readBackText auditId)).1 := hhash
        simp [Tables.verifies, hhash', hread, audit]
      refine ⟨t', ?_⟩
      simp [Rollout.openStore, recordAudit, h.verifyExisting, hhash, hinsert, audit, t',
        hverifies]

/-- **A newer receipt of another project locks the store.** -/
theorem locked (h : Sound sha256 p t) {receipt : ParityReceipt}
    (hforeign : receipt.projectId ≠ p)
    (hnewer : ∀ row ∈ t.evidence, isLater receipt.comparedAt row.occurredAt = true)
    (recordCurrentAudit : Bool) (auditId startedAt completedAt : JsString) :
    (Rollout.openStore sha256 p recordCurrentAudit auditId startedAt completedAt
      (some { t with parityReceipts := t.parityReceipts ++ [receipt] })).1 = false := by
  let t' : Tables := { t with parityReceipts := t.parityReceipts ++ [receipt] }
  let row : Evidence := ⟨receipt.projectId, receipt.comparedAt, receipt.receiptId⟩
  have hmem : ∀ r, r ∈ t'.evidence ↔ r = row ∨ r ∈ t.evidence := by
    intro r
    simp only [Tables.evidence, mem_newestFirst, List.mem_append, t', List.map_append,
      List.map_singleton, List.mem_singleton, row]
    tauto
  have hnewerForeign : hasNewerForeignEvidence t' p ≠ some false := by
    unfold hasNewerForeignEvidence
    split
    · split
      · rename_i hnone
        have := List.find?_eq_none.mp hnone row ((hmem row).mpr (Or.inl rfl))
        exact absurd hforeign (by simpa using this)
      · simp
      · rename_i newestForeign newestRequested hfindForeign hfindRequested
        have hownForeign := List.find?_some hfindForeign
        have hownRequested := List.find?_some hfindRequested
        have hrequested : newestRequested ∈ t.evidence := by
          rcases (hmem _).mp (List.mem_of_find?_eq_some hfindRequested) with rfl | hold
          · exact absurd (of_decide_eq_true hownRequested) hforeign
          · exact hold
        rcases (hmem _).mp (List.mem_of_find?_eq_some hfindForeign) with rfl | hold
        · simp [row, hnewer newestRequested hrequested]
        · exact absurd (h.evidence _ hold).1 (of_decide_eq_true hownForeign)
    · simp
  have hverify : Rollout.verifyExisting sha256 p t' = false := by
    simp [Rollout.verifyExisting, hnewerForeign]
  change (Rollout.openStore sha256 p recordCurrentAudit auditId startedAt completedAt
    (some t')).1 = false
  simp [Rollout.openStore, hverify]

end Sound

/-! ## What the operations do -/

/-- A receipt is kept behind the others. -/
theorem appendParityReceipt_ok {raw saved : ParityReceipt}
    (h : appendParityReceipt t raw = (.ok saved, t')) :
    validParity raw = true ∧ (∀ receipt ∈ t.parityReceipts, receipt.receiptId ≠ raw.receiptId) ∧
      t' = { t with parityReceipts := t.parityReceipts ++ [raw] } := by
  unfold appendParityReceipt at h
  split at h
  · rename_i hvalid
    rw [Tx.atomically_ok_iff, insertParity] at h
    simp only [Tx.runs_bind, Tx.runs_get, Tx.runs_ofOption, Tx.runs_modify, Tx.runs_require,
      Tx.runs_pure] at h
    obtain ⟨_, _, ⟨rfl, rfl⟩, rows, _, ⟨hinsert, rfl⟩, _, _, rfl, _, _, ⟨rfl, rfl⟩, _, _, ⟨_, rfl⟩,
      _, _, ⟨_, rfl⟩, _, rfl⟩ := h
    obtain ⟨hfresh, rfl⟩ := Table.insert_eq_some.1 hinsert
    exact ⟨hvalid, hfresh, rfl⟩
  · cases h

/-- **An event is kept behind the others, at the version that was read, and the
status is the one with it.** -/
theorem appendPilotEvent_ok {raw : PilotEventInput} {saved : Status}
    (h : appendPilotEvent p t raw = (.ok saved, t')) :
    raw.projectId = p ∧ t' = { t with pilotEvents := t.pilotEvents ++ [raw.row] } ∧
      (∃ current, t.readStatus p p = .ok current ∧ current.eventVersion = raw.expectedVersion) ∧
      t'.readStatus p p = .ok saved := by
  unfold appendPilotEvent at h
  split at h
  · rename_i hvalid
    have hproject : raw.projectId = p := by
      simp only [Bool.and_eq_true, beq_iff_eq] at hvalid
      exact hvalid.2
    rw [Tx.atomically_ok_iff, insertPilotEvent, hproject] at h
    simp only [Tx.runs_bind, Tx.runs_get, Tx.runs_ofOption, Tx.runs_modify, Tx.runs_require,
      Tx.runs_pure, beq_iff_eq] at h
    obtain ⟨_, _, ⟨rfl, rfl⟩, current, _, ⟨hcurrent, rfl⟩, _, _, ⟨hversion, rfl⟩, rows, _,
      ⟨hinsert, rfl⟩, _, _, rfl, _, _, ⟨rfl, rfl⟩, _, _, ⟨hsaved, rfl⟩, _, _, ⟨_, rfl⟩, rfl, rfl⟩ := h
    obtain ⟨-, rfl⟩ := Table.insert_eq_some.1 hinsert
    exact ⟨hproject, rfl, ⟨current, toOption_eq_some.1 hcurrent, hversion⟩,
      toOption_eq_some.1 hsaved⟩
  · cases h

/-- A recorded audit that verifies is a valid one of the project. -/
theorem recordAudit_verified {auditId startedAt completedAt : JsString} {fromVersion : ℕ}
    {outcome : MigrationOutcome}
    (h : recordAudit sha256 p auditId startedAt completedAt fromVersion outcome t = some t')
    (hverifies : t'.verifies sha256 auditId = true) :
    ∃ audit, t' = { t with migrationAudit := t.migrationAudit ++ [audit] } ∧
      (∀ old ∈ t.migrationAudit, old.auditId ≠ audit.auditId) ∧ audit.projectId = p ∧
      validAudit audit = true ∧
      audit.readBackHash = some (sha256 (readBackText audit.auditId)).1 := by
  obtain ⟨readBackHash, hhash, h⟩ := Option.bind_eq_some_iff.mp h
  obtain ⟨rows, hinsert, h⟩ := Option.bind_eq_some_iff.mp h
  obtain ⟨hfresh, rfl⟩ := Table.insert_eq_some.1 hinsert
  obtain rfl := Option.some.inj h
  unfold migrationReadBackHash at hhash
  split at hhash
  · obtain rfl := Option.some.inj hhash
    refine ⟨_, rfl, hfresh, rfl, ?_, rfl⟩
    have hnone : Table.find MigrationAudit.auditId t.migrationAudit auditId = none :=
      Table.find_eq_none_iff.2 hfresh
    by_contra hinvalid
    simp [Tables.verifies, Tables.readAudit, Table.find_append, hnone, Option.filter,
      hinvalid] at hverifies
  · cases hhash

/-- **Opening a database keeps the rows, and adds at most a valid audit.** -/
theorem openStore_true {recordCurrentAudit : Bool} {auditId startedAt completedAt : JsString}
    {database : Database}
    (h : Rollout.openStore sha256 p recordCurrentAudit auditId startedAt completedAt database =
      (true, some t')) :
    database = some t' ∨ ∃ audit, t' = { database.getD .created with
        migrationAudit := (database.getD .created).migrationAudit ++ [audit] } ∧
      (∀ old ∈ (database.getD .created).migrationAudit, old.auditId ≠ audit.auditId) ∧
      audit.projectId = p ∧ validAudit audit = true ∧
      audit.readBackHash = some (sha256 (readBackText audit.auditId)).1 := by
  unfold Rollout.openStore at h
  split at h
  · dsimp only at h
    split at h
    · rename_i hrecord
      obtain ⟨hverifies, htables⟩ := Prod.mk.inj h
      obtain rfl := Option.some.inj htables
      exact Or.inr (recordAudit_verified hrecord hverifies)
    · cases h
  · split at h
    · split at h
      · dsimp only at h
        split at h
        · rename_i hrecord
          obtain ⟨hverifies, htables⟩ := Prod.mk.inj h
          obtain rfl := Option.some.inj htables
          exact Or.inr (recordAudit_verified hrecord hverifies)
        · cases h
      · exact Or.inl (Prod.mk.inj h).2
    · cases h

/-! ## One step -/

namespace Sound

theorem of_audit (h : Sound sha256 p t) {audit : MigrationAudit}
    (hfresh : ∀ old ∈ t.migrationAudit, old.auditId ≠ audit.auditId)
    (hproject : audit.projectId = p)
    (hvalid : validAudit audit = true)
    (hhash : audit.readBackHash = some (sha256 (readBackText audit.auditId)).1) :
    Sound sha256 p { t with migrationAudit := t.migrationAudit ++ [audit] } where
  project := h.project
  migrations := h.migrations
  audits := List.forall_mem_append.mpr
    ⟨h.audits, List.forall_mem_singleton.mpr ⟨hvalid, hproject, hhash⟩⟩
  auditIds := Table.nodup_append h.auditIds hfresh
  receipts := h.receipts
  receiptIds := h.receiptIds
  events := h.events
  replays := h.replays

theorem of_receipt (h : Sound sha256 p t) {receipt : ParityReceipt}
    (hfresh : ∀ old ∈ t.parityReceipts, old.receiptId ≠ receipt.receiptId)
    (hvalid : validParity receipt = true) (hproject : receipt.projectId = p) :
    Sound sha256 p { t with parityReceipts := t.parityReceipts ++ [receipt] } where
  project := h.project
  migrations := h.migrations
  audits := h.audits
  auditIds := h.auditIds
  receipts := List.forall_mem_append.mpr
    ⟨h.receipts, List.forall_mem_singleton.mpr ⟨hvalid, hproject⟩⟩
  receiptIds := Table.nodup_append h.receiptIds hfresh
  events := h.events
  replays := h.replays

/-- A status that was read is the replay of the project's events. -/
theorem replays_of_readStatus {status : Status} (hstatus : t.readStatus p p = .ok status) :
    replay (t.eventsOf p) = some status.toPilotState := by
  unfold Tables.readStatus at hstatus
  split at hstatus
  · cases hstatus
  · cases hread : t.status p with
    | none => simp [hread] at hstatus
    | some value =>
        rw [hread, Option.elim_some] at hstatus
        obtain rfl := Except.ok.inj hstatus
        obtain ⟨_, _, hread⟩ := Option.bind_eq_some_iff.mp hread
        obtain ⟨_, _, hread⟩ := Option.bind_eq_some_iff.mp hread
        obtain ⟨s, hs, hread⟩ := Option.bind_eq_some_iff.mp hread
        obtain rfl := Option.some.inj hread
        exact hs

/-- **An accepted event keeps the tables sound.** -/
theorem of_event (h : Sound sha256 p t) {raw : PilotEventInput} {saved : Status}
    (haccepted : appendPilotEvent p t raw = (.ok saved, t')) :
    Sound sha256 p t' ∧ t'.pilotEvents = t.pilotEvents ++ [raw.row] ∧
      raw.expectedVersion = t.pilotEvents.length := by
  obtain ⟨hproject, rfl, ⟨current, hcurrent, hversion⟩, hsaved⟩ := appendPilotEvent_ok haccepted
  have hcount := (replay_eq_some (h.readStatus_ok hcurrent)).1
  have hnumbered : Numbered (t.pilotEvents ++ [raw.row]) := by
    refine numbered_append (replay_eq_some (h.readStatus_ok hcurrent)).2.1 ?_
    change raw.expectedVersion + 1 = _
    omega
  have hevents : ∀ e ∈ t.pilotEvents ++ [raw.row], e.projectId = p :=
    List.forall_mem_append.mpr ⟨h.events, List.forall_mem_singleton.mpr hproject⟩
  have hreplay := replays_of_readStatus hsaved
  rw [eventsOf_eq hevents hnumbered] at hreplay
  refine ⟨?_, rfl, by omega⟩
  exact
    { project := h.project
      migrations := h.migrations
      audits := h.audits
      auditIds := h.auditIds
      receipts := h.receipts
      receiptIds := h.receiptIds
      events := hevents
      replays := ⟨_, hreplay⟩ }

end Sound

/-- The events name the pilot, and a stopped pilot is not active. -/
structure Orderly (events : List PilotEventRow) : Prop where
  named : NamesPilot events
  stopped : ∀ s, replay events = some s → Stopped events → s.mode ≠ .active

/-- An event that names the admitted pilot keeps the events orderly, if it does
not activate a stopped pilot. -/
theorem Orderly.append {events : List PilotEventRow} {e : PilotEventRow} (h : Orderly events)
    (hpermitted : e.eventKind ≠ .pilotAdmitted → admittedPilot events = some e.pilotId ∧
      (e.state = .active → e.eventKind.isStop = false ∧ ¬Stopped events)) :
    Orderly (events ++ [e]) where
  named := namesPilot_append.2 ⟨h.named, fun hkind => (hpermitted hkind).1⟩
  stopped := by
    intro s hs hstopped
    have hkind : e.eventKind ≠ .pilotAdmitted := by
      rcases stopped_append.1 hstopped with hstop | ⟨hkind, -⟩
      · intro hkind
        simp [hkind, EventKind.isStop] at hstop
      · exact hkind
    rw [mode_of_replay_append hs, if_neg hkind]
    cases hstate : e.state with
    | needsHuman => simp [EventState.mode]
    | active =>
        obtain ⟨hstop, hnot⟩ := (hpermitted hkind).2 hstate
        rcases stopped_append.1 hstopped with hstop' | ⟨-, hevents⟩
        · rw [hstop] at hstop'
          cases hstop'
        · exact absurd hevents hnot

/-- What a policy call is about to append, while the events are those it has
decided from. -/
def CallSound (events : List PilotEventRow) : PolicyCall → Prop
  | .admission event => event.eventKind = .pilotAdmitted ∧ event.expectedVersion = 0
  | .disablement event =>
      event.eventKind = .disabledByOperator ∧ event.state = .needsHuman ∧
        event.expectedVersion ≤ events.length ∧
        (event.expectedVersion = events.length → admittedPilot events = some event.pilotId)

theorem CallSound.append {events : List PilotEventRow} {e : PilotEventRow} {call : PolicyCall}
    (h : CallSound events call) : CallSound (events ++ [e]) call := by
  cases call with
  | admission event => exact h
  | disablement event =>
      obtain ⟨hkind, hstate, hle, -⟩ := h
      refine ⟨hkind, hstate, ?_, ?_⟩
      · rw [List.length_append]
        omega
      · rw [List.length_append, List.length_singleton]
        omega

/-- The invariant of the runs. -/
structure World.Safe (sha256 : JsString → HexDigest) (p : JsString) (w : World ι) : Prop where
  sound : Sound sha256 p w.tables
  orderly : Orderly w.tables.pilotEvents
  calls : ∀ client call, w.calls client = some call → CallSound w.tables.pilotEvents call
  admittedOnce : w.admitted ≤ 1
  admittedNone : w.tables.pilotEvents = [] → w.admitted = 0

theorem World.Safe.controlled {w : World ι} (h : w.Safe sha256 p) : w.Controlled sha256 p where
  stopped := by
    rw [h.sound.eventsOf]
    exact fun status hstatus => h.orderly.stopped _ (h.sound.readStatus_ok hstatus)
  named := by
    rw [h.sound.eventsOf]
    exact h.orderly.named
  admittedOnce := h.admittedOnce
  readable := by
    obtain ⟨status, hstatus, -⟩ := h.sound.readStatus
    exact ⟨status, hstatus⟩
  reopens := by
    intro recordCurrentAudit auditId startedAt completedAt hid hfresh hstarted hcompleted
    obtain ⟨t', ht'⟩ := h.sound.openStore recordCurrentAudit hid hfresh hstarted hcompleted
    rw [ht']

theorem World.Created.safe {w : World ι} (h : w.Created sha256 p) : w.Safe sha256 p := by
  obtain ⟨_, auditId, _, _, hopen, hcalls, hadmitted⟩ := h
  rcases openStore_true hopen with hnone | ⟨audit, htables, -, hproject, hvalid, hhash⟩
  · cases hnone
  have hproject' : identifier p = true := by
    simp only [validAudit, Bool.and_eq_true] at hvalid
    exact hproject ▸ hvalid.1.1.1.1.1.1.2
  have hcreated : Sound sha256 p Tables.created :=
    { project := hproject', migrations := rfl, audits := by simp [Tables.created]
      auditIds := by simp [Tables.created], receipts := by simp [Tables.created]
      receiptIds := by simp [Tables.created], events := by simp [Tables.created]
      replays := ⟨.initial, rfl⟩ }
  have hsound := hcreated.of_audit (by simp [Tables.created]) hproject hvalid hhash
  have hevents : w.tables.pilotEvents = [] := by
    rw [htables]
    rfl
  refine ⟨?_, ?_, ?_, by omega, fun _ => hadmitted⟩
  · rw [htables]
    exact hsound
  · rw [hevents]
    refine ⟨fun before e after heq => by simp at heq, ?_⟩
    rintro s - ⟨before, stop, after, heq, -⟩
    simp at heq
  · intro client call hcall
    rw [hcalls client] at hcall
    cases hcall

/-- The world after an accepted event. -/
theorem World.Safe.append {w : World ι} (h : w.Safe sha256 p) {raw : PilotEventInput}
    {saved : Status} (haccepted : appendPilotEvent p w.tables raw = (.ok saved, t'))
    (hpermitted : raw.eventKind ≠ .pilotAdmitted →
      admittedPilot w.tables.pilotEvents = some raw.pilotId ∧
        (raw.state = .active → raw.eventKind.isStop = false ∧ ¬Stopped w.tables.pilotEvents))
    {calls : ι → Option PolicyCall} {admitted : ℕ}
    (hcalls : ∀ client call, calls client = some call → w.calls client = some call)
    (hadmitted : admitted ≤ 1) : World.Safe sha256 p ⟨t', calls, admitted⟩ := by
  obtain ⟨hsound, hevents, -⟩ := h.sound.of_event haccepted
  refine ⟨hsound, ?_, ?_, hadmitted, ?_⟩
  · change Orderly t'.pilotEvents
    rw [hevents]
    exact h.orderly.append hpermitted
  · intro client call hcall
    change CallSound t'.pilotEvents call
    rw [hevents]
    exact (h.calls client call (hcalls client call hcall)).append
  · intro hnil
    change t'.pilotEvents = [] at hnil
    rw [hevents] at hnil
    simp at hnil

section Steps

variable [DecidableEq ι]

/-- What a call is about to append is permitted when it is accepted. -/
theorem CallSound.permitted {events : List PilotEventRow} {call : PolicyCall}
    (h : CallSound events call) (hversion : call.event.expectedVersion = events.length) :
    call.event.eventKind ≠ .pilotAdmitted → admittedPilot events = some call.event.pilotId ∧
      (call.event.state = .active → call.event.eventKind.isStop = false ∧ ¬Stopped events) := by
  intro hkind
  cases call with
  | admission event => exact absurd h.1 hkind
  | disablement event =>
      obtain ⟨-, hstate, -, hpilot⟩ := h
      refine ⟨hpilot hversion, ?_⟩
      change event.state = .active → _
      simp [hstate]

/-- A policy call that has read the status is sound. -/
theorem World.Safe.update {w : World ι} (h : w.Safe sha256 p) (client : ι) {call : PolicyCall}
    (hcall : CallSound w.tables.pilotEvents call) :
    World.Safe sha256 p { w with calls := Function.update w.calls client (some call) } := by
  refine ⟨h.sound, h.orderly, ?_, h.admittedOnce, h.admittedNone⟩
  intro other call' hcall'
  change Function.update w.calls client (some call) other = some call' at hcall'
  by_cases heq : other = client
  · subst heq
    rw [Function.update_self] at hcall'
    obtain rfl := Option.some.inj hcall'
    exact hcall
  · rw [Function.update_of_ne heq] at hcall'
    exact h.calls other call' hcall'

/-- **Every permitted step keeps the pilot under control.** -/
theorem World.Safe.takes {w w' : World ι} (h : w.Safe sha256 p) (htakes : w.Takes sha256 p w') :
    w'.Safe sha256 p := by
  obtain ⟨step, hpermitted, hperform⟩ := htakes
  have hread : ∀ {projectId : JsString} {current : Status},
      w.tables.readStatus p projectId = .ok current → projectId = p := by
    intro projectId current hcurrent
    unfold Tables.readStatus at hcurrent
    split at hcurrent
    · cases hcurrent
    · rename_i hproject
      have hboth : identifier projectId = true ∧ projectId = p := by simpa using hproject
      exact hboth.2
  cases step with
  | openStore recordCurrentAudit auditId startedAt completedAt =>
      obtain ⟨t, hopen, rfl⟩ := Option.map_eq_some_iff.mp hperform
      rcases openStore_true (opened_eq_some.1 hopen) with
        hsame | ⟨audit, htables, hfresh, hproject, hvalid, hhash⟩
      · obtain rfl := Option.some.inj hsame
        exact h
      · simp only [Option.getD_some] at htables hfresh
        subst htables
        exact ⟨h.sound.of_audit hfresh hproject hvalid hhash, h.orderly, h.calls,
          h.admittedOnce, h.admittedNone⟩
  | appendParityReceipt raw =>
      obtain ⟨⟨saved, t⟩, haccepted, rfl⟩ := Option.map_eq_some_iff.mp hperform
      obtain ⟨hvalid, hfresh, rfl⟩ := appendParityReceipt_ok (accepted_eq_some.1 haccepted)
      exact ⟨h.sound.of_receipt hfresh hvalid hpermitted, h.orderly, h.calls, h.admittedOnce,
        h.admittedNone⟩
  | appendPilotEvent raw =>
      obtain ⟨⟨saved, t⟩, haccepted, rfl⟩ := Option.map_eq_some_iff.mp hperform
      simp only [World.Permitted, h.sound.eventsOf] at hpermitted
      exact h.append (accepted_eq_some.1 haccepted) hpermitted (fun _ _ hcall => hcall)
        h.admittedOnce
  | readForAdmission client raw uuid =>
      obtain ⟨event, hevent, rfl⟩ := Option.map_eq_some_iff.mp hperform
      obtain ⟨rfl, current, hcurrent, hversion, hpilot⟩ :=
        evaluateGovernancePilotAdmission_ok (toOption_eq_some.1 hevent)
      rw [hread hcurrent] at hcurrent
      have hreplay := replay_eq_some (h.sound.readStatus_ok hcurrent)
      have hcount := hreplay.1
      rw [hreplay.2.2.2.mp hpilot, List.length_nil] at hcount
      exact h.update client ⟨rfl, hversion.symm.trans hcount⟩
  | readForDisablement client raw =>
      obtain ⟨event, hevent, rfl⟩ := Option.map_eq_some_iff.mp hperform
      obtain ⟨rfl, current, hcurrent, hversion, hpilot⟩ :=
        disableGovernancePilot_ok (toOption_eq_some.1 hevent)
      rw [hread hcurrent] at hcurrent
      have hreplay := replay_eq_some (h.sound.readStatus_ok hcurrent)
      have hcount := hreplay.1
      refine h.update client ⟨rfl, rfl, ?_, fun _ => ?_⟩
      · change raw.expectedVersion ≤ _
        omega
      · rw [← hreplay.2.2.1]
        exact hpilot
  | finishCall client =>
      obtain ⟨call, hcall, hperform⟩ := Option.bind_eq_some_iff.mp hperform
      obtain ⟨⟨saved, t⟩, haccepted, rfl⟩ := Option.map_eq_some_iff.mp hperform
      rw [accepted_eq_some] at haccepted
      have hsound := h.calls client call hcall
      obtain ⟨-, -, hversion⟩ := h.sound.of_event haccepted
      refine h.append haccepted (hsound.permitted hversion) ?_ ?_
      · intro other call' hcall'
        by_cases heq : other = client
        · subst heq
          simp at hcall'
        · rwa [Function.update_of_ne heq] at hcall'
      · cases call with
        | disablement event => simpa [PolicyCall.admits] using h.admittedOnce
        | admission event =>
            -- an admission is decided at version 0, when nothing has been admitted
            have hnil : w.tables.pilotEvents = [] :=
              List.length_eq_zero_iff.mp (hversion.symm.trans hsound.2)
            rw [h.admittedNone hnil, Nat.zero_add]
            exact Bool.toNat_le _

/-- **In every run of permitted steps the pilot stays under control**: a stopped
pilot is not active again without a new admission, the events name the admitted
pilot, the policy admits once, and the store can be read and opened. -/
theorem run_controlled {start w : World ι} (hcreated : start.Created sha256 p)
    (hrun : ReflTransGen (World.Takes sha256 p) start w) : w.Controlled sha256 p := by
  suffices hsafe : w.Safe sha256 p from hsafe.controlled
  induction hrun with
  | refl => exact hcreated.safe
  | tail _ htakes ih => exact ih.takes htakes

/-! ## What permission excludes -/

theorem perform_appendPilotEvent {w : World ι} {raw : PilotEventInput}
    (haccepted : (accepted (appendPilotEvent p w.tables raw)).isSome = true) :
    w.perform sha256 p (.appendPilotEvent raw) = some { w with
      tables := { w.tables with pilotEvents := w.tables.pilotEvents ++ [raw.row] } } := by
  obtain ⟨⟨saved, t⟩, haccepted⟩ := Option.isSome_iff_exists.mp haccepted
  obtain ⟨-, rfl, -⟩ := appendPilotEvent_ok (accepted_eq_some.1 haccepted)
  rw [World.perform, haccepted, Option.map_some]

/-- **The pilot stays under control exactly if the event is permitted.** -/
theorem World.Safe.controlled_iff {w w' : World ι} (h : w.Safe sha256 p) {raw : PilotEventInput}
    (hperform : w.perform sha256 p (.appendPilotEvent raw) = some w') :
    w'.Controlled sha256 p ↔ w.Permitted (p := p) (.appendPilotEvent raw) := by
  refine ⟨fun hcontrolled hkind => ?_, fun hpermitted =>
    (h.takes ⟨_, hpermitted, hperform⟩).controlled⟩
  obtain ⟨⟨saved, t⟩, haccepted, rfl⟩ := Option.map_eq_some_iff.mp hperform
  obtain ⟨hsound, hevents, -⟩ := h.sound.of_event (accepted_eq_some.1 haccepted)
  have hnamed := hcontrolled.named
  have hstopped := hcontrolled.stopped
  simp only [hsound.eventsOf, hevents] at hnamed hstopped
  rw [h.sound.eventsOf]
  refine ⟨(namesPilot_append.1 hnamed).2 hkind, fun hstate => ?_⟩
  obtain ⟨status, hstatus, hreplay⟩ := hsound.readStatus
  rw [hevents] at hreplay
  have hmode := mode_of_replay_append hreplay
  rw [if_neg (show raw.row.eventKind ≠ .pilotAdmitted from hkind)] at hmode
  change status.mode = raw.state.mode at hmode
  rw [hstate] at hmode
  have hnot : ¬Stopped (w.tables.pilotEvents ++ [raw.row]) :=
    fun hstop => hstopped status hstatus hstop hmode
  rw [stopped_append, not_or] at hnot
  exact ⟨Bool.eq_false_iff.mpr hnot.1, fun hstop => hnot.2 ⟨hkind, hstop⟩⟩

end Steps

/-! ## A run of one client -/

def sampleHash : JsString → HexDigest :=
  fun _ => ⟨List.replicate 64 0x61, by decide⟩

def sampleTime : JsString := js "2026-07-20T16:00:00.000Z"

/-- The database of `project-one`, just created. -/
def createdWorld : World Unit :=
  { tables :=
      { Tables.created with
        migrationAudit :=
          [{ auditId := js "migration-one", projectId := js "project-one", fromVersion := 0
             toVersion := 1, outcome := .applied, startedAt := sampleTime
             completedAt := sampleTime, readBackHash := some (List.replicate 64 0x61)
             safeCode := none }] }
    calls := fun _ => none
    admitted := 0 }

def admission : PilotEventInput :=
  { projectId := js "project-one", expectedVersion := 0, pilotId := js "pilot-one"
    eventKind := .pilotAdmitted, state := .active
    payload := .approval
      { approvalReceiptId := js "pilot-approval-one", pilotId := js "pilot-one"
        featureId := js "feat-one", phaseContractId := js "contract-one"
        taskId := js "task-one", contractVersion := 1
        pilotConfigHash := List.replicate 64 0x61, actorId := js "steward-one"
        reason := js "An exact low-risk pilot.", parityReceiptId := js "parity-one"
        migrationAuditId := js "migration-one", approvedAt := sampleTime
        expiresAt := js "2026-07-20T17:00:00.000Z", expectedVersion := 0
        resultingVersion := 1 }
    occurredAt := sampleTime }

def disablement : PilotEventInput :=
  { projectId := js "project-one", expectedVersion := 1, pilotId := js "pilot-one"
    eventKind := .disabledByOperator, state := .needsHuman
    payload := .outcome (js "DISABLED_BY_OPERATOR"), occurredAt := sampleTime }

/-- An event that activates the disabled pilot. -/
def reactivation : PilotEventInput :=
  { disablement with
    expectedVersion := 2
    eventKind := .dispatchAllowed
    state := .active
    payload := .outcome (js "DISPATCH_ALLOWED") }

/-- The world with one more event. -/
def World.push (w : World ι) (raw : PilotEventInput) : World ι :=
  { w with tables := { w.tables with pilotEvents := w.tables.pilotEvents ++ [raw.row] } }

theorem createdWorld_created : createdWorld.Created sampleHash (js "project-one") :=
  ⟨true, js "migration-one", sampleTime, sampleTime, by decide, fun _ => rfl, rfl⟩

theorem run_controlled_disabled :
    ((createdWorld.push admission).push disablement).Controlled sampleHash (js "project-one") := by
  refine run_controlled createdWorld_created (.tail (.tail .refl ⟨.appendPilotEvent admission,
    ?_, perform_appendPilotEvent (by decide)⟩) ⟨.appendPilotEvent disablement, ?_,
    perform_appendPilotEvent (by decide)⟩)
  · exact fun hkind => absurd rfl hkind
  · exact fun _ => ⟨by decide, nofun⟩

/-- **A run of accepted calls activates a disabled pilot.** -/
theorem disabled_pilot_reactivated :
    ¬∀ start w : World Unit, start.Created sampleHash (js "project-one") →
      ReflTransGen (fun w w' => ∃ step, w.perform sampleHash (js "project-one") step = some w')
        start w →
      w.Controlled sampleHash (js "project-one") := by
  intro hall
  have hcontrolled := hall createdWorld
    (((createdWorld.push admission).push disablement).push reactivation) createdWorld_created
    (.tail (.tail (.tail .refl
      ⟨.appendPilotEvent admission, perform_appendPilotEvent (by decide)⟩)
      ⟨.appendPilotEvent disablement, perform_appendPilotEvent (by decide)⟩)
      ⟨.appendPilotEvent reactivation, perform_appendPilotEvent (by decide)⟩)
  obtain ⟨status, hstatus⟩ := hcontrolled.readable
  refine hcontrolled.stopped status hstatus ?_ ?_
  · exact ⟨[admission.row], disablement.row, [reactivation.row], by decide, rfl,
      by decide⟩
  · have hreplay := Sound.replays_of_readStatus hstatus
    have hevents : replay ([admission.row, disablement.row] ++ [reactivation.row]) =
        some status.toPilotState := by
      rw [← hreplay]
      exact congrArg replay (by decide)
    exact mode_of_replay_append hevents

end Hepha.Rollout
