import Hepha.Connections.Service

/-!
# The life of one connection

The two stores are seen one connection at a time.  The `Slot` of a connection
is its record, as far as secrets go, and whether its secret is revoked.

* A continuation acts on the slot of its own connection only (`slot_finish`).
* `settled` is the slot that is left when the calls in flight have finished.
  Resuming a call does not change it; beginning a call applies one more
  continuation to it and changes one row of the vault.
* `Coherent` relates a settled slot to the row of the vault.  `rotate_iff`,
  `restore_iff` and `create_iff` say when a call keeps it.
-/

namespace Hepha.Connections

/-! ## One connection -/

/-- What a record says about its secret. -/
structure SecretState where
  kind : ConnectionKind
  lifecycleState : ConnectionLifecycleState
  secretRef : Option JsString
  secretVersion : Option ℕ

def ConnectionRecord.secretState (c : ConnectionRecord) : SecretState :=
  ⟨c.kind, c.lifecycleState, c.secretRef, c.secretVersion⟩

/-- What an outcome says about the secret of a connection: a successful
revocation that it is revoked, a successful creation that it is not. -/
def Outcome.revokes (id : ConnectionId) (o : Outcome) : Option Bool :=
  if o.connectionId = id then
    match o.operation, o.result with
    | .revokeSecret, .success _ => some true
    | .createSecret, .success _ => some false
    | _, _ => none
  else none

/-- Whether a `revokeSecret` of the connection succeeded and no `createSecret`
of it since. -/
def revokedSince (id : ConnectionId) : List Outcome → Bool
  | [] => false
  | o :: earlier => (o.revokes id).getD (revokedSince id earlier)

structure Slot where
  record : Option SecretState
  revoked : Bool

def System.slot (s : System) (id : ConnectionId) : Slot :=
  ⟨(s.store.getConnection id).map ConnectionRecord.secretState, revokedSince id s.outcomes⟩

/-- What a continuation does to the slot of its connection. -/
def Continuation.effect (slot : Slot) : Continuation → Slot
  | .insertConnection record =>
      if slot.record.isSome then slot else { slot with record := some record.secretState }
  | .storeSecret restoringRevokedSecret reference =>
      match slot.record with
      | none => slot
      | some r =>
          if restoringRevokedSecret then
            if r.lifecycleState = .revoked then
              ⟨some ⟨r.kind, .active, some reference.refId, some reference.version⟩, false⟩
            else slot
          else ⟨some { r with
            secretRef := some reference.refId, secretVersion := some reference.version }, false⟩
  | .storeRotation reference =>
      { slot with
        record := slot.record.map fun r =>
          { r with secretRef := some reference.refId, secretVersion := some reference.version } }
  | .storeRevocation =>
      match slot.record with
      | none => slot
      | some r => ⟨some { r with lifecycleState := .revoked }, true⟩
  | .deleteRecords => { slot with record := none }
  | .rejected _ => slot

/-- What a call in flight will do to the slot of a connection. -/
def Pending.effect (id : ConnectionId) (slot : Slot) (p : Pending) : Slot :=
  if p.connectionId = id then p.continuation.effect slot else slot

/-- The slot of a connection when the calls in flight have finished. -/
def System.settled (s : System) (id : ConnectionId) : Slot :=
  s.inFlight.foldl (Pending.effect id) (s.slot id)

/-! ## Continuations act on one slot -/

/-- The operation of a call and its continuation belong together. -/
def Pending.Matched (p : Pending) : Prop :=
  match p.continuation with
  | .insertConnection record =>
      p.operation = .createConnection ∧ record.connectionId = p.connectionId
  | .storeSecret _ reference =>
      p.operation = .createSecret ∧ reference.refId = vaultRefId p.connectionId
  | .storeRotation reference =>
      p.operation = .rotateSecret ∧ reference.refId = vaultRefId p.connectionId
  | .storeRevocation => p.operation = .revokeSecret
  | .deleteRecords => p.operation = .deleteConnection
  | .rejected _ => True

theorem revokedSince_failure {id : ConnectionId} {operation : Operation}
    {connectionId : ConnectionId} {failure : Failure} {earlier : List Outcome} :
    revokedSince id (⟨operation, connectionId, .failure failure⟩ :: earlier) =
      revokedSince id earlier := by
  cases operation <;> simp [revokedSince, Outcome.revokes]

theorem revokedSince_of_ne {id : ConnectionId} {operation : Operation}
    {connectionId : ConnectionId} {result : Result} {earlier : List Outcome}
    (h : connectionId ≠ id) :
    revokedSince id (⟨operation, connectionId, result⟩ :: earlier) = revokedSince id earlier := by
  simp [revokedSince, Outcome.revokes, h]

section Finish

variable {store : ConnectionStore} {id connectionId : ConnectionId} {now : JsString}

/-- The end of a secret operation whose record is not stored any more. -/
theorem finishSecret_none {next : ConnectionStore} {answer : Answer}
    (h : next.getConnection connectionId = none) :
    finishSecret store connectionId (.ok next) answer =
      (.failure ⟨js "FOREIGN KEY constraint failed", .vaultUnavailable⟩, next) := by
  simp [finishSecret, ConnectionStore.insertDiagnostic, h]

theorem finishSecret_some {next : ConnectionStore} {answer : Answer} {c : ConnectionRecord}
    (h : next.getConnection connectionId = some c) :
    finishSecret store connectionId (.ok next) answer = (.success answer, next) := by
  simp [finishSecret, ConnectionStore.insertDiagnostic, h]

end Finish

/-- What `done`, the result and the store of a finished call, leaves of a slot. -/
def slotAfter (id : ConnectionId) (outcomes : List Outcome) (operation : Operation)
    (connectionId : ConnectionId) (done : Result × ConnectionStore) : Slot :=
  ⟨(done.2.getConnection id).map ConnectionRecord.secretState,
    revokedSince id (⟨operation, connectionId, done.1⟩ :: outcomes)⟩

namespace System

variable {s : System} {id : ConnectionId} {now : JsString} {p : Pending}

theorem slot_finish_eq : (s.finish now p).slot id =
    slotAfter id s.outcomes p.operation p.connectionId
      (p.continuation.run s.store p.connectionId now) := rfl

theorem slotAfter_finishSecret {operation : Operation} {connectionId : ConnectionId}
    {f : ConnectionRecord → ConnectionRecord} {answer : Answer}
    (hf : ∀ c, (f c).connectionId = c.connectionId) :
    slotAfter id s.outcomes operation connectionId
      (finishSecret s.store connectionId (.ok (s.store.updateConnection connectionId f)) answer) =
      if connectionId = id then
        match s.store.getConnection id with
        | none => s.slot id
        | some c => ⟨some (f c).secretState,
            revokedSince id (⟨operation, id, .success answer⟩ :: s.outcomes)⟩
      else s.slot id := by
  have hget : ∀ i, (s.store.updateConnection connectionId f).getConnection i =
      if i = connectionId then (s.store.getConnection i).map f else s.store.getConnection i :=
    ConnectionStore.getConnection_updateConnection hf
  have hself := hget connectionId
  rw [if_pos rfl] at hself
  cases hrow : s.store.getConnection connectionId with
  | none =>
      rw [hrow, Option.map_none] at hself
      rw [finishSecret_none hself, slotAfter, revokedSince_failure, hget id]
      by_cases hid : connectionId = id
      · subst hid
        simp [slot, hrow]
      · simp [slot, hid, Ne.symm hid]
  | some c =>
      rw [hrow, Option.map_some] at hself
      rw [finishSecret_some hself, slotAfter, hget id]
      by_cases hid : connectionId = id
      · subst hid
        simp [hrow]
      · simp [slot, hid, Ne.symm hid, revokedSince_of_ne hid]

/-- **A finished call acts on the slot of its connection only, as its
continuation says.** -/
theorem slot_finish (hmatched : p.Matched) :
    (s.finish now p).slot id = p.effect id (s.slot id) := by
  obtain ⟨operation, connectionId, continuation⟩ := p
  rw [slot_finish_eq]
  cases continuation with
  | insertConnection record =>
      obtain ⟨hop, hid⟩ := hmatched
      dsimp only at hop hid
      subst hop hid
      simp only [Continuation.run, Pending.effect, Continuation.effect]
      cases hrow : s.store.getConnection record.connectionId with
      | none =>
          obtain ⟨next, hinsert, hget⟩ := ConnectionStore.getConnection_insert hrow
          rw [hinsert]
          by_cases hid : record.connectionId = id
          · subst hid
            simp [slotAfter, hget, slot, hrow, revokedSince, Outcome.revokes]
          · simp [slotAfter, hget, slot, hid, Ne.symm hid, revokedSince_of_ne]
      | some c =>
          have herror : ∃ message, s.store.insertConnection record = .error message := by
            simp [ConnectionStore.insertConnection, hrow]
          obtain ⟨message, herror⟩ := herror
          rw [herror]
          by_cases hid : record.connectionId = id
          · subst hid
            simp [slotAfter, slot, hrow, revokedSince, Outcome.revokes]
          · simp [slotAfter, slot, hid, revokedSince_of_ne]
  | storeSecret restoringRevokedSecret reference =>
      obtain ⟨hop, -⟩ := hmatched
      dsimp only at hop
      subst hop
      simp only [Continuation.run, Pending.effect, Continuation.effect]
      cases restoringRevokedSecret with
      | false =>
          simp only [Bool.false_eq_true, if_false]
          rw [ConnectionStore.updateSecretRef, slotAfter_finishSecret]
          · cases hrow : s.store.getConnection id <;>
              simp [slot, hrow, revokedSince, Outcome.revokes, ConnectionRecord.secretState]
          · exact fun _ => rfl
      | true =>
          simp only [if_true, ConnectionStore.replaceSecretAndReactivate]
          cases hrow : s.store.getConnection connectionId with
          | none =>
              by_cases hid : connectionId = id
              · subst hid
                simp [finishSecret, slotAfter, revokedSince_failure, slot, hrow]
              · simp [finishSecret, slotAfter, revokedSince_failure, slot, hid]
          | some c =>
              by_cases hrevoked : c.lifecycleState = .revoked
              · simp only [hrevoked, if_true]
                rw [slotAfter_finishSecret]
                · by_cases hid : connectionId = id
                  · subst hid
                    simp [slot, hrow, hrevoked, revokedSince, Outcome.revokes,
                      ConnectionRecord.secretState]
                  · simp [hid]
                · exact fun _ => rfl
              · simp only [hrevoked, if_false, finishSecret, slotAfter, revokedSince_failure]
                by_cases hid : connectionId = id
                · subst hid
                  simp [slot, hrow, hrevoked, ConnectionRecord.secretState]
                · simp [slot, hid]
  | storeRotation reference =>
      obtain ⟨hop, -⟩ := hmatched
      dsimp only at hop
      subst hop
      simp only [Continuation.run, Pending.effect, Continuation.effect]
      rw [ConnectionStore.updateSecretRef, slotAfter_finishSecret]
      · cases hrow : s.store.getConnection id <;>
          simp [slot, hrow, revokedSince, Outcome.revokes, ConnectionRecord.secretState]
      · exact fun _ => rfl
  | storeRevocation =>
      change operation = .revokeSecret at hmatched
      subst hmatched
      simp only [Continuation.run, Pending.effect, Continuation.effect]
      rw [ConnectionStore.updateLifecycleState, slotAfter_finishSecret]
      · cases hrow : s.store.getConnection id <;>
          simp [slot, hrow, revokedSince, Outcome.revokes, ConnectionRecord.secretState]
      · exact fun _ => rfl
  | deleteRecords =>
      change operation = .deleteConnection at hmatched
      subst hmatched
      simp only [Continuation.run, Pending.effect, Continuation.effect, slotAfter,
        ConnectionStore.getConnection_delete, slot]
      by_cases hid : connectionId = id
      · subst hid
        simp [revokedSince, Outcome.revokes]
      · simp [hid, Ne.symm hid, revokedSince_of_ne]
  | rejected message =>
      simp [Continuation.run, Pending.effect, Continuation.effect, slotAfter, slot,
        revokedSince_failure]

end System

/-! ## Settled slots and rows of the vault -/

/-- A record agrees with the row of its secret. -/
structure Agrees (row : Option SecretRow) (r : SecretState) (revoked : Bool) : Prop where
  row : ∃ entry, row = some entry ∧ r.secretVersion = some entry.version ∧
    (entry.status = .active ↔ r.lifecycleState = .active)
  notDeleted : r.lifecycleState ≠ .deleted
  revoked : revoked = true ↔ r.lifecycleState = .revoked

/-- The slot of a connection agrees with the row of its secret, and a revoked
secret is not active. -/
structure Coherent (row : Option SecretRow) (slot : Slot) : Prop where
  agrees : ∀ r, slot.record = some r → r.kind ≠ .piSession → Agrees row r slot.revoked
  silent : slot.revoked = true → ∀ entry, row = some entry → entry.status = .revoked

namespace Coherent

variable {row : Option SecretRow} {slot : Slot} {entry : SecretRow} {reference : SecretReference}

theorem of_none (hr : slot.record = none)
    (silent : slot.revoked = true → ∀ entry, row = some entry → entry.status = .revoked) :
    Coherent row slot where
  agrees := by
    intro r h
    rw [hr] at h
    cases h
  silent := silent

/-- The secret of a slot is not a revoked one when its row is active. -/
theorem revoked_eq_false (h : Coherent (some entry) slot) (hactive : entry.status = .active) :
    slot.revoked = false := by
  cases hrevoked : slot.revoked with
  | false => rfl
  | true =>
      have := h.silent hrevoked entry rfl
      rw [hactive] at this
      cases this

/-- A record that is not revoked is active. -/
theorem active_of_not_revoked (h : Coherent row slot) (hrevoked : slot.revoked = false)
    {r : SecretState} (hr : slot.record = some r) (hkind : r.kind ≠ .piSession) :
    r.lifecycleState = .active := by
  have hagrees := h.agrees r hr hkind
  have hnot : r.lifecycleState ≠ .revoked := fun h => by
    have := hagrees.revoked.mpr h
    rw [hrevoked] at this
    cases this
  cases hstate : r.lifecycleState with
  | active => rfl
  | revoked => exact absurd hstate hnot
  | deleted => exact absurd hstate hagrees.notDeleted

/-- **A rotation keeps the stores in step if and only if the secret is not a
revoked one.** -/
theorem rotate_iff (h : Coherent row slot)
    (hkind : ∀ r, slot.record = some r → r.kind ≠ .piSession)
    (hactive : entry.status = .active) (hversion : entry.version = reference.version) :
    Coherent (some entry) ((Continuation.storeRotation reference).effect slot) ↔
      slot.revoked = false := by
  constructor
  · intro hafter
    exact hafter.revoked_eq_false hactive
  · intro hrevoked
    refine ⟨?_, fun h => ?_⟩
    · intro r' hr'
      obtain ⟨r, hr, rfl⟩ := Option.map_eq_some_iff.mp hr'
      have hstate := h.active_of_not_revoked hrevoked hr (hkind r hr)
      intro _
      refine ⟨⟨entry, rfl, by simp [hversion], by simp [hactive, hstate]⟩, by simp [hstate], ?_⟩
      simp [Continuation.effect, hrevoked, hstate]
    · rw [show ((Continuation.storeRotation reference).effect slot).revoked = slot.revoked from rfl,
        hrevoked] at h
      cases h

/-- **A creation that restores a revoked secret keeps the stores in step if and
only if the connection is then stored and revoked, or neither.** -/
theorem restore_iff (h : Coherent row slot)
    (hkind : ∀ r, slot.record = some r → r.kind ≠ .piSession)
    (hactive : entry.status = .active) (hversion : entry.version = reference.version)
    (hnext : reference.version = (row.map SecretRow.version).getD 0 + 1) :
    Coherent (some entry) ((Continuation.storeSecret true reference).effect slot) ↔
      slot.record.isSome = slot.revoked := by
  cases hr : slot.record with
  | none =>
      simp only [Continuation.effect, hr, Option.isSome_none]
      constructor
      · intro hafter
        rw [hafter.revoked_eq_false hactive]
      · intro hrevoked
        refine of_none hr fun h => ?_
        rw [← hrevoked] at h
        cases h
  | some r =>
      have hagrees := h.agrees r hr (hkind r hr)
      simp only [Continuation.effect, hr, if_true, Option.isSome_some]
      by_cases hstate : r.lifecycleState = .revoked
      · rw [if_pos hstate, hagrees.revoked.mpr hstate]
        refine iff_of_true ⟨?_, fun h => absurd h Bool.false_ne_true⟩ rfl
        rintro r' hr' -
        cases hr'
        exact ⟨⟨entry, rfl, by simp [hversion], by simp [hactive]⟩, by simp, by simp⟩
      · rw [if_neg hstate]
        have hrevoked : slot.revoked = false := by
          cases hrevoked : slot.revoked with
          | false => rfl
          | true => exact absurd (hagrees.revoked.mp hrevoked) hstate
        rw [hrevoked]
        refine iff_of_false (fun hafter => ?_) (by simp)
        -- the record keeps its version and the row has the next one
        obtain ⟨before, hrow, hbefore, -⟩ := hagrees.row
        obtain ⟨after, hentry, hafter, -⟩ := (hafter.agrees r hr (hkind r hr)).row
        cases hentry
        rw [hbefore, hversion, hnext, hrow] at hafter
        simp at hafter

/-- **A creation of a secret that the vault does not have keeps the stores in
step if and only if the secret is not a revoked one.** -/
theorem create_iff (h : Coherent none slot)
    (hkind : ∀ r, slot.record = some r → r.kind ≠ .piSession)
    (hactive : entry.status = .active) :
    Coherent (some entry) ((Continuation.storeSecret false reference).effect slot) ↔
      slot.revoked = false := by
  have hnone : slot.record = none := by
    cases hr : slot.record with
    | none => rfl
    | some r =>
        obtain ⟨entry, hentry, -⟩ := (h.agrees r hr (hkind r hr)).row
        cases hentry
  simp only [Continuation.effect, hnone]
  constructor
  · intro hafter
    exact hafter.revoked_eq_false hactive
  · intro hrevoked
    refine of_none hnone fun h => ?_
    rw [hrevoked] at h
    cases h

theorem revoke {f : SecretRow → SecretRow} (h : Coherent row slot)
    (hf : ∀ e, (f e).status = .revoked ∧ (f e).version = e.version) :
    Coherent (row.map f) (Continuation.storeRevocation.effect slot) := by
  have hsilent : ∀ entry, row.map f = some entry → entry.status = .revoked := by
    intro entry hentry
    obtain ⟨e, -, rfl⟩ := Option.map_eq_some_iff.mp hentry
    exact (hf e).1
  cases hr : slot.record with
  | none =>
      simp only [Continuation.effect, hr]
      exact of_none hr fun _ => hsilent
  | some r =>
      simp only [Continuation.effect, hr]
      refine ⟨?_, fun _ => hsilent⟩
      rintro r' hr' hkind
      cases hr'
      obtain ⟨e, hrow, hversion, -⟩ := (h.agrees r hr hkind).row
      refine ⟨⟨f e, by rw [hrow, Option.map_some], ?_, ?_⟩, by simp, by simp⟩
      · rw [hversion, (hf e).2]
      · simp [(hf e).1]

theorem delete : Coherent none (Continuation.deleteRecords.effect slot) :=
  of_none rfl fun _ entry h => by cases h

end Coherent

end Hepha.Connections
