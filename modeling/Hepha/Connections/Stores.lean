import Hepha.Js.Text
import Hepha.Lib.Table

/-!
# Provider connections and the secret vault

Two SQLite files hold a provider connection: the connection store has its
record, with the reference and the version of its secret, and the vault has
the secret itself, encrypted, with a version and a status.  This file has the
rows of both and the operations on them.

The cipher is a parameter: all that is used of it is that what was encrypted
under the vault's key can be decrypted under it.  A vault without a key has no
cipher, and each of its operations throws.

Of the connection store's diagnostics only the foreign key is kept: a
diagnostic of a connection that is not stored is refused.
-/

namespace Hepha.Connections

/-! ## Records -/

abbrev ConnectionId := JsString

inductive ConnectionKind
  | known
  | custom
  | piSession
deriving DecidableEq

inductive KnownProviderId
  | openai
  | deepseek
  | openaiCodex
deriving DecidableEq

inductive ProviderIdentifier
  | known (providerId : KnownProviderId)
  | custom (label : JsString)
  | piSession
deriving DecidableEq

inductive ConnectionLifecycleState
  | active
  | revoked
  | deleted
deriving DecidableEq

/-- `ProviderConnectionRecord`. -/
structure ConnectionRecord where
  connectionId : ConnectionId
  kind : ConnectionKind
  label : JsString
  provider : ProviderIdentifier
  endpointUrl : JsString
  endpointLocal : Bool
  lifecycleState : ConnectionLifecycleState
  secretRef : Option JsString
  secretVersion : Option ℕ
  createdAt : JsString
  updatedAt : JsString
deriving DecidableEq

/-- `ConnectionDependencyRecord`. -/
structure DependencyRecord where
  dependencyId : JsString
  connectionId : ConnectionId
  ownerFeat : JsString
  safeDescriptor : JsString
  registeredAt : JsString
deriving DecidableEq

/-! ## The vault -/

structure Sealed where
  ciphertext : JsString
  iv : JsString
  tag : JsString
deriving DecidableEq

/-- `encrypt` and `decrypt` under one key; the first argument of `encrypt` is
the random initialization vector. -/
structure Cipher where
  encrypt : JsString → JsString → Sealed
  decrypt : Sealed → Option JsString
  decrypt_encrypt : ∀ iv plaintext, (decrypt (encrypt iv plaintext)).isSome

inductive SecretStatus
  | active
  | revoked
deriving DecidableEq

/-- A row of `secret_vault`. -/
structure SecretRow where
  refId : JsString
  sealed : Sealed
  version : ℕ
  status : SecretStatus
  createdAt : JsString
  updatedAt : JsString
deriving DecidableEq

structure SecretReference where
  refId : JsString
  version : ℕ
  createdAt : JsString
deriving DecidableEq

namespace Vault

variable (cipher : Option Cipher) (rows : List SecretRow)

/-- The row of a reference. -/
def row (refId : JsString) : Option SecretRow :=
  Table.find SecretRow.refId rows refId

def unavailable : JsString :=
  js "HEPHA_VAULT_KEY is not configured"

def isAvailable : Bool :=
  cipher.isSome

/-- `HostSecretVault.createSecret`: the reference is the primary key. -/
def createSecret (refId value iv now : JsString) :
    Except JsString (SecretReference × List SecretRow) :=
  match cipher with
  | none => .error unavailable
  | some c =>
      if (row rows refId).isSome then .error (js "UNIQUE constraint failed: secret_vault.ref_id")
      else .ok (⟨refId, 1, now⟩, rows ++ [⟨refId, c.encrypt iv value, 1, .active, now, now⟩])

/-- `HostSecretVault.readSecret`: `none` where there is no active row. -/
def readSecret (refId : JsString) : Except JsString (Option JsString) :=
  match cipher with
  | none => .error unavailable
  | some c =>
      match (row rows refId).filter fun r => r.status = .active with
      | none => .ok none
      | some r =>
          match c.decrypt r.sealed with
          | none => .error (js "Unsupported state or unable to authenticate data")
          | some value => .ok (some value)

/-- `HostSecretVault.rotateSecret`: the row becomes active whatever its status
was, and a missing row is inserted. -/
def rotateSecret (refId value iv now : JsString) :
    Except JsString (SecretReference × List SecretRow) :=
  match cipher with
  | none => .error unavailable
  | some c =>
      match row rows refId with
      | some existing =>
          .ok (⟨refId, existing.version + 1, now⟩,
            Table.update SecretRow.refId rows refId fun r =>
              { r with
                sealed := c.encrypt iv value
                version := existing.version + 1
                status := .active
                updatedAt := now })
      | none =>
          .ok (⟨refId, 1, now⟩, rows ++ [⟨refId, c.encrypt iv value, 1, .active, now, now⟩])

/-- `HostSecretVault.revokeSecret`. -/
def revokeSecret (refId now : JsString) : Except JsString (List SecretRow) :=
  match cipher with
  | none => .error unavailable
  | some _ =>
      .ok (Table.update SecretRow.refId rows refId fun r =>
        { r with status := .revoked, updatedAt := now })

/-- `HostSecretVault.deleteSecret`. -/
def deleteSecret (refId : JsString) : Except JsString (List SecretRow) :=
  match cipher with
  | none => .error unavailable
  | some _ => .ok (Table.delete SecretRow.refId rows refId)

/-! ### What the operations write -/

variable {cipher rows} {next : List SecretRow} {refId value iv now : JsString}
  {reference : SecretReference} {entry : SecretRow}

/-- `next` has a new row, or none, for one reference and is else the same. -/
def Writes (rows next : List SecretRow) (refId : JsString) (entry : Option SecretRow) : Prop :=
  ∀ other, row next other = if other = refId then entry else row rows other

theorem Writes.row_eq {found : Option SecretRow} (h : Writes rows next refId found) :
    row next refId = found := by
  rw [h refId, if_pos rfl]

theorem Writes.row_ne {found : Option SecretRow} (h : Writes rows next refId found)
    {other : JsString} (hne : other ≠ refId) : row next other = row rows other := by
  rw [h other, if_neg hne]

/-- An active row with the version of the reference. -/
structure Stored (cipher : Option Cipher) (rows next : List SecretRow) (refId : JsString)
    (reference : SecretReference) (entry : SecretRow) : Prop where
  available : cipher.isSome
  writes : Writes rows next refId (some entry)
  active : entry.status = .active
  version : entry.version = reference.version
  refId : reference.refId = refId
  readable : ∀ c, cipher = some c → (c.decrypt entry.sealed).isSome

theorem writes_insert (hnone : row rows entry.refId = none) :
    Writes rows (rows ++ [entry]) entry.refId (some entry) := by
  intro other
  rw [row, Table.find_append]
  by_cases h : other = entry.refId
  · subst h
    rw [row] at hnone
    simp [hnone]
  · simp [row, h, Ne.symm h]

theorem writes_update {f : SecretRow → SecretRow} (hf : ∀ r, (f r).refId = r.refId) :
    Writes rows (Table.update SecretRow.refId rows refId f) refId ((row rows refId).map f) := by
  intro other
  rw [row, Table.find_update hf]
  by_cases h : other = refId
  · subst h
    simp [row]
  · simp [h, row]

theorem createSecret_ok (h : createSecret cipher rows refId value iv now = .ok (reference, next)) :
    row rows refId = none ∧ ∃ entry, Stored cipher rows next refId reference entry := by
  unfold createSecret at h
  cases cipher with
  | none => cases h
  | some c =>
      cases hrow : row rows refId with
      | some found => simp [hrow] at h
      | none =>
          simp only [hrow, Option.isSome_none, Bool.false_eq_true, if_false, Except.ok.injEq,
            Prod.mk.injEq] at h
          obtain ⟨rfl, rfl⟩ := h
          refine ⟨rfl, _, rfl, writes_insert hrow, rfl, rfl, rfl, ?_⟩
          intro c' hc
          cases hc
          exact c.decrypt_encrypt iv value

/-- A rotation counts on from the version of the row that it finds. -/
theorem rotateSecret_ok (h : rotateSecret cipher rows refId value iv now = .ok (reference, next)) :
    reference.version = ((row rows refId).map SecretRow.version).getD 0 + 1 ∧
      ∃ entry, Stored cipher rows next refId reference entry := by
  unfold rotateSecret at h
  cases cipher with
  | none => cases h
  | some c =>
      cases hrow : row rows refId with
      | none =>
          simp only [hrow, Except.ok.injEq, Prod.mk.injEq] at h
          obtain ⟨rfl, rfl⟩ := h
          refine ⟨rfl, _, rfl, writes_insert hrow, rfl, rfl, rfl, ?_⟩
          intro c' hc
          cases hc
          exact c.decrypt_encrypt iv value
      | some found =>
          simp only [hrow, Except.ok.injEq, Prod.mk.injEq] at h
          obtain ⟨rfl, rfl⟩ := h
          refine ⟨rfl, { found with
            sealed := c.encrypt iv value, version := found.version + 1, status := .active,
            updatedAt := now }, rfl, ?_, rfl, rfl, rfl, ?_⟩
          · have hwrites : Writes rows _ refId ((row rows refId).map fun r => { r with
                sealed := c.encrypt iv value, version := found.version + 1, status := .active,
                updatedAt := now }) := writes_update fun _ => rfl
            rw [hrow] at hwrites
            exact hwrites
          · intro c' hc
            cases hc
            exact c.decrypt_encrypt iv value

theorem revokeSecret_ok (h : revokeSecret cipher rows refId now = .ok next) :
    cipher.isSome ∧ Writes rows next refId
      ((row rows refId).map fun r => { r with status := .revoked, updatedAt := now }) := by
  unfold revokeSecret at h
  cases cipher with
  | none => cases h
  | some c =>
      cases h
      exact ⟨rfl, writes_update fun _ => rfl⟩

theorem deleteSecret_ok (h : deleteSecret cipher rows refId = .ok next) :
    cipher.isSome ∧ Writes rows next refId none := by
  unfold deleteSecret at h
  cases cipher with
  | none => cases h
  | some c =>
      cases h
      exact ⟨rfl, fun other => Table.find_delete refId other⟩

/-- Every row can be decrypted. -/
def Readable (cipher : Option Cipher) (rows : List SecretRow) : Prop :=
  ∀ c, cipher = some c → ∀ refId entry, row rows refId = some entry →
    (c.decrypt entry.sealed).isSome

theorem Readable.write {found : Option SecretRow} (h : Readable cipher rows)
    (hwrites : Writes rows next refId found)
    (hfound : ∀ c, cipher = some c → ∀ entry, found = some entry →
      (c.decrypt entry.sealed).isSome) : Readable cipher next := by
  intro c hc other entry hrow
  rw [hwrites other] at hrow
  split at hrow
  · exact hfound c hc entry hrow
  · exact h c hc other entry hrow

/-- The vault gives out what is active. -/
theorem readSecret_eq (havailable : cipher.isSome) (hreadable : Readable cipher rows) :
    (readSecret cipher rows refId = .ok none ↔
      ∀ entry, row rows refId = some entry → entry.status = .revoked) ∧
    ((∃ value, readSecret cipher rows refId = .ok (some value)) ↔
      ∃ entry, row rows refId = some entry ∧ entry.status = .active) := by
  obtain ⟨c, rfl⟩ := Option.isSome_iff_exists.mp havailable
  unfold readSecret
  cases hrow : row rows refId with
  | none => simp
  | some entry =>
      obtain ⟨value, hvalue⟩ := Option.isSome_iff_exists.mp (hreadable c rfl refId entry hrow)
      cases hstatus : entry.status with
      | active => simp [Option.filter, hstatus, hvalue]
      | revoked => simp [Option.filter, hstatus]

end Vault

/-! ## The connection store -/

/-- The tables of `ProviderConnectionStore`. -/
structure ConnectionStore where
  connections : List ConnectionRecord
  dependencies : List DependencyRecord

inductive BlockerType
  | routingPolicy
  | activeWorker
deriving DecidableEq

structure DeletionBlocker where
  blockerType : BlockerType
  safeDescriptor : JsString
deriving DecidableEq

namespace ConnectionStore

variable (store : ConnectionStore)

def getConnection (connectionId : ConnectionId) : Option ConnectionRecord :=
  Table.find ConnectionRecord.connectionId store.connections connectionId

/-- `insertConnection`: the identifier is the primary key. -/
def insertConnection (record : ConnectionRecord) : Except JsString ConnectionStore :=
  if (store.getConnection record.connectionId).isSome then
    .error (js "UNIQUE constraint failed: provider_connections.connection_id")
  else .ok { store with connections := store.connections ++ [record] }

/-- An `update provider_connections … where connection_id = ?`. -/
def updateConnection (connectionId : ConnectionId) (f : ConnectionRecord → ConnectionRecord) :
    ConnectionStore :=
  { store with
    connections := Table.update ConnectionRecord.connectionId store.connections connectionId f }

def updateConnectionFields (connectionId : ConnectionId) (label endpointUrl : JsString)
    (endpointLocal : Bool) (now : JsString) : ConnectionStore :=
  store.updateConnection connectionId fun c =>
    { c with
      label := label, endpointUrl := endpointUrl, endpointLocal := endpointLocal, updatedAt := now }

def updateLifecycleState (connectionId : ConnectionId) (lifecycleState : ConnectionLifecycleState)
    (now : JsString) : ConnectionStore :=
  store.updateConnection connectionId fun c =>
    { c with lifecycleState := lifecycleState, updatedAt := now }

/-- `updateSecretRef` with a reference; the service never clears one. -/
def updateSecretRef (connectionId : ConnectionId) (secretRef : JsString) (secretVersion : ℕ)
    (now : JsString) : ConnectionStore :=
  store.updateConnection connectionId fun c =>
    { c with secretRef := some secretRef, secretVersion := some secretVersion, updatedAt := now }

/-- `replaceSecretAndReactivate`: one revoked record must change. -/
def replaceSecretAndReactivate (connectionId : ConnectionId) (secretRef : JsString)
    (secretVersion : ℕ) (now : JsString) : Except JsString ConnectionStore :=
  match store.getConnection connectionId with
  | some existing =>
      if existing.lifecycleState = .revoked then
        .ok (store.updateConnection connectionId fun c =>
          { c with
            secretRef := some secretRef
            secretVersion := some secretVersion
            lifecycleState := .active
            updatedAt := now })
      else .error (js "Revoked provider connection was not reactivated.")
  | none => .error (js "Revoked provider connection was not reactivated.")

/-- The foreign key of `insertDiagnostic` (and of a dependency). -/
def insertDiagnostic (connectionId : ConnectionId) : Except JsString Unit :=
  if (store.getConnection connectionId).isSome then .ok ()
  else .error (js "FOREIGN KEY constraint failed")

def insertDependency (record : DependencyRecord) : Except JsString ConnectionStore := do
  store.insertDiagnostic record.connectionId
  return { store with dependencies := store.dependencies ++ [record] }

/-- The blockers of `deletionPreflight`; without any, the connection can be
deleted. -/
def deletionPreflight (connectionId : ConnectionId) : List DeletionBlocker :=
  (store.dependencies.filter fun d => d.connectionId = connectionId).map fun d =>
    ⟨if d.ownerFeat = js "FEAT-062" then .activeWorker else .routingPolicy, d.safeDescriptor⟩

def deleteConnectionAndDependencies (connectionId : ConnectionId) : ConnectionStore where
  connections := Table.delete ConnectionRecord.connectionId store.connections connectionId
  dependencies := store.dependencies.filter fun d => d.connectionId ≠ connectionId

/-! ### What the operations write -/

variable {store} {next : ConnectionStore} {connectionId : ConnectionId}

theorem getConnection_updateConnection {f : ConnectionRecord → ConnectionRecord}
    (hf : ∀ c, (f c).connectionId = c.connectionId) (id : ConnectionId) :
    (store.updateConnection connectionId f).getConnection id =
      if id = connectionId then (store.getConnection id).map f else store.getConnection id :=
  Table.find_update hf id

theorem getConnection_delete (id : ConnectionId) :
    (store.deleteConnectionAndDependencies connectionId).getConnection id =
      if id = connectionId then none else store.getConnection id :=
  Table.find_delete connectionId id

theorem getConnection_insert {record : ConnectionRecord}
    (hnone : store.getConnection record.connectionId = none) :
    ∃ next, store.insertConnection record = .ok next ∧ ∀ id, next.getConnection id =
      if id = record.connectionId then some record else store.getConnection id := by
  refine ⟨{ store with connections := store.connections ++ [record] }, ?_, ?_⟩
  · simp [insertConnection, hnone]
  · intro id
    rw [getConnection, Table.find_append]
    by_cases h : id = record.connectionId
    · subst h
      rw [getConnection] at hnone
      simp [hnone]
    · simp [getConnection, h, Ne.symm h]

theorem getConnection_insertDependency {record : DependencyRecord}
    (h : store.insertDependency record = .ok next) (id : ConnectionId) :
    next.getConnection id = store.getConnection id := by
  unfold insertDependency at h
  cases hkey : store.insertDiagnostic record.connectionId with
  | error message => simp [hkey, bind, Except.bind] at h
  | ok u =>
      simp only [hkey, bind, Except.bind, pure, Except.pure, Except.ok.injEq] at h
      subst h
      rfl

end ConnectionStore

end Hepha.Connections
