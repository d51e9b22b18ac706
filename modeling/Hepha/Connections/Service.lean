import Hepha.Connections.Stores

/-!
# The connection service

`ProviderConnectionService` keeps the two stores in step without a common
transaction.  A call checks the connection's record, awaits one operation of
the vault and writes the record when it resumes.

An operation of the vault has no `await` of its own, so it has run, and its
promise has settled, when the call awaits it.  What a call does up to its await
is therefore one step (`begin`); the rest of it is a continuation, and
continuations run one after the other in the order in which their calls reached
the await (`resume`).  Any number of calls may begin before the first of them
resumes.
-/

namespace Hepha.Connections

/-! ## Inputs and results -/

structure CreateProviderConnectionInput where
  kind : ConnectionKind
  label : JsString
  provider : ProviderIdentifier
  endpointUrl : JsString
  secretValue : Option JsString

structure UpdateProviderConnectionInput where
  label : Option JsString
  endpointUrl : Option JsString

structure SecretOperationInput where
  connectionId : ConnectionId
  secretValue : Option JsString

inductive DiagnosticFailureCode
  | timeout
  | unreachable
  | authFailed
  | httpError
  | malformedResponse
  | redirectRejected
  | protocolDowngrade
  | invalidEndpoint
  | localEndpoint
  | unavailableVault
  | unknown
deriving DecidableEq

inductive ErrorCode
  | diagnostic (code : DiagnosticFailureCode)
  | generic
  | vaultUnavailable
  | validationError
  | notFound
  | blockedDeletion
deriving DecidableEq

structure Failure where
  error : JsString
  errorCode : ErrorCode
deriving DecidableEq

inductive Answer
  | connection (record : ConnectionRecord)
  | secret (reference : SecretReference)
  | done
deriving DecidableEq

/-- What a call returns, or the message it throws. -/
inductive Result
  | success (answer : Answer)
  | failure (failure : Failure)
  | thrown (message : JsString)
deriving DecidableEq

/-- What `classifyEndpoint` finds about an endpoint. -/
structure EndpointValidation where
  valid : Bool
  isLocal : Bool
  failureCode : Option DiagnosticFailureCode
  safeMessage : JsString

/-! ## Calls in flight -/

inductive Operation
  | createConnection
  | updateConnection
  | createSecret
  | rotateSecret
  | revokeSecret
  | deleteConnection
deriving DecidableEq

structure Outcome where
  operation : Operation
  connectionId : ConnectionId
  result : Result

/-- What is left of a call after its await. -/
inductive Continuation
  /-- `createConnection` writes the record of a new secret. -/
  | insertConnection (record : ConnectionRecord)
  /-- `createSecret` writes the reference, reactivating a revoked record. -/
  | storeSecret (restoringRevokedSecret : Bool) (reference : SecretReference)
  | storeRotation (reference : SecretReference)
  | storeRevocation
  | deleteRecords
  /-- The vault refused; the call only reports it. -/
  | rejected (message : JsString)

structure Pending where
  operation : Operation
  connectionId : ConnectionId
  continuation : Continuation

/-- The two stores, the continuations waiting to run, the oldest first, what
finished calls returned, the latest first, and the identifiers drawn so far. -/
structure System where
  store : ConnectionStore
  vault : List SecretRow
  inFlight : List Pending
  outcomes : List Outcome
  drawn : List ConnectionId

/-- What one step of a call draws: the time and an initialization vector. -/
structure Draw where
  now : JsString
  iv : JsString

namespace System

def initial : System :=
  ⟨⟨[], []⟩, [], [], [], []⟩

def answer (s : System) (operation : Operation) (connectionId : ConnectionId) (result : Result) :
    System :=
  { s with outcomes := ⟨operation, connectionId, result⟩ :: s.outcomes }

def await (s : System) (operation : Operation) (connectionId : ConnectionId)
    (continuation : Continuation) : System :=
  { s with inFlight := s.inFlight ++ [⟨operation, connectionId, continuation⟩] }

end System

/-! ## Continuations -/

/-- The end of a secret operation: the written record and its diagnostic. -/
def finishSecret (store : ConnectionStore) (connectionId : ConnectionId)
    (written : Except JsString ConnectionStore) (answer : Answer) : Result × ConnectionStore :=
  match written with
  | .error message => (.failure ⟨message, .vaultUnavailable⟩, store)
  | .ok next =>
      match next.insertDiagnostic connectionId with
      | .error message => (.failure ⟨message, .vaultUnavailable⟩, next)
      | .ok () => (.success answer, next)

/-- What a continuation writes to the connection store and returns. -/
def Continuation.run (store : ConnectionStore) (connectionId : ConnectionId) (now : JsString) :
    Continuation → Result × ConnectionStore
  | .insertConnection record =>
      match store.insertConnection record with
      | .error message => (.thrown message, store)
      | .ok next => (.success (.connection record), next)
  | .storeSecret restoringRevokedSecret reference =>
      finishSecret store connectionId
        (if restoringRevokedSecret then
          store.replaceSecretAndReactivate connectionId reference.refId reference.version now
        else .ok (store.updateSecretRef connectionId reference.refId reference.version now))
        (.secret reference)
  | .storeRotation reference =>
      finishSecret store connectionId
        (.ok (store.updateSecretRef connectionId reference.refId reference.version now))
        (.secret reference)
  | .storeRevocation =>
      finishSecret store connectionId (.ok (store.updateLifecycleState connectionId .revoked now))
        .done
  | .deleteRecords => (.success .done, store.deleteConnectionAndDependencies connectionId)
  | .rejected message => (.failure ⟨message, .vaultUnavailable⟩, store)

namespace System

/-- Runs a continuation, of a call that awaits nothing or of one that resumes. -/
def finish (s : System) (now : JsString) (p : Pending) : System :=
  let done := p.continuation.run s.store p.connectionId now
  { s with store := done.2 }.answer p.operation p.connectionId done.1

/-- The oldest call in flight resumes. -/
def resume (s : System) (now : JsString) : System :=
  match s.inFlight with
  | [] => s
  | p :: rest => { s with inFlight := rest }.finish now p

end System

/-! ## The calls up to their await -/

section Begin

variable (cipher : Option Cipher) (classifyEndpoint : JsString → EndpointValidation)

/-- The reference under which the vault keeps the secret of a connection. -/
def vaultRefId (connectionId : ConnectionId) : JsString :=
  js "conn-" ++ connectionId

/-- The secret of a revoked connection, which `createSecret` replaces. -/
def ConnectionRecord.restoringRevokedSecret (existing : ConnectionRecord) : Option JsString :=
  if existing.lifecycleState = .revoked then existing.secretRef else none

namespace System

variable (s : System) (draw : Draw)

/-- `createConnection`, with the identifier that `randomUUID` draws. -/
def createConnection (id : ConnectionId) (input : CreateProviderConnectionInput) : System :=
  let endpointValidation := classifyEndpoint input.endpointUrl
  let record (secretRef : Option JsString) (secretVersion : Option ℕ) : ConnectionRecord :=
    { connectionId := id
      kind := input.kind
      label := input.label
      provider := input.provider
      endpointUrl := input.endpointUrl
      endpointLocal := endpointValidation.isLocal
      lifecycleState := .active
      secretRef := secretRef
      secretVersion := secretVersion
      createdAt := draw.now
      updatedAt := draw.now }
  let s := { s with drawn := id :: s.drawn }
  if endpointValidation.valid = false then
    s.answer .createConnection id (.failure ⟨endpointValidation.safeMessage,
      (endpointValidation.failureCode.map ErrorCode.diagnostic).getD .generic⟩)
  else if input.kind = .piSession then
    s.finish draw.now ⟨.createConnection, id, .insertConnection (record none none)⟩
  else
    match JsString.truthy input.secretValue with
    | none => s.answer .createConnection id (.failure
        ⟨js "Secret value is required for non-Pi Session connections", .validationError⟩)
    | some value =>
        if Vault.isAvailable cipher = false then
          s.answer .createConnection id (.failure
            ⟨js "Secret vault is unavailable. Configure HEPHA_VAULT_KEY.", .vaultUnavailable⟩)
        else
          match Vault.createSecret cipher s.vault (vaultRefId id) value draw.iv draw.now with
          | .error message => s.await .createConnection id (.rejected message)
          | .ok (ref, vault) => { s with vault := vault }.await .createConnection id
              (.insertConnection (record (some ref.refId) (some ref.version)))

/-- `updateConnection` awaits nothing. -/
def updateConnection (connectionId : ConnectionId) (input : UpdateProviderConnectionInput) :
    System :=
  match s.store.getConnection connectionId with
  | none => s.answer .updateConnection connectionId
      (.failure ⟨js "Connection not found", .notFound⟩)
  | some existing =>
      let updated (store : ConnectionStore) : System :=
        { s with store := store }.answer .updateConnection connectionId
          (.success (.connection ((store.getConnection connectionId).getD existing)))
      match JsString.truthy input.endpointUrl, JsString.truthy input.label with
      | some endpointUrl, _ =>
          let endpointValidation := classifyEndpoint endpointUrl
          if endpointValidation.valid = false then
            s.answer .updateConnection connectionId (.failure ⟨endpointValidation.safeMessage,
              (endpointValidation.failureCode.map ErrorCode.diagnostic).getD .generic⟩)
          else
            updated (s.store.updateConnectionFields connectionId
              (input.label.getD existing.label) endpointUrl endpointValidation.isLocal draw.now)
      | none, some label =>
          updated (s.store.updateConnectionFields connectionId label existing.endpointUrl
            existing.endpointLocal draw.now)
      | none, none => updated s.store

/-- What `createSecret` checks before it calls the vault. -/
def checkCreateSecret (input : SecretOperationInput) :
    Except Failure (ConnectionRecord × JsString) :=
  match s.store.getConnection input.connectionId with
  | none => .error ⟨js "Connection not found", .notFound⟩
  | some existing =>
      if existing.kind = .piSession then
        .error ⟨js "Pi Session connections do not use secrets", .validationError⟩
      else if Vault.isAvailable cipher = false then
        .error ⟨js "Secret vault is unavailable", .vaultUnavailable⟩
      else
        match JsString.truthy input.secretValue with
        | none => .error ⟨js "Secret value is required", .validationError⟩
        | some value => .ok (existing, value)

def createSecret (input : SecretOperationInput) : System :=
  match s.checkCreateSecret cipher input with
  | .error failure => s.answer .createSecret input.connectionId (.failure failure)
  | .ok (existing, value) =>
      let restoring := existing.restoringRevokedSecret
      let stored :=
        match restoring with
        | some secretRef => Vault.rotateSecret cipher s.vault secretRef value draw.iv draw.now
        | none => Vault.createSecret cipher s.vault (vaultRefId input.connectionId) value draw.iv
            draw.now
      match stored with
      | .error message => s.await .createSecret input.connectionId (.rejected message)
      | .ok (ref, vault) => { s with vault := vault }.await .createSecret input.connectionId
          (.storeSecret restoring.isSome ref)

/-- What `rotateSecret` checks before it calls the vault. -/
def checkRotateSecret (input : SecretOperationInput) : Except Failure (JsString × JsString) :=
  match s.store.getConnection input.connectionId with
  | none => .error ⟨js "Connection not found", .notFound⟩
  | some existing =>
      if existing.kind = .piSession then
        .error ⟨js "Pi Session connections do not use secrets", .validationError⟩
      else
        match JsString.truthy existing.secretRef with
        | none => .error ⟨js "No secret exists to rotate", .validationError⟩
        | some secretRef =>
            if Vault.isAvailable cipher = false then
              .error ⟨js "Secret vault is unavailable", .vaultUnavailable⟩
            else
              match JsString.truthy input.secretValue with
              | none => .error ⟨js "New secret value is required", .validationError⟩
              | some value => .ok (secretRef, value)

def rotateSecret (input : SecretOperationInput) : System :=
  match s.checkRotateSecret cipher input with
  | .error failure => s.answer .rotateSecret input.connectionId (.failure failure)
  | .ok (secretRef, value) =>
      match Vault.rotateSecret cipher s.vault secretRef value draw.iv draw.now with
      | .error message => s.await .rotateSecret input.connectionId (.rejected message)
      | .ok (ref, vault) => { s with vault := vault }.await .rotateSecret input.connectionId
          (.storeRotation ref)

/-- What `revokeSecret` checks before it calls the vault. -/
def checkRevokeSecret (connectionId : ConnectionId) : Except Failure JsString :=
  match s.store.getConnection connectionId with
  | none => .error ⟨js "Connection not found", .notFound⟩
  | some existing =>
      if existing.kind = .piSession then
        .error ⟨js "Pi Session connections do not use secrets", .validationError⟩
      else
        match JsString.truthy existing.secretRef with
        | none => .error ⟨js "No secret to revoke", .validationError⟩
        | some secretRef =>
            if Vault.isAvailable cipher = false then
              .error ⟨js "Secret vault is unavailable", .vaultUnavailable⟩
            else .ok secretRef

def revokeSecret (connectionId : ConnectionId) : System :=
  match s.checkRevokeSecret cipher connectionId with
  | .error failure => s.answer .revokeSecret connectionId (.failure failure)
  | .ok secretRef =>
      match Vault.revokeSecret cipher s.vault secretRef draw.now with
      | .error message => s.await .revokeSecret connectionId (.rejected message)
      | .ok vault => { s with vault := vault }.await .revokeSecret connectionId .storeRevocation

/-- What `deleteConnection` checks: the record, and that the resolution
acknowledges every blocker. -/
def checkDeleteConnection (connectionId : ConnectionId)
    (resolution : Option (List DeletionBlocker)) : Except Failure ConnectionRecord :=
  match s.store.getConnection connectionId with
  | none => .error ⟨js "Connection not found", .notFound⟩
  | some existing =>
      let blockers := s.store.deletionPreflight connectionId
      match blockers, resolution with
      | [], _ => .ok existing
      | _ :: _, none => .error
          ⟨js "Connection has active dependencies and cannot be deleted", .blockedDeletion⟩
      | _ :: _, some acknowledgedBlockers =>
          match blockers.filter fun b => b ∉ acknowledgedBlockers with
          | [] => .ok existing
          | unresolved => .error ⟨js "Unresolved blockers: " ++
              (js ", ").intercalate (unresolved.map DeletionBlocker.safeDescriptor),
              .blockedDeletion⟩

/-- `deleteConnection`: without a secret or a vault nothing is awaited. -/
def deleteConnection (connectionId : ConnectionId) (resolution : Option (List DeletionBlocker)) :
    System :=
  match s.checkDeleteConnection connectionId resolution with
  | .error failure => s.answer .deleteConnection connectionId (.failure failure)
  | .ok existing =>
      match JsString.truthy existing.secretRef with
      | none => s.finish draw.now ⟨.deleteConnection, connectionId, .deleteRecords⟩
      | some secretRef =>
          match Vault.deleteSecret cipher s.vault secretRef with
          | .error _ => s.finish draw.now ⟨.deleteConnection, connectionId, .deleteRecords⟩
          | .ok vault => { s with vault := vault }.await .deleteConnection connectionId
              .deleteRecords

end System

inductive Call
  | createConnection (id : ConnectionId) (input : CreateProviderConnectionInput)
  | updateConnection (connectionId : ConnectionId) (input : UpdateProviderConnectionInput)
  | createSecret (input : SecretOperationInput)
  | rotateSecret (input : SecretOperationInput)
  | revokeSecret (connectionId : ConnectionId)
  | deleteConnection (connectionId : ConnectionId) (resolution : Option (List DeletionBlocker))

/-- A call up to its await, or as a whole where it awaits nothing. -/
def System.begin (s : System) (draw : Draw) : Call → System
  | .createConnection id input => s.createConnection cipher classifyEndpoint draw id input
  | .updateConnection connectionId input =>
      s.updateConnection classifyEndpoint draw connectionId input
  | .createSecret input => s.createSecret cipher draw input
  | .rotateSecret input => s.rotateSecret cipher draw input
  | .revokeSecret connectionId => s.revokeSecret cipher draw connectionId
  | .deleteConnection connectionId resolution =>
      s.deleteConnection cipher draw connectionId resolution

end Begin

end Hepha.Connections
